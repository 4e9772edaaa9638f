import Exchange.Proofs.Pipeline.Trail

/-!
What is owed by stages that wrap the rest of a pipeline.

Such a stage answers by itself or lets the rest run once and then makes its own result, unless
something cuts it short (`Stint.wraps`). What a stage below fails with comes to it next if it wraps,
and passes it by otherwise (`Stint.after_failure`). So a stage that has to run the rest hands out
a response only if it did, and a failure in its place if it did not
(`Lineup.continuations_honoured`).
-/
namespace Exchange.Pipeline

open Http (Response)

variable {σ W : Type}

theorem Stage.role_of_obliged {stage : Stage σ W} (h : stage.obliged = true) (spent : Bool) :
    stage.role spent = .wraps := by
  induction stage with
  | wrapping => rfl
  | hop inner _ ih => exact ih h
  | before | after | around | terminal | reactive => cases h

/-! ### One stage -/

section Stints

variable {below : List Mark → Ending Failure Response → Prop} {role : Role} {obliged : Bool}
  {k : Nat} {own : List Mark} {ending : Ending Failure Response}

/-- What a wrapping stage enters: that it answers by itself, or that the rest is run once and what
it makes of that. Otherwise it is cut short and comes to no response. -/
theorem Stint.wraps (hbelow : ∀ lower given, below lower given → ∀ m ∈ lower, m.stage ≠ k)
    (h : Stint below .wraps obliged k own ending) :
    (∃ x, own = [.did k (.declined x)] ∧ ending = .ofExcept (verdict obliged k x)) ∨
    (∃ lower given x, below lower (.ofExcept given) ∧
      own = .did k .proceeded :: (lower ++ [.did k (.resumed given x)]) ∧ ending = .ofExcept x) ∨
    (∀ d, .did k d ∈ own → d = .proceeded ∨ ∃ m, d = .panicked m) ∧ ∀ r, ending ≠ .done r := by
  induction h with
  | turns hturns hverdict =>
    refine .inl ?_
    cases hturns with
    | declined => exact ⟨_, rfl, congrArg Ending.ofExcept (hverdict _ rfl)⟩
    | neglected r f => exact ⟨.ok r, rfl, congrArg Ending.ofExcept (hverdict _ rfl)⟩
  | passes hpasses hlower =>
    cases hpasses with
    | resumed => exact .inr (.inl ⟨_, _, _, hlower, by simp, rfl⟩)
  | lost f => exact .inr (.inr ⟨(fun _ h => by cases h), fun _ h => by cases h⟩)
  | raised m => exact .inr (.inr ⟨by simp, fun _ h => by cases h⟩)
  | raisedBelow hpasses hlower =>
    cases hpasses with
    | resumed given x =>
      refine .inr (.inr ⟨fun d hd => ?_, fun _ h => by cases h⟩)
      rcases List.mem_append.mp hd with hd | hd
      · exact .inl (by simpa using hd)
      · exact absurd rfl (hbelow _ _ hlower _ hd)
  | raisedLate m hpasses hlower =>
    cases hpasses with
    | resumed given x =>
      refine .inr (.inr ⟨fun d hd => ?_, fun _ h => by cases h⟩)
      rcases List.mem_append.mp hd with hd | hd
      · rcases List.mem_append.mp hd with hd | hd
        · exact .inl (by simpa using hd)
        · exact absurd rfl (hbelow _ _ hlower _ hd)
      · exact .inr ⟨m, by simpa using hd⟩
  | caught f _ ih =>
    rcases ih with ⟨x, -, hx⟩ | ⟨_, _, x, -, -, hx⟩ | ⟨hdeeds, -⟩
    · generalize verdict obliged k x = y at hx
      cases y <;> cases hx
    · cases x <;> cases hx
    · exact .inr (.inr ⟨hdeeds, fun _ h => by cases h⟩)

theorem stretch_grows {m : String} {f : Failure} :
    stretch k own (.panicked m) <+: stretch k own (.failed f) :=
  ⟨[.returned k (.error f)], by simp [stretch, closing]⟩

/-- What a failure of the stages below is followed by. -/
inductive Onward (role : Role) (k : Nat) (f : Failure) : Mark → Prop where
  | shown (x : Except Failure Response) : role = .wraps →
      Onward role k f (.did k (.resumed (.error f) x))
  | panicked (m : String) : role = .wraps → Onward role k f (.did k (.panicked m))
  | passed : role ≠ .wraps → Onward role k f (.returned k (.error f))

/-- A failure of the stages below is shown to a stage that wraps them, and returned as it is from
any other. -/
theorem Stint.after_failure {f : Failure}
    (hbelow : ∀ lower given, below lower given → .returned (k + 1) (.error f) ∈ lower →
      ∃ front, lower = front ++ [.returned (k + 1) (.error f)] ∧ given = .failed f)
    (h : Stint below role obliged k own ending) (hm : .returned (k + 1) (.error f) ∈ own) :
    ∃ next, Onward role k f next ∧
      [.returned (k + 1) (.error f), next] <:+: stretch k own ending := by
  have hdeeds : ∀ deeds : List Deed, .returned (k + 1) (.error f) ∉ deeds.map (Mark.did k) := by
    simp
  induction h with
  | turns _ _ => exact absurd hm (hdeeds _)
  | @passes early lower given late result hpasses hlower =>
    have hlow : .returned (k + 1) (.error f) ∈ lower := by
      simpa using hm
    obtain ⟨front, rfl, hgiven⟩ := hbelow _ _ hlower hlow
    cases given with
    | ok r => cases hgiven
    | error g =>
      cases hgiven
      cases hpasses with
      | passed =>
        refine ⟨_, .passed (by decide), .reached k :: .did k .passed :: front, [], ?_⟩
        simp [stretch, closing, Ending.ofExcept]
      | resumed =>
        refine ⟨_, .shown result rfl, .reached k :: .did k .proceeded :: front,
          [.returned k result], ?_⟩
        simp [stretch, closing_ofExcept]
      | passedOver =>
        refine ⟨_, .passed (by decide), .reached k :: front, [], ?_⟩
        simp [stretch, closing, Ending.ofExcept]
      | idled =>
        refine ⟨_, .passed (by decide), .reached k :: front, [], ?_⟩
        simp [stretch, closing, Ending.ofExcept]
  | lost _ => cases hm
  | raised m => exact absurd hm (hdeeds [.panicked m])
  | raisedBelow _ hlower =>
    obtain ⟨-, -, hgiven⟩ := hbelow _ _ hlower ((List.mem_append.mp hm).resolve_left (hdeeds _))
    cases hgiven
  | @raisedLate early lower given d result m hpasses hlower =>
    have hlow : .returned (k + 1) (.error f) ∈ lower := by
      simpa using hm
    obtain ⟨front, rfl, hgiven⟩ := hbelow _ _ hlower hlow
    cases given with
    | ok r => cases hgiven
    | error g =>
      cases hgiven
      cases hpasses with
      | resumed _ x =>
        refine ⟨_, .panicked m rfl, .reached k :: .did k .proceeded :: front, [], ?_⟩
        simp [stretch, closing]
  | caught _ _ ih =>
    obtain ⟨next, hnext, hpart⟩ := ih hm
    exact ⟨next, hnext, hpart.trans stretch_grows.isInfix⟩

end Stints

/-! ### In trails -/

section Trails

variable {spent obliged : Bool} {role : Role} {k : Nat} {below stages : List (Stage σ W)}
  {own marks : List Mark} {ending : Ending Failure Response}

/-- What returns from a stage is what its stint ends with. -/
theorem Stint.ending_of_returned {x : Except Failure Response}
    (h : Stint (Trail spent (k + 1) below) role obliged k own ending)
    (hm : .returned k x ∈ stretch k own ending) : ending = .ofExcept x := by
  rcases List.mem_cons.mp hm with hm | hm
  · cases hm
  rcases List.mem_append.mp hm with hm | hm
  · rcases h.mem hm with ⟨d, hd⟩ | ⟨lower, given, hbelow, -, hm⟩
    · cases hd
    · exact absurd (hbelow.le_stage hm) (Nat.not_succ_le_self k)
  · obtain ⟨result, hresult, hending⟩ := mem_closing hm
    cases hresult
    exact hending

/-- What a stage does is entered during its stint. -/
theorem did_mem {d : Deed} (hm : .did k d ∈ stretch k own ending) : .did k d ∈ own := by
  rcases List.mem_cons.mp hm with hm | hm
  · cases hm
  rcases List.mem_append.mp hm with hm | hm
  · exact hm
  · obtain ⟨_, hresult, -⟩ := mem_closing hm
    cases hresult

/-- A run through some stages ends when it returns from the first of them. -/
theorem Trail.returned {x : Except Failure Response} (h : Trail spent k stages marks ending)
    (hm : .returned k x ∈ marks) :
    ∃ front, marks = front ++ [.returned k x] ∧ ending = .ofExcept x := by
  cases stages with
  | nil =>
    obtain ⟨rfl, -⟩ := h
    cases hm
  | cons stage below =>
    obtain ⟨own, hstint, rfl⟩ := h
    obtain rfl := hstint.ending_of_returned hm
    exact ⟨.reached k :: own, by simp [stretch, closing_ofExcept], rfl⟩

/-- What a wrapping stage does in a trail. -/
theorem Stint.wraps_trail (h : Stint (Trail spent (k + 1) below) .wraps obliged k own ending) :
    (∃ x, own = [.did k (.declined x)] ∧ ending = .ofExcept (verdict obliged k x)) ∨
    (∃ lower given x, Trail spent (k + 1) below lower (.ofExcept given) ∧
      own = .did k .proceeded :: (lower ++ [.did k (.resumed given x)]) ∧ ending = .ofExcept x) ∨
    (∀ d, .did k d ∈ own → d = .proceeded ∨ ∃ m, d = .panicked m) ∧ ∀ r, ending ≠ .done r :=
  h.wraps fun _ _ hlower _ hm => Nat.ne_of_gt (hlower.le_stage hm)

theorem not_did_lower {d : Deed} {lower : List Mark}
    (h : Trail spent (k + 1) below lower ending) : .did k d ∉ lower :=
  fun hm => Nat.not_succ_le_self k (h.le_stage hm)

/-- A wrapping stage that answers by itself does nothing else. -/
theorem Stint.declined {x : Except Failure Response}
    (h : Stint (Trail spent (k + 1) below) .wraps obliged k own ending)
    (hm : .did k (.declined x) ∈ own) :
    stretch k own ending =
      [.reached k, .did k (.declined x), .returned k (verdict obliged k x)] := by
  rcases h.wraps_trail with ⟨y, rfl, rfl⟩ | ⟨lower, given, y, hlower, rfl, -⟩ | ⟨hdeeds, -⟩
  · have hy : x = y := by simpa using hm
    rw [stretch, closing_ofExcept, hy]
    rfl
  · have hnot := not_did_lower (d := .declined x) hlower
    simp [hnot] at hm
  · rcases hdeeds _ hm with h | ⟨m, h⟩ <;> cases h

/-- A wrapping stage that makes a result of its own has had the rest run once before. -/
theorem Stint.resumed {given x : Except Failure Response}
    (h : Stint (Trail spent (k + 1) below) .wraps obliged k own ending)
    (hm : .did k (.resumed given x) ∈ own) :
    ∃ lower, Trail spent (k + 1) below lower (.ofExcept given) ∧
      stretch k own ending = [.reached k, .did k .proceeded] ++ lower ++
        [.did k (.resumed given x), .returned k x] := by
  rcases h.wraps_trail with ⟨y, rfl, -⟩ | ⟨lower, given', y, hlower, rfl, rfl⟩ | ⟨hdeeds, -⟩
  · simp at hm
  · have hnot := not_did_lower (d := .resumed given x) hlower
    obtain ⟨rfl, rfl⟩ : given = given' ∧ x = y := by simpa [hnot] using hm
    exact ⟨lower, hlower, by simp [stretch, closing_ofExcept]⟩
  · rcases hdeeds _ hm with h | ⟨m, h⟩ <;> cases h

/-- A stage that has to run the rest and comes to a response has run it once. -/
theorem Stint.honoured {r : Response}
    (h : Stint (Trail spent (k + 1) below) .wraps true k own (.done r)) :
    ∃ given, .did k (.resumed given (.ok r)) ∈ own := by
  rcases h.wraps_trail with ⟨y, -, hy⟩ | ⟨lower, given, y, -, rfl, hy⟩ | ⟨-, hnone⟩
  · cases y <;> cases hy
  · cases y with
    | ok r' =>
      cases hy
      exact ⟨given, by simp⟩
    | error f => cases hy
  · exact absurd rfl (hnone r)

end Trails

/-! ### In line-ups -/

namespace Lineup

/-- Line-ups leave trails. -/
theorem trail (p : Lineup σ W) (s : State σ W) :
    Trail s.spent 0 p.stages (p.marks s) (p.execute s).1 := by
  obtain ⟨marks, hlog, htrail⟩ := tracedFrom_trail 0 p.stages none s.logged rfl
  have hmarks : p.marks s = marks := hlog
  have hending : (p.traced s).1 = (p.execute s).1 :=
    congrArg Prod.fst (plain_tracedFrom 0 p.stages none s.logged)
  rw [hmarks, ← hending]
  exact htrail

/-- The stage after which another one follows enters what it and those below it do in one stint. -/
theorem located {covering : List (Stage σ W)} {last stage : Stage σ W} {s : State σ W} {k : Nat}
    (hk : covering[k]? = some stage) {m : Mark} (hm : m ∈ marks ⟨covering ++ [last]⟩ s)
    (hle : k ≤ m.stage) :
    ∃ (next : Stage σ W) (below : List (Stage σ W)) (own : List Mark)
      (ending : Ending Failure Response),
      Stint (Trail s.spent (k + 1) (next :: below)) (stage.role s.spent) stage.obliged k own
        ending ∧
      stretch k own ending <:+: marks ⟨covering ++ [last]⟩ s ∧ m ∈ stretch k own ending := by
  obtain ⟨above, stage', below, own, ending, hstages, hlength, hstint, hpart, hmem⟩ :=
    (trail ⟨covering ++ [last]⟩ s).within hm (Nat.zero_le k) hle
  rw [Nat.zero_add] at hlength
  subst hlength
  replace hstages : covering ++ [last] = above ++ stage' :: below := hstages
  obtain ⟨hlt, -⟩ := List.getElem?_eq_some_iff.mp hk
  have hsame : some stage = some stage' := by
    rw [← hk, ← List.getElem?_append_left hlt, hstages, List.getElem?_append_right (Nat.le_refl _),
      Nat.sub_self, List.getElem?_cons_zero]
  obtain rfl := Option.some.inj hsame
  cases below with
  | nil =>
    have hlength := congrArg List.length hstages
    simp only [List.length_append, List.length_singleton] at hlength
    omega
  | cons next below => exact ⟨next, below, own, ending, hstint, hpart, hmem⟩

/-- The run comes to what it returns with from its first stage. -/
theorem returned_zero (covering : List (Stage σ W)) (last : Stage σ W) (s : State σ W)
    (result : Except Failure Response) :
    .returned 0 result ∈ marks ⟨covering ++ [last]⟩ s ↔
      (execute ⟨covering ++ [last]⟩ s).1 = .ofExcept result := by
  have htrail := trail ⟨covering ++ [last]⟩ s
  refine ⟨fun hm => (htrail.returned hm).elim fun _ h => h.2, fun hending => ?_⟩
  obtain ⟨first, rest, hstages⟩ : ∃ first rest, covering ++ [last] = first :: rest :=
    List.exists_cons_of_ne_nil (by simp)
  rw [hending, hstages] at htrail
  obtain ⟨own, -, hmarks⟩ := htrail
  rw [hstages, hmarks, stretch, closing_ofExcept]
  simp

/-- **Continuations are honoured.** Whatever the stages of a line-up do, and even if some of them
panic, each is reached at most once and returns at most once, and the line-up comes to what its
first stage returns with. Let a stage have to run the rest, on pools or not. When it returns with a
response, then it has proceeded, the stages below it have been run once between, and the response is
what it made of their result. When it answers without the rest, then a failure of integrity is
returned in its place. A failure of a wrapping stage is returned as it is, whether the stage has
proceeded or not, and so is the response of one that need not run the rest. A failure that is
returned from below a stage is shown to it if it wraps, and otherwise returned from it at once. -/
theorem continuations_honoured (covering : List (Stage σ W)) (last : Stage σ W) (s : State σ W) :
    let p : Lineup σ W := ⟨covering ++ [last]⟩
    let log := p.marks s
    plainly (p.traced s) = p.execute s ∧
    (log.filterMap Mark.reached?).Nodup ∧ (log.filterMap Mark.returned?).Nodup ∧
    (∀ result, .returned 0 result ∈ log ↔ (p.execute s).1 = .ofExcept result) ∧
    ∀ k stage, covering[k]? = some stage →
      (stage.obliged = true → stage.role s.spent = .wraps ∧
        (∀ r, .returned k (.ok r) ∈ log → ∃ lower given, (∀ m ∈ lower, k < m.stage) ∧
          [.reached k, .did k .proceeded, .reached (k + 1)] ++ lower ++
            [.returned (k + 1) given, .did k (.resumed given (.ok r)), .returned k (.ok r)] <:+:
              log) ∧
        ∀ r, .did k (.declined (.ok r)) ∈ log →
          [.reached k, .did k (.declined (.ok r)), .returned k (.error
            (.integrity s!"before filter at {k} never invoked its continuation"))] <:+: log) ∧
      (stage.role s.spent = .wraps →
        (∀ f, .did k (.declined (.error f)) ∈ log →
          [.reached k, .did k (.declined (.error f)), .returned k (.error f)] <:+: log) ∧
        (∀ given f, .did k (.resumed given (.error f)) ∈ log →
          [.did k (.resumed given (.error f)), .returned k (.error f)] <:+: log) ∧
        (stage.obliged = false → ∀ r, .did k (.declined (.ok r)) ∈ log →
          [.reached k, .did k (.declined (.ok r)), .returned k (.ok r)] <:+: log)) ∧
      ∀ f, .returned (k + 1) (.error f) ∈ log →
        ∃ next, Onward (stage.role s.spent) k f next ∧
          [.returned (k + 1) (.error f), next] <:+: log := by
  intro p log
  have htrail : Trail s.spent 0 p.stages log (p.execute s).1 := p.trail s
  refine ⟨plain_tracedFrom 0 p.stages none s.logged, htrail.reached_nodup, htrail.returned_nodup,
    returned_zero covering last s, fun k stage hk => ⟨fun hobliged =>
      ⟨Stage.role_of_obliged hobliged s.spent, ?_, ?_⟩, fun hwraps => ⟨?_, ?_, ?_⟩, ?_⟩⟩
  · intro r hm
    obtain ⟨next, below, own, ending, hstint, hpart, hmem⟩ := located hk hm (Nat.le_refl k)
    rw [Stage.role_of_obliged hobliged, hobliged] at hstint
    obtain rfl := hstint.ending_of_returned hmem
    obtain ⟨given, hresumed⟩ := hstint.honoured
    obtain ⟨lower, hlower, hstretch⟩ := hstint.resumed hresumed
    have hfirst := hlower
    obtain ⟨inner, -, rfl⟩ := hfirst
    refine ⟨inner, given, fun m hm => hlower.le_stage (own_part.subset hm), ?_⟩
    rw [hstretch] at hpart
    simpa [stretch, closing_ofExcept] using hpart
  · intro r hm
    obtain ⟨next, below, own, ending, hstint, hpart, hmem⟩ := located hk hm (Nat.le_refl k)
    rw [Stage.role_of_obliged hobliged, hobliged] at hstint
    rwa [hstint.declined (did_mem hmem)] at hpart
  · intro f hm
    obtain ⟨next, below, own, ending, hstint, hpart, hmem⟩ := located hk hm (Nat.le_refl k)
    rw [hwraps] at hstint
    rwa [hstint.declined (did_mem hmem)] at hpart
  · intro given f hm
    obtain ⟨next, below, own, ending, hstint, hpart, hmem⟩ := located hk hm (Nat.le_refl k)
    rw [hwraps] at hstint
    obtain ⟨lower, -, hstretch⟩ := hstint.resumed (did_mem hmem)
    rw [hstretch] at hpart
    exact (List.suffix_append _ _).isInfix.trans hpart
  · intro hfree r hm
    obtain ⟨next, below, own, ending, hstint, hpart, hmem⟩ := located hk hm (Nat.le_refl k)
    rw [hwraps, hfree] at hstint
    rwa [hstint.declined (did_mem hmem)] at hpart
  · intro f hm
    obtain ⟨next, below, own, ending, hstint, hpart, hmem⟩ := located hk hm (Nat.le_succ k)
    obtain ⟨mark, honward, hnext⟩ := hstint.after_failure
      (fun lower given hlower hret => hlower.returned hret) (mem_own hmem (Nat.succ_ne_self k))
    exact ⟨mark, honward, hnext.trans hpart⟩

/-- A stage on a pool that makes a response of any failure, one that adjusts responses, and one that
has to run the rest but answers by itself. -/
def neglectful : List (Stage Unit Unit) :=
  [.hop (.wrapping .dynamic 0 fun _ request scene =>
      (.proceed fun _ request scene => (.done { status := 503 }, request, scene), request, scene))
      { name := "io" },
    .after .dynamic 1 fun _ _ response scene => (.done response, scene),
    .wrapping .dynamic 2 fun _ request scene => (.answer (.done {}), request, scene)]

theorem continuations_honoured_neglectful :
    let p : Lineup Unit Unit := ⟨neglectful ++ [.terminal fun _ _ scene => (.done {}, scene)]⟩
    let s : State Unit Unit := { request := { body := 0 }, scene := { world := () } }
    let log := p.marks s
    (p.execute s).1 = .done { status := 503 } ∧
      [.reached 2, .did 2 (.declined (.ok {})), .returned 2 (.error
        (.integrity "before filter at 2 never invoked its continuation"))] <:+: log ∧
      (∃ next,
        Onward .adjusts 1 (.integrity "before filter at 2 never invoked its continuation") next ∧
        [.returned 2 (.error (.integrity "before filter at 2 never invoked its continuation")),
          next] <:+: log) ∧
      ∃ lower given, [.reached 0, .did 0 .proceeded, .reached 1] ++ lower ++
        [.returned 1 given, .did 0 (.resumed given (.ok { status := 503 })),
          .returned 0 (.ok { status := 503 })] <:+: log := by
  intro p s log
  let failure : Failure := .integrity "before filter at 2 never invoked its continuation"
  have hlog : log =
      [.reached 0, .did 0 .proceeded, .reached 1, .reached 2, .did 2 (.declined (.ok {})),
        .returned 2 (.error failure), .returned 1 (.error failure),
        .did 0 (.resumed (.error failure) (.ok { status := 503 })),
        .returned 0 (.ok { status := 503 })] := rfl
  have hreturned : .returned 0 (.ok { status := 503 }) ∈ log := by
    rw [hlog]
    simp
  have hdeclined : .did 2 (.declined (.ok {})) ∈ log := by
    rw [hlog]
    simp
  have hfailed : .returned 2 (.error failure) ∈ log := by
    rw [hlog]
    simp
  obtain ⟨-, -, -, hends, hstages⟩ := continuations_honoured neglectful _ s
  obtain ⟨hfirst, -, -⟩ := hstages 0 _ rfl
  obtain ⟨-, -, honward⟩ := hstages 1 _ rfl
  obtain ⟨hthird, -, -⟩ := hstages 2 _ rfl
  obtain ⟨lower, given, -, hrun⟩ := (hfirst rfl).2.1 _ hreturned
  exact ⟨(hends _).mp hreturned, (hthird rfl).2.2 _ hdeclined, honward _ hfailed, lower, given,
    hrun⟩

end Lineup

end Exchange.Pipeline
