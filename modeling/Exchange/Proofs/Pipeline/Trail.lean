import Exchange.Proofs.Pipeline.Traversal

/-!
What a traced run enters, even if something panics.

A course says so as long as nothing panics. A `Trail` goes further: a panic cuts short what a stage
enters, and so does a pool that was stopped (`Stint`), and it tells what a stage ends with that
answers by itself. Every traced run leaves a trail (`tracedFrom_trail`). In a trail each stage is
reached at most once and returns at most once, and whatever a stage or those below it enter lies in
one stretch (`Trail.within`).
-/
namespace Exchange.Pipeline

open Http (Request Response)

variable {σ W : Type}

/-- The stage wraps the rest of the pipeline and has to run it, on pools or not. -/
def Stage.obliged : Stage σ W → Bool
  | wrapping .. => true
  | hop inner _ => inner.obliged
  | _ => false

/-- What a stage ends with that answers by itself. -/
def verdict (obliged : Bool) (i : Nat) : Except Failure Response → Except Failure Response
  | .ok r => if obliged then .error (neverProceeded i) else .ok r
  | .error f => .error f

/-- The mark that is left when a run returns from stage `i` on. -/
def closing (i : Nat) : Ending Failure Response → List Mark
  | .done r => [.returned i (.ok r)]
  | .failed f => [.returned i (.error f)]
  | .panicked _ => []

/-- What a stage enters, with the marks around that. -/
def stretch (i : Nat) (own : List Mark) (ending : Ending Failure Response) : List Mark :=
  .reached i :: (own ++ closing i ending)

/-- The stage that a run returns from. -/
def Mark.returned? : Mark → Option Nat
  | returned i _ => some i
  | _ => none

theorem closing_ofExcept (i : Nat) (result : Except Failure Response) :
    closing i (.ofExcept result) = [.returned i result] := by
  cases result <;> rfl

theorem ofExcept_or_panicked {ε α : Type} (ending : Ending ε α) :
    (∃ result, ending = .ofExcept result) ∨ ∃ m, ending = .panicked m := by
  cases ending with
  | done a => exact .inl ⟨.ok a, rfl⟩
  | failed e => exact .inl ⟨.error e, rfl⟩
  | panicked m => exact .inr ⟨m, rfl⟩

/-! ### Stints and trails -/

/-- What a stage of a role enters around what the stages below it enter, and what that ends with. -/
inductive Stint (below : List Mark → Ending Failure Response → Prop) (role : Role) (obliged : Bool)
    (i : Nat) : List Mark → Ending Failure Response → Prop where
  | turns {own result} : Turns role own result →
      (∀ x, own = [.declined x] → result = verdict obliged i x) →
      Stint below role obliged i (own.map (.did i)) (.ofExcept result)
  | passes {early lower given late result} : Passes role early given late result →
      below lower (.ofExcept given) →
      Stint below role obliged i (early.map (.did i) ++ lower ++ late.map (.did i))
        (.ofExcept result)
  /-- its pool was stopped -/
  | lost (f : Failure) : Stint below role obliged i [] (.failed f)
  | raised (m : String) : Stint below role obliged i [.did i (.panicked m)] (.panicked m)
  | raisedBelow {early lower given late result m} : Passes role early given late result →
      below lower (.panicked m) →
      Stint below role obliged i (early.map (.did i) ++ lower) (.panicked m)
  /-- it panics instead of making a result of its own -/
  | raisedLate {early lower given d result} (m : String) : Passes role early given [d] result →
      below lower (.ofExcept given) →
      Stint below role obliged i (early.map (.did i) ++ lower ++ [.did i (.panicked m)])
        (.panicked m)
  /-- its pool made a failure of a panic -/
  | caught {own m} (f : Failure) : Stint below role obliged i own (.panicked m) →
      Stint below role obliged i own (.failed f)

/-- What a run enters through stages of which the first has the given index, and what it ends
with. -/
def Trail (spent : Bool) : Nat → List (Stage σ W) → List Mark → Ending Failure Response → Prop
  | _, [], marks, ending => marks = [] ∧ ∃ f, ending = .failed f
  | i, stage :: below, marks, ending =>
    ∃ own, Stint (Trail spent (i + 1) below) (stage.role spent) stage.obliged i own ending ∧
      marks = stretch i own ending

/-! ### Traced runs leave trails -/

/-- From state `s` on marks were entered as `leaves` has it. -/
def Leaves (leaves : List Mark → Ending Failure Response → Prop) (s : State σ (Logged W))
    (x : Ending Failure Response × State σ (Logged W)) : Prop :=
  ∃ marks, x.2.log = s.log ++ marks ∧ leaves marks x.1

section Entered

variable {below : List Mark → Ending Failure Response → Prop} {role : Role} {obliged : Bool}
  {i : Nat} {s t : State σ (Logged W)} {x : Ending Failure Response × State σ (Logged W)}

/-- A stage that leaves what the stages below it end with alone. -/
theorem Leaves.passed (early : List Deed) (hpasses : ∀ result, Passes role early result [] result)
    (ht : t.log = s.log ++ early.map (.did i)) (hx : Leaves below t x) :
    Leaves (Stint below role obliged i) s x := by
  obtain ⟨lower, hlog, hbelow⟩ := hx
  rw [ht, List.append_assoc] at hlog
  obtain ⟨ending, u⟩ := x
  refine ⟨_, hlog, ?_⟩
  obtain ⟨result, rfl⟩ | ⟨m, rfl⟩ := ofExcept_or_panicked ending
  · have hstint : Stint below role obliged i (early.map (.did i) ++ lower ++ []) _ :=
      .passes (hpasses result) hbelow
    rwa [List.append_nil] at hstint
  · exact .raisedBelow (hpasses (.error .sourceConsumed)) hbelow

/-- A wrapping stage that proceeded. -/
theorem Leaves.resumed (resume : Resume σ W) (ht : t.log = s.log ++ [.did i .proceeded])
    (hx : Leaves below t x) :
    Leaves (Stint below .wraps obliged i) s (resumeWith (markedResume i resume) x) := by
  obtain ⟨lower, hlog, hbelow⟩ := hx
  rw [ht, List.append_assoc] at hlog
  obtain ⟨ending, u⟩ := x
  obtain ⟨given, rfl⟩ | ⟨m, rfl⟩ := ofExcept_or_panicked ending
  · have hbehind : ∀ d, u.log ++ [.did i d] =
        s.log ++ ([Deed.proceeded].map (.did i) ++ lower ++ [.did i d]) := by
      intro d
      rw [show u.log = _ from hlog, List.append_assoc]
      rfl
    rw [resumeWith_ofExcept]
    unfold markedResume
    obtain ⟨ending, request, scene⟩ := resume given u.request u.scene.plain
    cases ending with
    | done r => exact ⟨_, hbehind _, .passes (.resumed given (.ok r)) hbelow⟩
    | failed f => exact ⟨_, hbehind _, .passes (.resumed given (.error f)) hbelow⟩
    | panicked m => exact ⟨_, hbehind _, .raisedLate m (.resumed given given) hbelow⟩
  · have hpasses := Passes.resumed (.error .sourceConsumed) (.error .sourceConsumed)
    exact ⟨_, hlog, .raisedBelow hpasses hbelow⟩

/-- A stage that answers by one deed. -/
theorem Leaves.turned {d : Deed} (result : Except Failure Response) (hturns : Turns role [d] result)
    (hverdict : ∀ x, d = .declined x → result = verdict obliged i x)
    (hlog : x.2.log = s.log ++ [.did i d]) (hx : x.1 = .ofExcept result) :
    Leaves (Stint below role obliged i) s x := by
  refine ⟨_, hlog, ?_⟩
  rw [hx]
  exact .turns hturns fun y hy => hverdict y (List.singleton_inj.mp hy)

/-- A wrapping stage that answers without the rest. -/
theorem Leaves.declined (y : Except Failure Response)
    (hlog : x.2.log = s.log ++ [.did i (.declined y)])
    (hx : x.1 = .ofExcept (verdict obliged i y)) :
    Leaves (Stint below .wraps obliged i) s x := by
  refine .turned (verdict obliged i y) ?_ ?_ hlog hx
  · cases y with
    | ok r =>
      cases obliged with
      | true => exact .neglected r _
      | false => exact .declined (.ok r)
    | error f => exact .declined (.error f)
  · rintro z ⟨⟩
    rfl

theorem Leaves.raised (m : String) (hlog : x.2.log = s.log ++ [.did i (.panicked m)])
    (hx : x.1 = .panicked m) : Leaves (Stint below role obliged i) s x := by
  refine ⟨_, hlog, ?_⟩
  rw [hx]
  exact .raised m

end Entered

namespace Stage

variable {i remaining : Nat} {rest : Walk σ (Logged W)}
  {below leaves : List Mark → Ending Failure Response → Prop} {pool : Option String}
  {s : State σ (Logged W)}

theorem run_stint_after (rank : Rank) (own : Int)
    (act : Site → Request → Response → Scene σ W → Ending Cause Response × Scene σ W)
    (hx : Leaves below s (rest pool s)) :
    Leaves (Stint below .adjusts false i) s
      (((after rank own act).marked i).run i remaining rest pool s) := by
  unfold marked run
  generalize rest pool s = x at hx ⊢
  obtain ⟨ending, t⟩ := x
  obtain ⟨lower, hlog, hbelow⟩ := hx
  have hbehind : ∀ d, t.log ++ [.did i d] = s.log ++ (lower ++ [.did i d]) := by
    intro d
    rw [show t.log = _ from hlog, List.append_assoc]
  cases ending with
  | done response =>
    dsimp only
    obtain ⟨ending, scene⟩ := act ⟨pool, i + 1, remaining⟩ t.request response t.scene.plain
    have hgiven : below lower (.ofExcept (.ok response)) := hbelow
    cases ending with
    | done r => exact ⟨_, hbehind _, .passes (.adjusted response (.ok r)) hgiven⟩
    | failed c => exact ⟨_, hbehind _, .passes (.adjusted response (.error c)) hgiven⟩
    | panicked m =>
      exact ⟨_, hbehind _, .raisedLate m (.adjusted response (.ok response)) hgiven⟩
  | failed f =>
    have hstint : Stint below .adjusts false i ([] ++ lower ++ []) (.ofExcept (.error f)) :=
      .passes (.passedOver f) hbelow
    rw [List.append_nil] at hstint
    exact ⟨_, hlog, hstint⟩
  | panicked m => exact ⟨_, hlog, .raisedBelow (.passedOver .sourceConsumed) hbelow⟩

theorem run_stint_hop {inner : Stage σ W} {worker : Worker} {role : Role} {obliged : Bool}
    (hx : Leaves (Stint below role obliged i) s
      ((inner.marked i).run i remaining rest (some worker.name) s)) :
    Leaves (Stint below role obliged i) s
      (((hop inner worker).marked i).run i remaining rest pool s) := by
  unfold marked run
  cases worker.running with
  | true =>
    rw [if_pos rfl]
    generalize (inner.marked i).run i remaining rest (some worker.name) s = x at hx ⊢
    obtain ⟨ending, t⟩ := x
    obtain ⟨marks, hlog, hstint⟩ := hx
    cases ending with
    | done r => exact ⟨marks, hlog, hstint⟩
    | failed f => exact ⟨marks, hlog, hstint⟩
    | panicked m => exact ⟨marks, hlog, .caught _ hstint⟩
  | false => exact ⟨[], (List.append_nil _).symm, .lost _⟩

/-- **What a stage enters**, whatever it does. -/
theorem run_stint (i remaining : Nat) {spent : Bool}
    (hrest : ∀ pool s, s.spent = spent → Leaves below s (rest pool s)) (stage : Stage σ W)
    (pool : Option String) (s : State σ (Logged W)) (hs : s.spent = spent) :
    Leaves (Stint below (stage.role spent) stage.obliged i) s
      ((stage.marked i).run i remaining rest pool s) := by
  induction stage generalizing pool s with
  | before rank own act =>
    unfold marked run
    dsimp only
    obtain ⟨ending, request, scene⟩ := act ⟨pool, i + 1, remaining⟩ s.request s.scene.plain
    cases ending with
    | done answer =>
      cases answer with
      | none => exact .passed [.passed] .passed rfl (hrest pool _ hs)
      | some response =>
        exact .turned (.ok response) (.answered response) (fun _ h => by cases h) rfl rfl
    | failed cause => exact .turned (.error _) (.refused cause) (fun _ h => by cases h) rfl rfl
    | panicked m => exact .raised m rfl rfl
  | wrapping rank own enter =>
    unfold marked run markedEnter
    obtain ⟨passage, request, scene⟩ := enter ⟨pool, i + 1, remaining⟩ s.request s.scene.plain
    cases passage with
    | answer ending =>
      cases ending with
      | done response => exact .declined (.ok response) rfl rfl
      | failed f => exact .declined (.error f) rfl rfl
      | panicked m => exact .raised m rfl rfl
    | proceed resume => exact .resumed resume rfl (hrest pool _ hs)
  | after rank own act => exact run_stint_after rank own act (hrest pool s hs)
  | around rank own enabled enter =>
    unfold marked run
    cases enabled with
    | true =>
      unfold markedEnter
      obtain ⟨passage, request, scene⟩ := enter ⟨pool, i + 1, remaining⟩ s.request s.scene.plain
      cases passage with
      | answer ending =>
        cases ending with
        | done response => exact .declined (.ok response) rfl rfl
        | failed f => exact .declined (.error f) rfl rfl
        | panicked m => exact .raised m rfl rfl
      | proceed resume => exact .resumed resume rfl (hrest pool _ hs)
    | false => exact .passed [] .idled (List.append_nil _).symm (hrest pool s hs)
  | hop inner worker ih => exact run_stint_hop (ih (some worker.name) s hs)
  | terminal act =>
    unfold marked run
    dsimp only
    obtain ⟨ending, scene⟩ := act ⟨pool, i + 1, remaining⟩ s.request s.scene.plain
    cases ending with
    | done response =>
      exact .turned (.ok response) (.handled (.ok response)) (fun _ h => by cases h) rfl rfl
    | failed cause =>
      exact .turned (.error _) (.handled (.error cause)) (fun _ h => by cases h) rfl rfl
    | panicked m => exact .raised m rfl rfl
  | reactive act =>
    unfold marked
    rw [role]
    cases spent with
    | true =>
      rw [run_reactive_spent hs]
      have hturns : Stint below (.handles false) false i (List.map (.did i) [])
          (.ofExcept (.error .sourceConsumed)) := .turns .spent fun _ h => by cases h
      exact ⟨[], (List.append_nil _).symm, hturns⟩
    | false =>
      rw [run_reactive_ready hs]
      dsimp only
      obtain ⟨ending, scene⟩ := act ⟨pool, i + 1, remaining⟩ s.scene.plain
      cases ending with
      | done response =>
        exact .turned (.ok response) (.handled (.ok response)) (fun _ h => by cases h) rfl rfl
      | failed cause =>
        exact .turned (.error _) (.handled (.error cause)) (fun _ h => by cases h) rfl rfl
      | panicked m => exact .raised m rfl rfl

end Stage

theorem Leaves.bracketed {leaves : List Mark → Ending Failure Response → Prop} {i : Nat}
    {walk : Walk σ (Logged W)} {pool : Option String} {s : State σ (Logged W)}
    (h : Leaves leaves (s.enter (.reached i)) (walk pool (s.enter (.reached i)))) :
    Leaves (fun marks ending => ∃ own, leaves own ending ∧ marks = stretch i own ending) s
      (bracketed i walk pool s) := by
  unfold Pipeline.bracketed
  generalize walk pool (s.enter (.reached i)) = x at h ⊢
  obtain ⟨ending, t⟩ := x
  obtain ⟨own, hlog, hleaves⟩ := h
  have hbehind : ∀ more, t.log ++ more = s.log ++ (.reached i :: (own ++ more)) := by
    intro more
    rw [show t.log = _ from hlog, List.append_assoc]
    exact List.append_assoc s.log [.reached i] _
  cases ending with
  | done r => exact ⟨_, hbehind [.returned i (.ok r)], own, hleaves, rfl⟩
  | failed f => exact ⟨_, hbehind [.returned i (.error f)], own, hleaves, rfl⟩
  | panicked m =>
    exact ⟨_, (List.append_nil t.log).symm.trans (hbehind []), own, hleaves, rfl⟩

/-- Every traced run leaves a trail. -/
theorem tracedFrom_trail {spent : Bool} (i : Nat) (stages : List (Stage σ W))
    (pool : Option String) (s : State σ (Logged W)) (hs : s.spent = spent) :
    Leaves (Trail spent i stages) s (tracedFrom i stages pool s) := by
  induction stages generalizing i pool s with
  | nil => exact ⟨[], (List.append_nil _).symm, rfl, _, rfl⟩
  | cons stage below ih =>
    have hrun := stage.run_stint i below.length (fun pool t ht => ih (i + 1) pool t ht) pool
      (s.enter (.reached i)) hs
    exact hrun.bracketed

/-! ### The marks of a trail -/

section Marks

variable {below : List Mark → Ending Failure Response → Prop} {role : Role} {obliged : Bool}
  {i k : Nat} {own : List Mark} {ending : Ending Failure Response}

/-- A stage enters its own deeds around what is entered below it. -/
theorem Stint.split (h : Stint below role obliged i own ending) :
    ∃ (early late : List Deed) (lower : List Mark),
      own = early.map (.did i) ++ lower ++ late.map (.did i) ∧
        (lower = [] ∨ ∃ given, below lower given) := by
  induction h with
  | @turns own _ _ _ => exact ⟨own, [], [], by simp, .inl rfl⟩
  | @passes early lower given late _ _ hbelow => exact ⟨early, late, lower, rfl, .inr ⟨_, hbelow⟩⟩
  | lost f => exact ⟨[], [], [], rfl, .inl rfl⟩
  | raised m => exact ⟨[.panicked m], [], [], rfl, .inl rfl⟩
  | @raisedBelow early lower _ _ _ _ _ hbelow =>
    exact ⟨early, [], lower, by simp, .inr ⟨_, hbelow⟩⟩
  | @raisedLate early lower _ _ _ m _ hbelow =>
    exact ⟨early, [.panicked m], lower, rfl, .inr ⟨_, hbelow⟩⟩
  | caught f _ ih => exact ih

/-- What is entered during a stint is a deed of the stage, or entered below it. -/
theorem Stint.mem (h : Stint below role obliged i own ending) {m : Mark} (hm : m ∈ own) :
    (∃ d, m = .did i d) ∨ ∃ lower given, below lower given ∧ lower <:+: own ∧ m ∈ lower := by
  obtain ⟨early, late, lower, rfl, hlower⟩ := h.split
  rcases List.mem_append.mp hm with hm | hm
  · rcases List.mem_append.mp hm with hm | hm
    · obtain ⟨d, -, rfl⟩ := List.mem_map.mp hm
      exact .inl ⟨d, rfl⟩
    · rcases hlower with rfl | ⟨given, hbelow⟩
      · cases hm
      · exact .inr ⟨lower, given, hbelow, ⟨_, _, rfl⟩, hm⟩
  · obtain ⟨d, -, rfl⟩ := List.mem_map.mp hm
    exact .inl ⟨d, rfl⟩

/-- What deeds say nothing about is known from what is entered below. -/
theorem Stint.filterMap {β : Type} {f : Mark → Option β} (hf : ∀ d, f (.did i d) = none)
    (h : Stint below role obliged i own ending) :
    own.filterMap f = [] ∨
      ∃ lower given, below lower given ∧ own.filterMap f = lower.filterMap f := by
  obtain ⟨early, late, lower, rfl, hlower⟩ := h.split
  rw [List.filterMap_append, List.filterMap_append, filterMap_did hf, filterMap_did hf,
    List.nil_append, List.append_nil]
  rcases hlower with rfl | ⟨given, hbelow⟩
  · exact .inl rfl
  · exact .inr ⟨lower, given, hbelow, rfl⟩

theorem mem_closing {m : Mark} (hm : m ∈ closing i ending) :
    ∃ result, m = .returned i result ∧ ending = .ofExcept result := by
  obtain ⟨result, rfl⟩ | ⟨message, rfl⟩ := ofExcept_or_panicked ending
  · rw [closing_ofExcept] at hm
    exact ⟨result, List.mem_singleton.mp hm, rfl⟩
  · cases hm

theorem own_part : own <:+: stretch i own ending :=
  ⟨[.reached i], closing i ending, by simp [stretch]⟩

theorem mem_own {m : Mark} (hm : m ∈ stretch i own ending) (hstage : m.stage ≠ i) : m ∈ own := by
  rcases List.mem_cons.mp hm with rfl | hm
  · exact absurd rfl hstage
  rcases List.mem_append.mp hm with hm | hm
  · exact hm
  · obtain ⟨result, rfl, -⟩ := mem_closing hm
    exact absurd rfl hstage

namespace Trail

variable {spent : Bool} {stages : List (Stage σ W)} {marks : List Mark}

/-- A trail begins with the stage it begins at. -/
theorem le_stage (h : Trail spent i stages marks ending) {m : Mark} (hm : m ∈ marks) :
    i ≤ m.stage := by
  induction stages generalizing i marks ending with
  | nil =>
    obtain ⟨rfl, -⟩ := h
    cases hm
  | cons stage below ih =>
    obtain ⟨own, hstint, rfl⟩ := h
    by_cases hstage : m.stage = i
    · exact Nat.le_of_eq hstage.symm
    · rcases hstint.mem (mem_own hm hstage) with ⟨d, rfl⟩ | ⟨lower, given, hbelow, -, hm⟩
      · exact absurd rfl hstage
      · exact Nat.le_of_succ_le (ih hbelow hm)

/-- The stint of a stage is one stretch of a trail, and what is entered by the stage or below it is
entered then. -/
theorem within (h : Trail spent i stages marks ending) {m : Mark} (hm : m ∈ marks) (hi : i ≤ k)
    (hk : k ≤ m.stage) :
    ∃ above stage below own ending, stages = above ++ stage :: below ∧ i + above.length = k ∧
      Stint (Trail spent (k + 1) below) (stage.role spent) stage.obliged k own ending ∧
      stretch k own ending <:+: marks ∧ m ∈ stretch k own ending := by
  induction stages generalizing i marks ending with
  | nil =>
    obtain ⟨rfl, -⟩ := h
    cases hm
  | cons stage below ih =>
    obtain ⟨own, hstint, rfl⟩ := h
    obtain rfl | hlt := Nat.eq_or_lt_of_le hi
    · exact ⟨[], stage, below, own, ending, rfl, rfl, hstint, List.infix_refl _, hm⟩
    · have hstage : m.stage ≠ i := Nat.ne_of_gt (Nat.lt_of_lt_of_le hlt hk)
      rcases hstint.mem (mem_own hm hstage) with ⟨d, rfl⟩ | ⟨lower, given, hbelow, hpart, hm⟩
      · exact absurd rfl hstage
      · obtain ⟨above, stage', below', own', ending', rfl, hlength, hstint', hstretch, hmem⟩ :=
          ih hbelow hm hlt
        refine ⟨stage :: above, stage', below', own', ending', rfl, ?_, hstint',
          hstretch.trans (hpart.trans own_part), hmem⟩
        rw [List.length_cons]
        omega

/-- What a stage enters once at most is entered for each stage once at most. -/
theorem nodup {f : Mark → Option Nat} (hdid : ∀ i d, f (.did i d) = none)
    (hstage : ∀ m k, f m = some k → m.stage = k)
    (honce : ∀ i ending, ((.reached i :: closing i ending).filterMap f).Nodup)
    (h : Trail spent i stages marks ending) : (marks.filterMap f).Nodup := by
  induction stages generalizing i marks ending with
  | nil =>
    obtain ⟨rfl, -⟩ := h
    exact List.nodup_nil
  | cons stage below ih =>
    obtain ⟨own, hstint, rfl⟩ := h
    have hperm : (stretch i own ending).Perm ((.reached i :: closing i ending) ++ own) :=
      List.perm_append_comm.cons _
    rw [(hperm.filterMap f).nodup_iff, List.filterMap_append, List.nodup_append]
    refine ⟨honce i ending, ?_, ?_⟩
    · rcases hstint.filterMap (hdid i) with hnone | ⟨lower, given, hbelow, hsame⟩
      · rw [hnone]
        exact List.nodup_nil
      · rw [hsame]
        exact ih hbelow
    · rintro a ha b hb rfl
      obtain ⟨m, hm, hfm⟩ := List.mem_filterMap.mp ha
      obtain ⟨m', hm', hfm'⟩ := List.mem_filterMap.mp hb
      have hfirst : a = i := by
        rw [← hstage m a hfm]
        rcases List.mem_cons.mp hm with rfl | hm
        · rfl
        · obtain ⟨result, rfl, -⟩ := mem_closing hm
          rfl
      rcases hstint.mem hm' with ⟨d, rfl⟩ | ⟨lower, given, hbelow, -, hlower⟩
      · rw [hdid] at hfm'
        cases hfm'
      · have hbelow := le_stage hbelow hlower
        rw [hstage m' a hfm'] at hbelow
        omega

/-- Each stage is reached at most once. -/
theorem reached_nodup (h : Trail spent i stages marks ending) :
    (marks.filterMap Mark.reached?).Nodup := by
  refine h.nodup (fun _ _ => rfl) (fun m k hk => ?_) (fun i ending => ?_)
  · cases m <;> cases hk
    rfl
  · cases ending <;> exact List.pairwise_singleton _ i

/-- Each stage returns at most once. -/
theorem returned_nodup (h : Trail spent i stages marks ending) :
    (marks.filterMap Mark.returned?).Nodup := by
  refine h.nodup (fun _ _ => rfl) (fun m k hk => ?_) (fun i ending => ?_)
  · cases m <;> cases hk
    rfl
  · cases ending with
    | done _ | failed _ => exact List.pairwise_singleton _ i
    | panicked _ => exact .nil

end Trail

end Marks

end Exchange.Pipeline
