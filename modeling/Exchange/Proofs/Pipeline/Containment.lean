import Exchange.Proofs.Pipeline.Posts

/-!
How a panic leaves a run.

Marked stages enter their panics, and each panic on record is that of the first stage of some leg
(`Leg.Labelled.located`). What is entered after it is entered by stages further up, as the run
unwinds (`log_unwind`). So the innermost hop around the leg contains the panic, and if there is none
it gets out (`panics_contained`).
-/
namespace Exchange.Pipeline

open Http (Request Response)

variable {σ W : Type}

/-! ### Where a panic comes from -/

theorem split_cons {α : Type} {above below front back : List α} {x : α}
    (h : above ++ below = front ++ x :: back) :
    (∃ behind, above = front ++ x :: behind) ∨
      ∃ ahead, front = above ++ ahead ∧ below = ahead ++ x :: back := by
  obtain ⟨ahead, hfront, hbelow⟩ | ⟨behind, habove, hback⟩ := List.append_eq_append_iff.mp h
  · exact .inr ⟨ahead, hfront, hbelow⟩
  · cases behind with
    | nil => exact .inr ⟨[], by simpa using habove.symm, hback.symm⟩
    | cons y behind =>
      obtain ⟨rfl, -⟩ := List.cons.inj hback
      exact .inl ⟨behind, habove⟩

/-- Every panic that the leg has on record is that of the first stage of some leg inside it. -/
def Leg.Located (l : Leg σ (Logged W)) : Prop :=
  ∃ marks, l.run.2.log = l.state.log ++ marks ∧
    ∀ front i m back, marks = front ++ .did i (.panicked m) :: back →
      ∃ l' t frames, Inside l l' frames ∧ l'.index = i ∧ l'.Panics m t ∧
        t.log = l.state.log ++ (front ++ [.did i (.panicked m)])

/-- The first stage of the leg does that last, if anything; if it is a panic then the stage raises
it. -/
def Leg.Closes (l : Leg σ (Logged W)) (own : List Mark) : Prop :=
  own = [] ∨ ∃ d, own = [.did l.index d] ∧ ∀ m, d = .panicked m → l.Panics m l.run.2

section Located

variable {l l' : Leg σ (Logged W)} {early late own : List Mark}

theorem Leg.Closes.panics (h : l.Closes own) {front back : List Mark} {i : Nat} {m : String}
    (hown : own = front ++ .did i (.panicked m) :: back) :
    front = [] ∧ back = [] ∧ l.index = i ∧ l.Panics m l.run.2 := by
  obtain rfl | ⟨d, rfl, hd⟩ := h
  · exact absurd hown (by simp)
  · obtain ⟨rfl, hmark⟩ | ⟨-, hnone⟩ := List.singleton_eq_append_iff.mp hown
    · cases hmark
      exact ⟨rfl, rfl, rfl, hd m rfl⟩
    · cases hnone

theorem Leg.Located.turned (hlog : l.run.2.log = l.state.log ++ own) (hown : l.Closes own) :
    l.Located := by
  refine ⟨own, hlog, fun front i m back heq => ?_⟩
  obtain ⟨rfl, rfl, hindex, hpanics⟩ := hown.panics heq
  refine ⟨l, _, [], .here l, hindex, hpanics, ?_⟩
  rw [hlog, heq]

theorem Leg.Located.quiet (hlog : l.run.2.log = l.state.log) : l.Located :=
  .turned (hlog.trans (List.append_nil _).symm) (.inl rfl)

theorem Leg.Located.entered {outer : List (Frame σ (Logged W))} (hinto : Into l l' outer)
    (hlocated : l'.Located) (hearly : l'.state.log = l.state.log ++ early) (hcalm : Calm early)
    (hlate : l.run.2.log = l'.run.2.log ++ late) (hcloses : l.Closes late) : l.Located := by
  obtain ⟨marks, hlog, hpanics⟩ := hlocated
  have hall : l.run.2.log = l.state.log ++ (early ++ marks ++ late) := by
    rw [hlate, hlog, hearly, List.append_assoc, List.append_assoc, List.append_assoc]
  refine ⟨early ++ marks ++ late, hall, fun front i m back heq => ?_⟩
  obtain ⟨behind, hfront⟩ | ⟨ahead, rfl, hown⟩ := split_cons heq
  · obtain ⟨behind, hfront⟩ | ⟨ahead, rfl, hmarks⟩ := split_cons hfront
    · -- what comes first is no panic
      have hmem : Mark.did i (.panicked m) ∈ early := by
        rw [hfront]
        exact List.mem_append_right _ (.head _)
      cases hcalm _ hmem
    · obtain ⟨l'', t, frames, hinside, hindex, hpanic, ht⟩ := hpanics ahead i m behind hmarks
      refine ⟨l'', t, frames ++ outer, .into hinto hinside, hindex, hpanic, ?_⟩
      rw [ht, hearly, List.append_assoc, List.append_assoc]
  · obtain ⟨rfl, rfl, hindex, hpanic⟩ := hcloses.panics hown
    refine ⟨l, _, [], .here l, hindex, hpanic, ?_⟩
    rw [hall, hown, List.append_nil]
    rfl

theorem Leg.Panics.state {m : String} {t : State σ (Logged W)} (h : l.Panics m t) :
    l.Panics m l.run.2 := by
  rw [panics_run h]
  exact h

end Located

theorem Ending.panicked_of_deed {ε α : Type} {ending : Ending ε α} {deed : Except ε α → Deed}
    {m : String} (hdeed : ∀ result, deed result ≠ .panicked m)
    (h : ending.deed deed = .panicked m) : ending = .panicked m := by
  cases ending with
  | done a => exact absurd h (hdeed _)
  | failed e => exact absurd h (hdeed _)
  | panicked m' =>
    cases h
    rfl

/-- A stage whose only deed is what its behaviour came to. -/
theorem Leg.Located.own {l : Leg σ (Logged W)} {ε α : Type} {ending : Ending ε α}
    {deed : Except ε α → Deed} (hdeed : ∀ result m, deed result ≠ .panicked m)
    (hlog : l.run.2.log = l.state.log ++ [.did l.index (ending.deed deed)])
    (hpanics : ∀ m, ending = .panicked m → ∃ t, l.Panics m t) : l.Located := by
  refine .turned hlog (.inr ⟨_, rfl, fun m hm => ?_⟩)
  obtain ⟨t, ht⟩ := hpanics m (Ending.panicked_of_deed (hdeed · m) hm)
  exact ht.state

def markedAdjust (label : Nat)
    (act : Request → Response → Scene σ W → Ending Cause Response × Scene σ W) :
    Request → Response → Scene σ (Logged W) → Ending Cause Response × Scene σ (Logged W) :=
  fun request response scene =>
    let (ending, plain) := act request response scene.plain
    (ending, plain.logging (scene.world.log ++ [.did label (ending.deed (.adjusted response))]))

section Late

variable {l l' : Leg σ (Logged W)}

/-- A stage that adjusts the response enters one deed, if there is a response. -/
theorem log_adjusted (label : Nat)
    (act : Request → Response → Scene σ W → Ending Cause Response × Scene σ W)
    (x : Ending Failure Response × State σ (Logged W)) :
    ∃ late, (adjustWith (markedAdjust label act) x).2.log = x.2.log ++ late ∧
      (late = [] ∨ ∃ response, x.1 = .done response ∧
        late = [.did label
          ((act x.2.request response x.2.scene.plain).1.deed (.adjusted response))]) := by
  obtain ⟨ending, t⟩ := x
  cases ending with
  | done r =>
    refine ⟨_, ?_, .inr ⟨r, rfl, rfl⟩⟩
    unfold adjustWith markedAdjust
    dsimp only
    obtain ⟨ending, scene⟩ := act t.request r t.scene.plain
    cases ending <;> rfl
  | failed f => exact ⟨[], (List.append_nil _).symm, .inl rfl⟩
  | panicked m => exact ⟨[], (List.append_nil _).symm, .inl rfl⟩

theorem closes_resumed {resume : Resume σ W}
    (hinto : Into l l' [.resume (markedResume l.index resume)]) :
    ∃ late, l.run.2.log = l'.run.2.log ++ late ∧ l.Closes late := by
  obtain ⟨late, hlog, hlate⟩ := log_resumed l.index resume l'.run
  refine ⟨late, (congrArg (·.2.log) (into_run hinto)).trans hlog, ?_⟩
  obtain rfl | ⟨given, hgiven, rfl⟩ := hlate
  · exact .inl rfl
  · refine .inr ⟨_, rfl, fun m hm => ?_⟩
    have hending := Ending.panicked_of_deed (fun _ h => by cases h) hm
    have hresumed : markedResume l.index resume given l'.run.2.request l'.run.2.scene =
        (.panicked m, (markedResume l.index resume given l'.run.2.request l'.run.2.scene).2) :=
      Prod.ext hending rfl
    exact (Leg.Panics.resuming hinto (Prod.ext hgiven rfl) hresumed).state

theorem closes_adjusted
    {act : Request → Response → Scene σ W → Ending Cause Response × Scene σ W}
    (hinto : Into l l' [.adjust (markedAdjust l.index act)]) :
    ∃ late, l.run.2.log = l'.run.2.log ++ late ∧ l.Closes late := by
  obtain ⟨late, hlog, hlate⟩ := log_adjusted l.index act l'.run
  refine ⟨late, (congrArg (·.2.log) (into_run hinto)).trans hlog, ?_⟩
  obtain rfl | ⟨response, hresponse, rfl⟩ := hlate
  · exact .inl rfl
  · refine .inr ⟨_, rfl, fun m hm => ?_⟩
    have hending := Ending.panicked_of_deed (fun _ h => by cases h) hm
    have hadjusted : markedAdjust l.index act l'.run.2.request response l'.run.2.scene =
        (.panicked m, (markedAdjust l.index act l'.run.2.request response l'.run.2.scene).2) :=
      Prod.ext hending rfl
    exact (Leg.Panics.adjusting hinto (Prod.ext hresponse rfl) hadjusted).state

theorem closes_plain (hinto : Into l l' []) :
    ∃ late, l.run.2.log = l'.run.2.log ++ late ∧ l.Closes late := by
  refine ⟨[], ?_, .inl rfl⟩
  rw [into_run hinto, List.append_nil]
  rfl

/-- A hop changes the request at most. -/
theorem closes_hop {worker : Worker} {entered : Request} (hinto : Into l l' [.hop worker entered]) :
    ∃ late, l.run.2.log = l'.run.2.log ++ late ∧ l.Closes late := by
  refine ⟨[], ?_, .inl rfl⟩
  rw [into_run hinto, List.append_nil]
  exact Frame.log_hop worker entered l'.run

theorem Leg.Located.passed {outer : List (Frame σ (Logged W))} {d : Deed}
    (hinto : Into l l' outer) (hlocated : l'.Located)
    (hearly : l'.state.log = l.state.log ++ [.did l.index d])
    (hd : (Mark.did l.index d).panics = false)
    (hcloses : ∃ late, l.run.2.log = l'.run.2.log ++ late ∧ l.Closes late) : l.Located := by
  obtain ⟨late, hlate, hown⟩ := hcloses
  refine .entered hinto hlocated hearly (fun m hm => ?_) hlate hown
  rw [List.mem_singleton.mp hm]
  exact hd

/-- The stage does nothing before the run goes on. -/
theorem Leg.Located.around {outer : List (Frame σ (Logged W))} (hinto : Into l l' outer)
    (hlocated : l'.Located) (hearly : l'.state = l.state)
    (hcloses : ∃ late, l.run.2.log = l'.run.2.log ++ late ∧ l.Closes late) : l.Located := by
  obtain ⟨late, hlate, hown⟩ := hcloses
  have hnone : l'.state.log = l.state.log ++ [] := by rw [hearly, List.append_nil]
  exact .entered hinto hlocated hnone (fun m hm => by cases hm) hlate hown

end Late

section Stages

variable {index : Nat} {below : List (Stage σ (Logged W))} {pool : Option String}
  {s : State σ (Logged W)}

theorem located_before (hbelow : ∀ s, Leg.Located ⟨index + 1, below, pool, s⟩) (rank : Rank)
    (own : Int)
    (act : Site → Request → Scene σ W → Ending Cause (Option Response) × Request × Scene σ W) :
    Leg.Located ⟨index, (Stage.before rank own act).marked index :: below, pool, s⟩ := by
  obtain ⟨ending, request, scene, hact⟩ : ∃ ending request scene,
      act ⟨pool, index + 1, below.length⟩ s.request s.scene.plain = (ending, request, scene) :=
    ⟨_, _, _, rfl⟩
  by_cases hpassed : ending = .done none
  · subst hpassed
    have hinto : Into ⟨index, (Stage.before rank own act).marked index :: below, pool, s⟩
        ⟨index + 1, below, pool,
          s.with request (scene.logging (s.log ++ [.did index .passed]))⟩ [] :=
      .passed (by dsimp only; rw [hact]; rfl)
    exact .passed hinto (hbelow _) rfl rfl (closes_plain hinto)
  · refine @Leg.Located.own _ _ _ _ _ ending Deed.checked (fun x m => ?_) ?_ (fun m hm => ?_)
    · rcases x with c | (_ | r) <;> exact fun h => by cases h
    · unfold Leg.run runFrom Stage.marked Stage.run
      dsimp only
      rw [hact]
      rcases ending with (_ | r) | c | m
      · exact absurd rfl hpassed
      · rfl
      · rfl
      · rfl
    · subst hm
      exact ⟨_, .checking (by dsimp only; rw [hact])⟩

theorem located_wrapping (hbelow : ∀ s, Leg.Located ⟨index + 1, below, pool, s⟩) (rank : Rank)
    (own : Int) (enter : Enter σ W) :
    Leg.Located ⟨index, (Stage.wrapping rank own enter).marked index :: below, pool, s⟩ := by
  obtain ⟨passage, request, scene, henter⟩ : ∃ passage request scene,
      enter ⟨pool, index + 1, below.length⟩ s.request s.scene.plain =
        (passage, request, scene) := ⟨_, _, _, rfl⟩
  cases passage with
  | answer ending =>
    refine @Leg.Located.own _ _ _ _ _ ending Deed.declined (fun x m h => by cases h) ?_
      (fun m hm => ?_)
    · unfold Leg.run runFrom Stage.marked Stage.run markedEnter
      dsimp only
      rw [henter]
      cases ending <;> rfl
    · subst hm
      exact ⟨_, .wrapping (by unfold markedEnter; rw [henter])⟩
  | proceed resume =>
    have hinto : Into ⟨index, (Stage.wrapping rank own enter).marked index :: below, pool, s⟩
        ⟨index + 1, below, pool,
          s.with request (scene.logging (s.log ++ [.did index .proceeded]))⟩
        [.resume (markedResume index resume)] :=
      .wrapped (by unfold markedEnter; rw [henter]; rfl)
    exact .passed hinto (hbelow _) rfl rfl (closes_resumed hinto)

theorem located_around (hbelow : ∀ s, Leg.Located ⟨index + 1, below, pool, s⟩) (rank : Rank)
    (own : Int) (enabled : Bool) (enter : Enter σ W) :
    Leg.Located ⟨index, (Stage.around rank own enabled enter).marked index :: below, pool, s⟩ := by
  cases enabled with
  | false =>
    have hinto : Into ⟨index, (Stage.around rank own false enter).marked index :: below, pool, s⟩
        ⟨index + 1, below, pool, s⟩ [] := .skipped
    exact .around hinto (hbelow s) rfl (closes_plain hinto)
  | true =>
    obtain ⟨passage, request, scene, henter⟩ : ∃ passage request scene,
        enter ⟨pool, index + 1, below.length⟩ s.request s.scene.plain =
          (passage, request, scene) := ⟨_, _, _, rfl⟩
    cases passage with
    | answer ending =>
      refine @Leg.Located.own _ _ _ _ _ ending Deed.declined (fun x m h => by cases h) ?_
        (fun m hm => ?_)
      · unfold Leg.run runFrom Stage.marked Stage.run markedEnter
        dsimp only
        rw [if_pos rfl, henter]
        rfl
      · subst hm
        exact ⟨_, .surrounding (by unfold markedEnter; rw [henter])⟩
    | proceed resume =>
      have hinto : Into ⟨index, (Stage.around rank own true enter).marked index :: below, pool, s⟩
          ⟨index + 1, below, pool,
            s.with request (scene.logging (s.log ++ [.did index .proceeded]))⟩
          [.resume (markedResume index resume)] :=
        .surrounded (by unfold markedEnter; rw [henter]; rfl)
      exact .passed hinto (hbelow _) rfl rfl (closes_resumed hinto)

theorem located_terminal
    (act : Site → Request → Scene σ W → Ending Cause Response × Scene σ W) :
    Leg.Located ⟨index, (Stage.terminal act).marked index :: below, pool, s⟩ := by
  obtain ⟨ending, scene, hact⟩ : ∃ ending scene,
      act ⟨pool, index + 1, below.length⟩ s.request s.scene.plain = (ending, scene) :=
    ⟨_, _, rfl⟩
  refine @Leg.Located.own _ _ _ _ _ ending Deed.handled (fun x m h => by cases h) ?_
    (fun m hm => ?_)
  · unfold Leg.run runFrom Stage.marked Stage.run
    dsimp only
    rw [hact]
    cases ending <;> rfl
  · subst hm
    exact ⟨_, .handling (by dsimp only; rw [hact])⟩

theorem located_reactive (act : Site → Scene σ W → Ending Cause Response × Scene σ W) :
    Leg.Located ⟨index, (Stage.reactive act).marked index :: below, pool, s⟩ := by
  cases hspent : s.spent with
  | true =>
    refine .quiet ?_
    unfold Leg.run runFrom Stage.marked
    rw [Stage.run_reactive_spent hspent]
  | false =>
    obtain ⟨ending, scene, hact⟩ : ∃ ending scene,
        act ⟨pool, index + 1, below.length⟩ s.scene.plain = (ending, scene) := ⟨_, _, rfl⟩
    refine @Leg.Located.own _ _ _ _ _ ending Deed.handled (fun x m h => by cases h) ?_
      (fun m hm => ?_)
    · unfold Leg.run runFrom Stage.marked
      rw [Stage.run_reactive_ready hspent]
      dsimp only
      rw [hact]
      cases ending <;> rfl
    · subst hm
      exact ⟨_, .reacting hspent (by dsimp only; rw [hact])⟩

/-- The panics of a marked stage, and of what is below it, are those of legs. -/
theorem located_cons (hbelow : ∀ pool s, Leg.Located ⟨index + 1, below, pool, s⟩)
    (stage : Stage σ W) : Leg.Located ⟨index, stage.marked index :: below, pool, s⟩ := by
  induction stage generalizing pool with
  | before rank own act => exact located_before (hbelow pool) rank own act
  | wrapping rank own enter => exact located_wrapping (hbelow pool) rank own enter
  | after rank own act =>
    have hinto : Into ⟨index, (Stage.after rank own act).marked index :: below, pool, s⟩
        ⟨index + 1, below, pool, s⟩
        [.adjust (markedAdjust index (act ⟨pool, index + 1, below.length⟩))] := .awaited
    exact .around hinto (hbelow pool s) rfl (closes_adjusted hinto)
  | around rank own enabled enter => exact located_around (hbelow pool) rank own enabled enter
  | hop inner worker ih =>
    cases hrunning : worker.running with
    | true =>
      have hinto : Into ⟨index, (Stage.hop inner worker).marked index :: below, pool, s⟩
          ⟨index, inner.marked index :: below, some worker.name, s⟩ [.hop worker s.request] :=
        .hop hrunning
      exact .around hinto ih rfl (closes_hop hinto)
    | false =>
      refine .quiet ?_
      unfold Leg.run runFrom Stage.marked Stage.run
      dsimp only
      rw [if_neg (by rw [hrunning]; exact Bool.false_ne_true)]
      rfl
  | terminal act => exact located_terminal act
  | reactive act => exact located_reactive act

/-- The leg is of stages that are marked by their indices. -/
def Leg.Labelled (l : Leg σ (Logged W)) : Prop :=
  ∃ stages : List (Stage σ W), l.stages = (stages.zipIdx l.index).map markedAs

theorem Leg.Labelled.located {l : Leg σ (Logged W)} (h : l.Labelled) : l.Located := by
  obtain ⟨index, marked, pool, s⟩ := l
  obtain ⟨stages, hstages⟩ := h
  dsimp only at hstages
  subst hstages
  induction stages generalizing index pool s with
  | nil => exact .quiet rfl
  | cons stage stages ih =>
    rw [List.zipIdx_cons, List.map_cons]
    exact located_cons (fun pool s => ih (index + 1) pool s) stage

end Stages

/-! ### What is done while a run unwinds -/

/-- The deed is about what the rest of the run came to. -/
def Deed.looksBack : Deed → Bool
  | resumed .. | adjusted .. | panicked _ => true
  | _ => false

/-- The mark is of a stage above `index` that looks back. -/
def Mark.Behind (index : Nat) (mark : Mark) : Prop :=
  ∃ k d, mark = .did k d ∧ k < index ∧ d.looksBack = true

def Frame.Behind (index : Nat) (frame : Frame σ (Logged W)) : Prop :=
  ∀ x, ∃ more, (frame.receive x).2.log = x.2.log ++ more ∧ ∀ mark ∈ more, mark.Behind index

theorem Mark.Behind.mono {index index' : Nat} {mark : Mark} (h : mark.Behind index)
    (hle : index ≤ index') : mark.Behind index' := by
  obtain ⟨k, d, rfl, hk, hd⟩ := h
  exact ⟨k, d, rfl, Nat.lt_of_lt_of_le hk hle, hd⟩

theorem Frame.Behind.mono {index index' : Nat} {frame : Frame σ (Logged W)}
    (h : frame.Behind index) (hle : index ≤ index') : frame.Behind index' := by
  intro x
  obtain ⟨more, hlog, hmore⟩ := h x
  exact ⟨more, hlog, fun mark hmark => (hmore mark hmark).mono hle⟩

theorem behind_hop (worker : Worker) (entered : Request) (index : Nat) :
    Frame.Behind index (.hop worker entered : Frame σ (Logged W)) := by
  intro x
  refine ⟨[], ?_, fun mark hmark => by cases hmark⟩
  rw [Frame.log_hop, List.append_nil]

theorem behind_resume (index : Nat) (resume : Resume σ W) :
    Frame.Behind (index + 1) (.resume (markedResume index resume)) := by
  intro x
  obtain ⟨late, hlog, hlate⟩ := log_resumed index resume x
  refine ⟨late, hlog, fun mark hmark => ?_⟩
  obtain rfl | ⟨given, -, rfl⟩ := hlate
  · cases hmark
  · refine ⟨index, _, List.mem_singleton.mp hmark, Nat.lt_succ_self _, ?_⟩
    generalize (resume given x.2.request x.2.scene.plain).1 = ending
    cases ending <;> rfl

theorem behind_adjust (index : Nat)
    (act : Request → Response → Scene σ W → Ending Cause Response × Scene σ W) :
    Frame.Behind (index + 1) (.adjust (markedAdjust index act)) := by
  intro x
  obtain ⟨late, hlog, hlate⟩ := log_adjusted index act x
  refine ⟨late, hlog, fun mark hmark => ?_⟩
  obtain rfl | ⟨response, -, rfl⟩ := hlate
  · cases hmark
  · refine ⟨index, _, List.mem_singleton.mp hmark, Nat.lt_succ_self _, ?_⟩
    generalize (act x.2.request response x.2.scene.plain).1 = ending
    cases ending <;> rfl

theorem markedEnter_proceeds {label : Nat} {enter : Enter σ W} {site : Site} {r r' : Request}
    {scene scene' : Scene σ (Logged W)} {resume : Resume σ (Logged W)}
    (h : markedEnter label enter site r scene = (.proceed resume, r', scene')) :
    ∃ second, resume = markedResume label second := by
  unfold markedEnter at h
  generalize enter site r scene.plain = x at h
  obtain ⟨_ | second, request, plain⟩ := x
  · cases h
  · cases h
    exact ⟨second, rfl⟩

/-- From marked stages a run goes on to marked stages, and what is left to do is done by the first
of those above. -/
theorem Into.labelled {l l' : Leg σ (Logged W)} {frames : List (Frame σ (Logged W))}
    (hinto : Into l l' frames) (h : l.Labelled) :
    l'.Labelled ∧ ∀ frame ∈ frames, frame.Behind l'.index := by
  obtain ⟨index, marked, pool, s⟩ := l
  obtain ⟨stages, hstages⟩ := h
  dsimp only at hstages
  obtain ⟨stage, rest, rfl⟩ : ∃ stage rest, stages = stage :: rest := by
    cases stages with
    | nil => cases hinto <;> cases hstages
    | cons stage rest => exact ⟨stage, rest, rfl⟩
  rw [List.zipIdx_cons, List.map_cons] at hstages
  cases hinto with
  | hop hrunning =>
    obtain ⟨hfirst, hbelow⟩ := List.cons.inj hstages
    cases stage with
    | hop inner worker =>
      cases hfirst
      refine ⟨⟨inner :: rest, ?_⟩, ?_⟩
      · rw [List.zipIdx_cons, List.map_cons, hbelow]
        rfl
      · rintro frame (_ | ⟨_, ⟨⟩⟩)
        exact behind_hop _ _ _
    | _ => cases hfirst
  | passed hact =>
    exact ⟨⟨rest, (List.cons.inj hstages).2⟩, fun frame hframe => by cases hframe⟩
  | wrapped henter =>
    obtain ⟨hfirst, hbelow⟩ := List.cons.inj hstages
    refine ⟨⟨rest, hbelow⟩, ?_⟩
    cases stage with
    | wrapping rank own enter =>
      cases hfirst
      obtain ⟨second, rfl⟩ := markedEnter_proceeds henter
      rintro frame (_ | ⟨_, ⟨⟩⟩)
      exact behind_resume _ _
    | _ => cases hfirst
  | surrounded henter =>
    obtain ⟨hfirst, hbelow⟩ := List.cons.inj hstages
    refine ⟨⟨rest, hbelow⟩, ?_⟩
    cases stage with
    | around rank own enabled enter =>
      cases hfirst
      obtain ⟨second, rfl⟩ := markedEnter_proceeds henter
      rintro frame (_ | ⟨_, ⟨⟩⟩)
      exact behind_resume _ _
    | _ => cases hfirst
  | skipped =>
    exact ⟨⟨rest, (List.cons.inj hstages).2⟩, fun frame hframe => by cases hframe⟩
  | awaited =>
    obtain ⟨hfirst, hbelow⟩ := List.cons.inj hstages
    refine ⟨⟨rest, hbelow⟩, ?_⟩
    cases stage with
    | after rank own act =>
      cases hfirst
      rintro frame (_ | ⟨_, ⟨⟩⟩)
      exact behind_adjust _ _
    | _ => cases hfirst

theorem Inside.behind {l l' : Leg σ (Logged W)} {frames : List (Frame σ (Logged W))}
    (h : Inside l l' frames) (hl : l.Labelled) : ∀ frame ∈ frames, frame.Behind l'.index := by
  induction h with
  | here l => exact fun frame hframe => by cases hframe
  | into hinto hinside ih =>
    obtain ⟨hlabelled, houter⟩ := hinto.labelled hl
    intro frame hframe
    rcases List.mem_append.mp hframe with hframe | hframe
    · exact ih hlabelled frame hframe
    · exact (houter frame hframe).mono (inside_index hinside)

/-- Nothing is done while a run unwinds but by stages above that look back. -/
theorem log_unwind {index : Nat} {frames : List (Frame σ (Logged W))}
    (h : ∀ frame ∈ frames, frame.Behind index)
    (x : Ending Failure Response × State σ (Logged W)) :
    ∃ more, (unwind frames x).2.log = x.2.log ++ more ∧ ∀ mark ∈ more, mark.Behind index := by
  induction frames generalizing x with
  | nil => exact ⟨[], (List.append_nil _).symm, fun mark hmark => by cases hmark⟩
  | cons frame outer ih =>
    obtain ⟨own, hown, hownBehind⟩ := h frame (.head _) x
    obtain ⟨more, hmore, hmoreBehind⟩ :=
      ih (fun frame hframe => h frame (.tail _ hframe)) (frame.receive x)
    refine ⟨own ++ more, ?_, fun mark hmark => ?_⟩
    · rw [← List.append_assoc, ← hown]
      exact hmore
    · rcases List.mem_append.mp hmark with hmark | hmark
      · exact hownBehind mark hmark
      · exact hmoreBehind mark hmark

/-! ### Panics in line-ups -/

namespace Lineup

/-- **Panics are contained.** Wherever a stage panics in a run of a line-up, it is the first of some
leg, and frames tell what is around that leg. If no hop is among them, then the panic is what the
run comes to, and nothing is done any more. Otherwise the innermost hop fails with the name of its
pool. It hands back the method, the target and the body of the request that came to it, and leaves
the rest of the state as the panic found it. What is outside goes on with this failure as with any
other: nothing further down is done any more, the failure passes all frames up to the first that is
shown failures, and that one is given it. -/
theorem panics_contained (p : Lineup σ W) (s : State σ W) {front back : List Mark} {i : Nat}
    {m : String}
    (hlog : (p.marked.execute s.logged).2.log = front ++ .did i (.panicked m) :: back) :
    let whole : Leg σ (Logged W) := ⟨0, p.marked.stages, none, s.logged⟩
    plainly (p.marked.execute s.logged) = p.execute s ∧
    ∃ (l : Leg σ (Logged W)) (t : State σ (Logged W)) (frames : List (Frame σ (Logged W))),
      Inside whole l frames ∧ l.index = i ∧ l.Panics m t ∧
      t.log = front ++ [.did i (.panicked m)] ∧
      ((∀ frame ∈ frames, frame.isHop = false) ∧
          p.marked.execute s.logged = (.panicked m, t) ∧ back = [] ∨
        ∃ inside worker entered outside, frames = inside ++ .hop worker entered :: outside ∧
          (∀ frame ∈ inside, frame.isHop = false) ∧
          ∃ (above : Leg σ (Logged W)) (inner : Stage σ (Logged W))
            (below : List (Stage σ (Logged W))),
            Inside whole above outside ∧ Inside above l (inside ++ [.hop worker entered]) ∧
            above.stages = .hop inner worker :: below ∧ above.state.request = entered ∧
            above.run =
              (.failed (.executor worker.name ("task 1 panicked with message " ++ Text.quote m)),
                { t with request :=
                  { method := entered.method, target := entered.target, body := entered.body } }) ∧
            p.marked.execute s.logged = unwind outside above.run ∧
            (∀ mark ∈ back, mark.Behind above.index) ∧
            ((∀ frame ∈ outside, frame.observes = false) →
              p.marked.execute s.logged = above.run ∧ back = []) ∧
            ∀ quiet second outer, outside = quiet ++ .resume second :: outer →
              (∀ frame ∈ quiet, frame.observes = false) →
              p.marked.execute s.logged = unwind outer (resumeWith second above.run)) := by
  intro whole
  have hlabelled : whole.Labelled := ⟨p.stages, rfl⟩
  obtain ⟨marks, hmarks, hpanics⟩ := hlabelled.located
  have hall : marks = front ++ .did i (.panicked m) :: back := hmarks.symm.trans hlog
  obtain ⟨l, t, frames, hinside, hindex, hpanic, ht⟩ := hpanics front i m back hall
  replace ht : t.log = front ++ [.did i (.panicked m)] := ht
  -- what follows the panic in the log is what was entered after it
  have hback : ∀ {more}, (p.marked.execute s.logged).2.log = t.log ++ more → back = more := by
    intro more hmore
    rw [hlog, ht, List.append_assoc] at hmore
    exact (List.cons.inj (List.append_cancel_left hmore)).2
  refine ⟨p.plain_marked s, l, t, frames, hinside, hindex, hpanic, ht, ?_⟩
  rcases innermost_hop frames with hnone | ⟨inside, worker, entered, outside, rfl, hquiet⟩
  · have hpanicked : p.marked.execute s.logged = (.panicked m, t) := by
      have hwhole := inside_run hinside
      rw [panics_run hpanic, unwind_panicked hnone] at hwhole
      exact hwhole
    exact .inl ⟨hnone, hpanicked, hback (by rw [hpanicked, List.append_nil])⟩
  · obtain ⟨above, inner, below, habove, hbetween, hstages, hentered, hrun⟩ :=
      contained hinside hquiet hpanic
    have hout : p.marked.execute s.logged = unwind outside above.run := inside_run habove
    refine .inr ⟨inside, worker, entered, outside, rfl, hquiet, above, inner, below, habove,
      hbetween, hstages, hentered, hrun, hout, ?_, ?_, ?_⟩
    · obtain ⟨more, hmore, hbehind⟩ := log_unwind (habove.behind hlabelled) above.run
      rw [← hout, hrun] at hmore
      rw [hback hmore]
      exact hbehind
    · intro hunseen
      have hfailed : p.marked.execute s.logged = above.run := by
        rw [hout, hrun, unwind_failed hunseen]
      refine ⟨hfailed, hback ?_⟩
      rw [hfailed, hrun, List.append_nil]
      rfl
    · rintro quiet second outer rfl hunseen
      rw [hout, unwind_append, hrun, unwind_failed hunseen]
      rfl

/-- Stages of which the last panics on a pool, and the second makes a response of the failure. -/
def perilous : Lineup Unit Unit where
  stages :=
    [.after .dynamic 0 fun _ _ response scene => (.done response, scene),
      .around .dynamic 1 true fun _ request scene =>
        (.proceed fun _ request scene => (.done { status := 503 }, request, scene), request, scene),
      .after .dynamic 2 fun _ _ response scene => (.done response, scene),
      .hop (.before .dynamic 3 fun _ request scene =>
        (.done none, { request with method := "PUT" }, scene)) { name := "io" },
      .terminal fun _ _ scene => (.panicked "boom", scene)]

/-- The only hop of these stages goes to one pool, with the request that came in. -/
theorem hop_of_perilous {s : State Unit (Logged Unit)} {above : Leg Unit (Logged Unit)}
    {outside : List (Frame Unit (Logged Unit))} {inner : Stage Unit (Logged Unit)}
    {worker : Worker} {below : List (Stage Unit (Logged Unit))}
    (h : Inside ⟨0, perilous.marked.stages, none, s⟩ above outside)
    (hstages : above.stages = .hop inner worker :: below) :
    worker = { name := "io" } ∧ above.state.request = s.request := by
  -- from stage to stage on the way down; legs that do not begin with a hop drop out
  rcases h with _ | ⟨hinto, h⟩
  · cases hstages
  cases hinto
  rcases h with _ | ⟨hinto, h⟩
  · cases hstages
  rcases hinto with _ | _ | _ | henter
  cases henter
  rcases h with _ | ⟨hinto, h⟩
  · cases hstages
  cases hinto
  rcases h with _ | ⟨hinto, h⟩
  · cases hstages
    exact ⟨rfl, rfl⟩
  cases hinto
  rcases h with _ | ⟨hinto, h⟩
  · cases hstages
  rcases hinto with _ | hact
  cases hact
  rcases h with _ | ⟨hinto, h⟩
  · cases hstages
  cases hinto

theorem panics_contained_perilous :
    let s : State Unit Unit :=
      { request := { method := "POST", version := .v2, body := 0 }, scene := { world := () } }
    (perilous.execute s).1 = .done { status := 503 } ∧
      (perilous.execute s).2.request = { method := "POST", body := 0 } ∧
      ∃ (above : Leg Unit (Logged Unit)) (t : State Unit (Logged Unit)),
        above.run =
          (.failed (.executor "io" "task 1 panicked with message \"boom\""),
            { t with request := { method := "POST", body := 0 } }) := by
  intro s
  have hlog : (perilous.marked.execute s.logged).2.log =
      [.did 1 .proceeded, .did 3 .passed] ++ .did 4 (.panicked "boom") ::
        [.did 1 (.resumed (.error (.executor "io" "task 1 panicked with message \"boom\""))
          (.ok { status := 503 })),
          .did 0 (.adjusted { status := 503 } (.ok { status := 503 }))] := rfl
  obtain ⟨hplain, l, t, frames, -, -, -, -, hcase⟩ := perilous.panics_contained s hlog
  refine ⟨rfl, rfl, ?_⟩
  rcases hcase with ⟨-, -, hback⟩ | ⟨_, worker, entered, _, -, -, above, _, _, habove, -, hstages,
    hentered, hrun, -⟩
  · cases hback
  · obtain ⟨rfl, hrequest⟩ := hop_of_perilous habove hstages
    obtain rfl := hentered.symm.trans hrequest
    exact ⟨above, t, hrun⟩

end Lineup

end Exchange.Pipeline
