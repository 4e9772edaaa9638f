import Exchange.Pipeline.Run
import Exchange.Proofs.Pipeline.Course

/-!
Stages that leave marks behind.

A `Logged` world keeps a log beside what the stages keep themselves. A marked stage behaves like the
stage it is made from, which never sees the log (`Stage.plain_run`), and enters what its behaviour
does. `Stage.run_marked` says what one stage enters around the rest of the run: as its role has it,
it turns the run around or passes it on, unless something panics.
-/
namespace Exchange.Pipeline

open Http (Request Response)

structure Logged (W : Type) where
  world : W
  log : List Mark := []

variable {σ W : Type}

/-- The scene without its log. -/
def Scene.plain (s : Scene σ (Logged W)) : Scene σ W := ⟨s.bodies, s.world.world⟩

def Scene.logging (log : List Mark) (s : Scene σ W) : Scene σ (Logged W) :=
  ⟨s.bodies, ⟨s.world, log⟩⟩

namespace State

/-- The state without its log. -/
def plain (s : State σ (Logged W)) : State σ W := ⟨s.request, s.scene.plain, s.spent⟩

/-- The state with an empty log. -/
def logged (s : State σ W) : State σ (Logged W) := ⟨s.request, s.scene.logging [], s.spent⟩

def log (s : State σ (Logged W)) : List Mark := s.scene.world.log

end State

/-- What a run came to, without the log. -/
def plainly (x : Ending Failure Response × State σ (Logged W)) :
    Ending Failure Response × State σ W :=
  (x.1, x.2.plain)

/-! ### Marked behaviour -/

/-- The deed that an ending is. -/
def Ending.deed {ε α : Type} (deed : Except ε α → Deed) : Ending ε α → Deed
  | .done a => deed (.ok a)
  | .failed e => deed (.error e)
  | .panicked m => .panicked m

def Deed.checked : Except Cause (Option Response) → Deed
  | .ok none => .passed
  | .ok (some r) => .answered r
  | .error c => .refused c

def markedResume (label : Nat) (resume : Resume σ W) : Resume σ (Logged W) :=
  fun given request scene =>
    let (ending, request, plain) := resume given request scene.plain
    (ending, request,
      plain.logging (scene.world.log ++ [.did label (ending.deed (.resumed given))]))

def markedEnter (label : Nat) (enter : Enter σ W) : Enter σ (Logged W) := fun site request scene =>
  match enter site request scene.plain with
  | (.answer ending, request, plain) =>
    (.answer ending, request,
      plain.logging (scene.world.log ++ [.did label (ending.deed .declined)]))
  | (.proceed resume, request, plain) =>
    (.proceed (markedResume label resume), request,
      plain.logging (scene.world.log ++ [.did label .proceeded]))

namespace Stage

/-- The stage, entering what it does under `label`. -/
def marked (label : Nat) : Stage σ W → Stage σ (Logged W)
  | before rank own act => before rank own fun site request scene =>
    let (ending, request, plain) := act site request scene.plain
    (ending, request, plain.logging (scene.world.log ++ [.did label (ending.deed .checked)]))
  | wrapping rank own enter => wrapping rank own (markedEnter label enter)
  | after rank own act => after rank own fun site request response scene =>
    let (ending, plain) := act site request response scene.plain
    (ending, plain.logging (scene.world.log ++ [.did label (ending.deed (.adjusted response))]))
  | around rank own enabled enter => around rank own enabled (markedEnter label enter)
  | hop inner worker => hop (inner.marked label) worker
  | terminal act => terminal fun site request scene =>
    let (ending, plain) := act site request scene.plain
    (ending, plain.logging (scene.world.log ++ [.did label (ending.deed .handled)]))
  | reactive act => reactive fun site scene =>
    let (ending, plain) := act site scene.plain
    (ending, plain.logging (scene.world.log ++ [.did label (ending.deed .handled)]))

/-- What is expected of the stage, when responses from elsewhere have been taken or not. -/
def role (spent : Bool) : Stage σ W → Role
  | before .. => .checks
  | wrapping .. => .wraps
  | after .. => .adjusts
  | around _ _ enabled _ => if enabled then .wraps else .idles
  | hop inner _ => inner.role spent
  | terminal _ => .handles true
  | reactive _ => .handles !spent

/-- All pools that the stage is moved to take work. -/
def hosted : Stage σ W → Bool
  | hop inner worker => worker.running && inner.hosted
  | _ => true

@[simp] theorem order?_marked (label : Nat) (stage : Stage σ W) :
    (stage.marked label).order? = stage.order? := by
  induction stage with
  | hop inner _ ih => exact ih
  | _ => rfl

@[simp] theorem isTerminal_marked (label : Nat) (stage : Stage σ W) :
    (stage.marked label).isTerminal = stage.isTerminal := by
  induction stage with
  | hop inner _ ih => exact ih
  | _ => rfl

/-- The stages that handle the request are those expected to. -/
theorem isTerminal_iff (spent : Bool) (stage : Stage σ W) :
    stage.isTerminal = true ↔ ∃ ready, stage.role spent = .handles ready := by
  induction stage with
  | around _ _ enabled _ => cases enabled <;> simp [isTerminal, role]
  | hop inner _ ih => exact ih
  | _ => simp [isTerminal, role]

theorem role_ne_handles {stage : Stage σ W} (h : stage.isTerminal = false) (spent ready : Bool) :
    stage.role spent ≠ .handles ready := by
  intro hrole
  rw [(isTerminal_iff spent stage).mpr ⟨ready, hrole⟩] at h
  cases h

/-! ### The log is not seen -/

variable {label index remaining : Nat}

theorem plain_resumeWith {x : Ending Failure Response × State σ (Logged W)} (resume : Resume σ W) :
    plainly (resumeWith (markedResume label resume) x) = resumeWith resume (plainly x) := by
  obtain ⟨ending, s⟩ := x
  cases ending <;> rfl

theorem plain_run {rest : Walk σ (Logged W)} {rest' : Walk σ W}
    (hrest : ∀ pool s, plainly (rest pool s) = rest' pool s.plain) (stage : Stage σ W)
    (pool : Option String) (s : State σ (Logged W)) :
    plainly ((stage.marked label).run index remaining rest pool s) =
      stage.run index remaining rest' pool s.plain := by
  induction stage generalizing pool s with
  | before rank own act =>
    unfold marked run
    rw [show s.plain.request = s.request from rfl, show s.plain.scene = s.scene.plain from rfl]
    dsimp only
    obtain ⟨ending, request, scene⟩ := act ⟨pool, index + 1, remaining⟩ s.request s.scene.plain
    cases ending with
    | done answer =>
      cases answer with
      | none => exact hrest pool _
      | some response => rfl
    | failed cause => rfl
    | panicked m => rfl
  | wrapping rank own enter =>
    unfold marked run markedEnter
    rw [show s.plain.request = s.request from rfl, show s.plain.scene = s.scene.plain from rfl]
    obtain ⟨passage, request, scene⟩ := enter ⟨pool, index + 1, remaining⟩ s.request s.scene.plain
    cases passage with
    | answer ending => cases ending <;> rfl
    | proceed resume => exact (plain_resumeWith resume).trans (by rw [hrest]; rfl)
  | after rank own act =>
    have hsame := hrest pool s
    unfold marked run
    rw [← hsame]
    obtain ⟨ending, t⟩ := rest pool s
    cases ending with
    | done response =>
      dsimp only [plainly, State.plain]
      obtain ⟨ending, scene⟩ := act ⟨pool, index + 1, remaining⟩ t.request response t.scene.plain
      cases ending <;> rfl
    | failed f => rfl
    | panicked m => rfl
  | around rank own enabled enter =>
    unfold marked run
    cases enabled with
    | true =>
      unfold markedEnter
      rw [show s.plain.request = s.request from rfl, show s.plain.scene = s.scene.plain from rfl]
      obtain ⟨passage, request, scene⟩ :=
        enter ⟨pool, index + 1, remaining⟩ s.request s.scene.plain
      cases passage with
      | answer ending => rfl
      | proceed resume => exact (plain_resumeWith resume).trans (by rw [hrest]; rfl)
    | false => exact hrest pool s
  | hop inner worker ih =>
    have hsame := ih (some worker.name) s
    unfold marked run
    rw [← hsame]
    cases worker.running with
    | true =>
      obtain ⟨ending, t⟩ :=
        (inner.marked label).run index remaining rest (some worker.name) s
      cases ending <;> rfl
    | false => rfl
  | terminal act =>
    unfold marked run
    rw [show s.plain.request = s.request from rfl, show s.plain.scene = s.scene.plain from rfl]
    dsimp only
    obtain ⟨ending, scene⟩ := act ⟨pool, index + 1, remaining⟩ s.request s.scene.plain
    cases ending <;> rfl
  | reactive act =>
    have hplain : s.plain.spent = s.spent := rfl
    unfold marked
    cases hspent : s.spent with
    | true =>
      rw [run_reactive_spent hspent, run_reactive_spent (hplain.trans hspent)]
      rfl
    | false =>
      rw [run_reactive_ready hspent, run_reactive_ready (hplain.trans hspent)]
      rw [show s.plain.scene = s.scene.plain from rfl]
      dsimp only
      obtain ⟨ending, scene⟩ := act ⟨pool, index + 1, remaining⟩ s.scene.plain
      cases ending <;> rfl

end Stage

/-! ### What is entered -/

/-- From state `s` on marks were entered as `leaves` has it, unless something panicked. -/
def Records (leaves : List Mark → Except Failure Response → Prop) (s : State σ (Logged W))
    (x : Ending Failure Response × State σ (Logged W)) : Prop :=
  ∃ marks, x.2.log = s.log ++ marks ∧
    ((∃ m ∈ marks, m.panics = true) ∨ ∃ result, x.1 = .ofExcept result ∧ leaves marks result)

/-- What a stage of a role enters around what the stages below it enter. -/
inductive Around (below : List Mark → Except Failure Response → Prop) (role : Role) (label : Nat) :
    List Mark → Except Failure Response → Prop where
  | turns {own result} : Turns role own result →
      Around below role label (own.map (.did label)) result
  | passes {early lower given late result} : Passes role early given late result →
      below lower given →
      Around below role label (early.map (.did label) ++ lower ++ late.map (.did label)) result

theorem Records.imp {leaves leaves' : List Mark → Except Failure Response → Prop}
    {s : State σ (Logged W)} {x : Ending Failure Response × State σ (Logged W)}
    (h : Records leaves s x) (himp : ∀ marks result, leaves marks result → leaves' marks result) :
    Records leaves' s x := by
  obtain ⟨marks, hlog, hcase⟩ := h
  refine ⟨marks, hlog, hcase.imp_right ?_⟩
  rintro ⟨result, hresult, hleaves⟩
  exact ⟨result, hresult, himp _ _ hleaves⟩

section Entered

variable {below : List Mark → Except Failure Response → Prop} {label : Nat}
  {s t : State σ (Logged W)} {x : Ending Failure Response × State σ (Logged W)}

theorem Records.panicked {leaves : List Mark → Except Failure Response → Prop} (m : String)
    (hlog : x.2.log = s.log ++ [.did label (.panicked m)]) : Records leaves s x :=
  ⟨_, hlog, .inl ⟨_, List.mem_singleton.mpr rfl, rfl⟩⟩

/-- A stage that turns the run around by one deed. -/
theorem Records.turned {role : Role} {d : Deed} (result : Except Failure Response)
    (hturns : Turns role [d] result) (hlog : x.2.log = s.log ++ [.did label d])
    (hx : x.1 = .ofExcept result) : Records (Around below role label) s x :=
  ⟨_, hlog, .inr ⟨result, hx, .turns hturns⟩⟩

/-- A stage that leaves the result of the stages below it alone. -/
theorem Records.passed {role : Role} (early : List Deed)
    (hpasses : ∀ result, Passes role early result [] result)
    (ht : t.log = s.log ++ early.map (.did label)) (hx : Records below t x) :
    Records (Around below role label) s x := by
  obtain ⟨lower, hlog, hcase⟩ := hx
  rw [ht, List.append_assoc] at hlog
  refine ⟨_, hlog, ?_⟩
  rcases hcase with ⟨m, hm, hp⟩ | ⟨result, hresult, hbelow⟩
  · exact .inl ⟨m, List.mem_append_right _ hm, hp⟩
  · refine .inr ⟨result, hresult, ?_⟩
    have hleaves : Around below role label (early.map (.did label) ++ lower ++ []) result :=
      .passes (hpasses result) hbelow
    rwa [List.append_nil] at hleaves

/-- A stage that makes a result of its own out of that of the stages below it by one deed. -/
theorem Records.made {role : Role} (early : List Deed) {lower : List Mark} {d : Deed}
    {given result : Except Failure Response} (hpasses : Passes role early given [d] result)
    (hbelow : below lower given)
    (hlog : x.2.log = s.log ++ (early.map (.did label) ++ lower ++ [.did label d]))
    (hx : x.1 = .ofExcept result) : Records (Around below role label) s x :=
  ⟨_, hlog, .inr ⟨result, hx, .passes hpasses hbelow⟩⟩

theorem resumeWith_ofExcept (resume : Resume σ W) (given : Except Failure Response)
    (u : State σ W) :
    resumeWith resume (.ofExcept given, u) =
      ((resume given u.request u.scene).1,
        u.with (resume given u.request u.scene).2.1 (resume given u.request u.scene).2.2) := by
  cases given <;> rfl

/-- The second half of a wrapping stage enters one deed, if it is run. -/
theorem log_resumed (label : Nat) (resume : Resume σ W)
    (x : Ending Failure Response × State σ (Logged W)) :
    ∃ late, (resumeWith (markedResume label resume) x).2.log = x.2.log ++ late ∧
      (late = [] ∨ ∃ given, x.1 = .ofExcept given ∧
        late = [.did label
          ((resume given x.2.request x.2.scene.plain).1.deed (.resumed given))]) := by
  obtain ⟨ending, t⟩ := x
  cases ending with
  | done r => exact ⟨_, rfl, .inr ⟨.ok r, rfl, rfl⟩⟩
  | failed f => exact ⟨_, rfl, .inr ⟨.error f, rfl, rfl⟩⟩
  | panicked m => exact ⟨[], (List.append_nil _).symm, .inl rfl⟩

theorem log_resumeWith (resume : Resume σ W)
    (x : Ending Failure Response × State σ (Logged W)) :
    ∃ more, (resumeWith (markedResume label resume) x).2.log = x.2.log ++ more := by
  obtain ⟨late, hlog, -⟩ := log_resumed label resume x
  exact ⟨late, hlog⟩

/-- What a wrapping stage that proceeded enters behind the stages below it. -/
theorem Records.resumed (resume : Resume σ W) (ht : t.log = s.log ++ [.did label .proceeded])
    (hx : Records below t x) :
    Records (Around below .wraps label) s (resumeWith (markedResume label resume) x) := by
  obtain ⟨lower, hlog, hcase⟩ := hx
  rw [ht, List.append_assoc] at hlog
  rcases hcase with ⟨m, hm, hp⟩ | ⟨given, hgiven, hbelow⟩
  · -- a panic below stays on record, whatever the stage makes of it
    obtain ⟨more, hmore⟩ := log_resumeWith resume x
    rw [hlog, List.append_assoc] at hmore
    exact ⟨_, hmore, .inl ⟨m, List.mem_append_left _ (List.mem_append_right _ hm), hp⟩⟩
  · obtain ⟨ending, u⟩ := x
    subst hgiven
    have hbehind : ∀ d, u.log ++ [.did label d] =
        s.log ++ ([.did label .proceeded] ++ lower ++ [.did label d]) := by
      intro d
      rw [show u.log = _ from hlog, List.append_assoc]
    rw [resumeWith_ofExcept]
    unfold markedResume
    obtain ⟨ending, request, scene⟩ := resume given u.request u.scene.plain
    cases ending with
    | done r => exact .made [.proceeded] (.resumed given (.ok r)) hbelow (hbehind _) rfl
    | failed f => exact .made [.proceeded] (.resumed given (.error f)) hbelow (hbehind _) rfl
    | panicked m => exact ⟨_, hbehind _, .inl ⟨_, List.mem_append_right _ (.head _), rfl⟩⟩

end Entered

namespace Stage

variable {label index remaining : Nat} {rest : Walk σ (Logged W)}
  {below leaves : List Mark → Except Failure Response → Prop} {pool : Option String}
  {s : State σ (Logged W)}

theorem run_marked_after (rank : Rank) (own : Int)
    (act : Site → Request → Response → Scene σ W → Ending Cause Response × Scene σ W)
    (hx : Records below s (rest pool s)) :
    Records (Around below .adjusts label) s
      (((after rank own act).marked label).run index remaining rest pool s) := by
  unfold marked run
  generalize rest pool s = x at hx ⊢
  obtain ⟨ending, t⟩ := x
  obtain ⟨lower, hlog, hcase⟩ := hx
  have hbehind : ∀ d, t.log ++ [.did label d] = s.log ++ (lower ++ [.did label d]) := by
    intro d
    rw [show t.log = _ from hlog, List.append_assoc]
  cases ending with
  | done response =>
    dsimp only
    obtain ⟨ending, scene⟩ := act ⟨pool, index + 1, remaining⟩ t.request response t.scene.plain
    rcases hcase with ⟨m, hm, hp⟩ | ⟨given, hgiven, hbelow⟩
    · have hmem : ∀ d, m ∈ lower ++ [.did label d] := fun d => List.mem_append_left _ hm
      cases ending <;> exact ⟨_, hbehind _, .inl ⟨m, hmem _, hp⟩⟩
    · cases given with
      | error f => cases hgiven
      | ok r =>
        cases hgiven
        cases ending with
        | done r => exact .made [] (.adjusted response (.ok r)) hbelow (hbehind _) rfl
        | failed c => exact .made [] (.adjusted response (.error c)) hbelow (hbehind _) rfl
        | panicked m => exact ⟨_, hbehind _, .inl ⟨_, List.mem_append_right _ (.head _), rfl⟩⟩
  | failed f =>
    refine ⟨lower, hlog, hcase.imp_right ?_⟩
    rintro ⟨given, hgiven, hbelow⟩
    cases given with
    | ok r => cases hgiven
    | error g =>
      cases hgiven
      have hleaves : Around below .adjusts label ([] ++ lower ++ []) (.error f) :=
        .passes (.passedOver f) hbelow
      rw [List.append_nil] at hleaves
      exact ⟨_, rfl, hleaves⟩
  | panicked m =>
    refine ⟨lower, hlog, hcase.imp_right ?_⟩
    rintro ⟨given, hgiven, -⟩
    cases given <;> cases hgiven

/-- A hop adds nothing to what is entered, and what does not panic goes through it unchanged. -/
theorem run_marked_hop {inner : Stage σ W} {worker : Worker} (hrunning : worker.running = true)
    (hx : Records leaves s
      ((inner.marked label).run index remaining rest (some worker.name) s)) :
    Records leaves s (((hop inner worker).marked label).run index remaining rest pool s) := by
  unfold marked run
  rw [if_pos hrunning]
  generalize (inner.marked label).run index remaining rest (some worker.name) s = x at hx ⊢
  obtain ⟨ending, t⟩ := x
  obtain ⟨marks, hlog, hcase⟩ := hx
  cases ending with
  | done r => exact ⟨marks, hlog, hcase⟩
  | failed f => exact ⟨marks, hlog, hcase⟩
  | panicked m =>
    refine ⟨marks, hlog, hcase.imp_right ?_⟩
    rintro ⟨result, hresult, -⟩
    cases result <;> cases hresult

/-- **What a stage enters**: what its role has it do around the stages below, unless something
panics. -/
theorem run_marked (label index remaining : Nat) {spent : Bool}
    (hrest : ∀ pool s, s.spent = spent → Records below s (rest pool s)) (stage : Stage σ W)
    (hhosted : stage.hosted = true) (pool : Option String) (s : State σ (Logged W))
    (hs : s.spent = spent) :
    Records (Around below (stage.role spent) label) s
      ((stage.marked label).run index remaining rest pool s) := by
  induction stage generalizing pool s with
  | before rank own act =>
    unfold marked run
    dsimp only
    obtain ⟨ending, request, scene⟩ := act ⟨pool, index + 1, remaining⟩ s.request s.scene.plain
    cases ending with
    | done answer =>
      cases answer with
      | none => exact .passed [.passed] .passed rfl (hrest pool _ hs)
      | some response => exact .turned (.ok response) (.answered response) rfl rfl
    | failed cause => exact .turned (.error _) (.refused cause) rfl rfl
    | panicked m => exact .panicked m rfl
  | wrapping rank own enter =>
    unfold marked run markedEnter
    obtain ⟨passage, request, scene⟩ := enter ⟨pool, index + 1, remaining⟩ s.request s.scene.plain
    cases passage with
    | answer ending =>
      cases ending with
      | done response => exact .turned (.error _) (.neglected response _) rfl rfl
      | failed f => exact .turned (.error f) (.declined _) rfl rfl
      | panicked m => exact .panicked m rfl
    | proceed resume => exact .resumed resume rfl (hrest pool _ hs)
  | after rank own act => exact run_marked_after rank own act (hrest pool s hs)
  | around rank own enabled enter =>
    unfold marked run
    cases enabled with
    | true =>
      unfold markedEnter
      obtain ⟨passage, request, scene⟩ :=
        enter ⟨pool, index + 1, remaining⟩ s.request s.scene.plain
      cases passage with
      | answer ending =>
        cases ending with
        | done response => exact .turned (.ok response) (.declined _) rfl rfl
        | failed f => exact .turned (.error f) (.declined _) rfl rfl
        | panicked m => exact .panicked m rfl
      | proceed resume => exact .resumed resume rfl (hrest pool _ hs)
    | false => exact .passed [] .idled (List.append_nil _).symm (hrest pool s hs)
  | hop inner worker ih =>
    simp only [hosted, Bool.and_eq_true] at hhosted
    exact run_marked_hop hhosted.1 (ih hhosted.2 (some worker.name) s hs)
  | terminal act =>
    unfold marked run
    dsimp only
    obtain ⟨ending, scene⟩ := act ⟨pool, index + 1, remaining⟩ s.request s.scene.plain
    cases ending with
    | done response => exact .turned (.ok response) (.handled (.ok response)) rfl rfl
    | failed cause => exact .turned (.error _) (.handled (.error cause)) rfl rfl
    | panicked m => exact .panicked m rfl
  | reactive act =>
    unfold marked
    rw [role]
    cases spent with
    | true =>
      rw [run_reactive_spent hs]
      refine ⟨[], (List.append_nil _).symm, .inr ⟨.error .sourceConsumed, rfl, ?_⟩⟩
      exact .turns .spent
    | false =>
      rw [run_reactive_ready hs]
      dsimp only
      obtain ⟨ending, scene⟩ := act ⟨pool, index + 1, remaining⟩ s.scene.plain
      cases ending with
      | done response => exact .turned (.ok response) (.handled (.ok response)) rfl rfl
      | failed cause => exact .turned (.error _) (.handled (.error cause)) rfl rfl
      | panicked m => exact .panicked m rfl

/-- What the stage enters that handles the request, which has no stages below it. -/
theorem run_marked_last (below : List Mark → Except Failure Response → Prop)
    (label index remaining : Nat) {spent ready : Bool} {stage : Stage σ W}
    (hlast : stage.role spent = .handles ready) (hhosted : stage.hosted = true)
    (pool : Option String) (s : State σ (Logged W)) (hs : s.spent = spent) :
    Records (Around below (.handles ready) label) s
      ((stage.marked label).run index remaining (runFrom (index + 1) []) pool s) := by
  have hnone : ∀ pool (t : State σ (Logged W)), t.spent = spent →
      Records (fun _ _ => True) t (runFrom (index + 1) [] pool t) :=
    fun _ _ _ => ⟨[], (List.append_nil _).symm, .inr ⟨.error _, rfl, trivial⟩⟩
  have hrun := run_marked label index remaining hnone stage hhosted pool s hs
  rw [hlast] at hrun
  refine hrun.imp fun marks result hleaves => ?_
  cases hleaves with
  | turns hturns => exact .turns hturns
  | passes hpasses _ => cases hpasses

end Stage

end Exchange.Pipeline
