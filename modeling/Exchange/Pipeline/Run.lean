import Exchange.Pipeline.Source
import Exchange.Pipeline.Stage

/-!
Running a pipeline over one request.

The stages are run from the front, and every stage that does not handle the request itself runs
somewhere around those below it: the first to see the request is the last to see the response. A
failure ends the walk and travels back out. Stages that adjust responses are passed over by it;
wrapping stages see it and may turn it into a response. A panic travels the same way but nobody sees
it, except that the innermost hop around it turns it into a failure. The request that such a hop
hands back is the one that came to it, without its fields.
-/
namespace Exchange.Pipeline

open Http (Request Response)

structure State (σ W : Type) where
  request : Request
  scene : Scene σ W
  /-- the response of a reactive stage has been taken -/
  spent : Bool := false

/-- What running a pipeline from some stage on does, given the pool it runs on. -/
abbrev Walk (σ W : Type) : Type :=
  Option String → State σ W → Ending Failure Response × State σ W

variable {σ W : Type}

/-- The request that a hop hands back when its task was lost. -/
def handBack (r : Request) : Request := { method := r.method, target := r.target, body := r.body }

/-- The state after a stage changed the request and the scene. -/
def State.with (r : Request) (scene : Scene σ W) (s : State σ W) : State σ W :=
  { s with request := r, scene }

/-- The failure of a stage that has to run the rest of the pipeline but did not. -/
def neverProceeded (index : Nat) : Failure :=
  .integrity s!"before filter at {index} never invoked its continuation"

/-- Lets a wrapping stage have what the rest of the pipeline came to. A panic is not for it. -/
def resumeWith (resume : Resume σ W) :
    Ending Failure Response × State σ W → Ending Failure Response × State σ W
  | (.panicked m, s) => (.panicked m, s)
  | (.done r, s) =>
    let (ending, request, scene) := resume (.ok r) s.request s.scene
    (ending, s.with request scene)
  | (.failed e, s) =>
    let (ending, request, scene) := resume (.error e) s.request s.scene
    (ending, s.with request scene)

/-- Runs one stage at an index, `remaining` stages before the end, over the rest of the pipeline. -/
def Stage.run (index remaining : Nat) (rest : Walk σ W) : Stage σ W → Walk σ W
  | .before _ _ act, pool, s =>
    match act ⟨pool, index + 1, remaining⟩ s.request s.scene with
    | (.done none, request, scene) => rest pool (s.with request scene)
    | (.done (some response), request, scene) => (.done response, s.with request scene)
    | (.failed cause, request, scene) => (.failed (.ofFilter cause), s.with request scene)
    | (.panicked m, request, scene) => (.panicked m, s.with request scene)
  | .wrapping _ _ enter, pool, s =>
    match enter ⟨pool, index + 1, remaining⟩ s.request s.scene with
    | (.answer (.done _), request, scene) =>
      (.failed (neverProceeded index), s.with request scene)
    | (.answer ending, request, scene) => (ending, s.with request scene)
    | (.proceed resume, request, scene) => resumeWith resume (rest pool (s.with request scene))
  | .after _ _ act, pool, s =>
    match rest pool s with
    | (.done response, s) =>
      match act ⟨pool, index + 1, remaining⟩ s.request response s.scene with
      | (.done response, scene) => (.done response, { s with scene })
      | (.failed cause, scene) => (.failed (.ofFilter cause), { s with scene })
      | (.panicked m, scene) => (.panicked m, { s with scene })
    | other => other
  | .around _ _ enabled enter, pool, s =>
    if enabled then
      match enter ⟨pool, index + 1, remaining⟩ s.request s.scene with
      | (.answer ending, request, scene) => (ending, s.with request scene)
      | (.proceed resume, request, scene) => resumeWith resume (rest pool (s.with request scene))
    else rest pool s
  | .hop inner worker, _, s =>
    if worker.running then
      match inner.run index remaining rest (some worker.name) s with
      | (.panicked m, t) =>
        (.failed (worker.panicFailure m), { t with request := handBack s.request })
      | other => other
    else (.failed worker.stoppedFailure, { s with request := handBack s.request })
  | .terminal act, pool, s =>
    match act ⟨pool, index + 1, remaining⟩ s.request s.scene with
    | (.done response, scene) => (.done response, { s with scene })
    | (.failed cause, scene) => (.failed (.ofHandler cause), { s with scene })
    | (.panicked m, scene) => (.panicked m, { s with scene })
  | .reactive act, pool, s =>
    match (Source.left s.spent act).take with
    | (.error f, _) => (.failed f, s)
    | (.ok act, source) =>
      let spent := source.taken
      match act ⟨pool, index + 1, remaining⟩ s.scene with
      | (.done response, scene) => (.done response, { s with scene, spent })
      | (.failed cause, scene) => (.failed (.ofHandler cause), { s with scene, spent })
      | (.panicked m, scene) => (.panicked m, { s with scene, spent })

section Reactive

variable {index remaining : Nat} {rest : Walk σ W} {pool : Option String} {s : State σ W}
  {act : Site → Scene σ W → Ending Cause Response × Scene σ W}

theorem Stage.run_reactive_spent (h : s.spent = true) :
    (reactive act).run index remaining rest pool s = (.failed .sourceConsumed, s) := by
  unfold run
  rw [h]
  rfl

theorem Stage.run_reactive_ready (h : s.spent = false) :
    (reactive act).run index remaining rest pool s =
      match act ⟨pool, index + 1, remaining⟩ s.scene with
      | (.done response, scene) => (.done response, { s with scene, spent := true })
      | (.failed cause, scene) => (.failed (.ofHandler cause), { s with scene, spent := true })
      | (.panicked m, scene) => (.panicked m, { s with scene, spent := true }) := by
  unfold run
  rw [h]
  rfl

end Reactive

/-- Runs stages, of which the first has the given index. -/
def runFrom (index : Nat) : List (Stage σ W) → Walk σ W
  | [] => fun _ s => (.failed (.integrity "filter chain ended without a terminal filter"), s)
  | stage :: below => stage.run index below.length (runFrom (index + 1) below)

end Exchange.Pipeline
