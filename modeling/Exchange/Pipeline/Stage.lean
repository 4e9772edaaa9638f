import Exchange.Pipeline.Payload
import Exchange.Pipeline.Rank
import Exchange.Pipeline.Workers

/-!
The stages of a pipeline.

A stage acts on the request, on the `Scene` that all stages of a run share, or on the response,
depending on its kind. What it does is its own business: the pipeline knows it only as a function
that may finish, fail or panic. A stage that wraps the rest of the pipeline is given in two halves.
The first one runs as the request comes in and either answers or proceeds; by proceeding it leaves
behind its second half, which gets whatever the rest of the pipeline came to. So the rest is run at
most once.

A `hop` moves a stage, and the rest of the pipeline below it, to a worker pool.
-/
namespace Exchange.Pipeline

open Http (Request Response BodyId)

/-- Where a stage runs. -/
structure Site where
  /-- the worker pool, if it runs on one -/
  pool : Option String
  /-- the index of the stage below -/
  next : Nat
  /-- how many stages are below -/
  remaining : Nat
  deriving DecidableEq, Repr

/-- The text of the rest of the pipeline, as a wrapping stage sees it. -/
def Site.describeRest (s : Site) : String :=
  Text.record "Continuation" [("next", toString s.next), ("remaining", toString s.remaining)]

/-! ### What stages share -/

/-- The bodies by number, and whatever else the stages keep. -/
structure Scene (σ W : Type) where
  bodies : List (Payload σ) := []
  world : W

namespace Scene

variable {σ W : Type}

/-- The body of a number; one that was never made is empty. -/
def body (id : BodyId) (s : Scene σ W) : Payload σ := s.bodies.getD id Payload.empty

def setBody (id : BodyId) (p : Payload σ) (s : Scene σ W) : Scene σ W :=
  { s with bodies := s.bodies.set id p }

/-- Makes a new body. -/
def addBody (p : Payload σ) (s : Scene σ W) : BodyId × Scene σ W :=
  (s.bodies.length, { s with bodies := s.bodies ++ [p] })

/-- Lets go of every body but one. -/
def releaseOthers [Multipart.Supply σ] (id : BodyId) (s : Scene σ W) : Scene σ W :=
  { s with bodies := s.bodies.mapIdx fun i p => if i = id then p else p.release }

/-- Lets go of every body. -/
def releaseAll [Multipart.Supply σ] (s : Scene σ W) : Scene σ W :=
  { s with bodies := s.bodies.map Payload.release }

end Scene

/-! ### Kinds of stages -/

/-- The second half of a wrapping stage: makes its own ending out of what the rest came to. -/
abbrev Resume (σ W : Type) : Type :=
  Except Failure Response → Request → Scene σ W → Ending Failure Response × Request × Scene σ W

/-- What the first half of a wrapping stage comes to. -/
inductive Passage (σ W : Type) where
  /-- it ends without the rest of the pipeline -/
  | answer (ending : Ending Failure Response)
  | proceed (resume : Resume σ W)

/-- The first half of a wrapping stage. -/
abbrev Enter (σ W : Type) : Type :=
  Site → Request → Scene σ W → Passage σ W × Request × Scene σ W

inductive Stage (σ W : Type) where
  /-- sees the request and may answer it -/
  | before (rank : Rank) (own : Int)
      (act : Site → Request → Scene σ W → Ending Cause (Option Response) × Request × Scene σ W)
  /-- wraps the rest of the pipeline and has to run it -/
  | wrapping (rank : Rank) (own : Int) (enter : Enter σ W)
  /-- adjusts the response -/
  | after (rank : Rank) (own : Int)
      (act : Site → Request → Response → Scene σ W → Ending Cause Response × Scene σ W)
  /-- wraps the rest of the pipeline and need not run it; skipped unless it is enabled -/
  | around (rank : Rank) (own : Int) (enabled : Bool) (enter : Enter σ W)
  /-- runs another stage, and what is below it, on a worker pool -/
  | hop (inner : Stage σ W) (worker : Worker)
  /-- handles the request -/
  | terminal (act : Site → Request → Scene σ W → Ending Cause Response × Scene σ W)
  /-- answers one request, the first, with a response that comes from elsewhere -/
  | reactive (act : Site → Scene σ W → Ending Cause Response × Scene σ W)

/-- What the behaviour of a stage was given as. -/
inductive Behaviour where
  | requestFunction
  | responseFunction
  | handlerFunction
  | plain
  | continuation
  deriving DecidableEq, Repr

def Behaviour.describe : Behaviour → String
  | .requestFunction => "FnRequestFilter"
  | .responseFunction => "FnResponseFilter"
  | .handlerFunction => "FnHandler"
  | .plain => "BeforeInvoker::Plain"
  | .continuation => "BeforeInvoker::Continuation"

namespace Stage

variable {σ W : Type}

/-- The number that a stage is sorted by; a stage that handles the request has none. -/
def order? : Stage σ W → Option Int
  | before rank own _ | wrapping rank own _ | after rank own _ | around rank own _ _ =>
    some (rank.resolve own)
  | hop inner _ => inner.order?
  | terminal _ | reactive _ => none

def isTerminal : Stage σ W → Bool
  | terminal _ | reactive _ => true
  | hop inner _ => inner.isTerminal
  | before .. | wrapping .. | after .. | around .. => false

def kind : Stage σ W → String
  | before .. => "before"
  | wrapping .. => "before-continuation"
  | after .. => "after"
  | around .. => "around"
  | hop .. => "async"
  | terminal _ => "terminal"
  | reactive _ => "terminal-reactive"

/-- A stage that is moved to several pools, one after the other; the last is the outermost. -/
def onWorkers (workers : List Worker) (s : Stage σ W) : Stage σ W := workers.foldl hop s

def describe (s : Stage σ W) : String :=
  match s with
  | hop inner worker =>
    Text.record "Async" [("inner", inner.describe), ("executor", Text.quote worker.name)]
  | _ =>
    Text.record "Filter"
      [("kind", Text.quote s.kind), ("order", Text.optional (s.order?.map toString))]

end Stage

end Exchange.Pipeline
