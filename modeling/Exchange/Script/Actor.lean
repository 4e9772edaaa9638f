import Exchange.Script.Action

/-!
Stages written as scripts.

An `Actor` has a name and a role, which is its kind of stage with the actions of that kind. It
records when it is reached: a before stage `before`, an after stage `after`, a wrapping stage
`enter` and `exit`, and whatever handles the request `handle`.
-/
namespace Exchange.Script

open Http (Rejection Request Response)
open Multipart (Awaited)
open Pipeline (Ending Failure Passage Rank Scene Site Stage)

/-- What a wrapping script does. -/
structure Wrap where
  pre : List RequestAction := []
  /-- records how the rest of the pipeline shows itself -/
  showNext : Bool := false
  /-- the answer that it gives in place of the rest of the pipeline, if it does not proceed -/
  instead : Option (Except Rejection Response) := none
  post : List ReplyAction := []

inductive Role where
  | before (pre : List RequestAction)
  | wrapping (w : Wrap)
  | after (post : List ReplyAction)
  | around (enabled : Bool) (w : Wrap)
  | terminal (steps : List HandlerAction)
  | reactive (steps : List HandlerAction)

structure Actor where
  id : String
  rank : Rank := .dynamic
  /-- the order it answers when it is asked -/
  own : Int := 0
  role : Role

variable {σ : Type} [Awaited σ]

/-- The name that an actor's entries carry at a place. -/
def signature (id : String) (site : Site) : String :=
  match site.pool with
  | none => id
  | some pool => s!"{id}@{pool}"

/-- The second half of a wrapping script. -/
def Wrap.leave (w : Wrap) (who : String) (result : Except Failure Response) (r : Request)
    (s : Scene σ Log) : Ending Failure Response × Request × Scene σ Log :=
  match runReplyActions who r w.post result s with
  | (.done (.ok response), s) => (.done response, r, note who "exit" .nothing s)
  | (.done (.error e), s) => (.failed e, r, note who "exit" .nothing s)
  | (.failed cause, s) => (.failed (.ofFilter cause), r, s)
  | (.panicked m, s) => (.panicked m, r, s)

/-- The first half of a wrapping script. -/
def Wrap.enter (w : Wrap) (id : String) (site : Site) (r : Request) (s : Scene σ Log) :
    Passage σ Log × Request × Scene σ Log :=
  let who := signature id site
  match runRequestActions who w.pre r (note who "enter" .nothing s) with
  | (.done (some response), r, s) => (.answer (.done response), r, s)
  | (.failed cause, r, s) => (.answer (.failed (.ofFilter cause)), r, s)
  | (.panicked m, r, s) => (.answer (.panicked m), r, s)
  | (.done none, r, s) =>
    let s := if w.showNext then note who "next" (.text site.describeRest) s else s
    match w.instead with
    | none => (.proceed (w.leave who), r, s)
    | some (.error e) => (.answer (.failed (.ofFilter (rejected e))), r, s)
    | some (.ok response) =>
      let (ending, r, s) := w.leave who (.ok response) r s
      (.answer ending, r, s)

/-- The stage that an actor plays. -/
def Actor.stage (a : Actor) : Stage σ Log :=
  let who (site : Site) : String := signature a.id site
  match a.role with
  | .before pre =>
    .before a.rank a.own fun site r s =>
      runRequestActions (who site) pre r (note (who site) "before" .nothing s)
  | .wrapping w => .wrapping a.rank a.own (w.enter a.id)
  | .after post =>
    .after a.rank a.own fun site r response s =>
      let s := note (who site) "after" .nothing s
      match runReplyActions (who site) r post (.ok response) s with
      | (.done (.ok response), s) => (.done response, s)
      | (.done (.error e), s) => (.failed (.failure e), s)
      | (.failed cause, s) => (.failed cause, s)
      | (.panicked m, s) => (.panicked m, s)
  | .around enabled w => .around a.rank a.own enabled (w.enter a.id)
  | .terminal steps =>
    .terminal fun site r s =>
      runHandlerActions (who site) r steps (note (who site) "handle" .nothing s)
  | .reactive steps =>
    .reactive fun site s =>
      let (id, s) := s.addBody Pipeline.Payload.empty
      runHandlerActions (who site) { body := id } steps (note (who site) "handle" .nothing s)

end Exchange.Script
