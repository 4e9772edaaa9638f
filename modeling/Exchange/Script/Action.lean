import Exchange.Http.Edit
import Exchange.Pipeline.Stage

/-!
The actions that scripted stages are made of, and the record of what they saw.

A `Probe` looks at a request, or ends the stage by a failure or a panic. Besides probing, an action
on a request may change it or answer it, an action on a reply may change or replace it, and an
action of a handler may answer. A list of actions is run from the front and stops at the first one
that ends the stage.

Every action that sees something writes an `Entry`. A reading action comes in two forms: one records
whatever it got, the other fails with the failure it got.
-/
namespace Exchange.Script

open Http (FieldEdit ReplyEdit Rejection Request RequestEdit Response)
open Multipart (Awaited Demux Part)
open Pipeline (Cause Ending Failure Payload Scene)

/-- What an entry holds besides its name. -/
inductive Value where
  | nothing
  | text (s : String)
  | flag (b : Bool)
  | number (n : Nat)
  | texts (ss : List String)
  | values (vs : List Octets)
  | bytes (b : Octets)
  | part (p : Part)
  | parts (ps : List Part)
  | failure (f : Failure)

structure Entry where
  /-- the stage, with the pool it ran on -/
  who : String
  what : String
  value : Value := .nothing

/-- What scripted stages keep: the entries so far. -/
abbrev Log := List Entry

/-- Looks at the request. -/
inductive Probe where
  | log (text : String)
  | fail (cause : Cause)
  | panic (message : String)
  /-- the method and the target -/
  | line
  /-- the values of a field -/
  | see (name : String)
  | canConsume
  | isMultipart
  /-- the whole body; `strict` lets the stage fail with a failure -/
  | read (strict : Bool)
  /-- all parts of the body -/
  | parts (strict : Bool)
  /-- `count` parts at most, after `demand` of them were asked for -/
  | take (demand count : Nat)

inductive RequestAction where
  | probe (p : Probe)
  | edit (e : RequestEdit)
  /-- a new body in place of the old one -/
  | body (bytes : Octets)
  | respond (r : Except Rejection Response)

inductive ReplyAction where
  | probe (p : Probe)
  /-- the status, or the failure -/
  | result
  | respond (r : Except Rejection Response)
  /-- answers in place of a failure -/
  | recover (r : Except Rejection Response)
  /-- answers as the server would, in place of a failure -/
  | recoverStatus
  /-- changes a response, and leaves a failure alone -/
  | edit (e : ReplyEdit)

inductive HandlerAction where
  | probe (p : Probe)
  | respond (r : Except Rejection Response)

variable {σ : Type}

/-- Writes an entry. -/
def note (who what : String) (value : Value) (s : Scene σ Log) : Scene σ Log :=
  { s with world := s.world ++ [⟨who, what, value⟩] }

/-- A text that is refused fails the stage with the reason. -/
def rejected (r : Rejection) : Cause := .text r.message

section Probing

variable [Awaited σ]

/-- Reads at most `count` parts of a stream. -/
def takeParts (who : String) : Nat → Demux σ → Scene σ Log →
    Ending Cause Unit × Demux σ × Scene σ Log
  | 0, d, s => (.done (), d, s)
  | count + 1, d, s =>
    match d.awaitNext with
    | (.part p, d) => takeParts who count d (note who "take" (.part p) s)
    | (.finished, d) => (.done (), d, note who "take" (.text "end") s)
    | (.fault e, d) => (.failed (.body e), d, s)
    | (.panicked m, d) => (.panicked m, d, s)
    | (.waiting, d) => (.done (), d, s)

/-- Records what reading came to. A strict stage fails with a failure. -/
def noteRead {α : Type} (who what : String) (strict : Bool) (value : α → Value)
    (ending : Ending Failure α) (s : Scene σ Log) : Ending Cause Unit × Scene σ Log :=
  match ending with
  | .done a => (.done (), note who what (value a) s)
  | .failed e =>
    if strict then (.failed (.failure e), s) else (.done (), note who what (.failure e) s)
  | .panicked m => (.panicked m, s)

def Probe.run (who : String) (r : Request) (s : Scene σ Log) :
    Probe → Ending Cause Unit × Scene σ Log
  | .log text => (.done (), note who text .nothing s)
  | .fail cause => (.failed cause, s)
  | .panic message => (.panicked message, s)
  | .line => (.done (), note who "line" (.texts [r.method, r.target.render]) s)
  | .see name => (.done (), note who name (.values (r.fields.values name.toLower)) s)
  | .canConsume => (.done (), note who "can_consume" (.flag (s.body r.body).canConsume) s)
  | .isMultipart => (.done (), note who "is_multipart" (.flag (s.body r.body).isMultipart) s)
  | .read strict =>
    let (result, p) := (s.body r.body).bytes?
    noteRead who "read" strict .bytes (.ofExcept result) (s.setBody r.body p)
  | .parts strict =>
    match (s.body r.body).collect? Demux.awaitAll with
    | (some ending, p) => noteRead who "parts" strict .parts ending (s.setBody r.body p)
    | (none, p) => (.done (), s.setBody r.body p)
  | .take demand count =>
    match (s.body r.body).lend? with
    | (.error e, _) => (.failed (.failure e), s)
    | (.ok d, _) =>
      let (ending, d, s) := takeParts who count (d.request demand) s
      (ending, s.setBody r.body (Payload.surrender d))

/-- Runs the actions that come before the handling, each of which sees the request as the ones
before it left it. -/
def runRequestActions (who : String) : List RequestAction → Request → Scene σ Log →
    Ending Cause (Option Response) × Request × Scene σ Log
  | [], r, s => (.done none, r, s)
  | .respond (.ok response) :: _, r, s => (.done (some response), r, s)
  | .respond (.error e) :: _, r, s => (.failed (rejected e), r, s)
  | .body bytes :: more, r, s =>
    let (id, s) := s.addBody { content := .whole bytes }
    runRequestActions who more { r with body := id } s
  | .edit e :: more, r, s =>
    match e.apply r with
    | .ok r => runRequestActions who more r s
    | .error e => (.failed (rejected e), r, s)
  | .probe p :: more, r, s =>
    match p.run who r s with
    | (.done (), s) => runRequestActions who more r s
    | (.failed cause, s) => (.failed cause, r, s)
    | (.panicked m, s) => (.panicked m, r, s)

/-- Runs the actions of a handler. One that does not answer gives the default response. -/
def runHandlerActions (who : String) (r : Request) : List HandlerAction → Scene σ Log →
    Ending Cause Response × Scene σ Log
  | [], s => (.done {}, s)
  | .respond (.ok response) :: _, s => (.done response, s)
  | .respond (.error e) :: _, s => (.failed (rejected e), s)
  | .probe p :: more, s =>
    match p.run who r s with
    | (.done (), s) => runHandlerActions who r more s
    | (.failed cause, s) => (.failed cause, s)
    | (.panicked m, s) => (.panicked m, s)

/-- What an action other than a probe makes of a result. -/
def ReplyAction.revise (result : Except Failure Response) :
    ReplyAction → Except Rejection (Except Failure Response)
  | .probe _ | .result => .ok result
  | .respond r => r.map .ok
  | .recover r =>
    match result with
    | .ok _ => .ok result
    | .error _ => r.map .ok
  | .recoverStatus =>
    match result with
    | .ok _ => .ok result
    | .error e => .ok (.ok e.toResponse)
  | .edit e =>
    match result with
    | .ok response => (e.apply response).map .ok
    | .error _ => .ok result

/-- The value that shows a result. -/
def resultValue : Except Failure Response → Value
  | .ok response => .number response.status
  | .error e => .failure e

/-- Runs the actions that come after the handling. -/
def runReplyActions (who : String) (r : Request) :
    List ReplyAction → Except Failure Response → Scene σ Log →
      Ending Cause (Except Failure Response) × Scene σ Log
  | [], result, s => (.done result, s)
  | .result :: more, result, s =>
    runReplyActions who r more result (note who "result" (resultValue result) s)
  | .probe p :: more, result, s =>
    match p.run who r s with
    | (.done (), s) => runReplyActions who r more result s
    | (.failed cause, s) => (.failed cause, s)
    | (.panicked m, s) => (.panicked m, s)
  | a :: more, result, s =>
    match a.revise result with
    | .ok result => runReplyActions who r more result s
    | .error e => (.failed (rejected e), s)

end Probing

end Exchange.Script
