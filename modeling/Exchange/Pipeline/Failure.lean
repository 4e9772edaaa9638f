import Exchange.Http.Message
import Exchange.Multipart.Fault

/-!
How handling a request fails, and how assembling a pipeline does.

A stage fails with a `Cause`. On its way out it becomes a `Failure`, which tells filters and
handlers apart. A cause that is a failure or a body's fault already is taken out of its wrapping and
never wrapped again. Whoever sent the request sees the message of a failure that is the client's
own, and of all others only that the server failed.
-/
namespace Exchange.Pipeline

open Multipart (Fault)
open Http (ReplyBody Response)

/-- Why a pipeline or a server cannot be assembled. -/
inductive BuildFault where
  | missingTerminal
  | multipleTerminals (count : Nat)
  | terminalNotLast
  | invalidPattern (pattern reason : String)
  | unknownExecutor (name : String)
  | executorStart (name reason : String)
  /-- assembling stopped short -/
  | panicked (reason : String)
  deriving DecidableEq, Repr

namespace BuildFault

def message : BuildFault → String
  | .missingTerminal => "filter chain has no terminal filter"
  | .multipleTerminals count =>
    s!"filter chain has {count} terminal filters, exactly one is allowed"
  | .terminalNotLast => "terminal filter must be the last filter of the chain"
  | .invalidPattern pattern reason => s!"invalid path pattern '{pattern}': {reason}"
  | .unknownExecutor name => s!"unknown executor '{name}'"
  | .executorStart name reason => s!"failed to start executor '{name}': {reason}"
  | .panicked reason => reason

def describe : BuildFault → String
  | .missingTerminal => "MissingTerminal"
  | .multipleTerminals count => Text.record "MultipleTerminals" [("count", toString count)]
  | .terminalNotLast => "TerminalNotLast"
  | .invalidPattern pattern reason =>
    Text.record "InvalidPattern" [("pattern", Text.quote pattern), ("reason", Text.quote reason)]
  | .unknownExecutor name => Text.record "UnknownExecutor" [("name", Text.quote name)]
  | .executorStart name reason =>
    Text.record "ExecutorStart" [("name", Text.quote name), ("reason", Text.quote reason)]
  | .panicked reason => Text.tuple "Panicked" [Text.quote reason]

end BuildFault

mutual

/-- How the handling of a request fails. -/
inductive Failure where
  /-- a stage did not run the rest of the pipeline although it has to -/
  | integrity (reason : String)
  | filter (cause : Cause)
  | handler (cause : Cause)
  /-- the worker pool did not bring the request back -/
  | executor (name reason : String)
  | body (fault : Fault)
  | bodyConsumed
  | sourceConsumed

/-- What a stage fails with. -/
inductive Cause where
  | text (message : String)
  | body (fault : Fault)
  | build (fault : BuildFault)
  | failure (f : Failure)

end

mutual

def Failure.message : Failure → String
  | .integrity reason => s!"filter chain integrity violated: {reason}"
  | .filter cause => "filter failed: " ++ cause.message
  | .handler cause => "request handler failed: " ++ cause.message
  | .executor name reason => s!"executor '{name}' failed: {reason}"
  | .body fault => fault.message
  | .bodyConsumed => "request body has been consumed"
  | .sourceConsumed => "response source has been consumed"

def Cause.message : Cause → String
  | .text message => message
  | .body fault => fault.message
  | .build fault => fault.message
  | .failure f => f.message

end

mutual

def Failure.describe : Failure → String
  | .integrity reason => Text.record "Integrity" [("reason", Text.quote reason)]
  | .filter cause => Text.record "Filter" [("source", cause.describe)]
  | .handler cause => Text.record "Handler" [("source", cause.describe)]
  | .executor name reason =>
    Text.record "Executor" [("name", Text.quote name), ("reason", Text.quote reason)]
  | .body fault => Text.tuple "Body" [fault.describe]
  | .bodyConsumed => "BodyConsumed"
  | .sourceConsumed => "ResponseSourceConsumed"

def Cause.describe : Cause → String
  | .text message => Text.quote message
  | .body fault => fault.describe
  | .build fault => fault.describe
  | .failure f => f.describe

end

mutual

/-- The messages of what lies behind a failure, from the outside in. -/
def Failure.behind : Failure → List String
  | .filter cause => cause.message :: cause.behind
  | .handler cause => cause.message :: cause.behind
  | .integrity _ | .executor .. | .body _ | .bodyConsumed | .sourceConsumed => []

def Cause.behind : Cause → List String
  | .failure f => f.behind
  | .text _ | .body _ | .build _ => []

end

namespace Failure

/-- The failure that a cause is already, if it is one. -/
def unwrap? : Cause → Option Failure
  | .failure f => some f
  | .body fault => some (.body fault)
  | .text _ | .build _ => none

/-- What a filter's cause becomes. -/
def ofFilter (c : Cause) : Failure := (unwrap? c).getD (.filter c)

/-- What the handler's cause becomes. -/
def ofHandler (c : Cause) : Failure := (unwrap? c).getD (.handler c)

def status : Failure → Nat
  | .body fault => fault.status
  | .integrity _ | .filter _ | .handler _ | .executor .. | .bodyConsumed | .sourceConsumed => 500

/-- The text of an answer of status `f.status`. -/
def answerText (f : Failure) : String :=
  if 400 ≤ f.status ∧ f.status < 500 then f.message else "Internal Server Error"

/-- The response that the client gets when the failure ends its request. -/
def toResponse (f : Failure) : Response :=
  { status := f.status, body := ReplyBody.ofText f.answerText }

end Failure

end Exchange.Pipeline
