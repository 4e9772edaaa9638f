import Exchange.Text.Quoted
import Exchange.Text.Layout

/-!
What can end a body before its time, with the wording and the status that each cause has.
-/
namespace Exchange.Multipart

inductive Fault where
  /-- one part holds `current` bytes, more than `max` -/
  | partTooLarge (name : String) (current max : Nat)
  /-- all payloads together hold `current` bytes, more than `max` -/
  | requestTooLarge (current max : Nat)
  | tooManyParts (max : Nat)
  | malformed (reason : String)
  /-- the supply failed -/
  | supply (reason : String)
  | cancelled
  | disabled
  deriving DecidableEq, Repr

namespace Fault

def message : Fault → String
  | .partTooLarge name current max =>
    s!"part '{name}' exceed the max file size, current: {current} exceed the limit {max}"
  | .requestTooLarge current max =>
    s!"request body too large, current: {current} exceed the limit {max}"
  | .tooManyParts max => s!"part number exceed the limit {max}"
  | .malformed reason => s!"malformed multipart body: {reason}"
  | .supply reason => s!"upstream body error: {reason}"
  | .cancelled => "body stream cancelled"
  | .disabled => "multipart processing is disabled"

/-- The status of the answer when this ends a request. -/
def status : Fault → Nat
  | .partTooLarge .. | .requestTooLarge .. | .tooManyParts .. => 413
  | .malformed .. => 400
  | .disabled => 415
  | .supply .. | .cancelled => 500

def describe : Fault → String
  | .partTooLarge name current max =>
    Text.record "PartTooLarge" [("name", Text.quote name), ("current_size", toString current),
      ("max_size", toString max)]
  | .requestTooLarge current max =>
    Text.record "RequestTooLarge" [("current_size", toString current), ("max_size", toString max)]
  | .tooManyParts max => Text.record "TooManyParts" [("max_num", toString max)]
  | .malformed reason => Text.record "Malformed" [("reason", Text.quote reason)]
  | .supply reason => Text.record "Upstream" [("reason", Text.quote reason)]
  | .cancelled => "Cancelled"
  | .disabled => "Disabled"

end Fault

end Exchange.Multipart
