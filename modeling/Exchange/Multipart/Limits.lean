import Exchange.Text.Layout

/-!
The limits that a body is held to.
-/
namespace Exchange.Multipart

structure Limits where
  /-- a body is refused outright when this is off -/
  enabled : Bool := true
  /-- bytes of one part -/
  maxPart : Nat := 1048576
  /-- bytes of all payloads of one body -/
  maxBody : Nat := 10485760
  /-- complete parts of one body, any number if absent -/
  maxParts : Option Nat := none
  deriving DecidableEq, Repr

namespace Limits

/-- The part limit, if `completed` parts already reach it. -/
def exhausted? (l : Limits) (completed : Nat) : Option Nat :=
  l.maxParts.filter (· ≤ completed)

def describe (l : Limits) : String :=
  Text.record "MultipartConfig"
    [("enabled", Text.flag l.enabled), ("max_file_size", toString l.maxPart),
     ("max_request_size", toString l.maxBody),
     ("max_parts", Text.optional (l.maxParts.map toString))]

end Limits

end Exchange.Multipart
