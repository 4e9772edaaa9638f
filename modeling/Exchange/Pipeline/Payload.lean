import Exchange.Multipart.Awaited
import Exchange.Pipeline.Ending
import Exchange.Pipeline.Failure

/-!
The body of a request, which can be consumed once by whoever gets to it first.

A `Payload` holds its content whole or as a stream of parts. Taking the whole content releases it at
once; the stream is lent to its taker, who reads it at will and surrenders it in the end. An attempt
to take the content in the wrong form leaves the payload as it is. Several holders may share one
payload, and the last of them to let go drops a content that nobody took.
-/
namespace Exchange.Pipeline

open Multipart

inductive Content (σ : Type) where
  | whole (bytes : Octets)
  | parts (stream : Demux σ)

/-- Who has the content. -/
inductive Custody where
  /-- nobody took it yet -/
  | kept
  /-- somebody took it and has it still -/
  | lent
  | released
  deriving DecidableEq, Repr

structure Payload (σ : Type) where
  content : Content σ := .whole []
  custody : Custody := .kept

namespace Payload

variable {σ : Type}

/-- The payload of no bytes. -/
def empty : Payload σ := {}

def canConsume (p : Payload σ) : Bool := p.custody == .kept

def isMultipart (p : Payload σ) : Bool :=
  match p.custody, p.content with
  | .kept, .parts _ => true
  | _, _ => false

/-- The stream of parts, if somebody has it. -/
def lent? (p : Payload σ) : Option (Demux σ) :=
  match p.custody, p.content with
  | .lent, .parts d => some d
  | _, _ => none

/-- Takes the whole content. -/
def bytes? (p : Payload σ) : Except Failure Octets × Payload σ :=
  match p.custody, p.content with
  | .kept, .whole bytes => (.ok bytes, { p with custody := .released })
  | .kept, .parts _ => (.error (.body (.malformed "multipart body can't be read as bytes")), p)
  | _, _ => (.error .bodyConsumed, p)

/-- Lends the stream of parts out. -/
def lend? (p : Payload σ) : Except Failure (Demux σ) × Payload σ :=
  match p.custody, p.content with
  | .kept, .parts d => (.ok d, { p with custody := .lent })
  | .kept, .whole _ => (.error (.body (.malformed "request body is not multipart")), p)
  | _, _ => (.error .bodyConsumed, p)

/-- The payload while its taker has read some of the stream. -/
def withStream (d : Demux σ) (p : Payload σ) : Payload σ := { p with content := .parts d }

variable [Supply σ]

/-- The taker gives the stream up. -/
def surrender (d : Demux σ) : Payload σ := ⟨.parts d.drop, .released⟩

/-- Takes the stream, reads it in the way of `read`, and gives it up. Ends with all parts if it
completed, and the way it did otherwise; has no ending if it had to wait. -/
def collect? (read : Demux σ → (List Part × Multipart.Outcome) × Demux σ) (p : Payload σ) :
    Option (Ending Failure (List Part)) × Payload σ :=
  match p.lend? with
  | (.error e, p) => (some (.failed e), p)
  | (.ok d, _) =>
    let ((parts, last), d) := read d
    (match last with
      | .finished => some (.done parts)
      | .fault e => some (.failed (.body e))
      | .panicked m => some (.panicked m)
      | .part _ | .waiting => none,
     surrender d)

/-- The last holder lets go. -/
def release (p : Payload σ) : Payload σ :=
  match p.custody, p.content with
  | .kept, .parts d => surrender d
  | .kept, .whole _ => { p with custody := .released }
  | _, _ => p

/-- How a payload is shown: without its content. -/
def description : String := Text.openRecord "RequestBody" []

end Payload

/-! ### Sharing -/

/-- A payload with its holders, who have numbers. -/
structure Shared (σ : Type) where
  payload : Payload σ
  holders : List Nat := [0]
  /-- the number of the next holder -/
  fresh : Nat := 1

namespace Shared

variable {σ : Type}

/-- Adds a holder. -/
def share (s : Shared σ) : Nat × Shared σ :=
  (s.fresh, { s with holders := s.fresh :: s.holders, fresh := s.fresh + 1 })

/-- A holder lets go. -/
def letGo [Supply σ] (holder : Nat) (s : Shared σ) : Shared σ :=
  let holders := s.holders.erase holder
  { s with holders, payload := if holders.isEmpty then s.payload.release else s.payload }

end Shared

end Exchange.Pipeline
