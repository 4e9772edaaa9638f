import Exchange.Pipeline.Failure

/-!
Something that is made for one taker only. All who share it see that it was taken.
-/
namespace Exchange.Pipeline

structure Source (α : Type) where
  pending : Option α

namespace Source

variable {α : Type}

def ofContent (a : α) : Source α := ⟨some a⟩

/-- What is left of a source of that content, when it was taken or not. -/
def left (taken : Bool) (a : α) : Source α := if taken then ⟨none⟩ else ofContent a

def taken (s : Source α) : Bool := s.pending.isNone

/-- Takes the content. Only the first taker gets it. -/
def take (s : Source α) : Except Failure α × Source α :=
  match s.pending with
  | some a => (.ok a, ⟨none⟩)
  | none => (.error .sourceConsumed, s)

/-- How a source is shown: without its content. -/
def description : String := Text.openRecord "ResponseSource" []

end Source

end Exchange.Pipeline
