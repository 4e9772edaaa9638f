/-!
How a piece of work ends.

It finishes with a result, it fails with a fault that others may look at, or it panics with a
message, which passes everybody by up to the next worker pool or the caller.
-/
namespace Exchange.Pipeline

inductive Ending (ε α : Type) where
  | done (result : α)
  | failed (fault : ε)
  | panicked (message : String)

/-- Work that cannot panic. -/
def Ending.ofExcept {ε α : Type} : Except ε α → Ending ε α
  | .ok a => .done a
  | .error e => .failed e

end Exchange.Pipeline
