import Exchange.Count
import Exchange.Text.Layout

/-!
Demand for parts turned into demand for fragments.

The consumer asks for parts and the supply delivers fragments, any number of which may make up
one part. A `Flow` counts the parts that are `owed` and the fragments that are `outstanding`. Only
demand that arrives while nothing is owed is passed on, one fragment for each part; from then on a
fragment that was handled is followed by a request for one more, as long as more parts are owed
than fragments outstanding.
-/
namespace Exchange.Multipart

structure Flow where
  /-- parts asked for and not delivered yet -/
  owed : Nat := 0
  /-- fragments requested of the supply and not arrived yet -/
  outstanding : Nat := 0
  deriving DecidableEq, Repr

namespace Flow

/-- The consumer asks for `n` more parts. Gives the fragments to request of the supply. -/
def demand (n : Nat) (f : Flow) : Nat × Flow :=
  if n = 0 then (0, f)
  else if f.owed > 0 then (0, { f with owed := Count.add f.owed n })
  else (n, ⟨Count.add f.owed n, Count.add f.outstanding n⟩)

/-- A fragment arrives; `none` if none was requested. -/
def arrive? (f : Flow) : Option Flow :=
  if f.outstanding = 0 then none else some { f with outstanding := f.outstanding - 1 }

/-- A part is delivered; `none` if none is owed. -/
def deliver? (f : Flow) : Option Flow :=
  if f.owed = 0 then none else some { f with owed := f.owed - 1 }

/-- A fragment has been handled. Gives the fragments, none or one, to request of the supply. -/
def refill (f : Flow) : Nat × Flow :=
  if f.owed > f.outstanding then (1, { f with outstanding := f.outstanding + 1 }) else (0, f)

def describe (f : Flow) : String :=
  Text.record "DemandBridge"
    [("parts_owed", toString f.owed), ("upstream_outstanding", toString f.outstanding)]

end Flow

end Exchange.Multipart
