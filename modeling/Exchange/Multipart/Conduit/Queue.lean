import Exchange.Multipart.Field
import Exchange.Multipart.Fault

/-!
The bounded queue of a conduit.

One sender puts items in and one receiver takes them out, first in, first out. An item that makes
the queue longer than its capacity is accepted but parks the sender: it puts nothing more in until
an item is taken out. So the queue never holds more than one item above its capacity. Shutting the
queue throws its items away, lets the sender go, and refuses whatever comes later.
-/
namespace Exchange.Multipart

/-- What travels through a conduit: fragments, and at last a terminal fault. -/
abbrev Item := Except Fault Fragment

/-- Takes back the buffer of an item. -/
def Item.release (t : Tally) : Item → Tally
  | .ok f => t.release f.data
  | .error _ => t

/-- Hands out the buffer of an item. -/
def Item.acquire (t : Tally) : Item → Tally
  | .ok f => t.acquire f.data
  | .error _ => t

structure Queue where
  capacity : Nat
  items : List Item := []
  parked : Bool := false
  closed : Bool := false

namespace Queue

def push (i : Item) (q : Queue) : Queue :=
  { q with items := q.items ++ [i], parked := decide (q.capacity < q.items.length + 1) }

def pop? (q : Queue) : Option (Item × Queue) :=
  match q.items with
  | [] => none
  | i :: rest => some (i, { q with items := rest, parked := false })

def shut (q : Queue) : Queue := { q with items := [], parked := false, closed := true }

end Queue

end Exchange.Multipart
