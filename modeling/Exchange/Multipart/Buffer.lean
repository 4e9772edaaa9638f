import Exchange.Octets
import Exchange.Text.Layout

/-!
Chunk buffers and the account of who still holds one.

A `Buffer` carries the bytes of one chunk. Whoever takes a buffer gives it back exactly once, to a
`Pool`. The simplest pool is a `Tally`, which counts what was handed out and what came back;
buffers that are not `counted` leave it alone.

`Slots` is a row of numbered places for buffers over one tally. Its steps build buffers, give them
back, replace one by another and pass them on, so every way in which a buffer's life can go is a
sequence of them.
-/
namespace Exchange.Multipart

/-- The payload of one chunk. -/
structure Buffer where
  bytes : Octets
  counted : Bool := true
  deriving DecidableEq, Repr

def Buffer.size (b : Buffer) : Nat := b.bytes.length

def Buffer.describe (b : Buffer) : String :=
  Text.record "ChunkBuf" [("len", toString b.size), ("tracked", Text.flag b.counted)]

/-- What was handed out and what came back. -/
structure Tally where
  acquired : Nat := 0
  released : Nat := 0
  /-- bytes handed out and not back yet -/
  outstanding : Nat := 0
  deriving DecidableEq, Repr

namespace Tally

/-- A buffer is handed out. -/
def acquire (b : Buffer) (t : Tally) : Tally :=
  if b.counted then
    { t with acquired := t.acquired + 1, outstanding := t.outstanding + b.size }
  else t

/-- A buffer comes back. -/
def release (b : Buffer) (t : Tally) : Tally :=
  if b.counted then
    { t with released := t.released + 1, outstanding := t.outstanding - b.size }
  else t

/-- Everything that was handed out came back. -/
def balanced (t : Tally) : Bool := t.acquired == t.released && t.outstanding == 0

end Tally

/-- Whatever takes buffers back. -/
class Pool (π : Type) where
  giveBack : Buffer → π → π

instance : Pool Tally where
  giveBack := Tally.release

/-! ### Numbered places -/

/-- Buffers in numbered places, over one tally. -/
structure Slots where
  held : List (Nat × Buffer) := []
  tally : Tally := {}

namespace Slots

def get? (s : Slots) (slot : Nat) : Option Buffer := s.held.lookup slot

/-- Takes a buffer out of its place without giving it back. -/
def vacate (slot : Nat) (s : Slots) : Slots :=
  { s with held := s.held.filter (·.1 != slot) }

/-- Gives back the buffer of a place, if there is one, and tells whether there was. -/
def discard (slot : Nat) (s : Slots) : Bool × Slots :=
  match s.get? slot with
  | none => (false, s)
  | some b => (true, { s.vacate slot with tally := s.tally.release b })

/-- Puts a buffer that is already handed out into an empty place. -/
def place (slot : Nat) (b : Buffer) (s : Slots) : Slots :=
  { s with held := (slot, b) :: s.held }

/-- Hands a new buffer out into a place; the one that was there comes back afterwards. -/
def fill (slot : Nat) (b : Buffer) (s : Slots) : Slots :=
  let s := { s with tally := s.tally.acquire b }
  (s.discard slot).2.place slot b

end Slots

end Exchange.Multipart
