import Exchange.Multipart.Field
import Exchange.Multipart.Fault

/-!
The content of one field while its fragments arrive.

An `Assembly` copies the bytes of each buffer and gives the buffer back at once, so it never holds
one. Content never grows past the limit: bytes that would cross it are refused and leave the
content as it was.
-/
namespace Exchange.Multipart

structure Assembly where
  field : Field
  limit : Nat
  content : Octets := []

namespace Assembly

def size (a : Assembly) : Nat := a.content.length

/-- The content with `bytes` behind it, if the limit admits that. -/
def extend (a : Assembly) (bytes : Octets) : Except Fault Assembly :=
  let size := a.size + bytes.length
  if size > a.limit then .error (.partTooLarge a.field.name size a.limit)
  else .ok { a with content := a.content ++ bytes }

theorem extend_of_le {a : Assembly} {bytes : Octets} (h : a.size + bytes.length ≤ a.limit) :
    a.extend bytes = .ok { a with content := a.content ++ bytes } :=
  if_neg (Nat.not_lt.mpr h)

theorem extend_of_lt {a : Assembly} {bytes : Octets} (h : a.limit < a.size + bytes.length) :
    a.extend bytes = .error (.partTooLarge a.field.name (a.size + bytes.length) a.limit) :=
  if_pos h

/-- Appends a buffer and gives it back, whether or not its bytes were taken. -/
def append {π : Type} [Pool π] (a : Assembly) (b : Buffer) (pool : π) :
    Except Fault Assembly × π :=
  (a.extend b.bytes, Pool.giveBack b pool)

/-- The complete field. -/
def complete (a : Assembly) : Part := ⟨a.field, a.content⟩

def describe (a : Assembly) : String :=
  Text.record "PartAccumulator"
    [("header", a.field.describe), ("content", Text.quoteBytes a.content),
     ("max_size", toString a.limit)]

end Assembly

end Exchange.Multipart
