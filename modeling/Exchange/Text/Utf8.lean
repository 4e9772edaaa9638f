/-!
UTF-8 validity of a byte string, with the place and the kind of the first fault.

`scan` reads characters one after the other. It stops at the first byte sequence that no character
starts with: such a fault is `invalid` when a wrong byte follows (its length counts the bytes that
could still have started a character) and `incomplete` when the bytes end too early.
-/
namespace Exchange.Text.Utf8

/-- Why a byte string is not UTF-8, and how many bytes before the fault are. -/
inductive Fault where
  | invalid (length validUpTo : Nat)
  | incomplete (validUpTo : Nat)
  deriving DecidableEq, Repr

def Fault.message : Fault → String
  | .invalid length i => s!"invalid utf-8 sequence of {length} bytes from index {i}"
  | .incomplete i => s!"incomplete utf-8 byte sequence from index {i}"

/-- The ranges that the bytes after the leading byte `b` must lie in; `none` if `b` leads
nothing. -/
def tails (b : UInt8) : Option (List (UInt8 × UInt8)) :=
  if b < 0x80 then some []
  else if b < 0xc2 then none
  else if b ≤ 0xdf then some [(0x80, 0xbf)]
  else if b = 0xe0 then some [(0xa0, 0xbf), (0x80, 0xbf)]
  else if b = 0xed then some [(0x80, 0x9f), (0x80, 0xbf)]
  else if b ≤ 0xef then some [(0x80, 0xbf), (0x80, 0xbf)]
  else if b = 0xf0 then some [(0x90, 0xbf), (0x80, 0xbf), (0x80, 0xbf)]
  else if b ≤ 0xf3 then some [(0x80, 0xbf), (0x80, 0xbf), (0x80, 0xbf)]
  else if b = 0xf4 then some [(0x80, 0x8f), (0x80, 0xbf), (0x80, 0xbf)]
  else none

/-- Bytes still owed to the character being read: their ranges, and how many were read. -/
structure Open where
  owed : List (UInt8 × UInt8)
  read : Nat

/-- Reads on from a state: `start` is where the character being read began. -/
def scan (start : Nat) (s : Open) : List UInt8 → Option Fault
  | [] => if s.owed.isEmpty then none else some (.incomplete start)
  | b :: rest =>
    match s.owed with
    | [] =>
      let here := start + s.read
      match tails b with
      | none => some (.invalid 1 here)
      | some owed => scan here ⟨owed, 1⟩ rest
    | (low, high) :: owed =>
      if low ≤ b ∧ b ≤ high then scan start ⟨owed, s.read + 1⟩ rest
      else some (.invalid s.read start)

/-- The first fault of a byte string, if it is not UTF-8. -/
def fault? (bytes : List UInt8) : Option Fault := scan 0 ⟨[], 0⟩ bytes

end Exchange.Text.Utf8
