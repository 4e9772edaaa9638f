import Exchange.Http.Rejection
import Exchange.Octets
import Exchange.Text.Lower
import Exchange.Text.Quoted

/-!
Header fields.

A name is a token, kept in lower case: names differ in more than case. A value is any text without
control characters other than the tab. `Fields` keeps the fields of a message in order: several may
have one name, and then the order of their values matters, while the order of different names does
not.
-/
namespace Exchange.Http

/-- The characters of a token. -/
def isTokenChar (c : Char) : Bool :=
  c.isAlphanum || "!#$%&'*+-.^_\x60|~".toList.contains c

def isToken (s : String) : Bool := !s.isEmpty && s.toList.all isTokenChar

/-- A request method: any token. -/
def method? (s : String) : Except Rejection String :=
  if isToken s then .ok s else .error .method

structure FieldName where
  text : String
  lower : text.toLower = text
  deriving DecidableEq, Repr

/-- A text as a field name. -/
def FieldName.of (s : String) : FieldName := ⟨s.toLower, Text.toLower_toLower s⟩

/-- A field name: a token whose length fits into 16 bits. -/
def fieldName? (s : String) : Except Rejection FieldName :=
  if isToken s && s.utf8ByteSize < Nat.pow 2 16 then .ok (.of s) else .error .fieldName

def isValueByte (b : UInt8) : Bool := b == 0x09 || (0x20 ≤ b && b != 0x7f)

def fieldValue? (s : String) : Except Rejection Octets :=
  let bytes := Octets.ofText s
  if bytes.all isValueByte then .ok bytes else .error .fieldValue

/-- A status code, of three digits. -/
def status? (n : Nat) : Except Rejection Nat :=
  if 100 ≤ n ∧ n ≤ 999 then .ok n else .error .status

/-- A field value between quotes: the bytes of visible ASCII, the blank and the tab as they are, the
others by their number. -/
def quoteValue (v : Octets) : String :=
  let one (b : UInt8) : String :=
    if b = 0x22 then "\\\""
    else if b = 0x09 ∨ (0x20 ≤ b ∧ b < 0x7f) then (Char.ofNat b.toNat).toString
    else "\\x" ++ Text.hexDigits b.toNat
  "\"" ++ String.join (v.map one) ++ "\""

theorem Fields.lower_nil : ∀ e ∈ ([] : List (String × Octets)), e.1.toLower = e.1 :=
  List.forall_mem_nil _

/-- The fields of a message: names with their values. -/
structure Fields where
  entries : List (String × Octets) := []
  lower : ∀ e ∈ entries, e.1.toLower = e.1 := by exact Exchange.Http.Fields.lower_nil
  deriving DecidableEq, Repr

namespace Fields

/-- The values of a name, in order. -/
def values (name : String) (f : Fields) : List Octets :=
  (f.entries.filter (·.1 == name)).map (·.2)

/-- The first value of a name. -/
def first? (name : String) (f : Fields) : Option Octets := f.entries.lookup name

def append (name : FieldName) (value : Octets) (f : Fields) : Fields where
  entries := f.entries ++ [(name.text, value)]
  lower := by
    intro e he
    rcases List.mem_append.mp he with he | he
    · exact f.lower e he
    · rw [List.mem_singleton.mp he]
      exact name.lower

def remove (name : String) (f : Fields) : Fields where
  entries := f.entries.filter (·.1 != name)
  lower := fun e he => f.lower e (List.mem_filter.mp he).1

/-- Sets a name to one value, in place of any it had. -/
def insert (name : FieldName) (value : Octets) (f : Fields) : Fields :=
  (f.remove name.text).append name value

/-- Takes the fields of `g` over, in place of any of the same name. -/
def override (f g : Fields) : Fields where
  entries := f.entries.filter (fun e => !(g.entries.any (·.1 == e.1))) ++ g.entries
  lower := by
    intro e he
    rcases List.mem_append.mp he with he | he
    · exact f.lower e (List.mem_filter.mp he).1
    · exact g.lower e he

/-- The fields by name; the values of one name keep their order. -/
def sorted (f : Fields) : List (String × Octets) :=
  f.entries.mergeSort fun a b => decide (a.1 ≤ b.1)

/-- Appends a field given as text. -/
def append? (name value : String) (f : Fields) : Except Rejection Fields := do
  let name ← fieldName? name
  let value ← fieldValue? value
  return f.append name value

/-- Appends fields given as text, one after the other. -/
def appendAll? (fields : List (String × String)) (f : Fields) : Except Rejection Fields :=
  fields.foldlM (fun f e => f.append? e.1 e.2) f

end Fields

end Exchange.Http
