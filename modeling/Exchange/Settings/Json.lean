import Exchange.Octets

/-!
Reading typed values from JSON text.

The text is read once, from left to right, and the first fault ends the reading: the text ends too
early (`ended`), it is not JSON at that place (`malformed`), or it is JSON of another shape than the
value that is wanted (`unfit`). A `Reader` takes the text from some place on and gives what it read
and the text that follows.

A record is read from an object of its fields, in any order and each at most once, or from an array
of them in their declared order. Fields that are absent keep their defaults and unknown ones are
skipped, but what is skipped must be JSON as well.
-/
namespace Exchange.Settings

inductive ReadError where
  | ended
  | malformed
  | unfit
  deriving DecidableEq, Repr

abbrev Reader (α : Type) := Octets → Except ReadError (α × Octets)

/-- The byte of an ASCII character. -/
def byte (c : Char) : UInt8 := c.toNat.toUInt8

def isBlank (b : UInt8) : Bool := b == 0x20 || b == 0x09 || b == 0x0a || b == 0x0d

def isDigit (b : UInt8) : Bool := 0x30 ≤ b && b ≤ 0x39

/-- The text from the next byte that is not blank. -/
def skipBlank (text : Octets) : Octets := text.dropWhile isBlank

/-- Reads the rest of a word. -/
def word : List Char → Octets → Except ReadError Octets
  | [], text => .ok text
  | _ :: _, [] => .error .ended
  | c :: more, b :: text => if b = byte c then word more text else .error .malformed

/-! ### Strings -/

/-- Where a string is being read: among plain characters or inside an escape. `lead` is the first
half of a surrogate pair whose second half must follow. -/
inductive StringPlace where
  | plain
  /-- before the second escape of a pair -/
  | half (lead : Nat)
  /-- after a backslash -/
  | escape (lead : Option Nat)
  /-- inside a number of four digits -/
  | hex (lead : Option Nat) (left value : Nat)

def hexValue? (b : UInt8) : Option Nat :=
  if isDigit b then some (b.toNat - 0x30)
  else if 0x61 ≤ b && b ≤ 0x66 then some (b.toNat - 0x61 + 10)
  else if 0x41 ≤ b && b ≤ 0x46 then some (b.toNat - 0x41 + 10)
  else none

/-- What a one-letter escape stands for. -/
def shortEscape? (b : UInt8) : Option UInt8 :=
  if b = byte '"' || b = byte '\\' || b = byte '/' then some b
  else if b = byte 'b' then some 0x08
  else if b = byte 'f' then some 0x0c
  else if b = byte 'n' then some 0x0a
  else if b = byte 'r' then some 0x0d
  else if b = byte 't' then some 0x09
  else none

/-- The code point that a number of four digits completes, or the half pair that it begins. In
skipped text any number will do. -/
def complete (skipped : Bool) (lead : Option Nat) (n : Nat) : Except ReadError (Nat ⊕ Nat) :=
  if skipped then .ok (.inl 0)
  else
    match lead with
    | none =>
      if 0xdc00 ≤ n && n ≤ 0xdfff then .error .malformed
      else if 0xd800 ≤ n && n ≤ 0xdbff then .ok (.inr n)
      else .ok (.inl n)
    | some l =>
      if 0xdc00 ≤ n && n ≤ 0xdfff then
        .ok (.inl ((l - 0xd800) * 0x400 + (n - 0xdc00) + 0x10000))
      else .error .malformed

/-- Reads a string behind its opening quote. `rev` holds the bytes read so far, last first. -/
def stringFrom (skipped : Bool) : StringPlace → Octets → Reader Octets
  | _, _, [] => .error .ended
  | .plain, rev, b :: text =>
    if b = byte '"' then .ok (rev.reverse, text)
    else if b = byte '\\' then stringFrom skipped (.escape none) rev text
    else if b < 0x20 then .error .malformed
    else stringFrom skipped .plain (b :: rev) text
  | .half lead, rev, b :: text =>
    if b = byte '\\' then stringFrom skipped (.escape (some lead)) rev text
    else .error .malformed
  | .escape lead, rev, b :: text =>
    if b = byte 'u' then
      if text.length < 4 then .error .ended
      else stringFrom skipped (.hex lead 4 0) rev text
    else
      match lead, shortEscape? b with
      | none, some b => stringFrom skipped .plain (b :: rev) text
      | _, _ => .error .malformed
  | .hex lead left value, rev, b :: text =>
    match hexValue? b with
    | none => .error .malformed
    | some d =>
      let value := value * 16 + d
      if left > 1 then stringFrom skipped (.hex lead (left - 1) value) rev text
      else
        match complete skipped lead value with
        | .error e => .error e
        | .ok (.inr lead) => stringFrom skipped (.half lead) rev text
        | .ok (.inl n) =>
          stringFrom skipped .plain
            ((Octets.ofText (Char.ofNat n).toString).reverse ++ rev) text

/-- Reads a key behind its opening quote. -/
def key : Reader String := fun text => do
  let (bytes, text) ← stringFrom false .plain [] text
  return (bytes.text?.getD "", text)

/-! ### Numbers -/

/-- A number as far as settings tell numbers apart. -/
inductive Number where
  /-- no sign, fraction or exponent, and at most 64 bits -/
  | natural (n : Nat)
  | other

def digitValue (b : UInt8) : Nat := b.toNat - 0x30

def digitsValue (digits : Octets) : Nat := digits.foldl (fun n b => n * 10 + digitValue b) 0

/-- A decimal number while its digits are read: a significand of at most 64 bits and a power of ten.
Once a digit does not fit, the later digits on its side of the point do not either. -/
structure Scaled where
  significand : Nat := 0
  exponent : Int := 0
  full : Bool := false

namespace Scaled

/-- Takes a digit if it fits. -/
def take? (s : Scaled) (digit : Nat) : Option Scaled :=
  let n := s.significand * 10 + digit
  if s.full || Nat.pow 2 64 ≤ n then none else some { s with significand := n }

/-- A digit before the point. One that does not fit counts as a zero. -/
def whole (s : Scaled) (b : UInt8) : Scaled :=
  (s.take? (digitValue b)).getD { s with exponent := s.exponent + 1, full := true }

/-- A digit behind the point. One that does not fit is dropped. -/
def fractional (s : Scaled) (b : UInt8) : Scaled :=
  match s.take? (digitValue b) with
  | some s => { s with exponent := s.exponent - 1 }
  | none => { s with full := true }

def ofDigits (before after : Octets) : Scaled :=
  after.foldl fractional { before.foldl whole ({} : Scaled) with full := false }

/-- The nearest number of 53 significant bits; a tie goes to the even one. -/
def nearest (n : Nat) : Nat :=
  let unit := Nat.pow 2 (n.log2 + 1 - 53)
  let (q, r) := (n / unit, n % unit)
  (if unit < 2 * r || (unit = 2 * r && q % 2 = 1) then q + 1 else q) * unit

/-- Whether the product of the significand and the power of ten, each rounded to a double, is too
large for one. A power given in the text counts before the one that the digits make, and a negative
power never overflows. -/
def overflows (s : Scaled) (power : Int) : Bool :=
  let e := s.exponent + power
  s.significand != 0 &&
    (Int.pow 2 31 ≤ power || 308 < e ||
      (0 ≤ e && Nat.pow 2 1024 - Nat.pow 2 970 ≤
        nearest s.significand * nearest (Nat.pow 10 e.toNat)))

end Scaled

/-- Reads an exponent behind its letter. -/
def exponent (short : ReadError) (text : Octets) : Except ReadError (Int × Octets) :=
  let (negative, text) := match text with
    | b :: rest => if b = byte '-' then (true, rest) else if b = byte '+' then (false, rest)
      else (false, text)
    | [] => (false, [])
  match text with
  | [] => .error short
  | b :: _ =>
    if isDigit b then
      let n : Int := digitsValue (text.takeWhile isDigit)
      .ok (if negative then -n else n, text.dropWhile isDigit)
    else .error .malformed

/-- Reads a number behind its sign. A number that ends too early is `short`; in skipped text that
is malformed like any other, and no number is too large. -/
def number (skipped negative : Bool) (text : Octets) : Except ReadError (Number × Octets) :=
  let short : ReadError := if skipped then .malformed else .ended
  match text with
  | [] => .error short
  | first :: after =>
    if !isDigit first then .error .malformed
    else
      let whole := if first = byte '0' then [first] else text.takeWhile isDigit
      let text := if first = byte '0' then after else text.dropWhile isDigit
      if first = byte '0' && (text.head?.any isDigit) then .error .malformed
      else do
        let (fraction, text) ← match text with
          | b :: rest =>
            if b = byte '.' then
              match rest.takeWhile isDigit with
              | [] => if rest.isEmpty then .error short else .error .malformed
              | digits => pure (digits, rest.dropWhile isDigit)
            else pure ([], text)
          | [] => pure ([], [])
        let (power, text) ← match text with
          | b :: rest =>
            if b = byte 'e' || b = byte 'E' then do
              let (e, text) ← exponent short rest
              pure (some e, text)
            else pure (none, text)
          | [] => pure (none, [])
        let scaled := Scaled.ofDigits whole fraction
        let plain := fraction.isEmpty && power.isNone && scaled.exponent = 0
        if plain && !negative then return (.natural scaled.significand, text)
        else if !skipped && scaled.overflows (power.getD 0) then .error .malformed
        else return (.other, text)

/-! ### What is skipped, and what is refused -/

mutual

/-- Reads any value and forgets it. -/
def skipValue : Nat → Octets → Except ReadError Octets
  | 0, _ => .error .ended
  | fuel + 1, text =>
    match skipBlank text with
    | [] => .error .ended
    | b :: text =>
      if b = byte '[' then skipElements fuel true text
      else if b = byte '\x7b' then skipMembers fuel true text
      else if b = byte '"' then (stringFrom true .plain [] text).map (·.2)
      else if b = byte 'n' then word "ull".toList text
      else if b = byte 't' then word "rue".toList text
      else if b = byte 'f' then word "alse".toList text
      else if b = byte '-' then (number true true text).map (·.2)
      else if isDigit b then (number true false (b :: text)).map (·.2)
      else .error .malformed

def skipElements : Nat → Bool → Octets → Except ReadError Octets
  | 0, _, _ => .error .ended
  | fuel + 1, first, text =>
    match skipBlank text with
    | [] => .error .ended
    | b :: rest =>
      if b = byte ']' then .ok rest
      else if first then do skipElements fuel false (← skipValue fuel (b :: rest))
      else if b = byte ',' then do skipElements fuel false (← skipValue fuel rest)
      else .error .malformed

def skipMembers : Nat → Bool → Octets → Except ReadError Octets
  | 0, _, _ => .error .ended
  | fuel + 1, first, text =>
    match skipBlank text with
    | [] => .error .ended
    | b :: rest =>
      if b = byte '\x7d' then .ok rest
      else if first then skipMember fuel (b :: rest)
      else if b = byte ',' then skipMember fuel (skipBlank rest)
      else .error .malformed

/-- One member of a skipped object, and the members after it. -/
def skipMember : Nat → Octets → Except ReadError Octets
  | 0, _ => .error .ended
  | _ + 1, [] => .error .ended
  | fuel + 1, b :: text =>
    if b != byte '"' then .error .malformed
    else do
      let (_, text) ← stringFrom true .plain [] text
      match skipBlank text with
      | [] => .error .ended
      | c :: text =>
        if c = byte ':' then do skipMembers fuel false (← skipValue fuel text)
        else .error .malformed

end

/-- Skips one value. Each byte takes at most three calls. -/
def skip (text : Octets) : Except ReadError Octets := skipValue (3 * text.length + 3) text

/-- The fault of a value of another kind than the one wanted: it is read as far as needed to know
that it is one. -/
def refuse (text : Octets) : ReadError :=
  let read : Except ReadError Unit := match text with
    | [] => .error .ended
    | b :: text =>
      if b = byte 'n' then (word "ull".toList text).map fun _ => ()
      else if b = byte 't' then (word "rue".toList text).map fun _ => ()
      else if b = byte 'f' then (word "alse".toList text).map fun _ => ()
      else if b = byte '"' then (stringFrom false .plain [] text).map fun _ => ()
      else if b = byte '-' then (number false true text).map fun _ => ()
      else if isDigit b then (number false false (b :: text)).map fun _ => ()
      else if b = byte '[' || b = byte '\x7b' then .ok ()
      else .error .malformed
  match read with
  | .error e => e
  | .ok () => .unfit

/-! ### Values -/

/-- A natural number of at most 64 bits. -/
def natural : Reader Nat := fun text =>
  match skipBlank text with
  | [] => .error .ended
  | b :: text =>
    if b = byte '-' || isDigit b then do
      let negative := b = byte '-'
      match ← number false negative (if negative then text else b :: text) with
      | (.natural n, text) => return (n, text)
      | (.other, _) => .error .unfit
    else .error (refuse (b :: text))

def truth : Reader Bool := fun text =>
  match skipBlank text with
  | [] => .error .ended
  | b :: text =>
    if b = byte 't' then (word "rue".toList text).map fun text => (true, text)
    else if b = byte 'f' then (word "alse".toList text).map fun text => (false, text)
    else .error (refuse (b :: text))

/-- A value or null. -/
def nullable {α : Type} (value : Reader α) : Reader (Option α) := fun text =>
  match skipBlank text with
  | b :: rest =>
    if b = byte 'n' then (word "ull".toList rest).map fun text => (none, text)
    else do
      let (a, text) ← value text
      return (some a, text)
  | [] => .error .ended

/-- The colon between a key and its value. -/
def colon (text : Octets) : Except ReadError Octets :=
  match skipBlank text with
  | [] => .error .ended
  | b :: text => if b = byte ':' then .ok text else .error .malformed

/-- The next key of an object and what follows its colon; nothing at the end of the object. -/
def nextKey (first : Bool) (text : Octets) : Except ReadError (Option String × Octets) :=
  match skipBlank text with
  | [] => .error .ended
  | b :: rest =>
    if b = byte '\x7d' then .ok (none, rest)
    else
      let at? := if first then some (b :: rest) else if b = byte ',' then some (skipBlank rest)
        else none
      match at? with
      | none => .error .malformed
      | some [] => .error .ended
      | some (q :: rest) =>
        if q = byte '"' then do
          let (k, text) ← key rest
          return (some k, text)
        else .error .malformed

/-- A field of a record: its name and how its value is read into the record. -/
structure FieldReader (α : Type) where
  name : String
  read : α → Reader α

/-- The members of an object, read into a record. `seen` holds the names of the fields that were
read. -/
def members {α : Type} (fields : List (FieldReader α)) :
    Nat → Bool → List String → α → Reader α
  | 0, _, _, _ => fun _ => .error .ended
  | fuel + 1, first, seen, value => fun text => do
    match ← nextKey first text with
    | (none, text) => return (value, text)
    | (some k, text) =>
      match fields.find? (·.name == k) with
      | none => members fields fuel false seen value (← skip (← colon text))
      | some field =>
        if seen.contains k then .error .unfit
        else do
          let (value, text) ← field.read value (← colon text)
          members fields fuel false (k :: seen) value text

/-- The elements of an array, read into a record field by field. -/
def elements {α : Type} : List (FieldReader α) → Bool → α → Reader α
  | [], _, value => fun text =>
    match skipBlank text with
    | [] => .error .ended
    | b :: text => if b = byte ']' then .ok (value, text) else .error .malformed
  | field :: more, first, value => fun text =>
    match skipBlank text with
    | [] => .error .ended
    | b :: rest =>
      if b = byte ']' then .ok (value, rest)
      else do
        let text ←
          if first then pure (b :: rest)
          else if b = byte ',' then
            match skipBlank rest with
            | [] => .error .ended
            | c :: rest => if c = byte ']' then .error .malformed else pure (c :: rest)
          else .error .malformed
        let (value, text) ← field.read value text
        elements more false value text

/-- A record. -/
def record {α : Type} (fields : List (FieldReader α)) (absent : α) : Reader α := fun text =>
  match skipBlank text with
  | [] => .error .ended
  | b :: text =>
    if b = byte '\x7b' then members fields (text.length + 1) true [] absent text
    else if b = byte '[' then elements fields true absent text
    else .error (refuse (b :: text))

/-- The entries of a map from names, the last of one name standing. -/
def entries {α : Type} (value : Reader α) :
    Nat → Bool → List (String × α) → Reader (List (String × α))
  | 0, _, _ => fun _ => .error .ended
  | fuel + 1, first, read => fun text => do
    match ← nextKey first text with
    | (none, text) => return (read, text)
    | (some k, text) =>
      let (a, text) ← value (← colon text)
      entries value fuel false (read.filter (·.1 != k) ++ [(k, a)]) text

/-- A map from names. -/
def table {α : Type} (value : Reader α) : Reader (List (String × α)) := fun text =>
  match skipBlank text with
  | [] => .error .ended
  | b :: text =>
    if b = byte '\x7b' then entries value (text.length + 1) true [] text
    else .error (refuse (b :: text))

/-- Reads a whole text. -/
def parse {α : Type} (value : Reader α) (text : Octets) : Except ReadError α :=
  match value text with
  | .error e => .error e
  | .ok (a, text) => if (skipBlank text).isEmpty then .ok a else .error .malformed

end Exchange.Settings
