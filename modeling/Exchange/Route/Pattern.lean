import Exchange.Octets

/-!
Path patterns.

A pattern is text with wildcards: `{name}` stands for one or more bytes of a path segment, and
`{*name}`, at the end, for one or more bytes of any kind. Doubled braces are literal ones. The bytes
of a pattern, each literal brace once, are its marks, and a `Mark` remembers whether it was one of a
doubled pair.

Names play no part in matching, so a pattern is kept as a `Shape`: its parameters are called `a`,
`b`, `c` and so on, and their own names stand beside it. There are 26 letters; a pattern that uses
up the last one is refused.
-/
namespace Exchange.Route

inductive PatternFault where
  | name
  | segment
  | restNotLast
  | conflict (earlier : String)
  | tooManyParameters
  deriving DecidableEq, Repr

def PatternFault.message : PatternFault → String
  | .name => "Parameters must be registered with a valid name"
  | .segment => "Only one parameter is allowed per path segment"
  | .restNotLast => "Catch-all parameters are only allowed at the end of a route"
  | .conflict earlier =>
    s!"Insertion failed due to conflict with previously registered route: {earlier}"
  | .tooManyParameters => "Too many route parameters."

/-! ### Marks -/

def openBrace : UInt8 := 0x7b
def closeBrace : UInt8 := 0x7d
def asterisk : UInt8 := 0x2a
def slash : UInt8 := 0x2f

structure Mark where
  byte : UInt8
  /-- one of a doubled pair of braces -/
  escaped : Bool := false
  deriving DecidableEq, Repr

abbrev Marks := List Mark

/-- An opening brace that is not one of a pair. -/
def Mark.opens (m : Mark) : Bool := m.byte == openBrace && !m.escaped

/-- A closing brace that is not one of a pair. -/
def Mark.closes (m : Mark) : Bool := m.byte == closeBrace && !m.escaped

namespace Marks

def bytes (marks : Marks) : Octets := marks.map (·.byte)

/-- Marks of bytes that are no doubled braces. -/
def plain (bytes : Octets) : Marks := bytes.map fun b => { byte := b }

/-- Joins doubled braces. -/
def ofBytes : Octets → Marks
  | b :: c :: rest =>
    if b = c ∧ (b = openBrace ∨ b = closeBrace) then { byte := b, escaped := true } :: ofBytes rest
    else { byte := b } :: ofBytes (c :: rest)
  | [b] => [{ byte := b }]
  | [] => []

/-- A path segment's remainder, up to and with the next slash, and what is behind it. -/
def cutSegment (marks : Marks) : Marks × Marks :=
  let n := (marks.takeWhile (·.byte != slash)).length + 1
  (marks.take n, marks.drop n)

end Marks

/-! ### Wildcards -/

/-- The name of a wildcard from its second byte on, with the closing brace, and what is behind it.
`previous` is the byte in front. A name holds no slash and no asterisk, apart from its first byte,
and a lone asterisk is no name. -/
def nameTail? : UInt8 → Marks → Option (Marks × Marks)
  | _, [] => none
  | previous, m :: rest =>
    if m.closes then if previous = asterisk then none else some ([m], rest)
    else if m.byte = asterisk ∨ m.byte = slash then none
    else (nameTail? m.byte rest).map fun (name, behind) => (m :: name, behind)

/-- A pattern around its first wildcard. -/
structure Split where
  before : Marks
  /-- with its braces -/
  wildcard : Marks
  behind : Marks

namespace Split

/-- Whether the wildcard takes all of the path that is left. -/
def isRest (s : Split) : Bool := s.wildcard[1]?.any (·.byte == asterisk)

/-- What is between the braces. -/
def name (s : Split) : Octets := Marks.bytes (s.wildcard.drop 1).dropLast

end Split

/-- Splits a pattern at its first wildcard, if it has one. -/
def split? : Marks → Except PatternFault (Option Split)
  | [] => .ok none
  | m :: rest =>
    if m.closes then .error .name
    else if m.opens then
      match rest with
      | [] => .error .name
      | first :: more =>
        if first.byte = closeBrace then .error .name
        else
          match nameTail? first.byte more with
          | none => .error .name
          | some (tail, behind) => .ok (some ⟨[], m :: first :: tail, behind⟩)
    else
      match split? rest with
      | .error e => .error e
      | .ok none => .ok none
      | .ok (some s) => .ok (some { s with before := m :: s.before })

theorem nameTail?_append {previous : UInt8} {marks name behind : Marks}
    (h : nameTail? previous marks = some (name, behind)) : name ++ behind = marks := by
  induction marks generalizing previous name with
  | nil => simp [nameTail?] at h
  | cons m rest ih =>
    simp only [nameTail?] at h
    split at h
    · split at h
      · simp at h
      · simp only [Option.some.injEq, Prod.mk.injEq] at h
        simp [← h.1, ← h.2]
    · split at h
      · simp at h
      · simp only [Option.map_eq_some_iff, Prod.mk.injEq] at h
        obtain ⟨⟨name', behind'⟩, h, rfl, rfl⟩ := h
        simp [ih h]

/-- A split loses nothing. -/
theorem split?_append {marks : Marks} {s : Split} (h : split? marks = .ok (some s)) :
    s.before ++ s.wildcard ++ s.behind = marks := by
  induction marks generalizing s with
  | nil => simp [split?] at h
  | cons m rest ih =>
    simp only [split?] at h
    split at h
    · simp at h
    · split at h
      · split at h
        · simp at h
        · split at h
          · simp at h
          · split at h
            · simp at h
            · rename_i hname
              simp only [Except.ok.injEq, Option.some.injEq] at h
              simp [← h, nameTail?_append hname]
      · split at h
        · simp at h
        · simp at h
        · rename_i hrest
          simp only [Except.ok.injEq, Option.some.injEq] at h
          simp [← h, ← ih hrest]

/-- The wildcard takes up at least its two braces. -/
theorem split?_wildcard {marks : Marks} {s : Split} (h : split? marks = .ok (some s)) :
    s.wildcard ≠ [] := by
  induction marks generalizing s with
  | nil => simp [split?] at h
  | cons m rest ih =>
    simp only [split?] at h
    split at h
    · simp at h
    · split at h
      · split at h
        · simp at h
        · split at h
          · simp at h
          · split at h
            · simp at h
            · simp only [Except.ok.injEq, Option.some.injEq] at h
              simp [← h]
      · split at h
        · simp at h
        · simp at h
        · rename_i hrest
          simp only [Except.ok.injEq, Option.some.injEq] at h
          simpa [← h] using ih hrest

/-- What is behind a wildcard is shorter than the whole. -/
theorem split?_length {marks : Marks} {s : Split} (h : split? marks = .ok (some s)) :
    s.behind.length < marks.length := by
  have nonempty := List.length_pos_iff.mpr (split?_wildcard h)
  rw [← split?_append h]
  simp only [List.length_append]
  omega

/-- Whether a part of a pattern holds a wildcard. -/
def holdsWildcard (marks : Marks) : Bool :=
  match split? marks with
  | .ok (some _) => true
  | _ => false

/-! ### Shapes -/

structure Shape where
  marks : Marks
  /-- the names of the parameters, in order -/
  names : List Octets

/-- What is behind a parameter whose name became shorter by `cut` bytes. The escape of the very next
byte stays where it was, so it passes to the byte that is there now. -/
def shorten (cut : Nat) (behind : Marks) : Marks :=
  if cut = 0 then behind
  else
    let escaped := behind.head?.any (·.escaped)
    (behind.modify 0 fun m => { m with escaped := false }).modify cut fun m =>
      { m with escaped := m.escaped || escaped }

theorem length_shorten (cut : Nat) (behind : Marks) :
    (shorten cut behind).length = behind.length := by
  unfold shorten
  split <;> simp

/-- The shape of a pattern, given the letters that are left. -/
def shape? (letters : Octets) (marks : Marks) : Except PatternFault Shape :=
  match _h : split? marks with
  | .error e => .error e
  | .ok none => .ok ⟨marks, []⟩
  | .ok (some s) =>
    if s.isRest then do
      let more ← shape? letters s.behind
      return { more with marks := s.before ++ s.wildcard ++ more.marks }
    else
      match letters with
      | [] => .error .tooManyParameters
      | letter :: letters => do
        let more ← shape? letters (shorten (s.wildcard.length - 3) s.behind)
        return ⟨s.before ++ Marks.plain [openBrace, letter, closeBrace] ++ more.marks,
          s.name :: more.names⟩
termination_by marks.length
decreasing_by
  · exact split?_length _h
  · rw [length_shorten]
    exact split?_length _h

/-- The letters `a` to `y`; a parameter that would need another one is too many. -/
def letters : Octets := Octets.ofText "abcdefghijklmnopqrstuvwxy"

def Shape.ofText? (s : String) : Except PatternFault Shape :=
  shape? letters (Marks.ofBytes (Octets.ofText s))

/-- Writes names in place of the letters, in order. -/
def withNames : List Octets → Marks → Octets
  | [], marks => marks.bytes
  | name :: names, marks =>
    match split? marks with
    | .ok (some s) =>
      s.before.bytes ++ openBrace :: name ++ closeBrace :: withNames names s.behind
    | _ => marks.bytes

end Exchange.Route
