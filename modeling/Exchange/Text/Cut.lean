import Exchange.Text.Quoted

/-!
Cutting a text at a place counted in bytes.

A character takes one to four bytes, so a place may lie inside a character. There the text cannot be
cut: the place is `Torn`. Elsewhere the two pieces are the whole text (`append_of_cut`), and a place
behind the end cuts nothing off.
-/
namespace Exchange.Text

/-- A place inside a character. -/
structure Torn where
  place : Nat
  char : Char
  /-- where the character starts -/
  start : Nat
  deriving DecidableEq, Repr

/-- What the panic that a torn character raises says. -/
def Torn.message (t : Torn) : String :=
  let char := quoteChar t.char
  let start := t.start
  let stop := t.start + t.char.utf8Size
  s!"end byte index {t.place} is not a char boundary; " ++
    s!"it is inside '{char}' (bytes {start}..{stop} of string)"

/-- Cuts characters of which the first one starts at `start`. -/
def cutFrom (start place : Nat) : List Char → Except Torn (List Char × List Char)
  | [] => .ok ([], [])
  | c :: rest =>
    if place ≤ start then .ok ([], c :: rest)
    else if place < start + c.utf8Size then .error ⟨place, c, start⟩
    else (cutFrom (start + c.utf8Size) place rest).map fun (front, back) => (c :: front, back)

/-- Cuts a text. -/
def cut (place : Nat) (s : String) : Except Torn (List Char × List Char) :=
  cutFrom 0 place s.toList

theorem append_of_cutFrom {start place : Nat} {cs front back : List Char}
    (h : cutFrom start place cs = .ok (front, back)) : front ++ back = cs := by
  induction cs generalizing start front with
  | nil =>
    cases h
    rfl
  | cons c rest ih =>
    unfold cutFrom at h
    split at h
    · cases h
      rfl
    · split at h
      · cases h
      · match hr : cutFrom (start + c.utf8Size) place rest with
        | .error t =>
          rw [hr] at h
          cases h
        | .ok (front', back') =>
          rw [hr] at h
          cases h
          rw [List.cons_append, ih hr]

theorem append_of_cut {place : Nat} {s : String} {front back : List Char}
    (h : cut place s = .ok (front, back)) : front ++ back = s.toList := append_of_cutFrom h

/-- A torn character starts before the place and ends behind it. -/
theorem within_of_cutFrom {start place : Nat} {cs : List Char} {t : Torn}
    (h : cutFrom start place cs = .error t) :
    t.place = place ∧ t.start < place ∧ place < t.start + t.char.utf8Size := by
  induction cs generalizing start with
  | nil => cases h
  | cons c rest ih =>
    unfold cutFrom at h
    split at h
    · cases h
    · split at h
      · cases h
        exact ⟨rfl, Nat.not_le.1 ‹_›, ‹_›⟩
      · match hr : cutFrom (start + c.utf8Size) place rest with
        | .error t' =>
          rw [hr] at h
          cases h
          exact ih hr
        | .ok (front', back') =>
          rw [hr] at h
          cases h

theorem within_of_cut {place : Nat} {s : String} {t : Torn} (h : cut place s = .error t) :
    t.place = place ∧ t.start < place ∧ place < t.start + t.char.utf8Size := within_of_cutFrom h

end Exchange.Text
