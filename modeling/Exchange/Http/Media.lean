import Exchange.Text.Cut
import Exchange.Text.Lower

/-!
Media types, such as `text/plain; charset=utf-8`.

The essence (type and subtype) and the names of parameters are kept in lower case, and so is the
value of `charset`. Otherwise a media type is written as it was read, its parameters included. So
its text begins with the essence, and the name of the first parameter can be found behind that.

Comparison looks at the essence and at the name of the first parameter, not at values or at further
parameters. The one exception is a media type whose only parameter is `charset=utf-8`: it tells
itself apart from every other one that is written in as many bytes. So comparison is not symmetric.
It finds the essence of the right side by cutting its text where the essence of the left side ends,
and so it fails if a character of the right side lies across that place.
-/
namespace Exchange.Http

/-- The name in front of the first equals sign, without blanks in front of it. -/
def nameIn? (cs : List Char) : Option String :=
  if cs.contains '=' then
    some (String.ofList ((cs.dropWhile (· = ' ')).takeWhile (· ≠ '=')))
  else none

structure MediaType where
  essence : String
  /-- the name of the first parameter -/
  leading : Option String := none
  /-- `charset=utf-8`, one blank behind the semicolon, is the only parameter -/
  isUtf8 : Bool := false
  /-- as it is written -/
  text : String := essence
  legible : ∀ name, leading = some name → ∃ mark behind,
    text = String.ofList (essence.toList ++ mark :: behind) ∧ nameIn? behind = some name := by nofun
  deriving DecidableEq

namespace MediaType

/-! ### Comparison -/

/-- Whether `b` is the same as `a`, unless `b` cannot be cut where the essence of `a` ends. -/
def same? (a b : MediaType) : Except Text.Torn Bool :=
  let ends := a.essence.utf8ByteSize
  match a.leading with
  | none => .ok (a.text == b.text)
  | some name =>
    if a.isUtf8 && a.text.utf8ByteSize == b.text.utf8ByteSize then .ok (a.text == b.text)
    else if b.text.utf8ByteSize ≤ ends then .ok false
    else
      (Text.cut ends b.text).map fun (front, back) =>
        String.ofList front == a.essence && nameIn? (back.drop 1) == some name

/-! ### Reading -/

/-- Where a character stands: outside quotes, first inside them, or further inside. -/
inductive Place where
  | outside
  | first
  | inside

/-- The place behind a character. The first character inside quotes does not close them, even if it
is a quote. -/
def Place.next (c : Char) : Place → Place
  | .outside => if c = '"' then .first else .outside
  | .first => .inside
  | .inside => if c = '"' then .outside else .inside

/-- Cuts at every semicolon outside quotes. -/
def pieces : Place → List Char → List (List Char)
  | _, [] => [[]]
  | .outside, ';' :: rest => [] :: pieces .outside rest
  | place, c :: rest =>
    match pieces (place.next c) rest with
    | [] => [[c]]
    | piece :: more => (c :: piece) :: more

def lower (cs : List Char) : List Char := cs.map Char.toLower

/-- One parameter as it stands between two semicolons. -/
structure Parameter where
  /-- the blanks in front -/
  lead : List Char
  /-- in lower case -/
  name : List Char
  /-- the equals sign, the value, and what is behind the value -/
  rest : List Char

namespace Parameter

/-- Reads a parameter. A blank piece is written as it is. -/
def ofPiece (piece : List Char) : Parameter :=
  let body := piece.dropWhile (· = ' ')
  let name := lower (body.takeWhile (· ≠ '='))
  let rest := body.dropWhile (· ≠ '=')
  ⟨piece.takeWhile (· = ' '), name, if name = "charset".toList then lower rest else rest⟩

/-- The value without its quotes. -/
def value (p : Parameter) : List Char :=
  match p.rest.drop 1 with
  | '"' :: c :: inner => c :: inner.takeWhile (· ≠ '"')
  | plain => plain

/-- Whether this is `charset=utf-8`, with one blank in front. -/
def isUtf8 (p : Parameter) : Bool :=
  p.lead = [' '] && p.name = "charset".toList && p.value = "utf-8".toList

/-- The parameter as it is written. -/
def text (p : Parameter) : List Char := p.lead ++ p.name ++ p.rest

/-- Parameters as they are written. -/
def written (pieces : List (List Char)) : List Char :=
  [';'].intercalate (pieces.map fun piece => (ofPiece piece).text)

theorem mem_lower {mark : Char} {cs : List Char} (hmark : mark.val < 'A'.val) :
    mark ∈ lower cs ↔ mark ∈ cs := by
  unfold lower
  rw [List.mem_map]
  constructor
  · rintro ⟨c, hc, heq⟩
    exact (Text.toLower_eq_iff hmark).mp heq ▸ hc
  · intro hc
    exact ⟨mark, hc, (Text.toLower_eq_iff hmark).mpr rfl⟩

/-- The name in front of the first equals sign, however many blanks are in front of it. -/
theorem nameIn?_append {lead name : List Char} (hlead : ∀ c ∈ lead, c = ' ')
    (hfirst : ∀ c, name.head? = some c → c ≠ ' ') (hname : '=' ∉ name) (more : List Char) :
    nameIn? (lead ++ name ++ '=' :: more) = some (String.ofList name) := by
  have hdrop : (lead ++ name ++ '=' :: more).dropWhile (· = ' ') = name ++ '=' :: more := by
    rw [List.append_assoc, List.dropWhile_append_of_pos (by simpa using hlead)]
    cases name with
    | nil => exact List.dropWhile_cons_of_neg (by decide)
    | cons c rest => exact List.dropWhile_cons_of_neg (by simpa using hfirst c rfl)
  have htake : (name ++ '=' :: more).takeWhile (· ≠ '=') = name := by
    rw [List.takeWhile_append_of_pos, List.takeWhile_cons_of_neg (by decide), List.append_nil]
    intro c hc
    simpa using fun heq : c = '=' => hname (heq ▸ hc)
  rw [nameIn?, if_pos (by simp), hdrop, htake]

/-- The name of a parameter with an equals sign is the first one in its text. -/
theorem nameIn?_text {piece : List Char} (h : '=' ∈ piece) (more : List Char) :
    nameIn? ((ofPiece piece).text ++ more) = some (String.ofList (ofPiece piece).name) := by
  have hblank : ∀ c ∈ piece.takeWhile (· = ' '), c = ' ' := fun c hc =>
    of_decide_eq_true (List.all_eq_true.mp List.all_takeWhile c hc)
  have hbody : '=' ∈ piece.dropWhile (· = ' ') := by
    rw [← List.takeWhile_append_dropWhile (p := (· = ' ')) (l := piece), List.mem_append] at h
    exact h.resolve_left fun hlead => absurd (hblank _ hlead) (by decide)
  have hnonblank : ∀ c, (piece.dropWhile (· = ' ')).head? = some c → c ≠ ' ' := by
    intro c hc
    have hfirst := List.head?_dropWhile_not (· = ' ') piece
    rw [hc] at hfirst
    exact of_decide_eq_false hfirst
  unfold ofPiece text
  dsimp only
  generalize piece.takeWhile (· = ' ') = lead at hblank
  generalize piece.dropWhile (· = ' ') = body at hbody hnonblank
  obtain ⟨name, tail, rfl, hname⟩ := List.eq_append_cons_of_mem hbody
  have hall : ∀ c ∈ name, decide (c ≠ '=') = true := by
    intro c hc
    simpa using fun heq : c = '=' => hname (heq ▸ hc)
  rw [List.takeWhile_append_of_pos hall, List.dropWhile_append_of_pos hall,
    List.takeWhile_cons_of_neg (by decide), List.dropWhile_cons_of_neg (by decide),
    List.append_nil]
  have hfirst : ∀ c, (lower name).head? = some c → c ≠ ' ' := by
    intro c hc heq
    cases name with
    | nil => cases hc
    | cons first rest =>
      exact hnonblank first rfl
        ((Text.toLower_eq_iff (by decide)).mp ((Option.some.inj hc).trans heq))
  -- the value may be in lower case, too, but its equals sign is what it was
  obtain ⟨value, hvalue⟩ : ∃ value,
      (if lower name = "charset".toList then lower ('=' :: tail) else '=' :: tail) =
        '=' :: value := by
    split
    · exact ⟨lower tail, rfl⟩
    · exact ⟨tail, rfl⟩
  rw [hvalue, List.append_assoc, List.cons_append]
  exact nameIn?_append hblank hfirst (mt (mem_lower (by decide)).mp hname) (value ++ more)

/-- The name of the first parameter is the first one of all. -/
theorem nameIn?_written {first : List Char} (h : '=' ∈ first) (more : List (List Char)) :
    nameIn? (written (first :: more)) = some (String.ofList (ofPiece first).name) := by
  obtain ⟨back, hback⟩ : ∃ back, written (first :: more) = (ofPiece first).text ++ back := by
    unfold written
    cases more with
    | nil => exact ⟨[], by simp [List.intercalate]⟩
    | cons second more =>
      exact ⟨_, List.intercalate_cons_cons.trans (List.append_assoc ..)⟩
  rw [hback]
  exact nameIn?_text h back

end Parameter

/-- The essence ends at the first semicolon or blank. -/
def inEssence (c : Char) : Bool := c ≠ ';' && c ≠ ' '

/-- Reads a media type. What is behind the essence is dropped unless a parameter comes first. -/
def ofText (s : String) : MediaType :=
  let essence := String.ofList (lower (s.toList.takeWhile inEssence))
  match s.toList.dropWhile inEssence with
  | [] => { essence }
  | mark :: behind =>
    match pieces .outside behind with
    | [] => { essence }
    | first :: more =>
      if h : '=' ∈ first then
        let p := Parameter.ofPiece first
        { essence
          leading := some (String.ofList p.name)
          isUtf8 := p.isUtf8 && more.all (·.all (· = ' '))
          text := essence ++ String.ofList (mark :: Parameter.written (first :: more))
          legible := by
            intro name hname
            refine ⟨mark, _, ?_, (Parameter.nameIn?_written h more).trans hname⟩
            rw [String.ofList_append, String.ofList_toList] }
      else { essence }

def octetStream : MediaType := { essence := "application/octet-stream" }

end MediaType

end Exchange.Http
