import Exchange.Http.Media
import Mathlib

/-!
Media types and themselves.

Comparison looks a media type up in its own text. It finds the essence there and the name of the
first parameter, so every media type is the same as itself (`same_self`), and the text is not torn.
Between different media types a comparison may tear a text.
-/
namespace Exchange.Text

theorem cutFrom_append (start : Nat) (front back : List Char) :
    cutFrom start (start + String.utf8Len front) (front ++ back) = .ok (front, back) := by
  induction front generalizing start with
  | nil =>
    cases back with
    | nil => rfl
    | cons c rest =>
      rw [List.nil_append, cutFrom, String.utf8Len_nil, Nat.add_zero, if_pos (Nat.le_refl _)]
  | cons c rest ih =>
    have hpos := c.utf8Size_pos
    have hplace : start + String.utf8Len (c :: rest) =
        start + c.utf8Size + String.utf8Len rest := by
      rw [String.utf8Len_cons]
      omega
    rw [hplace, List.cons_append, cutFrom, if_neg (by omega), if_neg (by omega), ih]
    rfl

/-- A text can be cut where a part of it ends. -/
theorem cut_append (front back : List Char) :
    cut (String.ofList front).utf8ByteSize (String.ofList (front ++ back)) =
      .ok (front, back) := by
  have hcut := cutFrom_append 0 front back
  rw [Nat.zero_add] at hcut
  rw [cut, String.utf8ByteSize_ofList, String.toList_ofList, hcut]

end Exchange.Text

namespace Exchange.Http.MediaType

/-- A media type is the same as itself. -/
theorem same_self (m : MediaType) : m.same? m = .ok true := by
  unfold same?
  dsimp only
  split
  · rw [beq_self_eq_true]
  · next name hleading =>
    obtain ⟨mark, behind, htext, hname⟩ := m.legible name hleading
    split
    · rw [beq_self_eq_true]
    · have hcut : Text.cut m.essence.utf8ByteSize m.text =
          .ok (m.essence.toList, mark :: behind) := by
        have hcut := Text.cut_append m.essence.toList (mark :: behind)
        rwa [String.ofList_toList, ← htext] at hcut
      have hlong : ¬ m.text.utf8ByteSize ≤ m.essence.utf8ByteSize := by
        have hpos := mark.utf8Size_pos
        have hessence := String.utf8ByteSize_ofList m.essence.toList
        rw [String.ofList_toList] at hessence
        rw [htext, String.utf8ByteSize_ofList, String.utf8Len_append, String.utf8Len_cons]
        omega
      rw [if_neg hlong, hcut]
      show Except.ok (String.ofList m.essence.toList == m.essence &&
        nameIn? behind == some name) = _
      rw [hname, String.ofList_toList, beq_self_eq_true, beq_self_eq_true]
      rfl

end Exchange.Http.MediaType
