/-!
Lower case.

Only the letters of ASCII have a case. What is in lower case stays as it is (`toLower_toLower`). The
characters in front of all letters, such as the blank, are neither changed nor made
(`toLower_eq_iff`).
-/
namespace Exchange.Text

/-- What a capital letter becomes is above all capital letters. -/
theorem toLower_ge {c : Char} (h : c.val ≥ 'A'.val ∧ c.val ≤ 'Z'.val) :
    c.toLower.val ≥ 'a'.val := by
  have hlow := UInt32.le_iff_toNat_le.mp h.1
  have hup := UInt32.le_iff_toNat_le.mp h.2
  unfold Char.toLower
  rw [dif_pos h, ge_iff_le, UInt32.le_iff_toNat_le]
  simp [UInt32.toNat_add] at hlow hup ⊢
  omega

theorem toLower_of_not {c : Char} (h : ¬(c.val ≥ 'A'.val ∧ c.val ≤ 'Z'.val)) : c.toLower = c := by
  unfold Char.toLower
  rw [dif_neg h]

theorem toLower_char (c : Char) : c.toLower.toLower = c.toLower := by
  by_cases h : c.val ≥ 'A'.val ∧ c.val ≤ 'Z'.val
  · refine toLower_of_not fun hagain => ?_
    have hlow := UInt32.le_iff_toNat_le.mp (toLower_ge h)
    have hup := UInt32.le_iff_toNat_le.mp hagain.2
    simp at hlow hup
    omega
  · rw [toLower_of_not h, toLower_of_not h]

theorem toLower_toLower (s : String) : s.toLower.toLower = s.toLower := by
  rw [← String.toList_inj]
  unfold String.toLower
  rw [String.toList_map, String.toList_map, List.map_map]
  exact List.map_congr_left fun c _ => toLower_char c

/-- A character in front of the letters stays itself in lower case, and nothing else becomes it. -/
theorem toLower_eq_iff {c mark : Char} (hmark : mark.val < 'A'.val) :
    c.toLower = mark ↔ c = mark := by
  have hmark' := UInt32.lt_iff_toNat_lt.mp hmark
  by_cases h : c.val ≥ 'A'.val ∧ c.val ≤ 'Z'.val
  · have hlow := UInt32.le_iff_toNat_le.mp (toLower_ge h)
    have hcapital := UInt32.le_iff_toNat_le.mp h.1
    simp at hlow hcapital hmark'
    constructor
    · intro heq
      rw [heq] at hlow
      omega
    · intro heq
      rw [heq] at hcapital
      omega
  · rw [toLower_of_not h]

end Exchange.Text
