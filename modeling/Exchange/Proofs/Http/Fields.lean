import Exchange.Http.Message
import Mathlib

/-!
Header fields by name.

Names differ in more than case, and fields keep theirs in lower case, so whoever looks for a name
may write it in any case. Of several fields of one name a look-up finds the first
(`first?_toLower`).
-/
namespace Exchange.Http

/-- The names are the same but for case. -/
def sameName (a b : String) : Bool := a.toLower == b.toLower

/-- What a name is kept as, if it is one. -/
theorem fieldName?_ok {s : String} {name : FieldName} (h : fieldName? s = .ok name) :
    name.text = s.toLower := by
  unfold fieldName? at h
  split at h
  · cases h
    rfl
  · cases h

theorem fieldValue?_ok {s : String} {value : Octets} (h : fieldValue? s = .ok value) :
    value = Octets.ofText s := by
  unfold fieldValue? at h
  dsimp only at h
  split at h
  · cases h
    rfl
  · cases h

namespace Fields

/-- The value of the first field of a name, which may be written in any case. -/
def leading? (name : String) (f : Fields) : Option Octets :=
  (f.entries.find? (sameName name ·.1)).map (·.2)

/-- Some field of that name, which may be written in any case, has that value. -/
def Carries (name : String) (value : Octets) (f : Fields) : Prop :=
  ∃ e ∈ f.entries, sameName name e.1 = true ∧ e.2 = value

variable {f : Fields} {name : String} {value : Octets}

/-- A look-up finds the first field of a name. -/
theorem first?_toLower : f.first? name.toLower = f.leading? name := by
  obtain ⟨entries, hlower⟩ := f
  unfold first? leading?
  dsimp only
  induction entries with
  | nil => rfl
  | cons e rest ih =>
    have hrest := ih fun e he => hlower e (.tail _ he)
    have hname : sameName name e.1 = (name.toLower == e.1) := by
      rw [sameName, hlower e (.head _)]
    rw [List.lookup_cons, List.find?_cons, hname]
    cases name.toLower == e.1 with
    | true => rfl
    | false => exact hrest

theorem carries_of_leading (h : f.leading? name = some value) : f.Carries name value := by
  obtain ⟨e, he, rfl⟩ := Option.map_eq_some_iff.mp h
  obtain ⟨hname, front, back, hentries, -⟩ := List.find?_eq_some_iff_append.mp he
  refine ⟨e, ?_, hname, rfl⟩
  rw [hentries]
  exact List.mem_append_right _ (.head _)

/-- If all fields of a name have one value then it does not matter which of them is found. -/
theorem leading_of_carries (hone : ∀ v w, f.Carries name v → f.Carries name w → v = w)
    (h : f.Carries name value) : f.leading? name = some value := by
  obtain ⟨e, he, hname, rfl⟩ := h
  cases hfound : f.leading? name with
  | none =>
    have hnone := List.find?_eq_none.mp (Option.map_eq_none_iff.mp hfound) e he
    exact absurd hname hnone
  | some v => rw [hone v e.2 (carries_of_leading hfound) ⟨e, he, hname, rfl⟩]

end Fields

end Exchange.Http
