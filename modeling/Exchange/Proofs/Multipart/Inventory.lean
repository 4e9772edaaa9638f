import Exchange.Multipart.Buffer
import Mathlib

/-!
Accounts of buffers.

A tally owes the buffers that were handed out and have not come back (`Tally.Owes`). An `Inventory`
also has on record what was handed out and what came back, each buffer as often as it was, so that
none can be missing and none can come back twice without its saying so.
-/
namespace Exchange.Multipart

/-! ### What is owed -/

/-- An account of what was handed out while `held` is all that has not come back. -/
structure Tally.Owes (t : Tally) (held : List Buffer) : Prop where
  acquired : t.acquired = t.released + held.countP Buffer.counted
  outstanding : t.outstanding = ((held.filter Buffer.counted).map Buffer.size).sum

namespace Tally.Owes

variable {t : Tally} {b : Buffer} {held : List Buffer}

theorem acquire (h : t.Owes held) : (t.acquire b).Owes (held ++ [b]) := by
  unfold Tally.acquire
  cases hb : b.counted with
  | false =>
    refine ⟨?_, ?_⟩
    · simpa [hb] using h.acquired
    · simpa [hb] using h.outstanding
  | true =>
    refine ⟨?_, ?_⟩
    · simp [hb, h.acquired, Nat.add_assoc]
    · simp [hb, h.outstanding]

theorem release (h : t.Owes (b :: held)) : (t.release b).Owes held := by
  obtain ⟨hacquired, houtstanding⟩ := h
  unfold Tally.release
  cases hb : b.counted with
  | false =>
    refine ⟨?_, ?_⟩
    · simpa [hb] using hacquired
    · simpa [hb] using houtstanding
  | true =>
    rw [List.countP_cons_of_pos hb] at hacquired
    rw [List.filter_cons_of_pos hb, List.map_cons, List.sum_cons] at houtstanding
    refine ⟨?_, ?_⟩
    · simp only [if_true]
      omega
    · simp only [if_true]
      omega

/-- Nothing is missing exactly if nothing that is held is counted. An empty buffer that is counted
is missed, too. -/
theorem balanced_iff (h : t.Owes held) :
    t.balanced = true ↔ ∀ b ∈ held, b.counted = false := by
  obtain ⟨hacquired, houtstanding⟩ := h
  have hcount : t.acquired = t.released ↔ ∀ b ∈ held, b.counted = false := by
    rw [hacquired, Nat.add_eq_left, List.countP_eq_zero]
    simp only [Bool.not_eq_true]
  unfold Tally.balanced
  rw [Bool.and_eq_true, beq_iff_eq, beq_iff_eq, hcount]
  refine ⟨And.left, fun hnone => ⟨hnone, ?_⟩⟩
  rw [houtstanding, List.filter_eq_nil_iff.mpr fun b hb => by rw [hnone b hb]; decide]
  rfl

/-- Nothing is missing once everything has come back. -/
theorem balanced (h : t.Owes []) : t.balanced = true :=
  h.balanced_iff.mpr fun _ hb => absurd hb List.not_mem_nil

end Tally.Owes

/-! ### Taking one out -/

theorem perm_cons_eraseIdx {α : Type} {xs : List α} {k : Nat} {x : α} (h : xs[k]? = some x) :
    xs.Perm (x :: xs.eraseIdx k) := by
  obtain ⟨hlt, rfl⟩ := List.getElem?_eq_some_iff.mp h
  exact (List.getElem_cons_eraseIdx_perm hlt).symm

/-- What is kept under a key, and what is kept besides. -/
theorem values_perm {α β : Type} [DecidableEq α] {xs : List (α × β)}
    (h : (xs.map Prod.fst).Nodup) (key : α) :
    (xs.map Prod.snd).Perm
      ((xs.lookup key).toList ++ (xs.filter (·.1 != key)).map Prod.snd) := by
  induction xs with
  | nil => exact .nil
  | cons entry rest ih =>
    obtain ⟨k, x⟩ := entry
    obtain ⟨hk, hrest⟩ := List.nodup_cons.mp h
    by_cases hkey : key = k
    · subst hkey
      have hother : rest.filter (·.1 != key) = rest := by
        refine List.filter_eq_self.mpr fun y hy => bne_iff_ne.mpr fun heq => hk ?_
        exact List.mem_map.mpr ⟨y, hy, heq⟩
      rw [List.lookup_cons_self, List.filter_cons_of_neg (by simp), hother]
      exact .refl _
    · rw [List.lookup_cons, beq_false_of_ne hkey,
        List.filter_cons_of_pos (by simpa using Ne.symm hkey)]
      exact ((ih hrest).cons x).trans List.perm_middle.symm

/-! ### What came, what is there and what went back -/

/-- An account of buffers of which all were `brought`, some were `returned` and the others are
`held`. -/
structure Inventory (brought returned held : List Buffer) (t : Tally) : Prop
    extends t.Owes held where
  conserved : brought.Perm (held ++ returned)
  released : t.released = returned.countP Buffer.counted

namespace Inventory

variable {t : Tally} {b : Buffer} {brought returned returned' held held' : List Buffer}

theorem start : Inventory [] [] [] {} := ⟨⟨rfl, rfl⟩, .nil, rfl⟩

/-- An inventory does not tell in what sequence the buffers are held, or came back. -/
theorem reorder (h : Inventory brought returned held t) (hreturned : returned.Perm returned')
    (hheld : held.Perm held') : Inventory brought returned' held' t := by
  obtain ⟨⟨hacquired, houtstanding⟩, hconserved, hreleased⟩ := h
  refine ⟨⟨?_, ?_⟩, hconserved.trans (hheld.append hreturned), ?_⟩
  · rw [hacquired, hheld.countP_eq]
  · rw [houtstanding]
    exact ((hheld.filter _).map _).sum_eq
  · rw [hreleased, hreturned.countP_eq]

/-- The account knows of everything that came. -/
theorem acquired_all (h : Inventory brought returned held t) :
    t.acquired = brought.countP Buffer.counted := by
  rw [h.conserved.countP_eq, List.countP_append, h.acquired, h.released, Nat.add_comm]

theorem recount (h : Inventory brought returned held t)
    (hheld : ∀ b, held.count b = held'.count b) : Inventory brought returned held' t :=
  h.reorder (.refl _) (List.perm_iff_count.2 hheld)

theorem acquire (h : Inventory brought returned held t) (b : Buffer) :
    Inventory (brought ++ [b]) returned (b :: held) (t.acquire b) := by
  have howes : (t.acquire b).Owes (held ++ [b]) := h.toOwes.acquire
  have hreleased : (t.acquire b).released = t.released := by
    unfold Tally.acquire
    split <;> rfl
  have hperm : (brought ++ [b]).Perm (b :: held ++ returned) :=
    List.perm_append_comm.trans (h.conserved.cons b)
  refine ⟨⟨?_, ?_⟩, hperm, hreleased.trans h.released⟩
  · rw [howes.acquired, (List.perm_append_comm : (held ++ [b]).Perm _).countP_eq]
    rfl
  · rw [howes.outstanding]
    exact (((List.perm_append_comm : (held ++ [b]).Perm _).filter _).map _).sum_eq

theorem release (h : Inventory brought returned (b :: held) t) :
    Inventory brought (b :: returned) held (t.release b) := by
  refine ⟨h.toOwes.release, h.conserved.trans List.perm_middle.symm, ?_⟩
  rw [List.countP_cons, ← h.released]
  unfold Tally.release
  split <;> simp_all

end Inventory

end Exchange.Multipart
