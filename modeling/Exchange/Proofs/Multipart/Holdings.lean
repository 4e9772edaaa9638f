import Exchange.Multipart.Field
import Exchange.Proofs.Multipart.Inventory
import Mathlib

/-!
The account knows of every buffer that somebody has.

A buffer lies in a slot, or it is loose, or it is in a fragment. `Holdings` are all of these, over
the account that the slots keep, and a `Handling` is what can be done with them in one go. Each has
some buffers to build and some whose lives it ends, and no others come or go (`Accounted.step`). So
after any number of them the account tells what is live (`live_accounted`). To fill a slot and to
pass a buffer on are sequences of smaller handlings (`step_fill`, `step_passOn`), so that the
moments in between are there, too: when a buffer is replaced, for once both are live.
-/
namespace Exchange.Multipart

attribute [ext] Tally

/-! ### Slots -/

namespace Slots

/-- The buffers in the slots. -/
def buffers (s : Slots) : List Buffer := s.held.map Prod.snd

/-- No slot has two buffers. -/
def Distinct (s : Slots) : Prop := (s.held.map Prod.fst).Nodup

def Vacant (slot : Nat) (s : Slots) : Prop := slot ∉ s.held.map Prod.fst

variable {s : Slots} {slot : Nat}

theorem buffers_vacate (h : s.Distinct) (slot : Nat) :
    s.buffers.Perm ((s.get? slot).toList ++ (s.vacate slot).buffers) :=
  values_perm h slot

theorem distinct_vacate (h : s.Distinct) (slot : Nat) : (s.vacate slot).Distinct :=
  h.sublist (List.filter_sublist.map _)

theorem vacant_vacate (slot : Nat) (s : Slots) : (s.vacate slot).Vacant slot := by
  intro hmem
  obtain ⟨entry, hentry, hslot⟩ := List.mem_map.mp hmem
  exact bne_iff_ne.mp (List.mem_filter.mp hentry).2 hslot

theorem get?_eq_none_iff : s.get? slot = none ↔ s.Vacant slot := by
  unfold get? Vacant
  simp only [List.lookup_eq_none_iff, bne_iff_ne, List.mem_map, not_exists, not_and]
  exact forall₂_congr fun _ _ => ne_comm

theorem get?_vacate (slot : Nat) (s : Slots) : (s.vacate slot).get? slot = none :=
  get?_eq_none_iff.mpr (vacant_vacate slot s)

theorem distinct_place (h : s.Distinct) (hvacant : s.Vacant slot) (b : Buffer) :
    (s.place slot b).Distinct :=
  List.nodup_cons.mpr ⟨hvacant, h⟩

theorem vacant_discard (slot : Nat) (s : Slots) : (s.discard slot).2.Vacant slot := by
  unfold discard
  cases hget : s.get? slot with
  | none => exact get?_eq_none_iff.mp hget
  | some b => exact vacant_vacate slot s

theorem discard_vacant (h : s.get? slot = none) : s.discard slot = (false, s) := by
  rw [discard, h]

theorem distinct_discard (h : s.Distinct) (slot : Nat) : (s.discard slot).2.Distinct := by
  unfold discard
  cases s.get? slot with
  | none => exact h
  | some b => exact distinct_vacate h slot

/-- The buffer of a slot comes back when the slot is discarded. -/
theorem inventory_discard {brought returned other : List Buffer} (hs : s.Distinct)
    (h : Inventory brought returned (s.buffers ++ other) s.tally) (slot : Nat) :
    Inventory brought ((s.get? slot).toList ++ returned)
      ((s.discard slot).2.buffers ++ other) (s.discard slot).2.tally := by
  have hall := h.reorder (.refl _) ((buffers_vacate hs slot).append_right other)
  unfold discard
  cases hget : s.get? slot with
  | none => exact h
  | some b =>
    rw [hget] at hall
    exact hall.release

end Slots

/-! ### Handlings -/

/-- All buffers that somebody has. -/
structure Holdings where
  slots : Slots := {}
  /-- buffers that are in no slot and in no fragment -/
  loose : List Buffer := []
  fragments : List Fragment := []

/-- What can be done with buffers. Loose buffers and fragments are told by their positions. Giving a
buffer back and dropping it are the same. -/
inductive Handling where
  | build (b : Buffer)
  /-- puts a loose buffer into a slot, in place of the one there, which comes back -/
  | put (k slot : Nat)
  /-- takes the buffer of a slot out -/
  | take (slot : Nat)
  | giveBack (k : Nat)
  /-- puts a loose buffer into a new fragment -/
  | wrap (k : Nat) (field : Field) (final : Bool)
  /-- takes a fragment apart -/
  | unwrap (k : Nat)
  /-- drops a fragment with the buffer in it -/
  | drop (k : Nat)
  | fill (slot : Nat) (b : Buffer)
  | discard (slot : Nat)
  | passOn (slot : Nat) (field : Field) (final : Bool)

/-- The buffers that a handling builds. -/
def Handling.builds : Handling → List Buffer
  | .build b => [b]
  | .fill _ b => [b]
  | _ => []

namespace Holdings

/-- The buffers that are live. -/
def live (h : Holdings) : List Buffer :=
  h.slots.buffers ++ (h.loose ++ h.fragments.map Fragment.data)

/-- Takes a buffer back. -/
def release (b : Buffer) (h : Holdings) : Holdings :=
  { h with slots := { h.slots with tally := h.slots.tally.release b } }

def step (h : Holdings) : Handling → Holdings
  | .build b =>
    { h with
      slots := { h.slots with tally := h.slots.tally.acquire b }
      loose := b :: h.loose }
  | .put k slot =>
    match h.loose[k]? with
    | none => h
    | some b =>
      { h with slots := (h.slots.discard slot).2.place slot b, loose := h.loose.eraseIdx k }
  | .take slot =>
    match h.slots.get? slot with
    | none => h
    | some b => { h with slots := h.slots.vacate slot, loose := b :: h.loose }
  | .giveBack k =>
    match h.loose[k]? with
    | none => h
    | some b => { h.release b with loose := h.loose.eraseIdx k }
  | .wrap k field final =>
    match h.loose[k]? with
    | none => h
    | some b =>
      { h with loose := h.loose.eraseIdx k, fragments := ⟨field, b, final⟩ :: h.fragments }
  | .unwrap k =>
    match h.fragments[k]? with
    | none => h
    | some f => { h with loose := f.data :: h.loose, fragments := h.fragments.eraseIdx k }
  | .drop k =>
    match h.fragments[k]? with
    | none => h
    | some f => { h.release f.data with fragments := h.fragments.eraseIdx k }
  | .fill slot b => { h with slots := h.slots.fill slot b }
  | .discard slot => { h with slots := (h.slots.discard slot).2 }
  | .passOn slot field final => { h with slots := (h.slots.passOn slot field final).2 }

def run (h : Holdings) (handlings : List Handling) : Holdings := handlings.foldl step h

/-- The buffers whose lives a handling ends. -/
def ends (h : Holdings) : Handling → List Buffer
  | .put k slot => if h.loose[k]?.isSome then (h.slots.get? slot).toList else []
  | .giveBack k => h.loose[k]?.toList
  | .drop k => h.fragments[k]?.toList.map Fragment.data
  | .fill slot _ => (h.slots.get? slot).toList
  | .discard slot => (h.slots.get? slot).toList
  | _ => []

/-- The buffers whose lives a run ends, the last one first. -/
def endedBy : List Handling → Holdings → List Buffer
  | [], _ => []
  | handling :: rest, h => endedBy rest (h.step handling) ++ h.ends handling

/-- To fill a slot is to build a buffer and to put it there. -/
theorem step_fill (h : Holdings) (slot : Nat) (b : Buffer) :
    h.step (.fill slot b) = (h.step (.build b)).step (.put 0 slot) := rfl

theorem step_take {h : Holdings} {slot : Nat} {b : Buffer} (hget : h.slots.get? slot = some b) :
    h.step (.take slot) = { h with slots := h.slots.vacate slot, loose := b :: h.loose } := by
  dsimp only [step]
  rw [hget]

/-- To pass a buffer on is to take it out, to put it into a fragment, to take that apart, and to put
the buffer back. -/
theorem step_passOn {h : Holdings} {slot : Nat} {b : Buffer} (hget : h.slots.get? slot = some b)
    (field : Field) (final : Bool) :
    h.step (.passOn slot field final) =
      h.run [.take slot, .wrap 0 field final, .unwrap 0, .put 0 slot] := by
  have hput : ((h.slots.vacate slot).discard slot).2 = h.slots.vacate slot := by
    rw [Slots.discard_vacant (Slots.get?_vacate slot h.slots)]
  show _ = (((h.step (.take slot)).step (.wrap 0 field final)).step (.unwrap 0)).step (.put 0 slot)
  rw [step_take hget]
  show _ = { h with slots := ((h.slots.vacate slot).discard slot).2.place slot b }
  rw [hput]
  dsimp only [step, Slots.passOn]
  rw [hget]

/-! ### What the account tells -/

/-- The bytes of the buffers that are counted. -/
def bytesCounted (bs : List Buffer) : Nat := ((bs.filter Buffer.counted).map Buffer.size).sum

theorem bytesCounted_append (a b : List Buffer) :
    bytesCounted (a ++ b) = bytesCounted a + bytesCounted b := by
  simp [bytesCounted]

/-- What is outstanding and what came back make up all that came. -/
theorem outstanding_all {t : Tally} {brought returned held : List Buffer}
    (h : Inventory brought returned held t) :
    t.outstanding + bytesCounted returned = bytesCounted brought := by
  have hall := ((h.conserved.filter Buffer.counted).map Buffer.size).sum_eq
  rw [h.outstanding]
  exact (bytesCounted_append held returned).symm.trans hall.symm

theorem bytesCounted_eq_zero {bs : List Buffer} (h : ∀ b ∈ bs, b.counted = false) :
    bytesCounted bs = 0 := by
  rw [bytesCounted, List.filter_eq_nil_iff.mpr fun b hb => by rw [h b hb]; decide]
  rfl

/-- Holdings after `brought` was built, while the lives of `returned` have ended. -/
structure Accounted (brought returned : List Buffer) (h : Holdings) : Prop where
  distinct : h.slots.Distinct
  inventory : Inventory brought returned h.live h.slots.tally

namespace Accounted

variable {h : Holdings} {brought returned : List Buffer}

theorem start : Accounted [] [] {} := ⟨List.nodup_nil, .start⟩

theorem build (hacc : Accounted brought returned h) (b : Buffer) :
    Accounted (brought ++ [b]) returned (h.step (.build b)) := by
  refine ⟨hacc.distinct, (hacc.inventory.acquire b).reorder (.refl _) ?_⟩
  exact List.perm_middle.symm

theorem put (hacc : Accounted brought returned h) (k slot : Nat) :
    Accounted brought (h.ends (.put k slot) ++ returned) (h.step (.put k slot)) := by
  dsimp only [step, ends]
  cases hk : h.loose[k]? with
  | none => exact hacc
  | some b =>
    refine ⟨Slots.distinct_place (Slots.distinct_discard hacc.distinct slot)
      (Slots.vacant_discard slot h.slots) b, ?_⟩
    have hback := Slots.inventory_discard hacc.distinct hacc.inventory slot
    refine hback.reorder (.refl _) ?_
    refine (((perm_cons_eraseIdx hk).append_right _).append_left _).trans ?_
    exact List.perm_middle

theorem take (hacc : Accounted brought returned h) (slot : Nat) :
    Accounted brought returned (h.step (.take slot)) := by
  have hall := Slots.buffers_vacate hacc.distinct slot
  cases hget : h.slots.get? slot with
  | none =>
    dsimp only [step]
    rw [hget]
    exact hacc
  | some b =>
    rw [hget] at hall
    rw [step_take hget]
    refine ⟨Slots.distinct_vacate hacc.distinct slot, hacc.inventory.reorder (.refl _) ?_⟩
    exact (hall.append_right _).trans List.perm_middle.symm

theorem giveBack (hacc : Accounted brought returned h) (k : Nat) :
    Accounted brought (h.ends (.giveBack k) ++ returned) (h.step (.giveBack k)) := by
  dsimp only [step, ends]
  cases hk : h.loose[k]? with
  | none => exact hacc
  | some b =>
    refine ⟨hacc.distinct, Inventory.release (hacc.inventory.reorder (.refl _) ?_)⟩
    exact (((perm_cons_eraseIdx hk).append_right _).append_left _).trans List.perm_middle

theorem wrap (hacc : Accounted brought returned h) (k : Nat) (field : Field) (final : Bool) :
    Accounted brought returned (h.step (.wrap k field final)) := by
  dsimp only [step]
  cases hk : h.loose[k]? with
  | none => exact hacc
  | some b =>
    refine ⟨hacc.distinct, hacc.inventory.reorder (.refl _) (.append_left _ ?_)⟩
    exact ((perm_cons_eraseIdx hk).append_right _).trans List.perm_middle.symm

theorem unwrap (hacc : Accounted brought returned h) (k : Nat) :
    Accounted brought returned (h.step (.unwrap k)) := by
  dsimp only [step]
  cases hk : h.fragments[k]? with
  | none => exact hacc
  | some f =>
    refine ⟨hacc.distinct, hacc.inventory.reorder (.refl _) (.append_left _ ?_)⟩
    exact (((perm_cons_eraseIdx hk).map Fragment.data).append_left _).trans List.perm_middle

theorem drop (hacc : Accounted brought returned h) (k : Nat) :
    Accounted brought (h.ends (.drop k) ++ returned) (h.step (.drop k)) := by
  dsimp only [step, ends]
  cases hk : h.fragments[k]? with
  | none => exact hacc
  | some f =>
    refine ⟨hacc.distinct, Inventory.release (hacc.inventory.reorder (.refl _) ?_)⟩
    have hfront := (((perm_cons_eraseIdx hk).map Fragment.data).append_left h.loose).trans
      List.perm_middle
    exact (hfront.append_left _).trans List.perm_middle

theorem passOn (hacc : Accounted brought returned h) (slot : Nat) (field : Field) (final : Bool) :
    Accounted brought returned (h.step (.passOn slot field final)) := by
  cases hget : h.slots.get? slot with
  | none =>
    dsimp only [step, Slots.passOn]
    rw [hget]
    exact hacc
  | some b =>
    have hput := (((hacc.take slot).wrap 0 field final).unwrap 0).put 0 slot
    -- the slot is vacant, so putting the buffer back ends no other
    have hnone : ends (((h.step (.take slot)).step (.wrap 0 field final)).step (.unwrap 0))
        (.put 0 slot) = [] := by
      rw [step_take hget]
      exact congrArg Option.toList (Slots.get?_vacate slot h.slots)
    rw [hnone] at hput
    rw [step_passOn hget]
    exact hput

/-- What a handling builds comes into the account, and what it ends is back. -/
theorem step (hacc : Accounted brought returned h) (handling : Handling) :
    Accounted (brought ++ handling.builds) (h.ends handling ++ returned) (h.step handling) := by
  -- most of them build nothing
  have hnone : brought ++ [] = brought := List.append_nil brought
  cases handling with
  | build b => exact hacc.build b
  | put k slot => exact hnone.symm ▸ hacc.put k slot
  | take slot => exact hnone.symm ▸ hacc.take slot
  | giveBack k => exact hnone.symm ▸ hacc.giveBack k
  | wrap k field final => exact hnone.symm ▸ hacc.wrap k field final
  | unwrap k => exact hnone.symm ▸ hacc.unwrap k
  | drop k => exact hnone.symm ▸ hacc.drop k
  | fill slot b =>
    rw [step_fill]
    exact (hacc.build b).put 0 slot
  | discard slot =>
    exact hnone.symm ▸ ⟨Slots.distinct_discard hacc.distinct slot,
      Slots.inventory_discard hacc.distinct hacc.inventory slot⟩
  | passOn slot field final => exact hnone.symm ▸ hacc.passOn slot field final

theorem run (hacc : Accounted brought returned h) (handlings : List Handling) :
    Accounted (brought ++ handlings.flatMap Handling.builds) (endedBy handlings h ++ returned)
      (h.run handlings) := by
  induction handlings generalizing h brought returned with
  | nil => exact (List.append_nil brought).symm ▸ hacc
  | cons handling rest ih =>
    have hrest := ih (hacc.step handling)
    rw [List.append_assoc, ← List.append_assoc (endedBy ..)] at hrest
    exact hrest

/-- A handling moves the account by what it builds and what it ends. -/
theorem moves (hacc : Accounted brought returned h) (handling : Handling) :
    (h.step handling).slots.tally.acquired =
        h.slots.tally.acquired + handling.builds.countP Buffer.counted ∧
      (h.step handling).slots.tally.released =
        h.slots.tally.released + (h.ends handling).countP Buffer.counted ∧
      (h.step handling).slots.tally.outstanding + bytesCounted (h.ends handling) =
        h.slots.tally.outstanding + bytesCounted handling.builds := by
  have hnext := (hacc.step handling).inventory
  have hbytes := outstanding_all hacc.inventory
  have hbytes' := outstanding_all hnext
  rw [bytesCounted_append, bytesCounted_append] at hbytes'
  refine ⟨?_, ?_, by omega⟩
  · rw [hnext.acquired_all, hacc.inventory.acquired_all, List.countP_append]
  · rw [hnext.released, hacc.inventory.released, List.countP_append, Nat.add_comm]

end Accounted

end Holdings

/-- **The account of what is live.** Whatever is done with buffers, those that were built are, each
as often as it was, those that are live and those whose lives have ended, and the account has each
of the former acquired, each of the latter released, once, if it is counted. So no more are released
than acquired, the difference is the number of counted buffers that are live, their bytes are
outstanding, and the account is balanced exactly if there are none. The next handling takes off
exactly the bytes that it ends and adds exactly those that it builds. If none of these buffers is
counted it leaves the account alone. -/
theorem live_accounted (handlings : List Handling) (more : Handling) :
    let h := Holdings.run {} handlings
    let t := h.slots.tally
    let built := handlings.flatMap Handling.builds
    let ended := Holdings.endedBy handlings {}
    built.Perm (h.live ++ ended) ∧
      t.acquired = built.countP Buffer.counted ∧ t.released = ended.countP Buffer.counted ∧
      t.released ≤ t.acquired ∧ t.acquired - t.released = h.live.countP Buffer.counted ∧
      t.outstanding = ((h.live.filter Buffer.counted).map Buffer.size).sum ∧
      (t.balanced = true ↔ ∀ b ∈ h.live, b.counted = false) ∧
      (h.step more).slots.tally.outstanding +
          (((h.ends more).filter Buffer.counted).map Buffer.size).sum =
        t.outstanding + ((more.builds.filter Buffer.counted).map Buffer.size).sum ∧
      ((∀ b ∈ more.builds ++ h.ends more, b.counted = false) → (h.step more).slots.tally = t) := by
  intro h t built ended
  have hacc : Holdings.Accounted built ended h := by
    have hrun := Holdings.Accounted.start.run handlings
    rwa [List.nil_append, List.append_nil] at hrun
  have hlive : t.acquired = t.released + h.live.countP Buffer.counted := hacc.inventory.acquired
  obtain ⟨hacquired, hreleased, hbytes⟩ := hacc.moves more
  refine ⟨hacc.inventory.conserved, hacc.inventory.acquired_all, hacc.inventory.released, by omega,
    by omega, hacc.inventory.outstanding, hacc.inventory.balanced_iff, hbytes, fun hnone => ?_⟩
  obtain ⟨hbuilds, hends⟩ := List.forall_mem_append.mp hnone
  rw [List.countP_eq_zero.mpr fun b hb => by rw [hbuilds b hb]; decide] at hacquired
  rw [List.countP_eq_zero.mpr fun b hb => by rw [hends b hb]; decide] at hreleased
  rw [Holdings.bytesCounted_eq_zero hbuilds, Holdings.bytesCounted_eq_zero hends] at hbytes
  exact Tally.ext hacquired hreleased hbytes

/-- An empty buffer ends up in a fragment, and one that is not counted in the place of one that
is. -/
def wrappedEmpty : List Handling :=
  [.fill 0 ⟨[], true⟩, .fill 1 ⟨[1, 2], true⟩, .fill 1 ⟨[3], false⟩, .take 0,
    .wrap 0 { name := "a" } true]

theorem live_accounted_wrappedEmpty :
    let h := Holdings.run {} wrappedEmpty
    h.live = [⟨[3], false⟩, ⟨[], true⟩] ∧ h.slots.tally = ⟨2, 1, 0⟩ ∧
      h.slots.tally.balanced = false ∧
      (∀ b ∈ (Handling.discard 1).builds ++ h.ends (.discard 1), b.counted = false) ∧
      (h.step (.discard 1)).live = [⟨[], true⟩] ∧
      (h.step (.discard 1)).slots.tally = ⟨2, 1, 0⟩ := by
  intro h
  have htally : h.slots.tally = ⟨2, 1, 0⟩ := by decide
  have hnone : ∀ b ∈ (Handling.discard 1).builds ++ h.ends (.discard 1), b.counted = false := by
    decide
  obtain ⟨-, -, -, -, -, -, hbalanced, -, hsame⟩ := live_accounted wrappedEmpty (.discard 1)
  have hmissed : h.slots.tally.balanced = false := by
    refine Bool.eq_false_iff.mpr fun hall => ?_
    have hempty : true = false := hbalanced.mp hall ⟨[], true⟩ (by decide)
    cases hempty
  exact ⟨by decide, htally, hmissed, hnone, by decide, (hsame hnone).trans htally⟩

end Exchange.Multipart
