import Exchange.Multipart.Replay
import Exchange.Proofs.Multipart.Inventory
import Exchange.Proofs.Multipart.Upkeep
import Mathlib

/-!
Every chunk buffer comes back exactly once.

The account of a replay's buffers stays in step with the fragments that the replay still holds
(`Tally.Owes`): a fragment that a demultiplexer takes is given back before the poll is over,
whether it was empty, stored, refused or completed a part, and a cancel gives the rest back
(`buffers_returned`). Which buffers are counted is left open, so the account may just as well be
that of one single chunk, which comes back once and not again.
-/
namespace Exchange.Multipart

/-! ### Replays -/

/-- The buffer of an event. -/
def Event.buffer? : Event → Option Buffer
  | .fragment f => some f.data
  | _ => none

/-- The buffers of the fragments among some events. -/
def buffersOf (events : List Event) : List Buffer := events.filterMap Event.buffer?

theorem owes_acquire (events : List Event) (t : Tally) (held : List Buffer) (h : t.Owes held) :
    (events.foldl Event.acquire t).Owes (held ++ buffersOf events) := by
  induction events generalizing t held with
  | nil => simpa [buffersOf] using h
  | cons e rest ih =>
    cases e with
    | fragment f =>
      have hnext := ih _ _ (h.acquire (b := f.data))
      rw [List.append_assoc] at hnext
      exact hnext
    | pause => exact ih t held h
    | fault fault => exact ih t held h

theorem owes_release (events : List Event) (t : Tally) (h : t.Owes (buffersOf events)) :
    (events.foldl Event.release t).Owes [] := by
  induction events generalizing t with
  | nil => exact h
  | cons e rest ih =>
    cases e with
    | fragment f => exact ih _ (Tally.Owes.release h)
    | pause => exact ih t h
    | fault fault => exact ih t h

namespace Replay

/-- The account of a replay is that of the fragments it still holds. -/
def Accounted (r : Replay) : Prop := r.tally.Owes (buffersOf r.events)

theorem accounted_ofEvents (events : List Event) (complete eager : Bool) :
    (ofEvents events complete eager).Accounted := by
  have hnone : Tally.Owes {} [] := ⟨rfl, rfl⟩
  have hall := owes_acquire events {} [] hnone
  rw [List.nil_append] at hall
  exact hall

theorem poll_other {r r' : Replay} {answer : Delivery} (h : r.poll = (answer, r'))
    (hnone : answer.fragment? = none) :
    r'.tally = r.tally ∧ buffersOf r'.events = buffersOf r.events := by
  unfold poll at h
  split at h
  · cases h
    exact ⟨rfl, rfl⟩
  · next he =>
    cases h
    exact ⟨rfl, by rw [he]; rfl⟩
  · next he =>
    cases h
    exact ⟨rfl, by rw [he]; rfl⟩
  · split at h
    · cases h
      exact ⟨rfl, rfl⟩
    · cases h
      cases hnone

/-- All buffers that a replay still holds are counted. -/
def Counted (r : Replay) : Prop := ∀ b ∈ buffersOf r.events, b.counted = true

/-- A demultiplexer keeps the account of its replay. -/
theorem accounted_kept : Supply.Kept Accounted where
  request _ _ h := h
  cancel r h := owes_release r.events r.tally h
  fragment f r r' h hp := by
    obtain ⟨rest, he, rfl⟩ := poll_fragment hp
    unfold Accounted at h
    rw [he] at h
    exact Tally.Owes.release h
  other answer r r' h hp hnone := by
    obtain ⟨htally, hevents⟩ := poll_other hp hnone
    unfold Accounted
    rw [htally, hevents]
    exact h

/-- A replay never gets new buffers. -/
theorem counted_kept : Supply.Kept Counted where
  request _ _ h := h
  cancel _ _ := fun _ hb => absurd hb List.not_mem_nil
  fragment f r r' h hp := by
    obtain ⟨rest, he, rfl⟩ := poll_fragment hp
    unfold Counted at h
    rw [he] at h
    exact fun b hb => h b (List.mem_cons_of_mem _ hb)
  other answer r r' h hp hnone := by
    obtain ⟨-, hevents⟩ := poll_other hp hnone
    unfold Counted
    rw [hevents]
    exact h

end Replay

/-! ### Ended demultiplexers -/

namespace Demux

section Terminated

variable {σ : Type} [Supply σ]

theorem terminated_store (field : Field) (data : Buffer) (d : Demux σ) :
    (d.store field data).2.terminated = d.terminated := by
  unfold store
  dsimp only
  split
  · rfl
  · split
    · rfl
    · split <;> rfl

omit [Supply σ] in
theorem terminated_close (name : String) (d : Demux σ) :
    (d.close name).2.terminated = d.terminated := by
  unfold close
  split
  · rfl
  · dsimp only
    split
    · rfl
    · split <;> rfl

theorem terminated_combine (f : Fragment) (d : Demux σ) :
    (d.combine f).2.terminated = d.terminated := by
  have hstore := terminated_store f.field f.data d
  unfold combine
  dsimp only
  split
  · split
    · exact terminated_close ..
    · rfl
  · split
    · next h =>
      rw [h] at hstore
      exact hstore
    · next h =>
      rw [h] at hstore
      split
      · exact (terminated_close ..).trans hstore
      · exact hstore

/-- Taking a fragment in ends nothing. -/
theorem terminated_accept (f : Fragment) (d : Demux σ) :
    (d.accept f).2.terminated = d.terminated := by
  unfold accept
  split
  · rfl
  · next flow _ =>
    have hcombine := terminated_combine f { d with flow }
    split
    · next h =>
      rw [h] at hcombine
      exact hcombine
    · next h =>
      rw [h] at hcombine
      exact hcombine

end Terminated

/-- Once it has ended, a demultiplexer has left no events with its replay. -/
def Cleared (d : Demux Replay) : Prop := d.terminated = true → d.source.events = []

theorem cleared_request {d : Demux Replay} (h : d.Cleared) (n : Nat) : (d.request n).Cleared := by
  intro ht
  unfold request at ht ⊢
  split at ht
  · next hd => simp [hd, h hd]
  · next hd => exact absurd ht hd

theorem cleared_cancel {d : Demux Replay} (h : d.Cleared) : d.cancel.Cleared := by
  intro ht
  unfold cancel at ht ⊢
  split
  · next hd => exact h hd
  · rfl

/-- A replay completes when nothing is left of it. -/
theorem cleared_pull {d : Demux Replay} (h : d.terminated = false) : d.pull.2.Cleared := by
  have hopen : ∀ {e : Demux Replay}, e.terminated = false → e.Cleared := by
    intro e he ht
    rw [he] at ht
    cases ht
  have haccept : ∀ {e e' : Demux Replay} {f s result}, e.terminated = false →
      { e with source := s }.accept f = (result, e') → e'.terminated = false := by
    intro e e' f s result he ha
    have hterminated := terminated_accept f { e with source := s }
    rw [ha] at hterminated
    exact hterminated.trans he
  refine pull_rule (fun e => e.terminated = false) (fun _ e => e.Cleared) ?_ ?_ ?_ ?_ ?_ ?_ ?_ d h
  · exact fun e s he _ => hopen he
  · exact fun e fault s _ _ _ => rfl
  · intro e s he hp _
    change e.source.poll = _ at hp
    unfold Replay.poll at hp
    split at hp
    · next hnone =>
      cases Prod.mk.inj hp with
      | intro _ hs => exact hs ▸ hnone
    · cases hp
    · cases hp
    · split at hp <;> cases hp
  · exact fun e f s fault e' _ _ _ _ => rfl
  · exact fun e f s m e' he _ ha => hopen (haccept he ha)
  · exact fun e f s p e' he _ ha => hopen (haccept he ha)
  · exact fun e f s e' he _ ha => haccept he ha

theorem cleared_next {d : Demux Replay} (h : d.Cleared) : d.next.2.Cleared := by
  cases ht : d.terminated with
  | true =>
    unfold next
    rw [if_pos ht]
    exact h
  | false =>
    unfold next
    rw [ht, if_neg (by decide)]
    split
    · exact fun _ => rfl
    · split
      · refine cleared_pull ?_
        unfold request
        rw [if_neg (by rw [ht]; decide)]
        exact ht
      · exact cleared_pull ht

theorem cleared_after {d : Demux Replay} (uses : List Use) (h : d.Cleared) :
    (d.after uses).Cleared := by
  induction uses generalizing d with
  | nil => exact h
  | cons u rest ih =>
    refine ih ?_
    cases u with
    | request n => exact cleared_request h n.toNat
    | poll => exact cleared_next h
    | cancel => exact cleared_cancel h

end Demux

/-- **Buffers returned.** Whatever is done with a demultiplexer over a replay, after every use the
buffers handed out and not back yet are those of the fragments that the replay still holds. Once the
demultiplexer is dropped nothing is held and everything is back. -/
theorem buffers_returned (limits : Limits) (events : List Event) (complete eager : Bool)
    (uses : List Use) :
    let d := Demux.after uses { source := Replay.ofEvents events complete eager, limits }
    d.source.tally.Owes (buffersOf d.source.events) ∧
      ((∀ b ∈ buffersOf events, b.counted = true) →
        d.source.tally.acquired =
          d.source.tally.released + (buffersOf d.source.events).length ∧
        d.source.tally.outstanding = ((buffersOf d.source.events).map Buffer.size).sum) ∧
      buffersOf d.drop.source.events = [] ∧ d.drop.source.tally.balanced = true := by
  intro d
  have hstart := Replay.accounted_ofEvents events complete eager
  have howes : d.source.tally.Owes (buffersOf d.source.events) :=
    Replay.accounted_kept.after uses hstart
  refine ⟨howes, fun hall => ?_, ?_⟩
  · have hcounted : d.source.Counted := Replay.counted_kept.after uses hall
    obtain ⟨hacquired, houtstanding⟩ := howes
    rw [List.countP_eq_length.mpr hcounted] at hacquired
    rw [List.filter_eq_self.mpr hcounted] at houtstanding
    exact ⟨hacquired, houtstanding⟩
  · have hcleared : d.Cleared := Demux.cleared_after uses nofun
    have hempty : d.cancel.source.events = [] := by
      refine Demux.cleared_cancel hcleared ?_
      unfold Demux.cancel
      split
      · assumption
      · rfl
    have hback : d.cancel.source.Accounted := Replay.accounted_kept.giveUp howes
    unfold Replay.Accounted at hback
    rw [hempty] at hback
    refine ⟨?_, hback.balanced⟩
    show buffersOf d.cancel.source.events = []
    rw [hempty]
    rfl

/-- Three fields. The empty one holds nothing to complete, and the first grows too large in the
end. -/
def threeFields : List Event :=
  [.fragment ⟨{ name := "a" }, { bytes := [1] }, false⟩,
    .fragment ⟨{ name := "b" }, { bytes := [] }, true⟩,
    .fragment ⟨{ name := "c" }, { bytes := [4] }, true⟩,
    .fragment ⟨{ name := "a" }, { bytes := [2, 3] }, true⟩]

/-- One part of them has been read. -/
def halfRead : Demux Replay :=
  .after [.request 1, .poll]
    { source := .ofEvents threeFields true false, limits := { maxPart := 2 } }

theorem buffers_returned_halfRead :
    (∀ b ∈ buffersOf threeFields, b.counted = true) ∧
      halfRead.source.tally.released = 3 ∧ halfRead.source.tally.outstanding = 2 ∧
      halfRead.drop.source.tally.balanced = true := by
  have hall : ∀ b ∈ buffersOf threeFields, b.counted = true := by decide
  have hacquired : halfRead.source.tally.acquired = 4 := by cbv
  have hleft : buffersOf halfRead.source.events = [{ bytes := [2, 3] }] := by cbv
  obtain ⟨-, hcounts, -, hbalanced⟩ :=
    buffers_returned { maxPart := 2 } threeFields true false [.request 1, .poll]
  have hreleased : halfRead.source.tally.acquired =
      halfRead.source.tally.released + (buffersOf halfRead.source.events).length := (hcounts hall).1
  have houtstanding : halfRead.source.tally.outstanding =
      ((buffersOf halfRead.source.events).map Buffer.size).sum := (hcounts hall).2
  rw [hleft] at hreleased houtstanding
  rw [hacquired, List.length_singleton] at hreleased
  exact ⟨hall, by omega, houtstanding, hbalanced⟩

end Exchange.Multipart
