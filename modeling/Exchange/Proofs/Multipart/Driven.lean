import Exchange.Proofs.Multipart.Intake
import Exchange.Proofs.Multipart.Watched

/-!
All the ways of driving a demultiplexer.

A consumer requests parts and polls, as often and in whatever sequence it likes. `Driven` relates
what it did and what it was told, its `Ledger`, to the demultiplexer that it holds then. Nothing is
assumed of the supply. Whatever is brought about over a supply is brought about over the watched
one, too (`Driven.watched`), where the calls of the supply can be spoken of.
-/
namespace Exchange.Multipart

/-- The part that an answer is. -/
def Outcome.part? : Outcome → Option Part
  | .part p => some p
  | _ => none

theorem Outcome.parts_concat (answers : List Outcome) (o : Outcome) :
    (answers ++ [o]).filterMap part? = answers.filterMap part? ++ o.part?.toList := by
  rw [List.filterMap_append]
  cases hp : o.part? <;> simp [hp]

/-- What a consumer did, and what it was told. -/
structure Ledger where
  /-- the answers to its polls -/
  answers : List Outcome := []
  /-- the parts it requested -/
  demanded : Nat := 0
  /-- its polls that found nothing owed -/
  unprompted : Nat := 0

namespace Ledger

variable {σ : Type} [Supply σ]

def request (n : UInt64) (l : Ledger) : Ledger := { l with demanded := l.demanded + n.toNat }

/-- Enters a poll of `d`. -/
def poll (d : Demux σ) (l : Ledger) : Ledger :=
  { l with
    answers := l.answers ++ [d.next.1]
    unprompted := if !d.terminated && d.flow.owed = 0 then l.unprompted + 1 else l.unprompted }

/-- The parts that were delivered. -/
def parts (l : Ledger) : List Part := l.answers.filterMap Outcome.part?

theorem parts_poll (d : Demux σ) (l : Ledger) :
    (l.poll d).parts = l.parts ++ d.next.1.part?.toList :=
  Outcome.parts_concat l.answers d.next.1

/-- No fault was reported. -/
def Faultless (l : Ledger) : Prop := ∀ e, Outcome.fault e ∉ l.answers

end Ledger

/-- What a consumer can bring about by requests and polls. A poll that panics unwinds its caller, so
it leads nowhere. -/
inductive Driven {σ : Type} [Supply σ] (limits : Limits) (s : σ) : Ledger → Demux σ → Prop where
  | start : Driven limits s {} { source := s, limits }
  | request {l : Ledger} {d : Demux σ} (n : UInt64) : Driven limits s l d →
      Driven limits s (l.request n) (d.request n.toNat)
  | poll {l : Ledger} {d : Demux σ} : Driven limits s l d → (∀ m, d.next.1 ≠ .panicked m) →
      Driven limits s (l.poll d) d.next.2

namespace Demux

variable {σ : Type} [Supply σ]

/-! ### Requests -/

theorem request_terminated {n : Nat} {d : Demux σ} (h : d.terminated = true) :
    d.request n = d := by
  unfold request
  rw [if_pos h]

theorem request_zero (d : Demux σ) : d.request 0 = d := by
  unfold request
  split
  · rfl
  · simp [Flow.demand]

/-- Demand is passed on while nothing is owed. -/
theorem request_first {n : Nat} {d : Demux σ} (h : d.terminated = false) (hn : n ≠ 0)
    (howed : d.flow.owed = 0) :
    d.request n = { d with
      flow := ⟨Count.add 0 n, Count.add d.flow.outstanding n⟩
      source := Supply.request n d.source } := by
  unfold request Flow.demand
  rw [h, if_neg (by decide), if_neg hn, howed, if_neg (Nat.lt_irrefl 0)]
  dsimp only
  rw [if_pos (Nat.pos_of_ne_zero hn)]

/-- Later demand is only counted. -/
theorem request_more {n : Nat} {d : Demux σ} (h : d.terminated = false) (hn : n ≠ 0)
    (howed : 0 < d.flow.owed) :
    d.request n = { d with flow := { d.flow with owed := Count.add d.flow.owed n } } := by
  unfold request Flow.demand
  rw [h, if_neg (by decide), if_neg hn, if_pos howed]
  rfl

theorem refill_first {d : Demux σ} (h : d.flow.outstanding < d.flow.owed) :
    d.refill = { d with
      flow := { d.flow with outstanding := d.flow.outstanding + 1 }
      source := Supply.request 1 d.source } := by
  unfold refill Flow.refill
  rw [if_pos h]
  rfl

theorem refill_none {d : Demux σ} (h : d.flow.owed ≤ d.flow.outstanding) : d.refill = d := by
  unfold refill Flow.refill
  rw [if_neg (Nat.not_lt.mpr h)]
  rfl

/-! ### Polls -/

theorem next_terminated {d : Demux σ} (h : d.terminated = true) : d.next = (.finished, d) := by
  unfold next
  rw [if_pos h]

theorem next_disabled {d : Demux σ} (h : d.terminated = false) (he : d.limits.enabled = false) :
    d.next = (.fault .disabled, d.stop) := by
  unfold next
  rw [h, he]
  rfl

/-- A poll that finds parts owed takes fragments in. -/
theorem next_owed {d : Demux σ} (h : d.terminated = false) (he : d.limits.enabled = true)
    (howed : d.flow.owed ≠ 0) : d.next = d.pull := by
  unfold next
  rw [h, he, if_neg howed]
  rfl

/-- A poll that finds nothing owed requests one part first. -/
theorem next_idle {d : Demux σ} (h : d.terminated = false) (he : d.limits.enabled = true)
    (howed : d.flow.owed = 0) : d.next = (d.request 1).pull := by
  unfold next
  rw [h, he, if_pos howed]
  rfl

end Demux

/-! ### Watched supplies -/

/-- Of a fragment that is taken in the supply gets to know by a request at most. -/
theorem Demux.calls_accept {σ : Type} [Supply σ] {f : Fragment} {part : Option Part}
    {d d' : Demux (Watched σ)} (h : d.accept f = (.ok part, d')) :
    d'.terminated = d.terminated ∧
      (d'.source.calls = d.source.calls ∨ d'.source.calls = d.source.calls ++ [.request 1]) := by
  obtain ⟨flow, grown, d₁, -, hc, rfl⟩ := accept_ok h
  have hcalls : d₁.source.calls = d.source.calls := by
    rw [hc.source, Watched.calls_giveBack]
  rcases Nat.lt_or_ge d₁.flow.outstanding d₁.flow.owed with hlt | hge
  · rw [refill_first hlt]
    exact ⟨hc.terminated, .inr (congrArg (· ++ _) hcalls)⟩
  · rw [refill_none hge]
    exact ⟨hc.terminated, .inl hcalls⟩

theorem Ledger.poll_map {τ σ : Type} [Supply τ] [Supply σ] {view : τ → σ}
    (hv : Supply.Faithful view) (d : Demux τ) (l : Ledger) : l.poll (d.map view) = l.poll d := by
  unfold Ledger.poll
  rw [Demux.map_next hv]
  rfl

/-- What a consumer brings about, it brings about over a watched supply as well, and the calls that
reach the supply are on record then. -/
theorem Driven.watched {σ : Type} [Supply σ] {limits : Limits} {s : σ} {l : Ledger} {d : Demux σ}
    (h : Driven limits s l d) :
    ∃ w : Demux (Watched σ), Driven limits ⟨s, []⟩ l w ∧ w.map Watched.source = d := by
  induction h with
  | start => exact ⟨{ source := ⟨s, []⟩, limits }, .start, rfl⟩
  | request n _ ih =>
    obtain ⟨w, hw, rfl⟩ := ih
    exact ⟨w.request n.toNat, .request n hw, Demux.map_request Watched.faithful _ w⟩
  | poll _ hp ih =>
    obtain ⟨w, hw, rfl⟩ := ih
    have hnext := Demux.map_next Watched.faithful w
    rw [hnext] at hp ⊢
    rw [Ledger.poll_map Watched.faithful]
    exact ⟨w.next.2, .poll hw hp, rfl⟩

end Exchange.Multipart
