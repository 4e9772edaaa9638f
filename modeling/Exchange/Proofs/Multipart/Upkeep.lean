import Exchange.Proofs.Multipart.Watched

/-!
What a demultiplexer leaves true of its supply.

A demultiplexer touches its supply in four ways only: it requests, it cancels, it polls, and it
gives the buffer of a fragment back before it asks for anything else. So a property of supplies that
these four keep (`Supply.Kept`) holds of the supply behind every demultiplexer, whichever branch its
fragments take (`Kept.next`) and whatever its consumer does (`Kept.after`).
-/
namespace Exchange.Multipart

variable {σ : Type} [Supply σ]

/-- A property of supplies that no call of a demultiplexer breaks. -/
structure Supply.Kept (keeps : σ → Prop) : Prop where
  request : ∀ n s, keeps s → keeps (Supply.request n s)
  cancel : ∀ s, keeps s → keeps (Supply.cancel s)
  fragment : ∀ f s s', keeps s → Supply.poll s = (.fragment f, s') →
    keeps (Pool.giveBack f.data s')
  other : ∀ answer s s', keeps s → Supply.poll s = (answer, s') → answer.fragment? = none →
    keeps s'

namespace Supply.Kept

variable {keeps : σ → Prop} {d d' : Demux σ}

theorem demand (h : Kept keeps) (n : Nat) (hd : keeps d.source) : keeps (d.request n).source := by
  unfold Demux.request
  split
  · exact hd
  · dsimp only
    split
    · exact h.request _ _ hd
    · exact hd

theorem refill (h : Kept keeps) (hd : keeps d.source) : keeps d.refill.source := by
  unfold Demux.refill
  dsimp only
  split
  · exact h.request _ _ hd
  · exact hd

theorem stop (h : Kept keeps) (hd : keeps d.source) : keeps d.stop.source := h.cancel _ hd

theorem giveUp (h : Kept keeps) (hd : keeps d.source) : keeps d.cancel.source := by
  unfold Demux.cancel
  split
  · exact hd
  · exact h.stop hd

/-- A fragment that was polled leaves the property behind, taken in or not. -/
theorem accept (h : Kept keeps) {f : Fragment} {s : σ}
    {result : Except Refusal (Option Part)} (hd : keeps d.source)
    (hp : Supply.poll d.source = (.fragment f, s))
    (ha : { d with source := s }.accept f = (result, d')) : keeps d'.source := by
  have hback := h.fragment f _ _ hd hp
  cases result with
  | error e =>
    rw [Demux.accept_error ha]
    exact hback
  | ok part =>
    obtain ⟨flow, grown, d₁, -, hc, rfl⟩ := Demux.accept_ok ha
    refine h.refill ?_
    rw [hc.source]
    exact hback

theorem pull (h : Kept keeps) (hd : keeps d.source) : keeps d.pull.2.source := by
  refine Demux.pull_rule (fun e => keeps e.source) (fun _ e => keeps e.source)
    ?_ ?_ ?_ ?_ ?_ ?_ ?_ d hd
  · intro e s he hp
    exact h.other _ _ _ he hp rfl
  · intro e fault s he hp
    exact h.stop (h.other _ _ _ he hp rfl)
  · intro e s he hp
    exact h.other _ _ _ he hp rfl
  · intro e f s fault e' he hp ha
    exact h.stop (h.accept he hp ha)
  · intro e f s m e' he hp ha
    exact h.accept he hp ha
  · intro e f s p e' he hp ha
    exact h.accept he hp ha
  · intro e f s e' he hp ha
    exact h.accept he hp ha

/-- Whatever a poll comes to, it leaves the property behind. -/
theorem next (h : Kept keeps) (hd : keeps d.source) : keeps d.next.2.source := by
  unfold Demux.next
  split
  · exact hd
  · split
    · exact h.stop hd
    · split
      · exact h.pull (h.demand 1 hd)
      · exact h.pull hd

end Supply.Kept

/-! ### What a poll takes -/

namespace Demux

variable {d : Demux σ} {p : Part}

/-- A part costs a fragment that was ready. -/
theorem ready_pull : d.pull.1 = .part p →
    Supply.ready d.pull.2.source < Supply.ready d.source := by
  have hless : ∀ {e e' : Demux σ} {f s result}, Supply.poll e.source = (.fragment f, s) →
      { e with source := s }.accept f = (result, e') →
      Supply.ready e'.source < Supply.ready e.source := by
    intro e e' f s result hp ha
    have hle := ready_accept f { e with source := s }
    rw [ha] at hle
    exact Nat.lt_of_le_of_lt hle (Supply.ready_poll _ _ _ hp)
  refine pull_rule (fun e => Supply.ready e.source ≤ Supply.ready d.source)
    (fun o e => o = .part p → Supply.ready e.source < Supply.ready d.source)
    ?_ ?_ ?_ ?_ ?_ ?_ ?_ d (Nat.le_refl _)
  · exact fun e s _ _ => nofun
  · exact fun e fault s _ _ => nofun
  · exact fun e s _ _ => nofun
  · exact fun e f s fault e' _ _ _ => nofun
  · exact fun e f s m e' _ _ _ => nofun
  · exact fun e f s part e' hle hp ha _ => Nat.lt_of_lt_of_le (hless hp ha) hle
  · exact fun e f s e' hle hp ha => Nat.le_trans (Nat.le_of_lt (hless hp ha)) hle

/-- A poll that does not end at once takes fragments in, after it has requested one part if it
must. -/
theorem next_pull (hfinished : d.next.1 ≠ .finished) (hdisabled : d.next.1 ≠ .fault .disabled) :
    d.next = d.pull ∨ d.next = (d.request 1).pull := by
  unfold next at hfinished hdisabled ⊢
  split
  · next hterm => exact absurd (by rw [if_pos hterm]) hfinished
  · next hterm =>
    rw [if_neg hterm] at hdisabled
    split
    · next hoff => exact absurd (by rw [if_pos hoff]) hdisabled
    · split
      · exact .inr rfl
      · exact .inl rfl

theorem ready_next (h : d.next.1 = .part p) :
    Supply.ready d.next.2.source < Supply.ready d.source := by
  rcases next_pull (d := d) (by rw [h]; nofun) (by rw [h]; nofun) with heq | heq
  · rw [heq] at h ⊢
    exact ready_pull h
  · rw [heq] at h ⊢
    exact Nat.lt_of_lt_of_le (ready_pull h) (ready_request 1 d)

end Demux

/-- A poll has to wait only for its supply. -/
theorem Supply.Kept.poll_of_waiting {keeps : σ → Prop} {d : Demux σ} (h : Supply.Kept keeps)
    (hd : keeps d.source) (hwaits : d.next.1 = .waiting) :
    ∃ s, keeps s ∧ Supply.poll s = (.waiting, d.next.2.source) := by
  have hpull : ∀ e : Demux σ, keeps e.source → e.pull.1 = .waiting →
      ∃ s, keeps s ∧ Supply.poll s = (.waiting, e.pull.2.source) := by
    refine fun e => Demux.pull_rule (fun e => keeps e.source)
      (fun o e => o = .waiting → ∃ s, keeps s ∧ Supply.poll s = (.waiting, e.source))
      ?_ ?_ ?_ ?_ ?_ ?_ ?_ e
    · exact fun e s he hp _ => ⟨e.source, he, hp⟩
    · exact fun e fault s _ _ => nofun
    · exact fun e s _ _ => nofun
    · exact fun e f s fault e' _ _ _ => nofun
    · exact fun e f s m e' _ _ _ => nofun
    · exact fun e f s part e' _ _ _ => nofun
    · exact fun e f s e' he hp ha => h.accept he hp ha
  rcases Demux.next_pull (d := d) (by rw [hwaits]; nofun) (by rw [hwaits]; nofun) with heq | heq
  · rw [heq] at hwaits ⊢
    exact hpull _ hd hwaits
  · rw [heq] at hwaits ⊢
    exact hpull _ (h.demand 1 hd) hwaits

/-! ### A consumer's calls -/

/-- What a consumer does with a demultiplexer that it holds. -/
inductive Use where
  | request (n : UInt64)
  | poll
  | cancel

namespace Demux

def use (d : Demux σ) : Use → Demux σ
  | .request n => d.request n.toNat
  | .poll => d.next.2
  | .cancel => d.cancel

/-- The demultiplexer after some uses of it. A poll that panicked counts like any other. -/
def after (uses : List Use) (d : Demux σ) : Demux σ := uses.foldl use d

end Demux

theorem Supply.Kept.use {keeps : σ → Prop} {d : Demux σ} (h : Supply.Kept keeps)
    (hd : keeps d.source) (u : Use) : keeps (d.use u).source := by
  cases u with
  | request n => exact h.demand n.toNat hd
  | poll => exact h.next hd
  | cancel => exact h.giveUp hd

theorem Supply.Kept.after {keeps : σ → Prop} {d : Demux σ} (h : Supply.Kept keeps)
    (uses : List Use) (hd : keeps d.source) : keeps (d.after uses).source := by
  induction uses generalizing d with
  | nil => exact hd
  | cons u rest ih => exact ih (h.use hd u)

end Exchange.Multipart
