import Exchange.Multipart.Awaited
import Exchange.Proofs.Multipart.Termination

/-!
What a supply is owed when its body is over.

A `Repaid` supply enters the buffers it gets back, and a watched one of those has both sides of its
account on record: the fragments it delivered are among its calls, their buffers among what came
back. Whatever is done with a demultiplexer over it, the two sides agree and nobody has given the
supply up (`Square`), and the calls are those of a body that runs or has ended (`Standing`). So once
the demultiplexer is given up the supply is `Settled` (`Sound.settled`).
-/
namespace Exchange.Multipart

/-! ### Buffers that came back -/

/-- A supply with the buffers that it got back, in sequence. -/
structure Repaid (σ : Type) where
  source : σ
  returned : List Buffer := []

namespace Repaid

section Supplies

variable {σ : Type} [Supply σ]

def poll (r : Repaid σ) : Delivery × Repaid σ :=
  let (answer, source) := Supply.poll r.source
  (answer, { r with source })

instance : Supply (Repaid σ) where
  giveBack b r := ⟨Pool.giveBack b r.source, r.returned ++ [b]⟩
  request n r := { r with source := Supply.request n r.source }
  cancel r := { r with source := Supply.cancel r.source }
  poll := poll
  drop r := { r with source := Supply.drop r.source }
  ready r := Supply.ready r.source
  ready_request n r := Supply.ready_request n r.source
  ready_giveBack b r := Supply.ready_giveBack b r.source
  ready_poll r f r' h := by
    simp only [poll, Prod.mk.injEq] at h
    obtain ⟨ha, rfl⟩ := h
    exact Supply.ready_poll r.source f _ (Prod.ext ha rfl)

end Supplies

/-- What happens to a supply brings no buffer back. -/
def happen {σ ε : Type} (act : ε → σ → σ) (e : ε) (r : Repaid σ) : Repaid σ :=
  { r with source := act e r.source }

end Repaid

/-- Whoever waits for a supply waits for it on record, too. -/
instance {σ : Type} [Awaited σ] : Awaited (Repaid σ) where
  wait := Repaid.happen (fun _ : Unit => Awaited.wait) ()
  patience r := Awaited.patience r.source

instance {σ : Type} [Awaited σ] : Awaited (Watched σ) where
  wait := Watched.happen (fun _ : Unit => Awaited.wait) ()
  patience w := Awaited.patience w.source

variable {σ ε : Type} [Supply σ]

/-! ### Uses and events -/

/-- What whoever has a demultiplexer makes of it in one go, or an event in the world outside. -/
inductive Demux.Goes (act : ε → σ → σ) : Demux σ → Demux σ → Prop where
  | request (n : Nat) (d : Demux σ) : Demux.Goes act d (d.request n)
  | poll (d : Demux σ) : Demux.Goes act d d.next.2
  | cancel (d : Demux σ) : Demux.Goes act d d.cancel
  | happen (e : ε) (d : Demux σ) : Demux.Goes act d { d with source := act e d.source }

theorem Supply.Kept.goes {act : ε → σ → σ} {keeps : σ → Prop} {d d' : Demux σ}
    (h : Supply.Kept keeps) (hgoes : d.Goes act d') (hact : ∀ e s, keeps s → keeps (act e s))
    (hd : keeps d.source) : keeps d'.source := by
  cases hgoes with
  | request n => exact h.demand n hd
  | poll => exact h.next hd
  | cancel => exact h.giveUp hd
  | happen e => exact hact e _ hd

theorem Standing.goes {act : ε → σ → σ} {d d' : Demux (Watched σ)} (h : Standing d)
    (hgoes : d.Goes (Watched.happen act) d') : Standing d' := by
  cases hgoes with
  | request n =>
    cases hd : d.terminated with
    | true =>
      rw [Demux.request_terminated hd]
      exact h
    | false => exact ((h.going hd).request n).standing
  | poll =>
    have hturn : Standing (d.turn (Watched.happen act) (.use .poll)) := h.turn _
    exact hturn
  | cancel => exact h.cancel
  | happen e => exact h.turn (.happen e)

/-! ### Both sides of the account -/

/-- The buffers that came back are those of the fragments that were delivered, and the supply is
still there. -/
structure Square (w : Watched (Repaid σ)) : Prop where
  repaid : w.source.returned = (takenOf w.calls).map Fragment.data
  present : .drop ∉ w.calls

omit [Supply σ] in
/-- A call that neither brings a fragment nor gives the supply up leaves the account square. -/
theorem Square.called {w w' : Watched (Repaid σ)} {c : Call} (h : Square w)
    (hcalls : w'.calls = w.calls ++ [c]) (hreturned : w'.source.returned = w.source.returned)
    (hnone : takenOf [c] = []) (hc : c ≠ .drop) : Square w' := by
  refine ⟨?_, ?_⟩
  · rw [hcalls, takenOf_append, hnone, List.append_nil, hreturned]
    exact h.repaid
  · rw [hcalls, List.mem_append, List.mem_singleton]
    exact fun hmem => hmem.elim h.present fun heq => hc heq.symm

theorem Square.kept : Supply.Kept (Square (σ := σ)) where
  request n w h := h.called (Watched.calls_request n w) rfl rfl (by simp)
  cancel w h := h.called (Watched.calls_cancel w) rfl rfl (by simp)
  fragment f w w' h hp := by
    have hcalls := Watched.calls_poll hp
    obtain ⟨-, rfl⟩ := Prod.mk.inj hp
    refine ⟨?_, ?_⟩
    · rw [Watched.calls_giveBack, hcalls, takenOf_append, takenOf_fragment, List.map_append,
        ← h.repaid]
      rfl
    · rw [Watched.calls_giveBack, hcalls]
      simpa using h.present
  other answer w w' h hp hnone := by
    have hcalls := Watched.calls_poll hp
    obtain ⟨-, rfl⟩ := Prod.mk.inj hp
    exact h.called hcalls rfl (takenOf_poll hnone) (by simp)

/-- A demultiplexer over a supply whose account is square, with calls that stand for what became of
it. -/
structure Sound (d : Demux (Watched (Repaid σ))) : Prop where
  standing : Standing d
  square : Square d.source

namespace Sound

omit [Supply σ] in
theorem start (limits : Limits) (s : σ) : Sound { source := ⟨⟨s, []⟩, []⟩, limits } :=
  ⟨.start limits _, rfl, List.not_mem_nil⟩

/-- Neither uses nor events make it less sound. -/
theorem goes {act : ε → σ → σ} {d d' : Demux (Watched (Repaid σ))} (h : Sound d)
    (hgoes : d.Goes (Watched.happen (Repaid.happen act)) d') : Sound d' :=
  ⟨h.standing.goes hgoes,
    Square.kept.goes hgoes (fun _ _ hs => ⟨hs.repaid, hs.present⟩) h.square⟩

end Sound

/-! ### The end of the account -/

/-- How a supply has fared that was given up. -/
structure Settled (w : Watched (Repaid σ)) : Prop where
  /-- it was given up once, and that was the last call -/
  dropped : ∃ before, w.calls = before ++ [.drop] ∧ .drop ∉ before
  /-- it was not cancelled if it had completed -/
  completed : CompletedFirst w.calls → w.calls.countP Call.isCancel = 0
  /-- otherwise it was cancelled once -/
  cancelled : ¬CompletedFirst w.calls → w.calls.countP Call.isCancel = 1
  /-- behind a cancel, a completion or a fault it was not polled -/
  quiet : w.calls.Pairwise fun c later => c.goesOn = false → later.answer? = none
  /-- the buffer of every fragment it delivered came back once -/
  repaid : w.source.returned = (takenOf w.calls).map Fragment.data

theorem Closing.quiet {closing : List Call} (h : Closing closing) :
    (closing ++ [Call.drop]).Pairwise fun c later => c.goesOn = false → later.answer? = none := by
  cases h <;> simp [Call.answer?]

/-- Once it is given up, a sound demultiplexer leaves its supply settled. -/
theorem Sound.settled {d : Demux (Watched (Repaid σ))} (h : Sound d) : Settled d.drop.source := by
  obtain ⟨hcompleted, hcancelled⟩ := h.standing.cancels_drop
  have hsquare : Square d.cancel.source := Square.kept.giveUp h.square
  have hcalls : d.drop.source.calls = d.cancel.source.calls ++ [.drop] := rfl
  obtain ⟨-, front, closing, hclosed, hfront, hclosing⟩ :=
    h.standing.cancel.ended d.terminated_cancel
  refine ⟨⟨_, hcalls, hsquare.present⟩, hcompleted, hcancelled, ?_, ?_⟩
  · rw [hcalls, hclosed, List.append_assoc, List.pairwise_append]
    have hgoes : ∀ c ∈ front, c.goesOn = false → False := by
      intro c hc hends
      rw [hfront c hc] at hends
      cases hends
    refine ⟨List.pairwise_of_forall_mem_list ?_, hclosing.quiet, ?_⟩
    · exact fun c hc _ _ hends => (hgoes c hc hends).elim
    · exact fun c hc _ _ hends => (hgoes c hc hends).elim
  · rw [hcalls, takenOf_append, show takenOf [Call.drop] = [] from rfl, List.append_nil]
    exact hsquare.repaid

end Exchange.Multipart
