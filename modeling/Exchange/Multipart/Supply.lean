import Exchange.Multipart.Field
import Exchange.Multipart.Fault

/-!
Where fragments come from.

A `Supply` delivers fragments on request and ends by completion or by one fault. It takes back the
buffers of the fragments it delivered. Its duties are few: between two requests it can deliver only
finitely many fragments, at most `ready` of them, and neither a request nor a buffer that comes
back makes more of them ready. It need not respect demand.

Two supplies make one: a `Sum` is either of them for its whole life.
-/
namespace Exchange.Multipart

/-- The answer of a supply that is asked for its next fragment. -/
inductive Delivery where
  | waiting
  | fragment (f : Fragment)
  /-- the terminal fault -/
  | failed (fault : Fault)
  | finished

class Supply (σ : Type) extends Pool σ where
  /-- Grants demand for `n` more fragments. -/
  request : Nat → σ → σ
  /-- Stops the subscription. -/
  cancel : σ → σ
  /-- Asks for the next fragment. -/
  poll : σ → Delivery × σ
  /-- Gives the supply up. -/
  drop : σ → σ
  /-- How many fragments it could deliver from here without waiting. -/
  ready : σ → Nat
  ready_request : ∀ n s, ready (request n s) ≤ ready s
  ready_giveBack : ∀ b s, ready (Pool.giveBack b s) ≤ ready s
  ready_poll : ∀ s f s', poll s = (.fragment f, s') → ready s' < ready s

/-! ### One of two supplies -/

namespace Supply

variable {σ τ : Type} [Supply σ] [Supply τ]

def pollSum : σ ⊕ τ → Delivery × (σ ⊕ τ)
  | .inl s => ((poll s).1, .inl (poll s).2)
  | .inr t => ((poll t).1, .inr (poll t).2)

def readySum : σ ⊕ τ → Nat
  | .inl s => ready s
  | .inr t => ready t

instance : Supply (σ ⊕ τ) where
  giveBack b := Sum.map (Pool.giveBack b) (Pool.giveBack b)
  request n := Sum.map (request n) (request n)
  cancel := Sum.map cancel cancel
  poll := pollSum
  drop := Sum.map drop drop
  ready := readySum
  ready_request n s := by cases s <;> exact ready_request n _
  ready_giveBack b s := by cases s <;> exact ready_giveBack b _
  ready_poll s f s' h := by
    cases s <;>
    · simp only [pollSum, Prod.mk.injEq] at h
      obtain ⟨h, rfl⟩ := h
      exact ready_poll _ f _ (Prod.ext h rfl)

end Supply

end Exchange.Multipart
