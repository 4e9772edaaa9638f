import Exchange.Proofs.Multipart.Intake

/-!
A supply whose calls are on record.

What a demultiplexer asks of its supply, and what it is told, can be read off the `calls` of a
`Watched` one: the fragments it granted, the answers it got, the fragments among them. Watching
changes nothing (`map_next`): the demultiplexer gives the answers that it would give without.
-/
namespace Exchange.Multipart

/-- A call that reaches a supply. -/
inductive Call where
  | request (n : Nat)
  | poll (answer : Delivery)
  | cancel
  | drop

/-- The fragment that an answer brings. -/
def Delivery.fragment? : Delivery → Option Fragment
  | .fragment f => some f
  | _ => none

namespace Call

def answer? : Call → Option Delivery
  | .poll answer => some answer
  | _ => none

/-- The fragments that a call grants. -/
def grant : Call → Nat
  | .request n => n
  | _ => 0

end Call

/-- What a supply answered to the polls among some calls. -/
def answersOf (calls : List Call) : List Delivery := calls.filterMap Call.answer?

/-- The fragments that were taken. -/
def takenOf (calls : List Call) : List Fragment := (answersOf calls).filterMap Delivery.fragment?

/-- How many fragments were requested. -/
def grantedOf : List Call → Nat
  | [] => 0
  | c :: rest => c.grant + grantedOf rest

@[simp] theorem answersOf_append (a b : List Call) :
    answersOf (a ++ b) = answersOf a ++ answersOf b := List.filterMap_append

@[simp] theorem takenOf_append (a b : List Call) : takenOf (a ++ b) = takenOf a ++ takenOf b := by
  simp [takenOf]

@[simp] theorem grantedOf_append (a b : List Call) :
    grantedOf (a ++ b) = grantedOf a + grantedOf b := by
  induction a with
  | nil => exact (Nat.zero_add _).symm
  | cons c rest ih => rw [List.cons_append, grantedOf, grantedOf, ih, Nat.add_assoc]

/-! ### What one call adds -/

@[simp] theorem answersOf_request (n : Nat) : answersOf [.request n] = [] := rfl

@[simp] theorem answersOf_poll (answer : Delivery) : answersOf [.poll answer] = [answer] := rfl

@[simp] theorem takenOf_request (n : Nat) : takenOf [.request n] = [] := rfl

@[simp] theorem takenOf_fragment (f : Fragment) : takenOf [.poll (.fragment f)] = [f] := rfl

theorem takenOf_poll {answer : Delivery} (h : answer.fragment? = none) :
    takenOf [.poll answer] = [] := by
  simp [takenOf, h]

@[simp] theorem grantedOf_request (n : Nat) : grantedOf [.request n] = n := rfl

@[simp] theorem grantedOf_poll (answer : Delivery) : grantedOf [.poll answer] = 0 := rfl

structure Watched (σ : Type) where
  source : σ
  calls : List Call := []

namespace Watched

variable {σ : Type} [Supply σ]

def poll (w : Watched σ) : Delivery × Watched σ :=
  let (answer, source) := Supply.poll w.source
  (answer, ⟨source, w.calls ++ [.poll answer]⟩)

instance : Supply (Watched σ) where
  giveBack b w := { w with source := Pool.giveBack b w.source }
  request n w := ⟨Supply.request n w.source, w.calls ++ [.request n]⟩
  cancel w := ⟨Supply.cancel w.source, w.calls ++ [.cancel]⟩
  poll := poll
  drop w := ⟨Supply.drop w.source, w.calls ++ [.drop]⟩
  ready w := Supply.ready w.source
  ready_request n w := Supply.ready_request n w.source
  ready_giveBack b w := Supply.ready_giveBack b w.source
  ready_poll w f w' h := by
    simp only [poll, Prod.mk.injEq] at h
    obtain ⟨ha, rfl⟩ := h
    exact Supply.ready_poll w.source f _ (Prod.ext ha rfl)

@[simp] theorem calls_request (n : Nat) (w : Watched σ) :
    (Supply.request n w).calls = w.calls ++ [.request n] := rfl

@[simp] theorem calls_cancel (w : Watched σ) : (Supply.cancel w).calls = w.calls ++ [.cancel] := rfl

@[simp] theorem calls_giveBack (b : Buffer) (w : Watched σ) :
    (Pool.giveBack b w : Watched σ).calls = w.calls := rfl

theorem calls_poll {w w' : Watched σ} {answer : Delivery} (h : Supply.poll w = (answer, w')) :
    w'.calls = w.calls ++ [.poll answer] := by
  obtain ⟨ha, rfl⟩ := Prod.mk.inj h
  rw [← ha]

end Watched

/-! ### Supplies that behave alike -/

/-- A way of looking at a supply under which it is another supply, call for call. -/
structure Supply.Faithful {τ σ : Type} [Supply τ] [Supply σ] (view : τ → σ) : Prop where
  giveBack : ∀ b t, view (Pool.giveBack b t) = Pool.giveBack b (view t)
  request : ∀ n t, view (Supply.request n t) = Supply.request n (view t)
  cancel : ∀ t, view (Supply.cancel t) = Supply.cancel (view t)
  poll : ∀ t, Supply.poll (view t) = ((Supply.poll t).1, view (Supply.poll t).2)

theorem Watched.faithful {σ : Type} [Supply σ] : Supply.Faithful (Watched.source (σ := σ)) where
  giveBack _ _ := rfl
  request _ _ := rfl
  cancel _ := rfl
  poll _ := rfl

namespace Demux

variable {τ σ : Type} [Supply τ] [Supply σ] {view : τ → σ}

/-- The demultiplexer with its supply looked at in another way. -/
def map (view : τ → σ) (d : Demux τ) : Demux σ :=
  ⟨view d.source, d.limits, d.flow, d.unfinished, d.received, d.completed, d.terminated⟩

theorem map_request (hv : Supply.Faithful view) (n : Nat) (d : Demux τ) :
    (d.request n).map view = (d.map view).request n := by
  unfold request map
  dsimp only
  split
  · rfl
  · split
    · simp only [hv.request]
    · rfl

theorem map_refill (hv : Supply.Faithful view) (d : Demux τ) :
    d.refill.map view = (d.map view).refill := by
  unfold refill map
  dsimp only
  split
  · simp only [hv.request]
  · rfl

theorem map_stop (hv : Supply.Faithful view) (d : Demux τ) :
    d.stop.map view = (d.map view).stop := by
  simp only [stop, map, hv.cancel]

theorem map_giveBack (hv : Supply.Faithful view) (b : Buffer) (d : Demux τ) :
    (d.giveBack b).map view = (d.map view).giveBack b := by
  simp only [giveBack, map, hv.giveBack]

theorem map_store (hv : Supply.Faithful view) (field : Field) (data : Buffer) (d : Demux τ) :
    (d.map view).store field data =
      ((d.store field data).1, (d.store field data).2.map view) := by
  unfold store
  dsimp only [map, giveBack, Assembly.append]
  rw [← hv.giveBack]
  by_cases hlimit : d.received + data.size > d.limits.maxBody
  · simp only [hlimit, if_true]
  · simp only [hlimit, if_false]
    -- which assembly is next does not depend on the supply
    rw [show assemblyFor field ⟨view d.source, d.limits, d.flow, d.unfinished,
        d.received + data.size, d.completed, d.terminated⟩ =
      assemblyFor field { d with received := d.received + data.size } from rfl]
    cases { d with received := d.received + data.size }.assemblyFor field with
    | error e => rfl
    | ok a =>
      dsimp only
      cases a.extend data.bytes <;> rfl

omit [Supply τ] [Supply σ] in
theorem map_close (name : String) (d : Demux τ) :
    (d.map view).close name = ((d.close name).1, (d.close name).2.map view) := by
  unfold close
  dsimp only [map]
  split
  · rfl
  · split
    · rfl
    · split <;> rfl

theorem map_combine (hv : Supply.Faithful view) (f : Fragment) (d : Demux τ) :
    (d.map view).combine f = ((d.combine f).1, (d.combine f).2.map view) := by
  unfold combine
  dsimp only
  rw [← map_giveBack hv, map_store hv]
  cases List.isEmpty f.data.bytes with
  | true =>
    cases f.final with
    | true => exact map_close ..
    | false => rfl
  | false =>
    rcases d.store f.field f.data with ⟨result, d'⟩
    cases result with
    | error e => rfl
    | ok =>
      cases f.final with
      | true => exact map_close ..
      | false => rfl

theorem map_accept (hv : Supply.Faithful view) (f : Fragment) (d : Demux τ) :
    (d.map view).accept f = ((d.accept f).1, (d.accept f).2.map view) := by
  unfold accept
  rw [show (d.map view).flow = d.flow from rfl]
  cases d.flow.arrive? with
  | none => exact Prod.ext rfl (map_giveBack hv f.data d).symm
  | some flow =>
    have hcombine := map_combine hv f { d with flow }
    dsimp only [map] at hcombine ⊢
    generalize combine f ⟨d.source, d.limits, flow, d.unfinished, d.received, d.completed,
      d.terminated⟩ = combined at hcombine ⊢
    rw [hcombine]
    rcases combined with ⟨result, d'⟩
    cases result with
    | error e => rfl
    | ok part => exact Prod.ext rfl (map_refill hv d').symm

/-- A demultiplexer polls alike, however its supply is looked at. -/
theorem map_pull (hv : Supply.Faithful view) (d : Demux τ) :
    (d.map view).pull = (d.pull.1, d.pull.2.map view) := by
  have hpoll : ∀ {e : Demux τ} {answer s}, Supply.poll e.source = (answer, s) →
      Supply.poll (e.map view).source = (answer, view s) := by
    intro e answer s h
    rw [show (e.map view).source = view e.source from rfl, hv.poll, h]
  have haccept : ∀ {e : Demux τ} {f s result e'}, { e with source := s }.accept f = (result, e') →
      ({ e with source := s }.map view).accept f = (result, e'.map view) := by
    intro e f s result e' h
    rw [map_accept hv, h]
  refine pull_rule (fun e => (e.map view).pull = (d.map view).pull)
    (fun o e => (d.map view).pull = (o, e.map view)) ?_ ?_ ?_ ?_ ?_ ?_ ?_ d rfl
  · intro e s h hp
    rw [← h, pull_eq, hpoll hp]
    rfl
  · intro e fault s h hp
    rw [← h, pull_eq, hpoll hp, map_stop hv]
    rfl
  · intro e s h hp
    rw [← h, pull_eq, hpoll hp]
    rfl
  · intro e f s fault e' h hp ha
    rw [← h, pull_eq, hpoll hp, map_stop hv]
    have haccepted := haccept ha
    dsimp only [map] at haccepted ⊢
    rw [haccepted]
  · intro e f s m e' h hp ha
    rw [← h, pull_eq, hpoll hp]
    have haccepted := haccept ha
    dsimp only [map] at haccepted ⊢
    rw [haccepted]
  · intro e f s p e' h hp ha
    rw [← h, pull_eq, hpoll hp]
    have haccepted := haccept ha
    dsimp only [map] at haccepted ⊢
    rw [haccepted]
  · intro e f s e' h hp ha
    rw [← h, pull_eq (e.map view), hpoll hp]
    have haccepted := haccept ha
    dsimp only [map] at haccepted ⊢
    rw [haccepted]

theorem map_next (hv : Supply.Faithful view) (d : Demux τ) :
    (d.map view).next = (d.next.1, d.next.2.map view) := by
  unfold next
  rw [show (d.map view).terminated = d.terminated from rfl,
    show (d.map view).limits = d.limits from rfl, show (d.map view).flow = d.flow from rfl]
  split
  · rfl
  · split
    · exact Prod.ext rfl (map_stop hv d).symm
    · split
      · rw [← map_request hv, map_pull hv]
      · exact map_pull hv d

end Demux

end Exchange.Multipart
