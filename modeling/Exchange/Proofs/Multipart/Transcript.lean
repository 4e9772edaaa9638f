import Exchange.Multipart.Conduit.Queue
import Exchange.Proofs.Multipart.Watched

/-!
What there is to tell of a body.

The `transcript` of some items is what a demultiplexer makes of them that is handed one after the
other and has all the demand it needs. `Demux.tells` says the same of a demultiplexer on its way. It
depends neither on the supply nor on the counters of the demultiplexer (`Demux.bare`), as long as
parts are owed and fragments are outstanding, and obeys one law for each thing that can become of
the next item.
-/
namespace Exchange.Multipart

/-- The item that an answer brings. -/
def Delivery.item? : Delivery → Option Item
  | .fragment f => some (.ok f)
  | .failed e => some (.error e)
  | .waiting | .finished => none

/-- The items that were delivered. -/
def itemsOf (calls : List Call) : List Item := (answersOf calls).filterMap Delivery.item?

@[simp] theorem itemsOf_append (a b : List Call) : itemsOf (a ++ b) = itemsOf a ++ itemsOf b := by
  simp [itemsOf]

@[simp] theorem itemsOf_request (n : Nat) : itemsOf [.request n] = [] := rfl

@[simp] theorem itemsOf_cancel : itemsOf [.cancel] = [] := rfl

theorem itemsOf_poll (answer : Delivery) : itemsOf [.poll answer] = answer.item?.toList := by
  cases h : answer.item? <;> simp [itemsOf, h]

/-- The fragment that an item is. -/
def Item.fragment? : Item → Option Fragment
  | .ok f => some f
  | .error _ => none

/-- The fragments among some items. -/
def fragmentsIn (items : List Item) : List Fragment := items.filterMap Item.fragment?

@[simp] theorem fragmentsIn_nil : fragmentsIn [] = [] := rfl

@[simp] theorem fragmentsIn_append (a b : List Item) :
    fragmentsIn (a ++ b) = fragmentsIn a ++ fragmentsIn b := List.filterMap_append

@[simp] theorem fragmentsIn_cons_fragment (f : Fragment) (items : List Item) :
    fragmentsIn (.ok f :: items) = f :: fragmentsIn items := rfl

@[simp] theorem fragmentsIn_cons_fault (e : Fault) (items : List Item) :
    fragmentsIn (.error e :: items) = fragmentsIn items := rfl

theorem fragmentsIn_ok (fs : List Fragment) : fragmentsIn (fs.map .ok) = fs := by
  induction fs with
  | nil => rfl
  | cons f fs ih => exact congrArg (f :: ·) ih

/-- The fragments among the items that were delivered were taken. -/
theorem fragmentsIn_itemsOf (calls : List Call) : fragmentsIn (itemsOf calls) = takenOf calls := by
  unfold fragmentsIn itemsOf takenOf
  rw [List.filterMap_filterMap]
  congr 1
  funext answer
  cases answer <;> rfl

/-! ### Without a supply -/

/-- The supply of a demultiplexer that is handed its fragments. -/
structure Unsupplied where

instance : Supply Unsupplied where
  giveBack _ s := s
  request _ s := s
  cancel s := s
  poll s := (.finished, s)
  drop s := s
  ready _ := 0
  ready_request _ _ := Nat.le_refl _
  ready_giveBack _ _ := Nat.le_refl _
  ready_poll _ _ _ h := nomatch h

namespace Demux

variable {σ : Type} [Supply σ]

/-- The demultiplexer without its supply, and with other counters. -/
def bare (flow : Flow) (d : Demux σ) : Demux Unsupplied :=
  ⟨⟨⟩, d.limits, flow, d.unfinished, d.received, d.completed, d.terminated⟩

theorem bare_request (n : Nat) (flow : Flow) (d : Demux σ) :
    (d.request n).bare flow = d.bare flow := by
  unfold request
  split <;> rfl

theorem bare_store (flow : Flow) (field : Field) (data : Buffer) (d : Demux σ) :
    (d.bare flow).store field data =
      ((d.store field data).1, (d.store field data).2.bare flow) := by
  unfold store
  dsimp only [bare, giveBack, Assembly.append]
  by_cases hlimit : d.received + data.size > d.limits.maxBody
  · simp only [hlimit, if_true]
  · simp only [hlimit, if_false]
    -- which assembly is next depends neither on the supply nor on the counters
    rw [show assemblyFor field ⟨Unsupplied.mk, d.limits, flow, d.unfinished,
        d.received + data.size, d.completed, d.terminated⟩ =
      assemblyFor field { d with received := d.received + data.size } from rfl]
    cases { d with received := d.received + data.size }.assemblyFor field with
    | error e => rfl
    | ok a =>
      dsimp only
      cases a.extend data.bytes <;> rfl

omit [Supply σ] in
theorem bare_close {flow : Flow} {d : Demux σ} (howed : 0 < d.flow.owed) (hflow : 0 < flow.owed)
    (name : String) :
    ∃ flow', (d.bare flow).close name = ((d.close name).1, (d.close name).2.bare flow') := by
  unfold close
  dsimp only [bare]
  split
  · exact ⟨flow, rfl⟩
  · split
    · exact ⟨flow, rfl⟩
    · simp only [Flow.deliver?, Nat.ne_of_gt howed, Nat.ne_of_gt hflow, if_false]
      exact ⟨_, rfl⟩

theorem bare_combine {flow : Flow} {d : Demux σ} (howed : 0 < d.flow.owed) (hflow : 0 < flow.owed)
    (f : Fragment) :
    ∃ flow', (d.bare flow).combine f = ((d.combine f).1, (d.combine f).2.bare flow') := by
  unfold combine
  dsimp only
  cases List.isEmpty f.data.bytes with
  | true =>
    cases f.final with
    | true => exact bare_close (d := d.giveBack f.data) howed hflow f.field.name
    | false => exact ⟨flow, rfl⟩
  | false =>
    have hkept := flow_store f.field f.data d
    simp only [Bool.false_eq_true, if_false]
    rw [bare_store]
    generalize d.store f.field f.data = stored at hkept ⊢
    obtain ⟨result, d'⟩ := stored
    cases result with
    | error e => exact ⟨flow, rfl⟩
    | ok =>
      cases f.final with
      | true =>
        exact bare_close (d := d') (hkept ▸ howed) hflow f.field.name
      | false => exact ⟨flow, rfl⟩

/-- As long as the demand lasts, what a fragment comes to depends neither on the supply nor on the
counters. -/
theorem bare_accept {flow : Flow} {d : Demux σ} (houtstanding : 0 < d.flow.outstanding)
    (howed : 0 < d.flow.owed) (f : Fragment) (hflow : 0 < flow.outstanding ∧ 0 < flow.owed) :
    ∃ flow', (d.bare flow).accept f = ((d.accept f).1, (d.accept f).2.bare flow') := by
  unfold accept
  rw [show (d.bare flow).flow = flow from rfl]
  simp only [Flow.arrive?, Nat.ne_of_gt houtstanding, Nat.ne_of_gt hflow.1, if_false]
  have howed' : 0 < ({ flow with outstanding := flow.outstanding - 1 } : Flow).owed := hflow.2
  obtain ⟨flow', hcombine⟩ := bare_combine
    (d := { d with flow := { d.flow with outstanding := d.flow.outstanding - 1 } })
    howed howed' f
  dsimp only [bare] at hcombine ⊢
  rw [hcombine]
  rcases combine f _ with ⟨result, d'⟩
  cases result with
  | error e => exact ⟨flow', rfl⟩
  | ok part => exact ⟨_, rfl⟩

/-! ### What items come to -/

/-- What a demultiplexer tells of the items that it is handed. -/
def tellsFrom : Demux Unsupplied → List Item → List Outcome
  | _, [] => [.finished]
  | _, .error e :: _ => [.fault e]
  | d, .ok f :: rest =>
    match (d.bare ⟨1, 1⟩).accept f with
    | (.error (.fault e), _) => [.fault e]
    | (.error (.panic m), _) => [.panicked m]
    | (.ok part, d) => part.toList.map .part ++ tellsFrom d rest

/-- What a demultiplexer would tell of some items if they came next. -/
def tells (d : Demux σ) (items : List Item) : List Outcome :=
  if d.limits.enabled then (d.bare ⟨1, 1⟩).tellsFrom items else [.fault .disabled]

theorem tellsFrom_bare (flow : Flow) (d : Demux Unsupplied) (items : List Item) :
    (d.bare flow).tellsFrom items = d.tellsFrom items := by
  cases items with
  | nil => rfl
  | cons i rest => cases i <;> rfl

omit [Supply σ] in
theorem tells_disabled {d : Demux σ} (h : d.limits.enabled = false) (items : List Item) :
    d.tells items = [.fault .disabled] := by
  unfold tells
  rw [h]
  rfl

omit [Supply σ] in
theorem tells_nil {d : Demux σ} (h : d.limits.enabled = true) : d.tells [] = [.finished] := by
  unfold tells
  rw [if_pos h]
  rfl

omit [Supply σ] in
theorem tells_fault {d : Demux σ} (h : d.limits.enabled = true) (e : Fault) (rest : List Item) :
    d.tells (.error e :: rest) = [.fault e] := by
  unfold tells
  rw [if_pos h]
  rfl

theorem tells_request (n : Nat) (d : Demux σ) (items : List Item) :
    (d.request n).tells items = d.tells items := by
  have hlimits : (d.request n).limits = d.limits := by
    unfold request
    split <;> rfl
  unfold tells
  rw [bare_request, hlimits]

theorem tells_refused {d d' : Demux σ} {f : Fragment} {e : Fault} (h : d.limits.enabled = true)
    (houtstanding : 0 < d.flow.outstanding) (howed : 0 < d.flow.owed)
    (ha : d.accept f = (.error (.fault e), d')) (rest : List Item) :
    d.tells (.ok f :: rest) = [.fault e] := by
  obtain ⟨flow, hbare⟩ := bare_accept houtstanding howed f
    (show 0 < (⟨1, 1⟩ : Flow).outstanding ∧ 0 < (⟨1, 1⟩ : Flow).owed by decide)
  rw [ha] at hbare
  unfold tells
  rw [if_pos h, tellsFrom, show (d.bare ⟨1, 1⟩).bare ⟨1, 1⟩ = d.bare ⟨1, 1⟩ from rfl, hbare]

theorem tells_torn {d d' : Demux σ} {f : Fragment} {m : String} (h : d.limits.enabled = true)
    (houtstanding : 0 < d.flow.outstanding) (howed : 0 < d.flow.owed)
    (ha : d.accept f = (.error (.panic m), d')) (rest : List Item) :
    d.tells (.ok f :: rest) = [.panicked m] := by
  obtain ⟨flow, hbare⟩ := bare_accept houtstanding howed f
    (show 0 < (⟨1, 1⟩ : Flow).outstanding ∧ 0 < (⟨1, 1⟩ : Flow).owed by decide)
  rw [ha] at hbare
  unfold tells
  rw [if_pos h, tellsFrom, show (d.bare ⟨1, 1⟩).bare ⟨1, 1⟩ = d.bare ⟨1, 1⟩ from rfl, hbare]

theorem limits_accept {d d' : Demux σ} {f : Fragment} {part : Option Part}
    (ha : d.accept f = (.ok part, d')) : d'.limits = d.limits := by
  obtain ⟨flow, grown, d₁, -, hc, rfl⟩ := accept_ok ha
  rw [limits_refill]
  exact hc.limits

theorem tells_accepted {d d' : Demux σ} {f : Fragment} {part : Option Part}
    (h : d.limits.enabled = true) (houtstanding : 0 < d.flow.outstanding)
    (howed : 0 < d.flow.owed) (ha : d.accept f = (.ok part, d')) (rest : List Item) :
    d.tells (.ok f :: rest) = part.toList.map .part ++ d'.tells rest := by
  obtain ⟨flow, hbare⟩ := bare_accept houtstanding howed f
    (show 0 < (⟨1, 1⟩ : Flow).outstanding ∧ 0 < (⟨1, 1⟩ : Flow).owed by decide)
  have hlimits := limits_accept ha
  rw [ha] at hbare
  unfold tells
  rw [hlimits, if_pos h, if_pos h, tellsFrom,
    show (d.bare ⟨1, 1⟩).bare ⟨1, 1⟩ = d.bare ⟨1, 1⟩ from rfl, hbare]
  exact congrArg (part.toList.map Outcome.part ++ ·)
    (tellsFrom_bare ⟨1, 1⟩ (d'.bare flow) rest).symm

end Demux

/-- What there is to tell of a body that consists of some items. -/
def transcript (limits : Limits) (items : List Item) : List Outcome :=
  Demux.tells { source := Unsupplied.mk, limits } items

theorem Demux.tellsFrom_fault {d : Demux Unsupplied} {items : List Item} {e : Fault}
    (h : .error e ∈ items) (rest : List Item) :
    d.tellsFrom (items ++ rest) = d.tellsFrom items := by
  induction items generalizing d with
  | nil => cases h
  | cons i more ih =>
    cases i with
    | error e' => rfl
    | ok f =>
      have hmore : .error e ∈ more := by simpa using h
      rw [List.cons_append, tellsFrom, tellsFrom]
      split
      · rfl
      · rfl
      · rw [ih hmore]

/-- Nothing behind a fault matters. -/
theorem transcript_fault {limits : Limits} {items : List Item} {e : Fault} (h : .error e ∈ items)
    (rest : List Item) : transcript limits (items ++ rest) = transcript limits items := by
  unfold transcript Demux.tells
  rw [Demux.tellsFrom_fault h]

end Exchange.Multipart
