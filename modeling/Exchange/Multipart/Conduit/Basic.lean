import Exchange.Count
import Exchange.Multipart.Conduit.Queue
import Exchange.Multipart.Supply

/-!
A conduit between the transport that reads a body and the consumer that wants it.

The consumer's end is a supply. Its requests travel as signals to the publisher, which turns them
into credit and puts a fragment into the queue only while it holds some. Sending a fragment passes
three points at which it may have to wait: for credit, for room in the queue, and, once the fragment
is in the queue, for the queue to let the publisher go. Credit is spent at the end. A sending that
is abandoned at one of these points leaves behind what it did up to there.

When the consumer's end is cancelled or dropped the queue is shut, and the publisher finds that out
the next time it looks. When the publisher is gone the supply completes, once the queue is empty.
-/
namespace Exchange.Multipart

/-- What the consumer's end tells the publisher. -/
inductive Signal where
  | request (n : Nat)
  | cancel
  deriving DecidableEq, Repr

structure Publisher where
  /-- fragments it may still send -/
  credit : Nat := 0
  cancelled : Bool := false
  deriving DecidableEq, Repr

def Publisher.apply (p : Publisher) : Signal → Publisher
  | .request n => { p with credit := Count.add p.credit n }
  | .cancel => { p with cancelled := true }

/-- Where a sending waits. -/
inductive Sending where
  /-- for credit; `started` tells that it has waited before -/
  | credit (f : Fragment) (started : Bool)
  /-- for room in the queue -/
  | room (f : Fragment)
  /-- for the queue to let it go -/
  | release

/-- The fragment that a sending still holds. -/
def Sending.held? : Sending → Option Fragment
  | .credit f _ => some f
  | .room f => some f
  | .release => none

/-- How far something got. -/
inductive Progress (α β : Type) where
  | waiting (point : α)
  | done (result : β)

/-- What a pump is doing. -/
inductive Pumping where
  /-- taking the next item from the transport -/
  | reading
  | sending (s : Sending)
  /-- passing the transport's fault on; `sent` tells that it is in the queue -/
  | failing (e : Fault) (sent : Bool)
  /-- throwing the rest of the transport away after a sending failed -/
  | skipping (e : Fault)

/-- The task that publishes a transport. -/
inductive Pump where
  | idle
  | running (p : Publisher) (doing : Pumping)
  | finished (result : Except Fault Unit)

/-- The body as the connection reads it. -/
structure Transport where
  items : List Item := []
  ended : Bool := false
  /-- nobody reads it any more -/
  abandoned : Bool := false

structure Conduit where
  queue : Queue
  /-- signals that the publisher has not read -/
  signals : List Signal := []
  /-- the publisher, while no pump has it -/
  publisher : Option Publisher := some {}
  pump : Pump := .idle
  transport : Transport := {}
  /-- the consumer's end was cancelled -/
  cancelled : Bool := false
  /-- the consumer's end is gone -/
  dropped : Bool := false
  tally : Tally := {}

namespace Conduit

def ofCapacity (capacity : Nat) : Conduit := { queue := { capacity } }

/-- A conduit of some capacity, or the message of the panic that a capacity too large to be counted
beside the state of the queue raises. -/
def ofCapacity? (capacity : Nat) : Except String Conduit :=
  if capacity ≤ Nat.pow 2 62 - 2 then .ok (ofCapacity capacity)
  else .error "requested buffer size too large"

/-- Somebody may still publish. -/
def publishing (c : Conduit) : Bool :=
  match c.publisher, c.pump with
  | some _, _ => true
  | none, .running .. => true
  | none, _ => false

def giveBack (b : Buffer) (c : Conduit) : Conduit := { c with tally := c.tally.release b }

/-! ### The consumer's end -/

def request (n : Nat) (c : Conduit) : Conduit :=
  if c.cancelled || n = 0 || !c.publishing then c
  else { c with signals := c.signals ++ [.request n] }

/-- Throws the queue away. -/
def shut (c : Conduit) : Conduit :=
  { c with queue := c.queue.shut, tally := c.queue.items.foldl Item.release c.tally }

def cancel (c : Conduit) : Conduit :=
  if c.cancelled then c
  else
    { c.shut with
      cancelled := true
      signals := if c.publishing then c.signals ++ [.cancel] else c.signals }

def drop (c : Conduit) : Conduit := { c.shut with dropped := true }

def poll (c : Conduit) : Delivery × Conduit :=
  if c.cancelled then (.finished, c)
  else
    match c.queue.pop? with
    | some (.ok f, queue) => (.fragment f, { c with queue })
    | some (.error e, queue) => (.failed e, { c with queue })
    | none => (if c.publishing then .waiting else .finished, c)

theorem poll_fragment {c c' : Conduit} {f : Fragment} (h : c.poll = (.fragment f, c')) :
    ∃ rest, c.queue.items = .ok f :: rest ∧
      c' = { c with queue := { c.queue with items := rest, parked := false } } := by
  unfold poll Queue.pop? at h
  split at h
  · simp at h
  · split at h
    · next heq =>
      split at heq
      · simp at heq
      · next i rest he =>
        simp only [Option.some.injEq, Prod.mk.injEq] at heq
        simp only [Prod.mk.injEq, Delivery.fragment.injEq] at h
        obtain ⟨rfl, rfl⟩ := heq
        obtain ⟨rfl, rfl⟩ := h
        exact ⟨rest, he, rfl⟩
    · simp at h
    · split at h <;> simp at h

instance : Supply Conduit where
  giveBack := giveBack
  request := request
  cancel := cancel
  poll := poll
  drop := drop
  ready c := c.queue.items.length
  ready_request n c := by unfold request; split <;> exact Nat.le_refl _
  ready_giveBack _ _ := Nat.le_refl _
  ready_poll _ _ _ h := by
    obtain ⟨rest, he, rfl⟩ := poll_fragment h
    simp [he]

/-! ### The publisher's end -/

/-- Reads every signal there is. -/
def readSignals (p : Publisher) (c : Conduit) : Publisher × Conduit :=
  let p := c.signals.foldl Publisher.apply p
  ({ p with cancelled := p.cancelled || c.dropped }, { c with signals := [] })

/-- Reads signals one by one until one brings credit or a cancel. -/
def readUntilCredit (p : Publisher) : List Signal → Publisher × List Signal
  | [] => (p, [])
  | s :: rest =>
    if p.cancelled || p.credit > 0 then (p, s :: rest) else readUntilCredit (p.apply s) rest

/-- Reads signals as a sending that waits for credit does. -/
def awaitCredit (started : Bool) (p : Publisher) (c : Conduit) : Publisher × Conduit :=
  if started then
    let (p, signals) := readUntilCredit p c.signals
    ({ p with cancelled := p.cancelled || (p.credit = 0 && c.dropped) }, { c with signals })
  else readSignals p c

/-- Goes on with a sending as far as it can. -/
def advance (p : Publisher) (c : Conduit) :
    Sending → Progress Sending (Except Fault Unit) × Publisher × Conduit
  | .credit f started =>
    let (p, c) := awaitCredit started p c
    if p.cancelled then (.done (.error .cancelled), p, c.giveBack f.data)
    else if p.credit = 0 then (.waiting (.credit f true), p, c)
    else enter p c f
  | .room f => enter p c f
  | .release => leave p c
where
  /-- puts the fragment into the queue -/
  enter (p : Publisher) (c : Conduit) (f : Fragment) :=
    if c.queue.closed then
      (.done (.error .cancelled), { p with cancelled := true }, c.giveBack f.data)
    else if c.queue.parked then (.waiting (.room f), p, c)
    else leave p { c with queue := c.queue.push (.ok f) }
  /-- spends the credit once the queue lets go -/
  leave (p : Publisher) (c : Conduit) :=
    if c.queue.parked then (.waiting .release, p, c)
    else (.done (.ok ()), { p with credit := p.credit - 1 }, c)

/-- Abandons a sending where it waits. -/
def abandon (s : Sending) (c : Conduit) : Conduit :=
  match s.held? with
  | none => c
  | some f => c.giveBack f.data

/-- Starts sending a fragment and abandons it if it has to wait. Gives the result, if there is
one. -/
def trySend (f : Fragment) (p : Publisher) (c : Conduit) : Option (Except Fault Unit) × Conduit :=
  match advance p c (.credit f false) with
  | (.done result, p, c) => (some result, { c with publisher := some p })
  | (.waiting s, p, c) => (none, { c.abandon s with publisher := some p })

/-- Goes on with passing a fault on, for which no credit is needed. Gives whether it is in the
queue when it has to wait. -/
def advanceFault (e : Fault) (c : Conduit) : Bool → Progress Bool Unit × Conduit
  | true => if c.queue.parked then (.waiting true, c) else (.done (), c)
  | false =>
    if c.queue.closed then (.done (), c)
    else if c.queue.parked then (.waiting false, c)
    else
      let c := { c with queue := c.queue.push (.error e) }
      if c.queue.parked then (.waiting true, c) else (.done (), c)

/-- Ends the stream by a fault and gives the publisher up; tells whether it did not have to
wait. -/
def tryFail (e : Fault) (c : Conduit) : Bool × Conduit :=
  match advanceFault e c false with
  | (.done (), c) => (true, { c with publisher := none })
  | (.waiting _, c) => (false, { c with publisher := none })

/-- Gives the publisher up. -/
def dropPublisher (c : Conduit) : Conduit := { c with publisher := none }

end Conduit

end Exchange.Multipart
