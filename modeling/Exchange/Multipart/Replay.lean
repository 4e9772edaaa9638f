import Exchange.Count
import Exchange.Multipart.Supply

/-!
A supply that plays back a list of events.

A `Replay` either keeps to its credit, holding a fragment back until one was requested, or is
`eager` and delivers whatever comes next. It records the requests and cancels that reached it, and
its `tally` accounts for the buffers of its events, handed out when the events are made.
-/
namespace Exchange.Multipart

/-- What a replay does when it is asked. -/
inductive Event where
  /-- makes its reader wait once -/
  | pause
  | fragment (f : Fragment)
  | fault (fault : Fault)

structure Replay where
  events : List Event := []
  /-- completes after the last event; otherwise more may follow -/
  complete : Bool := true
  eager : Bool := false
  /-- the requests so far -/
  requests : List Nat := []
  credit : Nat := 0
  cancels : Nat := 0
  dropped : Bool := false
  tally : Tally := {}

/-- Hands out the buffer of an event. -/
def Event.acquire (t : Tally) : Event → Tally
  | .fragment f => t.acquire f.data
  | _ => t

/-- Takes back the buffer of an event. -/
def Event.release (t : Tally) : Event → Tally
  | .fragment f => t.release f.data
  | _ => t

namespace Replay

/-- Adds an event behind the others. -/
def push (e : Event) (r : Replay) : Replay :=
  { r with events := r.events ++ [e], tally := e.acquire r.tally }

def ofEvents (events : List Event) (complete eager : Bool) : Replay :=
  { events, complete, eager, tally := events.foldl Event.acquire {} }

def request (n : Nat) (r : Replay) : Replay :=
  { r with requests := r.requests ++ [n], credit := Count.add r.credit n }

def cancel (r : Replay) : Replay :=
  { r with cancels := r.cancels + 1, events := [], tally := r.events.foldl Event.release r.tally }

def poll (r : Replay) : Delivery × Replay :=
  match r.events with
  | [] => (if r.complete then .finished else .waiting, r)
  | .pause :: rest => (.waiting, { r with events := rest })
  | .fault e :: rest => (.failed e, { r with events := rest })
  | .fragment f :: rest =>
    if r.credit = 0 && !r.eager then (.waiting, r)
    else (.fragment f, { r with events := rest, credit := r.credit - 1 })

theorem poll_fragment {r r' : Replay} {f : Fragment} (h : r.poll = (.fragment f, r')) :
    ∃ rest, r.events = .fragment f :: rest ∧
      r' = { r with events := rest, credit := r.credit - 1 } := by
  unfold poll at h
  split at h
  · split at h <;> simp at h
  · simp at h
  · simp at h
  · next rest he =>
    split at h
    · simp at h
    · simp only [Prod.mk.injEq, Delivery.fragment.injEq] at h
      exact ⟨rest, h.1 ▸ he, h.2.symm⟩

instance : Supply Replay where
  giveBack b r := { r with tally := r.tally.release b }
  request := request
  cancel := cancel
  poll := poll
  drop r := { r with dropped := true }
  ready r := r.events.length
  ready_request _ _ := Nat.le_refl _
  ready_giveBack _ _ := Nat.le_refl _
  ready_poll _ _ _ h := by
    obtain ⟨rest, he, rfl⟩ := poll_fragment h
    simp [he]

end Replay

end Exchange.Multipart
