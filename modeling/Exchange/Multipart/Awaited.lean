import Exchange.Multipart.Conduit.Pump
import Exchange.Multipart.Demux
import Exchange.Multipart.Replay

/-!
Supplies whose reader can wait.

A reader that finds nothing ready may `wait`, which lets the rest of the world go on until there is
something new, and then ask again. The rest of the world of a conduit is its pump; that of a replay
does nothing, because the replay forgets a pause as soon as it has made its reader wait. Waiting
helps at most `patience` times in a row.
-/
namespace Exchange.Multipart

class Awaited (σ : Type) extends Supply σ where
  /-- Lets the rest of the world go on as far as it can. -/
  wait : σ → σ
  /-- How often waiting can help from here, and how many parts can be read. -/
  patience : σ → Nat

instance : Awaited Replay where
  wait r := r
  patience r := r.events.length + 1

instance : Awaited Conduit where
  wait := Conduit.runPump
  patience c := c.transport.items.length + c.queue.items.length + 3

instance {σ τ : Type} [Awaited σ] [Awaited τ] : Awaited (σ ⊕ τ) where
  wait := Sum.map Awaited.wait Awaited.wait
  patience := Sum.elim Awaited.patience Awaited.patience

namespace Demux

variable {σ : Type} [Awaited σ]

/-- Asks for the next part and waits for it at most `fuel` times. -/
def awaitNextFor : Nat → Demux σ → Outcome × Demux σ
  | 0, d => d.next
  | fuel + 1, d =>
    match d.next with
    | (.waiting, d) => awaitNextFor fuel { d with source := Awaited.wait d.source }
    | answer => answer

/-- Asks for the next part and waits for it. It is still not there only if the body never goes
on. -/
def awaitNext (d : Demux σ) : Outcome × Demux σ := awaitNextFor (Awaited.patience d.source) d

/-- Asks for parts and waits for them until the answer is not one. -/
def awaitAll (d : Demux σ) : (List Part × Outcome) × Demux σ :=
  drain awaitNext (Awaited.patience d.source + 1) d

end Demux

end Exchange.Multipart
