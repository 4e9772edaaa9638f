import Exchange.Multipart.Conduit.Basic

/-!
The pump: publishes a transport, fragment by fragment, under the consumer's demand.

A pump takes items from the transport and sends the fragments. A fault of the transport is passed
on and ends it. If a sending fails, the pump throws the rest of the transport away, up to its end or
its first fault, so that the connection stays usable, and then ends with that failure. However it
ends, the publisher is gone afterwards and so is what the transport still held.

`pumpStep` is one step of that; it does nothing but read signals when the pump has to wait. The
pump of a state can make at most `pumpWork` steps.
-/
namespace Exchange.Multipart.Conduit

/-- Lets a pump have the publisher; tells whether there was one and no pump before. -/
def startPump (c : Conduit) : Bool × Conduit :=
  match c.publisher, c.pump with
  | some p, .idle => (true, { c with publisher := none, pump := .running p .reading })
  | _, _ => (false, c)

/-- Adds an item to the transport; tells whether anybody may read it. -/
def feed (i : Item) (c : Conduit) : Bool × Conduit :=
  let t := i.acquire c.tally
  if c.transport.abandoned then (false, { c with tally := i.release t })
  else
    (true, { c with
      transport := { c.transport with items := c.transport.items ++ [i] }, tally := t })

def endTransport (c : Conduit) : Conduit :=
  { c with transport := { c.transport with ended := true } }

/-- Ends the pump. -/
def finishPump (result : Except Fault Unit) (c : Conduit) : Conduit :=
  { c with
    pump := .finished result
    transport := { c.transport with items := [], abandoned := true }
    tally := c.transport.items.foldl Item.release c.tally }

/-- One step of a pump that takes the next item from the transport. -/
def readStep (p : Publisher) (c : Conduit) : Conduit :=
  match c.transport.items with
  | [] => if c.transport.ended then c.finishPump (.ok ()) else c
  | .ok f :: items =>
    { c with
      pump := .running p (.sending (.credit f false))
      transport := { c.transport with items } }
  | .error e :: items =>
    { c with
      pump := .running p (.failing e false)
      transport := { c.transport with items } }

/-- One step of a pump that sends a fragment. -/
def sendStep (p : Publisher) (s : Sending) (c : Conduit) : Conduit :=
  match advance p c s with
  | (.waiting s, p, c) => { c with pump := .running p (.sending s) }
  | (.done (.ok ()), p, c) => { c with pump := .running p .reading }
  | (.done (.error e), p, c) => { c with pump := .running p (.skipping e) }

/-- One step of a pump that passes a fault on. -/
def failStep (p : Publisher) (e : Fault) (sent : Bool) (c : Conduit) : Conduit :=
  match advanceFault e c sent with
  | (.waiting sent, c) => { c with pump := .running p (.failing e sent) }
  | (.done (), c) => c.finishPump (.error e)

/-- One step of a pump that throws the transport away. -/
def skipStep (e : Fault) (c : Conduit) : Conduit :=
  match c.transport.items with
  | [] => if c.transport.ended then c.finishPump (.error e) else c
  | .ok f :: items => { c.giveBack f.data with transport := { c.transport with items } }
  | .error _ :: items =>
    { c with transport := { c.transport with items } }.finishPump (.error e)

def pumpStep (c : Conduit) : Conduit :=
  match c.pump with
  | .idle | .finished _ => c
  | .running p .reading => c.readStep p
  | .running p (.sending s) => c.sendStep p s
  | .running p (.failing e sent) => c.failStep p e sent
  | .running _ (.skipping e) => c.skipStep e

/-- A bound on the steps that the pump can make from here. -/
def pumpWork (c : Conduit) : Nat :=
  match c.pump with
  | .idle | .finished _ => 0
  | .running _ (.sending _) => 3 * c.transport.items.length + 2
  | .running _ _ => 3 * c.transport.items.length + 1

/-- Lets the pump run until it can make no progress. -/
def runPump (c : Conduit) : Conduit := Nat.repeat pumpStep c.pumpWork c

end Exchange.Multipart.Conduit
