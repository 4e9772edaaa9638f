import Exchange.Pipeline.Failure

/-!
The worker pools of a server, by name.

Work that runs on a pool runs on threads that carry the pool's name. A pool that was stopped still
takes work but never runs it. Messages call a task by a number, which means nothing to anybody: here
all tasks have the same one.
-/
namespace Exchange.Pipeline

structure Worker where
  name : String
  running : Bool := true
  deriving DecidableEq, Repr

namespace Worker

/-- The name of the threads that do the work. -/
def thread (w : Worker) : String := w.name

def describe (w : Worker) : String := Text.openRecord "Executor" [("name", Text.quote w.name)]

/-- How messages call a task. -/
def task : String := "task 1"

/-- The failure of work that panicked on the pool. -/
def panicFailure (w : Worker) (message : String) : Failure :=
  .executor w.name (task ++ " panicked with message " ++ Text.quote message)

/-- The failure of work that the pool never ran. -/
def stoppedFailure (w : Worker) : Failure := .executor w.name (task ++ " was cancelled")

end Worker

structure Workers where
  pools : List Worker := []
  deriving DecidableEq, Repr

namespace Workers

/-- Starts pools with the given names and thread counts; a pool has at least one thread. -/
def start (pools : List (String × Nat)) : Workers := ⟨pools.map fun p => { name := p.1 }⟩

/-- The message of the panic that starting a pool raises, if it does: the threads are too many to be
listed in memory, or their name holds a zero byte. -/
def startPanic? (name : String) (threads : Nat) : Option String :=
  let bytes := Octets.ofText name
  if Nat.pow 2 60 ≤ threads then some "capacity overflow"
  else (bytes.findIdx? (· == 0)).map fun i =>
    "thread name may not contain interior null bytes: " ++
      Text.tuple "NulError" [toString i, Text.list (bytes.map fun b => toString b.toNat)]

/-- Starts pools, unless that panics for one of them. -/
def start? (pools : List (String × Nat)) : Except BuildFault Workers :=
  match pools.findSome? fun p => startPanic? p.1 p.2 with
  | some reason => .error (.panicked reason)
  | none => .ok (start pools)

/-- Stops every pool. -/
def stop (ws : Workers) : Workers := ⟨ws.pools.map fun w => { w with running := false }⟩

def get? (name : String) (ws : Workers) : Except BuildFault Worker :=
  match ws.pools.find? (·.name == name) with
  | some w => .ok w
  | none => .error (.unknownExecutor name)

def describe (ws : Workers) : String :=
  Text.record "Executors"
    [("pools", Text.map (ws.pools.map fun w =>
      (Text.quote w.name, Text.openRecord "ExecutorPool" [("executor", w.describe)])))]

end Workers

end Exchange.Pipeline
