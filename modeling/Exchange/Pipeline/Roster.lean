import Exchange.Pipeline.Lineup
import Exchange.Pipeline.Scope

/-!
The stages of a server, and the line-up that each request gets.

An `Assignment` says which requests a stage is for and which pool it runs on. A `Roster` is made
from assignments once: pools are looked up, scopes are made and everything is sorted. The line-up
of a request then consists of the stages whose scope covers it, and of the stage that handles it.
-/
namespace Exchange.Pipeline

open Http (Request)

structure Assignment (σ W : Type) where
  stage : Stage σ W
  patterns : List String := []
  guard : Option Guard := none
  /-- the name of the pool it runs on -/
  worker : Option String := none

structure Roster (σ W : Type) where
  entries : List (Scope × Stage σ W)
  terminal : Stage σ W

variable {σ W : Type}

namespace Assignment

/-- Looks the pool up. -/
def bind? (workers : Workers) (a : Assignment σ W) : Except BuildFault (Stage σ W) :=
  match a.worker with
  | none => .ok a.stage
  | some name => (workers.get? name).map a.stage.hop

/-- The scope and the stage that an assignment stands for. -/
def resolve? (workers : Workers) (a : Assignment σ W) :
    Except BuildFault (Scope × Stage σ W) := do
  let stage ← a.bind? workers
  let scope ← Scope.ofPatterns? a.patterns a.guard
  return (scope, stage)

def describe (a : Assignment σ W) : String :=
  Text.openRecord "FilterRegistration"
    [("filter", a.stage.describe), ("patterns", Text.list (a.patterns.map Text.quote)),
     ("executor", Text.optional (a.worker.map Text.quote))]

end Assignment

namespace Roster

/-- Makes a roster. No assignment may handle requests, and `terminal` has to. -/
def build? (assignments : List (Assignment σ W)) (terminal : Stage σ W) (workers : Workers) :
    Except BuildFault (Roster σ W) :=
  if !terminal.isTerminal then .error .missingTerminal
  else
    match assignments.countP (·.stage.isTerminal) with
    | 0 => do
      let entries ← assignments.mapM (·.resolve? workers)
      return ⟨sortByPlace (·.2.place) entries, terminal⟩
    | extra => .error (.multipleTerminals (extra + 1))

/-- The stages that are for a request, in order. -/
def stagesFor (r : Request) (roster : Roster σ W) : List (Stage σ W) :=
  (roster.entries.filter (·.1.covers r)).map (·.2)

/-- The line-up of a request. -/
def lineupFor (r : Request) (roster : Roster σ W) : Lineup σ W :=
  ⟨roster.stagesFor r ++ [roster.terminal]⟩

def describe (roster : Roster σ W) : String :=
  Text.record "FilterRegistry"
    [("entries", Text.list (roster.entries.map fun e =>
      Text.tuple "" [e.1.describe, e.2.describe])),
     ("terminal", roster.terminal.describe)]

end Roster

end Exchange.Pipeline
