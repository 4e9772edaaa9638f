import Exchange.Pipeline.Run

/-!
Line-ups: the stages of a pipeline in order, ended by the one that handles the request.

A line-up is assembled from exactly one stage that handles requests, listed last, and any number
of others. Those are sorted by their order; stages of one order keep the sequence in which they were
listed.
-/
namespace Exchange.Pipeline

structure Lineup (σ W : Type) where
  stages : List (Stage σ W)

variable {σ W : Type}

namespace Stage

/-- The number that sorting goes by. -/
def place (s : Stage σ W) : Int := s.order?.getD Rank.last

end Stage

/-- Sorts by place; what has one place keeps its sequence. -/
def sortByPlace {α : Type} (place : α → Int) (xs : List α) : List α :=
  xs.mergeSort fun a b => decide (place a ≤ place b)

namespace Lineup

/-- Assembles a line-up from stages in the sequence in which they were listed. -/
def assemble? (stages : List (Stage σ W)) : Except BuildFault (Lineup σ W) :=
  match stages.countP Stage.isTerminal with
  | 0 => .error .missingTerminal
  | 1 =>
    match stages.getLast? with
    | some last =>
      if last.isTerminal then .ok ⟨sortByPlace Stage.place stages.dropLast ++ [last]⟩
      else .error .terminalNotLast
    | none => .error .missingTerminal
  | count => .error (.multipleTerminals count)

/-- Runs a line-up over the request of a state. -/
def execute (p : Lineup σ W) (s : State σ W) : Ending Failure Http.Response × State σ W :=
  runFrom 0 p.stages none s

def describe (p : Lineup σ W) : String :=
  Text.record "FilterChain" [("filters", Text.list (p.stages.map Stage.describe))]

end Lineup

end Exchange.Pipeline
