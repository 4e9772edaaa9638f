import Exchange.Text.Layout

/-!
The order in which the stages of a pipeline see a request: lower numbers come first.
-/
namespace Exchange.Pipeline

/-- Where a stage stands. -/
inductive Rank where
  /-- at a number fixed when it was registered -/
  | fixed (n : Int)
  /-- where the stage itself wants to stand -/
  | dynamic
  deriving DecidableEq, Repr

namespace Rank

def first : Int := -2147483648

def last : Int := 2147483647

/-- The stage has to be asked. -/
def asks : Rank → Bool
  | .fixed _ => false
  | .dynamic => true

/-- The number, given the one that the stage would answer. -/
def resolve (own : Int) : Rank → Int
  | .fixed n => n
  | .dynamic => own

def describe : Rank → String
  | .fixed n => Text.tuple "Fixed" [toString n]
  | .dynamic => "Dynamic"

end Rank

end Exchange.Pipeline
