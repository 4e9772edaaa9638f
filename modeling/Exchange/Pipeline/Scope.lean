import Exchange.Pipeline.Failure
import Exchange.Route.Table

/-!
Which requests a stage is for.

A `Guard` is a formula over tests of a request. All of no guards admit every request, and so do any
of no guards. A `Scope` asks for a path that some pattern of its table accepts and for its guard to
admit the request; without patterns, or without a guard, it does not ask for that.
-/
namespace Exchange.Pipeline

open Http (Request Rejection)

inductive Guard where
  | all (guards : List Guard)
  | any (guards : List Guard)
  | method (name : String)
  /-- the first field of that name has that value -/
  | field (name : String) (value : Octets)
  | test (holds : Request → Bool)
  | always

namespace Guard

/-- A guard on a field that is given as text. -/
def field? (name value : String) : Except Rejection Guard := do
  let name ← Http.fieldName? name
  let value ← Http.fieldValue? value
  return .field name.text value

mutual

def admits (r : Request) : Guard → Bool
  | .all guards => admitsAll r guards
  | .any guards => guards.isEmpty || admitsAny r guards
  | .method name => r.method == name
  | .field name value => r.fields.first? name == some value
  | .test holds => holds r
  | .always => true

def admitsAll (r : Request) : List Guard → Bool
  | [] => true
  | g :: more => admits r g && admitsAll r more

def admitsAny (r : Request) : List Guard → Bool
  | [] => false
  | g :: more => admits r g || admitsAny r more

end

def describe : Guard → String
  | .all guards => Text.record "AllMatcher" [("len", toString guards.length)]
  | .any guards => Text.record "AnyMatcher" [("len", toString guards.length)]
  | .method name => Text.tuple "MethodMatcher" [name]
  | .field name value =>
    Text.tuple "HeaderMatcher" [Text.quote name, Http.quoteValue value]
  | .test _ => "fn"
  | .always => "TrueMatcher"

end Guard

structure Scope where
  /-- the patterns, if there are any -/
  table : Option Route.Table := none
  guard : Option Guard := none

namespace Scope

/-- The scope of every request. -/
def everything : Scope := {}

/-- Puts patterns into a table one after the other. -/
def tableOf (patterns : List String) : Except BuildFault Route.Table :=
  patterns.foldlM (fun table p =>
    (table.insert? p).mapError fun
      | .tooManyParameters => .panicked Route.PatternFault.tooManyParameters.message
      | fault => .invalidPattern p fault.message) Route.Table.empty

def ofPatterns? (patterns : List String) (guard : Option Guard) : Except BuildFault Scope :=
  if patterns.isEmpty then .ok { guard }
  else (tableOf patterns).map fun table => { table := some table, guard }

def covers (s : Scope) (r : Request) : Bool :=
  s.table.all (·.accepts r.target.path) && s.guard.all (·.admits r)

def describe (s : Scope) : String :=
  Text.record "FilterScope"
    [("patterns", Text.flag s.table.isSome), ("matcher", Text.flag s.guard.isSome)]

end Scope

end Exchange.Pipeline
