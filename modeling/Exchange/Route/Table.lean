import Exchange.Route.Tree

/-!
Sets of path patterns.

Patterns are put into a `Table` one after the other, and each must fit those before it: two patterns
that differ in names only conflict, and so do two that have wildcards of different kinds at one
place. A pattern that fits may still be wrong in itself: two parameters in one segment, or something
behind a wildcard for the rest. A conflict names one earlier pattern; of several that share the
wildcard in question, it is the one that a look-up would find first.
-/
namespace Exchange.Route

/-! ### Conflicts -/

/-- The fault of a pattern that an earlier one with these names has already been put in for. -/
def taken (shape : Shape) (names : List Octets) : PatternFault :=
  .conflict ((Octets.text? (withNames names shape.marks)).getD "")

/-- The fault of a pattern whose remainder begins with another wildcard than `wild`. The pattern to
blame is written as the front of this one with the first pattern through `wild` behind it; if the
front happens to end with the bytes of the wildcard, these are not repeated. -/
def clash (shape : Shape) (remainder : Marks) (text : Marks) (wild : Wild) : PatternFault :=
  let (found, names) := wild.first []
  if remainder.bytes == text.bytes then taken shape names
  else
    let front : Marks := shape.marks.take (shape.marks.length - remainder.length)
    let behind := if text.bytes.isSuffixOf front.bytes then found.drop text.length else found
    taken { shape with marks := front ++ behind } names

/-! ### Insertion -/

/-- How many marks two patterns have in common at the front. -/
def commonLength : Marks → Marks → Nat
  | m :: ms, n :: ns => if m = n then commonLength ms ns + 1 else 0
  | _, _ => 0

/-- Moves the node at position `i` in front of those before it that fewer patterns were put in
through. -/
def promote (i : Nat) (nodes : List Node) : List Node :=
  match nodes.drop i with
  | [] => nodes
  | n :: behind =>
    let (passed, ahead) := (nodes.take i).reverse.span (·.priority < n.priority)
    ahead.reverse ++ n :: passed.reverse ++ behind

/-- Puts a node among the texts behind a parameter, behind those that are at least as long. -/
def placeEnding (n : Node) (endings : List Node) : List Node :=
  let longer (m : Node) : Bool := n.text.length ≤ m.text.length
  endings.takeWhile longer ++ n :: endings.dropWhile longer

/-- A node of some text that holds a pattern's remainder beside what is there already. -/
def fork (shape : Shape) (text : Marks) (priority : Nat) (lower : Node) (remainder : Marks) :
    Except PatternFault Node := do
  let b ← branch? shape.names remainder
  return if b.text.isEmpty then .node text priority b.names [lower] b.wild
    else .node text priority none [lower, b.toNode] .absent

mutual

/-- Puts the remainder of a pattern into a node. -/
def Node.insert? (shape : Shape) (remainder : Marks) : Node → Except PatternFault Node
  | .node text priority names literals wild =>
    let common := commonLength text remainder
    let ahead := remainder.drop common
    if common < text.length then
      fork shape (text.take common) (priority + 1)
        (.node (text.drop common) priority names literals wild) ahead
    else
      match ahead with
      | [] =>
        match names with
        | some names => .error (taken shape names)
        | none => .ok (.node text (priority + 1) (some shape.names) literals wild)
      | next :: _ =>
        if next.opens then
          (wild.insert? shape ahead).map (.node text (priority + 1) names literals ·)
        else
          match literals.findIdx? (·.startsWith next.byte) with
          | some i =>
            (insertAt? shape ahead i literals).map fun literals =>
              .node text (priority + 1) names (promote i literals) wild
          | none =>
            (branch? shape.names ahead).map fun b =>
              .node text (priority + 1) names (literals ++ [b.toNode]) wild

/-- Puts the remainder of a pattern into the node at position `i`. -/
def insertAt? (shape : Shape) (remainder : Marks) :
    Nat → List Node → Except PatternFault (List Node)
  | _, [] => .ok []
  | 0, n :: more => (n.insert? shape remainder).map (· :: more)
  | i + 1, n :: more => (insertAt? shape remainder i more).map (n :: ·)

/-- Puts the remainder of a pattern, which begins with a wildcard, into what is there. -/
def Wild.insert? (shape : Shape) (remainder : Marks) : Wild → Except PatternFault Wild
  | .absent => (branch? shape.names remainder).map (·.wild)
  | .rest text names => .error (clash shape remainder text (.rest text names))
  | .param text names endings =>
    let ahead : Marks := remainder.drop text.length
    if Marks.bytes (remainder.take text.length) != text.bytes then
      .error (clash shape remainder text (.param text names endings))
    else if ahead.isEmpty then
      match names with
      | some names => .error (taken shape names)
      | none => .ok (.param text (some shape.names) endings)
    else
      let (ending, behind) := ahead.cutSegment
      match endings.findIdx? (·.text.bytes == ending.bytes) with
      | some i => (insertAt? shape ahead i endings).map (.param text names ·)
      | none =>
        if holdsWildcard ending then .error .segment
        else (branch? shape.names behind).map fun b =>
          .param text names (placeEnding (b.behind ending) endings)

end

/-! ### Tables -/

structure Table where
  root : Node := .empty

namespace Table

/-- A table without patterns. -/
def empty : Table := {}

/-- Puts a pattern in. The first text that a table holds is its root's, so a pattern without any
text is lost when another one follows it directly. -/
def insert? (t : Table) (text : String) : Except PatternFault Table := do
  let shape ← Shape.ofText? text
  match t.root with
  | .node [] priority names [] .absent =>
    let b ← branch? shape.names shape.marks
    return ⟨.node b.text (priority + 1) (b.names <|> names) [] b.wild⟩
  | root => return ⟨← root.insert? shape shape.marks⟩

/-- Whether some pattern accepts the path. -/
def accepts (t : Table) (path : String) : Bool := t.root.accepts (Octets.ofText path)

end Table

end Exchange.Route
