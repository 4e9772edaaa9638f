import Exchange.Route.Pattern

/-!
Path patterns shared by their common text.

A node holds some text and what can follow it: nodes whose text begins with different bytes, and
possibly a wildcard. Behind a parameter stand the texts that can follow it up to the next slash, the
longer ones first. Where a pattern ends, its names are kept.

Looking a path up does not try every way to cut it. It takes the literal text first and the wildcard
only if that fails; behind a parameter the first text that ends the segment is final, even if the
rest of the path is not accepted there.
-/
namespace Exchange.Route

mutual

inductive Node where
  | node (text : Marks) (priority : Nat) (names : Option (List Octets)) (literals : List Node)
      (wild : Wild)

inductive Wild where
  | absent
  | param (text : Marks) (names : Option (List Octets)) (endings : List Node)
  | rest (text : Marks) (names : List Octets)

end

namespace Node

def text : Node → Marks
  | .node text .. => text

/-- How many patterns were put in through this node. -/
def priority : Node → Nat
  | .node _ priority .. => priority

/-- A node that nothing was put into. -/
def empty : Node := .node [] 0 none [] .absent

def startsWith (b : UInt8) (n : Node) : Bool := n.text.head?.any (·.byte == b)

end Node

/-! ### What a pattern adds -/

/-- The text at the front of a pattern's remainder, its names if it ends there, and the wildcard
behind the text otherwise. -/
structure Branch where
  text : Marks
  names : Option (List Octets)
  wild : Wild

/-- The node of a branch. -/
def Branch.toNode (b : Branch) : Node := .node b.text 1 b.names [] b.wild

/-- The node of a text that ends a segment, with a branch behind it. -/
def Branch.behind (ending : Marks) (b : Branch) : Node :=
  if b.text.isEmpty then .node ending 1 b.names [] b.wild
  else .node ending 1 none [b.toNode] .absent

/-- The remainder of a pattern, on its own. -/
def branch? (names : List Octets) (marks : Marks) : Except PatternFault Branch :=
  match _h : split? marks with
  | .error e => .error e
  | .ok none => .ok ⟨marks, some names, .absent⟩
  | .ok (some s) =>
    if s.isRest then
      if s.behind.isEmpty then .ok ⟨s.before, none, .rest s.wildcard names⟩
      else .error .restNotLast
    else
      let ending := s.behind.cutSegment.1
      if holdsWildcard ending then .error .segment
      else if s.behind.isEmpty then .ok ⟨s.before, none, .param s.wildcard (some names) []⟩
      else do
        let more ← branch? names s.behind.cutSegment.2
        return ⟨s.before, none, .param s.wildcard none [more.behind ending]⟩
termination_by marks.length
decreasing_by
  have := split?_length _h
  simp only [Marks.cutSegment, List.length_drop]
  omega

/-! ### Look-up -/

mutual

/-- Whether a pattern of this node accepts all of the path. -/
def Node.accepts (path : Octets) : Node → Bool
  | .node text _ names literals wild =>
    let text := text.bytes
    if path.length > text.length then
      let ahead := path.drop text.length
      text.isPrefixOf path && (literalAccepts ahead literals || wild.accepts ahead)
    else path == text && names.isSome

/-- Whether the node that begins with the next byte accepts the path. -/
def literalAccepts (path : Octets) : List Node → Bool
  | [] => false
  | n :: more =>
    if path.head?.any (n.startsWith ·) then n.accepts path else literalAccepts path more

/-- Whether the wildcard takes a part of the path and what is behind it accepts the rest. -/
def Wild.accepts (path : Octets) : Wild → Bool
  | .absent => false
  | .rest .. => true
  | .param _ names endings =>
    let value := path.takeWhile (· != slash)
    let segment := path.take (value.length + 1)
    !value.isEmpty &&
      endingAccepts segment path (segment.length == value.length && names.isSome) endings

/-- Whether the first text that ends the segment, with something in front of it, accepts the path
from there on; `otherwise`, if none ends it. -/
def endingAccepts (segment path : Octets) (otherwise : Bool) : List Node → Bool
  | [] => otherwise
  | n :: more =>
    let text := n.text.bytes
    if text.length < segment.length && text.isSuffixOf segment then
      n.accepts (path.drop (segment.length - text.length))
    else endingAccepts segment path otherwise more

end

/-! ### The pattern that a look-up would find first -/

mutual

/-- The text of the first pattern of this node, and its names. -/
def Node.first : Node → Marks × List Octets
  | .node text _ names literals wild =>
    let (more, found) := firstOf literals (wild.first (names.getD []))
    (text ++ more, found)

def Wild.first (otherwise : List Octets) : Wild → Marks × List Octets
  | .absent => ([], otherwise)
  | .rest text names => (text, names)
  | .param text names endings =>
    let (more, found) := firstOf endings ([], names.getD [])
    (text ++ more, found)

/-- That of the first node, if there is one. -/
def firstOf : List Node → Marks × List Octets → Marks × List Octets
  | [], otherwise => otherwise
  | n :: _, _ => n.first

end

end Exchange.Route
