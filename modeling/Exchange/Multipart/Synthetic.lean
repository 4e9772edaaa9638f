import Exchange.Multipart.Field

/-!
Synthetic bodies: some files of one size each, cut into pieces of at most some other size.

Every piece of a file but its last is full. The last one is final and holds what is left; an empty
file is one empty piece.
-/
namespace Exchange.Multipart

inductive SizeClass where
  | small
  | large
  deriving DecidableEq, Repr

structure Synthetic where
  name : String
  size : SizeClass
  parts : Nat
  partSize : Nat
  pieceSize : Nat

namespace Synthetic

/-- A body cut into pieces of one kibibyte. -/
def small (name : String) (parts partSize : Nat) : Synthetic :=
  ⟨name, .small, parts, partSize, 1024⟩

/-- A body cut into pieces of sixteen kibibytes. -/
def large (name : String) (parts partSize : Nat) : Synthetic :=
  ⟨name, .large, parts, partSize, 16384⟩

def totalSize (b : Synthetic) : Nat := b.parts * b.partSize

/-- The sizes of the pieces of `left` bytes, each but the last of them `piece + 1` bytes. -/
def pieces (piece left : Nat) : List Nat :=
  if left ≤ piece + 1 then [left] else (piece + 1) :: pieces piece (left - (piece + 1))
termination_by left

/-- One piece of a file. -/
def fragment (field : Field) (size : Nat) (final : Bool) : Fragment :=
  ⟨field, ⟨List.replicate size 0x78, false⟩, final⟩

/-- The fragments of one file, given the sizes of its pieces. -/
def fileFragments (field : Field) : List Nat → List Fragment
  | [] => []
  | [last] => [fragment field last true]
  | size :: more => fragment field size false :: fileFragments field more

def field (index : Nat) : Field :=
  ⟨s!"file{index}", .file "upload.bin" Http.MediaType.octetStream⟩

/-- The fragments of the body, in order. -/
def fragments (b : Synthetic) : List Fragment :=
  (List.range b.parts).flatMap fun i =>
    fileFragments (field i) (pieces (b.pieceSize - 1) b.partSize)

/-- The fragments of the body, or the message of the panic that files too large for an address space
raise. -/
def fragments? (b : Synthetic) : Except String (List Fragment) :=
  if b.partSize < Nat.pow 2 63 then .ok b.fragments else .error "capacity overflow"

end Synthetic

end Exchange.Multipart
