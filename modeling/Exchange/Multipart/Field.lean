import Exchange.Http.Media
import Exchange.Multipart.Buffer

/-!
The fields of a multipart body.

A body is a sequence of fragments. Each names its `Field`, carries some bytes of it, and tells
whether it is the field's final fragment. A field whose content is complete is a `Part`.
-/
namespace Exchange.Multipart

/-- What kind of field it is: a simple form value or an uploaded file. -/
inductive FieldKind where
  | attribute
  | file (filename : String) (mediaType : Http.MediaType)

namespace FieldKind

/-- Whether two kinds are the same. File names are compared first. -/
def same? : FieldKind → FieldKind → Except Text.Torn Bool
  | .attribute, .attribute => .ok true
  | .file f m, .file f' m' => if f = f' then m.same? m' else .ok false
  | _, _ => .ok false

def describe : FieldKind → String
  | .attribute => "Attribute"
  | .file f m =>
    Text.record "File" [("filename", Text.quote f), ("content_type", Text.quote m.text)]

end FieldKind

/-- What every fragment of a field repeats. -/
structure Field where
  name : String
  kind : FieldKind := .attribute

namespace Field

/-- Whether two fields are the same. Names are compared first. -/
def same? (a b : Field) : Except Text.Torn Bool :=
  if a.name = b.name then a.kind.same? b.kind else .ok false

def isFile (f : Field) : Bool :=
  match f.kind with
  | .attribute => false
  | .file .. => true

/-- The file name and the media type of an upload. -/
def file? (f : Field) : Option (String × Http.MediaType) :=
  match f.kind with
  | .attribute => none
  | .file name media => some (name, media)

def describe (f : Field) : String :=
  Text.record "PartHeader" [("name", Text.quote f.name), ("kind", f.kind.describe)]

end Field

/-- Some bytes of one field. -/
structure Fragment where
  field : Field
  data : Buffer
  /-- nothing more of this field follows -/
  final : Bool

def Fragment.describe (f : Fragment) : String :=
  Text.record "ChunkEvent"
    [("header", f.field.describe), ("data", f.data.describe), ("last", Text.flag f.final)]

/-- A complete field. -/
structure Part where
  field : Field
  content : Octets

def Part.name (p : Part) : String := p.field.name

/-- Passes the buffer of a place on inside a fragment and takes it back out of it. -/
def Slots.passOn (slot : Nat) (field : Field) (final : Bool) (s : Slots) :
    Option Fragment × Slots :=
  match s.get? slot with
  | none => (none, s)
  | some b =>
    let fragment : Fragment := ⟨field, b, final⟩
    (some fragment, (s.vacate slot).place slot fragment.data)

end Exchange.Multipart
