import Exchange.Http.Message

/-!
Requests and responses made from text, and changes to them that are given as text.

Every piece of text is checked as it is used, in the order in which the pieces stand, and the first
one that is refused decides the rejection.
-/
namespace Exchange.Http

/-- A request with the given method, target and fields. -/
def Request.ofTexts? (method target : String) (version : Version) (fields : List (String × String))
    (body : BodyId) : Except Rejection Request := do
  let method ← method? method
  let target ← target? target
  let fields ← Fields.appendAll? fields {}
  return { method, target, version, fields, body }

/-- A response with the given status and fields. -/
def Response.ofTexts? (status : Nat) (fields : List (String × String)) (body : ReplyBody) :
    Except Rejection Response := do
  let status ← status? status
  let fields ← Fields.appendAll? fields {}
  return { status, fields, body }

/-! ### Changes -/

/-- A change to the fields of a message. -/
inductive FieldEdit where
  /-- sets a name to one value -/
  | insert (name value : String)
  | append (name value : String)
  /-- a name that no field can have is not there -/
  | remove (name : String)
  deriving DecidableEq, Repr

def FieldEdit.apply (f : Fields) : FieldEdit → Except Rejection Fields
  | .insert name value => do
    let name ← fieldName? name
    let value ← fieldValue? value
    return f.insert name value
  | .append name value => f.append? name value
  | .remove name => .ok (f.remove name.toLower)

inductive RequestEdit where
  | field (edit : FieldEdit)
  | method (name : String)
  | target (text : String)
  deriving DecidableEq, Repr

def RequestEdit.apply (r : Request) : RequestEdit → Except Rejection Request
  | .field edit => do return { r with fields := ← edit.apply r.fields }
  | .method name => do return { r with method := ← method? name }
  | .target text => do return { r with target := ← target? text }

inductive ReplyEdit where
  | field (edit : FieldEdit)
  | status (code : Nat)
  | body (body : ReplyBody)
  deriving DecidableEq, Repr

def ReplyEdit.apply (r : Response) : ReplyEdit → Except Rejection Response
  | .field edit => do return { r with fields := ← edit.apply r.fields }
  | .status code => do return { r with status := ← status? code }
  | .body b => .ok { r with body := b }

end Exchange.Http
