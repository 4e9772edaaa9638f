import Exchange.Http.Fields
import Exchange.Http.Target
import Exchange.Text.Layout

/-!
Requests and responses.

A request names its body by a number only: the body itself may be shared, and is kept in a store
beside the request. A response owns its body. The body is either held whole or a stream of frames,
and reading takes one frame after the other off its front.
-/
namespace Exchange.Http

inductive Version where
  | v09
  | v10
  | v11
  | v2
  | v3
  deriving DecidableEq, Repr

def Version.describe : Version → String
  | .v09 => "HTTP/0.9"
  | .v10 => "HTTP/1.0"
  | .v11 => "HTTP/1.1"
  | .v2 => "HTTP/2.0"
  | .v3 => "HTTP/3.0"

/-- The number of a body in its store. -/
abbrev BodyId := Nat

structure Request where
  method : String := "GET"
  target : Target := {}
  version : Version := .v11
  fields : Fields := {}
  body : BodyId
  deriving DecidableEq, Repr

/-! ### Response bodies -/

inductive Frame where
  | data (bytes : Octets)
  | trailers (fields : Fields)
  /-- the stream failed here, with this message -/
  | fault (message : String)
  deriving DecidableEq, Repr

inductive ReplyBody where
  /-- held whole, until it is read -/
  | whole (bytes : Option Octets)
  /-- one data frame of known size, or nothing -/
  | sized (bytes : Option Octets)
  /-- frames of unknown size -/
  | frames (rest : List Frame)
  deriving DecidableEq, Repr

namespace ReplyBody

def empty : ReplyBody := .whole none

/-- The body that holds a text, which is no body at all if the text is empty. -/
def ofText (s : String) : ReplyBody :=
  if s.isEmpty then empty else .whole (some (Octets.ofText s))

/-- A stream of one data frame; no bytes make no frame. -/
def ofSized (bytes : Octets) : ReplyBody := .sized (if bytes.isEmpty then none else some bytes)

/-- Nothing is left, as far as the body can tell without reading. -/
def atEnd : ReplyBody → Bool
  | .whole bytes | .sized bytes => bytes.isNone
  | .frames _ => false

/-- The exact size of what is left, if it is known. -/
def size? : ReplyBody → Option Nat
  | .whole bytes | .sized bytes => some (bytes.getD []).length
  | .frames _ => none

/-- Takes the next frame. -/
def next : ReplyBody → Option Frame × ReplyBody
  | .whole bytes => (bytes.map .data, .whole none)
  | .sized bytes => (bytes.map .data, .sized none)
  | .frames [] => (none, .frames [])
  | .frames (f :: rest) => (some f, .frames rest)

/-- The frames that are left. -/
def rest : ReplyBody → List Frame
  | .whole bytes | .sized bytes => (bytes.map Frame.data).toList
  | .frames fs => fs

/-- What reading some frames to the end gives: the data, with the trailers if there are any, or the
message of the first fault. A later trailers frame overrides fields of an earlier one. -/
def collectFrames : List Frame → Octets × Option Fields → Except String (Octets × Option Fields)
  | [], read => .ok read
  | .data bytes :: rest, (data, trailers) => collectFrames rest (data ++ bytes, trailers)
  | .trailers fields :: rest, (data, none) => collectFrames rest (data, some fields)
  | .trailers fields :: rest, (data, some earlier) =>
    collectFrames rest (data, some (earlier.override fields))
  | .fault message :: _, _ => .error message

def collect (b : ReplyBody) : Except String (Octets × Option Fields) :=
  collectFrames b.rest ([], none)

def describe : ReplyBody → String
  | .whole bytes =>
    Text.tuple "ResponseBody::Once" [Text.optional (bytes.map Text.quoteBytes)]
  | .sized _ | .frames _ => "ResponseBody::Stream"

end ReplyBody

structure Response where
  status : Nat := 200
  fields : Fields := {}
  body : ReplyBody := ReplyBody.empty
  deriving DecidableEq, Repr

end Exchange.Http
