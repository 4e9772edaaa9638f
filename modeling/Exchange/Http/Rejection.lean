/-!
Why a piece of a message is refused.
-/
namespace Exchange.Http

/-- What is wrong with a request target. -/
inductive TargetFault where
  | character
  | authority
  | format
  | tooLong
  | empty
  | schemeTooLong
  deriving DecidableEq, Repr

def TargetFault.message : TargetFault → String
  | .character => "invalid uri character"
  | .authority => "invalid authority"
  | .format => "invalid format"
  | .tooLong => "uri too long"
  | .empty => "empty string"
  | .schemeTooLong => "scheme too long"

inductive Rejection where
  | method
  | fieldName
  | fieldValue
  | status
  | target (fault : TargetFault)
  deriving DecidableEq, Repr

def Rejection.message : Rejection → String
  | .method => "invalid HTTP method"
  | .fieldName => "invalid HTTP header name"
  | .fieldValue => "failed to parse header value"
  | .status => "invalid status code"
  | .target fault => fault.message

end Exchange.Http
