/-!
The logger of a process, of which there is at most one.
-/
namespace Exchange.Settings

/-- Where the records of a process go. -/
structure Logger where
  /-- the least important kind of record that is kept -/
  level : String
  deriving DecidableEq, Repr

/-- The process has a logger already. -/
inductive LoggerFault where
  | taken
  deriving DecidableEq, Repr

def LoggerFault.message : LoggerFault → String
  | .taken => "a global default trace dispatcher has already been set"

/-- Makes `logger` the logger of a process that has `current`. -/
def Logger.install? (current : Option Logger) (logger : Logger) : Except LoggerFault Logger :=
  match current with
  | none => .ok logger
  | some _ => .error .taken

end Exchange.Settings
