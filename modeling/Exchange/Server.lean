import Exchange.Pipeline.Roster
import Exchange.Settings.Server

/-!
The server: every request gets its line-up, and every outcome becomes a response.

A `Blueprint` collects what a server is built from. A server answers a failure with the response
that stands for it; a panic that no pool caught is passed on to the caller. When a request has been
handled its body is let go, whoever consumed it or not.
-/
namespace Exchange

open Http (Request Response)
open Multipart (Demux Limits Supply)
open Pipeline (Assignment BuildFault Roster Scene Stage State Workers)

structure Server (σ W : Type) where
  roster : Roster σ W
  limits : Limits
  workers : Workers

structure Blueprint (σ W : Type) where
  assignments : List (Assignment σ W) := []
  terminal : Option (Stage σ W) := none
  settings : Settings.Server := {}

variable {σ W : Type}

namespace Blueprint

def build? (b : Blueprint σ W) : Except BuildFault (Server σ W) :=
  match b.terminal with
  | none => .error .missingTerminal
  | some terminal => do
    let workers ← Workers.start? b.settings.pools
    let roster ← Roster.build? b.assignments terminal workers
    return { roster, limits := b.settings.limits, workers }

def describe (b : Blueprint σ W) : String :=
  Text.record "ServerBuilder"
    [("registrations", Text.list (b.assignments.map Assignment.describe)),
     ("terminal", Text.optional (b.terminal.map Stage.describe)),
     ("config", b.settings.describe)]

end Blueprint

namespace Server

variable [Supply σ]

/-- Handles the request of a state and lets its body go. Gives the response, or the message of a
panic. -/
def handle (srv : Server σ W) (s : State σ W) : Except String Response × State σ W :=
  let (ending, s) := (srv.roster.lineupFor s.request).execute s
  (match ending with
    | .done response => .ok response
    | .failed e => .ok e.toResponse
    | .panicked m => .error m,
   { s with scene := s.scene.releaseAll })

/-- Handles a request whose body is to be read as parts from `source`. -/
def handleMultipart (srv : Server σ W) (source : σ) (s : State σ W) :
    Except String Response × State σ W :=
  let (id, scene) := s.scene.addBody { content := .parts { source, limits := srv.limits } }
  srv.handle { s with request := { s.request with body := id }, scene }

omit [Supply σ] in
def describe (srv : Server σ W) : String :=
  Text.record "Server"
    [("registry", srv.roster.describe), ("multipart", srv.limits.describe),
     ("executors", srv.workers.describe)]

end Server

end Exchange
