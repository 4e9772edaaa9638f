import Exchange.Multipart.Limits
import Exchange.Settings.Json
import Exchange.Text.Quoted

/-!
The settings of a server: the limits of bodies and the worker pools.
-/
namespace Exchange.Settings

open Multipart (Limits)

/-- A pool that says nothing about its threads has this many. -/
def defaultThreads : Nat := 4

structure Server where
  limits : Limits := {}
  /-- the worker pools by name, with their threads -/
  pools : List (String × Nat) := []
  deriving DecidableEq, Repr

namespace Server

/-- Adds a pool, or replaces the one of that name. -/
def withPool (name : String) (threads : Nat) (s : Server) : Server :=
  { s with pools := s.pools.filter (·.1 != name) ++ [(name, threads)] }

def describe (s : Server) : String :=
  Text.record "ServerConfig"
    [("multipart", s.limits.describe),
     ("executors", Text.map (s.pools.map fun p =>
       (Text.quote p.1, Text.record "ExecutorConfig" [("worker_threads", toString p.2)])))]

end Server

/-! ### Reading -/

def limitsReader : Reader Limits :=
  record [
    ⟨"enabled", fun l text => do
      let (v, text) ← truth text
      return ({ l with enabled := v }, text)⟩,
    ⟨"max_file_size", fun l text => do
      let (v, text) ← natural text
      return ({ l with maxPart := v }, text)⟩,
    ⟨"max_request_size", fun l text => do
      let (v, text) ← natural text
      return ({ l with maxBody := v }, text)⟩,
    ⟨"max_parts", fun l text => do
      let (v, text) ← nullable natural text
      return ({ l with maxParts := v }, text)⟩] {}

/-- The threads of one pool. -/
def threadsReader : Reader Nat :=
  record [⟨"worker_threads", fun _ text => natural text⟩] defaultThreads

def serverReader : Reader Server :=
  record [
    ⟨"multipart", fun s text => do
      let (v, text) ← limitsReader text
      return ({ s with limits := v }, text)⟩,
    ⟨"executors", fun s text => do
      let (v, text) ← table threadsReader text
      return ({ s with pools := v }, text)⟩] {}

/-- Reads the settings of a server. -/
def Server.ofText? (text : String) : Except ReadError Server :=
  parse serverReader (Octets.ofText text)

end Exchange.Settings
