import Exchange.Proofs.Script.Custody
import Exchange.Server

/-!
The life of a body that is read as parts.

A server makes the body, its stages share it, and whoever of them takes its stream may read it for a
while. However the exchange comes to its end, the stream has been given up then: by its taker, or
with the body if nobody took it. As long as the stages are careful that is all there is to show
(`body_lifecycle`), since a demultiplexer that is given up leaves its supply settled.
-/
namespace Exchange

open Http (BodyId Request)
open Multipart (Awaited Buffer Demux Repaid Replay Settled Sound Supply Watched)
open Pipeline (Payload Scene Scope Stage State)

variable {σ ε W : Type} [Supply σ]

namespace Server

/-- All stages of a server are careful. -/
structure Careful (act : ε → σ → σ) (srv : Server σ W) : Prop where
  entries : ∀ entry ∈ srv.roster.entries, entry.2.Careful act
  terminal : srv.roster.terminal.Careful act

variable {act : ε → σ → σ} {srv : Server σ W}

theorem Careful.stages (h : srv.Careful act) (r : Request) :
    ∀ stage ∈ (srv.roster.lineupFor r).stages, stage.Careful act := by
  intro stage hstage
  rcases List.mem_append.mp hstage with hentry | hlast
  · obtain ⟨entry, hmem, rfl⟩ := List.mem_map.mp hentry
    exact h.entries entry (List.mem_of_mem_filter hmem)
  · rw [List.mem_singleton.mp hlast]
    exact h.terminal

/-- Careful stages are careful together. -/
theorem Careful.execute (h : srv.Careful act) (id : BodyId) (r : Request) (s : State σ W) :
    s.scene.Treats act id ((srv.roster.lineupFor r).execute s).2.scene :=
  Pipeline.runFrom_respects (fun stage hstage => h.stages r stage hstage id) 0 none s

end Server

omit [Supply σ] in
theorem body_addBody (p : Payload σ) (s : Scene σ W) :
    (s.addBody p).2.body s.bodies.length = p := by
  simp [Scene.body, Scene.addBody]

theorem body_releaseAll {id : BodyId} {s : Scene σ W} (h : id < s.bodies.length) :
    s.releaseAll.body id = (s.body id).release := by
  simp [Scene.body, Scene.releaseAll, List.getD, h]

/-- What holds of the stream of a body, and stays true of it, holds of it when it is given up. -/
theorem Server.Careful.stream_given_up {act : ε → σ → σ} {srv : Server σ W}
    (h : srv.Careful act) {good : Demux σ → Prop}
    (hgood : ∀ d d', good d → d.Goes act d' → good d') (source : σ)
    (hsource : good { source, limits := srv.limits }) (s : State σ W) :
    let body := (srv.handleMultipart source s).2.scene.body s.scene.bodies.length
    ∃ d, good d ∧ body.settle = ⟨.parts d.drop, .released⟩ ∧
      (body.custody ≠ .lent → body = ⟨.parts d.drop, .released⟩) := by
  intro body
  let p : Payload σ := { content := .parts { source, limits := srv.limits } }
  let id := s.scene.bodies.length
  let t : State σ W :=
    { s with request := { s.request with body := id }, scene := (s.scene.addBody p).2 }
  let final := ((srv.roster.lineupFor t.request).execute t).2.scene
  -- the body is there before any stage runs, so all of them have to treat it with care
  have hmade : id < t.scene.bodies.length := by
    simp [id, t, Scene.addBody]
  have htreats : t.scene.Treats act id final := h.execute id t.request t
  have hcarries : (final.body id).Carries good := by
    refine Payload.Carries.treated hgood ?_ (htreats.moves hmade)
    rw [show t.scene.body id = p from body_addBody p s.scene]
    exact .kept hsource
  have hbody : body = (final.body id).release := body_releaseAll (htreats.made hmade)
  obtain ⟨d, hd, hsettled, hreturned⟩ := hcarries.settled
  rw [hbody]
  refine ⟨d, hd, hsettled, fun hlent => hreturned fun heq => hlent ?_⟩
  -- a stream that somebody has stays with him when the body is let go
  unfold Payload.release
  rw [heq]
  exact heq

/-- **The life of a body.** Put on record what a source is asked for and what comes back to it. When
a server whose stages are careful has handled a request with a body from that source, whatever the
exchange came to, the stream of the body has been given up by whoever had it, and the source is
settled: it was dropped, last and once; it was cancelled once, or never if it had completed; behind
its end it was not polled; and the buffer of each chunk that it delivered came back to it once. -/
theorem body_lifecycle {act : ε → σ → σ} {srv : Server (Watched (Repaid σ)) W}
    (h : srv.Careful (Watched.happen (Repaid.happen act))) (source : σ)
    (s : State (Watched (Repaid σ)) W) :
    let body := (srv.handleMultipart ⟨⟨source, []⟩, []⟩ s).2.scene.body s.scene.bodies.length
    ∃ d, body.settle = ⟨.parts d, .released⟩ ∧
      (body.custody ≠ .lent → body = ⟨.parts d, .released⟩) ∧ Settled d.source := by
  intro body
  obtain ⟨d, hd, hsettled, hreturned⟩ :=
    h.stream_given_up (fun _ _ => Sound.goes) _ (.start srv.limits source) s
  exact ⟨d.drop, hsettled, hreturned, hd.settled⟩

/-- A server whose only filter reads a part on a worker pool and panics there. -/
def losing : Server (Watched (Repaid Replay)) Script.Log where
  roster := {
    entries := [(Scope.everything, .hop
      (Script.Actor.stage
        { id := "reader", role := .before [.probe (.take 1 1), .probe (.panic "lost")] })
      { name := "io" })]
    terminal := Script.Actor.stage { id := "end", role := .terminal [] } }
  limits := {}
  workers := .start [("io", 1)]

/-- A body of two fields. -/
def twoFields : Replay :=
  .ofEvents [.fragment ⟨{ name := "a" }, { bytes := [1] }, true⟩,
    .fragment ⟨{ name := "b" }, { bytes := [2] }, true⟩] true false

def arriving : State (Watched (Repaid Replay)) Script.Log where
  request := { body := 0 }
  scene := { world := [] }

/-- The buffers that came back to the source of a body, if it is read as parts. -/
def returnedTo (p : Payload (Watched (Repaid Replay))) : List Buffer :=
  match p.content with
  | .parts d => d.source.source.returned
  | .whole _ => []

theorem losing_careful :
    losing.Careful (Watched.happen (Repaid.happen fun _ : Unit => Awaited.wait)) where
  entries := by
    intro entry hentry
    rw [List.mem_singleton.mp hentry]
    exact Script.Actor.stage_careful _
  terminal := Script.Actor.stage_careful { id := "end", role := .terminal [] }

/-- The task is lost, but the stream is not. -/
theorem body_lifecycle_losing :
    losing.Careful (Watched.happen (Repaid.happen fun _ : Unit => Awaited.wait)) ∧
      ∃ d, (losing.handleMultipart ⟨⟨twoFields, []⟩, []⟩ arriving).2.scene.body 0 =
          ⟨.parts d, .released⟩ ∧
        Settled d.source ∧ d.source.source.returned = [{ bytes := [1] }] := by
  obtain ⟨d, -, hreturned, hsettled⟩ := body_lifecycle losing_careful twoFields arriving
  have hbody := hreturned (by decide +kernel)
  refine ⟨losing_careful, d, hbody, hsettled, ?_⟩
  have hback : returnedTo ((losing.handleMultipart ⟨⟨twoFields, []⟩, []⟩ arriving).2.scene.body
      arriving.scene.bodies.length) = [{ bytes := [1] }] := by decide +kernel
  rw [hbody] at hback
  exact hback

end Exchange
