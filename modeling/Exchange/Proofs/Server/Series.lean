import Exchange.Proofs.Pipeline.Assembly
import Exchange.Proofs.Pipeline.Guards
import Exchange.Proofs.Pipeline.Posts
import Exchange.Proofs.Server.Surfacing

/-!
A response that can be taken once.

A reactive stage answers with a response that comes from elsewhere, and once that is taken there is
no second one. A run takes it if it gets to the stage, and otherwise leaves it alone
(`takes_or_spares`). In a `Series` line-ups and servers that share one response are used one after
the other, so whether it is still there is known from the runs before (`Series.spent_iff`). The
first run to get to the stage has the response there, and any later one fails there (`given_once`).
-/
namespace Exchange

/-- The roster of a server that could be built. -/
theorem Blueprint.build?_roster {σ W : Type} {b : Blueprint σ W} {terminal : Pipeline.Stage σ W}
    {srv : Server σ W} (hterminal : b.terminal = some terminal) (h : b.build? = .ok srv) :
    ∃ workers, Pipeline.Roster.build? b.assignments terminal workers = .ok srv.roster := by
  unfold build? at h
  rw [hterminal] at h
  dsimp only at h
  cases hworkers : Pipeline.Workers.start? b.settings.pools with
  | error e =>
    rw [hworkers] at h
    cases h
  | ok workers =>
    rw [hworkers] at h
    change (Pipeline.Roster.build? b.assignments terminal workers >>= fun _ => _) = _ at h
    cases hroster : Pipeline.Roster.build? b.assignments terminal workers with
    | error e =>
      rw [hroster] at h
      cases h
    | ok roster =>
      rw [hroster] at h
      cases h
      exact ⟨workers, hroster⟩

end Exchange

namespace Exchange.Pipeline

open Http (Request Response)
open Multipart (Replay Supply)

variable {σ W : Type} {act : Site → Scene σ W → Ending Cause Response × Scene σ W}

/-! ### Whether the response is taken -/

/-- The leg goes on to the stage that takes a response, on whatever pool. -/
def Leg.Takes (act : Site → Scene σ W → Ending Cause Response × Scene σ W) (l : Leg σ W) : Prop :=
  ∃ l' frames, Inside l l' frames ∧ l'.stages = [.reactive act]

/-- The leg leaves a response where it is, taken or not. -/
def Leg.Spares (l : Leg σ W) : Prop := l.run.2.spent = l.state.spent

theorem Frame.receive_spent (frame : Frame σ W) (x : Ending Failure Response × State σ W) :
    (frame.receive x).2.spent = x.2.spent := by
  obtain ⟨ending, t⟩ := x
  cases frame with
  | hop worker entered => cases ending <;> rfl
  | resume second => cases ending <;> rfl
  | adjust act =>
    cases ending with
    | done response =>
      unfold receive adjustWith
      dsimp only
      obtain ⟨_ | _ | _, scene⟩ := act t.request response t.scene <;> rfl
    | failed f => rfl
    | panicked m => rfl

theorem unwind_spent (frames : List (Frame σ W)) (x : Ending Failure Response × State σ W) :
    (unwind frames x).2.spent = x.2.spent := by
  induction frames generalizing x with
  | nil => rfl
  | cons frame outer ih => exact (ih (frame.receive x)).trans (frame.receive_spent x)

theorem into_spent {l l' : Leg σ W} {frames : List (Frame σ W)} (h : Into l l' frames) :
    l'.state.spent = l.state.spent := by
  cases h <;> rfl

theorem inside_spent {l l' : Leg σ W} {frames : List (Frame σ W)} (h : Inside l l' frames) :
    l'.state.spent = l.state.spent := by
  induction h with
  | here l => rfl
  | into hinto _ ih => exact ih.trans (into_spent hinto)

namespace Leg

/-- What holds of the leg that a run goes on with holds of the leg that it comes from. -/
theorem takes_or_spares_into {l l' : Leg σ W} {frames : List (Frame σ W)}
    (hinto : Into l l' frames) (h : l'.Takes act ∨ l'.Spares) : l.Takes act ∨ l.Spares := by
  rcases h with ⟨last, inner, hinside, hlast⟩ | hspares
  · exact .inl ⟨last, inner ++ frames, .into hinto hinside, hlast⟩
  · refine .inr ?_
    unfold Spares
    rw [into_run hinto, unwind_spent, hspares, into_spent hinto]

/-- A hop makes no difference, and its stage does not run if the pool was stopped. -/
theorem takes_or_spares_hop {index : Nat} {inner : Stage σ W} {worker : Worker}
    {below : List (Stage σ W)} {s : State σ W}
    (h : ∀ pool,
      Takes act ⟨index, inner :: below, pool, s⟩ ∨ Spares ⟨index, inner :: below, pool, s⟩)
    (pool : Option String) :
    Takes act ⟨index, .hop inner worker :: below, pool, s⟩ ∨
      Spares ⟨index, .hop inner worker :: below, pool, s⟩ := by
  cases hrunning : worker.running with
  | true => exact takes_or_spares_into (.hop hrunning) (h _)
  | false =>
    refine .inr ?_
    unfold Spares Leg.run runFrom Stage.run
    rw [if_neg (by rw [hrunning]; exact Bool.false_ne_true)]

/-- A stage that does not handle requests leaves it to the rest of the run. -/
theorem takes_or_spares_cons {index : Nat} {below : List (Stage σ W)}
    (hbelow : ∀ pool s, Takes act ⟨index + 1, below, pool, s⟩ ∨ Spares ⟨index + 1, below, pool, s⟩)
    {stage : Stage σ W} (hstage : stage.isTerminal = false) (pool : Option String)
    (s : State σ W) :
    Takes act ⟨index, stage :: below, pool, s⟩ ∨ Spares ⟨index, stage :: below, pool, s⟩ := by
  induction stage generalizing pool with
  | before rank own act' =>
    obtain ⟨ending, request, scene, hact⟩ : ∃ ending request scene,
        act' ⟨pool, index + 1, below.length⟩ s.request s.scene = (ending, request, scene) :=
      ⟨_, _, _, rfl⟩
    match ending, hact with
    | .done none, hact => exact takes_or_spares_into (.passed hact) (hbelow _ _)
    | .done (some response), hact | .failed cause, hact | .panicked m, hact =>
      refine .inr ?_
      unfold Spares Leg.run runFrom Stage.run
      rw [hact]
      rfl
  | wrapping rank own enter =>
    obtain ⟨passage, request, scene, henter⟩ : ∃ passage request scene,
        enter ⟨pool, index + 1, below.length⟩ s.request s.scene = (passage, request, scene) :=
      ⟨_, _, _, rfl⟩
    cases passage with
    | answer ending =>
      refine .inr ?_
      unfold Spares Leg.run runFrom Stage.run
      rw [henter]
      cases ending <;> rfl
    | proceed resume => exact takes_or_spares_into (.wrapped henter) (hbelow _ _)
  | after rank own act' => exact takes_or_spares_into .awaited (hbelow _ _)
  | around rank own enabled enter =>
    cases enabled with
    | false => exact takes_or_spares_into .skipped (hbelow _ _)
    | true =>
      obtain ⟨passage, request, scene, henter⟩ : ∃ passage request scene,
          enter ⟨pool, index + 1, below.length⟩ s.request s.scene = (passage, request, scene) :=
        ⟨_, _, _, rfl⟩
      cases passage with
      | answer ending =>
        refine .inr ?_
        unfold Spares Leg.run runFrom Stage.run
        rw [if_pos rfl, henter]
        rfl
      | proceed resume => exact takes_or_spares_into (.surrounded henter) (hbelow _ _)
  | hop inner worker ih => exact takes_or_spares_hop (ih hstage) pool
  | terminal act' => cases hstage
  | reactive act' => cases hstage

/-- The last stage takes the response, unless a pool on the way to it was stopped. -/
theorem takes_or_spares_last {last : Stage σ W} (hlast : last.core = .reactive act) (index : Nat)
    (pool : Option String) (s : State σ W) :
    Takes act ⟨index, [last], pool, s⟩ ∨ Spares ⟨index, [last], pool, s⟩ := by
  induction last generalizing pool with
  | hop inner worker ih => exact takes_or_spares_hop (ih hlast) pool
  | reactive act' =>
    cases hlast
    exact .inl ⟨_, [], .here _, rfl⟩
  | before | wrapping | after | around | terminal => cases hlast

/-- A run gets to the stage that takes the response, or leaves it where it is. -/
theorem takes_or_spares {covering : List (Stage σ W)} {last : Stage σ W}
    (hcovering : ∀ stage ∈ covering, stage.isTerminal = false) (hlast : last.core = .reactive act)
    (index : Nat) (pool : Option String) (s : State σ W) :
    Takes act ⟨index, covering ++ [last], pool, s⟩ ∨
      Spares ⟨index, covering ++ [last], pool, s⟩ := by
  induction covering generalizing index pool s with
  | nil => exact takes_or_spares_last hlast index pool s
  | cons stage covering ih =>
    exact takes_or_spares_cons (fun pool s => ih (fun x hx => hcovering x (.tail _ hx)) _ pool s)
      (hcovering stage (.head _)) pool s

end Leg

/-! ### The stage that takes it -/

/-- The ending of the run at the stage that took a response with that ending. -/
def taken : Ending Cause Response → Ending Failure Response
  | .done response => .done response
  | .failed cause => .failed (surfaced .handler cause)
  | .panicked m => .panicked m

/-- The stage has the response if it was not taken before, and fails otherwise. -/
theorem reactive_run {l : Leg σ W} (h : l.stages = [.reactive act]) :
    l.run =
      if l.state.spent then (.failed .sourceConsumed, l.state)
      else
        let (ending, scene) := act ⟨l.pool, l.index + 1, 0⟩ l.state.scene
        (taken ending, { l.state with scene, spent := true }) := by
  obtain ⟨index, stages, pool, s⟩ := l
  dsimp only at h ⊢
  subst h
  unfold Leg.run runFrom
  dsimp only
  rw [List.length_nil]
  cases hspent : s.spent with
  | true => exact Stage.run_reactive_spent hspent
  | false =>
    rw [Stage.run_reactive_ready hspent, if_neg Bool.false_ne_true]
    obtain ⟨_ | cause | _, scene⟩ := act ⟨pool, index + 1, 0⟩ s.scene
    · rfl
    · exact Prod.ext (congrArg Ending.failed (wrap_eq_surfaced .handler cause)) rfl
    · rfl

/-! ### Series of runs -/

/-- A line-up that is run, with the state that it is run from and the one that is left. -/
structure Occasion (σ W : Type) where
  lineup : Lineup σ W
  found : State σ W
  left : State σ W

namespace Occasion

/-- All stages, as they are reached in the run. -/
def whole (o : Occasion σ W) : Leg σ W := ⟨0, o.lineup.stages, none, o.found⟩

/-- A stage with this response ends what is run: a line-up that was assembled, the line-up that a
roster has for some request, or that of a server. -/
inductive Of [Supply σ] (act : Site → Scene σ W → Ending Cause Response × Scene σ W) :
    Occasion σ W → Prop where
  | lineup {listed last p} (s : State σ W) : Lineup.assemble? (listed ++ [last]) = .ok p →
      last.core = .reactive act → Of act ⟨p, s, (p.execute s).2⟩
  | roster {assignments terminal workers roster} (r : Request) (s : State σ W) :
      Roster.build? assignments terminal workers = .ok roster → terminal.core = .reactive act →
      Of act ⟨roster.lineupFor r, s, ((roster.lineupFor r).execute s).2⟩
  | server {blueprint : Blueprint σ W} {terminal server} (s : State σ W) :
      blueprint.build? = .ok server → blueprint.terminal = some terminal →
      terminal.core = .reactive act →
      Of act ⟨server.roster.lineupFor s.request, s, (server.handle s).2⟩

end Occasion

/-- Occasions that share one response: each finds it as the one before left it. -/
inductive Series [Supply σ] (act : Site → Scene σ W → Ending Cause Response × Scene σ W) :
    (spent : Bool) → List (Occasion σ W) → Prop where
  | nil (spent : Bool) : Series act spent []
  | cons {o rest} : o.Of act → Series act o.left.spent rest →
      Series act o.found.spent (o :: rest)

/-! ### What is used -/

/-- Stages that assignments put into a line-up do not handle requests. -/
theorem Roster.lineupFor_covering {assignments : List (Assignment σ W)} {terminal : Stage σ W}
    {workers : Workers} {roster : Roster σ W}
    (h : Roster.build? assignments terminal workers = .ok roster) (r : Request) :
    ∃ covering, (roster.lineupFor r).stages = covering ++ [terminal] ∧
      ∀ stage ∈ covering, stage.isTerminal = false := by
  obtain ⟨-, hassigned, -⟩ := build?_ok h
  refine ⟨_, Roster.lineupFor_built h r, fun stage hstage => ?_⟩
  obtain ⟨a, ha, hfor⟩ := List.mem_filterMap.mp ((List.mergeSort_perm _ _).mem_iff.mp hstage)
  unfold Assignment.stageFor? at hfor
  split at hfor
  · next hbound _ =>
    obtain ⟨-, hsame⟩ := Option.ite_none_right_eq_some.mp hfor
    rw [← Option.some.inj hsame, Assignment.isTerminal_bind? hbound]
    exact hassigned a ha
  · cases hfor

theorem Occasion.Of.stages [Supply σ] {o : Occasion σ W} (h : o.Of act) :
    ∃ covering last, o.lineup.stages = covering ++ [last] ∧
      (∀ stage ∈ covering, stage.isTerminal = false) ∧ last.core = .reactive act := by
  cases h with
  | @lineup listed last p s hassembled hlast =>
    have hterminal : last.isTerminal = true := by rw [← Stage.isTerminal_core, hlast]; rfl
    rcases Lineup.assemble?_cases (listed ++ [last]) with ⟨-, hcame⟩ | ⟨-, hcame⟩ |
      ⟨-, -, hcame⟩ | ⟨listed', last', hsplit, -, hlisted, -, hcame⟩
    · cases hassembled.symm.trans hcame
    · cases hassembled.symm.trans hcame
    · cases hassembled.symm.trans hcame
    · obtain ⟨rfl, hsame⟩ := List.append_inj' hsplit rfl
      obtain ⟨rfl, -⟩ := List.cons.inj hsame
      obtain rfl := Except.ok.inj (hassembled.symm.trans hcame)
      exact ⟨_, last, rfl,
        fun stage hstage => hlisted stage ((List.mergeSort_perm _ _).mem_iff.mp hstage), hlast⟩
  | roster r s hbuilt hlast =>
    obtain ⟨covering, hstages, hcovering⟩ := Roster.lineupFor_covering hbuilt r
    exact ⟨covering, _, hstages, hcovering, hlast⟩
  | server s hbuilt hterminal hlast =>
    obtain ⟨workers, hroster⟩ := Blueprint.build?_roster hterminal hbuilt
    obtain ⟨covering, hstages, hcovering⟩ := Roster.lineupFor_covering hroster s.request
    exact ⟨covering, _, hstages, hcovering, hlast⟩

/-! ### Runs one after the other -/

theorem Leg.Takes.spent {l : Leg σ W} (h : l.Takes act) : l.run.2.spent = true := by
  obtain ⟨last, frames, hinside, hlast⟩ := h
  rw [inside_run hinside, unwind_spent, reactive_run hlast]
  split
  · next hspent => exact hspent
  · rfl

namespace Occasion.Of

variable [Supply σ] {o : Occasion σ W}

/-- What an occasion leaves of the response is what the run leaves of it. -/
theorem left_spent (h : o.Of act) : o.left.spent = o.whole.run.2.spent := by
  cases h <;> rfl

/-- A run that does not get to the stage leaves the response alone. -/
theorem spares (h : o.Of act) (hnot : ¬o.whole.Takes act) :
    o.left.spent = o.found.spent := by
  obtain ⟨covering, last, hstages, hcovering, hlast⟩ := h.stages
  have hwhole : o.whole = ⟨0, covering ++ [last], none, o.found⟩ := by
    unfold whole
    rw [hstages]
  rw [h.left_spent]
  rw [hwhole] at hnot ⊢
  exact (Leg.takes_or_spares hcovering hlast 0 none o.found).resolve_left hnot

/-- After an occasion the response is gone if it was before, or if the run got to it. -/
theorem left_spent_iff (h : o.Of act) :
    o.left.spent = true ↔ o.found.spent = true ∨ o.whole.Takes act := by
  by_cases htakes : o.whole.Takes act
  · rw [h.left_spent]
    exact ⟨fun _ => .inr htakes, fun _ => htakes.spent⟩
  · rw [h.spares htakes]
    exact ⟨.inl, fun hor => hor.resolve_right htakes⟩

end Occasion.Of

/-- At an occasion the response is gone if it was gone in the beginning, or if some run before got
to it. -/
theorem Series.spent_iff [Supply σ] {spent : Bool} {all earlier later : List (Occasion σ W)}
    {o : Occasion σ W} (h : Series act spent all) (hsplit : all = earlier ++ o :: later) :
    o.Of act ∧
      (o.found.spent = true ↔ spent = true ∨ ∃ e ∈ earlier, e.whole.Takes act) := by
  induction h generalizing earlier with
  | nil => exact absurd hsplit (by simp)
  | @cons first rest hof _ ih =>
    cases earlier with
    | nil =>
      obtain ⟨rfl, -⟩ := List.cons.inj hsplit
      refine ⟨hof, .inl, fun hor => hor.resolve_right ?_⟩
      rintro ⟨e, he, -⟩
      cases he
    | cons e earlier =>
      obtain ⟨rfl, hrest⟩ := List.cons.inj hsplit
      obtain ⟨hlast, hspent⟩ := ih hrest
      refine ⟨hlast, ?_⟩
      rw [hspent, hof.left_spent_iff, or_assoc, List.exists_mem_cons_iff]

/-- **Given once.** Line-ups and servers that end with the same reactive stage are used one after
the other, from a response on that is still there. A run that does not get to the stage leaves the
response alone. What a run that does get there comes to is what the stage comes to, once that went
through all frames around it. In the first such run that is what the response comes to, with its
cause as the handler's if it fails. In any later one it is a failure, the response is not asked for
again, and the stage leaves the state as it is. -/
theorem given_once [Supply σ] {all earlier later : List (Occasion σ W)} {o : Occasion σ W}
    (h : Series act false all) (hsplit : all = earlier ++ o :: later) :
    (¬o.whole.Takes act → o.left.spent = o.found.spent) ∧
    ∀ l frames, Inside o.whole l frames → l.stages = [.reactive act] →
      o.lineup.execute o.found = unwind frames l.run ∧
      ((∀ e ∈ earlier, ¬e.whole.Takes act) →
        let (ending, scene) := act ⟨l.pool, l.index + 1, 0⟩ l.state.scene
        l.run = (taken ending, { l.state with scene, spent := true })) ∧
      ((∃ e ∈ earlier, e.whole.Takes act) → l.run = (.failed .sourceConsumed, l.state)) := by
  obtain ⟨hof, hspent⟩ := h.spent_iff hsplit
  refine ⟨hof.spares, fun l frames hinside hlast => ⟨inside_run hinside, ?_, ?_⟩⟩
  · intro hnone
    have hunspent : ¬l.state.spent = true := by
      rw [inside_spent hinside]
      intro hgone
      rcases hspent.mp hgone with h | ⟨e, he, htakes⟩
      · cases h
      · exact hnone e he htakes
    rw [reactive_run hlast, if_neg hunspent]
  · intro hsome
    rw [reactive_run hlast, if_pos ((inside_spent hinside).trans (hspent.mpr (.inr hsome)))]

/-- A response that comes from elsewhere. -/
def elsewhere : Site → Scene Replay Unit → Ending Cause Response × Scene Replay Unit :=
  fun _ scene => (.done { status := 202 }, scene)

/-- Takes the response on a pool. -/
def giving : Stage Replay Unit := .hop (.reactive elsewhere) { name := "io" }

/-- Answers by itself. -/
def sparing : Stage Replay Unit :=
  .before .dynamic 0 fun _ request scene => (.done (some { status := 204 }), request, scene)

/-- Answers with the status of a failure. -/
def mending : Resume Replay Unit := fun given request scene =>
  (.done (match given with
    | .ok response => response
    | .error f => { status := f.status }), request, scene)

def mended : Stage Replay Unit :=
  .around .dynamic 0 true fun _ request scene => (.proceed mending, request, scene)

/-- A server with this stage around the one that takes the response. -/
def mendedBlueprint : Blueprint Replay Unit where
  assignments := [{ stage := mended }]
  terminal := some giving

def mendedServer : Server Replay Unit where
  roster := ⟨[({}, mended)], giving⟩
  limits := {}
  workers := {}

theorem given_once_thrice :
    let s : State Replay Unit := { request := { body := 0 }, scene := { world := () } }
    let first : Occasion Replay Unit :=
      ⟨⟨[sparing, giving]⟩, s, (Lineup.execute ⟨[sparing, giving]⟩ s).2⟩
    let second : Occasion Replay Unit := ⟨⟨[giving]⟩, s, (Lineup.execute ⟨[giving]⟩ s).2⟩
    let third : Occasion Replay Unit :=
      ⟨⟨[mended, giving]⟩, second.left, (mendedServer.handle second.left).2⟩
    Series elsewhere false [first, second, third] ∧ first.left.spent = false ∧
      (second.lineup.execute second.found).1 = .done { status := 202 } ∧
      (third.lineup.execute third.found).1 = .done { status := 500 } := by
  intro s first second third
  have hfirst : first.Of elsewhere :=
    @Occasion.Of.lineup _ _ _ _ [sparing] giving _ s (by cbv) rfl
  have hsecond : second.Of elsewhere := @Occasion.Of.lineup _ _ _ _ [] giving _ s (by cbv) rfl
  have hthird : third.Of elsewhere :=
    @Occasion.Of.server _ _ _ _ mendedBlueprint giving mendedServer second.left (by cbv) rfl rfl
  have hseries : Series elsewhere false [first, second, third] :=
    .cons hfirst (.cons hsecond (.cons hthird (.nil _)))
  have hthere : Inside second.whole ⟨0, [.reactive elsewhere], some "io", s⟩
      [.hop { name := "io" } s.request] := .into (.hop rfl) (.here _)
  have hagain : Inside third.whole ⟨1, [.reactive elsewhere], some "io", second.left⟩
      [.hop { name := "io" } s.request, .resume mending] :=
    .into (.surrounded rfl) (.into (.hop rfl) (.here _))
  have hstops : ¬first.whole.Takes elsewhere := by
    rintro ⟨l, frames, hinside, hlast⟩
    cases hinside with
    | here => cases hlast
    | into hinto _ =>
      cases hinto with
      | passed hact => cases hact
  refine ⟨hseries, ?_, ?_, ?_⟩
  · exact (given_once hseries (show _ = [] ++ first :: [second, third] from rfl)).1 hstops
  · obtain ⟨-, hreaches⟩ := given_once hseries (show _ = [first] ++ second :: [third] from rfl)
    obtain ⟨hcame, hgiven, -⟩ := hreaches _ _ hthere rfl
    rw [hcame, hgiven (by simpa using hstops)]
    rfl
  · obtain ⟨-, hreaches⟩ := given_once hseries (show _ = [first, second] ++ third :: [] from rfl)
    obtain ⟨hcame, -, hlater⟩ := hreaches _ _ hagain rfl
    rw [hcame, hlater ⟨second, by simp, _, _, hthere, rfl⟩]
    rfl

/-- A body's fault is not made the handler's failure. -/
theorem body_fault_kept :
    let act : Site → Scene Replay Unit → Ending Cause Response × Scene Replay Unit :=
      fun _ scene => (.failed (.body (.malformed "bad")), scene)
    let s : State Replay Unit := { request := { body := 0 }, scene := { world := () } }
    let o : Occasion Replay Unit := ⟨⟨[.reactive act]⟩, s, (Lineup.execute ⟨[.reactive act]⟩ s).2⟩
    Series act false [o] ∧ o.whole.Takes act ∧
      (o.lineup.execute o.found).1 = .failed (.body (.malformed "bad")) ∧
      ∀ cause, (o.lineup.execute o.found).1 ≠ .failed (.handler cause) := by
  intro act s o
  have hof : o.Of act := @Occasion.Of.lineup _ _ _ _ [] (.reactive act) _ s (by cbv) rfl
  exact ⟨.cons hof (.nil _), ⟨_, [], .here _, rfl⟩, rfl, fun _ h => by cases h⟩

end Exchange.Pipeline
