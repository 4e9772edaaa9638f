import Exchange.Proofs.Pipeline.Marked

/-!
Runs within runs.

A `Leg` is a part of a run: some stages, run on a pool over a state. A leg lies `Inside` another one
with frames around it, which are what is left to do when it is over: a hop is to come back from, a
wrapping stage is to get its second half, a response is to be adjusted. What a leg comes to goes
through its frames from the inside out (`inside_run`). A panic gets to the innermost hop among them
(`contained`).
-/
namespace Exchange.Pipeline

open Http (Request Response)

variable {σ W : Type}

/-! ### Legs and frames -/

/-- Stages, of which the first has the given index, as they are reached in a run. -/
structure Leg (σ W : Type) where
  index : Nat
  stages : List (Stage σ W)
  pool : Option String
  state : State σ W

/-- What is left to do when a leg is over. -/
inductive Frame (σ W : Type) where
  /-- to come back from a pool, to which the run went with a request -/
  | hop (worker : Worker) (entered : Request)
  /-- to let a wrapping stage have its second half -/
  | resume (resume : Resume σ W)
  | adjust (act : Request → Response → Scene σ W → Ending Cause Response × Scene σ W)

def Leg.run (l : Leg σ W) : Ending Failure Response × State σ W :=
  runFrom l.index l.stages l.pool l.state

/-- Lets a stage adjust the response that the rest of the pipeline came to, if it did. -/
def adjustWith (act : Request → Response → Scene σ W → Ending Cause Response × Scene σ W) :
    Ending Failure Response × State σ W → Ending Failure Response × State σ W
  | (.done response, s) =>
    match act s.request response s.scene with
    | (.done response, scene) => (.done response, { s with scene })
    | (.failed cause, scene) => (.failed (.ofFilter cause), { s with scene })
    | (.panicked m, scene) => (.panicked m, { s with scene })
  | other => other

namespace Frame

def isHop : Frame σ W → Bool
  | hop .. => true
  | _ => false

/-- The frame is shown failures. -/
def observes : Frame σ W → Bool
  | resume _ => true
  | _ => false

def receive : Frame σ W → Ending Failure Response × State σ W →
    Ending Failure Response × State σ W
  | hop worker entered, (.panicked m, t) =>
    (.failed (worker.panicFailure m), { t with request := handBack entered })
  | hop _ _, x => x
  | resume second, x => resumeWith second x
  | adjust act, x => adjustWith act x

/-- Only hops stop a panic. -/
theorem receive_panicked {frame : Frame σ W} (h : frame.isHop = false) (m : String)
    (t : State σ W) : frame.receive (.panicked m, t) = (.panicked m, t) := by
  cases frame with
  | hop worker entered => cases h
  | resume second => rfl
  | adjust act => rfl

/-- A failure passes what is not shown it. -/
theorem receive_failed {frame : Frame σ W} (h : frame.observes = false) (f : Failure)
    (t : State σ W) : frame.receive (.failed f, t) = (.failed f, t) := by
  cases frame with
  | hop worker entered => rfl
  | resume second => cases h
  | adjust act => rfl

/-- A hop may hide a panic, but not what is on record of it. -/
theorem log_hop (worker : Worker) (entered : Request)
    (x : Ending Failure Response × State σ (Logged W)) :
    ((hop worker entered).receive x).2.log = x.2.log := by
  obtain ⟨ending, t⟩ := x
  cases ending <;> rfl

end Frame

theorem Stage.run_hop {inner : Stage σ W} {worker : Worker} {index remaining : Nat}
    {rest : Walk σ W} {s : State σ W} (pool : Option String) (hrunning : worker.running = true) :
    (Stage.hop inner worker).run index remaining rest pool s =
      (Frame.hop worker s.request).receive
        (inner.run index remaining rest (some worker.name) s) := by
  conv_lhs => unfold Stage.run
  rw [if_pos hrunning]
  generalize inner.run index remaining rest (some worker.name) s = x
  obtain ⟨ending, t⟩ := x
  cases ending <;> rfl

/-- What the innermost of some legs came to goes through its frames, the innermost first. -/
def unwind (frames : List (Frame σ W)) (x : Ending Failure Response × State σ W) :
    Ending Failure Response × State σ W :=
  frames.foldl (fun x frame => frame.receive x) x

theorem unwind_append (inner outer : List (Frame σ W))
    (x : Ending Failure Response × State σ W) :
    unwind (inner ++ outer) x = unwind outer (unwind inner x) :=
  List.foldl_append

theorem unwind_panicked {frames : List (Frame σ W)} (h : ∀ frame ∈ frames, frame.isHop = false)
    (m : String) (t : State σ W) : unwind frames (.panicked m, t) = (.panicked m, t) := by
  induction frames with
  | nil => rfl
  | cons frame outer ih =>
    unfold unwind
    rw [List.foldl_cons, frame.receive_panicked (h frame (.head _))]
    exact ih fun frame hframe => h frame (.tail _ hframe)

theorem unwind_failed {frames : List (Frame σ W)} (h : ∀ frame ∈ frames, frame.observes = false)
    (f : Failure) (t : State σ W) : unwind frames (.failed f, t) = (.failed f, t) := by
  induction frames with
  | nil => rfl
  | cons frame outer ih =>
    unfold unwind
    rw [List.foldl_cons, frame.receive_failed (h frame (.head _))]
    exact ih fun frame hframe => h frame (.tail _ hframe)

/-! ### Going in -/

/-- The first stage of a leg has the run go on with another leg, with frames around that. -/
inductive Into : Leg σ W → Leg σ W → List (Frame σ W) → Prop where
  | hop {index below pool s inner worker} : worker.running = true →
      Into ⟨index, .hop inner worker :: below, pool, s⟩
        ⟨index, inner :: below, some worker.name, s⟩ [.hop worker s.request]
  | passed {index below pool s rank own act request scene} :
      act ⟨pool, index + 1, below.length⟩ s.request s.scene = (.done none, request, scene) →
      Into ⟨index, .before rank own act :: below, pool, s⟩
        ⟨index + 1, below, pool, s.with request scene⟩ []
  | wrapped {index below pool s rank own enter resume request scene} :
      enter ⟨pool, index + 1, below.length⟩ s.request s.scene =
        (.proceed resume, request, scene) →
      Into ⟨index, .wrapping rank own enter :: below, pool, s⟩
        ⟨index + 1, below, pool, s.with request scene⟩ [.resume resume]
  | surrounded {index below pool s rank own enter resume request scene} :
      enter ⟨pool, index + 1, below.length⟩ s.request s.scene =
        (.proceed resume, request, scene) →
      Into ⟨index, .around rank own true enter :: below, pool, s⟩
        ⟨index + 1, below, pool, s.with request scene⟩ [.resume resume]
  | skipped {index below pool s rank own enter} :
      Into ⟨index, .around rank own false enter :: below, pool, s⟩
        ⟨index + 1, below, pool, s⟩ []
  | awaited {index below pool s rank own act} :
      Into ⟨index, .after rank own act :: below, pool, s⟩
        ⟨index + 1, below, pool, s⟩ [.adjust (act ⟨pool, index + 1, below.length⟩)]

/-- A leg of another one, with all the frames around it. -/
inductive Inside : Leg σ W → Leg σ W → List (Frame σ W) → Prop where
  | here (l : Leg σ W) : Inside l l []
  | into {l l' l'' : Leg σ W} {outer frames : List (Frame σ W)} : Into l l' outer →
      Inside l' l'' frames → Inside l l'' (frames ++ outer)

/-- The first stage of a leg panics and leaves a state behind. -/
inductive Leg.Panics : Leg σ W → String → State σ W → Prop where
  | checking {index below pool s rank own act m request scene} :
      act ⟨pool, index + 1, below.length⟩ s.request s.scene = (.panicked m, request, scene) →
      Leg.Panics ⟨index, .before rank own act :: below, pool, s⟩ m (s.with request scene)
  | wrapping {index below pool s rank own enter m request scene} :
      enter ⟨pool, index + 1, below.length⟩ s.request s.scene =
        (.answer (.panicked m), request, scene) →
      Leg.Panics ⟨index, .wrapping rank own enter :: below, pool, s⟩ m (s.with request scene)
  | surrounding {index below pool s rank own enter m request scene} :
      enter ⟨pool, index + 1, below.length⟩ s.request s.scene =
        (.answer (.panicked m), request, scene) →
      Leg.Panics ⟨index, .around rank own true enter :: below, pool, s⟩ m (s.with request scene)
  | handling {index below pool s act m scene} :
      act ⟨pool, index + 1, below.length⟩ s.request s.scene = (.panicked m, scene) →
      Leg.Panics ⟨index, .terminal act :: below, pool, s⟩ m { s with scene }
  | reacting {index below pool s act m scene} : s.spent = false →
      act ⟨pool, index + 1, below.length⟩ s.scene = (.panicked m, scene) →
      Leg.Panics ⟨index, .reactive act :: below, pool, s⟩ m { s with scene, spent := true }
  /-- in the second half of a wrapping stage -/
  | resuming {l l' resume given t m request scene} : Into l l' [.resume resume] →
      l'.run = (.ofExcept given, t) →
      resume given t.request t.scene = (.panicked m, request, scene) →
      Leg.Panics l m (t.with request scene)
  | adjusting {l l' act response t m scene} : Into l l' [.adjust act] →
      l'.run = (.done response, t) → act t.request response t.scene = (.panicked m, scene) →
      Leg.Panics l m { t with scene }

theorem into_run {l l' : Leg σ W} {frames : List (Frame σ W)} (h : Into l l' frames) :
    l.run = unwind frames l'.run := by
  cases h with
  | @hop index below pool s inner worker hrunning => exact Stage.run_hop pool hrunning
  | passed hact =>
    unfold Leg.run
    conv_lhs => unfold runFrom Stage.run
    rw [hact]
    rfl
  | wrapped henter =>
    unfold Leg.run
    conv_lhs => unfold runFrom Stage.run
    rw [henter]
    rfl
  | surrounded henter =>
    unfold Leg.run
    conv_lhs => unfold runFrom Stage.run
    rw [if_pos rfl, henter]
    rfl
  | skipped => rfl
  | @awaited index below pool s rank own act =>
    show (Stage.after rank own act).run index below.length (runFrom (index + 1) below) pool s =
      adjustWith (act ⟨pool, index + 1, below.length⟩) (runFrom (index + 1) below pool s)
    unfold Stage.run
    generalize runFrom (index + 1) below pool s = x
    obtain ⟨ending, t⟩ := x
    cases ending <;> rfl

/-- A leg comes to what the legs inside it come to, once that went through all frames between. -/
theorem inside_run {l l' : Leg σ W} {frames : List (Frame σ W)} (h : Inside l l' frames) :
    l.run = unwind frames l'.run := by
  induction h with
  | here l => rfl
  | into hinto _ ih => rw [into_run hinto, ih, unwind_append]

theorem panics_run {l : Leg σ W} {m : String} {t : State σ W} (h : l.Panics m t) :
    l.run = (.panicked m, t) := by
  cases h with
  | checking hact =>
    unfold Leg.run runFrom Stage.run
    rw [hact]
  | wrapping henter =>
    unfold Leg.run runFrom Stage.run
    rw [henter]
  | surrounding henter =>
    unfold Leg.run runFrom Stage.run
    rw [if_pos rfl, henter]
  | handling hact =>
    unfold Leg.run runFrom Stage.run
    rw [hact]
  | reacting hspent hact =>
    unfold Leg.run runFrom
    rw [Stage.run_reactive_ready hspent, hact]
  | resuming hinto hrun hresume =>
    rw [into_run hinto, hrun]
    show resumeWith _ (.ofExcept _, _) = _
    rw [resumeWith_ofExcept, hresume]
  | adjusting hinto hrun hact =>
    rw [into_run hinto, hrun]
    show adjustWith _ (.done _, _) = _
    unfold adjustWith
    dsimp only
    rw [hact]

/-- A leg goes into another one with one frame around that, or with none. -/
theorem into_frames {l l' : Leg σ W} {frames : List (Frame σ W)} (h : Into l l' frames) :
    frames = [] ∨ ∃ frame, frames = [frame] := by
  cases h with
  | passed | skipped => exact .inl rfl
  | hop | wrapped | surrounded | awaited => exact .inr ⟨_, rfl⟩

theorem into_index {l l' : Leg σ W} {frames : List (Frame σ W)} (h : Into l l' frames) :
    l.index ≤ l'.index := by
  cases h with
  | hop => exact Nat.le_refl _
  | passed | wrapped | surrounded | skipped | awaited => exact Nat.le_succ _

theorem inside_index {l l' : Leg σ W} {frames : List (Frame σ W)} (h : Inside l l' frames) :
    l.index ≤ l'.index := by
  induction h with
  | here l => exact Nat.le_refl _
  | into hinto _ ih => exact Nat.le_trans (into_index hinto) ih

/-- Each frame was put up when some leg went into another one. -/
theorem inside_frame {l l' : Leg σ W} {inner outer : List (Frame σ W)} {frame : Frame σ W}
    (h : Inside l l' (inner ++ frame :: outer)) :
    ∃ above below, Inside l above outer ∧ Into above below [frame] ∧ Inside below l' inner := by
  generalize hframes : inner ++ frame :: outer = frames at h
  induction h generalizing outer with
  | here l => exact absurd hframes (by simp)
  | @into l next l' new frames hinto hinside ih =>
    obtain rfl | ⟨latest, rfl⟩ := into_frames hinto
    · rw [List.append_nil] at hframes
      obtain ⟨above, below, habove, hframe, hbelow⟩ := ih hframes
      have houter := Inside.into hinto habove
      rw [List.append_nil] at houter
      exact ⟨above, below, houter, hframe, hbelow⟩
    · obtain rfl | ⟨front, last, rfl⟩ := List.eq_nil_or_concat' outer
      · obtain ⟨rfl, hlast⟩ := List.append_inj' hframes rfl
        cases hlast
        exact ⟨l, next, .here l, hinto, hinside⟩
      · rw [← List.cons_append, ← List.append_assoc] at hframes
        obtain ⟨hfront, hlast⟩ := List.append_inj' hframes rfl
        cases hlast
        obtain ⟨above, below, habove, hframe, hbelow⟩ := ih hfront
        exact ⟨above, below, .into hinto habove, hframe, hbelow⟩

/-! ### The innermost hop -/

/-- Among frames there is no hop, or an innermost one. -/
theorem innermost_hop (frames : List (Frame σ W)) :
    (∀ frame ∈ frames, frame.isHop = false) ∨
      ∃ inside worker entered outside, frames = inside ++ .hop worker entered :: outside ∧
        ∀ frame ∈ inside, frame.isHop = false := by
  induction frames with
  | nil => exact .inl fun frame hframe => by cases hframe
  | cons frame outer ih =>
    cases hhop : frame.isHop with
    | true =>
      cases frame with
      | hop worker entered =>
        exact .inr ⟨[], worker, entered, outer, rfl, fun frame hframe => by cases hframe⟩
      | _ => cases hhop
    | false =>
      rcases ih with hnone | ⟨inside, worker, entered, outside, rfl, hinside⟩
      · exact .inl (List.forall_mem_cons.mpr ⟨hhop, hnone⟩)
      · exact .inr ⟨frame :: inside, worker, entered, outside, rfl,
          List.forall_mem_cons.mpr ⟨hhop, hinside⟩⟩

/-- A panic is what all legs come to up to the innermost hop, which makes a failure of it and hands
back the request that came to it. -/
theorem contained {l l' : Leg σ W} {inside outside : List (Frame σ W)} {worker : Worker}
    {entered : Request} {m : String} {t : State σ W}
    (h : Inside l l' (inside ++ .hop worker entered :: outside))
    (hinside : ∀ frame ∈ inside, frame.isHop = false) (hpanics : l'.Panics m t) :
    ∃ (above : Leg σ W) (inner : Stage σ W) (below : List (Stage σ W)),
      Inside l above outside ∧ Inside above l' (inside ++ [.hop worker entered]) ∧
      above.stages = .hop inner worker :: below ∧ above.state.request = entered ∧
      above.run = (.failed (worker.panicFailure m), { t with request := handBack entered }) := by
  obtain ⟨above, next, habove, hframe, hnext⟩ := inside_frame h
  have hrun : above.run =
      (.failed (worker.panicFailure m), { t with request := handBack entered }) := by
    rw [into_run hframe, inside_run hnext, panics_run hpanics, unwind_panicked hinside]
    rfl
  refine ⟨above, ?_⟩
  cases hframe with
  | hop hrunning => exact ⟨_, _, habove, .into (.hop hrunning) hnext, rfl, rfl, hrun⟩

end Exchange.Pipeline
