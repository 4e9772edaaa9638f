import Exchange.Proofs.Pipeline.Custody
import Exchange.Script.Actor

/-!
Scripted stages are careful.

Whatever a script does with a body comes down to its moves: an attempt to take it that succeeds or
fails, reads that wait for the supply, and a stream that is given up when the action is over. The
rest of a script leaves the bodies alone. So every actor plays a careful stage
(`Actor.stage_careful`), in a world outside that goes on while somebody waits.
-/
namespace Exchange.Script

open Http (BodyId Request Response)
open Multipart (Awaited Demux Part)
open Pipeline (Cause Ending Enter Failure Payload Scene)
open Relation (ReflTransGen)

variable {σ : Type} [Awaited σ]

/-- The only event in the world of a script: somebody waits. -/
def waits (_ : Unit) : σ → σ := Awaited.wait

/-! ### Readers that wait -/

theorem awaitNextFor_goes (fuel : Nat) (d : Demux σ) :
    ReflTransGen (Demux.Goes waits) d (d.awaitNextFor fuel).2 := by
  induction fuel generalizing d with
  | zero => exact .single (.poll d)
  | succ fuel ih =>
    have hpoll : Demux.Goes waits d d.next.2 := .poll d
    unfold Demux.awaitNextFor
    split
    · next heq =>
      rw [heq] at hpoll
      exact (ReflTransGen.single hpoll).trans (.head (.happen () _) (ih _))
    · exact .single hpoll

theorem drain_goes {ask : Demux σ → Multipart.Outcome × Demux σ}
    (hask : ∀ d, ReflTransGen (Demux.Goes waits) d (ask d).2) (fuel : Nat) (d : Demux σ) :
    ReflTransGen (Demux.Goes waits) d (Demux.drain ask fuel d).2 := by
  induction fuel generalizing d with
  | zero => exact .refl
  | succ fuel ih =>
    have hfirst := hask d
    unfold Demux.drain
    split <;> rename_i heq <;> rw [heq] at hfirst
    · exact hfirst.trans (ih _)
    · exact hfirst

theorem awaitAll_goes (d : Demux σ) : ReflTransGen (Demux.Goes waits) d d.awaitAll.2 :=
  drain_goes (fun e => awaitNextFor_goes _ e) _ d

/-! ### Payloads -/

omit [Awaited σ] in
theorem lend?_ok {p p' : Payload σ} {d : Demux σ} (h : p.lend? = (.ok d, p')) :
    p = ⟨.parts d, .kept⟩ ∧ p' = ⟨.parts d, .lent⟩ := by
  obtain ⟨content, custody⟩ := p
  cases custody <;> cases content <;> cases h
  exact ⟨rfl, rfl⟩

/-- A stream is taken, read for a while and given up. -/
theorem moves_taken {d d' : Demux σ} (h : ReflTransGen (Demux.Goes waits) d d') :
    ReflTransGen (Payload.Moves waits) ⟨.parts d, .kept⟩ (Payload.surrender d') := by
  have hreads : ReflTransGen (Payload.Moves waits) (⟨.parts d, .lent⟩ : Payload σ)
      ⟨.parts d', .lent⟩ :=
    h.lift (fun e => (⟨.parts e, .lent⟩ : Payload σ)) fun _ _ hgoes => .goes rfl hgoes
  exact (ReflTransGen.single (.lend _)).trans (hreads.trans (.single (.surrender rfl)))

theorem collect?_moves {read : Demux σ → (List Part × Multipart.Outcome) × Demux σ}
    (hread : ∀ d, ReflTransGen (Demux.Goes waits) d (read d).2) (p : Payload σ) :
    ReflTransGen (Payload.Moves waits) p (p.collect? read).2 := by
  unfold Payload.collect?
  split
  · next heq =>
    have hlend : Payload.Moves waits p p.lend?.2 := .lend p
    rw [heq] at hlend
    exact .single hlend
  · next d p' heq =>
    obtain ⟨rfl, -⟩ := lend?_ok heq
    exact moves_taken (hread d)

/-! ### Scenes -/

variable {id : BodyId}

/-- Bodies are treated alike, whatever is entered into the record. -/
theorem treats_note (who what : String) (value : Value) (s : Scene σ Log) :
    Scene.Treats waits id s (note who what value s) :=
  .of_bodies rfl

/-! ### Actions -/

omit [Awaited σ] in
theorem bodies_noteRead {α : Type} (who what : String) (strict : Bool) (value : α → Value)
    (ending : Ending Failure α) (s : Scene σ Log) :
    (noteRead who what strict value ending s).2.bodies = s.bodies := by
  unfold noteRead
  split
  · rfl
  · split <;> rfl
  · rfl

/-- Reading some parts reads the stream and leaves the bodies alone. -/
theorem takeParts_goes (who : String) (count : Nat) (d : Demux σ) (s : Scene σ Log) :
    ReflTransGen (Demux.Goes waits) d (takeParts who count d s).2.1 ∧
      (takeParts who count d s).2.2.bodies = s.bodies := by
  induction count generalizing d s with
  | zero => exact ⟨.refl, rfl⟩
  | succ count ih =>
    have hnext : ReflTransGen (Demux.Goes waits) d d.awaitNext.2 := awaitNextFor_goes _ d
    unfold takeParts
    split <;> rename_i heq <;> rw [heq] at hnext
    · obtain ⟨hrest, hbodies⟩ := ih _ (note who "take" _ s)
      exact ⟨hnext.trans hrest, hbodies⟩
    all_goals exact ⟨hnext, rfl⟩

theorem Probe.run_treats (who : String) (r : Request) (s : Scene σ Log) (p : Probe) :
    Scene.Treats waits id s (p.run who r s).2 := by
  cases p with
  | read strict =>
    have hmoves : Payload.Moves waits (s.body r.body) (s.body r.body).bytes?.2 := .bytes _
    exact (Scene.Treats.setBody (.single hmoves)).trans (.of_bodies (bodies_noteRead ..))
  | parts strict =>
    have hmoves := collect?_moves awaitAll_goes (s.body r.body)
    unfold Probe.run
    dsimp only
    split <;> rename_i heq <;> rw [heq] at hmoves
    · exact (Scene.Treats.setBody hmoves).trans (.of_bodies (bodies_noteRead ..))
    · exact .setBody hmoves
  | take demand count =>
    unfold Probe.run
    dsimp only
    split
    · exact .refl s
    · next d p heq =>
      obtain ⟨hbody, -⟩ := lend?_ok heq
      obtain ⟨hgoes, hbodies⟩ := takeParts_goes who count (d.request demand) s
      have hmoves : ReflTransGen (Payload.Moves waits) (s.body r.body)
          (Payload.surrender (takeParts who count (d.request demand) s).2.1) :=
        hbody ▸ moves_taken (.head (.request demand d) hgoes)
      refine (Scene.Treats.of_bodies hbodies).trans (.setBody ?_)
      rw [show Scene.body r.body (takeParts who count (d.request demand) s).2.2 =
        s.body r.body from congrArg (List.getD · r.body Payload.empty) hbodies]
      exact hmoves
  | _ => exact .of_bodies rfl

theorem runRequestActions_treats (who : String) (actions : List RequestAction) (r : Request)
    (s : Scene σ Log) : Scene.Treats waits id s (runRequestActions who actions r s).2.2 := by
  induction actions generalizing r s with
  | nil => exact .refl s
  | cons a more ih =>
    cases a with
    | respond answer => cases answer <;> exact .refl s
    | body bytes => exact (Scene.Treats.addBody _ _).trans (ih _ _)
    | edit e =>
      unfold runRequestActions
      split
      · exact ih _ _
      · exact .refl s
    | probe p =>
      have hprobe : Scene.Treats waits id s (p.run who r s).2 := p.run_treats who r s
      unfold runRequestActions
      split <;> rename_i heq <;> rw [heq] at hprobe
      · exact hprobe.trans (ih _ _)
      all_goals exact hprobe

theorem runHandlerActions_treats (who : String) (r : Request) (actions : List HandlerAction)
    (s : Scene σ Log) : Scene.Treats waits id s (runHandlerActions who r actions s).2 := by
  induction actions generalizing s with
  | nil => exact .refl s
  | cons a more ih =>
    cases a with
    | respond answer => cases answer <;> exact .refl s
    | probe p =>
      have hprobe : Scene.Treats waits id s (p.run who r s).2 := p.run_treats who r s
      unfold runHandlerActions
      split <;> rename_i heq <;> rw [heq] at hprobe
      · exact hprobe.trans (ih _)
      all_goals exact hprobe

theorem runReplyActions_treats (who : String) (r : Request) (actions : List ReplyAction)
    (result : Except Failure Response) (s : Scene σ Log) :
    Scene.Treats waits id s (runReplyActions who r actions result s).2 := by
  induction actions generalizing result s with
  | nil => exact .refl s
  | cons a more ih =>
    cases a with
    | probe p =>
      have hprobe : Scene.Treats waits id s (p.run who r s).2 := p.run_treats who r s
      unfold runReplyActions
      split <;> rename_i heq <;> rw [heq] at hprobe
      · exact hprobe.trans (ih _ _)
      all_goals exact hprobe
    | result => exact (treats_note ..).trans (ih _ _)
    | _ =>
      unfold runReplyActions
      split
      · exact ih _ _
      · exact .refl s

/-! ### Stages -/

theorem Wrap.leave_treats (w : Wrap) (who : String) (result : Except Failure Response)
    (r : Request) (s : Scene σ Log) :
    Scene.Treats waits id s (w.leave who result r s).2.2 := by
  have hpost : Scene.Treats waits id s (runReplyActions who r w.post result s).2 :=
    runReplyActions_treats who r w.post result s
  unfold Wrap.leave
  split <;> rename_i heq <;> rw [heq] at hpost
  · exact hpost.trans (treats_note ..)
  · exact hpost.trans (treats_note ..)
  all_goals exact hpost

theorem Wrap.enter_respects (w : Wrap) (name : String) :
    Enter.Respects (Scene.Treats (waits (σ := σ)) id) (w.enter name) := by
  intro site r s
  have hpre : Scene.Treats waits id s (runRequestActions (signature name site) w.pre r
      (note (signature name site) "enter" .nothing s)).2.2 :=
    (treats_note ..).trans (runRequestActions_treats _ _ _ _)
  have hshown : ∀ t : Scene σ Log, Scene.Treats waits id s t → Scene.Treats waits id s
      (if w.showNext then note (signature name site) "next" (.text site.describeRest) t
        else t) := by
    intro t ht
    split
    · exact ht.trans (treats_note ..)
    · exact ht
  unfold Wrap.enter
  dsimp only
  split <;> rename_i heq <;> rw [heq] at hpre
  · exact ⟨hpre, nofun⟩
  · exact ⟨hpre, nofun⟩
  · exact ⟨hpre, nofun⟩
  · split
    · refine ⟨hshown _ hpre, fun resume hresume given r' s' _ => ?_⟩
      cases hresume
      exact w.leave_treats _ given r' s'
    · exact ⟨hshown _ hpre, nofun⟩
    · exact ⟨(hshown _ hpre).trans (w.leave_treats _ _ _ _), nofun⟩

/-- Every actor plays a careful stage. -/
theorem Actor.stage_careful (a : Actor) : (a.stage (σ := σ)).Careful waits := by
  intro id
  obtain ⟨name, rank, own, role⟩ := a
  cases role with
  | before pre =>
    exact fun site r s => (treats_note ..).trans (runRequestActions_treats _ pre r _)
  | wrapping w => exact w.enter_respects name
  | after post =>
    intro site r response s
    have hpost : Scene.Treats waits id s (runReplyActions (signature name site) r post
        (.ok response) (note (signature name site) "after" .nothing s)).2 :=
      (treats_note ..).trans (runReplyActions_treats _ r post _ _)
    dsimp only
    split <;> rename_i heq <;> rw [heq] at hpost <;> exact hpost
  | around enabled w => exact w.enter_respects name
  | terminal steps =>
    exact fun site r s => (treats_note ..).trans (runHandlerActions_treats _ r steps _)
  | reactive steps =>
    intro site s
    have hnoted : Scene.Treats waits id s (note (signature name site) "handle" .nothing
        (s.addBody Payload.empty).2) := (Scene.Treats.addBody _ s).trans (treats_note ..)
    exact hnoted.trans (runHandlerActions_treats _ _ steps _)

end Exchange.Script
