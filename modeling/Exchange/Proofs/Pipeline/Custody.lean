import Exchange.Pipeline.Lineup
import Exchange.Proofs.Multipart.Settlement

/-!
What stages may do with a body.

Stages do as they like with a scene, but a body can be changed in a few ways only, its `Moves`: its
content is taken or the attempt fails, whoever has its stream reads it and gives it up or makes a
body of it again, the last holder lets go, and the world outside goes on. A stage is `Careful` if it
treats every body so, in both halves if it has two. So is any run of careful stages
(`runFrom_respects`), however it ends, and then the stream of a body is still the one it began with:
somebody reads it, or it has been given up (`Payload.Carries.treated`).
-/
namespace Exchange.Pipeline

open Http (BodyId Request Response)
open Multipart (Demux Supply)
open Relation (ReflTransGen)

variable {σ ε W : Type}

/-! ### Relations that stages keep -/

section Respects

variable (R : Scene σ W → Scene σ W → Prop)

/-- Both halves of a wrapping stage keep to a relation of scenes, the second one wherever the rest
of the pipeline can get by that relation. -/
def Enter.Respects (enter : Enter σ W) : Prop :=
  ∀ site r s, R s (enter site r s).2.2 ∧
    ∀ resume, (enter site r s).1 = .proceed resume →
      ∀ given r' s', R (enter site r s).2.2 s' → R s' (resume given r' s').2.2

/-- The stage changes scenes by the relation only. -/
def Stage.Respects : Stage σ W → Prop
  | .before _ _ act => ∀ site r s, R s (act site r s).2.2
  | .wrapping _ _ enter => enter.Respects R
  | .after _ _ act => ∀ site r response s, R s (act site r response s).2
  | .around _ _ _ enter => enter.Respects R
  | .hop inner _ => inner.Respects
  | .terminal act => ∀ site r s, R s (act site r s).2
  | .reactive act => ∀ site s, R s (act site s).2

variable {R} [IsPreorder (Scene σ W) R]

theorem resumeWith_respects {resume : Resume σ W} {x : Ending Failure Response × State σ W}
    {s : Scene σ W} (hresume : ∀ given r s', R s s' → R s' (resume given r s').2.2)
    (hx : R s x.2.scene) : R s (resumeWith resume x).2.scene := by
  obtain ⟨ending, t⟩ := x
  cases ending with
  | done r => exact trans_of R hx (hresume (.ok r) t.request t.scene hx)
  | failed e => exact trans_of R hx (hresume (.error e) t.request t.scene hx)
  | panicked m => exact hx

variable {index remaining : Nat} {rest : Walk σ W}

/-- A wrapping stage that proceeds keeps to the relation if the rest does. -/
theorem proceed_respects {enter : Enter σ W} (h : enter.Respects R)
    (hrest : ∀ pool s, R s.scene (rest pool s).2.scene) {site : Site} {pool : Option String}
    {s : State σ W} {resume : Resume σ W} {r : Request} {scene : Scene σ W}
    (henter : enter site s.request s.scene = (.proceed resume, r, scene)) :
    R s.scene (resumeWith resume (rest pool (s.with r scene))).2.scene := by
  obtain ⟨hfirst, hsecond⟩ := h site s.request s.scene
  rw [henter] at hfirst hsecond
  exact trans_of R hfirst (resumeWith_respects (hsecond resume rfl) (hrest pool (s.with r scene)))

theorem Stage.run_respects {stage : Stage σ W} (h : stage.Respects R)
    (hrest : ∀ pool s, R s.scene (rest pool s).2.scene) (pool : Option String) (s : State σ W) :
    R s.scene (stage.run index remaining rest pool s).2.scene := by
  induction stage generalizing pool s with
  | before rank own act =>
    have hact := h ⟨pool, index + 1, remaining⟩ s.request s.scene
    unfold Stage.run
    split <;> rename_i request scene heq <;> rw [heq] at hact
    · exact trans_of R hact (hrest pool (s.with request scene))
    all_goals exact hact
  | wrapping rank own enter =>
    have henter := (h ⟨pool, index + 1, remaining⟩ s.request s.scene).1
    unfold Stage.run
    split <;> rename_i heq
    · rw [heq] at henter
      exact henter
    · rw [heq] at henter
      exact henter
    · exact proceed_respects h hrest heq
  | after rank own act =>
    have hbelow := hrest pool s
    unfold Stage.run
    split
    · next response t heq =>
      rw [heq] at hbelow
      have hact := h ⟨pool, index + 1, remaining⟩ t.request response t.scene
      split <;> rename_i heq' <;> rw [heq'] at hact <;> exact trans_of R hbelow hact
    · exact hbelow
  | around rank own enabled enter =>
    have henter := (h ⟨pool, index + 1, remaining⟩ s.request s.scene).1
    unfold Stage.run
    split
    · split <;> rename_i heq
      · rw [heq] at henter
        exact henter
      · exact proceed_respects h hrest heq
    · exact hrest pool s
  | hop inner worker ih =>
    have hinner := ih h (some worker.name) s
    unfold Stage.run
    split
    · split <;> rename_i heq
      · rw [heq] at hinner
        exact hinner
      · exact hinner
    · exact refl_of R s.scene
  | terminal act =>
    have hact := h ⟨pool, index + 1, remaining⟩ s.request s.scene
    unfold Stage.run
    split <;> rename_i heq <;> rw [heq] at hact <;> exact hact
  | reactive act =>
    have hact := h ⟨pool, index + 1, remaining⟩ s.scene
    cases hspent : s.spent with
    | true =>
      rw [Stage.run_reactive_spent hspent]
      exact refl_of R s.scene
    | false =>
      rw [Stage.run_reactive_ready hspent]
      split <;> rename_i heq <;> rw [heq] at hact <;> exact hact

/-- A run keeps to every relation that all its stages keep to. -/
theorem runFrom_respects {stages : List (Stage σ W)} (h : ∀ stage ∈ stages, stage.Respects R)
    (index : Nat) (pool : Option String) (s : State σ W) :
    R s.scene (runFrom index stages pool s).2.scene := by
  induction stages generalizing index pool s with
  | nil => exact refl_of R s.scene
  | cons stage below ih =>
    exact Stage.run_respects (h stage (.head _))
      (ih (fun other hother => h other (.tail _ hother)) (index + 1)) pool s

end Respects

/-! ### What can be done with a body -/

variable [Supply σ]

namespace Payload

/-- What can be done with a payload in one go, while `act` says how events change a supply. -/
inductive Moves (act : ε → σ → σ) : Payload σ → Payload σ → Prop where
  /-- somebody asks for the whole content -/
  | bytes (p : Payload σ) : Moves act p p.bytes?.2
  /-- somebody asks for the stream -/
  | lend (p : Payload σ) : Moves act p p.lend?.2
  /-- whoever has the stream uses it, or the world outside goes on -/
  | goes {p : Payload σ} {d d' : Demux σ} : p.lent? = some d → d.Goes act d' →
      Moves act p (p.withStream d')
  /-- the world outside goes on while nobody has the stream -/
  | happen (e : ε) (d : Demux σ) :
      Moves act ⟨.parts d, .kept⟩ ⟨.parts { d with source := act e d.source }, .kept⟩
  /-- whoever has the stream makes a body of it again -/
  | restore {p : Payload σ} {d : Demux σ} : p.lent? = some d →
      Moves act p { p with custody := .kept }
  /-- whoever has the stream gives it up -/
  | surrender {p : Payload σ} {d : Demux σ} : p.lent? = some d → Moves act p (surrender d)
  /-- the last holder lets go -/
  | release (p : Payload σ) : Moves act p p.release

/-- The payload once whoever has its stream has given it up. -/
def settle (p : Payload σ) : Payload σ :=
  match p.lent? with
  | some d => surrender d
  | none => p

/-- The content is a stream of which `good` holds, or did when it was given up. -/
inductive Carries (good : Demux σ → Prop) : Payload σ → Prop where
  | kept {d : Demux σ} : good d → Carries good ⟨.parts d, .kept⟩
  | lent {d : Demux σ} : good d → Carries good ⟨.parts d, .lent⟩
  | givenUp {d : Demux σ} : good d → Carries good ⟨.parts d.drop, .released⟩

namespace Carries

variable {act : ε → σ → σ} {good : Demux σ → Prop} {p p' : Payload σ}

theorem moves (hgood : ∀ d d', good d → d.Goes act d' → good d') (h : p.Carries good)
    (hmoves : p.Moves act p') : p'.Carries good := by
  cases hmoves with
  | bytes => cases h with
    | kept hd => exact .kept hd
    | lent hd => exact .lent hd
    | givenUp hd => exact .givenUp hd
  | lend => cases h with
    | kept hd => exact .lent hd
    | lent hd => exact .lent hd
    | givenUp hd => exact .givenUp hd
  | goes hlent hgoes => cases h with
    | kept hd => cases hlent
    | lent hd =>
      cases hlent
      exact .lent (hgood _ _ hd hgoes)
    | givenUp hd => cases hlent
  | happen e d => cases h with
    | kept hd => exact .kept (hgood _ _ hd (.happen e d))
  | restore hlent => cases h with
    | kept hd => cases hlent
    | lent hd => exact .kept hd
    | givenUp hd => cases hlent
  | surrender hlent => cases h with
    | kept hd => cases hlent
    | lent hd =>
      cases hlent
      exact .givenUp hd
    | givenUp hd => cases hlent
  | release => cases h with
    | kept hd => exact .givenUp hd
    | lent hd => exact .lent hd
    | givenUp hd => exact .givenUp hd

/-- The stream of a payload stays the one it was. -/
theorem treated (hgood : ∀ d d', good d → d.Goes act d' → good d') (h : p.Carries good)
    (hmoves : ReflTransGen (Moves act) p p') : p'.Carries good := by
  induction hmoves with
  | refl => exact h
  | tail _ hlast ih => exact ih.moves hgood hlast

/-- In the end the stream has been given up. -/
theorem settled (h : p.Carries good) :
    ∃ d, good d ∧ p.release.settle = ⟨.parts d.drop, .released⟩ ∧
      (p.custody ≠ .lent → p.release = ⟨.parts d.drop, .released⟩) := by
  cases h with
  | kept hd => exact ⟨_, hd, rfl, fun _ => rfl⟩
  | lent hd => exact ⟨_, hd, rfl, fun hlent => absurd rfl hlent⟩
  | givenUp hd => exact ⟨_, hd, rfl, fun _ => rfl⟩

end Carries

end Payload

/-! ### Careful stages -/

/-- The body of a number is changed by moves only, and stays the body of that number. -/
structure Scene.Treats (act : ε → σ → σ) (id : BodyId) (s s' : Scene σ W) : Prop where
  made : id < s.bodies.length → id < s'.bodies.length
  moves : id < s.bodies.length → ReflTransGen (Payload.Moves act) (s.body id) (s'.body id)

namespace Scene.Treats

variable {act : ε → σ → σ} {id : BodyId} {s s' s'' : Scene σ W}

@[refl] theorem refl (s : Scene σ W) : s.Treats act id s := ⟨fun h => h, fun _ => .refl⟩

theorem trans (h : s.Treats act id s') (h' : s'.Treats act id s'') : s.Treats act id s'' :=
  ⟨fun hmade => h'.made (h.made hmade),
    fun hmade => (h.moves hmade).trans (h'.moves (h.made hmade))⟩

instance : IsPreorder (Scene σ W) (Scene.Treats act id) where
  refl := refl
  trans _ _ _ := trans

/-- Whatever else changes, the bodies are left alone. -/
theorem of_bodies (h : s'.bodies = s.bodies) : s.Treats act id s' := by
  have hbody : s'.body id = s.body id := congrArg (List.getD · id Payload.empty) h
  exact ⟨fun hmade => h ▸ hmade, fun _ => hbody ▸ .refl⟩

theorem addBody (p : Payload σ) (s : Scene σ W) : s.Treats act id (s.addBody p).2 := by
  refine ⟨fun hmade => ?_, fun hmade => ?_⟩
  · rw [show (s.addBody p).2.bodies = s.bodies ++ [p] from rfl, List.length_append]
    exact Nat.lt_add_right 1 hmade
  · have hbody : (s.addBody p).2.body id = s.body id := List.getD_append _ _ _ _ hmade
    rw [hbody]

theorem setBody {i : BodyId} {p : Payload σ} (h : ReflTransGen (Payload.Moves act) (s.body i) p) :
    s.Treats act id (s.setBody i p) := by
  refine ⟨fun hmade => by simpa [Scene.setBody] using hmade, fun hmade => ?_⟩
  by_cases hi : i = id
  · subst hi
    have hbody : (s.setBody i p).body i = p := by
      simp [Scene.body, Scene.setBody, List.getD, hmade]
    rw [hbody]
    exact h
  · have hbody : (s.setBody i p).body id = s.body id := by
      simp [Scene.body, Scene.setBody, List.getD, hi]
    rw [hbody]

end Scene.Treats

/-- The stage does with bodies what can be done with them. -/
def Stage.Careful (act : ε → σ → σ) (stage : Stage σ W) : Prop :=
  ∀ id, stage.Respects (Scene.Treats act id)

end Exchange.Pipeline
