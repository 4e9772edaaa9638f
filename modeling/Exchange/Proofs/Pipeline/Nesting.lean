import Exchange.Pipeline.Lineup
import Exchange.Proofs.Pipeline.Marked
import Mathlib

/-!
How the stages of a line-up lie around each other.

Assembling a line-up sorts the listed stages by place and keeps their sequence where places are
equal (`inOrder`). Stages that let requests through and make responses of responses (`Stage.Smooth`)
make a run that glides: nothing in it fails, and it ends with a response (`runFrom_glides`). In a
run without a failure the request passes the stages in their order, is handled once, and the
response passes them in the reverse order, from each to the next (`Course.smooth`). `nesting` says
so of the stages as they were listed: they are marked by their position in the list, assembled and
run.
-/
namespace Exchange.Pipeline

open Http (Request Response)

variable {σ W : Type}

/-! ### Sorting -/

section Sorting

variable {α β : Type}

/-- The members of a list with their positions, in the order that sorting by place brings them
into. -/
def inOrder (place : α → Int) (xs : List α) : List (α × Nat) :=
  xs.zipIdx.mergeSort (List.zipIdxLE fun a b => decide (place a ≤ place b))

theorem zipIdx_map_zipIdx (f : α × Nat → β) (xs : List α) :
    (xs.zipIdx.map f).zipIdx = xs.zipIdx.map fun x => (f x, x.2) := by
  refine List.ext_getElem? fun i => ?_
  simp only [List.getElem?_zipIdx, List.getElem?_map, Nat.zero_add, Option.map_map]
  rfl

/-- Sorting by place goes by the places of the members, however they are looked at. -/
theorem sortByPlace_map {place : α → Int} {place' : β → Int} {f : α × Nat → β}
    (hf : ∀ x, place' (f x) = place x.1) (xs : List α) :
    sortByPlace place' (xs.zipIdx.map f) = (inOrder place xs).map f := by
  unfold sortByPlace inOrder
  rw [← List.mergeSort_zipIdx, zipIdx_map_zipIdx,
    ← List.map_mergeSort (r := List.zipIdxLE fun a b => decide (place a ≤ place b)), List.map_map]
  · rfl
  · intro a _ b _
    simp only [List.zipIdxLE, hf]

theorem inOrder_perm (place : α → Int) (xs : List α) : (inOrder place xs).Perm xs.zipIdx :=
  List.mergeSort_perm _ _

theorem inOrder_pairwise (place : α → Int) (xs : List α) :
    (inOrder place xs).Pairwise fun a b =>
      place a.1 < place b.1 ∨ place a.1 = place b.1 ∧ a.2 < b.2 := by
  have htrans : ∀ a b c : α, decide (place a ≤ place b) → decide (place b ≤ place c) →
      decide (place a ≤ place c) := by
    intro a b c hab hbc
    rw [decide_eq_true_eq] at hab hbc ⊢
    exact Int.le_trans hab hbc
  have htotal : ∀ a b : α, decide (place a ≤ place b) || decide (place b ≤ place a) := by
    intro a b
    simpa using Int.le_total (place a) (place b)
  have hsorted := List.pairwise_mergeSort (List.zipIdxLE_trans htrans)
    (List.zipIdxLE_total htotal) xs.zipIdx
  have hpositions : ((inOrder place xs).map Prod.snd).Nodup := by
    rw [((inOrder_perm place xs).map Prod.snd).nodup_iff, List.zipIdx_map_snd]
    exact List.nodup_range'
  refine (hsorted.and (List.pairwise_map.mp hpositions)).imp ?_
  rintro a b ⟨hle, hne⟩
  simp only [List.zipIdxLE, decide_eq_true_eq] at hle
  split at hle
  · next hab =>
    split at hle
    · next hba => exact .inr ⟨Int.le_antisymm hab hba, Nat.lt_of_le_of_ne (by simpa using hle) hne⟩
    · next hba => exact .inl (Int.not_le.mp hba)
  · cases hle

end Sorting

/-! ### Which way a run goes -/

inductive Side where
  | request
  | handling
  | response
  deriving DecidableEq

/-- The side of a run on which a stage does something. -/
def Mark.side? : Mark → Option (Nat × Side)
  | did i .passed | did i (.answered _) | did i (.refused _) | did i (.declined _)
  | did i .proceeded => some (i, .request)
  | did i (.handled _) => some (i, .handling)
  | did i (.resumed ..) | did i (.adjusted ..) => some (i, .response)
  | _ => none

def Mark.isDeed : Mark → Bool
  | did .. => true
  | _ => false

/-- Whether a deed keeps the run going. -/
def Deed.smooth : Deed → Bool
  | passed | proceeded | resumed (.ok _) (.ok _) | adjusted _ (.ok _) | handled (.ok _) => true
  | _ => false

namespace Role

/-- Stages of the role do something about the request. -/
def onRequest : Role → Bool
  | checks | wraps => true
  | _ => false

/-- Stages of the role do something about the response. -/
def onResponse : Role → Bool
  | wraps | adjusts => true
  | _ => false

end Role

/-- The stages of a chain on their sides, there and back. -/
def thereAndBack (chain : List (Role × Nat)) (last : Nat) : List (Nat × Side) :=
  (chain.filter (·.1.onRequest)).map (fun x => (x.2, .request)) ++ (last, .handling) ::
    (chain.reverse.filter (·.1.onResponse)).map (fun x => (x.2, .response))

/-- The response that a deed is given. -/
def Mark.took? : Mark → Option Response
  | did _ (.resumed (.ok r) _) | did _ (.adjusted r _) => some r
  | _ => none

/-- The response that comes out of a deed. -/
def Mark.gave? : Mark → Option Response
  | did _ (.resumed _ (.ok r)) | did _ (.adjusted _ (.ok r)) | did _ (.handled (.ok r)) => some r
  | _ => none

/-- What is read off the marks of a stage and of those below it, if only deeds count. -/
theorem filterMap_deeds_framed {β : Type} {f : Mark → Option β}
    (hf : ∀ m, m.isDeed = false → f m = none) {i : Nat} {early late : List Deed}
    {lower : List Mark} {result : Except Failure Response} :
    (framed i early lower late result).filterMap f =
      (early.map (.did i)).filterMap f ++ lower.filterMap f ++ (late.map (.did i)).filterMap f := by
  unfold framed
  rw [List.filterMap_cons_none (hf _ rfl), List.filterMap_append, List.filterMap_append,
    List.filterMap_append, List.filterMap_cons_none (hf _ rfl), List.filterMap_nil,
    List.append_nil]

theorem filterMap_deeds {β : Type} {f : Mark → Option β}
    (hf : ∀ m, m.isDeed = false → f m = none) (log : List Mark) :
    (log.filter Mark.isDeed).filterMap f = log.filterMap f := by
  rw [List.filterMap_filter]
  refine List.filterMap_congr fun m _ => ?_
  cases hdeed : m.isDeed with
  | true => rfl
  | false => exact (hf m hdeed).symm

theorem Mark.side?_none (m : Mark) (h : m.isDeed = false) : m.side? = none := by
  cases m with
  | did => cases h
  | _ => rfl

theorem Mark.took?_none (m : Mark) (h : m.isDeed = false) : m.took? = none := by
  cases m with
  | did => cases h
  | _ => rfl

theorem Mark.gave?_none (m : Mark) (h : m.isDeed = false) : m.gave? = none := by
  cases m with
  | did => cases h
  | _ => rfl

theorem thereAndBack_cons (role : Role) (i : Nat) (chain : List (Role × Nat)) (last : Nat) :
    thereAndBack ((role, i) :: chain) last =
      (if role.onRequest then [(i, .request)] else []) ++ thereAndBack chain last ++
        (if role.onResponse then [(i, .response)] else []) := by
  cases role <;> simp [thereAndBack, Role.onRequest, Role.onResponse]

/-- A run without a failure goes through all stages and back. It ends with a response, and whoever
is given a response on the way back is given the one that came out last. -/
theorem Course.smooth {chain : List (Role × Nat)} {last : Nat} {log : List Mark}
    {result : Except Failure Response}
    (h : Course (chain ++ [(Role.handles true, last)]) log result)
    (hchain : ∀ x ∈ chain, ∀ b, x.1 ≠ .handles b)
    (hsmooth : ∀ i d, .did i d ∈ log → d.smooth = true) :
    ∃ r, result = .ok r ∧ log.filterMap Mark.side? = thereAndBack chain last ∧
      log.filterMap Mark.gave? = log.filterMap Mark.took? ++ [r] := by
  induction chain generalizing log result with
  | nil =>
    cases h with
    | turned hturns =>
      cases hturns with
      | handled given =>
        cases given with
        | ok r => exact ⟨r, rfl, rfl, rfl⟩
        | error c => cases hsmooth last _ (early_mem (.head _))
    | passed hpasses _ => cases hpasses
  | cons x chain ih =>
    obtain ⟨role, i⟩ := x
    cases h with
    | turned hturns =>
      -- a stage that turns a run around is no stage of a smooth run
      cases hturns with
      | answered r => cases hsmooth i (.answered r) (early_mem (.head _))
      | refused c => cases hsmooth i (.refused c) (early_mem (.head _))
      | declined result => cases hsmooth i (.declined result) (early_mem (.head _))
      | neglected r f => cases hsmooth i (.declined (.ok r)) (early_mem (.head _))
      | handled result => exact absurd rfl (hchain _ (.head _) true)
      | spent => exact absurd rfl (hchain _ (.head _) false)
    | @passed _ _ _ early lower given late _ hpasses hlower =>
      obtain ⟨r, rfl, hsides, hrelay⟩ := ih hlower (fun x hx => hchain x (.tail _ hx))
        fun j d hd => hsmooth j d (lower_mem hd)
      rw [filterMap_deeds_framed Mark.side?_none, filterMap_deeds_framed Mark.gave?_none,
        filterMap_deeds_framed Mark.took?_none, thereAndBack_cons, hsides, hrelay]
      cases hpasses with
      | passed _ => exact ⟨r, rfl, rfl, by simp [List.filterMap_cons, Mark.gave?, Mark.took?]⟩
      | resumed _ result =>
        have hdeed := hsmooth i (.resumed (.ok r) result) (late_mem (.head _))
        cases result with
        | error f => cases hdeed
        | ok r' => exact ⟨r', rfl, rfl, by simp [List.filterMap_cons, Mark.gave?, Mark.took?]⟩
      | adjusted _ result =>
        have hdeed := hsmooth i (.adjusted r result) (late_mem (.head _))
        cases result with
        | error c => cases hdeed
        | ok r' => exact ⟨r', rfl, rfl, by simp [Mark.gave?, Mark.took?]⟩
      | idled _ => exact ⟨r, rfl, rfl, by simp⟩

/-! ### Runs of marked stages -/

/-- The deeds of a course. -/
def DeedsOf (chain : List (Role × Nat)) (marks : List Mark) (result : Except Failure Response) :
    Prop :=
  ∃ log, Course chain log result ∧ marks = log.filter Mark.isDeed

theorem deeds_framed {i : Nat} {early late : List Deed} {lower : List Mark}
    {result : Except Failure Response} :
    (framed i early lower late result).filter Mark.isDeed =
      early.map (.did i) ++ lower.filter Mark.isDeed ++ late.map (.did i) := by
  have hdeeds : ∀ deeds : List Deed,
      (deeds.map (.did i)).filter Mark.isDeed = deeds.map (.did i) := by
    intro deeds
    rw [List.filter_eq_self]
    intro m hm
    obtain ⟨d, -, rfl⟩ := List.mem_map.mp hm
    rfl
  unfold framed
  rw [List.filter_cons_of_neg Bool.false_ne_true, List.filter_append, List.filter_append,
    List.filter_append, hdeeds, hdeeds, List.filter_cons_of_neg Bool.false_ne_true,
    List.filter_nil, List.append_nil]

theorem Around.deeds {chain : List (Role × Nat)} {role : Role} {i : Nat} {marks : List Mark}
    {result : Except Failure Response} (h : Around (DeedsOf chain) role i marks result) :
    DeedsOf ((role, i) :: chain) marks result := by
  cases h with
  | turns hturns =>
    refine ⟨_, .turned hturns, ?_⟩
    rw [deeds_framed]
    simp
  | passes hpasses hbelow =>
    obtain ⟨log, hcourse, rfl⟩ := hbelow
    exact ⟨_, .passed hpasses hcourse, deeds_framed.symm⟩

/-- A stage with its label, marked. -/
def markedAs (x : Stage σ W × Nat) : Stage σ (Logged W) := x.1.marked x.2

/-- Running marked stages enters the deeds of a course, unless something panics. -/
theorem runFrom_deeds {chain : List (Stage σ W × Nat)} {last : Stage σ W × Nat}
    {spent ready : Bool} (hlast : last.1.role spent = .handles ready)
    (hhosted : ∀ x ∈ chain ++ [last], x.1.hosted = true) (index : Nat) (pool : Option String)
    (s : State σ (Logged W)) (hs : s.spent = spent) :
    Records (DeedsOf (chain.map (fun x => (x.1.role spent, x.2)) ++ [(.handles ready, last.2)])) s
      (runFrom index ((chain ++ [last]).map markedAs) pool s) := by
  induction chain generalizing index pool s with
  | nil =>
    have hrun := Stage.run_marked_last (DeedsOf []) last.2 index 0 hlast
      (hhosted last (.head _)) pool s hs
    exact hrun.imp fun _ _ => Around.deeds
  | cons x chain ih =>
    have hbelow := fun pool t ht =>
      ih (fun y hy => hhosted y (.tail _ hy)) (index + 1) pool t ht
    have hrun := Stage.run_marked x.2 index ((chain ++ [last]).map markedAs).length hbelow x.1
      (hhosted x (.head _)) pool s hs
    exact hrun.imp fun _ _ => Around.deeds

theorem plain_runFrom (index : Nat) (chain : List (Stage σ W × Nat)) (pool : Option String)
    (s : State σ (Logged W)) :
    plainly (runFrom index (chain.map markedAs) pool s) =
      runFrom index (chain.map (·.1)) pool s.plain := by
  induction chain generalizing index pool s with
  | nil => rfl
  | cons x chain ih =>
    rw [List.map_cons, List.map_cons, runFrom, runFrom, List.length_map, List.length_map]
    exact Stage.plain_run (ih (index + 1)) x.1 pool s

/-- A run of marked stages without a failure goes through all of them and back. -/
theorem runFrom_smooth {chain : List (Stage σ W × Nat)} {last : Stage σ W × Nat} {s : State σ W}
    (hchain : ∀ x ∈ chain, x.1.isTerminal = false) (hlast : last.1.role s.spent = .handles true)
    (hhosted : ∀ x ∈ chain ++ [last], x.1.hosted = true)
    {x : Ending Failure Response × State σ (Logged W)}
    (hx : runFrom 0 ((chain ++ [last]).map markedAs) none s.logged = x)
    (hsmooth : ∀ i d, .did i d ∈ x.2.log → d.smooth = true) :
    ∃ r, x.1 = .done r ∧
      x.2.log.filterMap Mark.side? =
        thereAndBack (chain.map fun x => (x.1.role s.spent, x.2)) last.2 ∧
      x.2.log.filterMap Mark.gave? = x.2.log.filterMap Mark.took? ++ [r] := by
  obtain ⟨marks, hlog, hcase⟩ := runFrom_deeds hlast hhosted 0 none s.logged rfl
  rw [hx] at hlog hcase
  have hmarks : x.2.log = marks := hlog
  rw [hmarks] at hsmooth ⊢
  rcases hcase with ⟨m, hm, hp⟩ | ⟨result, hresult, log, hcourse, rfl⟩
  · -- a panic is not smooth
    cases m with
    | did i d =>
      cases d with
      | panicked m => cases hsmooth i _ hm
      | _ => cases hp
    | _ => cases hp
  · have hroles : ∀ y ∈ chain.map (fun x => (x.1.role s.spent, x.2)), ∀ b, y.1 ≠ .handles b := by
      intro y hy b
      obtain ⟨x, hmem, rfl⟩ := List.mem_map.mp hy
      exact Stage.role_ne_handles (hchain x hmem) s.spent b
    obtain ⟨r, rfl, hsides, hrelay⟩ := hcourse.smooth hroles fun i d hd =>
      hsmooth i d (List.mem_filter.mpr ⟨hd, rfl⟩)
    rw [filterMap_deeds Mark.side?_none, filterMap_deeds Mark.gave?_none,
      filterMap_deeds Mark.took?_none]
    exact ⟨r, hresult, hsides, hrelay⟩

/-! ### Smooth stages -/

/-- A first half that proceeds, and leaves a second half behind that makes responses of responses. -/
def Enter.Smooth (enter : Enter σ W) : Prop :=
  ∀ site request scene, ∃ resume request' scene',
    enter site request scene = (.proceed resume, request', scene') ∧
      ∀ response request scene, ∃ r, (resume (.ok response) request scene).1 = .done r

/-- A stage that lets requests through and makes responses of responses, or makes a response of any
request. -/
def Stage.Smooth : Stage σ W → Prop
  | .before _ _ act => ∀ site request scene, (act site request scene).1 = .done none
  | .wrapping _ _ enter => enter.Smooth
  | .after _ _ act =>
    ∀ site request response scene, ∃ r, (act site request response scene).1 = .done r
  | .around _ _ enabled enter => enabled = true → enter.Smooth
  | .hop inner _ => inner.Smooth
  | .terminal act => ∀ site request scene, ∃ r, (act site request scene).1 = .done r
  | .reactive act => ∀ site scene, ∃ r, (act site scene).1 = .done r

/-- From state `s` on a run comes to a response, and only smooth deeds are entered. -/
def Glides (s : State σ (Logged W)) (x : Ending Failure Response × State σ (Logged W)) : Prop :=
  (∃ r, x.1 = .done r) ∧
    ∃ marks, x.2.log = s.log ++ marks ∧ ∀ i d, .did i d ∈ marks → d.smooth = true

section Gliding

variable {s t : State σ (Logged W)} {x : Ending Failure Response × State σ (Logged W)}
  {label index remaining : Nat} {spent : Bool} {rest : Walk σ (Logged W)} {pool : Option String}

/-- A run that ends with one smooth deed behind what glides. -/
theorem Glides.concat {d : Deed} (h : Glides s x) (hd : d.smooth = true) {r : Response}
    (ht : t.log = x.2.log ++ [.did label d]) : Glides s (.done r, t) := by
  obtain ⟨-, marks, hlog, hmarks⟩ := h
  refine ⟨⟨r, rfl⟩, marks ++ [.did label d], ?_, ?_⟩
  · rw [← List.append_assoc, ← hlog]
    exact ht
  · intro i d' hd'
    rcases List.mem_append.mp hd' with hd' | hd'
    · exact hmarks i d' hd'
    · cases List.mem_singleton.mp hd'
      exact hd

/-- A run that begins with one smooth deed. -/
theorem Glides.cons {d : Deed} (h : Glides t x) (hd : d.smooth = true)
    (ht : t.log = s.log ++ [.did label d]) : Glides s x := by
  obtain ⟨hdone, marks, hlog, hmarks⟩ := h
  refine ⟨hdone, .did label d :: marks, ?_, ?_⟩
  · rw [hlog, ht, List.append_assoc]
    rfl
  · intro i d' hd'
    rcases List.mem_cons.mp hd' with hd' | hd'
    · cases hd'
      exact hd
    · exact hmarks i d' hd'

theorem Glides.nil (s : State σ (Logged W)) (r : Response) : Glides s (.done r, s) :=
  ⟨⟨r, rfl⟩, [], (List.append_nil _).symm, nofun⟩

/-- A wrapping stage whose halves are smooth. -/
theorem Enter.Smooth.glides {enter : Enter σ W} (h : enter.Smooth) (label : Nat) (site : Site)
    (hrest : ∀ t : State σ (Logged W), t.spent = s.spent → Glides t (rest pool t)) :
    ∃ resume request scene,
      markedEnter label enter site s.request s.scene = (.proceed resume, request, scene) ∧
        Glides s (resumeWith resume (rest pool (s.with request scene))) := by
  obtain ⟨resume, request, scene, henter, hresume⟩ := h site s.request s.scene.plain
  refine ⟨markedResume label resume, request,
    scene.logging (s.log ++ [.did label .proceeded]), ?_, ?_⟩
  · unfold markedEnter
    rw [henter]
    rfl
  · have hbelow := hrest (s.with request (scene.logging (s.log ++ [.did label .proceeded]))) rfl
    generalize rest pool _ = x at hbelow ⊢
    obtain ⟨ending, u⟩ := x
    obtain ⟨⟨r, rfl⟩, -⟩ := id hbelow
    obtain ⟨r', hr'⟩ := hresume r u.request u.scene.plain
    show Glides s (resumeWith (markedResume label resume) (.ofExcept (.ok r), u))
    rw [resumeWith_ofExcept]
    unfold markedResume
    generalize resume (.ok r) u.request u.scene.plain = y at hr' ⊢
    obtain ⟨ending, request', scene'⟩ := y
    obtain rfl : ending = .done r' := hr'
    exact (hbelow.cons (d := .proceeded) rfl rfl).concat (d := .resumed (.ok r) (.ok r')) rfl rfl

/-- A smooth stage glides if the rest does, or handles the request. -/
theorem Stage.run_glides {stage : Stage σ W} (h : stage.Smooth) (hhosted : stage.hosted = true)
    (hready : stage.role spent ≠ .handles false)
    (hrest : stage.isTerminal = false →
      ∀ pool (t : State σ (Logged W)), t.spent = spent → Glides t (rest pool t))
    (pool : Option String) (s : State σ (Logged W)) (hs : s.spent = spent) :
    Glides s ((stage.marked label).run index remaining rest pool s) := by
  induction stage generalizing pool s with
  | before rank own act =>
    have hact := h ⟨pool, index + 1, remaining⟩ s.request s.scene.plain
    unfold marked run
    dsimp only
    generalize act ⟨pool, index + 1, remaining⟩ s.request s.scene.plain = x at hact ⊢
    obtain ⟨ending, request, scene⟩ := x
    obtain rfl : ending = .done none := hact
    let t := s.with request (scene.logging (s.log ++ [.did label .passed]))
    have hbelow : Glides t (rest pool t) := hrest rfl pool t hs
    exact hbelow.cons (d := .passed) rfl rfl
  | wrapping rank own enter =>
    obtain ⟨resume, request, scene, henter, hglides⟩ := Enter.Smooth.glides h label
      ⟨pool, index + 1, remaining⟩ fun t ht => hrest rfl pool t (ht.trans hs)
    unfold marked run
    rw [henter]
    exact hglides
  | after rank own act =>
    have hbelow := hrest rfl pool s hs
    unfold marked run
    generalize rest pool s = x at hbelow ⊢
    obtain ⟨ending, t⟩ := x
    obtain ⟨⟨r, rfl⟩, -⟩ := id hbelow
    obtain ⟨r', hr'⟩ := h ⟨pool, index + 1, remaining⟩ t.request r t.scene.plain
    dsimp only
    generalize act ⟨pool, index + 1, remaining⟩ t.request r t.scene.plain = y at hr' ⊢
    obtain ⟨ending, scene⟩ := y
    obtain rfl : ending = .done r' := hr'
    exact hbelow.concat (d := .adjusted r (.ok r')) rfl rfl
  | around rank own enabled enter =>
    cases enabled with
    | false => exact hrest rfl pool s hs
    | true =>
      obtain ⟨resume, request, scene, henter, hglides⟩ := Enter.Smooth.glides (h rfl) label
        ⟨pool, index + 1, remaining⟩ fun t ht => hrest rfl pool t (ht.trans hs)
      unfold marked run
      rw [if_pos rfl, henter]
      exact hglides
  | hop inner worker ih =>
    simp only [hosted, Bool.and_eq_true] at hhosted
    have hinner := ih h hhosted.2 hready hrest (some worker.name) s hs
    unfold marked run
    rw [if_pos hhosted.1]
    generalize (inner.marked label).run index remaining rest (some worker.name) s = x at hinner ⊢
    obtain ⟨ending, t⟩ := x
    obtain ⟨⟨r, rfl⟩, -⟩ := id hinner
    exact hinner
  | terminal act =>
    obtain ⟨r, hr⟩ := h ⟨pool, index + 1, remaining⟩ s.request s.scene.plain
    unfold marked run
    dsimp only
    generalize act ⟨pool, index + 1, remaining⟩ s.request s.scene.plain = x at hr ⊢
    obtain ⟨ending, scene⟩ := x
    obtain rfl : ending = .done r := hr
    exact (Glides.nil s r).concat (d := .handled (.ok r)) rfl rfl
  | reactive act =>
    obtain ⟨r, hr⟩ := h ⟨pool, index + 1, remaining⟩ s.scene.plain
    have hunspent : s.spent = false := by
      cases spent with
      | false => exact hs
      | true => exact absurd rfl hready
    unfold marked
    rw [run_reactive_ready hunspent]
    dsimp only
    generalize act ⟨pool, index + 1, remaining⟩ s.scene.plain = x at hr ⊢
    obtain ⟨ending, scene⟩ := x
    obtain rfl : ending = .done r := hr
    exact (Glides.nil s r).concat (d := .handled (.ok r)) rfl rfl

/-- **A run of smooth stages glides.** -/
theorem runFrom_glides {chain : List (Stage σ W × Nat)} {last : Stage σ W × Nat}
    (hsmooth : ∀ x ∈ chain ++ [last], x.1.Smooth)
    (hhosted : ∀ x ∈ chain ++ [last], x.1.hosted = true)
    (hchain : ∀ x ∈ chain, x.1.isTerminal = false) (hlast : last.1.role spent = .handles true)
    (index : Nat) (pool : Option String) (s : State σ (Logged W)) (hs : s.spent = spent) :
    Glides s (runFrom index ((chain ++ [last]).map markedAs) pool s) := by
  induction chain generalizing index pool s with
  | nil =>
    have hterminal : last.1.isTerminal = true := (Stage.isTerminal_iff spent _).mpr ⟨_, hlast⟩
    refine Stage.run_glides (hsmooth last (.head _)) (hhosted last (.head _)) ?_ ?_ pool s hs
    · rw [hlast]
      decide
    · intro hnone
      rw [hterminal] at hnone
      cases hnone
  | cons x chain ih =>
    refine Stage.run_glides (hsmooth x (.head _)) (hhosted x (.head _))
      (Stage.role_ne_handles (hchain x (.head _)) spent false) (fun _ pool t ht => ?_) pool s hs
    exact ih (fun y hy => hsmooth y (.tail _ hy)) (fun y hy => hhosted y (.tail _ hy))
      (fun y hy => hchain y (.tail _ hy)) (index + 1) pool t ht

end Gliding

/-! ### Assembling -/

/-- Stages with one that handles the request behind them are sorted without it. -/
theorem assemble?_concat {listed : List (Stage σ W)} {last : Stage σ W}
    (hlisted : ∀ stage ∈ listed, stage.isTerminal = false) (hlast : last.isTerminal = true) :
    Lineup.assemble? (listed ++ [last]) = .ok ⟨sortByPlace Stage.place listed ++ [last]⟩ := by
  have hcount : (listed ++ [last]).countP Stage.isTerminal = 1 := by
    have hnone : listed.countP Stage.isTerminal = 0 := by
      rw [List.countP_eq_zero]
      intro stage hstage
      rw [hlisted stage hstage]
      exact Bool.false_ne_true
    rw [List.countP_append, hnone, List.countP_singleton, if_pos hlast]
  unfold Lineup.assemble?
  rw [hcount]
  rw [List.getLast?_concat, List.dropLast_concat]
  dsimp only
  rw [if_pos hlast]
  rfl

/-- Stages in the sequence in which they are listed, marked by their positions. -/
def markedList (stages : List (Stage σ W)) : List (Stage σ (Logged W)) :=
  stages.zipIdx.map markedAs

theorem assemble?_markedList {listed : List (Stage σ W)} {last : Stage σ W}
    (hlisted : ∀ stage ∈ listed, stage.isTerminal = false) (hlast : last.isTerminal = true) :
    Lineup.assemble? (markedList (listed ++ [last])) =
      .ok ⟨(inOrder Stage.place listed ++ [(last, listed.length)]).map markedAs⟩ := by
  have hplace : ∀ x : Stage σ W × Nat, (markedAs x).place = x.1.place := by
    intro x
    rw [Stage.place, markedAs, Stage.order?_marked, Stage.place]
  have hlist : markedList (listed ++ [last]) =
      listed.zipIdx.map markedAs ++ [markedAs (last, listed.length)] := by
    unfold markedList
    rw [List.zipIdx_append, List.map_append, Nat.zero_add]
    rfl
  rw [hlist, assemble?_concat, sortByPlace_map hplace, List.map_append, List.map_singleton]
  · intro stage hstage
    obtain ⟨x, hx, rfl⟩ := List.mem_map.mp hstage
    rw [markedAs, Stage.isTerminal_marked]
    exact hlisted _ (List.fst_mem_of_mem_zipIdx hx)
  · rw [markedAs, Stage.isTerminal_marked]
    exact hlast

/-- **Nesting.** The stages of an assembled line-up are those listed, in ascending order of place,
and in the sequence of the list where places are equal. Marked by their positions in the list they
run as the stages themselves do. If all of them are smooth then nothing that they do fails. And if
nothing that they do fails then the run ends with a response: the stages that do something about the
request do so in this order, the last stage handles it, and the stages that do something about the
response do so in the reverse order; each does once. Each of the latter is given the response that
came out last, and the last one that comes out is the response of the run. -/
theorem nesting {listed : List (Stage σ W)} {last : Stage σ W} (s : State σ W)
    (hlisted : ∀ stage ∈ listed, stage.isTerminal = false)
    (hlast : last.role s.spent = .handles true)
    (hhosted : ∀ stage ∈ listed ++ [last], stage.hosted = true) :
    ∃ (ordered : List (Stage σ W × Nat)) (p : Lineup σ W) (q : Lineup σ (Logged W)),
      Lineup.assemble? (listed ++ [last]) = .ok p ∧
      Lineup.assemble? (markedList (listed ++ [last])) = .ok q ∧
      p.stages = ordered.map (·.1) ++ [last] ∧
      ordered.Perm listed.zipIdx ∧
      ordered.Pairwise (fun a b =>
        a.1.place < b.1.place ∨ a.1.place = b.1.place ∧ a.2 < b.2) ∧
      plainly (q.execute s.logged) = p.execute s ∧
      let log := (q.execute s.logged).2.log
      ((∀ stage ∈ listed ++ [last], stage.Smooth) →
        ∀ i d, .did i d ∈ log → d.smooth = true) ∧
      ((∀ i d, .did i d ∈ log → d.smooth = true) →
        ∃ r, (p.execute s).1 = .done r ∧
          log.filterMap Mark.side? =
            thereAndBack (ordered.map fun x => (x.1.role s.spent, x.2)) listed.length ∧
          log.filterMap Mark.gave? = log.filterMap Mark.took? ++ [r]) := by
  have hterminal : last.isTerminal = true := (Stage.isTerminal_iff s.spent last).mpr ⟨_, hlast⟩
  have hsorted : sortByPlace Stage.place listed = (inOrder Stage.place listed).map (·.1) := by
    have hmap : sortByPlace Stage.place (listed.zipIdx.map Prod.fst) = _ :=
      sortByPlace_map (fun _ => rfl) listed
    rwa [List.zipIdx_map_fst] at hmap
  have hperm := inOrder_perm Stage.place listed
  have hplain : plainly (runFrom 0 ((inOrder Stage.place listed ++ [(last, listed.length)]).map
      markedAs) none s.logged) = runFrom 0 (sortByPlace Stage.place listed ++ [last]) none s := by
    rw [plain_runFrom, List.map_append, hsorted]
    rfl
  have hmem : ∀ x ∈ inOrder Stage.place listed, x.1 ∈ listed :=
    fun x hx => List.fst_mem_of_mem_zipIdx (hperm.mem_iff.mp hx)
  have hall : ∀ {P : Stage σ W → Prop}, (∀ stage ∈ listed ++ [last], P stage) →
      ∀ x ∈ inOrder Stage.place listed ++ [(last, listed.length)], P x.1 := by
    intro P hstages x hx
    rcases List.mem_append.mp hx with hx | hx
    · exact hstages _ (List.mem_append_left _ (hmem x hx))
    · rw [List.mem_singleton.mp hx]
      exact hstages _ (List.mem_append_right _ (.head _))
  have hchain : ∀ x ∈ inOrder Stage.place listed, x.1.isTerminal = false :=
    fun x hx => hlisted _ (hmem x hx)
  refine ⟨inOrder Stage.place listed, _, _, assemble?_concat hlisted hterminal,
    assemble?_markedList hlisted hterminal, by rw [hsorted], hperm, inOrder_pairwise _ _, hplain,
    fun hstages => ?_, fun hsmooth => ?_⟩
  · obtain ⟨-, marks, hlog, hmarks⟩ := runFrom_glides (hall hstages) (hall hhosted) hchain hlast 0
      none s.logged rfl
    have hentered : (runFrom 0 ((inOrder Stage.place listed ++ [(last, listed.length)]).map
        markedAs) none s.logged).2.log = marks := hlog
    intro i d hd
    exact hmarks i d (hentered ▸ hd)
  · obtain ⟨r, hr, hsides, hrelay⟩ := runFrom_smooth hchain hlast (hall hhosted) rfl hsmooth
    exact ⟨r, (congrArg Prod.fst hplain).symm.trans hr, hsides, hrelay⟩

/-- Stages of two places: one that is not enabled, and one that runs on a pool, among them. -/
def layered : List (Stage Unit Unit) :=
  [.after (.fixed 2) 0 fun _ _ response scene => (.done { response with status := 201 }, scene),
    .before .dynamic 1 fun _ request scene => (.done none, request, scene),
    .around (.fixed 1) 0 false fun _ request scene => (.answer (.done {}), request, scene),
    .hop (.wrapping .dynamic 1 fun _ request scene =>
      (.proceed fun given request scene => (.ofExcept given, request, scene), request, scene))
      { name := "pool" }]

def handling : Stage Unit Unit := .terminal fun _ _ scene => (.done {}, scene)

theorem smooth_layered : ∀ stage ∈ layered ++ [handling], stage.Smooth := by
  simp [layered, handling, Stage.Smooth, Enter.Smooth, Ending.ofExcept]

theorem nesting_layered :
    let s : State Unit Unit := { request := { body := 0 }, scene := { world := () } }
    ∃ (ordered : List (Stage Unit Unit × Nat)) (p : Lineup Unit Unit)
      (q : Lineup Unit (Logged Unit)),
      Lineup.assemble? (layered ++ [handling]) = .ok p ∧
      Lineup.assemble? (markedList (layered ++ [handling])) = .ok q ∧
      ordered.Pairwise (fun a b =>
        a.1.place < b.1.place ∨ a.1.place = b.1.place ∧ a.2 < b.2) ∧
      (p.execute s).1 = .done { status := 201 } ∧
      (q.execute s.logged).2.log =
        [.did 1 .passed, .did 3 .proceeded, .did 4 (.handled (.ok {})),
          .did 0 (.adjusted {} (.ok { status := 201 })),
          .did 3 (.resumed (.ok { status := 201 }) (.ok { status := 201 }))] ∧
      thereAndBack (ordered.map fun x => (x.1.role false, x.2)) 4 =
        [(1, .request), (3, .request), (4, .handling), (0, .response), (3, .response)] := by
  intro s
  have hlisted : ∀ stage ∈ layered, stage.isTerminal = false := by
    simp [layered, Stage.isTerminal]
  have hhosted : ∀ stage ∈ layered ++ [handling], stage.hosted = true := by
    simp [layered, handling, Stage.hosted]
  obtain ⟨ordered, p, q, hp, hq, -, -, hsorted, -, hsmooth, hends⟩ :=
    nesting s hlisted (show handling.role s.spent = .handles true from rfl) hhosted
  obtain ⟨r, hr, hsides, hrelay⟩ := hends (hsmooth smooth_layered)
  have hassembled : Lineup.assemble? (layered ++ [handling]) =
      .ok ⟨[layered[1], layered[2], layered[3], layered[0], handling]⟩ := by cbv
  have hmarked : Lineup.assemble? (markedList (layered ++ [handling])) =
      .ok ⟨[layered[1].marked 1, layered[2].marked 2, layered[3].marked 3, layered[0].marked 0,
        handling.marked 4]⟩ := by cbv
  obtain rfl := Except.ok.inj (hassembled.symm.trans hp)
  obtain rfl := Except.ok.inj (hmarked.symm.trans hq)
  -- the only response that came out and was not taken is the one of the run
  let taken : List Response := [{}, { status := 201 }]
  have hlast : taken ++ [{ status := 201 }] = taken ++ [r] := hrelay
  obtain rfl := List.singleton_inj.mp (List.append_cancel_left hlast)
  exact ⟨ordered, _, _, hassembled, hmarked, hsorted, hr, rfl, hsides.symm.trans rfl⟩

end Exchange.Pipeline
