import Exchange.Pipeline.Lineup
import Exchange.Proofs.Pipeline.Marked

/-!
What a line-up runs, whatever its stages do.

A traced run is the run of a line-up with every stage marked, and a mark before and behind the part
of the run that each stage begins. It comes to what the line-up comes to (`plain_tracedFrom`). Its
marks are a course (`tracedFrom_course`), and from that `what_runs` reads off which stages are
reached, which responses are adjusted and how far failures travel.
-/
namespace Exchange.Pipeline

open Http (Request Response)

variable {σ W : Type}

/-! ### Traced runs -/

/-- Enters a mark. -/
def State.enter (m : Mark) (s : State σ (Logged W)) : State σ (Logged W) :=
  { s with scene := { s.scene with world := { s.scene.world with log := s.log ++ [m] } } }

/-- A walk between the marks that say where it begins and what it comes to. -/
def bracketed (i : Nat) (walk : Walk σ (Logged W)) : Walk σ (Logged W) := fun pool s =>
  match walk pool (s.enter (.reached i)) with
  | (.done r, s) => (.done r, s.enter (.returned i (.ok r)))
  | (.failed f, s) => (.failed f, s.enter (.returned i (.error f)))
  | (.panicked m, s) => (.panicked m, s)

/-- Runs stages, of which the first has the given index, and enters what happens. -/
def tracedFrom (index : Nat) : List (Stage σ W) → Walk σ (Logged W)
  | [] => runFrom index []
  | stage :: below =>
    bracketed index
      ((stage.marked index).run index below.length (tracedFrom (index + 1) below))

/-- Runs a line-up and enters what happens. -/
def Lineup.traced (p : Lineup σ W) (s : State σ W) :
    Ending Failure Response × State σ (Logged W) :=
  tracedFrom 0 p.stages none s.logged

/-- The marks of a run. -/
def Lineup.marks (p : Lineup σ W) (s : State σ W) : List Mark := (p.traced s).2.log

theorem plain_bracketed {i : Nat} {walk : Walk σ (Logged W)} {pool : Option String}
    {s : State σ (Logged W)} :
    plainly (bracketed i walk pool s) = plainly (walk pool (s.enter (.reached i))) := by
  unfold bracketed
  obtain ⟨ending, t⟩ := walk pool (s.enter (.reached i))
  cases ending <;> rfl

/-- A traced run comes to what the run comes to. -/
theorem plain_tracedFrom (index : Nat) (stages : List (Stage σ W)) (pool : Option String)
    (s : State σ (Logged W)) :
    plainly (tracedFrom index stages pool s) = runFrom index stages pool s.plain := by
  induction stages generalizing index pool s with
  | nil => rfl
  | cons stage below ih =>
    rw [tracedFrom, plain_bracketed, Stage.plain_run (ih (index + 1))]
    rfl

/-! ### Their marks -/

theorem Around.course {chain : List (Role × Nat)} {role : Role} {i : Nat} {marks : List Mark}
    {result : Except Failure Response} (h : Around (Course chain) role i marks result) :
    Course ((role, i) :: chain) (.reached i :: (marks ++ [.returned i result])) result := by
  cases h with
  | turns hturns =>
    have hcourse : Course ((role, i) :: chain) _ result := .turned hturns
    simpa [framed] using hcourse
  | passes hpasses hbelow => exact .passed hpasses hbelow

theorem Records.bracketed {leaves : List Mark → Except Failure Response → Prop} {i : Nat}
    {chain : List (Role × Nat)} {walk : Walk σ (Logged W)} {pool : Option String}
    {s : State σ (Logged W)}
    (hwalk : Records leaves (s.enter (.reached i)) (walk pool (s.enter (.reached i))))
    (hcourse : ∀ marks result, leaves marks result →
      Course chain (.reached i :: (marks ++ [.returned i result])) result) :
    Records (Course chain) s (bracketed i walk pool s) := by
  unfold Pipeline.bracketed
  generalize walk pool (s.enter (.reached i)) = x at hwalk ⊢
  obtain ⟨ending, t⟩ := x
  obtain ⟨marks, hlog, hcase⟩ := hwalk
  have hbehind : ∀ more, t.log ++ more = s.log ++ (.reached i :: (marks ++ more)) := by
    intro more
    rw [show t.log = _ from hlog, List.append_assoc]
    exact List.append_assoc s.log [.reached i] _
  -- a panic stays on record, and without one the walk has a result to return with
  have hpanic : ∀ more, (∃ m ∈ marks, m.panics = true) →
      ∃ m ∈ Mark.reached i :: (marks ++ more), m.panics = true :=
    fun more ⟨m, hm, hp⟩ => ⟨m, .tail _ (List.mem_append_left _ hm), hp⟩
  cases ending with
  | done r =>
    refine ⟨_, hbehind [.returned i (.ok r)], hcase.imp (hpanic _) ?_⟩
    rintro ⟨result, hresult, hleaves⟩
    cases result with
    | error f => cases hresult
    | ok r' =>
      cases hresult
      exact ⟨.ok r, rfl, hcourse _ _ hleaves⟩
  | failed f =>
    refine ⟨_, hbehind [.returned i (.error f)], hcase.imp (hpanic _) ?_⟩
    rintro ⟨result, hresult, hleaves⟩
    cases result with
    | ok r => cases hresult
    | error g =>
      cases hresult
      exact ⟨.error f, rfl, hcourse _ _ hleaves⟩
  | panicked m =>
    refine ⟨_, (List.append_nil t.log).symm.trans (hbehind []), hcase.imp (hpanic _) ?_⟩
    rintro ⟨result, hresult, -⟩
    cases result <;> cases hresult

/-- The marks of a traced run are a course, unless something panics. -/
theorem tracedFrom_course {covering : List (Stage σ W)} {last : Stage σ W} {spent ready : Bool}
    (hlast : last.role spent = .handles ready)
    (hhosted : ∀ stage ∈ covering ++ [last], stage.hosted = true) (index : Nat)
    (pool : Option String) (s : State σ (Logged W)) (hs : s.spent = spent) :
    Records (Course ((covering.map (Stage.role spent) ++ [Role.handles ready]).zipIdx index)) s
      (tracedFrom index (covering ++ [last]) pool s) := by
  induction covering generalizing index pool s with
  | nil =>
    have hrun := Stage.run_marked_last (Course []) index index 0 hlast (hhosted last (.head _))
      pool (s.enter (.reached index)) hs
    exact hrun.bracketed fun _ _ => Around.course
  | cons stage covering ih =>
    have hbelow := fun pool t ht =>
      ih (fun x hx => hhosted x (.tail _ hx)) (index + 1) pool t ht
    have hrun := Stage.run_marked index index (covering ++ [last]).length hbelow stage
      (hhosted stage (.head _)) pool (s.enter (.reached index)) hs
    exact hrun.bracketed fun _ _ => Around.course

/-! ### Whole runs -/

/-- The marks of a run are a course, if nothing panics. -/
theorem Lineup.course {covering : List (Stage σ W)} {last : Stage σ W} {s : State σ W}
    {ready : Bool} (hlast : last.role s.spent = .handles ready)
    (hhosted : ∀ stage ∈ covering ++ [last], stage.hosted = true)
    (hcalm : ∀ m ∈ Lineup.marks ⟨covering ++ [last]⟩ s, m.panics = false) :
    ∃ result, Course ((covering.map (Stage.role s.spent) ++ [Role.handles ready]).zipIdx 0)
      (Lineup.marks ⟨covering ++ [last]⟩ s) result := by
  obtain ⟨marks, hlog, hcase⟩ := tracedFrom_course hlast hhosted 0 none s.logged rfl
  have hmarks : Lineup.marks ⟨covering ++ [last]⟩ s = marks := hlog
  rw [hmarks] at hcalm ⊢
  rcases hcase with ⟨m, hm, hp⟩ | ⟨result, -, hcourse⟩
  · rw [hcalm m hm] at hp
    cases hp
  · exact ⟨result, hcourse⟩

theorem mem_roles {covering : List (Stage σ W)} {spent : Bool} {role : Role} {k : Nat} :
    (role, k) ∈ (covering.map (Stage.role spent)).zipIdx ↔
      ∃ stage, covering[k]? = some stage ∧ stage.role spent = role := by
  rw [List.mk_mem_zipIdx_iff_getElem?, List.getElem?_map, Option.map_eq_some_iff]

/-- **What runs.** A traced run comes to what the run comes to. The stages reached are the first
ones, each of them once; the last is reached if and only if all others let the request through, and
it handles the request at most once. A stage that adjusts responses is given what the stages below
it returned with, if that is a response, and nothing else. No stage is reached once a failure shows.
A failure passes over the stages that adjust responses up to the first that makes a response of it,
which is one that wraps the rest; above that one responses are adjusted again, unless something else
fails. -/
theorem what_runs {covering : List (Stage σ W)} {last : Stage σ W}
    (hcovering : ∀ stage ∈ covering, stage.isTerminal = false) (hlast : last.isTerminal = true)
    (hhosted : ∀ stage ∈ covering ++ [last], stage.hosted = true) (s : State σ W)
    (hcalm : ∀ m ∈ Lineup.marks ⟨covering ++ [last]⟩ s, m.panics = false) :
    let p : Lineup σ W := ⟨covering ++ [last]⟩
    let log := p.marks s
    plainly (p.traced s) = p.execute s ∧
    log.filterMap Mark.reached? <+: List.range (covering.length + 1) ∧
    (.reached covering.length ∈ log ↔
      ∀ k stage, covering[k]? = some stage → LetsThrough log k (stage.role s.spent)) ∧
    log.countP Mark.handles ≤ 1 ∧
    ((∃ r, .did covering.length (.handled r) ∈ log) ↔
      .reached covering.length ∈ log ∧ last.role s.spent = .handles true) ∧
    (∀ k stage, covering[k]? = some stage → stage.role s.spent = .adjusts →
      log.filterMap (Mark.given? k) = log.filterMap (Mark.response? (k + 1)) ∧
      (log.filterMap (Mark.given? k)).length ≤ 1) ∧
    (∀ front m back, log = front ++ m :: back → m.fails = true → ∀ k, .reached k ∉ back) ∧
    (∀ j, Recovers log j → ∃ stage, covering[j]? = some stage ∧ stage.role s.spent = .wraps) ∧
    ∀ k stage, covering[k]? = some stage → stage.role s.spent = .adjusts →
      (∀ j f, k < j → .returned j (.error f) ∈ log → (∀ m, k < m → m < j → ¬Recovers log m) →
        log.filterMap (Mark.given? k) = []) ∧
      (∀ j, k < j → Recovers log j →
        (∀ m, k < m → m < j → ∀ d, .did m d ∈ log → d.fails = false) →
        ∃ r, log.filterMap (Mark.given? k) = [r]) := by
  intro p log
  obtain ⟨ready, hready⟩ := (Stage.isTerminal_iff s.spent last).mp hlast
  obtain ⟨result, hcourse⟩ := Lineup.course hready hhosted hcalm
  have hroles : ∀ b, Role.handles b ∉ covering.map (Stage.role s.spent) := by
    intro b hb
    obtain ⟨stage, hstage, hrole⟩ := List.mem_map.mp hb
    exact Stage.role_ne_handles (hcovering stage hstage) s.spent b hrole
  have hplace : ∀ {k stage}, covering[k]? = some stage → (stage.role s.spent, k) ∈
      (covering.map (Stage.role s.spent) ++ [Role.handles ready]).zipIdx 0 := by
    intro k stage hk
    rw [List.zipIdx_append]
    exact List.mem_append_left _ (mem_roles.mpr ⟨stage, hk, rfl⟩)
  have hlength : covering.length = 0 + (covering.map (Stage.role s.spent)).length := by simp
  have hprefix := hcourse.reached_prefix
  rw [List.length_append, List.length_map, List.length_singleton, ← List.range_eq_range'] at hprefix
  refine ⟨plain_tracedFrom 0 p.stages none s.logged, hprefix, ?_, hcourse.handled_once, ?_, ?_,
    fun front m back hlog hm k => hcourse.not_reached_of_fails hlog hm, ?_, ?_⟩
  · rw [hlength, hcourse.reached_last hroles]
    refine ⟨fun hall k stage hk => hall _ k (mem_roles.mpr ⟨stage, hk, rfl⟩),
      fun hall role k hmem => ?_⟩
    obtain ⟨stage, hk, rfl⟩ := mem_roles.mp hmem
    exact hall k stage hk
  · rw [hlength, hcourse.handled_last hroles, hready, Role.handles.injEq]
  · intro k stage hk hadjusts
    have hmem := hadjusts ▸ hplace hk
    have hgiven := hcourse.given_eq_response hmem
    exact ⟨hgiven, hgiven ▸ hcourse.response_once (k + 1)⟩
  · rintro j ⟨f, r, hresumed⟩
    obtain ⟨hwraps, -⟩ := hcourse.returned_of_resumed hresumed
    rw [List.zipIdx_append] at hwraps
    rcases List.mem_append.mp hwraps with hcover | hend
    · exact mem_roles.mp hcover
    · cases List.mem_singleton.mp hend
  · intro k stage hk hadjusts
    have hmem := hadjusts ▸ hplace hk
    exact ⟨fun j f hj hfailed hturn => hcourse.given_of_failed hmem hj hfailed hturn,
      fun j hj hturn hclean => hcourse.given_of_recovers hmem hj hturn hclean⟩

/-- A stage that recovers from any failure, between two that adjust responses, above one that
refuses every request. -/
def recovering : List (Stage Unit Unit) :=
  [.after .dynamic 0 fun _ _ response scene => (.done response, scene),
    .wrapping .dynamic 1 fun _ request scene =>
      (.proceed fun _ request scene => (.done { status := 503 }, request, scene), request, scene),
    .after .dynamic 2 fun _ _ response scene => (.done response, scene),
    .before .dynamic 3 fun _ request scene => (.failed (.text "refused"), request, scene)]

def answering : Stage Unit Unit := .terminal fun _ _ scene => (.done {}, scene)

theorem what_runs_recovering :
    let log := Lineup.marks ⟨recovering ++ [answering]⟩
      { request := { body := 0 }, scene := { world := () } }
    (∀ m ∈ log, m.panics = false) ∧ .reached 4 ∉ log ∧ log.filterMap (Mark.given? 2) = [] ∧
      ∃ r, log.filterMap (Mark.given? 0) = [r] := by
  intro log
  have hlog : log =
      [.reached 0, .reached 1, .did 1 .proceeded, .reached 2, .reached 3,
        .did 3 (.refused (.text "refused")), .returned 3 (.error (.filter (.text "refused"))),
        .returned 2 (.error (.filter (.text "refused"))),
        .did 1 (.resumed (.error (.filter (.text "refused"))) (.ok { status := 503 })),
        .returned 1 (.ok { status := 503 }),
        .did 0 (.adjusted { status := 503 } (.ok { status := 503 })),
        .returned 0 (.ok { status := 503 })] := rfl
  have hcalm : ∀ m ∈ log, m.panics = false := by
    rw [hlog]
    simp [Mark.panics]
  have hrefused : .did 3 (.refused (.text "refused")) ∈ log := by
    rw [hlog]
    simp
  have hfailed : .returned 3 (.error (.filter (.text "refused"))) ∈ log := by
    rw [hlog]
    simp
  have hrecovers : Recovers log 1 := by
    refine ⟨.filter (.text "refused"), { status := 503 }, ?_⟩
    rw [hlog]
    simp
  obtain ⟨-, -, hreached, -, -, -, -, -, htravel⟩ :=
    what_runs (by simp [recovering, Stage.isTerminal]) rfl
      (by simp [recovering, answering, Stage.hosted]) _ hcalm
  refine ⟨hcalm, fun hmem => ?_, ?_, ?_⟩
  · exact (hreached.mp hmem 3 _ rfl).2 _ hrefused
  · exact (htravel 2 _ rfl rfl).1 3 _ (by decide) hfailed fun m hm hlt => by omega
  · exact (htravel 0 _ rfl rfl).2 1 (by decide) hrecovers fun m hm hlt => by omega

end Exchange.Pipeline
