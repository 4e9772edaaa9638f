import Exchange.Proofs.Pipeline.Assembly
import Exchange.Proofs.Pipeline.Coverage

/-!
When a roster can be built.

Building a roster is a walk over its assignments that ends at the first one that cannot be resolved
(`mapM_error_iff`), and resolving one puts its patterns into a table, one after the other, until one
is rejected (`Scope.tableOf_error_iff`). What can be wrong is listed in `Assignment.Fails` and
`Roster.Refused`. `enrolment` says that these are the faults of building, each exactly where it is
listed: the sequence of the assignments decides which fault is reported, but not whether there is
one.
-/
namespace Exchange.Pipeline

/-! ### The first that fails -/

section

variable {α β ε : Type} {e : ε}

/-- A fold fails where its first step fails. -/
theorem foldlM_error_iff {f : β → α → Except ε β} {xs : List α} {b : β} :
    xs.foldlM f b = .error e ↔
      ∃ front x back c, xs = front ++ x :: back ∧ front.foldlM f b = .ok c ∧ f c x = .error e := by
  constructor
  · intro h
    induction xs generalizing b with
    | nil => cases h
    | cons x rest ih =>
      rw [List.foldlM_cons] at h
      cases hx : f b x with
      | error e' =>
        rw [hx] at h
        cases h
        exact ⟨[], x, rest, b, rfl, rfl, hx⟩
      | ok c =>
        rw [hx] at h
        obtain ⟨front, y, back, c', rfl, hfront, hy⟩ := ih h
        refine ⟨x :: front, y, back, c', rfl, ?_, hy⟩
        rw [List.foldlM_cons, hx]
        exact hfront
  · rintro ⟨front, x, back, c, rfl, hfront, hx⟩
    rw [List.foldlM_append, hfront]
    show (x :: back).foldlM f c = .error e
    rw [List.foldlM_cons, hx]
    rfl

theorem exists_mapM_ok {f : α → Except ε β} {xs : List α} :
    (∃ ys, xs.mapM f = .ok ys) ↔ ∀ x ∈ xs, ∃ y, f x = .ok y := by
  constructor
  · rintro ⟨ys, hys⟩
    exact ((List.forall₂_and_left _ _).mp ((mapM_ok hys).imp fun _ y hy => ⟨⟨y, hy⟩, hy⟩)).1
  · intro h
    induction xs with
    | nil => exact ⟨[], rfl⟩
    | cons x rest ih =>
      obtain ⟨⟨y, hy⟩, hrest⟩ := List.forall_mem_cons.mp h
      obtain ⟨ys, hys⟩ := ih hrest
      refine ⟨y :: ys, ?_⟩
      rw [List.mapM_cons, hy, hys]
      rfl

/-- A walk fails where its first member fails. -/
theorem mapM_error_iff {f : α → Except ε β} {xs : List α} :
    xs.mapM f = .error e ↔
      ∃ front x back, xs = front ++ x :: back ∧ (∀ y ∈ front, ∃ c, f y = .ok c) ∧
        f x = .error e := by
  constructor
  · intro h
    induction xs with
    | nil => cases h
    | cons x rest ih =>
      rw [List.mapM_cons] at h
      cases hx : f x with
      | error e' =>
        rw [hx] at h
        cases h
        exact ⟨[], x, rest, rfl, nofun, hx⟩
      | ok c =>
        rw [hx] at h
        cases hrest : rest.mapM f with
        | ok ys =>
          rw [hrest] at h
          cases h
        | error e' =>
          rw [hrest] at h
          cases h
          obtain ⟨front, y, back, rfl, hfront, hy⟩ := ih hrest
          exact ⟨x :: front, y, back, rfl, List.forall_mem_cons.mpr ⟨⟨c, hx⟩, hfront⟩, hy⟩
  · rintro ⟨front, x, back, rfl, hfront, hx⟩
    obtain ⟨ys, hys⟩ := exists_mapM_ok.mpr hfront
    rw [List.mapM_append, hys, List.mapM_cons, hx]
    rfl

end

/-! ### Patterns -/

namespace Scope

/-- The fault of a pattern that a table does not take. -/
def patternFault (p : String) : Route.PatternFault → BuildFault
  | .tooManyParameters => .panicked Route.PatternFault.tooManyParameters.message
  | fault => .invalidPattern p fault.message

/-- A table takes the patterns in front of one, but not that one. -/
inductive Rejected (patterns : List String) : BuildFault → Prop where
  | mk (front : List String) (p : String) (back : List String) (table : Route.Table)
      (fault : Route.PatternFault) : patterns = front ++ p :: back →
      tableOf front = .ok table → table.insert? p = .error fault →
      Rejected patterns (patternFault p fault)

theorem tableOf_error_iff {patterns : List String} {e : BuildFault} :
    tableOf patterns = .error e ↔ Rejected patterns e := by
  refine foldlM_error_iff.trans ⟨?_, ?_⟩
  · rintro ⟨front, p, back, table, hpatterns, hfront, hp⟩
    cases hinsert : table.insert? p with
    | ok table' =>
      rw [hinsert] at hp
      cases hp
    | error fault =>
      rw [hinsert] at hp
      cases hp
      exact ⟨front, p, back, table, fault, hpatterns, hfront, hinsert⟩
  · rintro ⟨front, p, back, table, fault, hpatterns, hfront, hinsert⟩
    refine ⟨front, p, back, table, hpatterns, hfront, ?_⟩
    rw [hinsert]
    rfl

/-- A scope is made, or a pattern is rejected. -/
theorem ofPatterns?_cases (patterns : List String) (guard : Option Guard) :
    (∃ table, tableOf patterns = .ok table ∧ ∃ scope, ofPatterns? patterns guard = .ok scope) ∨
      ∃ e, Rejected patterns e ∧ ofPatterns? patterns guard = .error e := by
  rw [ofPatterns?_eq]
  cases htable : tableOf patterns with
  | ok table => exact .inl ⟨table, rfl, _, rfl⟩
  | error e => exact .inr ⟨e, tableOf_error_iff.mp htable, rfl⟩

end Scope

variable {σ W : Type}

/-! ### Assignments -/

theorem Workers.get?_cases (workers : Workers) (name : String) :
    (∃ w ∈ workers.pools, w.name = name ∧ workers.get? name = .ok w) ∨
      (∀ w ∈ workers.pools, w.name ≠ name) ∧
        workers.get? name = .error (.unknownExecutor name) := by
  unfold Workers.get?
  cases hfind : workers.pools.find? (·.name == name) with
  | some w =>
    exact .inl ⟨w, List.mem_of_find?_eq_some hfind, by simpa using List.find?_some hfind, rfl⟩
  | none => exact .inr ⟨by simpa using hfind, rfl⟩

namespace Assignment

variable {workers : Workers} {a : Assignment σ W} {e : BuildFault}

/-- The pool that an assignment names is there. -/
def Staffed (workers : Workers) (a : Assignment σ W) : Prop :=
  ∀ name, a.worker = some name → ∃ w ∈ workers.pools, w.name = name

/-- A table takes the patterns of an assignment together. -/
def Routed (a : Assignment σ W) : Prop := ∃ table, Scope.tableOf a.patterns = .ok table

/-- What is wrong with an assignment. The pool comes before the patterns. -/
inductive Fails (workers : Workers) (a : Assignment σ W) : BuildFault → Prop where
  | unstaffed (name : String) : a.worker = some name → (∀ w ∈ workers.pools, w.name ≠ name) →
      Fails workers a (.unknownExecutor name)
  | unrouted (e : BuildFault) : a.Staffed workers → Scope.Rejected a.patterns e → Fails workers a e

/-- Looking the pool of an assignment up. -/
theorem bind?_cases (workers : Workers) (a : Assignment σ W) :
    (a.Staffed workers ∧ ∃ stage, a.bind? workers = .ok stage) ∨
      ∃ name, a.worker = some name ∧ (∀ w ∈ workers.pools, w.name ≠ name) ∧
        a.bind? workers = .error (.unknownExecutor name) := by
  unfold bind? Staffed
  cases hworker : a.worker with
  | none =>
    refine .inl ⟨?_, _, rfl⟩
    rintro _ ⟨⟩
  | some name =>
    dsimp only
    rcases workers.get?_cases name with ⟨w, hw, hname, hget⟩ | ⟨hnone, hget⟩
    · refine .inl ⟨?_, a.stage.hop w, ?_⟩
      · rintro _ ⟨⟩
        exact ⟨w, hw, hname⟩
      · rw [hget]
        rfl
    · refine .inr ⟨name, rfl, hnone, ?_⟩
      rw [hget]
      rfl

/-- An assignment is resolved, or something is wrong with it. -/
theorem resolve?_cases (workers : Workers) (a : Assignment σ W) :
    (a.Staffed workers ∧ a.Routed ∧ ∃ entry, a.resolve? workers = .ok entry) ∨
      ∃ e, a.Fails workers e ∧ a.resolve? workers = .error e := by
  unfold resolve?
  rcases bind?_cases workers a with ⟨hstaffed, stage, hbound⟩ | ⟨name, hname, hnone, hbound⟩
  · rw [hbound]
    rcases Scope.ofPatterns?_cases a.patterns a.guard with ⟨table, htable, scope, hscope⟩ |
      ⟨e, hrejected, hscope⟩
    · rw [hscope]
      exact .inl ⟨hstaffed, ⟨table, htable⟩, _, rfl⟩
    · rw [hscope]
      exact .inr ⟨e, .unrouted e hstaffed hrejected, rfl⟩
  · rw [hbound]
    exact .inr ⟨_, .unstaffed name hname hnone, rfl⟩

theorem not_staffed {name : String} (hname : a.worker = some name)
    (hnone : ∀ w ∈ workers.pools, w.name ≠ name) : ¬ a.Staffed workers := by
  intro hstaffed
  obtain ⟨w, hw, hsame⟩ := hstaffed name hname
  exact hnone w hw hsame

/-- Nothing is wrong with an assignment that has its pool and its patterns. -/
theorem Fails.not_sound (h : a.Fails workers e) : ¬ (a.Staffed workers ∧ a.Routed) := by
  rintro ⟨hstaffed, table, htable⟩
  cases h with
  | unstaffed name hname hnone => exact not_staffed hname hnone hstaffed
  | unrouted e _ hrejected => cases htable.symm.trans (Scope.tableOf_error_iff.mpr hrejected)

/-- Only one thing is wrong with an assignment. -/
theorem Fails.unique {e' : BuildFault} (h : a.Fails workers e) (h' : a.Fails workers e') :
    e = e' := by
  cases h with
  | unstaffed name hname hnone =>
    cases h' with
    | unstaffed name' hname' _ =>
      exact congrArg _ (Option.some.inj (hname.symm.trans hname'))
    | unrouted _ hstaffed _ => exact absurd hstaffed (not_staffed hname hnone)
  | unrouted e hstaffed hrejected =>
    cases h' with
    | unstaffed name hname hnone => exact absurd hstaffed (not_staffed hname hnone)
    | unrouted e' _ hrejected' =>
      have herror := Scope.tableOf_error_iff.mpr hrejected
      exact Except.error.inj (herror.symm.trans (Scope.tableOf_error_iff.mpr hrejected'))

theorem exists_resolve?_ok :
    (∃ entry, a.resolve? workers = .ok entry) ↔ a.Staffed workers ∧ a.Routed := by
  rcases resolve?_cases workers a with ⟨hstaffed, hrouted, hok⟩ | ⟨e, hfails, herror⟩
  · exact ⟨fun _ => ⟨hstaffed, hrouted⟩, fun _ => hok⟩
  · refine ⟨?_, fun hsound => absurd hsound hfails.not_sound⟩
    rintro ⟨entry, hok⟩
    cases hok.symm.trans herror

theorem resolve?_error_iff : a.resolve? workers = .error e ↔ a.Fails workers e := by
  rcases resolve?_cases workers a with ⟨hstaffed, hrouted, entry, hok⟩ | ⟨e', hfails, herror⟩
  · refine ⟨fun herror => ?_, fun hfails => absurd ⟨hstaffed, hrouted⟩ hfails.not_sound⟩
    cases hok.symm.trans herror
  · rw [herror]
    exact ⟨fun h => Except.error.inj h ▸ hfails, fun h => congrArg _ (hfails.unique h)⟩

end Assignment

/-! ### Rosters -/

namespace Roster

variable {assignments : List (Assignment σ W)} {terminal : Stage σ W} {workers : Workers}
  {e : BuildFault}

/-- Why a roster cannot be built, the gravest first: nothing handles requests, several stages do, or
some assignment fails, of which the first is reported. -/
inductive Refused (assignments : List (Assignment σ W)) (terminal : Stage σ W)
    (workers : Workers) : BuildFault → Prop where
  | missing : terminal.isTerminal = false → Refused assignments terminal workers .missingTerminal
  | several : terminal.isTerminal = true → 0 < assignments.countP (·.stage.isTerminal) →
      Refused assignments terminal workers
        (.multipleTerminals (assignments.countP (·.stage.isTerminal) + 1))
  | first (front : List (Assignment σ W)) (a : Assignment σ W) (back : List (Assignment σ W))
      (e : BuildFault) : terminal.isTerminal = true →
      (∀ a ∈ assignments, a.stage.isTerminal = false) → assignments = front ++ a :: back →
      (∀ b ∈ front, b.Staffed workers ∧ b.Routed) → a.Fails workers e →
      Refused assignments terminal workers e

theorem countP_isTerminal_eq_zero :
    assignments.countP (·.stage.isTerminal) = 0 ↔
      ∀ a ∈ assignments, a.stage.isTerminal = false := by
  simp [List.countP_eq_zero]

/-- What building comes to. -/
theorem build?_cases (assignments : List (Assignment σ W)) (terminal : Stage σ W)
    (workers : Workers) :
    terminal.isTerminal = false ∧
      build? assignments terminal workers = .error .missingTerminal ∨
    terminal.isTerminal = true ∧ 0 < assignments.countP (·.stage.isTerminal) ∧
      build? assignments terminal workers =
        .error (.multipleTerminals (assignments.countP (·.stage.isTerminal) + 1)) ∨
    terminal.isTerminal = true ∧ (∀ a ∈ assignments, a.stage.isTerminal = false) ∧
      build? assignments terminal workers =
        (assignments.mapM (Assignment.resolve? workers)).map fun entries =>
          ⟨sortByPlace (·.2.place) entries, terminal⟩ := by
  unfold build?
  cases hterminal : terminal.isTerminal with
  | false => exact .inl ⟨rfl, rfl⟩
  | true =>
    refine .inr ?_
    cases hcount : assignments.countP (·.stage.isTerminal) with
    | zero => exact .inr ⟨rfl, countP_isTerminal_eq_zero.mp hcount, rfl⟩
    | succ extra => exact .inl ⟨rfl, Nat.succ_pos extra, rfl⟩

theorem exists_build?_ok :
    (∃ roster, build? assignments terminal workers = .ok roster) ↔
      terminal.isTerminal = true ∧
        ∀ a ∈ assignments, a.stage.isTerminal = false ∧ a.Staffed workers ∧ a.Routed := by
  rcases build?_cases assignments terminal workers with ⟨hterminal, hbuilt⟩ |
    ⟨hterminal, hcount, hbuilt⟩ | ⟨hterminal, hassigned, hbuilt⟩
  · simp [hbuilt, hterminal]
  · refine ⟨?_, ?_⟩
    · rintro ⟨roster, hok⟩
      cases hok.symm.trans hbuilt
    · rintro ⟨-, hsound⟩
      have hnone := countP_isTerminal_eq_zero.mpr fun a ha => (hsound a ha).1
      omega
  · have hresolved : (∃ roster, build? assignments terminal workers = .ok roster) ↔
        ∀ a ∈ assignments, ∃ entry, a.resolve? workers = .ok entry := by
      rw [← exists_mapM_ok, hbuilt]
      cases assignments.mapM (Assignment.resolve? workers) <;> simp [Except.map]
    refine hresolved.trans ⟨fun hall => ⟨hterminal, fun a ha => ⟨hassigned a ha, ?_⟩⟩, ?_⟩
    · exact Assignment.exists_resolve?_ok.mp (hall a ha)
    · exact fun hsound a ha => Assignment.exists_resolve?_ok.mpr (hsound.2 a ha).2

theorem build?_error_iff :
    build? assignments terminal workers = .error e ↔ Refused assignments terminal workers e := by
  rcases build?_cases assignments terminal workers with ⟨hterminal, hbuilt⟩ |
    ⟨hterminal, hcount, hbuilt⟩ | ⟨hterminal, hassigned, hbuilt⟩
  · rw [hbuilt]
    constructor
    · rintro ⟨⟩
      exact .missing hterminal
    · intro h
      cases h with
      | missing => rfl
      | several hother | first _ _ _ _ hother => cases hterminal.symm.trans hother
  · rw [hbuilt]
    constructor
    · rintro ⟨⟩
      exact .several hterminal hcount
    · intro h
      cases h with
      | missing hother => cases hterminal.symm.trans hother
      | several => rfl
      | first _ _ _ _ _ hassigned =>
        have hnone := countP_isTerminal_eq_zero.mpr hassigned
        omega
  · have hfirst : build? assignments terminal workers = .error e ↔
        ∃ front a back, assignments = front ++ a :: back ∧
          (∀ b ∈ front, ∃ entry, b.resolve? workers = .ok entry) ∧
          a.resolve? workers = .error e := by
      rw [← mapM_error_iff, hbuilt]
      cases assignments.mapM (Assignment.resolve? workers) <;> simp [Except.map]
    refine hfirst.trans ⟨?_, fun h => ?_⟩
    · rintro ⟨front, a, back, hassignments, hfront, herror⟩
      exact .first front a back e hterminal hassigned hassignments
        (fun b hb => Assignment.exists_resolve?_ok.mp (hfront b hb))
        (Assignment.resolve?_error_iff.mp herror)
    · cases h with
      | missing hother => cases hterminal.symm.trans hother
      | several _ hcount =>
        have hnone := countP_isTerminal_eq_zero.mpr hassigned
        omega
      | first front a back e _ _ hassignments hfront hfails =>
        exact ⟨front, a, back, hassignments,
          fun b hb => Assignment.exists_resolve?_ok.mpr (hfront b hb),
          Assignment.resolve?_error_iff.mpr hfails⟩

/-- **Enrolment.** A roster is built if and only if its terminal stage handles requests, on whatever
pools it is, and every assignment has a stage that does not, the pool it names, and patterns that a
table takes together; so the sequence of the assignments does not matter for that. If a roster is
not built, then what is reported is that nothing handles requests, or else how many stages do, or
else what is wrong with the first assignment with which anything is: its pool, or the first of its
patterns that is rejected. A roster that is built has one entry for each assignment. -/
theorem enrolment (assignments : List (Assignment σ W)) (terminal : Stage σ W)
    (workers : Workers) :
    ((∃ roster, build? assignments terminal workers = .ok roster) ↔
      terminal.isTerminal = true ∧
        ∀ a ∈ assignments, a.stage.isTerminal = false ∧ a.Staffed workers ∧ a.Routed) ∧
    (∀ (pools : List Worker) (stage : Stage σ W),
      (stage.onWorkers pools).isTerminal = stage.isTerminal) ∧
    (∀ assignments', assignments'.Perm assignments →
      ((∃ roster, build? assignments' terminal workers = .ok roster) ↔
        ∃ roster, build? assignments terminal workers = .ok roster)) ∧
    (∀ e, build? assignments terminal workers = .error e ↔
      Refused assignments terminal workers e) ∧
    ∀ roster, build? assignments terminal workers = .ok roster →
      roster.terminal = terminal ∧ roster.entries.length = assignments.length ∧
        ∃ entries, List.Forall₂ (fun a e => a.resolve? workers = .ok e) assignments entries ∧
          roster.entries.Perm entries := by
  refine ⟨exists_build?_ok, fun pools stage => stage.isTerminal_onWorkers pools, ?_,
    fun e => build?_error_iff, ?_⟩
  · intro assignments' hperm
    rw [exists_build?_ok, exists_build?_ok]
    exact and_congr_right' (forall_congr' fun a => imp_congr_left hperm.mem_iff)
  · intro roster hbuilt
    obtain ⟨-, -, entries, hentries, rfl⟩ := build?_ok hbuilt
    have hperm : (sortByPlace (fun e => e.2.place) entries).Perm entries := List.mergeSort_perm _ _
    exact ⟨rfl, hperm.length_eq.trans hentries.length_eq.symm, entries, hentries, hperm⟩

/-- A stage that lets every request pass. -/
def passing : Stage Unit Unit :=
  .before .dynamic 0 fun _ request scene => (.done none, request, scene)

/-- Nothing is wrong with the first assignment, two things with the second, whose pool is missing,
and one with the third. -/
def faulty : List (Assignment Unit Unit) :=
  [{ stage := passing, patterns := ["/a"], worker := some "io" },
    { stage := passing, patterns := ["/{}"], worker := some "gone" },
    { stage := passing, patterns := ["/{}", "/b"] }]

theorem enrolment_faulty :
    let workers := Workers.start [("io", 1)]
    let terminal : Stage Unit Unit := .terminal fun _ _ scene => (.done {}, scene)
    build? faulty passing workers = .error .missingTerminal ∧
    build? ({ stage := terminal.hop { name := "io" } } :: faulty) terminal workers =
      .error (.multipleTerminals 2) ∧
    build? faulty terminal workers = .error (.unknownExecutor "gone") ∧
    build? faulty.reverse terminal workers = .error (.invalidPattern "/{}"
      Route.PatternFault.name.message) := by
  intro workers terminal
  obtain ⟨-, -, -, hmissing, -⟩ := enrolment faulty passing workers
  obtain ⟨-, -, -, hseveral, -⟩ :=
    enrolment ({ stage := terminal.hop { name := "io" } } :: faulty) terminal workers
  obtain ⟨-, -, -, hfirst, -⟩ := enrolment faulty terminal workers
  obtain ⟨-, -, -, hlast, -⟩ := enrolment faulty.reverse terminal workers
  have hrejected : Scope.Rejected ["/{}", "/b"]
      (.invalidPattern "/{}" Route.PatternFault.name.message) :=
    .mk [] "/{}" ["/b"] Route.Table.empty .name rfl rfl (by cbv)
  refine ⟨(hmissing _).mpr (.missing rfl), (hseveral _).mpr (.several rfl (by decide)),
    (hfirst _).mpr ?_, (hlast _).mpr ?_⟩
  · refine .first [faulty[0]] faulty[1] [faulty[2]] _ rfl (by decide) rfl ?_ ?_
    · refine List.forall_mem_singleton.mpr (Assignment.exists_resolve?_ok.mp ⟨_, by cbv⟩)
    · exact .unstaffed "gone" rfl (by decide)
  · have hstaffed : faulty[2].Staffed workers := fun name hname => by cases hname
    exact .first [] faulty[2] [faulty[1], faulty[0]] _ rfl (by decide) rfl
      (fun b hb => by cases hb) (.unrouted _ hstaffed hrejected)

end Roster

end Exchange.Pipeline
