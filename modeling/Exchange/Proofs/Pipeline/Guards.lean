import Exchange.Proofs.Http.Fields
import Exchange.Proofs.Pipeline.Selection

/-!
Guards on header fields.

A guard on a field is given by a name and a value. It looks the name up, and a look-up finds the
first field of that name only (`admits_field`). So a request is admitted if the value leads the
fields of its name, and not if it stands behind another one (`second_value_ignored`). A stage that
such a guard is set on stands in the line-ups of the requests that are admitted, and all others are
as if it had not been listed (`field_guard`).
-/
namespace Exchange.Pipeline

open Http (Fields Request)

variable {σ W : Type}

namespace Guard

variable {name value : String} {g : Guard}

theorem field?_of_ok {kept : Http.FieldName} {bytes : Octets}
    (hname : Http.fieldName? name = .ok kept) (hvalue : Http.fieldValue? value = .ok bytes) :
    field? name value = .ok (.field kept.text bytes) := by
  unfold field?
  rw [hname, hvalue]
  rfl

/-- What a guard on a field that is given as text asks for. -/
theorem field?_ok (h : field? name value = .ok g) :
    g = .field name.toLower (Octets.ofText value) := by
  cases hname : Http.fieldName? name with
  | error e =>
    unfold field? at h
    rw [hname] at h
    cases h
  | ok kept =>
    cases hvalue : Http.fieldValue? value with
    | error e =>
      unfold field? at h
      rw [hname, hvalue] at h
      cases h
    | ok bytes =>
      rw [field?_of_ok hname hvalue] at h
      cases h
      rw [Http.fieldName?_ok hname, Http.fieldValue?_ok hvalue]

/-- It looks at the first field of that name. -/
theorem admits_field (h : field? name value = .ok g) (r : Request) :
    g.admits r = true ↔ r.fields.leading? name = some (Octets.ofText value) := by
  rw [field?_ok h]
  unfold admits
  rw [Fields.first?_toLower, beq_iff_eq]

end Guard

/-- What only a guard restricts is for the requests that the guard admits. -/
theorem Assignment.stageFor?_guarded {workers : Workers} {a : Assignment σ W} {stage : Stage σ W}
    {g : Guard} (hpatterns : a.patterns = []) (hguard : a.guard = some g)
    (hbound : a.bind? workers = .ok stage) (r : Request) :
    a.stageFor? workers r = if g.admits r then some stage else none := by
  have hscope : Scope.ofPatterns? a.patterns a.guard = .ok { guard := some g } := by
    rw [hpatterns, hguard]
    rfl
  unfold stageFor?
  rw [hbound, hscope]
  rfl

/-- The line-up of a request is sorted from the stages that the assignments put into it. -/
theorem Roster.lineupFor_built {assignments : List (Assignment σ W)} {terminal : Stage σ W}
    {workers : Workers} {roster : Roster σ W}
    (h : Roster.build? assignments terminal workers = .ok roster) (r : Request) :
    (roster.lineupFor r).stages =
      sortByPlace Stage.place (assignments.filterMap (·.stageFor? workers r)) ++ [terminal] := by
  obtain ⟨-, -, entries, hentries, rfl⟩ := build?_ok h
  unfold lineupFor stagesFor
  rw [sortByPlace_filter, map_sortByPlace Stage.place, picked_entries r hentries]

/-- **Guards on fields.** Take a guard on a field that is given as text, and a request. The guard
admits the request if and only if the first field of that name, in whatever case, has that value.
So some field has it if the request is admitted; and the other way round, if the fields of that name
have one value. In a roster, a stage that only this guard restricts stands in the line-up of the
request if it is admitted. If it is not, the line-up is that of the other stages. -/
theorem field_guard {name value : String} {g : Guard} (h : Guard.field? name value = .ok g)
    (r : Request) :
    (g.admits r = true ↔ r.fields.leading? name = some (Octets.ofText value)) ∧
    (g.admits r = true → r.fields.Carries name (Octets.ofText value)) ∧
    ((∀ v w, r.fields.Carries name v → r.fields.Carries name w → v = w) →
      r.fields.Carries name (Octets.ofText value) → g.admits r = true) ∧
    ∀ (front back : List (Assignment σ W)) (a : Assignment σ W) (terminal stage : Stage σ W)
      (workers : Workers) (roster : Roster σ W),
      Roster.build? (front ++ a :: back) terminal workers = .ok roster →
      a.patterns = [] → a.guard = some g → a.bind? workers = .ok stage →
      (roster.lineupFor r).stages =
        sortByPlace Stage.place (front.filterMap (·.stageFor? workers r) ++
          (if r.fields.leading? name = some (Octets.ofText value) then [stage] else []) ++
          back.filterMap (·.stageFor? workers r)) ++ [terminal] := by
  have hadmits := Guard.admits_field h r
  refine ⟨hadmits, fun hg => Fields.carries_of_leading (hadmits.mp hg), ?_, ?_⟩
  · intro hone hcarries
    exact hadmits.mpr (Fields.leading_of_carries hone hcarries)
  · intro front back a terminal stage workers roster hbuilt hpatterns hguard hbound
    have hown : [a].filterMap (·.stageFor? workers r) =
        if r.fields.leading? name = some (Octets.ofText value) then [stage] else [] := by
      rw [List.filterMap_cons, List.filterMap_nil,
        Assignment.stageFor?_guarded hpatterns hguard hbound]
      by_cases hleading : r.fields.leading? name = some (Octets.ofText value)
      · rw [if_pos hleading, if_pos (hadmits.mpr hleading)]
      · rw [if_neg hleading, if_neg (mt hadmits.mp hleading)]
    rw [Roster.lineupFor_built hbuilt, ← List.singleton_append, List.filterMap_append,
      List.filterMap_append, hown, ← List.append_assoc]

/-- Two fields of one name, as they are given. -/
def twoLines : List (String × String) := [("X-A", "1"), ("x-a", "2")]

def lineName : Http.FieldName := ⟨"x-a", by decide +kernel⟩

def twoValues : Fields := (Fields.append lineName [0x31] {}).append lineName [0x32]

theorem appendAll?_twoLines : Fields.appendAll? twoLines {} = .ok twoValues := by decide +kernel

/-- A stage for requests with the first of these values. -/
def restricted : Assignment Unit Unit where
  stage := .before .dynamic 0 fun _ request scene => (.done none, request, scene)
  guard := some (.field "x-a" [0x31])

theorem field_guard_twoLines :
    let r : Request := { fields := twoValues, body := 0 }
    let terminal : Stage Unit Unit := .terminal fun _ _ scene => (.done {}, scene)
    Guard.field? "x-A" "1" = .ok (.field "x-a" [0x31]) ∧
      ∃ roster, Roster.build? [restricted] terminal {} = .ok roster ∧
        (roster.lineupFor r).stages = [restricted.stage, terminal] := by
  intro r terminal
  have hname : Http.fieldName? "x-A" = .ok lineName := by decide +kernel
  have hvalue : Http.fieldValue? "1" = .ok [0x31] := by decide +kernel
  have hguard : Guard.field? "x-A" "1" = .ok (.field "x-a" [0x31]) :=
    Guard.field?_of_ok hname hvalue
  have hbuilt : Roster.build? [restricted] terminal {} =
      .ok ⟨[({ guard := restricted.guard }, restricted.stage)], terminal⟩ := by cbv
  obtain ⟨-, -, -, hlineup⟩ := field_guard (σ := Unit) (W := Unit) hguard r
  refine ⟨hguard, _, hbuilt, ?_⟩
  rw [hlineup [] [] restricted terminal restricted.stage {} _ hbuilt rfl rfl rfl,
    if_pos (by decide +kernel)]
  exact congrArg (· ++ [terminal]) (List.mergeSort_singleton _)

/-- A value that stands behind another one of its name is carried but not admitted. -/
theorem second_value_ignored :
    ∃ g, Guard.field? "x-a" "2" = .ok g ∧ Fields.appendAll? twoLines {} = .ok twoValues ∧
      twoValues.Carries "x-a" (Octets.ofText "2") ∧
      g.admits { fields := twoValues, body := 0 } = false := by
  have hname : Http.fieldName? "x-a" = .ok lineName := by decide +kernel
  have hvalue : Http.fieldValue? "2" = .ok [0x32] := by decide +kernel
  have hguard : Guard.field? "x-a" "2" = .ok (.field "x-a" [0x32]) :=
    Guard.field?_of_ok hname hvalue
  refine ⟨_, hguard, appendAll?_twoLines, ⟨("x-a", [0x32]), ?_, ?_⟩, ?_⟩
  · exact .tail _ (.head _)
  · decide +kernel
  · decide +kernel

end Exchange.Pipeline
