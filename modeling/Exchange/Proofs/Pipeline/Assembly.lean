import Exchange.Proofs.Pipeline.Selection

/-!
What line-ups are assembled from.

Assembling counts the stages that handle requests, on worker pools or not, and looks where they are
listed (`assemble?_cases`). If there is one and it is listed last, then the others are put in order
before it. Assembling what was assembled changes nothing (`assembling`).
-/
namespace Exchange.Pipeline

variable {σ W : Type}

/-! ### Stages on worker pools -/

namespace Stage

/-- Pools do not make a stage handle requests. -/
theorem isTerminal_onWorkers (workers : List Worker) (stage : Stage σ W) :
    (stage.onWorkers workers).isTerminal = stage.isTerminal := by
  induction workers generalizing stage with
  | nil => rfl
  | cons worker rest ih => exact ih (hop stage worker)

/-- A stage keeps its order on all pools. -/
theorem order?_onWorkers (workers : List Worker) (stage : Stage σ W) :
    (stage.onWorkers workers).order? = stage.order? := by
  induction workers generalizing stage with
  | nil => rfl
  | cons worker rest ih => exact ih (hop stage worker)

/-- Stages that do not handle requests have an order, which is their place. -/
theorem order?_of_not_terminal {stage : Stage σ W} (h : stage.isTerminal = false) :
    stage.order? = some stage.place := by
  induction stage with
  | hop inner worker ih => exact ih h
  | terminal | reactive => cases h
  | before | wrapping | after | around => rfl

/-- Of two stages with their positions in a list, the first has the lower order, or the same one and
the earlier position. -/
def Precedes (a b : Stage σ W × Nat) : Prop :=
  ∃ m n, a.1.order? = some m ∧ b.1.order? = some n ∧ (m < n ∨ m = n ∧ a.2 < b.2)

end Stage

/-- Sorting what is sorted changes nothing. -/
theorem sortByPlace_sortByPlace {α : Type} (place : α → Int) (xs : List α) :
    sortByPlace place (sortByPlace place xs) = sortByPlace place xs :=
  eq_of_ties (sortByPlace_sorted place _) (sortByPlace_sorted place xs) (sortByPlace_ties place _)

/-- Sorted stages are those listed, by their orders and positions. -/
theorem sortByPlace_precedes {listed : List (Stage σ W)}
    (h : ∀ stage ∈ listed, stage.isTerminal = false) :
    ∃ ordered : List (Stage σ W × Nat), sortByPlace Stage.place listed = ordered.map (·.1) ∧
      ordered.Perm listed.zipIdx ∧ ordered.Pairwise Stage.Precedes := by
  have hsorted : sortByPlace Stage.place (listed.zipIdx.map Prod.fst) = _ :=
    sortByPlace_map (fun _ => rfl) listed
  rw [List.zipIdx_map_fst] at hsorted
  have hperm := inOrder_perm Stage.place listed
  refine ⟨inOrder Stage.place listed, hsorted, hperm, ?_⟩
  refine (inOrder_pairwise Stage.place listed).imp_of_mem fun {a b} ha hb hab => ?_
  have horder : ∀ x ∈ inOrder Stage.place listed, x.1.order? = some x.1.place := fun x hx =>
    Stage.order?_of_not_terminal (h x.1 (List.fst_mem_of_mem_zipIdx (hperm.mem_iff.mp hx)))
  exact ⟨a.1.place, b.1.place, horder a ha, horder b hb, hab⟩

namespace Lineup

/-! ### Assembling -/

/-- What assembling comes to. -/
theorem assemble?_cases (stages : List (Stage σ W)) :
    stages.countP Stage.isTerminal = 0 ∧ assemble? stages = .error .missingTerminal ∨
    2 ≤ stages.countP Stage.isTerminal ∧
      assemble? stages = .error (.multipleTerminals (stages.countP Stage.isTerminal)) ∨
    stages.countP Stage.isTerminal = 1 ∧
      (∃ last, stages.getLast? = some last ∧ last.isTerminal = false) ∧
      assemble? stages = .error .terminalNotLast ∨
    ∃ listed last, stages = listed ++ [last] ∧ last.isTerminal = true ∧
      (∀ stage ∈ listed, stage.isTerminal = false) ∧ stages.countP Stage.isTerminal = 1 ∧
      assemble? stages = .ok ⟨sortByPlace Stage.place listed ++ [last]⟩ := by
  obtain hnone | hone | hseveral : stages.countP Stage.isTerminal = 0 ∨
      stages.countP Stage.isTerminal = 1 ∨ 2 ≤ stages.countP Stage.isTerminal := by omega
  · refine .inl ⟨hnone, ?_⟩
    unfold assemble?
    rw [hnone]
    rfl
  · obtain rfl | ⟨listed, last, rfl⟩ := List.eq_nil_or_concat' stages
    · cases hone
    · cases hlast : last.isTerminal with
      | true =>
        have hcount : listed.countP Stage.isTerminal = 0 := by
          rw [List.countP_append, List.countP_singleton, if_pos hlast] at hone
          exact Nat.succ.inj hone
        have hlisted : ∀ stage ∈ listed, stage.isTerminal = false := fun stage hstage =>
          Bool.eq_false_iff.mpr (List.countP_eq_zero.mp hcount stage hstage)
        exact .inr (.inr (.inr
          ⟨listed, last, rfl, hlast, hlisted, hone, assemble?_concat hlisted hlast⟩))
      | false =>
        refine .inr (.inr (.inl ⟨hone, ⟨last, List.getLast?_concat, hlast⟩, ?_⟩))
        unfold assemble?
        rw [hone, List.getLast?_concat]
        dsimp only
        rw [if_neg (by rw [hlast]; exact Bool.false_ne_true)]
        rfl
  · refine .inr (.inl ⟨hseveral, ?_⟩)
    unfold assemble?
    split
    · next hcount => omega
    · next hcount => omega
    · rfl

/-- **Assembling.** Worker pools neither make a stage handle requests nor change its order. A
line-up is assembled if and only if one stage handles requests and it is the last one listed. If
there is none, or several, or the only one stands elsewhere, then that is the fault. In the line-up
the last stage is the one that was listed last, and the others are those listed before it, by
ascending order and, where orders are equal, in the sequence of the list. Assembling it again
changes nothing. -/
theorem assembling (stages : List (Stage σ W)) :
    let terminals := stages.countP Stage.isTerminal
    (∀ (workers : List Worker) (stage : Stage σ W),
      (stage.onWorkers workers).isTerminal = stage.isTerminal ∧
      (stage.onWorkers workers).order? = stage.order?) ∧
    ((∃ p, assemble? stages = .ok p) ↔
      terminals = 1 ∧ ∃ last, stages.getLast? = some last ∧ last.isTerminal = true) ∧
    (assemble? stages = .error .missingTerminal ↔ terminals = 0) ∧
    (∀ n, assemble? stages = .error (.multipleTerminals n) ↔ terminals = n ∧ 2 ≤ n) ∧
    (assemble? stages = .error .terminalNotLast ↔
      terminals = 1 ∧ ∃ last, stages.getLast? = some last ∧ last.isTerminal = false) ∧
    ∀ p, assemble? stages = .ok p →
      ∃ (listed : List (Stage σ W)) (last : Stage σ W) (ordered : List (Stage σ W × Nat)),
        stages = listed ++ [last] ∧ p.stages = ordered.map (·.1) ++ [last] ∧
        p.stages.Perm stages ∧ ordered.Perm listed.zipIdx ∧ ordered.Pairwise Stage.Precedes ∧
        assemble? p.stages = .ok p := by
  intro terminals
  refine ⟨fun workers stage => ⟨stage.isTerminal_onWorkers workers,
    stage.order?_onWorkers workers⟩, ?_⟩
  rcases assemble?_cases stages with ⟨hcount, hcame⟩ | ⟨hcount, hcame⟩ |
    ⟨hcount, ⟨last, hlast, hterminal⟩, hcame⟩ |
    ⟨listed, last, rfl, hterminal, hlisted, hcount, hcame⟩
  · simp [terminals, hcame, hcount]
  · have hzero : terminals ≠ 0 := by omega
    have hone : terminals ≠ 1 := by omega
    simp only [hcame, hzero, hone, reduceCtorEq, exists_false, false_and, Except.error.injEq,
      BuildFault.multipleTerminals.injEq, true_and, implies_true, false_imp_iff, and_true]
    exact fun n => ⟨fun h => ⟨h, h ▸ hcount⟩, And.left⟩
  · simp [terminals, hcame, hcount, hlast, hterminal]
  · rw [hcame]
    refine ⟨?_, ?_, ?_, ?_, ?_⟩
    · simp [terminals, hcount, hterminal]
    · simp [terminals, hcount]
    · simp [terminals, hcount]
    · simp [terminals, hterminal]
    · rintro p ⟨⟩
      obtain ⟨ordered, hsorted, hperm, hordered⟩ := sortByPlace_precedes hlisted
      have hsame : (sortByPlace Stage.place listed).Perm listed := List.mergeSort_perm _ _
      refine ⟨listed, last, ordered, rfl, by rw [hsorted], hsame.append_right [last], hperm,
        hordered, ?_⟩
      rw [assemble?_concat (fun stage hstage => hlisted stage (hsame.mem_iff.mp hstage)) hterminal,
        sortByPlace_sortByPlace]

/-- Stages of two places, and one on two pools that handles requests. -/
def unsorted : List (Stage Unit Unit) :=
  [.after (.fixed Rank.last) 0 fun _ _ response scene => (.done response, scene),
    .hop (.before .dynamic (-3) fun _ request scene => (.done none, request, scene))
      { name := "pool" },
    .around (.fixed (-3)) 0 true fun _ request scene => (.answer (.done {}), request, scene),
    Stage.onWorkers [{ name := "pool" }, { name := "io" }]
      (.terminal fun _ _ scene => (.done {}, scene))]

theorem assembling_unsorted :
    (∃ p, assemble? unsorted = .ok p ∧ assemble? p.stages = .ok p ∧
      p.stages.map Stage.order? = [some (-3), some (-3), some Rank.last, none]) ∧
    assemble? unsorted.reverse = .error .terminalNotLast ∧
    assemble? (unsorted ++ unsorted) = .error (.multipleTerminals 2) := by
  obtain ⟨-, hbuilt, -, -, -, hmade⟩ := assembling unsorted
  obtain ⟨p, hp⟩ := hbuilt.mpr ⟨rfl, _, rfl, rfl⟩
  obtain ⟨-, -, -, -, -, -, -, -, hagain⟩ := hmade p hp
  obtain ⟨-, -, -, -, helsewhere, -⟩ := assembling unsorted.reverse
  obtain ⟨-, -, -, hseveral, -⟩ := assembling (unsorted ++ unsorted)
  refine ⟨⟨p, hp, hagain, ?_⟩, helsewhere.mpr ⟨rfl, _, rfl, rfl⟩, (hseveral 2).mpr ⟨rfl, by decide⟩⟩
  have hassembled : assemble? unsorted =
      .ok ⟨[unsorted[1], unsorted[2], unsorted[0], unsorted[3]]⟩ := by cbv
  obtain rfl := Except.ok.inj (hassembled.symm.trans hp)
  rfl

end Lineup

end Exchange.Pipeline
