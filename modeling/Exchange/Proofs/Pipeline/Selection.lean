import Exchange.Pipeline.Roster
import Exchange.Proofs.Pipeline.Nesting
import Mathlib.Data.List.Sort

/-!
The line-up of a request, sorted once or sorted anew.

A roster sorts all of its stages when it is built, and picks those of a request later. A sorted list
is known by its places and by what shares a place (`eq_of_ties`), so picking and sorting commute
(`sortByPlace_filter`). Hence the line-up that a request gets is the one that would be assembled
from its stages alone (`lineup_sorted_once`).
-/
namespace Exchange.Pipeline

open Http (Request)

/-! ### Sorting a selection -/

section Selecting

variable {α β : Type}

theorem sortByPlace_sorted (place : α → Int) (xs : List α) :
    (sortByPlace place xs).Pairwise fun a b => place a ≤ place b := by
  have hsorted : (sortByPlace place xs).Pairwise fun a b => decide (place a ≤ place b) :=
    List.pairwise_mergeSort (fun a b c => by simpa using Int.le_trans)
      (fun a b => by simpa using Int.le_total _ _) xs
  exact hsorted.imp of_decide_eq_true

/-- What shares a place keeps its sequence. -/
theorem sortByPlace_ties (place : α → Int) (xs : List α) (n : Int) :
    (sortByPlace place xs).filter (place · = n) = xs.filter (place · = n) := by
  have hplace : ∀ a ∈ xs.filter (place · = n), place a = n :=
    fun a ha => of_decide_eq_true (List.mem_filter.mp ha).2
  have hties : (xs.filter (place · = n)).Pairwise fun a b => decide (place a ≤ place b) :=
    List.pairwise_of_forall_mem_list fun a ha b hb => by simp [hplace a ha, hplace b hb]
  have hsub : (xs.filter (place · = n)).Sublist (sortByPlace place xs) :=
    List.sublist_mergeSort (fun a b c => by simpa using Int.le_trans)
      (fun a b => by simpa using Int.le_total _ _) hties List.filter_sublist
  have hsame := hsub.filter (place · = n)
  rw [List.filter_eq_self.mpr fun a ha => decide_eq_true (hplace a ha)] at hsame
  exact (hsame.eq_of_length ((List.mergeSort_perm xs _).filter _).length_eq.symm).symm

theorem mem_of_ties {place : α → Int} {xs ys : List α}
    (hties : ∀ n, xs.filter (place · = n) = ys.filter (place · = n)) (a : α) :
    a ∈ xs ↔ a ∈ ys := by
  have hclass : a ∈ xs.filter (place · = place a) ↔ a ∈ ys.filter (place · = place a) := by
    rw [hties]
  simpa using hclass

/-- A sorted list is known by what shares a place in it. -/
theorem eq_of_ties {place : α → Int} {xs ys : List α}
    (hxs : xs.Pairwise fun a b => place a ≤ place b)
    (hys : ys.Pairwise fun a b => place a ≤ place b)
    (hties : ∀ n, xs.filter (place · = n) = ys.filter (place · = n)) : xs = ys := by
  have hmem := mem_of_ties hties
  induction xs generalizing ys with
  | nil =>
    refine (List.eq_nil_iff_forall_not_mem.mpr fun a ha => ?_).symm
    exact List.not_mem_nil ((hmem a).mpr ha)
  | cons a rest ih =>
    cases ys with
    | nil => exact absurd ((hmem a).mp (.head _)) List.not_mem_nil
    | cons b rest' =>
      obtain ⟨hfirst, hrest⟩ := List.pairwise_cons.mp hxs
      obtain ⟨hfirst', hrest'⟩ := List.pairwise_cons.mp hys
      -- either list begins at the least place that occurs
      have hplace : place a = place b := by
        refine Int.le_antisymm ?_ ?_
        · rcases List.mem_cons.mp ((hmem b).mpr (.head _)) with rfl | hb
          · exact Int.le_refl _
          · exact hfirst b hb
        · rcases List.mem_cons.mp ((hmem a).mp (.head _)) with rfl | ha
          · exact Int.le_refl _
          · exact hfirst' a ha
      have hheads := hties (place a)
      rw [List.filter_cons_of_pos (by simp), List.filter_cons_of_pos (by simp [hplace])] at hheads
      obtain ⟨rfl, -⟩ := List.cons.inj hheads
      have htails : ∀ n, rest.filter (place · = n) = rest'.filter (place · = n) := by
        intro n
        have hn := hties n
        rw [List.filter_cons, List.filter_cons] at hn
        split at hn
        · exact (List.cons.inj hn).2
        · exact hn
      rw [ih hrest hrest' htails (mem_of_ties htails)]

/-- Picking from what is sorted is sorting what is picked. -/
theorem sortByPlace_filter (place : α → Int) (pick : α → Bool) (xs : List α) :
    (sortByPlace place xs).filter pick = sortByPlace place (xs.filter pick) := by
  refine eq_of_ties ((sortByPlace_sorted place xs).filter pick) (sortByPlace_sorted place _) ?_
  intro n
  rw [sortByPlace_ties, List.filter_comm, sortByPlace_ties, List.filter_comm]

/-- Members are sorted by the place of what is made of them. -/
theorem map_sortByPlace (place : β → Int) (f : α → β) (xs : List α) :
    (sortByPlace (place <| f ·) xs).map f = sortByPlace place (xs.map f) :=
  List.map_mergeSort fun _ _ _ _ => rfl

end Selecting

/-! ### Rosters -/

variable {σ W : Type}

namespace Assignment

/-- The stage that an assignment puts into the line-up of a request: moved to its pool, and only if
its scope covers the request. -/
def stageFor? (workers : Workers) (r : Request) (a : Assignment σ W) : Option (Stage σ W) :=
  match a.bind? workers, Scope.ofPatterns? a.patterns a.guard with
  | .ok stage, .ok scope => if scope.covers r then some stage else none
  | _, _ => none

theorem resolve?_ok {workers : Workers} {a : Assignment σ W} {entry : Scope × Stage σ W}
    (h : a.resolve? workers = .ok entry) :
    a.bind? workers = .ok entry.2 ∧ Scope.ofPatterns? a.patterns a.guard = .ok entry.1 := by
  unfold resolve? at h
  cases hbound : a.bind? workers with
  | error e =>
    rw [hbound] at h
    cases h
  | ok stage =>
    rw [hbound] at h
    cases hscope : Scope.ofPatterns? a.patterns a.guard with
    | error e =>
      rw [hscope] at h
      cases h
    | ok scope =>
      rw [hscope] at h
      cases h
      exact ⟨rfl, rfl⟩

theorem stageFor?_resolved {workers : Workers} {a : Assignment σ W} {entry : Scope × Stage σ W}
    (h : a.resolve? workers = .ok entry) (r : Request) :
    a.stageFor? workers r = if entry.1.covers r then some entry.2 else none := by
  obtain ⟨hbound, hscope⟩ := resolve?_ok h
  unfold stageFor?
  rw [hbound, hscope]

/-- Moving a stage to a pool does not make it one that handles requests, nor the other way. -/
theorem isTerminal_bind? {workers : Workers} {a : Assignment σ W} {stage : Stage σ W}
    (h : a.bind? workers = .ok stage) : stage.isTerminal = a.stage.isTerminal := by
  unfold bind? at h
  split at h
  · cases h
    rfl
  · next name _ =>
    cases hworker : workers.get? name with
    | error e =>
      rw [hworker] at h
      cases h
    | ok worker =>
      rw [hworker] at h
      cases h
      rfl

end Assignment

theorem mapM_ok {α β ε : Type} {f : α → Except ε β} {xs : List α} {ys : List β}
    (h : xs.mapM f = .ok ys) : List.Forall₂ (fun x y => f x = .ok y) xs ys := by
  induction xs generalizing ys with
  | nil =>
    cases h
    exact .nil
  | cons x rest ih =>
    rw [List.mapM_cons] at h
    cases hx : f x with
    | error e =>
      rw [hx] at h
      cases h
    | ok y =>
      rw [hx] at h
      cases hrest : rest.mapM f with
      | error e =>
        rw [hrest] at h
        cases h
      | ok more =>
        rw [hrest] at h
        cases h
        exact .cons hx (ih hrest)

namespace Roster

variable {assignments : List (Assignment σ W)} {terminal : Stage σ W} {workers : Workers}
  {roster : Roster σ W}

/-- What a roster that could be built is built of. -/
theorem build?_ok (h : build? assignments terminal workers = .ok roster) :
    terminal.isTerminal = true ∧ (∀ a ∈ assignments, a.stage.isTerminal = false) ∧
      ∃ entries, List.Forall₂ (fun a e => a.resolve? workers = .ok e) assignments entries ∧
        roster = ⟨sortByPlace (·.2.place) entries, terminal⟩ := by
  unfold build? at h
  split at h
  · cases h
  · next hterminal =>
    split at h
    · next hcount =>
      refine ⟨by simpa using hterminal, by simpa using hcount, ?_⟩
      cases hentries : assignments.mapM (·.resolve? workers) with
      | error e =>
        rw [hentries] at h
        cases h
      | ok entries =>
        rw [hentries] at h
        cases h
        exact ⟨entries, mapM_ok hentries, rfl⟩
    · cases h

/-- The stages of the entries that cover a request are those that the assignments put in. -/
theorem picked_entries {entries : List (Scope × Stage σ W)} (r : Request)
    (h : List.Forall₂ (fun a e => Assignment.resolve? workers a = .ok e) assignments entries) :
    (entries.filter (·.1.covers r)).map (·.2) =
      assignments.filterMap (·.stageFor? workers r) := by
  induction h with
  | nil => rfl
  | @cons a e _ _ hresolved _ ih =>
    have hfor := Assignment.stageFor?_resolved hresolved r
    cases hcovers : e.1.covers r with
    | true =>
      rw [hcovers, if_pos rfl] at hfor
      rw [List.filter_cons_of_pos (by exact hcovers), List.map_cons, ih,
        List.filterMap_cons_some hfor]
    | false =>
      rw [hcovers, if_neg Bool.false_ne_true] at hfor
      rw [List.filter_cons_of_neg (by simp [hcovers]), ih, List.filterMap_cons_none hfor]

/-- **Sorted once.** In a roster that could be built every assignment has its pool and its scope.
The line-up of a request is the one that is assembled from the stages of those assignments that
cover it, in the sequence of the assignments, with the terminal stage behind them; assembling it
never fails. The terminal stage is the last one, the others stand in ascending order of place, and
those of one place in the sequence of the assignments. -/
theorem lineup_sorted_once (h : build? assignments terminal workers = .ok roster) :
    (∀ a ∈ assignments, ∃ stage scope, a.bind? workers = .ok stage ∧
      Scope.ofPatterns? a.patterns a.guard = .ok scope) ∧
    ∀ r, let listed := assignments.filterMap (·.stageFor? workers r)
      Lineup.assemble? (listed ++ [terminal]) = .ok (roster.lineupFor r) ∧
      ∃ covering, (roster.lineupFor r).stages = covering ++ [terminal] ∧
        covering.Pairwise (fun a b => a.place ≤ b.place) ∧
        ∀ n, covering.filter (·.place = n) = listed.filter (·.place = n) := by
  obtain ⟨hterminal, hassigned, entries, hentries, rfl⟩ := build?_ok h
  have hresolved : ∀ a ∈ assignments, ∃ e, a.resolve? workers = .ok e :=
    ((List.forall₂_and_left _ _).mp (hentries.imp fun _ e he => ⟨⟨e, he⟩, he⟩)).1
  refine ⟨fun a ha => ?_, fun r => ?_⟩
  · obtain ⟨e, he⟩ := hresolved a ha
    exact ⟨e.2, e.1, Assignment.resolve?_ok he⟩
  · intro listed
    have hlisted : ∀ stage ∈ listed, stage.isTerminal = false := by
      intro stage hstage
      obtain ⟨a, ha, hfor⟩ := List.mem_filterMap.mp hstage
      obtain ⟨e, he⟩ := hresolved a ha
      rw [Assignment.stageFor?_resolved he] at hfor
      obtain ⟨-, hstage⟩ := Option.ite_none_right_eq_some.mp hfor
      rw [← Option.some.inj hstage, Assignment.isTerminal_bind? (Assignment.resolve?_ok he).1]
      exact hassigned a ha
    have hstages : stagesFor r ⟨sortByPlace (·.2.place) entries, terminal⟩ =
        sortByPlace Stage.place listed := by
      unfold stagesFor
      rw [sortByPlace_filter, map_sortByPlace Stage.place, picked_entries r hentries]
    have hlineup : lineupFor r ⟨sortByPlace (·.2.place) entries, terminal⟩ =
        ⟨sortByPlace Stage.place listed ++ [terminal]⟩ := by
      unfold lineupFor
      rw [hstages]
    rw [hlineup]
    exact ⟨assemble?_concat hlisted hterminal, _, rfl, sortByPlace_sorted _ _,
      sortByPlace_ties _ _⟩

/-- A stage on a pool, one for other requests, one for the paths below a pattern, and one that comes
before them all; the first three share a place. -/
def mixed : List (Assignment Unit Unit) :=
  [{ stage := .after (.fixed 5) 0 fun _ _ response scene => (.done response, scene)
     worker := some "io" },
    { stage := .before (.fixed 5) 0 fun _ request scene => (.done none, request, scene)
      guard := some (.method "POST") },
    { stage := .before .dynamic 5 fun _ request scene => (.done none, request, scene)
      patterns := ["/a/{id}"] },
    { stage := .wrapping (.fixed 1) 0 fun _ request scene =>
        (.answer (.done {}), request, scene) }]

theorem lineup_sorted_once_mixed :
    let workers := Workers.start [("io", 1)]
    let terminal : Stage Unit Unit := .terminal fun _ _ scene => (.done {}, scene)
    let r : Request := { target := { path := "/a/b" }, body := 0 }
    ∃ roster, build? mixed terminal workers = .ok roster ∧
      ∃ lineup, Lineup.assemble? (mixed.filterMap (·.stageFor? workers r) ++ [terminal]) =
          .ok lineup ∧
        roster.lineupFor r = lineup ∧
        lineup.stages.map Stage.kind = ["before-continuation", "async", "before", "terminal"] := by
  intro workers terminal r
  have hbuilt : ∃ roster, build? mixed terminal workers = .ok roster ∧
      (roster.lineupFor r).stages.map Stage.kind =
        ["before-continuation", "async", "before", "terminal"] := by
    refine ⟨_, by cbv, ?_⟩
    cbv
  obtain ⟨roster, hroster, hkinds⟩ := hbuilt
  obtain ⟨hassembled, -⟩ := (lineup_sorted_once hroster).2 r
  exact ⟨roster, hroster, _, hassembled, rfl, hkinds⟩

end Roster

end Exchange.Pipeline
