import Exchange.Proofs.Pipeline.Selection

/-!
What a scope covers, as a formula.

A guard is a formula without negation (`Guard.Holds`), in which nothing at all counts as true,
whether all of it is asked for or any (`Guard.admits_iff`). A scope asks for the path, as far as it
has patterns, and for its formula, as far as it has one (`covers_formula`). Neither the sequence nor
the number of equal members of a node matters, and as there is no negation, what is done to one node
of a formula moves the whole formula in the same direction (`Guard.Somewhere.admits_le`).
-/
namespace Exchange.Pipeline

open Http (Request)

namespace Guard

variable {r : Request}

/-! ### Formulas -/

/-- Induction along the nodes of a formula. -/
@[elab_as_elim] theorem induction {motive : Guard → Prop}
    (all : ∀ guards, (∀ g ∈ guards, motive g) → motive (.all guards))
    (any : ∀ guards, (∀ g ∈ guards, motive g) → motive (.any guards))
    (method : ∀ name, motive (.method name))
    (field : ∀ name value, motive (.field name value))
    (test : ∀ holds, motive (.test holds))
    (always : motive .always) (g : Guard) : motive g :=
  @Guard.rec motive (fun guards => ∀ g ∈ guards, motive g) all any method field test always
    nofun (fun _ _ hg hguards => List.forall_mem_cons.mpr ⟨hg, hguards⟩) g

/-- A request satisfies a formula. -/
inductive Holds (r : Request) : Guard → Prop where
  | all {guards : List Guard} : (∀ g ∈ guards, Holds r g) → Holds r (.all guards)
  | none : Holds r (.any [])
  | any {guards : List Guard} (g : Guard) : g ∈ guards → Holds r g → Holds r (.any guards)
  | method : Holds r (.method r.method)
  | field {name : String} {value : Octets} : r.fields.first? name = some value →
      Holds r (.field name value)
  | test {holds : Request → Bool} : holds r = true → Holds r (.test holds)
  | always : Holds r .always

theorem admits_all (guards : List Guard) :
    (Guard.all guards).admits r = guards.all (·.admits r) := by
  rw [admits]
  induction guards with
  | nil => rfl
  | cons g more ih => rw [admitsAll, ih, List.all_cons]

theorem admits_any (guards : List Guard) :
    (Guard.any guards).admits r = (guards.isEmpty || guards.any (·.admits r)) := by
  rw [admits]
  congr 1
  induction guards with
  | nil => rfl
  | cons g more ih => rw [admitsAny, ih, List.any_cons]

/-- Evaluating a guard decides its formula. -/
theorem admits_iff (g : Guard) : g.admits r = true ↔ g.Holds r := by
  induction g using Guard.induction with
  | all guards ih =>
    rw [admits_all, List.all_eq_true]
    constructor
    · exact fun hall => .all fun g hg => (ih g hg).mp (hall g hg)
    · rintro ⟨hall⟩
      exact fun g hg => (ih g hg).mpr (hall g hg)
  | any guards ih =>
    rw [admits_any, Bool.or_eq_true, List.isEmpty_iff, List.any_eq_true]
    constructor
    · rintro (rfl | ⟨g, hg, hadmits⟩)
      · exact .none
      · exact .any g hg ((ih g hg).mp hadmits)
    · intro h
      cases h with
      | none => exact .inl rfl
      | any g hg hholds => exact .inr ⟨g, hg, (ih g hg).mpr hholds⟩
  | method name =>
    rw [admits, beq_iff_eq]
    constructor
    · rintro rfl
      exact .method
    · rintro ⟨⟩
      rfl
  | field name value =>
    rw [admits, beq_iff_eq]
    exact ⟨.field, fun h => by cases h; assumption⟩
  | test holds => exact ⟨.test, fun h => by cases h; assumption⟩
  | always => exact ⟨fun _ => .always, fun _ => rfl⟩

/-! ### Changes to a formula -/

/-- What the members of a node are joined by. -/
inductive Junction where
  | all
  | any

def Junction.node : Junction → List Guard → Guard
  | .all => .all
  | .any => .any

/-- A change somewhere in a formula. -/
inductive Somewhere (change : Guard → Guard → Prop) : Guard → Guard → Prop where
  | here {g g' : Guard} : change g g' → Somewhere change g g'
  | inside (j : Junction) (front : List Guard) {g g' : Guard} (back : List Guard) :
      Somewhere change g g' →
      Somewhere change (j.node (front ++ g :: back)) (j.node (front ++ g' :: back))

/-- The members of a node change places, or one of them is repeated. -/
inductive Rearranges : Guard → Guard → Prop where
  | permuted (j : Junction) {guards guards' : List Guard} : guards.Perm guards' →
      Rearranges (j.node guards) (j.node guards')
  | repeated (j : Junction) (front : List Guard) (g : Guard) (back : List Guard) :
      Rearranges (j.node (front ++ g :: back)) (j.node (front ++ g :: g :: back))

/-- One more member is enough for a node that has some already. -/
inductive Widens : Guard → Guard → Prop where
  | mk (front : List Guard) (g : Guard) (back : List Guard) : front ++ back ≠ [] →
      Widens (.any (front ++ back)) (.any (front ++ g :: back))

/-- A node asks for one more member. -/
inductive Narrows : Guard → Guard → Prop where
  | mk (front : List Guard) (g : Guard) (back : List Guard) :
      Narrows (.all (front ++ back)) (.all (front ++ g :: back))

/-- All that matters about a node is who its members are. -/
theorem admits_node_congr {guards guards' : List Guard} (h : ∀ g, g ∈ guards ↔ g ∈ guards')
    (j : Junction) : (j.node guards).admits r = (j.node guards').admits r := by
  cases j with
  | all =>
    rw [Junction.node, admits_all, admits_all, Bool.eq_iff_iff]
    simp only [List.all_eq_true, h]
  | any =>
    have hempty : guards = [] ↔ guards' = [] := by
      simp only [List.eq_nil_iff_forall_not_mem, h]
    rw [Junction.node, admits_any, admits_any, Bool.eq_iff_iff]
    simp only [Bool.or_eq_true, List.isEmpty_iff, List.any_eq_true, h, hempty]

theorem Rearranges.admits_eq {g g' : Guard} (h : Rearranges g g') : g'.admits r = g.admits r := by
  cases h with
  | permuted j hperm => exact admits_node_congr (fun _ => hperm.mem_iff.symm) j
  | repeated j front g back => exact admits_node_congr (fun _ => by simp) j

theorem Widens.admits {g g' : Guard} (h : Widens g g') (hg : g.admits r = true) :
    g'.admits r = true := by
  cases h with
  | mk front g back hsome =>
    rw [admits_any, List.isEmpty_eq_false_iff.mpr hsome, Bool.false_or, List.any_append,
      Bool.or_eq_true] at hg
    rw [admits_any, List.any_append, List.any_cons]
    rcases hg with hfront | hback
    · simp [hfront]
    · simp [hback]

/-- A node without members admits what its first member may not. -/
example (r : Request) : (any []).admits r = true ∧ (any [.test fun _ => false]).admits r = false :=
  ⟨rfl, rfl⟩

theorem Narrows.admits {g g' : Guard} (h : Narrows g g') (hg : g'.admits r = true) :
    g.admits r = true := by
  cases h with
  | mk front g back =>
    rw [admits_all, List.all_append, List.all_cons, Bool.and_eq_true, Bool.and_eq_true] at hg
    rw [admits_all, List.all_append, hg.1, hg.2.2]
    rfl

/-- A node admits no less if one of its members does. -/
theorem admits_inside (j : Junction) (front : List Guard) {g g' : Guard} (back : List Guard)
    (h : g.admits r = true → g'.admits r = true)
    (hnode : (j.node (front ++ g :: back)).admits r = true) :
    (j.node (front ++ g' :: back)).admits r = true := by
  cases j with
  | all =>
    rw [Junction.node, admits_all, List.all_append, List.all_cons, Bool.and_eq_true,
      Bool.and_eq_true] at hnode ⊢
    exact ⟨hnode.1, h hnode.2.1, hnode.2.2⟩
  | any =>
    have hsome (x : Guard) : (front ++ x :: back).isEmpty = false := by simp
    rw [Junction.node, admits_any, hsome, Bool.false_or, List.any_append, List.any_cons,
      Bool.or_eq_true, Bool.or_eq_true] at hnode ⊢
    exact hnode.imp_right (Or.imp_left h)

namespace Somewhere

variable {change : Guard → Guard → Prop} {g g' : Guard}

theorem flip (h : Somewhere change g g') : Somewhere (fun a b => change b a) g' g := by
  induction h with
  | here hchange => exact .here hchange
  | inside j front back _ ih => exact .inside j front back ih

/-- There is no negation: a formula admits no less if a node of it does not. -/
theorem admits (h : Somewhere change g g')
    (hchange : ∀ {a b : Guard}, change a b → a.admits r = true → b.admits r = true)
    (hg : g.admits r = true) : g'.admits r = true := by
  induction h with
  | here hhere => exact hchange hhere hg
  | inside j front back _ ih => exact admits_inside j front back ih hg

end Somewhere

/-- The members of every node can change places and be repeated. -/
theorem admits_rearranged {g g' : Guard} (h : Somewhere Rearranges g g') :
    g'.admits r = g.admits r := by
  rw [Bool.eq_iff_iff]
  constructor
  · exact h.flip.admits fun hchange hb => hchange.admits_eq.symm.trans hb
  · exact h.admits fun hchange ha => hchange.admits_eq.trans ha

end Guard

/-! ### Scopes -/

namespace Scope

variable {patterns : List String} {guard : Option Guard} {s : Scope}

/-- A scope is made if a table takes the patterns, and keeps the table if there are any. -/
theorem ofPatterns?_eq (patterns : List String) (guard : Option Guard) :
    ofPatterns? patterns guard = (tableOf patterns).map fun table =>
      ⟨if patterns = [] then none else some table, guard⟩ := by
  cases patterns <;> rfl

theorem ofPatterns?_ok (h : ofPatterns? patterns guard = .ok s) :
    ∃ table, tableOf patterns = .ok table ∧
      s = ⟨if patterns = [] then none else some table, guard⟩ := by
  rw [ofPatterns?_eq] at h
  cases htable : tableOf patterns with
  | error e =>
    rw [htable] at h
    cases h
  | ok table =>
    rw [htable] at h
    exact ⟨table, rfl, (Except.ok.inj h).symm⟩

/-- The patterns of a scope can be put to another guard. -/
theorem ofPatterns?_guard (h : ofPatterns? patterns guard = .ok s) (guard' : Option Guard) :
    ofPatterns? patterns guard' = .ok { s with guard := guard' } := by
  obtain ⟨table, htable, rfl⟩ := ofPatterns?_ok h
  rw [ofPatterns?_eq, htable]
  rfl

theorem covers_iff (h : ofPatterns? patterns guard = .ok s) (r : Request) :
    s.covers r = true ↔
      (patterns = [] ∨ ∃ table, tableOf patterns = .ok table ∧
        table.accepts r.target.path = true) ∧ ∀ g, guard = some g → g.Holds r := by
  obtain ⟨table, htable, rfl⟩ := ofPatterns?_ok h
  have hguard : guard.all (·.admits r) = true ↔ ∀ g, guard = some g → g.Holds r := by
    simp only [Option.all_eq_true, Guard.admits_iff]
  rw [covers, Bool.and_eq_true, htable]
  refine and_congr ?_ hguard
  by_cases hnone : patterns = []
  · simp [hnone]
  · simp [hnone]

/-- Coverage follows the guard. -/
theorem covers_of_admits {g g' : Guard} {r : Request} (h : g.admits r = true → g'.admits r = true)
    (hs : { s with guard := some g }.covers r = true) :
    { s with guard := some g' }.covers r = true := by
  rw [covers, Bool.and_eq_true] at hs ⊢
  exact hs.imp_right h

/-- **Coverage.** Take a scope that could be made. A request is covered if and only if there are no
patterns or the table of the patterns accepts its path, and there is no guard or the request
satisfies it as a formula: all of the members of a node, or any of them, where any of none is true.
With its guard replaced by another one, too, the scope can be made. If members of a node, wherever
that is in the guard, only change places or are repeated, the same requests are covered. One more
member of a node that asks for any, and has some, only adds requests, and one more of a node that
asks for all only takes some away. -/
theorem covers_formula (h : ofPatterns? patterns guard = .ok s) :
    (∀ r, s.covers r = true ↔
      (patterns = [] ∨ ∃ table, tableOf patterns = .ok table ∧
        table.accepts r.target.path = true) ∧ ∀ g, guard = some g → g.Holds r) ∧
    ∀ g g', guard = some g → ∃ s', ofPatterns? patterns (some g') = .ok s' ∧ ∀ r,
      (Guard.Somewhere Guard.Rearranges g g' → s'.covers r = s.covers r) ∧
      (Guard.Somewhere Guard.Widens g g' → s.covers r = true → s'.covers r = true) ∧
      (Guard.Somewhere Guard.Narrows g g' → s'.covers r = true → s.covers r = true) := by
  refine ⟨covers_iff h, ?_⟩
  rintro g g' rfl
  refine ⟨_, ofPatterns?_guard h (some g'), fun r => ?_⟩
  have hown : s = { s with guard := some g } := by
    obtain ⟨table, -, rfl⟩ := ofPatterns?_ok h
    rfl
  rw [hown]
  refine ⟨fun hrearranged => ?_, fun hwidened => ?_, fun hnarrowed => ?_⟩
  · have hsame : g'.admits r = g.admits r := Guard.admits_rearranged hrearranged
    exact congrArg (s.table.all (·.accepts r.target.path) && ·) hsame
  · exact covers_of_admits (hwidened.admits fun hchange => hchange.admits)
  · exact covers_of_admits (hnarrowed.flip.admits fun hchange => hchange.admits)

/-- Any of two methods, and any of nothing. -/
def nested : Guard := .all [.any [.method "GET", .method "PUT"], .any []]

/-- The same with the methods in the other sequence. -/
def swapped : Guard := .all [.any [.method "PUT", .method "GET"], .any []]

theorem covers_formula_nested :
    let r : Request := { method := "PUT", target := { path := "/a/b" }, body := 0 }
    ∃ s s', ofPatterns? ["/a/{id}"] (some nested) = .ok s ∧
      ofPatterns? ["/a/{id}"] (some swapped) = .ok s' ∧
      nested.Holds r ∧ s.covers r = true ∧ s'.covers r = true := by
  intro r
  obtain ⟨s, hs, hcovers⟩ : ∃ s, ofPatterns? ["/a/{id}"] (some nested) = .ok s ∧
      s.covers r = true := ⟨_, by cbv, by cbv⟩
  obtain ⟨hformula, hchanged⟩ := covers_formula hs
  obtain ⟨s', hs', hr⟩ := hchanged nested swapped rfl
  have hswapped : Guard.Somewhere Guard.Rearranges nested swapped :=
    .inside .all [] [.any []] (.here (.permuted .any (.swap ..)))
  exact ⟨s, s', hs, hs', ((hformula r).mp hcovers).2 nested rfl, hcovers,
    ((hr r).1 hswapped).trans hcovers⟩

end Scope

end Exchange.Pipeline
