import Exchange.Pipeline.Failure
import Mathlib.Data.List.Basic

/-!
What can be seen of a run.

Every stage of a pipeline leaves marks behind: when it is reached, when its behaviour does
something, and when the part of the run that it began returns. Of a stage only its `Role` counts
here. It either turns the run around (`Turns`) or has the rest of the pipeline run and makes its own
result out of what that came to (`Passes`). A `Course` is the marks of a whole run put together in
that way, and this module says what such marks look like: which stages are reached, who gets to see
which response, how far a failure travels.
-/
namespace Exchange.Pipeline

open Http (Response)

/-- What the behaviour of a stage does. -/
inductive Deed where
  /-- it lets the request pass -/
  | passed
  | answered (response : Response)
  | refused (cause : Cause)
  /-- it ends without the rest of the pipeline -/
  | declined (result : Except Failure Response)
  | proceeded
  /-- it makes its own result of what the rest came to -/
  | resumed (given result : Except Failure Response)
  | adjusted (given : Response) (result : Except Cause Response)
  | handled (result : Except Cause Response)
  | panicked (message : String)

inductive Mark where
  | reached (stage : Nat)
  | did (stage : Nat) (deed : Deed)
  | returned (stage : Nat) (result : Except Failure Response)

/-- What is expected of a stage. -/
inductive Role where
  /-- to look at the request -/
  | checks
  /-- to wrap the rest of the pipeline -/
  | wraps
  /-- to adjust the response -/
  | adjusts
  /-- nothing -/
  | idles
  /-- to handle the request, if it still can -/
  | handles (ready : Bool)
  deriving DecidableEq

/-- Whether a deed is the failure of its stage. -/
def Deed.fails : Deed → Bool
  | refused _ | declined (.error _) | resumed _ (.error _) | adjusted _ (.error _)
  | handled (.error _) | panicked _ => true
  | _ => false

namespace Mark

/-- The stage that left the mark. -/
def stage : Mark → Nat
  | reached i | did i _ | returned i _ => i

/-- The stage that is reached. -/
def reached? : Mark → Option Nat
  | reached i => some i
  | _ => none

/-- The response that stage `i` is given to adjust. -/
def given? (i : Nat) : Mark → Option Response
  | did j (.adjusted r _) => if j = i then some r else none
  | _ => none

/-- The response that the run returned with from stage `i` on. -/
def response? (i : Nat) : Mark → Option Response
  | returned j (.ok r) => if j = i then some r else none
  | _ => none

def handles : Mark → Bool
  | did _ (.handled _) => true
  | _ => false

def panics : Mark → Bool
  | did _ (.panicked _) => true
  | _ => false

/-- Whether a failure shows. -/
def fails : Mark → Bool
  | did _ d => d.fails
  | returned _ (.error _) => true
  | _ => false

theorem given?_none {m : Mark} {i : Nat} (h : m.stage ≠ i) : m.given? i = none := by
  unfold given?
  split
  · exact if_neg h
  · rfl

theorem response?_some {m : Mark} {i : Nat} {r : Response} (h : m.response? i = some r) :
    m = .returned i (.ok r) := by
  unfold response? at h
  split at h
  · split at h
    · next hi =>
      cases h
      rw [hi]
    · cases h
  · cases h

theorem response?_none {m : Mark} {i : Nat} (h : m.stage ≠ i) : m.response? i = none := by
  unfold response?
  split
  · exact if_neg h
  · rfl

end Mark

/-! ### One stage -/

/-- A stage of that role does `own` and ends with `result`, without the rest of the pipeline. -/
inductive Turns : (role : Role) → (own : List Deed) → (result : Except Failure Response) →
    Prop where
  | answered (r : Response) : Turns .checks [.answered r] (.ok r)
  | refused (c : Cause) : Turns .checks [.refused c] (.error (.ofFilter c))
  | declined (result : Except Failure Response) : Turns .wraps [.declined result] result
  /-- the stage had to run the rest -/
  | neglected (r : Response) (f : Failure) : Turns .wraps [.declined (.ok r)] (.error f)
  | handled (result : Except Cause Response) :
      Turns (.handles true) [.handled result] (result.mapError .ofHandler)
  | spent : Turns (.handles false) [] (.error .sourceConsumed)

/-- A stage of that role does `early`, has the rest run, does `late` when that came to `given`, and
ends with `result`. -/
inductive Passes : (role : Role) → (early : List Deed) → (given : Except Failure Response) →
    (late : List Deed) → (result : Except Failure Response) → Prop where
  | passed (result : Except Failure Response) : Passes .checks [.passed] result [] result
  | resumed (given result : Except Failure Response) :
      Passes .wraps [.proceeded] given [.resumed given result] result
  | adjusted (r : Response) (result : Except Cause Response) :
      Passes .adjusts [] (.ok r) [.adjusted r result] (result.mapError .ofFilter)
  | passedOver (f : Failure) : Passes .adjusts [] (.error f) [] (.error f)
  | idled (result : Except Failure Response) : Passes .idles [] result [] result

/-- Nothing that a stage does before it has the rest run is a failure. -/
theorem Passes.fails_early {role : Role} {early late : List Deed}
    {given result : Except Failure Response} (h : Passes role early given late result) :
    ∀ d ∈ early, d.fails = false := by
  cases h <;> simp [Deed.fails]

/-! ### All stages -/

/-- The marks of a stage around those of the stages below it. -/
def framed (i : Nat) (early : List Deed) (lower : List Mark) (late : List Deed)
    (result : Except Failure Response) : List Mark :=
  .reached i :: (early.map (.did i) ++ lower ++ late.map (.did i) ++ [.returned i result])

/-- The marks and the result of a run through stages of given roles and numbers. -/
inductive Course : List (Role × Nat) → List Mark → Except Failure Response → Prop where
  | turned {role : Role} {i : Nat} {chain own result} : Turns role own result →
      Course ((role, i) :: chain) (framed i own [] [] result) result
  | passed {role : Role} {i : Nat} {chain early lower given late result} :
      Passes role early given late result → Course chain lower given →
      Course ((role, i) :: chain) (framed i early lower late result) result

section Framed

variable {i : Nat} {early late : List Deed} {lower : List Mark} {result : Except Failure Response}

theorem mem_framed {m : Mark} :
    m ∈ framed i early lower late result ↔
      m = .reached i ∨ (∃ d ∈ early, m = .did i d) ∨ m ∈ lower ∨ (∃ d ∈ late, m = .did i d) ∨
        m = .returned i result := by
  unfold framed
  simp only [List.mem_cons, List.mem_append, List.mem_map, List.not_mem_nil, or_false, or_assoc,
    eq_comm]

theorem early_mem {d : Deed} (hd : d ∈ early) : .did i d ∈ framed i early lower late result :=
  mem_framed.mpr (.inr (.inl ⟨d, hd, rfl⟩))

theorem late_mem {d : Deed} (hd : d ∈ late) : .did i d ∈ framed i early lower late result :=
  mem_framed.mpr (.inr (.inr (.inr (.inl ⟨d, hd, rfl⟩))))

theorem lower_mem {m : Mark} (hm : m ∈ lower) : m ∈ framed i early lower late result :=
  mem_framed.mpr (.inr (.inr (.inl hm)))

theorem last_mem : .returned i result ∈ framed i early lower late result :=
  mem_framed.mpr (.inr (.inr (.inr (.inr rfl))))

/-- Marks of stages below are found among those of the stages below. -/
theorem mem_framed_of_ne {m : Mark} (hm : m.stage ≠ i) :
    m ∈ framed i early lower late result ↔ m ∈ lower := by
  rw [mem_framed]
  refine ⟨?_, fun h => .inr (.inr (.inl h))⟩
  rintro (rfl | ⟨d, -, rfl⟩ | h | ⟨d, -, rfl⟩ | rfl)
  · exact absurd rfl hm
  · exact absurd rfl hm
  · exact h
  · exact absurd rfl hm
  · exact absurd rfl hm

theorem filterMap_did {β : Type} {f : Mark → Option β} (hf : ∀ d, f (.did i d) = none)
    (deeds : List Deed) : (deeds.map (.did i)).filterMap f = [] := by
  rw [List.filterMap_map, List.filterMap_eq_nil_iff]
  exact fun d _ => hf d

theorem filterMap_framed {β : Type} {f : Mark → Option β} (hf : ∀ m, m.stage = i → f m = none) :
    (framed i early lower late result).filterMap f = lower.filterMap f := by
  have hdeeds := filterMap_did fun d => hf (.did i d) rfl
  unfold framed
  rw [List.filterMap_cons_none (hf _ rfl), List.filterMap_append, List.filterMap_append,
    List.filterMap_append, hdeeds, hdeeds, List.filterMap_cons_none (hf _ rfl)]
  simp

theorem eq_of_returned_mem {a : Except Failure Response} (hlower : ∀ m ∈ lower, m.stage ≠ i)
    (ha : .returned i a ∈ framed i early lower late result) : a = result := by
  rcases mem_framed.mp ha with h | ⟨_, _, h⟩ | h | ⟨_, _, h⟩ | h
  · cases h
  · cases h
  · exact absurd rfl (hlower _ h)
  · cases h
  · cases h
    rfl

theorem reached_framed :
    (framed i early lower late result).filterMap Mark.reached? =
      i :: lower.filterMap Mark.reached? := by
  have hdeeds : ∀ deeds : List Deed, (deeds.map (Mark.did i)).filterMap Mark.reached? = [] :=
    filterMap_did fun _ => rfl
  unfold framed
  simp [Mark.reached?, hdeeds]

theorem response_framed (hlower : ∀ m ∈ lower, m.stage ≠ i) :
    (framed i early lower late result).filterMap (Mark.response? i) = result.toOption.toList := by
  have hdeeds : ∀ deeds : List Deed, (deeds.map (.did i)).filterMap (Mark.response? i) = [] :=
    filterMap_did fun _ => rfl
  have hnone : lower.filterMap (Mark.response? i) = [] := by
    rw [List.filterMap_eq_nil_iff]
    exact fun m hm => Mark.response?_none (hlower m hm)
  unfold framed
  rw [List.filterMap_cons_none rfl, List.filterMap_append, List.filterMap_append,
    List.filterMap_append, hdeeds, hdeeds, hnone]
  cases result <;> simp [Mark.response?, Except.toOption]

end Framed

/-- Whether stage `i` lets the request through to the stages below, going by the marks. -/
def LetsThrough (log : List Mark) (i : Nat) : Role → Prop
  | .checks => (∀ r, .did i (.answered r) ∉ log) ∧ ∀ c, .did i (.refused c) ∉ log
  | .wraps => .did i .proceeded ∈ log
  | _ => True

/-- Stage `i` made a response of a failure that it was given. -/
def Recovers (log : List Mark) (i : Nat) : Prop :=
  ∃ f r, .did i (.resumed (.error f) (.ok r)) ∈ log

namespace Course

variable {roles : List Role} {i k : Nat} {log : List Mark} {result : Except Failure Response}

/-- A run leaves marks from where it began on. -/
theorem le_stage (h : Course (roles.zipIdx i) log result) {m : Mark} (hm : m ∈ log) :
    i ≤ m.stage := by
  induction roles generalizing i log result with
  | nil => cases h
  | cons role roles ih =>
    rw [List.zipIdx_cons] at h
    by_cases hstage : m.stage = i
    · exact Nat.le_of_eq hstage.symm
    · cases h with
      | turned _ =>
        rw [mem_framed_of_ne hstage] at hm
        cases hm
      | passed _ hlower =>
        rw [mem_framed_of_ne hstage] at hm
        exact Nat.le_of_succ_le (ih hlower hm)

theorem stage_ne (h : Course (roles.zipIdx (i + 1)) log result) : ∀ m ∈ log, m.stage ≠ i :=
  fun _ hm => Nat.ne_of_gt (h.le_stage hm)

/-- A run returns with its result. -/
theorem returned_mem (h : Course (roles.zipIdx i) log result) : .returned i result ∈ log := by
  cases roles with
  | nil => cases h
  | cons role roles =>
    rw [List.zipIdx_cons] at h
    cases h <;> exact last_mem

/-- A run returns once. -/
theorem returned_unique (h : Course (roles.zipIdx i) log result) {a b : Except Failure Response}
    (ha : .returned k a ∈ log) (hb : .returned k b ∈ log) : a = b := by
  induction roles generalizing i log result with
  | nil => cases h
  | cons role roles ih =>
    rw [List.zipIdx_cons] at h
    by_cases hk : k = i
    · subst hk
      cases h with
      | turned _ =>
        have hnone : ∀ m ∈ ([] : List Mark), m.stage ≠ k := fun _ hm => absurd hm List.not_mem_nil
        rw [eq_of_returned_mem hnone ha, eq_of_returned_mem hnone hb]
      | passed _ hlower =>
        rw [eq_of_returned_mem hlower.stage_ne ha, eq_of_returned_mem hlower.stage_ne hb]
    · cases h with
      | turned _ =>
        rw [mem_framed_of_ne (m := .returned k a) hk] at ha
        cases ha
      | passed _ hlower =>
        exact ih hlower ((mem_framed_of_ne (m := .returned k a) hk).mp ha)
          ((mem_framed_of_ne (m := .returned k b) hk).mp hb)

/-! ### Which stages are reached -/

/-- The stages reached are the first ones, each of them once. -/
theorem reached_prefix (h : Course (roles.zipIdx i) log result) :
    log.filterMap Mark.reached? <+: List.range' i roles.length := by
  induction roles generalizing i log result with
  | nil => cases h
  | cons role roles ih =>
    rw [List.zipIdx_cons] at h
    rw [List.length_cons, List.range'_succ]
    cases h with
    | turned _ =>
      rw [reached_framed]
      exact List.cons_prefix_cons.mpr ⟨rfl, List.nil_prefix⟩
    | passed _ hlower =>
      rw [reached_framed]
      exact List.cons_prefix_cons.mpr ⟨rfl, ih hlower⟩

/-- A run goes down without a failure, and what comes up again reaches no stage. -/
theorem descent (h : Course (roles.zipIdx i) log result) :
    ∃ down up, log = down ++ up ∧ (∀ m ∈ down, m.fails = false) ∧
      ∀ m ∈ up, m.reached? = none := by
  induction roles generalizing i log result with
  | nil => cases h
  | cons role roles ih =>
    rw [List.zipIdx_cons] at h
    cases h with
    | @turned _ _ _ own _ _ =>
      refine ⟨[.reached i], own.map (.did i) ++ [.returned i result], by simp [framed], ?_, ?_⟩
      · intro m hm
        rw [List.mem_singleton.mp hm]
        rfl
      · intro m hm
        rcases List.mem_append.mp hm with hm | hm
        · obtain ⟨d, -, rfl⟩ := List.mem_map.mp hm
          rfl
        · rw [List.mem_singleton.mp hm]
          rfl
    | @passed _ _ _ early lower given late _ hpasses hlower =>
      obtain ⟨down, up, rfl, hdown, hup⟩ := ih hlower
      refine ⟨.reached i :: early.map (.did i) ++ down,
        up ++ late.map (.did i) ++ [.returned i result], by simp [framed], ?_, ?_⟩
      · intro m hm
        rcases List.mem_append.mp hm with hm | hm
        · rcases List.mem_cons.mp hm with rfl | hm
          · rfl
          · obtain ⟨d, hd, rfl⟩ := List.mem_map.mp hm
            exact hpasses.fails_early d hd
        · exact hdown m hm
      · intro m hm
        rcases List.mem_append.mp hm with hm | hm
        · rcases List.mem_append.mp hm with hm | hm
          · exact hup m hm
          · obtain ⟨d, -, rfl⟩ := List.mem_map.mp hm
            rfl
        · rw [List.mem_singleton.mp hm]
          rfl

/-- No stage is reached once a failure shows. -/
theorem not_reached_of_fails (h : Course (roles.zipIdx i) log result) {front back : List Mark}
    {m : Mark} (hlog : log = front ++ m :: back) (hm : m.fails = true) : .reached k ∉ back := by
  obtain ⟨down, up, hsplit, hdown, hup⟩ := h.descent
  rw [hlog] at hsplit
  rcases List.append_eq_append_iff.mp hsplit with ⟨a, rfl, ha⟩ | ⟨a, rfl, ha⟩
  · cases a with
    | nil =>
      intro hk
      have hnone := hup (.reached k) (by rw [← List.nil_append up, ← ha]; exact .tail _ hk)
      cases hnone
    | cons x a =>
      obtain ⟨rfl, -⟩ := List.cons.inj ha
      rw [hdown m (by simp)] at hm
      cases hm
  · intro hk
    have hnone := hup (.reached k) (by rw [ha]; simp [hk])
    cases hnone

/-! ### The stage that handles the request -/

/-- What a stage does is seen above it as well. -/
theorem letsThrough_framed {early late : List Deed} {lower : List Mark} (hk : k ≠ i) (role : Role) :
    LetsThrough (framed i early lower late result) k role ↔ LetsThrough lower k role := by
  have hmem : ∀ d, Mark.did k d ∈ framed i early lower late result ↔ .did k d ∈ lower :=
    fun d => mem_framed_of_ne hk
  cases role <;> simp [LetsThrough, hmem]

/-- The last stage is reached if and only if all others let the request through. -/
theorem reached_last {ready : Bool}
    (h : Course ((roles ++ [Role.handles ready]).zipIdx i) log result)
    (hroles : ∀ b, Role.handles b ∉ roles) :
    .reached (i + roles.length) ∈ log ↔
      ∀ role k, (role, k) ∈ roles.zipIdx i → LetsThrough log k role := by
  induction roles generalizing i log result with
  | nil =>
    refine ⟨fun _ => nofun, fun _ => ?_⟩
    cases h <;> exact mem_framed.mpr (.inl rfl)
  | cons role roles ih =>
    rw [List.cons_append, List.zipIdx_cons] at h
    rw [List.zipIdx_cons, List.length_cons, ← Nat.add_assoc, Nat.add_right_comm]
    have hlast : i + 1 + roles.length ≠ i := by omega
    have hbehind : ∀ {role k}, (role, k) ∈ roles.zipIdx (i + 1) → k ≠ i := fun hmem =>
      Nat.ne_of_gt (List.le_snd_of_mem_zipIdx hmem)
    cases h with
    | turned hturns =>
      refine ⟨fun hmem => ?_, fun hall => ?_⟩
      · rw [mem_framed_of_ne (m := .reached _) hlast] at hmem
        cases hmem
      · have hhead := hall role i (.head _)
        cases hturns with
        | answered r => exact absurd (mem_framed.mpr (by simp)) (hhead.1 r)
        | refused c => exact absurd (mem_framed.mpr (by simp)) (hhead.2 c)
        | declined result => simp [LetsThrough, mem_framed] at hhead
        | neglected r f => simp [LetsThrough, mem_framed] at hhead
        | handled result => exact absurd (.head _) (hroles true)
        | spent => exact absurd (.head _) (hroles false)
    | @passed _ _ _ early lower given late _ hpasses hlower =>
      rw [mem_framed_of_ne (m := .reached _) hlast, ih hlower fun b hb => hroles b (.tail _ hb)]
      refine ⟨fun hall other k hmem => ?_, fun hall other k hmem => ?_⟩
      · rcases List.mem_cons.mp hmem with heq | hmem
        · cases heq
          have hown : ∀ d, .did i d ∉ lower := fun d hd => hlower.stage_ne _ hd rfl
          cases hpasses <;> simp [LetsThrough, mem_framed, hown]
        · exact (letsThrough_framed (hbehind hmem) other).mpr (hall other k hmem)
      · exact (letsThrough_framed (hbehind hmem) other).mp (hall other k (.tail _ hmem))

/-- The request is handled at most once, by the last stage. -/
theorem handled_once (h : Course (roles.zipIdx i) log result) : log.countP Mark.handles ≤ 1 := by
  induction roles generalizing i log result with
  | nil => cases h
  | cons role roles ih =>
    rw [List.zipIdx_cons] at h
    cases h with
    | turned hturns => cases hturns <;> simp [framed, List.countP_cons, Mark.handles]
    | passed hpasses hlower =>
      have hcount := ih hlower
      cases hpasses <;> simpa [framed, Mark.handles] using hcount

theorem handled_last {ready : Bool}
    (h : Course ((roles ++ [Role.handles ready]).zipIdx i) log result)
    (hroles : ∀ b, Role.handles b ∉ roles) :
    (∃ r, .did (i + roles.length) (.handled r) ∈ log) ↔
      .reached (i + roles.length) ∈ log ∧ ready = true := by
  induction roles generalizing i log result with
  | nil =>
    rw [List.nil_append, List.zipIdx_cons, List.zipIdx_nil] at h
    cases h with
    | turned hturns => cases hturns <;> simp [mem_framed]
    | passed hpasses _ => cases hpasses
  | cons role roles ih =>
    rw [List.cons_append, List.zipIdx_cons] at h
    rw [List.length_cons, ← Nat.add_assoc, Nat.add_right_comm]
    have hlast : i + 1 + roles.length ≠ i := by omega
    have hreached : ∀ {early lower late}, .reached (i + 1 + roles.length) ∈
        framed i early lower late result ↔ .reached (i + 1 + roles.length) ∈ lower :=
      mem_framed_of_ne hlast
    have hdid : ∀ {early lower late d}, .did (i + 1 + roles.length) d ∈
        framed i early lower late result ↔ .did (i + 1 + roles.length) d ∈ lower :=
      mem_framed_of_ne hlast
    cases h with
    | turned _ => simp [hreached, hdid]
    | passed _ hlower =>
      simp only [hreached, hdid]
      exact ih hlower fun b hb => hroles b (.tail _ hb)

/-! ### Responses on their way up -/

/-- The response that a run returns with, if it returns with one. -/
theorem response_first (h : Course (roles.zipIdx i) log result) :
    log.filterMap (Mark.response? i) = result.toOption.toList := by
  cases roles with
  | nil => cases h
  | cons role roles =>
    rw [List.zipIdx_cons] at h
    cases h with
    | turned _ => exact response_framed fun _ hm => absurd hm List.not_mem_nil
    | passed _ hlower => exact response_framed hlower.stage_ne

/-- A stage that adjusts responses is given what the stages below it returned with. -/
theorem given_eq_response (h : Course (roles.zipIdx i) log result)
    (hk : (Role.adjusts, k) ∈ roles.zipIdx i) :
    log.filterMap (Mark.given? k) = log.filterMap (Mark.response? (k + 1)) := by
  induction roles generalizing i log result with
  | nil => cases h
  | cons role roles ih =>
    rw [List.zipIdx_cons] at h hk
    rcases List.mem_cons.mp hk with heq | hbelow
    · cases heq
      cases h with
      | turned hturns => cases hturns
      | @passed _ _ _ early lower given late _ hpasses hlower =>
        have hown : lower.filterMap (Mark.given? k) = [] := by
          rw [List.filterMap_eq_nil_iff]
          exact fun m hm => Mark.given?_none (hlower.stage_ne m hm)
        rw [filterMap_framed fun m hm => Mark.response?_none (by omega), hlower.response_first]
        cases hpasses <;>
          simp [framed, List.filterMap_cons, -List.filterMap_eq_nil_iff, Mark.given?, hown,
            Except.toOption]
    · have hlt : i < k := List.le_snd_of_mem_zipIdx hbelow
      cases h with
      | turned _ =>
        rw [filterMap_framed fun m hm => Mark.given?_none (by omega),
          filterMap_framed fun m hm => Mark.response?_none (by omega)]
        rfl
      | passed _ hlower =>
        rw [filterMap_framed fun m hm => Mark.given?_none (by omega),
          filterMap_framed fun m hm => Mark.response?_none (by omega)]
        exact ih hlower hbelow

theorem response_once (h : Course (roles.zipIdx i) log result) (k : Nat) :
    (log.filterMap (Mark.response? k)).length ≤ 1 := by
  induction roles generalizing i log result with
  | nil => cases h
  | cons role roles ih =>
    by_cases hk : k = i
    · subst hk
      rw [h.response_first]
      cases result <;> simp [Except.toOption]
    · rw [List.zipIdx_cons] at h
      cases h with
      | turned _ =>
        rw [filterMap_framed fun m hm => Mark.response?_none (by omega)]
        exact Nat.zero_le 1
      | passed _ hlower =>
        rw [filterMap_framed fun m hm => Mark.response?_none (by omega)]
        exact ih hlower

/-! ### Failures on their way up -/

/-- What a stage makes of what the stages below it returned with. -/
theorem returned_above {given : Except Failure Response} (h : Course (roles.zipIdx i) log result)
    (hk : i ≤ k) (hgiven : .returned (k + 1) given ∈ log) :
    ∃ role early late r, Passes role early given late r ∧ .returned k r ∈ log ∧
      ∀ d ∈ late, .did k d ∈ log := by
  induction roles generalizing i log result with
  | nil => cases h
  | cons role roles ih =>
    rw [List.zipIdx_cons] at h
    have hne : (Mark.returned (k + 1) given).stage ≠ i := by
      show k + 1 ≠ i
      omega
    cases h with
    | turned _ =>
      rw [mem_framed_of_ne hne] at hgiven
      cases hgiven
    | @passed _ _ _ early lower given' late _ hpasses hlower =>
      rw [mem_framed_of_ne hne] at hgiven
      rcases Nat.eq_or_lt_of_le hk with rfl | hlt
      · rw [hlower.returned_unique hgiven hlower.returned_mem]
        exact ⟨role, early, late, result, hpasses, last_mem, fun _ => late_mem⟩
      · obtain ⟨other, early', late', r, hother, hreturned, hlate⟩ := ih hlower hlt hgiven
        exact ⟨other, early', late', r, hother, lower_mem hreturned,
          fun d hd => lower_mem (hlate d hd)⟩

/-- Only a stage that wraps the rest sees what the rest came to, and it returns with what it made of
that. -/
theorem returned_of_resumed {given r : Except Failure Response}
    (h : Course (roles.zipIdx i) log result) (hd : .did k (.resumed given r) ∈ log) :
    (Role.wraps, k) ∈ roles.zipIdx i ∧ .returned k r ∈ log := by
  induction roles generalizing i log result with
  | nil => cases h
  | cons role roles ih =>
    rw [List.zipIdx_cons] at h ⊢
    by_cases hk : k = i
    · subst hk
      cases h with
      | turned hturns =>
        cases hturns <;> simp [mem_framed] at hd
      | passed hpasses hlower =>
        have hown : ∀ d, Mark.did k d ∉ _ := fun d hd => hlower.stage_ne _ hd rfl
        cases hpasses <;> simp [mem_framed, hown] at hd
        obtain ⟨rfl, rfl⟩ := hd
        exact ⟨.head _, mem_framed.mpr (by simp)⟩
    · cases h with
      | turned _ =>
        rw [mem_framed_of_ne (m := .did k _) hk] at hd
        cases hd
      | passed _ hlower =>
        rw [mem_framed_of_ne (m := .did k _) hk] at hd
        obtain ⟨hwraps, hreturned⟩ := ih hlower hd
        exact ⟨.tail _ hwraps, lower_mem hreturned⟩

/-- A failure travels up until some stage makes a response of it. -/
theorem failure_rises (h : Course (roles.zipIdx i) log result) (hk : i ≤ k) {n : Nat} {f : Failure}
    (hfailed : .returned (k + n) (.error f) ∈ log)
    (hturn : ∀ j, k ≤ j → j < k + n → ¬Recovers log j) : ∃ f, .returned k (.error f) ∈ log := by
  induction n generalizing f with
  | zero => exact ⟨f, hfailed⟩
  | succ n ih =>
    obtain ⟨role, early, late, r, hpasses, hreturned, hlate⟩ :=
      h.returned_above (k := k + n) (by omega) hfailed
    have hrest : ∀ j, k ≤ j → j < k + n → ¬Recovers log j :=
      fun j hj hlt => hturn j hj (by omega)
    cases hpasses with
    | passed => exact ih hreturned hrest
    | resumed =>
      cases r with
      | error f' => exact ih hreturned hrest
      | ok response =>
        exact absurd ⟨f, response, hlate _ (.head _)⟩ (hturn (k + n) (by omega) (by omega))
    | passedOver => exact ih hreturned hrest
    | idled => exact ih hreturned hrest

/-- A response travels up unless some stage fails. -/
theorem response_rises (h : Course (roles.zipIdx i) log result) (hk : i ≤ k) {n : Nat}
    {r : Response} (hreturned : .returned (k + n) (.ok r) ∈ log)
    (hclean : ∀ j, k ≤ j → j < k + n → ∀ d, .did j d ∈ log → d.fails = false) :
    ∃ r, .returned k (.ok r) ∈ log := by
  induction n generalizing r with
  | zero => exact ⟨r, hreturned⟩
  | succ n ih =>
    obtain ⟨role, early, late, r', hpasses, habove, hlate⟩ :=
      h.returned_above (k := k + n) (by omega) hreturned
    have hrest : ∀ j, k ≤ j → j < k + n → ∀ d, .did j d ∈ log → d.fails = false :=
      fun j hj hlt => hclean j hj (by omega)
    cases hpasses with
    | passed => exact ih habove hrest
    | resumed =>
      cases r' with
      | error f =>
        have hfails := hclean (k + n) (by omega) (by omega) _ (hlate _ (.head _))
        cases hfails
      | ok response => exact ih habove hrest
    | adjusted _ adjustment =>
      cases adjustment with
      | error c =>
        have hfails := hclean (k + n) (by omega) (by omega) _ (hlate _ (.head _))
        cases hfails
      | ok response => exact ih habove hrest
    | idled => exact ih habove hrest

/-- A stage that adjusts responses is passed over by the failures below it. -/
theorem given_of_failed (h : Course (roles.zipIdx i) log result)
    (hk : (Role.adjusts, k) ∈ roles.zipIdx i) {j : Nat} (hj : k < j) {f : Failure}
    (hfailed : .returned j (.error f) ∈ log) (hturn : ∀ m, k < m → m < j → ¬Recovers log m) :
    log.filterMap (Mark.given? k) = [] := by
  have hik : i ≤ k := List.le_snd_of_mem_zipIdx hk
  obtain ⟨n, rfl⟩ := Nat.exists_eq_add_of_lt hj
  rw [Nat.add_right_comm] at hfailed hturn
  obtain ⟨f', hf⟩ := h.failure_rises (k := k + 1) (by omega) hfailed hturn
  rw [h.given_eq_response hk, List.filterMap_eq_nil_iff]
  intro m hm
  cases hresponse : m.response? (k + 1) with
  | none => rfl
  | some r =>
    rw [Mark.response?_some hresponse] at hm
    cases h.returned_unique hf hm

/-- Above a stage that made a response of a failure, responses are adjusted again. -/
theorem given_of_recovers (h : Course (roles.zipIdx i) log result)
    (hk : (Role.adjusts, k) ∈ roles.zipIdx i) {j : Nat} (hj : k < j) (hturn : Recovers log j)
    (hclean : ∀ m, k < m → m < j → ∀ d, .did m d ∈ log → d.fails = false) :
    ∃ r, log.filterMap (Mark.given? k) = [r] := by
  have hik : i ≤ k := List.le_snd_of_mem_zipIdx hk
  obtain ⟨f, r, hresumed⟩ := hturn
  obtain ⟨-, hreturned⟩ := h.returned_of_resumed hresumed
  obtain ⟨n, rfl⟩ := Nat.exists_eq_add_of_lt hj
  rw [Nat.add_right_comm] at hreturned hclean
  obtain ⟨r', hr'⟩ := h.response_rises (k := k + 1) (by omega) hreturned hclean
  have hmem : r' ∈ log.filterMap (Mark.response? (k + 1)) :=
    List.mem_filterMap.mpr ⟨_, hr', if_pos rfl⟩
  rw [h.given_eq_response hk]
  exact List.length_eq_one_iff.mp
    (Nat.le_antisymm (h.response_once (k + 1)) (List.length_pos_of_mem hmem))

end Course

end Exchange.Pipeline
