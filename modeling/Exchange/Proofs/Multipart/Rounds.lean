import Exchange.Multipart.Flow
import Mathlib

/-!
A flow that is called in rounds.

In a round a fragment arrives, it completes a part or does not, and the flow is refilled. Demand may
come at any time, between two rounds or in the middle of one. `Called` is all that such calls bring
about, beside what they add up to. Two counters have to agree at every moment of it (`Paced`), and
each call moves them as far as it says (`Exact`): nothing but the count of the parts that are owed
ever stops at the largest number, and nothing depends on whether it has (`rounds_paced`).
-/
namespace Exchange.Multipart.Flow

/-- Where a flow is in its round. -/
inductive Moment where
  | between
  /-- a fragment has arrived and may complete a part -/
  | arrived
  /-- it has completed one -/
  | delivered
  deriving DecidableEq, Repr

/-- What the calls of a flow add up to. -/
structure Sums where
  /-- the parts asked for -/
  demanded : Nat := 0
  /-- the fragments to request of the supply, as the flow told -/
  requested : Nat := 0
  /-- the fragments that were not refused -/
  arrived : Nat := 0
  delivered : Nat := 0
  deriving DecidableEq, Repr

/-- What calls bring about that keep to rounds. A refusal changes nothing, so the refill behind it
is one between two rounds. -/
inductive Called : Sums → Moment → Flow → Prop where
  | start : Called {} .between {}
  | demand {t : Sums} {m : Moment} {f : Flow} (n : UInt64) : Called t m f →
      Called { t with
        demanded := t.demanded + n.toNat
        requested := t.requested + (f.demand n.toNat).1 } m (f.demand n.toNat).2
  | arrive {t : Sums} {f g : Flow} : Called t .between f → f.arrive? = some g →
      Called { t with arrived := t.arrived + 1 } .arrived g
  | refuse {t : Sums} {f : Flow} : Called t .between f → f.arrive? = none → Called t .between f
  | deliver {t : Sums} {f g : Flow} : Called t .arrived f → f.deliver? = some g →
      Called { t with delivered := t.delivered + 1 } .delivered g
  | withhold {t : Sums} {f : Flow} : Called t .arrived f → f.deliver? = none →
      Called t .delivered f
  | refill {t : Sums} {m : Moment} {f : Flow} : Called t m f →
      Called { t with requested := t.requested + f.refill.1 } .between f.refill.2

/-! ### Single calls -/

variable {f g : Flow}

theorem demand_zero (f : Flow) : f.demand 0 = (0, f) := if_pos rfl

/-- Demand that comes while nothing is owed is passed on. -/
theorem demand_first {n : Nat} (hn : n ≠ 0) (howed : f.owed = 0) :
    f.demand n = (n, ⟨Count.add 0 n, Count.add f.outstanding n⟩) := by
  rw [demand, if_neg hn, howed, if_neg (Nat.lt_irrefl 0)]

/-- Later demand is only counted. -/
theorem demand_more {n : Nat} (hn : n ≠ 0) (howed : 0 < f.owed) :
    f.demand n = (0, { f with owed := Count.add f.owed n }) := by
  rw [demand, if_neg hn, if_pos howed]

theorem arrive?_eq_some (h : f.arrive? = some g) :
    g.outstanding + 1 = f.outstanding ∧ g.owed = f.owed := by
  unfold arrive? at h
  split at h
  · cases h
  · next hsome =>
    rw [← Option.some.inj h]
    exact ⟨Nat.succ_pred_eq_of_ne_zero hsome, rfl⟩

theorem deliver?_eq_some (h : f.deliver? = some g) :
    g.owed + 1 = f.owed ∧ g.outstanding = f.outstanding := by
  unfold deliver? at h
  split at h
  · cases h
  · next hsome =>
    rw [← Option.some.inj h]
    exact ⟨Nat.succ_pred_eq_of_ne_zero hsome, rfl⟩

theorem exists_deliver? (howed : 0 < f.owed) : ∃ g, f.deliver? = some g :=
  ⟨_, if_neg (Nat.ne_of_gt howed)⟩

theorem refill_eq (f : Flow) :
    f.outstanding < f.owed ∧ f.refill = (1, { f with outstanding := f.outstanding + 1 }) ∨
      f.owed ≤ f.outstanding ∧ f.refill = (0, f) := by
  rcases Nat.lt_or_ge f.outstanding f.owed with hless | hle
  · exact .inl ⟨hless, if_pos hless⟩
  · exact .inr ⟨hle, if_neg (Nat.not_lt.mpr hle)⟩

/-! ### Rounds -/

/-- The counters of a flow beside what its calls add up to. -/
structure Paced (t : Sums) (m : Moment) (f : Flow) : Prop where
  bound : f.outstanding ≤ f.owed
  counted : f.owed ≤ Count.top
  moving : m = .between → 0 < f.owed → 0 < f.outstanding
  /-- a fragment that has arrived was outstanding, for a part that is still owed -/
  room : m = .arrived → f.outstanding < f.owed
  supplied : t.requested = t.arrived + f.outstanding
  settled : t.demanded ≤ Count.top → f.owed + t.delivered = t.demanded

namespace Paced

variable {t : Sums} {m : Moment}

theorem start : Paced {} .between {} where
  bound := Nat.le_refl 0
  counted := Nat.zero_le _
  moving _ := id
  room := nofun
  supplied := rfl
  settled _ := rfl

theorem demand (h : Paced t m f) (n : UInt64) :
    Paced { t with
      demanded := t.demanded + n.toNat
      requested := t.requested + (f.demand n.toNat).1 } m (f.demand n.toNat).2 := by
  obtain ⟨hbound, hcounted, hmoving, hroom, hsupplied, hsettled⟩ := h
  have htop : n.toNat ≤ Count.top := Nat.le_pred_of_lt n.toNat_lt
  by_cases hn : n.toNat = 0
  · rw [hn, demand_zero]
    exact ⟨hbound, hcounted, hmoving, hroom, hsupplied, hsettled⟩
  rcases Nat.eq_zero_or_pos f.owed with howed | howed
  · have hnone : f.outstanding = 0 := Nat.le_zero.mp (howed ▸ hbound)
    have hadd : Count.add 0 n.toNat = n.toNat := by
      rw [Count.add_eq] <;> omega
    rw [demand_first hn howed, hnone, hadd]
    refine ⟨Nat.le_refl _, htop, fun _ => id, fun hm => ?_, ?_, fun hdemanded => ?_⟩
    · have := hroom hm
      omega
    · dsimp only
      omega
    · dsimp only at hdemanded ⊢
      have := hsettled (by omega)
      omega
  · have hle := Count.le_add (b := n.toNat) hcounted
    rw [demand_more hn howed]
    refine ⟨Nat.le_trans hbound hle, Count.add_le_top .., fun hm _ => hmoving hm howed,
      fun hm => Nat.lt_of_lt_of_le (hroom hm) hle, hsupplied, fun hdemanded => ?_⟩
    dsimp only at hdemanded ⊢
    have := hsettled (by omega)
    rw [Count.add_eq] <;> omega

theorem arrive (h : Paced t .between f) (harrive : f.arrive? = some g) :
    Paced { t with arrived := t.arrived + 1 } .arrived g := by
  obtain ⟨houtstanding, howed⟩ := arrive?_eq_some harrive
  obtain ⟨hbound, hcounted, -, -, hsupplied, hsettled⟩ := h
  refine ⟨by omega, by omega, nofun, fun _ => by omega, ?_, fun hdemanded => ?_⟩
  · dsimp only
    omega
  · rw [howed]
    exact hsettled hdemanded

theorem deliver (h : Paced t .arrived f) (hdeliver : f.deliver? = some g) :
    Paced { t with delivered := t.delivered + 1 } .delivered g := by
  obtain ⟨howed, houtstanding⟩ := deliver?_eq_some hdeliver
  have hroom := h.room rfl
  obtain ⟨-, hcounted, -, -, hsupplied, hsettled⟩ := h
  refine ⟨by omega, by omega, nofun, nofun, ?_, fun hdemanded => ?_⟩
  · rw [houtstanding]
    exact hsupplied
  · dsimp only at hdemanded ⊢
    have := hsettled hdemanded
    omega

/-- A part can be delivered of every fragment that has arrived. -/
theorem delivers (h : Paced t .arrived f) : ∃ g, f.deliver? = some g :=
  exists_deliver? (Nat.zero_lt_of_lt (h.room rfl))

theorem refill (h : Paced t m f) :
    Paced { t with requested := t.requested + f.refill.1 } .between f.refill.2 := by
  obtain ⟨hbound, hcounted, -, -, hsupplied, hsettled⟩ := h
  rcases refill_eq f with ⟨hless, hrefill⟩ | ⟨hle, hrefill⟩
  · rw [hrefill]
    refine ⟨hless, hcounted, fun _ _ => Nat.succ_pos _, nofun, ?_, hsettled⟩
    dsimp only
    omega
  · rw [hrefill]
    exact ⟨hbound, hcounted, fun _ howed => Nat.lt_of_lt_of_le howed hle, nofun, hsupplied,
      hsettled⟩

end Paced

theorem Called.paced {t : Sums} {m : Moment} (h : Called t m f) : Paced t m f := by
  induction h with
  | start => exact .start
  | demand n _ ih => exact ih.demand n
  | arrive _ harrive ih => exact ih.arrive harrive
  | refuse _ _ ih => exact ih
  | deliver _ hdeliver ih => exact ih.deliver hdeliver
  | withhold _ hnone ih =>
    obtain ⟨g, hdeliver⟩ := ih.delivers
    rw [hnone] at hdeliver
    cases hdeliver
  | refill _ ih => exact ih.refill

/-- Every call moves the counters of a flow by as much as it says. Only the count of the parts that
are owed stops at the largest number. -/
structure Exact (f : Flow) : Prop where
  demand : ∀ n : UInt64, (f.demand n.toNat).2 =
    ⟨min (f.owed + n.toNat) (2 ^ 64 - 1), f.outstanding + (f.demand n.toNat).1⟩
  arrive : ∀ g, f.arrive? = some g → f = { g with outstanding := g.outstanding + 1 }
  deliver : ∀ g, f.deliver? = some g → f = { g with owed := g.owed + 1 }
  refill : f.refill.2 = { f with outstanding := f.outstanding + f.refill.1 }

theorem Paced.exact {t : Sums} {m : Moment} (h : Paced t m f) : f.Exact where
  demand n := by
    have htop : n.toNat ≤ Count.top := Nat.le_pred_of_lt n.toNat_lt
    have hcounted := h.counted
    by_cases hn : n.toNat = 0
    · have hmin : min f.owed (2 ^ 64 - 1) = f.owed := Nat.min_eq_left hcounted
      rw [hn, demand_zero, Nat.add_zero, Nat.add_zero, hmin]
    rcases Nat.eq_zero_or_pos f.owed with howed | howed
    · have hnone : f.outstanding = 0 := Nat.le_zero.mp (howed ▸ h.bound)
      have hadd : Count.add 0 n.toNat = 0 + n.toNat := Count.add_eq (by omega)
      have hmin : min (0 + n.toNat) (2 ^ 64 - 1) = 0 + n.toNat :=
        Nat.min_eq_left (by rwa [Nat.zero_add])
      rw [demand_first hn howed, howed, hnone, hadd, hmin]
    · rw [demand_more hn howed]
      rfl
  arrive g harrive := by
    obtain ⟨houtstanding, howed⟩ := arrive?_eq_some harrive
    rw [houtstanding, howed]
  deliver g hdeliver := by
    obtain ⟨howed, houtstanding⟩ := deliver?_eq_some hdeliver
    rw [howed, houtstanding]
  refill := by
    rcases refill_eq f with ⟨-, hrefill⟩ | ⟨-, hrefill⟩
    · rw [hrefill]
    · rw [hrefill, Nat.add_zero]

/-- **Rounds.** Whatever sequence of calls keeps to rounds, at every moment of it no more fragments
are outstanding than parts are owed, and none of the counts needs more than 64 bits. Between two
rounds a fragment is outstanding as soon as a part is owed. Whenever a fragment has arrived a part
can be delivered. The fragments that the flow told to request have arrived or are outstanding, and
the parts asked for have been delivered or are owed, provided their number fits into 64 bits. From
there, each call moves the counters by as much as it says. -/
theorem rounds_paced {t : Sums} {m : Moment} (h : Called t m f) :
    f.outstanding ≤ f.owed ∧ f.owed < 2 ^ 64 ∧
      (m = .between → 0 < f.owed → 0 < f.outstanding) ∧
      (m = .arrived → ∃ g, f.deliver? = some g) ∧
      t.requested = t.arrived + f.outstanding ∧
      (t.demanded < 2 ^ 64 → f.owed + t.delivered = t.demanded) ∧
      f.Exact := by
  have hpaced := h.paced
  refine ⟨hpaced.bound, Nat.lt_succ_of_le hpaced.counted, hpaced.moving, ?_, hpaced.supplied,
    fun hdemanded => hpaced.settled (Nat.le_of_lt_succ hdemanded), hpaced.exact⟩
  rintro rfl
  exact hpaced.delivers

/-- The consumer asks for almost as many parts as can be counted, and for more in the middle of a
round, both before a part is delivered and behind it. -/
theorem rounds_paced_brimming :
    ∃ (t : Sums) (f : Flow), Called t .delivered f ∧
      t = ⟨2 ^ 64 + 14, 2 ^ 64 - 2, 1, 1⟩ ∧ f = ⟨2 ^ 64 - 1, 2 ^ 64 - 3⟩ ∧
      f.outstanding ≤ f.owed ∧ t.requested = t.arrived + f.outstanding ∧
      (f.demand 5).2 = ⟨min (f.owed + 5) (2 ^ 64 - 1), f.outstanding + (f.demand 5).1⟩ := by
  have hfirst := Called.start.demand 18446744073709551614
  have harrived := Called.arrive (g := ⟨2 ^ 64 - 2, 2 ^ 64 - 3⟩) hfirst (by decide +kernel)
  have hdelivered := Called.deliver (g := ⟨2 ^ 64 - 2, 2 ^ 64 - 3⟩) (harrived.demand 9)
    (by decide +kernel)
  have hcalled := hdelivered.demand 7
  obtain ⟨hbound, -, -, -, hsupplied, -, hexact⟩ := rounds_paced hcalled
  exact ⟨_, _, hcalled, by decide +kernel, by decide +kernel, hbound, hsupplied, hexact.demand 5⟩

end Exchange.Multipart.Flow
