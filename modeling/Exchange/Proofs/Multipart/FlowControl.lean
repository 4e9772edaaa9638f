import Exchange.Multipart.Replay
import Exchange.Proofs.Multipart.Driven
import Mathlib

/-!
Demand for parts and demand for fragments stay in step.

As long as a demultiplexer runs, no more fragments are outstanding than parts are owed, and there is
one outstanding as soon as a part is owed; what was requested of the supply has been taken or is
outstanding; and what the consumer asked for has been delivered or is owed (`flow_control`). So a
demultiplexer never asks for too much and never comes to a halt by itself. It also never takes a
fragment that it did not request, nor completes a part that nobody wants: both faults are the
supply's own if they are reported at all.
-/
namespace Exchange.Multipart

/-- An element of an extended list is the new one, or it is in front of that. -/
theorem snoc_split {α : Type} {xs before after : List α} {x last : α}
    (h : xs ++ [last] = before ++ x :: after) :
    (after = [] ∧ xs = before ∧ last = x) ∨
      ∃ init, after = init ++ [last] ∧ xs = before ++ x :: init := by
  rcases List.eq_nil_or_concat after with rfl | ⟨init, back, rfl⟩
  · obtain ⟨rfl, hlast⟩ := List.append_inj' h rfl
    exact .inl ⟨rfl, rfl, List.singleton_inj.mp hlast⟩
  · rw [List.concat_eq_append, ← List.cons_append, ← List.append_assoc] at h
    obtain ⟨hinit, hlast⟩ := List.append_inj' h rfl
    exact .inr ⟨init, by rw [List.singleton_inj.mp hlast, List.concat_eq_append], hinit⟩

/-- Each poll among some calls came when more fragments had been requested than taken. -/
def PolledInCredit (calls : List Call) : Prop :=
  ∀ before answer after, calls = before ++ .poll answer :: after →
    (takenOf before).length < grantedOf before

theorem PolledInCredit.concat {calls : List Call} {c : Call} (h : PolledInCredit calls)
    (hc : ∀ answer, c = .poll answer → (takenOf calls).length < grantedOf calls) :
    PolledInCredit (calls ++ [c]) := by
  intro before answer after he
  rcases snoc_split he with ⟨rfl, rfl, hlast⟩ | ⟨init, rfl, hinit⟩
  · exact hc answer hlast
  · exact h before answer init hinit

/-- A call that is no poll needs no credit. -/
theorem PolledInCredit.concat_other {calls : List Call} {c : Call} (h : PolledInCredit calls)
    (hc : c.answer? = none) : PolledInCredit (calls ++ [c]) := by
  refine h.concat fun answer he => ?_
  rw [he] at hc
  cases hc

/-- What a fragment that is taken in does to the counters, before more is requested. -/
theorem Demux.accept_flow {σ : Type} [Supply σ] {f : Fragment} {part : Option Part}
    {d d' : Demux σ} (houtstanding : 0 < d.flow.outstanding) (howed : 0 < d.flow.owed)
    (ha : d.accept f = (.ok part, d')) :
    ∃ d₁ : Demux σ, d₁.source = Pool.giveBack f.data d.source ∧
      d₁.flow.outstanding + 1 = d.flow.outstanding ∧
      d₁.flow.owed + part.toList.length = d.flow.owed ∧ d₁.terminated = d.terminated ∧
      d' = d₁.refill := by
  obtain ⟨flow, grown, d₁, harrive, hc, rfl⟩ := Demux.accept_ok ha
  have hflow : flow = { d.flow with outstanding := d.flow.outstanding - 1 } := by
    simp only [Flow.arrive?, Nat.ne_of_gt houtstanding, if_false] at harrive
    exact (Option.some.inj harrive).symm
  subst hflow
  have hcounts : d₁.flow.outstanding = d.flow.outstanding - 1 ∧
      d₁.flow.owed + part.toList.length = d.flow.owed := by
    cases part with
    | none =>
      rw [hc.flow rfl]
      exact ⟨rfl, rfl⟩
    | some p =>
      have hd := hc.delivered (Option.some_ne_none p)
      simp only [Flow.deliver?, Nat.ne_of_gt howed, if_false] at hd
      rw [← Option.some.inj hd]
      exact ⟨rfl, Nat.sub_add_cancel howed⟩
  exact ⟨d₁, hc.source, by omega, hcounts.2, hc.terminated, rfl⟩

/-- The counters of a demultiplexer that runs, beside the calls that reached its supply. -/
structure InStep {σ : Type} (d : Demux (Watched σ)) : Prop where
  bound : d.flow.outstanding ≤ d.flow.owed
  moving : 0 < d.flow.owed → 0 < d.flow.outstanding
  counted : d.flow.owed ≤ Count.top
  granted : grantedOf d.source.calls = (takenOf d.source.calls).length + d.flow.outstanding
  polled : PolledInCredit d.source.calls

theorem InStep.start {σ : Type} (limits : Limits) (s : σ) :
    InStep { source := (⟨s, []⟩ : Watched σ), limits } where
  bound := Nat.le_refl 0
  moving := id
  counted := Nat.zero_le _
  granted := rfl
  polled := fun _ _ _ he => absurd he (by simp)

namespace InStep

variable {σ : Type} [Supply σ] {d d' : Demux (Watched σ)} {s : Watched σ}

/-! ### Requests -/

/-- Demand is passed on in full while nothing is owed. -/
theorem request_first {n : Nat} (h : InStep d) (ht : d.terminated = false) (hn : n ≠ 0)
    (htop : n ≤ Count.top) (howed : d.flow.owed = 0) :
    InStep (d.request n) ∧ (d.request n).flow.owed = n := by
  have hnone : d.flow.outstanding = 0 := Nat.le_zero.mp (howed ▸ h.bound)
  have hadd : Count.add 0 n = n := by
    rw [Count.add_eq] <;> omega
  have hgranted := h.granted
  rw [hnone, Nat.add_zero] at hgranted
  rw [Demux.request_first ht hn howed, hnone, hadd]
  refine ⟨⟨Nat.le_refl n, id, htop, ?_, h.polled.concat_other rfl⟩, rfl⟩
  rw [Watched.calls_request, grantedOf_append, takenOf_append, hgranted]
  simp

/-- Demand that comes while parts are owed is left to the fragments that are outstanding. -/
theorem request_more {n : Nat} (h : InStep d) (ht : d.terminated = false) (hn : n ≠ 0)
    (howed : 0 < d.flow.owed) :
    InStep (d.request n) ∧ (d.request n).flow.owed = Count.add d.flow.owed n := by
  rw [Demux.request_more ht hn howed]
  have hle := Count.le_add (b := n) h.counted
  exact ⟨⟨Nat.le_trans h.bound hle, fun _ => h.moving howed, Count.add_le_top .., h.granted,
    h.polled⟩, rfl⟩

theorem request (h : InStep d) (ht : d.terminated = false) (n : UInt64) :
    InStep (d.request n.toNat) := by
  by_cases hn : n.toNat = 0
  · rw [hn, Demux.request_zero]
    exact h
  · rcases Nat.eq_zero_or_pos d.flow.owed with howed | howed
    · exact (h.request_first ht hn (Nat.le_pred_of_lt n.toNat_lt) howed).1
    · exact (h.request_more ht hn howed).1

/-! ### Fragments -/

/-- A poll that brings no fragment. -/
theorem polled_other {answer : Delivery} (h : InStep d) (howed : 0 < d.flow.owed)
    (hp : Supply.poll d.source = (answer, s)) (hnone : answer.fragment? = none) :
    InStep { d with source := s } := by
  have hgranted := h.granted
  have hmoving := h.moving howed
  refine ⟨h.bound, h.moving, h.counted, ?_, ?_⟩
  · rw [Watched.calls_poll hp, grantedOf_append, takenOf_append, takenOf_poll hnone, hgranted]
    simp
  · show PolledInCredit s.calls
    rw [Watched.calls_poll hp]
    exact h.polled.concat fun _ _ => by omega

/-- A fragment that is taken in uses up one of those outstanding, and the part that it completes one
of those owed. -/
theorem accept {f : Fragment} {part : Option Part} (h : InStep d) (howed : 0 < d.flow.owed)
    (hp : Supply.poll d.source = (.fragment f, s))
    (ha : { d with source := s }.accept f = (.ok part, d')) :
    InStep d' ∧ d'.flow.owed + part.toList.length = d.flow.owed ∧
      d'.terminated = d.terminated := by
  have hmoving := h.moving howed
  have hbound := h.bound
  have hgranted := h.granted
  have hcounted := h.counted
  obtain ⟨d₁, hsource, houtstanding, hpart, hterminated, rfl⟩ :=
    Demux.accept_flow (d := { d with source := s }) hmoving howed ha
  dsimp only at houtstanding hpart
  have hcalls : d₁.source.calls = d.source.calls ++ [.poll (.fragment f)] := by
    rw [hsource, Watched.calls_giveBack]
    exact Watched.calls_poll hp
  have hpolled : PolledInCredit d₁.source.calls := by
    rw [hcalls]
    exact h.polled.concat fun _ _ => by omega
  have htaken : grantedOf d₁.source.calls + 1 =
      (takenOf d₁.source.calls).length + d.flow.outstanding := by
    rw [hcalls, grantedOf_append, takenOf_append, hgranted]
    simp
    omega
  have hone : part.toList.length ≤ 1 := by
    cases part <;> simp
  rcases Nat.lt_or_ge d₁.flow.outstanding d₁.flow.owed with hlt | hge
  · rw [Demux.refill_first hlt]
    refine ⟨⟨hlt, fun _ => Nat.succ_pos _, ?_, ?_, hpolled.concat_other rfl⟩, hpart,
      hterminated⟩
    · show d₁.flow.owed ≤ Count.top
      omega
    · rw [Watched.calls_request, grantedOf_append, takenOf_append]
      simp
      omega
  · rw [Demux.refill_none hge]
    exact ⟨⟨by omega, by omega, by omega, by omega, hpolled⟩, hpart, hterminated⟩

/-! ### Polls -/

/-- What a poll leaves behind that found `owed` parts owed. -/
inductive Answered (owed : Nat) : Outcome → Demux (Watched σ) → Prop where
  | waiting {e : Demux (Watched σ)} : InStep e → e.flow.owed = owed → Answered owed .waiting e
  | part {e : Demux (Watched σ)} (p : Part) : InStep e → e.terminated = false →
      e.flow.owed + 1 = owed → Answered owed (.part p) e
  | finished {e : Demux (Watched σ)} : PolledInCredit e.source.calls → e.terminated = true →
      Answered owed .finished e
  | fault {e : Demux (Watched σ)} (fault : Fault) : PolledInCredit e.source.calls →
      e.terminated = true →
      (∀ reason, fault = .supply reason → .failed fault ∈ answersOf e.source.calls) →
      Answered owed (.fault fault) e
  | panicked {e : Demux (Watched σ)} (m : String) : PolledInCredit e.source.calls →
      Answered owed (.panicked m) e

omit [Supply σ] in
theorem Answered.polled {owed : Nat} {o : Outcome} (h : Answered owed o d) :
    PolledInCredit d.source.calls := by
  cases h with
  | waiting hin _ => exact hin.polled
  | part _ hin _ _ => exact hin.polled
  | finished hp _ => exact hp
  | fault _ hp _ _ => exact hp
  | panicked _ hp => exact hp

/-- A fragment that is refused was requested like any other. -/
theorem polled_refused {f : Fragment} {e : Refusal} (h : InStep d) (howed : 0 < d.flow.owed)
    (hp : Supply.poll d.source = (.fragment f, s))
    (ha : { d with source := s }.accept f = (.error e, d')) :
    PolledInCredit d'.source.calls := by
  have hgranted := h.granted
  have hmoving := h.moving howed
  rw [Demux.accept_error ha, Watched.calls_giveBack, Watched.calls_poll hp]
  exact h.polled.concat fun _ _ => by omega

/-- A poll while parts are owed. -/
theorem pull (h : InStep d) (ht : d.terminated = false) (howed : 0 < d.flow.owed) :
    Answered d.flow.owed d.pull.1 d.pull.2 := by
  refine Demux.pull_rule
    (fun e => InStep e ∧ e.terminated = false ∧ e.flow.owed = d.flow.owed)
    (Answered d.flow.owed) ?_ ?_ ?_ ?_ ?_ ?_ ?_ d ⟨h, ht, rfl⟩
  · rintro e s ⟨he, het, heq⟩ hp
    exact .waiting (he.polled_other (heq ▸ howed) hp rfl) heq
  · rintro e fault s ⟨he, het, heq⟩ hp
    have hnext := he.polled_other (heq ▸ howed) hp rfl
    refine .fault fault (hnext.polled.concat_other rfl) rfl fun reason _ => ?_
    show _ ∈ answersOf (Supply.cancel s).calls
    rw [Watched.calls_cancel, Watched.calls_poll hp, answersOf_append, answersOf_append]
    simp
  · rintro e s ⟨he, het, heq⟩ hp
    exact .finished (he.polled_other (heq ▸ howed) hp rfl).polled rfl
  · rintro e f s fault e' ⟨he, het, heq⟩ hp ha
    have hpolled := he.polled_refused (heq ▸ howed) hp ha
    refine .fault fault (hpolled.concat_other rfl) rfl fun reason ho => ?_
    exact absurd ho (Demux.accept_fault ha (he.moving (heq ▸ howed)) (heq ▸ howed) reason)
  · rintro e f s m e' ⟨he, het, heq⟩ hp ha
    exact .panicked m (he.polled_refused (heq ▸ howed) hp ha)
  · rintro e f s p e' ⟨he, het, heq⟩ hp ha
    obtain ⟨he', howed', ht'⟩ := he.accept (heq ▸ howed) hp ha
    exact .part p he' (ht'.trans het) (howed'.trans heq)
  · rintro e f s e' ⟨he, het, heq⟩ hp ha
    obtain ⟨he', howed', ht'⟩ := he.accept (heq ▸ howed) hp ha
    exact ⟨he', ht'.trans het, howed'.trans heq⟩

theorem next_enabled (h : InStep d) (ht : d.terminated = false) (he : d.limits.enabled = true) :
    Answered (max d.flow.owed 1) d.next.1 d.next.2 := by
  rcases Nat.eq_zero_or_pos d.flow.owed with howed | howed
  · obtain ⟨hfirst, hone⟩ := h.request_first (n := 1) ht (by decide) (by decide) howed
    have hterm : (d.request 1).terminated = false := by
      rw [Demux.request_first ht (by decide) howed]
      exact ht
    have hpull := hfirst.pull hterm (by omega)
    rw [hone, ← Demux.next_idle ht he howed] at hpull
    rw [howed]
    exact hpull
  · have hpull := h.pull ht howed
    rw [← Demux.next_owed ht he (Nat.ne_of_gt howed)] at hpull
    rw [Nat.max_eq_left howed]
    exact hpull

theorem next_disabled (h : InStep d) (ht : d.terminated = false)
    (he : d.limits.enabled = false) (owed : Nat) : Answered owed d.next.1 d.next.2 := by
  rw [Demux.next_disabled ht he]
  refine .fault .disabled (h.polled.concat_other rfl) rfl fun reason hreason => ?_
  cases hreason

/-- A poll of a demultiplexer that runs. One part is requested first if none is owed. -/
theorem next (h : InStep d) (ht : d.terminated = false) :
    Answered (max d.flow.owed 1) d.next.1 d.next.2 := by
  cases he : d.limits.enabled with
  | false => exact h.next_disabled ht he _
  | true => exact h.next_enabled ht he

end InStep

/-! ### A consumer's calls -/

variable {σ : Type} [Supply σ]

/-- A ledger beside the demultiplexer it was kept of. -/
structure Balanced (l : Ledger) (d : Demux (Watched σ)) : Prop where
  polled : PolledInCredit d.source.calls
  running : d.terminated = false → InStep d ∧ l.Faultless
  settled : d.terminated = false → l.demanded + l.unprompted ≤ Count.top →
    d.flow.owed + l.parts.length = l.demanded + l.unprompted
  supplied : ∀ reason, .fault (.supply reason) ∈ l.answers →
    .failed (.supply reason) ∈ answersOf d.source.calls

omit [Supply σ] in
/-- The ledger of a demultiplexer that has ended says only where its faults came from. -/
theorem Balanced.ended {l : Ledger} {d : Demux (Watched σ)} (ht : d.terminated = true)
    (hp : PolledInCredit d.source.calls)
    (hsupplied : ∀ reason, .fault (.supply reason) ∈ l.answers →
      .failed (.supply reason) ∈ answersOf d.source.calls) : Balanced l d := by
  have hrun : d.terminated ≠ false := by
    rw [ht]
    decide
  exact ⟨hp, fun h => absurd h hrun, fun h => absurd h hrun, hsupplied⟩

theorem Balanced.request {l : Ledger} {d : Demux (Watched σ)} (h : Balanced l d) (n : UInt64) :
    Balanced (l.request n) (d.request n.toNat) := by
  cases ht : d.terminated with
  | true =>
    rw [Demux.request_terminated ht]
    exact .ended ht h.polled h.supplied
  | false =>
    obtain ⟨hin, hclean⟩ := h.running ht
    have hnext := hin.request ht n
    refine ⟨hnext.polled, fun _ => ⟨hnext, hclean⟩, fun _ htop => ?_, fun reason hr =>
      absurd hr (hclean _)⟩
    simp only [Ledger.request] at htop ⊢
    have hsettled := h.settled ht (by omega)
    show (d.request n.toNat).flow.owed + l.parts.length = _
    by_cases hn : n.toNat = 0
    · rw [hn, Demux.request_zero]
      omega
    · rcases Nat.eq_zero_or_pos d.flow.owed with howed | howed
      · rw [(hin.request_first ht hn (Nat.le_pred_of_lt n.toNat_lt) howed).2]
        omega
      · rw [(hin.request_more ht hn howed).2, Count.add_eq (by omega)]
        omega

/-- What a poll enters into a ledger. -/
theorem Balanced.answered {l : Ledger} {d : Demux (Watched σ)} {owed : Nat} (h : Balanced l d)
    (ht : d.terminated = false) (ha : InStep.Answered owed d.next.1 d.next.2)
    (howed : l.demanded + (l.poll d).unprompted ≤ Count.top →
      owed + l.parts.length = l.demanded + (l.poll d).unprompted)
    (hm : ∀ m, d.next.1 ≠ .panicked m) : Balanced (l.poll d) d.next.2 := by
  obtain ⟨-, hclean⟩ := h.running ht
  have hanswers : (l.poll d).answers = l.answers ++ [d.next.1] := rfl
  have hdemanded : (l.poll d).demanded = l.demanded := rfl
  have hparts := l.parts_poll d
  have hnew : ∀ {e}, .fault e ∈ (l.poll d).answers → d.next.1 = .fault e := by
    intro e he
    rw [hanswers] at he
    rcases List.mem_append.mp he with hold | hlast
    · exact absurd hold (hclean e)
    · exact (List.mem_singleton.mp hlast).symm
  generalize d.next = answer at *
  obtain ⟨o, d'⟩ := answer
  cases ha with
  | waiting hin heq =>
    have hnone : (l.poll d).Faultless := fun e he => by cases hnew he
    refine ⟨hin.polled, fun _ => ⟨hin, hnone⟩, fun _ htop => ?_, fun _ he => absurd he (hnone _)⟩
    rw [hparts, hdemanded, ← howed htop, heq]
    simp [Outcome.part?]
  | part p hin hrun heq =>
    have hnone : (l.poll d).Faultless := fun e he => by cases hnew he
    refine ⟨hin.polled, fun _ => ⟨hin, hnone⟩, fun _ htop => ?_, fun _ he => absurd he (hnone _)⟩
    rw [hparts, hdemanded, ← howed htop, ← heq]
    simp [Outcome.part?]
    omega
  | finished hp hterm => exact .ended hterm hp fun _ he => by cases hnew he
  | fault e hp hterm hsupplied =>
    refine .ended hterm hp fun reason he => ?_
    cases hnew he
    exact hsupplied reason rfl
  | panicked m _ => exact absurd rfl (hm m)

theorem Balanced.poll {l : Ledger} {d : Demux (Watched σ)} (h : Balanced l d)
    (hm : ∀ m, d.next.1 ≠ .panicked m) : Balanced (l.poll d) d.next.2 := by
  cases ht : d.terminated with
  | true =>
    rw [Demux.next_terminated ht]
    refine .ended ht h.polled fun reason hmem => h.supplied reason ?_
    simpa [Ledger.poll, Demux.next_terminated ht] using hmem
  | false =>
    obtain ⟨hin, -⟩ := h.running ht
    refine h.answered ht (hin.next ht) (fun htop => ?_) hm
    rcases Nat.eq_zero_or_pos d.flow.owed with howed | howed
    · simp only [Ledger.poll, ht, howed, Bool.not_false, decide_true, Bool.true_and,
        if_true] at htop ⊢
      have hsettled := h.settled ht (by omega)
      omega
    · simp only [Ledger.poll, Nat.ne_of_gt howed, decide_false, Bool.and_false,
        Bool.false_eq_true, if_false] at htop ⊢
      have hsettled := h.settled ht htop
      omega

theorem Driven.balanced {limits : Limits} {s : σ} {l : Ledger} {d : Demux (Watched σ)}
    (h : Driven limits (⟨s, []⟩ : Watched σ) l d) : Balanced l d := by
  induction h with
  | start =>
    have hstart := InStep.start limits s
    exact ⟨hstart.polled, fun _ => ⟨hstart, fun _ => List.not_mem_nil⟩, fun _ _ => rfl,
      fun _ he => absurd he List.not_mem_nil⟩
  | request n _ ih => exact ih.request n
  | poll _ hm ih => exact ih.poll hm

/-- **Flow control.** In every state of a demultiplexer that runs, the fragments outstanding are
bounded by the parts owed and there are some if there are parts owed; what was requested of the
supply was taken or is outstanding; and while the demand can be counted, what was demanded was
delivered or is owed. In every state at all, each poll of the supply came while a fragment was
outstanding, those of the next poll included, however it ends; a poll that delivers a part takes it
from those owed; and every fault of the supply that was reported came from the supply. -/
theorem flow_control {limits : Limits} {s : σ} {l : Ledger} {d : Demux σ}
    (h : Driven limits s l d) :
    ∃ w : Demux (Watched σ), Driven limits ⟨s, []⟩ l w ∧ w.map Watched.source = d ∧
      (d.terminated = false →
        d.flow.outstanding ≤ d.flow.owed ∧ (0 < d.flow.outstanding ↔ 0 < d.flow.owed) ∧
        grantedOf w.source.calls = (takenOf w.source.calls).length + d.flow.outstanding ∧
        (l.demanded + l.unprompted < 2 ^ 64 →
          d.flow.owed + l.parts.length = l.demanded + l.unprompted)) ∧
      PolledInCredit w.source.calls ∧ PolledInCredit w.next.2.source.calls ∧
      (∀ p, d.next.1 = .part p → d.next.2.flow.owed + 1 = max d.flow.owed 1) ∧
      (∀ reason, .fault (.supply reason) ∈ l.answers →
        .failed (.supply reason) ∈ answersOf w.source.calls) := by
  obtain ⟨w, hw, rfl⟩ := h.watched
  have hb := hw.balanced
  rw [Demux.map_next Watched.faithful]
  refine ⟨w, hw, rfl, ?_⟩
  show (w.terminated = false → _) ∧ _
  cases ht : w.terminated with
  | true =>
    rw [Demux.next_terminated ht]
    refine ⟨fun hrun => ?_, hb.polled, hb.polled, fun p hp => ?_, hb.supplied⟩
    · cases hrun
    · cases hp
  | false =>
    obtain ⟨hin, -⟩ := hb.running ht
    have hbound := hin.bound
    have hnext := hin.next ht
    refine ⟨fun _ => ⟨hbound, ⟨fun ho => Nat.lt_of_lt_of_le ho hbound, hin.moving⟩, hin.granted,
      fun htop => hb.settled ht (Nat.le_of_lt_succ htop)⟩, hb.polled, hnext.polled, fun p hp => ?_,
      hb.supplied⟩
    dsimp only at hp
    rw [hp] at hnext
    cases hnext with
    | part _ _ _ heq => exact heq

/-- A supply that does not wait for demand. -/
def forward : Demux Replay where
  source := .ofEvents
    [.fragment ⟨{ name := "a" }, { bytes := [1] }, false⟩,
      .fragment ⟨{ name := "a" }, { bytes := [2] }, true⟩,
      .fragment ⟨{ name := "b" }, { bytes := [3] }, true⟩] true true

theorem flow_control_forward :
    ∃ (l : Ledger) (d : Demux Replay) (w : Demux (Watched Replay)),
      Driven {} forward.source l d ∧ w.map Watched.source = d ∧ d.terminated = false ∧
      d.flow = ⟨1, 1⟩ ∧ grantedOf w.source.calls = (takenOf w.source.calls).length + 1 ∧
      1 + l.parts.length = l.demanded + l.unprompted := by
  have hstart : Driven {} forward.source {} forward := .start
  have hrequest := hstart.request 2
  have hpart : (forward.request (UInt64.toNat 2)).next.1 = .part ⟨{ name := "a" }, [1, 2]⟩ := by cbv
  have hrunning : (forward.request (UInt64.toNat 2)).next.2.terminated = false := by cbv
  have hflow : (forward.request (UInt64.toNat 2)).next.2.flow = ⟨1, 1⟩ := by cbv
  have hdriven := hrequest.poll (hpart ▸ nofun)
  obtain ⟨w, -, hw, hcounts, -⟩ := flow_control hdriven
  obtain ⟨-, -, hgranted, hsettled⟩ := hcounts hrunning
  rw [hflow] at hgranted hsettled
  exact ⟨_, _, w, hdriven, hw, hrunning, hflow, hgranted, hsettled (by decide +kernel)⟩

end Exchange.Multipart
