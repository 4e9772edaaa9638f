import Exchange.Proofs.Multipart.Attended
import Exchange.Proofs.Multipart.FlowControl

/-!
What the outstanding fragments say of the supply.

A relation between a number and a supply is `Metered` if a request raises the number by what is
requested, a fragment that arrives lowers it by one, and nothing else moves it. As long as a
demultiplexer runs such a relation holds of the fragments that it counts as outstanding, whatever
happens to the supply in between (`Attended.metered`).
-/
namespace Exchange.Multipart

/-- A relation that requests and fragments keep. Fragments count only as far as a demultiplexer can
count. -/
structure Supply.Metered {τ : Type} [Supply τ] (holds : Nat → τ → Prop) : Prop where
  request : ∀ n k s, holds k s → holds (k + n) (Supply.request n s)
  fragment : ∀ k f s s', k < Count.top → holds (k + 1) s → Supply.poll s = (.fragment f, s') →
    holds k (Pool.giveBack f.data s')
  other : ∀ k answer s s', holds k s → Supply.poll s = (answer, s') → answer.fragment? = none →
    holds k s'

namespace Supply.Metered

variable {σ : Type} [Supply σ] {holds : Nat → Watched σ → Prop} {d d' : Demux (Watched σ)}

theorem demand (h : Metered holds) (hin : InStep d) (ht : d.terminated = false)
    (hd : holds d.flow.outstanding d.source) {n : Nat} (htop : n ≤ Count.top) :
    holds (d.request n).flow.outstanding (d.request n).source := by
  by_cases hn : n = 0
  · rw [hn, Demux.request_zero]
    exact hd
  · rcases Nat.eq_zero_or_pos d.flow.owed with howed | howed
    · have hnone : d.flow.outstanding = 0 := Nat.le_zero.mp (howed ▸ hin.bound)
      rw [Demux.request_first ht hn howed]
      dsimp only
      rw [Count.add_eq (by omega)]
      exact h.request n _ _ hd
    · rw [Demux.request_more ht hn howed]
      exact hd

theorem refill (h : Metered holds) (hd : holds d.flow.outstanding d.source) :
    holds d.refill.flow.outstanding d.refill.source := by
  rcases Nat.lt_or_ge d.flow.outstanding d.flow.owed with hlt | hge
  · rw [Demux.refill_first hlt]
    exact h.request 1 _ _ hd
  · rw [Demux.refill_none hge]
    exact hd

theorem accept (h : Metered holds) {f : Fragment} {s : Watched σ} {part : Option Part}
    (hin : InStep d) (howed : 0 < d.flow.owed) (hd : holds d.flow.outstanding d.source)
    (hp : Supply.poll d.source = (.fragment f, s))
    (ha : { d with source := s }.accept f = (.ok part, d')) :
    holds d'.flow.outstanding d'.source := by
  have hbound := hin.bound
  have hcounted := hin.counted
  obtain ⟨d₁, hsource, houtstanding, -, -, rfl⟩ :=
    Demux.accept_flow (d := { d with source := s }) (hin.moving howed) howed ha
  dsimp only at hsource houtstanding
  refine h.refill ?_
  rw [hsource]
  rw [← houtstanding] at hd
  exact h.fragment _ f _ _ (by omega) hd hp

theorem pull (h : Metered holds) (hin : InStep d) (ht : d.terminated = false)
    (howed : 0 < d.flow.owed) (hd : holds d.flow.outstanding d.source) :
    (∀ m, d.pull.1 ≠ .panicked m) → d.pull.2.terminated = false →
      holds d.pull.2.flow.outstanding d.pull.2.source := by
  refine Demux.pull_rule
    (fun e => InStep e ∧ e.terminated = false ∧ e.flow.owed = d.flow.owed ∧
      holds e.flow.outstanding e.source)
    (fun o e => (∀ m, o ≠ .panicked m) → e.terminated = false →
      holds e.flow.outstanding e.source)
    ?_ ?_ ?_ ?_ ?_ ?_ ?_ d ⟨hin, ht, rfl, hd⟩
  · rintro e s ⟨-, -, -, he⟩ hp - -
    exact h.other _ _ _ _ he hp rfl
  · rintro e fault s - hp - hterm
    cases hterm
  · rintro e s - hp - hterm
    cases hterm
  · rintro e f s fault e' - hp ha - hterm
    cases hterm
  · rintro e f s m e' - hp ha hm -
    exact absurd rfl (hm m)
  · rintro e f s p e' ⟨hin, -, heq, he⟩ hp ha - -
    exact h.accept hin (heq ▸ howed) he hp ha
  · rintro e f s e' ⟨hin, ht, heq, he⟩ hp ha
    obtain ⟨hin', howed', ht'⟩ := hin.accept (heq ▸ howed) hp ha
    exact ⟨hin', ht'.trans ht, howed'.trans heq, h.accept hin (heq ▸ howed) he hp ha⟩

theorem next (h : Metered holds) (hin : InStep d) (ht : d.terminated = false)
    (hd : holds d.flow.outstanding d.source) (hm : ∀ m, d.next.1 ≠ .panicked m)
    (ht' : d.next.2.terminated = false) :
    InStep d.next.2 ∧ holds d.next.2.flow.outstanding d.next.2.source := by
  have hnext := hin.next ht
  have hholds : holds d.next.2.flow.outstanding d.next.2.source := by
    cases he : d.limits.enabled with
    | false =>
      rw [Demux.next_disabled ht he] at ht'
      cases ht'
    | true =>
      rcases Nat.eq_zero_or_pos d.flow.owed with howed | howed
      · rw [Demux.next_idle ht he howed] at hm ht' ⊢
        obtain ⟨hfirst, hone⟩ := hin.request_first (n := 1) ht (by decide) (by decide) howed
        have hterm : (d.request 1).terminated = false := by
          rw [Demux.request_first ht (by decide) howed]
          exact ht
        exact h.pull hfirst hterm (by omega) (h.demand hin ht hd (by decide)) hm ht'
      · rw [Demux.next_owed ht he (Nat.ne_of_gt howed)] at hm ht' ⊢
        exact h.pull hin ht howed hd hm ht'
  refine ⟨?_, hholds⟩
  generalize d.next = answer at *
  obtain ⟨o, d'⟩ := answer
  cases hnext with
  | waiting hin' _ => exact hin'
  | part _ hin' _ _ => exact hin'
  | finished _ hterm => exact absurd (hterm.symm.trans ht') (by decide)
  | fault _ _ hterm _ => exact absurd (hterm.symm.trans ht') (by decide)
  | panicked m _ => exact absurd rfl (hm m)

end Supply.Metered

/-- What happens to a supply leaves the counters in step. -/
theorem InStep.happen {σ ε : Type} {d : Demux (Watched σ)} (h : InStep d) (act : ε → σ → σ)
    (e : ε) : InStep { d with source := Watched.happen act e d.source } :=
  ⟨h.bound, h.moving, h.counted, h.granted, h.polled⟩

/-- As long as a demultiplexer runs its count of the outstanding fragments is right. -/
theorem Attended.metered {σ ε : Type} [Supply σ] {act : ε → σ → σ} {limits : Limits} {s : σ}
    {es : List ε} {l : Ledger} {d : Demux (Watched σ)} {holds : Nat → Watched σ → Prop}
    (hmetered : Supply.Metered holds) (hstart : holds 0 ⟨s, []⟩)
    (hhappen : ∀ e k w, k ≤ Count.top → holds k w → holds k (Watched.happen act e w))
    (h : Attended (Watched.happen act) limits ⟨s, []⟩ es l d) (hl : l.Unbroken)
    (ht : d.terminated = false) : InStep d ∧ holds d.flow.outstanding d.source := by
  induction h with
  | start => exact ⟨InStep.start limits s, hstart⟩
  | @request es l d n _ ih =>
    have hterm : d.terminated = false := by
      unfold Demux.request at ht
      split at ht
      · assumption
      · exact ht
    obtain ⟨hin, hd⟩ := ih hl hterm
    exact ⟨hin.request hterm n, hmetered.demand hin hterm hd (Nat.le_pred_of_lt n.toNat_lt)⟩
  | @poll es l d _ ih =>
    have hterm : d.terminated = false := by
      cases hended : d.terminated with
      | false => rfl
      | true =>
        rw [Demux.next_terminated hended, hended] at ht
        cases ht
    obtain ⟨hin, hd⟩ := ih (fun m hmem => hl m (List.mem_append_left _ hmem)) hterm
    refine hmetered.next hin hterm hd (fun m hpanic => hl m ?_) ht
    exact List.mem_append_right _ (List.mem_singleton.mpr hpanic.symm)
  | happen e _ ih =>
    obtain ⟨hin, hd⟩ := ih hl ht
    exact ⟨hin.happen act e, hhappen e _ _ (Nat.le_trans hin.bound hin.counted) hd⟩

end Exchange.Multipart
