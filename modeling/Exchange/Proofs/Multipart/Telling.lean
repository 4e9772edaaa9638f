import Exchange.Proofs.Multipart.Metered
import Exchange.Proofs.Multipart.Transcript

/-!
What a demultiplexer tells its consumer is settled by the items of its supply.

A consumer of any supply that delivers some items is told their transcript and nothing else, however
it requests and polls and whatever happens meanwhile: what it was told so far is the beginning of
the transcript, and the whole of it once the body is over (`Reported.told`). The invariant is
`Underway`: whatever items follow those that were taken, their transcript is what was told so far
and what the demultiplexer would tell of the rest.
-/
namespace Exchange.Multipart

/-! ### While the body goes on -/

variable {σ : Type} [Supply σ]

/-- A demultiplexer that runs, after it told its consumer something. -/
structure Underway (limits : Limits) (told : List Outcome) (d : Demux (Watched σ)) : Prop where
  counters : InStep d
  running : d.terminated = false
  quiet : .cancel ∉ d.source.calls
  settled : ∀ rest, transcript limits (itemsOf d.source.calls ++ rest) = told ++ d.tells rest

namespace Underway

variable {limits : Limits} {told : List Outcome} {d d' : Demux (Watched σ)} {s : Watched σ}

omit [Supply σ] in
theorem start (limits : Limits) (s : σ) :
    Underway limits [] { source := (⟨s, []⟩ : Watched σ), limits } :=
  ⟨InStep.start limits s, rfl, List.not_mem_nil, fun _ => rfl⟩

theorem request (h : Underway limits told d) (n : UInt64) :
    Underway limits told (d.request n.toNat) := by
  have hcounters := h.counters.request h.running n
  by_cases hn : n.toNat = 0
  · rw [hn, Demux.request_zero]
    exact h
  · have htells := Demux.tells_request n.toNat d
    rcases Nat.eq_zero_or_pos d.flow.owed with howed | howed
    · rw [Demux.request_first h.running hn howed] at hcounters htells ⊢
      refine ⟨hcounters, h.running, ?_, fun rest => ?_⟩
      · simpa using h.quiet
      · rw [htells, ← h.settled]
        simp
    · rw [Demux.request_more h.running hn howed] at hcounters htells ⊢
      exact ⟨hcounters, h.running, h.quiet, fun rest => (h.settled rest).trans (by rw [htells])⟩

/-- One part is requested of a demultiplexer that owes none. -/
theorem prompt (h : Underway limits told d) (howed : d.flow.owed = 0) :
    Underway limits told (d.request 1) ∧ (d.request 1).flow.owed = 1 :=
  ⟨h.request 1, (h.counters.request_first h.running (by decide) (by decide) howed).2⟩

/-- A fragment that is taken in, and what is told of it. -/
theorem accept {f : Fragment} {part : Option Part} (h : Underway limits told d)
    (he : d.limits.enabled = true) (howed : 0 < d.flow.owed)
    (hp : Supply.poll d.source = (.fragment f, s))
    (ha : { d with source := s }.accept f = (.ok part, d')) :
    Underway limits (told ++ part.toList.map .part) d' ∧ d'.limits.enabled = true ∧
      d'.flow.owed + part.toList.length = d.flow.owed := by
  obtain ⟨hcounters, howed', hterminated⟩ := h.counters.accept howed hp ha
  have hcalls := Watched.calls_poll hp
  have hquiet : .cancel ∉ s.calls := by
    simpa [hcalls] using h.quiet
  have hkept : itemsOf d'.source.calls = itemsOf s.calls ∧ .cancel ∉ d'.source.calls := by
    obtain ⟨-, hsame | hmore⟩ := Demux.calls_accept ha
    · rw [hsame]
      exact ⟨rfl, hquiet⟩
    · simpa [hmore] using hquiet
  refine ⟨⟨hcounters, hterminated.trans h.running, hkept.2, fun rest => ?_⟩, ?_, howed'⟩
  · have htells := Demux.tells_accepted (d := { d with source := s }) he
      (h.counters.moving howed) howed ha rest
    rw [hkept.1, hcalls, itemsOf_append, itemsOf_poll, List.append_assoc, List.append_assoc]
    exact (h.settled _).trans (congrArg (told ++ ·) htells)
  · rw [Demux.limits_accept ha]
    exact he

end Underway

/-! ### Polls -/

/-- What a poll comes to of a demultiplexer that told its consumer something. -/
inductive Tells (limits : Limits) (told : List Outcome) : Outcome → Demux (Watched σ) → Prop where
  | waiting {d : Demux (Watched σ)} : Underway limits told d → Tells limits told .waiting d
  | part {d : Demux (Watched σ)} (p : Part) : Underway limits (told ++ [.part p]) d →
      Tells limits told (.part p) d
  /-- whatever else the supply has -/
  | broken {d : Demux (Watched σ)} {o : Outcome} : o.ends = true →
      (∀ rest, transcript limits (itemsOf d.source.calls ++ rest) = told ++ [o]) →
      Tells limits told o d
  /-- provided the supply has told the truth -/
  | finished {d : Demux (Watched σ)} : d.terminated = true → .finished ∈ answersOf d.source.calls →
      .cancel ∉ d.source.calls →
      transcript limits (itemsOf d.source.calls) = told ++ [.finished] →
      Tells limits told .finished d

namespace Underway

variable {limits : Limits} {told : List Outcome} {d d' : Demux (Watched σ)} {s : Watched σ}

/-- An answer that brings no item. -/
theorem polled {answer : Delivery} (h : Underway limits told d) (howed : 0 < d.flow.owed)
    (hp : Supply.poll d.source = (answer, s)) (hnone : answer.fragment? = none)
    (hitem : answer.item? = none) : Underway limits told { d with source := s } := by
  have hcalls := Watched.calls_poll hp
  refine ⟨h.counters.polled_other howed hp hnone, h.running, ?_, fun rest => ?_⟩
  · simpa [hcalls] using h.quiet
  · show transcript limits (itemsOf s.calls ++ rest) = _
    rw [hcalls, itemsOf_append, itemsOf_poll, hitem, Option.toList_none, List.append_nil]
    exact h.settled rest

/-- An item behind which nothing is told any more. -/
theorem ends {answer : Delivery} {i : Item} {o : Outcome} {d' : Demux (Watched σ)}
    (h : Underway limits told d) (hp : Supply.poll d.source = (answer, s))
    (hitem : answer.item? = some i) (htells : ∀ rest, d.tells (i :: rest) = [o])
    (hsame : itemsOf d'.source.calls = itemsOf s.calls) (rest : List Item) :
    transcript limits (itemsOf d'.source.calls ++ rest) = told ++ [o] := by
  rw [hsame, Watched.calls_poll hp, itemsOf_append, itemsOf_poll, hitem, List.append_assoc,
    ← htells rest]
  exact h.settled _

theorem pull (h : Underway limits told d) (he : d.limits.enabled = true)
    (howed : 0 < d.flow.owed) : Tells limits told d.pull.1 d.pull.2 := by
  have hrefused : ∀ {e e' : Demux (Watched σ)} {f s r},
      { e with source := s }.accept f = (.error r, e') →
      itemsOf e'.source.calls = itemsOf s.calls := by
    intro e e' f s r ha
    rw [Demux.accept_error ha]
    rfl
  refine Demux.pull_rule
    (fun e => Underway limits told e ∧ e.limits.enabled = true ∧ 0 < e.flow.owed)
    (Tells limits told) ?_ ?_ ?_ ?_ ?_ ?_ ?_ d ⟨h, he, howed⟩
  · rintro e s ⟨hu, -, howed⟩ hp
    exact .waiting (hu.polled howed hp rfl rfl)
  · rintro e fault s ⟨hu, he, -⟩ hp
    refine .broken rfl (hu.ends hp rfl (fun rest => Demux.tells_fault he fault rest) ?_)
    show itemsOf (Supply.cancel s).calls = _
    simp
  · rintro e s ⟨hu, he, howed⟩ hp
    have hpolled := hu.polled howed hp rfl rfl
    refine .finished rfl ?_ hpolled.quiet ?_
    · show _ ∈ answersOf s.calls
      simp [Watched.calls_poll hp]
    · have hsettled := hpolled.settled []
      rw [List.append_nil, Demux.tells_nil (d := { e with source := s }) he] at hsettled
      exact hsettled
  · rintro e f s fault e' ⟨hu, he, howed⟩ hp ha
    refine .broken rfl (hu.ends hp rfl
      (fun rest => Demux.tells_refused (d := { e with source := s }) he
        (hu.counters.moving howed) howed ha rest) ?_)
    show itemsOf (Supply.cancel e'.source).calls = _
    simpa using hrefused ha
  · rintro e f s m e' ⟨hu, he, howed⟩ hp ha
    exact .broken rfl (hu.ends hp rfl
      (fun rest => Demux.tells_torn (d := { e with source := s }) he
        (hu.counters.moving howed) howed ha rest) (hrefused ha))
  · rintro e f s p e' ⟨hu, he, howed⟩ hp ha
    exact .part p (hu.accept he howed hp ha).1
  · rintro e f s e' ⟨hu, he, howed⟩ hp ha
    obtain ⟨hu', he', howed'⟩ := hu.accept he howed hp ha
    rw [Option.toList_none, List.map_nil, List.append_nil] at hu'
    exact ⟨hu', he', Nat.lt_of_lt_of_eq howed howed'.symm⟩

theorem next (h : Underway limits told d) : Tells limits told d.next.1 d.next.2 := by
  cases he : d.limits.enabled with
  | false =>
    rw [Demux.next_disabled h.running he]
    refine .broken rfl fun rest => ?_
    rw [← Demux.tells_disabled he rest]
    show transcript limits (itemsOf (Supply.cancel d.source).calls ++ rest) = _
    simpa using h.settled rest
  | true =>
    rcases Nat.eq_zero_or_pos d.flow.owed with howed | howed
    · rw [Demux.next_idle h.running he howed]
      obtain ⟨hprompt, hone⟩ := h.prompt howed
      refine hprompt.pull ?_ (by omega)
      rw [Demux.request_first h.running (by decide) howed]
      exact he
    · rw [Demux.next_owed h.running he (Nat.ne_of_gt howed)]
      exact h.pull he howed

end Underway

/-! ### Whole bodies -/

/-- A demultiplexer beside what its consumer was told. -/
inductive Reported (limits : Limits) (l : Ledger) (d : Demux (Watched σ)) : Prop where
  | underway : ¬ l.Over → Underway limits l.told d → Reported limits l d
  | broken : l.Over →
      (∀ rest, transcript limits (itemsOf d.source.calls ++ rest) = l.told) → Reported limits l d
  | finished : l.Over → d.terminated = true → .finished ∈ answersOf d.source.calls →
      .cancel ∉ d.source.calls → transcript limits (itemsOf d.source.calls) = l.told →
      Reported limits l d

/-- The calls that reach a supply only become more. -/
theorem Watched.calls_kept (calls : List Call) :
    Supply.Kept fun w : Watched σ => calls <+: w.calls where
  request _ _ h := h.trans (List.prefix_append ..)
  cancel _ h := h.trans (List.prefix_append ..)
  fragment _ _ _ h hp := by
    show calls <+: _
    rw [Watched.calls_giveBack, Watched.calls_poll hp]
    exact h.trans (List.prefix_append ..)
  other _ _ _ h hp _ := by
    rw [Watched.calls_poll hp]
    exact h.trans (List.prefix_append ..)

namespace Reported

variable {limits : Limits} {l : Ledger} {d : Demux (Watched σ)}

omit [Supply σ] in
/-- Once nothing more is told it does not matter what the supply delivers. -/
theorem more {l' : Ledger} {d' : Demux (Watched σ)}
    (hsettled : ∀ rest, transcript limits (itemsOf d.source.calls ++ rest) = l.told)
    (hcalls : d.source.calls <+: d'.source.calls) (hover : l'.Over) (htold : l'.told = l.told) :
    Reported limits l' d' := by
  refine .broken hover fun rest => ?_
  obtain ⟨later, hlater⟩ := hcalls
  rw [← hlater, itemsOf_append, List.append_assoc, htold]
  exact hsettled _

theorem request (h : Reported limits l d) (n : UInt64) :
    Reported limits (l.request n) (d.request n.toNat) := by
  cases h with
  | underway hopen hu => exact .underway hopen (hu.request n)
  | broken hover hsettled =>
    exact more hsettled ((Watched.calls_kept _).demand n.toNat List.prefix_rfl) hover rfl
  | finished hover hterm hfinished hquiet hsettled =>
    rw [Demux.request_terminated hterm]
    exact .finished hover hterm hfinished hquiet hsettled

theorem poll (h : Reported limits l d) : Reported limits (l.poll d) d.next.2 := by
  have hover : l.Over → (l.poll d).Over ∧ (l.poll d).told = l.told := by
    rintro ⟨o, ho, hends⟩
    exact ⟨⟨o, List.mem_append_left _ ho, hends⟩, toldOf_append_over ⟨o, ho, hends⟩ _⟩
  cases h with
  | underway hopen hu =>
    have htells := hu.next
    have htold : (l.poll d).told = l.told ++ toldOf [d.next.1] := toldOf_append_open hopen _
    have hlast : d.next.1.ends = true → (l.poll d).Over := Ledger.poll_over
    have hgoes : d.next.1.ends = false → ¬ (l.poll d).Over := Ledger.poll_open hopen
    generalize d.next = answer at *
    obtain ⟨o, d'⟩ := answer
    cases htells with
    | waiting hu' =>
      refine .underway (hgoes rfl) ?_
      rw [htold]
      simpa [toldOf] using hu'
    | part p hu' =>
      refine .underway (hgoes rfl) ?_
      rw [htold]
      exact hu'
    | broken hends hsettled =>
      refine .broken (hlast hends) fun rest => (hsettled rest).trans ?_
      rw [htold]
      cases o <;> first | rfl | cases hends
    | finished hterm hfinished hquiet hsettled =>
      refine .finished (hlast rfl) hterm hfinished hquiet (hsettled.trans ?_)
      rw [htold]
      rfl
  | broken hended hsettled =>
    exact more hsettled ((Watched.calls_kept _).next List.prefix_rfl) (hover hended).1
      (hover hended).2
  | finished hended hterm hfinished hquiet hsettled =>
    have hafter := hover hended
    rw [Demux.next_terminated hterm]
    exact .finished hafter.1 hterm hfinished hquiet (hsettled.trans hafter.2.symm)

end Reported

theorem Attended.reported {ε : Type} {act : ε → σ → σ} {limits : Limits} {s : σ} {es : List ε}
    {l : Ledger} {d : Demux (Watched σ)}
    (h : Attended (Watched.happen act) limits ⟨s, []⟩ es l d) : Reported limits l d := by
  induction h with
  | start => exact .underway (fun ⟨_, ho, _⟩ => nomatch ho) (.start limits s)
  | request n _ ih => exact ih.request n
  | poll _ ih => exact ih.poll
  | happen e _ ih =>
    -- what happens to the supply is none of its calls
    cases ih with
    | underway hopen hu =>
      exact .underway hopen ⟨hu.counters.happen act e, hu.running, hu.quiet, hu.settled⟩
    | broken hover hsettled => exact .broken hover hsettled
    | finished hover hterm hfinished hquiet hsettled =>
      exact .finished hover hterm hfinished hquiet hsettled

/-- Until the consumer was told how the body ended, the demultiplexer runs. -/
theorem Attended.running {ε : Type} {act : ε → σ → σ} {limits : Limits} {s : σ} {es : List ε}
    {l : Ledger} {d : Demux σ} (h : Attended act limits s es l d) (hl : ¬ l.Over) :
    d.terminated = false ∧ l.Unbroken := by
  refine ⟨?_, fun m hm => hl ⟨_, hm, rfl⟩⟩
  obtain ⟨w, hw, rfl⟩ := h.watched
  cases hw.reported with
  | underway _ hu => exact hu.running
  | broken hover _ => exact absurd hover hl
  | finished hover _ _ _ _ => exact absurd hover hl

/-- A consumer that has to wait is owed a part. -/
theorem Attended.owed {ε : Type} {act : ε → σ → σ} {limits : Limits} {s : σ} {es : List ε}
    {l : Ledger} {d : Demux σ} (h : Attended act limits s es l d) (hl : ¬ l.Over)
    (hwaits : d.next.1 = .waiting) : 0 < d.next.2.flow.owed := by
  obtain ⟨w, hw, rfl⟩ := h.watched
  rw [Demux.map_next Watched.faithful w] at hwaits ⊢
  cases hw.reported with
  | underway _ hu =>
    have hanswered := hu.counters.next hu.running
    rw [show w.next.1 = .waiting from hwaits] at hanswered
    cases hanswered with
    | waiting _ howed =>
      show 0 < w.next.2.flow.owed
      omega
  | broken hover _ => exact absurd hover hl
  | finished hover _ _ _ _ => exact absurd hover hl

/-- A supply that delivers `items` and nothing else, and completes only behind the last of them or
behind a fault, unless it was cancelled. -/
structure Conveyed (items : List Item) (calls : List Call) : Prop where
  delivered : itemsOf calls <+: items
  completed : .finished ∈ answersOf calls → .cancel ∉ calls →
    itemsOf calls = items ∨ ∃ e, .error e ∈ itemsOf calls

omit [Supply σ] in
/-- What is told of items is their transcript. -/
theorem Reported.told {limits : Limits} {l : Ledger} {d : Demux (Watched σ)}
    (h : Reported limits l d) {items : List Item} (hc : Conveyed items d.source.calls) :
    l.told <+: transcript limits items ∧ (l.Over → l.told = transcript limits items) := by
  obtain ⟨rest, hrest⟩ := hc.delivered
  cases h with
  | underway hopen hu =>
    refine ⟨⟨d.tells rest, ?_⟩, fun hover => absurd hover hopen⟩
    rw [← hrest, hu.settled]
  | broken hover hsettled =>
    have htold := hsettled rest
    rw [hrest] at htold
    exact ⟨htold ▸ List.prefix_rfl, fun _ => htold.symm⟩
  | finished hover _ hfinished hquiet hsettled =>
    have htold : transcript limits items = l.told := by
      rcases hc.completed hfinished hquiet with hall | ⟨e, he⟩
      · rw [← hall, hsettled]
      · rw [← hrest, transcript_fault he, hsettled]
    exact ⟨htold ▸ List.prefix_rfl, fun _ => htold.symm⟩

end Exchange.Multipart
