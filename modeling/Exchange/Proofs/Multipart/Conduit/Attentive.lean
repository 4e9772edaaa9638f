import Exchange.Proofs.Multipart.Conduit.Order

/-!
Who gets to know that the consumer's end of a line was stopped.

Whoever has the publisher was told (`Conduit.Told`): it knows already, or will when it has read its
signals. A publisher that was told never waits for credit, and none of its sendings that still holds
its fragment comes to anything but a failure once the queue is shut (`Told.fails`). That everybody
is told who has to be is an invariant of every line (`Line.Attentive`).
-/
namespace Exchange.Multipart

/-! ### Who was told -/

theorem Publisher.cancelled_of_read {read : List Signal} {p : Publisher}
    (h : p.cancelled = true ∨ .cancel ∈ read) :
    (read.foldl Publisher.apply p).cancelled = true := by
  induction read generalizing p with
  | nil => exact h.resolve_right List.not_mem_nil
  | cons s rest ih =>
    refine ih ?_
    rcases h with hheard | hmem
    · cases s with
      | request n => exact .inl hheard
      | cancel => exact .inl rfl
    · rcases List.mem_cons.1 hmem with rfl | hrest
      · exact .inl rfl
      · exact .inr hrest

namespace Conduit

/-- The publisher knows that the consumer's end was stopped, or will know it when it has read its
signals. -/
def Told (p : Publisher) (c : Conduit) : Prop :=
  p.cancelled = true ∨ .cancel ∈ c.signals ∨ c.dropped = true

/-- The publisher, whoever has it. -/
def Has (c : Conduit) (p : Publisher) : Prop :=
  c.publisher = some p ∨ ∃ doing, c.pump = .running p doing

theorem Has.publishing {c : Conduit} {p : Publisher} (h : c.Has p) : c.publishing = true := by
  rcases h with hp | ⟨doing, hrun⟩
  · exact publishing_of_owned hp
  · exact publishing_of_running hrun

variable {p q : Publisher} {c c' : Conduit} {s : Sending}
  {r : Progress Sending (Except Fault Unit)}

theorem Told.frame (h : Told p c) (hsignals : c'.signals = c.signals)
    (hdropped : c'.dropped = c.dropped) : Told p c' := by
  unfold Told
  rwa [hsignals, hdropped]

/-- Reading signals does not make a publisher forget, and one that was told does not wait for
credit. -/
theorem Told.reads {started : Bool} {rest : List Signal} (h : Told p c)
    (hread : awaitCredit started p c = (q, { c with signals := rest })) :
    Told q { c with signals := rest } ∧ (q.cancelled = false → q.credit ≠ 0) := by
  cases started with
  | false =>
    obtain ⟨rfl, -⟩ := Prod.mk.inj hread
    have hknows : ((c.signals.foldl Publisher.apply p).cancelled || c.dropped) = true := by
      rcases h with hheard | hmem | hdropped
      · rw [Publisher.cancelled_of_read (.inl hheard), Bool.true_or]
      · rw [Publisher.cancelled_of_read (.inr hmem), Bool.true_or]
      · rw [hdropped, Bool.or_true]
    exact ⟨.inl hknows, fun hlive => absurd (hlive.symm.trans hknows) nofun⟩
  | true =>
    obtain ⟨read, left, hsplit, heq, hleft⟩ := readUntilCredit_reads c.signals p
    unfold awaitCredit at hread
    rw [if_pos rfl, heq] at hread
    obtain ⟨rfl, hrest⟩ := Prod.mk.inj hread
    obtain rfl : left = rest := congrArg signals hrest
    have hknows : (read.foldl Publisher.apply p).cancelled = true ∨ .cancel ∈ left ∨
        c.dropped = true := by
      rcases h with hheard | hmem | hdropped
      · exact .inl (Publisher.cancelled_of_read (.inl hheard))
      · rcases List.mem_append.1 (hsplit ▸ hmem) with hfirst | hlast
        · exact .inl (Publisher.cancelled_of_read (.inr hfirst))
        · exact .inr (.inl hlast)
      · exact .inr (.inr hdropped)
    refine ⟨hknows.imp_left fun hread => ?_, fun hlive hnone => ?_⟩
    · show (_ || _) = true
      rw [hread, Bool.true_or]
    · obtain ⟨hnot, hhere⟩ := Bool.or_eq_false_iff.1 hlive
      -- every signal was read, and there is somebody left who might send another
      change (read.foldl Publisher.apply p).credit = 0 at hnone
      simp [hnone] at hhere
      simp [hnot, hhere, hleft hnot hnone] at hknows

theorem Told.goes (hgoes : Goes p c s r q c') : Told p c → Told q c' := by
  induction hgoes with
  | refused f started _ hgone => exact fun _ => .inl hgone
  | unpaid f started hread _ _ => exact fun h => (h.reads hread).1
  | paid f started hread _ _ _ ih => exact fun h => ih (h.reads hread).1
  | shut f _ => exact fun _ => .inl rfl
  | crowded f _ _ => exact id
  | entered f _ _ _ ih => exact fun h => ih (h.frame rfl rfl)
  | held _ => exact id
  | released _ => exact id

/-- A sending does not get into a queue that is shut. -/
theorem Goes.shut_out {f : Fragment} (h : Goes p c (.room f) r q c')
    (hshut : c.queue.closed = true) :
    r = .done (.error .cancelled) ∧ c' = c.giveBack f.data := by
  cases h with
  | shut _ _ => exact ⟨rfl, rfl⟩
  | crowded _ hopen _ => exact absurd (hopen.symm.trans hshut) nofun
  | entered _ hopen _ _ => exact absurd (hopen.symm.trans hshut) nofun

/-- A sending whose publisher was told fails, and its fragment goes back. -/
theorem Told.fails (h : Told p c) (hshut : c.queue.closed = true) (hgoes : Goes p c s r q c')
    {f : Fragment} (hheld : s.held? = some f) :
    r = .done (.error .cancelled) ∧
      ∃ signals, c' = { c with signals, tally := c.tally.release f.data } := by
  cases s with
  | release => cases hheld
  | room g =>
    obtain rfl := Option.some.inj hheld
    obtain ⟨hr, rfl⟩ := hgoes.shut_out hshut
    exact ⟨hr, c.signals, rfl⟩
  | credit g started =>
    obtain rfl := Option.some.inj hheld
    cases hgoes with
    | refused _ _ _ _ => exact ⟨rfl, _, rfl⟩
    | unpaid _ _ hread hlive hnone => exact absurd hnone ((h.reads hread).2 hlive)
    | paid _ _ _ _ _ hroom =>
      obtain ⟨hr, rfl⟩ := hroom.shut_out hshut
      exact ⟨hr, _, rfl⟩

/-- A pump that runs has run before. -/
theorem Pumps.ran {doing' : Pumping} (h : Pumps c c') (hrun' : c'.pump = .running q doing') :
    ∃ p doing, c.pump = .running p doing := by
  cases h with
  | rests _ => exact ⟨q, doing', hrun'⟩
  | takes hrun _ | meets hrun _ | waits hrun _ | sent hrun _ | refused hrun _ | fails hrun _
  | skips hrun _ | breaks hrun _ | completes hrun _ _ | lodges hrun _ _ | passes hrun _ _
  | stops hrun _ _ => exact ⟨_, _, hrun⟩

/-- Only the end of a pump ends the reading of the transport. -/
theorem Pumps.unread (h : Pumps c c')
    (hread : (∀ result, c.pump ≠ .finished result) → c.transport.abandoned = false)
    (hlive : ∀ result, c'.pump ≠ .finished result) : c'.transport.abandoned = false := by
  have hrunning : ∀ {p doing}, c.pump = .running p doing → c.transport.abandoned = false :=
    fun hrun => hread fun result hfinished => nomatch hrun.symm.trans hfinished
  cases h with
  | rests _ => exact hread hlive
  | takes hrun _ | meets hrun _ | lodges hrun _ _ | skips hrun _ => exact hrunning hrun
  | waits hrun hgoes | sent hrun hgoes | refused hrun hgoes =>
    exact (congrArg Transport.abandoned hgoes.frame.2.2.1).trans (hrunning hrun)
  | _ => exact absurd rfl (hlive _)

/-- A pump does not forget what it was told. -/
theorem Told.pumps {doing doing' : Pumping} (h : Told p c) (hrun : c.pump = .running p doing)
    (hpumps : Pumps c c') (hrun' : c'.pump = .running q doing') : Told q c' := by
  cases hpumps with
  | rests _ =>
    cases hrun.symm.trans hrun'
    exact h
  | takes hdoing _ | meets hdoing _ | lodges hdoing _ _ =>
    cases hrun.symm.trans hdoing
    cases hrun'
    exact h.frame rfl rfl
  | skips _ _ =>
    cases hrun.symm.trans hrun'
    exact h.frame rfl rfl
  | waits hdoing hgoes | sent hdoing hgoes | refused hdoing hgoes =>
    cases hrun.symm.trans hdoing
    cases hrun'
    exact (Told.goes hgoes h).frame rfl rfl
  | _ => cases hrun'

/-- A conduit that was cancelled takes no requests. -/
theorem request_cancelled {n : Nat} (h : c.cancelled = true) : c.request n = c := by
  unfold request
  rw [h]
  rfl

/-- A cancel is told to whoever has the publisher. -/
theorem told_cancel (h : c.cancelled = true → c.Has p → Told p c) (hhas : c.cancel.Has p) :
    Told p c.cancel := by
  unfold cancel at hhas ⊢
  cases hcancelled : c.cancelled with
  | true =>
    rw [hcancelled, if_pos rfl] at hhas
    exact h hcancelled hhas
  | false =>
    rw [hcancelled, if_neg Bool.false_ne_true] at hhas
    have hpublishing : c.publishing = true := Has.publishing hhas
    refine .inr (.inl ?_)
    rw [if_neg Bool.false_ne_true, hpublishing]
    exact List.mem_append_right _ (List.mem_singleton_self _)

end Conduit

/-- A queue holds its sender up by what is in it. -/
theorem Queue.Moves.held {q q' : Queue} {taken put : List Item} (h : q.Moves taken put q')
    (hheld : q.parked = true → q.items ≠ []) : q'.parked = true → q'.items ≠ [] := by
  cases h with
  | stays => exact hheld
  | takes _ => exact nofun
  | puts i _ _ => exact fun _ => List.append_ne_nil_of_right_ne_nil _ (List.cons_ne_nil i [])
  | shuts => exact nofun

/-! ### Lines -/

namespace Line

variable {l l' : Line} {deed : Deed}

/-- Nobody but a pump does anything with it, but that somebody starts it. -/
theorem Does.pump_other (h : l.Does deed l') (hdeed : deed ≠ .far .pump) :
    l'.conduit.pump = l.conduit.pump ∨
      l.conduit.pump = .idle ∧ ∃ p, l'.conduit.pump = .running p .reading := by
  cases h with
  | asks n =>
    obtain ⟨signals, hsame⟩ := l.conduit.request_signals n.toNat
    rw [hsame]
    exact .inl rfl
  | takes _ hpoll =>
    obtain ⟨queue, rfl, -⟩ := (Conduit.polls_of_poll hpoll).frame
    exact .inl rfl
  | waits _ _ hgoes | returns _ _ hgoes => exact .inl hgoes.frame.2.1
  | lingers _ _ hpasses | ends _ _ hpasses => cases hpasses <;> exact .inl rfl
  | @forsakes s _ =>
    obtain ⟨tally, htally⟩ := Conduit.abandon_frame s l.conduit
    rw [htally]
    exact .inl rfl
  | @hands p _ _ hidle => exact .inr ⟨hidle, p, rfl⟩
  | pumps _ => exact absurd rfl hdeed
  | feeds i =>
    rw [Conduit.feed_frame]
    exact .inl rfl
  | _ => exact .inl rfl

theorem Does.pump_alone (h : l.Does deed l') (hbusy : l.conduit.pump ≠ .idle)
    (hdeed : deed ≠ .far .pump) : l'.conduit.pump = l.conduit.pump :=
  (h.pump_other hdeed).resolve_right fun hstarted => hbusy hstarted.1

/-- A line where nobody loses sight of the consumer's end: whoever has the publisher is told when
that end is stopped. Who has begun something has the publisher, nothing but the queue holds a
sending up, and the transport is read as long as a pump may want it. -/
structure Attentive (l : Line) : Prop extends Barred l, Handed l where
  told : l.conduit.Stopped → ∀ p, l.conduit.Has p → Conduit.Told p l.conduit
  manned : l.errand ≠ none → l.conduit.publisher ≠ none
  held : l.conduit.queue.parked = true → l.conduit.queue.items ≠ []
  unread : (∀ result, l.conduit.pump ≠ .finished result) → l.conduit.transport.abandoned = false

theorem attentive_ofCapacity (capacity : Nat) : Attentive (.ofCapacity capacity) where
  toBarred := barred_ofCapacity capacity
  toHanded := handed_ofCapacity capacity
  told h := h.elim nofun nofun
  manned h := absurd rfl h
  held := nofun
  unread _ := rfl

namespace Attentive

theorem told_cancel (h : l.Attentive) (p : Publisher)
    (hhas : (l.ask Conduit.cancel).conduit.Has p) :
    Conduit.Told p (l.ask Conduit.cancel).conduit := by
  unfold ask at hhas ⊢
  cases hdropped : l.conduit.dropped with
  | true =>
    rw [hdropped, if_pos rfl] at hhas
    exact h.told (.inr hdropped) p hhas
  | false =>
    rw [hdropped, if_neg Bool.false_ne_true] at hhas
    exact Conduit.told_cancel (fun hcancelled => h.told (.inl hcancelled) p) hhas

theorem told_pumps (h : l.Attentive) {c : Conduit} (hpumps : Conduit.Pumps l.conduit c)
    (hstopped : c.Stopped) (p : Publisher) (hhas : c.Has p) : Conduit.Told p c := by
  obtain ⟨hpublisher, hcancelled, hdropped⟩ := hpumps.frame
  have hstopped' : l.conduit.Stopped := hstopped.imp hcancelled.symm.trans hdropped.symm.trans
  rcases hhas with hp | ⟨doing', hrun'⟩
  · have hp := hpublisher.symm.trans hp
    obtain rfl := hpumps.rests_of_idle (h.owned hp)
    exact h.told hstopped' p (.inl hp)
  · obtain ⟨q, doing, hrun⟩ := hpumps.ran hrun'
    exact (h.told hstopped' q (.inr ⟨doing, hrun⟩)).pumps hrun hpumps hrun'

/-- Whoever has the publisher got it from somebody who was told. -/
theorem told_does (h : l.Attentive) (hdoes : l.Does deed l') (hdeed : deed ≠ .cancel)
    (hstopped : l'.conduit.Stopped) (p : Publisher) (hhas : l'.conduit.Has p) :
    Conduit.Told p l'.conduit := by
  have hsame : (l'.conduit.Stopped → l.conduit.Stopped) → (l'.conduit.Has p → l.conduit.Has p) →
      l'.conduit.signals = l.conduit.signals → l'.conduit.dropped = l.conduit.dropped →
      Conduit.Told p l'.conduit := fun hstop hhad hsignals hdropped =>
    (h.told (hstop hstopped) p (hhad hhas)).frame hsignals hdropped
  have hgoes : ∀ {p' q s r c}, l.conduit.publisher = some p' → Conduit.Goes p' l.conduit s r q c →
      l'.conduit = { c with publisher := some q } → Conduit.Told p l'.conduit := by
    intro p' q s r c hp hgoes hsame
    obtain ⟨-, hpump, -, hcancelled, hdropped⟩ := hgoes.frame
    rw [hsame] at hhas hstopped ⊢
    have hstopped' : l.conduit.Stopped := hstopped.imp hcancelled.symm.trans hdropped.symm.trans
    have htold := Conduit.Told.goes hgoes (h.told hstopped' p' (.inl hp))
    rcases hhas with hq | ⟨doing, hrun⟩
    · obtain rfl := Option.some.inj hq
      exact htold.frame rfl rfl
    · exact nomatch (h.owned hp).symm.trans (hpump.symm.trans hrun)
  cases hdoes with
  | idles _ => exact h.told hstopped p hhas
  | asks n =>
    obtain ⟨signals, hrequest⟩ := l.conduit.request_signals n.toNat
    have hstopped' : l.conduit.Stopped := by
      rw [hrequest] at hstopped
      exact hstopped
    rcases hstopped' with hcancelled | hdropped
    · rw [Conduit.request_cancelled hcancelled] at hhas ⊢
      exact h.told (.inl hcancelled) p hhas
    · rw [hrequest]
      exact .inr (.inr hdropped)
  | takes _ hpoll =>
    obtain ⟨queue, rfl, -⟩ := (Conduit.polls_of_poll hpoll).frame
    exact hsame id id rfl rfl
  | cancels _ _ _ => exact absurd rfl hdeed
  | drops _ => exact .inr (.inr rfl)
  | waits _ hp hgoes' | returns _ hp hgoes' => exact hgoes hp hgoes' rfl
  | lingers _ _ hpasses => cases hpasses <;> exact hsame id id rfl rfl
  | ends _ _ hpasses => cases hpasses <;> exact hsame id (.imp_left nofun) rfl rfl
  | @forsakes s _ =>
    obtain ⟨tally, htally⟩ := Conduit.abandon_frame s l.conduit
    rw [htally] at hhas hstopped ⊢
    exact (h.told hstopped p hhas).frame rfl rfl
  | relents _ => exact hsame id (.imp_left nofun) rfl rfl
  | completes _ => exact hsame id (.imp_left nofun) rfl rfl
  | hands _ hp _ =>
    refine hsame id (fun hhad => .inl ?_) rfl rfl
    rcases hhad with hnone | ⟨doing, hrun⟩
    · cases hnone
    · cases hrun
      exact hp
  | pumps hpumps => exact h.told_pumps hpumps hstopped p hhas
  | feeds i =>
    rw [Conduit.feed_frame] at hhas hstopped ⊢
    exact (h.told hstopped p hhas).frame rfl rfl
  | _ => exact hsame id id rfl rfl

/-- Who has begun something keeps the publisher until it is done. -/
theorem manned_does (h : l.Attentive) (hdoes : l.Does deed l') (herrand : l'.errand ≠ none) :
    l'.conduit.publisher ≠ none := by
  cases hdoes with
  | asks n =>
    obtain ⟨signals, hrequest⟩ := l.conduit.request_signals n.toNat
    rw [hrequest]
    exact h.manned herrand
  | takes _ hpoll =>
    obtain ⟨queue, rfl, -⟩ := (Conduit.polls_of_poll hpoll).frame
    exact h.manned herrand
  | sends f _ hp => exact fun hnone => nomatch hp.symm.trans hnone
  | fails e _ hp => exact fun hnone => nomatch hp.symm.trans hnone
  | waits _ _ _ => exact nofun
  | lingers _ hp hpasses =>
    cases hpasses <;> exact fun hnone => nomatch hp.symm.trans hnone
  | returns _ _ _ | ends _ _ _ | forsakes _ | relents _ => exact absurd rfl herrand
  | completes hnone | hands hnone _ _ => exact absurd hnone herrand
  | pumps hpumps =>
    show _ ≠ none
    rw [hpumps.frame.1]
    exact h.manned herrand
  | feeds i =>
    rw [Conduit.feed_frame]
    exact h.manned herrand
  | _ => exact h.manned herrand

/-- Only the end of a pump ends the reading. -/
theorem unread_does (h : l.Attentive) (hdoes : l.Does deed l')
    (hlive : ∀ result, l'.conduit.pump ≠ .finished result) :
    l'.conduit.transport.abandoned = false := by
  cases hdoes with
  | asks n =>
    obtain ⟨signals, hrequest⟩ := l.conduit.request_signals n.toNat
    rw [hrequest] at hlive ⊢
    exact h.unread hlive
  | takes _ hpoll =>
    obtain ⟨queue, rfl, -⟩ := (Conduit.polls_of_poll hpoll).frame
    exact h.unread hlive
  | waits _ _ hgoes | returns _ _ hgoes =>
    obtain ⟨-, hpump, htransport, -⟩ := hgoes.frame
    exact (congrArg Transport.abandoned htransport).trans
      (h.unread fun result hfinished => hlive result (hpump.trans hfinished))
  | lingers _ _ hpasses | ends _ _ hpasses => cases hpasses <;> exact h.unread hlive
  | @forsakes s _ =>
    obtain ⟨tally, htally⟩ := Conduit.abandon_frame s l.conduit
    rw [htally] at hlive ⊢
    exact h.unread hlive
  | hands _ _ hidle => exact h.unread fun result hfinished => nomatch hidle.symm.trans hfinished
  | pumps hpumps => exact hpumps.unread h.unread hlive
  | feeds i =>
    rw [Conduit.feed_frame] at hlive
    show (l.conduit.feed i).2.transport.abandoned = false
    rw [Conduit.feed_open (h.unread hlive)]
    exact h.unread hlive
  | _ => exact h.unread hlive

theorem step (h : l.Attentive) (deed : Deed) : (l.step deed).Attentive where
  toBarred := h.toBarred.step deed
  toHanded := h.toHanded.does (l.does deed)
  told := by
    by_cases hdeed : deed = .cancel
    · subst hdeed
      exact fun _ => h.told_cancel
    · exact h.told_does (l.does deed) hdeed
  manned := h.manned_does (l.does deed)
  held := (l.moves deed).held h.held
  unread := h.unread_does (l.does deed)

theorem run (h : l.Attentive) (deeds : List Deed) : (l.run deeds).Attentive := by
  induction deeds generalizing l with
  | nil => exact h
  | cons deed rest ih => exact ih (h.step deed)

end Attentive

end Line

end Exchange.Multipart
