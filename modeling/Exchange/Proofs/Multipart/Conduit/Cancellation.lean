import Exchange.Proofs.Multipart.Conduit.Attentive

/-!
What a cancel does to a line, and a drop.

The consumer's end gets nothing more and asks for nothing more. A sending that still holds its
fragment fails as soon as it goes on, whatever credit there is for it (`Line.Stopping.doomed`). A
pump that failed so throws the rest of the transport away (`Line.Drains.run`). `cancel_for_good`
says this of every state behind the one in which the consumer's end was stopped.
-/
namespace Exchange.Multipart

/-! ### What a sending comes to -/

/-- The result that something has come to. -/
def Progress.result? {α β : Type} : Progress α β → Option β
  | .waiting _ => none
  | .done result => some result

namespace Line

variable {l l' : Line} {deed : Deed}

/-- The result to which a sending comes by a deed. -/
def result? (l : Line) (deed : Deed) : Option (Except Fault Unit) :=
  (l.goesOn? deed).bind fun (p, s) => (Conduit.advance p l.conduit s).1.result?

/-- A sending fails by a deed, and its fragment goes back. -/
structure Fails (l : Line) (deed : Deed) (f : Fragment) : Prop where
  result : l.result? deed = some (.error .cancelled)
  released : (l.step deed).conduit.tally = l.conduit.tally.release f.data
  ended : (l.step deed).atHand? = none
  /-- a pump throws the rest of the transport away -/
  pumped : deed = .far .pump →
    ∃ p, (l.step deed).conduit.pump = .running p (.skipping .cancelled)

/-- A sending that can come to nothing but a failure, unless it is abandoned. -/
structure Doomed (l : Line) (s : Sending) (f : Fragment) : Prop where
  goesOn : ∃ deed, l.goesOn? deed ≠ none
  fails : ∀ deed, l.goesOn? deed ≠ none → l.Fails deed f
  stays : ∀ deed, l.goesOn? deed = none → deed ≠ .abandon → (l.step deed).atHand? = some s

theorem result?_of_goes {p q : Publisher} {s : Sending} {c : Conduit}
    {result : Except Fault Unit} (hgoesOn : l.goesOn? deed = some (p, s))
    (hgoes : Conduit.Goes p l.conduit s (.done result) q c) : l.result? deed = some result := by
  rw [result?, hgoesOn]
  show (Conduit.advance p l.conduit s).1.result? = some result
  rw [hgoes.advance]
  rfl

/-- Who lets a sending go on is at it. -/
theorem sending_of_goesOn? {p : Publisher} {s : Sending} (h : l.goesOn? deed = some (p, s)) :
    deed = .resume ∧ l.errand = some (.sending s) ∧ l.conduit.publisher = some p ∨
      deed = .far .pump ∧ l.conduit.pump = .running p (.sending s) := by
  cases deed with
  | resume =>
    obtain ⟨q, hp, hsending⟩ := Option.bind_eq_some_iff.1 h
    obtain ⟨s', hs, heq⟩ := Option.map_eq_some_iff.1 hsending
    cases heq
    obtain ⟨errand, herrand, hsame⟩ := Option.bind_eq_some_iff.1 hs
    cases errand with
    | sending s' => exact .inl ⟨rfl, Option.some.inj hsame ▸ herrand, hp⟩
    | failing e sent => cases hsame
  | far e =>
    cases e with
    | pump =>
      rw [goesOn?] at h
      split at h
      · next hrun =>
        cases h
        exact .inr ⟨rfl, hrun⟩
      · cases h
    | _ => cases h
  | _ => cases h

/-- A sending that is at hand is the pump's, or that of who owns the publisher. -/
theorem sending_of_atHand? {s : Sending} (h : l.atHand? = some s) :
    (∃ p, l.conduit.pump = .running p (.sending s)) ∨ l.errand = some (.sending s) := by
  rcases Option.or_eq_some_iff.1 h with hpump | ⟨-, hsending⟩
  · left
    cases hrun : l.conduit.pump with
    | running p doing =>
      rw [hrun] at hpump
      cases doing with
      | sending s' => exact ⟨p, by rw [Option.some.inj hpump]⟩
      | _ => cases hpump
    | _ =>
      rw [hrun] at hpump
      cases hpump
  · right
    obtain ⟨errand, herrand, hsame⟩ := Option.bind_eq_some_iff.1 hsending
    cases errand with
    | sending s' => rwa [← Option.some.inj hsame]
    | failing e sent => cases hsame

theorem Handed.atHand?_of_goesOn? (h : l.Handed) {p : Publisher} {s : Sending}
    (hgoesOn : l.goesOn? deed = some (p, s)) : l.atHand? = some s := by
  rcases sending_of_goesOn? hgoesOn with ⟨-, herrand, hp⟩ | ⟨-, hrun⟩
  · exact atHand?_of_sending herrand (h.owned hp)
  · exact h.atHand?_pump hrun

/-- A sending that is at hand can go on. -/
theorem Attentive.exists_goesOn? (h : l.Attentive) {s : Sending} (hathand : l.atHand? = some s) :
    ∃ deed p, l.goesOn? deed = some (p, s) := by
  rcases sending_of_atHand? hathand with ⟨p, hrun⟩ | herrand
  · exact ⟨.far .pump, p, by rw [goesOn?, hrun]⟩
  · obtain ⟨p, hp⟩ := Option.ne_none_iff_exists'.1 (h.manned (by rw [herrand]; rintro ⟨⟩))
    exact ⟨.resume, p, goesOn?_of_sending herrand hp⟩

/-- Nobody but who lets it go on touches a sending, unless it is abandoned. -/
theorem Handed.stays (h : l.Handed) {s : Sending} (hathand : l.atHand? = some s)
    (hgoesOn : l.goesOn? deed = none) (hdeed : deed ≠ .abandon) :
    (l.step deed).atHand? = some s := by
  have hdoes := l.does deed
  generalize l.step deed = l' at hdoes ⊢
  rcases sending_of_atHand? hathand with ⟨p, hrun⟩ | herrand
  · have hpump : deed ≠ .far .pump := by
      rintro rfl
      rw [goesOn?, hrun] at hgoesOn
      cases hgoesOn
    rw [atHand?, hdoes.pump_alone (by rw [hrun]; rintro ⟨⟩) hpump, hrun]
    rfl
  · have haside := hdoes.aside
    cases hdoes with
    | idles _ => exact hathand
    | asks _ | takes _ _ | cancels _ _ _ | drops _ | letsGo _ | feeds _ | finishes =>
      exact (haside rfl).atHand?.symm.trans hathand
    | sends _ hnone _ | fails _ hnone _ | completes hnone | hands hnone _ _ =>
      cases hnone.symm.trans herrand
    | waits _ hp _ | returns _ hp _ =>
      cases (goesOn?_of_sending herrand hp).symm.trans hgoesOn
    | lingers hfailing _ _ | ends hfailing _ _ => cases hfailing.symm.trans herrand
    | forsakes _ | relents _ => exact absurd rfl hdeed
    | pumps hpumps =>
      obtain rfl := hpumps.rests_of_idle (h.idle herrand)
      exact hathand

/-- A sending that is begun is at hand, and waits for credit first. -/
theorem Handed.begun (h : l.Handed) {f : Fragment} (hbegins : l.begins deed = some f) :
    (l.step deed).atHand? = some (.credit f false) := by
  have hsends : ∀ {deed}, l.sends? deed = some f →
      (l.step deed).atHand? = some (.credit f false) := by
    intro deed hsends
    have hdoes := l.does deed
    generalize l.step deed = l' at hdoes ⊢
    cases hdoes with
    | idles hidles => exact nomatch (sends?_of_idles hidles).symm.trans hsends
    | sends g herrand hp =>
      obtain rfl := Option.some.inj ((sends?_of_ready g herrand hp).symm.trans hsends)
      exact atHand?_of_sending rfl (h.owned hp)
    | _ => cases hsends
  unfold begins at hbegins
  split at hbegins
  · split at hbegins
    · next hrun hitems =>
      cases hbegins
      have hpump : (l.step (.far .pump)).conduit.pump.sending? = some (.credit f false) := by
        show l.conduit.pumpStep.pump.sending? = _
        rw [Conduit.pumpStep, hrun]
        dsimp only
        rw [Conduit.readStep, hitems]
        rfl
      rw [atHand?, hpump, Option.some_or]
    · cases hbegins
  · exact hsends hbegins

/-- A line whose consumer's end was stopped. -/
structure Stopping (l : Line) : Prop extends Attentive l where
  stopped : l.conduit.Stopped

namespace Stopping

variable {l : Line} {deed : Deed}

theorem step (h : l.Stopping) (deed : Deed) : (l.step deed).Stopping :=
  ⟨h.toAttentive.step deed, stopped_step h.stopped deed⟩

theorem run (h : l.Stopping) (deeds : List Deed) : (l.run deeds).Stopping :=
  ⟨h.toAttentive.run deeds, stopped_run h.stopped deeds⟩

theorem closed (h : l.Stopping) : l.conduit.queue.closed = true := h.shut.2 h.stopped

/-- Nothing is in the queue that could hold a sending up. -/
theorem free (h : l.Stopping) : l.conduit.queue.parked = false :=
  eq_false_of_ne_true fun hparked => h.held hparked (h.empty h.closed)

/-! ### The consumer's end -/

theorem polls_nothing (h : l.Stopping) (hthere : l.conduit.dropped = false) :
    l.conduit.poll = (.finished, l.conduit) := by
  rcases h.stopped with hcancelled | hdropped
  · obtain ⟨hfinished, hsame⟩ := l.conduit.polls.stopped hcancelled
    exact Prod.ext hfinished hsame
  · exact nomatch hthere.symm.trans hdropped

theorem requests_nothing (h : l.Stopping) (n : UInt64) : l.step (.request n) = l := by
  show l.ask (Conduit.request n.toNat) = l
  unfold ask
  split
  · rfl
  · next hthere =>
    rw [Conduit.request_cancelled (h.stopped.resolve_right hthere)]

/-! ### Sendings -/

theorem fails (h : l.Stopping) {p : Publisher} {s : Sending} {f : Fragment}
    (hgoesOn : l.goesOn? deed = some (p, s)) (hheld : s.held? = some f) : l.Fails deed f := by
  have hhas : l.conduit.Has p := by
    rcases sending_of_goesOn? hgoesOn with ⟨-, -, hp⟩ | ⟨-, hrun⟩
    · exact .inl hp
    · exact .inr ⟨_, hrun⟩
  have hgoes := Conduit.goes p l.conduit s
  obtain ⟨hr, signals, hc⟩ := (h.told h.stopped p hhas).fails h.closed hgoes hheld
  generalize (Conduit.advance p l.conduit s).2.1 = q at hgoes
  rw [hr, hc] at hgoes
  have hresult := result?_of_goes hgoesOn hgoes
  rcases sending_of_goesOn? hgoesOn with ⟨rfl, herrand, hp⟩ | ⟨rfl, hrun⟩
  · have hidle := h.owned hp
    have hstep : l.step .resume = { l with
        conduit := { l.conduit with
          signals, tally := l.conduit.tally.release f.data, publisher := some q }
        errand := none } := by
      show l.resume = _
      unfold resume
      rw [herrand, hp]
      dsimp only
      rw [hgoes.advance]
    refine ⟨hresult, by rw [hstep], ?_, nofun⟩
    rw [hstep, atHand?, sending?]
    dsimp only
    rw [hidle]
    rfl
  · have hstep : l.step (.far .pump) = { l with
        conduit := { l.conduit with
          signals, tally := l.conduit.tally.release f.data
          pump := .running q (.skipping .cancelled) } } := by
      show { l with conduit := l.conduit.pumpStep } = _
      rw [Conduit.pumpStep, hrun]
      dsimp only
      rw [Conduit.sendStep, hgoes.advance]
    refine ⟨hresult, by rw [hstep], ?_, fun _ => ⟨q, by rw [hstep]⟩⟩
    rw [hstep, atHand?]
    exact h.sending?_none hrun

theorem doomed (h : l.Stopping) {s : Sending} {f : Fragment} (hathand : l.atHand? = some s)
    (hheld : s.held? = some f) : l.Doomed s f := by
  obtain ⟨deed, p, hgoesOn⟩ := h.exists_goesOn? hathand
  refine ⟨⟨deed, by rw [hgoesOn]; exact nofun⟩, fun deed' hgoesOn' => ?_,
    fun deed' => h.stays hathand⟩
  obtain ⟨⟨q, s'⟩, hgoesOn'⟩ := Option.ne_none_iff_exists'.1 hgoesOn'
  obtain rfl := Option.some.inj ((h.atHand?_of_goesOn? hgoesOn').symm.trans hathand)
  exact h.fails hgoesOn' hheld

end Stopping

/-! ### Throwing the transport away -/

/-- The item that a pump takes from the transport by a deed. -/
def fetches (l : Line) : Deed → Option Item
  | .far .pump =>
    match l.conduit.pump with
    | .running _ .reading | .running _ (.skipping _) => l.conduit.transport.items.head?
    | _ => none
  | _ => none

end Line

/-- The items that a pump took from the transport in a run. -/
def fetchedBy : List Deed → Line → List Item
  | [], _ => []
  | deed :: rest, l => (l.fetches deed).toList ++ fetchedBy rest (l.step deed)

namespace Line

variable {l : Line} {deed : Deed}

/-- How far a pump, whose sending has failed, has thrown the transport away in a run. -/
inductive Drains (l : Line) (deeds : List Deed) : Prop where
  /-- it is not through -/
  | skips {p : Publisher} (fs : List Fragment) :
      (l.run deeds).conduit.pump = .running p (.skipping .cancelled) →
      fetchedBy deeds l = fs.map .ok →
      fs.map .ok ++ (l.run deeds).conduit.transport.items =
        l.conduit.transport.items ++ readBy deeds → Drains l deeds
  /-- it came to the end of the transport -/
  | stops (first last : List Deed) (fs : List Fragment) : deeds = first ++ .far .pump :: last →
      (l.run first).conduit.transport.ended = true →
      (l.run deeds).conduit.pump = .finished (.error .cancelled) →
      fetchedBy deeds l = fs.map .ok → fs.map .ok = l.conduit.transport.items ++ readBy first →
      Drains l deeds
  /-- it came to a fault of the transport, the first one -/
  | breaks (fs : List Fragment) (e : Fault) :
      (l.run deeds).conduit.pump = .finished (.error .cancelled) →
      fetchedBy deeds l = fs.map .ok ++ [.error e] →
      fs.map .ok ++ [.error e] <+: l.conduit.transport.items ++ readBy deeds → Drains l deeds

theorem fetches_skipping {p : Publisher} {e : Fault}
    (hrun : l.conduit.pump = .running p (.skipping e)) :
    l.fetches (.far .pump) = l.conduit.transport.items.head? := by
  rw [fetches, hrun]

theorem fetches_other (hdeed : deed ≠ .far .pump) : l.fetches deed = none := by
  unfold fetches
  split
  · exact absurd rfl hdeed
  · rfl

/-- A pump that has finished stays so and takes nothing more. -/
theorem finished_run {result : Except Fault Unit} (h : l.conduit.pump = .finished result)
    (deeds : List Deed) :
    (l.run deeds).conduit.pump = .finished result ∧ fetchedBy deeds l = [] := by
  induction deeds generalizing l with
  | nil => exact ⟨h, rfl⟩
  | cons deed rest ih =>
    have hnext : (l.step deed).conduit.pump = .finished result ∧ l.fetches deed = none := by
      by_cases hdeed : deed = .far .pump
      · subst hdeed
        have hpump : l.conduit.pumpStep = l.conduit :=
          Conduit.pumpStep_of_not_running fun p doing hrun => nomatch h.symm.trans hrun
        refine ⟨?_, by rw [fetches, h]⟩
        show l.conduit.pumpStep.pump = _
        rw [hpump, h]
      · exact ⟨((l.does deed).pump_alone (by rw [h]; exact nofun) hdeed).trans h,
          fetches_other hdeed⟩
    obtain ⟨hrest, hfetched⟩ := ih hnext.1
    rw [fetchedBy, hnext.2, hfetched]
    exact ⟨hrest, rfl⟩

/-- What the connection reads joins what waits in the transport. -/
theorem Attentive.reads (h : l.Attentive)
    (hlive : ∀ result, l.conduit.pump ≠ .finished result) (hdeed : deed ≠ .far .pump) :
    (l.step deed).conduit.transport.items =
      l.conduit.transport.items ++ deed.item?.toList := by
  have hdoes := l.does deed
  generalize l.step deed = l' at hdoes ⊢
  cases hdoes with
  | idles hidles =>
    cases deed with
    | far e => exact hidles.elim
    | _ => exact (List.append_nil _).symm
  | asks n =>
    obtain ⟨signals, hrequest⟩ := l.conduit.request_signals n.toNat
    rw [hrequest]
    exact (List.append_nil _).symm
  | takes _ hpoll =>
    obtain ⟨queue, rfl, -⟩ := (Conduit.polls_of_poll hpoll).frame
    exact (List.append_nil _).symm
  | waits _ _ hgoes | returns _ _ hgoes =>
    exact (congrArg Transport.items hgoes.frame.2.2.1).trans (List.append_nil _).symm
  | lingers _ _ hpasses | ends _ _ hpasses => cases hpasses <;> exact (List.append_nil _).symm
  | @forsakes s _ =>
    obtain ⟨tally, htally⟩ := Conduit.abandon_frame s l.conduit
    rw [htally]
    exact (List.append_nil _).symm
  | pumps _ => exact absurd rfl hdeed
  | feeds i =>
    show (l.conduit.feed i).2.transport.items = _
    rw [Conduit.feed_open (h.unread hlive)]
    rfl
  | _ => exact (List.append_nil _).symm

theorem Drains.cons {rest : List Deed} (front : List Fragment) (h : (l.step deed).Drains rest)
    (hfetches : (l.fetches deed).toList = front.map .ok)
    (hitems : l.conduit.transport.items ++ deed.item?.toList =
      front.map .ok ++ (l.step deed).conduit.transport.items) : l.Drains (deed :: rest) := by
  have hread : ∀ deeds, l.conduit.transport.items ++ readBy (deed :: deeds) =
      front.map .ok ++ ((l.step deed).conduit.transport.items ++ readBy deeds) := by
    intro deeds
    rw [readBy_cons, ← List.append_assoc, hitems, List.append_assoc]
  have hfetched : fetchedBy (deed :: rest) l = front.map .ok ++ fetchedBy rest (l.step deed) := by
    rw [fetchedBy, hfetches]
  cases h with
  | skips fs hrun hmore hleft =>
    refine .skips (front ++ fs) hrun ?_ ?_
    · rw [hfetched, hmore, List.map_append]
    · rw [hread, ← hleft, List.map_append, List.append_assoc]
      rfl
  | stops first last fs hsplit hended hfinished hmore hall =>
    refine .stops (deed :: first) last (front ++ fs) ?_ hended hfinished ?_ ?_
    · rw [hsplit, List.cons_append]
    · rw [hfetched, hmore, List.map_append]
    · rw [hread, ← hall, List.map_append]
  | breaks fs e hfinished hmore hfirst =>
    refine .breaks (front ++ fs) e hfinished ?_ ?_
    · rw [hfetched, hmore, List.map_append, List.append_assoc]
    · rw [hread, List.map_append, List.append_assoc]
      exact (List.prefix_append_right_inj _).2 hfirst

/-- A pump whose sending has failed takes what the transport has, up to its end or its first fault,
and then it ends with that failure. -/
theorem Drains.run (h : l.Attentive) {p : Publisher}
    (hrun : l.conduit.pump = .running p (.skipping .cancelled)) (deeds : List Deed) :
    l.Drains deeds := by
  induction deeds generalizing l p with
  | nil => exact .skips [] hrun rfl (List.append_nil _).symm
  | cons deed rest ih =>
    by_cases hdeed : deed = .far .pump
    · subst hdeed
      have hfetches := fetches_skipping hrun
      have hnext := h.step (.far .pump)
      have hpumps : Conduit.Pumps l.conduit (l.step (.far .pump)).conduit := l.conduit.pumps
      generalize hafter : (l.step (.far .pump)).conduit = after at hpumps
      cases hpumps with
      | rests hrests =>
        rw [Conduit.Rests, hrun] at hrests
        refine .cons [] (ih hnext (by rwa [hafter])) ?_ ?_
        · rw [hfetches, hrests.1]
          rfl
        · rw [hafter]
          exact List.append_nil _
      | @skips _ _ f items hrun' hitems =>
        refine .cons [f] (ih hnext (by rw [hafter]; exact hrun)) ?_ ?_
        · rw [hfetches, hitems]
          rfl
        · rw [hafter, hitems]
          exact List.append_nil _
      | stops hrun' hnone hended =>
        cases hrun.symm.trans hrun'
        obtain ⟨hfinished, hfetched⟩ := finished_run (congrArg Conduit.pump hafter) rest
        refine .stops [] rest [] rfl hended hfinished ?_ ?_
        · rw [fetchedBy, hfetches, hnone, hfetched]
          rfl
        · rw [hnone]
          rfl
      | @breaks _ _ e items hrun' hitems =>
        cases hrun.symm.trans hrun'
        obtain ⟨hfinished, hfetched⟩ := finished_run (congrArg Conduit.pump hafter) rest
        refine .breaks [] e hfinished ?_ ?_
        · rw [fetchedBy, hfetches, hitems, hfetched]
          rfl
        · rw [hitems]
          exact ⟨items ++ readBy (.far .pump :: rest), rfl⟩
      | takes hrun' _ | meets hrun' _ | waits hrun' _ | sent hrun' _ | refused hrun' _
      | fails hrun' _ | completes hrun' _ _ | lodges hrun' _ _ | passes hrun' _ _ =>
        cases hrun.symm.trans hrun'
    · have hpump := (l.does deed).pump_alone (by rw [hrun]; rintro ⟨⟩) hdeed
      have hitems := h.reads (fun result hfinished => by cases hrun.symm.trans hfinished) hdeed
      exact .cons [] (ih (h.step deed) (hpump.trans hrun))
        (by rw [fetches_other hdeed]; rfl) hitems.symm

theorem step_skipping {p : Publisher} {e : Fault}
    (hrun : l.conduit.pump = .running p (.skipping e)) :
    (l.step (.far .pump)).conduit = l.conduit.skipStep e := by
  show l.conduit.pumpStep = _
  rw [Conduit.pumpStep, hrun]

/-- A pump whose sending has failed gives back what it takes from the transport. -/
theorem returns_fetched {p : Publisher} {e : Fault}
    (hrun : l.conduit.pump = .running p (.skipping e)) {f : Fragment}
    (hfetches : l.fetches deed = some (.ok f)) :
    (l.step deed).conduit.tally = l.conduit.tally.release f.data := by
  have hdeed : deed = .far .pump := by
    by_contra hdeed
    exact nomatch (fetches_other hdeed).symm.trans hfetches
  subst hdeed
  obtain ⟨items, hitems⟩ := List.head?_eq_some_iff.1 ((fetches_skipping hrun).symm.trans hfetches)
  rw [step_skipping hrun, Conduit.skipStep, hitems]
  rfl

/-- Where the transport ends or has a fault, as many steps as it has items and one more are enough
for a pump whose sending has failed. -/
theorem drained {p : Publisher} {e : Fault} (hrun : l.conduit.pump = .running p (.skipping e))
    (hends : l.conduit.transport.ended = true ∨ ∃ e, .error e ∈ l.conduit.transport.items) :
    (l.run (.replicate (l.conduit.transport.items.length + 1) (.far .pump))).conduit.pump =
      .finished (.error e) := by
  generalize hitems : l.conduit.transport.items = items at hends ⊢
  induction items generalizing l with
  | nil =>
    refine (finished_run (l := l.step (.far .pump)) ?_ []).1
    rw [step_skipping hrun, Conduit.skipStep, hitems]
    dsimp only
    rw [if_pos (hends.resolve_right fun ⟨e, hmem⟩ => nomatch hmem)]
    rfl
  | cons i rest ih =>
    cases i with
    | error e' =>
      refine (finished_run (l := l.step (.far .pump)) ?_ (.replicate _ (.far .pump))).1
      rw [step_skipping hrun, Conduit.skipStep, hitems]
      rfl
    | ok f =>
      have hnext : (l.step (.far .pump)).conduit = { l.conduit.giveBack f.data with
          transport := { l.conduit.transport with items := rest } } := by
        rw [step_skipping hrun, Conduit.skipStep, hitems]
      refine ih (l := l.step (.far .pump)) ?_ ?_ ?_
      · rw [hnext]
        exact hrun
      · rw [hnext]
      · rw [hnext]
        refine hends.imp_right ?_
        rintro ⟨e', hmem⟩
        exact ⟨e', (List.mem_cons.1 hmem).resolve_left nofun⟩

end Line

/-- **A cancel is for good.** Once the consumer's end of a line of any capacity was cancelled or
dropped, whatever is done then, it receives nothing and its requests change nothing, and nothing
enters the queue. Whoever begins to send waits for credit, and that sending fails as soon as it goes
on, as does each other that still holds its fragment, whatever credit and whatever requests there
are for it. A pump that failed so takes what the transport has, up to its end or its first fault,
gives it back, and then ends with the failure. -/
theorem cancel_for_good (capacity : Nat) (deeds more : List Deed) :
    let l := (Line.ofCapacity capacity).run deeds
    let l' := l.run more
    l.conduit.Stopped →
      receivedBy more l = [] ∧ enteredBy more l = [] ∧
      (l'.conduit.dropped = false → l'.conduit.poll = (.finished, l'.conduit)) ∧
      (∀ n, l'.step (.request n) = l') ∧
      (∀ deed f, l'.begins deed = some f → (l'.step deed).atHand? = some (.credit f false)) ∧
      (∀ s f, l'.atHand? = some s → s.held? = some f → l'.Doomed s f) ∧
      ∀ p, l'.conduit.pump = .running p (.skipping .cancelled) →
        (∀ rest, l'.Drains rest) ∧
        (∀ deed f, l'.fetches deed = some (.ok f) →
          (l'.step deed).conduit.tally = l'.conduit.tally.release f.data) ∧
        (l'.conduit.transport.ended = true ∨ (∃ e, .error e ∈ l'.conduit.transport.items) →
          (l'.run (.replicate (l'.conduit.transport.items.length + 1) (.far .pump))).conduit.pump =
            .finished (.error .cancelled)) := by
  intro l l' hstopped
  have hstopping : l.Stopping := ⟨(Line.attentive_ofCapacity capacity).run deeds, hstopped⟩
  have hthen : l'.Stopping := hstopping.run more
  obtain ⟨hreceived, hentered⟩ := hstopping.quiet hstopping.closed more
  refine ⟨hreceived, hentered, hthen.polls_nothing, hthen.requests_nothing,
    fun deed f => hthen.begun, fun s f => hthen.doomed, fun p hrun => ?_⟩
  exact ⟨.run hthen.toAttentive hrun, fun deed f => Line.returns_fetched hrun, Line.drained hrun⟩

/-- The pump has sent one fragment and waits for credit with another one when the consumer asks for
five more and cancels then. -/
def cancelledBetween : List Deed :=
  let read (name : String) : Deed := .far (.feed (.ok (named name)))
  let pumped (n : Nat) : List Deed := .replicate n (.far .pump)
  [.request 1, .startPump, read "a", read "b", read "c"] ++ pumped 2 ++ [.poll] ++ pumped 3 ++
    [.request 5, .cancel, .far .finish]

theorem cancel_for_good_cancelledBetween :
    let l := (Line.ofCapacity 0).run cancelledBetween
    l.conduit.Stopped ∧ l.conduit.signals = [.request 5, .cancel] ∧
      l.Doomed (.credit (named "b") true) (named "b") ∧
      ∃ p, (l.step (.far .pump)).conduit.pump = .running p (.skipping .cancelled) ∧ p.credit = 5 ∧
        (l.run (.replicate 3 (.far .pump))).conduit.pump = .finished (.error .cancelled) := by
  intro l
  have hcancelled : l.conduit.cancelled = true := by decide +kernel
  have hathand : l.atHand? = some (.credit (named "b") true) := by cbv
  obtain ⟨-, -, -, -, -, hdoomed, -⟩ := cancel_for_good 0 cancelledBetween [] (.inl hcancelled)
  -- behind the step by which the sending fails
  have hrun : (l.run [.far .pump]).conduit.pump =
      .running ⟨5, true⟩ (.skipping .cancelled) := by cbv
  obtain ⟨-, -, -, -, -, -, hpump⟩ :=
    cancel_for_good 0 cancelledBetween [.far .pump] (.inl hcancelled)
  obtain ⟨-, -, hdrained⟩ := hpump _ hrun
  have hended : (l.run [.far .pump]).conduit.transport.ended = true := by decide +kernel
  exact ⟨.inl hcancelled, by cbv, hdoomed _ _ hathand rfl, _, hrun, rfl, hdrained (.inl hended)⟩

end Exchange.Multipart
