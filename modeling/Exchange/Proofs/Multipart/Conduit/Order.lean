import Exchange.Proofs.Multipart.Conduit.Sends

/-!
In which sequence a line conveys, and how much it holds.

The items that the consumer received and those that are in the queue are the items that entered it,
one after the other (`Barred.received_all`), and the queue never holds more than one item above its
capacity (`Fits.length_le`). Nothing enters behind a fault (`Handed.fault_last`). What enters is
what was sent, and behind a pump what the connection read. `order_and_bound` says all of this of
every run.
-/
namespace Exchange.Multipart

/-! ### First in, first out -/

/-- The items that the consumer received in a run. -/
def receivedBy : List Deed → Line → List Item
  | [], _ => []
  | deed :: rest, l => l.receives deed ++ receivedBy rest (l.step deed)

namespace Queue

variable {q q' : Queue} {taken put : List Item}

/-- Items leave a queue in the sequence in which they entered it, unless it is shut. -/
theorem Moves.passes (h : q.Moves taken put q') :
    taken ++ q'.items = q.items ++ put ∨ taken = [] ∧ put = [] ∧ q'.closed = true := by
  cases h with
  | stays => exact .inl (List.append_nil _).symm
  | takes hitems =>
    rw [hitems, List.append_nil]
    exact .inl rfl
  | puts i _ _ => exact .inl rfl
  | shuts => exact .inr ⟨rfl, rfl, rfl⟩

/-- At most one item is put in. -/
theorem Moves.put_one (h : q.Moves taken put q') :
    put = [] ∨ (∃ f, put = [.ok f]) ∨ ∃ e, put = [.error e] := by
  cases h with
  | puts i _ _ =>
    cases i with
    | ok f => exact .inr (.inl ⟨f, rfl⟩)
    | error e => exact .inr (.inr ⟨e, rfl⟩)
  | _ => exact .inl rfl

/-- A queue of some capacity that holds no more than one item above it, and holds its sender up
when it does. -/
structure Fits (capacity : Nat) (q : Queue) : Prop where
  size : q.capacity = capacity
  bound : q.items.length ≤ capacity + if q.parked then 1 else 0

theorem Fits.moves {capacity : Nat} (h : q.Fits capacity) (hmoves : q.Moves taken put q') :
    q'.Fits capacity := by
  obtain ⟨rfl, hbound⟩ := h
  cases hmoves with
  | stays => exact ⟨rfl, hbound⟩
  | takes hitems =>
    refine ⟨rfl, ?_⟩
    rw [hitems, List.length_cons] at hbound
    split at hbound <;> simp <;> omega
  | puts i _ hfree =>
    refine ⟨rfl, ?_⟩
    rw [hfree] at hbound
    simp only [push, List.length_append, List.length_singleton, decide_eq_true_eq]
    split <;> simp at hbound <;> omega
  | shuts => exact ⟨rfl, Nat.zero_le _⟩

theorem Fits.length_le {capacity : Nat} (h : q.Fits capacity) :
    q.items.length ≤ capacity + 1 := by
  have hbound := h.bound
  split at hbound <;> omega

end Queue

namespace Line

variable {l : Line}

theorem fits_run {capacity : Nat} (h : l.conduit.queue.Fits capacity) (deeds : List Deed) :
    (l.run deeds).conduit.queue.Fits capacity := by
  induction deeds generalizing l with
  | nil => exact h
  | cons deed rest ih => exact ih (h.moves (l.moves deed))

/-- Nothing enters a queue that is shut, and nothing comes out of it. -/
theorem Barred.quiet (h : l.Barred) (hshut : l.conduit.queue.closed = true) (deeds : List Deed) :
    receivedBy deeds l = [] ∧ enteredBy deeds l = [] := by
  induction deeds generalizing l with
  | nil => exact ⟨rfl, rfl⟩
  | cons deed rest ih =>
    have hmoves := l.moves deed
    obtain ⟨hreceived, hentered⟩ := ih (h.step deed) (hmoves.closed hshut)
    rw [receivedBy, enteredBy, hreceived, hentered, List.append_nil, List.append_nil]
    generalize l.receives deed = taken at hmoves
    generalize l.conduit.entered (l.step deed).conduit = put at hmoves
    generalize (l.step deed).conduit.queue = after at hmoves
    cases hmoves with
    | stays => exact ⟨rfl, rfl⟩
    | takes hitems => cases hitems.symm.trans (h.empty hshut)
    | puts i hopen _ => cases hopen.symm.trans hshut
    | shuts => exact ⟨rfl, rfl⟩

/-- The consumer receives what enters the queue, in the same sequence. -/
theorem Barred.received_first (h : l.Barred) (deeds : List Deed) :
    receivedBy deeds l <+: l.conduit.queue.items ++ enteredBy deeds l := by
  induction deeds generalizing l with
  | nil => exact List.nil_prefix
  | cons deed rest ih =>
    rw [receivedBy, enteredBy]
    rcases (l.moves deed).passes with hpasses | ⟨htaken, -, hshut⟩
    · rw [← List.append_assoc, ← hpasses, List.append_assoc, List.prefix_append_right_inj]
      exact ih (h.step deed)
    · rw [htaken, ((h.step deed).quiet hshut rest).1]
      exact List.nil_prefix

/-- What was received and what is in the queue is what entered it, in this sequence, until somebody
stops the conduit. -/
theorem Barred.received_all (h : l.Barred) (deeds : List Deed)
    (hlive : ¬ (l.run deeds).conduit.Stopped) :
    receivedBy deeds l ++ (l.run deeds).conduit.queue.items =
      l.conduit.queue.items ++ enteredBy deeds l := by
  induction deeds generalizing l with
  | nil => exact (List.append_nil _).symm
  | cons deed rest ih =>
    have hnext := h.step deed
    rw [receivedBy, enteredBy]
    rcases (l.moves deed).passes with hpasses | ⟨-, -, hshut⟩
    · rw [← List.append_assoc, ← hpasses, List.append_assoc, List.append_assoc]
      exact congrArg (l.receives deed ++ ·) (ih hnext hlive)
    · exact absurd (stopped_run (hnext.shut.1 hshut) rest) hlive

end Line

/-! ### Faults -/

/-- No fault enters by a sending. -/
theorem Conduit.Goes.no_fault {p q : Publisher} {c c' d : Conduit} {s : Sending} {e : Fault}
    {r : Progress Sending (Except Fault Unit)} (h : Goes p c s r q c')
    (hentered : .error e ∈ c.entered d) (hqueue : d.queue = c'.queue := by rfl) : False := by
  obtain ⟨fs, hitems, -, -⟩ := h.queue
  rw [Conduit.entered_of_append (hqueue ▸ hitems)] at hentered
  simp at hentered

namespace Line

variable {l l' : Line} {deed : Deed}

/-- Nobody can put anything into the queue any more, as whoever could has put a fault there, or is
gone. -/
structure Sealed (l : Line) : Prop where
  owned : l.errand = none ∧ l.conduit.publisher = none ∨ ∃ e, l.errand = some (.failing e true)
  pumped : l.conduit.pump = .idle ∨ (∃ result, l.conduit.pump = .finished result) ∨
    ∃ p e, l.conduit.pump = .running p (.failing e true)

/-- Who has the publisher and nothing begun could put something in. -/
theorem Sealed.not_ready (h : l.Sealed) {p : Publisher} (herrand : l.errand = none)
    (hp : l.conduit.publisher = some p) : False := by
  rcases h.owned with ⟨-, hnone⟩ | ⟨e, hfailing⟩
  · exact nomatch hnone.symm.trans hp
  · exact nomatch hfailing.symm.trans herrand

theorem Sealed.not_sending (h : l.Sealed) {s : Sending} (herrand : l.errand = some (.sending s)) :
    False := by
  rcases h.owned with ⟨hnone, -⟩ | ⟨e, hfailing⟩
  · exact nomatch hnone.symm.trans herrand
  · exact nomatch hfailing.symm.trans herrand

theorem Sealed.aside (h : l.Sealed) (haside : l.Aside l') : l'.Sealed := by
  refine ⟨?_, ?_⟩
  · rw [haside.errand, haside.publisher]
    exact h.owned
  · rw [haside.pump]
    exact h.pumped

/-- The fault that was to be put in is there already. -/
theorem Sealed.sent (h : l.Sealed) {e : Fault} {sent : Bool}
    (herrand : l.errand = some (.failing e sent)) : sent = true := by
  rcases h.owned with ⟨hnone, -⟩ | ⟨e', hfailing⟩
  · exact nomatch hnone.symm.trans herrand
  · cases hfailing.symm.trans herrand
    rfl

theorem Sealed.pumps (h : l.Sealed) {c : Conduit} (hpumps : Conduit.Pumps l.conduit c) :
    Sealed { l with conduit := c } ∧ l.conduit.entered c = [] := by
  have hrun : ∀ {p doing}, l.conduit.pump = .running p doing → ∃ e, doing = .failing e true := by
    intro p doing hrun
    rcases h.pumped with hidle | ⟨result, hfinished⟩ | ⟨p', e, hfailing⟩
    · exact nomatch hidle.symm.trans hrun
    · exact nomatch hfinished.symm.trans hrun
    · cases hfailing.symm.trans hrun
      exact ⟨e, rfl⟩
  cases hpumps with
  | rests _ => exact ⟨h, Conduit.entered_of_le (Nat.le_refl _)⟩
  | fails _ _ => exact ⟨⟨h.owned, .inr (.inl ⟨_, rfl⟩)⟩, Conduit.entered_of_le (Nat.le_refl _)⟩
  | takes hp _ | meets hp _ | waits hp _ | sent hp _ | refused hp _ | skips hp _ | breaks hp _
  | completes hp _ _ | lodges hp _ _ | passes hp _ _ | stops hp _ _ => exact nomatch hrun hp

/-- Nothing enters behind a fault. -/
theorem Sealed.does (h : l.Sealed) (hdoes : l.Does deed l') :
    l'.Sealed ∧ l.conduit.entered l'.conduit = [] := by
  have haside : l.Aside l' → l'.Sealed ∧ l.conduit.entered l'.conduit = [] :=
    fun haside => ⟨h.aside haside, haside.quiet⟩
  have hquiet : l.conduit.entered l.conduit = [] := (Aside.refl l).quiet
  have hdeed := hdoes.aside
  cases hdoes with
  | idles _ => exact haside (.refl l)
  | asks _ | takes _ _ | cancels _ _ _ | drops _ | letsGo _ | feeds _ | finishes =>
    exact haside (hdeed rfl)
  | sends f herrand hp => exact (h.not_ready herrand hp).elim
  | fails e herrand hp => exact (h.not_ready herrand hp).elim
  | hands herrand hp _ => exact (h.not_ready herrand hp).elim
  | waits herrand _ _ => exact (h.not_sending herrand).elim
  | returns herrand _ _ => exact (h.not_sending herrand).elim
  | forsakes herrand => exact (h.not_sending herrand).elim
  | lingers herrand _ hpasses =>
    obtain rfl := h.sent herrand
    cases hpasses
    exact ⟨⟨.inr ⟨_, rfl⟩, h.pumped⟩, hquiet⟩
  | ends herrand _ hpasses =>
    obtain rfl := h.sent herrand
    cases hpasses
    exact ⟨⟨.inl ⟨rfl, rfl⟩, h.pumped⟩, hquiet⟩
  | relents _ => exact ⟨⟨.inl ⟨rfl, rfl⟩, h.pumped⟩, hquiet⟩
  | completes herrand => exact ⟨⟨.inl ⟨herrand, rfl⟩, h.pumped⟩, hquiet⟩
  | pumps hpumps => exact h.pumps hpumps

theorem Sealed.run (h : l.Sealed) (deeds : List Deed) : enteredBy deeds l = [] := by
  induction deeds generalizing l with
  | nil => rfl
  | cons deed rest ih =>
    obtain ⟨hnext, hnone⟩ := h.does (l.does deed)
    rw [enteredBy, hnone, ih hnext]
    rfl

theorem Handed.seals_pumps (h : l.Handed) {c : Conduit} (hpumps : Conduit.Pumps l.conduit c)
    {e : Fault} (hentered : .error e ∈ l.conduit.entered c) : Sealed { l with conduit := c } := by
  have hnone : c.queue = l.conduit.queue → Sealed { l with conduit := c } := by
    intro hqueue
    rw [Conduit.entered_of_le (Nat.le_of_eq (by rw [hqueue]))] at hentered
    cases hentered
  -- a pump that runs has the publisher for itself
  have halone : ∀ {p doing}, l.conduit.pump = .running p doing →
      l.errand = none ∧ l.conduit.publisher = none := by
    intro p doing hrun
    exact (h.running hrun).symm
  cases hpumps with
  | lodges hrun _ _ => exact ⟨.inl (halone hrun), .inr (.inr ⟨_, _, rfl⟩)⟩
  | passes hrun _ _ => exact ⟨.inl (halone hrun), .inr (.inl ⟨_, rfl⟩)⟩
  | waits _ hgoes | sent _ hgoes | refused _ hgoes =>
    exact (hgoes.no_fault hentered).elim
  | _ => exact hnone rfl

/-- A line into whose queue a fault enters is sealed behind it. -/
theorem Handed.seals (h : l.Handed) (hdoes : l.Does deed l') {e : Fault}
    (hentered : .error e ∈ l.conduit.entered l'.conduit) : l'.Sealed := by
  have hnone : l.conduit.entered l'.conduit = [] → l'.Sealed := by
    intro hnone
    rw [hnone] at hentered
    cases hentered
  have hquiet : l.conduit.entered l.conduit = [] := (Aside.refl l).quiet
  have hdeed := hdoes.aside
  cases hdoes with
  | asks _ | takes _ _ | cancels _ _ _ | drops _ | letsGo _ | feeds _ | finishes =>
    exact hnone (hdeed rfl).quiet
  | waits _ _ hgoes | returns _ _ hgoes => exact (hgoes.no_fault hentered).elim
  | lingers _ hp hpasses =>
    have hidle := h.owned hp
    cases hpasses with
    | lodges _ _ => exact ⟨.inr ⟨_, rfl⟩, .inl hidle⟩
    | _ => exact hnone hquiet
  | ends _ hp hpasses =>
    have hidle := h.owned hp
    cases hpasses with
    | passes _ _ => exact ⟨.inl ⟨rfl, rfl⟩, .inl hidle⟩
    | _ => exact hnone hquiet
  | @forsakes s _ =>
    obtain ⟨tally, htally⟩ := Conduit.abandon_frame s l.conduit
    rw [htally] at hnone ⊢
    exact hnone hquiet
  | pumps hpumps => exact h.seals_pumps hpumps hentered
  | _ => exact hnone hquiet

/-- A fault is the last item that enters. -/
theorem Handed.fault_last (h : l.Handed) (deeds : List Deed) {front back : List Item} {e : Fault}
    (hentered : enteredBy deeds l = front ++ .error e :: back) : back = [] := by
  induction deeds generalizing l front with
  | nil => simp [enteredBy] at hentered
  | cons deed rest ih =>
    have hdoes := l.does deed
    have hnext := h.does hdoes
    rw [enteredBy] at hentered
    rcases (l.moves deed).put_one with hput | ⟨f, hput⟩ | ⟨e', hput⟩
    · rw [hput] at hentered
      exact ih hnext hentered
    · rw [hput, List.singleton_append] at hentered
      cases front with
      | nil => cases hentered
      | cons i front => exact ih hnext (List.cons.inj hentered).2
    · -- nothing enters behind this one
      have hfault : .error e' ∈ l.conduit.entered (l.step deed).conduit := by
        rw [hput]
        exact List.mem_singleton_self _
      have hsealed := h.seals hdoes hfault
      rw [hput, hsealed.run rest] at hentered
      have hlength := congrArg List.length hentered
      simp only [List.length_append, List.length_cons, List.length_nil] at hlength
      exact List.eq_nil_of_length_eq_zero (by omega)

end Line

/-! ### Runs -/

/-- If the fragments are told apart, each is in one place. -/
theorem place_unique {items : List Item} {f : Fragment} {j k : Nat}
    (hnodup : (fragmentsIn items).Nodup) (hj : items[j]? = some (.ok f))
    (hk : items[k]? = some (.ok f)) : j = k := by
  induction items generalizing j k with
  | nil => simp at hj
  | cons i rest ih =>
    have hmem : ∀ {n : Nat}, rest[n]? = some (.ok f) → f ∈ fragmentsIn rest := fun hn =>
      List.mem_filterMap.2 ⟨_, List.mem_of_getElem? hn, rfl⟩
    have hfirst : ∀ {n : Nat}, i = .ok f → rest[n]? ≠ some (.ok f) := by
      rintro n rfl hn
      exact (List.nodup_cons.1 hnodup).1 (hmem hn)
    have hrest : (fragmentsIn rest).Nodup := by
      refine hnodup.sublist ?_
      cases i with
      | ok g => exact List.sublist_cons_self ..
      | error e => exact List.Sublist.refl _
    cases j with
    | zero =>
      cases k with
      | zero => rfl
      | succ k => exact absurd hk (hfirst (Option.some.inj hj))
    | succ j =>
      cases k with
      | zero => exact absurd hj (hfirst (Option.some.inj hk))
      | succ k => exact congrArg (· + 1) (ih hrest hj hk)

/-- **Sequence and bound.** Whatever is done with a line of any capacity, the consumer receives what
enters the queue in the sequence in which it entered, and until somebody stops the line what was
received and what is in the queue is all that entered. The fragments that were sent entered, and
those that entered were begun to be sent, in this sequence, so each of them entered once if they are
told apart. A fault enters last. What a pump puts in is the beginning of what the connection read up
to the first fault, and nothing else enters if the pump has the publisher from the start. The queue
never holds more than one item above its capacity. -/
theorem order_and_bound (capacity : Nat) (deeds : List Deed) :
    let start := Line.ofCapacity capacity
    let l := start.run deeds
    let received := receivedBy deeds start
    let entered := enteredBy deeds start
    let sent := sentBy deeds none start
    let begun := begunBy deeds start
    received <+: entered ∧
      (¬ l.conduit.Stopped → received ++ l.conduit.queue.items = entered) ∧
      sent.Sublist (fragmentsIn entered) ∧ (fragmentsIn entered).Sublist begun ∧
      (begun.Nodup → ∀ f ∈ sent, ∃! k : Nat, entered[k]? = some (.ok f)) ∧
      (∀ front e back, entered = front ++ .error e :: back → back = []) ∧
      pumpedBy deeds start <+: uptoFault (readBy deeds) ∧
      (∀ rest, deeds = .startPump :: rest → entered = pumpedBy deeds start) ∧
      l.conduit.queue.items.length ≤ capacity + 1 := by
  intro start l received entered sent begun
  have hbarred : start.Barred := Line.barred_ofCapacity capacity
  have hhanded : start.Handed := Line.handed_ofCapacity capacity
  have hentrusted : Entrusted none [] [] [] start.atHand? := .rests (.refl _) (.refl _)
  obtain ⟨hsent, hbegun⟩ := hentrusted.run hhanded deeds
  have hrelays : Conduit.Relays [] [] start.conduit := .idle rfl rfl rfl rfl
  have hfits : start.conduit.queue.Fits capacity := ⟨rfl, Nat.zero_le _⟩
  refine ⟨hbarred.received_first deeds, hbarred.received_all deeds, hsent, hbegun,
    fun hnodup f hf => ?_, fun front e back => hhanded.fault_last deeds,
    (Line.relays_run hrelays deeds).first, fun rest hdeeds => ?_,
    (Line.fits_run hfits deeds).length_le⟩
  · obtain ⟨i, hi, hfragment⟩ := List.mem_filterMap.1 (hsent.subset hf)
    obtain ⟨k, hk⟩ := List.mem_iff_getElem?.1 hi
    cases i with
    | ok g =>
      obtain rfl := Option.some.inj hfragment
      exact ⟨k, hk, fun j hj => place_unique (hnodup.sublist hbegun) hj hk⟩
    | error e => cases hfragment
  · subst hdeeds
    have hnext := hhanded.does (start.does .startPump)
    exact hnext.entered_pumped nofun rest

def named (name : String) : Fragment := ⟨{ name }, { bytes := [1] }, false⟩

/-- The first sending ends well, the second one is abandoned when the queue holds its fragment, and
then the stream ends by a fault. -/
def abandonedBetween : List Deed :=
  [.request 2, .send (named "a"), .resume, .poll, .resume, .send (named "b"), .resume, .abandon,
    .poll, .fail .cancelled, .resume, .poll, .resume]

theorem order_and_bound_abandonedBetween :
    receivedBy abandonedBetween (.ofCapacity 0) =
        [.ok (named "a"), .ok (named "b"), .error .cancelled] ∧
      sentBy abandonedBetween none (.ofCapacity 0) = [named "a"] ∧
      receivedBy abandonedBetween (.ofCapacity 0) ++
          ((Line.ofCapacity 0).run abandonedBetween).conduit.queue.items =
        enteredBy abandonedBetween (.ofCapacity 0) ∧
      ∃! k : Nat, (enteredBy abandonedBetween (.ofCapacity 0))[k]? = some (.ok (named "a")) := by
  have hsent : sentBy abandonedBetween none (.ofCapacity 0) = [named "a"] := by cbv
  have hmem : named "a" ∈ sentBy abandonedBetween none (.ofCapacity 0) := by
    rw [hsent]
    exact List.mem_singleton_self _
  have hnodup : (begunBy abandonedBetween (.ofCapacity 0)).Nodup := by
    have hbegun : begunBy abandonedBetween (.ofCapacity 0) = [named "a", named "b"] := by cbv
    have hapart : named "a" ≠ named "b" := fun h =>
      absurd (congrArg (·.field.name) h) (by decide)
    rw [hbegun]
    simp [hapart]
  have hlive : ¬ ((Line.ofCapacity 0).run abandonedBetween).conduit.Stopped := by
    rintro (h | h) <;> exact absurd h (by decide +kernel)
  obtain ⟨-, hall, -, -, honce, -⟩ := order_and_bound 0 abandonedBetween
  have hreceived : receivedBy abandonedBetween (.ofCapacity 0) =
      [.ok (named "a"), .ok (named "b"), .error .cancelled] := by cbv
  exact ⟨hreceived, hsent, hall hlive, honce hnodup _ hmem⟩

end Exchange.Multipart
