import Exchange.Multipart.Conduit.Pump

/-!
What the two ends of a conduit can do.

A sending goes on stage by stage: it reads signals, enters the queue, and is let go. `Goes` has one
case for each way in which a stage can come out, so what `advance` does is said once (`goes`).
`Pumps` says the same of one step of a pump (`pumps`) and `Polls` of a poll (`polls`), and `Far`
collects what goes on behind a consumer's back. Only these know how the steps are computed.
-/
namespace Exchange.Multipart

namespace Conduit

/-! ### Signals -/

theorem readUntilCredit_reads (signals : List Signal) (p : Publisher) :
    ∃ read rest, signals = read ++ rest ∧
      readUntilCredit p signals = (read.foldl Publisher.apply p, rest) ∧
      ((read.foldl Publisher.apply p).cancelled = false →
        (read.foldl Publisher.apply p).credit = 0 → rest = []) := by
  induction signals generalizing p with
  | nil => exact ⟨[], [], rfl, rfl, fun _ _ => rfl⟩
  | cons s rest ih =>
    rw [readUntilCredit]
    split
    · next hstop =>
      refine ⟨[], s :: rest, rfl, rfl, fun hlive hnone => ?_⟩
      change p.cancelled = false at hlive
      change p.credit = 0 at hnone
      simp [hlive, hnone] at hstop
    · obtain ⟨read, left, rfl, heq, hleft⟩ := ih (p.apply s)
      exact ⟨s :: read, left, rfl, heq, hleft⟩

theorem awaitCredit_frame (started : Bool) (p : Publisher) (c : Conduit) :
    ∃ q rest, awaitCredit started p c = (q, { c with signals := rest }) := by
  cases started <;> exact ⟨_, _, rfl⟩

/-- Waiting for credit reads signals in the sequence in which they came. Those that are left are
behind one that brought credit or a cancel. -/
theorem awaitCredit_reads {started : Bool} {p q : Publisher} {c : Conduit} {rest : List Signal}
    (h : awaitCredit started p c = (q, { c with signals := rest })) :
    ∃ read, c.signals = read ++ rest ∧ q.credit = (read.foldl Publisher.apply p).credit ∧
      (q.cancelled = true → (read.foldl Publisher.apply p).cancelled = true ∨ c.dropped = true) ∧
      (q.cancelled = false → q.credit = 0 → rest = []) := by
  cases started with
  | false =>
    obtain ⟨rfl, hrest⟩ := Prod.mk.inj h
    obtain rfl : [] = rest := congrArg signals hrest
    refine ⟨c.signals, (List.append_nil _).symm, rfl, ?_, fun _ _ => rfl⟩
    simp
  | true =>
    obtain ⟨read, left, hsplit, heq, hleft⟩ := readUntilCredit_reads c.signals p
    unfold awaitCredit at h
    rw [if_pos rfl, heq] at h
    obtain ⟨rfl, hrest⟩ := Prod.mk.inj h
    obtain rfl : left = rest := congrArg signals hrest
    refine ⟨read, hsplit, rfl, ?_, fun hlive hnone => ?_⟩
    · simp only [Bool.or_eq_true, Bool.and_eq_true]
      exact Or.imp_right And.right
    · rw [Bool.or_eq_false_iff] at hlive
      exact hleft hlive.1 hnone

/-! ### One sending -/

/-- How a sending goes on from where it waits. -/
inductive Goes : Publisher → Conduit → Sending → Progress Sending (Except Fault Unit) →
    Publisher → Conduit → Prop where
  | refused {p q : Publisher} {c : Conduit} {rest : List Signal} (f : Fragment) (started : Bool) :
      awaitCredit started p c = (q, { c with signals := rest }) → q.cancelled = true →
      Goes p c (.credit f started) (.done (.error .cancelled)) q
        ({ c with signals := rest }.giveBack f.data)
  | unpaid {p q : Publisher} {c : Conduit} {rest : List Signal} (f : Fragment) (started : Bool) :
      awaitCredit started p c = (q, { c with signals := rest }) → q.cancelled = false →
      q.credit = 0 →
      Goes p c (.credit f started) (.waiting (.credit f true)) q { c with signals := rest }
  | paid {p q p' : Publisher} {c c' : Conduit} {rest : List Signal}
      {r : Progress Sending (Except Fault Unit)} (f : Fragment) (started : Bool) :
      awaitCredit started p c = (q, { c with signals := rest }) → q.cancelled = false →
      0 < q.credit → Goes q { c with signals := rest } (.room f) r p' c' →
      Goes p c (.credit f started) r p' c'
  | shut {p : Publisher} {c : Conduit} (f : Fragment) : c.queue.closed = true →
      Goes p c (.room f) (.done (.error .cancelled)) { p with cancelled := true }
        (c.giveBack f.data)
  | crowded {p : Publisher} {c : Conduit} (f : Fragment) : c.queue.closed = false →
      c.queue.parked = true → Goes p c (.room f) (.waiting (.room f)) p c
  | entered {p p' : Publisher} {c c' : Conduit} {r : Progress Sending (Except Fault Unit)}
      (f : Fragment) : c.queue.closed = false → c.queue.parked = false →
      Goes p { c with queue := c.queue.push (.ok f) } .release r p' c' →
      Goes p c (.room f) r p' c'
  | held {p : Publisher} {c : Conduit} : c.queue.parked = true →
      Goes p c .release (.waiting .release) p c
  | released {p : Publisher} {c : Conduit} : c.queue.parked = false →
      Goes p c .release (.done (.ok ())) { p with credit := p.credit - 1 } c

theorem goes_release (p : Publisher) (c : Conduit) :
    Goes p c .release (advance p c .release).1 (advance p c .release).2.1
      (advance p c .release).2.2 := by
  show Goes p c .release (advance.leave p c).1 (advance.leave p c).2.1 (advance.leave p c).2.2
  unfold advance.leave
  split
  · next h => exact .held h
  · next h => exact .released (eq_false_of_ne_true h)

theorem goes_room (p : Publisher) (c : Conduit) (f : Fragment) :
    Goes p c (.room f) (advance p c (.room f)).1 (advance p c (.room f)).2.1
      (advance p c (.room f)).2.2 := by
  show Goes p c (.room f) (advance.enter p c f).1 (advance.enter p c f).2.1
    (advance.enter p c f).2.2
  unfold advance.enter
  split
  · next h => exact .shut f h
  · next hopen =>
    split
    · next h => exact .crowded f (eq_false_of_ne_true hopen) h
    · next h =>
      exact .entered f (eq_false_of_ne_true hopen) (eq_false_of_ne_true h)
        (goes_release _ _)

/-- All that a sending can do. -/
theorem goes (p : Publisher) (c : Conduit) (s : Sending) :
    Goes p c s (advance p c s).1 (advance p c s).2.1 (advance p c s).2.2 := by
  cases s with
  | release => exact goes_release p c
  | room f => exact goes_room p c f
  | credit f started =>
    obtain ⟨q, rest, hread⟩ := awaitCredit_frame started p c
    rw [advance, hread]
    dsimp only
    split
    · next h => exact .refused f started hread h
    · next hlive =>
      have hlive := eq_false_of_ne_true hlive
      split
      · next h => exact .unpaid f started hread hlive h
      · next h => exact .paid f started hread hlive (Nat.pos_of_ne_zero h) (goes_room q _ f)

theorem goes_of_advance {p q : Publisher} {c c' : Conduit} {s : Sending}
    {r : Progress Sending (Except Fault Unit)} (h : advance p c s = (r, q, c')) :
    Goes p c s r q c' := by
  have hgoes := goes p c s
  rwa [h] at hgoes

variable {p q : Publisher} {c c' : Conduit} {s : Sending}
  {r : Progress Sending (Except Fault Unit)}

/-- What a sending leaves alone. -/
theorem Goes.frame (h : Goes p c s r q c') :
    c'.publisher = c.publisher ∧ c'.pump = c.pump ∧ c'.transport = c.transport ∧
      c'.cancelled = c.cancelled ∧ c'.dropped = c.dropped := by
  induction h with
  | paid f started _ _ _ _ ih => exact ih
  | entered f _ _ _ ih => exact ih
  | _ => exact ⟨rfl, rfl, rfl, rfl, rfl⟩

/-- What a sending does to the queue. -/
theorem Goes.queue (h : Goes p c s r q c') :
    ∃ fs : List Fragment, c'.queue.items = c.queue.items ++ fs.map .ok ∧
      c'.queue.closed = c.queue.closed ∧ (c.queue.closed = true → fs = []) := by
  induction h with
  | paid f started _ _ _ _ ih => exact ih
  | entered f hopen _ _ ih =>
    obtain ⟨fs, hitems, hclosed, -⟩ := ih
    refine ⟨f :: fs, ?_, hclosed, fun hshut => ?_⟩
    · rw [hitems, Queue.push, List.append_assoc]
      rfl
    · rw [hopen] at hshut
      cases hshut
  | _ => exact ⟨[], (List.append_nil _).symm, rfl, fun _ => rfl⟩

/-! ### One step of a pump -/

/-- There is nothing that the pump could do. One that is sending can always look for signals. -/
def Rests (c : Conduit) : Prop :=
  match c.pump with
  | .idle | .finished _ => True
  | .running _ .reading | .running _ (.skipping _) =>
    c.transport.items = [] ∧ c.transport.ended = false
  | .running _ (.failing ..) => c.queue.parked = true
  | .running _ (.sending _) => False

/-- What one step of a pump makes of a conduit. -/
inductive Pumps (c : Conduit) : Conduit → Prop where
  | rests : Rests c → Pumps c c
  | takes {p : Publisher} {f : Fragment} {items : List Item} :
      c.pump = .running p .reading → c.transport.items = .ok f :: items →
      Pumps c { c with
        pump := .running p (.sending (.credit f false))
        transport := { c.transport with items } }
  | meets {p : Publisher} {e : Fault} {items : List Item} :
      c.pump = .running p .reading → c.transport.items = .error e :: items →
      Pumps c { c with
        pump := .running p (.failing e false)
        transport := { c.transport with items } }
  | completes {p : Publisher} : c.pump = .running p .reading → c.transport.items = [] →
      c.transport.ended = true → Pumps c (c.finishPump (.ok ()))
  | waits {p q : Publisher} {s s' : Sending} {c' : Conduit} : c.pump = .running p (.sending s) →
      Goes p c s (.waiting s') q c' → Pumps c { c' with pump := .running q (.sending s') }
  | sent {p q : Publisher} {s : Sending} {c' : Conduit} : c.pump = .running p (.sending s) →
      Goes p c s (.done (.ok ())) q c' → Pumps c { c' with pump := .running q .reading }
  | refused {p q : Publisher} {s : Sending} {e : Fault} {c' : Conduit} :
      c.pump = .running p (.sending s) → Goes p c s (.done (.error e)) q c' →
      Pumps c { c' with pump := .running q (.skipping e) }
  /-- a fault enters the queue and is held there -/
  | lodges {p : Publisher} {e : Fault} : c.pump = .running p (.failing e false) →
      c.queue.closed = false → c.queue.parked = false →
      Pumps c { c with queue := c.queue.push (.error e), pump := .running p (.failing e true) }
  /-- a fault enters the queue and is let go -/
  | passes {p : Publisher} {e : Fault} : c.pump = .running p (.failing e false) →
      c.queue.closed = false → c.queue.parked = false →
      Pumps c ({ c with queue := c.queue.push (.error e) }.finishPump (.error e))
  /-- a fault was let go, or finds the queue shut -/
  | fails {p : Publisher} {e : Fault} {sent : Bool} : c.pump = .running p (.failing e sent) →
      (sent = false → c.queue.closed = true) → Pumps c (c.finishPump (.error e))
  | skips {p : Publisher} {e : Fault} {f : Fragment} {items : List Item} :
      c.pump = .running p (.skipping e) → c.transport.items = .ok f :: items →
      Pumps c { c.giveBack f.data with transport := { c.transport with items } }
  | stops {p : Publisher} {e : Fault} : c.pump = .running p (.skipping e) →
      c.transport.items = [] → c.transport.ended = true → Pumps c (c.finishPump (.error e))
  | breaks {p : Publisher} {e e' : Fault} {items : List Item} :
      c.pump = .running p (.skipping e) → c.transport.items = .error e' :: items →
      Pumps c ({ c with transport := { c.transport with items } }.finishPump (.error e))

theorem pumps_read (h : c.pump = .running p .reading) : Pumps c (c.readStep p) := by
  unfold readStep
  split
  · next hnone =>
    split
    · next hended => exact .completes h hnone hended
    · next hopen =>
      refine .rests ?_
      rw [Rests, h]
      exact ⟨hnone, eq_false_of_ne_true hopen⟩
  · next hitems => exact .takes h hitems
  · next hitems => exact .meets h hitems

theorem pumps_send (h : c.pump = .running p (.sending s)) : Pumps c (c.sendStep p s) := by
  unfold sendStep
  split
  · next hgoes => exact .waits h (goes_of_advance hgoes)
  · next hgoes => exact .sent h (goes_of_advance hgoes)
  · next hgoes => exact .refused h (goes_of_advance hgoes)

theorem pumps_fail {e : Fault} {sent : Bool} (h : c.pump = .running p (.failing e sent)) :
    Pumps c (c.failStep p e sent) := by
  have hheld : c.queue.parked = true →
      Pumps c { c with pump := .running p (.failing e sent) } := by
    intro hparked
    rw [← h]
    refine .rests ?_
    rw [Rests, h]
    exact hparked
  unfold failStep
  cases sent with
  | true =>
    rw [advanceFault]
    cases hparked : c.queue.parked with
    | true => exact hheld hparked
    | false => exact .fails h nofun
  | false =>
    rw [advanceFault]
    cases hclosed : c.queue.closed with
    | true => exact .fails h fun _ => hclosed
    | false =>
      cases hparked : c.queue.parked with
      | true => exact hheld hparked
      | false =>
        -- the fault enters the queue, which may be full now
        cases hfull : (c.queue.push (.error e)).parked with
        | true =>
          simp only [Bool.false_eq_true, if_false, hfull, if_true]
          exact .lodges h hclosed hparked
        | false =>
          simp only [Bool.false_eq_true, if_false, hfull]
          exact .passes h hclosed hparked

theorem pumps_skip {e : Fault} (h : c.pump = .running p (.skipping e)) :
    Pumps c (c.skipStep e) := by
  unfold skipStep
  split
  · next hnone =>
    split
    · next hended => exact .stops h hnone hended
    · next hopen =>
      refine .rests ?_
      rw [Rests, h]
      exact ⟨hnone, eq_false_of_ne_true hopen⟩
  · next hitems => exact .skips h hitems
  · next hitems => exact .breaks h hitems

/-- All that one step of a pump can do. -/
theorem pumps (c : Conduit) : Pumps c c.pumpStep := by
  unfold pumpStep
  split
  · next h => exact .rests (by rw [Rests, h]; trivial)
  · next h => exact .rests (by rw [Rests, h]; trivial)
  · next h => exact pumps_read h
  · next h => exact pumps_send h
  · next h => exact pumps_fail h
  · next h => exact pumps_skip h

/-- A pump that does not run makes no step. -/
theorem pumpStep_of_not_running (h : ∀ p doing, c.pump ≠ .running p doing) : c.pumpStep = c := by
  unfold pumpStep
  split
  · rfl
  · rfl
  all_goals next hrun => exact absurd hrun (h _ _)

/-- What a pump leaves alone. -/
theorem Pumps.frame (h : Pumps c c') :
    c'.publisher = c.publisher ∧ c'.cancelled = c.cancelled ∧ c'.dropped = c.dropped := by
  have hgoes : ∀ {p q s r d}, Goes p c s r q d →
      d.publisher = c.publisher ∧ d.cancelled = c.cancelled ∧ d.dropped = c.dropped :=
    fun h => ⟨h.frame.1, h.frame.2.2.2⟩
  cases h with
  | waits _ h => exact (hgoes h :)
  | sent _ h => exact (hgoes h :)
  | refused _ h => exact (hgoes h :)
  | _ => exact ⟨rfl, rfl, rfl⟩

/-- Whether the body has ended is up to the connection. -/
theorem Pumps.ended (h : Pumps c c') : c'.transport.ended = c.transport.ended := by
  cases h with
  | waits _ h => exact congrArg Transport.ended h.frame.2.2.1
  | sent _ h => exact congrArg Transport.ended h.frame.2.2.1
  | refused _ h => exact congrArg Transport.ended h.frame.2.2.1
  | _ => rfl

/-- What a pump does to the queue. -/
theorem Pumps.queue (h : Pumps c c') :
    ∃ items, c'.queue.items = c.queue.items ++ items ∧ c'.queue.closed = c.queue.closed ∧
      (c.queue.closed = true → items = []) := by
  have hgoes : ∀ {p q s r d}, Goes p c s r q d →
      ∃ items, d.queue.items = c.queue.items ++ items ∧ d.queue.closed = c.queue.closed ∧
        (c.queue.closed = true → items = []) := by
    intro p q s r d h
    obtain ⟨fs, hitems, hclosed, hnone⟩ := h.queue
    exact ⟨fs.map .ok, hitems, hclosed, fun hshut => by rw [hnone hshut, List.map_nil]⟩
  cases h with
  | waits _ h => exact (hgoes h :)
  | sent _ h => exact (hgoes h :)
  | refused _ h => exact (hgoes h :)
  | lodges _ hopen _ => exact ⟨[.error _], rfl, rfl, fun hshut => absurd hopen (hshut ▸ nofun)⟩
  | passes _ hopen _ => exact ⟨[.error _], rfl, rfl, fun hshut => absurd hopen (hshut ▸ nofun)⟩
  | _ => exact ⟨[], (List.append_nil _).symm, rfl, fun _ => rfl⟩

/-! ### Polls -/

/-- What a poll of the consumer's end comes to. -/
inductive Polls (c : Conduit) : Delivery → Conduit → Prop where
  | cancelled : c.cancelled = true → Polls c .finished c
  | fragment {f : Fragment} {rest : List Item} : c.cancelled = false →
      c.queue.items = .ok f :: rest →
      Polls c (.fragment f) { c with queue := { c.queue with items := rest, parked := false } }
  | fault {e : Fault} {rest : List Item} : c.cancelled = false →
      c.queue.items = .error e :: rest →
      Polls c (.failed e) { c with queue := { c.queue with items := rest, parked := false } }
  | waits : c.cancelled = false → c.queue.items = [] → c.publishing = true → Polls c .waiting c
  | completes : c.cancelled = false → c.queue.items = [] → c.publishing = false →
      Polls c .finished c

theorem polls (c : Conduit) : Polls c c.poll.1 c.poll.2 := by
  unfold poll
  split
  · next hc => exact .cancelled hc
  · next hc =>
    have hc := eq_false_of_ne_true hc
    unfold Queue.pop?
    cases hitems : c.queue.items with
    | nil =>
      cases hpublishing : c.publishing with
      | true => exact .waits hc hitems hpublishing
      | false => exact .completes hc hitems hpublishing
    | cons i rest =>
      cases i with
      | ok f => exact .fragment hc hitems
      | error e => exact .fault hc hitems

theorem polls_of_poll {answer : Delivery} (h : c.poll = (answer, c')) : Polls c answer c' := by
  have hpolls := polls c
  rwa [h] at hpolls

/-- A poll touches nothing but the queue. -/
theorem Polls.frame {answer : Delivery} (h : Polls c answer c') :
    ∃ queue, c' = { c with queue } ∧ queue.closed = c.queue.closed := by
  cases h with
  | fragment _ _ => exact ⟨_, rfl, rfl⟩
  | fault _ _ => exact ⟨_, rfl, rfl⟩
  | _ => exact ⟨c.queue, rfl, rfl⟩

/-! ### Behind the consumer's back -/

/-- A conduit whose publisher was handed to a pump. -/
def pumped (capacity : Nat) : Conduit := (ofCapacity capacity).startPump.2

/-- What happens to a pumped conduit without its consumer. -/
inductive Far where
  /-- the pump makes a step -/
  | pump
  /-- the connection reads an item of the body -/
  | feed (i : Item)
  /-- the connection has read the whole body -/
  | finish

def far : Far → Conduit → Conduit
  | .pump => pumpStep
  | .feed i => fun c => (c.feed i).2
  | .finish => endTransport

/-- What the connection does to a conduit. -/
theorem feed_frame (i : Item) (c : Conduit) :
    (c.feed i).2 = { c with
      transport := (c.feed i).2.transport
      tally := (c.feed i).2.tally } := by
  unfold feed
  dsimp only
  split <;> rfl

end Conduit

end Exchange.Multipart
