import Exchange.Proofs.Multipart.Conduit.Line
import Exchange.Proofs.Multipart.Conduit.Streamed

/-!
What the deeds of a line come to.

`Does` has one case for everything that can happen to a line, and `does` says that there is nothing
else. A deed for which the line is not ready leaves it as it is, and `Idles` says when that is so.

Whatever a deed is, its queue is left alone, gives its first item away, gets one item, or is shut
(`Line.Does.moves`).
-/
namespace Exchange.Multipart

/-! ### Passing a fault on -/

/-- How passing a fault on goes on from where it waits. -/
inductive Conduit.Passes (e : Fault) (c : Conduit) :
    Bool → Progress Bool Unit → Conduit → Prop where
  | held : c.queue.parked = true → Passes e c true (.waiting true) c
  | freed : c.queue.parked = false → Passes e c true (.done ()) c
  | shut : c.queue.closed = true → Passes e c false (.done ()) c
  | crowded : c.queue.closed = false → c.queue.parked = true → Passes e c false (.waiting false) c
  /-- the fault enters the queue and is held there -/
  | lodges : c.queue.closed = false → c.queue.parked = false →
      Passes e c false (.waiting true) { c with queue := c.queue.push (.error e) }
  /-- the fault enters the queue and is let go -/
  | passes : c.queue.closed = false → c.queue.parked = false →
      Passes e c false (.done ()) { c with queue := c.queue.push (.error e) }

theorem Conduit.passes (e : Fault) (c : Conduit) (sent : Bool) :
    Passes e c sent (advanceFault e c sent).1 (advanceFault e c sent).2 := by
  cases sent with
  | true =>
    rw [advanceFault]
    split
    · next hparked => exact .held hparked
    · next hfree => exact .freed (eq_false_of_ne_true hfree)
  | false =>
    rw [advanceFault]
    split
    · next hshut => exact .shut hshut
    · next hopen =>
      have hopen := eq_false_of_ne_true hopen
      split
      · next hparked => exact .crowded hopen hparked
      · next hfree =>
        have hfree := eq_false_of_ne_true hfree
        dsimp only
        split
        · exact .lodges hopen hfree
        · exact .passes hopen hfree

theorem Conduit.passes_of_advanceFault {e : Fault} {c c' : Conduit} {sent : Bool}
    {r : Progress Bool Unit} (h : advanceFault e c sent = (r, c')) : Passes e c sent r c' := by
  have hpasses := passes e c sent
  rwa [h] at hpasses

/-! ### Deeds -/

/-- A request does not reach further than the signals. -/
theorem Conduit.request_signals (n : Nat) (c : Conduit) :
    ∃ signals, c.request n = { c with signals } := by
  unfold request
  split
  · exact ⟨c.signals, rfl⟩
  · exact ⟨_, rfl⟩

namespace Line

/-- A deed for which the line is not ready. -/
def Idles (l : Line) : Deed → Prop
  | .request _ | .poll | .drop => l.conduit.dropped = true
  | .cancel => l.conduit.dropped = true ∨ l.conduit.cancelled = true
  | .letGo k => l.inHand[k]? = none
  | .send _ | .fail _ => l.errand ≠ none ∨ l.conduit.publisher = none
  | .resume => l.errand = none ∨ l.conduit.publisher = none
  | .abandon => l.errand = none
  | .complete => l.errand ≠ none
  | .startPump => l.errand ≠ none ∨ l.conduit.publisher = none ∨ l.conduit.pump ≠ .idle
  | .far _ => False

/-- The fragment that the owner of the publisher begins to send by a deed. -/
def sends? (l : Line) : Deed → Option Fragment
  | .send f => if l.errand.isNone && l.conduit.publisher.isSome then some f else none
  | _ => none

theorem sends?_of_idles {l : Line} {deed : Deed} (h : l.Idles deed) : l.sends? deed = none := by
  cases deed with
  | send f =>
    refine if_neg fun hready => ?_
    rw [Bool.and_eq_true, Option.isNone_iff_eq_none, Option.isSome_iff_ne_none] at hready
    exact h.elim (fun hbusy => hbusy hready.1) hready.2
  | _ => rfl

theorem sends?_of_ready {l : Line} {p : Publisher} (f : Fragment) (herrand : l.errand = none)
    (hp : l.conduit.publisher = some p) : l.sends? (.send f) = some f := by
  rw [sends?, herrand, hp]
  rfl

/-- What a deed makes of a line. -/
inductive Does (l : Line) : Deed → Line → Prop where
  | idles {deed : Deed} : l.Idles deed → Does l deed l
  | asks (n : UInt64) : Does l (.request n) { l with conduit := l.conduit.request n.toNat }
  | takes {answer : Delivery} {c : Conduit} : l.conduit.dropped = false →
      l.conduit.poll = (answer, c) →
      Does l .poll { l with conduit := c, inHand := l.inHand ++ answer.fragment?.toList }
  | cancels (signals : List Signal) : l.conduit.dropped = false → l.conduit.cancelled = false →
      Does l .cancel { l with conduit := { l.conduit.shut with cancelled := true, signals } }
  | drops : l.conduit.dropped = false → Does l .drop { l with conduit := l.conduit.drop }
  | letsGo {k : Nat} {f : Fragment} : l.inHand[k]? = some f →
      Does l (.letGo k)
        { l with conduit := l.conduit.giveBack f.data, inHand := l.inHand.eraseIdx k }
  | sends {p : Publisher} (f : Fragment) : l.errand = none → l.conduit.publisher = some p →
      Does l (.send f) { l with
        conduit := { l.conduit with tally := l.conduit.tally.acquire f.data }
        errand := some (.sending (.credit f false)) }
  | fails {p : Publisher} (e : Fault) : l.errand = none → l.conduit.publisher = some p →
      Does l (.fail e) { l with errand := some (.failing e false) }
  | waits {p q : Publisher} {s s' : Sending} {c : Conduit} : l.errand = some (.sending s) →
      l.conduit.publisher = some p → Conduit.Goes p l.conduit s (.waiting s') q c →
      Does l .resume
        { l with conduit := { c with publisher := some q }, errand := some (.sending s') }
  /-- a sending comes to its result -/
  | returns {p q : Publisher} {s : Sending} {result : Except Fault Unit} {c : Conduit} :
      l.errand = some (.sending s) → l.conduit.publisher = some p →
      Conduit.Goes p l.conduit s (.done result) q c →
      Does l .resume { l with conduit := { c with publisher := some q }, errand := none }
  | lingers {p : Publisher} {e : Fault} {sent sent' : Bool} {c : Conduit} :
      l.errand = some (.failing e sent) → l.conduit.publisher = some p →
      Conduit.Passes e l.conduit sent (.waiting sent') c →
      Does l .resume { l with conduit := c, errand := some (.failing e sent') }
  /-- the stream was ended by a fault -/
  | ends {p : Publisher} {e : Fault} {sent : Bool} {c : Conduit} :
      l.errand = some (.failing e sent) → l.conduit.publisher = some p →
      Conduit.Passes e l.conduit sent (.done ()) c →
      Does l .resume { l with conduit := c.dropPublisher, errand := none }
  | forsakes {s : Sending} : l.errand = some (.sending s) →
      Does l .abandon { l with conduit := l.conduit.abandon s, errand := none }
  | relents {e : Fault} {sent : Bool} : l.errand = some (.failing e sent) →
      Does l .abandon { l with conduit := l.conduit.dropPublisher, errand := none }
  | completes : l.errand = none → Does l .complete { l with conduit := l.conduit.dropPublisher }
  | hands {p : Publisher} : l.errand = none → l.conduit.publisher = some p →
      l.conduit.pump = .idle →
      Does l .startPump
        { l with conduit := { l.conduit with publisher := none, pump := .running p .reading } }
  | pumps {c : Conduit} : Conduit.Pumps l.conduit c → Does l (.far .pump) { l with conduit := c }
  | feeds (i : Item) : Does l (.far (.feed i)) { l with conduit := (l.conduit.feed i).2 }
  | finishes : Does l (.far .finish) { l with conduit := l.conduit.endTransport }

variable (l : Line)

theorem does_ask {deed : Deed} {act : Conduit → Conduit}
    (hidle : l.conduit.dropped = true → l.Idles deed)
    (h : l.conduit.dropped = false → Does l deed { l with conduit := act l.conduit }) :
    Does l deed (l.ask act) := by
  unfold ask
  split
  · next hgone => exact .idles (hidle hgone)
  · next hthere => exact h (eq_false_of_ne_true hthere)

theorem does_cancel : Does l .cancel (l.ask Conduit.cancel) := by
  refine l.does_ask .inl fun hthere => ?_
  unfold Conduit.cancel
  split
  · next hdone => exact .idles (.inr hdone)
  · next hlive => exact .cancels _ hthere (eq_false_of_ne_true hlive)

theorem does_take : Does l .poll l.take := by
  unfold take
  split
  · next hgone => exact .idles hgone
  · next hthere => exact .takes (eq_false_of_ne_true hthere) rfl

theorem does_letGo (k : Nat) : Does l (.letGo k) (l.letGo k) := by
  unfold letGo
  split
  · next hnone => exact .idles hnone
  · next hsome => exact .letsGo hsome

/-- Nothing is begun while something else is, or without a publisher. -/
theorem not_ready {l : Line} (h : ∀ p, l.errand = none → l.conduit.publisher = some p → False) :
    l.errand ≠ none ∨ l.conduit.publisher = none := by
  cases hp : l.conduit.publisher with
  | none => exact .inr rfl
  | some p => exact .inl fun he => h p he hp

theorem does_send (f : Fragment) : Does l (.send f) (l.send f) := by
  unfold send
  split
  · next he hp => exact .sends f he hp
  · next hnot => exact .idles (not_ready hnot)

theorem does_fail (e : Fault) : Does l (.fail e) (l.fail e) := by
  unfold fail
  split
  · next he hp => exact .fails e he hp
  · next hnot => exact .idles (not_ready hnot)

theorem does_resume : Does l .resume l.resume := by
  unfold resume
  split
  · next he hp =>
    split
    · next hadvance => exact .waits he hp (Conduit.goes_of_advance hadvance)
    · next hadvance => exact .returns he hp (Conduit.goes_of_advance hadvance)
  · next he hp =>
    split
    · next hadvance => exact .lingers he hp (Conduit.passes_of_advanceFault hadvance)
    · next hadvance => exact .ends he hp (Conduit.passes_of_advanceFault hadvance)
  · next hsending hfailing =>
    refine .idles ?_
    cases he : l.errand with
    | none => exact .inl he
    | some errand =>
      cases hp : l.conduit.publisher with
      | none => exact .inr hp
      | some p =>
        cases errand with
        | sending s => exact (hsending s p he hp).elim
        | failing e sent => exact (hfailing e sent p he hp).elim

theorem does_abandon : Does l .abandon l.abandon := by
  unfold abandon
  split
  · next he => exact .idles he
  · next he => exact .forsakes he
  · next he => exact .relents he

theorem does_complete : Does l .complete (l.own Conduit.dropPublisher) := by
  unfold own
  split
  · next he => exact .completes he
  · next he => exact .idles (by rw [Idles, he]; nofun)

theorem does_startPump : Does l .startPump (l.own fun c => c.startPump.2) := by
  unfold own
  split
  · next he =>
    dsimp only [Conduit.startPump]
    split
    · next hp hidle => exact .hands he hp hidle
    · next hnot =>
      refine .idles (.inr ?_)
      cases hp : l.conduit.publisher with
      | none => exact .inl rfl
      | some p => exact .inr fun hidle => hnot p hp hidle
  · next he => exact .idles (.inl (by rw [he]; nofun))

/-- All that a deed can do. -/
theorem does (deed : Deed) : Does l deed (l.step deed) := by
  cases deed with
  | request n => exact l.does_ask id fun _ => .asks n
  | poll => exact l.does_take
  | cancel => exact l.does_cancel
  | drop => exact l.does_ask id .drops
  | letGo k => exact l.does_letGo k
  | send f => exact l.does_send f
  | fail e => exact l.does_fail e
  | resume => exact l.does_resume
  | abandon => exact l.does_abandon
  | complete => exact l.does_complete
  | startPump => exact l.does_startPump
  | far e =>
    cases e with
    | pump => exact .pumps l.conduit.pumps
    | feed i => exact .feeds i
    | finish => exact .finishes

end Line

/-! ### The queue -/

/-- What happens to a queue in one deed, with the items that are taken out and put in. -/
inductive Queue.Moves (q : Queue) : List Item → List Item → Queue → Prop where
  | stays : Moves q [] [] q
  | takes {i : Item} {rest : List Item} : q.items = i :: rest →
      Moves q [i] [] { q with items := rest, parked := false }
  | puts (i : Item) : q.closed = false → q.parked = false → Moves q [] [i] (q.push i)
  | shuts : Moves q [] [] q.shut

namespace Conduit

variable {c c' : Conduit} {p q : Publisher} {s : Sending}

theorem Goes.puts {r : Progress Sending (Except Fault Unit)} (h : Goes p c s r q c') :
    ∃ put, c.queue.Moves [] put c'.queue := by
  -- a fragment that has entered the queue does not enter it again
  have hrelease : ∀ {p c r q c'}, Goes p c .release r q c' → c'.queue = c.queue := by
    intro p c r q c' h
    cases h <;> rfl
  induction h with
  | paid f started _ _ _ _ ih => exact ih
  | entered f hopen hfree hgoes _ => exact ⟨[.ok f], hrelease hgoes ▸ .puts (.ok f) hopen hfree⟩
  | _ => exact ⟨[], .stays⟩

theorem Passes.puts {e : Fault} {sent : Bool} {r : Progress Bool Unit}
    (h : Passes e c sent r c') : ∃ put, c.queue.Moves [] put c'.queue := by
  cases h with
  | lodges hopen hfree => exact ⟨[.error e], .puts (.error e) hopen hfree⟩
  | passes hopen hfree => exact ⟨[.error e], .puts (.error e) hopen hfree⟩
  | _ => exact ⟨[], .stays⟩

theorem Pumps.puts (h : Pumps c c') : ∃ put, c.queue.Moves [] put c'.queue := by
  cases h with
  | waits _ hgoes => exact hgoes.puts
  | sent _ hgoes => exact hgoes.puts
  | refused _ hgoes => exact hgoes.puts
  | lodges _ hopen hfree => exact ⟨[.error _], .puts (.error _) hopen hfree⟩
  | passes _ hopen hfree => exact ⟨[.error _], .puts (.error _) hopen hfree⟩
  | _ => exact ⟨[], .stays⟩

theorem Polls.moves {answer : Delivery} (h : Polls c answer c') :
    c.queue.Moves answer.item?.toList [] c'.queue := by
  cases h with
  | fragment _ hitems => exact .takes hitems
  | fault _ hitems => exact .takes hitems
  | _ => exact .stays

/-- A deed puts into the queue what enters it. -/
theorem entered_of_moves {taken put : List Item} (h : c.queue.Moves taken put c'.queue) :
    c.entered c' = put := by
  unfold entered
  generalize c'.queue = after at h
  cases h with
  | stays => exact List.drop_length
  | takes hitems => simp [hitems]
  | puts i _ _ => exact List.drop_left
  | shuts => exact List.drop_nil

end Conduit

/-- The items that the consumer receives by a deed. -/
def Line.receives (l : Line) : Deed → List Item
  | .poll => if l.conduit.dropped then [] else l.conduit.poll.1.item?.toList
  | _ => []

theorem Line.receives_of_idles {l : Line} {deed : Deed} (h : l.Idles deed) :
    l.receives deed = [] := by
  cases deed with
  | poll => exact if_pos h
  | _ => rfl

theorem Line.Does.moves {l l' : Line} {deed : Deed} (h : l.Does deed l') :
    ∃ put, l.conduit.queue.Moves (l.receives deed) put l'.conduit.queue := by
  cases h with
  | idles hidles =>
    rw [Line.receives_of_idles hidles]
    exact ⟨[], .stays⟩
  | asks n => exact ⟨[], (Conduit.request_frame n.toNat l.conduit).1 ▸ .stays⟩
  | takes hthere hpoll =>
    have hreceives : l.receives .poll = l.conduit.poll.1.item?.toList := by
      rw [Line.receives, hthere]
      rfl
    rw [hreceives, hpoll]
    exact ⟨[], (Conduit.polls_of_poll hpoll).moves⟩
  | cancels _ _ _ => exact ⟨[], .shuts⟩
  | drops _ => exact ⟨[], .shuts⟩
  | waits _ _ hgoes => exact hgoes.puts
  | returns _ _ hgoes => exact hgoes.puts
  | lingers _ _ hpasses => exact hpasses.puts
  | ends _ _ hpasses => exact hpasses.puts
  | @forsakes s _ =>
    obtain ⟨tally, htally⟩ := Conduit.abandon_frame s l.conduit
    rw [htally]
    exact ⟨[], .stays⟩
  | pumps hpumps => exact hpumps.puts
  | feeds i =>
    rw [Conduit.feed_frame]
    exact ⟨[], .stays⟩
  | _ => exact ⟨[], .stays⟩

/-- What a deed does to the queue. -/
theorem Line.moves (l : Line) (deed : Deed) :
    l.conduit.queue.Moves (l.receives deed) (l.conduit.entered (l.step deed).conduit)
      (l.step deed).conduit.queue := by
  obtain ⟨put, hput⟩ := (l.does deed).moves
  rwa [Conduit.entered_of_moves hput]

/-! ### Aside -/

/-- Whoever publishes is left alone, and nothing enters the queue. -/
structure Line.Aside (l l' : Line) : Prop where
  errand : l'.errand = l.errand
  publisher : l'.conduit.publisher = l.conduit.publisher
  pump : l'.conduit.pump = l.conduit.pump
  shrinks : l'.conduit.queue.items.length ≤ l.conduit.queue.items.length

/-- The consumer does it, or the connection. -/
def Deed.aside : Deed → Bool
  | .request _ | .poll | .cancel | .drop | .letGo _ | .far (.feed _) | .far .finish => true
  | .send _ | .fail _ | .resume | .abandon | .complete | .startPump | .far .pump => false

namespace Line

variable {l l' : Line} {deed : Deed}

theorem Aside.refl (l : Line) : l.Aside l := ⟨rfl, rfl, rfl, Nat.le_refl _⟩

theorem Aside.quiet (h : l.Aside l') : l.conduit.entered l'.conduit = [] :=
  Conduit.entered_of_le h.shrinks

theorem Does.aside (h : l.Does deed l') (hdeed : deed.aside = true) : l.Aside l' := by
  cases h with
  | idles _ => exact .refl l
  | asks n =>
    obtain ⟨signals, hsame⟩ := l.conduit.request_signals n.toNat
    rw [hsame]
    exact ⟨rfl, rfl, rfl, Nat.le_refl _⟩
  | takes _ hpoll =>
    have hle := (Conduit.polls_of_poll hpoll).shrinks
    obtain ⟨queue, rfl, -⟩ := (Conduit.polls_of_poll hpoll).frame
    exact ⟨rfl, rfl, rfl, hle⟩
  | cancels _ _ _ => exact ⟨rfl, rfl, rfl, Nat.zero_le _⟩
  | drops _ => exact ⟨rfl, rfl, rfl, Nat.zero_le _⟩
  | letsGo _ => exact ⟨rfl, rfl, rfl, Nat.le_refl _⟩
  | feeds i =>
    rw [Conduit.feed_frame]
    exact ⟨rfl, rfl, rfl, Nat.le_refl _⟩
  | finishes => exact ⟨rfl, rfl, rfl, Nat.le_refl _⟩
  | _ => cases hdeed

end Line

/-! ### Queues that are shut -/

theorem Queue.Moves.closed {q q' : Queue} {taken put : List Item} (h : q.Moves taken put q')
    (hshut : q.closed = true) : q'.closed = true := by
  cases h with
  | shuts => rfl
  | _ => exact hshut

/-- Nothing gets into a queue that is shut. -/
theorem Queue.Moves.empty {q q' : Queue} {taken put : List Item} (h : q.Moves taken put q')
    (hempty : q.closed = true → q.items = []) : q'.closed = true → q'.items = [] := by
  intro hshut
  cases h with
  | stays => exact hempty hshut
  | takes hitems => exact absurd (hitems.symm.trans (hempty hshut)) nofun
  | puts i hopen _ => exact absurd (hopen.symm.trans hshut) nofun
  | shuts => rfl

/-- The consumer's end was cancelled or is gone. -/
def Conduit.Stopped (c : Conduit) : Prop := c.cancelled = true ∨ c.dropped = true

/-- Only a cancel and a drop stop a conduit, and only they shut its queue. -/
theorem Line.Does.stops {l l' : Line} {deed : Deed} (h : l.Does deed l') :
    (l'.conduit.cancelled = l.conduit.cancelled ∧ l'.conduit.dropped = l.conduit.dropped ∧
        l'.conduit.queue.closed = l.conduit.queue.closed) ∨
      (l'.conduit.Stopped ∧ l'.conduit.queue.closed = true) := by
  have hgoes : ∀ {p s r q c}, Conduit.Goes p l.conduit s r q c →
      c.cancelled = l.conduit.cancelled ∧ c.dropped = l.conduit.dropped ∧
        c.queue.closed = l.conduit.queue.closed := by
    intro p s r q c hgoes
    obtain ⟨fs, -, hclosed, -⟩ := hgoes.queue
    obtain ⟨-, -, -, hcancelled, hdropped⟩ := hgoes.frame
    exact ⟨hcancelled, hdropped, hclosed⟩
  cases h with
  | asks n =>
    obtain ⟨signals, hsame⟩ := l.conduit.request_signals n.toNat
    rw [hsame]
    exact .inl ⟨rfl, rfl, rfl⟩
  | takes _ hpoll =>
    obtain ⟨queue, rfl, hclosed⟩ := (Conduit.polls_of_poll hpoll).frame
    exact .inl ⟨rfl, rfl, hclosed⟩
  | cancels _ _ _ => exact .inr ⟨.inl rfl, rfl⟩
  | drops _ => exact .inr ⟨.inr rfl, rfl⟩
  | waits _ _ h => exact .inl (hgoes h :)
  | returns _ _ h => exact .inl (hgoes h :)
  | lingers _ _ hpasses => cases hpasses <;> exact .inl ⟨rfl, rfl, rfl⟩
  | ends _ _ hpasses => cases hpasses <;> exact .inl ⟨rfl, rfl, rfl⟩
  | @forsakes s _ =>
    obtain ⟨tally, htally⟩ := Conduit.abandon_frame s l.conduit
    rw [htally]
    exact .inl ⟨rfl, rfl, rfl⟩
  | pumps hpumps =>
    obtain ⟨-, hcancelled, hdropped⟩ := hpumps.frame
    obtain ⟨-, -, hclosed, -⟩ := hpumps.queue
    exact .inl ⟨hcancelled, hdropped, hclosed⟩
  | feeds i =>
    rw [Conduit.feed_frame]
    exact .inl ⟨rfl, rfl, rfl⟩
  | _ => exact .inl ⟨rfl, rfl, rfl⟩

namespace Line

variable {l l' : Line} {deed : Deed}

theorem stopped_step (h : l.conduit.Stopped) (deed : Deed) : (l.step deed).conduit.Stopped := by
  rcases (l.does deed).stops with ⟨hcancelled, hdropped, -⟩ | ⟨hstopped, -⟩
  · unfold Conduit.Stopped
    rwa [hcancelled, hdropped]
  · exact hstopped

theorem stopped_run (h : l.conduit.Stopped) (deeds : List Deed) :
    (l.run deeds).conduit.Stopped := by
  induction deeds generalizing l with
  | nil => exact h
  | cons deed rest ih => exact ih (stopped_step h deed)

/-- The queue of a conduit is shut when it was stopped, and there is nothing in it then. -/
structure Barred (l : Line) : Prop where
  shut : l.conduit.queue.closed = true ↔ l.conduit.Stopped
  empty : l.conduit.queue.closed = true → l.conduit.queue.items = []

theorem barred_ofCapacity (capacity : Nat) : Barred (.ofCapacity capacity) :=
  ⟨⟨nofun, fun h => h.elim nofun nofun⟩, fun _ => rfl⟩

theorem Barred.step (h : l.Barred) (deed : Deed) : (l.step deed).Barred := by
  refine ⟨?_, (l.moves deed).empty h.empty⟩
  rcases (l.does deed).stops with ⟨hcancelled, hdropped, hclosed⟩ | ⟨hstopped, hshut⟩
  · unfold Conduit.Stopped
    rw [hcancelled, hdropped, hclosed]
    exact h.shut
  · exact ⟨fun _ => hstopped, fun _ => hshut⟩

theorem Barred.run (h : l.Barred) (deeds : List Deed) : (l.run deeds).Barred := by
  induction deeds generalizing l with
  | nil => exact h
  | cons deed rest ih => exact ih (h.step deed)

end Line

/-! ### The owner of the publisher -/

/-- The sending that a pump is at. -/
def Pump.sending? : Pump → Option Sending
  | .running _ doing => doing.sending?
  | .idle | .finished _ => none

/-- A pump that was not started does nothing. -/
theorem Conduit.Pumps.rests_of_idle {c c' : Conduit} (h : Pumps c c') (hidle : c.pump = .idle) :
    c' = c := by
  cases h with
  | rests _ => rfl
  | takes hrun _ | meets hrun _ | waits hrun _ | sent hrun _ | refused hrun _ | fails hrun _
  | skips hrun _ | breaks hrun _ | completes hrun _ _ | lodges hrun _ _ | passes hrun _ _
  | stops hrun _ _ => exact nomatch hidle.symm.trans hrun

theorem Conduit.Pumps.busy {c c' : Conduit} (h : Pumps c c') (hbusy : c.pump ≠ .idle) :
    c'.pump ≠ .idle := by
  cases h with
  | rests _ => exact hbusy
  | skips _ _ => exact hbusy
  | _ => exact nofun

/-- A pump has the publisher for itself, and leaves nothing behind it. -/
structure Line.Handed (l : Line) : Prop where
  alone : l.conduit.pump ≠ .idle → l.conduit.publisher = none ∧ l.errand = none
  spent : ∀ result, l.conduit.pump = .finished result →
    l.conduit.transport.items = [] ∧ l.conduit.transport.abandoned = true

namespace Line

variable {l l' : Line} {deed : Deed}

theorem handed_ofCapacity (capacity : Nat) : Handed (.ofCapacity capacity) :=
  ⟨fun hpump => absurd rfl hpump, nofun⟩

theorem Handed.running (h : l.Handed) {p : Publisher} {doing : Pumping}
    (hrun : l.conduit.pump = .running p doing) : l.conduit.publisher = none ∧ l.errand = none := by
  refine h.alone fun hidle => ?_
  cases hrun.symm.trans hidle

/-- Whoever has the publisher can do with it what he likes, as no pump has it. -/
theorem Handed.owned (h : l.Handed) {p : Publisher} (hp : l.conduit.publisher = some p) :
    l.conduit.pump = .idle := by
  by_contra hpump
  exact absurd (hp.symm.trans (h.alone hpump).1) nofun

/-- Whoever has begun something has the publisher. -/
theorem Handed.idle (h : l.Handed) {errand : Errand} (herrand : l.errand = some errand) :
    l.conduit.pump = .idle := by
  by_contra hpump
  exact absurd (herrand.symm.trans (h.alone hpump).2) nofun

theorem handed_of_idle (h : l.conduit.pump = .idle) : l.Handed :=
  ⟨fun hpump => absurd h hpump, fun _ hfinished => nomatch h.symm.trans hfinished⟩

theorem Handed.frame (h : l.Handed) (hpump : l'.conduit.pump = l.conduit.pump)
    (hpublisher : l.conduit.publisher = none → l'.conduit.publisher = none)
    (herrand : l.errand = none → l'.errand = none)
    (htransport : l'.conduit.transport = l.conduit.transport) : l'.Handed := by
  refine ⟨fun hbusy => ?_, fun result hfinished => ?_⟩
  · rw [hpump] at hbusy
    exact (h.alone hbusy).imp hpublisher herrand
  · rw [htransport]
    exact h.spent result (hpump.symm.trans hfinished)

theorem Handed.pumps (h : l.Handed) {c : Conduit} (hpumps : Conduit.Pumps l.conduit c) :
    Handed { l with conduit := c } := by
  refine ⟨fun hbusy => ?_, ?_⟩
  · have hnone : l.conduit.pump ≠ .idle := fun hidle => hbusy (hpumps.rests_of_idle hidle ▸ hidle)
    exact (h.alone hnone).imp_left hpumps.frame.1.trans
  · cases hpumps with
    | rests _ => exact h.spent
    | skips hrun _ => exact fun _ hfinished => nomatch hrun.symm.trans hfinished
    | takes _ _ | meets _ _ | waits _ _ | sent _ _ | refused _ _ | lodges _ _ _ => exact nofun
    | _ => exact fun _ _ => ⟨rfl, rfl⟩

theorem Handed.feeds (h : l.Handed) (i : Item) :
    Handed { l with conduit := (l.conduit.feed i).2 } := by
  have hframe := Conduit.feed_frame i l.conduit
  refine ⟨fun hbusy => ?_, fun result hfinished => ?_⟩
  · rw [hframe] at hbusy ⊢
    exact h.alone hbusy
  · rw [hframe] at hfinished
    obtain ⟨hnone, hleft⟩ := h.spent result hfinished
    unfold Conduit.feed
    rw [hleft]
    exact ⟨hnone, hleft⟩

theorem Handed.does (h : l.Handed) (hdoes : l.Does deed l') : l'.Handed := by
  cases hdoes with
  | asks n =>
    obtain ⟨signals, hsame⟩ := l.conduit.request_signals n.toNat
    rw [hsame]
    exact h.frame rfl id id rfl
  | takes _ hpoll =>
    obtain ⟨queue, rfl, -⟩ := (Conduit.polls_of_poll hpoll).frame
    exact h.frame rfl id id rfl
  | sends f _ hp => exact handed_of_idle (h.owned hp)
  | fails e _ hp => exact handed_of_idle (h.owned hp)
  | waits _ hp hgoes => exact handed_of_idle (hgoes.frame.2.1.trans (h.owned hp))
  | returns _ hp hgoes => exact handed_of_idle (hgoes.frame.2.1.trans (h.owned hp))
  | lingers _ hp hpasses => exact handed_of_idle (by cases hpasses <;> exact h.owned hp)
  | ends _ hp hpasses => exact handed_of_idle (by cases hpasses <;> exact h.owned hp)
  | @forsakes s _ =>
    obtain ⟨tally, htally⟩ := Conduit.abandon_frame s l.conduit
    rw [htally]
    exact h.frame rfl id (fun _ => rfl) rfl
  | relents _ => exact h.frame rfl (fun _ => rfl) (fun _ => rfl) rfl
  | completes _ => exact h.frame rfl (fun _ => rfl) id rfl
  | hands herrand _ _ => exact ⟨fun _ => ⟨rfl, herrand⟩, nofun⟩
  | pumps hpumps => exact h.pumps hpumps
  | feeds i => exact h.feeds i
  | finishes => exact ⟨h.alone, h.spent⟩
  | _ => exact h.frame rfl id id rfl

theorem Handed.run (h : l.Handed) (deeds : List Deed) : (l.run deeds).Handed := by
  induction deeds generalizing l with
  | nil => exact h
  | cons deed rest ih => exact ih (h.does (l.does deed))

end Line

end Exchange.Multipart
