import Exchange.Proofs.Multipart.Conduit.Credit

/-!
A conduit in use, with everybody who can touch it.

A `Line` is a conduit together with what the owner of its publisher has begun and what its consumer
has in hand. A `Deed` is whatever one of them can do, or the pump and the connection once the
publisher was handed to a pump. A sending that was begun goes on with each `resume` until it comes
to its result, and can be abandoned between any two of them.

However a line is used, no more fragments enter its queue than were demanded, except that a sending
abandoned behind its fragment keeps the credit it should have spent (`entered_le_demanded`). That
credit pays for another fragment, which nobody demanded (`forsaken_credit_pays_twice`).
-/
namespace Exchange.Multipart

/-- What the owner of a publisher has begun. -/
inductive Errand where
  | sending (s : Sending)
  /-- ending the stream by a fault, which uses the publisher up; `sent` tells that the fault is in
  the queue -/
  | failing (e : Fault) (sent : Bool)

def Errand.sending? : Errand → Option Sending
  | .sending s => some s
  | .failing .. => none

structure Line where
  conduit : Conduit
  errand : Option Errand := none
  /-- the fragments that the consumer took and has not let go -/
  inHand : List Fragment := []

/-- Something that is done with a line. -/
inductive Deed where
  | request (n : UInt64)
  | poll
  | cancel
  | drop
  /-- lets a fragment go -/
  | letGo (k : Nat)
  /-- begins to send a fragment -/
  | send (f : Fragment)
  /-- begins to end the stream by a fault -/
  | fail (e : Fault)
  /-- goes on with what was begun, as far as that gets -/
  | resume
  /-- abandons what was begun -/
  | abandon
  | complete
  | startPump
  | far (e : Conduit.Far)

namespace Line

def ofCapacity (capacity : Nat) : Line := { conduit := .ofCapacity capacity }

/-- The sending that the owner of the publisher is at. -/
def sending? (l : Line) : Option Sending := l.errand.bind Errand.sending?

/-! ### The consumer -/

/-- Uses the consumer's end, unless it is gone. -/
def ask (act : Conduit → Conduit) (l : Line) : Line :=
  if l.conduit.dropped then l else { l with conduit := act l.conduit }

def take (l : Line) : Line :=
  if l.conduit.dropped then l
  else
    let (answer, conduit) := l.conduit.poll
    { l with conduit, inHand := l.inHand ++ answer.fragment?.toList }

def letGo (k : Nat) (l : Line) : Line :=
  match l.inHand[k]? with
  | none => l
  | some f => { l with conduit := l.conduit.giveBack f.data, inHand := l.inHand.eraseIdx k }

/-! ### The owner of the publisher -/

def send (f : Fragment) (l : Line) : Line :=
  match l.errand, l.conduit.publisher with
  | none, some _ =>
    { l with
      conduit := { l.conduit with tally := l.conduit.tally.acquire f.data }
      errand := some (.sending (.credit f false)) }
  | _, _ => l

def fail (e : Fault) (l : Line) : Line :=
  match l.errand, l.conduit.publisher with
  | none, some _ => { l with errand := some (.failing e false) }
  | _, _ => l

def resume (l : Line) : Line :=
  match l.errand, l.conduit.publisher with
  | some (.sending s), some p =>
    match Conduit.advance p l.conduit s with
    | (.waiting s, p, c) =>
      { l with conduit := { c with publisher := some p }, errand := some (.sending s) }
    | (.done _, p, c) => { l with conduit := { c with publisher := some p }, errand := none }
  | some (.failing e sent), some _ =>
    match Conduit.advanceFault e l.conduit sent with
    | (.waiting sent, c) => { l with conduit := c, errand := some (.failing e sent) }
    | (.done (), c) => { l with conduit := c.dropPublisher, errand := none }
  | _, _ => l

def abandon (l : Line) : Line :=
  match l.errand with
  | none => l
  | some (.sending s) => { l with conduit := l.conduit.abandon s, errand := none }
  | some (.failing ..) => { l with conduit := l.conduit.dropPublisher, errand := none }

/-- Does something with the publisher itself, unless it is at an errand. -/
def own (act : Conduit → Conduit) (l : Line) : Line :=
  match l.errand with
  | none => { l with conduit := act l.conduit }
  | some _ => l

/-! ### Runs -/

def step (l : Line) : Deed → Line
  | .request n => l.ask (Conduit.request n.toNat)
  | .poll => l.take
  | .cancel => l.ask Conduit.cancel
  | .drop => l.ask Conduit.drop
  | .letGo k => l.letGo k
  | .send f => l.send f
  | .fail e => l.fail e
  | .resume => l.resume
  | .abandon => l.abandon
  | .complete => l.own Conduit.dropPublisher
  | .startPump => l.own fun c => c.startPump.2
  | .far e => { l with conduit := Conduit.far e l.conduit }

def run (l : Line) (deeds : List Deed) : Line := deeds.foldl step l

/-- Sending and giving up at the first wait is what `trySend` does. -/
theorem run_trySend {l : Line} {p : Publisher} (hp : l.conduit.publisher = some p)
    (he : l.errand = none) (f : Fragment) :
    (l.run [.send f, .resume, .abandon]).conduit =
      (Conduit.trySend f p
        { l.conduit with tally := l.conduit.tally.acquire f.data }).2 := by
  obtain ⟨⟨queue, signals, publisher, pump, transport, cancelled, dropped, tally⟩, errand,
    inHand⟩ := l
  obtain rfl : publisher = some p := hp
  obtain rfl : errand = none := he
  simp only [run, List.foldl_cons, List.foldl_nil, step, send, resume, Conduit.trySend]
  generalize Conduit.advance p _ (.credit f false) = result
  obtain ⟨s | _, q, c⟩ := result
  · dsimp only [abandon, Conduit.abandon]
    cases s.held? <;> rfl
  · rfl

end Line

/-! ### What entered the queue -/

/-- The fragments that a deed demands. -/
def Deed.demand : Deed → Nat
  | .request n => n.toNat
  | _ => 0

/-- The fragments that were demanded. -/
def demandedBy : List Deed → Nat
  | [] => 0
  | deed :: rest => deed.demand + demandedBy rest

/-- The items that entered the queue between two states. Nobody takes items out of it and puts
others in at once. -/
def Conduit.entered (before after : Conduit) : List Item :=
  after.queue.items.drop before.queue.items.length

/-- The items that entered the queue in a run. -/
def enteredBy : List Deed → Line → List Item
  | [], _ => []
  | deed :: rest, l => l.conduit.entered (l.step deed).conduit ++ enteredBy rest (l.step deed)

/-- One, if a deed abandons a sending whose fragment is in the queue. -/
def Line.forsakes (l : Line) : Deed → Nat
  | .abandon => lodged l.sending?
  | _ => 0

/-- How many sendings were abandoned with their fragments in the queue. -/
def forsakenBy : List Deed → Line → Nat
  | [], _ => 0
  | deed :: rest, l => l.forsakes deed + forsakenBy rest (l.step deed)

/-! ### Demand and what entered for it -/

namespace Conduit

theorem Polls.shrinks {c c' : Conduit} {answer : Delivery} (h : Polls c answer c') :
    c'.queue.items.length ≤ c.queue.items.length := by
  cases h with
  | fragment _ hitems => exact hitems ▸ Nat.le_succ _
  | fault _ hitems => exact hitems ▸ Nat.le_succ _
  | _ => exact Nat.le_refl _

theorem abandon_frame (s : Sending) (c : Conduit) : ∃ tally, c.abandon s = { c with tally } := by
  unfold abandon
  split
  · exact ⟨c.tally, rfl⟩
  · exact ⟨_, rfl⟩

theorem entered_of_le {c c' : Conduit} (h : c'.queue.items.length ≤ c.queue.items.length) :
    c.entered c' = [] := List.drop_eq_nil_of_le h

theorem entered_of_append {c c' : Conduit} {items : List Item}
    (h : c'.queue.items = c.queue.items ++ items) : c.entered c' = items := by
  unfold entered
  rw [h, List.drop_left]

end Conduit

open Conduit (Level Afloat)

/-- The balance of a line: of its pump, or of whoever else has the publisher. -/
structure Line.Even (strict : Prop) (demanded taken forsaken : Nat) (l : Line) : Prop where
  pumped : Level strict demanded taken forsaken l.conduit
  owned : ∀ p, l.conduit.publisher = some p →
    Afloat strict demanded taken forsaken p l.sending? l.conduit

/-- A line beside the history of its run. -/
structure Books (strict : Prop) (demanded entered forsaken : Nat) (l : Line) : Prop where
  covered : entered ≤ demanded + forsaken
  /-- a pump has the publisher for itself -/
  alone : ∀ p doing, l.conduit.pump = .running p doing →
    l.conduit.publisher = none ∧ l.errand = none
  even : l.conduit.queue.closed = false → ∃ taken,
    entered = taken + (fragmentsIn l.conduit.queue.items).length ∧
      l.Even strict demanded taken forsaken

/-- The books of a line after a step, with what the step let into the queue. -/
def Booked (strict : Prop) (demanded entered forsaken : Nat) (l l' : Line) : Prop :=
  Books strict demanded (entered + (fragmentsIn (l.conduit.entered l'.conduit)).length) forsaken l'

namespace Books

variable {strict : Prop} {demanded demanded' entered forsaken forsaken' : Nat} {l : Line}

theorem ofCapacity (capacity : Nat) : Books strict 0 0 0 (.ofCapacity capacity) where
  covered := Nat.le_refl 0
  alone _ _ hrun := nomatch hrun
  even _ := by
    refine ⟨0, rfl, nofun, fun p hp => ?_⟩
    obtain rfl : {} = p := Option.some.inj hp
    exact ⟨⟨rfl, rfl, rfl, rfl, List.not_mem_nil⟩, Nat.le_refl 0, fun _ => rfl, nofun, nofun⟩

/-- The books of a line into whose queue nothing entered. -/
theorem still {l' : Line} (h : Books strict demanded entered forsaken l)
    (hitems : l'.conduit.queue.items.length ≤ l.conduit.queue.items.length)
    (hdemanded : demanded ≤ demanded') (hforsaken : forsaken ≤ forsaken')
    (halone : ∀ p doing, l'.conduit.pump = .running p doing →
      l'.conduit.publisher = none ∧ l'.errand = none)
    (heven : l'.conduit.queue.closed = false → ∃ taken,
      entered = taken + (fragmentsIn l'.conduit.queue.items).length ∧
        l'.Even strict demanded' taken forsaken') :
    Booked strict demanded' entered forsaken' l l' := by
  have hcovered := h.covered
  unfold Booked
  rw [Conduit.entered_of_le hitems, fragmentsIn_nil, List.length_nil, Nat.add_zero]
  exact ⟨by omega, halone, heven⟩

theorem same (h : Books strict demanded entered forsaken l) :
    Booked strict demanded entered forsaken l l :=
  h.still (Nat.le_refl _) (Nat.le_refl _) (Nat.le_refl _) h.alone h.even

/-- Books do not show the transport, nor what the consumer has in hand. -/
theorem aside (h : Books strict demanded entered forsaken l) (transport : Transport) (tally : Tally)
    (inHand : List Fragment) :
    Booked strict demanded entered forsaken l
      { l with conduit := { l.conduit with transport, tally }, inHand } := by
  refine h.still (Nat.le_refl _) (Nat.le_refl _) (Nat.le_refl _) h.alone fun hopen => ?_
  obtain ⟨taken, hentered, hpumped, howned⟩ := h.even hopen
  exact ⟨taken, hentered,
    fun _ p doing hrun => (hpumped hopen p doing hrun).frame rfl rfl rfl rfl,
    fun p hp => (howned p hp).frame rfl rfl rfl rfl⟩

/-! ### The consumer -/

theorem request (h : Books strict demanded entered forsaken l) (n : Nat) :
    Booked strict (demanded + n) entered forsaken l (l.ask (Conduit.request n)) := by
  obtain ⟨hqueue, hpublisher, hpump, -⟩ := Conduit.request_frame n l.conduit
  unfold Line.ask
  split
  · next hdropped =>
    -- nobody is left who could ask, nor a balance
    have hgone : ∀ {taken p s?}, ¬ Afloat strict demanded taken forsaken p s? l.conduit := by
      intro taken p s? hafloat
      rw [hafloat.held] at hdropped
      cases hdropped
    refine h.still (Nat.le_refl _) (Nat.le_add_right ..) (Nat.le_refl _) h.alone fun hopen => ?_
    obtain ⟨taken, hentered, hpumped, howned⟩ := h.even hopen
    exact ⟨taken, hentered, fun _ p doing hrun => absurd (hpumped hopen p doing hrun) hgone,
      fun p hp => absurd (howned p hp) hgone⟩
  · refine h.still ?_ (Nat.le_add_right ..) (Nat.le_refl _) ?_ ?_
    · exact Nat.le_of_eq (by rw [hqueue])
    · intro p doing hrun
      exact (h.alone p doing (hpump.symm.trans hrun)).imp_left hpublisher.trans
    · intro hopen
      dsimp only at hopen ⊢
      rw [hqueue] at hopen ⊢
      obtain ⟨taken, hentered, hpumped, howned⟩ := h.even hopen
      refine ⟨taken, hentered, fun _ p doing hrun => ?_, fun p hp => ?_⟩
      · have hrun := hpump.symm.trans hrun
        exact (hpumped hopen p doing hrun).request (Conduit.publishing_of_running hrun) n
      · have hp := hpublisher.symm.trans hp
        exact (howned p hp).request (Conduit.publishing_of_owned hp) n

theorem take (h : Books strict demanded entered forsaken l) :
    Booked strict demanded entered forsaken l l.take := by
  unfold Line.take
  split
  · exact h.same
  · generalize hpoll : l.conduit.poll = polled
    obtain ⟨answer, c⟩ := polled
    have hpolls := Conduit.polls_of_poll hpoll
    have hitems := hpolls.fragments
    have hle := hpolls.shrinks
    obtain ⟨queue, rfl, hclosed⟩ := hpolls.frame
    refine h.still hle (Nat.le_refl _) (Nat.le_refl _) h.alone fun hopen => ?_
    have hopen := hclosed.symm.trans hopen
    obtain ⟨taken, hentered, hpumped, howned⟩ := h.even hopen
    refine ⟨taken + answer.fragment?.toList.length, ?_, fun _ p doing hrun => ?_, fun p hp => ?_⟩
    · rw [hentered, hitems, List.length_append, Nat.add_assoc]
    · exact (hpumped hopen p doing hrun).poll hpolls
    · exact (howned p hp).poll hpolls

theorem letGo (h : Books strict demanded entered forsaken l) (k : Nat) :
    Booked strict demanded entered forsaken l (l.letGo k) := by
  unfold Line.letGo
  split
  · exact h.same
  · exact h.aside l.conduit.transport _ _

/-- A conduit that is shut has no balance left. -/
theorem shut (h : Books strict demanded entered forsaken l) {c : Conduit}
    (hqueue : c.queue = l.conduit.queue.shut) (hpublisher : c.publisher = l.conduit.publisher)
    (hpump : c.pump = l.conduit.pump) :
    Booked strict demanded entered forsaken l { l with conduit := c } := by
  refine h.still ?_ (Nat.le_refl _) (Nat.le_refl _) ?_ ?_
  · dsimp only
    rw [hqueue]
    exact Nat.zero_le _
  · intro p doing hrun
    exact (h.alone p doing (hpump.symm.trans hrun)).imp_left hpublisher.trans
  · intro hopen
    dsimp only at hopen
    rw [hqueue] at hopen
    cases hopen

theorem cancel (h : Books strict demanded entered forsaken l) :
    Booked strict demanded entered forsaken l (l.ask Conduit.cancel) := by
  unfold Line.ask
  split
  · exact h.same
  · unfold Conduit.cancel
    split
    · exact h.same
    · exact h.shut rfl rfl rfl

theorem drop (h : Books strict demanded entered forsaken l) :
    Booked strict demanded entered forsaken l (l.ask Conduit.drop) := by
  unfold Line.ask
  split
  · exact h.same
  · exact h.shut rfl rfl rfl

/-! ### The owner of the publisher -/

/-- The books of a line into whose queue some items entered. -/
theorem grow {l' : Line} (h : Books strict demanded entered forsaken l) {items : List Item}
    (hitems : l'.conduit.queue.items = l.conduit.queue.items ++ items)
    (hclosed : l'.conduit.queue.closed = l.conduit.queue.closed)
    (hshut : l.conduit.queue.closed = true → items = [])
    (halone : ∀ p doing, l'.conduit.pump = .running p doing →
      l'.conduit.publisher = none ∧ l'.errand = none)
    (heven : ∀ taken, l.conduit.queue.closed = false → l.Even strict demanded taken forsaken →
      l'.Even strict demanded taken forsaken ∧ (fragmentsIn items = [] ∨
        ∃ p s?, Afloat strict demanded taken forsaken p s? l'.conduit)) :
    Booked strict demanded entered forsaken l l' := by
  have hcovered := h.covered
  unfold Booked
  rw [Conduit.entered_of_append hitems]
  cases hopen : l.conduit.queue.closed with
  | true =>
    rw [hshut hopen, fragmentsIn_nil, List.length_nil, Nat.add_zero]
    refine ⟨hcovered, halone, fun hnot => ?_⟩
    rw [hclosed, hopen] at hnot
    cases hnot
  | false =>
    obtain ⟨taken, hentered, hlevel⟩ := h.even hopen
    obtain ⟨hlevel', hlive⟩ := heven taken hopen hlevel
    have hcount : (fragmentsIn l'.conduit.queue.items).length =
        (fragmentsIn l.conduit.queue.items).length + (fragmentsIn items).length := by
      rw [hitems, fragmentsIn_append, List.length_append]
    refine ⟨?_, halone, fun _ => ⟨taken, by omega, hlevel'⟩⟩
    rcases hlive with hnone | ⟨p, s?, hafloat⟩
    · rw [hnone, List.length_nil]
      omega
    · have := hafloat.covered
      omega

/-- No pump runs while the publisher has another owner. -/
theorem rests (h : Books strict demanded entered forsaken l) {p : Publisher}
    (hp : l.conduit.publisher = some p) (q : Publisher) (doing : Pumping) :
    l.conduit.pump ≠ .running q doing := by
  intro hrun
  rw [(h.alone q doing hrun).1] at hp
  cases hp

/-- Who owns the publisher has it for itself. -/
theorem even_of_owned {c : Conduit} {p : Publisher} {errand : Option Errand} {taken : Nat}
    {inHand : List Fragment} (hrests : ∀ q doing, c.pump ≠ .running q doing)
    (hp : c.publisher = some p)
    (h : Afloat strict demanded taken forsaken p (errand.bind Errand.sending?) c) :
    Line.Even strict demanded taken forsaken ⟨c, errand, inHand⟩ := by
  refine ⟨fun _ p doing hrun => absurd hrun (hrests p doing), fun q hq => ?_⟩
  obtain rfl := Option.some.inj (hp.symm.trans hq)
  exact h

theorem send (h : Books strict demanded entered forsaken l) (f : Fragment) :
    Booked strict demanded entered forsaken l (l.send f) := by
  unfold Line.send
  split
  · next p herrand hp =>
    refine h.still (Nat.le_refl _) (Nat.le_refl _) (Nat.le_refl _)
      (fun q doing hrun => absurd hrun (h.rests hp q doing)) fun hopen => ?_
    obtain ⟨taken, hentered, -, howned⟩ := h.even hopen
    have hnone := howned p hp
    rw [Line.sending?, herrand] at hnone
    exact ⟨taken, hentered,
      even_of_owned (h.rests hp) hp ((Afloat.begins hnone f).frame rfl rfl rfl rfl)⟩
  · exact h.same

theorem fail (h : Books strict demanded entered forsaken l) (e : Fault) :
    Booked strict demanded entered forsaken l (l.fail e) := by
  unfold Line.fail
  split
  · next p herrand hp =>
    refine h.still (Nat.le_refl _) (Nat.le_refl _) (Nat.le_refl _)
      (fun q doing hrun => absurd hrun (h.rests hp q doing)) fun hopen => ?_
    obtain ⟨taken, hentered, -, howned⟩ := h.even hopen
    have hnone := howned p hp
    rw [Line.sending?, herrand] at hnone
    exact ⟨taken, hentered, even_of_owned (h.rests hp) hp hnone⟩
  · exact h.same

/-- Going on with a sending. -/
theorem goes (h : Books strict demanded entered forsaken l) {p q : Publisher} {s : Sending}
    {r : Progress Sending (Except Fault Unit)} {c : Conduit} {errand : Option Errand}
    (herrand : l.errand = some (.sending s)) (hp : l.conduit.publisher = some p)
    (hgoes : Conduit.Goes p l.conduit s r q c) (hnext : errand.bind Errand.sending? = r.point?)
    (hroom : strict → demanded + forsaken ≤ Count.top) :
    Booked strict demanded entered forsaken l
      { l with conduit := { c with publisher := some q }, errand } := by
  obtain ⟨fs, hitems, hclosed, hshut⟩ := hgoes.queue
  have hrests : ∀ q doing, c.pump ≠ .running q doing := by
    rw [hgoes.frame.2.1]
    exact h.rests hp
  refine h.grow hitems hclosed ?_ ?_ ?_
  · intro hopen
    rw [hshut hopen, List.map_nil]
  · exact fun q doing hrun => absurd hrun (hrests q doing)
  · intro taken hopen heven
    have hsending := heven.owned p hp
    rw [Line.sending?, herrand] at hsending
    have hafloat : Afloat strict demanded taken forsaken q (errand.bind Errand.sending?)
        { c with publisher := some q } := by
      rw [hnext]
      exact (Afloat.goes hgoes (fun hstrict => Nat.le_add_right_of_le (hroom hstrict))
        hsending).frame rfl rfl rfl rfl
    exact ⟨even_of_owned hrests rfl hafloat, .inr ⟨q, _, hafloat⟩⟩

/-- Going on with passing a fault on. -/
theorem fails (h : Books strict demanded entered forsaken l) {p : Publisher} {e : Fault}
    {sent : Bool} {r : Progress Bool Unit} {c : Conduit} {errand : Option Errand}
    (herrand : l.errand = some (.failing e sent)) (hp : l.conduit.publisher = some p)
    (hadvance : Conduit.advanceFault e l.conduit sent = (r, c))
    (hnext : errand.bind Errand.sending? = none) {publisher : Option Publisher}
    (hpublisher : publisher = some p ∨ publisher = none) :
    Booked strict demanded entered forsaken l
      { l with conduit := { c with publisher }, errand } := by
  obtain ⟨queue, items, rfl, hitems, hnone, hclosed, hshut⟩ := Conduit.advanceFault_frame hadvance
  have hrests := h.rests hp
  refine h.grow hitems hclosed hshut
    (fun q doing hrun => absurd hrun (hrests q doing)) fun taken hopen heven => ⟨?_, .inl hnone⟩
  have hfailing := heven.owned p hp
  rw [Line.sending?, herrand] at hfailing
  have hafloat : Afloat strict demanded taken forsaken p (errand.bind Errand.sending?)
      { l.conduit with queue, publisher } := by
    rw [hnext]
    refine (Afloat.requeue hfailing queue hclosed ?_).frame rfl rfl rfl rfl
    rw [hitems, fragmentsIn_append, hnone, List.append_nil]
  rcases hpublisher with rfl | rfl
  · exact even_of_owned hrests rfl hafloat
  · exact ⟨fun _ q doing hrun => absurd hrun (hrests q doing), nofun⟩

theorem resume (h : Books strict demanded entered forsaken l)
    (hroom : strict → demanded + forsaken ≤ Count.top) :
    Booked strict demanded entered forsaken l l.resume := by
  unfold Line.resume
  split
  · next herrand hp =>
    split
    · next hadvance => exact h.goes herrand hp (Conduit.goes_of_advance hadvance) rfl hroom
    · next hadvance => exact h.goes herrand hp (Conduit.goes_of_advance hadvance) rfl hroom
  · next herrand hp =>
    split
    · next c hadvance =>
      obtain ⟨queue, -, rfl, -⟩ := Conduit.advanceFault_frame hadvance
      exact h.fails herrand hp hadvance rfl (.inl hp)
    · next hadvance => exact h.fails herrand hp hadvance rfl (.inr rfl)
  · exact h.same

/-- A sending that is abandoned in the queue is forsaken. -/
theorem abandon (h : Books strict demanded entered forsaken l) :
    Booked strict demanded entered (forsaken + lodged l.sending?) l l.abandon := by
  unfold Line.abandon
  split
  · next herrand =>
    rw [Line.sending?, herrand]
    exact h.same
  · next s herrand =>
    have hrests : ∀ q doing, l.conduit.pump ≠ .running q doing := by
      intro q doing hrun
      rw [(h.alone q doing hrun).2] at herrand
      cases herrand
    obtain ⟨tally, htally⟩ := Conduit.abandon_frame s l.conduit
    rw [htally]
    refine h.still (Nat.le_refl _) (Nat.le_refl _) (Nat.le_add_right ..)
      (fun q doing hrun => absurd hrun (hrests q doing)) fun hopen => ?_
    obtain ⟨taken, hentered, -, howned⟩ := h.even hopen
    refine ⟨taken, hentered, fun _ q doing hrun => absurd hrun (hrests q doing), fun p hp => ?_⟩
    have hsending := howned p hp
    rw [show l.sending? = some s by rw [Line.sending?, herrand]; rfl] at hsending ⊢
    have hforsaken := hsending.forsakes
    rw [htally] at hforsaken
    exact hforsaken
  · next herrand =>
    refine h.still (Nat.le_refl _) (Nat.le_refl _) (Nat.le_add_right ..) ?_ fun hopen => ?_
    · exact fun q doing hrun => absurd (herrand.symm.trans (h.alone q doing hrun).2) nofun
    · obtain ⟨taken, hentered, hpumped, -⟩ := h.even hopen
      rw [Line.sending?, herrand]
      exact ⟨taken, hentered,
        fun hopen p doing hrun => (hpumped hopen p doing hrun).frame rfl rfl rfl rfl, nofun⟩

theorem complete (h : Books strict demanded entered forsaken l) :
    Booked strict demanded entered forsaken l (l.own Conduit.dropPublisher) := by
  unfold Line.own
  split
  · refine h.still (Nat.le_refl _) (Nat.le_refl _) (Nat.le_refl _) ?_ fun hopen => ?_
    · exact fun p doing hrun => ⟨rfl, (h.alone p doing hrun).2⟩
    · obtain ⟨taken, hentered, hpumped, -⟩ := h.even hopen
      exact ⟨taken, hentered,
        fun hopen p doing hrun => (hpumped hopen p doing hrun).frame rfl rfl rfl rfl, nofun⟩
  · exact h.same

/-! ### The pump -/

theorem startPump (h : Books strict demanded entered forsaken l) :
    Booked strict demanded entered forsaken l (l.own fun c => c.startPump.2) := by
  unfold Line.own
  split
  · next herrand =>
    unfold Conduit.startPump
    dsimp only
    split
    · next p hp hidle =>
      refine h.still (Nat.le_refl _) (Nat.le_refl _) (Nat.le_refl _)
        (fun _ _ _ => ⟨rfl, herrand⟩) fun hopen => ?_
      obtain ⟨taken, hentered, -, howned⟩ := h.even hopen
      have hnone := howned p hp
      rw [Line.sending?, herrand] at hnone
      exact ⟨taken, hentered, Level.of_running rfl (Afloat.frame hnone rfl rfl rfl rfl), nofun⟩
    · exact h.same
  · exact h.same

theorem pump (h : Books strict demanded entered forsaken l)
    (hroom : strict → demanded + forsaken ≤ Count.top) :
    Booked strict demanded entered forsaken l { l with conduit := l.conduit.pumpStep } := by
  by_cases hrun : ∃ p doing, l.conduit.pump = .running p doing
  · obtain ⟨p, doing, hrun⟩ := hrun
    have hpumps := l.conduit.pumps
    obtain ⟨items, hitems, hclosed, hshut⟩ := hpumps.queue
    obtain ⟨hnone, herrand⟩ := h.alone p doing hrun
    have hnone' := hpumps.frame.1.trans hnone
    refine h.grow hitems hclosed hshut (fun _ _ _ => ⟨hnone', herrand⟩) fun taken hopen heven => ?_
    have hlevel := heven.pumped.pumps
      (fun hstrict => Nat.le_add_right_of_le (hroom hstrict)) hpumps
    refine ⟨⟨hlevel, fun q hq => absurd (hnone'.symm.trans hq) nofun⟩, ?_⟩
    rcases hpumps.fragments with hsame | ⟨q, doing', hrun'⟩
    · left
      rw [hitems, fragmentsIn_append] at hsame
      exact List.append_cancel_left (hsame.trans (List.append_nil _).symm)
    · exact .inr ⟨q, _, hlevel (hclosed.trans hopen) q doing' hrun'⟩
  · rw [Conduit.pumpStep_of_not_running fun p doing hp => hrun ⟨p, doing, hp⟩]
    exact h.same

theorem far (h : Books strict demanded entered forsaken l)
    (hroom : strict → demanded + forsaken ≤ Count.top) (e : Conduit.Far) :
    Booked strict demanded entered forsaken l { l with conduit := Conduit.far e l.conduit } := by
  cases e with
  | pump => exact h.pump hroom
  | feed i =>
    show Booked strict demanded entered forsaken l { l with conduit := (l.conduit.feed i).2 }
    rw [Conduit.feed_frame]
    exact h.aside _ _ l.inHand
  | finish => exact h.aside _ l.conduit.tally l.inHand

/-! ### Runs -/

theorem step (h : Books strict demanded entered forsaken l)
    (hroom : strict → demanded + forsaken ≤ Count.top) (deed : Deed) :
    Booked strict (demanded + deed.demand) entered (forsaken + l.forsakes deed) l
      (l.step deed) := by
  cases deed with
  | request n => exact h.request n.toNat
  | poll => exact h.take
  | cancel => exact h.cancel
  | drop => exact h.drop
  | letGo k => exact h.letGo k
  | send f => exact h.send f
  | fail e => exact h.fail e
  | resume => exact h.resume hroom
  | abandon => exact h.abandon
  | complete => exact h.complete
  | startPump => exact h.startPump
  | far e => exact h.far hroom e

theorem run (h : Books strict demanded entered forsaken l) (deeds : List Deed)
    (hroom : strict →
      demanded + demandedBy deeds + (forsaken + forsakenBy deeds l) ≤ Count.top) :
    Books strict (demanded + demandedBy deeds)
      (entered + (fragmentsIn (enteredBy deeds l)).length) (forsaken + forsakenBy deeds l)
      (l.run deeds) := by
  induction deeds generalizing l demanded entered forsaken with
  | nil => exact h
  | cons deed rest ih =>
    rw [demandedBy, forsakenBy] at hroom
    have hnow : strict → demanded + forsaken ≤ Count.top := fun hstrict => by
      have := hroom hstrict
      omega
    have hrest := ih (h.step hnow deed) fun hstrict => by
      have := hroom hstrict
      omega
    rw [demandedBy, enteredBy, forsakenBy, fragmentsIn_append, List.length_append]
    simp only [Nat.add_assoc] at hrest ⊢
    exact hrest

end Books

/-- **Demand bounds what enters.** Whatever its users, its pump and its connection do with a conduit
of any capacity, no more fragments enter its queue than were demanded of it, but for one for each
sending that was abandoned with its fragment in the queue. -/
theorem entered_le_demanded (capacity : Nat) (deeds : List Deed) :
    (fragmentsIn (enteredBy deeds (.ofCapacity capacity))).length ≤
      demandedBy deeds + forsakenBy deeds (.ofCapacity capacity) := by
  have hbooks : Books False _ _ _ _ := (Books.ofCapacity capacity).run deeds False.elim
  simpa only [Nat.zero_add] using hbooks.covered

/-- One fragment is demanded. The first sending is abandoned when the queue holds its fragment, and
the second one finds the credit that the first did not spend. -/
def sentTwice : List Deed :=
  let sent (name : String) : Fragment := ⟨{ name }, { bytes := [1] }, false⟩
  [.request 1, .send (sent "a"), .resume, .abandon, .poll, .send (sent "b"), .resume]

theorem forsaken_credit_pays_twice :
    demandedBy sentTwice = 1 ∧ (fragmentsIn (enteredBy sentTwice (.ofCapacity 0))).length = 2 ∧
      forsakenBy sentTwice (.ofCapacity 0) = 1 := by
  decide +kernel

end Exchange.Multipart
