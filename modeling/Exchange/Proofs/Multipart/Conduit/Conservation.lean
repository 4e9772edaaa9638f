import Exchange.Proofs.Multipart.Conduit.Line
import Exchange.Proofs.Multipart.Metered

/-!
Credit is conserved in a pumped conduit.

Demand that reached a pumped conduit is an unread signal, is the pump's credit, or was spent on a
fragment that entered the queue, and nothing of it is lost. For a demultiplexer that reads the
conduit this means that the fragments it counts as outstanding are those that are still on their way
to it. So the pump cannot wait for demand with every signal read while the consumer waits for a part
with nothing in the queue (`credit_conserved`).
-/
namespace Exchange.Multipart

def Line.pumped (capacity : Nat) : Line := { conduit := .pumped capacity }

/-- What can be done with a pumped line, short of stopping it. -/
def Deed.pumping : Deed → Bool
  | .request _ | .poll | .letGo _ | .far _ => true
  | _ => false

open Conduit (Level Afloat)

/-! ### Lines -/

namespace Line

variable {l : Line} {deed : Deed}

theorem forsakes_pumping (h : deed.pumping = true) : l.forsakes deed = 0 := by
  cases deed <;> first | rfl | cases h

theorem forsakenBy_pumping {deeds : List Deed} (h : ∀ deed ∈ deeds, deed.pumping = true) :
    forsakenBy deeds l = 0 := by
  induction deeds generalizing l with
  | nil => rfl
  | cons deed rest ih =>
    rw [forsakenBy, forsakes_pumping (h deed List.mem_cons_self),
      ih fun deed hmem => h deed (List.mem_cons_of_mem _ hmem)]

end Line

theorem Conduit.closed_far (e : Far) (c : Conduit) :
    (Conduit.far e c).queue.closed = c.queue.closed := by
  cases e with
  | pump =>
    obtain ⟨_, -, hclosed, -⟩ := c.pumps.queue
    exact hclosed
  | feed i =>
    show (c.feed i).2.queue.closed = _
    rw [feed_frame]
  | finish => rfl

namespace Line

variable {l : Line} {deed : Deed}

theorem closed_pumping (h : deed.pumping = true) :
    (l.step deed).conduit.queue.closed = l.conduit.queue.closed := by
  cases deed with
  | request n =>
    show (l.ask _).conduit.queue.closed = _
    unfold ask
    split
    · rfl
    · exact congrArg Queue.closed (Conduit.request_frame n.toNat l.conduit).1
  | poll =>
    show l.take.conduit.queue.closed = _
    unfold take
    split
    · rfl
    · obtain ⟨queue, hframe, hclosed⟩ := l.conduit.polls.frame
      exact (congrArg (Queue.closed ∘ Conduit.queue) hframe).trans hclosed
  | letGo k =>
    show (l.letGo k).conduit.queue.closed = _
    unfold letGo
    split <;> rfl
  | far e => exact Conduit.closed_far e l.conduit
  | _ => cases h

theorem closed_run_pumping {deeds : List Deed} (h : ∀ deed ∈ deeds, deed.pumping = true) :
    (l.run deeds).conduit.queue.closed = l.conduit.queue.closed := by
  induction deeds generalizing l with
  | nil => rfl
  | cons deed rest ih =>
    exact (ih fun deed hmem => h deed (List.mem_cons_of_mem _ hmem)).trans
      (closed_pumping (h deed List.mem_cons_self))

end Line

/-- The balance of a pumped line. -/
theorem Line.balanced_pumped {capacity : Nat} {deeds : List Deed}
    (hdeeds : ∀ deed ∈ deeds, deed.pumping = true) (htop : demandedBy deeds < 2 ^ 64)
    {p : Publisher} {doing : Pumping}
    (hrun : ((Line.pumped capacity).run deeds).conduit.pump = .running p doing) :
    p.credit + demandIn ((Line.pumped capacity).run deeds).conduit.signals +
        (fragmentsIn (enteredBy deeds (.pumped capacity))).length =
      demandedBy deeds + lodged doing.sending? := by
  have hstart : Books True 0 0 0 (.pumped capacity) := (Books.ofCapacity capacity).startPump
  have hroom : demandedBy deeds ≤ Count.top := Nat.le_pred_of_lt htop
  have hbooks := hstart.run deeds fun _ => by
    rw [Line.forsakenBy_pumping hdeeds]
    omega
  obtain ⟨taken, hentered, hlevel, -⟩ := hbooks.even (Line.closed_run_pumping hdeeds)
  have hbalance := (hlevel (Line.closed_run_pumping hdeeds) p doing hrun).balance trivial
  rw [Line.forsakenBy_pumping hdeeds] at hbalance
  unfold Conduit.stock at hbalance
  omega

/-! ### Demultiplexers -/

/-- The fragments outstanding beside the conduit they are to come from. -/
def Conduit.Owes (outstanding : Nat) (w : Watched Conduit) : Prop :=
  w.source.queue.closed = false ∧ Level True outstanding 0 0 w.source

theorem Conduit.Afloat.arrived {k : Nat} {p : Publisher} {s? : Option Sending} {c : Conduit}
    (h : Afloat True (k + 1) 1 0 p s? c) : Afloat True k 0 0 p s? c := by
  obtain ⟨ho, hmost, hbalance, hpaid, hbroke⟩ := h
  refine ⟨ho, by omega, fun hstrict => ?_, hpaid, hbroke⟩
  have := hbalance hstrict
  omega

theorem Conduit.owes_metered : Supply.Metered Owes where
  request n k w := by
    rintro ⟨hopen, hlevel⟩
    obtain ⟨hqueue, -, hpump, -⟩ := request_frame n w.source
    refine ⟨(congrArg Queue.closed hqueue).trans hopen, fun _ p doing hrun => ?_⟩
    have hrun := hpump.symm.trans hrun
    exact (hlevel hopen p doing hrun).request (publishing_of_running hrun) n
  fragment k f w w' _ := by
    rintro ⟨hopen, hlevel⟩ hp
    have hpolls := polls_watched hp
    obtain ⟨c', calls⟩ := w'
    obtain ⟨queue, rfl, hclosed⟩ := hpolls.frame
    refine ⟨hclosed.trans hopen, fun _ p doing hrun => ?_⟩
    exact ((hlevel hopen p doing hrun).poll hpolls).arrived.frame rfl rfl rfl rfl
  other k answer w w' := by
    rintro ⟨hopen, hlevel⟩ hp hnone
    have hpolls := polls_watched hp
    obtain ⟨c', calls⟩ := w'
    obtain ⟨queue, rfl, hclosed⟩ := hpolls.frame
    refine ⟨hclosed.trans hopen, fun _ p doing hrun => ?_⟩
    have hafloat := (hlevel hopen p doing hrun).poll hpolls
    rw [hnone] at hafloat
    exact hafloat

theorem Conduit.owes_far (e : Far) (k : Nat) (w : Watched Conduit) (hk : k ≤ Count.top)
    (h : Owes k w) : Owes k (Watched.happen far e w) :=
  ⟨(closed_far e w.source).trans h.1, h.2.far (fun _ => hk) e⟩

theorem Conduit.owes_pumped (capacity : Nat) : Owes 0 ⟨pumped capacity, []⟩ := by
  refine ⟨rfl, Level.of_running rfl ?_⟩
  exact ⟨⟨rfl, rfl, rfl, rfl, List.not_mem_nil⟩, Nat.le_refl 0, fun _ => rfl, nofun, nofun⟩

section

variable {capacity : Nat} {limits : Limits} {es : List Conduit.Far} {l : Ledger} {d : Demux Conduit}
  {p : Publisher} {doing : Pumping}

/-- What a demultiplexer that runs counts as outstanding is on its way to it. -/
theorem Attended.afloat (h : Attended Conduit.far limits (.pumped capacity) es l d)
    (hl : l.Unbroken) (ht : d.terminated = false) (hrun : d.source.pump = .running p doing) :
    Afloat True d.flow.outstanding 0 0 p doing.sending? d.source ∧
      (0 < d.flow.owed → 0 < d.flow.outstanding) := by
  obtain ⟨w, hw, rfl⟩ := h.watched
  obtain ⟨hin, hopen, hlevel⟩ := hw.metered Conduit.owes_metered (Conduit.owes_pumped capacity)
    Conduit.owes_far hl ht
  exact ⟨hlevel hopen p doing hrun, hin.moving⟩

/-- The two ends do not wait for each other. -/
theorem Attended.unblocked (h : Attended Conduit.far limits (.pumped capacity) es l d)
    (hl : l.Unbroken) (ht : d.terminated = false) (hrun : d.source.pump = .running p doing) :
    ¬ (0 < d.flow.owed ∧ d.source.queue.items = [] ∧ d.source.signals = [] ∧
      ∃ f, doing = .sending (.credit f true)) := by
  rintro ⟨howed, hqueue, hsignals, f, rfl⟩
  obtain ⟨hafloat, hmoving⟩ := h.afloat hl ht hrun
  have houtstanding := hmoving howed
  have hbalance := hafloat.balance trivial
  -- the demand for that part would have to be somewhere
  unfold Conduit.stock at hbalance
  rw [hafloat.broke f rfl, hqueue, hsignals] at hbalance
  simp [demandIn, lodged, Pumping.sending?] at hbalance
  omega

end

/-- **Credit is conserved.** Whatever happens in a pumped conduit that nobody stops, while its
demand can be counted the pump's credit, the unread demand and the fragments that entered the queue
come to the demand, where the demand for a lodged fragment is not spent yet. So no more fragments
enter than were demanded. As long as a demultiplexer over the conduit runs, the fragments it counts
as outstanding are on their way to it, and it never waits for a part with nothing in the queue while
the pump waits for demand with no signal left. -/
theorem credit_conserved (capacity : Nat) :
    (∀ deeds : List Deed, (∀ deed ∈ deeds, deed.pumping = true) → demandedBy deeds < 2 ^ 64 →
      let c := ((Line.pumped capacity).run deeds).conduit
      let entered := (fragmentsIn (enteredBy deeds (.pumped capacity))).length
      (∀ p doing, c.pump = .running p doing →
        p.credit + demandIn c.signals + entered = demandedBy deeds + lodged doing.sending?) ∧
      entered ≤ demandedBy deeds) ∧
    ∀ (limits : Limits) (es : List Conduit.Far) (l : Ledger) (d : Demux Conduit) (p : Publisher)
      (doing : Pumping), Attended Conduit.far limits (.pumped capacity) es l d → l.Unbroken →
      d.terminated = false → d.source.pump = .running p doing →
        d.flow.outstanding + lodged doing.sending? =
          p.credit + demandIn d.source.signals + (fragmentsIn d.source.queue.items).length ∧
        ¬ (0 < d.flow.owed ∧ d.source.queue.items = [] ∧ d.source.signals = [] ∧
          ∃ f, doing = .sending (.credit f true)) := by
  constructor
  · intro deeds hdeeds htop
    refine ⟨fun p doing hrun => Line.balanced_pumped hdeeds htop hrun, ?_⟩
    have hstart : Books False 0 0 0 (.pumped capacity) := (Books.ofCapacity capacity).startPump
    have hcovered := (hstart.run deeds False.elim).covered
    rw [Line.forsakenBy_pumping hdeeds] at hcovered
    simpa only [Nat.zero_add, Nat.add_zero] using hcovered
  · intro limits es l d p doing hd hl ht hrun
    have hbalance := (hd.afloat hl ht hrun).1.balance trivial
    unfold Conduit.stock at hbalance
    exact ⟨hbalance.symm, hd.unblocked hl ht hrun⟩

/-- What the connection reads in the end, and what its pump does with it. -/
def oneRead : List Conduit.Far :=
  [.feed (.ok ⟨{ name := "a" }, { bytes := [1] }, true⟩), .pump, .pump]

/-- Two fragments are demanded; the only one there is fills the queue. -/
def oneSent : List Deed := .request 2 :: oneRead.map .far

theorem credit_conserved_lodged :
    (∀ deed ∈ oneSent, deed.pumping = true) ∧ demandedBy oneSent < 2 ^ 64 ∧
      (fragmentsIn (enteredBy oneSent (.pumped 0))).length = 1 ∧
      ∃ (l : Ledger) (d : Demux Conduit), Attended Conduit.far {} (.pumped 0) oneRead l d ∧
        l.Unbroken ∧ d.terminated = false ∧ d.flow.outstanding = 2 := by
  have hpumping : ∀ deed ∈ oneSent, deed.pumping = true := by decide
  have hdemanded : demandedBy oneSent < 2 ^ 64 := by decide
  have hrun : ((Line.pumped 0).run oneSent).conduit.pump =
      .running ⟨2, false⟩ (.sending .release) := by cbv
  have hread : ((Line.pumped 0).run oneSent).conduit.signals = [] := by cbv
  have hsent := ((credit_conserved 0).1 oneSent hpumping hdemanded).1 _ _ hrun
  rw [hread] at hsent
  -- the same for a demultiplexer that asks for two parts
  have hstart : Attended Conduit.far {} (.pumped 0) [] {} { source := .pumped 0 } := .start
  have hdemux := (((hstart.request 2).happen
    (.feed (.ok ⟨{ name := "a" }, { bytes := [1] }, true⟩))).happen .pump).happen .pump
  have hwaits := ((credit_conserved 0).2 _ _ _ _ ⟨2, false⟩ (.sending .release) hdemux
    (fun _ => List.not_mem_nil) rfl (by cbv)).1
  refine ⟨hpumping, hdemanded, ?_, _, _, hdemux, fun _ => List.not_mem_nil, rfl, ?_⟩
  · change 2 + 0 + _ = 2 + 1 at hsent
    omega
  · change _ + 1 = 2 + 0 + 1 at hwaits
    omega

end Exchange.Multipart
