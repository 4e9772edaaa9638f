import Exchange.Proofs.Multipart.Conduit.Deeds
import Exchange.Proofs.Multipart.Conduit.Streamed
import Exchange.Proofs.Multipart.Returned

/-!
Where the buffers of a line are.

A buffer waits in the transport, or somebody is sending its fragment, or it is in the queue, or the
consumer keeps it, or it went back. An `Inventory` is an account that tells what came, what is there
and what went back. One step of a sending or of a pump keeps it (`Goes.inventory`,
`Pumps.inventory`), so every deed does (`Stocked.does`), and what is held no more behind a deed is
what went back (`Stocked.step`). So no buffer is lost and none goes back twice
(`buffers_in_one_place`).
-/
namespace Exchange.Multipart

/-- The buffers of the fragments among some items. -/
def buffersIn (items : List Item) : List Buffer := (fragmentsIn items).map Fragment.data

@[simp] theorem buffersIn_nil : buffersIn [] = [] := rfl

@[simp] theorem buffersIn_append (a b : List Item) :
    buffersIn (a ++ b) = buffersIn a ++ buffersIn b := by
  simp [buffersIn]

@[simp] theorem buffersIn_cons_fragment (f : Fragment) (items : List Item) :
    buffersIn (.ok f :: items) = f.data :: buffersIn items := rfl

@[simp] theorem buffersIn_cons_fault (e : Fault) (items : List Item) :
    buffersIn (.error e :: items) = buffersIn items := rfl

/-- All buffers of some items come back. -/
theorem Inventory.release_items {t : Tally} {brought returned held : List Buffer}
    {items : List Item}
    (h : Inventory brought returned (buffersIn items ++ held) t) :
    Inventory brought (buffersIn items ++ returned) held (items.foldl Item.release t) := by
  induction items generalizing t returned with
  | nil => exact h
  | cons i rest ih =>
    cases i with
    | ok f => exact (ih (release h)).reorder List.perm_middle (.refl _)
    | error e => exact ih h

/-! ### Places -/

namespace Line

/-- The buffers that the connection has read and nobody has taken. -/
def waiting (l : Line) : List Buffer := buffersIn l.conduit.transport.items

/-- The buffers of the fragments that somebody is sending and that are not in the queue. -/
def unsent (l : Line) : List Buffer :=
  buffersIn (Conduit.carried l.conduit.pump.sending? ++ Conduit.carried l.sending?)

def queued (l : Line) : List Buffer := buffersIn l.conduit.queue.items

/-- The buffers that the consumer took and has not let go. -/
def kept (l : Line) : List Buffer := l.inHand.map Fragment.data

/-- All buffers that are somewhere. -/
def held (l : Line) : List Buffer := l.waiting ++ l.unsent ++ l.queued ++ l.kept

/-- The buffers that a deed brings. -/
def brings (l : Line) : Deed → List Buffer
  | .far (.feed i) => buffersIn [i]
  | deed => (l.sends? deed).toList.map Fragment.data

/-- The buffers that are nowhere any more behind a deed. -/
def sheds (l : Line) (deed : Deed) : List Buffer :=
  (l.held ++ l.brings deed).diff (l.step deed).held

end Line

/-- The buffers that were brought in a run. -/
def broughtBy : List Deed → Line → List Buffer
  | [], _ => []
  | deed :: rest, l => l.brings deed ++ broughtBy rest (l.step deed)

/-- The buffers that a run has shed. -/
def shedBy : List Deed → Line → List Buffer
  | [], _ => []
  | deed :: rest, l => l.sheds deed ++ shedBy rest (l.step deed)

/-! ### What goes through a conduit -/

namespace Conduit

variable {p q : Publisher} {c c' : Conduit} {s : Sending}
  {r : Progress Sending (Except Fault Unit)} {brought returned other : List Buffer}

/-- What a sending can do with the buffers: it moves its own into the queue, or gives it back. -/
theorem Goes.inventory (hgoes : Goes p c s r q c') :
    Inventory brought returned (buffersIn (carried (some s) ++ c.queue.items) ++ other) c.tally →
      ∃ back, Inventory brought (back ++ returned)
        (buffersIn (carried r.point? ++ c'.queue.items) ++ other) c'.tally := by
  induction hgoes with
  | refused f _ _ _ => exact fun h => ⟨[f.data], Inventory.release h⟩
  | paid _ _ _ _ _ _ ih => exact ih
  | shut f _ => exact fun h => ⟨[f.data], Inventory.release h⟩
  | entered f _ _ _ ih =>
    intro h
    refine ih (h.reorder (.refl _) ?_)
    simp only [carried, Sending.held?, Queue.push, Option.bind_some, Option.toList_some,
      Option.toList_none, List.map_cons, List.map_nil, List.nil_append, List.cons_append,
      buffersIn_append, buffersIn_cons_fragment, buffersIn_nil]
    exact (List.perm_append_singleton ..).symm.append_right other
  | _ => exact fun h => ⟨[], h⟩

theorem inventory_abandon {held : List Buffer} (s : Sending)
    (h : Inventory brought returned (buffersIn (carried (some s)) ++ held) c.tally) :
    ∃ back, Inventory brought (back ++ returned) held (c.abandon s).tally := by
  cases s with
  | credit f _ => exact ⟨[f.data], Inventory.release h⟩
  | room f => exact ⟨[f.data], Inventory.release h⟩
  | release => exact ⟨[], h⟩

/-- The buffers that a conduit holds, with those that its pump does. -/
def stored (c : Conduit) : List Buffer :=
  buffersIn (c.transport.items ++ (carried c.pump.sending? ++ c.queue.items))

/-- A pump that ends gives back what is left of the transport. -/
theorem inventory_finishPump (result : Except Fault Unit)
    (h : Inventory brought returned
      (buffersIn c.transport.items ++ (buffersIn c.queue.items ++ other)) c.tally) :
    Inventory brought (buffersIn c.transport.items ++ returned)
      (stored (c.finishPump result) ++ other) (c.finishPump result).tally :=
  h.release_items

theorem Pumps.inventory (hpumps : Pumps c c')
    (h : Inventory brought returned (stored c ++ other) c.tally) :
    ∃ back, Inventory brought (back ++ returned) (stored c' ++ other) c'.tally := by
  -- a pump that is at no sending holds no buffer
  have hidle : carried c.pump.sending? = [] → Inventory brought returned
      (buffersIn c.transport.items ++ (buffersIn c.queue.items ++ other)) c.tally := by
    intro hnone
    unfold stored at h
    rw [hnone, List.nil_append, buffersIn_append, List.append_assoc] at h
    exact h
  -- the others are about what the pump sends
  have hsends : ∀ {p s}, c.pump = .running p (.sending s) → Inventory brought returned
      (buffersIn (carried (some s) ++ c.queue.items) ++
        (buffersIn c.transport.items ++ other)) c.tally := by
    intro p s hrun
    unfold stored at h
    rw [hrun] at h
    refine h.recount fun b => ?_
    simp only [buffersIn_append, List.count_append, Pump.sending?, Pumping.sending?]
    omega
  have hgoes : ∀ {p q s r d pump}, c.pump = .running p (.sending s) → Goes p c s r q d →
      r.point? = pump.sending? → ∃ back, Inventory brought (back ++ returned)
        (stored { d with pump } ++ other) d.tally := by
    intro p q s r d pump hrun hgoes hpump
    obtain ⟨back, hback⟩ := hgoes.inventory (hsends hrun)
    refine ⟨back, hback.recount fun b => ?_⟩
    unfold stored
    rw [hpump, hgoes.frame.2.2.1]
    simp only [buffersIn_append, List.count_append]
    omega
  cases hpumps with
  | rests _ => exact ⟨[], h⟩
  | takes hrun hitems =>
    refine ⟨[], (hidle (by rw [hrun]; rfl)).recount fun b => ?_⟩
    simp [stored, carried, Sending.held?, Pump.sending?, Pumping.sending?, hitems,
      List.count_cons]
    omega
  | meets hrun hitems =>
    refine ⟨[], (hidle (by rw [hrun]; rfl)).recount fun b => ?_⟩
    simp [stored, carried, Pump.sending?, Pumping.sending?, hitems]
  | completes hrun hitems _ => exact ⟨_, inventory_finishPump _ (hidle (by rw [hrun]; rfl))⟩
  | waits hrun hmoves => exact hgoes hrun hmoves rfl
  | sent hrun hmoves => exact hgoes hrun hmoves rfl
  | refused hrun hmoves => exact hgoes hrun hmoves rfl
  | lodges hrun _ _ =>
    refine ⟨[], (hidle (by rw [hrun]; rfl)).recount fun b => ?_⟩
    simp [stored, Queue.push, carried, Pump.sending?, Pumping.sending?]
  | passes hrun _ _ =>
    refine ⟨_, inventory_finishPump _ ((hidle (by rw [hrun]; rfl)).recount fun b => ?_)⟩
    simp [Queue.push]
  | fails hrun _ => exact ⟨_, inventory_finishPump _ (hidle (by rw [hrun]; rfl))⟩
  | @skips _ _ f _ hrun hitems =>
    have hall := hidle (by rw [hrun]; rfl)
    rw [hitems, buffersIn_cons_fragment, List.cons_append] at hall
    refine ⟨[f.data], hall.release.recount fun b => ?_⟩
    simp [stored, carried, Pump.sending?, Pumping.sending?, hrun, Conduit.giveBack]
  | stops hrun _ _ => exact ⟨_, inventory_finishPump _ (hidle (by rw [hrun]; rfl))⟩
  | breaks hrun hitems =>
    have hall := hidle (by rw [hrun]; rfl)
    rw [hitems] at hall
    exact ⟨_, inventory_finishPump _ hall⟩

end Conduit

/-! ### What a deed moves -/

namespace Line

variable {l l' : Line} {deed : Deed} {brought returned : List Buffer}

/-- The inventory of a line in which `brought` came and `returned` went back. -/
def Stocked (brought returned : List Buffer) (l : Line) : Prop :=
  Inventory brought returned l.held l.conduit.tally

theorem stocked_ofCapacity (capacity : Nat) : Stocked [] [] (.ofCapacity capacity) :=
  Inventory.start

/-- Nothing came, nothing went back, and what there is may have moved. -/
theorem Stocked.moves (h : l.Stocked brought returned)
    (htally : l'.conduit.tally = l.conduit.tally)
    (hheld : ∀ b, l.held.count b = l'.held.count b) : l'.Stocked brought returned := by
  unfold Stocked
  rw [htally]
  exact h.recount hheld

/-- Nothing has moved. -/
theorem Stocked.stays (h : l.Stocked brought returned) (hwaiting : l'.waiting = l.waiting)
    (hpump : l'.conduit.pump.sending? = l.conduit.pump.sending?)
    (hsending : l'.sending? = l.sending?) (hqueued : l'.queued = l.queued)
    (hkept : l'.kept = l.kept) (htally : l'.conduit.tally = l.conduit.tally) :
    l'.Stocked brought returned := by
  refine h.moves htally fun b => ?_
  unfold held unsent
  rw [hwaiting, hpump, hsending, hqueued, hkept]

/-- Everything in the queue goes back when it is shut. -/
theorem Stocked.shuts (h : l.Stocked brought returned)
    {c : Conduit} (hqueue : c.queue = l.conduit.queue.shut)
    (hpump : c.pump = l.conduit.pump) (htransport : c.transport = l.conduit.transport)
    (htally : c.tally = l.conduit.queue.items.foldl Item.release l.conduit.tally) :
    Stocked brought (l.queued ++ returned) { l with conduit := c } := by
  have hall : Inventory brought returned
      (buffersIn l.conduit.queue.items ++ (l.waiting ++ l.unsent ++ l.kept)) l.conduit.tally := by
    refine h.recount fun b => ?_
    simp only [held, queued, List.count_append]
    omega
  unfold Stocked
  dsimp only
  rw [htally]
  refine hall.release_items.recount fun b => ?_
  simp only [held, waiting, unsent, queued, kept, sending?, hqueue, hpump, htransport, Queue.shut,
    List.count_append, buffersIn_nil, List.count_nil]
  omega

theorem Stocked.goes (h : l.Stocked brought returned) {p q : Publisher} {s : Sending}
    {r : Progress Sending (Except Fault Unit)} {c : Conduit} (errand : Option Errand)
    (herrand : l.errand = some (.sending s)) (hgoes : Conduit.Goes p l.conduit s r q c)
    (hnext : errand.bind Errand.sending? = r.point?) :
    ∃ back, Stocked brought (back ++ returned)
      { l with conduit := { c with publisher := some q }, errand } := by
  have hall : Inventory brought returned
      (buffersIn (Conduit.carried (some s) ++ l.conduit.queue.items) ++
        (l.waiting ++ buffersIn (Conduit.carried l.conduit.pump.sending?) ++ l.kept))
      l.conduit.tally := by
    refine h.recount fun b => ?_
    simp only [held, unsent, queued, sending?, herrand, Option.bind_some, Errand.sending?,
      buffersIn_append, List.count_append]
    omega
  obtain ⟨back, hback⟩ := hgoes.inventory hall
  obtain ⟨-, hpump, htransport, -⟩ := hgoes.frame
  refine ⟨back, Inventory.recount hback fun b => ?_⟩
  simp only [held, waiting, unsent, queued, kept, sending?, hnext, hpump, htransport,
    buffersIn_append, List.count_append]
  omega

theorem Stocked.feeds (h : l.Stocked brought returned) (i : Item) :
    ∃ back, Stocked (brought ++ buffersIn [i]) (back ++ returned)
      { l with conduit := (l.conduit.feed i).2 } := by
  have hmore : Inventory (brought ++ buffersIn [i]) returned (buffersIn [i] ++ l.held)
      (i.acquire l.conduit.tally) := by
    cases i with
    | ok f => exact Inventory.acquire h f.data
    | error e => exact (List.append_nil brought).symm ▸ h
  rw [Conduit.feed]
  dsimp only
  split
  · exact ⟨buffersIn [i], hmore.release_items⟩
  · refine ⟨[], hmore.recount fun b => ?_⟩
    simp only [held, waiting, unsent, queued, kept, sending?, buffersIn_append, List.count_append]
    omega

theorem Stocked.pumps (h : l.Stocked brought returned) {c : Conduit}
    (hpumps : Conduit.Pumps l.conduit c) :
    ∃ back, Stocked brought (back ++ returned) { l with conduit := c } := by
  have hall : Inventory brought returned
      (l.conduit.stored ++ (buffersIn (Conduit.carried l.sending?) ++ l.kept)) l.conduit.tally := by
    refine h.recount fun b => ?_
    simp only [held, waiting, unsent, queued, Conduit.stored, buffersIn_append, List.count_append]
    omega
  obtain ⟨back, hback⟩ := hpumps.inventory hall
  refine ⟨back, Inventory.recount hback fun b => ?_⟩
  simp only [held, waiting, unsent, queued, kept, sending?, Conduit.stored, buffersIn_append,
    List.count_append]
  omega

theorem Stocked.passes (h : l.Stocked brought returned) {e : Fault} {sent : Bool}
    {r : Progress Bool Unit} {c : Conduit} (hpasses : Conduit.Passes e l.conduit sent r c)
    {publisher : Option Publisher} {errand : Option Errand} (herrand : l.sending? = none)
    (hnext : errand.bind Errand.sending? = none) :
    Stocked brought returned { l with conduit := { c with publisher }, errand } := by
  have hsending : errand.bind Errand.sending? = l.sending? := hnext.trans herrand.symm
  have hpushed : buffersIn (l.conduit.queue.items ++ [.error e]) = l.queued := by simp [queued]
  cases hpasses with
  | lodges _ _ => exact h.stays rfl rfl hsending hpushed rfl rfl
  | passes _ _ => exact h.stays rfl rfl hsending hpushed rfl rfl
  | _ => exact h.stays rfl rfl hsending rfl rfl rfl

theorem brings_of_idles (h : l.Idles deed) : l.brings deed = [] := by
  have hnone := sends?_of_idles h
  unfold brings
  split
  · exact h.elim
  · rw [hnone]
    rfl

/-- What a deed brings comes into the inventory, and some buffers may go back. -/
theorem Stocked.does (h : l.Stocked brought returned) (hdoes : l.Does deed l') :
    ∃ back, l'.Stocked (brought ++ l.brings deed) (back ++ returned) := by
  -- most deeds bring nothing
  have hbare : ∀ back, l.brings deed = [] → l'.Stocked brought (back ++ returned) →
      ∃ back, l'.Stocked (brought ++ l.brings deed) (back ++ returned) := by
    intro back hnone hback
    exact ⟨back, by rwa [hnone, List.append_nil]⟩
  cases hdoes with
  | idles hidles => exact hbare [] (brings_of_idles hidles) h
  | asks n =>
    obtain ⟨signals, hsame⟩ := l.conduit.request_signals n.toNat
    rw [hsame] at hbare ⊢
    exact hbare [] rfl h
  | takes _ hpoll =>
    have hpolls := Conduit.polls_of_poll hpoll
    have hitems := hpolls.fragments
    obtain ⟨queue, rfl, -⟩ := hpolls.frame
    refine hbare [] rfl (h.moves rfl fun b => ?_)
    simp only [held, waiting, unsent, queued, kept, sending?, buffersIn] at hitems ⊢
    rw [hitems]
    simp only [List.map_append, List.count_append]
    omega
  | cancels signals _ _ => exact hbare _ rfl (h.shuts rfl rfl rfl rfl)
  | drops _ => exact hbare _ rfl (h.shuts rfl rfl rfl rfl)
  | @letsGo k f hsome =>
    have hhand : l.kept.Perm (f.data :: (l.inHand.eraseIdx k).map Fragment.data) :=
      (perm_cons_eraseIdx hsome).map Fragment.data
    have hall : Inventory brought returned (f.data :: (l.waiting ++ l.unsent ++ l.queued ++
        (l.inHand.eraseIdx k).map Fragment.data)) l.conduit.tally := by
      refine h.recount fun b => ?_
      have hcount := hhand.count_eq b
      simp only [held, List.count_append, List.count_cons] at hcount ⊢
      omega
    exact hbare [f.data] rfl hall.release
  | sends f herrand hp =>
    have hbrings : l.brings (.send f) = [f.data] := by
      show (l.sends? (.send f)).toList.map Fragment.data = _
      rw [sends?_of_ready f herrand hp]
      rfl
    rw [hbrings]
    refine ⟨[], (Inventory.acquire h f.data).recount fun b => ?_⟩
    simp [held, waiting, unsent, queued, kept, sending?, herrand, Errand.sending?,
      Conduit.carried, Sending.held?, List.count_cons]
    omega
  | fails e herrand hp =>
    have hnone : l.sending? = none := by rw [sending?, herrand]; rfl
    exact hbare [] rfl (h.stays rfl rfl hnone.symm rfl rfl rfl)
  | waits herrand hp hgoes =>
    obtain ⟨back, hback⟩ := h.goes (some (.sending _)) herrand hgoes rfl
    exact hbare back rfl hback
  | returns herrand hp hgoes =>
    obtain ⟨back, hback⟩ := h.goes none herrand hgoes rfl
    exact hbare back rfl hback
  | lingers herrand hp hpasses =>
    exact hbare [] rfl (h.passes hpasses (by rw [sending?, herrand]; rfl) rfl)
  | ends herrand hp hpasses =>
    exact hbare [] rfl (h.passes hpasses (by rw [sending?, herrand]; rfl) rfl)
  | @forsakes s herrand =>
    have hall : Inventory brought returned (buffersIn (Conduit.carried (some s)) ++
        (l.waiting ++ buffersIn (Conduit.carried l.conduit.pump.sending?) ++ l.queued ++ l.kept))
        l.conduit.tally := by
      refine h.recount fun b => ?_
      simp only [held, unsent, sending?, herrand, Option.bind_some, Errand.sending?,
        buffersIn_append, List.count_append]
      omega
    obtain ⟨back, hback⟩ := Conduit.inventory_abandon s hall
    obtain ⟨tally, htally⟩ := Conduit.abandon_frame s l.conduit
    refine hbare back rfl (Inventory.recount hback fun b => ?_)
    rw [htally]
    simp [held, waiting, unsent, queued, kept, sending?, Conduit.carried]
  | relents herrand =>
    have hnone : l.sending? = none := by rw [sending?, herrand]; rfl
    exact hbare [] rfl (h.stays rfl rfl hnone.symm rfl rfl rfl)
  | completes herrand => exact hbare [] rfl h
  | hands herrand hp hidle =>
    exact hbare [] rfl (h.stays rfl (by rw [hidle]; rfl) rfl rfl rfl rfl)
  | pumps hpumps =>
    obtain ⟨back, hback⟩ := h.pumps hpumps
    exact hbare back rfl hback
  | feeds i => exact h.feeds i
  | finishes => exact hbare [] rfl h

/-- What is held no more went back. -/
theorem Stocked.step (h : l.Stocked brought returned) (deed : Deed) :
    (l.step deed).Stocked (brought ++ l.brings deed) (l.sheds deed ++ returned) := by
  obtain ⟨back, hback⟩ := h.does (l.does deed)
  have hshed : back.Perm (l.sheds deed) := by
    refine List.perm_iff_count.2 fun b => ?_
    have hbefore := h.conserved.count_eq b
    have hafter := hback.conserved.count_eq b
    simp only [sheds, List.count_diff, List.count_append] at hbefore hafter ⊢
    omega
  exact hback.reorder (hshed.append_right returned) (.refl _)

theorem Stocked.run (h : l.Stocked brought returned) (deeds : List Deed) :
    (l.run deeds).Stocked (brought ++ broughtBy deeds l) (shedBy deeds l ++ returned) := by
  induction deeds generalizing l brought returned with
  | nil => exact (List.append_nil brought).symm ▸ h
  | cons deed rest ih =>
    have hrest := ih (h.step deed)
    rw [List.append_assoc, ← List.append_assoc (shedBy ..)] at hrest
    exact hrest.reorder (List.perm_append_comm.append_right returned) (.refl _)

end Line

/-! ### Behind the pump -/

namespace Line

variable {l : Line}

/-- Behind a pump that has finished nobody sends and nothing waits. -/
theorem Handed.cleared (h : l.Handed) {result : Except Fault Unit}
    (hfinished : l.conduit.pump = .finished result) : l.waiting = [] ∧ l.unsent = [] := by
  have hnobody : l.errand = none := (h.alone (by rw [hfinished]; nofun)).2
  refine ⟨?_, ?_⟩
  · rw [waiting, (h.spent result hfinished).1]
    rfl
  · rw [unsent, hfinished, sending?, hnobody]
    rfl

end Line

/-- **Every buffer is in one place.** Whatever is done with a line of any capacity, the buffers that
were brought are, each as often as it was, those that wait in the transport, that somebody is
sending and that are not in the queue yet, that are in the queue, that the consumer keeps, and those
that were shed. The account has each of the last as released once and all others as outstanding.
Once the consumer's end was cancelled or is gone there is nothing in the queue any more, and once
the pump has finished, too, only what the consumer keeps is outstanding.

Which buffers are counted is left open, so the account may just as well be that of one of them. -/
theorem buffers_in_one_place (capacity : Nat) (deeds : List Deed) :
    let l := (Line.ofCapacity capacity).run deeds
    let brought := broughtBy deeds (.ofCapacity capacity)
    let shed := shedBy deeds (.ofCapacity capacity)
    let held := l.waiting ++ l.unsent ++ l.queued ++ l.kept
    brought.Perm (held ++ shed) ∧
      l.conduit.tally.acquired = brought.countP Buffer.counted ∧
      l.conduit.tally.released = shed.countP Buffer.counted ∧
      l.conduit.tally.acquired = l.conduit.tally.released + held.countP Buffer.counted ∧
      l.conduit.tally.outstanding = ((held.filter Buffer.counted).map Buffer.size).sum ∧
      (l.conduit.Stopped →
        (∀ more, (l.run more).conduit.queue.items = []) ∧
          ∀ result, l.conduit.pump = .finished result →
            l.waiting = [] ∧ l.unsent = [] ∧ l.queued = [] ∧
              l.conduit.tally.acquired =
                l.conduit.tally.released + l.kept.countP Buffer.counted) := by
  intro l brought shed held
  have hstocked : l.Stocked brought shed := by
    have hrun := (Line.stocked_ofCapacity capacity).run deeds
    rwa [List.nil_append, List.append_nil] at hrun
  have hbarred : l.Barred := (Line.barred_ofCapacity capacity).run deeds
  have hhanded : l.Handed := (Line.handed_ofCapacity capacity).run deeds
  have hacquired :
      l.conduit.tally.acquired = l.conduit.tally.released + held.countP Buffer.counted :=
    hstocked.acquired
  refine ⟨hstocked.conserved, hstocked.acquired_all, hstocked.released, hacquired,
    hstocked.outstanding, fun hstopped => ⟨fun more => ?_, fun result hfinished => ?_⟩⟩
  · have hmore := hbarred.run more
    exact hmore.empty (hmore.shut.2 (Line.stopped_run hstopped more))
  · obtain ⟨hwaiting, hunsent⟩ := hhanded.cleared hfinished
    have hqueued : l.queued = [] := by
      rw [Line.queued, hbarred.empty (hbarred.shut.2 hstopped)]
      rfl
    refine ⟨hwaiting, hunsent, hqueued, ?_⟩
    rw [hacquired, show held = l.kept by simp only [held, hwaiting, hunsent, hqueued]; rfl]

/-- The pump has the first fragment in the queue and waits with the second when the consumer, which
took one, cancels. -/
def stoppedBetween : List Deed :=
  let read (name : String) : Deed := .far (.feed (.ok ⟨{ name }, { bytes := [1] }, false⟩))
  let pumped (n : Nat) : List Deed := List.replicate n (.far .pump)
  [.startPump, read "a", read "b", read "c", .request 3] ++ pumped 3 ++ [.poll] ++ pumped 4 ++
    [.cancel, .far .finish] ++ pumped 4

theorem only_kept_left_stoppedBetween :
    let l := (Line.ofCapacity 0).run stoppedBetween
    l.conduit.cancelled = true ∧ l.kept.length = 1 ∧ l.conduit.tally.released = 2 ∧
      l.conduit.tally.acquired = l.conduit.tally.released + l.kept.countP Buffer.counted := by
  intro l
  have hcancelled : l.conduit.cancelled = true := by decide +kernel
  have hfinished : l.conduit.pump = .finished (.error .cancelled) := by rfl
  obtain ⟨-, -, -, -, -, hstopped⟩ := buffers_in_one_place 0 stoppedBetween
  obtain ⟨-, -, -, honly⟩ := (hstopped (.inl hcancelled)).2 _ hfinished
  exact ⟨hcancelled, by decide +kernel, by decide +kernel, honly⟩

end Exchange.Multipart
