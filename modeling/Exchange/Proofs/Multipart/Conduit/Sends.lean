import Exchange.Proofs.Multipart.Conduit.Deeds

/-!
What enters a line is what was sent.

Each sending that is begun lets its fragment into the queue at most once, and one that ends well has
let it in. So the fragments that were sent are among those that entered, and these are among those
whose sending was begun, always in the same sequence (`Entrusted.run`). A pump begins to send what
it reads: what it puts into the queue is the beginning of what was fed, up to the first fault
(`Line.relays_run`).
-/
namespace Exchange.Multipart

/-! ### Sendings -/

/-- A sending has ended well. -/
def Progress.succeeded {α : Type} : Progress α (Except Fault Unit) → Bool
  | .done (.ok ()) => true
  | .done (.error _) | .waiting _ => false

/-- What a sending can do is what it does. -/
theorem Conduit.Goes.advance {p q : Publisher} {c c' : Conduit} {s : Sending}
    {r : Progress Sending (Except Fault Unit)} (h : Goes p c s r q c') :
    Conduit.advance p c s = (r, q, c') := by
  induction h with
  | refused f started hread hgone =>
    rw [Conduit.advance, hread]
    exact if_pos hgone
  | unpaid f started hread hlive hnone =>
    rw [Conduit.advance, hread]
    dsimp only
    rw [hlive, hnone]
    rfl
  | paid f started hread hlive hpaid _ ih =>
    rw [Conduit.advance, hread]
    dsimp only
    rw [hlive, if_neg Bool.false_ne_true, if_neg (Nat.ne_of_gt hpaid)]
    exact ih
  | shut f hshut => exact if_pos hshut
  | crowded f hopen hfull =>
    rw [Conduit.advance, Conduit.advance.enter, hopen, hfull]
    rfl
  | entered f hopen hfree _ ih =>
    rw [Conduit.advance, Conduit.advance.enter, hopen, hfree]
    exact ih
  | held hfull => exact if_pos hfull
  | released hfree =>
    rw [Conduit.advance, Conduit.advance.leave, hfree]
    rfl

/-- Passing a fault on leaves the pump alone and lets no fragment in. -/
theorem Conduit.Passes.aside {e : Fault} {c c' : Conduit} {sent : Bool} {r : Progress Bool Unit}
    (h : Passes e c sent r c') : c'.pump = c.pump ∧ fragmentsIn (c.entered c') = [] := by
  have hquiet : c.entered c = [] := entered_of_le (Nat.le_refl _)
  have hput : c.entered { c with queue := c.queue.push (.error e) } = [.error e] :=
    entered_of_append rfl
  cases h with
  | lodges _ _ | passes _ _ => exact ⟨rfl, hput ▸ rfl⟩
  | _ => exact ⟨rfl, hquiet ▸ rfl⟩

namespace Line

/-- The fragment that somebody begins to send by a deed. -/
def begins (l : Line) : Deed → Option Fragment
  | .far .pump =>
    match l.conduit.pump, l.conduit.transport.items with
    | .running _ .reading, .ok f :: _ => some f
    | _, _ => none
  | deed => l.sends? deed

/-- The sending with which a deed goes on. -/
def goesOn? (l : Line) : Deed → Option (Publisher × Sending)
  | .resume => l.conduit.publisher.bind fun p => l.sending?.map (p, ·)
  | .far .pump =>
    match l.conduit.pump with
    | .running p (.sending s) => some (p, s)
    | _ => none
  | _ => none

/-- A sending ends well by a deed. -/
def succeeds (l : Line) (deed : Deed) : Bool :=
  match l.goesOn? deed with
  | none => false
  | some (p, s) => (Conduit.advance p l.conduit s).1.succeeded

/-- The sending that somebody is at. -/
def atHand? (l : Line) : Option Sending := l.conduit.pump.sending?.or l.sending?

theorem begins_of_idles {l : Line} {deed : Deed} (h : l.Idles deed) : l.begins deed = none := by
  unfold begins
  split
  · exact h.elim
  · exact sends?_of_idles h

theorem goesOn?_of_idles {l : Line} {deed : Deed} (h : l.Idles deed) : l.goesOn? deed = none := by
  cases deed with
  | resume =>
    rcases h with hnothing | hnobody
    · rw [goesOn?, sending?, hnothing]
      cases l.conduit.publisher <;> rfl
    · rw [goesOn?, hnobody]
      rfl
  | far e => exact h.elim
  | _ => rfl

theorem atHand?_of_sending {l : Line} {s : Sending} (herrand : l.errand = some (.sending s))
    (hidle : l.conduit.pump = .idle) : l.atHand? = some s := by
  rw [atHand?, sending?, herrand, hidle]
  rfl

theorem goesOn?_of_sending {l : Line} {p : Publisher} {s : Sending}
    (herrand : l.errand = some (.sending s)) (hp : l.conduit.publisher = some p) :
    l.goesOn? .resume = some (p, s) := by
  rw [goesOn?, sending?, herrand, hp]
  rfl

theorem goesOn?_of_failing {l : Line} {e : Fault} {sent : Bool}
    (herrand : l.errand = some (.failing e sent)) : l.goesOn? .resume = none := by
  rw [goesOn?, sending?, herrand]
  cases l.conduit.publisher <;> rfl

/-- A pump that runs has the publisher for itself. -/
theorem Handed.sending?_none {l : Line} {p : Publisher} {doing : Pumping} (h : l.Handed)
    (hrun : l.conduit.pump = .running p doing) : l.sending? = none := by
  rw [sending?, (h.running hrun).2]
  rfl

theorem Handed.atHand?_pump {l : Line} {p : Publisher} {doing : Pumping} (h : l.Handed)
    (hrun : l.conduit.pump = .running p doing) : l.atHand? = doing.sending? := by
  rw [atHand?, h.sending?_none hrun, hrun, Option.or_none]
  rfl

theorem begins_pump {l : Line} {p : Publisher} {doing : Pumping}
    (hrun : l.conduit.pump = .running p doing)
    (hreads : doing = .reading → ∀ f items, l.conduit.transport.items ≠ .ok f :: items) :
    l.begins (.far .pump) = none := by
  rw [begins]
  split
  · next hpump hitems =>
    cases hrun.symm.trans hpump
    exact absurd hitems (hreads rfl _ _)
  · rfl

theorem goesOn?_pump {l : Line} {p : Publisher} {doing : Pumping}
    (hrun : l.conduit.pump = .running p doing) (hdoing : doing.sending? = none) :
    l.goesOn? (.far .pump) = none := by
  rw [goesOn?, hrun]
  cases doing with
  | sending s => cases hdoing
  | _ => rfl

theorem Aside.atHand? {l l' : Line} (h : l.Aside l') : l.atHand? = l'.atHand? := by
  unfold Line.atHand? sending?
  rw [h.pump, h.errand]

end Line

/-- The fragments whose sending was begun in a run. -/
def begunBy : List Deed → Line → List Fragment
  | [], _ => []
  | deed :: rest, l => (l.begins deed).toList ++ begunBy rest (l.step deed)

/-- The fragments whose sending ended well in a run. It is always the sending that was begun `last`
that does, as there is one publisher. -/
def sentBy : List Deed → Option Fragment → Line → List Fragment
  | [], _, _ => []
  | deed :: rest, last, l =>
    (if l.succeeds deed then last.toList else []) ++
      sentBy rest ((l.begins deed).or last) (l.step deed)

/-- What was begun, what entered and what was sent, while a sending is at hand. -/
inductive Entrusted (last : Option Fragment) (begun entered sent : List Fragment) :
    Option Sending → Prop where
  | rests : sent.Sublist entered → entered.Sublist begun → Entrusted last begun entered sent none
  /-- the fragment that was begun last has not entered -/
  | carries {s : Sending} {f : Fragment} {earlier : List Fragment} : s.held? = some f →
      last = some f → begun = earlier ++ [f] → sent.Sublist entered → entered.Sublist earlier →
      Entrusted last begun entered sent (some s)
  /-- the fragment that was begun last is what has entered last -/
  | lodged {f : Fragment} {earlier before : List Fragment} : last = some f →
      begun = earlier ++ [f] → entered = before ++ [f] → sent.Sublist before →
      before.Sublist earlier → Entrusted last begun entered sent (some .release)

namespace Entrusted

variable {last : Option Fragment} {begun entered sent : List Fragment} {s? : Option Sending}

theorem sublists (h : Entrusted last begun entered sent s?) :
    sent.Sublist entered ∧ entered.Sublist begun := by
  cases h with
  | rests hsent hentered => exact ⟨hsent, hentered⟩
  | carries _ _ hbegun hsent hentered =>
    exact ⟨hsent, hbegun ▸ hentered.trans (List.sublist_append_left ..)⟩
  | lodged _ hbegun hentered hsent hbefore =>
    subst hbegun hentered
    exact ⟨hsent.trans (List.sublist_append_left ..), hbefore.append_right _⟩

/-- A sending can be given up wherever it is. -/
theorem gives (h : Entrusted last begun entered sent s?) : Entrusted last begun entered sent none :=
  .rests h.sublists.1 h.sublists.2

theorem begin (h : Entrusted last begun entered sent s?) (f : Fragment) :
    Entrusted (some f) (begun ++ [f]) entered sent (some (.credit f false)) :=
  .carries rfl rfl rfl h.sublists.1 h.sublists.2

/-- What a sending lets in is its own fragment, and once. -/
theorem goes {p q : Publisher} {c c' : Conduit} {s : Sending}
    {r : Progress Sending (Except Fault Unit)} (hgoes : Conduit.Goes p c s r q c')
    (h : Entrusted last begun entered sent (some s)) :
    ∃ fs : List Fragment, c'.queue.items = c.queue.items ++ fs.map .ok ∧
      Entrusted last begun (entered ++ fs) (sent ++ if r.succeeded then last.toList else [])
        r.point? := by
  -- where nothing enters and nothing ends well
  have hstays : ∀ {entered} {c : Conduit} {s?}, Entrusted last begun entered sent s? →
      ∃ fs : List Fragment, c.queue.items = c.queue.items ++ fs.map .ok ∧
        Entrusted last begun (entered ++ fs) (sent ++ []) s? := by
    intro entered c s? h
    refine ⟨[], (List.append_nil _).symm, ?_⟩
    rwa [List.append_nil, List.append_nil]
  induction hgoes generalizing entered with
  | refused f started _ _ => exact hstays h.gives
  | unpaid f started _ _ _ =>
    cases h with
    | carries hheld hlast hbegun hsent hentered =>
      exact hstays (.carries hheld hlast hbegun hsent hentered)
  | paid f started _ _ _ _ ih =>
    cases h with
    | carries hheld hlast hbegun hsent hentered =>
      exact ih (.carries hheld hlast hbegun hsent hentered)
  | shut f _ => exact hstays h.gives
  | crowded f _ _ => exact hstays h
  | entered f _ _ _ ih =>
    cases h with
    | carries hheld hlast hbegun hsent hentered =>
      obtain rfl := Option.some.inj hheld
      obtain ⟨fs, hitems, hnext⟩ := ih (.lodged hlast hbegun rfl hsent hentered)
      refine ⟨f :: fs, ?_, by rwa [List.append_assoc] at hnext⟩
      rw [hitems, Queue.push, List.append_assoc]
      rfl
  | held _ => exact hstays h
  | released _ =>
    cases h with
    | carries hheld => cases hheld
    | lodged hlast hbegun hentered hsent hbefore =>
      subst hlast hbegun hentered
      refine ⟨[], (List.append_nil _).symm, .rests ?_ ?_⟩
      · rw [List.append_nil]
        exact hsent.append_right _
      · rw [List.append_nil]
        exact hbefore.append_right _

/-- What is entrusted behind a deed that made `l'` of `l`. -/
def Behind (last : Option Fragment) (begun entered sent : List Fragment) (l : Line) (deed : Deed)
    (l' : Line) : Prop :=
  Entrusted ((l.begins deed).or last) (begun ++ (l.begins deed).toList)
    (entered ++ fragmentsIn (l.conduit.entered l'.conduit))
    (sent ++ if l.succeeds deed then last.toList else []) l'.atHand?

/-- Somebody lets a sending go on. -/
theorem advances {l l' : Line} {deed : Deed} {p q : Publisher} {s : Sending} {c : Conduit}
    {r : Progress Sending (Except Fault Unit)} (h : Entrusted last begun entered sent l.atHand?)
    (hathand : l.atHand? = some s) (hgoesOn : l.goesOn? deed = some (p, s))
    (hgoes : Conduit.Goes p l.conduit s r q c) (hqueue : l'.conduit.queue = c.queue)
    (hnext : l'.atHand? = r.point?) (hbegins : l.begins deed = none) :
    Behind last begun entered sent l deed l' := by
  rw [hathand] at h
  obtain ⟨fs, hitems, hafter⟩ := goes hgoes h
  have hentered : fragmentsIn (l.conduit.entered l'.conduit) = fs := by
    rw [Conduit.entered_of_append (hqueue ▸ hitems)]
    exact fragmentsIn_ok fs
  have hsucceeds : l.succeeds deed = r.succeeded := by
    rw [Line.succeeds, hgoesOn]
    dsimp only
    rw [hgoes.advance]
  unfold Behind
  rw [hbegins, hentered, hsucceeds, hnext, Option.none_or, Option.toList_none, List.append_nil]
  exact hafter

/-- Nobody goes on with a sending, and no fragment enters. -/
theorem rests_by {l l' : Line} {deed : Deed} (h : Entrusted last begun entered sent l'.atHand?)
    (hbegins : l.begins deed = none) (hgoesOn : l.goesOn? deed = none)
    (hentered : fragmentsIn (l.conduit.entered l'.conduit) = []) :
    Behind last begun entered sent l deed l' := by
  have hsucceeds : l.succeeds deed = false := by rw [Line.succeeds, hgoesOn]
  unfold Behind
  rw [hbegins, hentered, hsucceeds]
  simpa using h

/-- Somebody begins to send a fragment. -/
theorem begins_by {l : Line} {deed : Deed} {f : Fragment} (l' : Line)
    (h : Entrusted last begun entered sent l.atHand?) (hbegins : l.begins deed = some f)
    (hgoesOn : l.goesOn? deed = none) (hentered : l.conduit.entered l'.conduit = [])
    (hnext : l'.atHand? = some (.credit f false)) :
    Behind last begun entered sent l deed l' := by
  have hsucceeds : l.succeeds deed = false := by rw [Line.succeeds, hgoesOn]
  unfold Behind
  rw [hbegins, hentered, hsucceeds, hnext]
  simpa using h.begin f

section Pumping

variable {l : Line} {p q : Publisher} {c : Conduit}

/-- A pump goes on with its sending. -/
theorem pump_goes (h : Entrusted last begun entered sent l.atHand?) (hhanded : l.Handed)
    {s : Sending} {r : Progress Sending (Except Fault Unit)} (doing : Pumping)
    (hrun : l.conduit.pump = .running p (.sending s)) (hgoes : Conduit.Goes p l.conduit s r q c)
    (hdoing : doing.sending? = r.point?) :
    Behind last begun entered sent l (.far .pump)
      { l with conduit := { c with pump := .running q doing } } := by
  have hgoesOn : l.goesOn? (.far .pump) = some (p, s) := by rw [Line.goesOn?, hrun]
  have hnext : Line.atHand? { l with conduit := { c with pump := .running q doing } } =
      r.point? := by
    show doing.sending?.or l.sending? = _
    rw [hhanded.sending?_none hrun, Option.or_none, hdoing]
  exact h.advances (hhanded.atHand?_pump hrun) hgoesOn hgoes rfl hnext
    (Line.begins_pump hrun nofun)

/-- A pump is at no sending, before and after. -/
theorem pump_other {doing : Pumping} (h : Entrusted last begun entered sent l.atHand?)
    (hhanded : l.Handed) (hrun : l.conduit.pump = .running p doing)
    (hdoing : doing.sending? = none)
    (hreads : doing = .reading → ∀ f items, l.conduit.transport.items ≠ .ok f :: items)
    (hpump : c.pump.sending? = none) (hentered : fragmentsIn (l.conduit.entered c) = []) :
    Behind last begun entered sent l (.far .pump) { l with conduit := c } := by
  have hnext : Line.atHand? { l with conduit := c } = none := by
    show c.pump.sending?.or l.sending? = none
    rw [hhanded.sending?_none hrun, hpump]
    rfl
  rw [hhanded.atHand?_pump hrun, hdoing, ← hnext] at h
  exact h.rests_by (Line.begins_pump hrun hreads) (Line.goesOn?_pump hrun hdoing) hentered

theorem pumps (h : Entrusted last begun entered sent l.atHand?) (hhanded : l.Handed)
    (hpumps : Conduit.Pumps l.conduit c) :
    Behind last begun entered sent l (.far .pump) { l with conduit := c } := by
  have hquiet : fragmentsIn (l.conduit.entered l.conduit) = [] :=
    congrArg fragmentsIn (Line.Aside.refl l).quiet
  have hput : ∀ {pump transport tally} (e : Fault),
      fragmentsIn (l.conduit.entered { l.conduit with
        queue := l.conduit.queue.push (.error e), pump, transport, tally }) = [] := by
    intro pump transport tally e
    have hentered : l.conduit.entered { l.conduit with
        queue := l.conduit.queue.push (.error e), pump, transport, tally } = [.error e] :=
      Conduit.entered_of_append rfl
    rw [hentered]
    rfl
  have hreads : ∀ {items}, l.conduit.transport.items = items →
      items.head?.bind Item.fragment? = none →
      ∀ f rest, l.conduit.transport.items ≠ .ok f :: rest := by
    rintro items rfl hhead f rest hitems
    rw [hitems] at hhead
    cases hhead
  cases hpumps with
  | rests hrests =>
    unfold Conduit.Rests at hrests
    cases hpump : l.conduit.pump with
    | idle | finished _ =>
      exact h.rests_by (by rw [Line.begins, hpump]) (by rw [Line.goesOn?, hpump]) hquiet
    | running p doing =>
      rw [hpump] at hrests
      have hsame : l.conduit.pump.sending? = doing.sending? := by rw [hpump]; rfl
      cases doing with
      | sending s => exact hrests.elim
      | reading =>
        exact h.pump_other hhanded hpump rfl (fun _ => hreads hrests.1 rfl) hsame hquiet
      | failing _ _ | skipping _ => exact h.pump_other hhanded hpump rfl nofun hsame hquiet
  | @takes _ f _ hrun hitems =>
    have hbegins : l.begins (.far .pump) = some f := by rw [Line.begins, hrun, hitems]
    refine h.begins_by { l with conduit := _ } hbegins (Line.goesOn?_pump hrun rfl) ?_ ?_
    · exact (Line.Aside.refl l).quiet
    · rfl
  | meets hrun hitems =>
    exact h.pump_other hhanded hrun rfl (fun _ => hreads hitems rfl) rfl hquiet
  | completes hrun hitems _ =>
    exact h.pump_other hhanded hrun rfl (fun _ => hreads hitems rfl) rfl hquiet
  | waits hrun hgoes => exact h.pump_goes hhanded (.sending _) hrun hgoes rfl
  | sent hrun hgoes => exact h.pump_goes hhanded .reading hrun hgoes rfl
  | refused hrun hgoes => exact h.pump_goes hhanded (.skipping _) hrun hgoes rfl
  | lodges hrun _ _ => exact h.pump_other hhanded hrun rfl nofun rfl (hput _)
  | passes hrun _ _ => exact h.pump_other hhanded hrun rfl nofun rfl (hput _)
  | fails hrun _ => exact h.pump_other hhanded hrun rfl nofun rfl hquiet
  | skips hrun _ =>
    exact h.pump_other hhanded hrun rfl nofun (congrArg Pump.sending? hrun) hquiet
  | stops hrun _ _ => exact h.pump_other hhanded hrun rfl nofun rfl hquiet
  | breaks hrun _ => exact h.pump_other hhanded hrun rfl nofun rfl hquiet

end Pumping

/-- What a deed begins, lets in and ends well. -/
theorem does {l l' : Line} {deed : Deed} (h : Entrusted last begun entered sent l.atHand?)
    (hhanded : l.Handed) (hdoes : l.Does deed l') :
    Behind last begun entered sent l deed l' := by
  have hquiet : fragmentsIn (l.conduit.entered l.conduit) = [] :=
    congrArg fragmentsIn (Line.Aside.refl l).quiet
  have hdeed := hdoes.aside
  cases hdoes with
  | idles hidles =>
    exact h.rests_by (Line.begins_of_idles hidles) (Line.goesOn?_of_idles hidles) hquiet
  | asks _ | takes _ _ | cancels _ _ _ | drops _ | letsGo _ | feeds _ | finishes =>
    have haside := hdeed rfl
    have hathand : l.atHand? = Line.atHand? _ := haside.atHand?
    rw [hathand] at h
    exact h.rests_by rfl rfl (congrArg fragmentsIn haside.quiet)
  | sends f herrand hp =>
    refine h.begins_by _ (Line.sends?_of_ready f herrand hp) rfl (Line.Aside.refl l).quiet ?_
    rw [Line.atHand?, hhanded.owned hp]
    rfl
  | fails e herrand hp =>
    rw [Line.atHand?, Line.sending?, herrand] at h
    exact h.rests_by rfl rfl hquiet
  | waits herrand hp hgoes =>
    refine h.advances (Line.atHand?_of_sending herrand (hhanded.owned hp))
      (Line.goesOn?_of_sending herrand hp) hgoes rfl ?_ rfl
    rw [Line.atHand?, hgoes.frame.2.1, hhanded.owned hp]
    rfl
  | returns herrand hp hgoes =>
    refine h.advances (Line.atHand?_of_sending herrand (hhanded.owned hp))
      (Line.goesOn?_of_sending herrand hp) hgoes rfl ?_ rfl
    rw [Line.atHand?, hgoes.frame.2.1, hhanded.owned hp]
    rfl
  | lingers herrand hp hpasses =>
    obtain ⟨hpump, hentered⟩ := hpasses.aside
    rw [Line.atHand?, Line.sending?, herrand, ← hpump] at h
    exact h.rests_by rfl (Line.goesOn?_of_failing herrand) hentered
  | ends herrand hp hpasses =>
    obtain ⟨hpump, hentered⟩ := hpasses.aside
    rw [Line.atHand?, Line.sending?, herrand, ← hpump] at h
    exact h.rests_by rfl (Line.goesOn?_of_failing herrand) hentered
  | @forsakes s herrand =>
    obtain ⟨tally, htally⟩ := Conduit.abandon_frame s l.conduit
    rw [htally]
    refine rests_by ?_ rfl rfl hquiet
    rw [Line.atHand?, hhanded.idle herrand]
    exact h.gives
  | relents herrand =>
    rw [Line.atHand?, Line.sending?, herrand] at h
    exact h.rests_by rfl rfl hquiet
  | completes herrand => exact h.rests_by rfl rfl hquiet
  | hands herrand hp hidle =>
    rw [Line.atHand?, hidle] at h
    exact h.rests_by rfl rfl hquiet
  | pumps hpumps => exact pumps h hhanded hpumps

/-- What was sent entered, and what entered was begun. -/
theorem run {l : Line} (h : Entrusted last begun entered sent l.atHand?) (hhanded : l.Handed)
    (deeds : List Deed) :
    (sent ++ sentBy deeds last l).Sublist (entered ++ fragmentsIn (enteredBy deeds l)) ∧
      (entered ++ fragmentsIn (enteredBy deeds l)).Sublist (begun ++ begunBy deeds l) := by
  induction deeds generalizing l last begun entered sent with
  | nil => simpa [sentBy, enteredBy, begunBy] using h.sublists
  | cons deed rest ih =>
    have hdoes := l.does deed
    have hrest := ih (h.does hhanded hdoes) (hhanded.does hdoes)
    rw [sentBy, enteredBy, begunBy, fragmentsIn_append]
    simp only [List.append_assoc] at hrest ⊢
    exact hrest

end Entrusted

/-! ### What a pump puts in -/

/-- The item that the connection reads by a deed. -/
def Deed.item? : Deed → Option Item
  | .far e => e.item?
  | _ => none

/-- The items that the connection reads in a run. -/
def readBy (deeds : List Deed) : List Item := deeds.filterMap Deed.item?

theorem readBy_cons (deed : Deed) (rest : List Deed) :
    readBy (deed :: rest) = deed.item?.toList ++ readBy rest := by
  unfold readBy
  rw [List.filterMap_cons]
  cases deed.item? <;> rfl

/-- The items that enter the queue by a step of the pump. -/
def Line.pumpPuts (l : Line) : Deed → List Item
  | .far .pump => l.conduit.entered l.conduit.pumpStep
  | _ => []

/-- The items that a pump put into the queue in a run. -/
def pumpedBy : List Deed → Line → List Item
  | [], _ => []
  | deed :: rest, l => l.pumpPuts deed ++ pumpedBy rest (l.step deed)

/-- Some items up to the first fault among them, which is the last. -/
def uptoFault : List Item → List Item
  | [] => []
  | .ok f :: rest => .ok f :: uptoFault rest
  | .error e :: _ => [.error e]

theorem uptoFault_ok (fs : List Fragment) (items : List Item) :
    uptoFault (fs.map .ok ++ items) = fs.map .ok ++ uptoFault items := by
  induction fs with
  | nil => rfl
  | cons f fs ih => exact congrArg (.ok f :: ·) ih

/-- More items do not change what is in front of the first fault. -/
theorem uptoFault_append (items more : List Item) :
    uptoFault items <+: uptoFault (items ++ more) := by
  induction items with
  | nil => exact List.nil_prefix
  | cons i items ih =>
    cases i with
    | ok f => exact (List.prefix_cons_inj _).2 ih
    | error e => exact List.prefix_refl _

/-- A pump that puts nothing into the queue any more. -/
def Pump.spent : Pump → Bool
  | .finished _ | .running _ (.failing _ true) | .running _ (.skipping _) => true
  | .idle | .running .. => false

namespace Conduit

/-- A conduit whose pump has put in what `pumped` says, when `fed` was read. -/
inductive Relays (pumped fed : List Item) (c : Conduit) : Prop where
  | idle : c.pump = .idle → c.transport.abandoned = false → pumped = [] →
      c.transport.items = fed → Relays pumped fed c
  | running {p : Publisher} {doing : Pumping} {fs : List Fragment} : c.pump = .running p doing →
      c.pump.spent = false → c.transport.abandoned = false → pumped = fs.map .ok →
      pumped ++ (holding doing ++ c.transport.items) = fed → Relays pumped fed c
  | settled : c.pump.spent = true → pumped <+: uptoFault fed → Relays pumped fed c

variable {pumped fed : List Item} {c c' : Conduit}

theorem Relays.first (h : Relays pumped fed c) : pumped <+: uptoFault fed := by
  cases h with
  | idle _ _ hnone _ => exact hnone ▸ List.nil_prefix
  | running _ _ _ hok hfed =>
    rw [← hfed, hok, uptoFault_ok]
    exact List.prefix_append ..
  | settled _ hpumped => exact hpumped

/-- Nobody has touched the pump or the transport. -/
theorem Relays.frame (h : Relays pumped fed c) (hpump : c'.pump = c.pump)
    (hitems : c'.transport.items = c.transport.items)
    (habandoned : c'.transport.abandoned = c.transport.abandoned) : Relays pumped fed c' := by
  cases h with
  | idle hidle hread hnone hfed =>
    exact .idle (hpump.trans hidle) (habandoned.trans hread) hnone (hitems.trans hfed)
  | running hrun hbusy hread hok hfed =>
    refine .running (hpump.trans hrun) ?_ (habandoned.trans hread) hok ?_
    · rwa [hpump]
    · rwa [hitems]
  | settled hspent hpumped => exact .settled (hpump ▸ hspent) hpumped

/-- What the connection reads is behind what it has read. -/
theorem feed_open {i : Item} (h : c.transport.abandoned = false) :
    (c.feed i).2.transport = { c.transport with items := c.transport.items ++ [i] } := by
  unfold feed
  rw [h]
  rfl

theorem Relays.feeds (h : Relays pumped fed c) (i : Item) :
    Relays pumped (fed ++ [i]) (c.feed i).2 := by
  have hpump : (c.feed i).2.pump = c.pump := by rw [feed_frame]
  cases h with
  | idle hidle hopen hnone hfed =>
    refine .idle (hpump.trans hidle) ?_ hnone ?_
    · rw [feed_open hopen]
      exact hopen
    · rw [feed_open hopen]
      exact congrArg (· ++ [i]) hfed
  | running hrun hbusy hopen hok hfed =>
    refine .running (hpump.trans hrun) (hpump ▸ hbusy) ?_ hok ?_
    · rw [feed_open hopen]
      exact hopen
    · rw [feed_open hopen, ← hfed]
      simp only [List.append_assoc]
  | settled hspent hpumped =>
    exact .settled (hpump ▸ hspent) (hpumped.trans (uptoFault_append ..))

/-- A sending that fails has put nothing in. -/
theorem Goes.queue_of_error {p q : Publisher} {s : Sending} {e : Fault}
    (h : Goes p c s (.done (.error e)) q c') : c'.queue = c.queue := by
  generalize hr : Progress.done (Except.error e) = r at h
  induction h with
  | paid f started _ _ _ _ ih => exact ih hr
  | entered f _ _ hgoes _ =>
    -- what has entered is not refused
    subst hr
    cases hgoes
  | _ => rfl

section Running

variable {p : Publisher} {doing : Pumping} {fs : List Fragment}

/-- A pump that runs has put in what it read, but for what it holds. -/
theorem Relays.moves (more : List Fragment) (hrun : c'.pump = .running p doing)
    (hbusy : c'.pump.spent = false) (hread : c'.transport.abandoned = false)
    (hentered : c.entered c' = more.map .ok)
    (hfed : fs.map .ok ++ (more.map .ok ++ holding doing ++ c'.transport.items) = fed) :
    Relays (fs.map .ok ++ c.entered c') fed c' := by
  have hall : (fs ++ more).map .ok = fs.map .ok ++ c.entered c' := by
    rw [hentered, List.map_append]
  refine .running hrun hbusy hread hall.symm ?_
  rw [hentered, List.append_assoc, ← List.append_assoc (more.map _)]
  exact hfed

theorem Relays.goes {q : Publisher} {s : Sending} {r : Progress Sending (Except Fault Unit)}
    (hgoes : Goes p c s r q c') (hread : c.transport.abandoned = false)
    (hfed : fs.map .ok ++ (carried (some s) ++ c.transport.items) = fed)
    (hgood : ∀ e, r ≠ .done (.error e)) (hnext : holding doing = carried r.point?)
    (hbusy : (Pump.running q doing).spent = false) :
    Relays (fs.map .ok ++ c.entered { c' with pump := .running q doing }) fed
      { c' with pump := .running q doing } := by
  obtain ⟨more, hitems, -, -⟩ := hgoes.queue
  obtain ⟨-, -, htransport, -⟩ := hgoes.frame
  have hmoved := hgoes.moves hgood
  rw [hitems, List.append_assoc, List.append_cancel_left_eq] at hmoved
  refine Relays.moves more rfl hbusy ?_ (entered_of_append hitems) ?_
  · exact (congrArg Transport.abandoned htransport).trans hread
  · rw [hnext, hmoved]
    exact htransport ▸ hfed

/-- What a pump that runs can do. -/
theorem Relays.pumps_running (hrun : c.pump = .running p doing) (hbusy : c.pump.spent = false)
    (hread : c.transport.abandoned = false)
    (hfed : fs.map .ok ++ (holding doing ++ c.transport.items) = fed) (hpumps : Pumps c c') :
    Relays (fs.map .ok ++ c.entered c') fed c' := by
  have hprefix : fs.map .ok <+: uptoFault fed := by
    rw [← hfed, uptoFault_ok]
    exact List.prefix_append ..
  have hquiet : c.entered c = [] := entered_of_le (Nat.le_refl _)
  have hends : c'.queue = c.queue → c'.pump.spent = true →
      Relays (fs.map .ok ++ c.entered c') fed c' := by
    intro hqueue hspent
    refine .settled hspent ?_
    rw [entered_of_le (Nat.le_of_eq (by rw [hqueue])), List.append_nil]
    exact hprefix
  -- the fault that the pump holds is the first
  have hfaults : ∀ {e}, doing = .failing e false → c'.queue = c.queue.push (.error e) →
      c'.pump.spent = true → Relays (fs.map .ok ++ c.entered c') fed c' := by
    rintro e rfl hqueue hspent
    have hentered : c.entered c' = [.error e] := entered_of_append (by rw [hqueue]; rfl)
    refine .settled hspent ?_
    rw [hentered, ← hfed, uptoFault_ok]
    exact List.prefix_refl _
  cases hpumps with
  | rests _ => exact .moves [] hrun hbusy hread hquiet hfed
  | takes hrun' hitems =>
    cases hrun.symm.trans hrun'
    rw [hitems] at hfed
    exact .moves [] rfl rfl hread hquiet hfed
  | meets hrun' hitems =>
    cases hrun.symm.trans hrun'
    rw [hitems] at hfed
    exact .moves [] rfl rfl hread hquiet hfed
  | completes _ _ _ => exact hends rfl rfl
  | waits hrun' hgoes =>
    cases hrun.symm.trans hrun'
    exact .goes hgoes hread hfed nofun rfl rfl
  | sent hrun' hgoes =>
    cases hrun.symm.trans hrun'
    exact .goes hgoes hread hfed nofun rfl rfl
  | refused hrun' hgoes => exact hends hgoes.queue_of_error rfl
  | lodges hrun' _ _ =>
    cases hrun.symm.trans hrun'
    exact hfaults rfl rfl rfl
  | passes hrun' _ _ =>
    cases hrun.symm.trans hrun'
    exact hfaults rfl rfl rfl
  | fails _ _ => exact hends rfl rfl
  | skips hrun' _ =>
    rw [hrun'] at hbusy
    cases hbusy
  | stops _ _ _ => exact hends rfl rfl
  | breaks _ _ => exact hends rfl rfl

end Running

theorem Relays.pumps (h : Relays pumped fed c) (hpumps : Pumps c c') :
    Relays (pumped ++ c.entered c') fed c' := by
  have hstill : c'.queue = c.queue → Relays pumped fed c' →
      Relays (pumped ++ c.entered c') fed c' := by
    intro hqueue h
    rwa [entered_of_le (Nat.le_of_eq (by rw [hqueue])), List.append_nil]
  cases h with
  | idle hidle hread hnone hfed =>
    obtain rfl := hpumps.rests_of_idle hidle
    exact hstill rfl (.idle hidle hread hnone hfed)
  | running hrun hbusy hread hok hfed =>
    subst hok
    exact .pumps_running hrun hbusy hread hfed hpumps
  | settled hspent hpumped =>
    cases hpumps with
    | rests _ => exact hstill rfl (.settled hspent hpumped)
    | skips _ _ => exact hstill rfl (.settled hspent hpumped)
    | fails _ _ | stops _ _ _ | breaks _ _ => exact hstill rfl (.settled rfl hpumped)
    | takes hrun _ | meets hrun _ | waits hrun _ | sent hrun _ | refused hrun _
    | completes hrun _ _ | lodges hrun _ _ | passes hrun _ _ =>
      rw [hrun] at hspent
      cases hspent

end Conduit

namespace Line

variable {l l' : Line} {deed : Deed} {pumped fed : List Item}

/-- Nobody but the pump and the connection touches what the pump does. -/
theorem relays_does (h : Conduit.Relays pumped fed l.conduit) (hdoes : l.Does deed l')
    (hdeed : ∀ e, deed ≠ .far e) : Conduit.Relays pumped fed l'.conduit := by
  cases hdoes with
  | asks n =>
    obtain ⟨signals, hsame⟩ := l.conduit.request_signals n.toNat
    rw [hsame]
    exact h.frame rfl rfl rfl
  | takes _ hpoll =>
    obtain ⟨queue, rfl, -⟩ := (Conduit.polls_of_poll hpoll).frame
    exact h.frame rfl rfl rfl
  | waits _ _ hgoes | returns _ _ hgoes =>
    obtain ⟨-, hpump, htransport, -⟩ := hgoes.frame
    exact h.frame hpump (congrArg _ htransport) (congrArg _ htransport)
  | lingers _ _ hpasses => cases hpasses <;> exact h.frame rfl rfl rfl
  | ends _ _ hpasses => cases hpasses <;> exact h.frame rfl rfl rfl
  | @forsakes s _ =>
    obtain ⟨tally, htally⟩ := Conduit.abandon_frame s l.conduit
    rw [htally]
    exact h.frame rfl rfl rfl
  | hands _ _ hidle =>
    cases h with
    | idle _ hread hnone hfed =>
      exact .running rfl rfl hread (hnone.trans List.map_nil.symm) (by rwa [hnone])
    | running hrun _ _ _ _ => exact nomatch hidle.symm.trans hrun
    | settled hspent _ =>
      rw [hidle] at hspent
      cases hspent
  | pumps _ => exact absurd rfl (hdeed _)
  | feeds _ => exact absurd rfl (hdeed _)
  | finishes => exact absurd rfl (hdeed _)
  | _ => exact h.frame rfl rfl rfl

theorem relays_step (h : Conduit.Relays pumped fed l.conduit) (deed : Deed) :
    Conduit.Relays (pumped ++ l.pumpPuts deed) (fed ++ deed.item?.toList)
      (l.step deed).conduit := by
  have hothers : l.pumpPuts deed = [] → deed.item? = none → (∀ e, deed ≠ .far e) →
      Conduit.Relays (pumped ++ l.pumpPuts deed) (fed ++ deed.item?.toList)
        (l.step deed).conduit := by
    intro hputs hitem hdeed
    rw [hputs, hitem, Option.toList_none, List.append_nil, List.append_nil]
    exact relays_does h (l.does deed) hdeed
  cases deed with
  | far e =>
    cases e with
    | pump =>
      have hpumps := h.pumps l.conduit.pumps
      exact (List.append_nil fed).symm ▸ hpumps
    | feed i => exact (List.append_nil pumped).symm ▸ h.feeds i
    | finish =>
      have hframe : Conduit.Relays pumped fed l.conduit.endTransport := h.frame rfl rfl rfl
      exact (List.append_nil pumped).symm ▸ (List.append_nil fed).symm ▸ hframe
  | _ => exact hothers rfl rfl nofun

theorem relays_run (h : Conduit.Relays pumped fed l.conduit) (deeds : List Deed) :
    Conduit.Relays (pumped ++ pumpedBy deeds l) (fed ++ readBy deeds) (l.run deeds).conduit := by
  induction deeds generalizing l pumped fed with
  | nil =>
    rw [pumpedBy, readBy, List.filterMap_nil, List.append_nil, List.append_nil]
    exact h
  | cons deed rest ih =>
    rw [pumpedBy, readBy_cons, ← List.append_assoc, ← List.append_assoc]
    exact ih (relays_step h deed)

/-- Nothing enters but by the pump, once it has the publisher. -/
theorem Handed.pump_only (h : l.Handed) (hbusy : l.conduit.pump ≠ .idle) (deed : Deed) :
    l.conduit.entered (l.step deed).conduit = l.pumpPuts deed ∧
      (l.step deed).conduit.pump ≠ .idle := by
  by_cases hdeed : deed = .far .pump
  · subst hdeed
    exact ⟨rfl, l.conduit.pumps.busy hbusy⟩
  have hnone : l.pumpPuts deed = [] := by
    unfold pumpPuts
    split
    · exact absurd rfl hdeed
    · rfl
  rw [hnone]
  have hquiet : l.conduit.entered l.conduit = [] := (Aside.refl l).quiet
  have hdoes := l.does deed
  generalize l.step deed = l' at hdoes
  have haside := hdoes.aside
  cases hdoes with
  | idles _ => exact ⟨hquiet, hbusy⟩
  | asks _ | takes _ _ | cancels _ _ _ | drops _ | letsGo _ | feeds _ | finishes =>
    exact ⟨(haside rfl).quiet, (haside rfl).pump ▸ hbusy⟩
  | sends _ _ hp | fails _ _ hp | hands _ hp _ => exact absurd (h.owned hp) hbusy
  | waits herrand _ _ | returns herrand _ _ | lingers herrand _ _ | ends herrand _ _
  | forsakes herrand | relents herrand => exact absurd (h.idle herrand) hbusy
  | completes _ => exact ⟨hquiet, hbusy⟩
  | pumps _ => exact absurd rfl hdeed

theorem Handed.entered_pumped (h : l.Handed) (hbusy : l.conduit.pump ≠ .idle)
    (deeds : List Deed) : enteredBy deeds l = pumpedBy deeds l := by
  induction deeds generalizing l with
  | nil => rfl
  | cons deed rest ih =>
    obtain ⟨hentered, hbusy'⟩ := h.pump_only hbusy deed
    rw [enteredBy, pumpedBy, hentered, ih (h.does (l.does deed)) hbusy']

end Line

end Exchange.Multipart
