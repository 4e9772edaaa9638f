import Exchange.Proofs.Multipart.Conduit.Credit
import Exchange.Proofs.Multipart.Telling

/-!
What comes out of a pumped conduit.

While nobody stops it, what a pumped conduit has delivered, what is in its queue, what its pump
holds and what the transport has left are what the connection has read, in this sequence
(`Flowing`). So a conduit that is fed the items of a body delivers them one after the other and
completes behind the last, or behind a fault (`Conveys.conveyed`). This is all that a demultiplexer
relies on.
-/
namespace Exchange.Multipart.Conduit

/-! ### Bodies -/

/-- The item that the connection reads. -/
def Far.item? : Far → Option Item
  | .feed i => some i
  | .pump | .finish => none

/-- The items that the connection has read. -/
def fedBy (es : List Far) : List Item := es.filterMap Far.item?

/-- The connection reads a body that consists of `items`, and ends it behind the last of them. -/
structure Streams (items : List Item) (es : List Far) : Prop where
  fed : fedBy es <+: items
  whole : ∀ before after, es = before ++ .finish :: after → fedBy before = items

theorem fedBy_append (es es' : List Far) : fedBy (es ++ es') = fedBy es ++ fedBy es' :=
  List.filterMap_append

theorem Streams.before {items : List Item} {es es' : List Far} (h : Streams items (es ++ es')) :
    Streams items es where
  fed := by
    have hfed := h.fed
    rw [fedBy_append] at hfed
    exact (List.prefix_append ..).trans hfed
  whole before after hes := h.whole before (after ++ es') (by rw [hes]; simp)

/-- What may happen next while the connection reads a body. -/
def Far.Continues (items fed : List Item) : Far → Prop
  | .pump => True
  | .feed i => fed ++ [i] <+: items
  | .finish => fed = items

theorem Streams.last {items : List Item} {es : List Far} {e : Far} (h : Streams items (es ++ [e])) :
    e.Continues items (fedBy es) := by
  cases e with
  | pump => exact trivial
  | feed i =>
    have hfed := h.fed
    rw [fedBy_append] at hfed
    exact hfed
  | finish => exact h.whole es [] rfl

theorem Streams.snoc {items : List Item} {es : List Far} {e : Far} (h : Streams items es)
    (he : e.Continues items (fedBy es)) : Streams items (es ++ [e]) where
  fed := by
    rw [fedBy_append]
    cases e with
    | pump => exact (List.append_nil (fedBy es)).symm ▸ h.fed
    | feed i => exact he
    | finish => exact (List.append_nil (fedBy es)).symm ▸ h.fed
  whole before after hsplit := by
    rcases snoc_split hsplit with ⟨rfl, rfl, rfl⟩ | ⟨init, rfl, hinit⟩
    · exact he
    · exact h.whole before init hinit

/-! ### Along the way -/

/-- The fragment that a sending still holds, if there is a sending. -/
def carried (s? : Option Sending) : List Item := (s?.bind Sending.held?).toList.map .ok

/-- The item that a pump holds. -/
def holding : Pumping → List Item
  | .sending s => carried (some s)
  | .failing e false => [.error e]
  | .reading | .failing _ true | .skipping _ => []

/-- Unless it fails, a sending does nothing but move its fragment into the queue. -/
theorem Goes.moves {p q : Publisher} {c c' : Conduit} {s : Sending}
    {r : Progress Sending (Except Fault Unit)} (h : Goes p c s r q c') :
    (∀ e, r ≠ .done (.error e)) →
      c'.queue.items ++ carried r.point? = c.queue.items ++ carried (some s) := by
  induction h with
  | refused f started _ _ => exact fun hnot => absurd rfl (hnot _)
  | paid f started _ _ _ _ ih => exact ih
  | shut f _ => exact fun hnot => absurd rfl (hnot _)
  | entered f _ _ _ ih => exact fun hnot => (ih hnot).trans (List.append_nil _)
  | _ => exact fun _ => rfl

/-- What has come out of a conduit or is about to. -/
def passed (w : Watched Conduit) : List Item := itemsOf w.calls ++ w.source.queue.items

/-- A conduit that is pumped and that nobody has stopped, when the items `fed` of a body were
read. -/
structure Flowing (items fed : List Item) (p : Publisher) (doing : Pumping) (w : Watched Conduit) :
    Prop extends Open p w.source where
  pumped : w.source.pump = .running p doing
  reading : w.source.transport.abandoned = false
  ended : w.source.transport.ended = true → fed = items
  conserved : passed w ++ holding doing ++ w.source.transport.items = fed
  /-- no sending has failed -/
  sends : ∀ e, doing ≠ .skipping e
  lodged : ∀ e, doing = .failing e true → .error e ∈ passed w
  unfinished : .finished ∉ answersOf w.calls

/-- A pumped conduit and what it has delivered when the items `fed` of a body were read. -/
inductive Conveys (items fed : List Item) (w : Watched Conduit) : Prop where
  | flowing (p : Publisher) (doing : Pumping) : Flowing items fed p doing w → Conveys items fed w
  /-- the pump has finished -/
  | settled (result : Except Fault Unit) : w.source.pump = .finished result →
      w.source.cancelled = false → passed w <+: items →
      (passed w = items ∨ ∃ e, .error e ∈ passed w) →
      (.finished ∈ answersOf w.calls → w.source.queue.items = []) → Conveys items fed w
  /-- the demultiplexer has cancelled it -/
  | stopped : w.source.cancelled = true → .cancel ∈ w.calls → itemsOf w.calls <+: items →
      Conveys items fed w

variable {items fed : List Item} {p q : Publisher} {doing doing' : Pumping} {w w' : Watched Conduit}
  {c c' : Conduit} {answer : Delivery}

/-! ### The pump -/

/-- The items move on and nothing is lost. -/
theorem Flowing.moves (h : Flowing items fed p doing w) (hopen : Open q c')
    (hpumped : c'.pump = .running q doing')
    (habandoned : c'.transport.abandoned = w.source.transport.abandoned)
    (hended : c'.transport.ended = w.source.transport.ended)
    (hitems : c'.queue.items ++ holding doing' ++ c'.transport.items =
      w.source.queue.items ++ holding doing ++ w.source.transport.items)
    (hsends : ∀ e, doing' ≠ .skipping e)
    (hlodged : ∀ e, doing' = .failing e true → .error e ∈ c'.queue.items) :
    Conveys items fed { w with source := c' } := by
  refine .flowing q doing' ⟨hopen, hpumped, habandoned.trans h.reading,
    fun hend => h.ended (hended.symm.trans hend), ?_, hsends,
    fun e he => List.mem_append_right _ (hlodged e he), h.unfinished⟩
  rw [← h.conserved]
  simp only [passed, List.append_assoc] at hitems ⊢
  rw [hitems]

/-- The pump comes to an end behind the last item or behind a fault. -/
theorem Flowing.finishes (h : Flowing items fed p doing w) (result : Except Fault Unit)
    (hpump : c'.pump = .finished result) (hcancelled : c'.cancelled = w.source.cancelled)
    (hpassed : itemsOf w.calls ++ c'.queue.items <+: items)
    (hwhole : itemsOf w.calls ++ c'.queue.items = items ∨
      ∃ e, .error e ∈ itemsOf w.calls ++ c'.queue.items) :
    Conveys items fed { w with source := c' } :=
  .settled result hpump (hcancelled.trans h.source) hpassed hwhole
    fun hfinished => absurd hfinished h.unfinished

theorem Flowing.pumps (h : Flowing items fed p doing w) (hfed : fed <+: items)
    (hpumps : Pumps w.source c') : Conveys items fed { w with source := c' } := by
  have hrunning : ∀ {p' doing'}, w.source.pump = .running p' doing' → p' = p ∧ doing' = doing :=
    fun hrun => Pump.running.inj (hrun.symm.trans h.pumped)
  have hpassed : passed w <+: fed := by
    rw [← h.conserved, List.append_assoc]
    exact List.prefix_append ..
  cases hpumps with
  | rests _ => exact .flowing p doing h
  | takes hrun hitems =>
    obtain ⟨rfl, rfl⟩ := hrunning hrun
    refine h.moves (h.toOpen.frame rfl rfl rfl rfl) rfl rfl rfl ?_ nofun nofun
    simp [holding, carried, Sending.held?, hitems]
  | meets hrun hitems =>
    obtain ⟨rfl, rfl⟩ := hrunning hrun
    refine h.moves (h.toOpen.frame rfl rfl rfl rfl) rfl rfl rfl ?_ nofun nofun
    simp [holding, hitems]
  | completes hrun hitems hended =>
    obtain ⟨rfl, rfl⟩ := hrunning hrun
    have hall := h.conserved
    rw [hitems, List.append_nil, holding, List.append_nil] at hall
    exact h.finishes _ rfl rfl (hpassed.trans hfed) (.inl (hall.trans (h.ended hended)))
  | waits hrun hgoes | sent hrun hgoes =>
    obtain ⟨rfl, rfl⟩ := hrunning hrun
    obtain ⟨-, -, htransport, -⟩ := hgoes.frame
    obtain ⟨hopen, hgood⟩ := Open.goes hgoes h.toOpen
    refine h.moves (hopen.frame rfl rfl rfl rfl) rfl (congrArg _ htransport)
      (congrArg _ htransport) ?_ nofun nofun
    exact congr (congrArg _ (hgoes.moves hgood)) (congrArg _ htransport)
  | refused hrun hgoes =>
    obtain ⟨rfl, rfl⟩ := hrunning hrun
    exact absurd rfl ((Open.goes hgoes h.toOpen).2 _)
  | @lodges p' e hrun _ _ =>
    obtain ⟨rfl, rfl⟩ := hrunning hrun
    refine h.moves (h.toOpen.frame rfl rfl rfl rfl) rfl rfl rfl ?_ nofun ?_
    · simp [holding, Queue.push]
    · rintro e' ⟨⟩
      simp [Queue.push]
  | @passes p' e hrun _ _ =>
    obtain ⟨rfl, rfl⟩ := hrunning hrun
    have hmore : itemsOf w.calls ++ (w.source.queue.push (.error e)).items =
        passed w ++ holding (.failing e false) := (List.append_assoc ..).symm
    refine h.finishes _ rfl rfl ?_ (.inr ⟨e, ?_⟩)
    · refine List.IsPrefix.trans ?_ hfed
      show itemsOf w.calls ++ (w.source.queue.push (.error e)).items <+: fed
      rw [hmore, ← h.conserved]
      exact List.prefix_append ..
    · show .error e ∈ itemsOf w.calls ++ (w.source.queue.push (.error e)).items
      rw [hmore]
      exact List.mem_append_right _ List.mem_cons_self
  | @fails p' e sent hrun hshut =>
    obtain ⟨rfl, rfl⟩ := hrunning hrun
    cases sent with
    | true => exact h.finishes _ rfl rfl (hpassed.trans hfed) (.inr ⟨e, h.lodged e rfl⟩)
    | false =>
      rw [h.queue] at hshut
      cases hshut rfl
  | skips hrun _ => exact absurd (hrunning hrun).2.symm (h.sends _)
  | stops hrun _ _ => exact absurd (hrunning hrun).2.symm (h.sends _)
  | breaks hrun _ => exact absurd (hrunning hrun).2.symm (h.sends _)

/-! ### The connection -/

theorem Conveys.feed {i : Item} (h : Conveys items fed w) (hi : fed ++ [i] <+: items) :
    Conveys items (fed ++ [i]) (Watched.happen far (.feed i) w) := by
  have hhappen : Watched.happen far (.feed i) w = { w with
      source := { w.source with
        transport := (w.source.feed i).2.transport
        tally := (w.source.feed i).2.tally } } :=
    congrArg (Watched.mk · w.calls) (feed_frame i w.source)
  rw [hhappen]
  cases h with
  | flowing p doing h =>
    have hread : (w.source.feed i).2.transport =
        { w.source.transport with items := w.source.transport.items ++ [i] } := by
      unfold Conduit.feed
      dsimp only
      rw [h.reading]
      rfl
    rw [hread]
    refine .flowing p doing ⟨h.toOpen.frame rfl rfl rfl rfl, h.pumped, h.reading,
      fun hended => ?_, ?_, h.sends, h.lodged, h.unfinished⟩
    · rw [h.ended hended] at hi
      simpa using hi.length_le
    · rw [← h.conserved]
      exact (List.append_assoc ..).symm
  | settled result hpump hcancelled hpassed hwhole hfinished =>
    exact .settled result hpump hcancelled hpassed hwhole hfinished
  | stopped hcancelled hcalls hitems => exact .stopped hcancelled hcalls hitems

/-- Whatever goes on behind the consumer's back, nothing is lost. -/
theorem Conveys.far {e : Far} (h : Conveys items fed w) (hfed : fed <+: items)
    (he : e.Continues items fed) :
    Conveys items (fed ++ e.item?.toList) (Watched.happen far e w) := by
  cases e with
  | feed i => exact h.feed he
  | pump =>
    rw [show Far.item? .pump = none from rfl, Option.toList_none, List.append_nil]
    cases h with
    | flowing p doing h => exact h.pumps hfed (Conduit.pumps w.source)
    | settled result hpump hcancelled hpassed hwhole hfinished =>
      have hrests : pumpStep w.source = w.source :=
        pumpStep_of_not_running fun p doing hrun => nomatch hpump.symm.trans hrun
      show Conveys items fed { w with source := pumpStep w.source }
      rw [hrests]
      exact .settled result hpump hcancelled hpassed hwhole hfinished
    | stopped hcancelled hcalls hitems =>
      exact .stopped ((Conduit.pumps w.source).frame.2.1.trans hcancelled) hcalls hitems
  | finish =>
    rw [show Far.item? .finish = none from rfl, Option.toList_none, List.append_nil]
    cases h with
    | flowing p doing h =>
      exact .flowing p doing ⟨h.toOpen.frame rfl rfl rfl rfl, h.pumped, h.reading, fun _ => he,
        h.conserved, h.sends, h.lodged, h.unfinished⟩
    | settled result hpump hcancelled hpassed hwhole hfinished =>
      exact .settled result hpump hcancelled hpassed hwhole hfinished
    | stopped hcancelled hcalls hitems => exact .stopped hcancelled hcalls hitems

/-! ### The consumer's end -/

/-- The items come out of the queue one by one. -/
theorem Polls.passes (h : Polls c answer c') :
    c.queue.items = answer.item?.toList ++ c'.queue.items := by
  cases h with
  | fragment _ hitems => exact hitems
  | fault _ hitems => exact hitems
  | _ => rfl

/-- A conduit completes when nobody is left to publish, unless it was cancelled. -/
theorem Polls.completed (h : Polls c .finished c') (hc : c.cancelled = false) :
    c.queue.items = [] ∧ c.publishing = false := by
  cases h with
  | cancelled hcancelled =>
    rw [hc] at hcancelled
    cases hcancelled
  | completes _ hnone hnobody => exact ⟨hnone, hnobody⟩

/-- Nothing comes out of a conduit that was cancelled. -/
theorem Polls.stopped (h : Polls c answer c') (hc : c.cancelled = true) :
    answer = .finished ∧ c' = c := by
  cases h with
  | cancelled _ => exact ⟨rfl, rfl⟩
  | completes _ _ _ => exact ⟨rfl, rfl⟩
  | fragment hlive _ => rw [hc] at hlive; cases hlive
  | fault hlive _ => rw [hc] at hlive; cases hlive
  | waits hlive _ _ => rw [hc] at hlive; cases hlive

theorem Conveys.poll (h : Conveys items fed w) (hp : Supply.poll w = (answer, w')) :
    Conveys items fed w' := by
  have hcalls := Watched.calls_poll hp
  have hpolls := polls_watched hp
  obtain ⟨c', calls⟩ := w'
  dsimp only at hcalls hpolls
  subst hcalls
  have hanswers : .finished ∈ answersOf (w.calls ++ [.poll answer]) →
      .finished ∈ answersOf w.calls ∨ answer = .finished := by
    rw [answersOf_append, answersOf_poll, List.mem_append, List.mem_singleton]
    exact Or.imp_right Eq.symm
  have hpassed : passed ⟨c', w.calls ++ [.poll answer]⟩ = passed w := by
    simp [passed, hpolls.passes, itemsOf_poll]
  cases h with
  | flowing p doing h =>
    obtain ⟨queue, rfl, hclosed⟩ := hpolls.frame
    refine .flowing p doing ⟨h.toOpen.frame hclosed rfl rfl rfl, h.pumped, h.reading, h.ended, ?_,
      h.sends, fun e he => hpassed ▸ h.lodged e he, fun hend => ?_⟩
    · rw [hpassed]
      exact h.conserved
    · rcases hanswers hend with hold | rfl
      · exact h.unfinished hold
      · have hnobody := (hpolls.completed h.source).2
        rw [publishing_of_running h.pumped] at hnobody
        cases hnobody
  | settled result hpump hcancelled hpassed' hwhole hfinished =>
    have hitems := hpolls.passes
    have hlast : answer = .finished → w.source.queue.items = [] := by
      rintro rfl
      exact (hpolls.completed hcancelled).1
    obtain ⟨queue, rfl, -⟩ := hpolls.frame
    refine .settled result hpump hcancelled (hpassed ▸ hpassed') (hpassed ▸ hwhole) fun hend => ?_
    rw [(hanswers hend).elim hfinished hlast] at hitems
    exact (List.append_eq_nil_iff.mp hitems.symm).2
  | stopped hcancelled hcalls hitems =>
    obtain ⟨rfl, rfl⟩ := hpolls.stopped hcancelled
    refine .stopped hcancelled (List.mem_append_left _ hcalls) ?_
    simpa [itemsOf_poll, Delivery.item?] using hitems

theorem Conveys.request (h : Conveys items fed w) (n : Nat) :
    Conveys items fed (Supply.request n w) := by
  obtain ⟨hqueue, -, hpump, htransport, hcancelled⟩ := request_frame n w.source
  have hpassed : passed (Supply.request n w) = passed w := by
    show itemsOf (w.calls ++ [.request n]) ++ (w.source.request n).queue.items = _
    rw [hqueue, itemsOf_append, itemsOf_request, List.append_nil]
    rfl
  have hanswers : answersOf (w.calls ++ [.request n]) = answersOf w.calls := by simp
  cases h with
  | flowing p doing h =>
    refine .flowing p doing ⟨h.toOpen.request (publishing_of_running h.pumped) n,
      hpump.trans h.pumped, (congrArg _ htransport).trans h.reading,
      fun hended => h.ended ((congrArg _ htransport).symm.trans hended), ?_, h.sends,
      fun e he => hpassed ▸ h.lodged e he, fun hend => h.unfinished (hanswers ▸ hend)⟩
    rw [hpassed, ← h.conserved]
    exact congrArg _ (congrArg Transport.items htransport)
  | settled result hpump' hcancelled' hpassed' hwhole hfinished =>
    refine .settled result (hpump.trans hpump') (hcancelled.trans hcancelled')
      (hpassed ▸ hpassed') (hpassed ▸ hwhole) fun hend => ?_
    exact (congrArg Queue.items hqueue).trans (hfinished (hanswers ▸ hend))
  | stopped hcancelled' hcalls hitems =>
    refine .stopped (hcancelled.trans hcancelled') (List.mem_append_left _ hcalls) ?_
    simpa using hitems

/-- What was delivered came from the body. -/
theorem Conveys.delivered (h : Conveys items fed w) (hfed : fed <+: items) :
    itemsOf w.calls <+: items := by
  cases h with
  | flowing p doing h =>
    refine List.IsPrefix.trans ?_ hfed
    rw [← h.conserved, passed, List.append_assoc, List.append_assoc]
    exact List.prefix_append ..
  | settled _ _ _ hpassed _ _ => exact (List.prefix_append ..).trans hpassed
  | stopped _ _ hitems => exact hitems

theorem Conveys.cancel (h : Conveys items fed w) (hfed : fed <+: items) :
    Conveys items fed (Supply.cancel w) := by
  refine .stopped ?_ (List.mem_append_right _ List.mem_cons_self) ?_
  · show w.source.cancel.cancelled = true
    unfold Conduit.cancel
    split
    · assumption
    · rfl
  · simpa using h.delivered hfed

theorem Conveys.giveBack (h : Conveys items fed w) (b : Buffer) :
    Conveys items fed (Pool.giveBack b w) := by
  cases h with
  | flowing p doing h =>
    exact .flowing p doing ⟨h.toOpen.frame rfl rfl rfl rfl, h.pumped, h.reading, h.ended,
      h.conserved, h.sends, h.lodged, h.unfinished⟩
  | settled result hpump hcancelled hpassed hwhole hfinished =>
    exact .settled result hpump hcancelled hpassed hwhole hfinished
  | stopped hcancelled hcalls hitems => exact .stopped hcancelled hcalls hitems

/-- No call of a demultiplexer makes a conduit deliver anything else. -/
theorem conveys_kept (hfed : fed <+: items) : Supply.Kept (Conveys items fed) where
  request n _ h := h.request n
  cancel _ h := h.cancel hfed
  fragment f _ _ h hp := (h.poll hp).giveBack f.data
  other _ _ _ h hp _ := h.poll hp

/-- A pumped conduit delivers a body as it should. -/
theorem Conveys.conveyed (h : Conveys items fed w) (hfed : fed <+: items) :
    Conveyed items w.calls where
  delivered := h.delivered hfed
  completed hfinished hquiet := by
    cases h with
    | flowing p doing h => exact absurd hfinished h.unfinished
    | settled result _ _ _ hwhole hempty =>
      rw [passed, hempty hfinished, List.append_nil] at hwhole
      exact hwhole
    | stopped _ hcalls _ => exact absurd hcalls hquiet

/-- Whatever a consumer does and whatever happens meanwhile, the conduit conveys the body. -/
theorem conveys_attended {items : List Item} {capacity : Nat} {limits : Limits} {es : List Far}
    {l : Ledger} {d : Demux (Watched Conduit)}
    (h : Attended (Watched.happen far) limits ⟨pumped capacity, []⟩ es l d)
    (hes : Streams items es) : Conveys items (fedBy es) d.source := by
  induction h with
  | start =>
    exact .flowing {} .reading ⟨⟨rfl, rfl, rfl, rfl, List.not_mem_nil⟩, rfl, rfl, nofun, rfl, nofun,
      nofun, List.not_mem_nil⟩
  | request n _ ih => exact (conveys_kept hes.fed).demand n.toNat (ih hes)
  | poll _ ih => exact (conveys_kept hes.fed).next (ih hes)
  | happen e _ ih =>
    have hbefore := hes.before
    rw [fedBy_append]
    have hfar := (ih hbefore).far hbefore.fed hes.last
    cases e <;> exact hfar

end Exchange.Multipart.Conduit
