import Exchange.Proofs.Multipart.Conduit.Conservation
import Exchange.Proofs.Multipart.Conduit.Streamed

/-!
Reading a pumped conduit comes to an end.

From wherever a consumer is, it can be told how the body ended: the connection reads the rest of the
body, the consumer polls, and each time it has to wait the pump makes a step. A part is taken from
the queue, and a step of the pump brings it closer to its end even if it fills the queue, so there
is less to do each time (`load`). The pump can always make that step, because it does not wait for
demand while the consumer waits for a part (`Attended.unblocked`).
-/
namespace Exchange.Multipart

namespace Conduit

variable {p q : Publisher} {c c' : Conduit} {s : Sending} {f : Fragment}
  {r : Progress Sending (Except Fault Unit)}

/-! ### What is left to do -/

/-- How many points a sending has to pass. -/
def stagesOf : Option Sending → Nat
  | none => 0
  | some .release => 1
  | some (.room _) => 2
  | some (.credit ..) => 3

def Pumping.stages : Pumping → Nat
  | .sending s => stagesOf (some s)
  | .failing _ sent => if sent then 1 else 2
  | .reading | .skipping _ => 0

/-- What a pump has to do. An item of the transport counts for the four steps it may take. -/
def work (c : Conduit) : Nat :=
  match c.pump with
  | .running _ doing => 4 * c.transport.items.length + Pumping.stages doing + 1
  | .idle | .finished _ => 0

/-- What a pump and its consumer have to do. -/
def load (c : Conduit) : Nat := 2 * work c + c.queue.items.length

theorem Goes.release_stages (h : Goes p c .release r q c') :
    c'.queue = c.queue ∧ stagesOf r.point? ≤ 1 := by
  cases h with
  | held _ => exact ⟨rfl, Nat.le_refl 1⟩
  | released _ => exact ⟨rfl, Nat.zero_le 1⟩

theorem Goes.room_stages (h : Goes p c (.room f) r q c') (hparked : c.queue.parked = false) :
    2 * stagesOf r.point? + c'.queue.items.length <
      2 * stagesOf (some (.room f)) + c.queue.items.length := by
  cases h with
  | shut _ _ => simp [Progress.point?, stagesOf, giveBack]
  | crowded _ _ hfull =>
    rw [hparked] at hfull
    cases hfull
  | entered _ _ _ hgoes =>
    obtain ⟨hqueue, hstages⟩ := hgoes.release_stages
    have hlength : c'.queue.items.length = c.queue.items.length + 1 := by
      rw [hqueue]
      simp [Queue.push]
    have hroom : stagesOf (some (.room f)) = 2 := rfl
    omega

/-- If the queue has room a sending goes on, or it waits for credit with every signal read. -/
theorem Goes.stages (h : Goes p c s r q c') (hparked : c.queue.parked = false) :
    2 * stagesOf r.point? + c'.queue.items.length <
        2 * stagesOf (some s) + c.queue.items.length ∨
      (∃ f, r = .waiting (.credit f true)) ∧ c'.queue = c.queue ∧ c'.signals = [] := by
  cases s with
  | release =>
    cases h with
    | held hfull =>
      rw [hparked] at hfull
      cases hfull
    | released _ =>
      left
      simp [Progress.point?, stagesOf]
  | room f => exact .inl (h.room_stages hparked)
  | credit f started =>
    cases h with
    | refused _ _ _ _ =>
      left
      simp [Progress.point?, stagesOf, giveBack]
    | unpaid _ _ hread hlive hnone =>
      obtain ⟨read, -, -, -, hleft⟩ := awaitCredit_reads hread
      exact .inr ⟨⟨f, rfl⟩, rfl, hleft hlive hnone⟩
    | paid _ _ _ _ _ hgoes =>
      have hroom := hgoes.room_stages hparked
      exact .inl (Nat.lt_trans hroom (Nat.add_lt_add_right (show 2 * 2 < 2 * 3 by decide) _))

theorem load_running {doing : Pumping} (h : c.pump = .running p doing) :
    load c = 2 * (4 * c.transport.items.length + Pumping.stages doing + 1) +
      c.queue.items.length := by
  unfold load work
  rw [h]

theorem load_finishPump {doing : Pumping} (h : c.pump = .running p doing)
    (result : Except Fault Unit)
    (hqueue : c'.queue.items.length ≤ c.queue.items.length + 1) :
    load (c'.finishPump result) < load c := by
  rw [load_running h]
  show 2 * 0 + c'.queue.items.length < _
  omega

theorem Goes.load {doing : Pumping} (h : Goes p c s r q c')
    (hrun : c.pump = .running p (.sending s)) (hparked : c.queue.parked = false)
    (hdoing : Pumping.stages doing = stagesOf r.point?) :
    load { c' with pump := .running q doing } < load c ∨
      (∃ f, r = .waiting (.credit f true)) ∧ c'.queue = c.queue ∧ c'.signals = [] := by
  obtain ⟨-, -, htransport, -⟩ := h.frame
  refine (h.stages hparked).imp_left fun hless => ?_
  rw [load_running rfl, load_running hrun, hdoing]
  dsimp only [Pumping.stages]
  rw [htransport]
  omega

/-- Once the whole body was read and while the queue has room each step of a pump leaves less to do,
unless the pump waits for credit with every signal read. -/
theorem Pumps.load {doing : Pumping} (h : Pumps c c') (hrun : c.pump = .running p doing)
    (hended : c.transport.ended = true) (hparked : c.queue.parked = false) :
    load c' < load c ∨ (∃ q f, c'.pump = .running q (.sending (.credit f true))) ∧
      c'.queue = c.queue ∧ c'.signals = [] := by
  cases h with
  | rests hrests =>
    rw [Rests, hrun] at hrests
    cases doing with
    | sending s => exact hrests.elim
    | failing e sent =>
      rw [hparked] at hrests
      cases hrests
    | reading =>
      rw [hended] at hrests
      cases hrests.2
    | skipping e =>
      rw [hended] at hrests
      cases hrests.2
  | takes hrun' hitems =>
    cases hrun.symm.trans hrun'
    left
    rw [load_running rfl, load_running hrun, hitems]
    simp [Pumping.stages, stagesOf]
    omega
  | meets hrun' hitems =>
    cases hrun.symm.trans hrun'
    left
    rw [load_running rfl, load_running hrun, hitems]
    simp [Pumping.stages]
    omega
  | waits hrun' hgoes =>
    refine (hgoes.load hrun' hparked rfl).imp_right ?_
    rintro ⟨⟨f, ⟨⟩⟩, hsame⟩
    exact ⟨⟨_, f, rfl⟩, hsame⟩
  | sent hrun' hgoes =>
    refine (hgoes.load hrun' hparked rfl).imp_right ?_
    rintro ⟨⟨f, ⟨⟩⟩, -⟩
  | refused hrun' hgoes =>
    refine (hgoes.load hrun' hparked rfl).imp_right ?_
    rintro ⟨⟨f, ⟨⟩⟩, -⟩
  | lodges hrun' _ _ =>
    cases hrun.symm.trans hrun'
    left
    rw [load_running rfl, load_running hrun]
    simp [Pumping.stages, Queue.push]
    omega
  | @skips _ e f items hrun' hitems =>
    cases hrun.symm.trans hrun'
    have hafter := load_running
      (c := { c.giveBack f.data with transport := { c.transport with items } }) hrun
    left
    rw [hafter, load_running hrun, hitems]
    simp [giveBack]
  | completes _ _ _ => exact .inl (load_finishPump hrun _ (Nat.le_succ _))
  | passes _ _ _ => exact .inl (load_finishPump hrun _ (by simp [Queue.push]))
  | fails _ _ => exact .inl (load_finishPump hrun _ (Nat.le_succ _))
  | stops _ _ _ => exact .inl (load_finishPump hrun _ (Nat.le_succ _))
  | breaks _ _ => exact .inl (load_finishPump hrun _ (Nat.le_succ _))

/-! ### What stays true -/

/-- A conduit with a pump of its own, whose queue is held up only by what is in it. -/
structure Sound (c : Conduit) : Prop where
  handed : c.publisher = none
  held : c.queue.parked = true → c.queue.items ≠ []

theorem Sound.frame (h : Sound c) (hpublisher : c'.publisher = c.publisher)
    (hqueue : c'.queue = c.queue) : Sound c' :=
  ⟨hpublisher.trans h.handed, by rw [hqueue]; exact h.held⟩

theorem Sound.pushes (h : Sound c) (i : Item) : Sound { c with queue := c.queue.push i } :=
  ⟨h.handed, fun _ hnone => by simp [Queue.push] at hnone⟩

theorem Sound.goes (hgoes : Goes p c s r q c') : Sound c → Sound c' := by
  induction hgoes with
  | paid f started _ _ _ _ ih => exact fun h => ih (h.frame rfl rfl)
  | entered f _ _ _ ih => exact fun h => ih (h.pushes _)
  | _ => exact fun h => h.frame rfl rfl

theorem Sound.pumps (h : Sound c) (hpumps : Pumps c c') : Sound c' := by
  cases hpumps with
  | waits _ hgoes => exact (Sound.goes hgoes h).frame rfl rfl
  | sent _ hgoes => exact (Sound.goes hgoes h).frame rfl rfl
  | refused _ hgoes => exact (Sound.goes hgoes h).frame rfl rfl
  | lodges _ _ _ => exact (h.pushes _).frame rfl rfl
  | passes _ _ _ => exact (h.pushes _).frame rfl rfl
  | _ => exact h.frame rfl rfl

theorem Sound.far (h : Sound c) (e : Far) : Sound (far e c) := by
  cases e with
  | pump => exact h.pumps (Conduit.pumps c)
  | feed i =>
    have hframe := feed_frame i c
    show Sound (c.feed i).2
    rw [hframe]
    exact h.frame rfl rfl
  | finish => exact h.frame rfl rfl

theorem Sound.polls {answer : Delivery} (h : Sound c) (hpolls : Polls c answer c') : Sound c' := by
  cases hpolls with
  | fragment _ _ => exact ⟨h.handed, nofun⟩
  | fault _ _ => exact ⟨h.handed, nofun⟩
  | _ => exact h

theorem sound_kept : Supply.Kept Sound where
  request n c h := h.frame (request_frame n c).2.1 (request_frame n c).1
  cancel c h := by
    show Sound c.cancel
    unfold cancel
    split
    · exact h
    · exact ⟨h.handed, nofun⟩
  fragment f _ _ h hp := (h.polls (polls_of_poll hp)).frame rfl rfl
  other _ _ _ h hp _ := h.polls (polls_of_poll hp)

/-- What a demultiplexer does not touch. -/
theorem pump_kept (pump : Pump) (transport : Transport) :
    Supply.Kept fun c : Conduit => c.pump = pump ∧ c.transport = transport where
  request n c h := by
    obtain ⟨-, -, hpump, htransport, -⟩ := request_frame n c
    exact ⟨hpump.trans h.1, htransport.trans h.2⟩
  cancel c h := by
    show c.cancel.pump = pump ∧ c.cancel.transport = transport
    unfold cancel
    split <;> exact h
  fragment f c c' h hp := by
    obtain ⟨queue, rfl, -⟩ := (polls_of_poll hp).frame
    exact h
  other _ c c' h hp _ := by
    obtain ⟨queue, rfl, -⟩ := (polls_of_poll hp).frame
    exact h

theorem work_next (d : Demux Conduit) : work d.next.2.source = work d.source := by
  obtain ⟨hpump, htransport⟩ := (pump_kept _ _).next (d := d) ⟨rfl, rfl⟩
  unfold work
  rw [hpump, htransport]

theorem Polls.waited (h : Polls c .waiting c') : c'.queue.items = [] ∧ c'.publishing = true := by
  cases h with
  | waits _ hnone hpublishing => exact ⟨hnone, hpublishing⟩

end Conduit

open Conduit (load Sound Streams fedBy)

/-! ### The end -/

variable {capacity : Nat} {limits : Limits} {es : List Conduit.Far} {l : Ledger} {d : Demux Conduit}

theorem Attended.sound (h : Attended Conduit.far limits (.pumped capacity) es l d) :
    Sound d.source :=
  h.kept Conduit.sound_kept (fun e _ hs => hs.far e) ⟨rfl, nofun⟩

theorem Conduit.Sound.running {c : Conduit} (h : Sound c) (hpublishing : c.publishing = true) :
    ∃ p doing, c.pump = .running p doing := by
  unfold publishing at hpublishing
  rw [h.handed] at hpublishing
  cases hpump : c.pump with
  | running p doing => exact ⟨p, doing, rfl⟩
  | idle =>
    rw [hpump] at hpublishing
    cases hpublishing
  | finished result =>
    rw [hpump] at hpublishing
    cases hpublishing

/-- When the consumer has to wait, a step of the pump leaves less to do. -/
theorem Attended.moves (h : Attended Conduit.far limits (.pumped capacity) es l d) (hl : ¬ l.Over)
    (hended : d.source.transport.ended = true) (hwaits : d.next.1 = .waiting) :
    load d.next.2.source.pumpStep < load d.source := by
  have hpolled : Attended Conduit.far limits (.pumped capacity) es (l.poll d) d.next.2 := h.poll
  obtain ⟨c, -, hpoll⟩ := Conduit.sound_kept.poll_of_waiting h.sound hwaits
  obtain ⟨hempty, hpublishing⟩ := (Conduit.polls_of_poll hpoll).waited
  obtain ⟨p, doing, hrun⟩ := hpolled.sound.running hpublishing
  have hparked : d.next.2.source.queue.parked = false :=
    eq_false_of_ne_true fun hparked => hpolled.sound.held hparked hempty
  have hended' : d.next.2.source.transport.ended = true := by
    rw [((Conduit.pump_kept _ _).next (d := d) ⟨rfl, rfl⟩).2]
    exact hended
  rcases (Conduit.pumps d.next.2.source).load hrun hended' hparked with
    hless | ⟨⟨q, f, hcredit⟩, hqueue, hsignals⟩
  · refine Nat.lt_of_lt_of_le hless ?_
    unfold load
    rw [Conduit.work_next, hempty]
    exact Nat.le_add_right _ _
  · -- the pump would wait for demand, and the consumer for a part
    obtain ⟨hterm, hunbroken⟩ := hpolled.running (Ledger.poll_open hl (hwaits ▸ rfl))
    have hpumped : Attended Conduit.far limits (.pumped capacity) (es ++ [.pump]) (l.poll d)
        { d.next.2 with source := d.next.2.source.pumpStep } := hpolled.happen .pump
    refine absurd ?_ (hpumped.unblocked hunbroken hterm hcredit)
    exact ⟨h.owed hl hwaits, (congrArg Queue.items hqueue).trans hempty, hsignals, f, rfl⟩

/-- Behind the end of the body polls and steps of the pump are enough. -/
theorem Attended.exists_over_ended {items : List Item}
    (h : Attended Conduit.far limits (.pumped capacity) es l d) (hes : Streams items es)
    (hended : d.source.transport.ended = true) :
    ∃ more l' d', Follows Conduit.far l d more l' d' ∧ Streams items (es ++ more) ∧ l'.Over := by
  -- there is less to do each time
  induction hn : load d.source using Nat.strongRecOn generalizing es l d with
  | ind n ih =>
    subst hn
    by_cases hl : l.Over
    · exact ⟨[], l, d, .start, (List.append_nil es).symm ▸ hes, hl⟩
    have hpolled : Attended Conduit.far limits (.pumped capacity) es (l.poll d) d.next.2 := h.poll
    have hstep : Follows Conduit.far l d [] (l.poll d) d.next.2 := .poll .start
    have hended' : d.next.2.source.transport.ended = true := by
      rw [((Conduit.pump_kept _ _).next (d := d) ⟨rfl, rfl⟩).2]
      exact hended
    cases ho : d.next.1 with
    | part p =>
      have hless : load d.next.2.source < load d.source := by
        unfold load
        rw [Conduit.work_next]
        exact Nat.add_lt_add_left (Demux.ready_next ho) _
      obtain ⟨more, l', d', hmore, hgood, hover⟩ := ih _ hless hpolled hes hended' rfl
      exact ⟨more, l', d', hstep.trans hmore, hgood, hover⟩
    | waiting =>
      have hpumped : Follows Conduit.far l d [.pump] (l.poll d)
          { d.next.2 with source := d.next.2.source.pumpStep } := hstep.happen Conduit.Far.pump
      have hnext : Streams items (es ++ [.pump]) := hes.snoc trivial
      obtain ⟨more, l', d', hmore, hgood, hover⟩ := ih _ (h.moves hl hended ho)
        (h.trans hpumped) hnext ((Conduit.pumps _).ended.trans hended') rfl
      refine ⟨.pump :: more, l', d', hpumped.trans hmore, ?_, hover⟩
      rwa [List.append_assoc] at hgood
    | _ => exact ⟨[], _, _, hstep, (List.append_nil es).symm ▸ hes, Ledger.poll_over (ho ▸ rfl)⟩

/-- The connection can read the rest of the body. -/
theorem Conduit.Streams.exists_ended {items : List Item} (hes : Streams items es) (l : Ledger)
    (d : Demux Conduit) :
    ∃ more d', Follows Conduit.far l d more l d' ∧ Streams items (es ++ more) ∧
      d'.source.transport.ended = true := by
  obtain ⟨rest, hrest⟩ := hes.fed
  induction rest generalizing es d with
  | nil =>
    rw [List.append_nil] at hrest
    exact ⟨[.finish], { d with source := d.source.endTransport },
      Follows.start.happen Conduit.Far.finish, hes.snoc hrest, rfl⟩
  | cons i rest ih =>
    have hnext : Streams items (es ++ [.feed i]) :=
      hes.snoc ⟨rest, by rw [← hrest, List.append_assoc]; rfl⟩
    have hread : fedBy (es ++ [.feed i]) ++ rest = items := by
      rw [Conduit.fedBy_append, ← hrest, List.append_assoc]
      rfl
    obtain ⟨more, d', hmore, hgood, hended⟩ :=
      ih hnext { d with source := (d.source.feed i).2 } hread
    have hfed : Follows Conduit.far l d [.feed i] l { d with source := (d.source.feed i).2 } :=
      Follows.start.happen (Conduit.Far.feed i)
    refine ⟨.feed i :: more, d', hfed.trans hmore, ?_, hended⟩
    rwa [List.append_assoc] at hgood

/-- Wherever a consumer is, it can be told how the body ended. -/
theorem Attended.exists_over {items : List Item}
    (h : Attended Conduit.far limits (.pumped capacity) es l d) (hes : Streams items es) :
    ∃ more l' d', Follows Conduit.far l d more l' d' ∧ Streams items (es ++ more) ∧ l'.Over := by
  obtain ⟨read, d₁, hread, hall, hended⟩ := hes.exists_ended l d
  have hwhole : Attended Conduit.far limits (.pumped capacity) (es ++ read) l d₁ := h.trans hread
  obtain ⟨more, l', d', hmore, hgood, hover⟩ := hwhole.exists_over_ended hall hended
  refine ⟨read ++ more, l', d', hread.trans hmore, ?_, hover⟩
  rwa [List.append_assoc] at hgood

end Exchange.Multipart
