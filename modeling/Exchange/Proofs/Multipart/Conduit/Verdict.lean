import Exchange.Proofs.Multipart.Conduit.Cancellation
import Exchange.Proofs.Multipart.Conduit.Ending

/-!
How a pump ends when the consumer's end is stopped.

A pump finds out that it was stopped when it sends. What it ends with is settled where it is when
the consumer's end is stopped, by the next item that it takes from the transport
(`Pumping.verdict`): unless it holds a fragment or a fault, or comes by one, it ends well
(`verdict_of_stopped`). So a pump may report success although its consumer cancelled and the last
fragment was thrown away (`cancelled_but_ended_well`).
-/
namespace Exchange.Multipart

/-- What a pump ends with once the consumer's end was stopped, by the next item that it takes from
the transport, if there is one. -/
def Pumping.verdict (next : Option Item) : Pumping → Except Fault Unit
  | .failing e _ | .skipping e => .error e
  | .sending (.credit ..) | .sending (.room _) => .error .cancelled
  | .reading | .sending .release =>
    match next with
    | none => .ok ()
    | some (.ok _) => .error .cancelled
    | some (.error e) => .error e

/-- A pump ends well only where it needs nothing from its consumer any more. -/
theorem Pumping.verdict_ok {next : Option Item} {doing : Pumping} :
    doing.verdict next = .ok () ↔ next = none ∧ (doing = .reading ∨ doing = .sending .release) := by
  cases doing with
  | reading => rcases next with _ | _ | _ <;> simp [verdict]
  | sending s =>
    cases s with
    | release => rcases next with _ | _ | _ <;> simp [verdict]
    | _ => simp [verdict]
  | _ => simp [verdict]

/-- A sending that still holds its fragment fails. -/
theorem Pumping.verdict_held {next : Option Item} {s : Sending} {f : Fragment}
    (hheld : s.held? = some f) : (Pumping.sending s).verdict next = .error .cancelled := by
  cases s with
  | release => cases hheld
  | _ => rfl

namespace Line

variable {l : Line} {deed : Deed} {p : Publisher} {doing : Pumping}

/-! ### Steps of a pump that was stopped -/

/-- A sending does not wait where the consumer's end was stopped. It fails, or it is let go. -/
theorem Stopping.goes (h : l.Stopping) {q : Publisher} {s : Sending} {c : Conduit}
    {r : Progress Sending (Except Fault Unit)} (hhas : l.conduit.Has p)
    (hgoes : Conduit.Goes p l.conduit s r q c) :
    (∃ f, s.held? = some f) ∧ r = .done (.error .cancelled) ∨
      s = .release ∧ r = .done (.ok ()) := by
  cases hheld : s.held? with
  | some f => exact .inl ⟨⟨f, rfl⟩, ((h.told h.stopped p hhas).fails h.closed hgoes hheld).1⟩
  | none =>
    right
    cases s with
    | release =>
      cases hgoes with
      | held hparked => exact nomatch h.free.symm.trans hparked
      | released _ => exact ⟨rfl, rfl⟩
    | _ => cases hheld

/-- One deed leaves the verdict of a pump as it is, or carries it out. -/
theorem Stopping.verdict_step (h : l.Stopping) (hrun : l.conduit.pump = .running p doing)
    (deed : Deed) :
    (∃ q doing', (l.step deed).conduit.pump = .running q doing' ∧ ∀ rest : List Item,
        doing'.verdict rest.head? = doing.verdict ((l.fetches deed).toList ++ rest).head?) ∨
      (l.step deed).conduit.pump = .finished (doing.verdict (l.fetches deed)) := by
  by_cases hdeed : deed = .far .pump
  · subst hdeed
    have hhas : l.conduit.Has p := .inr ⟨doing, hrun⟩
    have hpumps : Conduit.Pumps l.conduit (l.step (.far .pump)).conduit := l.conduit.pumps
    generalize (l.step (.far .pump)).conduit = c at hpumps
    have hreading : doing = .reading →
        l.fetches (.far .pump) = l.conduit.transport.items.head? := by
      rintro rfl
      rw [fetches, hrun]
    cases hpumps with
    | rests hrests =>
      rw [Conduit.Rests, hrun] at hrests
      refine .inl ⟨p, doing, hrun, fun rest => ?_⟩
      cases doing with
      | reading =>
        rw [hreading rfl, hrests.1]
        rfl
      | sending s => exact hrests.elim
      | _ => rfl
    | takes hrun' hitems | meets hrun' hitems =>
      cases hrun.symm.trans hrun'
      refine .inl ⟨p, _, rfl, fun rest => ?_⟩
      rw [hreading rfl, hitems]
      rfl
    | completes hrun' hitems _ =>
      cases hrun.symm.trans hrun'
      right
      rw [hreading rfl, hitems]
      rfl
    | waits hrun' hgoes =>
      cases hrun.symm.trans hrun'
      rcases h.goes hhas hgoes with ⟨-, hr⟩ | ⟨-, hr⟩ <;> cases hr
    | sent hrun' hgoes =>
      cases hrun.symm.trans hrun'
      rcases h.goes hhas hgoes with ⟨-, hr⟩ | ⟨rfl, -⟩
      · cases hr
      · refine .inl ⟨_, .reading, rfl, fun rest => ?_⟩
        rw [fetches, hrun]
        rfl
    | refused hrun' hgoes =>
      cases hrun.symm.trans hrun'
      rcases h.goes hhas hgoes with ⟨⟨f, hheld⟩, hr⟩ | ⟨-, hr⟩
      · cases hr
        exact .inl ⟨_, .skipping .cancelled, rfl, fun rest => (Pumping.verdict_held hheld).symm⟩
      · cases hr
    | lodges _ hopen _ | passes _ hopen _ => cases hopen.symm.trans h.closed
    | fails hrun' _ =>
      cases hrun.symm.trans hrun'
      exact .inr rfl
    | skips hrun' _ =>
      cases hrun.symm.trans hrun'
      exact .inl ⟨p, _, hrun, fun rest => rfl⟩
    | stops hrun' _ _ | breaks hrun' _ =>
      cases hrun.symm.trans hrun'
      exact .inr rfl
  · rw [fetches_other hdeed]
    have hpump := (l.does deed).pump_alone (by rw [hrun]; rintro ⟨⟩) hdeed
    exact .inl ⟨p, doing, hpump.trans hrun, fun rest => rfl⟩

/-- Where a pump is when the consumer's end is stopped, and what it takes next, settle how it
ends. -/
theorem Stopping.verdict_run (h : l.Stopping) (hrun : l.conduit.pump = .running p doing)
    (deeds : List Deed) :
    (∃ q doing', (l.run deeds).conduit.pump = .running q doing') ∨
      (l.run deeds).conduit.pump = .finished (doing.verdict (fetchedBy deeds l).head?) := by
  induction deeds generalizing l p doing with
  | nil => exact .inl ⟨p, doing, hrun⟩
  | cons deed rest ih =>
    rcases h.verdict_step hrun deed with ⟨q, doing', hrun', hverdict⟩ | hfinished
    · rw [fetchedBy, ← hverdict]
      exact ih (h.step deed) hrun'
    · right
      obtain ⟨hstays, hnone⟩ := finished_run hfinished rest
      rw [fetchedBy, hnone, List.append_nil]
      refine hstays.trans ?_
      cases l.fetches deed <;> rfl

end Line

/-! ### Whose faults they are -/

/-- The fault that a pump ends with or is about to. -/
def Pump.fault? : Pump → Option Fault
  | .running _ (.failing e _) | .running _ (.skipping e) | .finished (.error e) => some e
  | .idle | .running .. | .finished (.ok ()) => none

namespace Conduit

/-- A conduit that has read some items of a body, where a pump has no fault of its own but that it
was cancelled. -/
structure Blames (read : List Item) (c : Conduit) : Prop where
  waiting : c.transport.items ⊆ read
  fault : ∀ e, c.pump.fault? = some e → e = .cancelled ∨ .error e ∈ read

variable {read : List Item} {c c' : Conduit}

/-- A sending fails only where it was cancelled. -/
theorem Goes.error_cancelled {p q : Publisher} {s : Sending} {e : Fault}
    (h : Goes p c s (.done (.error e)) q c') : e = .cancelled := by
  generalize hr : Progress.done (Except.error e) = r at h
  induction h with
  | refused _ _ _ _ => cases hr; rfl
  | paid _ _ _ _ _ _ ih => exact ih hr
  | shut _ _ => cases hr; rfl
  | entered _ _ _ _ ih => exact ih hr
  | _ => cases hr

theorem Blames.pumps (h : Blames read c) (hpumps : Pumps c c') : Blames read c' := by
  have hrest : ∀ {i items}, c.transport.items = i :: items → items ⊆ read := by
    intro i items hitems
    have hwaiting := h.waiting
    rw [hitems] at hwaiting
    exact List.subset_of_cons_subset hwaiting
  have hfault : ∀ {p doing e}, c.pump = .running p doing → (Pump.running p doing).fault? = some e →
      e = .cancelled ∨ .error e ∈ read :=
    fun hrun hfault => h.fault _ ((congrArg Pump.fault? hrun).trans hfault)
  cases hpumps with
  | rests _ => exact h
  | takes _ hitems => exact ⟨hrest hitems, nofun⟩
  | meets _ hitems =>
    refine ⟨hrest hitems, fun e he => .inr ?_⟩
    cases he
    exact h.waiting (hitems ▸ List.mem_cons_self)
  | completes _ _ _ => exact ⟨List.nil_subset _, nofun⟩
  | waits _ hgoes | sent _ hgoes =>
    exact ⟨congrArg Transport.items hgoes.frame.2.2.1 ▸ h.waiting, nofun⟩
  | refused _ hgoes =>
    refine ⟨congrArg Transport.items hgoes.frame.2.2.1 ▸ h.waiting, fun e he => .inl ?_⟩
    cases he
    exact hgoes.error_cancelled
  | lodges hrun _ _ => exact ⟨h.waiting, fun e he => hfault hrun he⟩
  | passes hrun _ _ | fails hrun _ | stops hrun _ _ | breaks hrun _ =>
    exact ⟨List.nil_subset _, fun e he => hfault hrun he⟩
  | skips _ hitems => exact ⟨hrest hitems, h.fault⟩

end Conduit

namespace Line

variable {l : Line} {read : List Item}

theorem Attentive.blames_step (h : l.Attentive) (hblames : Conduit.Blames read l.conduit)
    (deed : Deed) :
    Conduit.Blames (read ++ deed.item?.toList) (l.step deed).conduit := by
  by_cases hdeed : deed = .far .pump
  · subst hdeed
    exact (List.append_nil read).symm ▸ hblames.pumps l.conduit.pumps
  have hpump := (l.does deed).pump_other hdeed
  refine ⟨?_, fun e he => ?_⟩
  · by_cases hfinished : ∃ result, l.conduit.pump = .finished result
    · obtain ⟨result, hfinished⟩ := hfinished
      have hsame := (l.does deed).pump_alone (by rw [hfinished]; exact nofun) hdeed
      rw [((h.step deed).spent result (hsame.trans hfinished)).1]
      exact List.nil_subset _
    · rw [h.reads (fun result hresult => hfinished ⟨result, hresult⟩) hdeed]
      exact List.append_subset.2 ⟨List.subset_append_of_subset_left _ hblames.waiting,
        List.subset_append_right ..⟩
  · rcases hpump with hsame | ⟨-, p, hstarted⟩
    · rw [hsame] at he
      exact (hblames.fault e he).imp_right (List.mem_append_left _)
    · rw [hstarted] at he
      cases he

theorem Attentive.blames_run (h : l.Attentive) (hblames : Conduit.Blames read l.conduit)
    (deeds : List Deed) : Conduit.Blames (read ++ readBy deeds) (l.run deeds).conduit := by
  induction deeds generalizing l read with
  | nil => exact (List.append_nil read).symm ▸ hblames
  | cons deed rest ih =>
    rw [readBy_cons, ← List.append_assoc]
    exact ih (h.step deed) (h.blames_step hblames deed)

/-! ### Pumps that end -/

theorem Stopping.not_waiting (h : l.Stopping) {c : Conduit} (hpumps : Conduit.Pumps l.conduit c)
    {q : Publisher} {f : Fragment} : c.pump ≠ .running q (.sending (.credit f true)) := by
  intro hwaits
  cases hpumps with
  | rests hrests =>
    rw [Conduit.Rests, hwaits] at hrests
    exact hrests
  | waits hrun hgoes =>
    rcases h.goes (.inr ⟨_, hrun⟩) hgoes with ⟨-, hr⟩ | ⟨-, hr⟩ <;> cases hr
  | skips hrun _ => cases hrun.symm.trans hwaits
  | _ => cases hwaits

/-- Where the transport ends, a pump whose consumer's end was stopped ends with enough steps. -/
theorem Stopping.pump_ends (h : l.Stopping) (hended : l.conduit.transport.ended = true)
    (hbusy : l.conduit.pump ≠ .idle) :
    ∃ n result, (l.run (.replicate n (.far .pump))).conduit.pump = .finished result := by
  -- there is less to do with each step
  induction hload : Conduit.load l.conduit using Nat.strongRecOn generalizing l with
  | ind n ih =>
    subst hload
    cases hrun : l.conduit.pump with
    | idle => exact absurd hrun hbusy
    | finished result => exact ⟨0, result, hrun⟩
    | running p doing =>
      have hpumps := l.conduit.pumps
      have hless : Conduit.load (l.step (.far .pump)).conduit < Conduit.load l.conduit := by
        rcases hpumps.load hrun hended h.free with hless | ⟨⟨q, f, hwaits⟩, -⟩
        · exact hless
        · exact absurd hwaits (h.not_waiting hpumps)
      obtain ⟨k, result, hfinished⟩ :=
        ih _ hless (h.step (.far .pump)) (hpumps.ended.trans hended) (hpumps.busy hbusy) rfl
      exact ⟨k + 1, result, hfinished⟩

end Line

/-- **The verdict on a pump.** If the consumer's end of a line of any capacity was cancelled or
dropped while a pump runs, then where the pump was and the first item that it takes from the
transport afterwards settle how it ends. It ends by the cancel or by a fault that the connection
read, or else it ends well, and this only if it was waiting for the transport or for the queue to
let go of a fragment, and takes nothing any more. Once the transport ends, the pump does with enough
steps. -/
theorem verdict_of_stopped (capacity : Nat) (deeds more : List Deed) (p : Publisher)
    (doing : Pumping) :
    let l := (Line.ofCapacity capacity).run deeds
    let l' := l.run more
    let result := doing.verdict (fetchedBy more l).head?
    l.conduit.Stopped → l.conduit.pump = .running p doing →
      ((∃ q doing', l'.conduit.pump = .running q doing') ∨ l'.conduit.pump = .finished result ∧
        ∀ e, result = .error e → e = .cancelled ∨ .error e ∈ readBy (deeds ++ more)) ∧
      (result = .ok () ↔
        fetchedBy more l = [] ∧ (doing = .reading ∨ doing = .sending .release)) ∧
      (l'.conduit.transport.ended = true → ∃ n result,
        (l'.run (.replicate n (.far .pump))).conduit.pump = .finished result) := by
  intro l l' result hstopped hrun
  have hattentive := Line.attentive_ofCapacity capacity
  have hstopping : l.Stopping := ⟨hattentive.run deeds, hstopped⟩
  have hstart : Conduit.Blames [] (Line.ofCapacity capacity).conduit :=
    ⟨List.nil_subset _, by rintro _ ⟨⟩⟩
  have hblames : Conduit.Blames (readBy (deeds ++ more)) l'.conduit := by
    have hrun := hattentive.blames_run hstart (deeds ++ more)
    rwa [List.nil_append, Line.run, List.foldl_append] at hrun
  have hthen : l'.Stopping := hstopping.run more
  refine ⟨?_, ?_, fun hended => hthen.pump_ends hended ?_⟩
  · refine (hstopping.verdict_run hrun more).imp_right fun hfinished => ⟨hfinished, fun e he => ?_⟩
    refine hblames.fault e ?_
    rw [hfinished]
    show (Pump.finished result).fault? = some e
    rw [he]
    rfl
  · rw [Pumping.verdict_ok, List.head?_eq_none_iff]
  · rcases hstopping.verdict_run hrun more with ⟨q, doing', hrun'⟩ | hfinished
    · rw [hrun']
      rintro ⟨⟩
    · rw [hfinished]
      rintro ⟨⟩

/-- The last fragment is in a queue of no capacity, which has not let go of it, when the consumer
cancels. -/
def lastThrownAway : List Deed :=
  [.request 1, .startPump, .far (.feed (.ok (named "a"))), .far .pump, .far .pump, .cancel]

/-- The body ends then. -/
def thenEnded : List Deed := [.far .finish, .far .pump, .far .pump]

theorem verdict_of_stopped_lastThrownAway :
    let l := (Line.ofCapacity 0).run lastThrownAway
    l.conduit.Stopped ∧ l.conduit.pump = .running ⟨1, false⟩ (.sending .release) ∧
      (l.run thenEnded).conduit.pump = .finished (.ok ()) := by
  intro l
  have hcancelled : l.conduit.cancelled = true := by decide +kernel
  have hrun : l.conduit.pump = .running ⟨1, false⟩ (.sending .release) := by cbv
  have hnone : fetchedBy thenEnded l = [] := by cbv
  obtain ⟨hends, hok, -⟩ := verdict_of_stopped 0 lastThrownAway thenEnded _ _ (.inl hcancelled) hrun
  rcases hends with ⟨q, doing, hruns⟩ | ⟨hfinished, -⟩
  · exact absurd hruns (by cbv; rintro ⟨⟩)
  · exact ⟨.inl hcancelled, hrun, hfinished.trans (congrArg _ (hok.2 ⟨hnone, .inr rfl⟩))⟩

/-- A pump may end well though its consumer cancelled and has received nothing. -/
theorem cancelled_but_ended_well :
    let l := (Line.ofCapacity 0).run lastThrownAway
    l.conduit.cancelled = true ∧ (∃ p doing, l.conduit.pump = .running p doing) ∧
      receivedBy (lastThrownAway ++ thenEnded) (.ofCapacity 0) = [] ∧
      (l.run thenEnded).conduit.pump = .finished (.ok ()) := by
  refine ⟨by decide +kernel, ⟨⟨1, false⟩, .sending .release, ?_⟩, ?_, ?_⟩ <;> cbv

end Exchange.Multipart
