import Exchange.Proofs.Pipeline.Usage

/-!
A body is consumed once.

Up to the ask that takes its content, whoever holds a body finds it there (`Open`); from then on it
is refused to everybody (`Shut`). `consumed_once` says that there is one such ask at most.

A collection takes its time: it polls the stream that it took until an answer is neither a part nor
a wait (`Collecting`), and that answer decides what comes of it (`resultOf`). With nobody in between
it is `Payload.collect?`, with any reader that polls on schedule, as one that waits does
(`Untouched.collect?_awaitAll`).
-/
namespace Exchange.Pipeline

open Multipart (Awaited Demux Outcome Part Supply Use)

variable {σ ε : Type}

namespace Usage

/-! ### What comes of a collection -/

/-- What comes of a collection that gets such answers. The first one that is neither a part nor a
wait decides. If it says that the stream completed, all parts in front of it have been collected. -/
def resultOf (answers : List Outcome) : Option (Ending Failure (List Part)) :=
  (answers.find? Outcome.ends).bind
    (ending? ((answers.takeWhile (!·.ends)).filterMap Outcome.part?))

section

variable {past : List Outcome}

theorem find?_going (h : ∀ o ∈ past, o.ends = false) : past.find? Outcome.ends = none :=
  List.find?_eq_none.mpr fun o ho => by rw [h o ho]; exact Bool.false_ne_true

theorem resultOf_going (h : ∀ o ∈ past, o.ends = false) : resultOf past = none := by
  rw [resultOf, find?_going h]
  rfl

theorem resultOf_ends {o : Outcome} (h : ∀ o ∈ past, o.ends = false) (ho : o.ends = true)
    (more : List Outcome) :
    resultOf (past ++ o :: more) = ending? (past.filterMap Outcome.part?) o := by
  have hfirst : (past ++ o :: more).find? Outcome.ends = some o := by
    rw [List.find?_append, find?_going h, List.find?_cons_of_pos ho]
    rfl
  have hfront : (past ++ o :: more).takeWhile (!·.ends) = past := by
    rw [List.takeWhile_append_of_pos fun o ho => by rw [h o ho]; rfl, List.takeWhile_cons_of_neg,
      List.append_nil]
    rw [ho]
    exact Bool.false_ne_true
  rw [resultOf, hfirst, hfront]
  rfl

end

variable [Supply σ] {act : ε → σ → σ} {u : Usage σ}

/-! ### Collections -/

/-- The answers that a collection gets to its polls of a stream, unless it gives the stream up. -/
def answersTo (act : ε → σ → σ) : List (Deed ε) → Demux σ → List Outcome
  | [], _ => []
  | .use .poll :: rest, d => d.next.1 :: answersTo act rest d.next.2
  | .happen e :: rest, d => answersTo act rest { d with source := act e d.source }
  | .giveUp :: _, _ => []
  | _ :: rest, d => answersTo act rest d

/-- What came of collections. -/
def endings (act : ε → σ → σ) (deeds : List (Deed ε)) (u : Usage σ) :
    List (Ending Failure (List Part)) :=
  (answers act deeds u).filterMap Answer.ending?

theorem endings_cons (deed : Deed ε) (rest : List (Deed ε)) :
    endings act (deed :: rest) u =
      (u.step act deed).1.toList.filterMap Answer.ending? ++
        endings act rest (u.step act deed).2 :=
  List.filterMap_append

/-- The content was taken, and no collection is under way. -/
structure Over (u : Usage σ) : Prop where
  spent : u.Spent
  idle : u.collected = none

theorem Over.step (h : u.Over) (act : ε → σ → σ) (deed : Deed ε) :
    (u.step act deed).1.toList.filterMap Answer.ending? = [] ∧ (u.step act deed).2.Over := by
  suffices hidle : (u.step act deed).1.toList.filterMap Answer.ending? = [] ∧
      (u.step act deed).2.collected = none from
    ⟨hidle.1, (h.spent.step act deed).2, hidle.2⟩
  unfold Usage.step
  split
  · cases deed with
    | ask holder a =>
      dsimp only
      rw [h.spent.ask a]
      exact ⟨a.endings_refusal, h.idle⟩
    | share holder => exact ⟨rfl, h.idle⟩
    | letGo holder => exact ⟨rfl, h.idle⟩
    | use use =>
      dsimp only
      unfold useStream
      rw [h.idle]
      split
      · exact ⟨rfl, h.idle⟩
      · exact ⟨by cases use <;> rfl, rfl⟩
      · next hsome => cases hsome
    | giveUp =>
      dsimp only
      unfold Usage.giveUp
      split
      · exact ⟨rfl, h.idle⟩
      · exact ⟨rfl, rfl⟩
    | happen e =>
      dsimp only
      unfold Usage.happen
      split <;> exact ⟨rfl, h.idle⟩
  · exact ⟨rfl, h.idle⟩

theorem Over.run (h : u.Over) (act : ε → σ → σ) (deeds : List (Deed ε)) :
    endings act deeds u = [] ∧ (after act deeds u).Over := by
  induction deeds generalizing u with
  | nil => exact ⟨rfl, h⟩
  | cons deed rest ih =>
    obtain ⟨hsilent, hnext⟩ := h.step act deed
    rw [endings_cons, hsilent, List.nil_append]
    exact ih hnext

/-- A collection is under way that got some answers from its stream. -/
structure Collecting (d : Demux σ) (past : List Outcome) (u : Usage σ) : Prop where
  payload : u.payload = ⟨.parts d, .lent⟩
  collected : u.collected = some (past.filterMap Outcome.part?)
  going : ∀ o ∈ past, o.ends = false

namespace Collecting

variable {d : Demux σ} {past : List Outcome}

omit [Supply σ] in
theorem spent (h : u.Collecting d past) : u.Spent := by
  rw [Spent, h.payload]
  exact Custody.lent_ne_kept

/-- A poll is answered by a part or by a wait, and the collection goes on. -/
theorem poll_going (h : u.Collecting d past) (hgoes : d.next.1.ends = false) :
    (u.useStream .poll).1 = none ∧
      (u.useStream .poll).2.Collecting d.next.2 (past ++ [d.next.1]) := by
  have hparts := Outcome.parts_concat past d.next.1
  obtain ⟨⟨payload, holders, fresh⟩, collected⟩ := u
  obtain rfl : payload = _ := h.payload
  obtain rfl : collected = _ := h.collected
  simp only [useStream, Payload.lent?, ending?_open hgoes, true_and]
  refine ⟨rfl, congrArg some hparts.symm, fun o ho => ?_⟩
  rcases List.mem_append.mp ho with hold | hnew
  · exact h.going o hold
  · exact List.mem_singleton.mp hnew ▸ hgoes

/-- A poll is answered otherwise, and the collection is over. -/
theorem poll_ends (h : u.Collecting d past) (hends : d.next.1.ends = true) :
    ∃ ending, ending? (past.filterMap Outcome.part?) d.next.1 = some ending ∧
      (u.useStream .poll).1 = some (.collected ending) ∧ (u.useStream .poll).2.Over ∧
      (u.useStream .poll).2.payload = .surrender d.next.2 := by
  obtain ⟨ending, hending⟩ := ending?_ends hends (past.filterMap Outcome.part?)
  obtain ⟨⟨payload, holders, fresh⟩, collected⟩ := u
  obtain rfl : payload = _ := h.payload
  obtain rfl : collected = _ := h.collected
  refine ⟨ending, hending, ?_⟩
  simp only [useStream, Payload.lent?, hending]
  exact ⟨trivial, ⟨Custody.released_ne_kept, rfl⟩, trivial⟩

/-- All that the holder of a stream could do with it but poll. -/
theorem use_other (h : u.Collecting d past) (use : Use) (huse : use ≠ .poll) :
    u.useStream use = (none, u) := by
  obtain ⟨⟨payload, holders, fresh⟩, collected⟩ := u
  obtain rfl : payload = _ := h.payload
  obtain rfl : collected = _ := h.collected
  cases use with
  | poll => exact absurd rfl huse
  | _ => rfl

omit [Supply σ] in
theorem happen (h : u.Collecting d past) (act : ε → σ → σ) (e : ε) :
    (u.happen act e).Collecting { d with source := act e d.source } past := by
  rw [Usage.happen, h.payload]
  exact ⟨rfl, h.collected, h.going⟩

/-- A collection goes on with its stream, or it is over and something has come of it if that can be
said. -/
theorem step (h : u.Collecting d past) (act : ε → σ → σ) (deed : Deed ε) :
    (u.step act deed).1.toList.filterMap Answer.ending? = [] ∧
        (∃ d' more, (u.step act deed).2.Collecting d' (past ++ more) ∧
          ∀ rest, answersTo act (deed :: rest) d = more ++ answersTo act rest d') ∨
      (u.step act deed).2.Over ∧
        ∀ rest, (u.step act deed).1.toList.filterMap Answer.ending? =
          (resultOf (past ++ answersTo act (deed :: rest) d)).toList := by
  have hstill : u.Collecting d (past ++ []) := (List.append_nil past).symm ▸ h
  unfold Usage.step
  split
  · cases deed with
    | ask holder a =>
      dsimp only
      rw [h.spent.ask a]
      exact .inl ⟨a.endings_refusal, d, [], hstill, fun _ => rfl⟩
    | share holder =>
      exact .inl ⟨rfl, d, [], ⟨hstill.payload, hstill.collected, hstill.going⟩, fun _ => rfl⟩
    | letGo holder =>
      have hrelease : u.payload.release = u.payload := by
        rw [h.payload]
        rfl
      have hpayload : (u.toShared.letGo holder).payload = ⟨.parts d, .lent⟩ := by
        rw [Shared.letGo, hrelease, ite_self]
        exact h.payload
      exact .inl ⟨rfl, d, [], ⟨hpayload, hstill.collected, hstill.going⟩, fun _ => rfl⟩
    | use use =>
      dsimp only
      cases use with
      | poll =>
        cases hends : d.next.1.ends with
        | false =>
          obtain ⟨hanswer, hnext⟩ := h.poll_going hends
          rw [hanswer]
          exact .inl ⟨rfl, _, _, hnext, fun _ => rfl⟩
        | true =>
          obtain ⟨ending, hending, hanswer, hover, -⟩ := h.poll_ends hends
          refine .inr ⟨hover, fun rest => ?_⟩
          rw [hanswer, answersTo, resultOf_ends h.going hends, hending]
          rfl
      | request n =>
        rw [h.use_other (.request n) (by rintro ⟨⟩)]
        exact .inl ⟨rfl, d, [], hstill, fun _ => rfl⟩
      | cancel =>
        rw [h.use_other .cancel (by rintro ⟨⟩)]
        exact .inl ⟨rfl, d, [], hstill, fun _ => rfl⟩
    | giveUp =>
      have hover : u.giveUp.Over := by
        rw [Usage.giveUp, h.payload]
        exact ⟨Custody.released_ne_kept, rfl⟩
      refine .inr ⟨hover, fun rest => ?_⟩
      rw [answersTo, List.append_nil, resultOf_going h.going]
      rfl
    | happen e => exact .inl ⟨rfl, _, [], hstill.happen act e, fun _ => rfl⟩
  · next hundue =>
    cases deed with
    | ask holder a => exact .inl ⟨rfl, d, [], hstill, fun _ => rfl⟩
    | share holder => exact .inl ⟨rfl, d, [], hstill, fun _ => rfl⟩
    | letGo holder => exact .inl ⟨rfl, d, [], hstill, fun _ => rfl⟩
    | _ => exact absurd trivial hundue

theorem run (h : u.Collecting d past) (act : ε → σ → σ) (deeds : List (Deed ε)) :
    endings act deeds u = (resultOf (past ++ answersTo act deeds d)).toList := by
  induction deeds generalizing u d past with
  | nil =>
    rw [answersTo, List.append_nil, resultOf_going h.going]
    rfl
  | cons deed rest ih =>
    rw [endings_cons]
    rcases h.step act deed with ⟨hsilent, d', more, hnext, hanswers⟩ | ⟨hover, hresult⟩
    · rw [hsilent, List.nil_append, ih hnext, hanswers, List.append_assoc]
    · rw [(hover.run act rest).1, List.append_nil, hresult rest]

end Collecting

/-! ### Collections with nobody in between -/

/-- Reads a stream on schedule: polls it, or lets an event happen, until an answer is neither a part
nor a wait. -/
def through (act : ε → σ → σ) : List (Option ε) → Demux σ → (List Part × Outcome) × Demux σ
  | [], d => (([], .waiting), d)
  | some e :: rest, d => through act rest { d with source := act e d.source }
  | none :: rest, d =>
    if d.next.1.ends then (([], d.next.1), d.next.2)
    else
      let ((parts, last), d') := through act rest d.next.2
      ((d.next.1.part?.toList ++ parts, last), d')

/-- What is done on schedule, as a deed. -/
def Deed.ofSchedule : Option ε → Deed ε
  | none => .use .poll
  | some e => .happen e

/-- A stream that was given up is left alone. -/
theorem after_released (h : u.payload.custody = .released) (act : ε → σ → σ)
    (schedule : List (Option ε)) :
    after act (schedule.map Deed.ofSchedule ++ [.giveUp]) u = u := by
  have hlent : u.payload.lent? = none := by
    rw [Payload.lent?, h]
  induction schedule with
  | nil =>
    show u.giveUp = u
    rw [giveUp, hlent]
  | cons entry rest ih =>
    have hstep : (u.step act (Deed.ofSchedule entry)).2 = u := by
      cases entry with
      | none =>
        show (u.useStream .poll).2 = u
        rw [useStream, hlent]
      | some e =>
        show u.happen act e = u
        rw [happen, h]
    rw [List.map_cons, List.cons_append, after, hstep]
    exact ih

theorem Collecting.schedule {d : Demux σ} {past : List Outcome} (h : u.Collecting d past)
    (act : ε → σ → σ) (schedule : List (Option ε)) :
    endings act (schedule.map Deed.ofSchedule) u =
        (ending? (past.filterMap Outcome.part? ++ (through act schedule d).1.1)
          (through act schedule d).1.2).toList ∧
      (after act (schedule.map Deed.ofSchedule ++ [.giveUp]) u).payload =
        .surrender (through act schedule d).2 := by
  induction schedule generalizing u d past with
  | nil =>
    refine ⟨rfl, ?_⟩
    show u.giveUp.payload = _
    rw [giveUp, h.payload]
    rfl
  | cons entry rest ih =>
    rw [List.map_cons, List.cons_append, endings_cons, after]
    cases entry with
    | some e => exact ih (h.happen act e)
    | none =>
      have hparts : ∀ parts, (past ++ [d.next.1]).filterMap Outcome.part? ++ parts =
          past.filterMap Outcome.part? ++ (d.next.1.part?.toList ++ parts) := by
        intro parts
        rw [Outcome.parts_concat, List.append_assoc]
      show (u.useStream .poll).1.toList.filterMap Answer.ending? ++
          endings act (rest.map Deed.ofSchedule) (u.useStream .poll).2 = _ ∧
        (after act (rest.map Deed.ofSchedule ++ [.giveUp]) (u.useStream .poll).2).payload = _
      unfold through
      cases hends : d.next.1.ends with
      | false =>
        obtain ⟨hnone, hnext⟩ := h.poll_going hends
        obtain ⟨hendings, hlast⟩ := ih hnext
        rw [hnone, hlast, hendings, hparts]
        exact ⟨rfl, rfl⟩
      | true =>
        obtain ⟨ending, hending, hsome, hover, hpayload⟩ := h.poll_ends hends
        rw [hsome, (hover.run act _).1, after_released (by rw [hpayload]; rfl), hpayload]
        simp only [if_true, List.append_nil, hending]
        exact ⟨rfl, trivial⟩

/-- A collection ends as its reader does. -/
theorem collect?_parts (read : Demux σ → (List Part × Outcome) × Demux σ) (d : Demux σ) :
    (⟨.parts d, .kept⟩ : Payload σ).collect? read =
      (ending? (read d).1.1 (read d).1.2, .surrender (read d).2) := by
  unfold Payload.collect?
  dsimp only [Payload.lend?]
  rcases read d with ⟨⟨parts, last⟩, d'⟩
  cases last <;> rfl

section Awaited

variable {τ : Type} [Awaited τ]

theorem awaitNextFor_through (fuel : Nat) (d : Demux τ) :
    ∃ schedule : List (Option Unit), ∀ rest,
      through (fun _ => Awaited.wait) (schedule ++ rest) d =
        if (d.awaitNextFor fuel).1.ends then
          (([], (d.awaitNextFor fuel).1), (d.awaitNextFor fuel).2)
        else
          let ((parts, last), d') := through (fun _ => Awaited.wait) rest (d.awaitNextFor fuel).2
          (((d.awaitNextFor fuel).1.part?.toList ++ parts, last), d') := by
  induction fuel generalizing d with
  | zero => exact ⟨[none], fun _ => rfl⟩
  | succ fuel ih =>
    unfold Demux.awaitNextFor
    split
    · next waiting heq =>
      obtain ⟨schedule, hschedule⟩ := ih { waiting with source := Awaited.wait waiting.source }
      refine ⟨none :: some () :: schedule, fun rest => ?_⟩
      rw [← hschedule rest, List.cons_append, List.cons_append, through, heq]
      rfl
    · exact ⟨[none], fun _ => rfl⟩

/-- A reader that waits keeps to some schedule. -/
theorem awaitAll_through (d : Demux τ) :
    ∃ schedule : List (Option Unit), d.awaitAll = through (fun _ => Awaited.wait) schedule d := by
  suffices hdrain : ∀ fuel (d : Demux τ), ∃ schedule : List (Option Unit),
      Demux.drain Demux.awaitNext fuel d = through (fun _ => Awaited.wait) schedule d from
    hdrain _ d
  intro fuel
  induction fuel with
  | zero => exact fun d => ⟨[], rfl⟩
  | succ fuel ih =>
    intro d
    obtain ⟨first, hfirst⟩ := awaitNextFor_through (Awaited.patience d.source) d
    unfold Demux.drain
    split
    · next p d' heq =>
      obtain ⟨rest, hrest⟩ := ih d'
      refine ⟨first ++ rest, ?_⟩
      rw [hfirst, hrest]
      unfold Demux.awaitNext at heq
      rw [heq]
      rfl
    · next last d' hpart heq =>
      refine ⟨first ++ [], ?_⟩
      rw [hfirst]
      unfold Demux.awaitNext at heq
      rw [heq]
      cases last with
      | part p => exact absurd rfl (hpart p)
      | _ => rfl

end Awaited

/-! ### All that holders can find -/

/-- Nobody took the content `c`, and every holder can. -/
structure Open (act : ε → σ → σ) (c : Content σ) (u : Usage σ) : Prop where
  answer : ∀ holder ∈ u.holders, ∀ a, (u.step act (.ask holder a)).1 = some (c.answer a)
  /-- asks that do not take it leave everything as it is -/
  left : ∀ holder a, (c.answer a).takes = false → (u.step act (.ask holder a)).2 = u
  /-- a collection comes to what the answers of the stream come to, whatever else is done -/
  collects : ∀ holder ∈ u.holders, ∀ d, c = .parts d → ∀ later,
    endings act later (u.step act (.ask holder .collect)).2 =
      (resultOf (answersTo act later d)).toList
  /-- if nothing else is done, it is the collection of the payload -/
  collect? : ∀ holder ∈ u.holders, ∀ d, c = .parts d → ∀ schedule,
    let collection := u.payload.collect? (through act schedule)
    endings act (schedule.map Deed.ofSchedule) (u.step act (.ask holder .collect)).2 =
        collection.1.toList ∧
      (after act (schedule.map Deed.ofSchedule ++ [.giveUp])
        (u.step act (.ask holder .collect)).2).payload = collection.2

/-- Somebody took the content. -/
structure Shut (act : ε → σ → σ) (u : Usage σ) : Prop where
  refused : ∀ holder ∈ u.holders, ∀ a, u.step act (.ask holder a) = (some a.refusal, u)

theorem step_ask (act : ε → σ → σ) {holder : Nat} (h : holder ∈ u.holders) (a : Ask) :
    u.step act (.ask holder a) = (some (u.ask a).1, (u.ask a).2) :=
  if_pos h

theorem Spent.shut (h : u.Spent) (act : ε → σ → σ) : u.Shut act where
  refused holder hmem a := by rw [step_ask act hmem, h.ask a]

namespace Untouched

variable {c : Content σ}

omit [Supply σ] in
theorem collecting {d : Demux σ} (h : u.Untouched (.parts d)) {holder : Nat}
    (hmem : holder ∈ u.holders) : (u.ask .collect).2.Collecting d [] := by
  have hkept := h.kept hmem
  obtain ⟨⟨payload, holders, fresh⟩, collected⟩ := u
  obtain rfl : payload = _ := hkept
  exact ⟨rfl, rfl, fun _ ho => absurd ho List.not_mem_nil⟩

theorem opened (h : u.Untouched c) (act : ε → σ → σ) : u.Open act c where
  answer holder hmem a := by rw [step_ask act hmem, (h.ask hmem a).1]
  left holder a ha := by
    by_cases hmem : holder ∈ u.holders
    · rcases (h.ask hmem a).2 with ⟨-, hleft⟩ | ⟨htakes, -⟩
      · rw [step_ask act hmem]
        exact hleft
      · cases ha.symm.trans htakes
    · exact congrArg Prod.snd (if_neg hmem)
  collects holder hmem d hd later := by
    subst hd
    rw [step_ask act hmem]
    exact (h.collecting hmem).run act later
  collect? holder hmem d hd schedule := by
    subst hd
    rw [step_ask act hmem, h.kept hmem, collect?_parts]
    exact (h.collecting hmem).schedule act schedule

/-- A collection by a reader that waits is one of those on schedule. -/
theorem collect?_awaitAll {τ : Type} [Awaited τ] {u : Usage τ} {d : Demux τ}
    (h : u.Untouched (.parts d)) {holder : Nat} (hmem : holder ∈ u.holders) :
    let wait (_ : Unit) : τ → τ := Awaited.wait
    let collecting := (u.step wait (.ask holder .collect)).2
    let collection := u.payload.collect? Demux.awaitAll
    ∃ schedule : List (Option Unit),
      endings wait (schedule.map Deed.ofSchedule) collecting = collection.1.toList ∧
        (after wait (schedule.map Deed.ofSchedule ++ [.giveUp]) collecting).payload =
          collection.2 := by
  intro wait collecting collection
  obtain ⟨schedule, hschedule⟩ := awaitAll_through d
  have hcollection : u.payload.collect? (through wait schedule) = collection := by
    rw [show collection = u.payload.collect? Demux.awaitAll from rfl, h.kept hmem, collect?_parts,
      collect?_parts, hschedule]
  exact ⟨schedule, hcollection ▸ (h.opened wait).collect? holder hmem d rfl schedule⟩

end Untouched

end Usage

/-- **A body is consumed once.** Whatever its holders do, and others do with its stream, at most one
ask takes the content. As long as there is none, every ask finds the content; from then on every ask
is refused. -/
theorem consumed_once [Supply σ] (act : ε → σ → σ) (c : Content σ) (deeds : List (Usage.Deed ε)) :
    let told := Usage.answers act deeds (.ofContent c)
    let u := Usage.after act deeds (.ofContent c)
    told.countP Answer.takes = 0 ∧ u.Open act (c.went act (Usage.eventsOf deeds)) ∨
      told.countP Answer.takes = 1 ∧ u.Shut act := by
  intro told u
  have hstart : (Usage.ofContent c).Untouched c := ⟨.inl rfl, rfl⟩
  rcases hstart.run act deeds with ⟨hnone, huntouched⟩ | ⟨honce, hspent⟩
  · exact .inl ⟨hnone, huntouched.opened act⟩
  · exact .inr ⟨honce, hspent.shut act⟩

example : Usage.answers (fun (_ : Unit) (r : Multipart.Replay) => r)
    [.ask 0 .parts, .share 0, .ask 1 .bytes, .ask 0 .bytes, .ask 1 .canConsume]
    (.ofContent (.whole [104, 105])) =
      [.failed (.body (.malformed "request body is not multipart")), .bytes [104, 105],
        .failed .bodyConsumed, .verdict false] := rfl

end Exchange.Pipeline
