import Exchange.Multipart.Replay
import Exchange.Proofs.Multipart.Attended
import Mathlib

/-!
How a demultiplexer ends.

There are many ways: its supply completes or fails, a limit is exceeded, it is disabled, it is
cancelled or given up. Whatever ends it, it ends once (`ends_once`): from then on every poll finds
nothing, its supply is left alone, and nothing is kept unfinished. Over its whole life it cancels
its supply once, unless that has completed before. All this is read off the calls that reach a
watched supply, while events outside may change that supply at any time. What carries it is
`Standing`: how the record of calls ends is how the demultiplexer did.
-/
namespace Exchange.Multipart

/-- What happens to a demultiplexer: it is used, or an event changes its supply. -/
inductive Turn (ε : Type) where
  | use (u : Use)
  | happen (e : ε)

namespace Outcome

/-- A poll came to something. One that has to wait, or panics, does not. -/
def isResult : Outcome → Bool
  | .part _ | .fault _ | .finished => true
  | .waiting | .panicked _ => false

/-- The answer that ends a demultiplexer. -/
def concludes : Outcome → Bool
  | .fault _ | .finished => true
  | .waiting | .part _ | .panicked _ => false

end Outcome

namespace Call

def isCancel : Call → Bool
  | .cancel => true
  | _ => false

/-- The body goes on behind the call. -/
def goesOn : Call → Bool
  | .cancel | .poll .finished | .poll (.failed _) => false
  | _ => true

end Call

/-- The supply completed, and nothing had failed or been cancelled before. -/
def CompletedFirst (calls : List Call) : Prop :=
  ∃ front back, calls = front ++ .poll .finished :: back ∧ ∀ c ∈ front, c.goesOn = true

variable {σ ε : Type} [Supply σ]

namespace Demux

/-! ### Lives -/

def turn (act : ε → σ → σ) (d : Demux σ) : Turn ε → Demux σ
  | .use u => d.use u
  | .happen e => { d with source := act e d.source }

@[simp] theorem turn_use (act : ε → σ → σ) (d : Demux σ) (u : Use) :
    d.turn act (.use u) = d.use u := rfl

/-- The demultiplexer after some turns. -/
def lived (act : ε → σ → σ) (turns : List (Turn ε)) (d : Demux σ) : Demux σ :=
  turns.foldl (turn act) d

def answer? (d : Demux σ) : Turn ε → Option Outcome
  | .use .poll => some d.next.1
  | _ => none

/-- What the polls among some turns are answered. -/
def answers (act : ε → σ → σ) : List (Turn ε) → Demux σ → List Outcome
  | [], _ => []
  | t :: rest, d => (d.answer? t).toList ++ answers act rest (d.turn act t)

/-- A turn that ends the demultiplexer: a cancel, or a poll answered by a fault or by the end. -/
def Concludes (d : Demux σ) (t : Turn ε) : Prop :=
  t = .use .cancel ∨ ∃ o, d.answer? t = some o ∧ o.concludes = true

/-! ### After the end -/

theorem use_terminated {d : Demux σ} (h : d.terminated = true) (u : Use) : d.use u = d := by
  cases u with
  | request n => exact request_terminated h
  | poll => exact congrArg Prod.snd (next_terminated h)
  | cancel => exact if_pos h

theorem answer?_terminated {d : Demux σ} (h : d.terminated = true) {t : Turn ε} {o : Outcome}
    (ho : d.answer? t = some o) : o = .finished := by
  unfold answer? at ho
  split at ho
  · rw [next_terminated h] at ho
    exact (Option.some.inj ho).symm
  · cases ho

theorem terminated_cancel (d : Demux σ) : d.cancel.terminated = true := by
  unfold cancel
  cases hd : d.terminated with
  | true => exact hd
  | false => rfl

/-- Once it has ended nothing reaches the supply of a demultiplexer any more. -/
theorem lived_terminated (act : ε → σ → σ) (turns : List (Turn ε)) {d : Demux (Watched σ)}
    (h : d.terminated = true) :
    (d.lived (Watched.happen act) turns).terminated = true ∧
      (d.lived (Watched.happen act) turns).unfinished = d.unfinished ∧
      (d.lived (Watched.happen act) turns).source.calls = d.source.calls ∧
      ∀ o ∈ d.answers (Watched.happen act) turns, o = .finished := by
  induction turns generalizing d with
  | nil => exact ⟨h, rfl, rfl, nofun⟩
  | cons t rest ih =>
    have hturn : (d.turn (Watched.happen act) t).terminated = true ∧
        (d.turn (Watched.happen act) t).unfinished = d.unfinished ∧
        (d.turn (Watched.happen act) t).source.calls = d.source.calls := by
      cases t with
      | use u =>
        rw [turn_use, use_terminated h]
        exact ⟨h, rfl, rfl⟩
      | happen e => exact ⟨h, rfl, rfl⟩
    obtain ⟨hover, hkept, hcalls⟩ := hturn
    obtain ⟨hrest, hkept', hcalls', hanswers⟩ := ih hover
    refine ⟨hrest, hkept'.trans hkept, hcalls'.trans hcalls, fun o ho => ?_⟩
    rcases List.mem_append.mp ho with hfirst | hlater
    · exact answer?_terminated h (Option.mem_toList.mp hfirst)
    · exact hanswers o hlater

end Demux

/-! ### How the calls end -/

/-- The calls by which a body ends. -/
inductive Closing : List Call → Prop where
  | completed : Closing [.poll .finished]
  | failed (e : Fault) : Closing [.poll (.failed e), .cancel]
  | cancelled : Closing [.cancel]

/-- A demultiplexer stands as its calls have it: they go on while it runs, and are closed when it
has ended. -/
structure Standing (d : Demux (Watched σ)) : Prop where
  running : d.terminated = false → ∀ c ∈ d.source.calls, c.goesOn = true
  ended : d.terminated = true → d.unfinished = [] ∧ ∃ front closing,
    d.source.calls = front ++ closing ∧ (∀ c ∈ front, c.goesOn = true) ∧ Closing closing

namespace Standing

variable {d d' : Demux (Watched σ)}

omit [Supply σ] in
theorem ofRunning (hrun : d.terminated = false) (hcalls : ∀ c ∈ d.source.calls, c.goesOn = true) :
    Standing d :=
  ⟨fun _ => hcalls, fun hover => absurd (hover.symm.trans hrun) (by decide)⟩

omit [Supply σ] in
theorem ofClosing {front closing : List Call} (hover : d.terminated = true)
    (hkept : d.unfinished = []) (hcalls : d.source.calls = front ++ closing)
    (hfront : ∀ c ∈ front, c.goesOn = true) (hclosing : Closing closing) : Standing d :=
  ⟨fun hrun => absurd (hrun.symm.trans hover) (by decide),
    fun _ => ⟨hkept, front, closing, hcalls, hfront, hclosing⟩⟩

end Standing

/-- Calls that go on, and one more that does. -/
theorem goesOn_concat {calls : List Call} {last : Call} (h : ∀ c ∈ calls, c.goesOn = true)
    (hlast : last.goesOn = true) : ∀ c ∈ calls ++ [last], c.goesOn = true := by
  intro c hc
  rcases List.mem_append.mp hc with hmem | hmem
  · exact h c hmem
  · rw [List.mem_singleton.mp hmem]
    exact hlast

/-- A demultiplexer that runs, with calls that go on. -/
structure Going (d : Demux (Watched σ)) : Prop where
  running : d.terminated = false
  calls : ∀ c ∈ d.source.calls, c.goesOn = true

namespace Going

variable {d d' : Demux (Watched σ)}

omit [Supply σ] in
theorem standing (h : Going d) : Standing d := .ofRunning h.running h.calls

theorem request (h : Going d) (n : Nat) : Going (d.request n) := by
  unfold Demux.request
  rw [if_neg (by rw [h.running]; decide)]
  refine ⟨h.running, ?_⟩
  dsimp only
  split
  · exact goesOn_concat h.calls rfl
  · exact h.calls

/-- Ending the body before its time closes its calls. -/
theorem stop (h : ∀ c ∈ d.source.calls, c.goesOn = true) : Standing d.stop :=
  .ofClosing rfl rfl rfl h .cancelled

theorem polled {s : Watched σ} {answer : Delivery} (h : Going d)
    (hp : Supply.poll d.source = (answer, s)) (hanswer : (Call.poll answer).goesOn = true) :
    ∀ c ∈ s.calls, c.goesOn = true := by
  rw [Watched.calls_poll hp]
  exact goesOn_concat h.calls hanswer

/-- A fragment that is taken in lets the body go on. -/
theorem accept {f : Fragment} {s : Watched σ} {part : Option Part} (h : Going d)
    (hp : Supply.poll d.source = (.fragment f, s))
    (ha : { d with source := s }.accept f = (.ok part, d')) : Going d' := by
  have hs := h.polled hp rfl
  obtain ⟨hsame, hcalls⟩ := Demux.calls_accept ha
  refine ⟨hsame.trans h.running, ?_⟩
  rcases hcalls with heq | heq
  · rw [heq]
    exact hs
  · rw [heq]
    exact goesOn_concat hs rfl

/-- Whatever a fragment is refused for, its buffer is no call. -/
theorem refused {f : Fragment} {s : Watched σ} {r : Refusal} (h : Going d)
    (hp : Supply.poll d.source = (.fragment f, s))
    (ha : { d with source := s }.accept f = (.error r, d')) :
    ∀ c ∈ d'.source.calls, c.goesOn = true := by
  rw [Demux.accept_error ha, Watched.calls_giveBack]
  exact h.polled hp rfl

/-- A poll leaves the calls as its answer has it. -/
theorem pull (h : Going d) : Standing d.pull.2 ∧ d.pull.2.terminated = d.pull.1.concludes := by
  refine Demux.pull_rule Going (fun o e => Standing e ∧ e.terminated = o.concludes)
    ?_ ?_ ?_ ?_ ?_ ?_ ?_ d h
  · exact fun e s he hp => ⟨.ofRunning he.running (he.polled hp rfl), he.running⟩
  · intro e fault s he hp
    refine ⟨.ofClosing rfl rfl ?_ he.calls (.failed fault), rfl⟩
    show s.calls ++ [.cancel] = _
    rw [Watched.calls_poll hp, List.append_assoc]
    rfl
  · exact fun e s he hp => ⟨.ofClosing rfl rfl (Watched.calls_poll hp) he.calls .completed, rfl⟩
  · exact fun e f s fault e' he hp ha => ⟨stop (he.refused hp ha), rfl⟩
  · intro e f s m e' he hp ha
    have hsame : e'.terminated = false := by
      obtain ⟨flow, -, rfl⟩ := Demux.accept_panicked ha
      exact he.running
    exact ⟨.ofRunning hsame (he.refused hp ha), hsame⟩
  · intro e f s p e' he hp ha
    exact ⟨(he.accept hp ha).standing, (he.accept hp ha).running⟩
  · exact fun e f s e' he hp ha => he.accept hp ha

theorem next (h : Going d) : Standing d.next.2 ∧ d.next.2.terminated = d.next.1.concludes := by
  cases he : d.limits.enabled with
  | false =>
    rw [Demux.next_disabled h.running he]
    exact ⟨stop h.calls, rfl⟩
  | true =>
    by_cases howed : d.flow.owed = 0
    · rw [Demux.next_idle h.running he howed]
      exact (h.request 1).pull
    · rw [Demux.next_owed h.running he howed]
      exact h.pull

end Going

namespace Standing

variable {act : ε → σ → σ} {d : Demux (Watched σ)}

omit [Supply σ] in
theorem going (h : Standing d) (hrun : d.terminated = false) : Going d :=
  ⟨hrun, h.running hrun⟩

omit [Supply σ] in
theorem start (limits : Limits) (s : σ) : Standing (σ := σ) { source := ⟨s, []⟩, limits } :=
  .ofRunning rfl nofun

theorem cancel (h : Standing d) : Standing d.cancel := by
  unfold Demux.cancel
  cases hd : d.terminated with
  | true => exact h
  | false => exact Going.stop (h.running hd)

theorem turn (h : Standing d) (t : Turn ε) : Standing (d.turn (Watched.happen act) t) := by
  cases hd : d.terminated with
  | true =>
    cases t with
    | use u =>
      rw [Demux.turn_use, Demux.use_terminated hd]
      exact h
    | happen e => exact ⟨h.running, h.ended⟩
  | false =>
    cases t with
    | use u =>
      cases u with
      | request n => exact ((h.going hd).request n.toNat).standing
      | poll => exact (h.going hd).next.1
      | cancel => exact h.cancel
    | happen e => exact ⟨h.running, h.ended⟩

theorem lived (h : Standing d) (turns : List (Turn ε)) :
    Standing (d.lived (Watched.happen act) turns) := by
  induction turns generalizing d with
  | nil => exact h
  | cons t rest ih => exact ih (h.turn t)

/-- A turn that concludes ends the demultiplexer. -/
theorem concludes (h : Standing d) {t : Turn ε} (ht : d.Concludes t) :
    (d.turn (Watched.happen act) t).terminated = true := by
  cases hd : d.terminated with
  | true =>
    obtain ⟨hover, -⟩ := Demux.lived_terminated act [t] hd
    exact hover
  | false =>
    rcases ht with rfl | ⟨o, ho, hconcludes⟩
    · show d.cancel.terminated = true
      unfold Demux.cancel
      rw [hd]
      rfl
    · unfold Demux.answer? at ho
      split at ho
      · cases ho
        exact (h.going hd).next.2.trans hconcludes
      · cases ho

/-- Parts come first, then a fault if there is one, and nothing behind it. -/
theorem results (h : Standing d) (turns : List (Turn ε)) :
    ∃ (parts : List Part) (fault : Option Fault) (n : Nat),
      (d.answers (Watched.happen act) turns).filter Outcome.isResult =
        parts.map .part ++ fault.toList.map .fault ++ List.replicate n .finished := by
  induction turns generalizing d with
  | nil => exact ⟨[], none, 0, rfl⟩
  | cons t rest ih =>
    have hbehind : Standing (d.turn (Watched.happen act) t) := h.turn t
    -- behind the turn that ends the demultiplexer all answers are the same
    have hover : (d.turn (Watched.happen act) t).terminated = true → ∃ n,
        ((d.turn (Watched.happen act) t).answers (Watched.happen act) rest).filter
          Outcome.isResult = List.replicate n .finished := by
      intro hterminated
      obtain ⟨-, -, -, hfinished⟩ := Demux.lived_terminated act rest hterminated
      exact ⟨_, List.eq_replicate_of_mem fun o ho => hfinished o (List.mem_filter.mp ho).1⟩
    unfold Demux.answers
    rw [List.filter_append]
    cases ho : d.answer? t with
    | none => exact ih hbehind
    | some o =>
      cases o with
      | waiting => exact ih hbehind
      | panicked m => exact ih hbehind
      | part p =>
        obtain ⟨parts, fault, n, heq⟩ := ih hbehind
        exact ⟨p :: parts, fault, n, by rw [heq]; rfl⟩
      | fault e =>
        obtain ⟨n, heq⟩ := hover (h.concludes (.inr ⟨_, ho, rfl⟩))
        exact ⟨[], some e, n, by rw [heq]; rfl⟩
      | finished =>
        obtain ⟨n, heq⟩ := hover (h.concludes (.inr ⟨_, ho, rfl⟩))
        exact ⟨[], none, n + 1, by rw [heq]; rfl⟩

/-! ### Giving a demultiplexer up -/

theorem cancels_goesOn {calls : List Call} (h : ∀ c ∈ calls, c.goesOn = true) :
    calls.countP Call.isCancel = 0 := by
  rw [List.countP_eq_zero]
  intro c hc hcancel
  have hgoes := h c hc
  cases c <;> cases hcancel
  cases hgoes

theorem not_completed {front back : List Call} (hfront : ∀ c ∈ front, c.goesOn = true)
    (hback : .poll .finished ∉ back) : ¬CompletedFirst (front ++ back) := by
  rintro ⟨first, rest, heq, -⟩
  have hmem : .poll .finished ∈ front ++ back := by
    rw [heq]
    exact List.mem_append_right _ (.head _)
  rcases List.mem_append.mp hmem with hin | hin
  · cases hfront _ hin
  · exact hback hin

/-- How often a supply was cancelled when its demultiplexer has been given up. -/
theorem cancels_drop (h : Standing d) :
    (CompletedFirst d.drop.source.calls → d.drop.source.calls.countP Call.isCancel = 0) ∧
      (¬CompletedFirst d.drop.source.calls → d.drop.source.calls.countP Call.isCancel = 1) := by
  have hcalls : d.drop.source.calls = d.cancel.source.calls ++ [.drop] := rfl
  obtain ⟨-, front, closing, hclosed, hfront, hclosing⟩ := h.cancel.ended d.terminated_cancel
  rw [hcalls, hclosed, List.append_assoc, List.countP_append, cancels_goesOn hfront]
  cases hclosing with
  | completed => exact ⟨fun _ => rfl, fun hnot => absurd ⟨front, [.drop], rfl, hfront⟩ hnot⟩
  | failed e => exact ⟨fun hdone => absurd hdone (not_completed hfront (by simp)), fun _ => rfl⟩
  | cancelled => exact ⟨fun hdone => absurd hdone (not_completed hfront (by simp)), fun _ => rfl⟩

end Standing

/-! ### Watching changes nothing -/

namespace Demux

theorem map_cancel {τ : Type} [Supply τ] {view : τ → σ} (hv : Supply.Faithful view)
    (d : Demux τ) : d.cancel.map view = (d.map view).cancel := by
  unfold cancel
  rw [show (d.map view).terminated = d.terminated from rfl]
  split
  · rfl
  · exact map_stop hv d

theorem map_turn (act : ε → σ → σ) (d : Demux (Watched σ)) (t : Turn ε) :
    (d.turn (Watched.happen act) t).map Watched.source =
      (d.map Watched.source).turn act t := by
  cases t with
  | use u =>
    cases u with
    | request n => exact map_request Watched.faithful _ d
    | poll => exact (congrArg Prod.snd (map_next Watched.faithful d)).symm
    | cancel => exact map_cancel Watched.faithful d
  | happen e => rfl

theorem map_lived (act : ε → σ → σ) (turns : List (Turn ε)) (d : Demux (Watched σ)) :
    (d.lived (Watched.happen act) turns).map Watched.source =
        (d.map Watched.source).lived act turns ∧
      d.answers (Watched.happen act) turns = (d.map Watched.source).answers act turns := by
  induction turns generalizing d with
  | nil => exact ⟨rfl, rfl⟩
  | cons t rest ih =>
    obtain ⟨hlived, hanswers⟩ := ih (d.turn (Watched.happen act) t)
    rw [map_turn] at hlived hanswers
    refine ⟨hlived, ?_⟩
    have hanswer : d.answer? t = (d.map Watched.source).answer? t := by
      unfold answer?
      rw [map_next Watched.faithful]
    unfold answers
    rw [hanswer, hanswers]

end Demux

/-- **Ended once.** Take any life of a demultiplexer, over any supply that events may change
meanwhile, and put its calls on record, which changes nothing. Its polls come to parts, then to one
fault at most, then to nothing. Behind a fault, an end or a cancel it stays terminated, keeps
nothing unfinished, calls its supply no more and answers every poll by the end. When it is given up
at last its supply has been cancelled once, or never if it completed before anything failed or was
cancelled. -/
theorem ends_once (act : ε → σ → σ) (limits : Limits) (s : σ) (turns : List (Turn ε)) :
    let fresh : Demux (Watched σ) := { source := ⟨s, []⟩, limits }
    let told := fresh.answers (Watched.happen act) turns
    let d := fresh.lived (Watched.happen act) turns
    (d.map Watched.source = Demux.lived act turns { source := s, limits } ∧
      told = Demux.answers act turns { source := s, limits }) ∧
    (∃ (parts : List Part) (fault : Option Fault) (n : Nat), told.filter Outcome.isResult =
      parts.map .part ++ fault.toList.map .fault ++ List.replicate n .finished) ∧
    (∀ front t back, turns = front ++ t :: back →
      let before := fresh.lived (Watched.happen act) front
      let ended := before.turn (Watched.happen act) t
      before.Concludes t →
        d.terminated = true ∧ d.unfinished = [] ∧ d.source.calls = ended.source.calls ∧
          ∀ o ∈ ended.answers (Watched.happen act) back, o = .finished) ∧
    (CompletedFirst d.drop.source.calls → d.drop.source.calls.countP Call.isCancel = 0) ∧
    (¬CompletedFirst d.drop.source.calls → d.drop.source.calls.countP Call.isCancel = 1) := by
  intro fresh told d
  have hfresh : Standing fresh := .start limits s
  refine ⟨Demux.map_lived act turns fresh, hfresh.results turns, ?_,
    (hfresh.lived turns).cancels_drop⟩
  intro front t back hturns before ended hconcludes
  have hbefore : Standing before := hfresh.lived front
  have hover : ended.terminated = true := hbefore.concludes hconcludes
  have hd : d = ended.lived (Watched.happen act) back := by
    show fresh.lived (Watched.happen act) turns = _
    rw [hturns]
    exact List.foldl_append
  obtain ⟨hterminated, hkept, hcalls, hanswers⟩ := Demux.lived_terminated act back hover
  rw [hd]
  exact ⟨hterminated, hkept.trans ((hbefore.turn t).ended hover).1, hcalls, hanswers⟩

/-- A demultiplexer of a field that is too large for its body. -/
def oversized : Demux (Watched Replay) where
  source := ⟨.ofEvents [.fragment ⟨{ name := "a" }, { bytes := [1, 2] }, true⟩] true false, []⟩
  limits := { maxBody := 1 }

/-- What its consumer does, none of which but the first poll comes to anything. -/
def insistence : List (Turn Unit) :=
  [.use .poll, .use (.request 3), .use .cancel, .use .poll]

theorem ends_once_oversized :
    let d := oversized.lived (Watched.happen fun _ r => r) insistence
    d.terminated = true ∧ d.unfinished = [] ∧ d.drop.source.calls.countP Call.isCancel = 1 := by
  obtain ⟨-, -, hover, -, hcancelled⟩ :=
    ends_once (fun _ r => r) oversized.limits oversized.source.source insistence
  have hfault : oversized.Concludes (.use .poll : Turn Unit) :=
    .inr ⟨.fault (.requestTooLarge 2 1), by cbv, rfl⟩
  obtain ⟨hterminated, hkept, -, -⟩ := hover [] _ _ rfl hfault
  have hcalls : (oversized.lived (Watched.happen fun _ r => r) insistence).drop.source.calls =
      [.request 1, .poll (.fragment ⟨{ name := "a" }, { bytes := [1, 2] }, true⟩), .cancel,
        .drop] := by cbv
  refine ⟨hterminated, hkept, hcancelled ?_⟩
  show ¬CompletedFirst (oversized.lived (Watched.happen fun _ r => r) insistence).drop.source.calls
  rw [hcalls]
  exact @Standing.not_completed [] _ (by simp) (by simp)

end Exchange.Multipart
