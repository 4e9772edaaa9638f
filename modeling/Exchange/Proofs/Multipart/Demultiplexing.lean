import Exchange.Multipart.Replay
import Exchange.Proofs.Multipart.Driven
import Mathlib

/-!
What a demultiplexer delivers, read off the fragments it took.

A final fragment completes a part if its name has received bytes since the last final fragment of
that name. The part consists of the bytes of all fragments of the name since then, and its field is
that of the first of them that has any (`completedBy`). `demultiplexing` says that these parts, in
this sequence, are what the consumer gets, whichever way it drives the demultiplexer and whatever
the supply does. The invariant behind it is `Holds`: what is kept under a name is what the fragments
of that name since its last final one come to.
-/
namespace Exchange.Multipart

/-- Whether a fragment brings bytes. -/
def Fragment.bears (f : Fragment) : Bool := !f.data.bytes.isEmpty

/-- The fragments of a name behind its last final one. -/
def sinceFinal (name : String) (taken : List Fragment) : List Fragment :=
  (taken.filter (·.field.name == name)).rtakeWhile (!·.final)

/-- What fragments of one name come to, unless they bring no bytes. -/
def joined (fs : List Fragment) : Option Part :=
  (fs.find? Fragment.bears).map fun first => ⟨first.field, fs.flatMap (·.data.bytes)⟩

/-- The part that a fragment completes when it comes behind `earlier` ones. -/
def completedBy (earlier : List Fragment) (f : Fragment) : Option Part :=
  if f.final then joined (sinceFinal f.field.name earlier ++ [f]) else none

/-- The parts that fragments complete which come behind `earlier` ones. -/
def partsBehind : List Fragment → List Fragment → List Part
  | _, [] => []
  | earlier, f :: rest => (completedBy earlier f).toList ++ partsBehind (earlier ++ [f]) rest

/-- The parts that some fragments come to. -/
def partsOf (taken : List Fragment) : List Part := partsBehind [] taken

theorem partsBehind_concat (earlier taken : List Fragment) (f : Fragment) :
    partsBehind earlier (taken ++ [f]) =
      partsBehind earlier taken ++ (completedBy (earlier ++ taken) f).toList := by
  induction taken generalizing earlier with
  | nil => simp [partsBehind]
  | cons g rest ih =>
    rw [List.cons_append, partsBehind, ih, partsBehind, List.append_assoc, List.append_assoc]
    rfl

theorem partsOf_concat (taken : List Fragment) (f : Fragment) :
    partsOf (taken ++ [f]) = partsOf taken ++ (completedBy taken f).toList :=
  partsBehind_concat [] taken f

/-! ### One more fragment -/

theorem sinceFinal_concat_other {name : String} {f : Fragment} (taken : List Fragment)
    (h : name ≠ f.field.name) : sinceFinal name (taken ++ [f]) = sinceFinal name taken := by
  unfold sinceFinal
  rw [List.filter_append, List.filter_cons_of_neg (by simpa using Ne.symm h), List.filter_nil,
    List.append_nil]

theorem sinceFinal_concat (taken : List Fragment) (f : Fragment) :
    sinceFinal f.field.name (taken ++ [f]) =
      if f.final then [] else sinceFinal f.field.name taken ++ [f] := by
  unfold sinceFinal
  rw [List.filter_append, List.filter_cons_of_pos (by simp), List.filter_nil,
    List.rtakeWhile_concat]
  cases f.final <;> rfl

/-- Fragments that come to nothing bring no bytes. -/
theorem bytes_of_joined_none {fs : List Fragment} (h : joined fs = none) :
    fs.flatMap (·.data.bytes) = [] := by
  rw [joined, Option.map_eq_none_iff, List.find?_eq_none] at h
  rw [List.flatMap_eq_nil_iff]
  intro f hf
  have hbears := h f hf
  simpa [Fragment.bears] using hbears

theorem joined_concat (fs : List Fragment) (f : Fragment) :
    joined (fs ++ [f]) =
      match joined fs with
      | some p => some ⟨p.field, p.content ++ f.data.bytes⟩
      | none => if f.bears then some ⟨f.field, f.data.bytes⟩ else none := by
  cases hfs : joined fs with
  | some p =>
    obtain ⟨first, hfirst, rfl⟩ := Option.map_eq_some_iff.mp hfs
    simp [joined, List.find?_append, hfirst]
  | none =>
    have hbytes := bytes_of_joined_none hfs
    rw [joined, Option.map_eq_none_iff] at hfs
    by_cases hf : f.bears <;> simp [joined, List.find?_append, hfs, hf, hbytes]

/-! ### What is kept -/

/-- A part that is not complete yet. -/
def Assembly.ofPart (limit : Nat) (p : Part) : Assembly := ⟨p.field, limit, p.content⟩

/-- Under each name a demultiplexer keeps what the fragments since the last final one come to. -/
def Holds {σ : Type} (taken : List Fragment) (d : Demux σ) : Prop :=
  ∀ name, d.unfinished.lookup name =
    (joined (sinceFinal name taken)).map (Assembly.ofPart d.limits.maxPart)

/-- A payload grows what is kept by what it adds to the fragments. -/
theorem Grows.joined {limit : Nat} {f : Fragment} {fs : List Fragment}
    {kept grown : Option Assembly} (h : Grows limit f kept grown)
    (hk : kept = (joined fs).map (Assembly.ofPart limit)) :
    grown = (Multipart.joined (fs ++ [f])).map (Assembly.ofPart limit) := by
  rw [joined_concat]
  cases h with
  | empty _ hb =>
    rw [hk]
    cases Multipart.joined fs with
    | none => simp [Fragment.bears, hb]
    | some p => simp [hb]
  | first hb _ =>
    cases hj : Multipart.joined fs with
    | none => simp [Fragment.bears, hb, Assembly.ofPart]
    | some p =>
      rw [hj] at hk
      cases hk
  | more a hb _ _ =>
    cases hj : Multipart.joined fs with
    | none =>
      rw [hj] at hk
      cases hk
    | some p =>
      rw [hj] at hk
      cases hk
      rfl

variable {σ : Type} [Supply σ]

/-- A fragment that is taken in completes the part that it should. -/
theorem Holds.accept {taken : List Fragment} {f : Fragment} {part : Option Part} {d d' : Demux σ}
    (h : Holds taken d) (ha : d.accept f = (.ok part, d')) :
    part = completedBy taken f ∧ Holds (taken ++ [f]) d' := by
  obtain ⟨flow, grown, d₁, -, hc, rfl⟩ := Demux.accept_ok ha
  have hgrown := hc.grows.joined (h f.field.name)
  refine ⟨?_, fun name => ?_⟩
  · rw [hc.completes, hgrown, completedBy, Option.map_map]
    split
    · exact congrFun Option.map_id _
    · rfl
  · rw [Demux.unfinished_refill, Demux.limits_refill, hc.unfinished, hc.limits]
    by_cases hname : name = f.field.name
    · subst hname
      rw [if_pos rfl, sinceFinal_concat]
      split
      · rfl
      · exact hgrown
    · rw [if_neg hname, sinceFinal_concat_other taken hname]
      exact h name

/-! ### Polls -/

/-- The supply had nothing. -/
def Delivery.isWaiting : Delivery → Bool
  | .waiting => true
  | _ => false

/-- The consumer was left waiting. -/
def Outcome.isWaiting : Outcome → Bool
  | .waiting => true
  | _ => false

/-- A demultiplexer that runs, after it gave some parts and left its consumer waiting some times. -/
structure Running (given : List Part) (waits : Nat) (d : Demux (Watched σ)) : Prop where
  running : d.terminated = false
  holds : Holds (takenOf d.source.calls) d
  given : given = partsOf (takenOf d.source.calls)
  waits : waits = (answersOf d.source.calls).countP Delivery.isWaiting
  unfinished : .finished ∉ answersOf d.source.calls

/-- A demultiplexer that came to its end, after it gave some parts and left its consumer waiting
some times. -/
structure Ended (given : List Part) (waits : Nat) (d : Demux (Watched σ)) : Prop where
  terminated : d.terminated = true
  empty : d.unfinished = []
  given : given = partsOf (takenOf d.source.calls)
  waits : waits = (answersOf d.source.calls).countP Delivery.isWaiting
  finished : .finished ∈ answersOf d.source.calls

/-- What a poll comes to. -/
inductive Gives (given : List Part) (waits : Nat) : Outcome → Demux (Watched σ) → Prop where
  | waiting {d} : Running given (waits + 1) d → Gives given waits .waiting d
  | part {d} (p : Part) : Running (given ++ [p]) waits d → Gives given waits (.part p) d
  | finished {d} : Ended given waits d → Gives given waits .finished d
  | fault {d} (e : Fault) : Gives given waits (.fault e) d
  | panicked {d} (m : String) : Gives given waits (.panicked m) d

/-- Taking a fragment in polls nobody and ends nothing. -/
theorem answersOf_accept {f : Fragment} {part : Option Part} {d d' : Demux (Watched σ)}
    (h : d.accept f = (.ok part, d')) :
    answersOf d'.source.calls = answersOf d.source.calls ∧ d'.terminated = d.terminated := by
  obtain ⟨hterminated, hcalls | hcalls⟩ := Demux.calls_accept h
  · exact ⟨by rw [hcalls], hterminated⟩
  · exact ⟨by simp [hcalls], hterminated⟩

/-- A fragment that is taken in, and the part that comes of it. -/
theorem Running.accept {given : List Part} {waits : Nat} {f : Fragment} {part : Option Part}
    {d d' : Demux (Watched σ)} {s : Watched σ} (h : Running given waits d)
    (hp : Supply.poll d.source = (.fragment f, s))
    (ha : { d with source := s }.accept f = (.ok part, d')) :
    Running (given ++ part.toList) waits d' := by
  have hcalls := Watched.calls_poll hp
  obtain ⟨hpart, hholds⟩ := Holds.accept (d := { d with source := s }) h.holds ha
  obtain ⟨hsame, hterminated⟩ := answersOf_accept ha
  have hanswers : answersOf d'.source.calls = answersOf d.source.calls ++ [.fragment f] := by
    rw [hsame, hcalls, answersOf_append]
    rfl
  have htaken : takenOf d'.source.calls = takenOf d.source.calls ++ [f] := by
    rw [takenOf, hanswers, List.filterMap_append]
    rfl
  refine ⟨hterminated.trans h.running, ?_, ?_, ?_, ?_⟩
  · rw [htaken]
    exact hholds
  · rw [htaken, partsOf_concat, h.given, hpart]
  · rw [hanswers, List.countP_append, h.waits]
    rfl
  · rw [hanswers]
    simpa using h.unfinished

theorem Running.pull {given : List Part} {waits : Nat} {d : Demux (Watched σ)}
    (h : Running given waits d) : Gives given waits d.pull.1 d.pull.2 := by
  refine Demux.pull_rule (Running given waits) (Gives given waits) ?_ ?_ ?_ ?_ ?_ ?_ ?_ d h
  · intro e s he hp
    have hcalls := Watched.calls_poll hp
    refine .waiting ⟨he.running, ?_, ?_, ?_, ?_⟩
    · rw [hcalls, takenOf_append, takenOf_poll rfl, List.append_nil]
      exact he.holds
    · rw [hcalls, takenOf_append, takenOf_poll rfl, List.append_nil]
      exact he.given
    · rw [hcalls, answersOf_append, List.countP_append, he.waits]
      rfl
    · rw [hcalls, answersOf_append]
      simpa using he.unfinished
  · exact fun _ e _ _ _ => .fault e
  · intro e s he hp
    have hcalls := Watched.calls_poll hp
    refine .finished ⟨rfl, rfl, ?_, ?_, ?_⟩
    · show given = partsOf (takenOf s.calls)
      rw [hcalls, takenOf_append, takenOf_poll rfl, List.append_nil]
      exact he.given
    · show waits = (answersOf s.calls).countP Delivery.isWaiting
      rw [hcalls, answersOf_append, List.countP_append, he.waits]
      rfl
    · show _ ∈ answersOf s.calls
      rw [hcalls, answersOf_append]
      simp
  · exact fun _ _ _ e _ _ _ _ => .fault e
  · exact fun _ _ _ m _ _ _ _ => .panicked m
  · exact fun _ _ _ p _ he hp ha => .part p (he.accept hp ha)
  · intro e f s e' he hp ha
    have hnext := he.accept hp ha
    rw [Option.toList_none, List.append_nil] at hnext
    exact hnext

/-- A request asks for fragments at most. -/
theorem Running.request {given : List Part} {waits : Nat} {d : Demux (Watched σ)}
    (h : Running given waits d) (n : Nat) : Running given waits (d.request n) := by
  by_cases hn : n = 0
  · rw [hn, Demux.request_zero]
    exact h
  · rcases Nat.eq_zero_or_pos d.flow.owed with howed | howed
    · rw [Demux.request_first h.running hn howed]
      have hanswers : answersOf (Supply.request n d.source).calls = answersOf d.source.calls := by
        rw [Watched.calls_request, answersOf_append, answersOf_request, List.append_nil]
      have htaken : takenOf (Supply.request n d.source).calls = takenOf d.source.calls := by
        rw [takenOf, hanswers, takenOf]
      refine ⟨h.running, ?_, ?_, ?_, ?_⟩
      · rw [htaken]
        exact h.holds
      · rw [htaken]
        exact h.given
      · rw [hanswers]
        exact h.waits
      · rw [hanswers]
        exact h.unfinished
    · rw [Demux.request_more h.running hn howed]
      exact ⟨h.running, h.holds, h.given, h.waits, h.unfinished⟩

theorem Running.next {given : List Part} {waits : Nat} {d : Demux (Watched σ)}
    (h : Running given waits d) : Gives given waits d.next.1 d.next.2 := by
  cases he : d.limits.enabled with
  | false =>
    rw [Demux.next_disabled h.running he]
    exact .fault _
  | true =>
    by_cases howed : d.flow.owed = 0
    · rw [Demux.next_idle h.running he howed]
      exact (h.request 1).pull
    · rw [Demux.next_owed h.running he howed]
      exact h.pull

/-! ### Whole bodies -/

/-- A demultiplexer that reported no fault, beside its consumer's ledger. -/
inductive Sorted (l : Ledger) (d : Demux (Watched σ)) : Prop where
  | running : Running l.parts (l.answers.countP Outcome.isWaiting) d → .finished ∉ l.answers →
      Sorted l d
  | ended : Ended l.parts (l.answers.countP Outcome.isWaiting) d → .finished ∈ l.answers →
      Sorted l d

theorem Sorted.poll {l : Ledger} {d : Demux (Watched σ)} (h : Sorted l d)
    (hm : ∀ m, d.next.1 ≠ .panicked m) (hf : (l.poll d).Faultless) :
    Sorted (l.poll d) d.next.2 := by
  have hanswers : (l.poll d).answers = l.answers ++ [d.next.1] := rfl
  have hparts := l.parts_poll d
  have hwaits : (l.poll d).answers.countP Outcome.isWaiting =
      l.answers.countP Outcome.isWaiting + [d.next.1].countP Outcome.isWaiting := by
    rw [hanswers, List.countP_append]
  cases h with
  | running hr hlast =>
    have hgives := hr.next
    generalize d.next = answer at *
    obtain ⟨o, d'⟩ := answer
    cases hgives with
    | waiting hnext =>
      refine .running ?_ ?_
      · rw [hparts.trans (List.append_nil l.parts), hwaits]
        exact hnext
      · simpa [hanswers] using hlast
    | part p hnext =>
      refine .running ?_ ?_
      · rw [hparts, hwaits]
        exact hnext
      · simpa [hanswers] using hlast
    | finished hnext =>
      refine .ended ?_ ?_
      · rw [hparts.trans (List.append_nil l.parts), hwaits]
        exact hnext
      · simp [hanswers]
    | fault e => exact absurd (by simp [hanswers]) (hf e)
    | panicked m => exact absurd rfl (hm m)
  | ended he hlast =>
    rw [Demux.next_terminated he.terminated] at hanswers hparts hwaits ⊢
    refine .ended ?_ ?_
    · rw [hparts.trans (List.append_nil l.parts), hwaits]
      exact he
    · rw [hanswers]
      exact List.mem_append_left _ hlast

theorem Driven.sorted {limits : Limits} {s : σ} {l : Ledger} {d : Demux (Watched σ)}
    (h : Driven limits (⟨s, []⟩ : Watched σ) l d) (hf : l.Faultless) : Sorted l d := by
  induction h with
  | start =>
    refine .running ⟨rfl, fun name => rfl, rfl, rfl, ?_⟩ ?_
    · exact List.not_mem_nil
    · exact List.not_mem_nil
  | request n _ ih =>
    cases ih hf with
    | running hr hlast => exact .running (hr.request n.toNat) hlast
    | ended he hlast =>
      rw [Demux.request_terminated he.terminated]
      exact .ended he hlast
  | poll _ hm ih =>
    exact (ih fun e he => hf e (List.mem_append_left _ he)).poll hm hf

/-- **Demultiplexing.** As long as no fault was reported, the parts delivered are those that the
fragments taken come to; the consumer was told to wait as often as the supply had nothing, and
reached the end if and only if the supply did. From then on nothing is kept and every poll gives the
end. -/
theorem demultiplexing {limits : Limits} {s : σ} {l : Ledger} {d : Demux σ}
    (h : Driven limits s l d) (hf : l.Faultless) :
    ∃ w : Demux (Watched σ), Driven limits ⟨s, []⟩ l w ∧ w.map Watched.source = d ∧
      l.parts = partsOf (takenOf w.source.calls) ∧
      l.answers.countP Outcome.isWaiting =
        (answersOf w.source.calls).countP Delivery.isWaiting ∧
      (.finished ∈ l.answers ↔ .finished ∈ answersOf w.source.calls) ∧
      (.finished ∈ l.answers → d.unfinished = [] ∧ d.next = (.finished, d)) := by
  obtain ⟨w, hw, rfl⟩ := h.watched
  refine ⟨w, hw, rfl, ?_⟩
  cases hw.sorted hf with
  | running hr hlast =>
    exact ⟨hr.given, hr.waits, ⟨fun hl => absurd hl hlast, fun hs => absurd hs hr.unfinished⟩,
      fun hl => absurd hl hlast⟩
  | ended he hlast =>
    exact ⟨he.given, he.waits, ⟨fun _ => he.finished, fun _ => hlast⟩,
      fun _ => ⟨he.empty, Demux.next_terminated he.terminated⟩⟩

/-- Two fields, one inside the other. -/
def interleaved : Demux Replay where
  source := .ofEvents
    [.fragment ⟨{ name := "a" }, { bytes := [1] }, false⟩,
      .fragment ⟨{ name := "b" }, { bytes := [2] }, true⟩,
      .fragment ⟨{ name := "a" }, { bytes := [3] }, true⟩] true false

theorem demultiplexing_interleaved :
    ∃ (l : Ledger) (d : Demux Replay) (w : Demux (Watched Replay)),
      Driven {} interleaved.source l d ∧ l.Faultless ∧ w.map Watched.source = d ∧
      partsOf (takenOf w.source.calls) = [⟨{ name := "b" }, [2]⟩, ⟨{ name := "a" }, [1, 3]⟩] ∧
      d.unfinished = [] ∧ d.next = (.finished, d) := by
  have hfirst : interleaved.next.1 = .part ⟨{ name := "b" }, [2]⟩ := by cbv
  have hsecond : interleaved.next.2.next.1 = .part ⟨{ name := "a" }, [1, 3]⟩ := by cbv
  have hthird : interleaved.next.2.next.2.next.1 = .finished := by cbv
  have hstart : Driven {} interleaved.source {} interleaved := .start
  have hdriven := ((hstart.poll (hfirst ▸ nofun)).poll (hsecond ▸ nofun)).poll (hthird ▸ nofun)
  have hanswers : (((Ledger.poll interleaved {}).poll interleaved.next.2).poll
      interleaved.next.2.next.2).answers =
      [.part ⟨{ name := "b" }, [2]⟩, .part ⟨{ name := "a" }, [1, 3]⟩, .finished] := by
    simp only [Ledger.poll, hfirst, hsecond, hthird]
    rfl
  have hfaultless : (((Ledger.poll interleaved {}).poll interleaved.next.2).poll
      interleaved.next.2.next.2).Faultless := by
    intro e
    rw [hanswers]
    simp
  obtain ⟨w, -, hw, hparts, -, -, hend⟩ := demultiplexing hdriven hfaultless
  refine ⟨_, _, w, hdriven, hfaultless, hw, ?_, hend (by rw [hanswers]; simp)⟩
  rw [← hparts, Ledger.parts, hanswers]
  rfl

end Exchange.Multipart
