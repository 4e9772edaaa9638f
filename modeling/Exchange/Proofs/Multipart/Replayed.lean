import Exchange.Multipart.Replay
import Exchange.Proofs.Multipart.Telling

/-!
What a replay has to tell.

A replay delivers the items among its events in sequence and completes behind them, so whoever reads
a replay is told the transcript of its items (`told_replayed`). The demand of a demultiplexer never
falls behind what its replay could deliver, so nothing but a pause keeps a consumer waiting
(`Alone.paused`), and polling comes to an end with the events (`Alone.ends`). Both together make the
schedule of requests, polls and pauses irrelevant (`schedule_irrelevant`).
-/
namespace Exchange.Multipart

/-- What a consumer can bring about from where its ledger and its demultiplexer are, by requests and
polls while nothing else happens. -/
abbrev Proceeds {σ : Type} [Supply σ] (l₀ : Ledger) (d₀ : Demux σ) (l : Ledger) (d : Demux σ) :
    Prop := Follows (fun e : Empty => e.elim) l₀ d₀ [] l d

/-- What a consumer can bring about that holds a fresh demultiplexer, while nothing else happens. -/
abbrev Alone {σ : Type} [Supply σ] (limits : Limits) (s : σ) : Ledger → Demux σ → Prop :=
  Attended (fun e : Empty => e.elim) limits s []

def Item.event : Item → Event
  | .ok f => .fragment f
  | .error e => .fault e

/-- The item that an event delivers. -/
def Event.item? : Event → Option Item
  | .pause => none
  | .fragment f => some (.ok f)
  | .fault e => some (.error e)

/-- The items among some events. -/
def itemsAmong (events : List Event) : List Item := events.filterMap Event.item?

theorem itemsAmong_events (items : List Item) : itemsAmong (items.map Item.event) = items := by
  induction items with
  | nil => rfl
  | cons i rest ih => cases i <;> exact congrArg (_ :: ·) ih

namespace Replay

/-- A replay of `items` and what it has delivered of them. -/
structure Conveys (items : List Item) (w : Watched Replay) : Prop where
  delivered : itemsOf w.calls ++ itemsAmong w.source.events <+: items
  left : .cancel ∉ w.calls → itemsOf w.calls ++ itemsAmong w.source.events = items
  completed : .finished ∈ answersOf w.calls → w.source.events = []

theorem Conveys.conveyed {items : List Item} {w : Watched Replay} (h : Conveys items w) :
    Conveyed items w.calls where
  delivered := (List.prefix_append ..).trans h.delivered
  completed hfinished hquiet := by
    have hleft := h.left hquiet
    rw [h.completed hfinished] at hleft
    exact .inl ((List.append_nil _).symm.trans hleft)

/-- A poll passes one item on at most. -/
theorem poll_items {r r' : Replay} {answer : Delivery} (h : r.poll = (answer, r')) :
    answer.item?.toList ++ itemsAmong r'.events = itemsAmong r.events ∧
      (answer = .finished → r'.events = []) ∧ (r.events = [] → r'.events = []) := by
  unfold poll at h
  split at h
  · next hnone =>
    obtain ⟨rfl, rfl⟩ := Prod.mk.inj h
    rw [hnone]
    split <;> exact ⟨rfl, fun _ => rfl, id⟩
  · next hevents =>
    obtain ⟨rfl, rfl⟩ := Prod.mk.inj h
    exact ⟨by rw [hevents]; rfl, nofun, fun hnone => by rw [hnone] at hevents; cases hevents⟩
  · next hevents =>
    obtain ⟨rfl, rfl⟩ := Prod.mk.inj h
    exact ⟨by rw [hevents]; rfl, nofun, fun hnone => by rw [hnone] at hevents; cases hevents⟩
  · next hevents =>
    split at h
    · obtain ⟨rfl, rfl⟩ := Prod.mk.inj h
      exact ⟨rfl, nofun, id⟩
    · obtain ⟨rfl, rfl⟩ := Prod.mk.inj h
      exact ⟨by rw [hevents]; rfl, nofun, fun hnone => by rw [hnone] at hevents; cases hevents⟩

theorem Conveys.poll {items : List Item} {w w' : Watched Replay} {answer : Delivery}
    (h : Conveys items w) (hp : Supply.poll w = (answer, w')) : Conveys items w' := by
  have hcalls := Watched.calls_poll hp
  have hpoll := Watched.faithful.poll w
  rw [hp] at hpoll
  obtain ⟨hitems, hlast, hempty⟩ := poll_items hpoll
  have hsame : itemsOf w'.calls ++ itemsAmong w'.source.events =
      itemsOf w.calls ++ itemsAmong w.source.events := by
    rw [hcalls, itemsOf_append, itemsOf_poll, List.append_assoc]
    exact congrArg (itemsOf w.calls ++ ·) hitems
  refine ⟨hsame ▸ h.delivered, fun hquiet => hsame.trans (h.left ?_), fun hfinished => ?_⟩
  · exact fun hmem => hquiet (hcalls ▸ List.mem_append_left _ hmem)
  · rw [hcalls, answersOf_append, List.mem_append] at hfinished
    rcases hfinished with hold | hnew
    · exact hempty (h.completed hold)
    · exact hlast (List.mem_singleton.mp hnew).symm

theorem conveys_kept (items : List Item) : Supply.Kept (Conveys items) where
  request n w h := by
    have hsame : itemsOf (w.calls ++ [.request n]) ++ itemsAmong w.source.events =
        itemsOf w.calls ++ itemsAmong w.source.events := by simp
    refine ⟨?_, fun hquiet => hsame.trans (h.left ?_), fun hfinished => h.completed ?_⟩
    · exact hsame ▸ h.delivered
    · exact fun hmem => hquiet (List.mem_append_left _ hmem)
    · simpa using hfinished
  cancel w h := by
    refine ⟨?_, fun hquiet => absurd (List.mem_append_right _ List.mem_cons_self) hquiet,
      fun _ => rfl⟩
    show itemsOf (w.calls ++ [.cancel]) ++ [] <+: items
    rw [itemsOf_append, itemsOf_cancel, List.append_nil, List.append_nil]
    exact (List.prefix_append ..).trans h.delivered
  fragment f w w' h hp := by
    obtain ⟨hdelivered, hleft, hcompleted⟩ := h.poll hp
    exact ⟨hdelivered, hleft, hcompleted⟩
  other answer w w' h hp _ := h.poll hp

end Replay

/-- Whoever reads a replay is told the transcript of its items. -/
theorem told_replayed {limits : Limits} {events : List Event} {complete eager : Bool} {l : Ledger}
    {d : Demux Replay} (h : Alone limits (Replay.ofEvents events complete eager) l d) :
    l.told <+: transcript limits (itemsAmong events) ∧
      (l.Over → l.told = transcript limits (itemsAmong events)) := by
  obtain ⟨w, hw, rfl⟩ := h.watched
  have hconveys : Replay.Conveys (itemsAmong events) w.source :=
    hw.kept (Replay.conveys_kept _) (fun e => e.elim) ⟨List.prefix_rfl, fun _ => rfl, nofun⟩
  exact hw.reported.told hconveys.conveyed

/-! ### Reading to the end -/

namespace Replay

/-- A replay of some items, which completes behind the last of them. -/
def ofItems (items : List Item) (eager : Bool) : Replay :=
  ofEvents (items.map Item.event) true eager

/-- A demultiplexer only takes events off the front of its replay, or lets all of them go. -/
theorem remains_kept (events : List Event) :
    Supply.Kept fun r : Replay => r.complete = true ∧ r.events <:+ events where
  request _ _ h := h
  cancel _ h := ⟨h.1, List.nil_suffix⟩
  fragment f r r' h hp := by
    obtain ⟨rest, he, rfl⟩ := poll_fragment hp
    exact ⟨h.1, (he ▸ List.suffix_cons (Event.fragment f) rest).trans h.2⟩
  other answer r r' h hp _ := by
    obtain ⟨hcomplete, hsuffix⟩ := h
    change r.poll = _ at hp
    unfold poll at hp
    split at hp
    · obtain ⟨-, rfl⟩ := Prod.mk.inj hp
      exact ⟨hcomplete, hsuffix⟩
    · next he =>
      obtain ⟨-, rfl⟩ := Prod.mk.inj hp
      exact ⟨hcomplete, (he ▸ List.suffix_cons ..).trans hsuffix⟩
    · next he =>
      obtain ⟨-, rfl⟩ := Prod.mk.inj hp
      exact ⟨hcomplete, (he ▸ List.suffix_cons ..).trans hsuffix⟩
    · next he =>
      split at hp
      · obtain ⟨-, rfl⟩ := Prod.mk.inj hp
        exact ⟨hcomplete, hsuffix⟩
      · obtain ⟨-, rfl⟩ := Prod.mk.inj hp
        exact ⟨hcomplete, (he ▸ List.suffix_cons ..).trans hsuffix⟩

/-- A complete replay makes its reader wait for a pause, or for want of credit. -/
theorem poll_waiting {r r' : Replay} (hcomplete : r.complete = true)
    (h : r.poll = (.waiting, r')) : r.events = .pause :: r'.events ∨ r'.credit = 0 := by
  unfold poll at h
  split at h
  · rw [hcomplete] at h
    cases h
  · next he =>
    obtain ⟨-, rfl⟩ := Prod.mk.inj h
    exact .inl he
  · cases h
  · split at h
    · next hheld =>
      obtain ⟨-, rfl⟩ := Prod.mk.inj h
      rw [Bool.and_eq_true, decide_eq_true_eq] at hheld
      exact .inr hheld.1
    · cases h

theorem poll_credit {r r' : Replay} {answer : Delivery} (h : r.poll = (answer, r'))
    (hnone : answer.fragment? = none) : r'.credit = r.credit := by
  unfold Replay.poll at h
  split at h
  · obtain ⟨-, rfl⟩ := Prod.mk.inj h
    rfl
  · obtain ⟨-, rfl⟩ := Prod.mk.inj h
    rfl
  · obtain ⟨-, rfl⟩ := Prod.mk.inj h
    rfl
  · split at h
    · obtain ⟨-, rfl⟩ := Prod.mk.inj h
      rfl
    · obtain ⟨rfl, -⟩ := Prod.mk.inj h
      cases hnone

/-- What is outstanding is covered by the credit, as far as it can be counted. -/
theorem credit_metered :
    Supply.Metered fun k (w : Watched Replay) => min k Count.top ≤ w.source.credit where
  request n k w h := by
    show min (k + n) Count.top ≤ Count.add w.source.credit n
    unfold Count.add
    omega
  fragment k f w w' hk h hp := by
    have hpoll := Watched.faithful.poll w
    rw [hp] at hpoll
    obtain ⟨rest, -, hnext⟩ := poll_fragment hpoll
    show min k Count.top ≤ w'.source.credit
    rw [hnext]
    dsimp only
    omega
  other k answer w w' h hp hnone := by
    have hpoll := Watched.faithful.poll w
    rw [hp] at hpoll
    rw [poll_credit hpoll hnone]
    exact h

end Replay

section

variable {limits : Limits} {events : List Event} {eager : Bool} {l : Ledger} {d : Demux Replay}

/-- A replay withholds nothing from a demultiplexer that has to wait: it came to a pause. -/
theorem Alone.paused (h : Alone limits (.ofEvents events true eager) l d) (hl : ¬ l.Over)
    (hwaits : d.next.1 = .waiting) :
    ∃ read, d.source.events = read ++ .pause :: d.next.2.source.events := by
  have hcomplete : d.source.complete = true :=
    (h.kept (Replay.remains_kept events) (fun e => e.elim) ⟨rfl, List.suffix_rfl⟩).1
  obtain ⟨r, ⟨hr, read, hread⟩, hpoll⟩ := (Replay.remains_kept d.source.events).poll_of_waiting
    ⟨hcomplete, List.suffix_rfl⟩ hwaits
  rcases Replay.poll_waiting hr hpoll with hpause | hbroke
  · exact ⟨read, by rw [← hread, hpause]⟩
  -- a part is owed, so there is credit
  · exfalso
    have hpolled : Alone limits (.ofEvents events true eager) (l.poll d) d.next.2 := Follows.poll h
    have howed := h.owed hl hwaits
    obtain ⟨hterm, hunbroken⟩ := hpolled.running (Ledger.poll_open hl (hwaits ▸ rfl))
    obtain ⟨w, hw, hsame⟩ := hpolled.watched
    rw [← hsame] at hbroke howed hterm
    obtain ⟨hin, hcredit⟩ := hw.metered Replay.credit_metered (Nat.zero_le _)
      (fun e => e.elim) hunbroken hterm
    have hmoving := hin.moving howed
    change w.source.source.credit = 0 at hbroke
    have htop : Count.top = 18446744073709551615 := rfl
    omega

/-- A poll behind which more is told leaves fewer events. -/
theorem Alone.shrinks (h : Alone limits (.ofEvents events true eager) l d) (hl : ¬ l.Over)
    (hgoes : d.next.1.ends = false) : d.next.2.source.events.length < d.source.events.length := by
  cases ho : d.next.1 with
  | waiting =>
    obtain ⟨read, hread⟩ := h.paused hl ho
    rw [hread, List.length_append, List.length_cons]
    omega
  | part p => exact Demux.ready_next ho
  | _ =>
    rw [ho] at hgoes
    cases hgoes

end

/-- A consumer's ledger and its demultiplexer after some more polls. -/
def polled {σ : Type} [Supply σ] : Nat → Ledger → Demux σ → Ledger × Demux σ
  | 0, l, d => (l, d)
  | n + 1, l, d => polled n (l.poll d) d.next.2

theorem proceeds_polled {σ : Type} [Supply σ] (n : Nat) (l : Ledger) (d : Demux σ) :
    Proceeds l d (polled n l d).1 (polled n l d).2 := by
  induction n generalizing l d with
  | zero => exact .start
  | succ n ih =>
    have hpoll : Proceeds l d (l.poll d) d.next.2 := Follows.poll .start
    exact hpoll.trans (ih _ _)

theorem over_polled {σ : Type} [Supply σ] {l : Ledger} (h : l.Over) (n : Nat) (d : Demux σ) :
    (polled n l d).1.Over := by
  induction n generalizing l d with
  | zero => exact h
  | succ n ih =>
    obtain ⟨o, ho, hends⟩ := h
    exact ih ⟨o, List.mem_append_left _ ho, hends⟩ _

section

variable {limits : Limits} {events : List Event} {eager : Bool} {l : Ledger} {d : Demux Replay}

/-- Polling a replay comes to an end with its events, whoever requested what before. -/
theorem Alone.ends (h : Alone limits (.ofEvents events true eager) l d) {n : Nat}
    (hn : d.source.events.length < n) : (polled n l d).1.Over := by
  induction n generalizing l d with
  | zero => cases hn
  | succ n ih =>
    by_cases hl : l.Over
    · exact over_polled hl _ _
    · cases hgoes : d.next.1.ends with
      | true => exact over_polled (Ledger.poll_over hgoes) _ _
      | false =>
        have hless := h.shrinks hl hgoes
        exact ih (Follows.poll h) (by omega)

/-- Reading a replay comes to an end. -/
theorem Alone.exists_over (h : Alone limits (.ofEvents events true eager) l d) :
    ∃ l' d', Proceeds l d l' d' ∧ l'.Over :=
  ⟨_, _, proceeds_polled _ l d, h.ends (Nat.lt_succ_self _)⟩

end

/-- **The schedule does not matter.** Two consumers read the same items under the same limits, from
replays that complete behind them. When they request how much and when they poll, where the replays
pause, and whether a replay keeps to its credit makes no difference to what they are told in the
end: the same parts and the same ending. A consumer that is left waiting met a pause, nothing being
withheld from it, and one more poll than there are events left brings it to the end. -/
theorem schedule_irrelevant {limits : Limits} {events events' : List Event} {eager eager' : Bool}
    (hitems : itemsAmong events = itemsAmong events') {l l' : Ledger} {d d' : Demux Replay}
    (h : Alone limits (.ofEvents events true eager) l d)
    (h' : Alone limits (.ofEvents events' true eager') l' d') :
    (l.Over → l'.Over → l.told = l'.told) ∧
      (¬ l.Over → d.next.1 = .waiting →
        ∃ read, d.source.events = read ++ .pause :: d.next.2.source.events) ∧
      (polled (d.source.events.length + 1) l d).1.Over := by
  refine ⟨fun hl hl' => ?_, h.paused, h.ends (Nat.lt_succ_self _)⟩
  rw [(told_replayed h).2 hl, (told_replayed h').2 hl', hitems]

/-- Two fields with pauses in between, behind which the connection breaks. -/
def halting : List Event :=
  [.pause, .fragment ⟨{ name := "a" }, { bytes := [1] }, false⟩, .pause,
    .fragment ⟨{ name := "b" }, { bytes := [2] }, true⟩,
    .fragment ⟨{ name := "a" }, { bytes := [3] }, true⟩, .fault (.supply "reset")]

/-- The same items without a pause. -/
def fluent : List Event := halting.filter fun e => e.item?.isSome

/-- Seven polls of a replay that keeps to its credit and pauses tell what a request for two parts
and five polls tell of one that does neither. -/
theorem schedule_irrelevant_halting :
    itemsAmong halting = itemsAmong fluent ∧
      ∃ (l l' : Ledger) (d d' : Demux Replay),
        Alone {} (.ofEvents halting true false) l d ∧
          Alone {} (.ofEvents fluent true true) l' d' ∧ l.Over ∧ l'.Over ∧
          l.told.length = 3 ∧ l.told = l'.told := by
  have hitems : itemsAmong halting = itemsAmong fluent := rfl
  have hstart : Alone {} (Replay.ofEvents halting true false) _ _ := Follows.start
  have hstart' : Alone {} (Replay.ofEvents fluent true true) _ _ := Follows.start.request 2
  have hrun := hstart.trans (proceeds_polled 7 _ _)
  have hrun' := hstart'.trans (proceeds_polled 5 _ _)
  have hover := hstart.ends (n := 7) (by decide)
  have hover' := hstart'.ends (n := 5) (by decide)
  exact ⟨hitems, _, _, _, _, hrun, hrun', hover, hover', by cbv,
    (schedule_irrelevant hitems hrun hrun').1 hover hover'⟩

end Exchange.Multipart
