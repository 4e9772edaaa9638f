import Exchange.Proofs.Multipart.Conduit.Ending
import Exchange.Proofs.Multipart.Replayed

/-!
A pumped conduit in place of the body.

Whether a demultiplexer reads a body through a pumped conduit or has all of its items at hand makes
no difference to its consumer: both are told the transcript of the items, the one of them possibly
later (`conduit_refines`).
-/
namespace Exchange.Multipart

open Conduit (Streams)

section

variable {limits : Limits} {capacity : Nat} {items : List Item} {eager : Bool}
  {es : List Conduit.Far} {l : Ledger}

/-- Whoever reads a body through a pumped conduit is told its transcript. -/
theorem told_pumped {d : Demux Conduit} (h : Attended Conduit.far limits (.pumped capacity) es l d)
    (hes : Streams items es) :
    l.told <+: transcript limits items ∧ (l.Over → l.told = transcript limits items) := by
  obtain ⟨w, hw, rfl⟩ := h.watched
  exact hw.reported.told ((Conduit.conveys_attended hw hes).conveyed hes.fed)

/-- Whoever reads a replay of a body is told its transcript. -/
theorem told_ofItems {d : Demux Replay} (h : Alone limits (.ofItems items eager) l d)
    (hl : l.Over) : l.told = transcript limits items := by
  have htold := (told_replayed h).2 hl
  rwa [itemsAmong_events] at htold

end

/-- **The conduit refines the replay.** Let a demultiplexer read a body through a pumped conduit of
any capacity, while the connection reads the body, the pump makes its steps, and the consumer
requests and polls, in any sequence. At each moment its consumer has been told the beginning of what
a demultiplexer over a replay of the same items tells in the end, and when it was told how the body
ended it has been told just that. Both can be brought to this end from wherever they are. -/
theorem conduit_refines (limits : Limits) (capacity : Nat) (items : List Item) (eager : Bool)
    {es : List Conduit.Far} {l l' : Ledger} {d : Demux Conduit} {d' : Demux Replay}
    (h : Attended Conduit.far limits (.pumped capacity) es l d) (hes : Streams items es)
    (h' : Alone limits (.ofItems items eager) l' d') :
    (l'.Over → l.told <+: l'.told ∧ (l.Over → l.told = l'.told)) ∧
      (∃ more lₑ dₑ, Follows Conduit.far l d more lₑ dₑ ∧ Streams items (es ++ more) ∧ lₑ.Over) ∧
      ∃ lₑ dₑ, Proceeds l' d' lₑ dₑ ∧ lₑ.Over := by
  refine ⟨fun hl' => ?_, h.exists_over hes, Alone.exists_over h'⟩
  rw [told_ofItems h' hl']
  exact told_pumped h hes

/-- A part, behind which the connection breaks. -/
def cutOff : List Item := [.ok ⟨{ name := "a" }, { bytes := [1] }, true⟩, .error (.supply "reset")]

/-- What the connection has read of it, and what the pump did. -/
def partRead : List Conduit.Far :=
  [.feed (.ok ⟨{ name := "a" }, { bytes := [1] }, true⟩), .pump, .pump]

/-- A demultiplexer that is owed a part then, and one that has all of it at hand. -/
def ahead : Demux Conduit :=
  partRead.foldl (fun d e => { d with source := Conduit.far e d.source })
    (Demux.request 1 { source := .pumped 0 })

def atHand : Demux Replay := { source := .ofItems cutOff false }

theorem streams_partRead : Streams cutOff partRead := by
  refine ⟨⟨[.error (.supply "reset")], rfl⟩, fun before after hes => ?_⟩
  have hmem : Conduit.Far.finish ∈ partRead := by
    rw [hes]
    exact List.mem_append_right _ List.mem_cons_self
  simp [partRead] at hmem

theorem conduit_refines_cutOff :
    ∃ (l l' : Ledger) (d : Demux Conduit) (d' : Demux Replay),
      Attended Conduit.far {} (.pumped 0) partRead l d ∧ Streams cutOff partRead ∧
        Alone {} atHand.source l' d' ∧ l'.Over ∧ l.told.length = 1 ∧ l.told <+: l'.told := by
  have hread : Attended Conduit.far {} (.pumped 0) partRead (Ledger.request 1 {}) ahead :=
    (((Follows.start.request 1).happen
      (Conduit.Far.feed (.ok ⟨{ name := "a" }, { bytes := [1] }, true⟩))).happen
      Conduit.Far.pump).happen Conduit.Far.pump
  have htold : Attended Conduit.far {} (.pumped 0) partRead _ ahead.next.2 := hread.poll
  have hreplay : Alone {} atHand.source _ atHand.next.2.next.2 := Follows.start.poll.poll
  have hover := Ledger.poll_over (l := .poll atHand {}) (d := atHand.next.2) (by cbv)
  exact ⟨_, _, _, _, htold, streams_partRead, hreplay, hover, by cbv,
    ((conduit_refines {} 0 cutOff false htold streams_partRead hreplay).1 hover).1⟩

end Exchange.Multipart
