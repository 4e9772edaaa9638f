import Exchange.Proofs.Multipart.Driven
import Exchange.Proofs.Multipart.Upkeep

/-!
A demultiplexer in a world that goes on.

Between the calls of a consumer things happen to the supply: `Attended` is all that a consumer can
bring about by requests and polls while events change the supply, each in its way, and `Follows` is
the same from wherever things are. What the consumer is told are parts and, at last, how the body
ended (`Ledger.told`); answers behind the ending tell it nothing new. A poll that panics is such an
ending here, and whoever goes on regardless is not told more.
-/
namespace Exchange.Multipart

/-- An answer behind which no part follows. -/
def Outcome.ends : Outcome → Bool
  | .waiting | .part _ => false
  | .fault _ | .panicked _ | .finished => true

/-- The parts among some answers, up to the one that ends them, which is included. -/
def toldOf : List Outcome → List Outcome
  | [] => []
  | .waiting :: rest => toldOf rest
  | .part p :: rest => .part p :: toldOf rest
  | last :: _ => [last]

theorem toldOf_append_open {answers : List Outcome} (h : ¬ ∃ o ∈ answers, o.ends = true)
    (more : List Outcome) : toldOf (answers ++ more) = toldOf answers ++ toldOf more := by
  induction answers with
  | nil => rfl
  | cons o rest ih =>
    have hrest := ih fun ⟨o, ho, hends⟩ => h ⟨o, List.mem_cons_of_mem _ ho, hends⟩
    have ho : ¬ o.ends = true := fun hends => h ⟨o, List.mem_cons_self, hends⟩
    cases o with
    | waiting => exact hrest
    | part p => exact congrArg (Outcome.part p :: ·) hrest
    | _ => exact absurd rfl ho

theorem toldOf_append_over {answers : List Outcome} (h : ∃ o ∈ answers, o.ends = true)
    (more : List Outcome) : toldOf (answers ++ more) = toldOf answers := by
  induction answers with
  | nil =>
    obtain ⟨o, ho, -⟩ := h
    cases ho
  | cons o rest ih =>
    have hrest : o.ends = false → ∃ o ∈ rest, o.ends = true := by
      intro hopen
      obtain ⟨o', ho', hends⟩ := h
      rcases List.mem_cons.mp ho' with rfl | hmem
      · rw [hopen] at hends
        cases hends
      · exact ⟨o', hmem, hends⟩
    cases o with
    | waiting => exact ih (hrest rfl)
    | part p => exact congrArg (Outcome.part p :: ·) (ih (hrest rfl))
    | _ => rfl

namespace Ledger

/-- What the consumer was told. -/
def told (l : Ledger) : List Outcome := toldOf l.answers

/-- The consumer was told how the body ended. -/
def Over (l : Ledger) : Prop := ∃ o ∈ l.answers, o.ends = true

/-- No poll panicked. -/
def Unbroken (l : Ledger) : Prop := ∀ m, .panicked m ∉ l.answers

variable {σ : Type} [Supply σ] {d : Demux σ} {l : Ledger}

theorem poll_open (hl : ¬ l.Over) (hgoes : d.next.1.ends = false) : ¬ (l.poll d).Over := by
  rintro ⟨o, ho, hends⟩
  rcases List.mem_append.mp ho with hold | hnew
  · exact hl ⟨o, hold, hends⟩
  · rw [List.mem_singleton.mp hnew, hgoes] at hends
    cases hends

theorem poll_over (hends : d.next.1.ends = true) : (l.poll d).Over :=
  ⟨_, List.mem_append_right _ List.mem_cons_self, hends⟩

end Ledger

/-- What a consumer can bring about from where its ledger and its demultiplexer are, by requests and
polls while `act` says how events change the supply. The events are listed. -/
inductive Follows {σ ε : Type} [Supply σ] (act : ε → σ → σ) (l₀ : Ledger) (d₀ : Demux σ) :
    List ε → Ledger → Demux σ → Prop where
  | start : Follows act l₀ d₀ [] l₀ d₀
  | request {es : List ε} {l : Ledger} {d : Demux σ} (n : UInt64) : Follows act l₀ d₀ es l d →
      Follows act l₀ d₀ es (l.request n) (d.request n.toNat)
  | poll {es : List ε} {l : Ledger} {d : Demux σ} :
      Follows act l₀ d₀ es l d → Follows act l₀ d₀ es (l.poll d) d.next.2
  | happen {es : List ε} {l : Ledger} {d : Demux σ} (e : ε) : Follows act l₀ d₀ es l d →
      Follows act l₀ d₀ (es ++ [e]) l { d with source := act e d.source }

/-- What a consumer can bring about that holds a fresh demultiplexer. -/
abbrev Attended {σ ε : Type} [Supply σ] (act : ε → σ → σ) (limits : Limits) (s : σ) :
    List ε → Ledger → Demux σ → Prop := Follows act {} { source := s, limits }

theorem Follows.trans {σ ε : Type} [Supply σ] {act : ε → σ → σ} {l₀ l l' : Ledger}
    {d₀ d d' : Demux σ} {es more : List ε} (h : Follows act l₀ d₀ es l d)
    (h' : Follows act l d more l' d') : Follows act l₀ d₀ (es ++ more) l' d' := by
  induction h' with
  | start => exact (List.append_nil es).symm ▸ h
  | request n _ ih => exact ih.request n
  | poll _ ih => exact ih.poll
  | happen e _ ih => exact List.append_assoc .. ▸ ih.happen e

/-- What neither a demultiplexer nor an event breaks stays true of the supply. -/
theorem Follows.kept {σ ε : Type} [Supply σ] {act : ε → σ → σ} {l₀ l : Ledger} {d₀ d : Demux σ}
    {es : List ε} {keeps : σ → Prop} (hkept : Supply.Kept keeps)
    (hact : ∀ e s, keeps s → keeps (act e s)) (h : Follows act l₀ d₀ es l d)
    (hstart : keeps d₀.source) : keeps d.source := by
  induction h with
  | start => exact hstart
  | request n _ ih => exact hkept.demand n.toNat ih
  | poll _ ih => exact hkept.next ih
  | happen e _ ih => exact hact e _ ih

/-- What happens to a watched supply is no call. -/
def Watched.happen {σ ε : Type} (act : ε → σ → σ) (e : ε) (w : Watched σ) : Watched σ :=
  { w with source := act e w.source }

/-- What a consumer brings about, it brings about over a watched supply as well. -/
theorem Attended.watched {σ ε : Type} [Supply σ] {act : ε → σ → σ} {limits : Limits} {s : σ}
    {es : List ε} {l : Ledger} {d : Demux σ} (h : Attended act limits s es l d) :
    ∃ w : Demux (Watched σ), Attended (Watched.happen act) limits ⟨s, []⟩ es l w ∧
      w.map Watched.source = d := by
  induction h with
  | start => exact ⟨{ source := ⟨s, []⟩, limits }, .start, rfl⟩
  | request n _ ih =>
    obtain ⟨w, hw, rfl⟩ := ih
    exact ⟨w.request n.toNat, .request n hw, Demux.map_request Watched.faithful _ w⟩
  | poll _ ih =>
    obtain ⟨w, hw, rfl⟩ := ih
    rw [Demux.map_next Watched.faithful w, Ledger.poll_map Watched.faithful]
    exact ⟨w.next.2, .poll hw, rfl⟩
  | happen e _ ih =>
    obtain ⟨w, hw, rfl⟩ := ih
    exact ⟨_, .happen e hw, rfl⟩

end Exchange.Multipart
