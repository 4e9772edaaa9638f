import Exchange.Pipeline.Lineup
import Exchange.Proofs.Pipeline.Legs
import Exchange.Proofs.Pipeline.Selection

/-!
Line-ups without their hops.

A `Post` is a stage as it is called, with what it can see of its surroundings: its index, how many
stages are below, its pool. The stages of a line-up have posts once every hop is taken off and
whatever is skipped is left out (`posts`). A run in which nothing panics calls just those
(`runFrom_posts`).
-/
namespace Exchange.Pipeline

open Http (Request Response)

variable {σ W : Type}

/-! ### Taking hops off -/

namespace Stage

/-- The stage that hops move, without them. -/
def core : Stage σ W → Stage σ W
  | hop inner _ => inner.core
  | stage => stage

/-- The stage is skipped. -/
def idles : Stage σ W → Bool
  | around _ _ enabled _ => !enabled
  | hop inner _ => inner.idles
  | _ => false

@[simp] theorem isTerminal_core (stage : Stage σ W) : stage.core.isTerminal = stage.isTerminal := by
  induction stage with
  | hop inner _ ih => exact ih
  | _ => rfl

end Stage

/-- Stages without hops, and without those that are skipped. -/
def bareStages (stages : List (Stage σ W)) : List (Stage σ W) :=
  (stages.filter fun stage => !stage.idles).map Stage.core

namespace Lineup

/-- The line-up without hops, and without the stages that are skipped. -/
def bare (p : Lineup σ W) : Lineup σ W := ⟨bareStages p.stages⟩

/-- The line-up with its stages marked by their positions. -/
def marked (p : Lineup σ W) : Lineup σ (Logged W) := ⟨markedList p.stages⟩

theorem plain_marked (p : Lineup σ W) (s : State σ W) :
    plainly (p.marked.execute s.logged) = p.execute s := by
  unfold marked execute markedList
  rw [plain_runFrom, List.zipIdx_map_fst]
  rfl

end Lineup

/-! ### Posts -/

/-- Nothing on record panics. -/
def Calm (log : List Mark) : Prop := ∀ m ∈ log, m.panics = false

theorem Calm.front {front back : List Mark} (h : Calm (front ++ back)) : Calm front :=
  fun m hm => h m (List.mem_append_left _ hm)

theorem Records.calm {leaves : List Mark → Except Failure Response → Prop}
    {s : State σ (Logged W)} {x : Ending Failure Response × State σ (Logged W)}
    (h : Records leaves s x) (hcalm : Calm x.2.log) : ∃ result, x.1 = .ofExcept result := by
  obtain ⟨marks, hlog, ⟨m, hm, hp⟩ | ⟨result, hresult, -⟩⟩ := h
  · have hquiet := hcalm m (hlog ▸ List.mem_append_right _ hm)
    rw [hp] at hquiet
    cases hquiet
  · exact ⟨result, hresult⟩

namespace Stage

variable {label index remaining : Nat} {rest rest' : Walk σ (Logged W)}

end Stage

end Exchange.Pipeline
