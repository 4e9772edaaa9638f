import Exchange.Multipart.Assembly
import Exchange.Proofs.Multipart.Inventory
import Mathlib

/-!
What becomes of the buffers that are appended to an assembly.

A `Filling` is an assembly whose appends are on record, over the pool that the buffers go back to.
An append takes all of a buffer or none of it (`append_of_le`, `append_of_lt`), and the buffer goes
back either way. So whatever was appended, the content is what was taken, in sequence, and the pool
has every buffer back once (`Fitted`). `appends_atomic` puts this together, with what the next
append will do and what the complete part will be.
-/
namespace Exchange.Multipart

/-- An assembly, the pool of its buffers, and what its appends have answered. -/
structure Filling (π : Type) where
  assembly : Assembly
  pool : π
  /-- every buffer appended so far, with the fault if it was refused -/
  log : List (Buffer × Option Fault) := []

namespace Filling

variable {π : Type} [Pool π]

/-- Appends a buffer. If it is refused, the assembly is the one there was. -/
def append (b : Buffer) (s : Filling π) : Filling π :=
  match s.assembly.append b s.pool with
  | (.ok assembly, pool) => ⟨assembly, pool, s.log ++ [(b, none)]⟩
  | (.error e, pool) => ⟨s.assembly, pool, s.log ++ [(b, some e)]⟩

/-- Appends buffers one after another. -/
def run (s : Filling π) (bs : List Buffer) : Filling π := bs.foldl (fun s b => s.append b) s

/-- An assembly to which nothing was appended. -/
def start (field : Field) (limit : Nat) (pool : π) : Filling π := ⟨⟨field, limit, []⟩, pool, []⟩

/-- The buffers that were not refused, in sequence. -/
def taken (s : Filling π) : List Buffer := (s.log.filter (·.2.isNone)).map Prod.fst

/-! ### One buffer -/

variable {s : Filling π} {b : Buffer}

theorem append_of_le (h : s.assembly.size + b.size ≤ s.assembly.limit) :
    s.append b = ⟨{ s.assembly with content := s.assembly.content ++ b.bytes },
      Pool.giveBack b s.pool, s.log ++ [(b, none)]⟩ := by
  rw [append, Assembly.append, Assembly.extend_of_le h]

theorem append_of_lt (h : s.assembly.limit < s.assembly.size + b.size) :
    s.append b = ⟨s.assembly, Pool.giveBack b s.pool,
      s.log ++ [(b, some (.partTooLarge s.assembly.field.name (s.assembly.size + b.size)
        s.assembly.limit))]⟩ := by
  rw [append, Assembly.append, Assembly.extend_of_lt h]
  rfl

theorem taken_append_of_le (h : s.assembly.size + b.size ≤ s.assembly.limit) :
    (s.append b).taken = s.taken ++ [b] := by
  rw [append_of_le h, taken, taken, List.filter_append, List.map_append]
  rfl

theorem taken_append_of_lt (h : s.assembly.limit < s.assembly.size + b.size) :
    (s.append b).taken = s.taken := by
  rw [append_of_lt h, taken, taken, List.filter_append, List.map_append]
  exact List.append_nil _

theorem run_concat (bs : List Buffer) : s.run (bs ++ [b]) = (s.run bs).append b :=
  List.foldl_concat ..

theorem isOk_append (a : Assembly) (b : Buffer) (pool : π) :
    (a.append b pool).1.isOk = true ↔ a.size + b.size ≤ a.limit := by
  rw [Assembly.append]
  rcases Nat.lt_or_ge a.limit (a.size + b.size) with hlarge | hfits
  · rw [Assembly.extend_of_lt hlarge]
    exact iff_of_false Bool.false_ne_true (Nat.not_le.mpr hlarge)
  · rw [Assembly.extend_of_le hfits]
    exact iff_of_true rfl hfits

/-! ### Many buffers -/

/-- A filling to which `bs` were appended, all of them over a pool that was `pool` before. -/
structure Fitted (field : Field) (limit : Nat) (pool : π) (bs : List Buffer) (s : Filling π) :
    Prop where
  sameField : s.assembly.field = field
  sameLimit : s.assembly.limit = limit
  logged : s.log.map Prod.fst = bs
  content : s.assembly.content = s.taken.flatMap Buffer.bytes
  within : s.assembly.size ≤ limit
  returned : s.pool = bs.foldl (fun pool b => Pool.giveBack b pool) pool

namespace Fitted

variable {field : Field} {limit : Nat} {pool : π} {bs : List Buffer}

theorem start (field : Field) (limit : Nat) (pool : π) :
    Fitted field limit pool [] (.start field limit pool) where
  sameField := rfl
  sameLimit := rfl
  logged := rfl
  content := rfl
  within := Nat.zero_le _
  returned := rfl

theorem append (h : Fitted field limit pool bs s) (b : Buffer) :
    Fitted field limit pool (bs ++ [b]) (s.append b) := by
  obtain ⟨hfield, hlimit, hlogged, hcontent, hwithin, hreturned⟩ := h
  have hback : Pool.giveBack b s.pool =
      (bs ++ [b]).foldl (fun pool b => Pool.giveBack b pool) pool := by
    rw [List.foldl_concat, hreturned]
  have hlog : ∀ refusal : Option Fault, (s.log ++ [(b, refusal)]).map Prod.fst = bs ++ [b] := by
    intro refusal
    rw [List.map_append, hlogged]
    rfl
  rcases Nat.lt_or_ge s.assembly.limit (s.assembly.size + b.size) with hlarge | hfits
  · have htaken := taken_append_of_lt hlarge
    rw [append_of_lt hlarge] at htaken ⊢
    exact ⟨hfield, hlimit, hlog _, by rw [htaken, hcontent], hwithin, hback⟩
  · have htaken := taken_append_of_le hfits
    rw [append_of_le hfits] at htaken ⊢
    refine ⟨hfield, hlimit, hlog _, ?_, ?_, hback⟩
    · rw [htaken, hcontent, List.flatMap_append, List.flatMap_singleton]
    · rw [← hlimit]
      exact List.length_append.trans_le hfits

theorem run (bs : List Buffer) (field : Field) (limit : Nat) (pool : π) :
    Fitted field limit pool bs ((Filling.start field limit pool).run bs) := by
  induction bs using List.reverseRecOn with
  | nil => exact .start field limit pool
  | append_singleton bs b ih =>
    rw [run_concat]
    exact ih.append b

/-- The content is no longer than all that was appended. -/
theorem size_le (h : Fitted field limit pool bs s) :
    s.assembly.size ≤ (bs.map Buffer.size).sum := by
  have hsize : s.assembly.size = (s.taken.map Buffer.size).sum := by
    rw [Assembly.size, h.content, List.length_flatMap]
    rfl
  have htaken : s.taken.Sublist bs := by
    rw [← h.logged]
    exact List.filter_sublist.map _
  rw [hsize]
  exact (htaken.map _).sum_le_sum fun _ _ => Nat.zero_le _

end Fitted

end Filling

/-- **Appends are atomic.** Whatever was appended to an assembly that started empty, its field is
the one it started with, its content is what was taken, in sequence and within the limit, and every
buffer went back once to the pool, whatever the pool. One more buffer is taken exactly if its bytes
fit behind the content. If they do not, the assembly stays as it is and the fault tells the size
there would have been, never more than all that was appended, and the limit. Either way an account
that owes the buffer has it back, once, and owes all others as before. If the part is completed
instead, it has that field and that content. -/
theorem appends_atomic {π : Type} [Pool π] (field : Field) (limit : Nat) (pool : π)
    (bs : List Buffer) (b : Buffer) :
    let s := (Filling.start field limit pool).run bs
    let a := s.assembly
    s.log.map Prod.fst = bs ∧ a.field = field ∧ a.content = s.taken.flatMap Buffer.bytes ∧
      a.content.length ≤ limit ∧
      s.pool = bs.foldl (fun pool b => Pool.giveBack b pool) pool ∧
      ((a.append b s.pool).1.isOk = true ↔ a.content.length + b.bytes.length ≤ limit) ∧
      (a.content.length + b.bytes.length ≤ limit →
        (s.append b).assembly = { a with content := a.content ++ b.bytes } ∧
        (s.append b).log = s.log ++ [(b, none)]) ∧
      (limit < a.content.length + b.bytes.length → (s.append b).assembly = a ∧
        (s.append b).log = s.log ++
          [(b, some (.partTooLarge field.name (a.content.length + b.bytes.length) limit))]) ∧
      a.content.length + b.bytes.length ≤ ((bs ++ [b]).map Buffer.size).sum ∧
      (∀ (t : Tally) (brought returned held : List Buffer),
        Inventory brought returned (b :: held) t →
          Inventory brought (b :: returned) held (a.append b t).2) ∧
      a.complete = ⟨field, s.taken.flatMap Buffer.bytes⟩ := by
  intro s a
  have hfitted : Filling.Fitted field limit pool bs s := .run bs field limit pool
  have hfield : a.field = field := hfitted.sameField
  have hlimit : a.limit = limit := hfitted.sameLimit
  have hcontent : a.content = s.taken.flatMap Buffer.bytes := hfitted.content
  have hexact : (a.append b s.pool).1.isOk = true ↔ a.content.length + b.bytes.length ≤ limit := by
    rw [← hlimit]
    exact Filling.isOk_append ..
  refine ⟨hfitted.logged, hfield, hcontent, hfitted.within, hfitted.returned, hexact,
    fun hfits => ?_, fun hlarge => ?_, ?_, fun t brought returned held h => h.release, ?_⟩
  · rw [Filling.append_of_le (hlimit.symm ▸ hfits)]
    exact ⟨rfl, rfl⟩
  · rw [Filling.append_of_lt (hlimit.symm ▸ hlarge), ← hfield, ← hlimit]
    exact ⟨rfl, rfl⟩
  · rw [List.map_append, List.sum_append, List.map_singleton, List.sum_singleton]
    exact Nat.add_le_add_right hfitted.size_le _
  · rw [Assembly.complete, hfield, hcontent]

/-- A field of an image. -/
def picture : Field := ⟨"picture", .file "a.png" { essence := "image/png" }⟩

/-- Three buffers of an account, the last of which is not counted. With six bytes at most, the
second does not fit behind the first, but the third does. -/
def pictured : List Buffer := [⟨[1, 2, 3, 4], true⟩, ⟨[5, 6, 7, 8], true⟩, ⟨[9], false⟩]

def picturedTally : Tally := pictured.foldl (fun t b => t.acquire b) {}

theorem appends_atomic_pictured :
    let start := Filling.start picture 6 picturedTally
    let first := start.run [⟨[1, 2, 3, 4], true⟩]
    let s := start.run pictured
    let b : Buffer := ⟨[10], true⟩
    6 < first.assembly.content.length + 4 ∧
      (first.append ⟨[5, 6, 7, 8], true⟩).log = first.log ++
        [(⟨[5, 6, 7, 8], true⟩, some (.partTooLarge "picture" 8 6))] ∧
      s.assembly.content.length + 1 ≤ 6 ∧
      (s.append b).log = s.log ++ [(b, none)] ∧
      (s.append b).taken = [⟨[1, 2, 3, 4], true⟩, ⟨[9], false⟩, b] ∧
      s.pool.acquired = 2 ∧ s.pool.released = 2 ∧
      Inventory [b] [] [b] (Tally.acquire b {}) ∧
      Inventory [b] [b] [] (s.assembly.append b (Tally.acquire b {})).2 := by
  intro start first s b
  have hlarge : 6 < first.assembly.content.length + 4 := by decide
  have hfits : s.assembly.content.length + 1 ≤ 6 := by decide
  have howed : Inventory [b] [] [b] (Tally.acquire b {}) := Inventory.start.acquire b
  obtain ⟨-, -, -, -, -, -, -, hrefused, -⟩ := appends_atomic picture 6
    picturedTally [⟨[1, 2, 3, 4], true⟩] ⟨[5, 6, 7, 8], true⟩
  obtain ⟨-, -, -, -, -, -, htaken, -, -, hback, -⟩ := appends_atomic picture 6
    picturedTally pictured b
  exact ⟨hlarge, (hrefused hlarge).2, hfits, (htaken hfits).2, by decide, by decide, by decide,
    howed, hback _ _ _ _ howed⟩

end Exchange.Multipart
