import Exchange.Multipart.Replay
import Exchange.Proofs.Multipart.Attended
import Exchange.Proofs.Multipart.Inventory
import Mathlib

/-!
Every byte is accounted for.

A byte that a demultiplexer has received is in a part that it delivered or in a field that it keeps.
The books of this are `Stocked`: what is kept is kept under the name of its field, never empty and
within the limit of a part, all of it together is within the limit of the body, and the parts
delivered are counted. `bytes_accounted` says so of every demultiplexer that runs, whatever its
consumer did. A byte gets out of the books in one way only, by a poll that panics over it.
-/
namespace Exchange.Multipart

def Part.size (p : Part) : Nat := p.content.length

/-- The bytes of some parts. -/
def bytesOf (parts : List Part) : Nat := (parts.map Part.size).sum

@[simp] theorem bytesOf_append (a b : List Part) : bytesOf (a ++ b) = bytesOf a + bytesOf b := by
  simp [bytesOf]

/-- The bytes of some unfinished fields. -/
def bytesKept (unfinished : List (String × Assembly)) : Nat :=
  (unfinished.map (·.2.size)).sum

/-! ### Unfinished fields -/

/-- What is kept under a name and what is kept besides. -/
theorem bytesKept_without {xs : List (String × Assembly)} (h : (xs.map Prod.fst).Nodup)
    (name : String) :
    bytesKept xs =
      bytesKept (xs.filter (·.1 != name)) + ((xs.lookup name).map Assembly.size).getD 0 := by
  have hsum := ((values_perm h name).map Assembly.size).sum_eq
  rw [List.map_append, List.sum_append, List.map_map, List.map_map] at hsum
  have hone : ((xs.lookup name).toList.map Assembly.size).sum =
      ((xs.lookup name).map Assembly.size).getD 0 := by
    cases xs.lookup name <;> rfl
  rw [hone, Nat.add_comm] at hsum
  exact hsum

theorem mem_of_lookup {xs : List (String × Assembly)} {name : String} {a : Assembly}
    (h : xs.lookup name = some a) : (name, a) ∈ xs := by
  obtain ⟨front, back, rfl, -⟩ := List.lookup_eq_some_iff.mp h
  exact List.mem_append_right _ List.mem_cons_self

/-- An unfinished field that is kept as it should be. -/
structure WellKept (limits : Limits) (name : String) (a : Assembly) : Prop where
  name : a.field.name = name
  bears : a.content ≠ []
  limit : a.limit = limits.maxPart
  within : a.size ≤ limits.maxPart

/-! ### The books -/

variable {σ : Type} [Supply σ]

/-- The books of a demultiplexer that is held to some limits and delivered some parts. So many bytes
of those received are `lost`. -/
structure Stocked (limits : Limits) (given : List Part) (lost : Nat) (d : Demux σ) : Prop where
  held : d.limits = limits
  received : d.received = bytesOf given + bytesKept d.unfinished + lost
  within : d.received ≤ limits.maxBody
  names : (d.unfinished.map Prod.fst).Nodup
  sound : ∀ name a, (name, a) ∈ d.unfinished → WellKept limits name a
  completed : d.completed = given.length
  room : ∀ max, limits.maxParts = some max → d.completed ≤ max
  parts : ∀ p ∈ given, p.content ≠ [] ∧ p.size ≤ limits.maxPart

namespace Stocked

variable {limits : Limits} {given : List Part} {lost : Nat} {d d' : Demux σ}

omit [Supply σ] in
theorem start (limits : Limits) (s : σ) : Stocked limits [] 0 { source := s, limits } where
  held := rfl
  received := rfl
  within := Nat.zero_le _
  names := List.nodup_nil
  sound _ _ h := nomatch h
  completed := rfl
  room _ _ := Nat.zero_le _
  parts _ h := nomatch h

omit [Supply σ] in
/-- The books are about neither the supply nor the demand. -/
theorem besides (h : Stocked limits given lost d) (s : σ) (flow : Flow) :
    Stocked limits given lost { d with source := s, flow } :=
  ⟨h.held, h.received, h.within, h.names, h.sound, h.completed, h.room, h.parts⟩

/-- A payload goes to the field that it belongs to. -/
theorem store {field : Field} {data : Buffer} (h : Stocked limits given lost d)
    (hb : data.bytes ≠ []) (hstore : d.store field data = (.ok (), d')) :
    Stocked limits given lost d' := by
  obtain ⟨hbody, a, a', ha, ha', rfl⟩ := Demux.store_ok hstore
  obtain ⟨hsize, rfl⟩ := Demux.extend_ok ha'
  have hgrown : (a.content ++ data.bytes).length = a.size + data.size := List.length_append
  have hwithin : (a.content ++ data.bytes).length ≤ a.limit := hgrown ▸ hsize
  have hbears : a.content ++ data.bytes ≠ [] := by simp [hb]
  rw [h.held] at hbody
  -- what was kept of the field is what the payload is added to
  have hfield : WellKept limits field.name { a with content := a.content ++ data.bytes } ∧
      ((d.unfinished.lookup field.name).map Assembly.size).getD 0 = a.size := by
    rcases Demux.assemblyFor_ok ha with ⟨hnone, rfl⟩ | ⟨hkept, -⟩
    · rw [hnone]
      rw [h.held] at hwithin ⊢
      exact ⟨⟨rfl, hbears, rfl, hwithin⟩, rfl⟩
    · obtain ⟨hname, -, hlimit, -⟩ := h.sound _ _ (mem_of_lookup hkept)
      rw [hkept]
      exact ⟨⟨hname, hbears, hlimit, hlimit ▸ hwithin⟩, rfl⟩
  obtain ⟨hsound, hkept⟩ := hfield
  have hbooks := h.received
  rw [bytesKept_without h.names field.name, hkept] at hbooks
  refine ⟨h.held, ?_, hbody, ?_, fun name b hmem => ?_, h.completed, h.room, h.parts⟩
  · have hcons : bytesKept ((field.name, { a with content := a.content ++ data.bytes }) ::
        d.unfinished.filter (·.1 != field.name)) =
        a.size + data.size + bytesKept (d.unfinished.filter (·.1 != field.name)) := by
      simp [bytesKept, Assembly.size, Buffer.size]
    show d.received + data.size = _
    rw [hcons]
    omega
  · refine List.nodup_cons.mpr ⟨fun hmem => ?_, h.names.sublist (List.filter_sublist.map _)⟩
    obtain ⟨x, hx, hname⟩ := List.mem_map.mp hmem
    have hother := (List.mem_filter.mp hx).2
    exact bne_iff_ne.mp hother hname
  · rcases List.mem_cons.mp hmem with heq | hold
    · obtain ⟨rfl, rfl⟩ := Prod.mk.inj heq
      exact hsound
    · exact h.sound _ _ (List.mem_filter.mp hold).1

omit [Supply σ] in
/-- A part takes its bytes along. -/
theorem close {name : String} {part : Option Part} (h : Stocked limits given lost d)
    (hclose : d.close name = (.ok part, d')) : Stocked limits (given ++ part.toList) lost d' := by
  rcases Demux.close_ok hclose with ⟨-, rfl, rfl⟩ | ⟨a, flow, ha, hroom, -, rfl, rfl⟩
  · rw [Option.toList_none, List.append_nil]
    exact h
  · have hsound := h.sound _ _ (mem_of_lookup ha)
    have hbooks := h.received
    rw [bytesKept_without h.names name, ha, Option.map_some, Option.getD_some] at hbooks
    refine ⟨h.held, ?_, h.within, h.names.sublist (List.filter_sublist.map _),
      fun other b hmem => h.sound _ _ (List.mem_filter.mp hmem).1, ?_, fun max hmax => ?_,
      fun p hp => ?_⟩
    · have hpart : bytesOf [a.complete] = a.size := by
        simp [bytesOf, Part.size, Assembly.complete, Assembly.size]
      show d.received = bytesOf (given ++ [a.complete]) +
        bytesKept (d.unfinished.filter (·.1 != name)) + lost
      rw [bytesOf_append, hpart, hbooks]
      omega
    · show d.completed + 1 = _
      rw [h.completed, Option.toList_some, List.length_append, List.length_singleton]
    · rw [Limits.exhausted?, h.held, hmax, Option.filter_eq_none_iff] at hroom
      have hless := hroom max rfl
      rw [decide_eq_true_eq] at hless
      exact Nat.lt_of_not_le hless
    · rcases List.mem_append.mp hp with hold | hnew
      · exact h.parts p hold
      · rw [List.mem_singleton.mp hnew]
        exact ⟨hsound.bears, hsound.within⟩

theorem request (h : Stocked limits given lost d) (n : Nat) :
    Stocked limits given lost (d.request n) := by
  unfold Demux.request
  split
  · exact h
  · exact h.besides _ _

theorem accept {f : Fragment} {part : Option Part} (h : Stocked limits given lost d)
    (ha : d.accept f = (.ok part, d')) : Stocked limits (given ++ part.toList) lost d' := by
  obtain ⟨flow, d₁, -, hcombine, rfl⟩ := Demux.accept_combines ha
  obtain ⟨d₂, hstored, hclosed⟩ := Demux.combine_ok hcombine
  have hin : Stocked limits given lost d₂ := by
    rcases hstored with ⟨-, rfl⟩ | ⟨hb, hstore⟩
    · exact h.besides _ _
    · exact (h.besides _ _).store hb hstore
  refine Stocked.besides ?_ _ _
  rcases hclosed with ⟨-, hclose⟩ | ⟨-, rfl, rfl⟩
  · exact hin.close hclose
  · rw [Option.toList_none, List.append_nil]
    exact hin

/-- The bytes of a fragment over which a demultiplexer panics are lost. -/
theorem panicked {f : Fragment} {m : String} (h : Stocked limits given lost d)
    (ha : d.accept f = (.error (.panic m), d')) :
    Stocked limits given (lost + f.data.size) d' := by
  obtain ⟨flow, hbody, rfl⟩ := Demux.accept_panicked ha
  rw [h.held] at hbody
  refine ⟨h.held, ?_, hbody, h.names, h.sound, h.completed, h.room, h.parts⟩
  show d.received + f.data.size = _
  rw [h.received]
  exact Nat.add_assoc ..

/-! ### Polls -/

/-- The books after a poll, unless it ends the demultiplexer. -/
inductive Leaves (limits : Limits) (given : List Part) (lost : Nat) : Outcome → Demux σ → Prop where
  | waiting {d : Demux σ} : Stocked limits given lost d → Leaves limits given lost .waiting d
  | part {d : Demux σ} (p : Part) : Stocked limits (given ++ [p]) lost d →
      Leaves limits given lost (.part p) d
  | panicked {d : Demux σ} (m : String) (more : Nat) : Stocked limits given (lost + more) d →
      Leaves limits given lost (.panicked m) d
  | ended {d : Demux σ} {o : Outcome} : o.part? = none → d.terminated = true →
      Leaves limits given lost o d

theorem pull (h : Stocked limits given lost d) : Leaves limits given lost d.pull.1 d.pull.2 := by
  refine Demux.pull_rule (Stocked limits given lost) (Leaves limits given lost)
    ?_ ?_ ?_ ?_ ?_ ?_ ?_ d h
  · exact fun e s he _ => .waiting (he.besides s e.flow)
  · exact fun e fault s _ _ => .ended rfl rfl
  · exact fun e s _ _ => .ended rfl rfl
  · exact fun e f s fault e' _ _ _ => .ended rfl rfl
  · exact fun e f s m e' he _ ha => .panicked m f.data.size ((he.besides s e.flow).panicked ha)
  · exact fun e f s p e' he _ ha => .part p ((he.besides s e.flow).accept ha)
  · intro e f s e' he _ ha
    have hnext := (he.besides s e.flow).accept ha
    rw [Option.toList_none, List.append_nil] at hnext
    exact hnext

theorem next (h : Stocked limits given lost d) (ht : d.terminated = false) :
    Leaves limits given lost d.next.1 d.next.2 := by
  cases he : d.limits.enabled with
  | false =>
    rw [Demux.next_disabled ht he]
    exact .ended rfl rfl
  | true =>
    by_cases howed : d.flow.owed = 0
    · rw [Demux.next_idle ht he howed]
      exact (h.request 1).pull
    · rw [Demux.next_owed ht he howed]
      exact h.pull

end Stocked

/-! ### A consumer's calls -/

/-- What a use of a demultiplexer enters into its consumer's ledger. -/
def Ledger.enter (d : Demux σ) (l : Ledger) : Use → Ledger
  | .request n => l.request n
  | .poll => l.poll d
  | .cancel => l

/-- All that the consumer of a fresh demultiplexer can bring about. A poll that panicked counts like
any other. -/
inductive Handled (limits : Limits) (s : σ) : Ledger → Demux σ → Prop where
  | start : Handled limits s {} { source := s, limits }
  | use {l : Ledger} {d : Demux σ} (u : Use) : Handled limits s l d →
      Handled limits s (l.enter d u) (d.use u)

/-- A ledger beside the books of the demultiplexer it was kept of. -/
structure Audited (limits : Limits) (l : Ledger) (d : Demux σ) : Prop where
  running : d.terminated = false → ∃ lost, Stocked limits l.parts lost d ∧ (l.Unbroken → lost = 0)
  parts : ∀ p ∈ l.parts, p.content ≠ [] ∧ p.size ≤ limits.maxPart

namespace Audited

variable {limits : Limits} {l : Ledger} {d : Demux σ}

omit [Supply σ] in
theorem ended {l' : Ledger} (h : Audited limits l d) {d' : Demux σ} (ht : d'.terminated = true)
    (hparts : l'.parts = l.parts) : Audited limits l' d' :=
  ⟨fun hrun => absurd (hrun.symm.trans ht) (by decide), hparts ▸ h.parts⟩

omit [Supply σ] in
theorem stocked {lost : Nat} (h : Stocked limits l.parts lost d) (hlost : l.Unbroken → lost = 0) :
    Audited limits l d :=
  ⟨fun _ => ⟨lost, h, hlost⟩, h.parts⟩

theorem poll (h : Audited limits l d) : Audited limits (l.poll d) d.next.2 := by
  have hparts := l.parts_poll d
  have hanswers : (l.poll d).answers = l.answers ++ [d.next.1] := rfl
  have hunbroken : (l.poll d).Unbroken → l.Unbroken :=
    fun hl m hmem => hl m (List.mem_append_left _ hmem)
  cases ht : d.terminated with
  | true =>
    rw [Demux.next_terminated ht] at hparts ⊢
    exact h.ended ht (hparts.trans (List.append_nil _))
  | false =>
    obtain ⟨lost, hstocked, hlost⟩ := h.running ht
    have hleaves := hstocked.next ht
    generalize d.next = answer at *
    obtain ⟨o, d'⟩ := answer
    cases hleaves with
    | waiting hnext =>
      have hsame : (l.poll d).parts = l.parts := hparts.trans (List.append_nil _)
      exact .stocked (hsame ▸ hnext) fun hl => hlost (hunbroken hl)
    | part p hnext =>
      exact .stocked (hparts ▸ hnext) fun hl => hlost (hunbroken hl)
    | panicked m more hnext =>
      have hsame : (l.poll d).parts = l.parts := hparts.trans (List.append_nil _)
      refine .stocked (hsame ▸ hnext) fun hl => absurd ?_ (hl m)
      rw [hanswers]
      exact List.mem_append_right _ List.mem_cons_self
    | ended hnone hterm =>
      refine h.ended hterm (hparts.trans ?_)
      rw [hnone, Option.toList_none, List.append_nil]

theorem use (h : Audited limits l d) (u : Use) : Audited limits (l.enter d u) (d.use u) := by
  cases u with
  | request n =>
    cases ht : d.terminated with
    | true =>
      show Audited limits (l.request n) (d.request n.toNat)
      rw [Demux.request_terminated ht]
      exact h.ended ht rfl
    | false =>
      obtain ⟨lost, hstocked, hlost⟩ := h.running ht
      exact .stocked (hstocked.request n.toNat) hlost
  | poll => exact h.poll
  | cancel =>
    show Audited limits l d.cancel
    unfold Demux.cancel
    split
    · exact h
    · exact h.ended rfl rfl

end Audited

theorem Handled.audited {limits : Limits} {s : σ} {l : Ledger} {d : Demux σ}
    (h : Handled limits s l d) : Audited limits l d := by
  induction h with
  | start => exact .stocked (.start limits s) fun _ => rfl
  | use u _ ih => exact ih.use u

/-- **Bytes accounted for.** Whatever a consumer does with a demultiplexer, as long as the
demultiplexer runs the bytes received are those of the parts delivered and those of the unfinished
fields, unless a poll panicked, and within the limit of the body, and so the unfinished fields are,
too; what is kept under a name, and there is one thing at most, belongs to the field of that name,
is not empty and within the limit of a part; and the parts delivered are counted and within their
limit. Every part delivered at all is not empty and within the limit of a part. -/
theorem bytes_accounted {limits : Limits} {s : σ} {l : Ledger} {d : Demux σ}
    (h : Handled limits s l d) :
    (d.terminated = false →
      (l.Unbroken → d.received =
        (l.parts.map (·.content.length)).sum + (d.unfinished.map (·.2.size)).sum) ∧
      d.received ≤ limits.maxBody ∧ (d.unfinished.map (·.2.size)).sum ≤ limits.maxBody ∧
      (d.unfinished.map Prod.fst).Nodup ∧
      (∀ name a, (name, a) ∈ d.unfinished →
        a.field.name = name ∧ a.content ≠ [] ∧ a.size ≤ limits.maxPart) ∧
      d.completed = l.parts.length ∧ ∀ max, limits.maxParts = some max → d.completed ≤ max) ∧
      ∀ p ∈ l.parts, p.content ≠ [] ∧ p.content.length ≤ limits.maxPart := by
  refine ⟨fun ht => ?_, h.audited.parts⟩
  obtain ⟨lost, hstocked, hlost⟩ := h.audited.running ht
  have hbooks := hstocked.received
  have hkept : bytesKept d.unfinished ≤ limits.maxBody := by
    have hwithin := hstocked.within
    omega
  refine ⟨fun hl => ?_, hstocked.within, hkept, hstocked.names, fun name a hmem => ?_,
    hstocked.completed, hstocked.room⟩
  · rw [hlost hl] at hbooks
    exact hbooks
  · have hsound := hstocked.sound name a hmem
    exact ⟨hsound.name, hsound.bears, hsound.within⟩

/-- Limits that a body of four bytes in two fields of two bytes just meets. -/
def snug : Limits := { maxPart := 2, maxBody := 4, maxParts := some 2 }

/-- Such a body, of which nothing has been read. -/
def twoFields : Demux Replay where
  source := .ofEvents
    [.fragment ⟨{ name := "a" }, { bytes := [1] }, false⟩,
      .fragment ⟨{ name := "b" }, { bytes := [2, 3] }, true⟩,
      .fragment ⟨{ name := "a" }, { bytes := [4] }, true⟩] true false
  limits := snug

theorem bytes_accounted_twoFields :
    ∃ (l : Ledger) (d : Demux Replay), Handled snug twoFields.source l d ∧ d.terminated = false ∧
      l.Unbroken ∧ l.parts.length = 1 ∧ d.unfinished.length = 1 ∧
      d.received = (l.parts.map (·.content.length)).sum + (d.unfinished.map (·.2.size)).sum := by
  have hstart : Handled snug twoFields.source {} twoFields := .start
  have h := (hstart.use (.request 1)).use .poll
  have hanswer : (twoFields.use (.request 1)).next.1 = .part ⟨{ name := "b" }, [2, 3]⟩ := by cbv
  have hunbroken : Ledger.Unbroken
      ((Ledger.enter twoFields {} (.request 1)).enter (twoFields.use (.request 1)) .poll) := by
    intro m hm
    change Outcome.panicked m ∈ [(twoFields.use (.request 1)).next.1] at hm
    rw [hanswer, List.mem_singleton] at hm
    cases hm
  obtain ⟨hbooks, -⟩ := bytes_accounted h
  exact ⟨_, _, h, by cbv, hunbroken, by cbv, by cbv, (hbooks (by cbv)).1 hunbroken⟩

end Exchange.Multipart
