import Exchange.Multipart.Demux

/-!
What one fragment does to a demultiplexer, and what one poll does.

`accept_ok` says everything about a fragment that is taken in: the field it belongs to grows by its
payload (`Grows`), a final fragment completes what is kept under its name, and nothing else moves
but the counters. `accept_refused` says why a fragment is refused while demand is left. `pull_rule`
turns such facts into facts about a whole poll: what every fragment keeps holds whenever the supply
is asked, and an answer comes from the last thing that the supply delivered.
-/
namespace Exchange.Multipart

/-- What is kept of a field before and after a payload of it. -/
inductive Grows (limit : Nat) (f : Fragment) : Option Assembly → Option Assembly → Prop where
  | empty (kept : Option Assembly) : f.data.bytes = [] → Grows limit f kept kept
  | first : f.data.bytes ≠ [] → f.data.size ≤ limit →
      Grows limit f none (some ⟨f.field, limit, f.data.bytes⟩)
  | more (a : Assembly) : f.data.bytes ≠ [] → a.field.same? f.field = .ok true →
      a.size + f.data.size ≤ a.limit →
      Grows limit f (some a) (some { a with content := a.content ++ f.data.bytes })

namespace Demux

variable {σ : Type} [Supply σ]

/-! ### Fields by name -/

theorem lookup_cons_name (key name : String) (a : Assembly) (xs : List (String × Assembly)) :
    ((key, a) :: xs).lookup name = if name = key then some a else xs.lookup name := by
  rw [List.lookup_cons]
  by_cases h : name = key
  · simp [h]
  · simp [h, beq_eq_false_iff_ne.mpr h]

theorem lookup_without (xs : List (String × Assembly)) (name other : String) :
    (xs.filter (·.1 != name)).lookup other = if other = name then none else xs.lookup other := by
  induction xs with
  | nil => simp
  | cons x rest ih =>
    obtain ⟨key, a⟩ := x
    by_cases hk : key = name
    · subst hk
      rw [List.filter_cons_of_neg (by simp), ih, lookup_cons_name]
      by_cases ho : other = key
      · rw [if_pos ho, if_pos ho]
      · rw [if_neg ho, if_neg ho, if_neg ho]
    · rw [List.filter_cons_of_pos (by simpa using hk), lookup_cons_name, lookup_cons_name, ih]
      by_cases ho : other = key
      · rw [if_pos ho, if_pos ho, if_neg (by rw [ho]; exact hk)]
      · rw [if_neg ho, if_neg ho]

omit [Supply σ] in
theorem lookup_keep (name other : String) (a : Assembly) (d : Demux σ) :
    (d.keep name a).unfinished.lookup other =
      if other = name then some a else d.unfinished.lookup other := by
  unfold keep
  rw [lookup_cons_name, lookup_without]
  by_cases ho : other = name
  · rw [if_pos ho, if_pos ho]
  · rw [if_neg ho, if_neg ho, if_neg ho]

/-! ### A fragment that is taken in -/

/-- A demultiplexer before and after a fragment it took in, up to the request for the next one.
`grown` is what was kept of the field when the fragment's payload was in. -/
structure Combined (f : Fragment) (d : Demux σ) (part : Option Part) (grown : Option Assembly)
    (d' : Demux σ) : Prop where
  grows : Grows d.limits.maxPart f (d.unfinished.lookup f.field.name) grown
  completes : part = if f.final then grown.map Assembly.complete else none
  unfinished : ∀ name, d'.unfinished.lookup name =
    if name = f.field.name then (if f.final then none else grown)
    else d.unfinished.lookup name
  flow : part = none → d'.flow = d.flow
  delivered : part ≠ none → d.flow.deliver? = some d'.flow
  source : d'.source = Pool.giveBack f.data d.source
  limits : d'.limits = d.limits
  terminated : d'.terminated = d.terminated

/-- A payload that is stored: the body admits it, its field grows, and nothing but the count of
bytes changes besides. -/
theorem store_ok {field : Field} {data : Buffer} {d d' : Demux σ}
    (h : d.store field data = (.ok (), d')) :
    d.received + data.size ≤ d.limits.maxBody ∧
      ∃ a a', d.assemblyFor field = .ok a ∧ a.extend data.bytes = .ok a' ∧
        d' = { d with
          received := d.received + data.size
          source := Pool.giveBack data d.source
          unfinished := (field.name, a') :: d.unfinished.filter (·.1 != field.name) } := by
  unfold store at h
  dsimp only at h
  split at h
  · cases h
  · next hbody =>
    split at h
    · cases h
    · next a ha =>
      dsimp only [Assembly.append] at h
      split at h
      · cases h
      · next a' ha' =>
        cases h
        exact ⟨Nat.not_lt.mp hbody, a, a', ha, ha', rfl⟩

omit [Supply σ] in
/-- The assembly for a field is the one kept under its name, of the same field, or a new one. -/
theorem assemblyFor_ok {field : Field} {d : Demux σ} {a : Assembly}
    (h : d.assemblyFor field = .ok a) :
    (d.unfinished.lookup field.name = none ∧ a = ⟨field, d.limits.maxPart, []⟩) ∨
      (d.unfinished.lookup field.name = some a ∧ a.field.same? field = .ok true) := by
  unfold assemblyFor at h
  split at h
  · next hn =>
    cases h
    exact .inl ⟨hn, rfl⟩
  · next b hb =>
    split at h
    · next hs =>
      cases h
      exact .inr ⟨hb, hs⟩
    · cases h
    · cases h

/-- What an assembly is once it took some bytes. -/
theorem extend_ok {a a' : Assembly} {bytes : Octets} (h : a.extend bytes = .ok a') :
    a.size + bytes.length ≤ a.limit ∧ a' = { a with content := a.content ++ bytes } := by
  rcases Nat.lt_or_ge a.limit (a.size + bytes.length) with hlarge | hfits
  · rw [Assembly.extend_of_lt hlarge] at h
    cases h
  · rw [Assembly.extend_of_le hfits] at h
    cases h
    exact ⟨hfits, rfl⟩

omit [Supply σ] in
/-- A payload grows what is kept of its field. -/
theorem grows_of_store {f : Fragment} {d : Demux σ} {a a' : Assembly}
    (hb : f.data.bytes ≠ []) (ha : d.assemblyFor f.field = .ok a)
    (ha' : a.extend f.data.bytes = .ok a') :
    Grows d.limits.maxPart f (d.unfinished.lookup f.field.name) (some a') := by
  obtain ⟨hsize, rfl⟩ := extend_ok ha'
  rcases assemblyFor_ok ha with ⟨hn, rfl⟩ | ⟨hs, hsame⟩
  · rw [hn]
    refine Grows.first hb ?_
    rw [← Nat.zero_add f.data.size]
    exact hsize
  · rw [hs]
    exact Grows.more a hb hsame hsize

omit [Supply σ] in
/-- A field that is closed, unless nothing is kept under its name: the part is what was kept, there
is room for it, and it is owed. -/
theorem close_ok {name : String} {d d' : Demux σ} {part : Option Part}
    (h : d.close name = (.ok part, d')) :
    (d.unfinished.lookup name = none ∧ part = none ∧ d' = d) ∨
      ∃ a flow, d.unfinished.lookup name = some a ∧ d.limits.exhausted? d.completed = none ∧
        d.flow.deliver? = some flow ∧ part = some a.complete ∧
        d' = { d with
          unfinished := d.unfinished.filter (·.1 != name)
          flow
          completed := d.completed + 1 } := by
  unfold close at h
  split at h
  · next hn =>
    cases h
    exact .inl ⟨hn, rfl, rfl⟩
  · next a ha =>
    dsimp only at h
    split at h
    · cases h
    · next hroom =>
      split at h
      · cases h
      · next flow hf =>
        cases h
        exact .inr ⟨a, flow, ha, hroom, hf, rfl, rfl⟩

/-- A fragment that is combined: its payload is stored, if it has any, and then its field is
closed, if it is final. -/
theorem combine_ok {f : Fragment} {d d' : Demux σ} {part : Option Part}
    (h : d.combine f = (.ok part, d')) :
    ∃ d₁, (f.data.bytes = [] ∧ d₁ = d.giveBack f.data ∨
        f.data.bytes ≠ [] ∧ d.store f.field f.data = (.ok (), d₁)) ∧
      (f.final = true ∧ d₁.close f.field.name = (.ok part, d') ∨
        f.final = false ∧ part = none ∧ d' = d₁) := by
  unfold combine at h
  dsimp only at h
  split at h
  · next hb =>
    refine ⟨_, .inl ⟨List.isEmpty_iff.mp hb, rfl⟩, ?_⟩
    split at h
    · next hfinal => exact .inl ⟨hfinal, h⟩
    · next hfinal =>
      cases h
      exact .inr ⟨Bool.eq_false_iff.mpr hfinal, rfl, rfl⟩
  · next hb =>
    split at h
    · cases h
    · next d₁ hstore =>
      refine ⟨d₁, .inr ⟨fun he => hb (List.isEmpty_iff.mpr he), hstore⟩, ?_⟩
      split at h
      · next hfinal => exact .inl ⟨hfinal, h⟩
      · next hfinal =>
        cases h
        exact .inr ⟨Bool.eq_false_iff.mpr hfinal, rfl, rfl⟩

/-- A demultiplexer before and after the payload of a fragment. -/
structure Stored (f : Fragment) (d : Demux σ) (grown : Option Assembly) (d' : Demux σ) : Prop where
  grows : Grows d.limits.maxPart f (d.unfinished.lookup f.field.name) grown
  unfinished : ∀ name, d'.unfinished.lookup name =
    if name = f.field.name then grown else d.unfinished.lookup name
  received : d'.received = d.received + f.data.size
  within : f.data.bytes ≠ [] → d'.received ≤ d.limits.maxBody
  completed : d'.completed = d.completed
  flow : d'.flow = d.flow
  source : d'.source = Pool.giveBack f.data d.source
  limits : d'.limits = d.limits
  terminated : d'.terminated = d.terminated

theorem stored_of_combine {f : Fragment} {d d' : Demux σ}
    (h : f.data.bytes = [] ∧ d' = d.giveBack f.data ∨
      f.data.bytes ≠ [] ∧ d.store f.field f.data = (.ok (), d')) :
    ∃ grown, Stored f d grown d' := by
  rcases h with ⟨hb, rfl⟩ | ⟨hb, hstore⟩
  · have hnone : f.data.size = 0 := List.length_eq_zero_iff.mpr hb
    refine ⟨_, .empty _ hb, fun name => ?_, by rw [hnone]; rfl, fun h => absurd hb h, rfl, rfl, rfl,
      rfl, rfl⟩
    by_cases hname : name = f.field.name
    · rw [if_pos hname, hname]
      rfl
    · rw [if_neg hname]
      rfl
  · obtain ⟨hbody, a, a', ha, ha', rfl⟩ := store_ok hstore
    exact ⟨some a', grows_of_store hb ha ha', fun name => lookup_keep f.field.name name a' d,
      rfl, fun _ => hbody, rfl, rfl, rfl, rfl, rfl⟩

theorem combined_of_combine {f : Fragment} {d d' : Demux σ} {part : Option Part}
    (h : d.combine f = (.ok part, d')) : ∃ grown, Combined f d part grown d' := by
  obtain ⟨d₁, hstored, hclosed⟩ := combine_ok h
  obtain ⟨grown, hs⟩ := stored_of_combine hstored
  have hself := hs.unfinished f.field.name
  rw [if_pos rfl] at hself
  refine ⟨grown, ?_⟩
  rcases hclosed with ⟨hfinal, hclose⟩ | ⟨hfinal, rfl, rfl⟩
  · rcases close_ok hclose with ⟨hn, rfl, rfl⟩ | ⟨a, flow, ha, -, hdeliver, rfl, rfl⟩
    · rw [hself] at hn
      refine ⟨hs.grows, by rw [hn, hfinal]; rfl, fun name => ?_, fun _ => hs.flow,
        fun hp => absurd rfl hp, hs.source, hs.limits, hs.terminated⟩
      rw [hs.unfinished, hn, hfinal, if_pos rfl]
    · rw [hself] at ha
      refine ⟨hs.grows, by rw [ha, hfinal]; rfl, fun name => ?_, nofun,
        fun _ => hs.flow ▸ hdeliver, hs.source, hs.limits, hs.terminated⟩
      rw [lookup_without, hs.unfinished, hfinal, if_pos rfl]
      by_cases hname : name = f.field.name
      · rw [if_pos hname, if_pos hname]
      · rw [if_neg hname, if_neg hname, if_neg hname]
  · refine ⟨hs.grows, by rw [hfinal]; rfl, fun name => ?_, fun _ => hs.flow,
      fun hp => absurd rfl hp, hs.source, hs.limits, hs.terminated⟩
    rw [hs.unfinished, hfinal, if_neg Bool.false_ne_true]

/-- A fragment that is taken in was requested; afterwards its demultiplexer asks for more if it
has to. -/
theorem accept_combines {f : Fragment} {d d' : Demux σ} {part : Option Part}
    (h : d.accept f = (.ok part, d')) :
    ∃ flow d₁, d.flow.arrive? = some flow ∧ { d with flow }.combine f = (.ok part, d₁) ∧
      d' = d₁.refill := by
  unfold accept at h
  split at h
  · cases h
  · next flow hflow =>
    split at h
    · cases h
    · next d₁ hcombine =>
      cases h
      exact ⟨flow, d₁, hflow, hcombine, rfl⟩

/-- What a fragment that is taken in does to what is kept. -/
theorem accept_ok {f : Fragment} {d d' : Demux σ} {part : Option Part}
    (h : d.accept f = (.ok part, d')) :
    ∃ flow grown d₁, d.flow.arrive? = some flow ∧
      Combined f { d with flow } part grown d₁ ∧ d' = d₁.refill := by
  obtain ⟨flow, d₁, hflow, hcombine, rfl⟩ := accept_combines h
  obtain ⟨grown, hc⟩ := combined_of_combine hcombine
  exact ⟨flow, grown, d₁, hflow, hc, rfl⟩

/-- What a fragment that is taken in does to the counts of bytes and of parts. -/
theorem accept_counts {f : Fragment} {d d' : Demux σ} {part : Option Part}
    (h : d.accept f = (.ok part, d')) :
    d'.received = d.received + f.data.size ∧
      (f.data.bytes ≠ [] → d.received + f.data.size ≤ d.limits.maxBody) ∧
      d'.completed = d.completed + part.toList.length ∧
      (part ≠ none → d.limits.exhausted? d.completed = none) := by
  obtain ⟨flow, d₁, -, hcombine, rfl⟩ := accept_combines h
  obtain ⟨d₂, hstored, hclosed⟩ := combine_ok hcombine
  obtain ⟨grown, hs⟩ := stored_of_combine hstored
  have hbody : f.data.bytes ≠ [] → d.received + f.data.size ≤ d.limits.maxBody :=
    fun hb => Nat.le_trans (Nat.le_of_eq hs.received.symm) (hs.within hb)
  rcases hclosed with ⟨-, hclose⟩ | ⟨-, rfl, rfl⟩
  · rcases close_ok hclose with ⟨-, rfl, rfl⟩ | ⟨a, flow', -, hroom, -, rfl, rfl⟩
    · exact ⟨hs.received, hbody, hs.completed, fun hp => absurd rfl hp⟩
    · rw [hs.limits, hs.completed] at hroom
      exact ⟨hs.received, hbody, congrArg (· + 1) hs.completed, fun _ => hroom⟩
  · exact ⟨hs.received, hbody, hs.completed, fun hp => absurd rfl hp⟩

theorem unfinished_refill (d : Demux σ) : d.refill.unfinished = d.unfinished := by
  unfold refill
  rfl

theorem limits_refill (d : Demux σ) : d.refill.limits = d.limits := by
  unfold refill
  rfl

/-! ### The buffer of a fragment -/

theorem source_store (field : Field) (data : Buffer) (d : Demux σ) :
    (d.store field data).2.source = Pool.giveBack data d.source := by
  unfold store
  dsimp only
  split
  · rfl
  · split
    · rfl
    · split <;> rfl

/-- However a fragment ends, its buffer is given back once. -/
theorem source_combine (f : Fragment) (d : Demux σ) :
    (d.combine f).2.source = Pool.giveBack f.data d.source := by
  have hstore := source_store f.field f.data d
  unfold combine
  dsimp only
  split
  · split
    · exact source_close ..
    · rfl
  · split
    · next h =>
      rw [h] at hstore
      exact hstore
    · next h =>
      rw [h] at hstore
      split
      · exact (source_close ..).trans hstore
      · exact hstore

/-- A fragment that is not taken in was not requested, or it cannot be combined. -/
theorem accept_fails {f : Fragment} {d d' : Demux σ} {r : Refusal}
    (h : d.accept f = (.error r, d')) :
    (d.flow.arrive? = none ∧ r = .fault (.supply "received chunk without demand") ∧
        d' = d.giveBack f.data) ∨
      ∃ flow, d.flow.arrive? = some flow ∧ { d with flow }.combine f = (.error r, d') := by
  unfold accept at h
  split at h
  · next hflow =>
    cases h
    exact .inl ⟨hflow, rfl, rfl⟩
  · next flow hflow =>
    split at h
    · next hcombine =>
      cases h
      exact .inr ⟨flow, hflow, hcombine⟩
    · cases h

/-- A fragment that is not taken in leaves nothing behind with the supply but its buffer. -/
theorem accept_error {f : Fragment} {d d' : Demux σ} {e : Refusal}
    (h : d.accept f = (.error e, d')) : d'.source = Pool.giveBack f.data d.source := by
  rcases accept_fails h with ⟨-, -, rfl⟩ | ⟨flow, -, hcombine⟩
  · rfl
  · have hsource := source_combine f { d with flow }
    rw [hcombine] at hsource
    exact hsource

/-! ### A fragment that is refused -/

/-- Why a fragment is refused while demand is left. What comes first in the list goes before what
comes later: a body too large for its limit is refused whatever its fragment is like. -/
inductive Refused (f : Fragment) (d : Demux σ) : Refusal → Prop where
  | body : f.data.bytes ≠ [] → d.limits.maxBody < d.received + f.data.size →
      Refused f d (.fault (.requestTooLarge (d.received + f.data.size) d.limits.maxBody))
  | kind (a : Assembly) : f.data.bytes ≠ [] → d.received + f.data.size ≤ d.limits.maxBody →
      d.unfinished.lookup f.field.name = some a → a.field.same? f.field = .ok false →
      Refused f d (.fault (.malformed s!"field '{f.field.name}' changed its kind mid-part"))
  | torn (a : Assembly) (t : Text.Torn) : f.data.bytes ≠ [] →
      d.received + f.data.size ≤ d.limits.maxBody →
      d.unfinished.lookup f.field.name = some a → a.field.same? f.field = .error t →
      Refused f d (.panic t.message)
  | part (a : Assembly) : f.data.bytes ≠ [] → d.received + f.data.size ≤ d.limits.maxBody →
      d.assemblyFor f.field = .ok a → a.limit < a.size + f.data.size →
      Refused f d (.fault (.partTooLarge a.field.name (a.size + f.data.size) a.limit))
  | parts (grown : Assembly) (max : Nat) :
      (f.data.bytes ≠ [] → d.received + f.data.size ≤ d.limits.maxBody) →
      Grows d.limits.maxPart f (d.unfinished.lookup f.field.name) (some grown) →
      f.final = true → d.limits.exhausted? d.completed = some max →
      Refused f d (.fault (.tooManyParts max))

/-- A payload that is not stored, and what is left then. -/
theorem store_error {f : Fragment} {d d' : Demux σ} {r : Refusal} (hb : f.data.bytes ≠ [])
    (h : d.store f.field f.data = (.error r, d')) :
    Refused f d r ∧ d' = { d with
      received := d.received + f.data.size
      source := Pool.giveBack f.data d.source } := by
  unfold store at h
  dsimp only at h
  split at h
  · next hbody =>
    cases h
    exact ⟨.body hb hbody, rfl⟩
  · next hbody =>
    have hbody := Nat.not_lt.mp hbody
    split at h
    · next r' ha =>
      cases h
      refine ⟨?_, rfl⟩
      unfold assemblyFor at ha
      split at ha
      · cases ha
      · next a hkept =>
        split at ha
        · cases ha
        · next hsame =>
          cases ha
          exact .kind a hb hbody hkept hsame
        · next t hsame =>
          cases ha
          exact .torn a t hb hbody hkept hsame
    · next a ha =>
      dsimp only [Assembly.append] at h
      rcases Nat.lt_or_ge a.limit (a.size + f.data.size) with hlarge | hfits
      · rw [Assembly.extend_of_lt hlarge] at h
        cases h
        exact ⟨.part a hb hbody ha hlarge, rfl⟩
      · rw [Assembly.extend_of_le hfits] at h
        cases h

omit [Supply σ] in
/-- A field that cannot be closed though a part is owed: there is no room for it. -/
theorem close_error {name : String} {d d' : Demux σ} {r : Refusal}
    (h : d.close name = (.error r, d')) (howed : 0 < d.flow.owed) :
    ∃ a max, d.unfinished.lookup name = some a ∧ d.limits.exhausted? d.completed = some max ∧
      r = .fault (.tooManyParts max) := by
  unfold close at h
  split at h
  · cases h
  · next a ha =>
    dsimp only at h
    split at h
    · next max hroom =>
      cases h
      exact ⟨a, max, ha, hroom, rfl⟩
    · split at h
      · next hnone =>
        simp only [Flow.deliver?, Nat.ne_of_gt howed, if_false] at hnone
        cases hnone
      · cases h

theorem flow_store (field : Field) (data : Buffer) (d : Demux σ) :
    (d.store field data).2.flow = d.flow := by
  unfold store
  dsimp only
  split
  · rfl
  · split
    · rfl
    · split <;> rfl

omit [Supply σ] in
/-- Closing a field does not panic. -/
theorem close_panics {name : String} {d d' : Demux σ} {m : String} :
    d.close name ≠ (.error (.panic m), d') := by
  intro h
  unfold close at h
  split at h
  · cases h
  · dsimp only at h
    split at h
    · cases h
    · split at h <;> cases h

/-- A fragment that cannot be combined: its payload is not stored, or its field is not closed. -/
theorem combine_fails {f : Fragment} {d d' : Demux σ} {r : Refusal}
    (h : d.combine f = (.error r, d')) :
    (f.data.bytes ≠ [] ∧ d.store f.field f.data = (.error r, d')) ∨
      ∃ d₁, (f.data.bytes = [] ∧ d₁ = d.giveBack f.data ∨
          f.data.bytes ≠ [] ∧ d.store f.field f.data = (.ok (), d₁)) ∧
        f.final = true ∧ d₁.close f.field.name = (.error r, d') := by
  unfold combine at h
  dsimp only at h
  split at h
  · next hb =>
    split at h
    · next hfinal => exact .inr ⟨_, .inl ⟨List.isEmpty_iff.mp hb, rfl⟩, hfinal, h⟩
    · cases h
  · next hb =>
    have hb : f.data.bytes ≠ [] := fun he => hb (List.isEmpty_iff.mpr he)
    split at h
    · next hstore =>
      cases h
      exact .inl ⟨hb, hstore⟩
    · next hstore =>
      split at h
      · next hfinal => exact .inr ⟨_, .inr ⟨hb, hstore⟩, hfinal, h⟩
      · cases h

theorem combine_error {f : Fragment} {d d' : Demux σ} {r : Refusal}
    (h : d.combine f = (.error r, d')) (howed : 0 < d.flow.owed) : Refused f d r := by
  rcases combine_fails h with ⟨hb, hstore⟩ | ⟨d₁, hstored, hfinal, hclose⟩
  · exact (store_error hb hstore).1
  -- a fragment whose payload is in fails to close its field
  · obtain ⟨grown, hs⟩ := stored_of_combine hstored
    obtain ⟨a, max, ha, hroom, rfl⟩ := close_error hclose (hs.flow ▸ howed)
    rw [hs.unfinished, if_pos rfl] at ha
    rw [hs.limits, hs.completed] at hroom
    exact .parts a max (fun hb => hs.received ▸ hs.within hb) (ha ▸ hs.grows) hfinal hroom

/-- While demand is left a fragment is refused for what it is. -/
theorem accept_refused {f : Fragment} {d d' : Demux σ} {r : Refusal}
    (h : d.accept f = (.error r, d')) (houtstanding : 0 < d.flow.outstanding)
    (howed : 0 < d.flow.owed) : Refused f d r := by
  have harrive : d.flow.arrive? = some { d.flow with outstanding := d.flow.outstanding - 1 } :=
    if_neg (Nat.ne_of_gt houtstanding)
  rcases accept_fails h with ⟨hnone, -, -⟩ | ⟨flow, hflow, hcombine⟩
  · exact absurd (hnone.symm.trans harrive) (Option.some_ne_none _).symm
  obtain rfl := Option.some.inj (harrive.symm.trans hflow)
  cases combine_error hcombine howed with
  | body hb hbody => exact .body hb hbody
  | kind a hb hbody hkept hsame => exact .kind a hb hbody hkept hsame
  | torn a t hb hbody hkept hsame => exact .torn a t hb hbody hkept hsame
  | part a hb hbody ha hsize => exact .part a hb hbody ha hsize
  | parts grown max hbody hgrows hfinal hroom => exact .parts grown max hbody hgrows hfinal hroom

/-- A fragment over which a demultiplexer panics: its buffer has been counted and given back. -/
theorem accept_panicked {f : Fragment} {d d' : Demux σ} {m : String}
    (h : d.accept f = (.error (.panic m), d')) :
    ∃ flow, d.received + f.data.size ≤ d.limits.maxBody ∧ d' = { d with
      flow
      received := d.received + f.data.size
      source := Pool.giveBack f.data d.source } := by
  rcases accept_fails h with ⟨-, hfault, -⟩ | ⟨flow, -, hcombine⟩
  · cases hfault
  rcases combine_fails hcombine with ⟨hb, hstore⟩ | ⟨d₁, -, -, hclose⟩
  · obtain ⟨hrefused, rfl⟩ := store_error hb hstore
    cases hrefused with
    | torn a t _ hbody _ _ => exact ⟨flow, hbody, rfl⟩
  · exact absurd hclose close_panics

/-- A fault of the supply is none that a fragment raises. -/
theorem accept_fault {f : Fragment} {d d' : Demux σ} {e : Fault}
    (h : d.accept f = (.error (.fault e), d')) (houtstanding : 0 < d.flow.outstanding)
    (howed : 0 < d.flow.owed) (reason : String) : e ≠ .supply reason := by
  cases accept_refused h houtstanding howed <;> nofun

/-! ### One poll -/

/-- A poll without its account of why it ends. -/
theorem pull_eq (d : Demux σ) :
    d.pull =
      match Supply.poll d.source with
      | (.waiting, s) => (.waiting, { d with source := s })
      | (.failed e, s) => (.fault e, { d with source := s }.stop)
      | (.finished, s) => (.finished, { d with source := s }.finish)
      | (.fragment f, s) =>
        match { d with source := s }.accept f with
        | (.error (.fault e), d') => (.fault e, d'.stop)
        | (.error (.panic m), d') => (.panicked m, d')
        | (.ok (some p), d') => (.part p, d')
        | (.ok none, d') => d'.pull := by
  rw [pull]
  split
  · next hp => rw [hp]
  · next hp => rw [hp]
  · next hp => rw [hp]
  · next hp =>
    rw [hp]
    dsimp only
    split <;> next ha => rw [ha]

/-- The rule of a poll. `keeps` holds whenever the supply is asked; every fragment that leaves its
reader without an answer has to restore it. `gives` holds of each answer and what is left behind
it. -/
theorem pull_rule (keeps : Demux σ → Prop) (gives : Outcome → Demux σ → Prop)
    (waiting : ∀ d s, keeps d → Supply.poll d.source = (.waiting, s) →
      gives .waiting { d with source := s })
    (failed : ∀ d e s, keeps d → Supply.poll d.source = (.failed e, s) →
      gives (.fault e) { d with source := s }.stop)
    (finished : ∀ d s, keeps d → Supply.poll d.source = (.finished, s) →
      gives .finished { d with source := s }.finish)
    (fault : ∀ d f s e d', keeps d → Supply.poll d.source = (.fragment f, s) →
      { d with source := s }.accept f = (.error (.fault e), d') → gives (.fault e) d'.stop)
    (panicked : ∀ d f s m d', keeps d → Supply.poll d.source = (.fragment f, s) →
      { d with source := s }.accept f = (.error (.panic m), d') → gives (.panicked m) d')
    (part : ∀ d f s p d', keeps d → Supply.poll d.source = (.fragment f, s) →
      { d with source := s }.accept f = (.ok (some p), d') → gives (.part p) d')
    (more : ∀ d f s d', keeps d → Supply.poll d.source = (.fragment f, s) →
      { d with source := s }.accept f = (.ok none, d') → keeps d')
    (d : Demux σ) (h : keeps d) : gives d.pull.1 d.pull.2 := by
  -- what is ready shrinks with every fragment
  induction hn : Supply.ready d.source using Nat.strongRecOn generalizing d with
  | ind n ih =>
    rw [pull_eq]
    split
    · next s hp => exact waiting d s h hp
    · next e s hp => exact failed d e s h hp
    · next s hp => exact finished d s h hp
    · next f s hp =>
      have hready : Supply.ready ({ d with source := s }.accept f).2.source < n := by
        rw [← hn]
        exact Nat.lt_of_le_of_lt (ready_accept f { d with source := s })
          (Supply.ready_poll _ _ _ hp)
      split
      · next e d' ha => exact fault d f s e d' h hp ha
      · next m d' ha => exact panicked d f s m d' h hp ha
      · next p d' ha => exact part d f s p d' h hp ha
      · next d' ha =>
        rw [ha] at hready
        exact ih _ hready d' (more d f s d' h hp ha) rfl

end Demux

end Exchange.Multipart
