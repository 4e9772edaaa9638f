import Exchange.Proofs.Multipart.Accounting
import Exchange.Proofs.Multipart.Demultiplexing
import Exchange.Proofs.Multipart.Replayed

/-!
Which fault ends a body, and where.

What a fragment violates can be read off the fragments in front of it (`violations`): the limit of
the body, the kind of its field, the limit of a part, the limit on the number of parts, in this
sequence. `faults_exact` says that a body is ended by its first fragment that violates anything,
with the first thing that it violates, or by a fault of the supply in place of a fragment, and that
it is not ended otherwise. The invariant is `Abiding`: a demultiplexer that runs took fragments that
violate nothing, and its counts are those of these fragments.
-/
namespace Exchange.Multipart

/-! ### What a fragment violates -/

/-- The bytes of some fragments. -/
def bytesIn (fs : List Fragment) : Nat := (fs.map (·.data.size)).sum

/-- Whether two fields are different. Two that cannot be compared do not count as different. -/
def Field.differs (a b : Field) : Bool :=
  match a.same? b with
  | .ok same => !same
  | .error _ => false

/-- Whether a fragment is of another field than the first one with bytes among those of its name
since the last final one. -/
def changesKind (earlier : List Fragment) (f : Fragment) : Bool :=
  ((sinceFinal f.field.name earlier).find? Fragment.bears).any (·.field.differs f.field)

/-- What a fragment violates that comes behind `earlier` ones, the gravest first. -/
def violations (limits : Limits) (earlier : List Fragment) (f : Fragment) : List Fault :=
  let total := bytesIn (earlier ++ [f])
  let size := bytesIn (sinceFinal f.field.name earlier ++ [f])
  let given := (partsOf earlier).length
  (if f.bears ∧ limits.maxBody < total then [.requestTooLarge total limits.maxBody] else []) ++
  (if f.bears ∧ changesKind earlier f then
    [.malformed s!"field '{f.field.name}' changed its kind mid-part"] else []) ++
  (if f.bears ∧ limits.maxPart < size then
    [.partTooLarge f.field.name size limits.maxPart] else []) ++
  (if (completedBy earlier f).isSome ∧ limits.maxParts = some given then
    [.tooManyParts given] else [])

/-- Fragments of which none violates anything. -/
def Abides (limits : Limits) (fs : List Fragment) : Prop :=
  ∀ earlier f, earlier ++ [f] <+: fs → violations limits earlier f = []

/-- A fault is what an item deserves that comes behind `earlier` fragments: the first thing that a
fragment violates, or the fault that the supply reports in place of one. -/
def Deserves (limits : Limits) (earlier : List Fragment) : Item → Fault → Prop
  | .ok f, e => (violations limits earlier f).head? = some e
  | .error e', e => e' = e

theorem Abides.nil (limits : Limits) : Abides limits [] := fun earlier f h => by simp at h

theorem Abides.concat {limits : Limits} {fs : List Fragment} {f : Fragment}
    (h : Abides limits fs) (hf : violations limits fs f = []) : Abides limits (fs ++ [f]) := by
  intro earlier g hprefix
  rcases List.prefix_concat_iff.mp hprefix with heq | hold
  · obtain ⟨rfl, hlast⟩ := List.append_inj' heq rfl
    rw [List.singleton_inj.mp hlast]
    exact hf
  · exact h earlier g hold

/-- An item deserves one fault at most. -/
theorem Deserves.unique {limits : Limits} {earlier : List Fragment} {last : Item} {e e' : Fault}
    (h : Deserves limits earlier last e) (h' : Deserves limits earlier last e') : e = e' := by
  cases last with
  | ok f => exact Option.some.inj (Eq.trans (Eq.symm h) h')
  | error fault => exact Eq.trans (Eq.symm h) h'

/-! ### What is kept, in terms of the fragments -/

theorem bytesIn_append (a b : List Fragment) : bytesIn (a ++ b) = bytesIn a + bytesIn b := by
  simp [bytesIn]

theorem bytesIn_singleton (f : Fragment) : bytesIn [f] = f.data.size := by
  simp [bytesIn]

theorem length_flatMap_bytes (fs : List Fragment) :
    (fs.flatMap (·.data.bytes)).length = bytesIn fs := by
  rw [List.length_flatMap]
  rfl

/-- The bytes of what some fragments come to. -/
theorem bytesIn_joined (fs : List Fragment) :
    ((joined fs).map Part.size).getD 0 = bytesIn fs := by
  rw [← length_flatMap_bytes]
  cases h : joined fs with
  | none => rw [bytes_of_joined_none h]; rfl
  | some p =>
    obtain ⟨first, -, rfl⟩ := Option.map_eq_some_iff.mp h
    rfl

theorem bears_iff {f : Fragment} : f.bears = true ↔ f.data.bytes ≠ [] := by
  simp [Fragment.bears]

/-- The field of what the fragments of a name come to is of that name. -/
theorem name_of_joined {name : String} {taken : List Fragment} {p : Part}
    (h : joined (sinceFinal name taken) = some p) : p.field.name = name := by
  obtain ⟨first, hfirst, rfl⟩ := Option.map_eq_some_iff.mp h
  have hmem := (List.rtakeWhile_suffix _ _).mem (List.mem_of_find?_eq_some hfirst)
  exact beq_iff_eq.mp (List.mem_filter.mp hmem).2

section

variable {σ : Type} {limits : Limits} {taken : List Fragment} {f : Fragment} {d : Demux σ}

theorem changesKind_joined (taken : List Fragment) (f : Fragment) :
    changesKind taken f =
      (joined (sinceFinal f.field.name taken)).any (·.field.differs f.field) := by
  rw [changesKind, joined, Option.any_map]

/-- A fragment whose field is not kept comes behind no bytes of its name. -/
theorem Holds.fresh (h : Holds taken d) (hnone : d.unfinished.lookup f.field.name = none) :
    changesKind taken f = false ∧ bytesIn (sinceFinal f.field.name taken) = 0 := by
  rw [h, Option.map_eq_none_iff] at hnone
  rw [changesKind_joined, ← bytesIn_joined, hnone]
  exact ⟨rfl, rfl⟩

/-- What is kept of a fragment's field tells of the fragments of its name. -/
theorem Holds.kept {a : Assembly} (h : Holds taken d)
    (ha : d.unfinished.lookup f.field.name = some a) :
    changesKind taken f = a.field.differs f.field ∧
      bytesIn (sinceFinal f.field.name taken) = a.size ∧ a.limit = d.limits.maxPart ∧
      a.field.name = f.field.name := by
  rw [h] at ha
  obtain ⟨p, hp, rfl⟩ := Option.map_eq_some_iff.mp ha
  rw [changesKind_joined, ← bytesIn_joined, hp]
  exact ⟨rfl, rfl, rfl, name_of_joined hp⟩

/-- A fragment whose payload can be stored violates the limit on the number of parts at most. -/
theorem violations_of_grows {grown : Option Assembly} (h : Holds taken d)
    (hlimits : d.limits = limits)
    (hgrows : Grows d.limits.maxPart f (d.unfinished.lookup f.field.name) grown)
    (hbody : f.data.bytes ≠ [] → bytesIn taken + f.data.size ≤ d.limits.maxBody) :
    violations limits taken f =
      if (completedBy taken f).isSome ∧ limits.maxParts = some (partsOf taken).length then
        [.tooManyParts (partsOf taken).length] else [] := by
  subst hlimits
  have hfits : ¬ (f.bears ∧ d.limits.maxBody < bytesIn (taken ++ [f])) := by
    rintro ⟨hbears, hless⟩
    have hle := hbody (bears_iff.mp hbears)
    rw [bytesIn_append, bytesIn_singleton] at hless
    omega
  have hrest : ¬ (f.bears ∧ changesKind taken f) ∧
      ¬ (f.bears ∧ d.limits.maxPart < bytesIn (sinceFinal f.field.name taken ++ [f])) := by
    rw [bytesIn_append, bytesIn_singleton]
    generalize hkept : d.unfinished.lookup f.field.name = kept at hgrows
    cases hgrows with
    | empty _ hb => exact ⟨fun hbears => bears_iff.mp hbears.1 hb,
        fun hbears => bears_iff.mp hbears.1 hb⟩
    | first _ hsize =>
      obtain ⟨hsame, hnone⟩ := h.fresh hkept
      rw [hsame, hnone, Nat.zero_add]
      exact ⟨fun hchanges => Bool.false_ne_true hchanges.2,
        fun hlarge => Nat.not_lt.mpr hsize hlarge.2⟩
    | more a _ hsame hsize =>
      obtain ⟨hchanges, hbytes, hlimit, -⟩ := h.kept hkept
      have hnone : a.field.differs f.field = false := by
        rw [Field.differs, hsame]
        rfl
      rw [hchanges, hnone, hbytes, ← hlimit]
      exact ⟨fun hchanges => Bool.false_ne_true hchanges.2,
        fun hlarge => Nat.not_lt.mpr hsize hlarge.2⟩
  simp only [violations, if_neg hfits, if_neg hrest.1, if_neg hrest.2, List.nil_append]

/-- A fragment that is refused with a fault deserves it. -/
theorem deserves_of_refused [Supply σ] {e : Fault} (h : Holds taken d) (hlimits : d.limits = limits)
    (hreceived : d.received = bytesIn taken) (hcompleted : d.completed = (partsOf taken).length)
    (hroom : ∀ max, limits.maxParts = some max → d.completed ≤ max)
    (hrefused : d.Refused f (.fault e)) : (violations limits taken f).head? = some e := by
  subst hlimits
  have htotal : bytesIn (taken ++ [f]) = d.received + f.data.size := by
    rw [bytesIn_append, bytesIn_singleton, hreceived]
  have hfits : d.received + f.data.size ≤ d.limits.maxBody →
      ¬ (f.bears ∧ d.limits.maxBody < bytesIn (taken ++ [f])) :=
    fun hle hless => Nat.not_lt.mpr hle (htotal ▸ hless.2)
  generalize hr : Refusal.fault e = r at hrefused
  cases hrefused with
  | body hb hless =>
    cases hr
    rw [← htotal] at hless ⊢
    simp only [violations, if_pos (And.intro (bears_iff.mpr hb) hless)]
    rfl
  | kind a hb hle ha hsame =>
    cases hr
    have hchanges : changesKind taken f = true := by
      rw [(h.kept ha).1, Field.differs, hsame]
      rfl
    simp only [violations, if_neg (hfits hle), if_pos (And.intro (bears_iff.mpr hb) hchanges)]
    rfl
  | torn a t hb hle ha hsame => cases hr
  | part a hb hle ha hless =>
    cases hr
    have hkept : changesKind taken f = false ∧
        bytesIn (sinceFinal f.field.name taken ++ [f]) = a.size + f.data.size ∧
        a.limit = d.limits.maxPart ∧ a.field.name = f.field.name := by
      rw [bytesIn_append, bytesIn_singleton]
      rcases Demux.assemblyFor_ok ha with ⟨hnone, rfl⟩ | ⟨hsome, hsame⟩
      · obtain ⟨hchanges, hbytes⟩ := h.fresh hnone
        exact ⟨hchanges, by rw [hbytes]; rfl, rfl, rfl⟩
      · obtain ⟨hchanges, hbytes, hlimit, hname⟩ := h.kept hsome
        refine ⟨?_, by rw [hbytes], hlimit, hname⟩
        rw [hchanges, Field.differs, hsame]
        rfl
    obtain ⟨hchanges, hsize, hlimit, hname⟩ := hkept
    have hsame : ¬ (f.bears ∧ changesKind taken f) := by
      rw [hchanges]
      exact fun hcontra => Bool.false_ne_true hcontra.2
    rw [hlimit, ← hsize] at hless
    rw [hlimit, hname, ← hsize]
    simp only [violations, if_neg (hfits hle), if_neg hsame,
      if_pos (And.intro (bears_iff.mpr hb) hless)]
    rfl
  | parts grown max hbody hgrows hfinal hexhausted =>
    cases hr
    have hcompletes : (completedBy taken f).isSome := by
      have hjoined := hgrows.joined (h f.field.name)
      rw [completedBy, if_pos hfinal]
      cases hp : joined (sinceFinal f.field.name taken ++ [f]) with
      | some p => rfl
      | none =>
        rw [hp] at hjoined
        cases hjoined
    have hmax : d.limits.maxParts = some max ∧ max ≤ d.completed := by
      rw [Limits.exhausted?, Option.filter_eq_some_iff] at hexhausted
      exact ⟨hexhausted.1, of_decide_eq_true hexhausted.2⟩
    have hgiven : max = (partsOf taken).length :=
      hcompleted ▸ Nat.le_antisymm hmax.2 (hroom max hmax.1)
    rw [violations_of_grows h rfl hgrows (hreceived ▸ hbody),
      if_pos ⟨hcompletes, hgiven ▸ hmax.1⟩, hgiven]
    rfl

/-- A fragment over which a demultiplexer panics: its field cannot be compared with the first one of
its name. -/
def Tears (limits : Limits) (earlier : List Fragment) (f : Fragment) (m : String) : Prop :=
  f.bears ∧ bytesIn (earlier ++ [f]) ≤ limits.maxBody ∧
    ∃ first t, (sinceFinal f.field.name earlier).find? Fragment.bears = some first ∧
      first.field.same? f.field = .error t ∧ m = t.message

theorem tears_of_refused [Supply σ] {m : String} (h : Holds taken d) (hlimits : d.limits = limits)
    (hreceived : d.received = bytesIn taken) (hrefused : d.Refused f (.panic m)) :
    Tears limits taken f m := by
  subst hlimits
  generalize hr : Refusal.panic m = r at hrefused
  cases hrefused with
  | torn a t hb hle ha hsame =>
    cases hr
    rw [h] at ha
    obtain ⟨p, hp, rfl⟩ := Option.map_eq_some_iff.mp ha
    obtain ⟨first, hfirst, rfl⟩ := Option.map_eq_some_iff.mp hp
    refine ⟨bears_iff.mpr hb, ?_, first, t, hfirst, hsame, rfl⟩
    rw [bytesIn_append, bytesIn_singleton, ← hreceived]
    exact hle
  | _ => cases hr

end

/-! ### While nothing is violated -/

variable {σ : Type} [Supply σ]

/-- A demultiplexer that runs, after it took fragments that violate nothing. -/
structure Abiding (limits : Limits) (taken : List Fragment) (d : Demux (Watched σ)) : Prop where
  counters : InStep d
  running : d.terminated = false
  items : itemsOf d.source.calls = taken.map .ok
  holds : Holds taken d
  stocked : Stocked limits (partsOf taken) 0 d
  received : d.received = bytesIn taken
  clean : Abides limits taken

namespace Abiding

variable {limits : Limits} {taken : List Fragment} {f : Fragment} {d d' : Demux (Watched σ)}
  {s : Watched σ}

omit [Supply σ] in
theorem start (limits : Limits) (s : σ) :
    Abiding limits [] { source := (⟨s, []⟩ : Watched σ), limits } where
  counters := .start limits s
  running := rfl
  items := rfl
  holds _ := rfl
  stocked := .start limits _
  received := rfl
  clean := .nil limits

theorem request (h : Abiding limits taken d) (n : UInt64) :
    Abiding limits taken (d.request n.toNat) := by
  have hcounters := h.counters.request h.running n
  have hstocked := h.stocked.request n.toNat
  by_cases hn : n.toNat = 0
  · rw [hn, Demux.request_zero]
    exact h
  · rcases Nat.eq_zero_or_pos d.flow.owed with howed | howed
    · rw [Demux.request_first h.running hn howed] at hcounters hstocked ⊢
      refine ⟨hcounters, h.running, ?_, h.holds, hstocked, h.received, h.clean⟩
      simpa using h.items
    · rw [Demux.request_more h.running hn howed] at hcounters hstocked ⊢
      exact ⟨hcounters, h.running, h.items, h.holds, hstocked, h.received, h.clean⟩

/-- The fragments that a demultiplexer took, and the answer of its supply behind them. -/
theorem polled {answer : Delivery} (h : Abiding limits taken d)
    (hp : Supply.poll d.source = (answer, s)) :
    itemsOf s.calls = taken.map .ok ++ answer.item?.toList := by
  rw [Watched.calls_poll hp, itemsOf_append, itemsOf_poll, h.items]

/-- A fragment that is taken in violates nothing. -/
theorem accept {part : Option Part} (h : Abiding limits taken d) (howed : 0 < d.flow.owed)
    (hp : Supply.poll d.source = (.fragment f, s))
    (ha : { d with source := s }.accept f = (.ok part, d')) :
    Abiding limits (taken ++ [f]) d' ∧ d'.flow.owed + part.toList.length = d.flow.owed := by
  obtain ⟨hcounters, howed', hterminated⟩ := h.counters.accept howed hp ha
  obtain ⟨hpart, hholds⟩ := Holds.accept (d := { d with source := s }) h.holds ha
  obtain ⟨hreceived, hbody, hcompleted, hroom⟩ := Demux.accept_counts ha
  obtain ⟨flow, grown, d₁, -, hcombined, -⟩ := Demux.accept_ok ha
  have hstocked : Stocked limits (partsOf (taken ++ [f])) 0 d' := by
    rw [partsOf_concat, ← hpart]
    exact (h.stocked.besides s d.flow).accept ha
  have hclean : violations limits taken f = [] := by
    rw [violations_of_grows (d := d) h.holds h.stocked.held hcombined.grows (h.received ▸ hbody)]
    refine if_neg fun ⟨hcompletes, hmax⟩ => ?_
    have hnone := hroom (hpart ▸ Option.isSome_iff_ne_none.mp hcompletes)
    rw [show d.limits = limits from h.stocked.held, show d.completed = _ from h.stocked.completed,
      Limits.exhausted?, hmax] at hnone
    simp at hnone
  refine ⟨⟨hcounters, hterminated.trans h.running, ?_, hholds, hstocked, ?_, h.clean.concat hclean⟩,
    howed'⟩
  · have hsame := h.polled hp
    obtain ⟨-, hcalls | hcalls⟩ := Demux.calls_accept ha
    · rw [hcalls, List.map_append]
      exact hsame
    · rw [hcalls, itemsOf_append, itemsOf_request, List.append_nil, List.map_append]
      exact hsame
  · rw [hreceived, bytesIn_append, bytesIn_singleton]
    exact congrArg (· + _) h.received

/-- One part is requested of a demultiplexer that owes none. -/
theorem prompt (h : Abiding limits taken d) (howed : d.flow.owed = 0) :
    Abiding limits taken (d.request 1) ∧ (d.request 1).flow.owed = 1 :=
  ⟨h.request 1, (h.counters.request_first h.running (by decide) (by decide) howed).2⟩

end Abiding

/-- What a poll comes to of a demultiplexer that took fragments which violate nothing. -/
inductive Judges (limits : Limits) : Outcome → Demux (Watched σ) → Prop where
  | goes {d : Demux (Watched σ)} {o : Outcome} (taken : List Fragment) : o.ends = false →
      Abiding limits taken d → Judges limits o d
  | finished {d : Demux (Watched σ)} (taken : List Fragment) : d.terminated = true →
      itemsOf d.source.calls = taken.map .ok → Abides limits taken →
      .finished ∈ answersOf d.source.calls → Judges limits .finished d
  | fault {d : Demux (Watched σ)} (e : Fault) (earlier : List Fragment) (last : Item) :
      d.terminated = true → itemsOf d.source.calls = earlier.map .ok ++ [last] →
      Abides limits earlier → Deserves limits earlier last e → Judges limits (.fault e) d
  | panicked {d : Demux (Watched σ)} (m : String) (earlier : List Fragment) (f : Fragment) :
      itemsOf d.source.calls = earlier.map .ok ++ [.ok f] → Abides limits earlier →
      Tears limits earlier f m → Judges limits (.panicked m) d

namespace Abiding

variable {limits : Limits} {taken : List Fragment} {d : Demux (Watched σ)}

theorem pull (h : Abiding limits taken d) (howed : 0 < d.flow.owed) :
    Judges limits d.pull.1 d.pull.2 := by
  refine Demux.pull_rule (fun e => ∃ taken, Abiding limits taken e ∧ 0 < e.flow.owed)
    (Judges limits) ?_ ?_ ?_ ?_ ?_ ?_ ?_ d ⟨taken, h, howed⟩
  · rintro e s ⟨taken, he, howed⟩ hp
    have hitems := he.polled hp
    rw [show (Delivery.waiting).item?.toList = [] from rfl, List.append_nil] at hitems
    exact .goes taken rfl ⟨he.counters.polled_other howed hp rfl, he.running, hitems, he.holds,
      he.stocked.besides s e.flow, he.received, he.clean⟩
  · rintro e fault s ⟨taken, he, -⟩ hp
    refine .fault fault taken (.error fault) rfl ?_ he.clean rfl
    show itemsOf (Supply.cancel s).calls = _
    rw [Watched.calls_cancel, itemsOf_append, itemsOf_cancel, List.append_nil]
    exact he.polled hp
  · rintro e s ⟨taken, he, -⟩ hp
    refine .finished taken rfl ((he.polled hp).trans (List.append_nil _)) he.clean ?_
    show _ ∈ answersOf s.calls
    simp [Watched.calls_poll hp]
  · rintro e f s fault e' ⟨taken, he, howed⟩ hp ha
    have hrefused := Demux.accept_refused ha (he.counters.moving howed) howed
    refine .fault fault taken (.ok f) rfl ?_ he.clean (deserves_of_refused
      (d := { e with source := s }) he.holds he.stocked.held he.received he.stocked.completed
      he.stocked.room hrefused)
    show itemsOf (Supply.cancel e'.source).calls = _
    rw [Watched.calls_cancel, itemsOf_append, itemsOf_cancel, List.append_nil,
      Demux.accept_error ha]
    exact he.polled hp
  · rintro e f s m e' ⟨taken, he, howed⟩ hp ha
    have hrefused := Demux.accept_refused ha (he.counters.moving howed) howed
    refine .panicked m taken f ?_ he.clean (tears_of_refused (d := { e with source := s })
      he.holds he.stocked.held he.received hrefused)
    rw [Demux.accept_error ha]
    exact he.polled hp
  · rintro e f s p e' ⟨taken, he, howed⟩ hp ha
    exact .goes (taken ++ [f]) rfl (he.accept howed hp ha).1
  · rintro e f s e' ⟨taken, he, howed⟩ hp ha
    obtain ⟨hnext, howed'⟩ := he.accept howed hp ha
    exact ⟨taken ++ [f], hnext, Nat.lt_of_lt_of_eq howed howed'.symm⟩

theorem next (h : Abiding limits taken d) (he : limits.enabled = true) :
    Judges limits d.next.1 d.next.2 := by
  rw [← h.stocked.held] at he
  rcases Nat.eq_zero_or_pos d.flow.owed with howed | howed
  · rw [Demux.next_idle h.running he howed]
    obtain ⟨hprompt, hone⟩ := h.prompt howed
    exact hprompt.pull (by omega)
  · rw [Demux.next_owed h.running he (Nat.ne_of_gt howed)]
    exact h.pull howed

end Abiding

/-! ### Whole bodies -/

theorem Ledger.fault_poll (l : Ledger) (d : Demux σ) (e : Fault) :
    .fault e ∈ (l.poll d).answers ↔ .fault e ∈ l.answers ∨ d.next.1 = .fault e := by
  rw [Ledger.poll, List.mem_append, List.mem_singleton, eq_comm]

theorem Ledger.Faultless.poll {l : Ledger} {d : Demux σ} (hl : l.Faultless)
    (hnone : ∀ e, d.next.1 ≠ .fault e) : (l.poll d).Faultless := by
  intro e hmem
  rcases (l.fault_poll d e).mp hmem with hold | hnew
  · exact hl e hold
  · exact hnone e hnew

/-- A demultiplexer beside the faults that its consumer was told of, one at most. -/
inductive Judged (limits : Limits) (l : Ledger) (d : Demux (Watched σ)) : Prop where
  | running (taken : List Fragment) : l.Faultless → Abiding limits taken d → Judged limits l d
  | finished (taken : List Fragment) : l.Faultless → d.terminated = true →
      itemsOf d.source.calls = taken.map .ok → Abides limits taken →
      .finished ∈ answersOf d.source.calls → Judged limits l d
  | fault (e : Fault) (earlier : List Fragment) (last : Item) : d.terminated = true →
      (∀ e', .fault e' ∈ l.answers ↔ e' = e) →
      itemsOf d.source.calls = earlier.map .ok ++ [last] → Abides limits earlier →
      Deserves limits earlier last e → Judged limits l d

namespace Judged

variable {limits : Limits} {l : Ledger} {d : Demux (Watched σ)}

theorem request (h : Judged limits l d) (n : UInt64) :
    Judged limits (l.request n) (d.request n.toNat) := by
  cases h with
  | running taken hl ha => exact .running taken hl (ha.request n)
  | finished taken hl ht hitems hclean hfinished =>
    rw [Demux.request_terminated ht]
    exact .finished taken hl ht hitems hclean hfinished
  | fault e earlier last ht hl hitems hclean hdeserves =>
    rw [Demux.request_terminated ht]
    exact .fault e earlier last ht hl hitems hclean hdeserves

theorem poll (h : Judged limits l d) (he : limits.enabled = true)
    (hm : ∀ m, d.next.1 ≠ .panicked m) : Judged limits (l.poll d) d.next.2 := by
  have hanswers := Ledger.fault_poll l d
  have hstill := Ledger.Faultless.poll (l := l) (d := d)
  cases h with
  | running taken hl ha =>
    have hjudges := ha.next he
    generalize d.next = answer at *
    obtain ⟨o, d'⟩ := answer
    cases hjudges with
    | goes taken' hgoes ha' =>
      refine .running taken' (hstill hl fun e hfault => ?_) ha'
      cases hfault
      cases hgoes
    | finished taken' ht hitems hclean hfinished =>
      refine .finished taken' (hstill hl fun e hfault => ?_) ht hitems hclean hfinished
      cases hfault
    | fault e earlier last ht hitems hclean hdeserves =>
      refine .fault e earlier last ht (fun e' => ?_) hitems hclean hdeserves
      rw [hanswers, Outcome.fault.injEq, eq_comm]
      exact or_iff_right (hl e')
    | panicked m earlier f _ _ _ => exact absurd rfl (hm m)
  | finished taken hl ht hitems hclean hfinished =>
    rw [Demux.next_terminated ht] at hstill ⊢
    refine .finished taken (hstill hl fun e hfault => ?_) ht hitems hclean hfinished
    cases hfault
  | fault e earlier last ht hl hitems hclean hdeserves =>
    rw [Demux.next_terminated ht] at hanswers ⊢
    refine .fault e earlier last ht (fun e' => ?_) hitems hclean hdeserves
    rw [hanswers, hl]
    refine or_iff_left fun hfault => ?_
    cases hfault

end Judged

theorem Driven.judged {limits : Limits} {s : σ} {l : Ledger} {d : Demux (Watched σ)}
    (he : limits.enabled = true) (h : Driven limits (⟨s, []⟩ : Watched σ) l d) :
    Judged limits l d := by
  induction h with
  | start => exact .running [] (fun _ => List.not_mem_nil) (.start limits s)
  | request n _ ih => exact ih.request n
  | poll _ hm ih => exact ih.poll he hm

/-- What deserves a fault is no fragment that violates nothing. -/
theorem Abides.undeserved {limits : Limits} {taken earlier : List Fragment} {last : Item}
    {e : Fault} (h : Abides limits taken)
    (hitems : taken.map Except.ok = earlier.map .ok ++ [last]) :
    ¬ Deserves limits earlier last e := by
  intro hdeserves
  obtain ⟨init, back, rfl, hinit, hback⟩ := List.map_eq_append_iff.mp hitems
  obtain ⟨f, rfl, rfl⟩ := List.map_eq_singleton_iff.mp hback
  obtain rfl : init = earlier := List.map_injective_iff.mpr (fun _ _ => Except.ok.inj) hinit
  rw [Deserves, h init f List.prefix_rfl] at hdeserves
  cases hdeserves

/-- **Exact faults.** However a consumer drives a demultiplexer, a fault is reported if and only if
the last item that the supply delivered deserves it, and the fragments in front of that violate
nothing. As long as none is reported no fragment violates anything, and the demultiplexer has come
to its end only where the supply did. A poll that panics does so over a fragment that it could not
compare, behind fragments that violate nothing. -/
theorem faults_exact {limits : Limits} {s : σ} {l : Ledger} {d : Demux σ}
    (he : limits.enabled = true) (h : Driven limits s l d) :
    ∃ w : Demux (Watched σ), Driven limits ⟨s, []⟩ l w ∧ w.map Watched.source = d ∧
      (∀ e, .fault e ∈ l.answers ↔
        ∃ earlier last, itemsOf w.source.calls = earlier.map .ok ++ [last] ∧
          Abides limits earlier ∧ Deserves limits earlier last e) ∧
      (l.Faultless → ∃ taken, itemsOf w.source.calls = taken.map .ok ∧ Abides limits taken ∧
        (d.terminated = true → .finished ∈ answersOf w.source.calls)) ∧
      ∀ m, d.next.1 = .panicked m → d.terminated = false ∧
        ∃ earlier f, itemsOf w.next.2.source.calls = earlier.map .ok ++ [.ok f] ∧
          Abides limits earlier ∧ Tears limits earlier f m := by
  obtain ⟨w, hw, rfl⟩ := h.watched
  refine ⟨w, hw, rfl, ?_⟩
  rw [Demux.map_next Watched.faithful w]
  cases hw.judged he with
  | running taken hl ha =>
    refine ⟨fun e => ⟨fun hmem => absurd hmem (hl e), ?_⟩, fun _ => ⟨taken, ha.items, ha.clean, ?_⟩,
      fun m hm => ⟨ha.running, ?_⟩⟩
    · rintro ⟨earlier, last, hitems, -, hdeserves⟩
      exact absurd hdeserves (ha.clean.undeserved (ha.items.symm.trans hitems))
    · exact fun ht => absurd (ht.symm.trans ha.running) (by decide)
    · have hjudges := ha.next he
      generalize w.next = answer at *
      obtain ⟨o, w'⟩ := answer
      cases hm
      cases hjudges with
      | goes _ hgoes _ => cases hgoes
      | panicked _ earlier f hitems hclean htears => exact ⟨earlier, f, hitems, hclean, htears⟩
  | finished taken hl ht hitems hclean hfinished =>
    refine ⟨fun e => ⟨fun hmem => absurd hmem (hl e), ?_⟩,
      fun _ => ⟨taken, hitems, hclean, fun _ => hfinished⟩, fun m hm => ?_⟩
    · rintro ⟨earlier, last, hlast, -, hdeserves⟩
      exact absurd hdeserves (hclean.undeserved (hitems.symm.trans hlast))
    · rw [Demux.next_terminated ht] at hm
      cases hm
  | fault e earlier last ht hl hitems hclean hdeserves =>
    refine ⟨fun e' => ⟨fun hmem => ?_, ?_⟩, fun hnone => absurd ((hl e).mpr rfl) (hnone e),
      fun m hm => ?_⟩
    · rw [(hl e').mp hmem]
      exact ⟨earlier, last, hitems, hclean, hdeserves⟩
    · rintro ⟨earlier', last', hitems', -, hdeserves'⟩
      obtain ⟨hfront, hlast⟩ := List.append_inj' (hitems.symm.trans hitems') rfl
      obtain rfl := List.map_injective_iff.mpr (fun _ _ => Except.ok.inj) hfront
      obtain rfl := List.singleton_inj.mp hlast
      exact (hl e').mpr (hdeserves'.unique hdeserves)
    · rw [Demux.next_terminated ht] at hm
      cases hm

/-- Limits of which the second fragment of a body may violate two at once. -/
def tight : Limits := { maxPart := 2, maxBody := 3 }

/-- A field that outgrows both. -/
def overfull : Demux Replay where
  source := .ofEvents
    [.fragment ⟨{ name := "a" }, { bytes := [1] }, false⟩,
      .fragment ⟨{ name := "a" }, { bytes := [2, 3, 4] }, true⟩] true false
  limits := tight

theorem faults_exact_overfull :
    ∃ (l : Ledger) (d : Demux Replay) (w : Demux (Watched Replay)),
      tight.enabled = true ∧ Driven tight overfull.source l d ∧ w.map Watched.source = d ∧
      .fault (.requestTooLarge 4 3) ∈ l.answers ∧
      ∃ earlier last, itemsOf w.source.calls = earlier.map .ok ++ [last] ∧
        Abides tight earlier ∧ Deserves tight earlier last (.requestTooLarge 4 3) := by
  have hanswer : overfull.next.1 = .fault (.requestTooLarge 4 3) := by cbv
  have hstart : Driven tight overfull.source {} overfull := .start
  have hdriven := hstart.poll fun m hm => by
    rw [hanswer] at hm
    cases hm
  have hfault : .fault (.requestTooLarge 4 3) ∈ (Ledger.poll overfull {}).answers :=
    List.mem_append_right _ (List.mem_singleton.mpr hanswer.symm)
  obtain ⟨w, -, hw, hfaults, -⟩ := faults_exact (by decide) hdriven
  exact ⟨_, _, w, by decide, hdriven, hw, hfault, (hfaults _).mp hfault⟩

/-- An upload whose media type has been read from a text. -/
def uploadOf (text : String) : Field := { name := "n", kind := .file "f" (.ofText text) }

/-- A part that grows too large goes unreported if its media types cannot be compared: the poll
panics. -/
theorem incomparable_unreported :
    ∃ (earlier : List Fragment) (f : Fragment) (l : Ledger) (d : Demux Replay),
      Abides { maxPart := 3 } earlier ∧
        Deserves { maxPart := 3 } earlier (.ok f) (.partTooLarge "n" 4 3) ∧
        Alone { maxPart := 3 } (.ofItems (earlier.map .ok ++ [.ok f]) false) l d ∧ l.Over ∧
        l.told = [.panicked (Text.Torn.mk 10 'é' 9).message] := by
  let first : Fragment := ⟨uploadOf "text/plain; x=1", { bytes := [1, 2] }, false⟩
  let second : Fragment := ⟨uploadOf "a/b; xx=\"é\"", { bytes := [3, 4] }, true⟩
  have hfirst : Abides { maxPart := 3 } [first] := (Abides.nil _).concat rfl
  have hstart : Alone { maxPart := 3 } (Replay.ofItems [.ok first, .ok second] false) _ _ :=
    Follows.start
  obtain ⟨l, d, hrun, hover⟩ := hstart.exists_over
  exact ⟨[first], second, l, d, hfirst, rfl, hrun, hover,
    ((told_replayed hrun).2 hover).trans rfl⟩

end Exchange.Multipart
