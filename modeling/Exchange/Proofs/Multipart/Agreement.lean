import Exchange.Proofs.Multipart.Violations

/-!
What the fragments of one part have in common.

A fragment with bytes is taken in only if its field is the same as that of the first one of its
part. So the fragments that contribute to a part are `Uniform`, and so they are while the part is
unfinished (`Kindred`). `parts_agree` says what this means for whoever drives a demultiplexer: a
fragment that changes the kind of its part ends the body, and a part agrees with every fragment that
brought some of its bytes.

A final fragment without bytes is not compared. It completes the part of its name, of whatever kind
it is itself (`completed_by_another_kind`).
-/
namespace Exchange.Multipart

/-! ### Fields that agree -/

/-- Fields of one name and one kind. Uploads have one file name, and media types that compare as the
same. -/
def Field.Agrees (a b : Field) : Prop :=
  a.name = b.name ∧
    match a.kind, b.kind with
    | .attribute, .attribute => True
    | .file name media, .file name' media' => name = name' ∧ media.same? media' = .ok true
    | _, _ => False

theorem Field.agrees_iff {a b : Field} : a.Agrees b ↔ a.same? b = .ok true := by
  obtain ⟨name, kind⟩ := a
  obtain ⟨name', kind'⟩ := b
  by_cases hname : name = name'
  · rcases kind with _ | ⟨file, media⟩ <;> rcases kind' with _ | ⟨file', media'⟩
    · simp [Agrees, same?, FieldKind.same?, hname]
    · simp [Agrees, same?, FieldKind.same?]
    · simp [Agrees, same?, FieldKind.same?]
    · by_cases hfile : file = file' <;> simp [Agrees, same?, FieldKind.same?, hname, hfile]
  · simp [Agrees, same?, hname]

/-- Fields that agree are not different. -/
theorem Field.Agrees.not_differs {a b : Field} (h : a.Agrees b) : a.differs b = false := by
  rw [differs, agrees_iff.mp h]
  rfl

/-- The fields of all fragments with bytes agree with the first one. -/
def Uniform (fs : List Fragment) : Prop :=
  match fs.filter Fragment.bears with
  | [] => True
  | first :: rest => ∀ g ∈ rest, first.field.Agrees g.field

namespace Uniform

variable {fs : List Fragment} {first f : Fragment}

/-- The first fragment with bytes, with the others. -/
theorem filter_of_find? (h : fs.find? Fragment.bears = some first) :
    ∃ rest, fs.filter Fragment.bears = first :: rest := by
  rw [← List.head?_filter, List.head?_eq_some_iff] at h
  exact h

theorem concat (h : Uniform fs)
    (hf : ∀ first, fs.find? Fragment.bears = some first → f.bears → first.field.Agrees f.field) :
    Uniform (fs ++ [f]) := by
  unfold Uniform at h ⊢
  rw [List.filter_append]
  cases hfirst : fs.find? Fragment.bears with
  | none =>
    rw [← List.head?_filter, List.head?_eq_none_iff] at hfirst
    rw [hfirst, List.nil_append]
    cases hbears : f.bears with
    | false =>
      rw [List.filter_cons_of_neg (by rw [hbears]; exact Bool.false_ne_true)]
      exact trivial
    | true =>
      rw [List.filter_cons_of_pos hbears]
      exact nofun
  | some first =>
    obtain ⟨rest, hrest⟩ := filter_of_find? hfirst
    rw [hrest] at h ⊢
    intro g hg
    rcases List.mem_append.mp hg with hold | hnew
    · exact h g hold
    · obtain ⟨hmem, hbears⟩ := List.mem_filter.mp hnew
      obtain rfl := List.mem_singleton.mp hmem
      exact hf first hfirst hbears

theorem last (h : Uniform (fs ++ [f])) (hfirst : fs.find? Fragment.bears = some first)
    (hf : f.bears) : first.field.Agrees f.field := by
  obtain ⟨rest, hrest⟩ := filter_of_find? hfirst
  rw [Uniform, List.filter_append, hrest] at h
  refine h f (List.mem_append_right _ (List.mem_filter.mpr ⟨List.mem_singleton_self f, hf⟩))

theorem agrees {g : Fragment} (h : Uniform fs) (hfirst : fs.find? Fragment.bears = some first)
    (hg : g ∈ fs) (hbears : g.bears) : first.field = g.field ∨ first.field.Agrees g.field := by
  obtain ⟨rest, hrest⟩ := filter_of_find? hfirst
  have hmem : g ∈ first :: rest := hrest ▸ List.mem_filter.mpr ⟨hg, hbears⟩
  rw [Uniform, hrest] at h
  rcases List.mem_cons.mp hmem with rfl | hlater
  · exact .inl rfl
  · exact .inr (h g hlater)

end Uniform

/-- Fragments that were taken in: those of each part are uniform, and those of each field that is
unfinished. -/
structure Kindred (taken : List Fragment) : Prop where
  parts : ∀ earlier f, earlier ++ [f] <+: taken → Uniform (sinceFinal f.field.name earlier ++ [f])
  unfinished : ∀ name, Uniform (sinceFinal name taken)

theorem Kindred.nil : Kindred [] := ⟨fun earlier f h => by simp at h, fun _ => trivial⟩

theorem Kindred.concat {taken : List Fragment} {f : Fragment} (h : Kindred taken)
    (hf : Uniform (sinceFinal f.field.name taken ++ [f])) : Kindred (taken ++ [f]) := by
  refine ⟨fun earlier g hseen => ?_, fun name => ?_⟩
  · rcases List.prefix_concat_iff.mp hseen with heq | hold
    · obtain ⟨rfl, hlast⟩ := List.append_inj' heq rfl
      obtain rfl := List.singleton_inj.mp hlast
      exact hf
    · exact h.parts earlier g hold
  · by_cases hname : name = f.field.name
    · subst hname
      rw [sinceFinal_concat]
      split
      · exact trivial
      · exact hf
    · rw [sinceFinal_concat_other taken hname]
      exact h.unfinished name

/-- A payload that grows what is kept of its field agrees with what is kept. -/
theorem Holds.uniform {σ : Type} {taken : List Fragment} {f : Fragment} {grown : Option Assembly}
    {d : Demux σ} (h : Holds taken d) (hkindred : Kindred taken)
    (hgrows : Grows d.limits.maxPart f (d.unfinished.lookup f.field.name) grown) :
    Uniform (sinceFinal f.field.name taken ++ [f]) := by
  refine (hkindred.unfinished _).concat fun first hfirst hbears => ?_
  have hkept : d.unfinished.lookup f.field.name = some (Assembly.ofPart d.limits.maxPart
      ⟨first.field, (sinceFinal f.field.name taken).flatMap (·.data.bytes)⟩) := by
    rw [h, joined, hfirst]
    rfl
  rw [hkept] at hgrows
  cases hgrows with
  | empty _ hnone => exact absurd hnone (bears_iff.mp hbears)
  | more a _ hsame _ => exact Field.agrees_iff.mpr hsame

/-! ### Parts -/

/-- Each of the parts that some fragments come to is completed by one of them. -/
theorem completed_of_mem {taken : List Fragment} {p : Part} (h : p ∈ partsOf taken) :
    ∃ earlier f, earlier ++ [f] <+: taken ∧ completedBy earlier f = some p := by
  induction taken using List.reverseRecOn with
  | nil => cases h
  | append_singleton taken f ih =>
    rw [partsOf_concat] at h
    rcases List.mem_append.mp h with hold | hnew
    · obtain ⟨earlier, g, hseen, hcompleted⟩ := ih hold
      exact ⟨earlier, g, hseen.trans (List.prefix_append ..), hcompleted⟩
    · exact ⟨taken, f, List.prefix_rfl, Option.mem_toList.mp hnew⟩

/-- A part has the field of the first fragment that brought bytes of it, and the name of the one
that completed it. -/
theorem completedBy_eq_some {earlier : List Fragment} {f : Fragment} {p : Part}
    (h : completedBy earlier f = some p) :
    f.final = true ∧ p.field.name = f.field.name ∧
      p.content = (sinceFinal f.field.name earlier ++ [f]).flatMap (·.data.bytes) ∧
      ∃ first, (sinceFinal f.field.name earlier ++ [f]).find? Fragment.bears = some first ∧
        p.field = first.field := by
  unfold completedBy at h
  split at h
  · next hfinal =>
    obtain ⟨first, hfirst, rfl⟩ := Option.map_eq_some_iff.mp h
    refine ⟨hfinal, ?_, rfl, first, hfirst, rfl⟩
    rcases List.mem_append.mp (List.mem_of_find?_eq_some hfirst) with hearlier | hlast
    · have hmem := (List.rtakeWhile_suffix _ _).mem hearlier
      exact beq_iff_eq.mp (List.mem_filter.mp hmem).2
    · rw [List.mem_singleton.mp hlast]
  · cases h

/-! ### Polls -/

variable {σ : Type} [Supply σ]

/-- A demultiplexer that runs, after it gave some parts. -/
structure Kin (given : List Part) (d : Demux (Watched σ)) : Prop where
  running : d.terminated = false
  holds : Holds (takenOf d.source.calls) d
  given : given = partsOf (takenOf d.source.calls)
  kindred : Kindred (takenOf d.source.calls)

/-- A demultiplexer after it gave some parts. Where it has ended it may have refused the fragment
that it took last. -/
inductive Takes (given : List Part) (d : Demux (Watched σ)) : Prop where
  | running : Kin given d → Takes given d
  | ended (accepted : List Fragment) (refused : Option Fragment) : d.terminated = true →
      takenOf d.source.calls = accepted ++ refused.toList → given = partsOf accepted →
      Kindred accepted → Takes given d

/-- What a poll comes to. -/
inductive Yields (given : List Part) : Outcome → Demux (Watched σ) → Prop where
  | takes {o : Outcome} {d : Demux (Watched σ)} : (∀ m, o ≠ .panicked m) →
      Takes (given ++ o.part?.toList) d → Yields given o d
  | panicked {d : Demux (Watched σ)} (m : String) (earlier : List Fragment) (f : Fragment) :
      takenOf d.source.calls = earlier ++ [f] → given = partsOf earlier →
      Yields given (.panicked m) d

namespace Kin

variable {given : List Part} {d : Demux (Watched σ)}

theorem accept {f : Fragment} {part : Option Part} {d' : Demux (Watched σ)} {s : Watched σ}
    (h : Kin given d) (hp : Supply.poll d.source = (.fragment f, s))
    (ha : { d with source := s }.accept f = (.ok part, d')) :
    Kin (given ++ part.toList) d' := by
  obtain ⟨hpart, hholds⟩ := Holds.accept (d := { d with source := s }) h.holds ha
  obtain ⟨flow, grown, d₁, -, hcombined, -⟩ := Demux.accept_ok ha
  obtain ⟨hsame, hterminated⟩ := answersOf_accept ha
  have htaken : takenOf d'.source.calls = takenOf d.source.calls ++ [f] := by
    rw [takenOf, hsame, ← takenOf]
    show takenOf s.calls = _
    rw [Watched.calls_poll hp, takenOf_append, takenOf_fragment]
  refine ⟨hterminated.trans h.running, ?_, ?_, ?_⟩
  · rw [htaken]
    exact hholds
  · rw [htaken, partsOf_concat, h.given, hpart]
  · rw [htaken]
    exact h.kindred.concat (h.holds.uniform h.kindred hcombined.grows)

omit [Supply σ] in
/-- Neither the counters nor a supply that has brought no other fragments matter. -/
theorem besides (h : Kin given d) {s : Watched σ} (flow : Flow)
    (htaken : takenOf s.calls = takenOf d.source.calls) :
    Kin given { d with source := s, flow } := by
  refine ⟨h.running, ?_, ?_, ?_⟩
  · rw [htaken]
    exact h.holds
  · rw [htaken]
    exact h.given
  · rw [htaken]
    exact h.kindred

/-- A supply that answers with no fragment has brought none. -/
theorem polled (h : Kin given d) {answer : Delivery} {s : Watched σ}
    (hp : Supply.poll d.source = (answer, s)) (hnone : answer.fragment? = none) :
    Kin given { d with source := s } := by
  refine h.besides d.flow ?_
  rw [Watched.calls_poll hp, takenOf_append, takenOf_poll hnone, List.append_nil]

/-- A demultiplexer that stops without a fragment has taken in all that it took. -/
theorem stopped (h : Kin given d) : Takes given d.stop := by
  refine .ended (takenOf d.source.calls) none rfl ?_ h.given h.kindred
  show takenOf (Supply.cancel d.source).calls = _
  rw [Watched.calls_cancel, takenOf_append]
  rfl

theorem refused {f : Fragment} {r : Refusal} {d' : Demux (Watched σ)} {s : Watched σ}
    (hp : Supply.poll d.source = (.fragment f, s))
    (ha : { d with source := s }.accept f = (.error r, d')) :
    takenOf d'.source.calls = takenOf d.source.calls ++ [f] := by
  rw [Demux.accept_error ha, Watched.calls_giveBack]
  show takenOf s.calls = _
  rw [Watched.calls_poll hp, takenOf_append, takenOf_fragment]

theorem request (h : Kin given d) (n : Nat) : Kin given (d.request n) := by
  by_cases hn : n = 0
  · rw [hn, Demux.request_zero]
    exact h
  · rcases Nat.eq_zero_or_pos d.flow.owed with howed | howed
    · rw [Demux.request_first h.running hn howed]
      refine h.besides _ ?_
      rw [Watched.calls_request, takenOf_append, takenOf_request, List.append_nil]
    · rw [Demux.request_more h.running hn howed]
      exact h.besides _ rfl

theorem pull (h : Kin given d) : Yields given d.pull.1 d.pull.2 := by
  have hnone : ∀ {d : Demux (Watched σ)}, Takes given d → Takes (given ++ []) d :=
    fun h => (List.append_nil given).symm ▸ h
  refine Demux.pull_rule (Kin given) (Yields given) ?_ ?_ ?_ ?_ ?_ ?_ ?_ d h
  · exact fun e s he hp => .takes nofun (hnone (.running (he.polled hp rfl)))
  · exact fun e fault s he hp => .takes nofun (hnone (he.polled hp rfl).stopped)
  · intro e s he hp
    have hpolled := he.polled hp rfl
    exact .takes nofun
      (hnone (.ended _ none rfl (List.append_nil _).symm hpolled.given hpolled.kindred))
  · intro e f s fault e' he hp ha
    refine .takes nofun (hnone (.ended _ (some f) rfl ?_ he.given he.kindred))
    show takenOf (Supply.cancel e'.source).calls = _
    rw [Watched.calls_cancel, takenOf_append, refused hp ha]
    exact List.append_nil _
  · exact fun e f s m e' he hp ha => .panicked m _ f (refused hp ha) he.given
  · exact fun e f s p e' he hp ha => .takes nofun (.running (he.accept hp ha))
  · intro e f s e' he hp ha
    have hnext := he.accept hp ha
    rwa [Option.toList_none, List.append_nil] at hnext

theorem next (h : Kin given d) : Yields given d.next.1 d.next.2 := by
  cases he : d.limits.enabled with
  | false =>
    rw [Demux.next_disabled h.running he]
    exact .takes nofun ((List.append_nil given).symm ▸ h.stopped)
  | true =>
    by_cases howed : d.flow.owed = 0
    · rw [Demux.next_idle h.running he howed]
      exact (h.request 1).pull
    · rw [Demux.next_owed h.running he howed]
      exact h.pull

end Kin

/-! ### Whole bodies -/

theorem Driven.takes {limits : Limits} {s : σ} {l : Ledger} {d : Demux (Watched σ)}
    (h : Driven limits (⟨s, []⟩ : Watched σ) l d) : Takes l.parts d := by
  induction h with
  | start => exact .running ⟨rfl, fun name => rfl, rfl, .nil⟩
  | request n _ ih =>
    cases ih with
    | running hkin => exact .running (hkin.request n.toNat)
    | ended accepted refused ht htaken hgiven hkindred =>
      rw [Demux.request_terminated ht]
      exact .ended accepted refused ht htaken hgiven hkindred
  | @poll l d _ hm ih =>
    rw [l.parts_poll]
    cases ih with
    | running hkin =>
      have hyields := hkin.next
      generalize d.next = answer at *
      obtain ⟨o, d'⟩ := answer
      cases hyields with
      | takes _ hnext => exact hnext
      | panicked m _ _ _ _ => exact absurd rfl (hm m)
    | ended accepted refused ht htaken hgiven hkindred =>
      rw [Demux.next_terminated ht]
      exact .ended accepted refused ht htaken ((List.append_nil _).trans hgiven) hkindred

omit [Supply σ] in
/-- What was delivered comes of fragments that are kindred, and these are the ones that were taken
but for the last. -/
theorem Takes.accepted {given : List Part} {d : Demux (Watched σ)} (h : Takes given d) :
    ∃ accepted, accepted <+: takenOf d.source.calls ∧ given = partsOf accepted ∧
      Kindred accepted := by
  cases h with
  | running hkin => exact ⟨_, List.prefix_rfl, hkin.given, hkin.kindred⟩
  | ended accepted refused _ htaken hgiven hkindred =>
    exact ⟨accepted, htaken ▸ List.prefix_append .., hgiven, hkindred⟩

/-- A fragment with bytes that is taken in does not change the kind of its part. -/
theorem Kindred.keeps_kind {earlier : List Fragment} {f : Fragment} (h : Kindred (earlier ++ [f]))
    (hbears : f.bears) : changesKind earlier f = false := by
  rw [changesKind]
  cases hfirst : (sinceFinal f.field.name earlier).find? Fragment.bears with
  | none => rfl
  | some first => exact ((h.parts earlier f List.prefix_rfl).last hfirst hbears).not_differs

omit [Supply σ] in
/-- A fragment with bytes that changes the kind of its part ends the body. -/
theorem Judged.ended_by_change {limits : Limits} {l : Ledger} {d : Demux (Watched σ)}
    (h : Judged limits l d) {earlier : List Fragment} {f : Fragment}
    (hseen : earlier ++ [f] <+: takenOf d.source.calls) (hbears : f.bears)
    (hchanges : changesKind earlier f) :
    takenOf d.source.calls = earlier ++ [f] ∧ d.terminated = true ∧
      ∃ e, .fault e ∈ l.answers ∧
        (e = .requestTooLarge (bytesIn (earlier ++ [f])) limits.maxBody ∨
          e = .malformed s!"field '{f.field.name}' changed its kind mid-part") := by
  have hviolates : ∃ e, (violations limits earlier f).head? = some e ∧
      (e = .requestTooLarge (bytesIn (earlier ++ [f])) limits.maxBody ∨
        e = .malformed s!"field '{f.field.name}' changed its kind mid-part") := by
    by_cases hlarge : limits.maxBody < bytesIn (earlier ++ [f])
    · refine ⟨_, ?_, .inl rfl⟩
      simp only [violations, if_pos (And.intro hbears hlarge)]
      rfl
    · refine ⟨_, ?_, .inr rfl⟩
      have hfits : ¬ (f.bears ∧ limits.maxBody < bytesIn (earlier ++ [f])) :=
        fun hcontra => hlarge hcontra.2
      simp only [violations, if_neg hfits, if_pos (And.intro hbears hchanges)]
      rfl
  obtain ⟨e, hhead, he⟩ := hviolates
  -- fragments that violate nothing do not change the kind of a part
  have hclean : ∀ {taken}, Abides limits taken → ¬ earlier ++ [f] <+: taken := by
    intro taken habides hmem
    rw [habides earlier f hmem] at hhead
    cases hhead
  rw [← fragmentsIn_itemsOf] at hseen ⊢
  cases h with
  | running taken hl ha =>
    rw [ha.items, fragmentsIn_ok] at hseen
    exact absurd hseen (hclean ha.clean)
  | finished taken hl ht hitems habides _ =>
    rw [hitems, fragmentsIn_ok] at hseen
    exact absurd hseen (hclean habides)
  | fault e' before last ht hl hitems habides hdeserves =>
    rw [hitems, fragmentsIn_append, fragmentsIn_ok] at hseen ⊢
    cases last with
    | error fault =>
      rw [fragmentsIn_cons_fault, fragmentsIn_nil, List.append_nil] at hseen
      exact absurd hseen (hclean habides)
    | ok g =>
      rcases List.prefix_concat_iff.mp hseen with heq | hold
      · obtain ⟨rfl, hlast⟩ := List.append_inj' heq rfl
        obtain rfl := List.singleton_inj.mp hlast
        obtain rfl := Option.some.inj (hhead.symm.trans hdeserves)
        exact ⟨rfl, ht, e, (hl e).mpr rfl, he⟩
      · exact absurd hold (hclean habides)

/-- **A part keeps its kind.** However a consumer drives a demultiplexer, a fragment with bytes
whose field differs from the one that its part has so far is the last one that is taken. It ends the
body with a fault, and the parts that were delivered are those that the fragments in front of it
come to. Each part that is delivered agrees with every fragment that brought bytes of it, and it has
the name of the final fragment that completed it. A poll that panics does so over a fragment whose
field cannot be compared, and it delivers no part. -/
theorem parts_agree {limits : Limits} {s : σ} {l : Ledger} {d : Demux σ}
    (he : limits.enabled = true) (h : Driven limits s l d) :
    ∃ w : Demux (Watched σ), Driven limits ⟨s, []⟩ l w ∧ w.map Watched.source = d ∧
      (∀ earlier f, earlier ++ [f] <+: takenOf w.source.calls → f.bears →
        changesKind earlier f →
          takenOf w.source.calls = earlier ++ [f] ∧ d.terminated = true ∧
          l.parts = partsOf earlier ∧ ∃ e, .fault e ∈ l.answers ∧
            (e = .requestTooLarge (bytesIn (earlier ++ [f])) limits.maxBody ∨
              e = .malformed s!"field '{f.field.name}' changed its kind mid-part")) ∧
      (∀ p ∈ l.parts, ∃ earlier f, earlier ++ [f] <+: takenOf w.source.calls ∧
        f.final = true ∧ p.field.name = f.field.name ∧
        p.content = (sinceFinal f.field.name earlier ++ [f]).flatMap (·.data.bytes) ∧
        ∀ g ∈ sinceFinal f.field.name earlier ++ [f], g.bears →
          p.field = g.field ∨ p.field.Agrees g.field) ∧
      ∀ m, d.next.1 = .panicked m → d.terminated = false ∧
        ∃ earlier f, takenOf w.next.2.source.calls = earlier ++ [f] ∧
          l.parts = partsOf earlier ∧ Tears limits earlier f m := by
  obtain ⟨w, hw, rfl⟩ := h.watched
  refine ⟨w, hw, rfl, fun earlier f hseen hbears hchanges => ?_, fun p hp => ?_,
    fun m hm => ?_⟩
  · obtain ⟨htaken, ht, hfault⟩ := (hw.judged he).ended_by_change hseen hbears hchanges
    refine ⟨htaken, ht, ?_, hfault⟩
    cases hw.takes with
    | running hkin => exact nomatch ht.symm.trans hkin.running
    | ended accepted refused _ hsplit hgiven hkindred =>
      rw [htaken] at hsplit
      cases refused with
      | none =>
        rw [Option.toList_none, List.append_nil] at hsplit
        exact nomatch ((hsplit ▸ hkindred).keeps_kind hbears).symm.trans hchanges
      | some g =>
        obtain ⟨rfl, -⟩ := List.append_inj' hsplit rfl
        exact hgiven
  · obtain ⟨accepted, haccepted, hgiven, hkindred⟩ := hw.takes.accepted
    obtain ⟨earlier, f, hseen, hcompleted⟩ := completed_of_mem (hgiven ▸ hp)
    obtain ⟨hfinal, hname, hcontent, first, hfirst, hfield⟩ := completedBy_eq_some hcompleted
    refine ⟨earlier, f, hseen.trans haccepted, hfinal, hname, hcontent, fun g hg hbears => ?_⟩
    rw [hfield]
    exact (hkindred.parts earlier f hseen).agrees hfirst hg hbears
  · rw [Demux.map_next Watched.faithful w] at hm
    cases hw.takes with
    | ended _ _ ht _ _ _ =>
      rw [Demux.next_terminated ht] at hm
      cases hm
    | running hkin =>
      have hyields := hkin.next
      cases hw.judged he with
      | finished _ _ ht _ _ _ => exact nomatch ht.symm.trans hkin.running
      | fault _ _ _ ht _ _ _ _ => exact nomatch ht.symm.trans hkin.running
      | running taken hl ha =>
        have hjudges := ha.next he
        refine ⟨hkin.running, ?_⟩
        generalize w.next = answer at *
        obtain ⟨o, w'⟩ := answer
        cases hm
        cases hyields with
        | takes hnot _ => exact absurd rfl (hnot m)
        | panicked _ earlier f htaken hgiven =>
          cases hjudges with
          | goes _ hgoes _ => cases hgoes
          | panicked _ earlier' f' hitems _ htears =>
            have hsplit := htaken
            rw [← fragmentsIn_itemsOf, hitems, fragmentsIn_append, fragmentsIn_ok] at hsplit
            obtain ⟨rfl, hlast⟩ := List.append_inj' hsplit rfl
            obtain rfl := List.singleton_inj.mp hlast
            exact ⟨_, _, htaken, hgiven, htears⟩

/-- A whole field, and then a simple value that goes on as an upload. -/
def changing : Demux Replay where
  source := .ofEvents
    [.fragment ⟨{ name := "b" }, { bytes := [2] }, true⟩,
      .fragment ⟨{ name := "a" }, { bytes := [1] }, false⟩,
      .fragment ⟨{ name := "a", kind := .file "f" .octetStream }, { bytes := [3] }, true⟩]
    true false

theorem parts_agree_changing :
    ∃ (l : Ledger) (d : Demux Replay) (w : Demux (Watched Replay)),
      Driven {} changing.source l d ∧ w.map Watched.source = d ∧
      .fault (.malformed "field 'a' changed its kind mid-part") ∈ l.answers ∧
      l.parts = [⟨{ name := "b" }, [2]⟩] ∧
      ∃ earlier f, earlier ++ [f] <+: takenOf w.source.calls ∧ f.final = true ∧
        "b" = f.field.name := by
  have hfirst : changing.next.1 = .part ⟨{ name := "b" }, [2]⟩ := by cbv
  have hsecond : changing.next.2.next.1 =
      .fault (.malformed "field 'a' changed its kind mid-part") := by cbv
  have hstart : Driven {} changing.source {} changing := .start
  have hdriven := (hstart.poll (by rw [hfirst]; rintro m ⟨⟩)).poll (by rw [hsecond]; rintro m ⟨⟩)
  have hanswers : ((Ledger.poll changing {}).poll changing.next.2).answers =
      [.part ⟨{ name := "b" }, [2]⟩,
        .fault (.malformed "field 'a' changed its kind mid-part")] := by
    simp only [Ledger.poll, hfirst, hsecond]
    rfl
  have hparts : ((Ledger.poll changing {}).poll changing.next.2).parts =
      [⟨{ name := "b" }, [2]⟩] := by
    rw [Ledger.parts, hanswers]
    rfl
  obtain ⟨w, -, hw, -, hagree, -⟩ := parts_agree rfl hdriven
  obtain ⟨earlier, f, hseen, hfinal, hname, -⟩ :=
    hagree ⟨{ name := "b" }, [2]⟩ (hparts ▸ List.mem_singleton_self _)
  exact ⟨_, _, w, hdriven, hw, by rw [hanswers]; simp, hparts, earlier, f, hseen, hfinal, hname⟩

/-- Some bytes of a simple value, and then the end of an upload of the same name. -/
def mixed : Demux Replay where
  source := .ofEvents
    [.fragment ⟨{ name := "a" }, { bytes := [1] }, false⟩,
      .fragment ⟨{ name := "a", kind := .file "f" .octetStream }, { bytes := [] }, true⟩] true false

/-- A part may be completed by a fragment of another kind, if that one brings no bytes. -/
theorem completed_by_another_kind :
    ∃ first last : Fragment, mixed.source = .ofEvents [.fragment first, .fragment last] true false ∧
      first.bears ∧ last.final = true ∧ ¬ first.field.Agrees last.field ∧
      mixed.next.1 = .part ⟨first.field, first.data.bytes⟩ := by
  refine ⟨_, _, rfl, rfl, rfl, fun h => h.2, ?_⟩
  cbv

end Exchange.Multipart
