import Exchange.Proofs.Http.Media
import Exchange.Proofs.Multipart.Violations

/-!
How a body is cut into fragments.

Empty fragments can be left out or moved behind the fragment that they make final, and a payload can
be split among fragments of its field: the parts of the body stay the same, and so does whether it
comes to its end (`rechunking`). A limit that a payload exceeds as a whole may be found exceeded
earlier, or something else may be found first (`Ends`). What else is found may be a media type that
cannot be compared, and then a poll panics where it reported a fault (`splitting_may_tear`).
-/
namespace Exchange.Multipart

/-! ### Rewrites -/

/-- Rewrites that leave payloads whole. -/
inductive Trims : List Item → List Item → Prop where
  /-- an empty fragment is left out that is not final -/
  | empty (before : List Item) (f : Fragment) (after : List Item) : f.data.bytes = [] →
      f.final = false → Trims (before ++ .ok f :: after) (before ++ after)
  /-- an empty final fragment is left out whose field holds no bytes -/
  | vacant (before : List Item) (f : Fragment) (after : List Item) : f.data.bytes = [] →
      f.final = true → joined (sinceFinal f.field.name (fragmentsIn before)) = none →
      Trims (before ++ .ok f :: after) (before ++ after)
  /-- an empty fragment is final in place of the one in front of it -/
  | late (before : List Item) (f : Fragment) (b : Buffer) (after : List Item) :
      f.data.bytes ≠ [] → f.final = true → b.bytes = [] →
      Trims (before ++ .ok f :: after)
        (before ++ .ok { f with final := false } :: .ok ⟨f.field, b, true⟩ :: after)

/-- A field is the same as itself. -/
theorem Field.same_self (field : Field) : field.same? field = .ok true := by
  rw [Field.same?, if_pos rfl]
  match field.kind with
  | .attribute => rfl
  | .file filename m => rw [FieldKind.same?, if_pos rfl, m.same_self]

/-- Fragments of one field, of which the last may be final. -/
def fragmentsOf (field : Field) (final : Bool) : List Buffer → List Fragment
  | [] => []
  | [b] => [⟨field, b, final⟩]
  | b :: more => ⟨field, b, false⟩ :: fragmentsOf field final more

/-- A payload is split among fragments of its field, none of which is empty. -/
inductive Splits : List Item → List Item → Prop where
  | mk (before : List Item) (f : Fragment) (buffers : List Buffer) (after : List Item) :
      f.data.bytes ≠ [] → (∀ b ∈ buffers, b.bytes ≠ []) →
      buffers.flatMap (·.bytes) = f.data.bytes →
      Splits (before ++ .ok f :: after)
        (before ++ (fragmentsOf f.field f.final buffers).map .ok ++ after)

/-! ### Endings -/

/-- How a body may end whose payloads are split that ended in another way before. -/
inductive Ends : Outcome → Outcome → Prop where
  | same (o : Outcome) : Ends o o
  /-- the part is found too large earlier -/
  | part (name : String) (size size' max : Nat) :
      Ends (.fault (.partTooLarge name size max)) (.fault (.partTooLarge name size' max))
  /-- what comes before the limit of the body has something else wrong with it -/
  | body (total max : Nat) (e : Fault) : Ends (.fault (.requestTooLarge total max)) (.fault e)
  /-- what comes before the limit of the body cannot be compared -/
  | torn (total max : Nat) (m : String) : Ends (.fault (.requestTooLarge total max)) (.panicked m)

theorem Ends.trans {a b c : Outcome} (h : Ends a b) (h' : Ends b c) : Ends a c := by
  cases h with
  | same => exact h'
  | part name size size' max =>
    cases h' with
    | same => exact .part name size size' max
    | part _ _ size'' _ => exact .part name size size'' max
  | body total max e =>
    cases h' with
    | same => exact .body total max e
    | part name _ size' max' => exact .body total max _
    | body _ _ e' => exact .body total max e'
    | torn _ _ m => exact .torn total max m
  | torn total max m =>
    cases h' with
    | same => exact .torn total max m

/-- A body comes to its end in both cases or in neither. -/
theorem Ends.finished {o o' : Outcome} (h : Ends o o') : o = .finished ↔ o' = .finished := by
  cases h with
  | same => exact Iff.rfl
  | _ => exact ⟨nofun, nofun⟩

/-- The same parts, and endings that may take each other's place. -/
def Alike (told told' : List Outcome) : Prop :=
  ∃ (parts : List Part) (o o' : Outcome),
    told = parts.map .part ++ [o] ∧ told' = parts.map .part ++ [o'] ∧ Ends o o'

namespace Alike

variable {a b c : List Outcome}

theorem ends {o o' : Outcome} (h : Ends o o') : Alike [o] [o'] := ⟨[], o, o', rfl, rfl, h⟩

theorem parts (ps : List Part) (h : Alike a b) : Alike (ps.map .part ++ a) (ps.map .part ++ b) := by
  obtain ⟨more, o, o', rfl, rfl, hends⟩ := h
  exact ⟨ps ++ more, o, o', by simp, by simp, hends⟩

theorem trans (h : Alike a b) (h' : Alike b c) : Alike a c := by
  obtain ⟨ps, o, o₁, rfl, hb, hends⟩ := h
  obtain ⟨ps', o₂, o', hb', rfl, hends'⟩ := h'
  obtain ⟨hparts, hlast⟩ := List.append_inj' (hb.symm.trans hb') rfl
  obtain rfl := List.map_injective_iff.mpr (fun _ _ => Outcome.part.inj) hparts
  obtain rfl := List.singleton_inj.mp hlast
  exact ⟨ps, o, o', rfl, rfl, hends.trans hends'⟩

end Alike

/-! ### What is told of one fragment -/

def Refusal.outcome : Refusal → Outcome
  | .fault e => .fault e
  | .panic m => .panicked m

theorem Ends.of_body (total max : Nat) (r : Refusal) :
    Ends (.fault (.requestTooLarge total max)) r.outcome := by
  cases r with
  | fault e => exact .body total max e
  | panic m => exact .torn total max m

namespace Demux

/-- What is told of a fragment that came to some result, and of the items behind it. -/
def tellsOf (rest : List Item) :
    Except Refusal (Option Part) × Demux Unsupplied → List Outcome
  | (.error r, _) => [r.outcome]
  | (.ok part, d) => part.toList.map .part ++ d.tellsFrom rest

variable {d d' : Demux Unsupplied} {f : Fragment}

theorem tellsFrom_ok (d : Demux Unsupplied) (f : Fragment) (rest : List Item) :
    d.tellsFrom (.ok f :: rest) = tellsOf rest ((d.bare ⟨1, 0⟩).combine f) := by
  have harrive : (d.bare ⟨1, 1⟩).flow.arrive? = some ⟨1, 0⟩ := rfl
  rw [tellsFrom, accept, harrive]
  dsimp only [bare]
  rcases combine f _ with ⟨result, d'⟩
  cases result with
  | error r => cases r <;> rfl
  | ok part =>
    have hbare := tellsFrom_bare d'.refill.flow d' rest
    exact congrArg (part.toList.map Outcome.part ++ ·) hbare

/-- An empty fragment that is not final is not told of. -/
theorem tellsFrom_empty (d : Demux Unsupplied) (hb : f.data.bytes = []) (hfinal : f.final = false)
    (rest : List Item) : d.tellsFrom (.ok f :: rest) = d.tellsFrom rest := by
  rw [tellsFrom_ok, combine, hb, hfinal]
  exact tellsFrom_bare ⟨1, 0⟩ d rest

/-- An empty final fragment closes its field. -/
theorem tellsFrom_close (d : Demux Unsupplied) (hb : f.data.bytes = []) (hfinal : f.final = true)
    (rest : List Item) :
    d.tellsFrom (.ok f :: rest) = tellsOf rest ((d.bare ⟨1, 0⟩).close f.field.name) := by
  rw [tellsFrom_ok, combine, hb, hfinal]
  rfl

/-- A fragment whose bytes cannot be stored is the last thing told of. -/
theorem tellsFrom_unstored {r : Refusal} (hb : f.data.bytes ≠ [])
    (h : (d.bare ⟨1, 0⟩).store f.field f.data = (.error r, d')) (rest : List Item) :
    d.tellsFrom (.ok f :: rest) = [r.outcome] := by
  rw [tellsFrom_ok, combine, if_neg (by simpa using hb), h]
  rfl

/-- A fragment whose bytes are stored closes its field if it is final. -/
theorem tellsFrom_stored (hb : f.data.bytes ≠ [])
    (h : (d.bare ⟨1, 0⟩).store f.field f.data = (.ok (), d')) (rest : List Item) :
    d.tellsFrom (.ok f :: rest) =
      if f.final then tellsOf rest (d'.close f.field.name) else d'.tellsFrom rest := by
  rw [tellsFrom_ok, combine, if_neg (by simpa using hb), h]
  cases f.final <;> rfl

/-! ### A payload in two pieces -/

/-- Without a supply a payload is its bytes. -/
theorem store_bytes {b c : Buffer} (h : b.bytes = c.bytes) (field : Field) (d : Demux Unsupplied) :
    d.store field b = d.store field c := by
  obtain ⟨bytes, counted⟩ := b
  obtain ⟨bytes', counted'⟩ := c
  cases h
  rfl

theorem store_oversized {field : Field} {b : Buffer} (d : Demux Unsupplied)
    (h : d.limits.maxBody < d.received + b.size) :
    d.store field b = (.error (.fault (.requestTooLarge (d.received + b.size) d.limits.maxBody)),
      { d with received := d.received + b.size }) := by
  rw [store, if_pos h]
  rfl

theorem store_unassembled {field : Field} {b : Buffer} {r : Refusal}
    (h : ¬ d.limits.maxBody < d.received + b.size) (ha : d.assemblyFor field = .error r) :
    d.store field b = (.error r, { d with received := d.received + b.size }) := by
  have ha' : { d with received := d.received + b.size }.assemblyFor field = .error r := ha
  rw [store, if_neg h, ha']
  rfl

theorem store_assembled {field : Field} {b : Buffer} {a : Assembly}
    (h : ¬ d.limits.maxBody < d.received + b.size) (ha : d.assemblyFor field = .ok a) :
    d.store field b =
      if a.limit < a.size + b.size then
        (.error (.fault (.partTooLarge a.field.name (a.size + b.size) a.limit)),
          { d with received := d.received + b.size })
      else
        (.ok (), { d with
          received := d.received + b.size
          unfinished := (field.name, { a with content := a.content ++ b.bytes }) ::
            d.unfinished.filter (·.1 != field.name) }) := by
  have ha' : { d with received := d.received + b.size }.assemblyFor field = .ok a := ha
  rw [store, if_neg h, ha']
  dsimp only [Assembly.append]
  by_cases hsize : a.limit < a.size + b.size
  · rw [if_pos hsize, Assembly.extend_of_lt hsize]
    rfl
  · rw [if_neg hsize, Assembly.extend_of_le (Nat.not_lt.mp hsize)]
    rfl

/-- The next payload of a field finds what the last one left. -/
theorem assemblyFor_stored {field : Field} {b : Buffer} {a : Assembly}
    (h : d.store field b = (.ok (), d')) (ha : d.assemblyFor field = .ok a) :
    d'.assemblyFor field = .ok { a with content := a.content ++ b.bytes } := by
  obtain ⟨-, kept, grown, hkept, hgrown, rfl⟩ := store_ok h
  obtain rfl := Except.ok.inj (ha.symm.trans hkept)
  obtain ⟨-, rfl⟩ := extend_ok hgrown
  have hsame : a.field.same? field = .ok true := by
    rcases assemblyFor_ok ha with ⟨-, rfl⟩ | ⟨-, hsame⟩
    · exact field.same_self
    · exact hsame
  rw [assemblyFor, List.lookup_cons_self]
  dsimp only
  rw [hsame]

/-- What storing a payload at once comes to, beside storing it in two pieces. -/
inductive Halved (field : Field) (a b : Buffer) (d : Demux Unsupplied) :
    Except Refusal Unit × Demux Unsupplied → Prop where
  | stored {d₁ d₂ : Demux Unsupplied} : d.store field a = (.ok (), d₁) →
      d₁.store field b = (.ok (), d₂) → Halved field a b d (.ok (), d₂)
  | first {d₁ d₂ : Demux Unsupplied} {r r' : Refusal} : d.store field a = (.error r', d₁) →
      Ends r.outcome r'.outcome → Halved field a b d (.error r, d₂)
  | second {d₁ d₂ d₃ : Demux Unsupplied} {r r' : Refusal} : d.store field a = (.ok (), d₁) →
      d₁.store field b = (.error r', d₂) → Ends r.outcome r'.outcome →
      Halved field a b d (.error r, d₃)

theorem store_halved (field : Field) {a b c : Buffer} (hbytes : c.bytes = a.bytes ++ b.bytes)
    (d : Demux Unsupplied) : Halved field a b d (d.store field c) := by
  have hsize : c.size = a.size + b.size := by
    rw [Buffer.size, hbytes, List.length_append]
    rfl
  by_cases hbody : d.limits.maxBody < d.received + c.size
  · rw [store_oversized d hbody]
    rcases ha : d.store field a with ⟨result, d₁⟩
    cases result with
    | error r => exact .first ha (Ends.of_body _ _ r)
    | ok =>
      obtain ⟨-, kept, grown, -, -, rfl⟩ := store_ok ha
      refine .second ha (store_oversized _ ?_) (.body _ _ _)
      rw [hsize, ← Nat.add_assoc] at hbody
      exact hbody
  have hfirst : ¬ d.limits.maxBody < d.received + a.size := by omega
  cases hkept : d.assemblyFor field with
  | error r =>
    rw [store_unassembled hbody hkept]
    exact .first (store_unassembled hfirst hkept) (.same _)
  | ok kept =>
    rw [store_assembled hbody hkept]
    have ha := store_assembled hfirst hkept
    by_cases hlarge : kept.limit < kept.size + a.size
    · rw [if_pos hlarge] at ha
      rw [if_pos (by omega)]
      exact .first ha (.part ..)
    rw [if_neg hlarge] at ha
    have hthen : ¬ d.limits.maxBody < d.received + a.size + b.size := by omega
    have hb := store_assembled (b := b) hthen (assemblyFor_stored ha hkept)
    have hboth : ({ kept with content := kept.content ++ a.bytes } : Assembly).size =
        kept.size + a.size := List.length_append
    rw [hboth] at hb
    dsimp only at hb
    by_cases hsecond : kept.limit < kept.size + c.size
    · rw [if_pos hsecond]
      rw [if_pos (by omega)] at hb
      exact .second ha hb (.part ..)
    · rw [if_neg hsecond]
      rw [if_neg (by omega)] at hb
      refine .stored ha (hb.trans ?_)
      rw [hsize, hbytes, Nat.add_assoc, List.append_assoc, List.filter_cons_of_neg (by simp),
        List.filter_filter]
      simp only [Bool.and_self]

/-! ### What is told of rewritten items -/

/-- A demultiplexer that owes one part and has no fragment outstanding is bare. -/
theorem bare_self (h : d.flow = ⟨1, 0⟩) : d.bare ⟨1, 0⟩ = d := by
  obtain ⟨source, limits, flow, unfinished, received, completed, terminated⟩ := d
  cases h
  rfl

theorem bare_stored {field : Field} {b : Buffer} {result : Except Refusal Unit}
    (h : (d.bare ⟨1, 0⟩).store field b = (result, d')) : d'.bare ⟨1, 0⟩ = d' := by
  have hflow := flow_store field b (d.bare ⟨1, 0⟩)
  rw [h] at hflow
  exact bare_self hflow

/-- It does not matter whether a field is closed by its last fragment with bytes or by an empty one
behind that. -/
theorem tellsFrom_late {b : Buffer} (d : Demux Unsupplied) (hb : f.data.bytes ≠ [])
    (hfinal : f.final = true) (hempty : b.bytes = []) (rest : List Item) :
    d.tellsFrom (.ok f :: rest) =
      d.tellsFrom (.ok { f with final := false } :: .ok ⟨f.field, b, true⟩ :: rest) := by
  have hb' : ({ f with final := false } : Fragment).data.bytes ≠ [] := hb
  rcases hstore : (d.bare ⟨1, 0⟩).store f.field f.data with ⟨result, d'⟩
  cases result with
  | error r => rw [tellsFrom_unstored hb hstore, tellsFrom_unstored hb' hstore]
  | ok =>
    have hclose := tellsFrom_close d' (f := ⟨f.field, b, true⟩) hempty rfl rest
    rw [bare_stored hstore] at hclose
    rw [tellsFrom_stored hb hstore, if_pos hfinal, tellsFrom_stored hb' hstore,
      if_neg Bool.false_ne_true, hclose]

theorem tellsFrom_ends (d : Demux Unsupplied) (items : List Item) :
    ∃ (parts : List Part) (o : Outcome), d.tellsFrom items = parts.map .part ++ [o] := by
  induction items generalizing d with
  | nil => exact ⟨[], .finished, rfl⟩
  | cons i rest ih =>
    cases i with
    | error e => exact ⟨[], .fault e, rfl⟩
    | ok f =>
      rw [tellsFrom_ok]
      rcases (d.bare ⟨1, 0⟩).combine f with ⟨result, d'⟩
      cases result with
      | error r => exact ⟨[], r.outcome, rfl⟩
      | ok part =>
        obtain ⟨parts, o, hrest⟩ := ih d'
        exact ⟨part.toList ++ parts, o, by simp [tellsOf, hrest]⟩

theorem tellsFrom_alike (d : Demux Unsupplied) (items : List Item) :
    Alike (d.tellsFrom items) (d.tellsFrom items) := by
  obtain ⟨parts, o, hitems⟩ := d.tellsFrom_ends items
  exact ⟨parts, o, o, hitems, hitems, .same o⟩

/-- A payload at once and in two pieces. -/
theorem tellsFrom_halved {field : Field} {a b c : Buffer} (ha : a.bytes ≠ []) (hb : b.bytes ≠ [])
    (hbytes : c.bytes = a.bytes ++ b.bytes) (final : Bool) (d : Demux Unsupplied)
    (rest : List Item) :
    Alike (d.tellsFrom (.ok ⟨field, c, final⟩ :: rest))
      (d.tellsFrom (.ok ⟨field, a, false⟩ :: .ok ⟨field, b, final⟩ :: rest)) := by
  have hc : c.bytes ≠ [] := by simp [hbytes, ha]
  have hhalved := store_halved field hbytes (d.bare ⟨1, 0⟩)
  rcases hwhole : (d.bare ⟨1, 0⟩).store field c with ⟨result, d'⟩
  rw [hwhole] at hhalved
  cases hhalved with
  | first hstore hends =>
    rw [tellsFrom_unstored (f := ⟨field, c, final⟩) hc hwhole,
      tellsFrom_unstored (f := ⟨field, a, false⟩) ha hstore]
    exact .ends hends
  | second hstore hstore' hends =>
    rw [← bare_stored hstore] at hstore'
    rw [tellsFrom_unstored (f := ⟨field, c, final⟩) hc hwhole,
      tellsFrom_stored (f := ⟨field, a, false⟩) ha hstore, if_neg Bool.false_ne_true,
      tellsFrom_unstored (f := ⟨field, b, final⟩) hb hstore']
    exact .ends hends
  | stored hstore hstore' =>
    rw [← bare_stored hstore] at hstore'
    have hsame : d.tellsFrom (.ok ⟨field, a, false⟩ :: .ok ⟨field, b, final⟩ :: rest) =
        d.tellsFrom (.ok ⟨field, c, final⟩ :: rest) := by
      rw [tellsFrom_stored (f := ⟨field, a, false⟩) ha hstore, if_neg Bool.false_ne_true,
        tellsFrom_stored (f := ⟨field, b, final⟩) hb hstore',
        tellsFrom_stored (f := ⟨field, c, final⟩) hc hwhole]
    rw [hsame]
    exact tellsFrom_alike ..

end Demux

/-! ### In the middle of a body -/

/-- A way of comparing what is told that does not mind parts in front. -/
structure Compares (same : List Outcome → List Outcome → Prop) : Prop where
  last : ∀ o, same [o] [o]
  parts : ∀ (ps : List Part) {a b}, same a b → same (ps.map .part ++ a) (ps.map .part ++ b)

theorem Compares.eq : Compares Eq where
  last _ := rfl
  parts ps _ _ h := congrArg (ps.map Outcome.part ++ ·) h

theorem Alike.compares : Compares Alike where
  last o := .ends (.same o)
  parts ps _ _ h := h.parts ps

namespace Compares

variable {same : List Outcome → List Outcome → Prop} {a b : List Item} {d : Demux Unsupplied}

theorem cons (h : Compares same) {i : Item}
    (hrest : ∀ f part d', i = .ok f → (d.bare ⟨1, 1⟩).accept f = (.ok part, d') →
      same (d'.tellsFrom a) (d'.tellsFrom b)) :
    same (d.tellsFrom (i :: a)) (d.tellsFrom (i :: b)) := by
  cases i with
  | error e => exact h.last _
  | ok f =>
    rw [Demux.tellsFrom, Demux.tellsFrom]
    split
    · exact h.last _
    · exact h.last _
    · next part d' haccept => exact h.parts _ (hrest f part d' rfl haccept)

/-- Items that are told of alike by every demultiplexer that took the items in front of them are
told of alike behind these. -/
theorem behind (h : Compares same) {before : List Item} {taken : List Fragment}
    (hd : Holds taken d)
    (hrest : ∀ d', Holds (taken ++ fragmentsIn before) d' →
      same (d'.tellsFrom a) (d'.tellsFrom b)) :
    same (d.tellsFrom (before ++ a)) (d.tellsFrom (before ++ b)) := by
  induction before generalizing taken d with
  | nil => exact hrest d (by simpa using hd)
  | cons i rest ih =>
    refine h.cons fun f part d' hi haccept => ?_
    have hd' : Holds (taken ++ [f]) d' := (Holds.accept (d := d.bare ⟨1, 1⟩) hd haccept).2
    refine ih hd' fun d'' hd'' => hrest d'' ?_
    rw [hi]
    rw [List.append_assoc] at hd''
    exact hd''

/-- The same of whole bodies. -/
theorem transcript (h : Compares same) {before : List Item} (limits : Limits)
    (hrest : ∀ d : Demux Unsupplied, Holds (fragmentsIn before) d →
      same (d.tellsFrom a) (d.tellsFrom b)) :
    same (transcript limits (before ++ a)) (transcript limits (before ++ b)) := by
  unfold Multipart.transcript Demux.tells
  cases limits.enabled with
  | false => exact h.last _
  | true =>
    have hstart : Holds [] (Demux.bare ⟨1, 1⟩ { source := Unsupplied.mk, limits }) := fun _ => rfl
    exact h.behind hstart hrest

end Compares

/-- A payload at once and in any number of pieces. -/
theorem Demux.tellsFrom_pieces (field : Field) (final : Bool) (rest : List Item) {c : Buffer}
    {buffers : List Buffer} (hc : c.bytes ≠ []) (hbuffers : ∀ b ∈ buffers, b.bytes ≠ [])
    (hbytes : buffers.flatMap (·.bytes) = c.bytes) (d : Demux Unsupplied) :
    Alike (d.tellsFrom (.ok ⟨field, c, final⟩ :: rest))
      (d.tellsFrom ((fragmentsOf field final buffers).map .ok ++ rest)) := by
  induction buffers generalizing c d with
  | nil => exact absurd hbytes.symm hc
  | cons b more ih =>
    obtain ⟨hb, hmore⟩ := List.forall_mem_cons.mp hbuffers
    rw [List.flatMap_cons] at hbytes
    cases more with
    | nil =>
      rw [List.flatMap_nil, List.append_nil] at hbytes
      have hsame : d.tellsFrom (.ok ⟨field, b, final⟩ :: rest) =
          d.tellsFrom (.ok ⟨field, c, final⟩ :: rest) := by
        rw [tellsFrom_ok, tellsFrom_ok, combine, combine]
        dsimp only
        rw [store_bytes hbytes, hbytes]
        rfl
      show Alike _ (d.tellsFrom (.ok ⟨field, b, final⟩ :: rest))
      rw [hsame]
      exact tellsFrom_alike ..
    | cons b' more =>
      let c' : Buffer := { bytes := (b' :: more).flatMap (·.bytes) }
      have hc' : c'.bytes ≠ [] := by
        show (b' :: more).flatMap (·.bytes) ≠ []
        simp [hmore b' List.mem_cons_self]
      refine (tellsFrom_halved hb hc' hbytes.symm final d rest).trans ?_
      exact Alike.compares.cons fun _ _ d' _ _ => ih hc' hmore rfl d'

/-! ### Whole bodies -/

theorem Trims.transcript {items items' : List Item} (h : Trims items items') (limits : Limits) :
    transcript limits items = transcript limits items' := by
  cases h with
  | empty before f after hb hfinal =>
    exact Compares.eq.transcript limits fun d _ => d.tellsFrom_empty hb hfinal after
  | vacant before f after hb hfinal hvacant =>
    refine Compares.eq.transcript limits fun d hd => ?_
    have hnone := hd f.field.name
    rw [hvacant] at hnone
    have hclose : (d.bare ⟨1, 0⟩).close f.field.name = (.ok none, d.bare ⟨1, 0⟩) := by
      rw [Demux.close, show (d.bare ⟨1, 0⟩).unfinished.lookup f.field.name = none from hnone]
    rw [d.tellsFrom_close hb hfinal, hclose]
    exact Demux.tellsFrom_bare ⟨1, 0⟩ d after
  | late before f b after hbytes hfinal hb =>
    exact Compares.eq.transcript limits fun d _ => d.tellsFrom_late hbytes hfinal hb after

theorem Splits.transcript {items items' : List Item} (h : Splits items items') (limits : Limits) :
    Alike (transcript limits items) (transcript limits items') := by
  cases h with
  | mk before f buffers after hf hbuffers hbytes =>
    rw [List.append_assoc]
    exact Alike.compares.transcript limits fun d _ =>
      d.tellsFrom_pieces f.field f.final after hf hbuffers hbytes

/-- **Rechunking.** Two consumers read to the end what differs by one rewrite, each in its own way.
If payloads are left whole, both are told the same. If a payload is split, both get the same parts,
and both come to the end of the body or neither does; where neither does, how the one is told that
the body ended may differ from how the other is told, as far as `Ends` lets it. -/
theorem rechunking {limits : Limits} {events events' : List Event} {eager eager' : Bool}
    {l l' : Ledger} {d d' : Demux Replay}
    (h : Alone limits (.ofEvents events true eager) l d)
    (h' : Alone limits (.ofEvents events' true eager') l' d') (hl : l.Over) (hl' : l'.Over) :
    (Trims (itemsAmong events) (itemsAmong events') → l.told = l'.told) ∧
      (Splits (itemsAmong events) (itemsAmong events') →
        ∃ (parts : List Part) (last last' : Outcome),
          l.told = parts.map .part ++ [last] ∧ l'.told = parts.map .part ++ [last'] ∧
            (last = .finished ↔ last' = .finished) ∧ Ends last last') := by
  rw [(told_replayed h).2 hl, (told_replayed h').2 hl']
  refine ⟨fun htrims => htrims.transcript limits, fun hsplits => ?_⟩
  obtain ⟨parts, last, last', htold, htold', hends⟩ := hsplits.transcript limits
  exact ⟨parts, last, last', htold, htold', hends.finished, hends⟩

/-- A field of three bytes in one fragment. -/
def oneFragment : List Item := [.ok ⟨{ name := "a" }, { bytes := [1, 2, 3] }, true⟩]

/-- The same field in two. -/
def twoFragments : List Item :=
  [.ok ⟨{ name := "a" }, { bytes := [1] }, false⟩, .ok ⟨{ name := "a" }, { bytes := [2, 3] }, true⟩]

theorem splits_oneFragment : Splits oneFragment twoFragments :=
  .mk [] ⟨{ name := "a" }, { bytes := [1, 2, 3] }, true⟩ [{ bytes := [1] }, { bytes := [2, 3] }] []
    (by decide) (by decide) rfl

theorem rechunking_twoFragments :
    ∃ (l l' : Ledger) (d d' : Demux Replay),
      Alone {} (.ofItems oneFragment false) l d ∧ Alone {} (.ofItems twoFragments true) l' d' ∧
        l.Over ∧ l'.Over ∧ ∃ (parts : List Part) (last last' : Outcome),
          l.told = parts.map .part ++ [last] ∧ l'.told = parts.map .part ++ [last'] ∧
            (last = .finished ↔ last' = .finished) ∧ Ends last last' := by
  have hstart : Alone {} (Replay.ofItems oneFragment false) _ _ := Follows.start
  have hstart' : Alone {} (Replay.ofItems twoFragments true) _ _ := Follows.start
  obtain ⟨l, d, hrun, hover⟩ := hstart.exists_over
  obtain ⟨l', d', hrun', hover'⟩ := hstart'.exists_over
  exact ⟨l, l', d, d', hrun, hrun', hover, hover',
    (rechunking hrun hrun' hover hover').2 splits_oneFragment⟩

/-- An upload that outgrows a body of five bytes as it changes its media type. -/
def outgrowing : List Item :=
  [.ok ⟨uploadOf "text/plain; x=1", { bytes := [1, 2] }, false⟩,
    .ok ⟨uploadOf "a/b; xx=\"é\"", { bytes := [3, 4, 5, 6, 7] }, true⟩]

/-- The same upload with its second payload split. -/
def outgrowingLate : List Item :=
  [.ok ⟨uploadOf "text/plain; x=1", { bytes := [1, 2] }, false⟩,
    .ok ⟨uploadOf "a/b; xx=\"é\"", { bytes := [3, 4] }, false⟩,
    .ok ⟨uploadOf "a/b; xx=\"é\"", { bytes := [5, 6, 7] }, true⟩]

/-- A body that ends in a fault may end in a panic once a payload of it is split. -/
theorem splitting_may_tear :
    Splits outgrowing outgrowingLate ∧
      ∃ (l l' : Ledger) (d d' : Demux Replay),
        Alone { maxBody := 5 } (.ofItems outgrowing false) l d ∧
          Alone { maxBody := 5 } (.ofItems outgrowingLate false) l' d' ∧ l.Over ∧ l'.Over ∧
          l.told = [.fault (.requestTooLarge 7 5)] ∧
          l'.told = [.panicked (Text.Torn.mk 10 'é' 9).message] := by
  have hsplits : Splits outgrowing outgrowingLate :=
    .mk [.ok ⟨uploadOf "text/plain; x=1", { bytes := [1, 2] }, false⟩]
      ⟨uploadOf "a/b; xx=\"é\"", { bytes := [3, 4, 5, 6, 7] }, true⟩
      [{ bytes := [3, 4] }, { bytes := [5, 6, 7] }] [] (by decide) (by decide) rfl
  have hstart : Alone { maxBody := 5 } (Replay.ofItems outgrowing false) _ _ := Follows.start
  have hstart' : Alone { maxBody := 5 } (Replay.ofItems outgrowingLate false) _ _ := Follows.start
  obtain ⟨l, d, hrun, hover⟩ := hstart.exists_over
  obtain ⟨l', d', hrun', hover'⟩ := hstart'.exists_over
  refine ⟨hsplits, l, l', d, d', hrun, hrun', hover, hover', ?_, ?_⟩
  · exact ((told_replayed hrun).2 hover).trans rfl
  · exact ((told_replayed hrun').2 hover').trans rfl

end Exchange.Multipart
