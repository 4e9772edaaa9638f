import Exchange.Multipart.Assembly
import Exchange.Multipart.Flow
import Exchange.Multipart.Limits
import Exchange.Multipart.Supply

/-!
The demultiplexer of a body: fragments in, complete parts out, under explicit demand.

A `Demux` reads fragments from a supply and puts together the fields they belong to. The consumer
asks for parts with `request`; `next` gives the next one and asks for one itself if none is owed.
It ends once, by completion or by one fault, and from then on its supply is left alone. A fault
and `cancel` cancel the supply and let every unfinished field go. A panic gives the buffer at hand
back and leaves the rest to whoever drops the demultiplexer.

An empty fragment adds nothing to its field. If it is final it still completes the field it names,
provided that field holds bytes. A field that is unfinished when the supply completes is let go.
-/
namespace Exchange.Multipart

structure Demux (σ : Type) where
  source : σ
  limits : Limits := {}
  flow : Flow := {}
  /-- the unfinished fields, by name -/
  unfinished : List (String × Assembly) := []
  /-- bytes of all payloads so far, exact as long as they are fewer than 2 ^ 64 -/
  received : Nat := 0
  /-- parts delivered so far -/
  completed : Nat := 0
  terminated : Bool := false

/-- Why a fragment is not taken in. -/
inductive Refusal where
  | fault (e : Fault)
  | panic (message : String)

/-- The answer of a demultiplexer that is asked for its next part. -/
inductive Outcome where
  | waiting
  | part (p : Part)
  | fault (e : Fault)
  | panicked (message : String)
  | finished

namespace Demux

variable {σ : Type} [Supply σ]

/-- Asks for `n` more parts. -/
def request (n : Nat) (d : Demux σ) : Demux σ :=
  if d.terminated then d
  else
    let (fragments, flow) := d.flow.demand n
    { d with
      flow
      source := if fragments > 0 then Supply.request fragments d.source else d.source }

/-- Ends the body before its time. -/
def stop (d : Demux σ) : Demux σ :=
  { d with terminated := true, source := Supply.cancel d.source, unfinished := [] }

/-- Cancels the body. -/
def cancel (d : Demux σ) : Demux σ := if d.terminated then d else d.stop

/-- Gives the demultiplexer up, and its supply with it. -/
def drop (d : Demux σ) : Demux σ :=
  let d := d.cancel
  { d with source := Supply.drop d.source }

/-- The supply has completed. -/
def finish (d : Demux σ) : Demux σ := { d with terminated := true, unfinished := [] }

/-! ### One fragment -/

/-- Gives a buffer back unused. -/
def giveBack (b : Buffer) (d : Demux σ) : Demux σ :=
  { d with source := Pool.giveBack b d.source }

/-- Keeps an unfinished field, in place of what was kept under that name. -/
def keep (name : String) (a : Assembly) (d : Demux σ) : Demux σ :=
  { d with unfinished := (name, a) :: d.unfinished.filter (·.1 != name) }

/-- The assembly that a payload of `field` goes to: the one kept under its name, provided the
field is still the same, or a new one. -/
def assemblyFor (field : Field) (d : Demux σ) : Except Refusal Assembly :=
  match d.unfinished.lookup field.name with
  | none => .ok ⟨field, d.limits.maxPart, []⟩
  | some a =>
    match a.field.same? field with
    | .ok true => .ok a
    | .ok false => .error (.fault (.malformed s!"field '{field.name}' changed its kind mid-part"))
    | .error torn => .error (.panic torn.message)

/-- Adds a payload to its field. -/
def store (field : Field) (data : Buffer) (d : Demux σ) : Except Refusal Unit × Demux σ :=
  let d := { d with received := d.received + data.size }
  if d.received > d.limits.maxBody then
    (.error (.fault (.requestTooLarge d.received d.limits.maxBody)), d.giveBack data)
  else
    match d.assemblyFor field with
    | .error e => (.error e, d.giveBack data)
    | .ok a =>
      let (result, source) := a.append data d.source
      match result with
      | .error e => (.error (.fault e), { d with source })
      | .ok a => (.ok (), { d with source }.keep field.name a)

/-- Completes the field `name`, if it is unfinished. -/
def close (name : String) (d : Demux σ) : Except Refusal (Option Part) × Demux σ :=
  match d.unfinished.lookup name with
  | none => (.ok none, d)
  | some a =>
    let d := { d with unfinished := d.unfinished.filter (·.1 != name) }
    match d.limits.exhausted? d.completed with
    | some max => (.error (.fault (.tooManyParts max)), d)
    | none =>
      match d.flow.deliver? with
      | none => (.error (.fault (.supply "completed part without demand")), d)
      | some flow => (.ok (some a.complete), { d with flow, completed := d.completed + 1 })

/-- Adds a fragment to its field, and completes the field if the fragment is final. -/
def combine (f : Fragment) (d : Demux σ) : Except Refusal (Option Part) × Demux σ :=
  if f.data.bytes.isEmpty then
    let d := d.giveBack f.data
    if f.final then d.close f.field.name else (.ok none, d)
  else
    match d.store f.field f.data with
    | (.error e, d) => (.error e, d)
    | (.ok (), d) => if f.final then d.close f.field.name else (.ok none, d)

/-- Requests one more fragment if parts are owed that no outstanding fragment could complete. -/
def refill (d : Demux σ) : Demux σ :=
  let (fragments, flow) := d.flow.refill
  { d with
    flow
    source := if fragments > 0 then Supply.request fragments d.source else d.source }

/-- Takes one fragment in. Gives the part it completes, if any. -/
def accept (f : Fragment) (d : Demux σ) : Except Refusal (Option Part) × Demux σ :=
  match d.flow.arrive? with
  | none => (.error (.fault (.supply "received chunk without demand")), d.giveBack f.data)
  | some flow =>
    match { d with flow }.combine f with
    | (.error e, d) => (.error e, d)
    | (.ok part, d) => (.ok part, d.refill)

/-! ### What a fragment leaves ready -/

theorem ready_request (n : Nat) (d : Demux σ) :
    Supply.ready (d.request n).source ≤ Supply.ready d.source := by
  unfold request
  split
  · exact Nat.le_refl _
  · dsimp only
    split
    · exact Supply.ready_request ..
    · exact Nat.le_refl _

theorem ready_store (field : Field) (data : Buffer) (d : Demux σ) :
    Supply.ready (d.store field data).2.source ≤ Supply.ready d.source := by
  unfold store
  dsimp only
  split
  · exact Supply.ready_giveBack ..
  · split
    · exact Supply.ready_giveBack ..
    · dsimp only [Assembly.append]
      split <;> exact Supply.ready_giveBack ..

omit [Supply σ] in
theorem source_close (name : String) (d : Demux σ) : (d.close name).2.source = d.source := by
  unfold close
  split
  · rfl
  · dsimp only
    split
    · rfl
    · split <;> rfl

theorem ready_combine (f : Fragment) (d : Demux σ) :
    Supply.ready (d.combine f).2.source ≤ Supply.ready d.source := by
  have hs := ready_store f.field f.data d
  unfold combine
  dsimp only
  split
  · split
    · rw [source_close]
      exact Supply.ready_giveBack ..
    · exact Supply.ready_giveBack ..
  · split
    · next h => rw [h] at hs; exact hs
    · next h =>
      rw [h] at hs
      split
      · rw [source_close]; exact hs
      · exact hs

theorem ready_refill (d : Demux σ) : Supply.ready d.refill.source ≤ Supply.ready d.source := by
  unfold refill
  dsimp only
  split
  · exact Supply.ready_request ..
  · exact Nat.le_refl _

/-- Taking a fragment in makes no more fragments ready. -/
theorem ready_accept (f : Fragment) (d : Demux σ) :
    Supply.ready (d.accept f).2.source ≤ Supply.ready d.source := by
  unfold accept
  split
  · exact Supply.ready_giveBack ..
  · next flow _ =>
    have := ready_combine f { d with flow }
    split
    · next h => rw [h] at this; exact this
    · next h =>
      rw [h] at this
      exact Nat.le_trans (ready_refill _) this

/-! ### The next part -/

/-- Takes fragments in until one completes a part, or none is ready. -/
def pull (d : Demux σ) : Outcome × Demux σ :=
  match _h : Supply.poll d.source with
  | (.waiting, source) => (.waiting, { d with source })
  | (.failed e, source) => (.fault e, { d with source }.stop)
  | (.finished, source) => (.finished, { d with source }.finish)
  | (.fragment f, source) =>
    match _h' : { d with source }.accept f with
    | (.error (.fault e), d') => (.fault e, d'.stop)
    | (.error (.panic m), d') => (.panicked m, d')
    | (.ok (some p), d') => (.part p, d')
    | (.ok none, d') => d'.pull
termination_by Supply.ready d.source
decreasing_by
  have hle : Supply.ready _ ≤ Supply.ready source := ready_accept f { d with source }
  rw [_h'] at hle
  exact Nat.lt_of_le_of_lt hle (Supply.ready_poll _ _ _ _h)

/-- Asks for the next part. -/
def next (d : Demux σ) : Outcome × Demux σ :=
  if d.terminated then (.finished, d)
  else if !d.limits.enabled then (.fault .disabled, d.stop)
  else (if d.flow.owed = 0 then d.request 1 else d).pull

/-- Asks, in the way of `ask`, until the answer is not a part. Gives the parts, and that answer. -/
def drain (ask : Demux σ → Outcome × Demux σ) : Nat → Demux σ → (List Part × Outcome) × Demux σ
  | 0, d => (([], .waiting), d)
  | fuel + 1, d =>
    match ask d with
    | (.part p, d) =>
      let ((parts, last), d) := drain ask fuel d
      ((p :: parts, last), d)
    | (last, d) => (([], last), d)

/-- Asks for parts until the answer is not one. Each part takes at least one fragment. -/
def collect (d : Demux σ) : (List Part × Outcome) × Demux σ :=
  drain next (Supply.ready d.source + 1) d

omit [Supply σ] in
def describe (d : Demux σ) : String :=
  Text.openRecord "StreamingBodyProcessor"
    [("bridge", d.flow.describe), ("in_flight", toString d.unfinished.length),
     ("received_size", toString d.received), ("completed_parts", toString d.completed),
     ("terminated", Text.flag d.terminated)]

end Demux

end Exchange.Multipart
