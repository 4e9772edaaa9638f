import Exchange.Pipeline.Payload
import Exchange.Proofs.Multipart.Attended

/-!
A shared body in use.

Whoever holds a body may ask for it, share it and let go of it, in any sequence, while its stream is
used by somebody else and the world outside goes on (`Usage.step`). As long as nobody took the
content (`Untouched`) every ask is answered from it, and one that does not take it leaves everything
as it was (`Untouched.ask`). The ask that takes it is the last one that does: the body is `Spent`
from then on, and refuses (`Spent.run`, `Untouched.run`).
-/
namespace Exchange.Pipeline

open Multipart (Demux Outcome Part Supply Use)

variable {σ ε : Type}

/-! ### Asks and answers -/

/-- What a holder can ask of a body. -/
inductive Ask where
  | bytes
  | parts
  | collect
  | canConsume
  | isMultipart
  deriving DecidableEq, Repr

inductive Answer (σ : Type) where
  | bytes (content : Octets)
  | stream (d : Demux σ)
  /-- the stream is taken, and its parts are being collected -/
  | collecting
  | verdict (yes : Bool)
  | failed (e : Failure)
  /-- to the holder of a stream, who used it -/
  | polled (o : Outcome)
  /-- what came of a collection -/
  | collected (ending : Ending Failure (List Part))

namespace Answer

/-- Whoever is told so has taken the content. -/
def takes : Answer σ → Bool
  | .bytes _ | .stream _ | .collecting => true
  | _ => false

def ending? : Answer σ → Option (Ending Failure (List Part))
  | .collected ending => some ending
  | _ => none

end Answer

/-- The answer to somebody who asks for a content that nobody took. -/
def Content.answer : Content σ → Ask → Answer σ
  | .whole bytes, .bytes => .bytes bytes
  | .parts _, .bytes => .failed (.body (.malformed "multipart body can't be read as bytes"))
  | .parts d, .parts => .stream d
  | .parts _, .collect => .collecting
  | .whole _, .parts | .whole _, .collect =>
    .failed (.body (.malformed "request body is not multipart"))
  | _, .canConsume => .verdict true
  | .whole _, .isMultipart => .verdict false
  | .parts _, .isMultipart => .verdict true

/-- The answer to somebody who asks for a content that was taken. -/
def Ask.refusal : Ask → Answer σ
  | .bytes | .parts | .collect => .failed .bodyConsumed
  | .canConsume | .isMultipart => .verdict false

theorem Ask.takes_refusal (a : Ask) : [a.refusal (σ := σ)].countP Answer.takes = 0 := by
  cases a <;> rfl

theorem Ask.endings_refusal (a : Ask) : [a.refusal (σ := σ)].filterMap Answer.ending? = [] := by
  cases a <;> rfl

/-- What comes of a collection that has some parts, if it gets such an answer. -/
def ending? (parts : List Part) : Outcome → Option (Ending Failure (List Part))
  | .finished => some (.done parts)
  | .fault e => some (.failed (.body e))
  | .panicked m => some (.panicked m)
  | .part _ | .waiting => none

theorem ending?_open {o : Outcome} (h : o.ends = false) (parts : List Part) :
    ending? parts o = none := by
  cases o <;> first | rfl | cases h

theorem ending?_ends {o : Outcome} (h : o.ends = true) (parts : List Part) :
    ∃ ending, ending? parts o = some ending := by
  cases o with
  | waiting => cases h
  | part p => cases h
  | _ => exact ⟨_, rfl⟩

/-! ### Bodies in use -/

/-- A shared body, and the collection that has its stream. -/
structure Usage (σ : Type) extends Shared σ where
  /-- what was collected so far, if a collection is under way -/
  collected : Option (List Part) := none

/-- What can happen to a shared body. -/
inductive Usage.Deed (ε : Type) where
  | ask (holder : Nat) (a : Ask)
  | share (holder : Nat)
  | letGo (holder : Nat)
  /-- whoever has the stream uses it -/
  | use (u : Use)
  /-- whoever has the stream gives it up -/
  | giveUp
  /-- the world outside goes on -/
  | happen (e : ε)

/-- The content after some events, which change the supply of its stream. -/
def Content.went (act : ε → σ → σ) (events : List ε) : Content σ → Content σ
  | .whole bytes => .whole bytes
  | .parts d => .parts { d with source := events.foldl (fun s e => act e s) d.source }

theorem Content.went_nil (act : ε → σ → σ) (c : Content σ) : c.went act [] = c := by
  cases c <;> rfl

theorem Content.went_append (act : ε → σ → σ) (first second : List ε) (c : Content σ) :
    c.went act (first ++ second) = (c.went act first).went act second := by
  cases c with
  | whole bytes => rfl
  | parts d => rw [went, went, went, List.foldl_append]

theorem Custody.released_ne_kept : released ≠ kept := by decide

theorem Custody.lent_ne_kept : lent ≠ kept := by decide

theorem Payload.custody_release [Supply σ] (p : Payload σ) : p.release.custody ≠ .kept := by
  obtain ⟨content, custody⟩ := p
  cases custody with
  | kept => cases content <;> exact Custody.released_ne_kept
  | lent => exact Custody.lent_ne_kept
  | released => exact Custody.released_ne_kept

namespace Usage

/-- The events among some deeds. -/
def eventsOf (deeds : List (Deed ε)) : List ε :=
  deeds.filterMap fun
    | .happen e => some e
    | _ => none

theorem eventsOf_cons (deed : Deed ε) (rest : List (Deed ε)) :
    eventsOf (deed :: rest) = eventsOf [deed] ++ eventsOf rest :=
  List.filterMap_append (l := [deed])

variable [Supply σ]

/-- A body of one holder. -/
def ofContent (c : Content σ) : Usage σ := { payload := { content := c } }

def ask (a : Ask) (u : Usage σ) : Answer σ × Usage σ :=
  match a with
  | .bytes =>
    match u.payload.bytes? with
    | (.ok content, payload) => (.bytes content, { u with payload })
    | (.error e, payload) => (.failed e, { u with payload })
  | .parts =>
    match u.payload.lend? with
    | (.ok d, payload) => (.stream d, { u with payload })
    | (.error e, payload) => (.failed e, { u with payload })
  | .collect =>
    match u.payload.lend? with
    | (.ok _, payload) => (.collecting, { u with payload, collected := some [] })
    | (.error e, payload) => (.failed e, { u with payload })
  | .canConsume => (.verdict u.payload.canConsume, u)
  | .isMultipart => (.verdict u.payload.isMultipart, u)

/-- Whoever has the stream uses it. A collection does nothing but poll, and gives the stream up with
the first answer that is neither a part nor a wait. -/
def useStream (use : Use) (u : Usage σ) : Option (Answer σ) × Usage σ :=
  match u.payload.lent?, u.collected with
  | none, _ => (none, u)
  | some d, none =>
    let answer := match use with
      | .poll => some (.polled d.next.1)
      | .request _ | .cancel => none
    (answer, { u with payload := u.payload.withStream (d.use use) })
  | some d, some parts =>
    match use with
    | .request _ | .cancel => (none, u)
    | .poll =>
      let (o, d) := d.next
      match ending? parts o with
      | some ending =>
        (some (.collected ending), { u with payload := .surrender d, collected := none })
      | none =>
        (none, { u with
          payload := u.payload.withStream d, collected := some (parts ++ o.part?.toList) })

def giveUp (u : Usage σ) : Usage σ :=
  match u.payload.lent? with
  | none => u
  | some d => { u with payload := .surrender d, collected := none }

omit [Supply σ] in
/-- Something happens to the supply of the stream, unless it was given up. -/
def happen (act : ε → σ → σ) (e : ε) (u : Usage σ) : Usage σ :=
  match u.payload.custody with
  | .released => u
  | _ => { u with payload := { u.payload with content := u.payload.content.went act [e] } }

/-- Asks, and what is done with a holder, are up to those who hold the body. -/
def Deed.Due (u : Usage σ) : Deed ε → Prop
  | .ask holder _ | .share holder | .letGo holder => holder ∈ u.holders
  | .use _ | .giveUp | .happen _ => True

instance (u : Usage σ) : (deed : Deed ε) → Decidable (deed.Due u)
  | .ask holder _ | .share holder | .letGo holder =>
    inferInstanceAs (Decidable (holder ∈ u.holders))
  | .use _ | .giveUp | .happen _ => inferInstanceAs (Decidable True)

/-- One deed, with the answer to it. -/
def step (act : ε → σ → σ) (deed : Deed ε) (u : Usage σ) : Option (Answer σ) × Usage σ :=
  if deed.Due u then
    match deed with
    | .ask _ a => (some (u.ask a).1, (u.ask a).2)
    | .share _ => (none, { u with toShared := u.share.2 })
    | .letGo holder => (none, { u with toShared := u.toShared.letGo holder })
    | .use use => u.useStream use
    | .giveUp => (none, u.giveUp)
    | .happen e => (none, u.happen act e)
  else (none, u)

def after (act : ε → σ → σ) : List (Deed ε) → Usage σ → Usage σ
  | [], u => u
  | deed :: rest, u => after act rest (u.step act deed).2

/-- The answers to some deeds. -/
def answers (act : ε → σ → σ) : List (Deed ε) → Usage σ → List (Answer σ)
  | [], _ => []
  | deed :: rest, u => (u.step act deed).1.toList ++ answers act rest (u.step act deed).2

variable {act : ε → σ → σ} {u : Usage σ}

/-! ### Up to the ask that takes the content -/

/-- Nobody took the content, and as long as there are holders it can be taken. -/
structure Untouched (c : Content σ) (u : Usage σ) : Prop where
  payload : u.payload = ⟨c, .kept⟩ ∨ u.holders = [] ∧ u.payload.custody = .released
  idle : u.collected = none

/-- The content was taken, or there is nobody left who could. -/
def Spent (u : Usage σ) : Prop := u.payload.custody ≠ .kept

omit [Supply σ] in
theorem Spent.ask (h : u.Spent) (a : Ask) : u.ask a = (a.refusal, u) := by
  obtain ⟨⟨⟨content, custody⟩, holders, fresh⟩, collected⟩ := u
  cases custody with
  | kept => exact absurd rfl h
  | lent => cases a <;> rfl
  | released => cases a <;> rfl

namespace Untouched

variable {c : Content σ}

omit [Supply σ] in
theorem kept (h : u.Untouched c) {holder : Nat} (hmem : holder ∈ u.holders) :
    u.payload = ⟨c, .kept⟩ := by
  rcases h.payload with hkept | ⟨hnone, -⟩
  · exact hkept
  · rw [hnone] at hmem
    cases hmem

omit [Supply σ] in
/-- Every ask is answered from the content. If it does not take it, everything stays as it is. -/
theorem ask (h : u.Untouched c) {holder : Nat} (hmem : holder ∈ u.holders) (a : Ask) :
    (u.ask a).1 = c.answer a ∧
      ((c.answer a).takes = false ∧ (u.ask a).2 = u ∨
        (c.answer a).takes = true ∧ (u.ask a).2.Spent) := by
  have hkept := h.kept hmem
  obtain ⟨⟨payload, holders, fresh⟩, collected⟩ := u
  obtain rfl : payload = ⟨c, .kept⟩ := hkept
  cases c with
  | whole content => cases a with
    | bytes => exact ⟨rfl, .inr ⟨rfl, Custody.released_ne_kept⟩⟩
    | _ => exact ⟨rfl, .inl ⟨rfl, rfl⟩⟩
  | parts d => cases a with
    | parts => exact ⟨rfl, .inr ⟨rfl, Custody.lent_ne_kept⟩⟩
    | collect => exact ⟨rfl, .inr ⟨rfl, Custody.lent_ne_kept⟩⟩
    | _ => exact ⟨rfl, .inl ⟨rfl, rfl⟩⟩

end Untouched

/-! ### Behind the ask that takes the content -/

theorem Spent.useStream (h : u.Spent) (use : Use) :
    (u.useStream use).1.toList.countP Answer.takes = 0 ∧ (u.useStream use).2.Spent := by
  unfold Usage.useStream
  split
  · exact ⟨rfl, h⟩
  · exact ⟨by cases use <;> rfl, h⟩
  · cases use with
    | request n => exact ⟨rfl, h⟩
    | cancel => exact ⟨rfl, h⟩
    | poll =>
      dsimp only
      split
      · exact ⟨rfl, Custody.released_ne_kept⟩
      · exact ⟨rfl, h⟩

theorem Spent.giveUp (h : u.Spent) : u.giveUp.Spent := by
  unfold Usage.giveUp
  split
  · exact h
  · exact Custody.released_ne_kept

omit [Supply σ] in
theorem Spent.happen (h : u.Spent) (e : ε) : (u.happen act e).Spent := by
  unfold Usage.happen
  split <;> exact h

theorem Spent.letGo (h : u.Spent) (holder : Nat) :
    (u.toShared.letGo holder).payload.custody ≠ .kept := by
  unfold Shared.letGo
  dsimp only
  split
  · exact u.payload.custody_release
  · exact h

/-- A body that is spent stays so, and nobody takes its content. -/
theorem Spent.step (h : u.Spent) (act : ε → σ → σ) (deed : Deed ε) :
    (u.step act deed).1.toList.countP Answer.takes = 0 ∧ (u.step act deed).2.Spent := by
  unfold Usage.step
  split
  · cases deed with
    | ask holder a =>
      dsimp only
      rw [h.ask a]
      exact ⟨a.takes_refusal, h⟩
    | share holder => exact ⟨rfl, h⟩
    | letGo holder => exact ⟨rfl, h.letGo holder⟩
    | use use => exact h.useStream use
    | giveUp => exact ⟨rfl, h.giveUp⟩
    | happen e => exact ⟨rfl, h.happen e⟩
  · exact ⟨rfl, h⟩

theorem Spent.run (h : u.Spent) (act : ε → σ → σ) (deeds : List (Deed ε)) :
    (answers act deeds u).countP Answer.takes = 0 ∧ (after act deeds u).Spent := by
  induction deeds generalizing u with
  | nil => exact ⟨rfl, h⟩
  | cons deed rest ih =>
    obtain ⟨hnone, hnext⟩ := h.step act deed
    obtain ⟨hrest, hlast⟩ := ih hnext
    refine ⟨?_, hlast⟩
    rw [answers, List.countP_append, hnone, hrest]

/-! ### The ask that takes the content -/

namespace Untouched

variable {c : Content σ}

omit [Supply σ] in
theorem not_lent (h : u.Untouched c) : u.payload.lent? = none := by
  obtain ⟨⟨⟨content, custody⟩, holders, fresh⟩, collected⟩ := u
  rcases h.payload with hkept | ⟨-, hreleased⟩
  · cases hkept
    rfl
  · cases hreleased
    rfl

theorem letGo (h : u.Untouched c) (holder : Nat) :
    Untouched c { u with toShared := u.toShared.letGo holder } := by
  refine ⟨?_, h.idle⟩
  have hreleased : u.payload.release.custody = .released := by
    obtain ⟨⟨⟨content, custody⟩, holders, fresh⟩, collected⟩ := u
    rcases h.payload with hkept | ⟨-, hreleased⟩
    · cases hkept
      cases c <;> rfl
    · cases hreleased
      rfl
  unfold Shared.letGo
  dsimp only
  split
  · next hnone => exact .inr ⟨List.isEmpty_iff.mp hnone, hreleased⟩
  · next hsome =>
    rcases h.payload with hkept | ⟨hnone, -⟩
    · exact .inl hkept
    · rw [hnone] at hsome
      exact absurd rfl hsome

omit [Supply σ] in
theorem happen (h : u.Untouched c) (e : ε) : (u.happen act e).Untouched (c.went act [e]) := by
  obtain ⟨⟨⟨content, custody⟩, holders, fresh⟩, collected⟩ := u
  rcases h.payload with hkept | ⟨hnone, hreleased⟩
  · cases hkept
    exact ⟨.inl rfl, h.idle⟩
  · cases hreleased
    exact ⟨.inr ⟨hnone, rfl⟩, h.idle⟩

/-- A deed takes the content, or leaves it to be taken. -/
theorem step (h : u.Untouched c) (act : ε → σ → σ) (deed : Deed ε) :
    (u.step act deed).1.toList.countP Answer.takes = 0 ∧
        (u.step act deed).2.Untouched (c.went act (eventsOf [deed])) ∨
      (u.step act deed).1.toList.countP Answer.takes = 1 ∧ (u.step act deed).2.Spent := by
  have hstill : u.Untouched (c.went act []) := (c.went_nil act).symm ▸ h
  unfold Usage.step
  split
  · next hdue =>
    cases deed with
    | ask holder a =>
      have hcount : (some (u.ask a).1).toList.countP Answer.takes =
          if (u.ask a).1.takes then 1 else 0 := List.countP_singleton
      obtain ⟨hanswer, ⟨htakes, hleft⟩ | ⟨htakes, hspent⟩⟩ := h.ask hdue a
      · refine .inl ⟨?_, hleft.symm ▸ hstill⟩
        rw [hcount, hanswer, htakes]
        rfl
      · refine .inr ⟨?_, hspent⟩
        rw [hcount, hanswer, htakes]
        rfl
    | share holder => exact .inl ⟨rfl, .inl (hstill.kept hdue), h.idle⟩
    | letGo holder => exact .inl ⟨rfl, hstill.letGo holder⟩
    | use use =>
      have hnone : u.useStream use = (none, u) := by
        rw [useStream, h.not_lent]
      dsimp only
      rw [hnone]
      exact .inl ⟨rfl, hstill⟩
    | giveUp =>
      have hnone : u.giveUp = u := by
        rw [giveUp, h.not_lent]
      dsimp only
      rw [hnone]
      exact .inl ⟨rfl, hstill⟩
    | happen e => exact .inl ⟨rfl, h.happen e⟩
  · next hundue =>
    cases deed with
    | ask holder a => exact .inl ⟨rfl, hstill⟩
    | share holder => exact .inl ⟨rfl, hstill⟩
    | letGo holder => exact .inl ⟨rfl, hstill⟩
    | _ => exact absurd trivial hundue

/-- Some deeds take the content once, or leave it to be taken. -/
theorem run (h : u.Untouched c) (act : ε → σ → σ) (deeds : List (Deed ε)) :
    (answers act deeds u).countP Answer.takes = 0 ∧
        (after act deeds u).Untouched (c.went act (eventsOf deeds)) ∨
      (answers act deeds u).countP Answer.takes = 1 ∧ (after act deeds u).Spent := by
  induction deeds generalizing u c with
  | nil => exact .inl ⟨rfl, (c.went_nil act).symm ▸ h⟩
  | cons deed rest ih =>
    rw [answers, List.countP_append, eventsOf_cons, Content.went_append]
    rcases h.step act deed with ⟨hnone, hnext⟩ | ⟨honce, hspent⟩
    · rw [hnone, Nat.zero_add]
      exact ih hnext
    · obtain ⟨hrest, hlast⟩ := hspent.run act rest
      exact .inr ⟨by rw [honce, hrest], hlast⟩

end Untouched

end Usage

end Exchange.Pipeline
