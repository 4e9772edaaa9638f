import Exchange.Proofs.Multipart.Conduit.Steps
import Exchange.Proofs.Multipart.Transcript

/-!
Where the demand for fragments is.

Demand that was granted waits in a signal, is credit of the publisher, or was spent on a fragment
that has entered the queue. A sending spends its credit only when the queue lets it go, so while its
fragment is `lodged` the demand for it is counted twice. A sending that is forsaken at this point
never spends it. `Afloat` is the balance of all that, for a publisher that nobody has stopped. Each
stage of a sending keeps it (`Afloat.goes`), each step of a pump (`Level.pumps`), and each call of
the consumer's end.
-/
namespace Exchange.Multipart

/-- The demand that a signal carries. -/
def Signal.demand : Signal → Nat
  | .request n => n
  | .cancel => 0

/-- The demand that some signals carry. -/
def demandIn : List Signal → Nat
  | [] => 0
  | s :: rest => s.demand + demandIn rest

@[simp] theorem demandIn_append (a b : List Signal) :
    demandIn (a ++ b) = demandIn a + demandIn b := by
  induction a with
  | nil => exact (Nat.zero_add _).symm
  | cons s rest ih => rw [List.cons_append, demandIn, demandIn, ih, Nat.add_assoc]

/-- A sending that has its credit and has not spent it. -/
def Sending.paid : Sending → Bool
  | .credit .. => false
  | .room _ | .release => true

/-- One, if a sending's fragment is in the queue and the queue has not let it go. -/
def lodged : Option Sending → Nat
  | some .release => 1
  | _ => 0

/-- Where something waits, if it does. -/
def Progress.point? {α β : Type} : Progress α β → Option α
  | .waiting point => some point
  | .done _ => none

/-- The sending that a pump is at. -/
def Pumping.sending? : Pumping → Option Sending
  | .sending s => some s
  | _ => none

/-! ### Reading signals -/

theorem Publisher.credit_apply_le (p : Publisher) (s : Signal) :
    (p.apply s).credit ≤ p.credit + s.demand := by
  cases s with
  | request n => exact Nat.min_le_left ..
  | cancel => exact Nat.le_refl _

theorem Publisher.credit_apply {p : Publisher} {s : Signal} (h : p.credit + s.demand ≤ Count.top) :
    (p.apply s).credit = p.credit + s.demand := by
  cases s with
  | request n => exact Count.add_eq h
  | cancel => rfl

theorem Publisher.credit_read_le (read : List Signal) (p : Publisher) :
    (read.foldl Publisher.apply p).credit ≤ p.credit + demandIn read := by
  induction read generalizing p with
  | nil => exact Nat.le_refl _
  | cons s rest ih =>
    have happly := p.credit_apply_le s
    have hrest := ih (p.apply s)
    rw [List.foldl_cons, demandIn]
    omega

theorem Publisher.credit_read {read : List Signal} {p : Publisher}
    (h : p.credit + demandIn read ≤ Count.top) :
    (read.foldl Publisher.apply p).credit = p.credit + demandIn read := by
  induction read generalizing p with
  | nil => rfl
  | cons s rest ih =>
    rw [demandIn] at h ⊢
    have happly := Publisher.credit_apply (p := p) (s := s) (by omega)
    rw [List.foldl_cons, ih (by omega), happly, Nat.add_assoc]

theorem Publisher.cancelled_read {read : List Signal} {p : Publisher} (h : .cancel ∉ read) :
    (read.foldl Publisher.apply p).cancelled = p.cancelled := by
  induction read generalizing p with
  | nil => rfl
  | cons s rest ih =>
    rw [List.foldl_cons, ih fun hmem => h (List.mem_cons_of_mem s hmem)]
    cases s with
    | request n => rfl
    | cancel => exact absurd List.mem_cons_self h

namespace Conduit

/-- Nobody has stopped the stream. -/
structure Open (p : Publisher) (c : Conduit) : Prop where
  queue : c.queue.closed = false
  source : c.cancelled = false
  held : c.dropped = false
  heard : p.cancelled = false
  quiet : .cancel ∉ c.signals

/-- The demand that the consumer's end granted and has nothing for yet. -/
def stock (p : Publisher) (c : Conduit) : Nat :=
  p.credit + demandIn c.signals + (fragmentsIn c.queue.items).length

/-- The balance of a conduit that nobody has stopped, of which fragments were `granted` and `taken`.
Its publisher, who is at a sending or not, has `forsaken` some sendings whose fragments were in the
queue. It is `strict` if the publisher can count all of its credit. -/
structure Afloat (strict : Prop) (granted taken forsaken : Nat) (p : Publisher)
    (s? : Option Sending) (c : Conduit) : Prop extends Open p c where
  atMost : stock p c + taken ≤ granted + forsaken + lodged s?
  balance : strict → stock p c + taken = granted + forsaken + lodged s?
  paid : ∀ s, s? = some s → s.paid = true → 0 < p.credit
  broke : ∀ f, s? = some (.credit f true) → p.credit = 0

variable {strict : Prop} {granted taken forsaken : Nat} {p q : Publisher} {s? : Option Sending}
  {s : Sending} {c c' : Conduit} {r : Progress Sending (Except Fault Unit)}

/-- No more fragments entered the queue than were granted, but for what was forsaken. -/
theorem Afloat.covered (h : Afloat strict granted taken forsaken p s? c) :
    taken + (fragmentsIn c.queue.items).length ≤ granted + forsaken := by
  have hmost := h.atMost
  unfold stock at hmost
  by_cases hs : s? = some .release
  · have hcredit := h.paid _ hs rfl
    rw [hs, lodged] at hmost
    omega
  · have hnone : lodged s? = 0 := by
      unfold lodged
      split
      · exact absurd rfl hs
      · rfl
    omega

theorem Open.frame (h : Open p c) (hqueue : c'.queue.closed = c.queue.closed)
    (hsignals : c'.signals = c.signals) (hcancelled : c'.cancelled = c.cancelled)
    (hdropped : c'.dropped = c.dropped) : Open p c' :=
  ⟨hqueue ▸ h.queue, hcancelled ▸ h.source, hdropped ▸ h.held, h.heard, hsignals ▸ h.quiet⟩

/-- The balance does not see the transport, nor who has the publisher. -/
theorem Afloat.frame (h : Afloat strict granted taken forsaken p s? c) (hqueue : c'.queue = c.queue)
    (hsignals : c'.signals = c.signals) (hcancelled : c'.cancelled = c.cancelled)
    (hdropped : c'.dropped = c.dropped) : Afloat strict granted taken forsaken p s? c' := by
  have hstock : stock p c' = stock p c := by
    unfold stock
    rw [hsignals, hqueue]
  exact ⟨h.toOpen.frame (by rw [hqueue]) hsignals hcancelled hdropped, hstock ▸ h.atMost,
    hstock ▸ h.balance, h.paid, h.broke⟩

/-- Faults in the queue do not matter. -/
theorem Afloat.requeue (h : Afloat strict granted taken forsaken p s? c) (queue : Queue)
    (hclosed : queue.closed = c.queue.closed)
    (hitems : fragmentsIn queue.items = fragmentsIn c.queue.items) :
    Afloat strict granted taken forsaken p s? { c with queue } := by
  have hstock : stock p { c with queue } = stock p c := by
    unfold stock
    rw [hitems]
  exact ⟨h.toOpen.frame hclosed rfl rfl rfl, hstock ▸ h.atMost, hstock ▸ h.balance, h.paid,
    h.broke⟩

/-! ### A sending -/

theorem Open.reads {started : Bool} {rest : List Signal} (h : Open p c)
    (hread : awaitCredit started p c = (q, { c with signals := rest })) :
    Open q { c with signals := rest } := by
  obtain ⟨read, hsplit, -, hstop, -⟩ := awaitCredit_reads hread
  have hquiet : .cancel ∉ read ∧ .cancel ∉ rest := by
    rw [← not_or, ← List.mem_append, ← hsplit]
    exact h.quiet
  refine ⟨h.queue, h.source, h.held, ?_, hquiet.2⟩
  refine eq_false_of_ne_true fun hcancelled => ?_
  rcases hstop hcancelled with hheard | hgone
  · rw [Publisher.cancelled_read hquiet.1, h.heard] at hheard
    cases hheard
  · rw [h.held] at hgone
    cases hgone

/-- While nobody has stopped the stream a sending cannot fail. -/
theorem Open.goes (hgoes : Goes p c s r q c') :
    Open p c → Open q c' ∧ ∀ e, r ≠ .done (.error e) := by
  induction hgoes with
  | refused f started hread hcancelled =>
    intro ho
    rw [(ho.reads hread).heard] at hcancelled
    cases hcancelled
  | unpaid f started hread _ _ => exact fun ho => ⟨ho.reads hread, nofun⟩
  | paid f started hread _ _ _ ih => exact fun ho => ih (ho.reads hread)
  | shut f hclosed =>
    intro ho
    rw [ho.queue] at hclosed
    cases hclosed
  | entered f _ _ _ ih => exact fun ho => ih (ho.frame rfl rfl rfl rfl)
  | released _ => exact fun ho => ⟨⟨ho.queue, ho.source, ho.held, ho.heard, ho.quiet⟩, nofun⟩
  | _ => exact fun ho => ⟨ho, nofun⟩

/-- Reading signals makes credit of demand. -/
theorem Afloat.reads {started : Bool} {f : Fragment} {rest : List Signal}
    (h : Afloat strict granted taken forsaken p (some (.credit f started)) c)
    (hroom : strict → granted + forsaken ≤ Count.top + taken)
    (hread : awaitCredit started p c = (q, { c with signals := rest })) (s : Sending)
    (hs : lodged (some s) = 0) (hpaid : s.paid = true → 0 < q.credit)
    (hbroke : ∀ f, s = .credit f true → q.credit = 0) :
    Afloat strict granted taken forsaken q (some s) { c with signals := rest } := by
  have hopen := h.toOpen.reads hread
  obtain ⟨read, hsplit, hcredit, -⟩ := awaitCredit_reads hread
  obtain ⟨-, hmost, hbalance, -, -⟩ := h
  have hdemand : demandIn c.signals = demandIn read + demandIn rest := by
    rw [hsplit, demandIn_append]
  have hle := Publisher.credit_read_le read p
  simp only [stock, hdemand, lodged] at hmost hbalance
  refine ⟨hopen, ?_, fun hstrict => ?_, ?_, ?_⟩
  · simp only [stock, hcredit, hs]
    omega
  · have heq := hbalance hstrict
    have hroom := hroom hstrict
    have hread := Publisher.credit_read (show p.credit + demandIn read ≤ Count.top by omega)
    simp only [stock, hcredit, hs]
    omega
  · exact fun s' hs' => Option.some.inj hs' ▸ hpaid
  · exact fun f hs' => hbroke f (Option.some.inj hs')

theorem Afloat.enters {f : Fragment}
    (h : Afloat strict granted taken forsaken p (some (.room f)) c) :
    Afloat strict granted taken forsaken p (some .release)
      { c with queue := c.queue.push (.ok f) } := by
  obtain ⟨ho, hmost, hbalance, hpaid, -⟩ := h
  have hstock : stock p { c with queue := c.queue.push (.ok f) } = stock p c + 1 := by
    simp [stock, Queue.push]
    omega
  simp only [lodged] at hmost hbalance
  refine ⟨ho.frame rfl rfl rfl rfl, ?_, fun hstrict => ?_, fun _ _ _ => hpaid _ rfl rfl, ?_⟩
  · rw [hstock, lodged]
    omega
  · rw [hstock, lodged]
    have := hbalance hstrict
    omega
  · rintro f ⟨⟩

theorem Afloat.released (h : Afloat strict granted taken forsaken p (some .release) c) :
    Afloat strict granted taken forsaken { p with credit := p.credit - 1 } none c := by
  obtain ⟨⟨hqueue, hsource, hheld, hheard, hquiet⟩, hmost, hbalance, hpaid, -⟩ := h
  have hcredit := hpaid _ rfl rfl
  simp only [lodged, stock] at hmost hbalance
  refine ⟨⟨hqueue, hsource, hheld, hheard, hquiet⟩, ?_, fun hstrict => ?_, nofun, nofun⟩
  · simp only [lodged, stock]
    omega
  · have := hbalance hstrict
    simp only [lodged, stock]
    omega

/-- However far a sending gets, it keeps the balance. -/
theorem Afloat.goes (hgoes : Goes p c s r q c')
    (hroom : strict → granted + forsaken ≤ Count.top + taken) :
    Afloat strict granted taken forsaken p (some s) c →
      Afloat strict granted taken forsaken q r.point? c' := by
  induction hgoes with
  | refused f started hread hcancelled =>
    exact fun h => absurd rfl ((Open.goes (.refused f started hread hcancelled) h.toOpen).2 _)
  | unpaid f started hread _ hnone =>
    exact fun h => h.reads hroom hread _ rfl nofun fun _ _ => hnone
  | paid f started hread _ hcredit _ ih =>
    exact fun h => ih (h.reads hroom hread _ rfl (fun _ => hcredit) nofun)
  | shut f hclosed => exact fun h => absurd rfl ((Open.goes (.shut f hclosed) h.toOpen).2 _)
  | crowded f _ _ => exact id
  | entered f _ _ _ ih => exact fun h => ih h.enters
  | held _ => exact id
  | released _ => exact fun h => h.released

/-- A sending begins without credit of its own. -/
theorem Afloat.begins (h : Afloat strict granted taken forsaken p none c) (f : Fragment) :
    Afloat strict granted taken forsaken p (some (.credit f false)) c :=
  ⟨h.toOpen, h.atMost, h.balance,
    fun _ hs hpaid => absurd hpaid (Option.some.inj hs ▸ nofun),
    fun _ hs => absurd (Option.some.inj hs) nofun⟩

/-- A sending is forsaken where it waits. Its demand stays behind if its fragment is in the
queue. -/
theorem Afloat.forsakes (h : Afloat strict granted taken forsaken p (some s) c) :
    Afloat strict granted taken (forsaken + lodged (some s)) p none (c.abandon s) := by
  obtain ⟨ho, hmost, hbalance, -, -⟩ := h
  have hnone : lodged none = 0 := rfl
  have hsame : Afloat strict granted taken (forsaken + lodged (some s)) p none c := by
    refine ⟨ho, ?_, fun hstrict => ?_, nofun, nofun⟩
    · omega
    · have := hbalance hstrict
      omega
  unfold abandon
  split
  · exact hsame
  · exact hsame.frame rfl rfl rfl rfl

/-- Passing a fault on does nothing but put it into the queue. -/
theorem advanceFault_frame {e : Fault} {sent : Bool} {r : Progress Bool Unit}
    (h : advanceFault e c sent = (r, c')) :
    ∃ queue items, c' = { c with queue } ∧ queue.items = c.queue.items ++ items ∧
      fragmentsIn items = [] ∧ queue.closed = c.queue.closed ∧
      (c.queue.closed = true → items = []) := by
  have hsame : ∃ queue items, c = { c with queue } ∧ queue.items = c.queue.items ++ items ∧
      fragmentsIn items = [] ∧ queue.closed = c.queue.closed ∧
      (c.queue.closed = true → items = []) :=
    ⟨c.queue, [], rfl, (List.append_nil _).symm, rfl, rfl, fun _ => rfl⟩
  cases sent with
  | true =>
    rw [advanceFault] at h
    split at h
    · obtain ⟨-, rfl⟩ := Prod.mk.inj h
      exact hsame
    · obtain ⟨-, rfl⟩ := Prod.mk.inj h
      exact hsame
  | false =>
    rw [advanceFault] at h
    split at h
    · obtain ⟨-, rfl⟩ := Prod.mk.inj h
      exact hsame
    · next hopen =>
      split at h
      · obtain ⟨-, rfl⟩ := Prod.mk.inj h
        exact hsame
      · have hnext : ∃ queue items, ({ c with queue := c.queue.push (.error e) } : Conduit) =
            { c with queue } ∧ queue.items = c.queue.items ++ items ∧ fragmentsIn items = [] ∧
            queue.closed = c.queue.closed ∧ (c.queue.closed = true → items = []) :=
          ⟨_, [.error e], rfl, rfl, rfl, rfl, fun hshut => absurd hshut hopen⟩
        dsimp only at h
        split at h
        · obtain ⟨-, rfl⟩ := Prod.mk.inj h
          exact hnext
        · obtain ⟨-, rfl⟩ := Prod.mk.inj h
          exact hnext

/-! ### The consumer's end -/

theorem publishing_of_owned {p : Publisher} {c : Conduit} (h : c.publisher = some p) :
    c.publishing = true := by
  unfold publishing
  rw [h]

theorem publishing_of_running {p : Publisher} {doing : Pumping} {c : Conduit}
    (h : c.pump = .running p doing) : c.publishing = true := by
  unfold publishing
  rw [h]
  cases c.publisher <;> rfl

/-- What a request leaves alone. -/
theorem request_frame (n : Nat) (c : Conduit) :
    (c.request n).queue = c.queue ∧ (c.request n).publisher = c.publisher ∧
      (c.request n).pump = c.pump ∧ (c.request n).transport = c.transport ∧
      (c.request n).cancelled = c.cancelled := by
  unfold request
  split <;> exact ⟨rfl, rfl, rfl, rfl, rfl⟩

theorem request_open {n : Nat} (ho : Open p c) (hpublishing : c.publishing = true) (hn : n ≠ 0) :
    c.request n = { c with signals := c.signals ++ [.request n] } := by
  unfold request
  rw [ho.source, hpublishing]
  simp [hn]

theorem Open.request (ho : Open p c) (hpublishing : c.publishing = true) (n : Nat) :
    Open p (c.request n) := by
  by_cases hn : n = 0
  · simpa [Conduit.request, hn] using ho
  · rw [request_open ho hpublishing hn]
    exact ⟨ho.queue, ho.source, ho.held, ho.heard, by simpa using ho.quiet⟩

/-- What is requested becomes a signal. -/
theorem Afloat.request (h : Afloat strict granted taken forsaken p s? c)
    (hpublishing : c.publishing = true) (n : Nat) :
    Afloat strict (granted + n) taken forsaken p s? (c.request n) := by
  have hopen := h.toOpen.request hpublishing n
  by_cases hn : n = 0
  · subst hn
    simpa [Conduit.request] using h
  · rw [request_open h.toOpen hpublishing hn] at hopen ⊢
    obtain ⟨-, hmost, hbalance, hpaid, hbroke⟩ := h
    have hstock : stock p { c with signals := c.signals ++ [.request n] } = stock p c + n := by
      simp [stock, demandIn, Signal.demand]
      omega
    refine ⟨hopen, ?_, fun hstrict => ?_, hpaid, hbroke⟩
    · rw [hstock]
      omega
    · rw [hstock]
      have := hbalance hstrict
      omega

theorem polls_watched {w w' : Watched Conduit} {answer : Delivery}
    (h : Supply.poll w = (answer, w')) : Polls w.source answer w'.source := by
  have hpoll := Watched.faithful.poll w
  rw [h] at hpoll
  exact polls_of_poll hpoll

/-- The fragments come out of the queue one by one. -/
theorem Polls.fragments {answer : Delivery} (h : Polls c answer c') :
    fragmentsIn c.queue.items = answer.fragment?.toList ++ fragmentsIn c'.queue.items := by
  cases h with
  | fragment _ hitems => exact congrArg fragmentsIn hitems
  | fault _ hitems => exact (congrArg fragmentsIn hitems).trans (fragmentsIn_cons_fault ..)
  | _ => rfl

/-- A fragment that is taken leaves the queue. -/
theorem Afloat.poll {answer : Delivery} (h : Afloat strict granted taken forsaken p s? c)
    (hpolls : Polls c answer c') :
    Afloat strict granted (taken + answer.fragment?.toList.length) forsaken p s? c' := by
  have hfragments := congrArg List.length hpolls.fragments
  obtain ⟨queue, rfl, hclosed⟩ := hpolls.frame
  obtain ⟨ho, hmost, hbalance, hpaid, hbroke⟩ := h
  simp only [stock, List.length_append] at hmost hbalance hfragments
  refine ⟨ho.frame hclosed rfl rfl rfl, ?_, fun hstrict => ?_, hpaid, hbroke⟩
  · simp only [stock]
    omega
  · have := hbalance hstrict
    simp only [stock]
    omega

/-! ### A pump -/

/-- The balance of a conduit that is pumped, unless it was shut. -/
def Level (strict : Prop) (granted taken forsaken : Nat) (c : Conduit) : Prop :=
  c.queue.closed = false → ∀ p doing, c.pump = .running p doing →
    Afloat strict granted taken forsaken p doing.sending? c

/-- The balance of a pump that runs now. -/
theorem Level.of_running {doing : Pumping} (hrun : c.pump = .running p doing)
    (h : Afloat strict granted taken forsaken p doing.sending? c) :
    Level strict granted taken forsaken c := by
  intro _ p' doing' hrun'
  obtain ⟨rfl, rfl⟩ := Pump.running.inj (hrun.symm.trans hrun')
  exact h

/-- A pump that has finished has no balance any more. -/
theorem Level.of_finished (result : Except Fault Unit) (c : Conduit) :
    Level strict granted taken forsaken (c.finishPump result) := fun _ _ _ hrun => nomatch hrun

/-- A step of a pump keeps the balance. -/
theorem Level.pumps (h : Level strict granted taken forsaken c)
    (hroom : strict → granted + forsaken ≤ Count.top + taken) (hpumps : Pumps c c') :
    Level strict granted taken forsaken c' := by
  intro hclosed
  have hopen : c.queue.closed = false := by
    obtain ⟨_, -, hsame, -⟩ := hpumps.queue
    exact hsame.symm.trans hclosed
  revert hclosed
  cases hpumps with
  | rests _ => exact h
  | takes hrun _ =>
    exact Level.of_running rfl (((h hopen _ _ hrun).begins _).frame rfl rfl rfl rfl)
  | meets hrun _ => exact Level.of_running rfl ((h hopen _ _ hrun).frame rfl rfl rfl rfl)
  | completes _ _ _ => exact Level.of_finished _ _
  | waits hrun hgoes =>
    exact Level.of_running rfl ((Afloat.goes hgoes hroom (h hopen _ _ hrun)).frame rfl rfl rfl rfl)
  | sent hrun hgoes =>
    exact Level.of_running rfl ((Afloat.goes hgoes hroom (h hopen _ _ hrun)).frame rfl rfl rfl rfl)
  | refused hrun hgoes => exact absurd rfl ((Open.goes hgoes (h hopen _ _ hrun).toOpen).2 _)
  | @lodges p e hrun _ _ =>
    have hqueue := (h hopen _ _ hrun).requeue (c.queue.push (.error e)) rfl (by simp [Queue.push])
    exact Level.of_running rfl (hqueue.frame rfl rfl rfl rfl)
  | passes _ _ _ => exact Level.of_finished _ _
  | fails _ _ => exact Level.of_finished _ _
  | skips hrun _ => exact Level.of_running hrun ((h hopen _ _ hrun).frame rfl rfl rfl rfl)
  | stops _ _ _ => exact Level.of_finished _ _
  | breaks _ _ => exact Level.of_finished _ _

/-- Only a pump that runs on has put a fragment into the queue. -/
theorem Pumps.fragments (h : Pumps c c') :
    fragmentsIn c'.queue.items = fragmentsIn c.queue.items ∨
      ∃ p doing, c'.pump = .running p doing := by
  cases h with
  | waits _ _ => exact .inr ⟨_, _, rfl⟩
  | sent _ _ => exact .inr ⟨_, _, rfl⟩
  | refused _ _ => exact .inr ⟨_, _, rfl⟩
  | lodges _ _ _ => exact .inr ⟨_, _, rfl⟩
  | passes _ _ _ => exact .inl (by simp [finishPump, Queue.push])
  | _ => exact .inl rfl

theorem Level.far (h : Level strict granted taken forsaken c)
    (hroom : strict → granted + forsaken ≤ Count.top + taken) (e : Far) :
    Level strict granted taken forsaken (Conduit.far e c) := by
  cases e with
  | pump => exact h.pumps hroom (Conduit.pumps c)
  | feed i =>
    intro hclosed p doing hrun
    have hframe := feed_frame i c
    change (c.feed i).2.queue.closed = false at hclosed
    change (c.feed i).2.pump = _ at hrun
    show Afloat _ _ _ _ _ _ (c.feed i).2
    rw [hframe] at hclosed hrun ⊢
    exact (h hclosed p doing hrun).frame rfl rfl rfl rfl
  | finish => exact fun hclosed p doing hrun => (h hclosed p doing hrun).frame rfl rfl rfl rfl

end Conduit

end Exchange.Multipart
