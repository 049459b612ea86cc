import RosCanopen.Core.Polling
import RosCanopen.Lib.Fairness

/-!
# Every message gets its turn

Messages may keep coming while `poll_timer_callback` takes them, ten of each queue at most, and
a loop may end early each time because something throws.  Still each call takes the head of each
queue that has one, so in a run in which the callback is called again and again every message is
handed over at some time.

## Main definitions

* `Polling.toHand`, `Polling.Turned` — the message that is about to be handed over, and what a
  step does to it and to the queue.
* `Polling.Ahead` — the callback is still to come to the head of the queue.
* `Polling.Attended` — the callback goes on, and is called again.
-/

namespace RosCanopen.Core

open Lib

universe u

namespace Polling
variable {M : QueueKind → Type u}

/-- The message that has been taken and is to be handed over next. -/
def toHand (k : QueueKind) : Option (PollingPc M) → Option (M k)
  | some (.busy k' _ m .popped) => if h : k' = k then some (h ▸ m) else none
  | _ => none

@[simp] theorem toHand_none (k : QueueKind) : toHand k (none : Option (PollingPc M)) = none := rfl

@[simp] theorem toHand_head (k k' : QueueKind) (i : ℕ) :
    toHand k (some (.head k' i : PollingPc M)) = none := rfl

@[simp] theorem toHand_self (k : QueueKind) (i : ℕ) (m : M k) :
    toHand k (some (.busy k i m .popped)) = some m := dif_pos rfl

@[simp] theorem toHand_called (k k' : QueueKind) (i : ℕ) (m : M k') :
    toHand k (some (.busy k' i m .called)) = none := rfl

@[simp] theorem toHand_receiving (k k' : QueueKind) (i : ℕ) (m : M k') :
    toHand k (some (.busy k' i m .receiving)) = none := rfl

@[simp] theorem toHand_behind (k k' : QueueKind) :
    toHand k (behind k' : Option (PollingPc M)) = none := by
  cases k' with
  | emcy => rfl
  | rpdo => rfl

theorem toHand_of_ne {k k' : QueueKind} (hne : k' ≠ k) (i : ℕ) (m : M k') (stage : MessageStage) :
    toHand k (some (.busy k' i m stage)) = none := by
  cases stage with
  | popped => exact dif_neg hne
  | called => rfl
  | receiving => rfl

/-- What a step does to the queue of a kind, and to the message that is taken from it. -/
inductive Turned (registered : QueueKind → Bool) (k : QueueKind) (s s' : Polling M)
    (es : List (PollingEvent M)) : Prop
  | rest (hqueue : s'.queues k = s.queues k) (hhand : toHand k s'.pc = toHand k s.pc)
      (hes : ∀ d h, d = .pushed ∨ d = .handed ∨ d = taker registered k →
        messages d k (es ++ h) = messages d k h)
  | push (m : M k) (hqueue : s'.queues k = s.queues k ++ [m])
      (hhand : toHand k s'.pc = toHand k s.pc) (hes : es = [.message .pushed k m])
  | pop (m : M k) (hqueue : s.queues k = m :: s'.queues k) (hnone : toHand k s.pc = none)
      (hhand : toHand k s'.pc = some m) (hes : es = [.message .popped k m])
  | hand (m : M k) (hqueue : s'.queues k = s.queues k) (hhand : toHand k s.pc = some m)
      (hnone : toHand k s'.pc = none) (hes : es = [.message (taker registered k) k m])

section Steps
variable {registered : QueueKind → Bool} {s s' : Polling M} {i : PollingInput M}
  {es h : List (PollingEvent M)} {k : QueueKind}

/-- A step that neither pushes nor hands over a message of the kind. -/
theorem messages_of_quiet {d' : Deed} {k' : QueueKind} {m : M k'}
    (hquiet : k' ≠ k ∨ (d' ≠ .pushed ∧ d' ≠ .handed ∧ d' ≠ taker registered k)) (d : Deed)
    (h : List (PollingEvent M)) (hd : d = .pushed ∨ d = .handed ∨ d = taker registered k) :
    messages d k ([.message d' k' m] ++ h) = messages d k h := by
  rcases hquiet with hne | ⟨hpushed, hhanded, htaker⟩
  · exact messages_cons_silent (deed_message_of_ne hne)
  · refine messages_cons_of_ne ?_
    rcases hd with rfl | rfl | rfl
    · exact hpushed
    · exact hhanded
    · exact htaker

theorem turned_of_stepped (hstep : Stepped registered s i s' es) : Turned registered k s s' es := by
  cases hstep with
  | push k' m =>
      by_cases hk : k' = k
      · subst hk
        exact .push m (Function.update_self _ _ _) rfl rfl
      · exact .rest (Function.update_of_ne (Ne.symm hk) _ _) rfl (messages_of_quiet (.inl hk))
  | begin hpc =>
      exact .rest rfl (by rw [hpc]; rfl) fun d h _ => messages_cons_silent rfl
  | leave hpc hend =>
      exact .rest rfl (by rw [hpc]; simp [goto]) fun d h _ => rfl
  | @pop _ k' j m rest hpc hj hqueue =>
      by_cases hk : k' = k
      · subst hk
        refine .pop m ?_ (by rw [hpc]; rfl) (toHand_self _ _ _) rfl
        have hrest : Function.update s.queues k' rest k' = rest := Function.update_self _ _ _
        exact hqueue.trans (congrArg (m :: ·) hrest.symm)
      · refine .rest (Function.update_of_ne (Ne.symm hk) _ _) ?_ (messages_of_quiet (.inl hk))
        rw [hpc, toHand_of_ne hk]
        rfl
  | @call _ k' j m hpc hreg =>
      by_cases hk : k' = k
      · subst hk
        refine .hand m rfl (by rw [hpc, toHand_self]) rfl ?_
        rw [taker, if_pos hreg]
      · refine .rest rfl ?_ (messages_of_quiet (.inl hk))
        rw [hpc, toHand_of_ne hk]
        rfl
  | @receive _ k' j m stage hpc hstage =>
      by_cases hk : k' = k
      · subst hk
        cases hreg : registered k' with
        | true =>
            rw [hreg, if_pos rfl] at hstage
            subst hstage
            refine .rest rfl (by rw [hpc]; rfl) (messages_of_quiet (.inr ?_))
            simp [taker, hreg]
        | false =>
            rw [hreg, if_neg (by decide)] at hstage
            subst hstage
            refine .hand m rfl (by rw [hpc, toHand_self]) rfl ?_
            simp [taker, hreg]
      · refine .rest rfl ?_ (messages_of_quiet (.inl hk))
        rw [hpc, toHand_of_ne hk]
        rfl
  | @throw k' j m stage hpc hstage =>
      refine .rest rfl ?_ (messages_of_quiet (.inr ?_))
      · rw [hpc, goto, toHand_behind]
        cases stage with
        | popped => exact absurd rfl hstage
        | called => rfl
        | receiving => rfl
      · cases hreg : registered k <;> simp [taker, hreg]
  | finish hpc =>
      exact .rest rfl (by rw [hpc]; rfl) fun d h _ => rfl

/-- The messages pushed are those in the queue, the one to be handed over, and those that have
been. -/
def InTurn (registered : QueueKind → Bool) (k : QueueKind) (h : List (PollingEvent M))
    (s : Polling M) : Prop :=
  messages .pushed k h =
    (s.queues k).reverse ++ ((toHand k s.pc).toList ++ messages (taker registered k) k h)

theorem InTurn.step (hs : InTurn registered k h s) (hstep : Turned registered k s s' es) :
    InTurn registered k (es ++ h) s' := by
  rw [InTurn] at hs ⊢
  cases hstep with
  | rest hqueue hhand hes =>
      rw [hes _ _ (.inl rfl), hes _ _ (.inr (.inr rfl)), hqueue, hhand, hs]
  | push m hqueue hhand hes =>
      rw [hes, List.singleton_append, messages_cons_self,
        messages_cons_of_ne (Ne.symm taker_ne_pushed), hqueue, hhand, List.reverse_append, hs]
      rfl
  | pop m hqueue hnone hhand hes =>
      have hpopped : Deed.popped ≠ taker registered k := by
        cases hreg : registered k <;> simp [taker, hreg]
      rw [hes, List.singleton_append, messages_cons_of_ne (by decide),
        messages_cons_of_ne hpopped, hs, hqueue, hnone, hhand, List.reverse_cons]
      simp
  | hand m hqueue hhand hnone hes =>
      rw [hes, List.singleton_append, messages_cons_self, messages_cons_of_ne taker_ne_pushed,
        hs, hqueue, hhand, hnone]
      rfl

/-- While callbacks are still being registered, what has been handed over was pushed, in order. -/
def Ordered (k : QueueKind) (h : List (PollingEvent M)) (s : Polling M) : Prop :=
  ((s.queues k).reverse ++ ((toHand k s.pc).toList ++ messages .handed k h)).Sublist
    (messages .pushed k h)

theorem Ordered.step (hs : Ordered k h s) (hstep : Turned registered k s s' es) :
    Ordered k (es ++ h) s' := by
  rw [Ordered] at hs ⊢
  cases hstep with
  | rest hqueue hhand hes =>
      rw [hes _ _ (.inl rfl), hes _ _ (.inr (.inl rfl)), hqueue, hhand]
      exact hs
  | push m hqueue hhand hes =>
      rw [hes, List.singleton_append, messages_cons_self, messages_cons_of_ne (by decide), hqueue,
        hhand, List.reverse_append]
      exact hs.cons_cons m
  | pop m hqueue hnone hhand hes =>
      rw [hes, List.singleton_append, messages_cons_of_ne (by decide),
        messages_cons_of_ne (by decide), hhand]
      rw [hqueue, hnone, List.reverse_cons, List.append_assoc] at hs
      exact hs
  | hand m hqueue hhand hnone hes =>
      rw [hes, List.singleton_append, messages_cons_of_ne taker_ne_pushed, hqueue, hnone]
      rw [hhand] at hs
      cases hreg : registered k with
      | true =>
          rw [taker, if_pos hreg, messages_cons_self]
          exact hs
      | false =>
          -- it is lost
          rw [taker, hreg, if_neg (by decide), messages_cons_of_ne (by decide)]
          refine List.Sublist.trans ?_ hs
          exact (List.Sublist.refl _).append ((List.sublist_cons_self m _))

end Steps

/-! ## The head of the queue gets its turn -/

/-- The callback is still to come to the head of the queue, if only in its next call. -/
def Ahead (k : QueueKind) : Option (PollingPc M) → Prop
  | none => True
  | some (.head k' i) => (k' = k ∧ i = 0) ∨ (k' = .emcy ∧ k = .rpdo)
  | some (.busy k' i _ stage) => (k' = k ∧ i = 0 ∧ stage = .popped) ∨ (k' = .emcy ∧ k = .rpdo)

/-- How many steps until the callback has come to its end; before a call all of them. -/
def stepsToEnd : Option (PollingPc M) → ℕ
  | none => rank (some (.head .emcy 0 : PollingPc M)) + 1
  | some pc => rank (some pc)

section Turn
variable {registered : QueueKind → Bool} {s s' : Polling M} {i : PollingInput M}
  {es h : List (PollingEvent M)} {k : QueueKind}

theorem rank_step (hs : WellPlaced registered s.pc) {throws : Bool}
    (hstep : step registered s (.go throws) = some (s', es)) : rank s'.pc < rank s.pc := by
  obtain ⟨pc, hpc, -⟩ := Option.map_eq_some_iff.mp hstep
  obtain ⟨t, es', ht, hlt⟩ := go_rank hs hpc throws
  obtain ⟨rfl, -⟩ := Prod.mk.inj (Option.some.inj (ht.symm.trans hstep))
  exact hlt

/-- A message waits for its turn. -/
def Pending (k : QueueKind) (s : Polling M) : Prop := s.queues k ≠ [] ∨ toHand k s.pc ≠ none

/-- A step hands a message over, or the callback is still to come to the head of the queue in the
same call. -/
theorem Ahead.step (hs : Ahead k s.pc) (hp : Pending k s) (hstep : Stepped registered s i s' es) :
    (∃ m, es = [.message (taker registered k) k m]) ∨
      (Ahead k s'.pc ∧ (s.pc ≠ none → s'.pc ≠ none)) := by
  cases hstep with
  | push k' m => exact .inr ⟨hs, id⟩
  | begin hpc =>
      cases k with
      | emcy => exact .inr ⟨.inl ⟨rfl, rfl⟩, by simp [goto]⟩
      | rpdo => exact .inr ⟨.inr ⟨rfl, rfl⟩, by simp [goto]⟩
  | @leave _ k' j hpc hend =>
      rw [hpc] at hs
      rcases hs with ⟨rfl, rfl⟩ | ⟨rfl, rfl⟩
      · -- the queue is not empty
        rcases hend with hend | hend
        · omega
        · rw [Pending, hpc, hend] at hp
          simp at hp
      · exact .inr ⟨.inl ⟨rfl, rfl⟩, by simp [goto, behind]⟩
  | @pop _ k' j m rest hpc hj hqueue =>
      rw [hpc] at hs
      rcases hs with ⟨rfl, rfl⟩ | ⟨rfl, rfl⟩
      · exact .inr ⟨.inl ⟨rfl, rfl, rfl⟩, by simp⟩
      · exact .inr ⟨.inr ⟨rfl, rfl⟩, by simp⟩
  | @call _ k' j m hpc hreg =>
      rw [hpc] at hs
      rcases hs with ⟨rfl, rfl, -⟩ | ⟨rfl, rfl⟩
      · exact .inl ⟨m, by rw [taker, if_pos hreg]⟩
      · exact .inr ⟨.inr ⟨rfl, rfl⟩, by simp [goto]⟩
  | @receive _ k' j m stage hpc hstage =>
      rw [hpc] at hs
      rcases hs with ⟨rfl, rfl, rfl⟩ | ⟨rfl, rfl⟩
      · cases hreg : registered k' with
        | true => simp [hreg] at hstage
        | false => exact .inl ⟨m, by simp [taker, hreg]⟩
      · exact .inr ⟨.inr ⟨rfl, rfl⟩, by simp [goto]⟩
  | @throw k' j m stage hpc hstage =>
      rw [hpc] at hs
      rcases hs with ⟨-, -, rfl⟩ | ⟨rfl, rfl⟩
      · exact absurd rfl hstage
      · exact .inr ⟨.inl ⟨rfl, rfl⟩, by simp [goto, behind]⟩
  | @finish k' j m hpc =>
      rw [hpc] at hs
      rcases hs with ⟨-, -, hstage⟩ | ⟨rfl, rfl⟩
      · contradiction
      · exact .inr ⟨.inr ⟨rfl, rfl⟩, by simp [goto]⟩

end Turn

/-! ## In a run that goes on -/

/-- The input is one of the callback. -/
def OfCallback (i : PollingInput M) : Prop := ∀ k m, i ≠ .push k m

/-- The callback goes on, and is called again when it has come to its end. -/
def Attended {registered : QueueKind → Bool} (r : Run (system M registered) Guard.free) : Prop :=
  r.Fair OfCallback fun _ => True

section Live
variable {registered : QueueKind → Bool} {r : Run (system M registered) Guard.free} {k : QueueKind}

/-- The messages of the kind with which it has been done in the first steps. -/
abbrev messagesBy (r : Run (system M registered) Guard.free) (d : Deed) (k : QueueKind) (n : ℕ) :
    List (M k) :=
  messages d k (historyOf r.events n)

theorem wellPlaced_run (r : Run (system M registered) Guard.free) (n : ℕ) :
    WellPlaced registered (r.state n).pc := wellPlaced_of_reach (r.reach n)

theorem stepped_run (r : Run (system M registered) Guard.free) (n : ℕ) :
    Stepped registered (r.state n) (r.input n) (r.state (n + 1)) (r.events n) :=
  step_cases (wellPlaced_run r n) (r.step n)

theorem inTurn_run (r : Run (system M registered) Guard.free) (k : QueueKind) (n : ℕ) :
    InTurn registered k (historyOf r.events n) (r.state n) := by
  induction n with
  | zero =>
      rw [InTurn, r.init]
      rfl
  | succ n ih => exact ih.step (turned_of_stepped (stepped_run r n))

/-- Handed over are the oldest of the messages pushed. -/
theorem handed_suffix_run (r : Run (system M registered) Guard.free) (k : QueueKind) (n : ℕ) :
    messagesBy r (taker registered k) k n <:+ messagesBy r .pushed k n := by
  have hturn := inTurn_run r k n
  rw [InTurn, ← List.append_assoc] at hturn
  exact ⟨_, hturn.symm⟩

/-- Histories grow. -/
theorem messagesBy_suffix (d : Deed) {n m : ℕ} (hnm : n ≤ m) :
    messagesBy r d k n <:+ messagesBy r d k m := by
  induction m, hnm using Nat.le_induction with
  | base => exact List.suffix_rfl
  | succ m _ ih =>
      refine ih.trans ?_
      rw [messagesBy, messagesBy, historyOf, messages, messages, List.filterMap_append]
      exact List.suffix_append _ _

theorem pending_of_lt {n : ℕ}
    (hlt : (messagesBy r (taker registered k) k n).length < (messagesBy r .pushed k n).length) :
    Pending k (r.state n) := by
  have hturn := inTurn_run r k n
  by_contra hnot
  obtain ⟨hqueue, hhand⟩ := not_or.mp hnot
  rw [InTurn, not_not.mp hqueue, not_not.mp hhand] at hturn
  rw [messagesBy, messagesBy, hturn] at hlt
  simp at hlt

/-- At the position fewer messages than `c` have been handed over, of the `c` that were pushed. -/
def Behind (r : Run (system M registered) Guard.free) (k : QueueKind) (c d n : ℕ) : Prop :=
  c ≤ (messagesBy r .pushed k n).length ∧
    c = (messagesBy r (taker registered k) k n).length + d

/-- What was pushed first has been handed over. -/
def Served (r : Run (system M registered) Guard.free) (k : QueueKind) (c n : ℕ) : Prop :=
  c ≤ (messagesBy r (taker registered k) k n).length

/-- A step leaves as many messages to be handed over, or one less. -/
theorem Behind.step {c d n : ℕ} (hs : Behind r k c d n) (hd : 0 < d) :
    (¬ (∃ m, r.events n = [.message (taker registered k) k m]) ∧ Behind r k c d (n + 1)) ∨
      Behind r k c (d - 1) (n + 1) := by
  obtain ⟨hpushed, hc⟩ := hs
  have hgrow := (messagesBy_suffix (r := r) (k := k) .pushed (Nat.le_succ n)).length_le
  have hpushed' : c ≤ (messagesBy r .pushed k (n + 1)).length := hpushed.trans hgrow
  by_cases hhand : ∃ m, r.events n = [.message (taker registered k) k m]
  · obtain ⟨m, hevents⟩ := hhand
    refine .inr ⟨hpushed', ?_⟩
    rw [messagesBy, historyOf, hevents, List.singleton_append, messages_cons_self,
      List.length_cons]
    rw [messagesBy] at hc
    omega
  · refine .inl ⟨hhand, hpushed', ?_⟩
    have hsame : messagesBy r (taker registered k) k (n + 1) =
        messagesBy r (taker registered k) k n := by
      rw [messagesBy, historyOf]
      cases turned_of_stepped (k := k) (stepped_run r n) with
      | rest _ _ hes => exact hes _ _ (.inr (.inr rfl))
      | push m _ _ hes =>
          rw [hes]
          exact messages_cons_of_ne (Ne.symm taker_ne_pushed)
      | pop m _ _ _ hes =>
          rw [hes]
          refine messages_cons_of_ne ?_
          cases hreg : registered k <;> simp [taker, hreg]
      | hand m _ _ _ hes => exact absurd ⟨m, hes⟩ hhand
    rw [hsame]
    exact hc

/-- The callback comes to its end, unless it hands over a message before. -/
theorem leadsTo_end (hfair : Attended r) (c d : ℕ) (hd : 0 < d) :
    LeadsTo (Behind r k c d) fun n =>
      (Behind r k c d n ∧ (r.state n).pc = none) ∨ Behind r k c (d - 1) n := by
  refine Run.leadsTo_of_rank hfair (fun s => rank s.pc) (fun _ _ => trivial) ?_
  intro n hn
  by_cases hnone : (r.state n).pc = none
  · exact .inl (.inl ⟨hn, hnone⟩)
  rcases hn.step hd with ⟨-, hkept⟩ | hless
  · refine .inr (.inr ⟨hkept, ?_⟩)
    have hstep := r.step n
    cases hinput : r.input n with
    | push k' m =>
        rw [hinput] at hstep
        obtain ⟨hstate, -⟩ := Prod.mk.inj (Option.some.inj hstep)
        rw [← hstate]
        exact ⟨le_rfl, fun hof => absurd rfl (hof k' m)⟩
    | begin =>
        rw [hinput] at hstep
        obtain ⟨pc, hpc⟩ := Option.ne_none_iff_exists'.mp hnone
        simp [system, step, hpc] at hstep
    | go throws =>
        rw [hinput] at hstep
        have hlt := rank_step (wellPlaced_run r n) hstep
        exact ⟨hlt.le, fun _ => hlt⟩
  · exact .inr (.inl (.inr hless))

/-- From its beginning it comes to the head of the queue. -/
theorem leadsTo_hand (hfair : Attended r) (c d : ℕ) (hd : 0 < d) :
    LeadsTo (fun n => Behind r k c d n ∧ Ahead k (r.state n).pc) (Behind r k c (d - 1)) := by
  refine Run.leadsTo_of_rank hfair (fun s => stepsToEnd s.pc) (fun _ _ => trivial) ?_
  intro n hn
  obtain ⟨hn, hahead⟩ := hn
  have hpending : Pending k (r.state n) := by
    obtain ⟨hpushed, hc⟩ := hn
    exact pending_of_lt (by omega)
  rcases hn.step hd with ⟨hnot, hkept⟩ | hless
  · rcases hahead.step hpending (stepped_run r n) with hhand | ⟨hnext, hsame⟩
    · exact absurd hhand hnot
    · refine .inr (.inr ⟨⟨hkept, hnext⟩, ?_⟩)
      have hstep := r.step n
      cases hinput : r.input n with
      | push k' m =>
          rw [hinput] at hstep
          obtain ⟨hstate, -⟩ := Prod.mk.inj (Option.some.inj hstep)
          rw [← hstate]
          exact ⟨le_rfl, fun hof => absurd rfl (hof k' m)⟩
      | begin =>
          rw [hinput] at hstep
          cases hpc : (r.state n).pc with
          | some pc => simp [system, step, hpc] at hstep
          | none =>
              simp only [system, step, hpc, Option.some.injEq, Prod.mk.injEq] at hstep
              rw [← hstep.1]
              exact ⟨Nat.le_succ _, fun _ => Nat.lt_succ_self _⟩
      | go throws =>
          rw [hinput] at hstep
          have hlt := rank_step (wellPlaced_run r n) hstep
          obtain ⟨pc, hpc, -⟩ := Option.map_eq_some_iff.mp hstep
          obtain ⟨pc', hpc'⟩ := Option.ne_none_iff_exists'.mp (hsame (by simp [hpc]))
          rw [hpc, hpc'] at hlt ⊢
          exact ⟨hlt.le, fun _ => hlt⟩
  · exact .inr (.inl hless)

theorem leadsTo_served (hfair : Attended r) (c d : ℕ) :
    LeadsTo (Behind r k c d) (Served r k c) := by
  refine LeadsTo.of_descent (fun d => ?_) d
  by_cases hd : d = 0
  · refine LeadsTo.of_imp fun n hn => .inr ?_
    rw [Served]
    have hc := hn.2
    omega
  · have hpos : 0 < d := Nat.pos_of_ne_zero hd
    have hless : LeadsTo (Behind r k c (d - 1)) fun n =>
        (∃ e, e < d ∧ Behind r k c e n) ∨ Served r k c n :=
      LeadsTo.of_imp fun n hn => .inl ⟨d - 1, by omega, hn⟩
    refine (leadsTo_end hfair c d hpos).trans (LeadsTo.or ?_ hless)
    refine LeadsTo.trans (LeadsTo.trans ?_ (leadsTo_hand hfair c d hpos)) hless
    refine LeadsTo.of_imp fun n hn => ⟨hn.1, ?_⟩
    rw [hn.2]
    trivial

/-- **Every message gets its turn.**  In a run in which the callback goes on and is called again
and again, whatever it throws and however many messages come meanwhile, all that were pushed up to
some step have been handed over, in order, at another. -/
theorem messages_get_turn (r : Run (system M registered) Guard.free) (hfair : Attended r)
    (k : QueueKind) (n : ℕ) :
    ∃ m, n ≤ m ∧ messagesBy r .pushed k n <:+ messagesBy r (taker registered k) k m := by
  have hle := (handed_suffix_run r k n).length_le
  have hbehind : Behind r k (messagesBy r .pushed k n).length
      ((messagesBy r .pushed k n).length - (messagesBy r (taker registered k) k n).length) n := by
    exact ⟨le_rfl, by omega⟩
  obtain ⟨m, hnm, hserved⟩ := leadsTo_served hfair _ _ n hbehind
  exact ⟨m, hnm, List.suffix_of_suffix_length_le (messagesBy_suffix .pushed hnm)
    (handed_suffix_run r k m) hserved⟩

end Live

/-- A message comes before each call, and the registered callback throws each time. -/
def throwing (n : ℕ) : PollingInput fun _ => ℕ :=
  [.push .emcy 7, .begin, .go false, .go false, .go true, .go false].getD (n % 6) .begin

/-- The first message is handed over all the same. -/
theorem messages_get_turn_throwing :
    ∃ r : Run (system (fun _ => ℕ) fun _ => true) Guard.free, r.input 0 = .push .emcy 7 ∧
      ∃ m, [7] <:+ messagesBy r .handed .emcy m := by
  have hperiod : ∀ n, throwing (n + 6) = throwing n := fun n => by
    rw [throwing, throwing, Nat.add_mod_right]
  have hback : (system (fun _ => ℕ) fun _ => true).follow throwing ⟨fun _ => [], none⟩ 6 =
      ⟨fun _ => [], none⟩ := by
    refine congrArg (Polling.mk · none) (funext fun k => ?_)
    cases k <;> rfl
  have hsome : ∀ n, ((system (fun _ => ℕ) fun _ => true).step
      ((system (fun _ => ℕ) fun _ => true).follow throwing ⟨fun _ => [], none⟩ n)
      (throwing n)).isSome := by
    intro n
    have honce : ∀ j < 6, ((system (fun _ => ℕ) fun _ => true).step
        ((system (fun _ => ℕ) fun _ => true).follow throwing ⟨fun _ => [], none⟩ j)
        (throwing j)).isSome := by decide
    have hmod : throwing n = throwing (n % 6) := by
      rw [throwing, throwing, Nat.mod_mod]
    rw [System.follow_mod hperiod hback, hmod]
    exact honce _ (Nat.mod_lt n (by omega))
  have hfair : Attended (Run.following rfl hsome fun _ => trivial) := by
    intro n
    refine ⟨6 * n + 1, by omega, fun _ k m hpush => ?_⟩
    have hbegin : throwing (6 * n + 1) = .begin := by
      rw [throwing, Nat.mul_add_mod]
      rfl
    have habsurd := hbegin.symm.trans hpush
    contradiction
  obtain ⟨m, -, hturn⟩ := messages_get_turn _ hfair .emcy 1
  exact ⟨_, rfl, m, hturn⟩

end Polling
end RosCanopen.Core
