import RosCanopen.Lib.Batches
import Mathlib.Logic.Function.Basic
import RosCanopen.Lib.System

/-!
# The queues of a driver and the callback that polls them

The bridge pushes EMCY messages and RPDOs to two queues; `poll_timer_callback` takes at most
ten of each and hands every one of them to the callback that is registered for its kind, and
then to `on_emcy` or `on_rpdo`.  What one of the two throws ends the loop of that queue.  Pushes
come at any time between the steps of the callback.

## Main definitions

* `QueueKind`, `SafeQueue` — the two queues.
* `Polling.step`, `Polling.system` — the pushes and the steps of the callback.
* `MessageOutcome.deeds` — what becomes of a message that has been taken from its queue.
* `Polling.Accounts` — every message pushed has been dealt with, is in hand, or is queued.
-/

namespace RosCanopen.Core

open Lib

universe u

inductive QueueKind
  | emcy
  | rpdo
  deriving DecidableEq

/-- A queue that grows as needed, oldest first. -/
abbrev SafeQueue (α : Type u) := List α

namespace SafeQueue
variable {α : Type u}

def push (q : SafeQueue α) (value : α) : SafeQueue α := q ++ [value]

def tryPop : SafeQueue α → Option (α × SafeQueue α)
  | [] => none
  | value :: q => some (value, q)

end SafeQueue

/-- How far a message has got that was taken from its queue. -/
inductive MessageStage
  | popped
  /-- In the registered callback. -/
  | called
  /-- In `on_emcy` or `on_rpdo`. -/
  | receiving
  deriving DecidableEq

/-- `poll_timer_callback`, with the index of the loop it is in. -/
inductive PollingPc (M : QueueKind → Type u)
  /-- At the head of the loop. -/
  | head (k : QueueKind) (i : ℕ)
  | busy (k : QueueKind) (i : ℕ) (m : M k) (stage : MessageStage)

/-- What is done with a message. -/
inductive Deed
  | pushed
  | popped
  /-- The registered callback is called with it. -/
  | handed
  /-- `on_emcy` or `on_rpdo` is called with it. -/
  | received
  /-- A `std::exception` has come out of the one or the other. -/
  | threw
  deriving DecidableEq

inductive PollingEvent (M : QueueKind → Type u)
  | message (deed : Deed) (k : QueueKind) (m : M k)
  /-- The callback has been called. -/
  | began

inductive PollingInput (M : QueueKind → Type u)
  /-- `OnEmcy` or `OnRpdoWrite` -/
  | push (k : QueueKind) (m : M k)
  /-- The callback is called. -/
  | begin
  /-- The callback goes on; what it has called returns, or throws. -/
  | go (throws : Bool)

structure Polling (M : QueueKind → Type u) where
  queues : ∀ k, SafeQueue (M k)
  /-- Where the callback is, while it runs. -/
  pc : Option (PollingPc M)

namespace Polling
variable {M : QueueKind → Type u}

/-- Behind the loop of a queue. -/
def behind : QueueKind → Option (PollingPc M)
  | .emcy => some (.head .rpdo 0)
  | .rpdo => none

def goto (s : Polling M) (pc : Option (PollingPc M)) : Polling M := { s with pc }

/-- `poll_timer_callback`, from where it is up to its next call. -/
def go (registered : QueueKind → Bool) (throws : Bool) (s : Polling M) :
    PollingPc M → Polling M × List (PollingEvent M)
  | .head k i =>
      if i < 10 then
        match (s.queues k).tryPop with
        | none => (s.goto (behind k), [])
        | some (m, rest) =>
            (⟨Function.update s.queues k rest, some (.busy k i m .popped)⟩,
              [.message .popped k m])
      else (s.goto (behind k), [])
  | .busy k i m .popped =>
      if registered k then (s.goto (some (.busy k i m .called)), [.message .handed k m])
      else (s.goto (some (.busy k i m .receiving)), [.message .received k m])
  | .busy k i m .called =>
      if throws then (s.goto (behind k), [.message .threw k m])
      else (s.goto (some (.busy k i m .receiving)), [.message .received k m])
  | .busy k i m .receiving =>
      if throws then (s.goto (behind k), [.message .threw k m])
      else (s.goto (some (.head k (i + 1))), [])

def step (registered : QueueKind → Bool) (s : Polling M) :
    PollingInput M → Option (Polling M × List (PollingEvent M))
  | .push k m =>
      some ({ s with queues := Function.update s.queues k ((s.queues k).push m) },
        [.message .pushed k m])
  | .begin =>
      match s.pc with
      | none => some (s.goto (some (.head .emcy 0)), [.began])
      | some _ => none
  | .go throws => s.pc.map (go registered throws s)

/-- The queues from when they are made, with the callbacks that are registered. -/
def system (M : QueueKind → Type u) (registered : QueueKind → Bool) :
    System (Polling M) (PollingInput M) (PollingEvent M) where
  init s := s = ⟨fun _ => [], none⟩
  step := step registered

end Polling

/-! ## What is promised -/

namespace PollingEvent
variable {M : QueueKind → Type u}

/-- What the event does with a message of the kind. -/
def deed? (k : QueueKind) : PollingEvent M → Option (Deed × M k)
  | .message d k' m => if h : k' = k then some (d, h ▸ m) else none
  | .began => none

/-- The message of the kind with which the deed is done. -/
def of? (d : Deed) (k : QueueKind) (e : PollingEvent M) : Option (M k) :=
  match e.deed? k with
  | some (d', m) => if d' = d then some m else none
  | none => none

def isBegan : PollingEvent M → Bool
  | .began => true
  | .message _ _ _ => false

end PollingEvent

/-- How it ends with a message that has been taken from its queue. -/
inductive MessageOutcome
  | callbackThrew
  | receiverThrew
  | delivered
  deriving DecidableEq

/-- What is done with a message from when it is taken, the latest first. -/
def MessageOutcome.deeds (registered : Bool) : MessageOutcome → List Deed
  | .callbackThrew => [.threw, .handed, .popped]
  | .receiverThrew => .threw :: .received :: if registered then [.handed, .popped] else [.popped]
  | .delivered => .received :: if registered then [.handed, .popped] else [.popped]

/-- Only a callback that is registered throws. -/
def MessageOutcome.possible (registered : Bool) : MessageOutcome → Bool
  | .callbackThrew => registered
  | .receiverThrew | .delivered => true

/-- What has been done with a message so far, the latest first. -/
def MessageStage.deeds (registered : Bool) : MessageStage → List Deed
  | .popped => [.popped]
  | .called => [.handed, .popped]
  | .receiving => .received :: if registered then [.handed, .popped] else [.popped]

namespace Polling
variable {M : QueueKind → Type u}

/-- What has been done with the messages of a kind since they were taken. -/
def dealings (k : QueueKind) (h : List (PollingEvent M)) : List (Deed × M k) :=
  (h.filterMap (PollingEvent.deed? k)).filter fun d => d.1 ≠ .pushed

/-- The messages with which it has been done, the latest first. -/
def messages (d : Deed) (k : QueueKind) (h : List (PollingEvent M)) : List (M k) :=
  h.filterMap (PollingEvent.of? d k)

/-- The message of the kind that the callback has in hand. -/
def inHand (k : QueueKind) : Option (PollingPc M) → Option (M k × MessageStage)
  | some (.busy k' _ m stage) => if h : k' = k then some (h ▸ m, stage) else none
  | some (.head _ _) | none => none

/-- The messages that were pushed are, from the oldest on, the ones dealt with, each as its
outcome says, the one in hand, and the queue. -/
structure Accounts (registered : QueueKind → Bool) (k : QueueKind) (h : List (PollingEvent M))
    (s : Polling M) (done : List (M k × MessageOutcome)) : Prop where
  pushed : messages .pushed k h =
    (s.queues k).reverse ++ ((inHand k s.pc).toList.map Prod.fst ++ done.map Prod.fst)
  dealings : dealings k h =
    (inHand k s.pc).toList.flatMap (fun p => (p.2.deeds (registered k)).map (·, p.1)) ++
      done.flatMap fun p => (p.2.deeds (registered k)).map (·, p.1)
  possible : ∀ p ∈ done, p.2.possible (registered k) = true

/-- How many steps the callback has before it, at most. -/
def rank : Option (PollingPc M) → ℕ
  | none => 0
  | some (.head k i) => 4 * (10 - i) + 1 + lag k
  | some (.busy k i _ .popped) => 4 * (10 - i) + lag k
  | some (.busy k i _ .called) => 4 * (10 - i) - 1 + lag k
  | some (.busy k i _ .receiving) => 4 * (10 - i) - 2 + lag k
where
  /-- The steps behind the loop of a queue. -/
  lag : QueueKind → ℕ
    | .emcy => 41
    | .rpdo => 0

/-- To whom a message goes first. -/
def taker (registered : QueueKind → Bool) (k : QueueKind) : Deed :=
  if registered k then .handed else .received

/-! ## The histories -/

section Histories
variable {k k' : QueueKind} {d d' : Deed} {m : M k} {e : PollingEvent M}
  {h : List (PollingEvent M)}

@[simp] theorem deed_message_self : (PollingEvent.message d k m).deed? k = some (d, m) :=
  dif_pos rfl

theorem deed_message_of_ne (hne : k ≠ k') : (PollingEvent.message d k m).deed? k' = none :=
  dif_neg hne

theorem dealings_cons_silent (he : e.deed? k = none) : dealings k (e :: h) = dealings k h := by
  simp only [dealings, List.filterMap_cons, he]

theorem messages_cons_silent (he : e.deed? k = none) : messages d k (e :: h) = messages d k h := by
  simp only [messages, List.filterMap_cons, PollingEvent.of?, he]

@[simp] theorem dealings_cons_pushed :
    dealings k (.message .pushed k m :: h) = dealings k h := by
  simp [dealings]

theorem dealings_cons (hd : d ≠ .pushed) :
    dealings k (.message d k m :: h) = (d, m) :: dealings k h := by
  simp [dealings, hd]

@[simp] theorem messages_cons_self :
    messages d k (.message d k m :: h) = m :: messages d k h := by
  simp [messages, PollingEvent.of?]

/-- What is done beside a deed does not count for it, whatever the message. -/
theorem messages_cons_of_ne (hne : d' ≠ d) :
    messages d k' (.message d' k m :: h) = messages d k' h := by
  by_cases hk : k = k'
  · subst hk
    simp [messages, PollingEvent.of?, hne]
  · exact messages_cons_silent (deed_message_of_ne hk)

/-- What is done with one message, beside pushing it. -/
theorem dealings_append_deeds {ds : List Deed} (hds : ∀ d ∈ ds, d ≠ .pushed) :
    dealings k (ds.map (.message · k m) ++ h) = ds.map (·, m) ++ dealings k h := by
  induction ds with
  | nil => rfl
  | cons d ds ih =>
      rw [List.map_cons, List.cons_append, dealings_cons (hds d List.mem_cons_self),
        ih fun d' hd' => hds d' (List.mem_cons_of_mem _ hd')]
      rfl

theorem pushed_append_deeds {ds : List Deed} (hds : ∀ d ∈ ds, d ≠ .pushed) :
    messages .pushed k (ds.map (.message · k m) ++ h) = messages .pushed k h := by
  induction ds with
  | nil => rfl
  | cons d ds ih =>
      rw [List.map_cons, List.cons_append, messages_cons_of_ne (hds d List.mem_cons_self)]
      exact ih fun d' hd' => hds d' (List.mem_cons_of_mem _ hd')

theorem messages_append_silent {es : List (PollingEvent M)} (hes : ∀ e ∈ es, e.deed? k = none) :
    messages d k (es ++ h) = messages d k h := by
  induction es with
  | nil => rfl
  | cons e es ih =>
      rw [List.cons_append, messages_cons_silent (hes e List.mem_cons_self)]
      exact ih fun e' he' => hes e' (List.mem_cons_of_mem _ he')

theorem dealings_append_silent {es : List (PollingEvent M)} (hes : ∀ e ∈ es, e.deed? k = none) :
    dealings k (es ++ h) = dealings k h := by
  induction es with
  | nil => rfl
  | cons e es ih =>
      rw [List.cons_append, dealings_cons_silent (hes e List.mem_cons_self)]
      exact ih fun e' he' => hes e' (List.mem_cons_of_mem _ he')

theorem silent_of_ne (hne : k ≠ k') :
    ∀ e ∈ [PollingEvent.message d k m], e.deed? k' = none := by
  intro e he
  rw [List.mem_singleton.mp he]
  exact deed_message_of_ne hne

end Histories

@[simp] theorem inHand_self (k : QueueKind) (i : ℕ) (m : M k) (stage : MessageStage) :
    inHand k (some (.busy k i m stage)) = some (m, stage) := dif_pos rfl

theorem inHand_of_ne {k k' : QueueKind} (hne : k ≠ k') (i : ℕ) (m : M k) (stage : MessageStage) :
    inHand k' (some (.busy k i m stage)) = none := dif_neg hne

@[simp] theorem inHand_none (k : QueueKind) : inHand k (none : Option (PollingPc M)) = none := rfl

@[simp] theorem inHand_head (k k' : QueueKind) (i : ℕ) :
    inHand k (some (.head k' i : PollingPc M)) = none := rfl

@[simp] theorem inHand_behind (k k' : QueueKind) :
    inHand k (behind k' : Option (PollingPc M)) = none := by
  cases k' with
  | emcy => rfl
  | rpdo => rfl

/-! ## What a step can do -/

/-- The steps, by what they do. -/
inductive Stepped (registered : QueueKind → Bool) (s : Polling M) :
    PollingInput M → Polling M → List (PollingEvent M) → Prop
  | push (k : QueueKind) (m : M k) : Stepped registered s (.push k m)
      { s with queues := Function.update s.queues k (s.queues k ++ [m]) } [.message .pushed k m]
  | begin (hpc : s.pc = none) :
      Stepped registered s .begin (s.goto (some (.head .emcy 0))) [.began]
  | leave {throws : Bool} {k : QueueKind} {i : ℕ} (hpc : s.pc = some (.head k i))
      (hend : 10 ≤ i ∨ s.queues k = []) : Stepped registered s (.go throws) (s.goto (behind k)) []
  | pop {throws : Bool} {k : QueueKind} {i : ℕ} {m : M k} {rest : SafeQueue (M k)}
      (hpc : s.pc = some (.head k i)) (hi : i < 10) (hqueue : s.queues k = m :: rest) :
      Stepped registered s (.go throws)
        ⟨Function.update s.queues k rest, some (.busy k i m .popped)⟩ [.message .popped k m]
  | call {throws : Bool} {k : QueueKind} {i : ℕ} {m : M k}
      (hpc : s.pc = some (.busy k i m .popped)) (hreg : registered k = true) :
      Stepped registered s (.go throws) (s.goto (some (.busy k i m .called)))
        [.message .handed k m]
  | receive {throws : Bool} {k : QueueKind} {i : ℕ} {m : M k} {stage : MessageStage}
      (hpc : s.pc = some (.busy k i m stage))
      (hstage : stage = if registered k then .called else .popped) :
      Stepped registered s (.go throws) (s.goto (some (.busy k i m .receiving)))
        [.message .received k m]
  | throw {k : QueueKind} {i : ℕ} {m : M k} {stage : MessageStage}
      (hpc : s.pc = some (.busy k i m stage)) (hstage : stage ≠ .popped) :
      Stepped registered s (.go true) (s.goto (behind k)) [.message .threw k m]
  | finish {k : QueueKind} {i : ℕ} {m : M k} (hpc : s.pc = some (.busy k i m .receiving)) :
      Stepped registered s (.go false) (s.goto (some (.head k (i + 1)))) []

/-- The index of a loop is in its range, and what is called is registered. -/
def WellPlaced (registered : QueueKind → Bool) : Option (PollingPc M) → Prop
  | none => True
  | some (.head _ i) => i ≤ 10
  | some (.busy k i _ stage) => i < 10 ∧ (stage = .called → registered k = true)

section Steps
variable {registered : QueueKind → Bool} {s s' : Polling M} {i : PollingInput M}
  {es h : List (PollingEvent M)}

theorem step_cases (hs : WellPlaced registered s.pc) (hstep : step registered s i = some (s', es)) :
    Stepped registered s i s' es := by
  cases i with
  | push k m =>
      obtain ⟨rfl, rfl⟩ := Prod.mk.inj (Option.some.inj hstep)
      exact .push k m
  | begin =>
      simp only [step] at hstep
      cases hpc : s.pc with
      | some pc => simp [hpc] at hstep
      | none =>
          simp only [hpc, Option.some.injEq, Prod.mk.injEq] at hstep
          obtain ⟨rfl, rfl⟩ := hstep
          exact .begin hpc
  | go throws =>
      obtain ⟨pc, hpc, heq⟩ := Option.map_eq_some_iff.mp hstep
      rw [hpc] at hs
      cases pc with
      | head k i =>
          simp only [go] at heq
          by_cases hi : i < 10
          · rw [if_pos hi] at heq
            cases hqueue : s.queues k with
            | nil =>
                simp only [hqueue, SafeQueue.tryPop] at heq
                obtain ⟨rfl, rfl⟩ := Prod.mk.inj heq
                exact .leave hpc (.inr hqueue)
            | cons m rest =>
                simp only [hqueue, SafeQueue.tryPop] at heq
                obtain ⟨rfl, rfl⟩ := Prod.mk.inj heq
                exact .pop hpc hi hqueue
          · rw [if_neg hi] at heq
            obtain ⟨rfl, rfl⟩ := Prod.mk.inj heq
            exact .leave hpc (.inl (by omega))
      | busy k i m stage =>
          cases stage with
          | popped =>
              simp only [go] at heq
              cases hreg : registered k with
              | true =>
                  simp only [hreg, if_true] at heq
                  obtain ⟨rfl, rfl⟩ := Prod.mk.inj heq
                  exact .call hpc hreg
              | false =>
                  simp only [hreg, Bool.false_eq_true, if_false] at heq
                  obtain ⟨rfl, rfl⟩ := Prod.mk.inj heq
                  exact .receive hpc (by simp [hreg])
          | called =>
              simp only [go] at heq
              cases throws with
              | true =>
                  simp only [if_true] at heq
                  obtain ⟨rfl, rfl⟩ := Prod.mk.inj heq
                  exact .throw hpc (by simp)
              | false =>
                  simp only [Bool.false_eq_true, if_false] at heq
                  obtain ⟨rfl, rfl⟩ := Prod.mk.inj heq
                  exact .receive hpc (by simp [hs.2 rfl])
          | receiving =>
              simp only [go] at heq
              cases throws with
              | true =>
                  simp only [if_true] at heq
                  obtain ⟨rfl, rfl⟩ := Prod.mk.inj heq
                  exact .throw hpc (by simp)
              | false =>
                  simp only [Bool.false_eq_true, if_false] at heq
                  obtain ⟨rfl, rfl⟩ := Prod.mk.inj heq
                  exact .finish hpc

theorem wellPlaced_behind (k : QueueKind) :
    WellPlaced registered (behind k : Option (PollingPc M)) := by
  cases k with
  | emcy => exact Nat.zero_le _
  | rpdo => trivial

theorem WellPlaced.step (hs : WellPlaced registered s.pc)
    (hstep : step registered s i = some (s', es)) : WellPlaced registered s'.pc := by
  cases step_cases hs hstep with
  | push k m => exact hs
  | begin hpc => exact Nat.zero_le _
  | leave hpc hend => exact wellPlaced_behind _
  | pop hpc hi hqueue => exact ⟨hi, by simp⟩
  | call hpc hreg =>
      rw [hpc] at hs
      exact ⟨hs.1, fun _ => hreg⟩
  | receive hpc hstage =>
      rw [hpc] at hs
      exact ⟨hs.1, by simp⟩
  | throw hpc hstage => exact wellPlaced_behind _
  | finish hpc =>
      rw [hpc] at hs
      exact hs.1

theorem wellPlaced_of_reach (hr : Reach (system M registered) Guard.free h s) :
    WellPlaced registered s.pc := by
  refine hr.invariant (I := fun _ s => WellPlaced registered s.pc) ?_ ?_
  · intro s hinit
    rw [hinit]
    trivial
  · intro h s i s' es hs _ hstep
    exact hs.step hstep

/-! ## The accounts -/

variable {k k' : QueueKind} {done : List (M k × MessageOutcome)}

/-- What does not concern the queue leaves its account alone. -/
theorem Accounts.frame (ha : Accounts registered k h s done) (hes : ∀ e ∈ es, e.deed? k = none)
    (hqueue : s'.queues k = s.queues k) (hhand : inHand k s'.pc = inHand k s.pc) :
    Accounts registered k (es ++ h) s' done where
  pushed := by
    rw [messages_append_silent hes, hqueue, hhand]
    exact ha.pushed
  dealings := by
    rw [dealings_append_silent hes, hhand]
    exact ha.dealings
  possible := ha.possible

theorem Accounts.push (ha : Accounts registered k h s done) (m : M k) :
    Accounts registered k (.message .pushed k m :: h)
      { s with queues := Function.update s.queues k (s.queues k ++ [m]) } done where
  pushed := by
    simp [ha.pushed]
  dealings := by
    rw [dealings_cons_pushed]
    exact ha.dealings
  possible := ha.possible

theorem Accounts.pop (ha : Accounts registered k h s done) {m : M k} {rest : SafeQueue (M k)}
    {n : ℕ} (hhand : inHand k s.pc = none) (hqueue : s.queues k = m :: rest) :
    Accounts registered k (.message .popped k m :: h)
      ⟨Function.update s.queues k rest, some (.busy k n m .popped)⟩ done where
  pushed := by
    simp [messages_cons_of_ne, ha.pushed, hqueue, hhand]
  dealings := by
    rw [dealings_cons (by decide), ha.dealings, hhand, inHand_self]
    simp [MessageStage.deeds]
  possible := ha.possible

/-- The message in hand gets further. -/
theorem Accounts.proceed (ha : Accounts registered k h s done) {m : M k} {n : ℕ}
    {stage stage' : MessageStage} {d : Deed} (hpc : s.pc = some (.busy k n m stage))
    (hd : d ≠ .pushed) (hdeeds : stage'.deeds (registered k) = d :: stage.deeds (registered k)) :
    Accounts registered k (.message d k m :: h) (s.goto (some (.busy k n m stage'))) done where
  pushed := by
    rw [messages_cons_of_ne hd, ha.pushed, hpc]
    simp [goto]
  dealings := by
    rw [dealings_cons hd, ha.dealings, hpc]
    simp [goto, hdeeds]
  possible := ha.possible

/-- The message in hand has been dealt with, with a last deed or without. -/
theorem Accounts.settle (ha : Accounts registered k h s done) {m : M k} {n : ℕ}
    {stage : MessageStage} {pc : Option (PollingPc M)} (o : MessageOutcome) (last : List Deed)
    (hpc : s.pc = some (.busy k n m stage)) (hlast : ∀ d ∈ last, d ≠ .pushed)
    (hdeeds : o.deeds (registered k) = last ++ stage.deeds (registered k))
    (hpossible : o.possible (registered k) = true) (hhand : inHand k pc = none) :
    Accounts registered k (last.map (.message · k m) ++ h) (s.goto pc) ((m, o) :: done) where
  pushed := by
    rw [pushed_append_deeds hlast, ha.pushed, hpc]
    simp [goto, hhand]
  dealings := by
    rw [dealings_append_deeds hlast, ha.dealings, hpc]
    simp [goto, hhand, hdeeds]
  possible := by
    intro p hp
    rcases List.mem_cons.mp hp with rfl | hp
    · exact hpossible
    · exact ha.possible p hp

/-- **Each step keeps the account of each queue.** -/
theorem Accounts.step (ha : Accounts registered k h s done) (hs : WellPlaced registered s.pc)
    (hstep : step registered s i = some (s', es)) :
    ∃ done', Accounts registered k (es ++ h) s' done' := by
  cases step_cases hs hstep with
  | push k' m =>
      by_cases hk : k' = k
      · subst hk
        exact ⟨done, ha.push m⟩
      · refine ⟨done, ha.frame (silent_of_ne hk) ?_ rfl⟩
        exact Function.update_of_ne (Ne.symm hk) _ _
  | begin hpc =>
      refine ⟨done, ha.frame ?_ rfl ?_⟩
      · intro e he
        rw [List.mem_singleton.mp he]
        rfl
      · rw [hpc]
        rfl
  | leave hpc hend =>
      refine ⟨done, ha.frame (by simp) rfl ?_⟩
      rw [hpc]
      simp [goto]
  | @pop _ k' n m rest hpc hi hqueue =>
      by_cases hk : k' = k
      · subst hk
        exact ⟨done, ha.pop (by rw [hpc]; rfl) hqueue⟩
      · refine ⟨done, ha.frame (silent_of_ne hk) (Function.update_of_ne (Ne.symm hk) _ _) ?_⟩
        rw [hpc]
        simp [inHand_of_ne hk]
  | @call _ k' n m hpc hreg =>
      by_cases hk : k' = k
      · subst hk
        exact ⟨done, ha.proceed hpc (by decide) rfl⟩
      · refine ⟨done, ha.frame (silent_of_ne hk) rfl ?_⟩
        rw [hpc]
        simp [goto, inHand_of_ne hk]
  | @receive _ k' n m stage hpc hstage =>
      by_cases hk : k' = k
      · subst hk
        refine ⟨done, ha.proceed hpc (by decide) ?_⟩
        cases hreg : registered k' with
        | true => simp [hstage, hreg, MessageStage.deeds]
        | false => simp [hstage, hreg, MessageStage.deeds]
      · refine ⟨done, ha.frame (silent_of_ne hk) rfl ?_⟩
        rw [hpc]
        simp [goto, inHand_of_ne hk]
  | @throw k' n m stage hpc hstage =>
      by_cases hk : k' = k
      · subst hk
        rw [hpc] at hs
        cases stage with
        | popped => exact absurd rfl hstage
        | called =>
            have hcalled := ha.settle .callbackThrew [.threw] hpc (by decide) rfl
              (hs.2 rfl) (inHand_behind k' k')
            exact ⟨_, hcalled⟩
        | receiving =>
            have hreceived := ha.settle .receiverThrew [.threw] hpc (by decide)
              rfl rfl (inHand_behind k' k')
            exact ⟨_, hreceived⟩
      · refine ⟨done, ha.frame (silent_of_ne hk) rfl ?_⟩
        rw [hpc]
        simp [goto, inHand_of_ne hk]
  | @finish k' n m hpc =>
      by_cases hk : k' = k
      · subst hk
        have hdone := ha.settle .delivered [] hpc (by simp) rfl rfl
          (inHand_head k' k' (n + 1))
        exact ⟨_, hdone⟩
      · refine ⟨done, ha.frame (by simp) rfl ?_⟩
        rw [hpc]
        simp [goto, inHand_of_ne hk]

/-- **No message is lost, doubled or overtaken.** -/
theorem accounts_of_reach (hr : Reach (system M registered) Guard.free h s) (k : QueueKind) :
    ∃ done, Accounts registered k h s done := by
  have hall := hr.invariant
    (I := fun h s => WellPlaced registered s.pc ∧ ∃ done, Accounts registered k h s done) ?_ ?_
  · exact hall.2
  · intro s hinit
    rw [hinit]
    exact ⟨trivial, [], by simp [messages], by simp [Polling.dealings], by simp⟩
  · intro h s i s' es hs _ hstep
    obtain ⟨hplaced, done, ha⟩ := hs
    exact ⟨hplaced.step hstep, ha.step hplaced hstep⟩

/-! ## The end of a queue -/

/-- What the loop of a queue has taken while it is not over; `none` outside of the callback
and behind the loop. -/
def taken (k : QueueKind) : Option (PollingPc M) → Option ℕ
  | none => none
  | some (.head k' i) => if k' = k then some i else other k'
  | some (.busy k' i _ _) => if k' = k then some (i + 1) else other k'
where
  /-- In the loop of the other queue. -/
  other : QueueKind → Option ℕ
    | .emcy => some 0
    | .rpdo => none

theorem taken_behind_self (k : QueueKind) : taken k (behind k : Option (PollingPc M)) = none := by
  cases k with
  | emcy => rfl
  | rpdo => rfl

theorem taken_behind_of_ne (hk : k' ≠ k) :
    taken k (behind k' : Option (PollingPc M)) = taken.other k' := by
  cases k with
  | emcy =>
      cases k' with
      | emcy => exact absurd rfl hk
      | rpdo => rfl
  | rpdo =>
      cases k' with
      | emcy => rfl
      | rpdo => exact absurd rfl hk

theorem taken_begin (k : QueueKind) : taken k (some (.head .emcy 0 : PollingPc M)) = some 0 := by
  cases k with
  | emcy => rfl
  | rpdo => rfl

/-- The account of a queue of `n` messages, of the events since. -/
def Drains (k : QueueKind) (n : ℕ) (new : List (PollingEvent M)) (s : Polling M) : Prop :=
  Emptying 10 n (new.countP PollingEvent.isBegan) (messages .threw k new).length
    (s.queues k).length (taken k s.pc)

variable {n : ℕ} {new : List (PollingEvent M)}

theorem countP_began :
    (PollingEvent.began :: new).countP PollingEvent.isBegan = new.countP PollingEvent.isBegan + 1 :=
  List.countP_cons_of_pos rfl

theorem countP_message {d : Deed} {m : M k} :
    (PollingEvent.message d k m :: new).countP PollingEvent.isBegan =
      new.countP PollingEvent.isBegan :=
  List.countP_cons_of_neg (by simp [PollingEvent.isBegan])

/-- What is no failure of the queue leaves its account alone. -/
theorem Drains.frame (hd : Drains k n new s) (hbegan : ∀ e ∈ es, e.isBegan = false)
    (hthrew : messages .threw k (es ++ new) = messages .threw k new)
    (hqueue : s'.queues k = s.queues k) (htaken : taken k s'.pc = taken k s.pc) :
    Drains k n (es ++ new) s' := by
  have hcount : es.countP PollingEvent.isBegan = 0 := by
    rw [List.countP_eq_zero]
    intro e he
    simp [hbegan e he]
  rw [Drains, List.countP_append, hcount, Nat.zero_add, hthrew, hqueue, htaken]
  exact hd

theorem Drains.step (hd : Drains k n new s) (hs : WellPlaced registered s.pc)
    (hi : ∀ m, i ≠ .push k m) (hstep : step registered s i = some (s', es)) :
    Drains k n (es ++ new) s' := by
  cases step_cases hs hstep with
  | push k' m =>
      have hk : k' ≠ k := by
        rintro rfl
        exact hi m rfl
      exact hd.frame (by simp [PollingEvent.isBegan]) (messages_append_silent (silent_of_ne hk))
        (Function.update_of_ne (Ne.symm hk) _ _) rfl
  | begin hpc =>
      rw [Drains, hpc] at hd
      rw [Drains, List.singleton_append, countP_began, messages_cons_silent rfl]
      simp only [goto, taken_begin]
      exact hd.enter
  | @leave throws k' j hpc hend =>
      by_cases hk : k' = k
      · subst hk
        rw [Drains, hpc] at hd
        simp only [taken, if_true] at hd
        simp only [Drains, goto, taken_behind_self, List.nil_append]
        rcases hend with hj | hempty
        · rw [hpc] at hs
          have hle : j ≤ 10 := hs
          obtain rfl : j = 10 := by omega
          exact hd.full (by omega)
        · exact .inl (by rw [hempty]; rfl)
      · refine hd.frame (by simp) rfl rfl ?_
        rw [hpc]
        exact (taken_behind_of_ne hk).trans (if_neg hk).symm
  | @pop throws k' j m rest hpc hj hqueue =>
      by_cases hk : k' = k
      · subst hk
        rw [Drains, hpc, hqueue] at hd
        simp only [taken, if_true, List.length_cons] at hd
        rw [Drains, List.singleton_append, countP_message, messages_cons_of_ne (by decide)]
        simp only [taken, if_true, Function.update_self]
        exact hd.take
      · refine hd.frame (by simp [PollingEvent.isBegan])
          (messages_append_silent (silent_of_ne hk)) (Function.update_of_ne (Ne.symm hk) _ _) ?_
        rw [hpc]
        simp only [taken, if_neg hk]
  | call hpc =>
      exact hd.frame (by simp [PollingEvent.isBegan]) (messages_cons_of_ne (by decide)) rfl
        (by rw [hpc]; rfl)
  | receive hpc =>
      exact hd.frame (by simp [PollingEvent.isBegan]) (messages_cons_of_ne (by decide)) rfl
        (by rw [hpc]; rfl)
  | @throw k' j m stage hpc hstage =>
      by_cases hk : k' = k
      · subst hk
        rw [Drains, hpc] at hd
        simp only [taken, if_true] at hd
        rw [Drains, List.singleton_append, countP_message, messages_cons_self]
        simp only [goto, taken_behind_self, List.length_cons]
        exact hd.fail
      · refine hd.frame (by simp [PollingEvent.isBegan])
          (messages_append_silent (silent_of_ne hk)) rfl ?_
        rw [hpc]
        exact (taken_behind_of_ne hk).trans (if_neg hk).symm
  | @finish k' j m hpc =>
      refine hd.frame (by simp) rfl rfl ?_
      rw [hpc]
      rfl

/-- Where the loop is does not matter at the start. -/
theorem drains_start (hs : WellPlaced registered s.pc) (k : QueueKind) :
    Drains k (s.queues k).length [] s := by
  have hwithin : ∀ o : Option ℕ, (∀ j ∈ o, j ≤ 10) →
      Emptying 10 (s.queues k).length 0 0 (s.queues k).length o := by
    intro o ho
    cases o with
    | none => exact Emptying.start
    | some j => exact Emptying.start_within (by omega) (ho j rfl)
  have hother : ∀ k' : QueueKind, ∀ j ∈ taken.other k', j ≤ 10 := by
    intro k' j hj
    cases k' with
    | emcy =>
        obtain rfl := Option.some.inj hj
        exact Nat.zero_le _
    | rpdo => simp [taken.other] at hj
  refine hwithin _ ?_
  intro j hj
  cases hpc : s.pc with
  | none => simp [hpc, taken] at hj
  | some pc =>
      rw [hpc] at hs hj
      cases pc with
      | head k' i =>
          have hi : i ≤ 10 := hs
          by_cases hk : k' = k
          · simp only [taken, if_pos hk, Option.mem_some_iff] at hj
            omega
          · simp only [taken, if_neg hk] at hj
            exact hother k' j hj
      | busy k' i m stage =>
          have hi : i < 10 := hs.1
          by_cases hk : k' = k
          · simp only [taken, if_pos hk, Option.mem_some_iff] at hj
            omega
          · simp only [taken, if_neg hk] at hj
            exact hother k' j hj

/-- **The queue is emptied**: by ten messages with each call, less what is lost to throws. -/
theorem emptied (hr : Reach (system M registered) Guard.free h s) (k : QueueKind)
    {is : List (PollingInput M)} (his : ∀ i ∈ is, ∀ m, i ≠ .push k m)
    (hrun : (system M registered).run is h s = some (new ++ h, s')) (hpc : s'.pc = none)
    (hcalls : (s.queues k).length ⌈/⌉ 10 + (messages .threw k new).length ≤
      new.countP PollingEvent.isBegan) : s'.queues k = [] := by
  have hs := wellPlaced_of_reach hr
  obtain ⟨new', heq, hd⟩ := (system M registered).run_events
    (P := fun i => ∀ m, i ≠ .push k m)
    (I := fun new' t => WellPlaced registered t.pc ∧ Drains k (s.queues k).length new' t)
    (fun new' t i t' es hI hi hstep => ⟨hI.1.step hstep, hI.2.step hI.1 hi hstep⟩)
    is ⟨hs, drains_start hs k⟩ his hrun
  obtain rfl := List.append_cancel_right heq
  have hdrains := hd.2
  rw [Drains, hpc] at hdrains
  exact List.eq_nil_of_length_eq_zero (hdrains.empty (by omega) hcalls)

/-! ## The messages that have been handed over -/

theorem messages_eq_dealings {d : Deed} (hd : d ≠ .pushed) :
    messages d k h = ((dealings k h).filter fun p => p.1 = d).map Prod.snd := by
  induction h with
  | nil => rfl
  | cons e h ih =>
      cases e with
      | began => exact (messages_cons_silent rfl).trans ih
      | message d' k' m =>
          by_cases hk : k' = k
          · subst hk
            by_cases hd' : d' = d
            · subst hd'
              rw [messages_cons_self, dealings_cons hd, ih]
              simp
            · rw [messages_cons_of_ne hd', ih]
              by_cases hpush : d' = .pushed
              · rw [hpush, dealings_cons_pushed]
              · rw [dealings_cons hpush]
                simp [hd']
          · have hsilent : (PollingEvent.message d' k' m).deed? k = none := deed_message_of_ne hk
            rw [messages_cons_silent hsilent, dealings_cons_silent hsilent, ih]

theorem taker_ne_pushed : taker registered k ≠ .pushed := by
  cases hreg : registered k with
  | true => simp [taker, hreg]
  | false => simp [taker, hreg]

/-- A message that has been dealt with was handed over once. -/
theorem MessageOutcome.filter_deeds {o : MessageOutcome} (ho : o.possible (registered k) = true) :
    (o.deeds (registered k)).filter (fun d => d = taker registered k) = [taker registered k] := by
  cases hreg : registered k with
  | true => cases o <;> simp [MessageOutcome.deeds, taker, hreg]
  | false =>
      cases o with
      | callbackThrew => simp [MessageOutcome.possible, hreg] at ho
      | receiverThrew => simp [MessageOutcome.deeds, taker, hreg]
      | delivered => simp [MessageOutcome.deeds, taker, hreg]

theorem filter_map_pair {ds : List Deed} {d : Deed} {m : M k} :
    ((ds.map (·, m)).filter fun p => p.1 = d).map Prod.snd =
      (ds.filter fun d' => d' = d).map fun _ => m := by
  rw [List.filter_map, List.map_map]
  rfl

/-- Handed over are the messages dealt with, and the one in hand if it has got so far. -/
theorem Accounts.handed (ha : Accounts registered k h s done) :
    ∃ now : List (M k), now <:+ (inHand k s.pc).toList.map Prod.fst ∧
      messages (taker registered k) k h = now ++ done.map Prod.fst := by
  have hdone : ((done.flatMap fun p => (p.2.deeds (registered k)).map (·, p.1)).filter
      fun p => p.1 = taker registered k).map Prod.snd = done.map Prod.fst := by
    have hpossible := ha.possible
    clear ha
    induction done with
    | nil => rfl
    | cons p done ih =>
        rw [List.flatMap_cons, List.filter_append, List.map_append, filter_map_pair,
          MessageOutcome.filter_deeds (hpossible p List.mem_cons_self),
          ih fun q hq => hpossible q (List.mem_cons_of_mem _ hq)]
        rfl
  rw [messages_eq_dealings taker_ne_pushed, ha.dealings, List.filter_append, List.map_append, hdone]
  refine ⟨_, ?_, rfl⟩
  cases hhand : inHand k s.pc with
  | none => exact List.suffix_rfl
  | some p =>
      rw [Option.toList_some, List.flatMap_cons, List.flatMap_nil, List.append_nil,
        filter_map_pair]
      cases hreg : registered k with
      | true => cases hstage : p.2 <;> simp [MessageStage.deeds, taker, hreg]
      | false => cases hstage : p.2 <;> simp [MessageStage.deeds, taker, hreg]

theorem Accounts.handed_suffix (ha : Accounts registered k h s done) :
    messages (taker registered k) k h <:+ messages .pushed k h := by
  obtain ⟨now, ⟨rest, hnow⟩, hhanded⟩ := ha.handed
  refine ⟨(s.queues k).reverse ++ rest, ?_⟩
  rw [hhanded, ha.pushed, ← hnow]
  simp

/-- Between two calls, with nothing queued, all has been handed over. -/
theorem Accounts.all_handed (ha : Accounts registered k h s done) (hpc : s.pc = none)
    (hqueue : s.queues k = []) :
    messages (taker registered k) k h = messages .pushed k h := by
  obtain ⟨now, hnow, hhanded⟩ := ha.handed
  rw [hpc] at hnow
  have hnil : now = [] := List.suffix_nil.mp hnow
  rw [hhanded, ha.pushed, hqueue, hpc, hnil]
  rfl

/-- The callback gets on, and to its end. -/
theorem go_rank (hs : WellPlaced registered s.pc) {pc : PollingPc M} (hpc : s.pc = some pc)
    (throws : Bool) :
    ∃ s' es, step registered s (.go throws) = some (s', es) ∧ rank s'.pc < rank s.pc := by
  obtain ⟨⟨s', es⟩, hstep⟩ : ∃ p, step registered s (.go throws) = some p := by
    simp [step, hpc]
  refine ⟨s', es, hstep, ?_⟩
  have hbehind : ∀ k : QueueKind, rank (behind k : Option (PollingPc M)) ≤ rank.lag k := by
    intro k
    cases k with
    | emcy => exact le_rfl
    | rpdo => exact le_rfl
  cases step_cases hs hstep with
  | @leave _ k j hpc hend =>
      refine lt_of_le_of_lt (hbehind k) ?_
      rw [hpc]
      simp only [rank]
      omega
  | @pop _ k j m rest hpc hj hqueue =>
      simp only [hpc, rank]
      omega
  | @call _ k j m hpc hreg =>
      rw [hpc] at hs
      have hj : j < 10 := hs.1
      simp only [goto, hpc, rank]
      omega
  | @receive _ k j m stage hpc hstage =>
      rw [hpc] at hs
      have hj : j < 10 := hs.1
      cases hreg : registered k with
      | true =>
          simp only [hreg, if_true] at hstage
          simp only [goto, hpc, hstage, rank]
          omega
      | false =>
          simp only [hreg, Bool.false_eq_true, if_false] at hstage
          simp only [goto, hpc, hstage, rank]
          omega
  | @throw k j m stage hpc hstage =>
      rw [hpc] at hs
      have hj : j < 10 := hs.1
      refine lt_of_le_of_lt (hbehind k) ?_
      rw [hpc]
      cases stage with
      | popped => exact absurd rfl hstage
      | called =>
          simp only [rank]
          omega
      | receiving =>
          simp only [rank]
          omega
  | @finish k j m hpc =>
      rw [hpc] at hs
      have hj : j < 10 := hs.1
      simp only [goto, hpc, rank]
      omega

end Steps

/-- **Every message is handed over once and in order**: of what was pushed to a queue the
oldest messages have been handed over, each has been dealt with as its outcome says, and
after a call for every ten of them, and one for every throw, none is left. -/
theorem messages_delivered (registered : QueueKind → Bool) {h : List (PollingEvent M)}
    {s : Polling M} (hr : Reach (system M registered) Guard.free h s) (k : QueueKind) :
    (∃ done, Accounts registered k h s done) ∧
      messages (taker registered k) k h <:+ messages .pushed k h ∧
      (∀ pc throws, s.pc = some pc →
        ∃ s' es, step registered s (.go throws) = some (s', es) ∧ rank s'.pc < rank s.pc) ∧
      ∀ is new s', (∀ i ∈ is, ∀ m, i ≠ .push k m) →
        (system M registered).run is h s = some (new ++ h, s') → s'.pc = none →
        (s.queues k).length ⌈/⌉ (10 : ℕ) + (messages .threw k new).length ≤
          new.countP PollingEvent.isBegan →
        s'.queues k = [] ∧
          messages (taker registered k) k (new ++ h) = messages .pushed k (new ++ h) := by
  obtain ⟨done, ha⟩ := accounts_of_reach hr k
  refine ⟨⟨done, ha⟩, ha.handed_suffix, ?_, ?_⟩
  · intro pc throws hpc
    exact go_rank (wellPlaced_of_reach hr) hpc throws
  · intro is new s' his hrun hpc hcalls
    have hempty := emptied hr k his hrun hpc hcalls
    obtain ⟨done', ha'⟩ := accounts_of_reach ((system M registered).reach_run is hr hrun) k
    exact ⟨hempty, ha'.all_handed hpc hempty⟩

/-- Two messages, the first of which the callback throws on: the second is taken by the second
call, of which the bound leaves two. -/
theorem messages_delivered_throw :
    ∃ h s new s', Reach (system (fun _ => ℕ) fun _ => true) Guard.free h s ∧
      s.queues .emcy = [1, 2] ∧
      (system (fun _ => ℕ) fun _ => true).run
        [.begin, .go false, .go false, .go true, .go false,
          .begin, .go false, .go false, .go false, .go false, .go false, .go false] h s =
        some (new ++ h, s') ∧
      s'.queues .emcy = [] ∧ messages .handed .emcy (new ++ h) = [2, 1] := by
  have hr : Reach (system (fun _ => ℕ) fun _ => true) Guard.free
      [.message .pushed .emcy 2, .message .pushed .emcy 1]
      ⟨Function.update (Function.update (fun _ => []) .emcy [1]) .emcy [1, 2], none⟩ :=
    (system _ _).reach_run [.push .emcy 1, .push .emcy 2] (.init rfl) rfl
  have hdrained := (messages_delivered (fun _ => true) hr .emcy).2.2.2
    [.begin, .go false, .go false, .go true, .go false,
      .begin, .go false, .go false, .go false, .go false, .go false, .go false]
    [.message .received .emcy 2, .message .handed .emcy 2, .message .popped .emcy 2, .began,
      .message .threw .emcy 1, .message .handed .emcy 1, .message .popped .emcy 1, .began] _
    (by simp) rfl rfl (by decide)
  exact ⟨_, _, _, _, hr, rfl, rfl, hdrained⟩

end Polling
end RosCanopen.Core
