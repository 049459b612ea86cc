import Mathlib.Data.List.Basic
import Mathlib.Logic.Function.Iterate

/-!
# A four-phase handshake between two sides that sample

A sender hands items over through a register, with a request bit of its own and an
acknowledge bit of the receiver's.  Neither side waits for the other: the receiver samples
the request bit when it gets to it, the sender hears the acknowledge bit when it polls, and
the item on offer may change at any moment, also before the acknowledge.  The sender takes
a request back when it has something newer to send; whether the receiver has seen the
request in the meantime it cannot know.

What is latched is always a sublist of what was offered.  The offer that is left alone is
latched after `bound` cycles, provided that no offer goes back to an item whose request
was taken back unseen.

## Main definitions

* `Sender`, `Receiver`, `Joint` — the two sides and their steps.
* `Joint.inFlight` — what is latched, with what the receiver is about to latch.
* `Joint.Inv` — the joint invariant.
* `Joint.bound` — after how many cycles the offer is latched.
-/

namespace RosCanopen.Lib

universe u

/-- The side that offers items. -/
structure Sender (α : Type u) where
  offer : Option α
  /-- The last item written to the register. -/
  sent : Option α
  /-- The acknowledge bit as last heard. -/
  heard : Bool
  request : Bool
  deriving DecidableEq

/-- The side that latches them. -/
structure Receiver (α : Type u) where
  /-- The register. -/
  item : α
  /-- The request bit as it stands. -/
  request : Bool
  /-- The request bit as last sampled. -/
  seen : Bool
  acknowledge : Bool
  /-- What has been latched, newest first. -/
  latched : List α
  deriving DecidableEq

/-- Both sides. -/
structure Joint (α : Type u) where
  sender : Sender α
  receiver : Receiver α
  deriving DecidableEq

variable {α : Type u}

/-- Sample the request bit: latch on a rising edge while there is no acknowledge. -/
def Receiver.react (r : Receiver α) : Receiver α :=
  if r.request then
    if r.seen then r
    else if r.acknowledge then { r with seen := true }
    else { r with seen := true, acknowledge := true, latched := r.item :: r.latched }
  else { r with seen := false, acknowledge := false }

/-- Write the register. -/
def Receiver.store (item : Option α) (r : Receiver α) : Receiver α :=
  match item with
  | some a => { r with item := a }
  | none => r

section Sender
variable [DecidableEq α]

/-- One cycle of the sender, and what it writes to the register. -/
def Sender.write (s : Sender α) : Sender α × Option α :=
  match s.offer with
  | none => (s, none)
  | some a =>
      if s.heard = false ∧ s.sent ≠ some a then
        if s.request then ({ s with request := false }, none)
        else ({ s with sent := some a, request := true }, some a)
      else if s.heard then ({ s with request := false }, none)
      else (s, none)

end Sender

namespace Joint

/-- Offer an item. -/
def offer (a : α) (j : Joint α) : Joint α :=
  { j with sender := { j.sender with offer := some a } }

/-- The sender hears the acknowledge bit. -/
def hear (j : Joint α) : Joint α :=
  { j with sender := { j.sender with heard := j.receiver.acknowledge } }

/-- The receiver samples the request bit. -/
def react (j : Joint α) : Joint α := { j with receiver := j.receiver.react }

/-- The sender writes the register, then the request bit; the receiver may sample in
between. -/
def write [DecidableEq α] (between : Bool) (j : Joint α) : Joint α :=
  let r := j.receiver.store j.sender.write.2
  let r := if between then r.react else r
  ⟨j.sender.write.1, { r with request := j.sender.write.1.request }⟩

/-- What is latched, with the item that the next sample will latch. -/
def inFlight (j : Joint α) : List α :=
  if j.receiver.request && !j.receiver.acknowledge then j.receiver.item :: j.receiver.latched
  else j.receiver.latched

/-- The joint invariant, for the items offered so far, newest first; `fresh` tells that
the sender has heard the acknowledge bit since it last wrote. -/
structure Inv (offers : List α) (fresh : Bool) (j : Joint α) : Prop where
  wire : j.receiver.request = j.sender.request
  seen : j.receiver.seen = j.receiver.acknowledge
  quiet : fresh = true → j.sender.heard = false → j.sender.request = false →
    j.receiver.acknowledge = false
  heard : fresh = true → j.sender.heard = true → j.sender.request = true →
    j.receiver.acknowledge = true
  pending : j.sender.request = true → j.receiver.acknowledge = false →
    j.sender.sent = some j.receiver.item
  /-- What was sent is pending or latched, or is no longer on offer. -/
  done : ∀ a, j.sender.sent = some a →
    (j.sender.request = true ∧ j.receiver.acknowledge = false) ∨
      j.receiver.latched.head? = some a ∨ (j.sender.request = false ∧ j.sender.offer ≠ some a)
  idle : j.sender.offer = none → offers = [] ∧ j.inFlight = []
  order : ∀ a, j.sender.offer = some a → ∃ rest, offers = a :: rest ∧
    j.inFlight.Sublist offers ∧ (j.sender.sent ≠ some a → j.inFlight.Sublist rest)

end Joint

section React
variable (r : Receiver α)

@[simp] theorem react_request : r.react.request = r.request := by
  rw [Receiver.react]
  repeat' split
  all_goals rfl

@[simp] theorem react_item : r.react.item = r.item := by
  rw [Receiver.react]
  repeat' split
  all_goals rfl

theorem react_low (h : r.request = false) :
    r.react = { r with seen := false, acknowledge := false } := by
  rw [Receiver.react, h]
  rfl

theorem react_high (h : r.request = true) (hseen : r.seen = r.acknowledge) :
    r.react = { r with
      seen := true
      acknowledge := true
      latched := if r.acknowledge then r.latched else r.item :: r.latched } := by
  obtain ⟨item, request, seen, acknowledge, latched⟩ := r
  obtain rfl : request = true := h
  obtain rfl : seen = acknowledge := hseen
  cases seen <;> rfl

/-- A second sample of the same bit changes nothing. -/
theorem react_react : r.react.react = r.react := by
  obtain ⟨item, request, seen, acknowledge, latched⟩ := r
  cases request <;> cases seen <;> cases acknowledge <;> rfl

end React

namespace Joint
variable {offers : List α} {fresh : Bool} {j : Joint α}

theorem inFlight_low (h : j.receiver.request = false) : j.inFlight = j.receiver.latched := by
  simp [inFlight, h]

theorem latched_inFlight (j : Joint α) : j.receiver.latched.Sublist j.inFlight := by
  rw [inFlight]
  split
  · exact List.sublist_cons_self _ _
  · exact List.Sublist.refl _

/-- A sample latches what was in flight. -/
theorem inFlight_react (hseen : j.receiver.seen = j.receiver.acknowledge) :
    j.react.inFlight = j.inFlight := by
  cases hrequest : j.receiver.request with
  | false => simp [inFlight, react, react_low _ hrequest, hrequest]
  | true =>
      cases hack : j.receiver.acknowledge <;>
        simp [inFlight, react, react_high _ hrequest hseen, hrequest, hack]

namespace Inv

/-- What has been latched, in order, are items that were offered. -/
theorem latched_sublist (hj : Inv offers fresh j) : j.receiver.latched.Sublist offers := by
  have hflight := j.latched_inFlight
  cases hoffer : j.sender.offer with
  | none =>
      rw [(hj.idle hoffer).2] at hflight
      exact hflight.trans (List.nil_sublist _)
  | some a =>
      obtain ⟨rest, -, hsub, -⟩ := hj.order a hoffer
      exact hflight.trans hsub

theorem stale (hj : Inv offers fresh j) : Inv offers false j :=
  { hj with
    quiet := fun h => absurd h (by simp)
    heard := fun h => absurd h (by simp) }

/-- **A new offer** may be anything but an item whose request was taken back unseen. -/
theorem offer (hj : Inv offers fresh j) {a : α} (hkept : j.sender.sent = some a →
    j.sender.request = true ∨ j.receiver.latched.head? = some a) :
    Inv (a :: offers) fresh (j.offer a) where
  wire := hj.wire
  seen := hj.seen
  quiet := hj.quiet
  heard := hj.heard
  pending := hj.pending
  done b hb := by
    rcases hj.done b hb with hpending | hlatched | ⟨hrequest, -⟩
    · exact .inl hpending
    · exact .inr (.inl hlatched)
    · by_cases hab : a = b
      · subst hab
        rcases hkept hb with htrue | hlatched
        · exact absurd (htrue.symm.trans hrequest) (by simp)
        · exact .inr (.inl hlatched)
      · exact .inr (.inr ⟨hrequest, fun heq => hab (Option.some.inj heq)⟩)
  idle h := by contradiction
  order b hb := by
    obtain rfl := Option.some.inj hb
    have hflight : (j.offer a).inFlight.Sublist offers := by
      show j.inFlight.Sublist offers
      cases hoffer : j.sender.offer with
      | none =>
          rw [(hj.idle hoffer).2]
          exact List.nil_sublist _
      | some b =>
          obtain ⟨rest, -, hsub, -⟩ := hj.order b hoffer
          exact hsub
    exact ⟨offers, rfl, hflight.cons a, fun _ => hflight⟩

theorem hear (hj : Inv offers fresh j) : Inv offers true j.hear :=
  { hj with
    quiet := fun _ h _ => h
    heard := fun _ h _ => h }

/-- **A sample.** -/
theorem react (hj : Inv offers fresh j) : Inv offers fresh j.react := by
  have hflight := inFlight_react hj.seen
  have hidle : j.sender.offer = none → offers = [] ∧ j.react.inFlight = [] := by
    rw [hflight]
    exact hj.idle
  have horder : ∀ a, j.sender.offer = some a → ∃ rest, offers = a :: rest ∧
      j.react.inFlight.Sublist offers ∧
        (j.sender.sent ≠ some a → j.react.inFlight.Sublist rest) := by
    rw [hflight]
    exact hj.order
  cases hrequest : j.receiver.request with
  | false =>
      have hreact := react_low _ hrequest
      have hlow : j.sender.request = false := hj.wire.symm.trans hrequest
      exact
        { wire := by simpa [Joint.react] using hj.wire
          seen := by simp [Joint.react, hreact]
          quiet := by simp [Joint.react, hreact]
          heard := fun _ _ h => absurd (hlow.symm.trans h) (by simp)
          pending := fun h => absurd (hlow.symm.trans h) (by simp)
          done := fun a ha => by
            rcases hj.done a ha with ⟨h, -⟩ | h | h
            · exact absurd (hlow.symm.trans h) (by simp)
            · exact .inr (.inl (by simpa [Joint.react, hreact] using h))
            · exact .inr (.inr h)
          idle := hidle
          order := horder }
  | true =>
      have hreact := react_high _ hrequest hj.seen
      have hhigh : j.sender.request = true := hj.wire.symm.trans hrequest
      exact
        { wire := by simpa [Joint.react] using hj.wire
          seen := by simp [Joint.react, hreact]
          quiet := fun _ _ h => absurd (hhigh.symm.trans h) (by simp)
          heard := by simp [Joint.react, hreact]
          pending := by simp [Joint.react, hreact]
          done := fun a ha => by
            refine .inr (.inl ?_)
            cases hack : j.receiver.acknowledge with
            | false =>
                have hitem := (hj.pending hhigh hack).symm.trans ha
                simpa [Joint.react, hreact, hack] using hitem
            | true =>
                rcases hj.done a ha with ⟨-, h⟩ | h | ⟨h, -⟩
                · exact absurd (hack.symm.trans h) (by simp)
                · simpa [Joint.react, hreact, hack] using h
                · exact absurd (hhigh.symm.trans h) (by simp)
          idle := hidle
          order := horder }

theorem iterate_react (hj : Inv offers fresh j) (n : ℕ) :
    Inv offers fresh (Joint.react^[n] j) := by
  induction n with
  | zero => exact hj
  | succ n ih =>
      rw [Function.iterate_succ_apply']
      exact ih.react

/-- What was sent and is still on offer is latched by the next sample. -/
theorem latched_react (hj : Inv offers fresh j) {a : α} (hoffer : j.sender.offer = some a)
    (hsent : j.sender.sent = some a) : j.react.receiver.latched.head? = some a := by
  rcases hj.react.done a hsent with ⟨hrequest, hack⟩ | hlatched | ⟨-, hne⟩
  · have hhigh : j.receiver.request = true := hj.wire.trans hrequest
    rw [Joint.react, react_high _ hhigh hj.seen] at hack
    contradiction
  · exact hlatched
  · exact absurd hoffer hne

end Inv

theorem iterate_react_sender (j : Joint α) (n : ℕ) : (Joint.react^[n] j).sender = j.sender := by
  induction n with
  | zero => rfl
  | succ n ih =>
      rw [Function.iterate_succ_apply']
      exact ih

/-- Any number of samples is one. -/
theorem iterate_react (j : Joint α) (n : ℕ) : Joint.react^[n + 1] j = j.react := by
  induction n with
  | zero => rfl
  | succ n ih => rw [Function.iterate_succ_apply', ih, react, react, react_react]

end Joint

/-! ## The cycle of the sender -/

/-- What a cycle of the sender can do. -/
inductive Sends (s : Sender α) : Sender α → Option α → Prop
  | idle (h : ∀ a, s.offer = some a → s.heard = false ∧ s.sent = some a) : Sends s s none
  /-- The request is taken back: it was acknowledged, or there is a newer item. -/
  | lower {a : α} (hoffer : s.offer = some a)
      (h : s.heard = true ∨ (s.heard = false ∧ s.sent ≠ some a ∧ s.request = true)) :
      Sends s { s with request := false } none
  | raise {a : α} (hoffer : s.offer = some a) (hheard : s.heard = false)
      (hsent : s.sent ≠ some a) (hrequest : s.request = false) :
      Sends s { s with sent := some a, request := true } (some a)

theorem Sends.offer_eq {s s' : Sender α} {item : Option α} (h : Sends s s' item) :
    s'.offer = s.offer := by
  cases h <;> rfl

section Write
variable [DecidableEq α]

theorem sends_write (s : Sender α) : Sends s s.write.1 s.write.2 := by
  rw [Sender.write]
  split
  · next hoffer => exact .idle fun a ha => absurd (hoffer.symm.trans ha) (by simp)
  · next a hoffer =>
      split
      · next hnew =>
          split
          · next hrequest => exact .lower hoffer (.inr ⟨hnew.1, hnew.2, hrequest⟩)
          · next hrequest => exact .raise hoffer hnew.1 hnew.2 (by simpa using hrequest)
      · next hold =>
          split
          · next hheard => exact .lower hoffer (.inl hheard)
          · next hheard =>
              have hheard : s.heard = false := by simpa using hheard
              refine .idle fun b hb => ⟨hheard, ?_⟩
              obtain rfl := Option.some.inj (hoffer.symm.trans hb)
              exact not_not.mp fun hne => hold ⟨hheard, hne⟩

/-- An item is written to the register exactly when the request rises. -/
theorem write_rises (s : Sender α) :
    s.write.2.isSome = true ↔ s.request = false ∧ s.write.1.request = true := by
  have hsends := sends_write s
  generalize s.write = w at hsends
  obtain ⟨s', item⟩ := w
  cases hsends with
  | idle => cases s'.request <;> simp
  | lower => simp
  | raise _ _ _ hrequest => simp [hrequest]

/-- It is then on offer and not the last one sent, and no acknowledge has been heard. -/
theorem write_item (s : Sender α) (a : α) : s.write.2 = some a ↔
    s.offer = some a ∧ s.heard = false ∧ s.sent ≠ some a ∧ s.request = false := by
  constructor
  · intro h
    have hsends := sends_write s
    rw [h] at hsends
    generalize s.write.1 = s' at hsends
    cases hsends with
    | raise hoffer hheard hsent hrequest => exact ⟨hoffer, hheard, hsent, hrequest⟩
  · rintro ⟨hoffer, hheard, hsent, hrequest⟩
    simp [Sender.write, hoffer, hheard, hsent, hrequest]

namespace Joint
variable {offers : List α} {fresh between : Bool} {j : Joint α}

/-- A sample between the two writes is one before both. -/
theorem write_between (hwire : j.receiver.request = j.sender.request) :
    j.write true = j.react.write false := by
  have hsends := sends_write j.sender
  simp only [write, react]
  generalize j.sender.write = w at hsends
  obtain ⟨s, item⟩ := w
  cases hsends with
  | idle => simp [Receiver.store]
  | lower => simp [Receiver.store]
  | raise hoffer hheard hsent hrequest =>
      have hlow := hwire.trans hrequest
      rw [react_low _ hlow, react_low _ (by simpa [Receiver.store] using hlow)]
      rfl

/-- **A cycle of the sender** that has heard the acknowledge bit since its last one. -/
theorem Inv.write_false (hj : Inv offers true j) : Inv offers false (j.write false) := by
  have hsends := sends_write j.sender
  have hquiet : ∀ {P : Prop}, false = true → P := fun h => absurd h (by simp)
  simp only [Joint.write]
  generalize j.sender.write = w at hsends
  obtain ⟨s, item⟩ := w
  cases hsends with
  | idle =>
      have hsame : ({ j.receiver with request := j.sender.request } : Receiver α) = j.receiver := by
        rw [← hj.wire]
      simpa [Receiver.store, hsame] using hj.stale
  | @lower a hoffer h =>
      have hsub := j.latched_inFlight
      obtain ⟨rest, hoffers, hflight, hrest⟩ := hj.order a hoffer
      exact
        { wire := rfl
          seen := hj.seen
          quiet := hquiet
          heard := hquiet
          pending := fun h => absurd h (by simp)
          done := fun b hb => by
            rcases hj.done b hb with ⟨hrequest, hack⟩ | hlatched | ⟨-, hb'⟩
            · -- the request is taken back before it was acknowledged
              rcases h with hheard | ⟨-, hsent, -⟩
              · exact absurd ((hj.heard rfl hheard hrequest).symm.trans hack) (by simp)
              · refine .inr (.inr ⟨rfl, fun heq => hsent ?_⟩)
                exact hb.trans (heq.symm.trans hoffer)
            · exact .inr (.inl hlatched)
            · exact .inr (.inr ⟨rfl, hb'⟩)
          idle := fun hnone => absurd (hnone.symm.trans hoffer) (by simp)
          order := fun b hb => by
            obtain rfl := Option.some.inj (hoffer.symm.trans hb)
            rw [inFlight_low rfl]
            exact ⟨rest, hoffers, hsub.trans hflight, fun hne => hsub.trans (hrest hne)⟩ }
  | @raise a hoffer hheard hsent hrequest =>
      have hack := hj.quiet rfl hheard hrequest
      obtain ⟨rest, hoffers, -, hrest⟩ := hj.order a hoffer
      have hlatched : j.receiver.latched.Sublist rest := by
        rw [← inFlight_low (hj.wire.trans hrequest)]
        exact hrest hsent
      exact
        { wire := rfl
          seen := hj.seen
          quiet := hquiet
          heard := hquiet
          pending := fun _ _ => rfl
          done := fun b _ => .inl ⟨rfl, hack⟩
          idle := fun hnone => absurd (hnone.symm.trans hoffer) (by simp)
          order := fun b hb => by
            obtain rfl := Option.some.inj (hoffer.symm.trans hb)
            refine ⟨rest, hoffers, ?_, fun hne => absurd rfl hne⟩
            simpa [inFlight, Receiver.store, hack, hoffers] using hlatched }

theorem Inv.write (hj : Inv offers true j) : Inv offers false (j.write between) := by
  cases between with
  | false => exact hj.write_false
  | true =>
      rw [write_between hj.wire]
      exact hj.react.write_false

/-! ## Progress -/

/-- A poll cycle of the sender, after which the receiver samples at least once; `early` and
`late` tell how often it samples before the writing and, again, after it. -/
def cycle (early late : ℕ) (between : Bool) (j : Joint α) : Joint α :=
  Joint.react^[late + 1] ((Joint.react^[early] j.hear).write between)

/-- After how many cycles what is on offer has been latched. -/
def bound (j : Joint α) : ℕ :=
  match j.sender.offer with
  | none => 0
  | some a =>
      if j.sender.sent = some a then if j.receiver.latched.head? = some a then 0 else 1
      else if j.receiver.request || j.receiver.acknowledge then 2 else 1

/-- A cycle keeps the invariant. -/
theorem Inv.cycle (hj : Inv offers fresh j) (early late : ℕ) :
    Inv offers false (j.cycle early late between) :=
  ((hj.hear.iterate_react early).write).iterate_react (late + 1)

theorem bound_eq_zero {a : α} (hoffer : j.sender.offer = some a) (hsent : j.sender.sent = some a)
    (hlatched : j.receiver.latched.head? = some a) : j.bound = 0 := by
  simp [bound, hoffer, hsent, hlatched]

/-- A cycle of the sender and a sample come closer. -/
theorem Inv.bound_of_sends (hj : Inv offers fresh j) {k : Joint α} {item : Option α}
    (hk : Inv offers false k) (hsends : Sends j.hear.sender k.sender item) :
    k.react.bound ≤ j.bound - 1 := by
  have hzero : ∀ {a}, k.sender.offer = some a → k.sender.sent = some a →
      k.react.bound ≤ j.bound - 1 := by
    intro a hoffer hsent
    have hdone : k.react.bound = 0 :=
      bound_eq_zero hoffer hsent (hk.latched_react hoffer hsent)
    omega
  generalize hs : k.sender = s at hsends hzero
  cases hsends with
  | idle h =>
      cases hoffer : j.sender.offer with
      | none =>
          have hnone : k.react.sender.offer = none := by
            show k.sender.offer = none
            rw [hs]
            exact hoffer
          rw [bound, hnone]
          exact Nat.zero_le _
      | some a => exact hzero hoffer (h a hoffer).2
  | @lower a hoffer h =>
      by_cases hsent : j.sender.sent = some a
      · exact hzero hoffer hsent
      · have htwo : j.bound = 2 := by
          have hbusy : (j.receiver.request || j.receiver.acknowledge) = true := by
            rcases h with hheard | ⟨-, -, hrequest⟩
            · rw [show j.receiver.acknowledge = true from hheard, Bool.or_true]
            · rw [hj.wire.trans hrequest, Bool.true_or]
          have hoffer' : j.sender.offer = some a := hoffer
          simp [bound, hoffer', hsent, hbusy]
        have hlow : k.receiver.request = false := by
          rw [hk.wire, hs]
        have hone : k.react.bound = 1 := by
          have hsender : k.react.sender = { j.hear.sender with request := false } := hs
          have hreceiver : k.react.receiver = { k.receiver with
              seen := false, acknowledge := false } := react_low _ hlow
          have hsent' : j.hear.sender.sent ≠ some a := hsent
          simp [bound, hsender, hreceiver, hoffer, hsent', hlow]
        omega
  | raise hoffer => exact hzero hoffer rfl

/-- **A cycle comes closer.** -/
theorem Inv.bound_cycle (hj : Inv offers fresh j) (early late : ℕ) :
    (j.cycle early late between).bound ≤ j.bound - 1 := by
  have hwrite : Inv offers false ((Joint.react^[early] j.hear).write between) :=
    (hj.hear.iterate_react early).write
  have hsends := sends_write (Joint.react^[early] j.hear).sender
  rw [Joint.cycle, Joint.iterate_react]
  refine hj.bound_of_sends hwrite (?_ : Sends _ _ (Joint.react^[early] j.hear).sender.write.2)
  rw [← iterate_react_sender j.hear early]
  exact hsends

theorem cycle_offer (j : Joint α) (early late : ℕ) :
    (j.cycle early late between).sender.offer = j.sender.offer := by
  rw [cycle, iterate_react]
  refine (sends_write _).offer_eq.trans ?_
  rw [iterate_react_sender, hear]

theorem latched_of_bound {a : α} (hoffer : j.sender.offer = some a) (h : j.bound = 0) :
    j.receiver.latched.head? = some a := by
  rw [bound, hoffer] at h
  simp only at h
  split at h
  · split at h
    · next hlatched => exact hlatched
    · contradiction
  · split at h <;> contradiction

end Joint
end Write

end RosCanopen.Lib
