import RosCanopen.Bridge.Channel

/-!
# The channel does not get stuck

The flag is up exactly while a transfer is in flight, an open future has its transfer,
and while the flag is down a waiter has been notified if there is one.  Some paths of
the entry points leave the flag up or a promise open with no transfer, or the waiters
asleep; runs that take none of them never get stuck.

## Main definitions

* `Sdo.Unstuck` — what the channel promises its callers.
* `Sdo.orderly` — the steps that keep the promise.
* `Sdo.Live` — the invariant.
-/

namespace RosCanopen.Bridge

open Lib

namespace Sdo

/-- What the channel promises its callers. -/
structure Unstuck (s : Sdo) : Prop where
  busy : s.running = true ↔ s.transfers.length = 1
  served : ∀ i ∈ s.handedOut, s.promises i = .pending →
    ∃ t ∈ s.transfers, t.call.id = i ∧ t.delivered = false
  awake : s.running = false → s.waiting ≠ [] → s.notified ≠ []

/-- What a call may ask for: an untyped call finds its type in the switch; a submission
throws only in an untyped read; and an untyped call for a missing object, which does not
notify, is made only when nobody waits or somebody else has been notified. -/
structure Answerable (b : LelyDriverBridge) (s : Sdo) (c : Call) (env : Env) : Prop where
  supported : c.request.isUntyped = true → ∀ type, b.object c.request = some type →
    type.width ≠ none
  accepted : b.reaches c.request = true → env.submitError ≠ none → c.request.isRead = true
  present : c.request.isUntyped = true → b.object c.request = none → s.waiting ≠ [] →
    s.notified ≠ []

/-- The steps that keep the promise: a caller leaves the wait only when the flag is down,
and every call that begins is answerable. -/
def orderly (b : LelyDriverBridge) : Guard Sdo Label Event := fun _ s i =>
  (i.resumes = true → s.running = false) ∧
    ∀ c env, i.begins s = some (c, env) → Answerable b (i.dequeue s) c env

/-- The flag is down, no future is open and nothing is in flight. -/
structure Quiet (s : Sdo) : Prop where
  down : s.running = false
  none : s.transfers = []
  settled : ∀ i ∈ s.handedOut, s.promises i ≠ .pending
  alive : s.crashed = false

/-- The channel is live: quiet with the waiters notified, or busy with one transfer whose
completion will fulfil the only open future. -/
structure Live (s : Sdo) : Prop where
  busy : s.running = true ↔ s.transfers.length = 1
  single : s.transfers.length ≤ 1
  own : ∀ t ∈ s.transfers, t.delivered = false →
    s.keeper t.call = some t.call.id ∧ s.promises t.call.id = .pending
  served : ∀ i ∈ s.handedOut, s.promises i = .pending →
    ∃ t ∈ s.transfers, t.call.id = i ∧ t.delivered = false
  awake : s.running = false → s.waiting ≠ [] → s.notified ≠ []
  alive : s.crashed = false

theorem Live.unstuck {s : Sdo} (hs : s.Live) : s.Unstuck := ⟨hs.busy, hs.served, hs.awake⟩

section Quiet
variable {s : Sdo}

theorem Live.quiet (hs : s.Live) (hdown : s.running = false) : s.Quiet := by
  have hnone : s.transfers = [] := by
    have hlen : s.transfers.length ≠ 1 := fun hlen => by simp [hs.busy.mpr hlen] at hdown
    exact List.length_eq_zero_iff.mp (Nat.lt_one_iff.mp (Nat.lt_of_le_of_ne hs.single hlen))
  refine ⟨hdown, hnone, ?_, hs.alive⟩
  intro i hi hpending
  obtain ⟨t, ht, -⟩ := hs.served i hi hpending
  simp [hnone] at ht

/-- A quiet channel is live once its waiters are notified. -/
theorem Quiet.live (hs : s.Quiet) (hawake : s.waiting ≠ [] → s.notified ≠ []) : s.Live where
  busy := by simp [hs.down, hs.none]
  single := by simp [hs.none]
  own := by simp [hs.none]
  served i hi hpending := absurd hpending (hs.settled i hi)
  awake _ := hawake
  alive := hs.alive

theorem Quiet.notifyOne (hs : s.Quiet) (pick : ℕ) : (s.notifyOne pick).Live := by
  refine Quiet.live ?_ (notified_notifyOne s pick)
  obtain ⟨w, n, heq⟩ := s.notifyOne_eq pick
  rw [heq]
  exact ⟨hs.down, hs.none, hs.settled, hs.alive⟩

theorem Quiet.dequeue (hs : s.Quiet) (i : Label) : (i.dequeue s).Quiet := by
  cases i <;> exact ⟨hs.down, hs.none, hs.settled, hs.alive⟩

theorem Live.handOut_of_settled (hs : s.Live) {i : CallId} {v : Contents}
    (hi : s.promises i = .settled v) : (s.handOut i).Live := by
  refine ⟨hs.busy, hs.single, hs.own, ?_, hs.awake, hs.alive⟩
  intro j hj hpending
  rcases List.mem_cons.mp hj with rfl | hj
  · simp [Sdo.handOut, hi] at hpending
  · exact hs.served j hj hpending

/-- A call that settles its own promise at once leaves the channel quiet. -/
theorem Quiet.finish (hs : s.Quiet) (c : Call) (v : Contents) :
    ((s.raise c).finish c.id v).Quiet := by
  obtain ⟨r, w, heq⟩ := s.raise_eq c
  rw [heq]
  refine ⟨rfl, hs.none, ?_, hs.alive⟩
  intro i hi
  by_cases hic : i = c.id
  · subst hic; simp [Sdo.finish, settle]
  · simpa [Sdo.finish, settle, create, hic] using hs.settled i hi

/-- A submitted call holds the only transfer. -/
theorem Quiet.submit (hs : s.Quiet) (c : Call) : (((s.raise c).submit c).handOut c.id).Live := by
  have hkeeper := keeper_raise s c
  obtain ⟨r, w, heq⟩ := s.raise_eq c
  rw [heq] at hkeeper ⊢
  have htransfers : s.transfers = [] := hs.none
  refine ⟨?_, ?_, ?_, ?_, ?_, hs.alive⟩
  · simp [Sdo.submit, Sdo.handOut, create, htransfers]
  · simp [Sdo.submit, Sdo.handOut, create, htransfers]
  · intro t ht _
    have ht' : t = ⟨c, false⟩ := by simpa [Sdo.submit, Sdo.handOut, create, htransfers] using ht
    subst ht'
    exact ⟨hkeeper, by simp [Sdo.submit, Sdo.handOut, create]⟩
  · intro i hi hpending
    by_cases hic : i = c.id
    · exact ⟨⟨c, false⟩, by simp [Sdo.submit, Sdo.handOut, create, htransfers], hic.symm, rfl⟩
    · have hold : s.promises i = .pending := by
        simpa [Sdo.submit, Sdo.handOut, create, hic] using hpending
      exact absurd hold (hs.settled i ((List.mem_cons.mp hi).resolve_left hic))
  · simp [Sdo.submit, Sdo.handOut]

end Quiet

section Steps
variable {b : LelyDriverBridge} {s s' : Sdo} {es : List Event}

/-- **An answerable call on a quiet channel** leaves it live. -/
theorem Live.began {c : Call} {env : Env} (hs : s.Quiet) (hok : Answerable b s c env)
    (hb : Began b c env s s' es) : s'.Live := by
  have hown : ∀ v, ((s.raise c).finish c.id v).promises c.id = .settled v := fun v => by
    simp [Sdo.finish, settle]
  have hnotified : ∀ v, ((((s.raise c).finish c.id v).notifyOne env.pick).handOut c.id).Live := by
    intro v
    have hlive := (hs.finish c v).notifyOne env.pick
    obtain ⟨w, n, heq⟩ := ((s.raise c).finish c.id v).notifyOne_eq env.pick
    rw [heq] at hlive ⊢
    exact hlive.handOut_of_settled (hown v)
  cases hb with
  | missing v hobject huntyped =>
      refine ((hs.finish c v).live ?_).handOut_of_settled (hown v)
      obtain ⟨r, w, heq⟩ := s.raise_eq c
      rw [heq]
      exact hok.present huntyped hobject
  | missingTyped v => exact hnotified v
  | unsupported hobject huntyped hwidth => exact absurd hwidth (hok.supported huntyped _ hobject)
  | submitted value => exact hs.submit c
  | rejected v => exact hnotified v
  | thrown huntyped hreached hsubmit =>
      have hread := hok.accepted hreached hsubmit
      cases hr : c.request <;> simp [hr, Request.isRead, Request.isUntyped] at hread huntyped
  | dead v hwrite hreached hsubmit =>
      have hread := hok.accepted hreached hsubmit
      cases hr : c.request <;> simp [hr, Request.isRead, Request.isWrite] at hread hwrite
  | spent v hwrite hreached hsubmit =>
      have hread := hok.accepted hreached hsubmit
      cases hr : c.request <;> simp [hr, Request.isRead, Request.isWrite] at hread hwrite
  | misplaced v hwrite hreached hsubmit =>
      have hread := hok.accepted hreached hsubmit
      cases hr : c.request <;> simp [hr, Request.isRead, Request.isWrite] at hread hwrite

/-- The first half of a completion settles the only open future. -/
theorem Live.deliver {k : ℕ} {t : Transfer} (hs : s.Live) (answer : Except ErrorCode Value)
    (hk : s.transfers[k]? = some t) (ht : t.delivered = false) :
    (s.deliver b k t answer).1.Live := by
  obtain ⟨hsingle, rfl⟩ := eq_singleton_of_getElem? hk hs.single
  obtain ⟨hkeeper, hpending⟩ := hs.own t (by simp [hsingle]) ht
  have hrunning : s.running = true := hs.busy.mpr (by simp [hsingle])
  simp only [Sdo.deliver, hkeeper, hpending]
  refine ⟨by simp [hsingle, settle, hrunning], by simp [hsingle], by simp [hsingle], ?_,
    fun hdown => ?_, hs.alive⟩
  · intro i hi hopen
    by_cases hit : i = t.call.id
    · subst hit; simp [settle] at hopen
    · have hold : s.promises i = .pending := by simpa [settle, hit] using hopen
      obtain ⟨t', ht', hid, -⟩ := hs.served i hi hold
      simp only [hsingle, List.mem_singleton] at ht'
      exact absurd (ht' ▸ hid.symm) hit
  · simp [settle, hrunning] at hdown

/-- The second half of a completion leaves the channel quiet and notifies. -/
theorem Live.release {k : ℕ} {t : Transfer} (hs : s.Live) (pick : ℕ)
    (hk : s.transfers[k]? = some t) (ht : t.delivered = true) : (s.release k pick).Live := by
  obtain ⟨hsingle, rfl⟩ := eq_singleton_of_getElem? hk hs.single
  have hquiet : Quiet { s with running := false, transfers := s.transfers.eraseIdx 0 } := by
    refine ⟨rfl, by simp [hsingle], ?_, hs.alive⟩
    intro i hi hpending
    obtain ⟨t', ht', -, hopen⟩ := hs.served i hi hpending
    simp only [hsingle, List.mem_singleton] at ht'
    simp [ht', ht] at hopen
  exact hquiet.notifyOne pick

/-- **An orderly step keeps the channel live.** -/
theorem Live.stepped {i : Label} {h : List Event} (hs : s.Live) (hok : orderly b h s i)
    (hstep : Stepped b s i s' es) : s'.Live := by
  cases hstep with
  | @began _ c env _ _ hbegins hfree hbegan =>
      have hdown : s.running = false := by
        cases hresumes : i.resumes with
        | true => exact hok.1 hresumes
        | false => exact hfree hresumes
      exact .began ((hs.quiet hdown).dequeue i) (hok.2 c env hbegins) hbegan
  | waits request env hrunning =>
      exact ⟨hs.busy, hs.single, hs.own, hs.served, by simp [hrunning], hs.alive⟩
  | @wakes k c hk =>
      refine ⟨hs.busy, hs.single, hs.own, hs.served, fun hdown _ => hs.awake hdown ?_, hs.alive⟩
      intro hnil
      simp [hnil] at hk
  | delivers answer hk ht => exact hs.deliver answer hk ht
  | releases pick hk ht => exact hs.release pick hk ht

/-- The channel is live along every orderly run. -/
theorem live_of_reach {h : List Event} (hr : Reach (Sdo.system b) (orderly b) h s) : s.Live := by
  induction hr with
  | init hs =>
      obtain ⟨hdown, -, -, -, hhanded, hwaiting, -, -, htransfers, halive⟩ := hs
      have hquiet : Quiet _ := ⟨hdown, htransfers, by simp [hhanded], halive⟩
      exact hquiet.live (by simp [hwaiting])
  | step _ hok hstep ih => exact ih.stepped hok (stepped_of_step hstep).1

end Steps

/-- **Along every orderly run the channel is never stuck.** -/
theorem unstuck_of_orderly {b : LelyDriverBridge} {h : List Event} {s : Sdo}
    (hr : Reach (Sdo.system b) (orderly b) h s) : s.Unstuck :=
  (live_of_reach hr).unstuck

/-- A check of the steps of a run on `byteBridge` in which no submission throws. -/
def calmly (_ : List Event) (s : Sdo) (i : Label) : Bool :=
  (!i.resumes || !s.running) && submits s i

theorem orderly_of_calmly {h : List Event} {s : Sdo} {i : Label} (hcalm : calmly h s i = true) :
    orderly byteBridge h s i := by
  obtain ⟨hresumes, hsubmits⟩ := Bool.and_eq_true_iff.mp hcalm
  refine ⟨fun hi => by simpa [hi] using hresumes, fun c env hbegins => ?_⟩
  have hsubmit := submitError_of_submits hsubmits hbegins
  refine ⟨?_, fun _ hthrows => absurd hsubmit hthrows,
    by simp [LelyDriverBridge.object, byteBridge]⟩
  rintro - type htype
  cases htype
  decide

/-- A reader blocks while a write is in flight, is notified by its completion, and reads. -/
theorem unstuck_contended_write : ∃ (blocked s : Sdo),
    blocked.transfers.length = 1 ∧ blocked.waiting.length = 1 ∧ blocked.Unstuck ∧
    s.handedOut = [1, 0] ∧ s.promises 0 = .settled (.flag true) ∧ s.promises 1 = .pending ∧
    s.transfers.length = 1 ∧ s.waiting = [] ∧ s.Unstuck := by
  have h0 : Reach (Sdo.system byteBridge) (orderly byteBridge) [] constructed :=
    .init (by simp [Sdo.system, constructed])
  have hok : ∀ (is : List Label), ∀ i ∈ is, ∀ h s, calmly h s i = true →
      orderly byteBridge h s i := fun _ _ _ _ _ => orderly_of_calmly
  have hblocks := System.reach_runIf _ calmly
    [.arrive (.write ⟨0x6040, 0, 15⟩) ⟨none, 0⟩, .arrive (.read ⟨0x6041, 0, 0⟩) ⟨none, 0⟩]
    h0 (hok _) rfl
  have hreads := System.reach_runIf _ calmly
    [.deliver 0 (.ok 0), .release 0 0, .resume 0 ⟨none, 0⟩] hblocks (hok _) rfl
  exact ⟨_, _, rfl, rfl, unstuck_of_orderly hblocks, rfl, rfl, rfl, rfl, rfl,
    unstuck_of_orderly hreads⟩

/-- Three ways to get stuck.  A notified reader finds no object and does not notify the
next one; an object of another type leaves the flag up and its future open; and a write
whose submission throws leaves the flag up, after a read that has been answered. -/
theorem not_unstuck :
    (∃ b h s, Reach (Sdo.system b) Guard.free h s ∧ s.running = false ∧
      s.waiting.length = 1 ∧ s.notified = [] ∧ ¬ s.Unstuck) ∧
    (∃ b h s, Reach (Sdo.system b) Guard.free h s ∧ s.running = true ∧ s.transfers = [] ∧
      s.handedOut = [0] ∧ s.promises 0 = .pending ∧ ¬ s.Unstuck) ∧
    ∃ b h s, Reach (Sdo.system b) Guard.free h s ∧ s.running = true ∧ s.transfers = [] ∧
      Event.threw 1 ∈ h ∧ ¬ s.Unstuck := by
  have h0 : ∀ b, Reach (Sdo.system b) Guard.free [] constructed := fun b =>
    .init (by simp [Sdo.system, constructed])
  refine ⟨?_, ?_, ?_⟩
  · have hrun := System.reach_run
      (Sdo.system ⟨1, fun index _ => if index = 0x6041 then some .unsigned16 else none⟩)
      [.arrive (.read ⟨0x6041, 0, 0⟩) ⟨none, 0⟩, .arrive (.read ⟨0x2000, 0, 0⟩) ⟨none, 0⟩,
        .arrive (.read ⟨0x6041, 0, 0⟩) ⟨none, 0⟩, .deliver 0 (.ok 7), .release 0 0,
        .resume 0 ⟨none, 0⟩] (h0 _) rfl
    refine ⟨_, _, _, hrun, rfl, rfl, rfl, fun hs => ?_⟩
    exact hs.awake rfl (by decide) rfl
  · have hrun := System.reach_run (Sdo.system ⟨1, fun _ _ => some .other⟩)
      [.arrive (.read ⟨0x1008, 0, 0⟩) ⟨none, 0⟩] (h0 _) rfl
    refine ⟨_, _, _, hrun, rfl, rfl, rfl, rfl, fun hs => ?_⟩
    exact absurd (hs.busy.mp rfl) (by decide)
  · have hrun := System.reach_run (Sdo.system byteBridge)
      [.arrive (.read ⟨0x6041, 0, 0⟩) ⟨none, 0⟩, .deliver 0 (.ok 7), .release 0 0,
        .arrive (.write ⟨0x6040, 0, 15⟩) ⟨some 0x08000000, 0⟩] (h0 _) rfl
    refine ⟨_, _, _, hrun, rfl, rfl, by decide, fun hs => ?_⟩
    exact absurd (hs.busy.mp rfl) (by decide)

end Sdo
end RosCanopen.Bridge
