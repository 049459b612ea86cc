import RosCanopen.Bridge.Channel
import RosCanopen.Lib.Waiters

/-!
# The SDO service of the master

`LelyMasterBridge` lets one transfer through at a time, for reads and writes to any node.
The flag that guards it is set by no constructor, the wait for it is an `if`, and a call that
fails at once lowers it without waking anybody.  Runs that start with the flag down and in
which neither does harm serve every caller.

## Main definitions

* `Master`, `Master.system` — the service, with its calls and completions in any order.
* `Master.Serves` — what the service promises its callers.
* `Master.orderly` — the steps that keep the promise.
-/

namespace RosCanopen.Bridge

open Lib

/-- The width of the C++ type that the switches pick for a `CO_DEFTYPE`; `none` in their
default branches. -/
def datatypeWidth (datatype : BitVec 8) : Option ℕ :=
  match datatype.toNat with
  -- `INTEGER8`, `INTEGER16`, `INTEGER32`
  | 2 => some 8
  | 3 => some 16
  | 4 => some 32
  -- `UNSIGNED8`, `UNSIGNED16`, `UNSIGNED32`
  | 5 => some 8
  | 6 => some 16
  | 7 => some 32
  | _ => none

/-- `SdoErrc::ERROR`. -/
def ErrorCode.general : ErrorCode := 0x08000000

/-- A call of `async_read_sdo` or `async_write_sdo`. -/
structure MasterCall where
  id : CallId
  isRead : Bool
  node : BitVec 8
  data : COData
  datatype : BitVec 8
  deriving DecidableEq

namespace MasterCall

/-- `make_sdo_exception_ptr` for the object of a call. -/
def sdoError (c : MasterCall) (code : ErrorCode) (what : String) : SdoError :=
  ⟨c.node, c.data.index, c.data.subindex, code, what⟩

/-- What a call comes to before anything is sent: `Submit` may throw. -/
def refused (c : MasterCall) (submitError : Option SdoError) : Option SdoError :=
  match datatypeWidth c.datatype with
  | none => some (c.sdoError .general "Unknown datatype")
  | some _ => submitError

/-- What the completion of a call puts in its promise. -/
def outcome (c : MasterCall) : Except ErrorCode Value → Contents
  | .error code => .error (c.sdoError code (if c.isRead then "AsyncUpload" else "AsyncDownload"))
  | .ok value =>
      if c.isRead then
        let width := (datatypeWidth c.datatype).getD 32
        .data ⟨c.data.index, c.data.subindex, (value.setWidth width).setWidth 32⟩
      else .flag true

/-- The value that is sent with a write, converted to its type. -/
def sent (c : MasterCall) : Option Value :=
  if c.isRead then none
  else (datatypeWidth c.datatype).map fun width => (c.data.data.setWidth width).setWidth 64

end MasterCall

/-- A request that Lely has accepted, in flight until its completion has lowered the flag. -/
structure MasterTransfer where
  call : MasterCall
  delivered : Bool
  deriving DecidableEq

/-- The members of the bridge that the service uses, and the threads at it. -/
structure Master where
  running : Bool
  sdoReadDataPromise : Option CallId
  sdoWriteDataPromise : Option CallId
  promises : CallId → Promise
  /-- Calls that have returned a future. -/
  handedOut : List CallId
  nextCall : CallId
  sdoCond : Waiters MasterCall
  transfers : List MasterTransfer
  /-- A completion has thrown, or met a null pointer. -/
  crashed : Bool

inductive MasterEvent
  /-- A transfer has been submitted, with the value sent. -/
  | submitted (c : CallId) (node : BitVec 8) (index : BitVec 16) (subindex : BitVec 8)
      (value : Option Value)
  /-- The call's own request has come to this result. -/
  | result (c : CallId) (contents : Contents)
  deriving DecidableEq

namespace Master

def settle (s : Master) (i : CallId) (v : Contents) : Master :=
  { s with promises := Function.update s.promises i (.settled v) }

/-- A call with the mutex: raise the flag and make its promise. -/
def raise (s : Master) (c : MasterCall) : Master :=
  let s := { s with running := true, promises := Function.update s.promises c.id .pending }
  if c.isRead then { s with sdoReadDataPromise := some c.id }
  else { s with sdoWriteDataPromise := some c.id }

/-- `async_read_sdo` and `async_write_sdo` from the end of their wait on, with the mutex
held.  Their handler stores any exception in the call's own promise. -/
def begin (s : Master) (c : MasterCall) (submitError : Option SdoError) :
    Master × List MasterEvent :=
  let s := s.raise c
  match c.refused submitError with
  | some error =>
      ({ s.settle c.id (.error error) with running := false, handedOut := c.id :: s.handedOut },
        [.result c.id (.error error)])
  | none =>
      ({ s with transfers := s.transfers ++ [⟨c, false⟩], handedOut := c.id :: s.handedOut },
        [.submitted c.id c.node c.data.index c.data.subindex c.sent])

/-- The promise that the completion of a call fulfils: what the member holds by then. -/
def keeper (s : Master) (c : MasterCall) : Option CallId :=
  if c.isRead then s.sdoReadDataPromise else s.sdoWriteDataPromise

/-- The first half of a completion: fulfil the promise. -/
def deliver (s : Master) (k : ℕ) (t : MasterTransfer) (answer : Except ErrorCode Value) :
    Master × List MasterEvent :=
  let v := t.call.outcome answer
  match s.keeper t.call with
  | none => ({ s with crashed := true }, [.result t.call.id v])
  | some i =>
      match s.promises i with
      | .settled _ => ({ s with crashed := true }, [.result t.call.id v])
      | _ =>
          ({ s.settle i v with transfers := s.transfers.set k { t with delivered := true } },
            [.result t.call.id v])

/-- The second half of a completion: lower the flag and notify. -/
def release (s : Master) (k pick : ℕ) : Master :=
  { s with
    running := false
    transfers := s.transfers.eraseIdx k
    sdoCond := s.sdoCond.notifyOne pick }

end Master

inductive MasterInput
  /-- A call reaches the mutex. -/
  | arrive (isRead : Bool) (node : BitVec 8) (data : COData) (datatype : BitVec 8)
      (submitError : Option SdoError)
  /-- A waiter wakes by itself. -/
  | wake (k : ℕ)
  /-- A caller takes the mutex after its wait. -/
  | resume (spurious : Bool) (k : ℕ) (submitError : Option SdoError)
  /-- The device answers a transfer. -/
  | deliver (k : ℕ) (answer : Except ErrorCode Value)
  /-- A completion takes the mutex. -/
  | release (k pick : ℕ)

namespace Master

/-- One step.  The wait is an `if`: a caller that leaves it does not look at the flag
again. -/
def step (s : Master) : MasterInput → Option (Master × List MasterEvent)
  | .arrive isRead node data datatype submitError =>
      let c : MasterCall := ⟨s.nextCall, isRead, node, data, datatype⟩
      let s := { s with nextCall := s.nextCall + 1 }
      if s.running then some ({ s with sdoCond := s.sdoCond.wait c }, [])
      else some (s.begin c submitError)
  | .wake k => (s.sdoCond.wake k).map fun w => ({ s with sdoCond := w }, [])
  | .resume spurious k submitError =>
      (s.sdoCond.resume spurious k).map fun (c, w) =>
        { s with sdoCond := w }.begin c submitError
  | .deliver k answer =>
      match s.transfers[k]? with
      | some t => if t.delivered then none else some (s.deliver k t answer)
      | none => none
  | .release k pick =>
      match s.transfers[k]? with
      | some t => if t.delivered then some (s.release k pick, []) else none
      | none => none

/-- The service after its constructor, with what was in the memory of the flag. -/
def constructed (running : Bool) : Master where
  running := running
  sdoReadDataPromise := none
  sdoWriteDataPromise := none
  promises _ := .absent
  handedOut := []
  nextCall := 0
  sdoCond := .empty
  transfers := []
  crashed := false

/-- The service from its constructor, which does not set the flag. -/
def system (running : Bool) : System Master MasterInput MasterEvent where
  init s := s = constructed running
  step s i := if s.crashed then none else s.step i

/-- What the service promises its callers. -/
structure Serves (s : Master) (h : List MasterEvent) : Prop where
  single : s.transfers.length ≤ 1
  busy : s.running = true ↔ s.transfers.length = 1
  served : ∀ i ∈ s.handedOut, s.promises i = .pending →
    ∃ t ∈ s.transfers, t.call.id = i ∧ t.delivered = false
  own : ∀ i v, s.promises i = .settled v → MasterEvent.result i v ∈ h
  awake : s.transfers = [] → s.sdoCond.Awake

/-- The steps that keep the promise: a caller leaves the wait only when the flag is down,
and one that fails at once then leaves nobody asleep. -/
def orderly : Guard Master MasterInput MasterEvent := fun _ s i =>
  match i with
  | .resume spurious k submitError =>
      s.running = false ∧ ∀ c w, s.sdoCond.resume spurious k = some (c, w) →
        (c.refused submitError).isSome = true → w.Awake
  | _ => True

/-! ## The invariant -/

/-- The service is live: it serves, and the transfer in flight will find its promise open. -/
structure Live (s : Master) (h : List MasterEvent) : Prop extends s.Serves h where
  pending : ∀ t ∈ s.transfers, t.delivered = false →
    s.keeper t.call = some t.call.id ∧ s.promises t.call.id = .pending

/-- The flag is down, nothing is in flight and no future is open. -/
structure Quiet (s : Master) (h : List MasterEvent) : Prop where
  down : s.running = false
  none : s.transfers = []
  settled : ∀ i ∈ s.handedOut, s.promises i ≠ .pending
  own : ∀ i v, s.promises i = .settled v → MasterEvent.result i v ∈ h

section Steps
variable {s s' : Master} {h es : List MasterEvent} {c : MasterCall}

theorem Live.quiet (hs : s.Live h) (hdown : s.running = false) : s.Quiet h := by
  have hnone : s.transfers = [] := by
    have hlen : s.transfers.length ≠ 1 := fun hlen => by simp [hs.busy.mpr hlen] at hdown
    exact List.length_eq_zero_iff.mp (Nat.lt_one_iff.mp (Nat.lt_of_le_of_ne hs.single hlen))
  refine ⟨hdown, hnone, fun i hi hpending => ?_, hs.own⟩
  obtain ⟨t, ht, -⟩ := hs.served i hi hpending
  simp [hnone] at ht

/-- A quiet service is live unless somebody sleeps. -/
theorem Quiet.live (hs : s.Quiet h) (hawake : s.sdoCond.Awake) : s.Live h where
  single := by simp [hs.none]
  busy := by simp [hs.down, hs.none]
  served i hi hpending := absurd hpending (hs.settled i hi)
  own := hs.own
  awake _ := hawake
  pending := by simp [hs.none]

/-- A call finds its promise in the member. -/
theorem keeper_raise (s : Master) (c : MasterCall) : (s.raise c).keeper c = some c.id := by
  cases hread : c.isRead <;> simp [raise, keeper, hread]

theorem raise_eq (s : Master) (c : MasterCall) : ∃ r w, s.raise c =
    { s with
      running := true, promises := Function.update s.promises c.id .pending,
      sdoReadDataPromise := r, sdoWriteDataPromise := w } := by
  cases hread : c.isRead with
  | false => exact ⟨s.sdoReadDataPromise, some c.id, by simp [raise, hread]⟩
  | true => exact ⟨some c.id, s.sdoWriteDataPromise, by simp [raise, hread]⟩

theorem own_update {promises : CallId → Promise}
    (hown : ∀ i v, promises i = .settled v → MasterEvent.result i v ∈ h) (j : CallId) (v : Contents)
    {es : List MasterEvent} (hes : MasterEvent.result j v ∈ es) :
    ∀ i v', Function.update promises j (.settled v) i = .settled v' →
      MasterEvent.result i v' ∈ es ++ h := by
  intro i v' hv
  by_cases hij : i = j
  · subst hij
    have heq : v = v' := by simpa using hv
    exact List.mem_append_left h (heq ▸ hes)
  · have hold : promises i = .settled v' := by simpa [hij] using hv
    exact List.mem_append_right es (hown i v' hold)

/-- The promise of a new call is open, and the others are as they were. -/
theorem own_pending {promises : CallId → Promise}
    (hown : ∀ i v, promises i = .settled v → MasterEvent.result i v ∈ h) (j : CallId) :
    ∀ i v, Function.update promises j .pending i = .settled v → MasterEvent.result i v ∈ h := by
  intro i v hv
  by_cases hij : i = j
  · subst hij
    simp at hv
  · exact hown i v (by simpa [hij] using hv)

/-- A call on a quiet service. -/
theorem Quiet.begin (hs : s.Quiet h) (c : MasterCall) (submitError : Option SdoError)
    (hawake : (c.refused submitError).isSome = true → s.sdoCond.Awake) :
    (s.begin c submitError).1.Live ((s.begin c submitError).2 ++ h) := by
  have hkeeper := keeper_raise s c
  obtain ⟨r, w, heq⟩ := s.raise_eq c
  rw [heq] at hkeeper
  simp only [Master.begin, heq]
  have hraised := own_pending hs.own c.id
  cases hrefused : c.refused submitError with
  | some error =>
      refine Quiet.live ⟨rfl, hs.none, ?_, ?_⟩ (hawake (by simp [hrefused]))
      · intro i hi
        by_cases hic : i = c.id
        · subst hic
          simp [settle]
        · have hold := hs.settled i ((List.mem_cons.mp hi).resolve_left hic)
          simpa [settle, hic] using hold
      · exact own_update hraised c.id (.error error) List.mem_cons_self
  | none =>
      have htransfers : s.transfers ++ [⟨c, false⟩] = [⟨c, false⟩] := by rw [hs.none]; rfl
      refine ⟨⟨by simp [hs.none], by simp [hs.none], ?_, ?_, by simp⟩, ?_⟩
      · intro i hi hpending
        by_cases hic : i = c.id
        · exact ⟨⟨c, false⟩, by simp, hic.symm, rfl⟩
        · have hold : s.promises i = .pending := by simpa [hic] using hpending
          exact absurd hold (hs.settled i ((List.mem_cons.mp hi).resolve_left hic))
      · intro i v hv
        exact List.mem_append_right _ (hraised i v hv)
      · intro t ht _
        dsimp only at ht
        rw [htransfers, List.mem_singleton] at ht
        subst ht
        exact ⟨hkeeper, by simp⟩

/-- The first half of a completion settles the only open future. -/
theorem Live.deliver {k : ℕ} {t : MasterTransfer} (hs : s.Live h)
    (answer : Except ErrorCode Value) (hk : s.transfers[k]? = some t) (ht : t.delivered = false) :
    (s.deliver k t answer).1.Live ((s.deliver k t answer).2 ++ h) := by
  obtain ⟨hsingle, rfl⟩ := eq_singleton_of_getElem? hk hs.single
  obtain ⟨hkeeper, hpending⟩ := hs.pending t (by simp [hsingle]) ht
  have hrunning : s.running = true := hs.busy.mpr (by simp [hsingle])
  simp only [Master.deliver, hkeeper, hpending]
  refine ⟨⟨by simp [hsingle], by simp [hsingle, settle, hrunning], ?_, ?_, by simp [hsingle]⟩,
    by simp [hsingle]⟩
  · intro i hi hopen
    by_cases hit : i = t.call.id
    · subst hit
      simp [settle] at hopen
    · have hold : s.promises i = .pending := by simpa [settle, hit] using hopen
      obtain ⟨t', ht', hid, -⟩ := hs.served i hi hold
      rw [hsingle, List.mem_singleton] at ht'
      exact absurd (ht' ▸ hid.symm) hit
  · exact own_update hs.own t.call.id _ List.mem_cons_self

/-- The second half of a completion leaves the service quiet and notifies. -/
theorem Live.release {k : ℕ} {t : MasterTransfer} (hs : s.Live h) (pick : ℕ)
    (hk : s.transfers[k]? = some t) (ht : t.delivered = true) : (s.release k pick).Live h := by
  obtain ⟨hsingle, rfl⟩ := eq_singleton_of_getElem? hk hs.single
  refine Quiet.live ⟨rfl, by simp [Master.release, hsingle], ?_, hs.own⟩
    (Waiters.awake_notifyOne s.sdoCond pick)
  intro i hi hpending
  obtain ⟨t', ht', -, hopen⟩ := hs.served i hi hpending
  rw [hsingle, List.mem_singleton] at ht'
  simp [ht', ht] at hopen

/-- **An orderly step keeps the service live.** -/
theorem Live.step {i : MasterInput} (hs : s.Live h) (hok : orderly h s i)
    (hstep : s.step i = some (s', es)) : s'.Live (es ++ h) := by
  cases i with
  | arrive isRead node data datatype submitError =>
      simp only [Master.step] at hstep
      split at hstep
      · next hrunning =>
          obtain ⟨rfl, rfl⟩ := Prod.mk.inj (Option.some.inj hstep)
          have hlen := hs.busy.mp hrunning
          have hsome : s.transfers ≠ [] := fun hnone => by simp [hnone] at hlen
          exact ⟨⟨hs.single, hs.busy, hs.served, hs.own, fun hnone => absurd hnone hsome⟩,
            hs.pending⟩
      · next hdown =>
          have hquiet := hs.quiet (Bool.eq_false_iff.mpr hdown)
          have hnext : Quiet { s with nextCall := s.nextCall + 1 } h :=
            ⟨hquiet.down, hquiet.none, hquiet.settled, hquiet.own⟩
          have hlive := hnext.begin ⟨s.nextCall, isRead, node, data, datatype⟩ submitError
            (fun _ => hs.awake hquiet.none)
          rwa [Option.some.inj hstep] at hlive
  | wake k =>
      obtain ⟨w, hw, heq⟩ := Option.map_eq_some_iff.mp hstep
      obtain ⟨rfl, rfl⟩ := Prod.mk.inj heq
      exact ⟨⟨hs.single, hs.busy, hs.served, hs.own, fun hnone => (hs.awake hnone).wake hw⟩,
        hs.pending⟩
  | resume spurious k submitError =>
      obtain ⟨⟨c, w⟩, hw, heq⟩ := Option.map_eq_some_iff.mp hstep
      have hquiet := hs.quiet hok.1
      have hleft : Quiet { s with sdoCond := w } h :=
        ⟨hquiet.down, hquiet.none, hquiet.settled, hquiet.own⟩
      have hlive := hleft.begin c submitError (hok.2 c w hw)
      dsimp only at heq
      rwa [heq] at hlive
  | deliver k answer =>
      simp only [Master.step] at hstep
      split at hstep
      · next t hk =>
          split at hstep
          · cases hstep
          · next ht =>
              have hlive := hs.deliver answer hk (Bool.eq_false_iff.mpr ht)
              rwa [Option.some.inj hstep] at hlive
      · cases hstep
  | release k pick =>
      simp only [Master.step] at hstep
      split at hstep
      · next t hk =>
          split at hstep
          · next ht =>
              obtain ⟨rfl, rfl⟩ := Prod.mk.inj (Option.some.inj hstep)
              exact hs.release pick hk ht
          · cases hstep
      · cases hstep

/-- The service is live along every orderly run that starts with the flag down. -/
theorem live_of_reach (hr : Reach (system false) orderly h s) : s.Live h := by
  induction hr with
  | init hs =>
      rw [show _ = constructed false from hs]
      exact Quiet.live ⟨rfl, rfl, by simp [constructed], by simp [constructed]⟩
        Waiters.awake_empty
  | step _ hok hstep ih =>
      simp only [system] at hstep
      split at hstep
      · cases hstep
      · exact ih.step hok hstep

end Steps

/-- **Every caller is served** in all orderly runs, exactly when the constructor found the
flag down. -/
theorem serves_iff (running : Bool) :
    (∀ h s, Reach (system running) orderly h s → s.Serves h) ↔ running = false := by
  constructor
  · intro hserves
    have hbusy := (hserves [] (constructed running) (.init rfl)).busy
    cases running with
    | false => rfl
    | true => exact absurd (hbusy.mp rfl) (by decide)
  · rintro rfl h s hr
    exact (live_of_reach hr).toServes

/-- A notified caller asks for an unknown datatype: it lowers the flag and wakes nobody. -/
theorem not_serves : ¬ ∀ running h s, Reach (system running) Guard.free h s → s.Serves h := by
  intro hserves
  have hrun := System.reach_run (system false)
    [.arrive true 2 ⟨0x6041, 0, 0⟩ 6 none, .arrive true 2 ⟨0x1008, 0, 0⟩ 9 none,
      .arrive true 2 ⟨0x6041, 0, 0⟩ 6 none, .deliver 0 (.ok 7), .release 0 0,
      .resume false 0 none] (.init rfl) rfl
  exact (hserves false _ _ hrun).awake rfl (by decide) rfl

end Master
end RosCanopen.Bridge
