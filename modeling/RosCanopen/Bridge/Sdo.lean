import RosCanopen.Lib.System
import Mathlib.Logic.Function.Basic

/-!
# The SDO channel of `LelyDriverBridge`

Four entry points share one flag, one condition variable and two promise members.
Each waits once if the flag is up, raises it, and submits a request to Lely.  The
completion fulfils a promise without the mutex, and then takes the mutex to lower
the flag and to notify one waiter.

A step is what one thread does under `sdo_mutex` at a stretch.  The environment
decides which waiter a notification reaches, which waiter wakes by itself, whether
a submission throws, and what the device answers.

## Main definitions

* `Request` — the four kinds of call.
* `Sdo` — the members of the bridge, the waiting callers, the transfers in flight.
* `asyncSdoWrite`, `asyncSdoRead`, `asyncSdoWriteTyped`, `asyncSdoReadTyped` — the
  entry points from the end of the wait on.
* `Sdo.system` — the channel.
-/

namespace RosCanopen.Bridge

open Lib

/-- `COData`. -/
structure COData where
  index : BitVec 16
  subindex : BitVec 8
  data : BitVec 32
  deriving DecidableEq

/-- The object types that the switches over `co_def` tell apart. -/
inductive DefType
  | boolean
  | unsigned8
  | integer8
  | unsigned16
  | integer16
  | unsigned32
  | integer32
  | real32
  | other
  deriving DecidableEq

/-- The width of the C++ type that a switch picks; `none` in its default branch. -/
def DefType.width : DefType → Option ℕ
  | .boolean | .unsigned8 | .integer8 => some 8
  | .unsigned16 | .integer16 => some 16
  | .unsigned32 | .integer32 | .real32 => some 32
  | .other => none

/-- The bridge's node and its dictionary, which no call changes. -/
structure LelyDriverBridge where
  id : BitVec 8
  find : BitVec 16 → BitVec 8 → Option DefType

/-- The bytes of a transferred value, whatever its C++ type. -/
abbrev Value := BitVec 64

/-- SDO abort codes. -/
abbrev ErrorCode := BitVec 32

/-- `SdoErrc::NO_OBJ`. -/
def ErrorCode.noObject : ErrorCode := 0x06020000

/-- A call of one of the entry points. -/
inductive Request
  | write (data : COData)
  | read (data : COData)
  | writeTyped (index : BitVec 16) (subindex : BitVec 8) (value : Value)
  | readTyped (index : BitVec 16) (subindex : BitVec 8)
  deriving DecidableEq

namespace Request

def index : Request → BitVec 16
  | write data | read data => data.index
  | writeTyped index _ _ | readTyped index _ => index

def subindex : Request → BitVec 8
  | write data | read data => data.subindex
  | writeTyped _ subindex _ | readTyped _ subindex => subindex

/-- The entry points that keep their promise in a member of the bridge. -/
def isUntyped : Request → Bool
  | write _ | read _ => true
  | _ => false

def isRead : Request → Bool
  | read _ => true
  | _ => false

def isWrite : Request → Bool
  | write _ => true
  | _ => false

end Request

/-- The exception stored in a promise. -/
structure SdoError where
  id : BitVec 8
  index : BitVec 16
  subindex : BitVec 8
  code : ErrorCode
  what : String
  deriving DecidableEq

/-- What a promise can be fulfilled with. -/
inductive Contents
  | flag (ok : Bool)
  | data (data : COData)
  | value (value : Value)
  | error (error : SdoError)
  deriving DecidableEq

namespace LelyDriverBridge
variable (b : LelyDriverBridge)

/-- The object that the request names. -/
def object (r : Request) : Option DefType := b.find r.index r.subindex

/-- The call gets as far as its submission: the object exists, and an untyped call
finds its type in the switch. -/
def reaches (r : Request) : Bool :=
  match b.object r with
  | none => false
  | some type => !r.isUntyped || type.width.isSome

/-- `make_sdo_exception_ptr` for the object of a request. -/
def sdoError (r : Request) (code : ErrorCode) (what : String) : Contents :=
  .error ⟨b.id, r.index, r.subindex, code, what⟩

/-- What the completion of a request puts in a promise, by the device's answer. -/
def outcome (r : Request) (answer : Except ErrorCode Value) : Contents :=
  match r, answer with
  | .write _, .error code | .writeTyped .., .error code => b.sdoError r code "AsyncDownload"
  | .read _, .error code | .readTyped .., .error code => b.sdoError r code "AsyncUpload"
  | .write _, .ok _ | .writeTyped .., .ok _ => .flag true
  | .read data, .ok value =>
      let width := ((b.object r).bind DefType.width).getD 32
      .data ⟨data.index, data.subindex, (value.setWidth width).setWidth 32⟩
  | .readTyped .., .ok value => .value value

/-- The value that is sent with a write: the untyped one copies as many bytes as the
object has. -/
def sent (r : Request) : Option Value :=
  match r with
  | .write data =>
      (b.object r).bind DefType.width |>.map fun width => (data.data.setWidth width).setWidth 64
  | .writeTyped _ _ value => some value
  | _ => none

end LelyDriverBridge

/-- Calls are numbered in the order in which they reach the mutex first. -/
abbrev CallId := ℕ

structure Call where
  id : CallId
  request : Request
  deriving DecidableEq

/-- A promise, by the call that made it. -/
inductive Promise
  | absent
  | pending
  | settled (contents : Contents)
  deriving DecidableEq

/-- A request that Lely has accepted.  It stays in flight after its promise has been
fulfilled until the completion has lowered the flag. -/
structure Transfer where
  call : Call
  delivered : Bool
  deriving DecidableEq

/-- The members of the bridge that the channel uses, and the threads at it. -/
structure Sdo where
  running : Bool
  sdoReadDataPromise : Option CallId
  sdoWriteDataPromise : Option CallId
  promises : CallId → Promise
  /-- Calls that have returned a future. -/
  handedOut : List CallId
  nextCall : CallId
  /-- Callers blocked on `sdo_cond`. -/
  waiting : List Call
  /-- Callers that a notification has released and that have not taken the mutex yet. -/
  notified : List Call
  /-- Callers that woke by themselves and have not taken the mutex yet. -/
  woken : List Call
  transfers : List Transfer
  /-- The process has died. -/
  crashed : Bool

/-- What an outside observer sees of a step. -/
inductive Event
  /-- A transfer has been submitted, with the value sent. -/
  | submitted (c : CallId) (index : BitVec 16) (subindex : BitVec 8) (value : Option Value)
  /-- The call's own request has come to this result. -/
  | result (c : CallId) (contents : Contents)
  /-- The call has been left by an exception. -/
  | threw (c : CallId)
  deriving DecidableEq

namespace Sdo

/-! ## Operations on the members -/

def create (s : Sdo) (i : CallId) : Sdo :=
  { s with promises := Function.update s.promises i .pending }

def settle (s : Sdo) (i : CallId) (v : Contents) : Sdo :=
  { s with promises := Function.update s.promises i (.settled v) }

/-- Fulfil a promise and lower the flag. -/
def finish (s : Sdo) (i : CallId) (v : Contents) : Sdo :=
  { s.settle i v with running := false }

/-- The process dies of a null pointer or of an exception nobody catches. -/
def crash (s : Sdo) : Sdo := { s with crashed := true }

/-- `get_future` and return. -/
def handOut (s : Sdo) (i : CallId) : Sdo := { s with handedOut := i :: s.handedOut }

def submit (s : Sdo) (c : Call) : Sdo := { s with transfers := s.transfers ++ [⟨c, false⟩] }

/-- `sdo_cond.notify_one`: a waiter of the environment's choice, if there is one. -/
def notifyOne (s : Sdo) (pick : ℕ) : Sdo :=
  match s.waiting[pick % s.waiting.length]? with
  | none => s
  | some c =>
      { s with
        waiting := s.waiting.eraseIdx (pick % s.waiting.length)
        notified := c :: s.notified }

end Sdo

/-- What the environment decides while a call runs: whether the submission throws,
and which waiter a notification reaches. -/
structure Env where
  submitError : Option ErrorCode
  pick : ℕ

/-! ## The entry points

Each from the end of its wait on, with the mutex held. -/

section EntryPoints
variable (b : LelyDriverBridge) (c : Call) (env : Env) (s : Sdo)

/-- `async_sdo_write`.  Its handler stores the exception in the promise of the reads. -/
def asyncSdoWrite : Sdo × List Event :=
  let s := ({ s with running := true, sdoWriteDataPromise := some c.id }).create c.id
  match b.object c.request with
  | none =>
      ((s.finish c.id (.flag false)).handOut c.id, [.result c.id (.flag false)])
  | some type =>
      match type.width, env.submitError with
      | none, _ => (s.handOut c.id, [])
      | some _, none =>
          ((s.submit c).handOut c.id,
            [.submitted c.id c.request.index c.request.subindex (b.sent c.request)])
      | some _, some code =>
          let error := b.sdoError c.request code "AsyncUpload"
          match s.sdoReadDataPromise with
          | none => (s.crash, [.result c.id error])
          | some i =>
              match s.promises i with
              | .settled _ => (s, [.threw c.id, .result c.id error])
              | _ =>
                  (((s.finish i error).notifyOne env.pick).handOut c.id, [.result c.id error])

/-- `async_sdo_read`. -/
def asyncSdoRead : Sdo × List Event :=
  let s := ({ s with running := true, sdoReadDataPromise := some c.id }).create c.id
  match b.object c.request with
  | none =>
      let error := b.sdoError c.request ErrorCode.noObject ""
      ((s.finish c.id error).handOut c.id, [.result c.id error])
  | some type =>
      match type.width, env.submitError with
      | none, _ => (s.handOut c.id, [])
      | some _, none =>
          ((s.submit c).handOut c.id,
            [.submitted c.id c.request.index c.request.subindex none])
      | some _, some code =>
          let error := b.sdoError c.request code "AsyncUpload"
          (((s.finish c.id error).notifyOne env.pick).handOut c.id, [.result c.id error])

/-- `async_sdo_write_typed` and `async_sdo_read_typed`, which differ in what they store
when there is no such object.  An exception of the submission leaves the call. -/
def asyncSdoTyped (missing : Contents) : Sdo × List Event :=
  let s := { s with running := true }.create c.id
  match b.object c.request with
  | none =>
      (((s.finish c.id missing).notifyOne env.pick).handOut c.id, [.result c.id missing])
  | some _ =>
      match env.submitError with
      | none =>
          ((s.submit c).handOut c.id,
            [.submitted c.id c.request.index c.request.subindex (b.sent c.request)])
      | some _ => (s, [.threw c.id])

/-- `async_sdo_write_typed`. -/
def asyncSdoWriteTyped : Sdo × List Event := asyncSdoTyped b c env s (.flag false)

/-- `async_sdo_read_typed`. -/
def asyncSdoReadTyped : Sdo × List Event :=
  asyncSdoTyped b c env s (b.sdoError c.request ErrorCode.noObject "")

/-- The entry point of the call. -/
def begin : Sdo × List Event :=
  match c.request with
  | .write _ => asyncSdoWrite b c env s
  | .read _ => asyncSdoRead b c env s
  | .writeTyped .. => asyncSdoWriteTyped b c env s
  | .readTyped .. => asyncSdoReadTyped b c env s

end EntryPoints

/-- What every entry point does first: raise the flag and make its promise. -/
def Sdo.raise (s : Sdo) (c : Call) : Sdo :=
  match c.request with
  | .write _ => { s with running := true, sdoWriteDataPromise := some c.id }.create c.id
  | .read _ => { s with running := true, sdoReadDataPromise := some c.id }.create c.id
  | _ => { s with running := true }.create c.id

/-- Everything that a call can come to.  A submission is `reached` when the object
exists and, in the untyped calls, has a supported type. -/
inductive Began (b : LelyDriverBridge) (c : Call) (env : Env) (s : Sdo) : Sdo → List Event → Prop
  /-- There is no such object, and the untyped call does not notify. -/
  | missing (v : Contents) (hobject : b.object c.request = none)
      (huntyped : c.request.isUntyped = true) :
      Began b c env s (((s.raise c).finish c.id v).handOut c.id) [.result c.id v]
  | missingTyped (v : Contents) (hobject : b.object c.request = none)
      (huntyped : c.request.isUntyped = false) :
      Began b c env s ((((s.raise c).finish c.id v).notifyOne env.pick).handOut c.id)
        [.result c.id v]
  /-- The switch falls through to its default branch. -/
  | unsupported {type : DefType} (hobject : b.object c.request = some type)
      (huntyped : c.request.isUntyped = true) (hwidth : type.width = none) :
      Began b c env s ((s.raise c).handOut c.id) []
  | submitted (value : Option Value) (hreached : b.reaches c.request = true)
      (hsubmit : env.submitError = none) :
      Began b c env s (((s.raise c).submit c).handOut c.id)
        [.submitted c.id c.request.index c.request.subindex value]
  /-- The submission throws, and the reading call stores the exception. -/
  | rejected (v : Contents) (hread : c.request.isRead = true)
      (hreached : b.reaches c.request = true) (hsubmit : env.submitError ≠ none) :
      Began b c env s ((((s.raise c).finish c.id v).notifyOne env.pick).handOut c.id)
        [.result c.id v]
  /-- The submission throws, and the exception leaves the typed call. -/
  | thrown (huntyped : c.request.isUntyped = false) (hreached : b.reaches c.request = true)
      (hsubmit : env.submitError ≠ none) : Began b c env s (s.raise c) [.threw c.id]
  /-- The submission throws, and there has been no read before this write. -/
  | dead (v : Contents) (hwrite : c.request.isWrite = true)
      (hreached : b.reaches c.request = true) (hsubmit : env.submitError ≠ none)
      (hread : s.sdoReadDataPromise = none) :
      Began b c env s (s.raise c).crash [.result c.id v]
  /-- The submission throws, and the promise of the last read is fulfilled already. -/
  | spent (v : Contents) {i : CallId} {v' : Contents} (hwrite : c.request.isWrite = true)
      (hreached : b.reaches c.request = true) (hsubmit : env.submitError ≠ none)
      (hread : s.sdoReadDataPromise = some i) (hsettled : (s.raise c).promises i = .settled v') :
      Began b c env s (s.raise c) [.threw c.id, .result c.id v]
  /-- The submission throws, and the exception ends up in the promise of a read. -/
  | misplaced (v : Contents) {i : CallId} (hwrite : c.request.isWrite = true)
      (hreached : b.reaches c.request = true) (hsubmit : env.submitError ≠ none)
      (hread : s.sdoReadDataPromise = some i)
      (hopen : ∀ v', (s.raise c).promises i ≠ .settled v') :
      Began b c env s ((((s.raise c).finish i v).notifyOne env.pick).handOut c.id)
        [.result c.id v]

/-- An object of a supported type is reached. -/
theorem LelyDriverBridge.reaches_of_width {b : LelyDriverBridge} {request : Request}
    {type : DefType} {width : ℕ} (hobject : b.object request = some type)
    (hwidth : type.width = some width) : b.reaches request = true := by
  simp [LelyDriverBridge.reaches, hobject, hwidth]

section Began
variable (b : LelyDriverBridge) {c : Call} (env : Env) (s : Sdo)

theorem began_asyncSdoWrite (hwrite : c.request.isWrite = true)
    (huntyped : c.request.isUntyped = true)
    (hraise : s.raise c =
      { s with running := true, sdoWriteDataPromise := some c.id }.create c.id) :
    Began b c env s (asyncSdoWrite b c env s).1 (asyncSdoWrite b c env s).2 := by
  have hread : (s.raise c).sdoReadDataPromise = s.sdoReadDataPromise := by rw [hraise]; rfl
  simp only [asyncSdoWrite, ← hraise]
  cases hobject : b.object c.request with
  | none => exact .missing _ hobject huntyped
  | some type =>
      dsimp only
      cases hwidth : type.width with
      | none => exact .unsupported hobject huntyped hwidth
      | some width =>
          have hreached := LelyDriverBridge.reaches_of_width hobject hwidth
          cases hsubmit : env.submitError with
          | none => exact .submitted _ hreached hsubmit
          | some code =>
              have hthrows : env.submitError ≠ none := by simp [hsubmit]
              rw [hread]
              cases hlast : s.sdoReadDataPromise with
              | none => exact .dead _ hwrite hreached hthrows hlast
              | some i =>
                  cases hi : (s.raise c).promises i with
                  | settled v => simpa only [hi] using .spent _ hwrite hreached hthrows hlast hi
                  | pending =>
                      have hopen : ∀ v, (s.raise c).promises i ≠ .settled v := by simp [hi]
                      simpa only [hi] using .misplaced _ hwrite hreached hthrows hlast hopen
                  | absent =>
                      have hopen : ∀ v, (s.raise c).promises i ≠ .settled v := by simp [hi]
                      simpa only [hi] using .misplaced _ hwrite hreached hthrows hlast hopen

theorem began_asyncSdoRead (hread : c.request.isRead = true)
    (huntyped : c.request.isUntyped = true)
    (hraise : s.raise c =
      { s with running := true, sdoReadDataPromise := some c.id }.create c.id) :
    Began b c env s (asyncSdoRead b c env s).1 (asyncSdoRead b c env s).2 := by
  simp only [asyncSdoRead, ← hraise]
  cases hobject : b.object c.request with
  | none => exact .missing _ hobject huntyped
  | some type =>
      dsimp only
      cases hwidth : type.width with
      | none => exact .unsupported hobject huntyped hwidth
      | some width =>
          have hreached := LelyDriverBridge.reaches_of_width hobject hwidth
          cases hsubmit : env.submitError with
          | none => exact .submitted _ hreached hsubmit
          | some code => exact .rejected _ hread hreached (by simp [hsubmit])

theorem began_asyncSdoTyped (missing : Contents) (huntyped : c.request.isUntyped = false)
    (hraise : s.raise c = { s with running := true }.create c.id) :
    Began b c env s (asyncSdoTyped b c env s missing).1 (asyncSdoTyped b c env s missing).2 := by
  simp only [asyncSdoTyped, ← hraise]
  cases hobject : b.object c.request with
  | none => exact .missingTyped _ hobject huntyped
  | some type =>
      dsimp only
      have hreached : b.reaches c.request = true := by
        simp [LelyDriverBridge.reaches, hobject, huntyped]
      cases hsubmit : env.submitError with
      | none => exact .submitted _ hreached hsubmit
      | some code => exact .thrown huntyped hreached (by simp [hsubmit])

variable (c) in
/-- **What a call can come to**, read off the four entry points once. -/
theorem began_begin : Began b c env s (begin b c env s).1 (begin b c env s).2 := by
  obtain ⟨i, request⟩ := c
  cases request with
  | write data => exact began_asyncSdoWrite b env s rfl rfl rfl
  | read data => exact began_asyncSdoRead b env s rfl rfl rfl
  | writeTyped index subindex value => exact began_asyncSdoTyped b env s _ rfl rfl
  | readTyped index subindex => exact began_asyncSdoTyped b env s _ rfl rfl

end Began

/-! ## Completions -/

/-- The promise that the completion of a call fulfils: the typed calls have captured
theirs, the others take what the member holds by then. -/
def Sdo.keeper (s : Sdo) (c : Call) : Option CallId :=
  match c.request with
  | .write _ => s.sdoWriteDataPromise
  | .read _ => s.sdoReadDataPromise
  | _ => some c.id

/-- The first half of a completion: fulfil the promise.  A null or an already fulfilled
promise ends the process. -/
def Sdo.deliver (b : LelyDriverBridge) (s : Sdo) (k : ℕ) (t : Transfer)
    (answer : Except ErrorCode Value) : Sdo × List Event :=
  let v := b.outcome t.call.request answer
  match s.keeper t.call with
  | none => (s.crash, [.result t.call.id v])
  | some i =>
      match s.promises i with
      | .settled _ => (s.crash, [.result t.call.id v])
      | _ =>
          ({ s.settle i v with transfers := s.transfers.set k { t with delivered := true } },
            [.result t.call.id v])

/-- The second half of a completion: lower the flag and notify. -/
def Sdo.release (s : Sdo) (k : ℕ) (pick : ℕ) : Sdo :=
  { s with running := false, transfers := s.transfers.eraseIdx k }.notifyOne pick

/-- A step of the channel. -/
inductive Label
  /-- A call reaches the mutex. -/
  | arrive (request : Request) (env : Env)
  /-- A waiter wakes by itself. -/
  | wake (k : ℕ)
  /-- A notified waiter takes the mutex. -/
  | resume (k : ℕ) (env : Env)
  /-- A waiter that woke by itself takes the mutex. -/
  | resumeWoken (k : ℕ) (env : Env)
  /-- The device answers a transfer. -/
  | deliver (k : ℕ) (answer : Except ErrorCode Value)
  /-- A completion takes the mutex. -/
  | release (k : ℕ) (pick : ℕ)

namespace Sdo

/-- One step.  The wait is an `if`: a caller that leaves it does not look at the flag
again. -/
def step (b : LelyDriverBridge) (s : Sdo) : Label → Option (Sdo × List Event)
  | .arrive request env =>
      let c : Call := ⟨s.nextCall, request⟩
      let s := { s with nextCall := s.nextCall + 1 }
      if s.running then some ({ s with waiting := s.waiting ++ [c] }, [])
      else some (begin b c env s)
  | .wake k =>
      (s.waiting[k]?).map fun c =>
        ({ s with waiting := s.waiting.eraseIdx k, woken := c :: s.woken }, [])
  | .resume k env =>
      (s.notified[k]?).map fun c => begin b c env { s with notified := s.notified.eraseIdx k }
  | .resumeWoken k env =>
      (s.woken[k]?).map fun c => begin b c env { s with woken := s.woken.eraseIdx k }
  | .deliver k answer =>
      match s.transfers[k]? with
      | some t => if t.delivered then none else some (s.deliver b k t answer)
      | none => none
  | .release k pick =>
      match s.transfers[k]? with
      | some t => if t.delivered then some (s.release k pick, []) else none
      | none => none

/-- The channel from construction. -/
def system (b : LelyDriverBridge) : System Sdo Label Event where
  init s := s.running = false ∧ s.sdoReadDataPromise = none ∧ s.sdoWriteDataPromise = none ∧
    s.promises = (fun _ => .absent) ∧ s.handedOut = [] ∧ s.waiting = [] ∧ s.notified = [] ∧
    s.woken = [] ∧ s.transfers = [] ∧ s.crashed = false
  step s i := if s.crashed then none else s.step b i

/-- The channel with nothing going on. -/
def constructed : Sdo where
  running := false
  sdoReadDataPromise := none
  sdoWriteDataPromise := none
  promises _ := .absent
  handedOut := []
  nextCall := 0
  waiting := []
  notified := []
  woken := []
  transfers := []
  crashed := false

/-! ## What a step can do -/

/-- A notification moves a waiter at most. -/
theorem notifyOne_eq (s : Sdo) (pick : ℕ) :
    ∃ w n, s.notifyOne pick = { s with waiting := w, notified := n } := by
  rw [notifyOne]
  split
  · exact ⟨s.waiting, s.notified, rfl⟩
  · exact ⟨_, _, rfl⟩

/-- After a notification nobody waits unless somebody has been notified. -/
theorem notified_notifyOne (s : Sdo) (pick : ℕ) (h : (s.notifyOne pick).waiting ≠ []) :
    (s.notifyOne pick).notified ≠ [] := by
  unfold notifyOne at h ⊢
  split at h
  · next hpick =>
      have hlen : s.waiting.length ≤ pick % s.waiting.length := List.getElem?_eq_none_iff.mp hpick
      have hpos : 0 < s.waiting.length := List.length_pos_of_ne_nil h
      exact absurd (Nat.mod_lt pick hpos) (Nat.not_lt.mpr hlen)
  · next c hpick =>
      exact List.cons_ne_nil _ _

/-- Every entry point makes its promise the one that its completion will fulfil. -/
theorem keeper_raise (s : Sdo) (c : Call) : (s.raise c).keeper c = some c.id := by
  obtain ⟨i, request⟩ := c
  cases request <;> rfl

theorem raise_eq (s : Sdo) (c : Call) :
    ∃ r w, s.raise c =
      { s.create c.id with
        running := true, sdoReadDataPromise := r, sdoWriteDataPromise := w } := by
  obtain ⟨i, request⟩ := c
  cases request <;> exact ⟨_, _, rfl⟩

end Sdo

namespace Label

/-- The call that begins in the step. -/
def begins (s : Sdo) : Label → Option (Call × Env)
  | .arrive request env => if s.running then none else some (⟨s.nextCall, request⟩, env)
  | .resume k env => (s.notified[k]?).map fun c => (c, env)
  | .resumeWoken k env => (s.woken[k]?).map fun c => (c, env)
  | _ => none

/-- A waiter leaves the wait. -/
def resumes : Label → Bool
  | .resume .. | .resumeWoken .. => true
  | _ => false

/-- The channel once the caller of the step is counted as arrived or has left its
queue. -/
def dequeue (s : Sdo) : Label → Sdo
  | .arrive .. => { s with nextCall := s.nextCall + 1 }
  | .resume k _ => { s with notified := s.notified.eraseIdx k }
  | .resumeWoken k _ => { s with woken := s.woken.eraseIdx k }
  | _ => s

end Label

/-- Everything that a step can do. -/
inductive Stepped (b : LelyDriverBridge) (s : Sdo) : Label → Sdo → List Event → Prop
  | began {i : Label} {c : Call} {env : Env} {s' : Sdo} {es : List Event}
      (hbegins : i.begins s = some (c, env)) (hfree : i.resumes = false → s.running = false)
      (hbegan : Began b c env (i.dequeue s) s' es) : Stepped b s i s' es
  | waits (request : Request) (env : Env) (hrunning : s.running = true) :
      Stepped b s (.arrive request env)
        { s with
          nextCall := s.nextCall + 1, waiting := s.waiting ++ [⟨s.nextCall, request⟩] } []
  | wakes {k : ℕ} {c : Call} (hk : s.waiting[k]? = some c) :
      Stepped b s (.wake k) { s with waiting := s.waiting.eraseIdx k, woken := c :: s.woken } []
  | delivers {k : ℕ} {t : Transfer} (answer : Except ErrorCode Value)
      (hk : s.transfers[k]? = some t) (ht : t.delivered = false) :
      Stepped b s (.deliver k answer) (s.deliver b k t answer).1 (s.deliver b k t answer).2
  | releases {k : ℕ} {t : Transfer} (pick : ℕ) (hk : s.transfers[k]? = some t)
      (ht : t.delivered = true) : Stepped b s (.release k pick) (s.release k pick) []

/-- **What a step can do**, said once. -/
theorem stepped_of_step {b : LelyDriverBridge} {s s' : Sdo} {i : Label} {es : List Event}
    (hstep : (Sdo.system b).step s i = some (s', es)) :
    Stepped b s i s' es ∧ s.crashed = false := by
  simp only [Sdo.system] at hstep
  cases hcrashed : s.crashed with
  | true => simp [hcrashed] at hstep
  | false =>
  refine ⟨?_, rfl⟩
  simp only [hcrashed, Bool.false_eq_true, if_false] at hstep
  cases i with
  | arrive request env =>
      simp only [Sdo.step] at hstep
      split at hstep
      · next hrunning =>
          obtain ⟨rfl, rfl⟩ := Prod.mk.inj (Option.some.inj hstep)
          exact .waits request env hrunning
      · next hrunning =>
          have hbegan := began_begin b ⟨s.nextCall, request⟩ env
            { s with nextCall := s.nextCall + 1 }
          rw [Option.some.inj hstep] at hbegan
          exact .began (by simp [Label.begins, hrunning])
            (fun _ => Bool.eq_false_iff.mpr hrunning) hbegan
  | wake k =>
      obtain ⟨c, hk, heq⟩ := Option.map_eq_some_iff.mp hstep
      obtain ⟨rfl, rfl⟩ := Prod.mk.inj heq
      exact .wakes hk
  | resume k env =>
      obtain ⟨c, hk, heq⟩ := Option.map_eq_some_iff.mp hstep
      have hbegan := began_begin b c env { s with notified := s.notified.eraseIdx k }
      rw [heq] at hbegan
      exact .began (by simp [Label.begins, hk]) (by simp [Label.resumes]) hbegan
  | resumeWoken k env =>
      obtain ⟨c, hk, heq⟩ := Option.map_eq_some_iff.mp hstep
      have hbegan := began_begin b c env { s with woken := s.woken.eraseIdx k }
      rw [heq] at hbegan
      exact .began (by simp [Label.begins, hk]) (by simp [Label.resumes]) hbegan
  | deliver k answer =>
      simp only [Sdo.step] at hstep
      cases hk : s.transfers[k]? with
      | none => simp [hk] at hstep
      | some t =>
          cases ht : t.delivered with
          | true => simp [hk, ht] at hstep
          | false =>
              simp only [hk, ht, Bool.false_eq_true, if_false, Option.some.injEq] at hstep
              have hdelivers : Stepped b s (.deliver k answer) _ _ := .delivers answer hk ht
              rwa [hstep] at hdelivers
  | release k pick =>
      simp only [Sdo.step] at hstep
      cases hk : s.transfers[k]? with
      | none => simp [hk] at hstep
      | some t =>
          cases ht : t.delivered with
          | false => simp [hk, ht] at hstep
          | true =>
              simp only [hk, ht, if_true, Option.some.injEq, Prod.mk.injEq] at hstep
              obtain ⟨rfl, rfl⟩ := hstep
              exact .releases pick hk ht

end RosCanopen.Bridge
