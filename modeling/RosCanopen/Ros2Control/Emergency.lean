import RosCanopen.Core.Polling
import RosCanopen.Ros2Control.Hardware

/-!
# The way of an emergency message to its state interfaces

The bridge queues the frame, `poll_timer_callback` hands it to the callback that `CanopenSystem`
has registered, and `set_emcy` copies it into the doubles behind the exported state interfaces.
Every byte of the manufacturer field is copied with two bytes.

## Main definitions

* `EmcyInterface` — the state interfaces of a node for its emergencies.
* `EmergencyPath.system` — the queues of a driver, their callback and the hardware.
* `EmergencyPath.Unchanged` — the interfaces hold the last frame, of which nothing else was read.
-/

namespace RosCanopen.Ros2Control

open Lib RosCanopen.Core Cia402
open Bridge (COData)

/-- The messages in the queues. -/
def DriverMessage : QueueKind → Type
  | .emcy => COEmcy
  | .rpdo => COData

/-- The state interfaces of a joint for the emergencies of its node. -/
inductive EmcyInterface
  | errorCode
  | errorRegister
  | manufacturerErrorCode (i : Fin 5)
  deriving DecidableEq

namespace EmcyInterface

def name : EmcyInterface → String
  | .errorCode => "emcy/error_code"
  | .errorRegister => "emcy/error_register"
  | .manufacturerErrorCode i => "emcy/manufacturer_error_code" ++ toString (i.val + 1)

/-- The double behind the interface. -/
def value (d : Ros2ControlEmcyData) : EmcyInterface → Double
  | .errorCode => d.errorCode
  | .errorRegister => d.errorRegister
  | .manufacturerErrorCode i => d.manufacturerErrorCode i

/-- What the frame carries for the interface. -/
def carried (e : COEmcy) : EmcyInterface → Double
  | .errorCode => ofUnsigned e.eec
  | .errorRegister => ofUnsigned e.er
  | .manufacturerErrorCode i => ofUnsigned (e.msef i)

/-- The place in the frame from which `set_emcy` copies, and how many bytes. -/
def copy : EmcyInterface → ℕ × ℕ
  | .errorCode => (0, 2)
  | .errorRegister => (2, 1)
  | .manufacturerErrorCode i => (3 + i.val, 2)

/-- In the order of their copies. -/
def all : List EmcyInterface :=
  [.errorCode, .errorRegister, .manufacturerErrorCode 0, .manufacturerErrorCode 1,
    .manufacturerErrorCode 2, .manufacturerErrorCode 3, .manufacturerErrorCode 4]

theorem mem_all (x : EmcyInterface) : x ∈ all := by
  cases x with
  | errorCode => decide
  | errorRegister => decide
  | manufacturerErrorCode i =>
      match i with
      | 0 => decide
      | 1 => decide
      | 2 => decide
      | 3 => decide
      | 4 => decide

end EmcyInterface

namespace COEmcy

/-- `sizeof(COEmcy)` -/
def size : ℕ := 8

/-- The frame in memory, with the byte behind it. -/
def byteAt (e : COEmcy) (past : BitVec 8) (offset : ℕ) : BitVec 8 :=
  if offset = 0 then e.eec.setWidth 8
  else if offset = 1 then (e.eec >>> 8).setWidth 8
  else if offset = 2 then e.er
  else if h : offset - 3 < 5 then e.msef ⟨offset - 3, h⟩
  else past

/-- What a copy of one byte or of two leaves in an integer. -/
def copied (e : COEmcy) (past : BitVec 8) (c : ℕ × ℕ) : BitVec 16 :=
  if c.2 = 1 then (e.byteAt past c.1).setWidth 16
  else e.byteAt past (c.1 + 1) ++ e.byteAt past c.1

end COEmcy

inductive EmergencyEvent
  | polled (e : PollingEvent DriverMessage)
  /-- The callback has been called with the frame, behind which the byte stands. -/
  | stored (e : COEmcy) (past : BitVec 8)
  /-- Bytes have been read, from the start of the frame. -/
  | copied (offset size : ℕ)

inductive EmergencyInput
  /-- A step of the queues and of the callback that polls them; `past` and `raw` are what the
  machine makes of the bytes that no frame has and of the number that is no `bool`. -/
  | poll (i : PollingInput DriverMessage) (past : BitVec 8) (raw : Double)
  /-- What else the hardware does, with other nodes too. -/
  | hardware (i : HardwareInput)

/-- The queues of the driver of a node, and the hardware. -/
structure EmergencyPath where
  polling : Polling DriverMessage
  hardware : Hardware

namespace EmergencyPath

/-- The call of the callbacks that `initDeviceContainer` registers. -/
def called (id : BitVec 8) (past : BitVec 8) (raw : Double) :
    List (PollingEvent DriverMessage) → Option HardwareInput
  | [.message .handed .emcy e] => some (.emcy id e past)
  | [.message .handed .rpdo d] => some (.rpdo id d raw)
  | _ => none

/-- What the call has read of its argument. -/
def reads : HardwareInput → List EmergencyEvent
  | .emcy _ e past =>
      .stored e past :: (EmcyInterface.all.map fun x => .copied x.copy.1 x.copy.2).reverse
  | _ => []

/-- The registered callbacks throw nothing. -/
def throws (s : Polling DriverMessage) : PollingInput DriverMessage → Bool
  | .go true =>
      match s.pc with
      | some (.busy _ _ _ .called) => true
      | _ => false
  | _ => false

/-- An emergency of the node comes from its driver alone. -/
def foreign (id : BitVec 8) : HardwareInput → Bool
  | .emcy id' _ _ => id' ≠ id
  | _ => true

def step (info : HardwareInfo) (id : BitVec 8) (s : EmergencyPath) :
    EmergencyInput → Option (EmergencyPath × List EmergencyEvent)
  | .poll i past raw =>
      if throws s.polling i then none
      else
        (Polling.step (fun _ => true) s.polling i).bind fun (polling, es) =>
          match called id past raw es with
          | none => some ({ s with polling }, es.map .polled)
          | some call =>
              (CanopenSystem.step info s.hardware call).map fun (hardware, _) =>
                (⟨polling, hardware⟩, reads call ++ es.map .polled)
  | .hardware i =>
      if foreign id i then
        (CanopenSystem.step info s.hardware i).map fun (hardware, _) => ({ s with hardware }, [])
      else none

def system (info : HardwareInfo) (id : BitVec 8) :
    System EmergencyPath EmergencyInput EmergencyEvent where
  init s := (Polling.system DriverMessage fun _ => true).init s.polling ∧
    (CanopenSystem.system info).init s.hardware
  step := step info id

end EmergencyPath

/-! ## What is promised -/

namespace EmergencyEvent

def polled? : EmergencyEvent → Option (PollingEvent DriverMessage)
  | .polled e => some e
  | _ => none

def stored? : EmergencyEvent → Option (COEmcy × BitVec 8)
  | .stored e past => some (e, past)
  | _ => none

end EmergencyEvent

namespace EmergencyPath

/-- The frames that have been delivered, with the bytes behind them, the latest first. -/
def delivered (h : List EmergencyEvent) : List (COEmcy × BitVec 8) :=
  h.filterMap EmergencyEvent.stored?

/-- The frames that have been queued, the latest first. -/
def queued (h : List EmergencyEvent) : List COEmcy :=
  Polling.messages .pushed .emcy (h.filterMap EmergencyEvent.polled?)

def stateInterface (s : EmergencyPath) (id : BitVec 8) (x : EmcyInterface) : Double :=
  x.value (s.hardware.canopenData id.toNat).emcyData

/-- The interfaces hold what the last frame carries. -/
def HoldsLast (id : BitVec 8) (h : List EmergencyEvent) (s : EmergencyPath) : Prop :=
  ∀ p, (delivered h).head? = some p → ∀ x : EmcyInterface, s.stateInterface id x = x.carried p.1

/-- And nothing has been read but frames. -/
def Unchanged (id : BitVec 8) (h : List EmergencyEvent) (s : EmergencyPath) : Prop :=
  HoldsLast id h s ∧ ∀ offset n, EmergencyEvent.copied offset n ∈ h → offset + n ≤ COEmcy.size

end EmergencyPath

/-! ## The copies -/

section Copies
variable {e : COEmcy} {past b : BitVec 8}

theorem toNat_append_byte (b c : BitVec 8) : (b ++ c).toNat = 256 * b.toNat + c.toNat := by
  rw [BitVec.toNat_append, ← Nat.shiftLeft_add_eq_or_of_lt c.isLt, Nat.shiftLeft_eq]
  omega

theorem append_bytes (x : BitVec 16) : (x >>> 8).setWidth 8 ++ x.setWidth 8 = x := by
  apply BitVec.eq_of_toNat_eq
  rw [toNat_append_byte, BitVec.toNat_setWidth, BitVec.toNat_setWidth, BitVec.toNat_ushiftRight,
    Nat.shiftRight_eq_div_pow]
  have hlt := x.isLt
  omega

/-- The doubles are what the copies leave. -/
theorem value_setEmcy (e : COEmcy) (past : BitVec 8) (x : EmcyInterface) :
    x.value (.setEmcy e past) = ofUnsigned (e.copied past x.copy) := by
  cases x with
  | errorCode =>
      have hcopied : e.copied past (0, 2) = e.eec := append_bytes e.eec
      rw [EmcyInterface.copy, hcopied]
      rfl
  | errorRegister =>
      have hcopied : e.copied past (2, 1) = e.er.setWidth 16 := rfl
      rw [EmcyInterface.copy, hcopied]
      have hlt := e.er.isLt
      have hmod : e.er.toNat % 65536 = e.er.toNat := Nat.mod_eq_of_lt (by omega)
      simp [EmcyInterface.value, Ros2ControlEmcyData.setEmcy, ofUnsigned, hmod]
  | manufacturerErrorCode i =>
      have hbytes : ∀ i : Fin 5, i = 0 ∨ i = 1 ∨ i = 2 ∨ i = 3 ∨ i = 4 := by decide
      obtain rfl | rfl | rfl | rfl | rfl := hbytes i <;> rfl

/-- A byte with another above it is the number of the byte when the other is zero. -/
theorem ofUnsigned_append (b c : BitVec 8) : ofUnsigned (b ++ c) = ofUnsigned c ↔ b = 0 := by
  constructor
  · intro heq
    have hvalue : (b ++ c).toNat = c.toNat := by simpa [ofUnsigned] using heq
    rw [toNat_append_byte] at hvalue
    have hzero : b.toNat = 0 := by omega
    exact BitVec.eq_of_toNat_eq hzero
  · intro hzero
    rw [ofUnsigned, toNat_append_byte, hzero]
    simp [ofUnsigned]

/-- The interfaces hold the frame when nothing but zeros stands behind its first manufacturer
byte. -/
theorem value_setEmcy_eq_carried :
    (∀ x : EmcyInterface, x.value (.setEmcy e past) = x.carried e) ↔
      (∀ i : Fin 5, i ≠ 0 → e.msef i = 0) ∧ past = 0 := by
  have hcode : ∀ i : Fin 5,
      EmcyInterface.value (.setEmcy e past) (.manufacturerErrorCode i) =
        EmcyInterface.carried e (.manufacturerErrorCode i) ↔
      (if h : i.val + 1 < 5 then e.msef ⟨i.val + 1, h⟩ else past) = 0 :=
    fun i => ofUnsigned_append _ _
  constructor
  · intro hall
    have hzero := fun i => (hcode i).mp (hall (.manufacturerErrorCode i))
    refine ⟨?_, hzero 4⟩
    intro i hi
    obtain ⟨j, rfl⟩ := Fin.exists_succ_eq.mpr hi
    have hj := hzero j.castSucc
    rw [dif_pos (by simp; omega)] at hj
    exact hj
  · intro hzero x
    cases x with
    | errorCode => rfl
    | errorRegister => rfl
    | manufacturerErrorCode i =>
        rw [hcode]
        by_cases hi : i.val + 1 < 5
        · rw [dif_pos hi]
          exact hzero.1 _ (Fin.ne_of_val_ne (Nat.succ_ne_zero i.val))
        · rw [dif_neg hi]
          exact hzero.2

end Copies

/-! ## The hardware keeps what was stored -/

section Hardware
variable {info : HardwareInfo} {s s' : Hardware} {id : BitVec 8} {i : HardwareInput}
  {es : List HardwareEvent}

/-- Nothing but a call of the emergency callback of the node changes its emergency data. -/
theorem CanopenSystem.emcyData_step (hforeign : EmergencyPath.foreign id i = true)
    (hstep : CanopenSystem.step info s i = some (s', es)) :
    (s'.canopenData id.toNat).emcyData = (s.canopenData id.toNat).emcyData := by
  have hmodify : ∀ (id' : BitVec 8) (f : HardwareNode → HardwareNode),
      (∀ n, (f n).emcyData = n.emcyData) →
      ((s.modify id' f).canopenData id.toNat).emcyData = (s.canopenData id.toNat).emcyData := by
    intro id' f hf
    by_cases hid : id.toNat = id'.toNat
    · simp [Hardware.modify, hid, hf]
    · simp [Hardware.modify, Function.update_of_ne hid]
  cases i with
  | nmtState id' state =>
      obtain ⟨rfl, -⟩ := Prod.mk.inj (Option.some.inj hstep)
      exact hmodify id' _ fun _ => rfl
  | rpdo id' d raw =>
      obtain ⟨rfl, -⟩ := Prod.mk.inj (Option.some.inj hstep)
      exact hmodify id' _ fun _ => rfl
  | emcy id' e past =>
      have hne : id' ≠ id := by simpa [EmergencyPath.foreign] using hforeign
      obtain ⟨rfl, -⟩ := Prod.mk.inj (Option.some.inj hstep)
      have hnat : id.toNat ≠ id'.toNat := fun heq => hne (BitVec.eq_of_toNat_eq heq.symm)
      simp [Hardware.modify, Function.update_of_ne hnat]
  | set id' interface x =>
      simp only [CanopenSystem.step] at hstep
      split at hstep
      · obtain ⟨rfl, -⟩ := Prod.mk.inj (Option.some.inj hstep)
        exact hmodify id' _ fun _ => by cases interface <;> rfl
      · cases hstep
  | read =>
      obtain ⟨rfl, -⟩ := Prod.mk.inj (Option.some.inj hstep)
      rfl
  | write env throws =>
      obtain ⟨m, goes, es', hsweep, hm⟩ : ∃ m goes es,
          sweep (CanopenSystem.writeNode info env) s.keys s.canopenData = some (m, goes, es) ∧
            ∀ k, (m k).emcyData = (s.canopenData k).emcyData :=
        sweep_invariant (P := fun k (n : HardwareNode) => n.emcyData = (s.canopenData k).emcyData)
          (fun k n hn => ⟨_, _, _, rfl, hn⟩) fun _ => rfl
      simp only [CanopenSystem.step, hsweep, Option.map_some] at hstep
      obtain ⟨rfl, -⟩ := Prod.mk.inj (Option.some.inj hstep)
      exact hm id.toNat

/-- A call of the emergency callback. -/
theorem CanopenSystem.step_emcy (info : HardwareInfo) (s : Hardware) (id : BitVec 8) (e : COEmcy)
    (past : BitVec 8) :
    ∃ s', CanopenSystem.step info s (.emcy id e past) = some (s', []) ∧
      (s'.canopenData id.toNat).emcyData = .setEmcy e past :=
  ⟨_, rfl, by simp [Hardware.modify]⟩

end Hardware

/-! ## What is stored -/

namespace EmergencyPath

section Steps
variable {info : HardwareInfo} {id past : BitVec 8} {raw : Double} {s s' : EmergencyPath}
  {i : EmergencyInput} {es h : List EmergencyEvent}

/-- What a step does for the interfaces of the node: it stores a frame with all its copies, or
nothing. -/
inductive Stepped (s : EmergencyPath) (id : BitVec 8) (s' : EmergencyPath) :
    List EmergencyEvent → Prop
  | store {i : PollingInput DriverMessage} (e : COEmcy) (past : BitVec 8)
      (hpoll : Polling.step (fun _ => true) s.polling i =
        some (s'.polling, [.message .handed .emcy e]))
      (hdata : (s'.hardware.canopenData id.toNat).emcyData = .setEmcy e past) :
      Stepped s id s' (reads (.emcy id e past) ++ [.polled (.message .handed .emcy e)])
  | poll {i : PollingInput DriverMessage} {es : List (PollingEvent DriverMessage)}
      (hpoll : Polling.step (fun _ => true) s.polling i = some (s'.polling, es))
      (hes : ∀ h, Polling.messages .handed .emcy (es ++ h) = Polling.messages .handed .emcy h)
      (hdata : (s'.hardware.canopenData id.toNat).emcyData =
        (s.hardware.canopenData id.toNat).emcyData) : Stepped s id s' (es.map .polled)
  | hardware (hpolling : s'.polling = s.polling)
      (hdata : (s'.hardware.canopenData id.toNat).emcyData =
        (s.hardware.canopenData id.toNat).emcyData) : Stepped s id s' []

/-- What was not called has not been handed over. -/
theorem messages_of_called {es : List (PollingEvent DriverMessage)} (hlen : es.length ≤ 1)
    (hcalled : ∀ e : COEmcy, es ≠ [.message .handed .emcy e])
    (h : List (PollingEvent DriverMessage)) :
    Polling.messages .handed .emcy (es ++ h) = Polling.messages .handed .emcy h := by
  match es, hlen with
  | [], _ => rfl
  | [.began], _ => exact Polling.messages_cons_silent rfl
  | [.message d .rpdo m], _ =>
      exact Polling.messages_cons_silent (Polling.deed_message_of_ne (by decide))
  | [.message d .emcy m], _ =>
      refine Polling.messages_cons_of_ne ?_
      rintro rfl
      exact hcalled m rfl

theorem step_cases (hs : Polling.WellPlaced (fun _ => true) s.polling.pc)
    (hstep : step info id s i = some (s', es)) : Stepped s id s' es := by
  cases i with
  | hardware i =>
      simp only [step] at hstep
      split at hstep
      · rename_i hforeign
        obtain ⟨⟨hw, es'⟩, hhw, heq⟩ := Option.map_eq_some_iff.mp hstep
        obtain ⟨rfl, rfl⟩ := Prod.mk.inj heq
        exact .hardware rfl (CanopenSystem.emcyData_step hforeign hhw)
      · cases hstep
  | poll i past raw =>
      simp only [step] at hstep
      split at hstep
      · cases hstep
      · obtain ⟨⟨polling, es'⟩, hpoll, heq⟩ := Option.bind_eq_some_iff.mp hstep
        have hlen : es'.length ≤ 1 := by
          cases Polling.step_cases hs hpoll <;> simp
        simp only at heq
        split at heq
        · rename_i hcalled
          obtain ⟨rfl, rfl⟩ := Prod.mk.inj (Option.some.inj heq)
          refine .poll hpoll (messages_of_called hlen ?_) rfl
          rintro e rfl
          simp [called] at hcalled
        · rename_i call hcalled
          obtain ⟨⟨hw, es''⟩, hhw, heq⟩ := Option.map_eq_some_iff.mp heq
          obtain ⟨rfl, rfl⟩ := Prod.mk.inj heq
          match es', hcalled with
          | [.message .handed .emcy e], rfl =>
              obtain ⟨t, ht, hdata⟩ :=
                CanopenSystem.step_emcy info s.hardware id e past
              obtain rfl : t = hw := by
                rw [hhw] at ht
                exact (Prod.mk.inj (Option.some.inj ht)).1.symm
              exact .store e past hpoll hdata
          | [.message .handed .rpdo d], rfl =>
              refine .poll hpoll (messages_of_called hlen ?_)
                (CanopenSystem.emcyData_step rfl hhw)
              intro e heq
              cases heq

/-- The interfaces hold the copies from the last frame, and every frame has been copied from. -/
structure Stores (id : BitVec 8) (h : List EmergencyEvent) (s : EmergencyPath) : Prop where
  polling : Reach (Polling.system DriverMessage fun _ => true) Guard.free
    (h.filterMap EmergencyEvent.polled?) s.polling
  frames : (delivered h).map Prod.fst =
    Polling.messages .handed .emcy (h.filterMap EmergencyEvent.polled?)
  data : (s.hardware.canopenData id.toNat).emcyData =
    match (delivered h).head? with
    | none => {}
    | some p => .setEmcy p.1 p.2
  copies : ∀ offset n, EmergencyEvent.copied offset n ∈ h ↔
    delivered h ≠ [] ∧ ∃ x : EmcyInterface, x.copy = (offset, n)

@[simp] theorem delivered_polled (es : List (PollingEvent DriverMessage)) :
    delivered (es.map .polled ++ h) = delivered h := by
  rw [delivered, List.filterMap_append, List.filterMap_map]
  have hnone : es.filterMap (EmergencyEvent.stored? ∘ EmergencyEvent.polled) = [] :=
    List.filterMap_eq_nil_iff.mpr fun _ _ => rfl
  rw [hnone]
  rfl

@[simp] theorem polled_polled (es : List (PollingEvent DriverMessage)) :
    (es.map EmergencyEvent.polled ++ h).filterMap EmergencyEvent.polled? =
      es ++ h.filterMap EmergencyEvent.polled? := by
  rw [List.filterMap_append, List.filterMap_map]
  congr 1
  exact List.filterMap_some

theorem delivered_reads (e : COEmcy) (past : BitVec 8) :
    delivered (reads (.emcy id e past) ++ h) = (e, past) :: delivered h := rfl

theorem polled_reads (e : COEmcy) (past : BitVec 8) :
    (reads (.emcy id e past) ++ h).filterMap EmergencyEvent.polled? =
      h.filterMap EmergencyEvent.polled? := rfl

theorem copied_mem_reads (e : COEmcy) (past : BitVec 8) {offset n : ℕ} :
    EmergencyEvent.copied offset n ∈ reads (.emcy id e past) ↔
      ∃ x : EmcyInterface, x.copy = (offset, n) := by
  simp only [reads, List.mem_cons, reduceCtorEq, false_or, List.mem_reverse, List.mem_map,
    EmergencyEvent.copied.injEq]
  constructor
  · rintro ⟨x, -, hoffset, hn⟩
    exact ⟨x, Prod.ext hoffset hn⟩
  · rintro ⟨x, hx⟩
    exact ⟨x, x.mem_all, by rw [hx], by rw [hx]⟩

theorem Stores.step (hs : Stores id h s) (hstep : step info id s i = some (s', es)) :
    Stores id (es ++ h) s' := by
  cases step_cases (Polling.wellPlaced_of_reach hs.polling) hstep with
  | store e past hpoll hdata =>
      rw [List.append_assoc]
      have hpolled := polled_polled (h := h) [.message .handed .emcy e]
      have hdelivered := delivered_polled (h := h) [.message .handed .emcy e]
      simp only [List.map_cons, List.map_nil] at hpolled hdelivered
      refine ⟨?_, ?_, ?_, ?_⟩
      · rw [polled_reads, hpolled]
        exact .step hs.polling trivial hpoll
      · rw [delivered_reads, polled_reads, hpolled, hdelivered, List.map_cons, hs.frames]
        exact (Polling.messages_cons_self (M := DriverMessage) (k := .emcy)).symm
      · rw [delivered_reads]
        exact hdata
      · intro offset n
        rw [List.mem_append, copied_mem_reads, delivered_reads]
        constructor
        · rintro (hx | hold)
          · exact ⟨by simp, hx⟩
          · have hmem : EmergencyEvent.copied offset n ∈ h := by simpa using hold
            exact ⟨by simp, ((hs.copies offset n).mp hmem).2⟩
        · rintro ⟨-, hx⟩
          exact .inl hx
  | @poll i es hpoll hes hdata =>
      refine ⟨?_, ?_, ?_, ?_⟩
      · rw [polled_polled]
        exact .step hs.polling trivial hpoll
      · rw [delivered_polled, polled_polled, hes]
        exact hs.frames
      · rw [delivered_polled, hdata]
        exact hs.data
      · intro offset n
        rw [delivered_polled, ← hs.copies offset n]
        simp
  | hardware hpolling hdata =>
      refine ⟨?_, hs.frames, ?_, hs.copies⟩
      · rw [hpolling]
        exact hs.polling
      · rw [hdata]
        exact hs.data

theorem stores_of_reach (hr : Reach (system info id) Guard.free h s) : Stores id h s := by
  refine hr.invariant (I := Stores id) ?_ ?_
  · intro s hinit
    refine ⟨.init hinit.1, rfl, ?_, by simp [delivered]⟩
    rw [hinit.2]
    rfl
  · intro h s i s' es hs _ hstep
    exact hs.step hstep

end Steps

/-- **The frames come as they were queued, and are not stored as they came.**  Delivered are
the frames queued first, in their order; with the first of them a byte behind it is read, and
the interfaces hold the last when all of it behind its first manufacturer byte is zero. -/
theorem unchanged_iff_none_delivered (info : HardwareInfo) (id : BitVec 8)
    {h : List EmergencyEvent} {s : EmergencyPath} (hr : Reach (system info id) Guard.free h s) :
    (delivered h).map Prod.fst <:+ queued h ∧
      (Unchanged id h s ↔ delivered h = []) ∧
      (HoldsLast id h s ↔ ∀ p, (delivered h).head? = some p →
        (∀ i : Fin 5, i ≠ 0 → p.1.msef i = 0) ∧ p.2 = 0) := by
  have hs := stores_of_reach hr
  refine ⟨?_, ?_, ?_⟩
  · rw [hs.frames]
    obtain ⟨done, ha⟩ := Polling.accounts_of_reach hs.polling .emcy
    exact ha.handed_suffix
  · constructor
    · intro hunchanged
      by_contra hne
      have hread := (hs.copies 7 2).mpr ⟨hne, .manufacturerErrorCode 4, rfl⟩
      exact absurd (hunchanged.2 7 2 hread) (by decide)
    · intro hnone
      refine ⟨?_, ?_⟩
      · intro p hp
        simp [hnone] at hp
      · intro offset n hread
        exact absurd hnone ((hs.copies offset n).mp hread).1
  · have hdata := hs.data
    cases hlast : (delivered h).head? with
    | none => simp [HoldsLast, hlast]
    | some p =>
        rw [hlast] at hdata
        simp only [HoldsLast, hlast, Option.some.injEq, forall_eq', stateInterface, hdata]
        exact value_setEmcy_eq_carried

/-- A driver gets a frame and its callback hands it over. -/
theorem exists_delivered (e : COEmcy) (past : BitVec 8) :
    ∃ h s, Reach (system ⟨[5], []⟩ 5) Guard.free h s ∧ delivered h = [(e, past)] := by
  have hr := (system ⟨[5], []⟩ 5).reach_run
    [.poll (.push .emcy e) 0 .nan, .poll .begin 0 .nan, .poll (.go false) 0 .nan,
      .poll (.go false) past .nan]
    (s := ⟨⟨fun _ => [], none⟩,
      CanopenSystem.initDeviceContainer ⟨[5], []⟩ (Hardware.exported ⟨[5], []⟩)⟩)
    (.init ⟨rfl, rfl⟩) rfl
  exact ⟨_, _, hr, rfl⟩

/-- Of a frame of zeros the interfaces hold what it carries, with a byte read behind it. -/
theorem zeros_unchanged :
    ∃ h s, Reach (system ⟨[5], []⟩ 5) Guard.free h s ∧ HoldsLast 5 h s ∧ ¬Unchanged 5 h s := by
  obtain ⟨h, s, hr, hdelivered⟩ := exists_delivered ⟨0x1000, 1, fun _ => 0⟩ 0
  have hiff := (unchanged_iff_none_delivered ⟨[5], []⟩ 5 hr).2
  refine ⟨h, s, hr, hiff.2.mpr ?_, ?_⟩
  · intro p hp
    obtain rfl : (⟨0x1000, 1, fun _ => 0⟩, 0) = p := by simpa [hdelivered] using hp
    exact ⟨fun _ _ => rfl, rfl⟩
  · rw [hiff.1, hdelivered]
    simp

/-- A frame with the manufacturer bytes 1, …, 5: the first interface is 513. -/
theorem manufacturer_bytes_mixed :
    ∃ h s, Reach (system ⟨[5], []⟩ 5) Guard.free h s ∧ ¬Unchanged 5 h s ∧
      delivered h = [(⟨0x1000, 1, fun i => BitVec.ofNat 8 (i.val + 1)⟩, 7)] ∧
      s.stateInterface 5 (.manufacturerErrorCode 0) = .fin 513 := by
  obtain ⟨h, s, hr, hdelivered⟩ :=
    exists_delivered ⟨0x1000, 1, fun i => BitVec.ofNat 8 (i.val + 1)⟩ 7
  have hdata := (stores_of_reach hr).data
  have hvalue : s.stateInterface 5 (.manufacturerErrorCode 0) = .fin 513 := by
    rw [hdelivered] at hdata
    rw [stateInterface, hdata]
    rfl
  refine ⟨h, s, hr, ?_, hdelivered, hvalue⟩
  intro hunchanged
  have hholds := hunchanged.1 _ (by rw [hdelivered]; rfl) (.manufacturerErrorCode 0)
  rw [hvalue] at hholds
  exact absurd hholds (by decide)

end EmergencyPath
end RosCanopen.Ros2Control
