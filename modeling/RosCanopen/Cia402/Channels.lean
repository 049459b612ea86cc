import RosCanopen.Cia402.ModeStep

/-!
# The channels of a multi-axis device

Each channel has a motor of its own, and all motors share one object dictionary of
16-bit indices.  A motor reaches an object by its index for channel 0 plus
`channel * 0x800`, which is kept in 16 bits: from channel 20 on the sum wraps around, and
channel 32 is at the objects of channel 0.

## Main definitions

* `offsetOfChannel` — `channel_offset_` as the constructor computes it.
* `Motor.reads` — the objects that a program point reads.
* `Device`, `Device.system` — a device with its motors, in any order of their steps.
* `Windowed`, `ChannelsApart` — the channels keep to their windows, and do not interfere.
-/

namespace RosCanopen.Cia402

open Lib

/-- `channel * 0x800`, as it is stored in 16 bits. -/
def offsetOfChannel (channel : BitVec 8) : BitVec 16 := channel.setWidth 16 * 0x800

/-! ## The objects that a motor uses -/

/-- The object dictionary: the value at an index and a sub-index. -/
abbrev Objects := BitVec 16 → BitVec 8 → BitVec 32

namespace Objects

/-- Write one object. -/
def set (objects : Objects) (index : BitVec 16) (sub : BitVec 8) (value : BitVec 32) : Objects :=
  fun i j => if i = index ∧ j = sub then value else objects i j

/-- What a motor has written. -/
def write (e : MotorEvent) (objects : Objects) : Objects :=
  match e with
  | .target _ index sub value => objects.set index sub (BitVec.ofInt 32 value)
  | .controlWord index cw => objects.set index 0 (cw.setWidth 32)
  | .opMode index mode => objects.set index 0 (mode.setWidth 32)
  | _ => objects

end Objects

/-- The object that the motor has written. -/
def MotorEvent.index : MotorEvent → Option (BitVec 16)
  | .target _ index _ _ => some index
  | .controlWord index _ => some index
  | .opMode index _ => some index
  | _ => none

namespace Motor

/-- The objects that a program point reads, all at sub-index 0. -/
def reads (m : Motor) : Code → List (BitVec 16)
  | .readStatus => [m.channelIndex 0x6041]
  | .readMode _ => [m.channelIndex 0x6061]
  | .modeEnter mode => if mode = ModeId.noMode then [] else [m.channelIndex 0x6502]
  | .initAlloc (_ :: _) => [m.channelIndex 0x6502]
  | .initHoming => [m.channelIndex 0x6502]
  | .homingMethod => [m.channelIndex 0x6098]
  | _ => []

end Motor

/-- The environment of a step, as far as the object dictionary decides it. -/
def Env.ofObjects (env : Env) (m : Motor) (objects : Objects) : Env :=
  { env with
    statusWord := (objects (m.channelIndex 0x6041) 0).setWidth 16
    modeDisplay := (objects (m.channelIndex 0x6061) 0).setWidth 8
    supportedModes := objects (m.channelIndex 0x6502) 0
    homingMethod := (objects (m.channelIndex 0x6098) 0).setWidth 8 }

/-! ## The device -/

/-- `get_effort`, `get_speed` and `get_position`. -/
inductive Getter
  | effort
  | speed
  | position
  deriving DecidableEq

def Getter.base : Getter → BitVec 16
  | .effort => 0x6077
  | .speed => 0x606C
  | .position => 0x6064

structure Device where
  objects : Objects
  channels : BitVec 8 → MotorSystem

inductive DeviceStep
  /-- A thread of a channel's motor. -/
  | motor (channel : BitVec 8) (step : MotorStep)
  | measure (channel : BitVec 8) (getter : Getter)
  /-- The drive changes an object on its own. -/
  | change (index : BitVec 16) (sub : BitVec 8) (value : BitVec 32)

inductive DeviceEvent
  | read (channel : BitVec 8) (index : BitVec 16)
  | motor (channel : BitVec 8) (e : MotorEvent)
  | measured (channel : BitVec 8) (index : BitVec 16) (value : BitVec 32)

/-- The step is one of the channel's. -/
def DeviceStep.isOf (c : BitVec 8) : DeviceStep → Bool
  | .motor channel _ => channel = c
  | .measure channel _ => channel = c
  | .change _ _ _ => false

namespace DeviceEvent

def channel : DeviceEvent → BitVec 8
  | .read channel _ => channel
  | .motor channel _ => channel
  | .measured channel _ _ => channel

/-- The object that has been read or written. -/
def index : DeviceEvent → Option (BitVec 16)
  | .read _ index => some index
  | .motor _ e => e.index
  | .measured _ index _ => some index

end DeviceEvent

namespace MotorSystem

/-- The objects that the step of a thread reads. -/
def reads (s : MotorSystem) : MotorStep → List (BitVec 16)
  | .enter _ _ => []
  | .go i _ =>
      match s.threads i with
      | some t => s.motor.reads t.code
      | none => []

/-- The step, with what it finds in the object dictionary. -/
def finds (s : MotorSystem) (objects : Objects) : MotorStep → MotorStep
  | .enter i call => .enter i call
  | .go i env => .go i (env.ofObjects s.motor objects)

end MotorSystem

namespace Device

/-- One step; `numChannels` is `num_channels_`. -/
def step (numChannels : BitVec 8) (d : Device) : DeviceStep → Option (Device × List DeviceEvent)
  | .motor c step =>
      if c < numChannels then
        let s := d.channels c
        (s.step (s.finds d.objects step)).map fun (s', es) =>
          (⟨es.foldr Objects.write d.objects, Function.update d.channels c s'⟩,
            es.map (.motor c) ++ (s.reads step).map (.read c))
      else none
  | .measure c getter =>
      if c < numChannels then
        let index := (d.channels c).motor.channelIndex getter.base
        some (d, [.measured c index (d.objects index 0)])
      else none
  | .change index sub value => some ({ d with objects := d.objects.set index sub value }, [])

/-- The motors of all channels have just been constructed. -/
def Started (numChannels : BitVec 8) (d : Device) : Prop :=
  ∀ c < numChannels, (d.channels c).Constructed ∧
    (d.channels c).motor.channelOffset = offsetOfChannel c

/-- The device from the construction of its motors. -/
def system (numChannels : BitVec 8) : System Device DeviceStep DeviceEvent where
  init := Started numChannels
  step := step numChannels

end Device

/-- The index lies in the channel's window of the object dictionary. -/
def Windowed (c : BitVec 8) (index : BitVec 16) : Prop :=
  0x6000 + 0x800 * c.toNat ≤ index.toNat ∧ index.toNat ≤ 0x67FF + 0x800 * c.toNat

instance (c : BitVec 8) (index : BitVec 16) : Decidable (Windowed c index) :=
  inferInstanceAs (Decidable (_ ∧ _))

/-- The channels do not interfere: each keeps to its window, and without its steps every run
is the same for the other channels, and for all objects outside its window. -/
structure ChannelsApart (numChannels : BitVec 8) : Prop where
  keeps : ∀ h d, Reach (Device.system numChannels) Guard.free h d → ∀ e ∈ h, ∀ index,
    e.index = some index → Windowed e.channel index
  apart : ∀ c < numChannels, ∀ steps d h' d', d.Started numChannels →
    (Device.system numChannels).run steps [] d = some (h', d') →
      ∃ d'', (Device.system numChannels).run (steps.filter fun i => !i.isOf c) [] d =
        some (h'.filter (fun e => !decide (e.channel = c)), d'') ∧
          (∀ c' ≠ c, d''.channels c' = d'.channels c') ∧
          ∀ index sub, ¬ Windowed c index → d''.objects index sub = d'.objects index sub

/-! ## The environment of a step is what it reads -/

section Reads
variable {m : Motor} {objects objects' : Objects} {code : Code}

/-- **A step depends on no object but those it reads.** -/
theorem exec_congr (env : Env) (h : ∀ index ∈ m.reads code, objects index 0 = objects' index 0) :
    m.exec (env.ofObjects m objects) code = m.exec (env.ofObjects m objects') code := by
  cases code with
  | readStatus =>
      have hread := h (m.channelIndex 0x6041) (List.mem_singleton_self _)
      simp only [Motor.exec, Env.ofObjects, hread]
      rfl
  | readMode sw =>
      have hread := h (m.channelIndex 0x6061) (List.mem_singleton_self _)
      simp only [Motor.exec, Env.ofObjects, hread]
      rfl
  | modeEnter mode =>
      by_cases hmode : mode = ModeId.noMode
      · simp only [Motor.exec, if_pos hmode, Env.ofObjects]
        rfl
      · have hreads : m.reads (.modeEnter mode) = [m.channelIndex 0x6502] := if_neg hmode
        rw [hreads] at h
        have hread := h (m.channelIndex 0x6502) (List.mem_singleton_self _)
        simp only [Motor.exec, if_neg hmode, Env.ofObjects, hread]
        rfl
  | initAlloc todo =>
      cases todo with
      | nil => rfl
      | cons id todo =>
          have hread := h (m.channelIndex 0x6502) (List.mem_singleton_self _)
          simp only [Motor.exec, Env.ofObjects, hread]
          rfl
  | initHoming =>
      have hread := h (m.channelIndex 0x6502) (List.mem_singleton_self _)
      simp only [Motor.exec, Env.ofObjects, hread]
      rfl
  | homingMethod =>
      have hread := h (m.channelIndex 0x6098) (List.mem_singleton_self _)
      simp only [Motor.exec, Env.ofObjects, hread]
      rfl
  | _ => rfl

end Reads

/-! ## The indices that a motor forms -/

/-- The index lies in the profile area of channel 0. -/
def Profiled (index : BitVec 16) : Prop := 0x6000 ≤ index.toNat ∧ index.toNat ≤ 0x67FF

instance (index : BitVec 16) : Decidable (Profiled index) :=
  inferInstanceAs (Decidable (_ ∧ _))

theorem Getter.profiled (getter : Getter) : Profiled getter.base := by
  cases getter <;> decide

/-- The target object of the mode lies there. -/
def Mode.Profiled : Mode → Prop
  | .forward spec _ => RosCanopen.Cia402.Profiled spec.obj
  | _ => True

/-- The target objects of all modes of the motor do. -/
def Motor.Profiled (m : Motor) : Prop := ∀ id mode, m.modes id = some mode → mode.Profiled

theorem Mode.profiled_fresh {id : ModeId} {raw : Raw} {mode : Mode}
    (h : fresh id raw = some mode) : mode.Profiled := by
  rw [fresh] at h
  split at h <;> first | contradiction | (cases h; trivial)

theorem Mode.profiled_write (channelOffset : BitVec 16) {mode : Mode} (cw : Word) (ok : Bool)
    (h : mode.Profiled) : (mode.write channelOffset cw ok).mode.Profiled ∧
      ∀ index sub value, (mode.write channelOffset cw ok).target = some (index, sub, value) →
        ∃ base, RosCanopen.Cia402.Profiled base ∧ index = base + channelOffset := by
  cases mode with
  | forward spec helper =>
      simp only [write, writeForward]
      split
      · split
        · refine ⟨h, fun index sub value heq => ⟨spec.obj, h, ?_⟩⟩
          exact (Prod.mk.inj (Option.some.inj heq)).1.symm
        · exact ⟨h, fun _ _ _ heq => by contradiction⟩
      · exact ⟨h, fun _ _ _ heq => by contradiction⟩
  | profiledPosition helper lastTarget sw =>
      simp only [write, writeProfiledPosition]
      repeat' split
      all_goals refine ⟨trivial, fun index sub value heq => ?_⟩
      all_goals first
        | contradiction
        | exact ⟨0x607A, by decide, (Prod.mk.inj (Option.some.inj heq)).1.symm⟩
  | homing execute status =>
      simp only [write, writeHoming]
      split <;> exact ⟨trivial, fun _ _ _ heq => by contradiction⟩

section Exec
variable {m m' : Motor} {env : Env} {code : Code} {next : Next} {es : List MotorEvent}
  {e : MotorEvent} {index : BitVec 16}

theorem profiled_of_effect (hm : m.Profiled) (heffect : Effect m env code m' next es) :
    m'.Profiled := by
  intro id mode hmode
  have htouched := touched_of_effect id heffect
  rw [hmode] at htouched
  have hold := hm id
  generalize m.modes id = o at htouched hold
  cases htouched with
  | kept => exact hold mode rfl
  | read old sw =>
      have hkind := hold old rfl
      cases old <;> exact hkind
  | wrote old channelOffset cw ok => exact (Mode.profiled_write _ _ _ (hold old rfl)).1
  | started old =>
      have hkind := hold old rfl
      cases old <;> exact hkind
  | targeted old val =>
      have hkind := hold old rfl
      cases old <;> exact hkind
  | allocated raw hfresh => exact Mode.profiled_fresh hfresh
  | executed => trivial
  | withdrawn => trivial

theorem channelOffset_of_effect (heffect : Effect m env code m' next es) :
    m'.channelOffset = m.channelOffset := by
  cases heffect with
  | displayed sw mode =>
      obtain ⟨modes, heq⟩ := readSelected_motor m mode sw
      rw [heq]
  | wrote =>
      obtain ⟨modes, cw, reset, heq⟩ := handleWrite_motor m env
      rw [heq]
  | targeted val =>
      obtain ⟨modes, heq⟩ := setSelectedTarget_motor m val
      rw [heq]
  | started mode =>
      obtain ⟨modes, heq⟩ := startMode_motor m mode
      rw [heq]
  | _ => rfl

/-- `handleWrite` writes the control word and the target object of the mode. -/
theorem index_of_handleWrite (hm : m.Profiled) (he : e ∈ (m.handleWrite env).2.2)
    (hindex : e.index = some index) : ∃ base, Profiled base ∧ index = base + m.channelOffset := by
  obtain ⟨m', w, hw, heq⟩ := exists_wrote m env
  rw [heq] at he
  have hoffset : m'.channelOffset = m.channelOffset := by
    cases hw <;> rfl
  rcases mem_finishWrite he with rfl | ⟨id, r, rfl, htarget⟩
  · refine ⟨0x6040, by decide, ?_⟩
    rw [← hoffset]
    exact (Option.some.inj hindex).symm
  · obtain ⟨index', sub, value, hr, rfl⟩ := mem_targetEvent htarget
    obtain rfl := Option.some.inj hindex
    cases hw with
    | @asked _ mode _ _ _ hactive hmode =>
        have hprofiled := hm id mode (activeMode_eq_some hactive).2.2
        rw [hmode] at hr
        exact (Mode.profiled_write _ _ _ hprofiled).2 _ _ _ hr

/-- The operation mode is written where it is switched. -/
theorem eq_opModeEvent (h : m.exec env code = some (m', next, es)) (he : e ∈ es)
    (hopMode : e.isOpMode = true) : ∃ mode, e = m.opModeEvent mode := by
  have hnone : ∀ {e' : MotorEvent}, e ∈ [e'] → e'.isOpMode = false →
      ∃ mode, e = m.opModeEvent mode := by
    intro e' hmem hnot
    rw [List.mem_singleton.mp hmem, hnot] at hopMode
    contradiction
  have hwait : ∀ {timedOut ready go}, m.homingWait timedOut ready go = some (m', next, es) →
      (go.2.2 = [] ∨ ∃ e', go.2.2 = [e'] ∧ e'.isOpMode = false) →
        ∃ mode, e = m.opModeEvent mode := by
    rintro timedOut ready go hgo hes
    rcases homingWait_eq_some hgo with herror | rfl
    · cases herror
      exact hnone he rfl
    · rcases hes with hnil | ⟨e', hone, hnot⟩
      · obtain rfl : es = [] := hnil
        exact absurd he List.not_mem_nil
      · obtain rfl : es = [e'] := hone
        exact hnone he hnot
  cases code with
  | modeEnter mode =>
      simp only [Motor.exec] at h
      split at h
      · obtain ⟨-, -, rfl⟩ := step_inj h
        split at he
        · exact ⟨mode, List.mem_singleton.mp he⟩
        · contradiction
      · split at h
        · split at h <;> obtain ⟨-, -, rfl⟩ := step_inj h <;> contradiction
        · obtain ⟨-, -, rfl⟩ := step_inj h
          contradiction
  | opModeWrite mode =>
      simp only [Motor.exec] at h
      split at h <;> obtain ⟨-, -, rfl⟩ := step_inj h
      · exact ⟨mode, List.mem_singleton.mp he⟩
      · contradiction
  | modeWait mode =>
      simp only [Motor.exec] at h
      repeat' split at h
      all_goals first | contradiction | obtain ⟨-, -, rfl⟩ := step_inj h
      · contradiction
      · exact ⟨_, List.mem_singleton.mp he⟩
      · contradiction
  | readDecode sw =>
      obtain ⟨-, -, rfl⟩ := step_inj h
      exact hnone he rfl
  | readMode sw =>
      simp only [Motor.exec] at h
      split at h <;> obtain ⟨-, -, rfl⟩ := step_inj h
      · exact hnone he rfl
      · contradiction
  | write =>
      obtain ⟨-, -, rfl⟩ := step_inj h
      have hwrites := writes_of_mem he
      cases e <;> contradiction
  | targetSet val =>
      obtain ⟨-, -, rfl⟩ := step_inj h
      obtain ⟨id, rfl⟩ := eq_accepted_of_mem he
      contradiction
  | modeStart mode =>
      obtain ⟨-, -, rfl⟩ := step_inj h
      rw [eq_started_of_mem he] at hopMode
      contradiction
  | homingPrepare => exact hwait h (.inr ⟨_, rfl, rfl⟩)
  | homingStart => exact hwait h (.inl rfl)
  | homingAttain => exact hwait h (.inl rfl)
  | homingStop =>
      refine hwait h (.inr ?_)
      split <;> exact ⟨_, rfl, rfl⟩
  | initAlloc todo =>
      cases todo <;> simp only [Motor.exec] at h <;> (try split at h) <;>
        obtain ⟨-, -, rfl⟩ := step_inj h <;> exact absurd he List.not_mem_nil
  | recoverRestart =>
      simp only [Motor.exec] at h
      split at h <;> obtain ⟨-, -, rfl⟩ := step_inj h
      · rw [eq_started_of_mem he] at hopMode
        contradiction
      · exact absurd he List.not_mem_nil
  | _ =>
      simp only [Motor.exec] at h
      repeat' split at h
      all_goals first
        | contradiction
        | (obtain ⟨-, -, rfl⟩ := step_inj h
           exact absurd he List.not_mem_nil)

/-- **Every object that a program point writes** lies in the profile area, at the motor's
offset. -/
theorem index_of_exec (hm : m.Profiled) (h : m.exec env code = some (m', next, es)) (he : e ∈ es)
    (hindex : e.index = some index) : ∃ base, Profiled base ∧ index = base + m.channelOffset := by
  have heffect := effect_of_exec h
  cases e with
  | controlWord _ _ =>
      exact index_of_handleWrite hm ((reports_of_effect heffect he).2 rfl).2 hindex
  | target _ _ _ _ =>
      exact index_of_handleWrite hm ((reports_of_effect heffect he).2 rfl).2 hindex
  | opMode _ _ =>
      obtain ⟨mode, heq⟩ := eq_opModeEvent h he rfl
      rw [heq] at hindex
      exact ⟨0x6060, by decide, (Option.some.inj hindex).symm⟩
  | _ => contradiction

/-- Every object that a program point reads does, too. -/
theorem index_of_reads (h : index ∈ m.reads code) :
    ∃ base, Profiled base ∧ index = base + m.channelOffset := by
  cases code with
  | readStatus => exact ⟨0x6041, by decide, List.mem_singleton.mp h⟩
  | readMode sw => exact ⟨0x6061, by decide, List.mem_singleton.mp h⟩
  | modeEnter mode =>
      by_cases hmode : mode = ModeId.noMode
      · have hreads : m.reads (.modeEnter mode) = [] := if_pos hmode
        rw [hreads] at h
        exact absurd h List.not_mem_nil
      · have hreads : m.reads (.modeEnter mode) = [m.channelIndex 0x6502] := if_neg hmode
        rw [hreads] at h
        exact ⟨0x6502, by decide, List.mem_singleton.mp h⟩
  | initAlloc todo =>
      cases todo with
      | nil => exact absurd h List.not_mem_nil
      | cons id todo => exact ⟨0x6502, by decide, List.mem_singleton.mp h⟩
  | initHoming => exact ⟨0x6502, by decide, List.mem_singleton.mp h⟩
  | homingMethod => exact ⟨0x6098, by decide, List.mem_singleton.mp h⟩
  | _ => exact absurd h List.not_mem_nil

end Exec

/-! ## Windows -/

section Windows
variable {c c' : BitVec 8} {base index : BitVec 16}

theorem toNat_offsetOfChannel (c : BitVec 8) :
    (offsetOfChannel c).toNat = c.toNat * 0x800 % 2 ^ 16 := by
  have hc := c.isLt
  rw [offsetOfChannel, BitVec.toNat_mul, BitVec.toNat_setWidth]
  have hsmall : c.toNat % 2 ^ 16 = c.toNat := Nat.mod_eq_of_lt (by omega)
  rw [hsmall]
  rfl

/-- **Up to channel 19 nothing wraps around.** -/
theorem windowed_add (hc : c.toNat ≤ 19) (hbase : Profiled base) :
    Windowed c (base + offsetOfChannel c) := by
  obtain ⟨hlow, hhigh⟩ := hbase
  have hoffset := toNat_offsetOfChannel c
  rw [Windowed, BitVec.toNat_add, hoffset]
  omega

/-- No index lies in two windows. -/
theorem eq_of_windowed (h : Windowed c index) (h' : Windowed c' index) : c = c' := by
  obtain ⟨hlow, hhigh⟩ := h
  obtain ⟨hlow', hhigh'⟩ := h'
  refine BitVec.eq_of_toNat_eq ?_
  omega

end Windows

/-! ## Steps of the device -/

/-- The motor is that of the channel, and its modes are of the profile. -/
structure Motor.OfChannel (c : BitVec 8) (m : Motor) : Prop where
  offset : m.channelOffset = offsetOfChannel c
  profiled : m.Profiled

theorem ofChannel_of_stepped {c : BitVec 8} {s s' : MotorSystem} {step : MotorStep}
    {es : List MotorEvent} (hs : s.motor.OfChannel c) (hstep : Stepped s step s' es) :
    s'.motor.OfChannel c := by
  cases hstep with
  | enters => exact hs
  | goes ht hexec =>
      have heffect := effect_of_exec hexec
      exact ⟨(channelOffset_of_effect heffect).trans hs.offset,
        profiled_of_effect hs.profiled heffect⟩

/-- Every object that a step writes. -/
theorem index_of_stepped {s s' : MotorSystem} {step : MotorStep} {es : List MotorEvent}
    (hs : s.motor.Profiled) (hstep : Stepped s step s' es) {e : MotorEvent} (he : e ∈ es)
    {index : BitVec 16} (hindex : e.index = some index) :
    ∃ base, Profiled base ∧ index = base + s.motor.channelOffset := by
  cases hstep with
  | enters =>
      rw [List.mem_singleton.mp he] at hindex
      contradiction
  | goes ht hexec =>
      rcases List.mem_append.mp he with he | he
      · rcases reports_of_after he with ⟨ok, rfl⟩ | rfl <;> contradiction
      · exact index_of_exec hs hexec he hindex

theorem index_of_reads_step {s : MotorSystem} {step : MotorStep} {index : BitVec 16}
    (h : index ∈ s.reads step) : ∃ base, Profiled base ∧ index = base + s.motor.channelOffset := by
  cases step with
  | enter i call => exact absurd h List.not_mem_nil
  | go i env =>
      rw [MotorSystem.reads] at h
      split at h
      · exact index_of_reads h
      · exact absurd h List.not_mem_nil

namespace Device
variable {n : BitVec 8} {d d' : Device} {i : DeviceStep} {es : List DeviceEvent}

/-- The motors of the channels are those of their channels. -/
def Own (n : BitVec 8) (d : Device) : Prop := ∀ c < n, (d.channels c).motor.OfChannel c

theorem own_of_started (h : d.Started n) : Own n d := by
  intro c hc
  obtain ⟨⟨-, hmodes, -⟩, hoffset⟩ := h c hc
  exact ⟨hoffset, fun id mode hmode => by simp [hmodes] at hmode⟩

/-- What a step of a channel's motor is made of. -/
theorem step_motor {c : BitVec 8} {step : MotorStep}
    (h : (system n).step d (.motor c step) = some (d', es)) : c < n ∧ ∃ s' es',
      (d.channels c).step ((d.channels c).finds d.objects step) = some (s', es') ∧
        d' = ⟨es'.foldr Objects.write d.objects, Function.update d.channels c s'⟩ ∧
        es = es'.map (.motor c) ++ ((d.channels c).reads step).map (.read c) := by
  simp only [system, Device.step] at h
  split at h
  · next hc =>
      obtain ⟨⟨s', es'⟩, hstep, heq⟩ := Option.map_eq_some_iff.mp h
      obtain ⟨rfl, rfl⟩ := Prod.mk.inj heq
      exact ⟨hc, s', es', hstep, rfl, rfl⟩
  · contradiction

theorem own_of_step (hd : Own n d) (h : (system n).step d i = some (d', es)) : Own n d' := by
  cases i with
  | motor c step =>
      obtain ⟨hc, s', es', hstep, rfl, -⟩ := step_motor h
      intro c' hc'
      by_cases heq : c' = c
      · subst heq
        simpa using ofChannel_of_stepped (hd c' hc') (stepped_of_step hstep)
      · simpa [heq] using hd c' hc'
  | measure c getter =>
      simp only [system, Device.step] at h
      split at h
      · obtain ⟨rfl, -⟩ := Prod.mk.inj (Option.some.inj h)
        exact hd
      · contradiction
  | change index sub value =>
      obtain ⟨rfl, -⟩ := Prod.mk.inj (Option.some.inj h)
      exact hd

/-- The objects of a step of channel `c` lie in its window, up to channel 19. -/
theorem windowed_of_step (hd : Own n d) (hn : n.toNat ≤ 20)
    (h : (system n).step d i = some (d', es)) {e : DeviceEvent} (he : e ∈ es) {index : BitVec 16}
    (hindex : e.index = some index) : Windowed e.channel index := by
  have hlast : ∀ c < n, c.toNat ≤ 19 := by
    intro c hc
    have hlt : c.toNat < n.toNat := hc
    omega
  cases i with
  | motor c step =>
      obtain ⟨hc, s', es', hstep, -, rfl⟩ := step_motor h
      have hwindow : ∀ base, Profiled base →
          Windowed c (base + (d.channels c).motor.channelOffset) := by
        intro base hbase
        rw [(hd c hc).offset]
        exact windowed_add (hlast c hc) hbase
      rcases List.mem_append.mp he with he | he
      · obtain ⟨e', he', rfl⟩ := List.mem_map.mp he
        obtain ⟨base, hbase, rfl⟩ :=
          index_of_stepped (hd c hc).profiled (stepped_of_step hstep) he' hindex
        exact hwindow base hbase
      · obtain ⟨index', hread, rfl⟩ := List.mem_map.mp he
        obtain rfl := Option.some.inj hindex
        obtain ⟨base, hbase, rfl⟩ := index_of_reads_step hread
        exact hwindow base hbase
  | measure c getter =>
      simp only [system, Device.step] at h
      split at h
      · next hc =>
          obtain ⟨-, rfl⟩ := Prod.mk.inj (Option.some.inj h)
          obtain rfl := List.mem_singleton.mp he
          obtain rfl := Option.some.inj hindex
          show Windowed c (getter.base + (d.channels c).motor.channelOffset)
          rw [(hd c hc).offset]
          exact windowed_add (hlast c hc) getter.profiled
      · contradiction
  | change index sub value =>
      obtain ⟨-, rfl⟩ := Prod.mk.inj (Option.some.inj h)
      contradiction

theorem channel_of_step (h : (system n).step d i = some (d', es)) {e : DeviceEvent} (he : e ∈ es)
    (c : BitVec 8) : decide (e.channel = c) = i.isOf c := by
  cases i with
  | motor c' step =>
      obtain ⟨-, s', es', -, -, rfl⟩ := step_motor h
      rcases List.mem_append.mp he with he | he
      · obtain ⟨e', -, rfl⟩ := List.mem_map.mp he
        rfl
      · obtain ⟨index, -, rfl⟩ := List.mem_map.mp he
        rfl
  | measure c' getter =>
      simp only [system, Device.step] at h
      split at h
      · obtain ⟨-, rfl⟩ := Prod.mk.inj (Option.some.inj h)
        obtain rfl := List.mem_singleton.mp he
        rfl
      · contradiction
  | change index sub value =>
      obtain ⟨-, rfl⟩ := Prod.mk.inj (Option.some.inj h)
      contradiction

/-! ## Noninterference -/

/-- The two devices differ in channel `c` and in its window at most. -/
structure SameBut (n c : BitVec 8) (d t : Device) : Prop where
  own : Own n d
  channels : ∀ c' ≠ c, t.channels c' = d.channels c'
  objects : ∀ index sub, ¬ Windowed c index → t.objects index sub = d.objects index sub

section Write
variable {index : BitVec 16} {sub : BitVec 8} {objects objects' : Objects}

theorem write_of_ne {e : MotorEvent} (h : e.index ≠ some index) :
    objects.write e index sub = objects index sub := by
  cases e with
  | target id index' sub' value =>
      exact if_neg fun heq => h (congrArg some heq.1.symm)
  | controlWord index' cw => exact if_neg fun heq => h (congrArg some heq.1.symm)
  | opMode index' mode => exact if_neg fun heq => h (congrArg some heq.1.symm)
  | _ => rfl

theorem write_congr (e : MotorEvent) (h : objects index sub = objects' index sub) :
    objects.write e index sub = objects'.write e index sub := by
  have hset : ∀ index' sub' value, objects.set index' sub' value index sub =
      objects'.set index' sub' value index sub := by
    intro index' sub' value
    simp only [Objects.set, h]
  cases e with
  | target id index' sub' value => exact hset _ _ _
  | controlWord index' cw => exact hset _ _ _
  | opMode index' mode => exact hset _ _ _
  | _ => exact h

/-- Writes to other objects leave an object alone. -/
theorem foldr_write_of_ne {es : List MotorEvent} (hes : ∀ e ∈ es, e.index ≠ some index) :
    es.foldr Objects.write objects index sub = objects index sub := by
  induction es with
  | nil => rfl
  | cons e es ih =>
      rw [List.foldr_cons, write_of_ne (hes e List.mem_cons_self)]
      exact ih fun e he => hes e (List.mem_cons_of_mem _ he)

theorem foldr_write_congr (es : List MotorEvent) (h : objects index sub = objects' index sub) :
    es.foldr Objects.write objects index sub = es.foldr Objects.write objects' index sub := by
  induction es with
  | nil => exact h
  | cons e es ih =>
      rw [List.foldr_cons, List.foldr_cons]
      exact write_congr e ih

end Write

namespace SameBut
variable {c : BitVec 8} {t : Device}

/-- The channel's own steps do not show. -/
theorem mine (hd : SameBut n c d t) (hn : n.toNat ≤ 20) (hi : i.isOf c = true)
    (h : (system n).step d i = some (d', es)) :
    SameBut n c d' t ∧ ∀ e ∈ es, decide (e.channel = c) = true := by
  refine ⟨?_, fun e he => (channel_of_step h he c).trans hi⟩
  cases i with
  | motor c' step =>
      obtain rfl : c' = c := of_decide_eq_true hi
      have hwindow : ∀ e ∈ es, ∀ index, e.index = some index → Windowed e.channel index :=
        fun e he index => windowed_of_step hd.own hn h he
      have hown := own_of_step hd.own h
      obtain ⟨-, s', es', -, rfl, rfl⟩ := step_motor h
      refine ⟨hown, fun c hc => ?_, fun index sub hindex => ?_⟩
      · rw [hd.channels c hc]
        simp [hc]
      · rw [hd.objects index sub hindex]
        refine (foldr_write_of_ne fun e he heq => hindex ?_).symm
        have hmem : DeviceEvent.motor c' e ∈ es'.map (.motor c') ++
            ((d.channels c').reads step).map (.read c') :=
          List.mem_append_left _ (List.mem_map_of_mem he)
        exact hwindow _ hmem index heq
  | measure c' getter =>
      simp only [system, Device.step] at h
      split at h
      · obtain ⟨rfl, -⟩ := Prod.mk.inj (Option.some.inj h)
        exact hd
      · contradiction
  | change index sub value => contradiction

/-- Another channel finds the same objects. -/
theorem same (hd : SameBut n c d t) (hn : n.toNat ≤ 20) {c' : BitVec 8} (hc' : c' < n)
    (hne : c' ≠ c) {base : BitVec 16} (hbase : Profiled base) :
    t.objects ((d.channels c').motor.channelIndex base) 0 =
      d.objects ((d.channels c').motor.channelIndex base) 0 := by
  refine hd.objects _ _ fun hwindow => hne ?_
  have hlt : c'.toNat < n.toNat := hc'
  have hown : Windowed c' ((d.channels c').motor.channelIndex base) := by
    rw [Motor.channelIndex, (hd.own c' hc').offset]
    exact windowed_add (by omega) hbase
  exact eq_of_windowed hown hwindow

theorem finds (hd : SameBut n c d t) (hn : n.toNat ≤ 20) {c' : BitVec 8} (hc' : c' < n)
    (hne : c' ≠ c) (step : MotorStep) :
    (d.channels c').finds t.objects step = (d.channels c').finds d.objects step := by
  cases step with
  | enter i call => rfl
  | go i env =>
      simp only [MotorSystem.finds, Env.ofObjects]
      rw [hd.same hn hc' hne (by decide : Profiled 0x6041),
        hd.same hn hc' hne (by decide : Profiled 0x6061),
        hd.same hn hc' hne (by decide : Profiled 0x6502),
        hd.same hn hc' hne (by decide : Profiled 0x6098)]

/-- The steps of the other channels go the same way. -/
theorem other (hd : SameBut n c d t) (hn : n.toNat ≤ 20) (hi : i.isOf c = false)
    (h : (system n).step d i = some (d', es)) :
    ∃ t', (system n).step t i = some (t', es) ∧ SameBut n c d' t' ∧
      ∀ e ∈ es, decide (e.channel = c) = false := by
  have hevents : ∀ e ∈ es, decide (e.channel = c) = false := fun e he =>
    (channel_of_step h he c).trans hi
  have hown := own_of_step hd.own h
  cases i with
  | motor c' step =>
      have hne : c' ≠ c := of_decide_eq_false hi
      obtain ⟨hc', s', es', hstep, rfl, rfl⟩ := step_motor h
      refine ⟨⟨es'.foldr Objects.write t.objects, Function.update t.channels c' s'⟩, ?_,
        ⟨hown, fun k hk => ?_, fun index sub hindex => ?_⟩, hevents⟩
      · simp only [system, Device.step, if_pos hc', hd.channels c' hne, hd.finds hn hc' hne, hstep]
        rfl
      · by_cases hkc : k = c'
        · subst hkc
          simp
        · simp [hkc, hd.channels k hk]
      · exact foldr_write_congr es' (hd.objects index sub hindex)
  | measure c' getter =>
      have hne : c' ≠ c := of_decide_eq_false hi
      simp only [system, Device.step] at h
      split at h
      · next hc' =>
          obtain ⟨rfl, rfl⟩ := Prod.mk.inj (Option.some.inj h)
          have hsame := hd.same hn hc' hne getter.profiled
          refine ⟨t, ?_, hd, hevents⟩
          simp only [system, Device.step, if_pos hc', hd.channels c' hne, hsame]
      · contradiction
  | change index sub value =>
      obtain ⟨rfl, rfl⟩ := Prod.mk.inj (Option.some.inj h)
      refine ⟨_, rfl, ⟨hown, hd.channels, fun index' sub' hindex => ?_⟩, hevents⟩
      simp only [Objects.set, hd.objects index' sub' hindex]

end SameBut
end Device

namespace Device

/-- A device whose motors are constructed where the memory was zero. -/
def constructed : Device where
  objects := fun _ _ => 0
  channels c :=
    { MotorSystem.zeroed 0 [] with
      motor := { (MotorSystem.zeroed 0 []).motor with channelOffset := offsetOfChannel c } }

theorem started_constructed (n : BitVec 8) : constructed.Started n :=
  fun _ _ => ⟨⟨rfl, rfl, rfl, rfl⟩, rfl⟩

/-- One `handleWrite` on channel `c`. -/
def writes (c : BitVec 8) : List DeviceStep :=
  (MotorStep.calls 0 .handleWrite 1 (.answering 0 0 0)).map (.motor c)

/-- Outside of `Operation_Enable` the halt bit alone is written. -/
theorem handleWrite_idle {m : Motor} (env : Env) (hstate : m.state = .start)
    (hcw : m.controlWord = 0) (hreset : m.startFaultReset = false) (hok : env.streamOk = true) :
    m.handleWrite env = ({ m with controlWord := 0x0100, startFaultReset := false }, .ret true,
      [.controlWord (m.channelIndex 0x6040) 0x0100]) := by
  have hidle : m.state ≠ .operationEnable := by
    rw [hstate]
    decide
  have hhalted : overwrite 0 (bit ControlWord.halt) m.controlWord = 0x0100 := by
    rw [hcw]
    decide
  have hstreamed : ({ m with controlWord := 0x0100 } : Motor).streamed = 0x0100 := by
    simp only [Motor.streamed, hreset]
    decide
  simp only [Motor.handleWrite, if_neg hidle, hhalted, stream_eq, hok, hstreamed, if_true]
  rfl

/-- Its control word goes to the index that it forms, whatever the number of channels. -/
theorem run_writes {n c : BitVec 8} (hc : c < n) : ∃ h d,
    (system n).run (writes c) [] constructed = some (h, d) ∧
      .motor c (.controlWord (0x6040 + offsetOfChannel c) 0x0100) ∈ h ∧
      d.objects (0x6040 + offsetOfChannel c) 0 = 0x0100 := by
  obtain ⟨s₁, hs₁⟩ : ∃ s₁ : MotorSystem, s₁ = ⟨(constructed.channels c).motor,
    Function.update (fun _ => none) 0 (some ⟨.handleWrite, .write, []⟩)⟩ := ⟨_, rfl⟩
  have henter : (system n).step constructed (.motor c (.enter 0 .handleWrite)) =
      some (⟨constructed.objects, Function.update constructed.channels c s₁⟩,
        [.motor c (.called .handleWrite)]) := by
    rw [hs₁]
    exact if_pos hc
  have hgo : ∀ env, (system n).step
      ⟨constructed.objects, Function.update constructed.channels c s₁⟩ (.motor c (.go 0 env)) =
        ((s₁.step (s₁.finds constructed.objects (.go 0 env))).map fun (s', es) =>
          (⟨es.foldr Objects.write constructed.objects,
            Function.update (Function.update constructed.channels c s₁) c s'⟩,
              es.map (.motor c) ++ (s₁.reads (.go 0 env)).map (.read c))) := by
    intro env
    simp only [system, Device.step, if_pos hc, Function.update_self]
  have hrun : (system n).run (writes c) [] constructed = ((s₁.step (s₁.finds constructed.objects
      (.go 0 (.answering 0 0 0)))).map fun (s', es) =>
        (es.map (.motor c) ++ (s₁.reads (.go 0 (.answering 0 0 0))).map (.read c) ++
          [.motor c (.called .handleWrite)],
        (⟨es.foldr Objects.write constructed.objects,
          Function.update (Function.update constructed.channels c s₁) c s'⟩ : Device))) := by
    simp only [System.run, System.runIf, writes, MotorStep.calls, List.map_cons,
      List.replicate_one, List.map_nil, henter, hgo, if_true]
    cases s₁.step (s₁.finds constructed.objects (.go 0 (.answering 0 0 0))) <;> rfl
  have hthread : s₁.threads 0 = some ⟨.handleWrite, .write, []⟩ := by
    rw [hs₁]
    simp
  have hwrite := handleWrite_idle (m := s₁.motor)
    ((Env.answering 0 0 0).ofObjects s₁.motor constructed.objects)
    (by rw [hs₁]; rfl) (by rw [hs₁]; rfl) (by rw [hs₁]; rfl) rfl
  have hindex : s₁.motor.channelIndex 0x6040 = 0x6040 + offsetOfChannel c := by
    rw [hs₁]
    rfl
  rw [hindex] at hwrite
  have hstep : ∃ s₂, s₁.step (s₁.finds constructed.objects (.go 0 (.answering 0 0 0))) =
      some (s₂,
        [.returned .handleWrite true, .controlWord (0x6040 + offsetOfChannel c) 0x0100]) := by
    simp only [MotorSystem.step, MotorSystem.finds, hthread, Motor.exec, hwrite]
    exact ⟨_, rfl⟩
  obtain ⟨s₂, hstep⟩ := hstep
  rw [hrun, hstep]
  refine ⟨_, _, rfl, ?_, if_pos ⟨rfl, rfl⟩⟩
  simp

end Device

/-- **The channels of a device are apart iff there are at most 20.**  From channel 20 on
the indices wrap around. -/
theorem channelsApart_iff (numChannels : BitVec 8) :
    ChannelsApart numChannels ↔ numChannels.toNat ≤ 20 := by
  constructor
  · intro hapart
    by_contra hn
    have hc : (20 : BitVec 8) < numChannels := by
      show (20 : BitVec 8).toNat < numChannels.toNat
      have htwenty : (20 : BitVec 8).toNat = 20 := rfl
      omega
    obtain ⟨h, d, hrun, hmem, -⟩ := Device.run_writes hc
    have hr := System.reach_run _ _ (.init (Device.started_constructed numChannels)) hrun
    exact absurd (hapart.keeps h d hr _ hmem _ rfl) (by decide)
  · intro hn
    refine ⟨fun h d hr => ?_, fun c hc steps d h' d' hd hrun => ?_⟩
    · refine (hr.invariant (I := fun h d => Device.Own numChannels d ∧ ∀ e ∈ h, ∀ index,
        e.index = some index → Windowed e.channel index) ?_ ?_).2
      · exact fun d hd => ⟨Device.own_of_started hd, by simp⟩
      · intro h d i d' es ⟨hown, hkeeps⟩ _ hstep
        refine ⟨Device.own_of_step hown hstep, fun e he index hindex => ?_⟩
        rcases List.mem_append.mp he with he | he
        · exact Device.windowed_of_step hown hn hstep he hindex
        · exact hkeeps e he index hindex
    · have hsame : Device.SameBut numChannels c d d :=
        ⟨Device.own_of_started hd, fun _ _ => rfl, fun _ _ _ => rfl⟩
      obtain ⟨d'', hrun'', hsame''⟩ := System.run_purge (Device.system numChannels)
        (fun s t i s' es hR hi hstep => hR.mine hn hi hstep)
        (fun s t i s' es hR hi hstep => hR.other hn hi hstep) steps hsame hrun
      exact ⟨d'', hrun'', hsame''.channels, hsame''.objects⟩

/-- With 33 channels, channel 32 writes the control word of channel 0. -/
theorem not_channelsApart : ¬ ChannelsApart 33 := by
  intro hapart
  obtain ⟨h, d, hrun, -, hwritten⟩ := Device.run_writes (by decide : (32 : BitVec 8) < 33)
  obtain ⟨d', hrun', -, hobjects⟩ := hapart.apart 32 (by decide) _ _ _ _
    (Device.started_constructed 33) hrun
  have hnone : (Device.writes 32).filter (fun i => !i.isOf 32) = [] := rfl
  rw [hnone] at hrun'
  obtain ⟨-, rfl⟩ := Prod.mk.inj (Option.some.inj hrun')
  have hzero := hobjects (0x6040 + offsetOfChannel 32) 0 (by decide)
  rw [hwritten] at hzero
  exact absurd hzero (by decide)

end RosCanopen.Cia402
