import RosCanopen.Cia402.Handshake
import RosCanopen.Lib.LastWrite
import RosCanopen.Ros2Control.OwnMotors

/-!
# Which targets the motors are given

In every cycle `Cia402System` and `RobotSystem` give each joint's target to its driver: the one
for the mode that the driver shows.  The driver scales it by the mode that the motor has then, and
the motor takes it with the mode that it has at last; services that switch modes run in between.
`Cia402System` keeps the targets in a map whose entries are created by `operator[]`, at zero;
`RobotSystem` starts from NaNs, which no motor takes.

## Main definitions

* `ChannelScaling.scale`, `Encounter.setTarget` — `set_target` of the driver, and of its motor.
* `Cia402System.targetSystem`, `RobotSystem.targetSystem` — the targets in the two classes.
* `Commanded` — what a motor takes is what a controller has written for it.
-/

namespace RosCanopen.Ros2Control

open Lib Cia402

deriving instance DecidableEq for TargetInterface

/-! ## The driver -/

namespace Double

/-- The product of two doubles. -/
def mul : Double → Double → Double
  | .nan, _ | _, .nan => .nan
  | .fin a, .fin b => .fin (a * b)
  | .inf s, .fin b | .fin b, .inf s => if b = 0 then .nan else .inf (s ^^ decide (b < 0))
  | .inf s, .inf t => .inf (s ^^ t)

/-- The sum of two doubles. -/
def add : Double → Double → Double
  | .nan, _ | _, .nan => .nan
  | .fin a, .fin b => .fin (a + b)
  | .inf s, .fin _ | .fin _, .inf s => .inf s
  | .inf s, .inf t => if s = t then .inf s else .nan

theorem nan_mul (x : Double) : mul .nan x = .nan := by cases x <;> rfl

theorem nan_add (x : Double) : add .nan x = .nan := by cases x <;> rfl

end Double

/-- The quantity of an operation mode. -/
def quantityOf (mode : ModeId) : Option TargetInterface :=
  if mode = .profiledPosition ∨ mode = .cyclicSynchronousPosition ∨ mode = .interpolatedPosition
  then some .position
  else if mode = .velocity ∨ mode = .profiledVelocity ∨ mode = .cyclicSynchronousVelocity
  then some .velocity
  else if mode = .profiledTorque ∨ mode = .cyclicSynchronousTorque then some .effort
  else none

/-- The parameters of a channel of the driver. -/
structure ChannelScaling where
  scalePosToDev : Double
  offsetPosToDev : Double
  scaleVelToDev : Double
  deriving DecidableEq

/-- What `set_target` makes of a target. -/
def ChannelScaling.scale (s : ChannelScaling) (mode : ModeId) (target : Double) : Double :=
  if mode = .profiledPosition ∨ mode = .cyclicSynchronousPosition ∨ mode = .interpolatedPosition
  then Double.add (Double.mul target s.scalePosToDev) s.offsetPosToDev
  else if mode = .velocity ∨ mode = .profiledVelocity ∨ mode = .cyclicSynchronousVelocity
  then Double.mul target s.scaleVelToDev
  else target

/-- `Motor402::getMode` -/
def motorMode (m : Motor) : ModeId := m.selectedMode.getD ModeId.noMode

/-- What a cycle meets of a motor.  The motor may change between the calls. -/
structure Encounter where
  /-- The driver is activated. -/
  activated : Bool
  /-- The channel, if it has a motor. -/
  channel : Option ChannelScaling
  /-- The motor when the cycle asks for its mode. -/
  shown : Motor
  /-- The motor when `set_target` asks for its mode. -/
  scaled : Motor
  /-- The motor when it is given the target. -/
  reached : Motor

inductive TargetEvent
  /-- A controller has written a command interface. -/
  | wrote (joint : ℕ) (interface : TargetInterface) (x : Double)
  /-- The motor has taken a target for a mode; the driver scales by these parameters. -/
  | accepted (motor : MotorKey) (scaling : ChannelScaling) (mode : ModeId) (x : Double)
  /-- A null pointer is followed. -/
  | dereferenced
  deriving DecidableEq

namespace Encounter

/-- `get_mode` -/
def getMode (e : Encounter) : ModeId :=
  if e.channel.isSome then motorMode e.shown else ModeId.noMode

/-- `set_target` -/
def setTarget (e : Encounter) (key : MotorKey) (target : Double) : List TargetEvent :=
  if e.activated then
    match e.channel with
    | none => []
    | some scaling =>
        (e.reached.setTarget (scaling.scale (motorMode e.scaled) target)).2.2.filterMap fun
          | .accepted mode x => some (.accepted key scaling mode x)
          | _ => none
  else []

/-- The motor does not get the target, or does not take it. -/
def deaf (e : Encounter) (target : Double) : Bool :=
  !e.activated || e.channel.isNone || e.reached.state ≠ .operationEnable ||
    e.reached.selectedMode.isNone || target = .nan

/-- The modes of the motor at the three calls are for one quantity. -/
def steady (e : Encounter) : Bool :=
  quantityOf (motorMode e.scaled) = quantityOf e.getMode &&
    quantityOf (motorMode e.reached) = quantityOf e.getMode

end Encounter

/-! ## The two classes -/

/-- The command interface that a controller has written. -/
def TargetEvent.writes : TargetEvent → Option ((ℕ × TargetInterface) × Double)
  | wrote joint interface x => some ((joint, interface), x)
  | _ => none

/-- A target that a motor has taken is the scaled value that a controller has written last to the
command interface, of the quantity of the motor's mode, of a joint with this motor. -/
def TargetEvent.Own (motor : ℕ → Option MotorKey) (e : TargetEvent) (h : List TargetEvent) :
    Prop :=
  match e with
  | accepted key scaling mode x => ∃ joint interface v, motor joint = some key ∧
      quantityOf mode = some interface ∧ lastWrite writes h (joint, interface) = some v ∧
      x = scaling.scale mode v
  | _ => True

/-- **No uncommanded target.** -/
def Commanded (motor : ℕ → Option MotorKey) (h : List TargetEvent) : Prop :=
  Historically (TargetEvent.Own motor) h

namespace Cia402System

/-- The motors of the joints with a node id, and the ids of the registered drivers. -/
structure TargetConfig where
  joints : List MotorKey
  registered : List (BitVec 16)

/-- The keys of `motor_data_`, in order. -/
def TargetConfig.keys (c : TargetConfig) : List MotorKey :=
  c.joints.dedup.insertionSort fun a b =>
    a.1.toNat < b.1.toNat ∨ a.1 = b.1 ∧ a.2.toNat ≤ b.2.toNat

inductive TargetInput
  /-- A controller writes a command interface of a joint. -/
  | set (joint : ℕ) (interface : TargetInterface) (x : Double)
  | write (env : MotorKey → Encounter)

/-- The targets in `motor_data_`. -/
abbrev Targets := MotorKey × TargetInterface → Double

/-- The interface whose target a cycle gives for the mode. -/
def sourceOf (mode : ModeId) : Option TargetInterface :=
  if mode = .profiledPosition ∨ mode = .cyclicSynchronousPosition ∨ mode = .interpolatedPosition
  then some .position
  else if mode = .profiledVelocity ∨ mode = .cyclicSynchronousVelocity then some .velocity
  else if mode = .profiledTorque then some .effort
  else none

/-- The step of `write` for a motor. -/
def giveTarget (c : TargetConfig) (env : MotorKey → Encounter) (m : Targets) (_ : ℕ)
    (key : MotorKey) : MotorKey × Bool × List TargetEvent :=
  if c.registered.contains key.1 then
    match sourceOf (env key).getMode with
    | none => (key, true, [])
    | some interface => (key, true, (env key).setTarget key (m (key, interface)))
  else (key, false, [.dereferenced])

/-- One step; after a null pointer was followed there is no state any more. -/
def targetStep (c : TargetConfig) (s : Option Targets) (i : TargetInput) :
    Option (Option Targets × List TargetEvent) :=
  match s with
  | none => none
  | some m =>
      match i with
      | .set joint interface x =>
          (c.joints[joint]?).map fun key =>
            (some (Function.update m (key, interface) x), [.wrote joint interface x])
      | .write env =>
          let (_, ok, es) := walk (giveTarget c env m) 0 c.keys
          some (if ok then some m else none, es)

/-- The component once its interfaces are exported: `operator[]` has made every entry, and has
initialised its targets to zero. -/
def targetSystem (c : TargetConfig) : System (Option Targets) TargetInput TargetEvent where
  init s := s = some fun _ => .fin 0
  step := targetStep c

/-- A controller has written the interface of a joint with this motor. -/
def written (c : TargetConfig) (h : List TargetEvent) (key : MotorKey)
    (interface : TargetInterface) : Bool :=
  (List.range c.joints.length).any fun joint =>
    c.joints[joint]? = some key && (lastWrite TargetEvent.writes h (joint, interface)).isSome

/-- A target that a motor may take has been written, and the mode stays one of its quantity. -/
def heeds (c : TargetConfig) (h : List TargetEvent) (s : Option Targets) : TargetInput → Bool
  | .set _ _ _ => true
  | .write env => s.all fun m => c.keys.all fun key => (sourceOf (env key).getMode).all
      fun interface => (env key).deaf (m (key, interface)) ||
        (written c h key interface && (env key).steady)

/-- Every cycle is such a one. -/
def heeded (c : TargetConfig) : Guard (Option Targets) TargetInput TargetEvent :=
  fun h s i => heeds c h s i = true

end Cia402System

namespace RobotSystem

/-- The motors of the joints. -/
def ownMotor (c : RobotConfig) (joint : ℕ) : Option MotorKey :=
  (c.joints.filterMap Joint.motor)[joint]?

inductive TargetInput
  /-- A callback, or a controller; the cycles are given below. -/
  | callback (i : RobotInput)
  | write (env : ℕ → Encounter)

/-- What becomes of a call on behalf of a joint. -/
def serve (env : ℕ → Encounter) : RobotEvent → List TargetEvent
  | .called j (some key) (.setTarget x) => (env j).setTarget key x
  | .called _ none _ => [.dereferenced]
  | _ => []

/-- The step of `write` for a joint. -/
def giveTarget (env : ℕ → Encounter) (j : ℕ) (d : Cia402Data) :
    Cia402Data × Bool × List TargetEvent :=
  let (d, ok, es) := d.writeTarget (fun _ => (env j).getMode) j
  (d, ok, es.flatMap (serve env))

/-- One step; after a null pointer was followed there is no state any more. -/
def targetStep (s : Option (List Cia402Data)) (i : TargetInput) :
    Option (Option (List Cia402Data) × List TargetEvent) :=
  match i with
  | .callback (.write _) => none
  | .callback (.set joint interface x) =>
      if joint < (s.getD []).length then
        (step s (.set joint interface x)).map fun p => (p.1, [.wrote joint interface x])
      else none
  | .callback i => (step s i).map fun p => (p.1, [])
  | .write env =>
      match s with
      | none => none
      | some ds =>
          let (ds, ok, es) := walk (giveTarget env) 0 ds
          some (if ok then some ds else none, es)

/-- The component from its configuration on. -/
def targetSystem (c : RobotConfig) : System (Option (List Cia402Data)) TargetInput TargetEvent where
  init s := s = some (configured c)
  step := targetStep

/-- A target that a motor may take comes from a joint that has this motor, and the mode stays one
of its quantity. -/
def heeds (c : RobotConfig) (s : Option (List Cia402Data)) : TargetInput → Bool
  | .callback _ => true
  | .write env => s.all fun ds => ds.zipIdx.all fun (d, j) => (d.targetOf (env j).getMode).all
      fun x => (env j).deaf x || (decide (d.motor = ownMotor c j) && (env j).steady)

/-- Every cycle is such a one. -/
def heeded (c : RobotConfig) : Guard (Option (List Cia402Data)) TargetInput TargetEvent :=
  fun _ s i => heeds c s i = true

end RobotSystem

/-! ## What a motor takes -/

section Driver
variable {e : Encounter} {ev : TargetEvent} {key : MotorKey} {x : Double} {h es : List TargetEvent}
  {motor : ℕ → Option MotorKey} {interface : TargetInterface} {mode mode' : ModeId}

theorem scale_eq (s : ChannelScaling) (target : Double) : s.scale mode target =
    match quantityOf mode with
    | some .position => Double.add (Double.mul target s.scalePosToDev) s.offsetPosToDev
    | some .velocity => Double.mul target s.scaleVelToDev
    | _ => target := by
  unfold ChannelScaling.scale quantityOf
  split_ifs <;> rfl

/-- The driver scales by the quantity of the mode. -/
theorem scale_congr (s : ChannelScaling) (hmode : quantityOf mode = quantityOf mode')
    (target : Double) : s.scale mode target = s.scale mode' target := by
  rw [scale_eq, scale_eq, hmode]

theorem scale_nan (s : ChannelScaling) : s.scale mode .nan = .nan := by
  unfold ChannelScaling.scale
  split_ifs
  · rw [Double.nan_mul, Double.nan_add]
  · exact Double.nan_mul _
  · rfl

/-- What a motor takes it takes enabled, for its mode. -/
theorem accepted_of_mem {m : Motor} {id : ModeId} {val : Double}
    (hmem : .accepted id val ∈ (m.setTarget x).2.2) :
    m.state = .operationEnable ∧ m.selectedMode = some id ∧ val = x ∧ x ≠ .nan := by
  unfold Motor.setTarget at hmem
  by_cases hstate : m.state = .operationEnable
  · rw [if_pos hstate] at hmem
    unfold Motor.setSelectedTarget at hmem
    cases hselected : m.selectedMode with
    | none => simp [hselected] at hmem
    | some id' =>
        cases hmode : m.modes id' with
        | none => simp [hselected, hmode] at hmem
        | some md =>
            simp only [hselected, hmode] at hmem
            cases hok : (md.setTarget x).2 with
            | false => simp [hok] at hmem
            | true =>
                simp only [hok, if_true, List.mem_singleton, MotorEvent.accepted.injEq] at hmem
                refine ⟨hstate, by rw [hmem.1], hmem.2, ?_⟩
                rintro rfl
                cases md <;> simp [Mode.setTarget, TargetHelper.setTarget, numericCast] at hok
  · simp [hstate] at hmem

namespace Encounter

/-- What comes of a `set_target`. -/
theorem mem_setTarget (hmem : ev ∈ e.setTarget key x) : ∃ scaling, e.deaf x = false ∧
    ev = .accepted key scaling (motorMode e.reached) (scaling.scale (motorMode e.scaled) x) := by
  unfold setTarget at hmem
  by_cases hactivated : e.activated = true
  · rw [if_pos hactivated] at hmem
    cases hchannel : e.channel with
    | none => simp [hchannel] at hmem
    | some scaling =>
        simp only [hchannel, List.mem_filterMap] at hmem
        obtain ⟨me, hme, hev⟩ := hmem
        cases me with
        | accepted id val =>
            obtain ⟨hstate, hselected, rfl, hnan⟩ := accepted_of_mem hme
            have hx : x ≠ .nan := by
              rintro rfl
              exact hnan (scale_nan scaling)
            refine ⟨scaling, ?_, ?_⟩
            · simp [deaf, hactivated, hchannel, hstate, hselected, hx]
            · have hmode : motorMode e.reached = id := by rw [motorMode, hselected]; rfl
              rw [hmode]
              exact (Option.some.inj hev).symm
        | _ => cases hev
  · simp [hactivated] at hmem

theorem silent_setTarget (hmem : ev ∈ e.setTarget key x) : ev.writes = none := by
  obtain ⟨scaling, -, rfl⟩ := mem_setTarget hmem
  rfl

/-- What a motor takes in a steady mode is what has been written for it. -/
theorem own_setTarget (joint : ℕ) (hmem : ev ∈ e.setTarget key x)
    (hok : e.deaf x = true ∨ motor joint = some key ∧
      lastWrite TargetEvent.writes h (joint, interface) = some x ∧ e.steady = true)
    (hinterface : quantityOf e.getMode = some interface) : ev.Own motor h := by
  obtain ⟨scaling, hdeaf, rfl⟩ := mem_setTarget hmem
  rcases hok with hdeaf' | ⟨hmotor, hlast, hsteady⟩
  · rw [hdeaf] at hdeaf'
    cases hdeaf'
  · obtain ⟨hscaled, hreached⟩ := Bool.and_eq_true_iff.mp hsteady
    have hscaled := of_decide_eq_true hscaled
    have hreached := of_decide_eq_true hreached
    refine ⟨joint, interface, x, hmotor, hreached.trans hinterface, hlast, ?_⟩
    exact scale_congr scaling (hscaled.trans hreached.symm) x

end Encounter

/-- A step extends the history by events that write nothing and meet the property. -/
theorem Commanded.append (hh : Commanded motor h)
    (hes : ∀ ev ∈ es, ev.Own motor h ∧ ev.writes = none) : Commanded motor (es ++ h) := by
  refine Historically.append hh ?_
  intro new ev old heq
  have hmem : ev ∈ es := heq ▸ List.mem_append_right _ List.mem_cons_self
  have hold : ∀ e ∈ old, e.writes = none := by
    intro e he
    refine (hes e ?_).2
    exact heq ▸ List.mem_append_right _ (List.mem_cons_of_mem _ he)
  have hown := (hes ev hmem).1
  cases ev with
  | accepted key scaling mode x =>
      simp only [TargetEvent.Own, lastWrite_append_silent hold] at hown ⊢
      exact hown
  | wrote joint interface x => trivial
  | dereferenced => trivial

end Driver

/-! ## `Cia402System` -/

namespace Cia402System
variable {c : TargetConfig} {h : List TargetEvent} {s : Option Targets} {m : Targets}

theorem written_iff {key : MotorKey} {interface : TargetInterface} :
    written c h key interface = true ↔ ∃ joint, c.joints[joint]? = some key ∧
      (lastWrite TargetEvent.writes h (joint, interface)).isSome = true := by
  simp only [written, List.any_eq_true, List.mem_range, Bool.and_eq_true, decide_eq_true_eq]
  constructor
  · rintro ⟨joint, -, hjoint⟩
    exact ⟨joint, hjoint⟩
  · rintro ⟨joint, hkey, hsome⟩
    exact ⟨joint, (List.getElem?_eq_some_iff.mp hkey).1, hkey, hsome⟩

theorem quantityOf_of_sourceOf {mode : ModeId} {interface : TargetInterface}
    (hsource : sourceOf mode = some interface) : quantityOf mode = some interface := by
  unfold sourceOf at hsource
  unfold quantityOf
  split_ifs at hsource ⊢ <;> simp_all

/-- Where a joint's interface has been written, the entry of its motor holds what was written
last for one of the joints with this motor. -/
def Holds (c : TargetConfig) (h : List TargetEvent) (m : Targets) : Prop :=
  ∀ key interface, written c h key interface = true → ∃ joint, c.joints[joint]? = some key ∧
    lastWrite TargetEvent.writes h (joint, interface) = some (m (key, interface))

theorem Holds.set (hm : Holds c h m) {joint : ℕ} {key : MotorKey} (interface : TargetInterface)
    (x : Double) (hkey : c.joints[joint]? = some key) :
    Holds c (.wrote joint interface x :: h) (Function.update m (key, interface) x) := by
  intro key' interface' hwritten
  by_cases heq : (key', interface') = (key, interface)
  · obtain ⟨rfl, rfl⟩ := Prod.mk.inj heq
    refine ⟨joint, hkey, ?_⟩
    rw [Function.update_self]
    exact lastWrite_cons_self rfl
  · -- the joints with this motor are others, or it is another interface
    have hne (joint' : ℕ) (hkey' : c.joints[joint']? = some key') :
        (joint', interface') ≠ (joint, interface) := by
      intro hsame
      obtain ⟨rfl, rfl⟩ := Prod.mk.inj hsame
      rw [hkey] at hkey'
      exact heq (by rw [Option.some.inj hkey'])
    have hother (joint' : ℕ) (hkey' : c.joints[joint']? = some key') :
        lastWrite TargetEvent.writes (.wrote joint interface x :: h) (joint', interface') =
          lastWrite TargetEvent.writes h (joint', interface') :=
      lastWrite_cons_of_ne rfl (hne joint' hkey')
    obtain ⟨joint₁, hkey₁, hsome⟩ := written_iff.mp hwritten
    rw [hother joint₁ hkey₁] at hsome
    obtain ⟨joint₂, hkey₂, hlast⟩ := hm key' interface' (written_iff.mpr ⟨joint₁, hkey₁, hsome⟩)
    refine ⟨joint₂, hkey₂, ?_⟩
    rw [hother joint₂ hkey₂, Function.update_of_ne heq]
    exact hlast

theorem Holds.silent (hm : Holds c h m) {es : List TargetEvent}
    (hes : ∀ e ∈ es, e.writes = none) : Holds c (es ++ h) m := by
  intro key interface hwritten
  simp only [written, lastWrite_append_silent hes] at hwritten ⊢
  exact hm key interface hwritten

/-- What a cycle that is heeded gives. -/
theorem heeded_write {env : MotorKey → Encounter} (hok : heeded c h (some m) (.write env))
    {key : MotorKey} (hkey : key ∈ c.keys) {interface : TargetInterface}
    (hsource : sourceOf (env key).getMode = some interface) :
    (env key).deaf (m (key, interface)) = true ∨
      written c h key interface = true ∧ (env key).steady = true := by
  have hall := List.all_eq_true.mp hok key hkey
  rw [hsource] at hall
  rcases Bool.or_eq_true_iff.mp hall with hdeaf | hgiven
  · exact .inl hdeaf
  · exact .inr (Bool.and_eq_true_iff.mp hgiven)

/-- The events of a cycle. -/
theorem own_write {env : MotorKey → Encounter} (hm : Holds c h m)
    (hok : heeded c h (some m) (.write env)) : ∀ ev ∈ (walk (giveTarget c env m) 0 c.keys).2.2,
      ev.Own (fun joint => c.joints[joint]?) h ∧ ev.writes = none := by
  refine (walk_invariant (P := fun _ key => key ∈ c.keys) ?_ ?_).2
  · intro j key hkey
    unfold giveTarget
    by_cases hregistered : c.registered.contains key.1 = true
    · rw [if_pos hregistered]
      cases hsource : sourceOf (env key).getMode with
      | none => exact ⟨hkey, fun ev hev => by simp at hev⟩
      | some interface =>
          refine ⟨hkey, fun ev hev => ⟨?_, Encounter.silent_setTarget hev⟩⟩
          have hquantity := quantityOf_of_sourceOf hsource
          rcases heeded_write hok hkey hsource with hdeaf | ⟨hwritten, hsteady⟩
          · exact Encounter.own_setTarget 0 hev (.inl hdeaf) hquantity
          · obtain ⟨joint, hjoint, hlast⟩ := hm key interface hwritten
            exact Encounter.own_setTarget joint hev (.inr ⟨hjoint, hlast, hsteady⟩) hquantity
    · rw [if_neg hregistered]
      refine ⟨hkey, fun ev hev => ?_⟩
      rw [List.mem_singleton.mp hev]
      exact ⟨trivial, rfl⟩
  · intro i key hi
    exact List.mem_of_getElem? hi

theorem commanded_of_reach (hr : Reach (targetSystem c) (heeded c) h s) :
    Commanded (fun joint => c.joints[joint]?) h ∧ ∀ m ∈ s, Holds c h m := by
  refine hr.invariant (I := fun h s => Commanded (fun joint => c.joints[joint]?) h ∧
    ∀ m ∈ s, Holds c h m) ?_ ?_
  · rintro _ rfl
    refine ⟨historically_nil, ?_⟩
    intro m _ key interface hwritten
    obtain ⟨joint, -, hsome⟩ := written_iff.mp hwritten
    cases hsome
  · rintro h s i s' es ⟨hh, hs⟩ hok hstep
    cases s with
    | none => cases hstep
    | some m =>
        have hm := hs m rfl
        cases i with
        | set joint interface x =>
            obtain ⟨key, hkey, heq⟩ := Option.map_eq_some_iff.mp hstep
            cases heq
            refine ⟨Historically.cons hh trivial, ?_⟩
            rintro _ ⟨⟩
            exact hm.set interface x hkey
        | write env =>
            have hes := own_write hm hok
            cases hstep
            refine ⟨hh.append hes, ?_⟩
            intro m' hm'
            have hsame : m = m' := by
              split at hm' <;> cases hm'
              rfl
            rw [← hsame]
            exact hm.silent fun e he => (hes e he).2

end Cia402System

/-! ## `RobotSystem` -/

namespace RobotSystem
variable {c : RobotConfig} {h : List TargetEvent} {s : Option (List Cia402Data)}
  {ds : List Cia402Data}

/-- The target behind a command interface. -/
def targetAt (interface : TargetInterface) (d : Cia402Data) : Double :=
  match interface with
  | .position => d.targetPosition
  | .velocity => d.targetVelocity
  | .effort => d.targetTorque

/-- The targets of all joints. -/
def targets (ds : List Cia402Data) (k : ℕ × TargetInterface) : Double :=
  ((ds.map (targetAt k.2))[k.1]?).getD .nan

/-- The targets are what was written last, or NaN. -/
def Holds (h : List TargetEvent) (ds : List Cia402Data) : Prop :=
  Mirrors TargetEvent.writes (fun _ => .nan) h (targets ds)

theorem targetOf_eq {d : Cia402Data} {mode : ModeId} {x : Double} (hx : d.targetOf mode = some x) :
    ∃ interface, quantityOf mode = some interface ∧ x = targetAt interface d := by
  unfold Cia402Data.targetOf at hx
  unfold quantityOf
  split_ifs at hx with hposition hvelocity heffort
  · cases hx
    exact ⟨.position, by rw [if_pos hposition], rfl⟩
  · cases hx
    refine ⟨.velocity, ?_, rfl⟩
    rw [if_neg hposition, if_pos (Or.inr hvelocity)]
  · cases hx
    refine ⟨.effort, ?_, rfl⟩
    have hnot : ¬(mode = .velocity ∨ mode = .profiledVelocity ∨
        mode = .cyclicSynchronousVelocity) := by
      rcases heffort with rfl | rfl <;> decide
    rw [if_neg hposition, if_neg hnot, if_pos heffort]

theorem targetAt_setTarget (x : Double) (d : Cia402Data) (interface interface' : TargetInterface) :
    targetAt interface' (setTarget x d interface) =
      if interface' = interface then x else targetAt interface' d := by
  cases interface <;> cases interface' <;> rfl

theorem targets_modify {joint : ℕ} (hjoint : joint < ds.length) (interface : TargetInterface)
    (x : Double) : targets (ds.modify joint fun d => setTarget x d interface) =
      Function.update (targets ds) (joint, interface) x := by
  funext ⟨joint', interface'⟩
  by_cases heq : joint' = joint
  · subst heq
    by_cases hsame : interface' = interface
    · subst hsame
      rw [Function.update_self]
      simp [targets, hjoint, targetAt_setTarget]
    · have hne : (joint', interface') ≠ (joint', interface) := by simp [hsame]
      rw [Function.update_of_ne hne]
      simp [targets, hjoint, targetAt_setTarget, hsame]
  · have hne : (joint', interface') ≠ (joint, interface) := by simp [heq]
    rw [Function.update_of_ne hne]
    simp [targets, Ne.symm heq]

/-- Where no data changes a target, the targets stay. -/
theorem targets_congr {ds' : List Cia402Data}
    (hmap : ∀ interface, ds'.map (targetAt interface) = ds.map (targetAt interface)) :
    targets ds' = targets ds := by
  funext k
  rw [targets, targets, hmap]

/-- The configured data have NaNs for targets. -/
theorem targets_configured : targets (configured c) = fun _ => .nan := by
  funext ⟨joint, interface⟩
  have hall : ∀ d ∈ configured c, targetAt interface d = .nan := by
    intro d hd
    obtain ⟨d₀, hd₀, rfl⟩ := List.mem_map.mp hd
    obtain ⟨j, -, hj⟩ := List.mem_filterMap.mp hd₀
    obtain ⟨n, -, rfl⟩ := Option.map_eq_some_iff.mp hj
    unfold Cia402Data.allocate
    split <;> cases interface <;> rfl
  rw [targets, List.getElem?_map]
  cases hd : (configured c)[joint]? with
  | none => rfl
  | some d => exact hall d (List.mem_of_getElem? hd)

/-- No callback changes a target. -/
theorem targets_execute (ds : List Cia402Data) {i : RobotInput}
    (hset : ∀ joint interface x, i ≠ .set joint interface x) :
    targets (execute ds i).1 = targets ds := by
  refine targets_congr fun interface => ?_
  cases i with
  | activate succeeds => exact map_walk fun _ _ => rfl
  | deactivate succeeds => exact map_walk fun _ _ => rfl
  | read motors =>
      refine map_walk fun j d => ?_
      unfold Cia402Data.readState
      split <;> cases interface <;> rfl
  | set joint interface' x => exact absurd rfl (hset joint interface' x)
  | write modes =>
      refine map_walk fun j d => ?_
      unfold Cia402Data.writeTarget
      split <;> rfl
  | switch startInterfaces stopInterfaces accepts =>
      have hswitched : ∀ j d, targetAt interface (d.performSwitch accepts j).1 =
          targetAt interface d := by
        intro j d
        unfold Cia402Data.performSwitch
        split <;> cases interface <;> rfl
      have hregistered := map_registerAll (g := targetAt interface)
        (fun d l => by cases interface <;> rfl) (fun d l => by cases interface <;> rfl)
        startInterfaces stopInterfaces ds
      exact (map_walk hswitched).trans hregistered

/-- The data of a joint in a cycle, and its events. -/
theorem giveTarget_cases (env : ℕ → Encounter) (j : ℕ) (d : Cia402Data) :
    (giveTarget env j d).1 = d ∧ ∀ ev ∈ (giveTarget env j d).2.2, ev = .dereferenced ∨
      ∃ key x, d.motor = some key ∧ d.targetOf (env j).getMode = some x ∧
        ev ∈ (env j).setTarget key x := by
  unfold giveTarget Cia402Data.writeTarget
  cases hmotor : d.motor with
  | none =>
      refine ⟨rfl, fun ev hev => .inl ?_⟩
      simpa [serve] using hev
  | some key =>
      refine ⟨rfl, fun ev hev => .inr ?_⟩
      cases htarget : d.targetOf (env j).getMode with
      | none => simp [htarget, serve] at hev
      | some x =>
          refine ⟨key, x, rfl, rfl, ?_⟩
          simpa [htarget, serve] using hev

/-- What a cycle that is heeded gives. -/
theorem heeded_write {env : ℕ → Encounter} (hok : heeded c h (some ds) (.write env)) {j : ℕ}
    {d : Cia402Data} (hd : ds[j]? = some d) {x : Double}
    (hx : d.targetOf (env j).getMode = some x) :
    (env j).deaf x = true ∨ d.motor = ownMotor c j ∧ (env j).steady = true := by
  have hall := List.all_eq_true.mp hok (d, j) (List.mk_mem_zipIdx_iff_getElem?.mpr hd)
  simp only [hx, Option.all_some] at hall
  rcases Bool.or_eq_true_iff.mp hall with hdeaf | hgiven
  · exact .inl hdeaf
  · obtain ⟨hown, hsteady⟩ := Bool.and_eq_true_iff.mp hgiven
    exact .inr ⟨of_decide_eq_true hown, hsteady⟩

/-- The events of a cycle. -/
theorem own_write {env : ℕ → Encounter} (hds : Holds h ds)
    (hok : heeded c h (some ds) (.write env)) :
    ∀ ev ∈ (walk (giveTarget env) 0 ds).2.2, ev.Own (ownMotor c) h ∧ ev.writes = none := by
  refine (walk_invariant (P := fun (j : ℕ) (d : Cia402Data) => ds[j]? = some d) ?_ ?_).2
  swap
  · intro i d hd
    rwa [Nat.zero_add]
  · intro j d hd
    obtain ⟨hsame, hes⟩ := giveTarget_cases env j d
    refine ⟨by rwa [hsame], fun ev hev => ?_⟩
    rcases hes ev hev with rfl | ⟨key, x, hmotor, htarget, hmem⟩
    · exact ⟨trivial, rfl⟩
    · refine ⟨?_, Encounter.silent_setTarget hmem⟩
      obtain ⟨interface, hquantity, hx⟩ := targetOf_eq htarget
      have hnow : targets ds (j, interface) = x := by
        rw [targets, List.getElem?_map, hd, hx]
        rfl
      have hheld : x = (lastWrite TargetEvent.writes h (j, interface)).getD .nan :=
        hnow.symm.trans (hds (j, interface))
      by_cases hdeaf : (env j).deaf x = true
      · exact Encounter.own_setTarget 0 hmem (.inl hdeaf) hquantity
      · rcases heeded_write hok hd htarget with hdeaf' | ⟨hown, hsteady⟩
        · exact absurd hdeaf' hdeaf
        · refine Encounter.own_setTarget j hmem (.inr ⟨?_, ?_, hsteady⟩) hquantity
          · rw [← hown, hmotor]
          · cases hlast : lastWrite TargetEvent.writes h (j, interface) with
            | none =>
                -- what has not been written is a NaN, which no motor takes
                rw [hlast] at hheld
                exact absurd (by simp [Encounter.deaf, hheld]) hdeaf
            | some v =>
                rw [hlast] at hheld
                rw [hheld]
                rfl

theorem commanded_of_reach (hr : Reach (targetSystem c) (heeded c) h s) :
    Commanded (ownMotor c) h ∧ ∀ ds ∈ s, Holds h ds := by
  refine hr.invariant (I := fun h s => Commanded (ownMotor c) h ∧ ∀ ds ∈ s, Holds h ds) ?_ ?_
  · rintro _ rfl
    refine ⟨historically_nil, ?_⟩
    rintro _ ⟨⟩
    rw [Holds, targets_configured]
    exact Mirrors.nil
  · rintro h s i s' es ⟨hh, hs⟩ hok hstep
    cases i with
    | callback i =>
        have hcallback (hset : ∀ joint interface x, i ≠ .set joint interface x)
            (hstep : (step s i).map (fun p => (p.1, ([] : List TargetEvent))) = some (s', es)) :
            Commanded (ownMotor c) (es ++ h) ∧ ∀ ds ∈ s', Holds (es ++ h) ds := by
          obtain ⟨⟨s₁, es₁⟩, hstep₁, heq⟩ := Option.map_eq_some_iff.mp hstep
          cases heq
          refine ⟨hh, fun ds' hds' => ?_⟩
          obtain ⟨ds, hds, -, hs₁ | hs₁⟩ := step_cases hstep₁
          · rw [hs₁] at hds'
            cases hds'
          · rw [hs₁] at hds'
            cases hds'
            rw [Holds, targets_execute ds hset]
            exact hs ds hds
        cases i with
        | set joint interface x =>
            simp only [targetSystem, targetStep] at hstep
            split at hstep
            case isFalse => cases hstep
            case isTrue hjoint =>
                obtain ⟨⟨s₁, es₁⟩, hstep₁, heq⟩ := Option.map_eq_some_iff.mp hstep
                cases heq
                refine ⟨Historically.cons hh trivial, fun ds' hds' => ?_⟩
                obtain ⟨ds, rfl, -, hs₁ | hs₁⟩ := step_cases hstep₁
                · rw [hs₁] at hds'
                  cases hds'
                · rw [hs₁] at hds'
                  cases hds'
                  have hlt : joint < ds.length := hjoint
                  show Mirrors _ _ _ (targets (ds.modify joint fun d => setTarget x d interface))
                  rw [targets_modify hlt]
                  exact (hs ds rfl).write rfl
        | write modes => cases hstep
        | activate succeeds => exact hcallback (by simp) hstep
        | deactivate succeeds => exact hcallback (by simp) hstep
        | read motors => exact hcallback (by simp) hstep
        | switch startInterfaces stopInterfaces accepts => exact hcallback (by simp) hstep
    | write env =>
        cases s with
        | none => cases hstep
        | some ds =>
            have hes := own_write (hs ds rfl) hok
            cases hstep
            refine ⟨hh.append hes, fun ds' hds' => ?_⟩
            have hds' : (walk (giveTarget env) 0 ds).1 = ds' := by
              split at hds' <;> cases hds'
              rfl
            have hkept : targets ds' = targets ds := by
              rw [← hds']
              exact targets_congr fun interface =>
                map_walk fun j d => by rw [(giveTarget_cases env j d).1]
            rw [Holds, hkept]
            exact (hs ds rfl).silent fun e he => (hes e he).2

end RobotSystem

/-! ## Both classes -/

/-- **No uncommanded target.**  Along every run in which a motor of `Cia402System` may take only
what has been written before, one of `RobotSystem` only what is for its own joint, and the modes
stay for one quantity in between, every target that a motor takes is the scaled value that a
controller has written last. -/
theorem targets_commanded (c₁ : Cia402System.TargetConfig) (c₂ : RobotConfig) :
    (∀ (h : List TargetEvent) (s : Option Cia402System.Targets),
      Reach (Cia402System.targetSystem c₁) (Cia402System.heeded c₁) h s →
        Commanded (fun joint => c₁.joints[joint]?) h) ∧
      ∀ (h : List TargetEvent) (s : Option (List Cia402Data)),
        Reach (RobotSystem.targetSystem c₂) (RobotSystem.heeded c₂) h s →
          Commanded (RobotSystem.ownMotor c₂) h :=
  ⟨fun _ _ hr => (Cia402System.commanded_of_reach hr).1,
    fun _ _ hr => (RobotSystem.commanded_of_reach hr).1⟩

/-- A channel without a scaling. -/
def plainScaling : ChannelScaling := ⟨.fin 1, .fin 0, .fin 1⟩

/-- A cycle meets a motor that nothing else is doing anything with. -/
def Encounter.quiet (m : Motor) : Encounter := ⟨true, some plainScaling, m, m, m⟩

/-- One joint with a motor. -/
def Cia402System.single : TargetConfig := ⟨[(2, 0)], [2]⟩

def RobotSystem.single : RobotConfig where
  joints := [⟨"joint", "ros2_canopen::Cia402Driver", some 2, none, none, some 3, none⟩]
  drivers := fun n => if n = 2 then some "ros2_canopen::Cia402Driver" else none

/-- An enabled motor in `Profiled_Velocity`. -/
def velocityMotor : Motor :=
  { (MotorSystem.zeroed 0 []).motor with
    state := .operationEnable
    modes := fun id => Mode.fresh id Env.velocity.raw
    selectedMode := some ModeId.profiledVelocity }

/-- A controller writes a velocity, and the motor takes it. -/
theorem targets_commanded_velocity : ∃ h₁ h₂,
    .accepted (2, 0) plainScaling ModeId.profiledVelocity (.fin 5) ∈ h₁ ∧
      .accepted (2, 0) plainScaling ModeId.profiledVelocity (.fin 5) ∈ h₂ ∧
      Commanded (fun joint => Cia402System.single.joints[joint]?) h₁ ∧
      Commanded (RobotSystem.ownMotor RobotSystem.single) h₂ := by
  have hrun₁ : ((Cia402System.targetSystem Cia402System.single).runIf
      (Cia402System.heeds Cia402System.single)
      [.set 0 .velocity (.fin 5), .write fun _ => .quiet velocityMotor] []
      (some fun _ => .fin 0)).any (fun p => decide
        (.accepted (2, 0) plainScaling ModeId.profiledVelocity (.fin 5) ∈ p.1)) = true := by
    decide +kernel
  have hrun₂ : ((RobotSystem.targetSystem RobotSystem.single).runIf
      (fun _ => RobotSystem.heeds RobotSystem.single)
      [.callback (.set 0 .velocity (.fin 5)), .write fun _ => .quiet velocityMotor] []
      (some (RobotSystem.configured RobotSystem.single))).any (fun p => decide
        (.accepted (2, 0) plainScaling ModeId.profiledVelocity (.fin 5) ∈ p.1)) = true := by
    decide +kernel
  obtain ⟨h₁, s₁, hr₁, hmem₁⟩ :=
    System.exists_reach_runIf _ (.init rfl) (fun _ _ _ hok => hok) hrun₁
  obtain ⟨h₂, s₂, hr₂, hmem₂⟩ :=
    System.exists_reach_runIf _ (.init rfl) (fun _ _ _ hok => hok) hrun₂
  have hboth := targets_commanded Cia402System.single RobotSystem.single
  exact ⟨h₁, h₂, of_decide_eq_true hmem₁, of_decide_eq_true hmem₂, hboth.1 _ _ hr₁, hboth.2 _ _ hr₂⟩

/-- A motor is initialised and put into `Profiled_Velocity`, and the first cycle of `Cia402System`
makes it take the target zero, which nobody has written. -/
theorem target_uncommanded : ∃ (hm : List MotorEvent) (sm : MotorSystem) (h : List TargetEvent)
    (s : Option Cia402System.Targets), Reach MotorSystem.system Guard.free hm sm ∧
      Reach (Cia402System.targetSystem Cia402System.single) Guard.free h s ∧
      h = [.accepted (2, 0) plainScaling ModeId.profiledVelocity (.fin 0)] ∧
      ¬ Commanded (fun joint => Cia402System.single.joints[joint]?) h := by
  have hrun : (MotorSystem.system.run (List.flatten
      [MotorStep.calls 1 .handleInit 10 Env.velocity,
        MotorStep.calls 1 (.enterModeAndWait ModeId.profiledVelocity) 11 Env.velocity]) []
      (.zeroed 0 [ModeId.profiledVelocity])).any (fun p =>
        ((Cia402System.targetSystem Cia402System.single).step (some fun _ => .fin 0)
          (.write fun _ => .quiet p.2.motor)).any fun q => decide
            (q.2 = [.accepted (2, 0) plainScaling ModeId.profiledVelocity (.fin 0)])) = true := by
    decide +kernel
  obtain ⟨hm, sm, hr, hrun⟩ :=
    MotorSystem.system.exists_reach_run (.init (MotorSystem.constructed_zeroed 0 _)) hrun
  obtain ⟨⟨s, es⟩, hstep, hes⟩ := (Option.any_eq_true _ _).mp hrun
  have hes : es = [.accepted (2, 0) plainScaling ModeId.profiledVelocity (.fin 0)] :=
    of_decide_eq_true hes
  refine ⟨hm, sm, es ++ [], s, hr, .step (.init rfl) trivial hstep, ?_, ?_⟩
  · rw [hes, List.append_nil]
  · intro hcommanded
    rw [hes] at hcommanded
    obtain ⟨joint, interface, v, -, -, hlast, -⟩ := hcommanded [] _ [] rfl
    cases hlast

end RosCanopen.Ros2Control
