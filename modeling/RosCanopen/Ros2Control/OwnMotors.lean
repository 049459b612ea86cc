import RosCanopen.Ros2Control.RobotSystem

/-!
# Which motors a joint's calls address

The channel of a joint is read from its device and kept in its data, and no call of a driver
passes it on.  The node id is kept in eight bits.  A joint's calls go to its own motor exactly
when the joint is at channel 0 of a node whose id fits.

## Main definitions

* `Joint.motor`, `Wired` — the motor that a joint is configured with, and that it is there.
* `OwnMotors` — every call for a joint addresses its own motor.
-/

namespace RosCanopen.Ros2Control

open Lib Cia402

/-- The motor that the device of the joint names. -/
def Joint.motor (joint : Joint) : Option MotorKey :=
  joint.nodeId.map fun n => (n, joint.channel.getD 0)

/-- Every joint has a motor of its own, behind a registered driver. -/
structure Wired (c : RobotConfig) : Prop where
  distinct : (c.joints.map Joint.motor).Nodup
  registered : ∀ joint ∈ c.joints, ∃ n, joint.nodeId = some n ∧
    c.drivers n = some "ros2_canopen::Cia402Driver"

/-- What a call or a report should be about. -/
def RobotEvent.Own (c : RobotConfig) : RobotEvent → Prop
  | called j motor _ => ∃ joint key, c.joints[j]? = some joint ∧ joint.motor = some key ∧
      motor = some key
  | reported j shown motors => ∃ joint key, c.joints[j]? = some joint ∧
      joint.motor = some key ∧ shown = motors key
  | switched _ _ _ _ => True

/-- Every call on behalf of a joint addresses its motor, no two joints address one motor, and
what is reported for a joint is the state of its motor. -/
structure OwnMotors (c : RobotConfig) (h : List RobotEvent) : Prop where
  own : ∀ e ∈ h, e.Own c
  apart : ∀ j j' motor call call', .called j motor call ∈ h → .called j' motor call' ∈ h → j = j'

/-- The joint is at channel 0 of a node whose id fits in eight bits. -/
def Joint.Plain (joint : Joint) : Prop :=
  joint.channel.getD 0 = 0 ∧ ∀ n ∈ joint.nodeId, n.toNat < 2 ^ 8

namespace RobotSystem
variable {c : RobotConfig}

/-! ## The motors that are addressed -/

/-- The data that the device of the joint gives. -/
theorem configured_eq (hc : Wired c) :
    configured c = c.joints.map fun joint =>
      ((Cia402Data.ofDevice joint (joint.nodeId.getD 0)).allocate c.drivers) := by
  have hall : c.joints.filterMap Cia402Data.initData =
      c.joints.map fun joint => Cia402Data.ofDevice joint (joint.nodeId.getD 0) := by
    rw [List.filterMap_eq_map_iff_forall_eq_some]
    intro joint hjoint
    obtain ⟨n, hn, -⟩ := hc.registered joint hjoint
    simp [Cia402Data.initData, hn]
  rw [configured, hall, List.map_map]
  rfl

/-- A joint's calls go to its motor when the joint is plain, and only then. -/
theorem motor_allocate (hc : Wired c) {joint : Joint} (hjoint : joint ∈ c.joints) :
    ((Cia402Data.ofDevice joint (joint.nodeId.getD 0)).allocate c.drivers).motor = joint.motor ↔
      joint.Plain := by
  obtain ⟨n, hn, hdriver⟩ := hc.registered joint hjoint
  have hwidth : (n.setWidth 8).setWidth 16 = n ↔ n.toNat < 2 ^ 8 := by
    rw [← BitVec.toNat_inj]
    simp only [BitVec.toNat_setWidth]
    omega
  simp only [Joint.Plain, Joint.motor, hn, Option.getD_some, Option.map_some, Option.mem_some_iff,
    forall_eq', ← hwidth]
  unfold Cia402Data.allocate
  by_cases hfits : (n.setWidth 8).setWidth 16 = n
  · have hnode : (Cia402Data.ofDevice joint n).nodeId.setWidth 16 = n := hfits
    rw [hnode, if_pos hdriver]
    simp [Cia402Data.motor, hfits, eq_comm]
  · have hnode : (Cia402Data.ofDevice joint n).nodeId.setWidth 16 ≠ n := hfits
    constructor
    · intro hmotor
      split at hmotor
      · simp only [Cia402Data.motor, Option.map_some, Option.some.injEq, Prod.mk.injEq] at hmotor
        exact absurd hmotor.1 hnode
      · simp [Cia402Data.motor, Cia402Data.ofDevice] at hmotor
    · intro hplain
      exact absurd hplain.2 hfits

/-! ## What a step keeps, and what it calls -/

theorem motor_readState (motors : MotorKey → MotorState) (j : ℕ) (d : Cia402Data) :
    (d.readState motors j).1.motor = d.motor := by
  unfold Cia402Data.readState
  split <;> rfl

theorem motor_writeTarget (modes : MotorKey → ModeId) (j : ℕ) (d : Cia402Data) :
    (d.writeTarget modes j).1.motor = d.motor := by
  unfold Cia402Data.writeTarget
  split <;> rfl

theorem motor_performSwitch (accepts : MotorKey → ModeId → Bool) (j : ℕ) (d : Cia402Data) :
    (d.performSwitch accepts j).1.motor = d.motor := by
  unfold Cia402Data.performSwitch
  split <;> rfl

/-- What a registration does not change of the data. -/
theorem map_register {α : Type*} {g : Cia402Data → α} {f : Cia402Data → Cia402Data}
    (hf : ∀ d, g (f d) = g d) (interface : String) (ds : List Cia402Data) :
    (register f interface ds).map g = ds.map g := by
  induction ds with
  | nil => rfl
  | cons d ds ih =>
      rw [register]
      split
      · simp [hf]
      · simp [ih]

theorem map_foldl_register {α : Type*} {g : Cia402Data → α}
    {f : String → Cia402Data → Cia402Data} (hf : ∀ interface d, g (f interface d) = g d)
    (interfaces : List String) (ds : List Cia402Data) :
    (interfaces.foldl (fun ds interface => register (f interface) interface ds) ds).map g =
      ds.map g := by
  induction interfaces generalizing ds with
  | nil => rfl
  | cons interface interfaces ih =>
      rw [List.foldl_cons, ih]
      exact map_register (hf interface) interface ds

theorem map_registerAll {α : Type*} {g : Cia402Data → α}
    (hstart : ∀ d l, g { d with interfacesToStart := l } = g d)
    (hstop : ∀ d l, g { d with interfacesToStop := l } = g d)
    (startInterfaces stopInterfaces : List String) (ds : List Cia402Data) :
    (registerAll startInterfaces stopInterfaces ds).map g = ds.map g := by
  have hstopped := map_foldl_register (g := g) (f := fun interface d =>
    { d with interfacesToStop := d.interfacesToStop ++ [interface] }) (fun _ d => hstop d _)
  have hstarted := map_foldl_register (g := g) (f := fun interface d =>
    { d with interfacesToStart := d.interfacesToStart ++ [interface] }) (fun _ d => hstart d _)
  exact (hstopped stopInterfaces _).trans (hstarted startInterfaces ds)

/-- The data address the motors of the joints. -/
def Addresses (c : RobotConfig) (ds : List Cia402Data) : Prop :=
  ds.map Cia402Data.motor = c.joints.map Joint.motor

theorem Addresses.execute {ds : List Cia402Data} (h : Addresses c ds) (i : RobotInput) :
    Addresses c (execute ds i).1 := by
  unfold Addresses at h ⊢
  cases hi : i.isSwitch with
  | false =>
      refine (map_execute (fun _ _ _ _ => rfl) (fun x d interface => ?_) ds hi).trans h
      cases interface <;> rfl
  | true =>
      cases i with
      | switch startInterfaces stopInterfaces accepts =>
          have hregistered := map_registerAll (g := Cia402Data.motor) (fun _ _ => rfl)
            (fun _ _ => rfl) startInterfaces stopInterfaces ds
          exact ((map_walk (motor_performSwitch accepts)).trans hregistered).trans h
      | _ => cases hi

/-- The data address the motor of the joint at the index. -/
def OwnAt (c : RobotConfig) (j : ℕ) (d : Cia402Data) : Prop :=
  ∃ joint key, c.joints[j]? = some joint ∧ joint.motor = some key ∧ d.motor = some key

/-- The motor that the data of a joint address is the joint's. -/
theorem Addresses.own (hc : Wired c) {ds : List Cia402Data} (h : Addresses c ds) {j : ℕ}
    {d : Cia402Data} (hd : ds[j]? = some d) :
    OwnAt c j d := by
  have hmotor : (c.joints.map Joint.motor)[j]? = some d.motor := by
    rw [← h, List.getElem?_map, hd, Option.map_some]
  rw [List.getElem?_map] at hmotor
  obtain ⟨joint, hjoint, heq⟩ := Option.map_eq_some_iff.mp hmotor
  obtain ⟨n, hn, -⟩ := hc.registered joint (List.mem_of_getElem? hjoint)
  have hkey : joint.motor = some (n, joint.channel.getD 0) := by simp [Joint.motor, hn]
  exact ⟨joint, _, hjoint, hkey, heq ▸ hkey⟩

theorem OwnAt.request {call : MotorCall} {succeeds : MotorKey → Bool} {j : ℕ} {d : Cia402Data}
    (h : OwnAt c j d) : ∀ e ∈ (d.request call succeeds j).2.2, e.Own c := by
  intro e he
  obtain rfl : e = .called j d.motor call := by simpa [Cia402Data.request] using he
  exact h

theorem OwnAt.readState {motors : MotorKey → MotorState} {j : ℕ} {d : Cia402Data}
    (h : OwnAt c j d) : ∀ e ∈ (d.readState motors j).2.2, e.Own c := by
  obtain ⟨joint, key, hjoint, hkey, hmotor⟩ := h
  intro e he
  simp only [Cia402Data.readState, hmotor, List.mem_cons, List.not_mem_nil, or_false] at he
  rcases he with rfl | rfl | rfl | rfl <;> exact ⟨joint, key, hjoint, hkey, rfl⟩

theorem OwnAt.writeTarget {modes : MotorKey → ModeId} {j : ℕ} {d : Cia402Data}
    (h : OwnAt c j d) : ∀ e ∈ (d.writeTarget modes j).2.2, e.Own c := by
  obtain ⟨joint, key, hjoint, hkey, hmotor⟩ := h
  intro e he
  simp only [Cia402Data.writeTarget, hmotor, List.mem_append, Option.mem_toList, List.mem_cons,
    List.not_mem_nil, or_false, Option.map_eq_some_iff] at he
  rcases he with ⟨x, -, rfl⟩ | rfl <;> exact ⟨joint, key, hjoint, hkey, rfl⟩

theorem OwnAt.performSwitch {accepts : MotorKey → ModeId → Bool} {j : ℕ} {d : Cia402Data}
    (h : OwnAt c j d) : ∀ e ∈ (d.performSwitch accepts j).2.2, e.Own c := by
  intro e he
  unfold Cia402Data.performSwitch at he
  split at he
  · simp at he
  · obtain rfl := List.mem_singleton.mp he
    exact h
  · simp at he

/-- Every call of a step addresses the joint's motor. -/
theorem Addresses.events (hc : Wired c) {ds : List Cia402Data} (h : Addresses c ds)
    (i : RobotInput) : ∀ e ∈ (RobotSystem.execute ds i).2.2, e.Own c := by
  have hat : ∀ (ds' : List Cia402Data), Addresses c ds' → ∀ j d, ds'[j]? = some d →
      OwnAt c (0 + j) d := by
    intro ds' h' j d hd
    rw [Nat.zero_add]
    exact h'.own hc hd
  have hkeep : ∀ {j : ℕ} {d d' : Cia402Data}, d'.motor = d.motor → OwnAt c j d → OwnAt c j d' := by
    intro j d d' heq hown
    unfold OwnAt
    rwa [heq]
  cases i with
  | activate succeeds =>
      exact (walk_invariant (fun j d hd => ⟨hd, hd.request⟩) (hat ds h)).2
  | deactivate succeeds =>
      exact (walk_invariant (fun j d hd => ⟨hd, hd.request⟩) (hat ds h)).2
  | read motors =>
      exact (walk_invariant (fun j d hd => ⟨hkeep (motor_readState motors j d) hd, hd.readState⟩)
        (hat ds h)).2
  | set joint interface x => exact fun e he => nomatch he
  | write modes =>
      exact (walk_invariant (fun j d hd => ⟨hkeep (motor_writeTarget modes j d) hd, hd.writeTarget⟩)
        (hat ds h)).2
  | switch startInterfaces stopInterfaces accepts =>
      have hregistered : Addresses c (registerAll startInterfaces stopInterfaces ds) :=
        (map_registerAll (fun _ _ => rfl) (fun _ _ => rfl) startInterfaces stopInterfaces
          ds).trans h
      have hwalk := (walk_invariant (fun j d hd =>
        ⟨hkeep (motor_performSwitch accepts j d) hd, hd.performSwitch⟩) (hat _ hregistered)).2
      intro e he
      rcases List.mem_cons.mp he with rfl | he
      · trivial
      · exact hwalk e he

/-- A run addresses the motors of the joints. -/
theorem own_of_plain (hc : Wired c) (hplain : ∀ joint ∈ c.joints, joint.Plain)
    {h : List RobotEvent} {s : Option (List Cia402Data)}
    (hr : Reach (system c) Guard.free h s) : ∀ e ∈ h, e.Own c := by
  have hinv : (∀ ds, s = some ds → Addresses c ds) ∧ ∀ e ∈ h, e.Own c := by
    apply hr.invariant (I := fun h s => (∀ ds, s = some ds → Addresses c ds) ∧ ∀ e ∈ h, e.Own c)
    · intro s hs
      obtain rfl : s = some (configured c) := hs
      refine ⟨?_, fun e he => nomatch he⟩
      rintro ds ⟨⟩
      unfold Addresses
      rw [configured_eq hc, List.map_map]
      apply List.map_congr_left
      intro joint hjoint
      exact (motor_allocate hc hjoint).mpr (hplain joint hjoint)
    · intro h s i s' es hI _ hstep
      obtain ⟨ds, rfl, rfl, hs'⟩ := step_cases hstep
      have hds := hI.1 ds rfl
      refine ⟨?_, fun e he => ?_⟩
      · rcases hs' with rfl | rfl
        · exact fun _ heq => nomatch heq
        · rintro ds' ⟨⟩
          exact hds.execute i
      · rcases List.mem_append.mp he with he | he
        · exact hds.events hc i e he
        · exact hI.2 e he
  exact hinv.2

/-- A first read calls for each joint whose predecessors have drivers. -/
theorem getPosition_mem {ds : List Cia402Data} {motors : MotorKey → MotorState} {j : ℕ}
    {d : Cia402Data} (hd : ds[j]? = some d)
    (hpre : ∀ j' d', j' < j → ds[j']? = some d' → d'.motor.isSome = true) :
    .called j d.motor .getPosition ∈ (RobotSystem.execute ds (.read motors)).2.2 := by
  apply mem_walk (f := Cia402Data.readState motors) (j := 0) (i := j) _ hd
  · rw [Nat.zero_add]
    cases hmotor : d.motor <;> simp [Cia402Data.readState, hmotor]
  · intro j' d' hj' hd'
    obtain ⟨a, ha⟩ := Option.isSome_iff_exists.mp (hpre j' d' hj' hd')
    simp [Cia402Data.readState, ha]

/-- **The calls of a component address its joints' own motors in every run exactly when each
joint is at channel 0 of a node whose id fits.** -/
theorem ownMotors_iff (hc : Wired c) :
    (∀ h s, Reach (system c) Guard.free h s → OwnMotors c h) ↔
      ∀ joint ∈ c.joints, joint.Plain := by
  constructor
  · intro hown
    have hread : Reach (system c) Guard.free _ _ :=
      .step (i := .read fun _ => ⟨.nan, .nan, .nan⟩) (.init rfl) trivial rfl
    have hevents := (hown _ _ hread).own
    have hplain : ∀ (j : ℕ) (joint : Joint), c.joints[j]? = some joint → joint.Plain := by
      intro j
      induction j using Nat.strong_induction_on with
      | _ j ih =>
          intro joint hjoint
          have hd : (configured c)[j]? =
              some ((Cia402Data.ofDevice joint (joint.nodeId.getD 0)).allocate c.drivers) := by
            rw [configured_eq hc, List.getElem?_map, hjoint, Option.map_some]
          have hpre : ∀ j' d', j' < j → (configured c)[j']? = some d' → d'.motor.isSome = true := by
            intro j' d' hj' hd'
            rw [configured_eq hc, List.getElem?_map] at hd'
            obtain ⟨joint', hjoint', rfl⟩ := Option.map_eq_some_iff.mp hd'
            have hmem := List.mem_of_getElem? hjoint'
            obtain ⟨n, hn, -⟩ := hc.registered joint' hmem
            rw [(motor_allocate hc hmem).mpr (ih j' hj' joint' hjoint')]
            simp [Joint.motor, hn]
          have hcalled := hevents _ (List.mem_append_left _ (getPosition_mem hd hpre))
          obtain ⟨joint', key, hjoint', hkey, hmotor⟩ := hcalled
          obtain rfl : joint = joint' := by simpa [hjoint] using hjoint'
          exact (motor_allocate hc (List.mem_of_getElem? hjoint)).mp (hmotor.trans hkey.symm)
    intro joint hjoint
    obtain ⟨j, hj⟩ := List.getElem?_of_mem hjoint
    exact hplain j joint hj
  · intro hplain h s hr
    have hown := own_of_plain hc hplain hr
    refine ⟨hown, fun j j' motor call call' hj hj' => ?_⟩
    obtain ⟨joint, key, hjoint, hkey, hmotor⟩ := hown _ hj
    obtain ⟨joint', key', hjoint', hkey', hmotor'⟩ := hown _ hj'
    have hsame : (c.joints.map Joint.motor)[j]? = (c.joints.map Joint.motor)[j']? := by
      rw [List.getElem?_map, List.getElem?_map, hjoint, hjoint', Option.map_some, Option.map_some,
        hkey, hkey', ← hmotor, ← hmotor']
    have hlt : j < (c.joints.map Joint.motor).length := by
      rw [List.length_map]
      exact (List.getElem?_eq_some_iff.mp hjoint).1
    exact (List.getElem?_inj hlt hc.distinct).mp hsame

/-! ## Configurations -/

/-- A joint without command interfaces at a channel of a node. -/
def jointAt (name : String) (nodeId : BitVec 16) (channel : BitVec 8) : Joint :=
  ⟨name, "ros2_canopen::Cia402Driver", some nodeId, some channel, none, none, none⟩

/-- Two joints, each at its node. -/
def twoNodes : RobotConfig where
  joints := [jointAt "left" 1 0, jointAt "right" 2 0]
  drivers n := if n = 1 ∨ n = 2 then some "ros2_canopen::Cia402Driver" else none

theorem wired_twoNodes : Wired twoNodes where
  distinct := by decide
  registered := by
    intro joint hjoint
    simp only [twoNodes, List.mem_cons, List.not_mem_nil, or_false] at hjoint
    rcases hjoint with rfl | rfl
    · exact ⟨1, rfl, rfl⟩
    · exact ⟨2, rfl, rfl⟩

theorem ownMotors_twoNodes : Wired twoNodes ∧
    ∀ h s, Reach (system twoNodes) Guard.free h s → OwnMotors twoNodes h := by
  refine ⟨wired_twoNodes, (ownMotors_iff wired_twoNodes).mpr ?_⟩
  intro joint hjoint
  simp only [twoNodes, List.mem_cons, List.not_mem_nil, or_false] at hjoint
  rcases hjoint with rfl | rfl <;> exact ⟨rfl, by rintro n ⟨⟩; decide⟩

/-- Two joints at two channels of one node. -/
def twoChannels : RobotConfig where
  joints := [jointAt "left" 1 0, jointAt "right" 1 1]
  drivers n := if n = 1 then some "ros2_canopen::Cia402Driver" else none

theorem wired_twoChannels : Wired twoChannels where
  distinct := by decide
  registered := by
    intro joint hjoint
    simp only [twoChannels, List.mem_cons, List.not_mem_nil, or_false] at hjoint
    rcases hjoint with rfl | rfl <;> exact ⟨1, rfl, rfl⟩

/-- A read asks the motor of the first joint on behalf of the second. -/
theorem not_ownMotors : ¬ ∀ c, Wired c → ∀ h s, Reach (system c) Guard.free h s →
    OwnMotors c h := by
  intro hown
  have hread : Reach (system twoChannels) Guard.free _ _ :=
    .step (i := .read fun _ => ⟨.nan, .nan, .nan⟩) (.init rfl) trivial rfl
  have hcalled := (hown _ wired_twoChannels _ _ hread).own
    (.called 1 (some (1, 0)) .getPosition)
    (List.mem_append_left _ (List.mem_of_getElem? (i := 3) rfl))
  obtain ⟨joint, key, hjoint, hkey, hmotor⟩ := hcalled
  obtain rfl : jointAt "right" 1 1 = joint := by simpa [twoChannels] using hjoint
  obtain rfl := Option.some.inj hmotor
  exact absurd hkey (by decide)

end RobotSystem

end RosCanopen.Ros2Control
