import RosCanopen.Ros2Control.OwnMotors

/-!
# Switching command modes

A mode switch registers the interfaces to start and to stop at their joints and then switches
joint by joint, up to the first that fails.  A joint's lists are cleared by its own switch, so
those of a joint that only stops, that fails or that is not reached any more stay for the next
call, and an interface counts as running before the drive has accepted its mode.

## Main definitions

* `expected` — the interfaces that should be running after a history of switches.
* `RobotSystem.Tracks` — nothing stays pending, and what runs is what should.
* `RobotSystem.tidy` — the switches that keep it so.
-/

namespace RosCanopen.Ros2Control

open Lib Cia402

/-! ## What a switch should do -/

/-- What a switch depends on in the data of a joint. -/
structure JointDevice where
  motor : Option MotorKey
  modes : List (String × ModeId)
  interfaces : List String

def Cia402Data.device (d : Cia402Data) : JointDevice :=
  ⟨d.motor, d.commandInterfaceToOperationMode, d.interfaces⟩

/-- The joint an interface is registered at: the first that has it. -/
def owner (devices : List JointDevice) (interface : String) : Option ℕ :=
  devices.findIdx? fun d => interface ∈ d.interfaces

/-- The interfaces of a list that are registered at the joint. -/
def requestsOf (devices : List JointDevice) (j : ℕ) (interfaces : List String) : List String :=
  interfaces.filter fun interface => owner devices interface = some j

/-- There is at most one interface to start, and the drive accepts its mode. -/
def JointDevice.succeeds (d : JointDevice) (accepts : MotorKey → ModeId → Bool) :
    List String → Bool
  | [] => true
  | [interface] => d.motor.any fun a => accepts a ((d.modes.lookup interface).getD .noMode)
  | _ :: _ :: _ => false

def succeedsAt (devices : List JointDevice) (startInterfaces : List String)
    (accepts : MotorKey → ModeId → Bool) (j : ℕ) : Bool :=
  devices[j]?.all fun d => d.succeeds accepts (requestsOf devices j startInterfaces)

/-- What a switch should return. -/
def outcome (devices : List JointDevice) (startInterfaces : List String)
    (accepts : MotorKey → ModeId → Bool) : Bool :=
  (List.range devices.length).all (succeedsAt devices startInterfaces accepts)

/-- What should run at the joint after a switch: what was started with success, and otherwise
what ran before and is not stopped.  A joint that the switch does not get to has failed. -/
def runningAfter (devices : List JointDevice) (startInterfaces stopInterfaces : List String)
    (accepts : MotorKey → ModeId → Bool) (j : ℕ) (running : List String) : List String :=
  match requestsOf devices j startInterfaces with
  | [] => running.filter fun interface => interface ∉ requestsOf devices j stopInterfaces
  | [interface] =>
      if (List.range (j + 1)).all (succeedsAt devices startInterfaces accepts) then [interface]
      else []
  | _ :: _ :: _ => []

/-- What should run at the joint after a history. -/
def expected (devices : List JointDevice) (j : ℕ) : List RobotEvent → List String
  | [] => []
  | .switched startInterfaces stopInterfaces accepts _ :: h =>
      runningAfter devices startInterfaces stopInterfaces accepts j (expected devices j h)
  | .called _ _ _ :: h => expected devices j h
  | .reported _ _ _ :: h => expected devices j h

def RobotEvent.isSwitch : RobotEvent → Bool
  | switched _ _ _ _ => true
  | _ => false

namespace RobotSystem
variable {c : RobotConfig}

def devices (c : RobotConfig) : List JointDevice := (configured c).map Cia402Data.device

/-- No joint has anything pending, what runs is what should, and each switch has returned
what follows from its own lists and the drives. -/
structure Tracks (c : RobotConfig) (h : List RobotEvent) (s : Option (List Cia402Data)) :
    Prop where
  toStart : ∀ ds, s = some ds → ∀ d ∈ ds, d.interfacesToStart = []
  toStop : ∀ ds, s = some ds → ∀ d ∈ ds, d.interfacesToStop = []
  running : ∀ ds, s = some ds → ∀ j d, ds[j]? = some d →
    d.interfacesToRunning = expected (devices c) j h
  outcomes : ∀ startInterfaces stopInterfaces accepts ok,
    .switched startInterfaces stopInterfaces accepts ok ∈ h →
      ok = outcome (devices c) startInterfaces accepts

/-- The switches that leave nothing behind: every joint has at most one interface to start, which
the drive accepts, and stops nothing unless it starts something. -/
def tidy (c : RobotConfig) : Guard (Option (List Cia402Data)) RobotInput RobotEvent :=
  fun _ _ i =>
    match i with
    | .switch startInterfaces stopInterfaces accepts =>
        outcome (devices c) startInterfaces accepts = true ∧
          ∀ j < (devices c).length, requestsOf (devices c) j startInterfaces = [] →
            requestsOf (devices c) j stopInterfaces = []
    | _ => True

instance decidableTidy {h : List RobotEvent} {s : Option (List Cia402Data)} :
    ∀ i, Decidable (tidy c h s i)
  | .switch startInterfaces stopInterfaces accepts => inferInstanceAs (Decidable
      (outcome (devices c) startInterfaces accepts = true ∧
        ∀ j < (devices c).length, requestsOf (devices c) j startInterfaces = [] →
          requestsOf (devices c) j stopInterfaces = []))
  | .activate _ | .deactivate _ | .read _ | .set _ _ _ | .write _ => .isTrue trivial

/-! ## Registering -/

theorem getElem?_register (f : Cia402Data → Cia402Data) (interface : String)
    (ds : List Cia402Data) (j : ℕ) :
    (register f interface ds)[j]? =
      ds[j]?.map fun d =>
        if owner (ds.map Cia402Data.device) interface = some j then f d else d := by
  induction ds generalizing j with
  | nil => simp [register]
  | cons d ds ih =>
      by_cases hmem : interface ∈ d.interfaces
      · rw [register, if_pos hmem]
        have howner : owner ((d :: ds).map Cia402Data.device) interface = some 0 := by
          simp [owner, List.findIdx?_cons, Cia402Data.device, hmem]
        rw [howner]
        cases j with
        | zero => simp
        | succ j => simp
      · rw [register, if_neg hmem]
        have howner : owner ((d :: ds).map Cia402Data.device) interface =
            (owner (ds.map Cia402Data.device) interface).map (· + 1) := by
          simp [owner, List.findIdx?_cons, Cia402Data.device, hmem]
        rw [howner]
        cases j with
        | zero => cases owner (ds.map Cia402Data.device) interface <;> simp
        | succ j =>
            rw [List.getElem?_cons_succ, List.getElem?_cons_succ, ih]
            cases owner (ds.map Cia402Data.device) interface <;> simp

/-- Interfaces that are registered one after the other. -/
theorem getElem?_foldl_register (add : List String → Cia402Data → Cia402Data)
    (hnil : ∀ d, add [] d = d) (happend : ∀ l l' d, add l' (add l d) = add (l ++ l') d)
    (hdevice : ∀ l d, (add l d).device = d.device) (interfaces : List String)
    (ds : List Cia402Data) (j : ℕ) :
    (interfaces.foldl (fun ds interface => register (add [interface]) interface ds) ds)[j]? =
      ds[j]?.map (add (requestsOf (ds.map Cia402Data.device) j interfaces)) := by
  induction interfaces generalizing ds with
  | nil =>
      have hid : add [] = id := funext hnil
      simp [requestsOf, hid]
  | cons interface interfaces ih =>
      rw [List.foldl_cons, ih, map_register (hdevice _), getElem?_register, Option.map_map]
      congr 1
      funext d
      by_cases howner : owner (ds.map Cia402Data.device) interface = some j
      · simp [requestsOf, howner, happend]
      · simp [requestsOf, howner]

/-- A joint with what is pending. -/
def requested (startInterfaces stopInterfaces : List String) (d : Cia402Data) : Cia402Data :=
  { d with interfacesToStart := startInterfaces, interfacesToStop := stopInterfaces }

/-- The lists of a joint after the registration. -/
theorem getElem?_registerAll (startInterfaces stopInterfaces : List String)
    (ds : List Cia402Data) (j : ℕ) :
    (registerAll startInterfaces stopInterfaces ds)[j]? =
      ds[j]?.map fun d => requested
        (d.interfacesToStart ++ requestsOf (ds.map Cia402Data.device) j startInterfaces)
        (d.interfacesToStop ++ requestsOf (ds.map Cia402Data.device) j stopInterfaces) d := by
  have hstart := getElem?_foldl_register
    (fun l d => { d with interfacesToStart := d.interfacesToStart ++ l })
    (fun _ => by simp) (fun _ _ _ => by simp) (fun _ _ => rfl) startInterfaces ds j
  have hdevice := map_foldl_register (g := Cia402Data.device)
    (f := fun interface d => { d with interfacesToStart := d.interfacesToStart ++ [interface] })
    (fun _ _ => rfl) startInterfaces ds
  have hstop := getElem?_foldl_register
    (fun l d => { d with interfacesToStop := d.interfacesToStop ++ l })
    (fun _ => by simp) (fun _ _ _ => by simp) (fun _ _ => rfl) stopInterfaces
    (startInterfaces.foldl (fun ds interface => register (fun d =>
      { d with interfacesToStart := d.interfacesToStart ++ [interface] }) interface ds) ds) j
  rw [hdevice, hstart, Option.map_map] at hstop
  exact hstop

/-! ## A joint's switch -/

theorem goes_performSwitch (accepts : MotorKey → ModeId → Bool) (j : ℕ) (d : Cia402Data) :
    (d.performSwitch accepts j).2.1 = d.device.succeeds accepts d.interfacesToStart := by
  unfold Cia402Data.performSwitch
  split
  · next heq => rw [heq]; rfl
  · next heq => rw [heq]; rfl
  · next heq => rw [heq]; rfl

theorem device_performSwitch (accepts : MotorKey → ModeId → Bool) (j : ℕ) (d : Cia402Data) :
    (d.performSwitch accepts j).1.device = d.device := by
  unfold Cia402Data.performSwitch
  split <;> rfl

/-- A joint that starts one interface, or has nothing pending, has nothing pending after it. -/
theorem settled_performSwitch (accepts : MotorKey → ModeId → Bool) (j : ℕ) (d : Cia402Data)
    (hsucceeds : d.device.succeeds accepts d.interfacesToStart = true)
    (hstop : d.interfacesToStart = [] → d.interfacesToStop = []) :
    (d.performSwitch accepts j).1.interfacesToStart = [] ∧
      (d.performSwitch accepts j).1.interfacesToStop = [] := by
  unfold Cia402Data.performSwitch
  split
  · next heq => exact ⟨heq, hstop heq⟩
  · exact ⟨rfl, rfl⟩
  · next heq => simp [JointDevice.succeeds, heq] at hsucceeds

theorem succeedsAt_of_outcome {devices : List JointDevice} {startInterfaces : List String}
    {accepts : MotorKey → ModeId → Bool} (h : outcome devices startInterfaces accepts = true)
    (j : ℕ) : succeedsAt devices startInterfaces accepts j = true := by
  by_cases hj : j < devices.length
  · exact List.all_eq_true.mp h j (List.mem_range.mpr hj)
  · simp [succeedsAt, List.getElem?_eq_none (Nat.le_of_not_lt hj)]

/-- What runs at a joint after a switch that succeeds everywhere. -/
theorem running_performSwitch {startInterfaces stopInterfaces : List String}
    {accepts : MotorKey → ModeId → Bool} {j : ℕ} {d : Cia402Data}
    {devices : List JointDevice} (houtcome : outcome devices startInterfaces accepts = true)
    (hstop : requestsOf devices j startInterfaces = [] → requestsOf devices j stopInterfaces = [])
    (hstart : d.interfacesToStart = requestsOf devices j startInterfaces)
    (hsucceeds : d.device.succeeds accepts d.interfacesToStart = true) :
    (d.performSwitch accepts j).1.interfacesToRunning =
      runningAfter devices startInterfaces stopInterfaces accepts j d.interfacesToRunning := by
  have hempty : d.interfacesToStart = [] → requestsOf devices j stopInterfaces = [] := by
    intro heq
    exact hstop (hstart.symm.trans heq)
  unfold Cia402Data.performSwitch runningAfter
  rw [← hstart]
  cases hinterfaces : d.interfacesToStart with
  | nil => simp [hempty hinterfaces]
  | cons interface rest =>
      cases rest with
      | nil =>
          have hall : (List.range (j + 1)).all (succeedsAt devices startInterfaces accepts) =
              true := List.all_eq_true.mpr fun j' _ => succeedsAt_of_outcome houtcome j'
          simp only [hall, if_true]
      | cons _ _ => simp [JointDevice.succeeds, hinterfaces] at hsucceeds

/-! ## Runs -/

/-- The lists of a joint that switches change, with what they depend on. -/
def lists (d : Cia402Data) : JointDevice × List String × List String × List String :=
  (d.device, d.interfacesToStart, d.interfacesToStop, d.interfacesToRunning)

/-- The lists that every joint should have after a history. -/
def settled (c : RobotConfig) (h : List RobotEvent) :
    List (JointDevice × List String × List String × List String) :=
  (devices c).mapIdx fun j v => (v, [], [], expected (devices c) j h)

theorem getElem?_settled {c : RobotConfig} {h : List RobotEvent} {ds : List Cia402Data}
    (hds : ds.map lists = settled c h) {j : ℕ} {d : Cia402Data} (hd : ds[j]? = some d) :
    lists d = (d.device, [], [], expected (devices c) j h) := by
  have hj : (ds.map lists)[j]? = some (lists d) := by simp [hd]
  rw [hds, settled, List.getElem?_mapIdx] at hj
  obtain ⟨v, hv, heq⟩ := Option.map_eq_some_iff.mp hj
  obtain rfl : v = d.device := congrArg Prod.fst heq
  exact heq.symm

theorem device_of_settled {c : RobotConfig} {h : List RobotEvent} {ds : List Cia402Data}
    (hds : ds.map lists = settled c h) : ds.map Cia402Data.device = devices c := by
  have hfst := congrArg (List.map Prod.fst) hds
  rw [List.map_map] at hfst
  refine hfst.trans ?_
  apply List.ext_getElem?
  intro j
  simp [settled, Function.comp_def]

theorem lists_configured : (configured c).map lists = settled c [] := by
  apply List.ext_getElem?
  intro j
  rw [settled, devices, List.getElem?_mapIdx, List.getElem?_map, List.getElem?_map, Option.map_map]
  cases hd : (configured c)[j]? with
  | none => rfl
  | some d =>
      obtain ⟨d₀, hd₀, rfl⟩ := List.mem_map.mp (List.mem_of_getElem? hd)
      obtain ⟨joint, -, hinit⟩ := List.mem_filterMap.mp hd₀
      obtain ⟨n, -, rfl⟩ := Option.map_eq_some_iff.mp hinit
      have hempty : lists ((Cia402Data.ofDevice joint n).allocate c.drivers) =
          (((Cia402Data.ofDevice joint n).allocate c.drivers).device, [], [], []) := by
        unfold Cia402Data.allocate
        split <;> rfl
      exact congrArg some hempty

/-- Nothing but a switch changes the lists. -/
theorem lists_execute (ds : List Cia402Data) {i : RobotInput} (hi : i.isSwitch = false) :
    (execute ds i).1.map lists = ds.map lists := by
  refine map_execute (fun _ _ _ _ => rfl) (fun x d interface => ?_) ds hi
  cases interface <;> rfl

/-- The events of a loop are no switches when those of a joint are not. -/
theorem not_isSwitch_walk {f : ℕ → Cia402Data → Cia402Data × Bool × List RobotEvent}
    (hf : ∀ j d, ∀ e ∈ (f j d).2.2, e.isSwitch = false) (ds : List Cia402Data) :
    ∀ e ∈ (walk f 0 ds).2.2, e.isSwitch = false :=
  (walk_invariant (P := fun _ _ => True) (fun j d _ => ⟨trivial, hf j d⟩) fun _ _ _ => trivial).2

theorem not_isSwitch_performSwitch (accepts : MotorKey → ModeId → Bool) (j : ℕ)
    (d : Cia402Data) : ∀ e ∈ (d.performSwitch accepts j).2.2, e.isSwitch = false := by
  unfold Cia402Data.performSwitch
  split <;> simp [RobotEvent.isSwitch]

theorem not_isSwitch_execute (ds : List Cia402Data) {i : RobotInput} (hi : i.isSwitch = false) :
    ∀ e ∈ (execute ds i).2.2, e.isSwitch = false := by
  cases i with
  | activate succeeds =>
      apply not_isSwitch_walk
      simp [Cia402Data.request, RobotEvent.isSwitch]
  | deactivate succeeds =>
      apply not_isSwitch_walk
      simp [Cia402Data.request, RobotEvent.isSwitch]
  | read motors =>
      apply not_isSwitch_walk
      intro j d
      unfold Cia402Data.readState
      split <;> simp [RobotEvent.isSwitch]
  | set joint interface x => simp [execute]
  | write modes =>
      apply not_isSwitch_walk
      intro j d
      unfold Cia402Data.writeTarget
      split
      · simp [RobotEvent.isSwitch]
      · intro e he
        simp only [List.mem_append, Option.mem_toList, List.mem_singleton,
          Option.map_eq_some_iff] at he
        rcases he with ⟨x, -, rfl⟩ | rfl <;> rfl
  | switch startInterfaces stopInterfaces accepts => cases hi

theorem expected_append {devices : List JointDevice} {j : ℕ} {es h : List RobotEvent}
    (hes : ∀ e ∈ es, e.isSwitch = false) :
    expected devices j (es ++ h) = expected devices j h := by
  induction es with
  | nil => rfl
  | cons e es ih =>
      have hrest := ih fun e' he' => hes e' (List.mem_cons_of_mem _ he')
      have he := hes e List.mem_cons_self
      cases e with
      | called j' motor call => exact hrest
      | reported j' shown motors => exact hrest
      | switched startInterfaces stopInterfaces accepts ok => cases he

/-- The joints of a tidy switch: what is registered at each, and that it succeeds. -/
theorem registered_of_settled {h : List RobotEvent} {ds : List Cia402Data}
    (hds : ds.map lists = settled c h) (startInterfaces stopInterfaces : List String) (j : ℕ) :
    (registerAll startInterfaces stopInterfaces ds)[j]? =
      ds[j]?.map (requested (requestsOf (devices c) j startInterfaces)
        (requestsOf (devices c) j stopInterfaces)) := by
  rw [getElem?_registerAll, device_of_settled hds]
  cases hd : ds[j]? with
  | none => rfl
  | some d =>
      have hlists := getElem?_settled hds hd
      simp only [lists, Prod.mk.injEq, true_and] at hlists
      rw [Option.map_some, Option.map_some, hlists.1, hlists.2.1, List.nil_append, List.nil_append]

/-- A tidy switch leaves nothing pending at a joint, and runs there what should. -/
theorem lists_performSwitch {startInterfaces stopInterfaces : List String}
    {accepts : MotorKey → ModeId → Bool} {j : ℕ} {d : Cia402Data}
    (hd : (devices c)[j]? = some d.device)
    (houtcome : outcome (devices c) startInterfaces accepts = true)
    (hstop : requestsOf (devices c) j startInterfaces = [] →
      requestsOf (devices c) j stopInterfaces = []) :
    ((requested (requestsOf (devices c) j startInterfaces) (requestsOf (devices c) j stopInterfaces)
        d).performSwitch accepts j).2.1 = true ∧
      lists ((requested (requestsOf (devices c) j startInterfaces)
        (requestsOf (devices c) j stopInterfaces) d).performSwitch accepts j).1 =
        (d.device, [], [], runningAfter (devices c) startInterfaces stopInterfaces accepts j
          d.interfacesToRunning) := by
  have hsucceeds : d.device.succeeds accepts (requestsOf (devices c) j startInterfaces) = true := by
    have hat := succeedsAt_of_outcome houtcome j
    rwa [succeedsAt, hd] at hat
  obtain ⟨hstart', hstop'⟩ := settled_performSwitch accepts j (requested
    (requestsOf (devices c) j startInterfaces) (requestsOf (devices c) j stopInterfaces) d)
    hsucceeds hstop
  refine ⟨(goes_performSwitch _ _ _).trans hsucceeds, ?_⟩
  rw [lists, device_performSwitch, hstart', hstop',
    running_performSwitch houtcome hstop rfl hsucceeds]
  rfl

/-- The joints after a tidy switch. -/
theorem settled_switch {h : List RobotEvent} {ds : List Cia402Data}
    {startInterfaces stopInterfaces : List String} {accepts : MotorKey → ModeId → Bool}
    (hds : ds.map lists = settled c h)
    (houtcome : outcome (devices c) startInterfaces accepts = true)
    (hstop : ∀ j < (devices c).length, requestsOf (devices c) j startInterfaces = [] →
      requestsOf (devices c) j stopInterfaces = []) :
    (walk (Cia402Data.performSwitch accepts) 0
        (registerAll startInterfaces stopInterfaces ds)).2.1 = true ∧
      (walk (Cia402Data.performSwitch accepts) 0
        (registerAll startInterfaces stopInterfaces ds)).1.map lists =
        settled c (.switched startInterfaces stopInterfaces accepts true :: h) := by
  have hdevice : ∀ (j : ℕ) (d : Cia402Data), ds[j]? = some d → (devices c)[j]? = some d.device := by
    intro j d hd
    rw [← device_of_settled hds, List.getElem?_map, hd, Option.map_some]
  have hswitched : ∀ (j : ℕ) (d : Cia402Data), ds[j]? = some d →
      ((requested (requestsOf (devices c) j startInterfaces)
        (requestsOf (devices c) j stopInterfaces) d).performSwitch accepts j).2.1 = true ∧
      lists ((requested (requestsOf (devices c) j startInterfaces)
        (requestsOf (devices c) j stopInterfaces) d).performSwitch accepts j).1 =
        (d.device, [], [], runningAfter (devices c) startInterfaces stopInterfaces accepts j
          d.interfacesToRunning) := by
    intro j d hd
    have hj := hdevice j d hd
    exact lists_performSwitch hj houtcome (hstop j (List.getElem?_eq_some_iff.mp hj).1)
  have hall : ∀ (j : ℕ) (d : Cia402Data),
      (registerAll startInterfaces stopInterfaces ds)[j]? = some d →
        (d.performSwitch accepts (0 + j)).2.1 = true := by
    intro j d hd
    rw [registered_of_settled hds] at hd
    obtain ⟨d₀, hd₀, rfl⟩ := Option.map_eq_some_iff.mp hd
    rw [Nat.zero_add]
    exact (hswitched j d₀ hd₀).1
  obtain ⟨hgoes, hafter⟩ := walk_goes hall
  refine ⟨hgoes, ?_⟩
  apply List.ext_getElem?
  intro j
  rw [List.getElem?_map, hafter, registered_of_settled hds, Nat.zero_add, settled,
    List.getElem?_mapIdx]
  cases hd : ds[j]? with
  | none =>
      have hnone : (devices c)[j]? = none := by
        rw [← device_of_settled hds, List.getElem?_map, hd, Option.map_none]
      rw [hnone]
      rfl
  | some d =>
      have hlists := getElem?_settled hds hd
      simp only [lists, Prod.mk.injEq, true_and] at hlists
      rw [hdevice j d hd, Option.map_some, Option.map_some, Option.map_some,
        (hswitched j d hd).2, hlists.2.2]
      rfl

/-- Each recorded switch has returned what follows from its own lists and the drives. -/
def Determined (c : RobotConfig) (h : List RobotEvent) : Prop :=
  ∀ startInterfaces stopInterfaces accepts ok,
    .switched startInterfaces stopInterfaces accepts ok ∈ h →
      ok = outcome (devices c) startInterfaces accepts

/-- A callback, with the lists that it leaves. -/
theorem settled_execute {h : List RobotEvent} {ds : List Cia402Data} {i : RobotInput}
    (hds : ds.map lists = settled c h) (hok : tidy c h (some ds) i) :
    (execute ds i).1.map lists = settled c ((execute ds i).2.2 ++ h) ∧
      Determined c (execute ds i).2.2 := by
  cases hi : i.isSwitch with
  | false =>
      have hnot := not_isSwitch_execute ds hi
      refine ⟨?_, fun _ _ _ _ he => nomatch hnot _ he⟩
      rw [lists_execute ds hi, hds]
      simp only [settled, expected_append hnot]
  | true =>
      cases i with
      | switch startInterfaces stopInterfaces accepts =>
          obtain ⟨houtcome, hstop⟩ := hok
          obtain ⟨hgoes, hlists⟩ := settled_switch hds houtcome hstop
          have hnot := not_isSwitch_walk (not_isSwitch_performSwitch accepts)
            (registerAll startInterfaces stopInterfaces ds)
          constructor
          · refine hlists.trans ?_
            simp only [settled, execute, performCommandModeSwitch, List.cons_append, expected,
              expected_append hnot]
          · intro _ _ _ ok he
            rcases List.mem_cons.mp he with heq | he
            · obtain ⟨rfl, rfl, rfl, rfl⟩ := RobotEvent.switched.inj heq
              exact hgoes.trans houtcome.symm
            · exact nomatch hnot _ he
      | _ => cases hi

/-- **A component whose switches are all tidy tracks what runs**: nothing stays pending, what
runs at a joint is what should, and the outcome of a switch depends on its own lists and the
drives only. -/
theorem tracks_of_tidy {h : List RobotEvent} {s : Option (List Cia402Data)}
    (hr : Reach (system c) (tidy c) h s) : Tracks c h s := by
  have hinv : (∀ ds, s = some ds → ds.map lists = settled c h) ∧ Determined c h := by
    apply hr.invariant
      (I := fun h s => (∀ ds, s = some ds → ds.map lists = settled c h) ∧ Determined c h)
    · intro s hs
      obtain rfl : s = some (configured c) := hs
      refine ⟨?_, fun _ _ _ _ he => nomatch he⟩
      rintro ds ⟨⟩
      exact lists_configured
    · intro h s i s' es hI hok hstep
      obtain ⟨ds, rfl, rfl, hs'⟩ := step_cases hstep
      obtain ⟨hlists, hdetermined⟩ := settled_execute (hI.1 ds rfl) hok
      refine ⟨?_, fun _ _ _ _ he => ?_⟩
      · rcases hs' with rfl | rfl
        · exact fun _ heq => nomatch heq
        · rintro ds' ⟨⟩
          exact hlists
      · rcases List.mem_append.mp he with he | he
        · exact hdetermined _ _ _ _ he
        · exact hI.2 _ _ _ _ he
  have hat : ∀ ds, s = some ds → ∀ j d, ds[j]? = some d →
      d.interfacesToStart = [] ∧ d.interfacesToStop = [] ∧
        d.interfacesToRunning = expected (devices c) j h := by
    intro ds hs j d hd
    have hlists := getElem?_settled (hinv.1 ds hs) hd
    simpa only [lists, Prod.mk.injEq, true_and] using hlists
  refine ⟨?_, ?_, ?_, hinv.2⟩
  · intro ds hs d hd
    obtain ⟨j, hj⟩ := List.getElem?_of_mem hd
    exact (hat ds hs j d hj).1
  · intro ds hs d hd
    obtain ⟨j, hj⟩ := List.getElem?_of_mem hd
    exact (hat ds hs j d hj).2.1
  · intro ds hs j d hd
    exact (hat ds hs j d hd).2.2

/-- Two joints that can be moved by position and by velocity. -/
def twoModes : RobotConfig where
  joints := [{ jointAt "left" 1 0 with
      positionMode := some .profiledPosition, velocityMode := some .profiledVelocity },
    { jointAt "right" 2 0 with
      positionMode := some .profiledPosition, velocityMode := some .profiledVelocity }]
  drivers n := if n = 1 ∨ n = 2 then some "ros2_canopen::Cia402Driver" else none

/-- Both joints are started, and one of them changes over. -/
theorem tracks_changeOver : ∃ h ds, Tracks twoModes h (some ds) ∧
    ds.map Cia402Data.interfacesToRunning = [["left/velocity"], ["right/velocity"]] := by
  have hrun : ((system twoModes).runIf (fun h s i => decide (tidy twoModes h s i))
      [.switch ["left/position", "right/velocity"] [] fun _ _ => true,
        .switch ["left/velocity"] ["left/position"] fun _ _ => true] []
      (some (configured twoModes))).any (fun p => p.2.any fun ds =>
        ds.map Cia402Data.interfacesToRunning == [["left/velocity"], ["right/velocity"]]) =
      true := by
    decide +kernel
  obtain ⟨h, s, hr, hs⟩ := System.exists_reach_runIf _ (.init rfl)
    (fun h s i hi => of_decide_eq_true hi) hrun
  obtain ⟨ds, rfl, hrunning⟩ := (Option.any_eq_true _ _).mp hs
  exact ⟨h, ds, tracks_of_tidy hr, by simpa using hrunning⟩

/-- An interface that is stopped while nothing is started stays pending. -/
theorem not_tracks : ¬ ∀ c h s, Reach (system c) Guard.free h s → Tracks c h s := by
  intro htracks
  have hrun : ((system twoModes).run [.switch ["left/position"] [] fun _ _ => true,
      .switch [] ["left/position"] fun _ _ => true] [] (some (configured twoModes))).any
        (fun p => p.2.any fun ds => ds.any fun d => d.interfacesToStop == ["left/position"]) =
      true := by
    decide +kernel
  obtain ⟨h, s, hr, hs⟩ := System.exists_reach_run _ (.init rfl) hrun
  obtain ⟨ds, rfl, hany⟩ := (Option.any_eq_true _ _).mp hs
  obtain ⟨d, hd, hpending⟩ := List.any_eq_true.mp hany
  have hnone := (htracks twoModes h _ hr).toStop ds rfl d hd
  rw [hnone] at hpending
  exact absurd hpending (by decide)

end RobotSystem

end RosCanopen.Ros2Control
