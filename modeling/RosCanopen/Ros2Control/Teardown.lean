import RosCanopen.Ros2Control.Component
import RosCanopen.Ros2Control.OwnMotors
import RosCanopen.Ros2Control.Refinement

/-!
# Setting components up and tearing them down

`CanopenSystem` tears down in `on_cleanup`, in `on_shutdown` and in its destructor, and needs the
members that only `on_configure` makes; `Cia402System` inherits this.  `RobotSystem` tears down by
a `clean` of its own, which joins a thread that `on_configure` has joined, and its destructor
does not tear down.  What a class does without a fault is put in a contract, from which
follows what holds in every run.

## Main definitions

* `Sound` — nothing absent is used, threads are joined once, and the same joints are served.
* `Contract` — what the callbacks of a class do when they are allowed.
* `CanopenSystem.allows`, `Cia402System.allows`, `RobotSystem.allows` — the steps without faults.
-/

namespace RosCanopen.Ros2Control

open Lib Cia402 Callback

/-- `on_configure` has succeeded, and nothing has been torn down. -/
def Component.configured {δ : Type} (t : Component δ) : Bool :=
  t.lifecycle = .inactive || t.lifecycle = .active

/-- There has been no fault, each thread has been joined exactly once unless the component is
configured, and every `on_configure` has found the same joints. -/
structure Sound {δ β : Type} (h : List (LifecycleEvent β)) (s : Option (Component δ)) : Prop where
  noFault : ∀ f, .fault f ∉ h
  atMostOnce : ∀ t, s = some t → ∀ i, t.members.threads.joins i ≤ 1
  once : ∀ t, s = some t → t.configured = false →
    ∀ i < t.members.threads.started, t.members.threads.joins i = 1
  sameJoints : ∀ joints joints', .configured joints ∈ h → .configured joints' ∈ h →
    joints = joints'

/-- Every step is allowed. -/
def careful {δ ι β : Type} (allows : Component δ → LifecycleInput ι → Bool) :
    Guard (Option (Component δ)) (LifecycleInput ι) (LifecycleEvent β) :=
  fun _ s i => s.all (fun t => allows t i) = true

/-- The device container is initialised without an exception, and what tears down finds what
`on_configure` makes. -/
def CanopenSystem.allows (t : Component Hardware) : LifecycleInput HardwareInput → Bool
  | .configure drivers => drivers.isSome
  | .shutdown | .destroy => t.configured
  | _ => true

/-- The joints have drivers when they are read or written. -/
def Cia402System.allows (joints : List (BitVec 8)) (t : Component Hardware) :
    LifecycleInput HardwareInput → Bool
  | .cycle .read | .cycle (.write _ _) =>
      HardwareInfo.complete ⟨joints, (t.members.deviceContainer.getD []).map Prod.fst⟩
  | i => CanopenSystem.allows t i

namespace RobotSystem

/-- The joints up to the first that fails have drivers. -/
def reaches (succeeds : MotorKey → Bool) : List Cia402Data → Bool
  | [] => true
  | d :: ds => d.motor.any fun a => !succeeds a || reaches succeeds ds

/-- The component is never torn down once it is configured. -/
def allows (t : Component (List Cia402Data)) : LifecycleInput RobotCycle → Bool
  | .configure drivers => drivers.isSome
  | .activate succeeds | .deactivate succeeds => reaches succeeds t.members.data
  | .cycle (.read _) | .cycle (.write _) => t.members.data.all fun d => d.motor.isSome
  | .cleanup | .shutdown => false
  | .destroy => !t.configured
  | _ => true

end RobotSystem

/-! ## Members -/

/-- What `on_configure` makes is there. -/
structure Owns {δ : Type} (m : Members δ) : Prop where
  executor : m.executor = true
  deviceContainer : m.deviceContainer.isSome = true
  spinThread : ∃ i, m.threads.handle .spinThread = some ⟨i, true⟩
  initThread : ∃ i, m.threads.handle .initThread = some ⟨i, false⟩

/-- Nothing is there. -/
structure Bare {δ : Type} (m : Members δ) : Prop where
  executor : m.executor = false
  deviceContainer : m.deviceContainer = none
  threads : ∀ k, m.threads.handle k = none

section
variable {δ : Type} {m : Members δ}

theorem Bare.waits (h : Bare m) (k : ThreadMember) : m.threads.waits k = false := by
  simp [Pool.waits, h.threads k]

/-- A callback goes on after a part that succeeds. -/
theorem run_bind {α α' : Type} {x : Callback δ α} {f : α → Callback δ α'} {m' : Members δ} {a : α}
    {r : Except Fault (α' × Members δ)} (h : x m = .ok (a, m')) (hf : f a m' = r) :
    (x >>= f) m = r := by
  show (x m).bind _ = _
  rw [h]
  exact hf

theorem run_onThreads {f : Pool ThreadMember → Except Fault (Pool ThreadMember)}
    {p : Pool ThreadMember} (h : f m.threads = .ok p) :
    onThreads f m = .ok ((), { m with threads := p }) := by
  show (f m.threads).map _ = _
  rw [h]
  rfl

theorem run_isJoinable {k : ThreadMember} {b : Bool} (h : m.threads.isJoinable k = .ok b) :
    isJoinable k m = .ok (b, m) := by
  show (m.threads.isJoinable k).map _ = _
  rw [h]
  rfl

theorem run_registeredDrivers (hm : Owns m) :
    registeredDrivers m = .ok (m.deviceContainer.getD [], m) := by
  obtain ⟨drivers, hdrivers⟩ := Option.isSome_iff_exists.mp hm.deviceContainer
  simp [registeredDrivers, hdrivers]

/-- `on_configure` makes what is torn down later. -/
theorem configure_of_bare (hm : Bare m) (hthreads : m.threads.Accounted) (drivers : Drivers)
    (allocate : Drivers → δ → δ) :
    ∃ m', configure (some drivers) allocate m = .ok (.success, m') ∧ Owns m' ∧
      m'.threads.Accounted ∧ m'.data = allocate drivers m.data := by
  obtain ⟨p₁, hspin, hp₁⟩ : ∃ p₁, m.threads.start .spinThread = .ok p₁ ∧
      p₁.handle = Function.update m.threads.handle .spinThread (some ⟨m.threads.started, true⟩) :=
    ⟨_, Pool.start_of_waits (hm.waits _), rfl⟩
  have hinit : p₁.waits .initThread = false := by
    simp [Pool.waits, hp₁, hm.threads]
  obtain ⟨p₂, hstart, hp₂⟩ : ∃ p₂, p₁.start .initThread = .ok p₂ ∧
      p₂.handle = Function.update p₁.handle .initThread (some ⟨p₁.started, true⟩) :=
    ⟨_, Pool.start_of_waits hinit, rfl⟩
  have hwaits : p₂.handle .initThread = some ⟨p₁.started, true⟩ := by
    rw [hp₂, Function.update_self]
  obtain ⟨p₃, hjoin, hp₃⟩ : ∃ p₃, p₂.join .initThread = .ok p₃ ∧
      p₃.handle = Function.update p₂.handle .initThread (some ⟨p₁.started, false⟩) :=
    ⟨_, Pool.join_of_handle hwaits, rfl⟩
  refine ⟨⟨true, some drivers, p₃, allocate drivers m.data⟩, ?_, ⟨rfl, rfl, ?_, ?_⟩,
    ((hthreads.start hspin).start hstart).join hjoin, rfl⟩
  · have hjoinable : p₂.isJoinable .initThread = .ok true := by
      simp [Pool.isJoinable, hwaits]
    refine run_bind rfl (run_bind rfl ?_)
    refine run_bind (run_onThreads hspin) (run_bind (run_onThreads hstart) ?_)
    refine run_bind rfl (run_bind (run_isJoinable hjoinable) ?_)
    exact run_bind (run_onThreads hjoin) rfl
  · exact ⟨m.threads.started, by simp [hp₃, hp₂, hp₁]⟩
  · exact ⟨p₁.started, by simp [hp₃]⟩

theorem destroyMembers_of_bare (hm : Bare m) (hthreads : m.threads.Accounted) :
    ∃ m', destroyMembers m = .ok ((), m') ∧ Bare m' ∧ m'.threads.Accounted := by
  obtain ⟨p₁, hinit, hp₁⟩ : ∃ p₁, m.threads.reset .initThread = .ok p₁ ∧
      p₁.handle = Function.update m.threads.handle .initThread none :=
    ⟨_, Pool.reset_of_waits (hm.waits _), rfl⟩
  have hnone₁ : ∀ k, p₁.handle k = none := by
    intro k
    cases k <;> simp [hp₁, hm.threads]
  have hwaits : p₁.waits .spinThread = false := by
    simp [Pool.waits, hnone₁]
  obtain ⟨p₂, hspin, hp₂⟩ : ∃ p₂, p₁.reset .spinThread = .ok p₂ ∧
      p₂.handle = Function.update p₁.handle .spinThread none :=
    ⟨_, Pool.reset_of_waits hwaits, rfl⟩
  have hnone₂ : ∀ k, p₂.handle k = none := by
    intro k
    cases k <;> simp [hp₂, hnone₁]
  refine ⟨⟨false, none, p₂, m.data⟩, ?_, ⟨rfl, rfl, hnone₂⟩, (hthreads.reset hinit).reset hspin⟩
  exact run_bind (run_onThreads hinit) (run_bind (run_onThreads hspin) (run_bind rfl rfl))

/-- `CanopenSystem::clean` after `on_configure`. -/
theorem clean_of_owns {m : Members Hardware} (hm : Owns m) (hthreads : m.threads.Accounted) :
    ∃ m', CanopenSystem.clean m = .ok ((), m') ∧ Bare m' ∧ m'.threads.Accounted ∧
      m'.data = m.data := by
  obtain ⟨i, hspin⟩ := hm.spinThread
  obtain ⟨i', hinit⟩ := hm.initThread
  obtain ⟨p₁, hjoin, hp₁⟩ : ∃ p₁, m.threads.join .spinThread = .ok p₁ ∧
      p₁.handle = Function.update m.threads.handle .spinThread (some ⟨i, false⟩) :=
    ⟨_, Pool.join_of_handle hspin, rfl⟩
  have hinit₁ : p₁.handle .initThread = some ⟨i', false⟩ := by simp [hp₁, hinit]
  have hjoinable : p₁.isJoinable .initThread = .ok false := by simp [Pool.isJoinable, hinit₁]
  have hwaits₁ : p₁.waits .initThread = false := by simp [Pool.waits, hinit₁]
  obtain ⟨p₂, hreset, hp₂⟩ : ∃ p₂, p₁.reset .initThread = .ok p₂ ∧
      p₂.handle = Function.update p₁.handle .initThread none :=
    ⟨_, Pool.reset_of_waits hwaits₁, rfl⟩
  have hwaits₂ : p₂.waits .spinThread = false := by simp [Pool.waits, hp₂, hp₁]
  obtain ⟨p₃, hreset', hp₃⟩ : ∃ p₃, p₂.reset .spinThread = .ok p₃ ∧
      p₃.handle = Function.update p₂.handle .spinThread none :=
    ⟨_, Pool.reset_of_waits hwaits₂, rfl⟩
  have hnone : ∀ k, p₃.handle k = none := by
    intro k
    cases k <;> simp [hp₃, hp₂]
  refine ⟨⟨false, none, p₃, m.data⟩, ?_, ⟨rfl, rfl, hnone⟩,
    ((hthreads.join hjoin).reset hreset).reset hreset', rfl⟩
  have hcancel : cancel m = .ok ((), m) := if_pos hm.executor
  refine run_bind hcancel (run_bind (run_onThreads hjoin) ?_)
  refine run_bind rfl (run_bind rfl (run_bind (run_isJoinable hjoinable) ?_))
  exact run_bind (run_onThreads hreset) (run_bind rfl (run_onThreads hreset'))

end

/-! ## Classes -/

/-- What the callbacks of a class do when they are allowed, with what holds of the data once they
are initialised, and the joints that are served. -/
structure Contract {δ ι β : Type} (c : SystemInterface δ ι β)
    (allows : Component δ → LifecycleInput ι → Bool) (P : δ → Prop) (joints : List β) : Prop where
  init : ∀ m base, ∃ r data, c.onInit base m = .ok (r, { m with data }) ∧ (r = .success → P data)
  configure : ∀ m drivers, Bare m → m.threads.Accounted → P m.data →
    allows ⟨.unconfigured, m⟩ (.configure drivers) = true →
    ∃ m', c.onConfigure drivers m = .ok (.success, m') ∧ Owns m' ∧ m'.threads.Accounted ∧
      P m'.data ∧ c.joints m'.data = joints
  activate : ∀ m succeeds, P m.data → allows ⟨.inactive, m⟩ (.activate succeeds) = true →
    ∃ r data, c.onActivate succeeds m = .ok (r, { m with data }) ∧ r ≠ .error ∧ P data
  deactivate : ∀ m succeeds, P m.data → allows ⟨.active, m⟩ (.deactivate succeeds) = true →
    ∃ r data, c.onDeactivate succeeds m = .ok (r, { m with data }) ∧ r ≠ .error ∧ P data
  cycle : ∀ t i, t.configured = true → Owns t.members → P t.members.data →
    allows t (.cycle i) = true →
    ∃ data, c.cycle i t.members = .ok ((), { t.members with data }) ∧ P data
  cleanup : ∀ m, Owns m → m.threads.Accounted → P m.data → allows ⟨.inactive, m⟩ .cleanup = true →
    ∃ m', c.onCleanup m = .ok (.success, m') ∧ Bare m' ∧ m'.threads.Accounted ∧ P m'.data
  shutdown : ∀ t, (t.configured = true → Owns t.members) → t.members.threads.Accounted →
    allows t .shutdown = true →
    ∃ r m', c.onShutdown t.members = .ok (r, m') ∧ Bare m' ∧ m'.threads.Accounted
  destroy : ∀ t, (t.configured = true → Owns t.members) →
    (t.configured = false → Bare t.members) → t.members.threads.Accounted →
    allows t .destroy = true →
    ∃ m', c.destruct t.members = .ok ((), m') ∧ Bare m' ∧ m'.threads.Accounted

/-- What a component owns fits its state. -/
structure Fit {δ : Type} (P : δ → Prop) (t : Component δ) : Prop where
  owns : t.configured = true → Owns t.members
  bare : t.configured = false → Bare t.members
  accounted : t.members.threads.Accounted
  data : t.configured = true ∨ t.lifecycle = .unconfigured → P t.members.data

section
variable {δ ι β : Type} {c : SystemInterface δ ι β}
  {allows : Component δ → LifecycleInput ι → Bool} {P : δ → Prop} {joints : List β}

theorem Owns.fit {m : Members δ} (hm : Owns m) (hthreads : m.threads.Accounted) (hP : P m.data)
    {l : LifecycleState} (hl : Component.configured ⟨l, m⟩ = true) : Fit P ⟨l, m⟩ where
  owns _ := hm
  bare h := absurd (h.symm.trans hl) Bool.false_ne_true
  accounted := hthreads
  data _ := hP

theorem Bare.fit {m : Members δ} (hm : Bare m) (hthreads : m.threads.Accounted)
    {l : LifecycleState} (hl : Component.configured ⟨l, m⟩ = false)
    (hP : l = .unconfigured → P m.data) : Fit P ⟨l, m⟩ where
  owns h := absurd (hl.symm.trans h) Bool.false_ne_true
  bare _ := hm
  accounted := hthreads
  data h := by
    rcases h with h | h
    · exact absurd (hl.symm.trans h) Bool.false_ne_true
    · exact hP h

theorem Owns.setData {m : Members δ} (hm : Owns m) (data : δ) : Owns { m with data } :=
  ⟨hm.executor, hm.deviceContainer, hm.spinThread, hm.initThread⟩

/-- The data change, and the component stays configured. -/
theorem Fit.setData {l l' : LifecycleState} {m : Members δ} (ht : Fit P ⟨l, m⟩)
    (hl : Component.configured ⟨l, m⟩ = true) {data : δ} (hdata : P data)
    (hl' : Component.configured ⟨l', { m with data }⟩ = true) : Fit P ⟨l', { m with data }⟩ :=
  ((ht.owns hl).setData data).fit ht.accounted hdata hl'

theorem Bare.setData {m : Members δ} (hm : Bare m) (data : δ) : Bare { m with data } :=
  ⟨hm.executor, hm.deviceContainer, hm.threads⟩

/-- A callback that is allowed ends without a fault. -/
theorem Contract.callback (hc : Contract c allows P joints) {t : Component δ}
    {i : LifecycleInput ι} {after : CallbackReturn → LifecycleState} (ht : Fit P t)
    (hafter : t.lifecycle.next i = some after) (hallows : allows t i = true) :
    ∃ r m, c.callback i t.members = .ok (r, m) ∧ Fit P ⟨after r, m⟩ ∧
      ∀ e ∈ c.events r m i, e = .configured joints := by
  obtain ⟨l, m⟩ := t
  cases i with
  | init base =>
      cases l with
      | unknown =>
          obtain rfl := Option.some.inj hafter
          obtain ⟨r, data, hrun, hdata⟩ := hc.init m base
          refine ⟨r, _, hrun, ((ht.bare rfl).setData data).fit ht.accounted ?_ ?_, fun e he =>
            nomatch he⟩
          · cases r <;> rfl
          · cases r with
            | success => exact fun _ => hdata rfl
            | _ => exact fun h => nomatch h
      | _ => cases hafter
  | configure drivers =>
      cases l with
      | unconfigured =>
          obtain rfl := Option.some.inj hafter
          obtain ⟨m', hrun, howns, hthreads, hdata, hjoints⟩ := hc.configure m drivers
            (ht.bare rfl) ht.accounted (ht.data (.inr rfl)) hallows
          refine ⟨.success, m', hrun, howns.fit hthreads hdata rfl, fun e he => ?_⟩
          obtain rfl := List.mem_singleton.mp he
          rw [hjoints]
      | _ => cases hafter
  | activate succeeds =>
      cases l with
      | inactive =>
          obtain rfl := Option.some.inj hafter
          obtain ⟨r, data, hrun, herror, hdata⟩ :=
            hc.activate m succeeds (ht.data (.inl rfl)) hallows
          refine ⟨r, _, hrun, ht.setData rfl hdata ?_, fun e he => nomatch he⟩
          cases r with
          | error => exact absurd rfl herror
          | _ => rfl
      | _ => cases hafter
  | deactivate succeeds =>
      cases l with
      | active =>
          obtain rfl := Option.some.inj hafter
          obtain ⟨r, data, hrun, herror, hdata⟩ :=
            hc.deactivate m succeeds (ht.data (.inl rfl)) hallows
          refine ⟨r, _, hrun, ht.setData rfl hdata ?_, fun e he => nomatch he⟩
          cases r with
          | error => exact absurd rfl herror
          | _ => rfl
      | _ => cases hafter
  | cleanup =>
      cases l with
      | inactive =>
          obtain rfl := Option.some.inj hafter
          obtain ⟨m', hrun, hbare, hthreads, hdata⟩ :=
            hc.cleanup m (ht.owns rfl) ht.accounted (ht.data (.inl rfl)) hallows
          exact ⟨.success, m', hrun, hbare.fit hthreads rfl fun _ => hdata, fun e he => nomatch he⟩
      | _ => cases hafter
  | shutdown =>
      obtain ⟨r, m', hrun, hbare, hthreads⟩ := hc.shutdown ⟨l, m⟩ ht.owns ht.accounted hallows
      have hfinalized : after r = .finalized := by
        cases l with
        | unconfigured | inactive | active => exact congrFun (Option.some.inj hafter).symm r
        | _ => cases hafter
      refine ⟨r, m', hrun, ?_, fun e he => nomatch he⟩
      rw [hfinalized]
      exact hbare.fit hthreads rfl fun h => nomatch h
  | cycle i =>
      have hconfigured : Component.configured ⟨l, m⟩ = true := by
        cases l with
        | inactive | active => rfl
        | _ => cases hafter
      have hsame : after .success = l := by
        cases l with
        | inactive | active => exact congrFun (Option.some.inj hafter).symm _
        | _ => cases hafter
      obtain ⟨data, hrun, hdata⟩ := hc.cycle ⟨l, m⟩ i hconfigured (ht.owns hconfigured)
        (ht.data (.inl hconfigured)) hallows
      refine ⟨.success, _, run_bind hrun rfl, ?_, fun e he => nomatch he⟩
      rw [hsame]
      exact ht.setData hconfigured hdata hconfigured
  | destroy =>
      obtain ⟨m₁, hdestruct, hbare₁, hthreads₁⟩ :=
        hc.destroy ⟨l, m⟩ ht.owns ht.bare ht.accounted hallows
      obtain ⟨m', hmembers, hbare, hthreads⟩ := destroyMembers_of_bare hbare₁ hthreads₁
      have hdestroyed : after .success = .destroyed := by
        cases l with
        | destroyed => cases hafter
        | _ => exact congrFun (Option.some.inj hafter).symm _
      refine ⟨.success, m', run_bind hdestruct (run_bind hmembers rfl), ?_, fun e he => nomatch he⟩
      rw [hdestroyed]
      exact hbare.fit hthreads rfl fun h => nomatch h

/-- **A component whose every step is allowed is sound.** -/
theorem Contract.sound (hc : Contract c allows P joints) {h : List (LifecycleEvent β)}
    {s : Option (Component δ)} (hr : Reach c.system (careful allows) h s) : Sound h s := by
  have hinv : (∃ t, s = some t ∧ Fit P t) ∧ ∀ e ∈ h, e = .configured joints := by
    apply hr.invariant
      (I := fun h s => (∃ t, s = some t ∧ Fit P t) ∧ ∀ e ∈ h, e = .configured joints)
    · rintro s rfl
      have hbare : Bare (δ := δ) ⟨false, none, Pool.empty, c.constructed⟩ :=
        ⟨rfl, rfl, fun _ => rfl⟩
      exact ⟨⟨_, rfl, hbare.fit .empty rfl fun h => nomatch h⟩, fun e he => nomatch he⟩
    · rintro h s i s' es ⟨⟨t, rfl, ht⟩, hh⟩ hok hstep
      obtain ⟨t', after, heq, hafter, hcases⟩ :=
        SystemInterface.step_cases (show c.step (some t) i = some (s', es) from hstep)
      obtain rfl := Option.some.inj heq
      obtain ⟨r, m, hrun, hfit, hes⟩ := hc.callback ht hafter hok
      rcases hcases with ⟨f, hfault, -, -⟩ | ⟨r', m', hrun', rfl, rfl⟩
      · exact absurd (hrun.symm.trans hfault) (by simp)
      · obtain ⟨rfl, rfl⟩ := Prod.mk.inj (Except.ok.inj (hrun.symm.trans hrun'))
        refine ⟨⟨_, rfl, hfit⟩, fun e he => ?_⟩
        rcases List.mem_append.mp he with he | he
        · exact hes e he
        · exact hh e he
  obtain ⟨⟨t, rfl, ht⟩, hh⟩ := hinv
  refine ⟨?_, ?_, ?_, ?_⟩
  · intro f he
    exact nomatch hh _ he
  · rintro t' ⟨⟩ i
    exact ht.accounted.joins_le_one i
  · rintro t' ⟨⟩ hbare i hi
    exact ht.accounted.joins_eq_one ((ht.bare hbare).waits) hi
  · intro js js' hjs hjs'
    have hleft := LifecycleEvent.configured.inj (hh _ hjs)
    have hright := LifecycleEvent.configured.inj (hh _ hjs')
    exact hleft.trans hright.symm

end

/-! ## The proxy interfaces -/

/-- The joints have entries. -/
def HasEntries (joints : List (BitVec 8)) (s : Hardware) : Prop :=
  ∀ id ∈ joints, id.toNat ∈ s.keys

section
variable {joints : List (BitVec 8)} {s : Hardware}

theorem HasEntries.servedJoints (hs : HasEntries joints s) :
    CanopenSystem.servedJoints joints s = joints := by
  apply List.filter_eq_self.mpr
  intro id hid
  exact decide_eq_true (hs id hid)

theorem hasEntries_exported (info : HardwareInfo) :
    HasEntries info.joints (.exported info) := by
  intro id hid
  exact Hardware.mem_insertKeys.mpr (.inl (List.mem_map_of_mem hid))

theorem HasEntries.modify (hs : HasEntries joints s) (id : BitVec 8)
    (f : HardwareNode → HardwareNode) : HasEntries joints (s.modify id f) := by
  intro id' hid'
  exact Hardware.mem_insertKey.mpr (.inr (hs id' hid'))

end

namespace CanopenSystem
variable {joints : List (BitVec 8)}

theorem hasEntries_step {info : HardwareInfo} {s s' : Hardware} {i : HardwareInput}
    {es : List HardwareEvent} (hs : HasEntries joints s) (hstep : step info s i = some (s', es)) :
    HasEntries joints s' := by
  cases i with
  | nmtState id state =>
      obtain ⟨rfl, -⟩ := Prod.mk.inj (Option.some.inj hstep)
      exact hs.modify _ _
  | rpdo id d raw =>
      obtain ⟨rfl, -⟩ := Prod.mk.inj (Option.some.inj hstep)
      exact hs.modify _ _
  | emcy id e past =>
      obtain ⟨rfl, -⟩ := Prod.mk.inj (Option.some.inj hstep)
      exact hs.modify _ _
  | set id interface x =>
      simp only [step] at hstep
      split at hstep
      · obtain ⟨rfl, -⟩ := Prod.mk.inj (Option.some.inj hstep)
        exact hs.modify _ _
      · cases hstep
  | read =>
      obtain ⟨rfl, -⟩ := Prod.mk.inj (Option.some.inj hstep)
      exact hs
  | write env throws =>
      obtain ⟨p, -, heq⟩ := Option.map_eq_some_iff.mp hstep
      obtain ⟨rfl, -⟩ := Prod.mk.inj heq
      exact hs

theorem run_driversFor {m : Members Hardware} (hm : Owns m) (i : HardwareInput) :
    ∃ drivers, driversFor i m = .ok (drivers, m) := by
  cases i with
  | write env throws => exact ⟨_, run_registeredDrivers hm⟩
  | _ => exact ⟨[], rfl⟩

theorem contract (joints : List (BitVec 8)) :
    Contract (component joints) allows (HasEntries joints) joints where
  init m base := by
    by_cases hbase : base = .success
    · exact ⟨.success, _, if_pos hbase, fun _ => hasEntries_exported ⟨joints, []⟩⟩
    · exact ⟨.error, m.data, if_neg hbase, fun h => nomatch h⟩
  configure m drivers hm hthreads hdata hallows := by
    obtain ⟨drivers, rfl⟩ := Option.isSome_iff_exists.mp hallows
    obtain ⟨m', hrun, howns, hthreads', hdata'⟩ := configure_of_bare hm hthreads drivers
      fun drivers => initDeviceContainer ⟨joints, drivers.map Prod.fst⟩
    have hentries : HasEntries joints m'.data := by
      rw [hdata']
      intro id hid
      exact Hardware.mem_insertKeys.mpr (.inr (hdata id hid))
    exact ⟨m', hrun, howns, hthreads', hentries, hentries.servedJoints⟩
  activate m _ hdata _ := ⟨.success, m.data, rfl, by decide, hdata⟩
  deactivate m _ hdata _ := ⟨.success, m.data, rfl, by decide, hdata⟩
  cycle t i _ hm hdata _ := by
    obtain ⟨drivers, hdrivers⟩ := run_driversFor hm i
    cases hstep : step ⟨joints, drivers.map Prod.fst⟩ t.members.data i with
    | none => exact ⟨t.members.data, run_bind hdrivers (by rw [hstep]), hdata⟩
    | some p => exact ⟨p.1, run_bind hdrivers (by rw [hstep]), hasEntries_step hdata hstep⟩
  cleanup m hm hthreads hdata _ := by
    obtain ⟨m', hrun, hbare, hthreads', hdata'⟩ := clean_of_owns hm hthreads
    exact ⟨m', run_bind hrun rfl, hbare, hthreads', hdata' ▸ hdata⟩
  shutdown t hm hthreads hallows := by
    obtain ⟨m', hrun, hbare, hthreads', -⟩ := clean_of_owns (hm hallows) hthreads
    exact ⟨.success, m', run_bind hrun rfl, hbare, hthreads'⟩
  destroy t hm _ hthreads hallows := by
    obtain ⟨m', hrun, hbare, hthreads', -⟩ := clean_of_owns (hm hallows) hthreads
    exact ⟨m', hrun, hbare, hthreads'⟩

end CanopenSystem

namespace Cia402System
variable {joints : List (BitVec 8)}

/-- The joints have entries, and the commands of what is no joint are never pending. -/
structure Stocked (joints : List (BitVec 8)) (s : Hardware) : Prop where
  entries : HasEntries joints s
  quiet : ∀ k, (∃ id ∈ joints, id.toNat = k) ∨
    (s.canopenData k).toCanopenNodeData.quiet = true

theorem Stocked.modify {s : Hardware} (hs : Stocked joints s) (id : BitVec 8)
    {f : HardwareNode → HardwareNode} (hf : id ∈ joints ∨ ∀ n : HardwareNode,
      n.toCanopenNodeData.quiet = true → (f n).toCanopenNodeData.quiet = true) :
    Stocked joints (s.modify id f) where
  entries := hs.entries.modify id f
  quiet k := by
    by_cases hk : k = id.toNat
    · subst hk
      rcases hf with hid | hf
      · exact .inl ⟨id, hid, rfl⟩
      · refine (hs.quiet id.toNat).imp_right fun hquiet => ?_
        simpa [Hardware.modify] using hf _ hquiet
    · simpa [Hardware.modify, hk] using hs.quiet k

theorem exists_writeCia402 (s : CanopenNodeData) {env : WriteEnv} (throws : Bool)
    (h : env.registered = true) : ∃ p, s.writeCia402 env throws = some p := by
  simp only [CanopenNodeData.writeCia402, h, Bool.true_or, if_true]
  split
  · split
    · exact ⟨_, rfl⟩
    · exact ⟨_, rfl⟩
  · exact ⟨_, rfl⟩

theorem exists_writeNode {info : HardwareInfo} (hcomplete : info.complete = true)
    (env : ℕ → WriteEnv) (throws : ℕ → Bool) {k : ℕ} {n : HardwareNode}
    (hn : (∃ id ∈ info.joints, id.toNat = k) ∨ n.toCanopenNodeData.quiet = true) :
    ∃ n' goes es, writeNode info env throws k n = some (n', goes, es) ∧
      ((∃ id ∈ info.joints, id.toNat = k) ∨ n'.toCanopenNodeData.quiet = true) := by
  rcases hn with hk | hquiet
  · have hregistered : ({ env k with registered := info.registered k } : WriteEnv).registered =
        true := HardwareInfo.registered_of_complete hcomplete (HardwareInfo.hasJoint_iff.mpr hk)
    obtain ⟨p, hp⟩ := exists_writeCia402 n.toCanopenNodeData (throws k) hregistered
    exact ⟨_, _, _, by rw [writeNode, hp]; rfl, .inl hk⟩
  · exact ⟨n, true, [], cia402_writeNode_of_quiet hquiet, .inr hquiet⟩

/-- What happens with the drivers of the joints. -/
def asks : HardwareInput → Bool
  | .read | .write _ _ => true
  | _ => false

/-- A step that finds the drivers it asks for. -/
theorem stocked_step (info : HardwareInfo) {s : Hardware} {i : HardwareInput}
    {p : Option Hardware × List HardwareEvent} (hs : Stocked info.joints s)
    (hcomplete : asks i = true → info.complete = true)
    (hstep : stepAlive info s i = some p) : ∃ s', p.1 = some s' ∧ Stocked info.joints s' := by
  cases i with
  | nmtState id state =>
      obtain rfl := Option.some.inj hstep
      exact ⟨_, rfl, hs.modify id (.inr fun _ h => h)⟩
  | rpdo id d raw =>
      obtain rfl := Option.some.inj hstep
      exact ⟨_, rfl, hs.modify id (.inr fun _ h => h)⟩
  | emcy id e past =>
      obtain rfl := Option.some.inj hstep
      exact ⟨s, rfl, hs⟩
  | set id interface x =>
      simp only [stepAlive] at hstep
      split at hstep
      · next hid =>
        obtain rfl := Option.some.inj hstep
        exact ⟨_, rfl, hs.modify id (.inl (List.contains_iff_mem.mp hid))⟩
      · cases hstep
  | read =>
      obtain rfl := Option.some.inj hstep
      exact ⟨s, if_pos (hcomplete rfl), hs⟩
  | write env throws =>
      have hall := hcomplete rfl
      obtain ⟨m', goes, es, hsweep, hquiet⟩ : ∃ m' goes es,
          sweep (writeNode info env throws) s.keys s.canopenData = some (m', goes, es) ∧
            ∀ k, (∃ id ∈ info.joints, id.toNat = k) ∨ (m' k).toCanopenNodeData.quiet = true :=
        sweep_invariant (P := fun k (n : HardwareNode) =>
          (∃ id ∈ info.joints, id.toNat = k) ∨ n.toCanopenNodeData.quiet = true)
          (fun _ _ hn => exists_writeNode hall env throws hn) hs.quiet
      simp only [stepAlive, hsweep, hall, Bool.not_true, Bool.and_false, Bool.false_eq_true,
        if_false] at hstep
      obtain rfl := Option.some.inj hstep
      exact ⟨_, rfl, hs.entries, hquiet⟩

theorem run_driversFor {t : Component Hardware} (hm : Owns t.members) {i : HardwareInput}
    (hallows : allows joints t (.cycle i) = true) :
    ∃ drivers, driversFor i t.members = .ok (drivers, t.members) ∧
      (asks i = true → HardwareInfo.complete ⟨joints, drivers.map Prod.fst⟩ = true) := by
  cases i with
  | read => exact ⟨_, run_registeredDrivers hm, fun _ => hallows⟩
  | write env throws => exact ⟨_, run_registeredDrivers hm, fun _ => hallows⟩
  | _ => exact ⟨[], rfl, fun h => nomatch h⟩

theorem contract (joints : List (BitVec 8)) :
    Contract (component joints) (allows joints) (Stocked joints) joints where
  init m base := by
    by_cases hbase : base = .success
    · refine ⟨.success, _, if_pos hbase, fun _ => ⟨hasEntries_exported ⟨joints, []⟩, ?_⟩⟩
      intro k
      exact .inr (show HardwareNode.fresh.toCanopenNodeData.quiet = true by decide)
    · exact ⟨.error, m.data, if_neg hbase, fun h => nomatch h⟩
  configure m drivers hm hthreads hdata hallows := by
    obtain ⟨drivers, rfl⟩ := Option.isSome_iff_exists.mp hallows
    obtain ⟨m', hrun, howns, hthreads', hdata'⟩ := configure_of_bare hm hthreads drivers
      fun _ s => s
    exact ⟨m', hrun, howns, hthreads', hdata' ▸ hdata, (hdata' ▸ hdata.entries).servedJoints⟩
  activate m _ hdata _ := ⟨.success, m.data, rfl, by decide, hdata⟩
  deactivate m _ hdata _ := ⟨.success, m.data, rfl, by decide, hdata⟩
  cycle t i _ hm hdata hallows := by
    obtain ⟨drivers, hdrivers, hcomplete⟩ := run_driversFor hm hallows
    cases hstep : stepAlive ⟨joints, drivers.map Prod.fst⟩ t.members.data i with
    | none => exact ⟨t.members.data, run_bind hdrivers (by rw [hstep]), hdata⟩
    | some p =>
        obtain ⟨s', hs', hstocked⟩ := stocked_step ⟨joints, drivers.map Prod.fst⟩ hdata hcomplete
          hstep
        obtain ⟨o, es⟩ := p
        obtain rfl := hs'
        exact ⟨s', run_bind hdrivers (by rw [hstep]), hstocked⟩
  cleanup m hm hthreads hdata _ := by
    obtain ⟨m', hrun, hbare, hthreads', hdata'⟩ := clean_of_owns hm hthreads
    exact ⟨m', run_bind hrun rfl, hbare, hthreads', hdata' ▸ hdata⟩
  shutdown t hm hthreads hallows :=
    (CanopenSystem.contract joints).shutdown t hm hthreads hallows
  destroy t hm hbare hthreads hallows :=
    (CanopenSystem.contract joints).destroy t hm hbare hthreads hallows

end Cia402System

/-! ## The robot system -/

namespace RobotSystem

/-- A callback whose calls all find their drivers. -/
theorem run_call {m : Members (List Cia402Data)} {i : RobotInput}
    (hi : ∀ e ∈ (execute m.data i).2.2, e.isNull = false) :
    call i m = .ok ((execute m.data i).2.1, { m with data := (execute m.data i).1 }) := by
  have hany : (execute m.data i).2.2.any RobotEvent.isNull = false := by
    rw [List.any_eq_false]
    intro e he
    rw [hi e he]
    exact Bool.false_ne_true
  exact if_neg fun hnull => Bool.false_ne_true (hany.symm.trans hnull)

theorem not_isNull_request {succeeds : MotorKey → Bool} (motorCall : MotorCall) {j : ℕ}
    {ds : List Cia402Data} (h : reaches succeeds ds = true) :
    ∀ e ∈ (walk (Cia402Data.request motorCall succeeds) j ds).2.2, e.isNull = false := by
  induction ds generalizing j with
  | nil => exact fun e he => nomatch he
  | cons d ds ih =>
      obtain ⟨a, ha, hrest⟩ := (Option.any_eq_true _ _).mp h
      have hhead : ∀ e ∈ (d.request motorCall succeeds j).2.2, e.isNull = false := by
        intro e he
        obtain rfl := List.mem_singleton.mp he
        rw [ha]
        rfl
      cases hgoes : (d.request motorCall succeeds j).2.1 with
      | false =>
          rw [walk_cons_stops hgoes]
          exact hhead
      | true =>
          have hsucceeds : succeeds a = true := by simpa [Cia402Data.request, ha] using hgoes
          rw [walk_cons_goes hgoes]
          intro e he
          rcases List.mem_append.mp he with he | he
          · exact ih (by simpa [hsucceeds] using hrest) e he
          · exact hhead e he

theorem not_isNull_read {motors : MotorKey → MotorState} {ds : List Cia402Data}
    (h : ds.all (fun d => d.motor.isSome) = true) :
    ∀ e ∈ (execute ds (.read motors)).2.2, e.isNull = false := by
  refine (walk_invariant (P := fun _ d => d.motor.isSome = true) (fun j d hd => ?_)
    fun j d hd => List.all_eq_true.mp h d (List.mem_of_getElem? hd)).2
  obtain ⟨a, ha⟩ := Option.isSome_iff_exists.mp hd
  refine ⟨by rw [motor_readState, ha]; rfl, ?_⟩
  simp [Cia402Data.readState, ha, RobotEvent.isNull]

theorem not_isNull_write {modes : MotorKey → ModeId} {ds : List Cia402Data}
    (h : ds.all (fun d => d.motor.isSome) = true) :
    ∀ e ∈ (execute ds (.write modes)).2.2, e.isNull = false := by
  refine (walk_invariant (P := fun _ d => d.motor.isSome = true) (fun j d hd => ?_)
    fun j d hd => List.all_eq_true.mp h d (List.mem_of_getElem? hd)).2
  obtain ⟨a, ha⟩ := Option.isSome_iff_exists.mp hd
  refine ⟨by rw [motor_writeTarget, ha]; rfl, fun e he => ?_⟩
  simp only [Cia402Data.writeTarget, ha, List.mem_append, Option.mem_toList, List.mem_singleton,
    Option.map_eq_some_iff] at he
  rcases he with ⟨x, -, rfl⟩ | rfl <;> rfl

/-- The joints keep their names. -/
theorem map_jointName_execute (ds : List Cia402Data) {i : RobotInput} (hi : i.isSwitch = false) :
    (execute ds i).1.map Cia402Data.jointName = ds.map Cia402Data.jointName := by
  refine map_execute (fun _ _ _ _ => rfl) (fun x d interface => ?_) ds hi
  cases interface <;> rfl

/-- A callback that answers whether all motors have accepted the call. -/
theorem run_answer (m : Members (List Cia402Data)) (i : RobotInput)
    (hi : ∀ e ∈ (execute m.data i).2.2, e.isNull = false) :
    ∃ r, (call i >>= fun ok => if ok then pure .success else pure .failure) m =
      .ok (r, { m with data := (execute m.data i).1 }) ∧ r ≠ CallbackReturn.error := by
  cases hok : (execute m.data i).2.1 with
  | true => exact ⟨.success, run_bind (run_call hi) (by rw [hok]; rfl), by decide⟩
  | false => exact ⟨.failure, run_bind (run_call hi) (by rw [hok]; rfl), by decide⟩

theorem contract (parameters : List String) (joints : List Joint) :
    Contract (component parameters joints) allows
      (fun ds => ds.map Cia402Data.jointName =
        (loadJoints joints).1.map Cia402Data.jointName)
      ((loadJoints joints).1.map Cia402Data.jointName) where
  init m base := by
    by_cases hbase : base = .success ∧ required ⊆ parameters
    · exact ⟨_, _, if_pos hbase, fun _ => rfl⟩
    · exact ⟨.error, m.data, if_neg hbase, fun h => nomatch h⟩
  configure m drivers hm hthreads hdata hallows := by
    obtain ⟨drivers, rfl⟩ := Option.isSome_iff_exists.mp hallows
    obtain ⟨m', hrun, howns, hthreads', hdata'⟩ := configure_of_bare hm hthreads drivers
      fun drivers => List.map (Cia402Data.allocate fun k => drivers.lookup k)
    have hnames : m'.data.map Cia402Data.jointName =
        (loadJoints joints).1.map Cia402Data.jointName := by
      rw [hdata', List.map_map, ← hdata]
      apply List.map_congr_left
      intro d _
      show (Cia402Data.allocate _ d).jointName = d.jointName
      unfold Cia402Data.allocate
      split <;> rfl
    exact ⟨m', hrun, howns, hthreads', hnames, hnames⟩
  activate m succeeds hdata hallows := by
    obtain ⟨r, hrun, herror⟩ :=
      run_answer m (.activate succeeds) (not_isNull_request _ hallows)
    have hnames := map_jointName_execute m.data (i := .activate succeeds) rfl
    exact ⟨r, _, hrun, herror, hnames.trans hdata⟩
  deactivate m succeeds hdata hallows := by
    obtain ⟨r, hrun, herror⟩ :=
      run_answer m (.deactivate succeeds) (not_isNull_request _ hallows)
    have hnames := map_jointName_execute m.data (i := .deactivate succeeds) rfl
    exact ⟨r, _, hrun, herror, hnames.trans hdata⟩
  cycle t i _ hm hdata hallows := by
    have hnames : (execute t.members.data i.input).1.map Cia402Data.jointName =
        (loadJoints joints).1.map Cia402Data.jointName := by
      refine (map_jointName_execute t.members.data ?_).trans hdata
      cases i <;> rfl
    have hcalls : ∀ e ∈ (execute t.members.data i.input).2.2, e.isNull = false := by
      cases i with
      | read motors => exact not_isNull_read hallows
      | set joint interface x => exact fun e he => nomatch he
      | write modes => exact not_isNull_write hallows
    exact ⟨_, run_bind (run_call hcalls) rfl, hnames⟩
  cleanup m _ _ _ hallows := nomatch hallows
  shutdown t _ _ hallows := nomatch hallows
  destroy t _ hbare hthreads hallows := by
    have hnot : t.configured = false := by simpa [allows] using hallows
    exact ⟨t.members, rfl, hbare hnot, hthreads⟩

end RobotSystem

/-! ## Runs -/

/-- **A component of each class is sound in every run whose steps are allowed.** -/
theorem sound_of_allowed (nodes : List (BitVec 8)) (parameters : List String)
    (joints : List Joint) :
    (∀ h s, Reach (CanopenSystem.component nodes).system
      (careful CanopenSystem.allows) h s → Sound h s) ∧
    (∀ h s, Reach (Cia402System.component nodes).system
      (careful (Cia402System.allows nodes)) h s → Sound h s) ∧
    (∀ h s, Reach (RobotSystem.component parameters joints).system
      (careful RobotSystem.allows) h s → Sound h s) :=
  ⟨fun _ _ => (CanopenSystem.contract nodes).sound,
    fun _ _ => (Cia402System.contract nodes).sound,
    fun _ _ => (RobotSystem.contract parameters joints).sound⟩

/-- Set up, run through a cycle, torn down and set up again, and destroyed. -/
def twoLives : List (LifecycleInput HardwareInput) :=
  [.init .success, .configure (some [(1, "ros2_canopen::Cia402Driver")]), .activate fun _ => true,
    .cycle .read, .cycle (.write (fun _ => ⟨true, some true, some true, ⟨0, 0, 0⟩⟩) fun _ => false),
    .deactivate fun _ => true, .cleanup,
    .configure (some [(1, "ros2_canopen::Cia402Driver")]), .destroy]

/-- Set up and run through a cycle. -/
def oneLife : List (LifecycleInput RobotCycle) :=
  [.init .success, .configure (some [(1, "ros2_canopen::Cia402Driver")]), .activate fun _ => true,
    .cycle (.read fun _ => ⟨.nan, .nan, .nan⟩), .cycle (.write fun _ => .profiledPosition),
    .deactivate fun _ => true]

theorem sound_lives :
    (∃ h t, Sound (δ := Hardware) (β := BitVec 8) h (some t) ∧ t.lifecycle = .destroyed) ∧
    (∃ h t, Sound (δ := Hardware) (β := BitVec 8) h (some t) ∧ t.lifecycle = .destroyed) ∧
    ∃ h t, Sound (δ := List Cia402Data) (β := String) h (some t) ∧ t.lifecycle = .inactive := by
  refine ⟨?_, ?_, ?_⟩
  · have hrun : ((CanopenSystem.component [1]).system.runIf
        (fun _ s i => s.all fun t => CanopenSystem.allows t i) twoLives []
        (some ⟨.unknown, ⟨false, none, Pool.empty, ⟨[], fun _ => .fresh⟩⟩⟩)).any
          (fun p => p.2.any fun t => t.lifecycle = .destroyed) = true := by
      decide +kernel
    obtain ⟨h, s, hr, hs⟩ := System.exists_reach_runIf _ (.init rfl) (fun h s i hi => hi) hrun
    obtain ⟨t, rfl, ht⟩ := (Option.any_eq_true _ _).mp hs
    exact ⟨h, t, (sound_of_allowed [1] [] []).1 h _ hr, of_decide_eq_true ht⟩
  · have hrun : ((Cia402System.component [1]).system.runIf
        (fun _ s i => s.all fun t => Cia402System.allows [1] t i) twoLives []
        (some ⟨.unknown, ⟨false, none, Pool.empty, ⟨[], fun _ => .fresh⟩⟩⟩)).any
          (fun p => p.2.any fun t => t.lifecycle = .destroyed) = true := by
      decide +kernel
    obtain ⟨h, s, hr, hs⟩ := System.exists_reach_runIf _ (.init rfl) (fun h s i hi => hi) hrun
    obtain ⟨t, rfl, ht⟩ := (Option.any_eq_true _ _).mp hs
    exact ⟨h, t, (sound_of_allowed [1] [] []).2.1 h _ hr, of_decide_eq_true ht⟩
  · have hrun : ((RobotSystem.component RobotSystem.required
        [RobotSystem.jointAt "left" 1 0]).system.runIf
        (fun _ s i => s.all fun t => RobotSystem.allows t i) oneLife []
        (some ⟨.unknown, ⟨false, none, Pool.empty, []⟩⟩)).any
          (fun p => p.2.any fun t => t.lifecycle = .inactive) = true := by
      decide +kernel
    obtain ⟨h, s, hr, hs⟩ := System.exists_reach_runIf _ (.init rfl) (fun h s i hi => hi) hrun
    obtain ⟨t, rfl, ht⟩ := (Option.any_eq_true _ _).mp hs
    exact ⟨h, t, (sound_of_allowed [] _ _).2.2 h _ hr, of_decide_eq_true ht⟩

/-- A proxy system that is destroyed without having been configured, a motor system that is shut
down so, and a robot system that is cleaned up. -/
theorem not_sound :
    (¬ ∀ joints h s, Reach (CanopenSystem.component joints).system Guard.free h s → Sound h s) ∧
    (¬ ∀ joints h s, Reach (Cia402System.component joints).system Guard.free h s → Sound h s) ∧
    (¬ ∀ parameters joints h s, Reach (RobotSystem.component parameters joints).system
      Guard.free h s → Sound h s) := by
  refine ⟨fun hsound => ?_, fun hsound => ?_, fun hsound => ?_⟩
  · have hr : Reach (CanopenSystem.component []).system Guard.free _ none :=
      .step (i := .destroy) (.step (i := .init .success) (.init rfl) trivial rfl) trivial rfl
    exact (hsound _ _ _ hr).noFault .null List.mem_cons_self
  · have hr : Reach (Cia402System.component []).system Guard.free _ none :=
      .step (i := .shutdown) (.step (i := .init .success) (.init rfl) trivial rfl) trivial rfl
    exact (hsound _ _ _ hr).noFault .null List.mem_cons_self
  · have hr : Reach (RobotSystem.component RobotSystem.required []).system Guard.free _ none :=
      .step (i := .cleanup) (.step (i := .configure (some [])) (.step (i := .init .success)
        (.init rfl) trivial rfl) trivial rfl) trivial rfl
    exact (hsound RobotSystem.required [] _ _ hr).noFault .notJoinable List.mem_cons_self

end RosCanopen.Ros2Control
