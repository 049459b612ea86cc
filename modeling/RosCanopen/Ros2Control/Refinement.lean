import RosCanopen.Ros2Control.Hardware

/-!
# What `Cia402System` shows on the proxy interfaces

Both classes are given the same callbacks, commands, results and exceptions, and are compared
in what is seen on the interfaces and in the calls of the drivers.  They differ in that
`Cia402System` does not prepare RPDO data, registers no callback for EMCY messages, drops the
results of the NMT commands, lets exceptions of `tpdo_transmit` end the write, and needs a driver
for each joint.

## Main definitions

* `Seen`, `Refines` — what is seen of a joint, and that it is the same in both.
* `alike` — the steps that keep it so.
-/

namespace RosCanopen.Ros2Control

open Lib Cia402
open Bridge (COData)
open CanopenNodeData (ofBool)

/-- What is seen of a joint on its proxy interfaces. -/
structure Seen where
  rpdoIndex : Double
  rpdoSubindex : Double
  rpdoData : Double
  state : Double
  emcyData : Ros2ControlEmcyData
  resetFbk : Double
  startFbk : Double

def HardwareNode.seen (n : HardwareNode) : Seen where
  rpdoIndex := n.rpdoData.index
  rpdoSubindex := n.rpdoData.subindex
  rpdoData := n.rpdoData.data
  state := n.state
  emcyData := n.emcyData
  resetFbk := n.nmtState.resetFbk
  startFbk := n.nmtState.startFbk

/-- The two classes, with the same joints and drivers and the same inputs. -/
abbrev sideBySide (info : HardwareInfo) :
    System (Hardware × Option Hardware) HardwareInput (HardwareEvent ⊕ HardwareEvent) :=
  (CanopenSystem.system info).both (Cia402System.system info)

/-- `Cia402System` makes the calls that `CanopenSystem` makes, and shows what it shows. -/
structure Refines (info : HardwareInfo) (h : List (HardwareEvent ⊕ HardwareEvent))
    (p : Hardware × Option Hardware) : Prop where
  calls : rightEvents h = leftEvents h
  seen : ∃ t, p.2 = some t ∧
    ∀ id ∈ info.joints, (t.canopenData id.toNat).seen = (p.1.canopenData id.toNat).seen

namespace CanopenNodeData

/-- A command pends and throws. -/
def stopsAt (ons : Double) (result : Option Bool) : Bool := !isNan ons && result.isNone

/-- A command that the write takes throws. -/
def stops (s : CanopenNodeData) (env : WriteEnv) : Bool :=
  stopsAt s.nmtState.resetOns env.reset || stopsAt s.nmtState.startOns env.start

/-- The results of the commands that the write takes are in the feedbacks already. -/
def keepsFeedback (s : CanopenNodeData) (env : WriteEnv) : Bool :=
  (isNan s.nmtState.resetOns || env.reset.all fun ok => s.nmtState.resetFbk = ofBool ok) &&
    (stopsAt s.nmtState.resetOns env.reset || isNan s.nmtState.startOns ||
      env.start.all fun ok => s.nmtState.startFbk = ofBool ok)

end CanopenNodeData

/-- A write that is the same in both: no result changes a feedback, and behind a node whose
`tpdo_transmit` throws no command pends, as far as the write gets. -/
def loopAlike (env : ℕ → WriteEnv) (throws : ℕ → Bool) (m : ℕ → HardwareNode) : List ℕ → Bool
  | [] => true
  | k :: ks =>
      (m k).keepsFeedback (env k) &&
        ((m k).stops (env k) ||
          (!throws k || isNan (m k).tpdoData.oneShot ||
            ks.all fun k' => (m k').toCanopenNodeData.quiet) && loopAlike env throws m ks)

/-- The steps that are the same in both: an RPDO or EMCY message to a joint changes none of its
interfaces, every joint has a driver when the hardware is read or written, and the write is
alike. -/
def alike (info : HardwareInfo) :
    Guard (Hardware × Option Hardware) HardwareInput (HardwareEvent ⊕ HardwareEvent) :=
  fun _ p i =>
    match i with
    | .rpdo id d raw => id ∈ info.joints →
        let received := (p.1.canopenData id.toNat).rpdoData.setData d
        received.prepareData raw = received
    | .emcy id e past => id ∈ info.joints →
        Ros2ControlEmcyData.setEmcy e past = (p.1.canopenData id.toNat).emcyData
    | .read => info.complete = true
    | .write env throws =>
        info.complete = true ∧ loopAlike env throws p.1.canopenData p.1.keys = true
    | _ => True

/-! ## The write of a node -/

theorem eq_nan_of_isNan {x : Double} (h : isNan x = true) : x = .nan := by
  cases x <;> simp_all [isNan]

namespace CanopenNodeData
variable {s t : CanopenNodeData} {env : WriteEnv} {throws : Bool}

/-- Where no command pends, none is taken. -/
theorem commands_of_quiet (h : s.quiet = true) :
    s.nmtState.resetCommand = (false, s.nmtState) ∧
      s.nmtState.startCommand = (false, s.nmtState) ∧
      s.tpdoData.writeCommand = (false, s.tpdoData) := by
  obtain ⟨⟨resetOns, resetFbk, startOns, startFbk⟩, rpdoData, ⟨originalData, oneShot⟩, _, _⟩ := s
  simp only [quiet, Bool.and_eq_true] at h
  obtain ⟨⟨hreset, hstart⟩, honeShot⟩ := h
  obtain rfl := eq_nan_of_isNan hreset
  obtain rfl := eq_nan_of_isNan hstart
  obtain rfl := eq_nan_of_isNan honeShot
  exact ⟨rfl, rfl, rfl⟩

theorem write_of_quiet (h : s.quiet = true) : s.write env = (s, []) := by
  obtain ⟨hreset, hstart, htpdo⟩ := commands_of_quiet h
  cases hregistered : env.registered <;>
    simp [write, writeReset, writeStart, writeTpdo, command, hreset, hstart, htpdo, hregistered]

theorem writeCia402_of_quiet (h : s.quiet = true) :
    s.writeCia402 env throws = some (s, true, []) := by
  obtain ⟨hreset, hstart, htpdo⟩ := commands_of_quiet h
  simp [writeCia402, writeTpdo, command, hreset, hstart, htpdo, h]

/-- The interfaces that a write reads and changes are the same. -/
structure SameCommands (s t : CanopenNodeData) : Prop where
  nmtState : t.nmtState = s.nmtState
  tpdoData : t.tpdoData = s.tpdoData

/-- A command whose result does not change the feedback, and the one that drops its result. -/
theorem command_alike {ons : Double} {nmt : Ros2ControlNmtState} {result : Option Bool}
    {feedback : Double → Ros2ControlNmtState → Ros2ControlNmtState} {event : Bool → ProxyEvent}
    (hkeeps : isNan ons = false → ∀ ok, result = some ok → feedback (ofBool ok) nmt = nmt)
    (hevent : ∀ ok, event ok ≠ .threw) :
    ∃ es, s.command (!isNan ons, nmt) result feedback event =
        ({ s with nmtState := nmt }, !stopsAt ons result, es) ∧
      t.command (!isNan ons, nmt) result (fun _ nmt => nmt) event =
        ({ t with nmtState := nmt }, !stopsAt ons result, es) ∧
      es.all (· ≠ .threw) = !stopsAt ons result := by
  cases hons : isNan ons with
  | true => exact ⟨[], by simp [command, stopsAt, hons]⟩
  | false =>
      cases result with
      | none => exact ⟨[.threw], by simp [command, stopsAt, hons]⟩
      | some ok =>
          have hfeedback := hkeeps hons ok rfl
          exact ⟨[event ok], by simp [command, stopsAt, hons, hfeedback, hevent]⟩

theorem writeReset_alike (hst : SameCommands s t)
    (hkeeps : isNan s.nmtState.resetOns = true ∨
      ∀ ok, env.reset = some ok → s.nmtState.resetFbk = ofBool ok) :
    ∃ es, s.writeReset env = ({ s with nmtState := s.nmtState.resetCommand.2 },
        !stopsAt s.nmtState.resetOns env.reset, es) ∧
      t.command t.nmtState.resetCommand env.reset (fun _ nmt => nmt) .reset =
        ({ t with nmtState := s.nmtState.resetCommand.2 },
          !stopsAt s.nmtState.resetOns env.reset, es) ∧
      es.all (· ≠ .threw) = !stopsAt s.nmtState.resetOns env.reset := by
  rw [hst.nmtState]
  apply command_alike
  · intro hpending ok hok
    have hfbk := hkeeps.resolve_left (by simp [hpending]) ok hok
    simp only [← hfbk]
  · intro ok heq
    cases heq

theorem writeStart_alike (hst : SameCommands s t)
    (hkeeps : isNan s.nmtState.startOns = true ∨
      ∀ ok, env.start = some ok → s.nmtState.startFbk = ofBool ok) :
    ∃ es, s.writeStart env = ({ s with nmtState := s.nmtState.startCommand.2 },
        !stopsAt s.nmtState.startOns env.start, es) ∧
      t.command t.nmtState.startCommand env.start (fun _ nmt => nmt) .start =
        ({ t with nmtState := s.nmtState.startCommand.2 },
          !stopsAt s.nmtState.startOns env.start, es) ∧
      es.all (· ≠ .threw) = !stopsAt s.nmtState.startOns env.start := by
  rw [hst.nmtState]
  apply command_alike
  · intro hpending ok hok
    have hfbk := hkeeps.resolve_left (by simp [hpending]) ok hok
    simp only [← hfbk]
  · intro ok heq
    cases heq

theorem writeTpdo_alike (env : WriteEnv) (hst : SameCommands s t) :
    ∃ tpdo es, s.writeTpdo env = ({ s with tpdoData := tpdo }, es) ∧
      t.writeTpdo env = ({ t with tpdoData := tpdo }, es) ∧ es.all (· ≠ .threw) = true := by
  unfold writeTpdo
  rw [hst.tpdoData]
  obtain ⟨pending, tpdo⟩ := s.tpdoData.writeCommand
  cases pending with
  | false => exact ⟨tpdo, [], rfl, rfl, rfl⟩
  | true =>
      refine ⟨_, _, rfl, rfl, ?_⟩
      cases tpdo.inRange <;> simp

/-- **The write of a node, in both classes.** -/
theorem write_alike (throws : Bool) (hst : SameCommands s t) (hregistered : env.registered = true)
    (hkeeps : s.keepsFeedback env = true) :
    (s.write env).2.all (· ≠ .threw) = !s.stops env ∧
      (s.write env).1.rpdoData = s.rpdoData ∧
      ∃ t', t.writeCia402 env throws =
          some (t', !s.stops env && !(throws && !isNan s.tpdoData.oneShot), (s.write env).2) ∧
        SameCommands (s.write env).1 t' ∧ t'.rpdoData = t.rpdoData := by
  simp only [keepsFeedback, Bool.and_eq_true, Bool.or_eq_true, Option.all_eq_true,
    decide_eq_true_eq] at hkeeps
  obtain ⟨hreset, hstart⟩ := hkeeps
  let s₁ : CanopenNodeData := { s with nmtState := s.nmtState.resetCommand.2 }
  let t₁ : CanopenNodeData := { t with nmtState := s.nmtState.resetCommand.2 }
  have hst₁ : SameCommands s₁ t₁ := ⟨rfl, hst.tpdoData⟩
  obtain ⟨es, hs, ht, hall⟩ := writeReset_alike hst hreset
  unfold write writeCia402
  rw [if_pos hregistered, hregistered, Bool.true_or, if_pos rfl, hs, ht]
  cases hstopsReset : stopsAt s.nmtState.resetOns env.reset with
  | true =>
      have hstops : s.stops env = true := by simp [stops, hstopsReset]
      rw [hstopsReset] at hall
      rw [hstops]
      exact ⟨hall, rfl, t₁, rfl, hst₁, rfl⟩
  | false =>
      have hstart₁ : isNan s₁.nmtState.startOns = true ∨
          ∀ ok, env.start = some ok → s₁.nmtState.startFbk = ofBool ok :=
        hstart.imp_left fun hor => hor.resolve_left (by simp [hstopsReset])
      obtain ⟨es', hs', ht', hall'⟩ := writeStart_alike hst₁ hstart₁
      have hstops : s.stops env = stopsAt s₁.nmtState.startOns env.start := by
        simp only [stops, hstopsReset, Bool.false_or]
        rfl
      rw [hstopsReset] at hall
      simp only [Bool.not_false, if_true]
      rw [hs', ht', hstops]
      cases hstopsStart : stopsAt s₁.nmtState.startOns env.start with
      | true =>
          rw [hstopsStart] at hall'
          refine ⟨?_, rfl, _, rfl, ⟨rfl, hst.tpdoData⟩, rfl⟩
          change List.all (es' ++ es) _ = _
          rw [List.all_append, hall', Bool.not_true, Bool.false_and]
      | false =>
          let s₂ : CanopenNodeData := { s₁ with nmtState := s₁.nmtState.startCommand.2 }
          let t₂ : CanopenNodeData := { t₁ with nmtState := s₁.nmtState.startCommand.2 }
          have hst₂ : SameCommands s₂ t₂ := ⟨rfl, hst.tpdoData⟩
          obtain ⟨tpdo, es'', hs'', ht'', hall''⟩ := writeTpdo_alike env hst₂
          rw [hstopsStart] at hall'
          simp only [Bool.not_false, if_true]
          rw [hs'', ht'']
          refine ⟨?_, rfl, { t₂ with tpdoData := tpdo }, ?_, ⟨rfl, rfl⟩, rfl⟩
          · change List.all (es'' ++ es' ++ es) _ = _
            rw [List.all_append, List.all_append, hall, hall', hall'']
            rfl
          · have hpending : t₂.tpdoData.writeCommand.1 = !isNan s.tpdoData.oneShot := by
              rw [← hst.tpdoData]
              rfl
            change some (_, !(t₂.tpdoData.writeCommand.1 && throws), _) = some (_, _, _)
            rw [hpending, Bool.and_comm]
            rfl

theorem stops_of_quiet (h : s.quiet = true) : s.stops env = false := by
  simp only [quiet, Bool.and_eq_true] at h
  simp [stops, stopsAt, h.1.1, h.1.2]

end CanopenNodeData

/-! ## The write of all nodes -/

/-- The two classes hold the same for a joint. -/
structure Agree (n m : HardwareNode) : Prop where
  commands : n.toCanopenNodeData.SameCommands m.toCanopenNodeData
  rpdoData : m.rpdoData = n.rpdoData
  state : m.state = n.state
  emcyData : m.emcyData = n.emcyData

theorem Agree.seen {n m : HardwareNode} (h : Agree n m) : m.seen = n.seen := by
  simp only [HardwareNode.seen, h.rpdoData, h.state, h.emcyData, h.commands.nmtState]

section Loop
variable {info : HardwareInfo} {env : ℕ → WriteEnv} {throws : ℕ → Bool} {k : ℕ} {ks : List ℕ}
  {m m₁ m₂ : ℕ → HardwareNode}

theorem canopen_writeNode_of_quiet {n : HardwareNode} (h : n.toCanopenNodeData.quiet = true) :
    CanopenSystem.writeNode info env k n = some (n, true, []) := by
  simp only [CanopenSystem.writeNode, CanopenNodeData.write_of_quiet h]
  rfl

theorem cia402_writeNode_of_quiet {n : HardwareNode} (h : n.toCanopenNodeData.quiet = true) :
    Cia402System.writeNode info env throws k n = some (n, true, []) := by
  simp only [Cia402System.writeNode, CanopenNodeData.writeCia402_of_quiet h]
  rfl

theorem writeNode_alike (throws : ℕ → Bool) {n n' : HardwareNode} (hagree : Agree n n')
    (hregistered : info.registered k = true) (hkeeps : n.keepsFeedback (env k) = true) :
    ∃ p p' es, CanopenSystem.writeNode info env k n = some (p, !n.stops (env k), es) ∧
      Cia402System.writeNode info env throws k n' =
        some (p', !n.stops (env k) && !(throws k && !isNan n.tpdoData.oneShot), es) ∧
      Agree p p' := by
  have hregistered' : ({ env k with registered := info.registered k } : WriteEnv).registered =
      true := hregistered
  obtain ⟨hall, hrpdo, d, hd, hcommands, hrpdo'⟩ := CanopenNodeData.write_alike
    (throws k) hagree.commands hregistered' hkeeps
  let written := n.toCanopenNodeData.write { env k with registered := info.registered k }
  refine ⟨{ n with toCanopenNodeData := written.1 }, { n' with toCanopenNodeData := d },
    written.2.map (Prod.mk k), ?_, ?_, hcommands, ?_, hagree.state, hagree.emcyData⟩
  · simp only [CanopenSystem.writeNode, hall]
    rfl
  · simp only [Cia402System.writeNode, hd]
    rfl
  · change d.rpdoData = (n.toCanopenNodeData.write _).1.rpdoData
    rw [hrpdo, hrpdo', hagree.rpdoData]

theorem loopAlike_congr (h : ∀ k ∈ ks, m₂ k = m₁ k) :
    loopAlike env throws m₂ ks = loopAlike env throws m₁ ks := by
  induction ks with
  | nil => rfl
  | cons k ks ih =>
      have hrest : ∀ k ∈ ks, m₂ k = m₁ k := fun k hk => h k (List.mem_cons_of_mem _ hk)
      have hquiet : (ks.all fun k => (m₂ k).toCanopenNodeData.quiet) =
          ks.all fun k => (m₁ k).toCanopenNodeData.quiet := by
        rw [Bool.eq_iff_iff, List.all_eq_true, List.all_eq_true]
        apply forall₂_congr
        intro k hk
        rw [hrest k hk]
      rw [loopAlike, loopAlike, h k List.mem_cons_self, hquiet, ih hrest]

/-- Nodes for which no command pends do not matter. -/
theorem loopAlike_filter {active : ℕ → Bool}
    (hinert : ∀ k ∈ ks, active k = false → (m k).toCanopenNodeData.quiet = true)
    (h : loopAlike env throws m ks = true) :
    loopAlike env throws m (ks.filter active) = true := by
  induction ks with
  | nil => rfl
  | cons k ks ih =>
      rw [loopAlike, Bool.and_eq_true] at h
      obtain ⟨hkeeps, h⟩ := h
      have hih := ih fun k hk => hinert k (List.mem_cons_of_mem _ hk)
      cases hactive : active k with
      | false =>
          rw [List.filter_cons_of_neg (by simp [hactive])]
          rw [CanopenNodeData.stops_of_quiet (hinert k List.mem_cons_self hactive),
            Bool.false_or, Bool.and_eq_true] at h
          exact hih h.2
      | true =>
          rw [List.filter_cons_of_pos hactive, loopAlike, hkeeps, Bool.true_and]
          cases hstops : (m k).stops (env k) with
          | true => rfl
          | false =>
              rw [hstops, Bool.false_or, Bool.and_eq_true] at h
              rw [Bool.false_or, hih h.2, Bool.and_true]
              have hquiet : (ks.all fun k => (m k).toCanopenNodeData.quiet) = true →
                  ((ks.filter active).all fun k => (m k).toCanopenNodeData.quiet) = true := by
                intro hall
                rw [List.all_eq_true] at hall ⊢
                intro k hk
                exact hall k (List.mem_of_mem_filter hk)
              have himp := h.1
              rw [Bool.or_eq_true] at himp ⊢
              exact himp.imp_right hquiet

/-- **The loops of the two classes**, over nodes that have drivers. -/
theorem sweep_alike {J : ℕ → Prop} (hks : ks.Nodup)
    (hregistered : ∀ k ∈ ks, info.registered k = true) (hJ : ∀ k ∈ ks, J k)
    (hagree : ∀ k, J k → Agree (m₁ k) (m₂ k)) (halike : loopAlike env throws m₁ ks = true) :
    ∃ m₁' m₂' goes goes' es,
      sweep (CanopenSystem.writeNode info env) ks m₁ = some (m₁', goes, es) ∧
      sweep (Cia402System.writeNode info env throws) ks m₂ = some (m₂', goes', es) ∧
      (∀ k, J k → Agree (m₁' k) (m₂' k)) ∧ ∀ k, ¬ J k → m₁' k = m₁ k ∧ m₂' k = m₂ k := by
  induction ks generalizing m₁ m₂ with
  | nil => exact ⟨m₁, m₂, true, true, [], rfl, rfl, hagree, fun _ _ => ⟨rfl, rfl⟩⟩
  | cons k ks ih =>
      obtain ⟨hk, hks⟩ := List.nodup_cons.mp hks
      rw [loopAlike, Bool.and_eq_true] at halike
      obtain ⟨hkeeps, halike⟩ := halike
      have hJk := hJ k List.mem_cons_self
      obtain ⟨p, p', es, hp, hp', hpagree⟩ := writeNode_alike throws (hagree k hJk)
        (hregistered k List.mem_cons_self) hkeeps
      have hagree' : ∀ k', J k' →
          Agree (Function.update m₁ k p k') (Function.update m₂ k p' k') := by
        intro k' hk'
        by_cases heq : k' = k
        · subst heq
          simpa using hpagree
        · simpa [heq] using hagree k' hk'
      have hframe : ∀ k', ¬ J k' → Function.update m₁ k p k' = m₁ k' ∧
          Function.update m₂ k p' k' = m₂ k' := by
        intro k' hk'
        have hne : k' ≠ k := fun heq => hk' (heq ▸ hJk)
        exact ⟨Function.update_of_ne hne _ _, Function.update_of_ne hne _ _⟩
      have hsame : ∀ k' ∈ ks, Function.update m₁ k p k' = m₁ k' := by
        intro k' hk'
        have hne : k' ≠ k := fun heq => hk (heq ▸ hk')
        exact Function.update_of_ne hne _ _
      cases hstops : (m₁ k).stops (env k) with
      | true =>
          rw [hstops] at hp hp'
          exact ⟨_, _, false, false, es, sweep_cons_stops hp, sweep_cons_stops hp', hagree', hframe⟩
      | false =>
          rw [hstops] at hp hp' halike
          rw [Bool.false_or, Bool.and_eq_true] at halike
          obtain ⟨hthrows, halike⟩ := halike
          cases hthrow : throws k && !isNan (m₁ k).tpdoData.oneShot with
          | false =>
              rw [hthrow] at hp'
              rw [← loopAlike_congr hsame] at halike
              obtain ⟨m₁', m₂', goes, goes', es', h₁, h₂, hagree'', hframe'⟩ := ih hks
                (fun k hk => hregistered k (List.mem_cons_of_mem _ hk))
                (fun k hk => hJ k (List.mem_cons_of_mem _ hk)) hagree' halike
              refine ⟨m₁', m₂', goes, goes', es' ++ es, ?_, ?_, hagree'', fun k' hk' => ?_⟩
              · rw [sweep_cons_goes hp, h₁]
                rfl
              · rw [sweep_cons_goes hp', h₂]
                rfl
              · rw [(hframe' k' hk').1, (hframe' k' hk').2]
                exact hframe k' hk'
          | true =>
              -- the one class stops here, and the other finds no command any more
              rw [hthrow] at hp'
              have hquiet : ∀ k' ∈ ks, (m₁ k').toCanopenNodeData.quiet = true := by
                obtain ⟨hthrow, hpending⟩ := Bool.and_eq_true_iff.mp hthrow
                rw [Bool.not_eq_true'] at hpending
                simpa [hthrow, hpending] using hthrows
              have hinert : sweep (CanopenSystem.writeNode info env) ks (Function.update m₁ k p) =
                  some (Function.update m₁ k p, true, []) := by
                apply sweep_inert hks
                intro k' hk'
                apply canopen_writeNode_of_quiet
                rw [hsame k' hk']
                exact hquiet k' hk'
              refine ⟨_, _, true, false, es, ?_, sweep_cons_stops hp', hagree', hframe⟩
              rw [sweep_cons_goes hp, hinert]
              rfl

end Loop

/-! ## The invariant -/

namespace HardwareInfo

/-- The key belongs to a joint. -/
def hasJoint (info : HardwareInfo) (k : ℕ) : Bool := info.joints.any fun id => id.toNat = k

theorem hasJoint_iff {info : HardwareInfo} {k : ℕ} :
    info.hasJoint k = true ↔ ∃ id ∈ info.joints, id.toNat = k := by
  simp [hasJoint]

theorem registered_of_complete {info : HardwareInfo} (h : info.complete = true) {k : ℕ}
    (hk : info.hasJoint k = true) : info.registered k = true := by
  obtain ⟨id, hid, rfl⟩ := hasJoint_iff.mp hk
  exact List.all_eq_true.mp h id hid

end HardwareInfo

namespace Hardware
variable {k k' : ℕ} {ks keys : List ℕ}

theorem mem_insertKey : k' ∈ insertKey k keys ↔ k' = k ∨ k' ∈ keys := by
  unfold insertKey
  split
  · next hk =>
    constructor
    · exact .inr
    · rintro (rfl | hk')
      · exact hk
      · exact hk'
  · exact List.mem_orderedInsert _

theorem sorted_insertKey (h : keys.Pairwise (· < ·)) : (insertKey k keys).Pairwise (· < ·) := by
  unfold insertKey
  split
  · exact h
  · next hk =>
    have hle : (keys.orderedInsert (· ≤ ·) k).Pairwise (· ≤ ·) :=
      (h.imp fun hlt => hlt.le).orderedInsert k keys
    have hnodup : (keys.orderedInsert (· ≤ ·) k).Nodup := by
      rw [(List.perm_orderedInsert (· ≤ ·) k keys).nodup_iff]
      exact List.nodup_cons.mpr ⟨hk, h.imp fun hlt => hlt.ne⟩
    exact hle.imp₂ (fun _ _ hle hne => lt_of_le_of_ne hle hne) hnodup

theorem mem_insertKeys : k ∈ insertKeys ks keys ↔ k ∈ ks ∨ k ∈ keys := by
  induction ks with
  | nil => simp [insertKeys]
  | cons k' ks ih =>
      have hcons : insertKeys (k' :: ks) keys = insertKey k' (insertKeys ks keys) := rfl
      rw [hcons, mem_insertKey, ih, List.mem_cons, or_assoc]

theorem sorted_insertKeys (h : keys.Pairwise (· < ·)) :
    (insertKeys ks keys).Pairwise (· < ·) := by
  induction ks with
  | nil => exact h
  | cons k' ks ih => exact sorted_insertKey ih

end Hardware

/-- Both classes hold the same for the joints, and no command pends anywhere else. -/
structure Twin (info : HardwareInfo) (s t : Hardware) : Prop where
  agree : ∀ k, info.hasJoint k = true → Agree (s.canopenData k) (t.canopenData k)
  quiet : ∀ k, info.hasJoint k = false →
    (s.canopenData k).toCanopenNodeData.quiet = true ∧
      (t.canopenData k).toCanopenNodeData.quiet = true
  keys : ∀ k, info.hasJoint k = true → k ∈ s.keys ∧ k ∈ t.keys
  sorted : s.keys.Pairwise (· < ·) ∧ t.keys.Pairwise (· < ·)

namespace Twin
variable {info : HardwareInfo} {s t : Hardware}

theorem exported (info : HardwareInfo) :
    Twin info (CanopenSystem.initDeviceContainer info (Hardware.exported info))
      (Hardware.exported info) := by
  have hkeys : ∀ k, info.hasJoint k = true → k ∈ (Hardware.exported info).keys := by
    intro k hk
    obtain ⟨id, hid, rfl⟩ := HardwareInfo.hasJoint_iff.mp hk
    exact Hardware.mem_insertKeys.mpr (.inl (List.mem_map_of_mem hid))
  have hsorted : (Hardware.exported info).keys.Pairwise (· < ·) :=
    Hardware.sorted_insertKeys .nil
  refine ⟨fun _ _ => ⟨⟨rfl, rfl⟩, rfl, rfl, rfl⟩, fun _ _ => ⟨rfl, rfl⟩, fun k hk => ?_,
    Hardware.sorted_insertKeys hsorted, hsorted⟩
  exact ⟨Hardware.mem_insertKeys.mpr (.inr (hkeys k hk)), hkeys k hk⟩

/-- An entry is changed in both: the joint's data stay the same in both, and an entry without
a joint stays without a command. -/
theorem modify (hst : Twin info s t) {id : BitVec 8} {f g : HardwareNode → HardwareNode}
    (hjoint : info.hasJoint id.toNat = true → Agree (f (s.canopenData id.toNat))
      (g (t.canopenData id.toNat)))
    (hother : info.hasJoint id.toNat = false →
      (f (s.canopenData id.toNat)).toCanopenNodeData.quiet = true ∧
        (g (t.canopenData id.toNat)).toCanopenNodeData.quiet = true) :
    Twin info (s.modify id f) (t.modify id g) where
  agree := by
    intro k hk
    by_cases heq : k = id.toNat
    · subst heq
      simpa [Hardware.modify] using hjoint hk
    · simpa [Hardware.modify, heq] using hst.agree k hk
  quiet := by
    intro k hk
    by_cases heq : k = id.toNat
    · subst heq
      simpa [Hardware.modify] using hother hk
    · simpa [Hardware.modify, heq] using hst.quiet k hk
  keys := by
    intro k hk
    exact ⟨Hardware.mem_insertKey.mpr (.inr (hst.keys k hk).1),
      Hardware.mem_insertKey.mpr (.inr (hst.keys k hk).2)⟩
  sorted := ⟨Hardware.sorted_insertKey hst.sorted.1, Hardware.sorted_insertKey hst.sorted.2⟩

/-- An entry is changed in the one class, where the other holds that already. -/
theorem modify_left (hst : Twin info s t) {id : BitVec 8} {f : HardwareNode → HardwareNode}
    (hjoint : info.hasJoint id.toNat = true → f (s.canopenData id.toNat) = s.canopenData id.toNat)
    (hother : info.hasJoint id.toNat = false →
      (f (s.canopenData id.toNat)).toCanopenNodeData.quiet = true) :
    Twin info (s.modify id f) t where
  agree := by
    intro k hk
    by_cases heq : k = id.toNat
    · subst heq
      simpa [Hardware.modify, hjoint hk] using hst.agree _ hk
    · simpa [Hardware.modify, heq] using hst.agree k hk
  quiet := by
    intro k hk
    by_cases heq : k = id.toNat
    · subst heq
      simpa [Hardware.modify] using ⟨hother hk, (hst.quiet _ hk).2⟩
    · simpa [Hardware.modify, heq] using hst.quiet k hk
  keys := by
    intro k hk
    exact ⟨Hardware.mem_insertKey.mpr (.inr (hst.keys k hk).1), (hst.keys k hk).2⟩
  sorted := ⟨Hardware.sorted_insertKey hst.sorted.1, hst.sorted.2⟩

/-- The keys that belong to joints are the same in both. -/
theorem filter_keys (hst : Twin info s t) :
    s.keys.filter info.hasJoint = t.keys.filter info.hasJoint := by
  apply List.Pairwise.eq_of_mem_iff (hst.sorted.1.filter _) (hst.sorted.2.filter _)
  intro k
  rw [List.mem_filter, List.mem_filter]
  constructor
  · intro h
    exact ⟨(hst.keys k h.2).2, h.2⟩
  · intro h
    exact ⟨(hst.keys k h.2).1, h.2⟩

/-- **A write of both.** -/
theorem write (hst : Twin info s t) (hcomplete : info.complete = true) {env : ℕ → WriteEnv}
    {throws : ℕ → Bool} (halike : loopAlike env throws s.canopenData s.keys = true) :
    ∃ m₁ m₂ goes goes' es,
      sweep (CanopenSystem.writeNode info env) s.keys s.canopenData = some (m₁, goes, es) ∧
      sweep (Cia402System.writeNode info env throws) t.keys t.canopenData =
        some (m₂, goes', es) ∧
      Twin info { s with canopenData := m₁ } { t with canopenData := m₂ } := by
  have hnodup : s.keys.Nodup ∧ t.keys.Nodup :=
    ⟨hst.sorted.1.imp fun hlt => hlt.ne, hst.sorted.2.imp fun hlt => hlt.ne⟩
  have hcanopen : sweep (CanopenSystem.writeNode info env) s.keys s.canopenData =
      sweep (CanopenSystem.writeNode info env) (s.keys.filter info.hasJoint) s.canopenData := by
    apply sweep_filter _ hnodup.1
    intro k _ hk
    exact canopen_writeNode_of_quiet (hst.quiet k hk).1
  have hcia402 : sweep (Cia402System.writeNode info env throws) t.keys t.canopenData =
      sweep (Cia402System.writeNode info env throws) (t.keys.filter info.hasJoint)
        t.canopenData := by
    apply sweep_filter _ hnodup.2
    intro k _ hk
    exact cia402_writeNode_of_quiet (hst.quiet k hk).2
  have hfiltered : loopAlike env throws s.canopenData (s.keys.filter info.hasJoint) = true :=
    loopAlike_filter (fun k _ hk => (hst.quiet k hk).1) halike
  obtain ⟨m₁, m₂, goes, goes', es, h₁, h₂, hagree, hframe⟩ := sweep_alike
    (J := fun k => info.hasJoint k = true) (hnodup.1.filter _)
    (fun k hk => info.registered_of_complete hcomplete (List.mem_filter.mp hk).2)
    (fun k hk => (List.mem_filter.mp hk).2) hst.agree hfiltered
  refine ⟨m₁, m₂, goes, goes', es, hcanopen.trans h₁, ?_, hagree, fun k hk => ?_, hst.keys,
    hst.sorted⟩
  · rw [hcia402, ← hst.filter_keys]
    exact h₂
  · obtain ⟨h₁, h₂⟩ := hframe k (by simp [hk])
    have hquiet := hst.quiet k hk
    rw [← h₁, ← h₂] at hquiet
    exact hquiet

/-- What a command interface is set to is the same in both. -/
theorem setCommand {n m : HardwareNode} (h : Agree n m) (interface : CommandInterface)
    (x : Double) : Agree (n.setCommand x interface) (m.setCommand x interface) := by
  obtain ⟨⟨hnmt, htpdo⟩, hrpdo, hstate, hemcy⟩ := h
  cases interface <;>
    exact ⟨⟨by simp [HardwareNode.setCommand, hnmt], by simp [HardwareNode.setCommand, htpdo]⟩,
      hrpdo, hstate, hemcy⟩

/-- **A step that is alike.** -/
theorem step (hst : Twin info s t) {i : HardwareInput} {s' : Hardware} {t' : Option Hardware}
    {es es' : List HardwareEvent} {h : List (HardwareEvent ⊕ HardwareEvent)}
    (hok : alike info h (s, some t) i) (hs : CanopenSystem.step info s i = some (s', es))
    (ht : Cia402System.step info (some t) i = some (t', es')) :
    (∃ t₁, t' = some t₁ ∧ Twin info s' t₁) ∧ es' = es := by
  cases i with
  | nmtState id state =>
      obtain ⟨rfl, rfl⟩ := Prod.mk.inj (Option.some.inj hs)
      obtain ⟨rfl, rfl⟩ := Prod.mk.inj (Option.some.inj ht)
      refine ⟨⟨_, rfl, hst.modify (fun hk => ?_) fun hk => hst.quiet _ hk⟩, rfl⟩
      obtain ⟨hcommands, hrpdo, -, hemcy⟩ := hst.agree _ hk
      exact ⟨hcommands, hrpdo, rfl, hemcy⟩
  | rpdo id d raw =>
      obtain ⟨rfl, rfl⟩ := Prod.mk.inj (Option.some.inj hs)
      obtain ⟨rfl, rfl⟩ := Prod.mk.inj (Option.some.inj ht)
      refine ⟨⟨_, rfl, hst.modify (fun hk => ?_) fun hk => hst.quiet _ hk⟩, rfl⟩
      obtain ⟨hcommands, hrpdo, hstate, hemcy⟩ := hst.agree _ hk
      obtain ⟨id', hid', heq⟩ := HardwareInfo.hasJoint_iff.mp hk
      obtain rfl := BitVec.eq_of_toNat_eq heq
      refine ⟨⟨hcommands.nmtState, hcommands.tpdoData⟩, ?_, hstate, hemcy⟩
      have hprepared := hok hid'
      change (t.canopenData id'.toNat).rpdoData.setData d =
        ((s.canopenData id'.toNat).rpdoData.setData d).prepareData raw
      rw [hrpdo]
      exact hprepared.symm
  | emcy id e past =>
      obtain ⟨rfl, rfl⟩ := Prod.mk.inj (Option.some.inj hs)
      obtain ⟨rfl, rfl⟩ := Prod.mk.inj (Option.some.inj ht)
      refine ⟨⟨_, rfl, hst.modify_left (fun hk => ?_) fun hk => (hst.quiet _ hk).1⟩, rfl⟩
      obtain ⟨id', hid', heq⟩ := HardwareInfo.hasJoint_iff.mp hk
      obtain rfl := BitVec.eq_of_toNat_eq heq
      rw [hok hid']
  | set id interface x =>
      simp only [CanopenSystem.step] at hs
      simp only [Cia402System.step, Cia402System.stepAlive] at ht
      split at hs
      · next hid =>
        rw [if_pos hid] at ht
        obtain ⟨rfl, rfl⟩ := Prod.mk.inj (Option.some.inj hs)
        obtain ⟨rfl, rfl⟩ := Prod.mk.inj (Option.some.inj ht)
        have hmem : id ∈ info.joints := List.contains_iff_mem.mp hid
        have hk : info.hasJoint id.toNat = true := HardwareInfo.hasJoint_iff.mpr ⟨id, hmem, rfl⟩
        refine ⟨⟨_, rfl, hst.modify (fun hk => ?_) fun hk' => ?_⟩, rfl⟩
        · exact setCommand (hst.agree _ hk) interface x
        · simp [hk] at hk'
      · cases hs
  | read =>
      obtain ⟨rfl, rfl⟩ := Prod.mk.inj (Option.some.inj hs)
      obtain ⟨rfl, rfl⟩ := Prod.mk.inj (Option.some.inj ht)
      have hcomplete : info.complete = true := hok
      exact ⟨⟨t, by rw [if_pos hcomplete], hst⟩, rfl⟩
  | write env throws =>
      obtain ⟨hcomplete, halike⟩ := hok
      obtain ⟨m₁, m₂, goes, goes', es₁, h₁, h₂, htwin⟩ := hst.write hcomplete halike
      simp only [CanopenSystem.step, h₁] at hs
      simp only [Cia402System.step, Cia402System.stepAlive, h₂, hcomplete, Bool.not_true,
        Bool.and_false, Bool.false_eq_true, if_false] at ht
      obtain ⟨rfl, rfl⟩ := Prod.mk.inj (Option.some.inj hs)
      obtain ⟨rfl, rfl⟩ := Prod.mk.inj (Option.some.inj ht)
      exact ⟨⟨_, rfl, htwin⟩, rfl⟩

end Twin

/-- **`Cia402System` refines `CanopenSystem` in every run whose steps are alike.** -/
theorem refines_of_alike {info : HardwareInfo} {h : List (HardwareEvent ⊕ HardwareEvent)}
    {p : Hardware × Option Hardware} (hr : Reach (sideBySide info) (alike info) h p) :
    Refines info h p := by
  have hinv : (∃ t, p.2 = some t ∧ Twin info p.1 t) ∧ rightEvents h = leftEvents h := by
    apply hr.invariant (I := fun h p => (∃ t, p.2 = some t ∧ Twin info p.1 t) ∧
      rightEvents h = leftEvents h)
    · intro p hp
      obtain ⟨s, t⟩ := p
      obtain ⟨hs, ht⟩ := hp
      obtain rfl : s = _ := hs
      obtain rfl : t = some (Hardware.exported info) := ht
      exact ⟨⟨_, rfl, Twin.exported info⟩, rfl⟩
    · intro h p i p' es hI hok hstep
      obtain ⟨s, t⟩ := p
      obtain ⟨⟨t, rfl, htwin⟩, hcalls⟩ := hI
      obtain ⟨es₁, es₂, hs, ht, rfl⟩ := System.both_step hstep
      obtain ⟨htwin', rfl⟩ := htwin.step hok hs ht
      refine ⟨htwin', ?_⟩
      rw [rightEvents_append, leftEvents_append, hcalls]
  obtain ⟨⟨t, ht, htwin⟩, hcalls⟩ := hinv
  refine ⟨hcalls, t, ht, fun id hid => ?_⟩
  exact (htwin.agree _ (HardwareInfo.hasJoint_iff.mpr ⟨id, hid, rfl⟩)).seen

/-! ## Runs -/

deriving instance DecidableEq for Ros2ControlCOData
deriving instance DecidableEq for RORos2ControlCOData

instance (info : HardwareInfo) (h : List (HardwareEvent ⊕ HardwareEvent))
    (p : Hardware × Option Hardware) : ∀ i, Decidable (alike info h p i)
  | .rpdo _ _ _ => inferInstanceAs (Decidable (_ → _))
  | .emcy _ _ _ => inferInstanceAs (Decidable (_ → _))
  | .read => inferInstanceAs (Decidable (_ = _))
  | .write _ _ => inferInstanceAs (Decidable (_ ∧ _))
  | .nmtState _ _ | .set _ _ _ => inferInstanceAs (Decidable True)

/-- Both classes as they are configured. -/
def constructed (info : HardwareInfo) : Hardware × Option Hardware :=
  (CanopenSystem.initDeviceContainer info (Hardware.exported info),
    some (Hardware.exported info))

theorem reach_constructed (info : HardwareInfo)
    (ok : Guard (Hardware × Option Hardware) HardwareInput (HardwareEvent ⊕ HardwareEvent)) :
    Reach (sideBySide info) ok [] (constructed info) := .init ⟨rfl, rfl⟩

/-- Two joints, and a third device without one. -/
def twoJoints : HardwareInfo := ⟨[1, 2], [1, 2, 3]⟩

/-- A write in which the reset of the first node succeeds, and its `tpdo_transmit` throws. -/
def resetting : HardwareInput :=
  .write (fun _ => ⟨true, some true, some true, ⟨0, 0, 0⟩⟩) fun id => id = 1

/-- The result of the reset is in the feedback already, and the device whose RPDO comes has no
joint. -/
theorem refines_resetting : ∃ p, Refines twoJoints
    [.inl (1, .transmitted ⟨0, 0, 7⟩), .inl (1, .reset true), .inr (1, .transmitted ⟨0, 0, 7⟩),
      .inr (1, .reset true)] p := by
  have hrun : ((sideBySide twoJoints).runIf (fun h p i => decide (alike twoJoints h p i))
      [.rpdo 3 ⟨0x6041, 0, 0x37⟩ (.fin 0), .nmtState 1 5, .set 1 .nmtResetFbk (.fin 1),
        .set 1 .nmtReset (.fin 1), .set 1 .tpdoData (.fin 7), .set 1 .tpdoOns (.fin 1), resetting,
        .read] []
      (constructed twoJoints)).any
      (fun p => p.1 = [.inl (1, .transmitted ⟨0, 0, 7⟩), .inl (1, .reset true),
        .inr (1, .transmitted ⟨0, 0, 7⟩), .inr (1, .reset true)]) = true := by
    decide +kernel
  obtain ⟨h, p, hr, hend⟩ := (sideBySide twoJoints).exists_reach_runIf (reach_constructed _ _)
    (fun h s i hi => of_decide_eq_true hi) hrun
  obtain rfl := of_decide_eq_true hend
  exact ⟨p, refines_of_alike hr⟩

/-- An RPDO is not shown by `Cia402System`. -/
theorem not_refines :
    ¬ ∀ info h p, Reach (sideBySide info) Guard.free h p → Refines info h p := by
  intro hrefines
  have hrun : ((sideBySide twoJoints).run [.rpdo 1 ⟨0x6041, 0, 0x37⟩ (.fin 0)] []
      (constructed twoJoints)).any
      (fun p => (p.2.1.canopenData 1).seen.rpdoIndex = .fin 0x6041 ∧
        p.2.2.all fun t => (t.canopenData 1).seen.rpdoIndex = .fin 0) = true := by
    decide +kernel
  obtain ⟨h, ⟨s, t⟩, hr, hend⟩ :=
    (sideBySide twoJoints).exists_reach_run (reach_constructed _ _) hrun
  obtain ⟨hcanopen, hcia402⟩ := of_decide_eq_true hend
  obtain ⟨t, rfl, hseen⟩ := (hrefines twoJoints h _ hr).seen
  have hindex := congrArg Seen.rpdoIndex (hseen 1 (by decide))
  have hzero : (t.canopenData 1).seen.rpdoIndex = .fin 0 := by simpa using hcia402
  change (t.canopenData 1).seen.rpdoIndex = (s.canopenData 1).seen.rpdoIndex at hindex
  rw [hzero, hcanopen] at hindex
  exact absurd hindex (by decide)

end RosCanopen.Ros2Control
