import RosCanopen.Cia402.Flow

/-!
# The rising edge of the fault reset

A drive resets a fault on the rising edge of bit 7 of the control word.  `handleInit` and
`handleRecover` arm `start_fault_reset_`, which has the bit withheld from one streamed
word; `handleEnable` and `handleShutdown` set the bit without arming.  An edge is missing
where they find the bit left on the wire by an earlier attempt, and where a cycle of
writing loses the pending reset because its access to the driver throws.

The runs are recorded step by step, so that "since the call began" can be said of them.

## Main definitions

* `Thread.requestsReset` — the step requests the transition out of `fault`.
* `Outstanding` — a request after which no word with the bit has been streamed.
* `ResetEdges` — every request is followed by an edge.
* `edgeKept` — the steps that keep the edges.
-/

namespace RosCanopen.Cia402

open Lib

/-- A streamed word has the fault reset bit. -/
def MotorEvent.setsReset : MotorEvent → Bool
  | .controlWord _ cw => cw.getLsbD ControlWord.faultReset
  | _ => false

/-- A streamed word has not. -/
def MotorEvent.clearsReset : MotorEvent → Bool
  | .controlWord _ cw => !cw.getLsbD ControlWord.faultReset
  | _ => false

/-- The calls that may reset a fault. -/
def Call.resetsFault : Call → Bool
  | .handleInit => true
  | .handleRecover => true
  | .handleEnable => true
  | .handleShutdown => true
  | _ => false

/-- The calls that arm `start_fault_reset_`. -/
def Call.arms : Call → Bool
  | .handleInit => true
  | .handleRecover => true
  | _ => false

/-- The thread has found `fault` and requests the transition to `switchOnDisabled`. -/
def Thread.requestsReset (m : Motor) (t : Thread) : Bool :=
  t.call.resetsFault &&
    match t.code with
    | .stateTransit _ .fault =>
        (setTransition m.controlWord .fault m.targetState (some .unknown)).2.2 =
          some .switchOnDisabled
    | _ => false

namespace MotorRecord

def setsReset (r : MotorRecord) : Bool := r.events.any MotorEvent.setsReset

def clearsReset (r : MotorRecord) : Bool := r.events.any MotorEvent.clearsReset

/-- Thread `i` enters a call. -/
def begins (i : ℕ) (r : MotorRecord) : Bool :=
  match r.input with
  | .enter j _ => decide (j = i)
  | .go _ _ => false

/-- Thread `i` requests a fault reset. -/
def requestsReset (i : ℕ) (r : MotorRecord) : Bool :=
  match r.input with
  | .enter _ _ => false
  | .go j _ => decide (j = i) && (r.state.threads i).any fun t => t.requestsReset r.state.motor

end MotorRecord

/-- The latest word on the wire has the fault reset bit clear. -/
def wireClear (h : List MotorRecord) : Bool :=
  since (fun r => !r.setsReset) MotorRecord.clearsReset h

/-- Such a word has been streamed since thread `i` has entered its call. -/
def clearedIn (i : ℕ) (h : List MotorRecord) : Bool :=
  since (fun r => !r.begins i) (fun r => !r.begins i && r.clearsReset) h

/-- Thread `i` has requested a fault reset, and no word with the bit has been streamed
since; `recent` is what has happened since its call began. -/
def Outstanding (h : List MotorRecord) (i : ℕ) (recent : List MotorRecord) : Prop :=
  ∃ mid request before begun old, h = recent ++ begun :: old ∧
    recent = mid ++ request :: before ∧ begun.begins i = true ∧
    (∀ r ∈ before, r.begins i = false) ∧ request.requestsReset i = true ∧
    ∀ r ∈ mid, r.setsReset = false

/-- Every request is followed by an edge: the first word with the bit comes after one
without it, which was streamed since the call began or immediately before. -/
def ResetEdges (h : List MotorRecord) : Prop :=
  Historically (fun r old => r.setsReset = true → ∀ i recent, Outstanding old i recent →
    (∃ x ∈ recent, x.clearsReset = true) ∨ wireClear old = true) h

/-- The steps that keep the edges: no streaming throws while a fault reset is pending; and
`handleEnable` and `handleShutdown` request a reset only while one is pending, or with the
bit clear on the wire, now or at some time since the call began. -/
def edgeKept : Guard MotorSystem MotorStep MotorRecord
  | _, _, .enter _ _ => True
  | h, s, .go i env => ∀ t, s.threads i = some t →
      (t.code = .write → s.motor.startFaultReset = true → env.streamOk = true) ∧
      (t.call.arms = false → t.requestsReset s.motor = true →
        s.motor.startFaultReset = true ∨ wireClear h = true ∨ clearedIn i h = true)

section Record
variable {r : MotorRecord} {h recent : List MotorRecord} {i : ℕ}

theorem wireClear_cons : wireClear (r :: h) = (r.clearsReset || (!r.setsReset && wireClear h)) :=
  rfl

theorem clearedIn_cons (hgo : r.begins i = false) :
    clearedIn i (r :: h) = (r.clearsReset || clearedIn i h) := by
  simp [clearedIn, hgo]

theorem exists_of_requestsReset (hrequest : r.requestsReset i = true) :
    ∃ env t, r.input = .go i env ∧ r.state.threads i = some t ∧
      t.requestsReset r.state.motor = true := by
  obtain ⟨s, input, es⟩ := r
  cases input with
  | enter j call => contradiction
  | go j env =>
      obtain ⟨hj, hany⟩ := Bool.and_eq_true_iff.mp hrequest
      obtain rfl := of_decide_eq_true hj
      obtain ⟨t, ht, hrequests⟩ := (Option.any_eq_true _ _).mp hany
      exact ⟨env, t, rfl, ht, hrequests⟩

/-- A request is outstanding since an earlier step, or is made by this one. -/
theorem outstanding_cons (hout : Outstanding (r :: h) i recent) :
    ∃ recent', recent = r :: recent' ∧
      (r.setsReset = false ∧ Outstanding h i recent' ∨
        r.requestsReset i = true ∧
          ∃ begun old, h = recent' ++ begun :: old ∧ begun.begins i = true) := by
  obtain ⟨mid, request, before, begun, old, hh, rfl, hbegun, hbefore, hrequest, hmid⟩ := hout
  cases mid with
  | nil =>
      obtain ⟨rfl, rfl⟩ := List.cons.inj hh
      exact ⟨before, rfl, .inr ⟨hrequest, begun, old, rfl, hbegun⟩⟩
  | cons x mid =>
      obtain ⟨rfl, rfl⟩ := List.cons.inj hh
      refine ⟨mid ++ request :: before, rfl, .inl ⟨hmid r (by simp), ?_⟩⟩
      exact ⟨mid, request, before, begun, old, rfl, rfl, hbegun, hbefore, hrequest,
        fun x hx => hmid x (by simp [hx])⟩

end Record

/-! ## What a step does to a pending reset -/

section Step
variable {m m' : Motor} {env : Env} {code : Code} {next : Next} {es : List MotorEvent}

/-- Only a cycle of writing takes a pending reset away. -/
theorem pending_of_effect (heffect : Effect m env code m' next es) (hcode : code ≠ .write)
    (hpending : m.startFaultReset = true) : m'.startFaultReset = true := by
  cases heffect with
  | wrote => exact absurd rfl hcode
  | displayed sw mode =>
      obtain ⟨modes, heq⟩ := readSelected_motor m mode sw
      rw [heq]
      exact hpending
  | targeted val =>
      obtain ⟨modes, heq⟩ := setSelectedTarget_motor m val
      rw [heq]
      exact hpending
  | started mode =>
      obtain ⟨modes, heq⟩ := startMode_motor m mode
      rw [heq]
      exact hpending
  | armed => rfl
  | recovered => rfl
  | _ => exact hpending

theorem startFaultReset_of_wrote {w : Option (ModeId × ModeWrite)} (hw : Wrote m env m' w) :
    m'.startFaultReset = m.startFaultReset := by
  cases hw <;> rfl

/-- A word with the bit is streamed only if no reset is pending. -/
theorem not_pending_of_setsReset (h : (m.handleWrite env).2.2.any MotorEvent.setsReset = true) :
    m.startFaultReset = false := by
  obtain ⟨e, he, hset⟩ := List.any_eq_true.mp h
  cases e with
  | controlWord index cw =>
      obtain ⟨m', w, hw, rfl⟩ := mem_controlWord he
      have hbit : m'.streamed.getLsbD ControlWord.faultReset = true := hset
      rw [getLsbD_streamed, startFaultReset_of_wrote hw] at hbit
      simp only [decide_true, Bool.and_true, Bool.and_eq_true, Bool.not_eq_true'] at hbit
      exact hbit.2
  | _ => contradiction

/-- A pending reset has a word without the bit streamed, or stays pending. -/
theorem clearsReset_of_pending (hpending : m.startFaultReset = true) (hok : env.streamOk = true) :
    (m.handleWrite env).2.2.any MotorEvent.clearsReset = true ∨
      (m.handleWrite env).1.startFaultReset = true := by
  obtain ⟨m', w, hw, heq⟩ := exists_wrote m env
  have hpending' : m'.startFaultReset = true := (startFaultReset_of_wrote hw).trans hpending
  have hclears : (m'.stream env.streamOk).2.2.any MotorEvent.clearsReset = true := by
    simp [stream_eq, hok, MotorEvent.clearsReset, getLsbD_streamed, hpending']
  rw [heq]
  unfold Motor.finishWrite
  split
  · split
    · exact .inr hpending'
    · exact .inl (by simp [hclears])
  · exact .inl hclears

end Step

/-! ## Arming -/

/-- A thread whose call arms the fault reset, before it has done so. -/
inductive Thread.BeforeArm : Thread → Prop
  | alloc (todo : List ModeId) : BeforeArm ⟨.handleInit, .initAlloc todo, []⟩
  | reads {code : Code} (hcode : code.reads = true) : BeforeArm ⟨.handleInit, code, [.thenArm]⟩
  | arm : BeforeArm ⟨.handleInit, .initArm, []⟩
  | recover : BeforeArm ⟨.handleRecover, .recoverArm, []⟩

section Arm
variable {m m' : Motor} {env : Env} {t : Thread} {next : Next} {es : List MotorEvent}

/-- Such a thread stays before arming, or arms. -/
theorem Thread.BeforeArm.after (ht : t.BeforeArm)
    (hexec : m.exec env t.code = some (m', next, es)) :
    ∀ t', (t.after next).1 = some t' → t'.BeforeArm ∨ m'.startFaultReset = true := by
  intro t' ht'
  cases ht with
  | alloc todo =>
      cases todo with
      | nil =>
          obtain ⟨rfl, rfl, rfl⟩ := step_inj hexec
          cases ht'
          exact .inl (.reads rfl)
      | cons id todo =>
          simp only [Motor.exec] at hexec
          split at hexec <;> obtain ⟨rfl, rfl, rfl⟩ := step_inj hexec
          · cases ht'
            exact .inl (.alloc todo)
          · contradiction
  | reads hcode =>
      have hflow := flow_of_exec hexec
      cases hflow with
      | reads _ hnext =>
          cases next with
          | goto code =>
              cases ht'
              exact .inl (.reads hnext)
          | throw => contradiction
          | _ => contradiction
      | shows sw mode =>
          cases ht'
          exact .inl .arm
      | plain hplain => exact absurd (hcode.symm.trans hplain) (by simp)
      | _ => contradiction
  | arm =>
      obtain ⟨rfl, rfl, rfl⟩ := step_inj hexec
      exact .inr rfl
  | recover =>
      obtain ⟨rfl, rfl, rfl⟩ := step_inj hexec
      exact .inr rfl

theorem beforeArm_entry {call : Call} (harms : call.arms = true) :
    Thread.BeforeArm ⟨call, (call.entry m).1, (call.entry m).2⟩ := by
  cases call with
  | handleInit => exact .alloc _
  | handleRecover => exact .recover
  | _ => contradiction

/-- Before arming, nothing is requested. -/
theorem Thread.BeforeArm.not_requests (ht : t.BeforeArm) : t.requestsReset m = false := by
  cases ht with
  | @reads code hreads => cases code <;> first | contradiction | rfl
  | _ => rfl

end Arm

/-! ## Runs that keep the edges -/

/-- The invariant of the runs that keep the edges. -/
structure Edged (h : List MotorRecord) (s : MotorSystem) : Prop where
  owed : ∀ i recent, Outstanding h i recent → (∃ x ∈ recent, x.clearsReset = true) ∨
    wireClear h = true ∨ s.motor.startFaultReset = true
  armed : ∀ i t, s.threads i = some t → t.call.arms = true →
    t.BeforeArm ∨ clearedIn i h = true ∨ s.motor.startFaultReset = true
  edges : ResetEdges h

namespace Edged
variable {h : List MotorRecord} {s s' : MotorSystem} {i : MotorStep} {es : List MotorEvent}

/-- A request is made with a word without the bit behind it, or a reset pending. -/
theorem requested (hs : Edged h s) (hok : edgeKept h s i) {j : ℕ} {recent : List MotorRecord}
    {begun : MotorRecord} {old : List MotorRecord} (hh : h = recent ++ begun :: old)
    (hbegun : begun.begins j = true)
    (hrequest : MotorRecord.requestsReset j ⟨s, i, es⟩ = true) :
    (∃ x ∈ recent, x.clearsReset = true) ∨ wireClear h = true ∨
      s.motor.startFaultReset = true := by
  obtain ⟨env, t, rfl, ht, hrequests⟩ := exists_of_requestsReset hrequest
  have hcovered : s.motor.startFaultReset = true ∨ wireClear h = true ∨ clearedIn j h = true := by
    cases harms : t.call.arms with
    | false => exact (hok t ht).2 harms hrequests
    | true =>
        rcases hs.armed j t ht harms with hbefore | hcleared | hpending
        · exact absurd (hbefore.not_requests.symm.trans hrequests) (by simp)
        · exact .inr (.inr hcleared)
        · exact .inl hpending
  rcases hcovered with hpending | hwire | hcleared
  · exact .inr (.inr hpending)
  · exact .inr (.inl hwire)
  · subst hh
    obtain ⟨x, hx, hclear⟩ := exists_of_since (by simp [hbegun]) (by simp [hbegun]) hcleared
    exact .inl ⟨x, hx, (Bool.and_eq_true_iff.mp hclear).2⟩

/-- A step that uses a pending reset up has streamed a word without the bit. -/
theorem extend (hs : Edged h s) (hok : edgeKept h s i)
    (hset : MotorRecord.setsReset ⟨s, i, es⟩ = true →
      s.motor.startFaultReset = false ∧ ∀ j, MotorRecord.requestsReset j ⟨s, i, es⟩ = false)
    (hkept : s.motor.startFaultReset = true →
      MotorRecord.clearsReset ⟨s, i, es⟩ = true ∨ s'.motor.startFaultReset = true)
    (harmed : ∀ j t, s'.threads j = some t → t.call.arms = true →
      t.BeforeArm ∨ clearedIn j (⟨s, i, es⟩ :: h) = true ∨ s'.motor.startFaultReset = true) :
    Edged (⟨s, i, es⟩ :: h) s' := by
  refine ⟨fun j recent hout => ?_, harmed, hs.edges.cons ?_⟩
  · obtain ⟨recent', rfl, hcase⟩ := outstanding_cons hout
    cases hclear : MotorRecord.clearsReset ⟨s, i, es⟩ with
    | true => exact .inl ⟨_, List.mem_cons_self, hclear⟩
    | false =>
        have hpending : s.motor.startFaultReset = true → s'.motor.startFaultReset = true :=
          fun hpending => (hkept hpending).resolve_left (by simp [hclear])
        have hquiet : MotorRecord.setsReset ⟨s, i, es⟩ = false := by
          rcases hcase with ⟨hquiet, -⟩ | ⟨hrequest, -⟩
          · exact hquiet
          · refine eq_false_of_ne_true fun hsets => ?_
            exact absurd (((hset hsets).2 j).symm.trans hrequest) (by simp)
        have howed : (∃ x ∈ recent', x.clearsReset = true) ∨ wireClear h = true ∨
            s.motor.startFaultReset = true := by
          rcases hcase with ⟨-, hout⟩ | ⟨hrequest, begun, old, hh, hbegun⟩
          · exact hs.owed j recent' hout
          · exact hs.requested hok hh hbegun hrequest
        rcases howed with ⟨x, hx, hxclear⟩ | hwire | hold
        · exact .inl ⟨x, List.mem_cons_of_mem _ hx, hxclear⟩
        · exact .inr (.inl (by simp [wireClear_cons, hquiet, hwire]))
        · exact .inr (.inr (hpending hold))
  · intro hsets j recent hout
    rcases hs.owed j recent hout with hclear | hwire | hpending
    · exact .inl hclear
    · exact .inr hwire
    · exact absurd (hpending.symm.trans (hset hsets).1) (by simp)

/-- **Every step keeps the edges.** -/
theorem stepped (hs : Edged h s) (hok : edgeKept h s i) (hstep : Stepped s i s' es) :
    Edged (⟨s, i, es⟩ :: h) s' := by
  cases hstep with
  | @enters j call hidle =>
      refine hs.extend hok (by simp [MotorRecord.setsReset, MotorEvent.setsReset]) .inr ?_
      intro j' t ht harms
      by_cases hj : j' = j
      · subst hj
        obtain rfl : _ = t := by simpa using ht
        exact .inl (beforeArm_entry harms)
      · have hgo : MotorRecord.begins j' ⟨s, .enter j call, [.called call]⟩ = false := by
          simp [MotorRecord.begins, Ne.symm hj]
        rw [clearedIn_cons hgo]
        rcases hs.armed j' t (by simpa [hj] using ht) harms with hbefore | hclear | hpending
        · exact .inl hbefore
        · exact .inr (.inl (by simp [hclear]))
        · exact .inr (.inr hpending)
  | @goes j env t m next es ht hexec =>
      have heffect := effect_of_exec hexec
      have hstreams : ∀ e ∈ (t.after next).2 ++ es, e.writes = true →
          t.code = .write ∧ e ∈ es ∧ e ∈ (s.motor.handleWrite env).2.2 := fun e he =>
        mem_handleWrite_of_writes hexec he
      have hkept : s.motor.startFaultReset = true →
          MotorRecord.clearsReset ⟨s, .go j env, (t.after next).2 ++ es⟩ = true ∨
            m.startFaultReset = true := by
        intro hpending
        by_cases hcode : t.code = .write
        · rw [hcode] at hexec
          obtain ⟨rfl, rfl, rfl⟩ := step_inj hexec
          refine (clearsReset_of_pending hpending ((hok t ht).1 hcode hpending)).imp_left ?_
          intro hclear
          simp [MotorRecord.clearsReset, hclear]
        · exact .inr (pending_of_effect heffect hcode hpending)
      refine hs.extend hok ?_ hkept ?_
      · intro hsets
        obtain ⟨e, he, hset⟩ := List.any_eq_true.mp hsets
        have hwrites : e.writes = true := by
          cases e <;> first | contradiction | rfl
        obtain ⟨hcode, -, hmem⟩ := hstreams e he hwrites
        refine ⟨not_pending_of_setsReset (List.any_eq_true.mpr ⟨e, hmem, hset⟩), ?_⟩
        refine fun j' => eq_false_of_ne_true fun hrequest => ?_
        obtain ⟨env', t', hinput, ht', hrequests⟩ := exists_of_requestsReset hrequest
        obtain ⟨rfl, rfl⟩ := MotorStep.go.inj hinput
        obtain rfl := Option.some.inj (ht.symm.trans ht')
        simp [Thread.requestsReset, hcode] at hrequests
      · intro j' t' ht' harms
        have hcovered : clearedIn j' h = true ∨ s.motor.startFaultReset = true →
            clearedIn j' (⟨s, .go j env, (t.after next).2 ++ es⟩ :: h) = true ∨
              m.startFaultReset = true := by
          intro hcovered
          rw [clearedIn_cons rfl]
          rcases hcovered with hclear | hpending
          · exact .inl (by simp [hclear])
          · exact (hkept hpending).imp_left fun hclear => by simp [hclear]
        by_cases hj : j' = j
        · subst hj
          have hafter : (t.after next).1 = some t' := by simpa using ht'
          rw [call_of_after hafter] at harms
          rcases hs.armed j' t ht harms with hbefore | hcover
          · exact (hbefore.after hexec t' hafter).imp_right .inr
          · exact .inr (hcovered hcover)
        · have hother : s.threads j' = some t' := by simpa [hj] using ht'
          exact (hs.armed j' t' hother harms).imp_right hcovered

/-- The invariant along every run that keeps the edges. -/
theorem of_reach (hr : Reach MotorSystem.system.recorded edgeKept h s) : Edged h s := by
  induction hr with
  | @init s hs =>
      have hthreads : s.threads = fun _ => none := hs.2.2.2
      exact ⟨fun i recent hout => by simp [Outstanding] at hout, by simp [hthreads],
        historically_nil⟩
  | step _ hok hstep ih =>
      obtain ⟨es, hemits, rfl⟩ := System.recorded_step hstep
      exact ih.stepped hok (stepped_of_step hemits)

end Edged

/-- **Every request has its edge along every run that keeps the edges.**  The first word
with the fault reset bit after a request comes after one without it. -/
theorem resetEdges_of_edgeKept {h : List MotorRecord} {s : MotorSystem}
    (hr : Reach MotorSystem.system.recorded edgeKept h s) : ResetEdges h :=
  (Edged.of_reach hr).edges

/-- A drive that reports `fault` throughout. -/
def Env.faulted : Env := .answering 0x08 0 0

/-- A step that keeps the edges without looking back. -/
def keepsEdges (_ : List MotorRecord) (s : MotorSystem) : MotorStep → Bool
  | .enter _ _ => true
  | .go i env => env.streamOk && (s.threads i).all fun t => t.call.arms || !t.requestsReset s.motor

theorem edgeKept_of_keepsEdges {h : List MotorRecord} {s : MotorSystem} {i : MotorStep}
    (hcheck : keepsEdges h s i = true) : edgeKept h s i := by
  cases i with
  | enter i call => trivial
  | go i env =>
      intro t ht
      obtain ⟨hok, hall⟩ := Bool.and_eq_true_iff.mp hcheck
      rw [ht] at hall
      refine ⟨fun _ _ => hok, fun harms hrequest => ?_⟩
      simp [harms, hrequest] at hall

/-- `handleRecover` on a faulted drive, and the cycle that streams the bit. -/
theorem resetEdges_recover : ∃ (r : MotorRecord) (h : List MotorRecord),
    r.setsReset = true ∧ ResetEdges (r :: h) := by
  have h0 : Reach MotorSystem.system.recorded edgeKept [] (.zeroed 0 []) :=
    .init (MotorSystem.constructed_zeroed 0 [])
  have hsets : (MotorSystem.system.recorded.runIf keepsEdges
      (MotorStep.calls 0 .handleRead 3 .faulted ++ MotorStep.calls 1 .handleRecover 6 .faulted ++
        MotorStep.calls 0 .handleWrite 1 .faulted ++ MotorStep.calls 0 .handleWrite 1 .faulted) []
      (.zeroed 0 [])).any (fun p => p.1.head?.any MotorRecord.setsReset) = true := by
    decide +kernel
  obtain ⟨h, s, hreach, hhead⟩ := System.exists_reach_runIf _ h0
    (fun _ _ _ hcheck => edgeKept_of_keepsEdges hcheck) hsets
  obtain ⟨r, hr, hset⟩ := (Option.any_eq_true _ _).mp hhead
  obtain ⟨old, rfl⟩ := List.head?_eq_some_iff.mp hr
  exact ⟨r, old, hset, resetEdges_of_edgeKept hreach⟩

/-- `handleInit` fails to reset the fault, and `handleEnable` tries again. -/
def MotorStep.retryReset : List MotorStep :=
  MotorStep.calls 1 .handleInit 9 .faulted ++ MotorStep.calls 0 .pollTimerCallback 4 .faulted ++
    MotorStep.calls 0 .pollTimerCallback 4 .faulted ++
    [.go 1 { Env.faulted with timedOut := true }] ++
    MotorStep.calls 1 .handleEnable 7 .faulted ++ MotorStep.calls 0 .pollTimerCallback 4 .faulted

/-- A word with the bit four records after a request, which came seven records after its
call began; the bit has been on the wire throughout. -/
def MotorRecord.missesEdge : List MotorRecord → Bool
  | r :: p₁ :: p₂ :: p₃ :: p₄ :: request :: q₁ :: q₂ :: q₃ :: q₄ :: q₅ :: q₆ :: begun :: old =>
      let mid : List MotorRecord := [p₁, p₂, p₃, p₄]
      let before : List MotorRecord := [q₁, q₂, q₃, q₄, q₅, q₆]
      r.setsReset && request.requestsReset 1 && begun.begins 1 &&
        before.all (fun x => !x.begins 1) && mid.all (fun x => !x.setsReset) &&
        (mid ++ request :: before).all (fun x => !x.clearsReset) &&
        !wireClear (mid ++ request :: before ++ begun :: old)
  | _ => false

theorem not_resetEdges_of_missesEdge {h : List MotorRecord}
    (hmisses : MotorRecord.missesEdge h = true) : ¬ ResetEdges h := by
  intro hedges
  unfold MotorRecord.missesEdge at hmisses
  split at hmisses
  · next r p₁ p₂ p₃ p₄ request q₁ q₂ q₃ q₄ q₅ q₆ begun old =>
      simp only [Bool.and_eq_true, Bool.not_eq_true', List.all_eq_true] at hmisses
      obtain ⟨⟨⟨⟨⟨⟨hsets, hrequest⟩, hbegun⟩, hbefore⟩, hmid⟩, hrecent⟩, hwire⟩ := hmisses
      have hout : Outstanding _ 1 ([p₁, p₂, p₃, p₄] ++ request :: [q₁, q₂, q₃, q₄, q₅, q₆]) :=
        ⟨_, _, _, _, old, rfl, rfl, hbegun, hbefore, hrequest, hmid⟩
      rcases hedges [] r _ rfl hsets 1 _ hout with ⟨x, hx, hclear⟩ | hclear
      · exact absurd ((hrecent x hx).symm.trans hclear) (by simp)
      · exact absurd (hwire.symm.trans hclear) (by simp)
  · contradiction

/-- The bit is on the wire when `handleEnable` sets it again, and stays there. -/
theorem not_resetEdges : ∃ h s, Reach MotorSystem.system.recorded Guard.free h s ∧
    ¬ ResetEdges h := by
  have h0 : Reach MotorSystem.system.recorded Guard.free [] (.zeroed 0 []) :=
    .init (MotorSystem.constructed_zeroed 0 [])
  have hmissed : (MotorSystem.system.recorded.run MotorStep.retryReset [] (.zeroed 0 [])).any
      (fun p => MotorRecord.missesEdge p.1) = true := by
    decide +kernel
  obtain ⟨h, s, hreach, hmisses⟩ := System.exists_reach_run _ h0 hmissed
  exact ⟨h, s, hreach, not_resetEdges_of_missesEdge hmisses⟩

end RosCanopen.Cia402
