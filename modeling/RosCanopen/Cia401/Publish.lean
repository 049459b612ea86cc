import RosCanopen.Cia401.Configuration
import RosCanopen.Lib.System

/-!
# What the remote receiver publishes

`publish` reads the axes, the buttons and the e-stop one after the other, while the dictionary
goes on being written.  An object that is missing, or switched off by its index, reads as 0; so
does an input that has never come, out of the dictionary.

## Main definitions

* `M880Remote.readByte`, `M880Remote.readPolarBit` — the reads with their values.
* `PublishPoint`, `RemoteState.system` — the cycles of `publish`, read by read.
* `FabricatesNothing` — what is published has come from the device.
* `inputsReal` — the reads of the runs in which it has.
-/

namespace RosCanopen.Cia401

open Lib Bridge

/-! ## The reads -/

/-- The bit of a byte, with its polarity. -/
def PolarBitSpec.test (spec : PolarBitSpec) (byte : BitVec 8) : Bool :=
  let raw := byte.getLsbD (spec.bit &&& 0x07).toNat
  if spec.activeLow then !raw else raw

namespace M880Remote
variable (r : M880Remote)

/-- `read_u8` -/
def readByte (object : ObjectId) (reply : Reply) (s : DictionaryState) :
    CallResult (BitVec 8) :=
  match r.driver with
  | none => (some 0, s, [])
  | some b =>
      if object.1 = 0 then (some 0, s, [])
      else if b.hasObject object then
        let (value, rest) := b.callGetValue object .unsigned8 reply s
        (value.map (BitVec.setWidth 8), rest)
      else (some 0, s, [])

/-- `read_bit` -/
def readPolarBit (spec : PolarBitSpec) (reply : Reply) (s : DictionaryState) : CallResult Bool :=
  if r.driver.isNone ∨ spec.index = 0 then (some false, s, [])
  else
    let (byte, rest) := r.readByte (spec.index, spec.sub) reply s
    (byte.map spec.test, rest)

end M880Remote

/-- An entry of `buttons`, or a polled byte of eight buttons. -/
inductive ButtonRead
  | bit (spec : PolarBitSpec)
  | byte (sub : BitVec 8)

/-- The reads of `read_buttons`. -/
def Config.buttonReads (c : Config) : List ButtonRead :=
  if c.bitSpecs.isEmpty then c.polledSubs.map .byte else c.bitSpecs.map .bit

/-- The entries that one read of `read_buttons` adds. -/
def M880Remote.readButton (r : M880Remote) (button : ButtonRead) (reply : Reply)
    (s : DictionaryState) : CallResult (List Bool) :=
  match button with
  | .bit spec =>
      let (value, rest) := r.readPolarBit spec reply s
      (value.map fun value => [value], rest)
  | .byte sub =>
      let (byte, rest) := r.readByte (r.registers.digitalInputIndex, sub) reply s
      (byte.map fun byte => (List.range 8).map byte.getLsbD, rest)

/-! ## The cycles of `publish` -/

/-- The program points of `publish`, with the values read so far and the reads that are left. -/
inductive PublishPoint
  | readAxes (values : List ℚ) (rest : List AxisSpec)
  | readButtons (axes : List ℚ) (values : List Bool) (rest : List ButtonRead)
  | readEstop (spec : PolarBitSpec)

structure RemoteState where
  dictionary : DictionaryState
  /-- There is a `remote_`. -/
  attached : Bool
  point : Option PublishPoint

inductive RemoteInput
  /-- A step of the bridge. -/
  | traffic (input : DictionaryInput)
  | addToMaster
  /-- `deactivate` has reset `remote_`. -/
  | deactivate
  | publish
  /-- The next read, or what `publish` does between two loops. -/
  | go (reply : Reply)

inductive RemoteEvent
  | transfer (e : TransferEvent)
  | joy (axes : List ℚ) (buttons : List Bool)
  | estop (data : Bool)
  deriving DecidableEq

namespace RemoteState
variable (f : Rounded float32) (c : Config) (b : DriverNode) (s : RemoteState)

/-- `publish` from a program point to the next; an exception leaves it. -/
def go (reply : Reply) : PublishPoint → RemoteState × List RemoteEvent
  | .readAxes values (axis :: rest) =>
      let r := c.remote b
      let (byte, dictionary, es) :=
        r.readByte (r.registers.analogIndex, axis.sub) reply s.dictionary
      ({ s with
        dictionary := dictionary
        point := byte.map fun raw => .readAxes (values ++ [normalize f raw axis]) rest },
        es.map .transfer)
  | .readAxes values [] => ({ s with point := some (.readButtons values [] c.buttonReads) }, [])
  | .readButtons axes values (button :: rest) =>
      let (bits, dictionary, es) := (c.remote b).readButton button reply s.dictionary
      ({ s with
        dictionary := dictionary
        point := bits.map fun bits => .readButtons axes (values ++ bits) rest },
        es.map .transfer)
  | .readButtons axes values [] =>
      ({ s with point := c.estopSpec.map .readEstop }, [.joy axes values])
  | .readEstop spec =>
      let (value, dictionary, es) := (c.remote b).readPolarBit spec reply s.dictionary
      ({ s with dictionary := dictionary, point := none },
        (value.toList.map .estop) ++ es.map .transfer)

/-- One step; the timer calls `publish` when it has returned. -/
def step : RemoteInput → Option (RemoteState × List RemoteEvent)
  | .traffic input =>
      (DictionaryState.step b s.dictionary input).map fun (dictionary, es) =>
        ({ s with dictionary := dictionary }, es.map .transfer)
  | .addToMaster => some ({ s with attached := true }, [])
  | .deactivate => some ({ s with attached := false }, [])
  | .publish =>
      match s.point with
      | some _ => none
      | none =>
          if s.attached then some ({ s with point := some (.readAxes [] c.axisSpecs) }, [])
          else some (s, [])
  | .go reply => s.point.map (go f c b s reply)

/-- A configured driver, with any values in the dictionary. -/
def system : System RemoteState RemoteInput RemoteEvent where
  init s := s.dictionary.jobs = [] ∧ s.attached = false ∧ s.point = none
  step := step f c b

end RemoteState

/-! ## Nothing is made up -/

/-- A value of the object that the device has sent. -/
def RemoteEvent.brings (object : ObjectId) (byte : BitVec 8) : RemoteEvent → Bool
  | .transfer (.received other value) => decide (other = object ∧ value.setWidth 8 = byte)
  | .transfer (.answered other value) => decide (other = object ∧ value.setWidth 8 = byte)
  | _ => false

/-- The byte has been received from the device. -/
def Received (h : List RemoteEvent) (object : ObjectId) (byte : BitVec 8) : Prop :=
  ∃ e ∈ h, e.brings object byte = true

/-- The object has these numbers. -/
def Named (index sub : ℤ) (object : ObjectId) : Prop :=
  (object.1.toNat : ℤ) = index ∧ (object.2.toNat : ℤ) = sub

/-- The STOP object is there, and its bit has been received in its not-stopped polarity. -/
def Released (b : DriverNode) (h : List RemoteEvent) (g : GivenBit) : Prop :=
  ∃ object byte, (Named g.index g.sub object ∧ b.hasObject object = true) ∧
    Received h object byte ∧ (0 ≤ g.bit ∧ g.bit < 8) ∧ byte.getLsbD g.bit.toNat = g.activeLow

/-- How far a byte is from the centre as it has been configured. -/
def GivenAxis.delta (g : GivenAxis) (raw : BitVec 8) : ℤ := raw.toNat - g.center

/-- The byte is outside of the dead band as it has been configured. -/
def GivenAxis.Deflected (g : GivenAxis) (raw : BitVec 8) : Prop := g.deadband < |g.delta raw|

/-- A value that is not zero is the one of a byte that has been received for the channel, outside
of its dead band, and has the sign of its side. -/
def Moved (f : Rounded float32) (c : Config) (h : List RemoteEvent) (g : GivenAxis) (value : ℚ) :
    Prop :=
  value ≠ 0 → ∃ object raw, Named c.givenAnalogIndex g.channel object ∧ Received h object raw ∧
    g.Deflected raw ∧ value = normalize f raw g.narrow ∧ |value| ≤ 1 ∧
    SignType.sign value =
      if g.invert then -SignType.sign (g.delta raw) else SignType.sign (g.delta raw)

/-- What is published has come from the device. -/
def FabricatesNothing (f : Rounded float32) (c : Config) (b : DriverNode) (h : List RemoteEvent) :
    Prop :=
  Historically (fun e old =>
    (e = .estop false → ∃ g, c.givenEstop = some g ∧ Released b old g) ∧
      ∀ axes buttons, e = .joy axes buttons → c.givenAxes.Forall₂ (Moved f c old) axes) h

/-- The value goes with the byte, or against it if it is inverted. -/
def FollowsBytes (f : Rounded float32) (c : Config) : Prop :=
  ∀ g ∈ c.givenAxes, ∀ raw raw' : BitVec 8, raw.toNat ≤ raw'.toNat →
    if g.invert then normalize f raw' g.narrow ≤ normalize f raw g.narrow
    else normalize f raw g.narrow ≤ normalize f raw' g.narrow

/-! ## The reads that are real -/

section Guard
variable (c : Config) (b : DriverNode) (h : List RemoteEvent) (reply : Reply) (s : DictionaryState)

/-- The byte that a read finds; for a missing object it is 0. -/
def byteOf (object : ObjectId) : BitVec 8 :=
  if object.1 = 0 ∨ b.hasObject object = false then 0
  else (b.offered object .unsigned8 reply s).setWidth 8

/-- The object is there, and its byte has come from the device: before, or in answer to the
read. -/
def FromDevice (object : ObjectId) : Prop :=
  (object.1 ≠ 0 ∧ b.hasObject object = true) ∧
    (Received h object (byteOf b reply s object) ∨ b.answers object reply = true)

/-- The axis is at rest, or its own channel has brought the byte. -/
def AxisReal (g : GivenAxis) : Prop :=
  let object := (c.registers.analogIndex, g.narrow.sub)
  let raw := byteOf b reply s object
  g.narrow.Rests raw ∨
    FromDevice b h reply s object ∧ Named c.givenAnalogIndex g.channel object ∧
      g.Deflected raw ∧ (g.delta raw).sign = (g.narrow.delta raw).sign

/-- The bit says "stopped", or its own object has brought the byte. -/
def EstopReal (g : GivenBit) : Prop :=
  let object := (g.narrow.index, g.narrow.sub)
  object.1 ≠ 0 ∧
    (g.narrow.test (byteOf b reply s object) = true ∨
      FromDevice b h reply s object ∧ Named g.index g.sub object ∧ 0 ≤ g.bit ∧ g.bit < 8)

end Guard

/-- What is read for an axis or for the e-stop is real. -/
def inputsReal (c : Config) (b : DriverNode) : Guard RemoteState RemoteInput RemoteEvent
  | h, s, .go reply =>
      match s.point with
      | some (.readAxes values (_ :: _)) =>
          ∀ g ∈ c.givenAxes[values.length]?, AxisReal c b h reply s.dictionary g
      | some (.readEstop _) => ∀ g ∈ c.givenEstop, EstopReal b h reply s.dictionary g
      | _ => True
  | _, _, _ => True

/-! ## What a read finds -/

section Reads
variable {c : Config} {b : DriverNode} {h : List RemoteEvent} {object : ObjectId} {reply : Reply}
  {s : DictionaryState}

/-- A byte is read out of the object that `readU8` names. -/
theorem readByte_eq (c : Config) (b : DriverNode) (object : ObjectId) (reply : Reply)
    (s : DictionaryState) :
    (c.remote b).readByte object reply s =
      match (c.remote b).readU8 object.1 object.2 with
      | [] => (some 0, s, [])
      | object :: _ =>
          ((b.callGetValue object .unsigned8 reply s).1.map (BitVec.setWidth 8),
            (b.callGetValue object .unsigned8 reply s).2) := by
  have hdriver : (c.remote b).driver = some b := rfl
  simp only [M880Remote.readByte, M880Remote.readU8, hdriver]
  by_cases hindex : object.1 = 0
  · simp only [if_pos hindex]
  · by_cases hhas : b.hasObject object = true
    · simp only [if_neg hindex, hhas, if_true]
    · simp only [if_neg hindex, hhas]
      rfl

theorem readByte_of_hasObject (hindex : object.1 ≠ 0) (hhas : b.hasObject object = true) :
    (c.remote b).readByte object reply s =
      ((b.callGetValue object .unsigned8 reply s).1.map (BitVec.setWidth 8),
        (b.callGetValue object .unsigned8 reply s).2) := by
  have hdriver : (c.remote b).driver = some b := rfl
  simp only [readByte_eq, M880Remote.readU8, hdriver, if_neg hindex, hhas, if_true]

/-- A missing object is not read. -/
theorem readByte_of_missing (hmissing : object.1 = 0 ∨ b.hasObject object = false) :
    (c.remote b).readByte object reply s = (some 0, s, []) := by
  have hdriver : (c.remote b).driver = some b := rfl
  rw [readByte_eq]
  by_cases hindex : object.1 = 0
  · simp only [M880Remote.readU8, hdriver, if_pos hindex]
  · have hhas := hmissing.resolve_left hindex
    simp only [M880Remote.readU8, hdriver, if_neg hindex, hhas]
    rfl

theorem byteOf_of_hasObject (hindex : object.1 ≠ 0) (hhas : b.hasObject object = true) :
    byteOf b reply s object = (b.offered object .unsigned8 reply s).setWidth 8 := by
  refine if_neg ?_
  rw [not_or, Bool.not_eq_false]
  exact ⟨hindex, hhas⟩

/-- A read that does not throw finds the byte. -/
theorem readByte_eq_some {raw : BitVec 8}
    (hread : ((c.remote b).readByte object reply s).1 = some raw) :
    raw = byteOf b reply s object := by
  by_cases hmissing : object.1 = 0 ∨ b.hasObject object = false
  · rw [readByte_of_missing hmissing] at hread
    rw [byteOf, if_pos hmissing]
    exact (Option.some.inj hread).symm
  · rw [not_or, Bool.not_eq_false] at hmissing
    rw [readByte_of_hasObject hmissing.1 hmissing.2,
      (DriverNode.callGetValue_of_hasObject .unsigned8 reply s hmissing.2).1] at hread
    rw [byteOf_of_hasObject hmissing.1 hmissing.2]
    split at hread
    · exact absurd hread (by simp)
    · exact (Option.some.inj hread).symm

/-- What has come from the device by the end of a read has been received. -/
theorem received_of_fromDevice (hfrom : FromDevice b h reply s object) :
    Received (((c.remote b).readByte object reply s).2.2.map .transfer ++ h) object
      (byteOf b reply s object) := by
  obtain ⟨⟨hindex, hhas⟩, hcame⟩ := hfrom
  cases hcame with
  | inl hold =>
      obtain ⟨e, he, hbrings⟩ := hold
      exact ⟨e, List.mem_append_right _ he, hbrings⟩
  | inr hanswers =>
      have hanswered :=
        (DriverNode.callGetValue_of_hasObject .unsigned8 reply s hhas).2 hanswers
      refine ⟨.transfer (.answered object (b.offered object .unsigned8 reply s)), ?_, ?_⟩
      · rw [readByte_of_hasObject hindex hhas]
        exact List.mem_append_left _ (List.mem_map_of_mem hanswered)
      · rw [byteOf_of_hasObject hindex hhas]
        simp [RemoteEvent.brings]

theorem Received.append {byte : BitVec 8} (hr : Received h object byte) (es : List RemoteEvent) :
    Received (es ++ h) object byte := by
  obtain ⟨e, he, hbrings⟩ := hr
  exact ⟨e, List.mem_append_right es he, hbrings⟩

variable {f : Rounded float32} {g : GivenAxis}

theorem Moved.append {value : ℚ} (hm : Moved f c h g value) (es : List RemoteEvent) :
    Moved f c (es ++ h) g value := by
  intro hne
  obtain ⟨object, raw, hnamed, hreceived, hrest⟩ := hm hne
  exact ⟨object, raw, hnamed, hreceived.append es, hrest⟩

/-- A bit that there is in a byte is the one that is tested. -/
theorem test_eq_false_iff {g : GivenBit} {byte : BitVec 8} (hlow : 0 ≤ g.bit) (hhigh : g.bit < 8) :
    g.narrow.test byte = false ↔ byte.getLsbD g.bit.toNat = g.activeLow := by
  have hbits : ∀ i : Fin 8, (BitVec.ofInt 8 (i : ℤ) &&& 0x07).toNat = i := by decide
  have hbit : (g.narrow.bit &&& 0x07).toNat = g.bit.toNat := by
    have hfin := hbits ⟨g.bit.toNat, by omega⟩
    simp only [Int.toNat_of_nonneg hlow] at hfin
    exact hfin
  have hpolarity : g.narrow.activeLow = g.activeLow := rfl
  simp only [PolarBitSpec.test, hbit, hpolarity]
  cases g.activeLow with
  | true => simp
  | false => simp

theorem sign_congr {m n : ℤ} (hsign : m.sign = n.sign) : SignType.sign m = SignType.sign n := by
  have hcast : ∀ a b : SignType, (a : ℤ) = b → a = b := by decide
  rw [Int.sign_eq_sign, Int.sign_eq_sign] at hsign
  exact hcast _ _ hsign

/-- A real read moves an axis only as its own channel says. -/
theorem moved_of_axisReal {raw : BitVec 8} (hreal : AxisReal c b h reply s g)
    (hread : ((c.remote b).readByte (c.registers.analogIndex, g.narrow.sub) reply s).1 =
      some raw) :
    Moved f c (((c.remote b).readByte (c.registers.analogIndex, g.narrow.sub) reply s).2.2.map
      .transfer ++ h) g (normalize f raw g.narrow) := by
  intro hne
  have hraw := readByte_eq_some hread
  cases hreal with
  | inl hrests =>
      rw [← hraw] at hrests
      exact absurd (normalize_of_rests hrests) hne
  | inr hown =>
      obtain ⟨hfrom, hnamed, hdeflected, hside⟩ := hown
      have hreceived := received_of_fromDevice (c := c) hfrom
      rw [← hraw] at hreceived hdeflected hside
      have hrests : ¬g.narrow.Rests raw := fun hrests => hne (normalize_of_rests hrests)
      refine ⟨_, raw, hnamed, hreceived, hdeflected, rfl, abs_normalize_le f raw g.narrow, ?_⟩
      rw [sign_normalize hrests, sign_congr hside]
      rfl

/-- A real read says "not stopped" only as its own bit says. -/
theorem released_of_estopReal {g : GivenBit} (hreal : EstopReal b h reply s g)
    (hread : ((c.remote b).readPolarBit g.narrow reply s).1 = some false) :
    Released b (((c.remote b).readPolarBit g.narrow reply s).2.2.map .transfer ++ h) g := by
  obtain ⟨hindex, hbit⟩ := hreal
  have hpolar : (c.remote b).readPolarBit g.narrow reply s =
      (((c.remote b).readByte (g.narrow.index, g.narrow.sub) reply s).1.map g.narrow.test,
        ((c.remote b).readByte (g.narrow.index, g.narrow.sub) reply s).2) := by
    rw [M880Remote.readPolarBit, if_neg]
    rintro (hnone | hzero)
    · exact absurd hnone (by simp [Config.remote])
    · exact hindex hzero
  rw [hpolar] at hread ⊢
  obtain ⟨raw, hbyte, htest⟩ := Option.map_eq_some_iff.mp hread
  have hraw := readByte_eq_some hbyte
  rw [hraw] at htest
  cases hbit with
  | inl hstopped =>
      rw [hstopped] at htest
      exact absurd htest (by decide)
  | inr hown =>
      obtain ⟨hfrom, hnamed, hlow, hhigh⟩ := hown
      refine ⟨_, _, ⟨hnamed, hfrom.1.2⟩, received_of_fromDevice hfrom, ⟨hlow, hhigh⟩, ?_⟩
      exact (test_eq_false_iff hlow hhigh).mp htest

end Reads

/-! ## Configurations that fit -/

section Fits
variable {c : Config} {b : DriverNode} {h : List RemoteEvent} {reply : Reply}
  {s : DictionaryState}

/-- The numbers of an axis are those of their types. -/
structure GivenAxis.Fits (c : Config) (g : GivenAxis) : Prop where
  index : (IntType.mk false 16).Fits c.givenAnalogIndex
  channel : (IntType.mk false 8).Fits g.channel
  center : (IntType.mk false 8).Fits g.center
  deadband : (IntType.mk false 8).Fits g.deadband

/-- **An axis whose numbers fit** is read as it has been configured: what has come from the device
is real. -/
theorem axisReal_of_fits {g : GivenAxis} (hg : g.Fits c)
    (hfrom : FromDevice b h reply s (c.registers.analogIndex, g.narrow.sub)) :
    AxisReal c b h reply s g := by
  have hcenter : (g.narrow.center.toNat : ℤ) = g.center := IntType.toNat_ofInt (by decide) hg.center
  have hdeadband : (g.narrow.deadband.toNat : ℤ) = g.deadband :=
    IntType.toNat_ofInt (by decide) hg.deadband
  have hdelta : ∀ raw, g.delta raw = g.narrow.delta raw := by
    intro raw
    rw [GivenAxis.delta, AxisSpec.delta, hcenter]
  by_cases hrests : g.narrow.Rests (byteOf b reply s (c.registers.analogIndex, g.narrow.sub))
  · exact Or.inl hrests
  · refine Or.inr ⟨hfrom, ⟨?_, IntType.toNat_ofInt (by decide) hg.channel⟩, ?_, ?_⟩
    · rw [analogIndex_eq]
      exact IntType.toNat_ofInt (by decide) hg.index
    · rw [GivenAxis.Deflected, hdelta, ← hdeadband]
      exact not_le.mp hrests
    · rw [hdelta]

/-- So is the e-stop. -/
theorem estopReal_of_fits {g : GivenBit} (hindex : (IntType.mk false 16).Fits g.index)
    (hsub : (IntType.mk false 8).Fits g.sub) (hlow : 0 ≤ g.bit) (hhigh : g.bit < 8)
    (hfrom : FromDevice b h reply s (g.narrow.index, g.narrow.sub)) :
    EstopReal b h reply s g := by
  have hnamed : Named g.index g.sub (g.narrow.index, g.narrow.sub) :=
    ⟨IntType.toNat_ofInt (by decide) hindex, IntType.toNat_ofInt (by decide) hsub⟩
  exact ⟨hfrom.1.1, Or.inr ⟨hfrom, hnamed, hlow, hhigh⟩⟩

end Fits

/-! ## What a step keeps -/

section Step
variable {f : Rounded float32} {c : Config} {b : DriverNode} {h : List RemoteEvent}
  {s s' : RemoteState} {es : List RemoteEvent}

/-- What holds at a program point: the values read so far have moved only as they may. -/
def PointHolds (f : Rounded float32) (c : Config) (h : List RemoteEvent) : PublishPoint → Prop
  | .readAxes values rest => ∃ done left, c.givenAxes = done ++ left ∧
      rest = left.map GivenAxis.narrow ∧ done.Forall₂ (Moved f c h) values
  | .readButtons axes _ _ => c.givenAxes.Forall₂ (Moved f c h) axes
  | .readEstop spec => c.estopSpec = some spec

theorem PointHolds.append {point : PublishPoint} (hp : PointHolds f c h point)
    (es : List RemoteEvent) : PointHolds f c (es ++ h) point := by
  cases point with
  | readAxes values rest =>
      obtain ⟨done, left, hgiven, hrest, hmoved⟩ := hp
      exact ⟨done, left, hgiven, hrest, hmoved.imp fun _ _ hm => hm.append es⟩
  | readButtons axes values rest => exact hp.imp fun _ _ hm => hm.append es
  | readEstop spec => exact hp

/-- What holds along a run of real reads. -/
structure Sound (f : Rounded float32) (c : Config) (b : DriverNode) (h : List RemoteEvent)
    (s : RemoteState) : Prop where
  point : ∀ point, s.point = some point → PointHolds f c h point
  nothing : FabricatesNothing f c b h

/-- Transfers do not publish. -/
theorem fabricatesNothing_transfers (hn : FabricatesNothing f c b h) (es : List TransferEvent) :
    FabricatesNothing f c b (es.map .transfer ++ h) := by
  refine Historically.append hn ?_
  intro new e old heq
  have hmem : e ∈ es.map RemoteEvent.transfer := by simp [heq]
  obtain ⟨x, -, rfl⟩ := List.mem_map.mp hmem
  simp

/-- A read of an axis. -/
theorem Sound.go_axis (hs : Sound f c b h s) {reply : Reply} {values : List ℚ} {axis : AxisSpec}
    {rest : List AxisSpec} (hpoint : s.point = some (.readAxes values (axis :: rest)))
    (hok : inputsReal c b h s (.go reply)) :
    Sound f c b ((RemoteState.go f c b s reply (.readAxes values (axis :: rest))).2 ++ h)
      (RemoteState.go f c b s reply (.readAxes values (axis :: rest))).1 where
  point := by
    intro point hnext
    obtain ⟨done, left, hgiven, hrest, hmoved⟩ := hs.point _ hpoint
    cases left with
    | nil => simp at hrest
    | cons g left =>
        obtain ⟨rfl, rfl⟩ := List.cons.inj hrest
        simp only [inputsReal, hpoint] at hok
        have hg : c.givenAxes[values.length]? = some g := by
          rw [hgiven, ← hmoved.length_eq, List.getElem?_append_right (Nat.le_refl _)]
          simp
        have hreal := hok g hg
        obtain ⟨raw, hread, rfl⟩ := Option.map_eq_some_iff.mp hnext
        have hvalue := moved_of_axisReal (f := f) hreal hread
        refine ⟨done ++ [g], left, by simp [hgiven], rfl, ?_⟩
        exact List.rel_append (hmoved.imp fun _ _ hm => hm.append _) (.cons hvalue .nil)
  nothing := fabricatesNothing_transfers hs.nothing _

/-- The e-stop, if it is read. -/
theorem Sound.go_estop (hs : Sound f c b h s) {reply : Reply} {spec : PolarBitSpec}
    (hpoint : s.point = some (.readEstop spec)) (hok : inputsReal c b h s (.go reply)) :
    Sound f c b ((RemoteState.go f c b s reply (.readEstop spec)).2 ++ h)
      (RemoteState.go f c b s reply (.readEstop spec)).1 where
  point := by
    intro point hnext
    cases hnext
  nothing := by
    have hspec : c.estopSpec = some spec := hs.point _ hpoint
    rw [estopSpec_eq] at hspec
    obtain ⟨g, hg, rfl⟩ := Option.map_eq_some_iff.mp hspec
    simp only [inputsReal, hpoint] at hok
    have hreal := hok g hg
    have hread := fabricatesNothing_transfers hs.nothing
      ((c.remote b).readPolarBit g.narrow reply s.dictionary).2.2
    simp only [RemoteState.go]
    cases hvalue : ((c.remote b).readPolarBit g.narrow reply s.dictionary).1 with
    | none => exact hread
    | some value =>
        refine Historically.cons hread ⟨?_, by simp⟩
        intro hfalse
        obtain rfl : value = false := RemoteEvent.estop.inj hfalse
        exact ⟨g, hg, released_of_estopReal hreal hvalue⟩

/-- `publish` from one program point to the next. -/
theorem Sound.go (hs : Sound f c b h s) {reply : Reply} {point : PublishPoint}
    (hpoint : s.point = some point) (hok : inputsReal c b h s (.go reply)) :
    Sound f c b ((RemoteState.go f c b s reply point).2 ++ h)
      (RemoteState.go f c b s reply point).1 := by
  cases point with
  | readAxes values rest =>
      cases rest with
      | nil =>
          refine ⟨?_, hs.nothing⟩
          intro point hnext
          obtain rfl := Option.some.inj hnext
          obtain ⟨done, left, hgiven, hrest, hmoved⟩ := hs.point _ hpoint
          have hleft : left = [] := List.map_eq_nil_iff.mp hrest.symm
          rw [hleft, List.append_nil] at hgiven
          rw [← hgiven] at hmoved
          exact hmoved
      | cons axis rest => exact hs.go_axis hpoint hok
  | readButtons axes values rest =>
      have hmoved := hs.point _ hpoint
      cases rest with
      | nil =>
          constructor
          · intro point hnext
            obtain ⟨spec, hspec, rfl⟩ := Option.map_eq_some_iff.mp hnext
            exact hspec
          · refine Historically.cons hs.nothing ⟨by simp, ?_⟩
            intro axes' buttons heq
            obtain ⟨rfl, rfl⟩ := RemoteEvent.joy.inj heq
            exact hmoved
      | cons button rest =>
          refine ⟨?_, fabricatesNothing_transfers hs.nothing _⟩
          intro point hnext
          obtain ⟨bits, -, rfl⟩ := Option.map_eq_some_iff.mp hnext
          exact hmoved.append _
  | readEstop spec => exact hs.go_estop hpoint hok

/-- **What a step keeps.** -/
theorem Sound.step (hs : Sound f c b h s) {i : RemoteInput} (hok : inputsReal c b h s i)
    (hstep : s.step f c b i = some (s', es)) : Sound f c b (es ++ h) s' := by
  cases i with
  | traffic input =>
      obtain ⟨⟨dictionary, transfers⟩, -, heq⟩ := Option.map_eq_some_iff.mp hstep
      obtain ⟨rfl, rfl⟩ := Prod.mk.inj heq
      refine ⟨?_, fabricatesNothing_transfers hs.nothing transfers⟩
      intro point hpoint
      exact (hs.point point hpoint).append _
  | addToMaster =>
      obtain ⟨rfl, rfl⟩ := Prod.mk.inj (Option.some.inj hstep)
      exact ⟨hs.point, hs.nothing⟩
  | deactivate =>
      obtain ⟨rfl, rfl⟩ := Prod.mk.inj (Option.some.inj hstep)
      exact ⟨hs.point, hs.nothing⟩
  | publish =>
      simp only [RemoteState.step] at hstep
      split at hstep
      · exact absurd hstep (by simp)
      · split at hstep
        · obtain ⟨rfl, rfl⟩ := Prod.mk.inj (Option.some.inj hstep)
          refine ⟨?_, hs.nothing⟩
          intro point hpoint
          obtain rfl := Option.some.inj hpoint
          exact ⟨[], c.givenAxes, rfl, axisSpecs_eq, .nil⟩
        · obtain ⟨rfl, rfl⟩ := Prod.mk.inj (Option.some.inj hstep)
          exact ⟨hs.point, hs.nothing⟩
  | go reply =>
      obtain ⟨point, hpoint, heq⟩ := Option.map_eq_some_iff.mp hstep
      have hgo := hs.go hpoint hok
      rw [heq] at hgo
      exact hgo

/-- The curve of every axis goes with the byte. -/
theorem followsBytes (f : Rounded float32) (c : Config) : FollowsBytes f c :=
  fun g _ _ _ hraw => normalize_mono f g.narrow hraw

end Step

/-- **Nothing is made up** in the runs whose reads are real. -/
theorem fabricatesNothing_of_inputsReal (f : Rounded float32) (c : Config) (b : DriverNode)
    (h : List RemoteEvent) (s : RemoteState)
    (hr : Reach (RemoteState.system f c b) (inputsReal c b) h s) :
    FabricatesNothing f c b h ∧ FollowsBytes f c := by
  have hsound : Sound f c b h s := by
    induction hr with
    | init hs =>
        refine ⟨?_, historically_nil⟩
        intro point hpoint
        rw [hs.2.2] at hpoint
        exact absurd hpoint (by simp)
    | step _ hok hstep hsound => exact hsound.step hok hstep
  exact ⟨hsound.nothing, followsBytes f c⟩

/-! ## Two receivers -/

/-- A receiver whose objects are all bytes, mapped and received by PDO. -/
def mappedReceiver : DriverNode where
  id := 2
  find := fun _ _ => some .unsigned8
  lely := .plain
  pdoMap := fun _ => some fun _ => some ⟨true, false⟩
  tpdoMapped := fun _ => true
  rpdoMapped := fun _ => true

/-- A receiver that has none of the objects. -/
def bareReceiver : DriverNode where
  id := 2
  find := fun _ _ => none
  lely := .plain
  pdoMap := .empty
  tpdoMapped := fun _ => false
  rpdoMapped := fun _ => false

/-- One axis, one polled byte, and the e-stop with its polarity. -/
def Config.small (activeLow : Option Bool) : Config where
  registerMap := none
  polledDigitalSubs := some [some 1]
  axes := some [⟨some 1, none, none, none⟩]
  buttons := none
  estop := some ⟨none, none, none, activeLow⟩

/-- Every byte of the dictionary is at the centre. -/
def RemoteState.centred : RemoteState := ⟨⟨fun _ => 0x80, [], false⟩, false, none⟩

theorem init_centred (f : Rounded float32) (c : Config) (b : DriverNode) :
    (RemoteState.system f c b).init RemoteState.centred := ⟨rfl, rfl, rfl⟩

/-- A cycle of one axis, one byte and the e-stop. -/
def RemoteInput.cycle : List RemoteInput :=
  [.publish] ++ List.replicate 5 (.go .timeout)

section Decide
variable (c : Config) (b : DriverNode) (h : List RemoteEvent) (reply : Reply) (s : DictionaryState)

instance (object : ObjectId) (byte : BitVec 8) : Decidable (Received h object byte) :=
  inferInstanceAs (Decidable (∃ e ∈ h, e.brings object byte = true))

instance (index sub : ℤ) (object : ObjectId) : Decidable (Named index sub object) :=
  inferInstanceAs (Decidable (_ ∧ _))

instance (object : ObjectId) : Decidable (FromDevice b h reply s object) :=
  inferInstanceAs (Decidable ((_ ∧ _) ∧ (_ ∨ _)))

instance (g : GivenAxis) (raw : BitVec 8) : Decidable (g.Deflected raw) :=
  inferInstanceAs (Decidable (_ < _))

instance (g : GivenAxis) : Decidable (AxisReal c b h reply s g) :=
  inferInstanceAs (Decidable (_ ∨ _))

instance (g : GivenBit) : Decidable (EstopReal b h reply s g) :=
  inferInstanceAs (Decidable (_ ∧ (_ ∨ _)))

end Decide

instance (c : Config) (b : DriverNode) (h : List RemoteEvent) (s : RemoteState)
    (i : RemoteInput) : Decidable (inputsReal c b h s i) :=
  match i with
  | .go reply =>
      match hpoint : s.point with
      | some (.readAxes values (axis :: rest)) =>
          decidable_of_iff (∀ g ∈ c.givenAxes[values.length]?, AxisReal c b h reply s.dictionary g)
            (by simp only [inputsReal, hpoint])
      | some (.readEstop spec) =>
          decidable_of_iff (∀ g ∈ c.givenEstop, EstopReal b h reply s.dictionary g)
            (by simp only [inputsReal, hpoint])
      | some (.readAxes values []) => .isTrue (by simp only [inputsReal, hpoint])
      | some (.readButtons axes values rest) => .isTrue (by simp only [inputsReal, hpoint])
      | none => .isTrue (by simp only [inputsReal, hpoint])
  | .traffic _ | .addToMaster | .deactivate | .publish => .isTrue trivial

/-- A receiver whose axis is fully deflected, and whose STOP is released. -/
theorem fabricatesNothing_small : ∃ h s,
    Reach (RemoteState.system (.identity float32) (Config.small none) mappedReceiver)
      (inputsReal (Config.small none) mappedReceiver) h s ∧
    (RemoteEvent.estop false ∈ h ∧ ∃ buttons, RemoteEvent.joy [1] buttons ∈ h) ∧
    FabricatesNothing (.identity float32) (Config.small none) mappedReceiver h ∧
      FollowsBytes (.identity float32) (Config.small none) := by
  have hrun : ((RemoteState.system (.identity float32) (Config.small none) mappedReceiver).runIf
      (fun h s i => decide (inputsReal (Config.small none) mappedReceiver h s i))
      ([.addToMaster, .traffic (.onRpdoWrite (0x2021, 1) 0xFF),
        .traffic (.onRpdoWrite (0x2020, 0x13) 1)] ++ RemoteInput.cycle) []
      RemoteState.centred).any (fun p => decide (RemoteEvent.estop false ∈ p.1) &&
        decide (RemoteEvent.joy [1] [false, false, false, false, false, false, false, true] ∈
          p.1)) = true := by
    decide +kernel
  obtain ⟨h, s, hr, hP⟩ := System.exists_reach_runIf _ (.init (init_centred _ _ _))
    (fun _ _ _ hcheck => of_decide_eq_true hcheck) hrun
  rw [Bool.and_eq_true] at hP
  exact ⟨h, s, hr, ⟨of_decide_eq_true hP.1, _, of_decide_eq_true hP.2⟩,
    fabricatesNothing_of_inputsReal _ _ _ h s hr⟩

/-- A STOP object that is configured active-high and missing is published as "not stopped". -/
theorem fabricates_missing : ¬∀ (f : Rounded float32) (c : Config) (b : DriverNode) h s,
    Reach (RemoteState.system f c b) Guard.free h s → FabricatesNothing f c b h := by
  intro hall
  have hrun : ((RemoteState.system (.identity float32) (Config.small (some false))
      bareReceiver).run ([.addToMaster] ++ RemoteInput.cycle) [] RemoteState.centred).any
      (fun p => p.1.head?.any fun e => decide (e = .estop false)) = true := by
    decide +kernel
  obtain ⟨h, s, hr, hP⟩ := System.exists_reach_run _ (.init (init_centred _ _ _)) hrun
  obtain ⟨e, hhead, he⟩ := (Option.any_eq_true _ _).mp hP
  obtain ⟨old, rfl⟩ := List.head?_eq_some_iff.mp hhead
  have hnothing := hall _ _ _ _ s hr [] e old rfl
  obtain ⟨g, -, object, byte, ⟨-, hhas⟩, -⟩ := hnothing.1 (of_decide_eq_true he)
  exact absurd hhas (by simp [DriverNode.hasObject, DriverNode.typeOf, bareReceiver])

end RosCanopen.Cia401
