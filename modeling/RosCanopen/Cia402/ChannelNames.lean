import Mathlib.Algebra.Order.Field.Rat
import Mathlib.Data.List.Nodup
import Mathlib.Tactic.NormNum

/-!
# The names of the channels

Every channel of a multi-axis device has services under a prefix of its own and a joint in the
published joint state.  With one channel both are named after the node; otherwise they are named
after the entry of `channel_names`, and where the list is too short each after a fallback.

## Main definitions

* `ChannelsConfig`, `NodeChannels` — the configuration, and what `configure_common` keeps of it.
* `NodeChannels.servicePrefix`, `createPerChannelServices` — the services.
* `NodeChannels.jointName`, `NodeChannels.publish` — the joint state.
* `ChannelsIdentified` — the names tell the channels apart, and belong together.
-/

namespace RosCanopen.Cia402

/-- The factors and the offset of a published channel, where they are given. -/
structure ScaleConfig where
  scalePosFromDev : Option ℚ
  scaleVelFromDev : Option ℚ
  scaleEffFromDev : Option ℚ
  offsetPosFromDev : Option ℚ

/-- The part of the configuration that is about channels; what does not convert is `none`. -/
structure ChannelsConfig where
  numChannels : Option (BitVec 8)
  /-- The entries of `channel_names`; without a sequence there are none. -/
  channelNames : List (Option String)
  /-- The defaults, and the entries of `channels`. -/
  scales : ScaleConfig
  channels : List ScaleConfig

/-- `ChannelContext`, as far as `publish` reads it. -/
structure ChannelContext where
  scalePosFromDev : ℚ
  scaleVelFromDev : ℚ
  scaleEffFromDev : ℚ
  offsetPosFromDev : ℚ

/-- The members of the node that `configure_common` sets; there is a context for every channel. -/
structure NodeChannels where
  name : String
  numChannels : BitVec 8
  channelNames : List String
  channels : List ChannelContext
  sized : channels.length = numChannels.toNat

/-! ## Configuration -/

/-- The loop over the names, which an entry that does not convert ends. -/
def parseNames : List (Option String) → List String
  | some name :: names => name :: parseNames names
  | _ => []

/-- The names that are generated if none are given. -/
def defaultNames (node : String) (numChannels : BitVec 8) : List String :=
  (List.range numChannels.toNat).map fun i => node ++ "/" ++ toString i

namespace ChannelContext

/-- The values that a new context gets. -/
def ofDefaults (scales : ScaleConfig) : ChannelContext where
  scalePosFromDev := scales.scalePosFromDev.getD (1 / 1000)
  scaleVelFromDev := scales.scaleVelFromDev.getD (1 / 1000)
  scaleEffFromDev := scales.scaleEffFromDev.getD (1 / 1000)
  offsetPosFromDev := scales.offsetPosFromDev.getD 0

/-- An entry of `channels` replaces what it gives. -/
def override (c : ChannelContext) (scales : ScaleConfig) : ChannelContext where
  scalePosFromDev := scales.scalePosFromDev.getD c.scalePosFromDev
  scaleVelFromDev := scales.scaleVelFromDev.getD c.scaleVelFromDev
  scaleEffFromDev := scales.scaleEffFromDev.getD c.scaleEffFromDev
  offsetPosFromDev := scales.offsetPosFromDev.getD c.offsetPosFromDev

end ChannelContext

namespace ChannelsConfig
variable (cfg : ChannelsConfig)

/-- `num_channels_` -/
def count : BitVec 8 := cfg.numChannels.getD 1

/-- The names that are given. -/
def names : List String := parseNames cfg.channelNames

/-- The context of a channel. -/
def context (ch : ℕ) : ChannelContext :=
  match cfg.channels[ch]? with
  | none => .ofDefaults cfg.scales
  | some scales => (ChannelContext.ofDefaults cfg.scales).override scales

/-- `configure_common`, for a node of the name. -/
def configureCommon (node : String) : NodeChannels where
  name := node
  numChannels := cfg.count
  channelNames := if cfg.names.isEmpty then defaultNames node cfg.count else cfg.names
  channels := (List.range cfg.count.toNat).map cfg.context
  sized := by rw [List.length_map, List.length_range]

end ChannelsConfig

/-! ## Services and joints -/

/-- The services of a channel. -/
def channelServices : List String :=
  ["init", "enable", "disable", "halt", "recover", "position_mode", "velocity_mode", "torque_mode",
    "cyclic_velocity_mode", "cyclic_position_mode", "cyclic_torque_mode",
    "interpolated_position_mode", "target"]

/-- `sensor_msgs::msg::JointState` -/
structure JointState where
  name : List String := []
  position : List ℚ := []
  velocity : List ℚ := []
  effort : List ℚ := []

/-- What the getters of a motor give. -/
structure Measures where
  position : ℚ
  speed : ℚ
  effort : ℚ

/-- A channel's motor, as `publish` finds it. -/
inductive MotorTurn
  /-- A null pointer. -/
  | absent
  /-- A getter throws. -/
  | throws
  | measured (m : Measures)

namespace NodeChannels
variable (node : NodeChannels)

/-- `service_prefix` -/
def servicePrefix (ch : ℕ) : String :=
  if node.numChannels = 1 then node.name ++ "/"
  else
    match node.channelNames[ch]? with
    | some name => name ++ "/"
    | none => "ch" ++ toString ch ++ "/"

/-- `create_per_channel_services`: the names of the services, with their channel. -/
def createPerChannelServices : List (String × ℕ) :=
  (List.range node.numChannels.toNat).flatMap fun ch =>
    channelServices.map fun service => (node.servicePrefix ch ++ service, ch)

/-- The name of a channel in the joint state. -/
def jointName (ch : ℕ) : String :=
  if node.numChannels = 1 then node.name
  else
    match node.channelNames[ch]? with
    | some name => name
    | none => node.name ++ "/ch" ++ toString ch

/-- The loop of `publish`, from a channel on; an exception leaves it without a message. -/
def publishFrom (turns : ℕ → MotorTurn) :
    ℕ → List ChannelContext → JointState → Option JointState
  | _, [], js => some js
  | ch, c :: channels, js =>
      match turns ch with
      | .absent =>
          publishFrom turns (ch + 1) channels
            ⟨js.name ++ [node.jointName ch], js.position ++ [0], js.velocity ++ [0],
              js.effort ++ [0]⟩
      | .throws => none
      | .measured m =>
          publishFrom turns (ch + 1) channels
            ⟨js.name ++ [node.jointName ch],
              js.position ++ [m.position * c.scalePosFromDev + c.offsetPosFromDev],
              js.velocity ++ [m.speed * c.scaleVelFromDev],
              js.effort ++ [m.effort * c.scaleEffFromDev]⟩

/-- `publish` -/
def publish (turns : ℕ → MotorTurn) : Option JointState :=
  node.publishFrom turns 0 node.channels {}

end NodeChannels

/-! ## What the names should do -/

/-- The position, velocity and effort of a channel. -/
def ChannelContext.values (c : ChannelContext) : MotorTurn → ℚ × ℚ × ℚ
  | .absent | .throws => (0, 0, 0)
  | .measured m => (m.position * c.scalePosFromDev + c.offsetPosFromDev,
      m.speed * c.scaleVelFromDev, m.effort * c.scaleEffFromDev)

/-- The message has one name, position, velocity and effort for each channel, in their order. -/
structure JointState.OfChannels (js : JointState) (node : NodeChannels)
    (turns : ℕ → MotorTurn) : Prop where
  lengths : js.name.length = node.numChannels.toNat ∧
    js.position.length = node.numChannels.toNat ∧ js.velocity.length = node.numChannels.toNat ∧
    js.effort.length = node.numChannels.toNat
  entries : ∀ ch c, node.channels[ch]? = some c →
    js.name[ch]? = some (node.jointName ch) ∧ js.position[ch]? = some (c.values (turns ch)).1 ∧
      js.velocity[ch]? = some (c.values (turns ch)).2.1 ∧
      js.effort[ch]? = some (c.values (turns ch)).2.2

/-- The prefixes and the published joints are distinct, every message is one of the channels, and
the prefix of a channel is made of the name of its joint. -/
structure ChannelsIdentified (node : NodeChannels) : Prop where
  prefixes : ((List.range node.numChannels.toNat).map node.servicePrefix).Nodup
  joints : ∀ turns js, node.publish turns = some js → js.name.Nodup ∧ js.OfChannels node turns
  same : ∀ ch < node.numChannels.toNat, node.servicePrefix ch = node.jointName ch ++ "/"

/-! ## The message -/

section Publish
variable {node : NodeChannels} {turns : ℕ → MotorTurn} {js js' : JointState}

/-- The values of the channels, the first of which is the one at `ch`. -/
def valuesFrom (turns : ℕ → MotorTurn) (ch : ℕ) (channels : List ChannelContext) :
    List (ℚ × ℚ × ℚ) :=
  (channels.zipIdx ch).map fun (c, k) => c.values (turns k)

/-- **The loop** adds a name, a position, a velocity and an effort for each channel. -/
theorem publishFrom_eq_some {ch : ℕ} {channels : List ChannelContext}
    (hpublish : node.publishFrom turns ch channels js = some js') :
    js'.name = js.name ++ (List.range' ch channels.length).map node.jointName ∧
    js'.position = js.position ++ (valuesFrom turns ch channels).map Prod.fst ∧
    js'.velocity = js.velocity ++ (valuesFrom turns ch channels).map (·.2.1) ∧
    js'.effort = js.effort ++ (valuesFrom turns ch channels).map (·.2.2) := by
  induction channels generalizing ch js with
  | nil =>
      obtain rfl := Option.some.inj hpublish
      simp [valuesFrom]
  | cons c channels ih =>
      rw [NodeChannels.publishFrom] at hpublish
      cases hturn : turns ch with
      | absent =>
          rw [hturn] at hpublish
          simpa [valuesFrom, List.range'_succ, ChannelContext.values, hturn] using ih hpublish
      | throws =>
          rw [hturn] at hpublish
          cases hpublish
      | measured m =>
          rw [hturn] at hpublish
          simpa [valuesFrom, List.range'_succ, ChannelContext.values, hturn] using ih hpublish

theorem name_publish (hpublish : node.publish turns = some js) :
    js.name = (List.range node.numChannels.toNat).map node.jointName := by
  have hname := (publishFrom_eq_some hpublish).1
  rw [node.sized] at hname
  rw [hname, List.range_eq_range']
  rfl

/-- **A message is one of the channels**, whatever their names are. -/
theorem ofChannels_publish (hpublish : node.publish turns = some js) :
    js.OfChannels node turns := by
  obtain ⟨hname, hposition, hvelocity, heffort⟩ := publishFrom_eq_some hpublish
  have hlength : (valuesFrom turns 0 node.channels).length = node.numChannels.toNat := by
    rw [valuesFrom, List.length_map, List.length_zipIdx, node.sized]
  have hentry : ∀ ch (c : ChannelContext), node.channels[ch]? = some c →
      (valuesFrom turns 0 node.channels)[ch]? = some (c.values (turns ch)) := by
    intro ch c hc
    rw [valuesFrom, List.getElem?_map, List.getElem?_zipIdx, hc]
    simp
  refine ⟨⟨?_, ?_, ?_, ?_⟩, fun ch c hc => ⟨?_, ?_, ?_, ?_⟩⟩
  · rw [hname]
    simp [node.sized]
  · rw [hposition]
    simpa using hlength
  · rw [hvelocity]
    simpa using hlength
  · rw [heffort]
    simpa using hlength
  · have hch : ch < node.numChannels.toNat := by
      rw [← node.sized]
      exact (List.getElem?_eq_some_iff.mp hc).1
    rw [name_publish hpublish, List.getElem?_map, List.getElem?_range hch]
    rfl
  · rw [hposition]
    simp [List.getElem?_map, hentry ch c hc]
  · rw [hvelocity]
    simp [List.getElem?_map, hentry ch c hc]
  · rw [heffort]
    simp [List.getElem?_map, hentry ch c hc]

end Publish

/-! ## The names -/

section Names
variable {node : String} {cfg : ChannelsConfig}

theorem defaultNames_nodup (node : String) (n : BitVec 8) : (defaultNames node n).Nodup := by
  refine List.Nodup.map_on ?_ List.nodup_range
  intro i _ j _ heq
  have hrepr : Nat.repr i = Nat.repr j := (String.append_right_inj _).mp heq
  have hdigits := congrArg String.toList hrepr
  rw [Nat.toList_repr, Nat.toList_repr] at hdigits
  have hi : Nat.ofDigitChars 10 (Nat.toDigits 10 i) 0 = i := Nat.ofDigitChars_ten_toDigits
  rw [← hi, hdigits, Nat.ofDigitChars_ten_toDigits]

/-- The names suffice for the channels, or none are needed. -/
def ChannelsConfig.Suffices (cfg : ChannelsConfig) : Prop :=
  cfg.count.toNat ≤ 1 ∨ cfg.names = [] ∨ cfg.count.toNat ≤ cfg.names.length

instance (cfg : ChannelsConfig) : Decidable cfg.Suffices := inferInstanceAs (Decidable (_ ∨ _))

/-- With more than one channel and enough names, every channel has one. -/
theorem exists_channelName (node : String) (hsuffices : cfg.Suffices) (hcount : cfg.count ≠ 1)
    {ch : ℕ} (hch : ch < cfg.count.toNat) :
    ∃ name, (cfg.configureCommon node).channelNames[ch]? = some name := by
  have hlength : ch < (cfg.configureCommon node).channelNames.length := by
    rw [ChannelsConfig.configureCommon]
    by_cases hnames : cfg.names = []
    · simp [hnames, defaultNames, hch]
    · have hempty : cfg.names.isEmpty = false := by simp [hnames]
      have hmany : cfg.count.toNat ≤ cfg.names.length := by
        refine (hsuffices.resolve_left fun hone => hcount ?_).resolve_left hnames
        exact BitVec.eq_of_toNat_eq (by simp; omega)
      simpa [hempty] using hch.trans_le hmany
  exact ⟨_, List.getElem?_eq_getElem hlength⟩

/-- With enough names, prefix and joint are made of the same one. -/
theorem servicePrefix_eq (node : String) (hsuffices : cfg.Suffices) {ch : ℕ}
    (hch : ch < cfg.count.toNat) :
    (cfg.configureCommon node).servicePrefix ch =
      (cfg.configureCommon node).jointName ch ++ "/" := by
  unfold NodeChannels.servicePrefix NodeChannels.jointName
  by_cases hcount : (cfg.configureCommon node).numChannels = 1
  · rw [if_pos hcount, if_pos hcount]
  · obtain ⟨name, hname⟩ := exists_channelName node hsuffices hcount hch
    rw [if_neg hcount, if_neg hcount, hname]

/-- And the joints are distinct, as the given names are. -/
theorem jointNames_nodup (node : String) (hsuffices : cfg.Suffices) (hnodup : cfg.names.Nodup) :
    ((List.range cfg.count.toNat).map (cfg.configureCommon node).jointName).Nodup := by
  by_cases hcount : (cfg.configureCommon node).numChannels = 1
  · have hone : cfg.count.toNat = 1 := congrArg BitVec.toNat hcount
    rw [hone]
    exact List.nodup_singleton _
  · have hnames : (cfg.configureCommon node).channelNames.Nodup := by
      rw [ChannelsConfig.configureCommon]
      by_cases hempty : cfg.names.isEmpty = true
      · simp only [hempty, if_true]
        exact defaultNames_nodup node _
      · simpa [hempty] using hnodup
    refine List.Nodup.map_on ?_ List.nodup_range
    intro i hi j hj heq
    obtain ⟨first, hfirst⟩ := exists_channelName node hsuffices hcount (List.mem_range.mp hi)
    obtain ⟨second, hsecond⟩ := exists_channelName node hsuffices hcount (List.mem_range.mp hj)
    unfold NodeChannels.jointName at heq
    rw [if_neg hcount, if_neg hcount, hfirst, hsecond] at heq
    have hsame : first = second := heq
    refine (List.getElem?_inj (List.getElem?_eq_some_iff.mp hfirst).1 hnames).mp ?_
    rw [hfirst, hsecond, hsame]

/-- **With enough names the channels are identified.** -/
theorem identified_of_suffices (node : String) (hsuffices : cfg.Suffices)
    (hnodup : cfg.names.Nodup) : ChannelsIdentified (cfg.configureCommon node) := by
  have hjoints := jointNames_nodup node hsuffices hnodup
  refine ⟨?_, fun turns js hpublish => ⟨?_, ofChannels_publish hpublish⟩,
    fun ch hch => servicePrefix_eq node hsuffices hch⟩
  · have hprefixes : (List.range cfg.count.toNat).map (cfg.configureCommon node).servicePrefix =
        ((List.range cfg.count.toNat).map (cfg.configureCommon node).jointName).map (· ++ "/") := by
      rw [List.map_map]
      exact List.map_congr_left fun ch hch =>
        servicePrefix_eq node hsuffices (List.mem_range.mp hch)
    show ((List.range cfg.count.toNat).map _).Nodup
    rw [hprefixes]
    exact hjoints.map fun a b heq => (String.append_left_inj "/").mp heq
  · rw [name_publish hpublish]
    exact hjoints

/-- The fallbacks of the prefix and of the joint are made of different names. -/
theorem not_identified_of_short (node : String) (hshort : ¬ cfg.Suffices) :
    ¬ ChannelsIdentified (cfg.configureCommon node) := by
  intro hidentified
  obtain ⟨hmany, hrest⟩ := not_or.mp hshort
  obtain ⟨hnames, hless⟩ := not_or.mp hrest
  have hempty : cfg.names.isEmpty = false := by simp [hnames]
  have hcount : (cfg.configureCommon node).numChannels ≠ 1 := by
    intro hone
    have hone : cfg.count.toNat = 1 := congrArg BitVec.toNat hone
    omega
  have hnone : (cfg.configureCommon node).channelNames[cfg.names.length]? = none := by
    simp [ChannelsConfig.configureCommon, hempty]
  have hsame := hidentified.same cfg.names.length (not_le.mp hless)
  unfold NodeChannels.servicePrefix NodeChannels.jointName at hsame
  rw [if_neg hcount, if_neg hcount, hnone] at hsame
  -- the one name begins with the node's and a slash, the other does not
  have hlengths := congrArg String.length hsame
  simp only [String.length_append] at hlengths
  have hch : "ch".length + 1 = "/ch".length := rfl
  omega

end Names

/-- **The names of the channels identify them iff there are enough of them.** -/
theorem channelsIdentified_iff (node : String) (cfg : ChannelsConfig)
    (hnodup : cfg.names.Nodup) :
    ChannelsIdentified (cfg.configureCommon node) ↔
      cfg.count.toNat ≤ 1 ∨ cfg.names = [] ∨ cfg.count.toNat ≤ cfg.names.length := by
  constructor
  · intro hidentified
    by_contra hshort
    exact not_identified_of_short node hshort hidentified
  · exact fun hsuffices => identified_of_suffices node hsuffices hnodup

/-- A configuration with no factors, for a number of channels and names. -/
def namedChannels (numChannels : BitVec 8) (names : List String) : ChannelsConfig where
  numChannels := some numChannels
  channelNames := names.map some
  scales := ⟨none, none, none, none⟩
  channels := []

theorem channelsIdentified_two :
    ChannelsIdentified ((namedChannels 2 ["mast", "fork"]).configureCommon "lift") :=
  (channelsIdentified_iff "lift" (namedChannels 2 ["mast", "fork"]) (by decide)).mpr
    (by decide)

/-- The first of two channels has the name that the second falls back to. -/
theorem fallback_coincides :
    ¬ ChannelsIdentified ((namedChannels 2 ["ch1"]).configureCommon "lift") :=
  not_identified_of_short "lift" (by decide)

end RosCanopen.Cia402
