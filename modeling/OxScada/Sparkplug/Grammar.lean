import OxScada.Sparkplug.Topic

/-! Which strings the topic parsers accept. A topic has a shape, by the number of its segments and
by its message type, and it has identifiers: the parsers look at the shape, the builders at both. -/

namespace OxScada.Sparkplug
open OxScada.Bytes OxScada.Runs

def buildStateTopic (hostApplicationId : Text) : Except String Text := do
  assertValidSegment "host_application_id" hostApplicationId
  return joined [sparkplugBNamespace, stateSegment, hostApplicationId]

def ParsedTopic.rebuild (parsed : ParsedTopic) : Except String Text :=
  match parsed.deviceId with
  | none => buildNodeTopic ⟨parsed.groupId, parsed.edgeNodeId⟩ parsed.messageType
  | some deviceId => buildDeviceTopic ⟨parsed.groupId, parsed.edgeNodeId⟩ deviceId parsed.messageType

def ValidSegment (value : Text) : Prop := value ≠ [] ∧ ∀ c ∈ value, c ∉ illegalSegmentChars

/-- The segments of a node or device topic, whatever its group and its node are called. -/
inductive Shaped : List Text → Prop
  | node (groupId : Text) (messageType : SparkplugMessageType) (edgeNodeId : Text) :
      messageType ∈ nodeScopedMessageTypes →
      Shaped [sparkplugBNamespace, groupId, messageType.text, edgeNodeId]
  | device (groupId : Text) (messageType : SparkplugMessageType) (edgeNodeId deviceId : Text) :
      messageType ∈ deviceScopedMessageTypes → deviceId ≠ [] →
      Shaped [sparkplugBNamespace, groupId, messageType.text, edgeNodeId, deviceId]

inductive StateShaped : List Text → Prop
  | state (hostApplicationId : Text) : hostApplicationId ≠ [] →
      StateShaped [sparkplugBNamespace, stateSegment, hostApplicationId]

def WellNamed (topic : Text) : Prop :=
  Shaped (topic.splitOn '/') ∨ StateShaped (topic.splitOn '/') →
    ∀ segment ∈ topic.splitOn '/', ValidSegment segment

variable {value topic : Text} {messageType : SparkplugMessageType} {parsed : ParsedTopic}

theorem assertValidSegment_iff {label : String} :
    assertValidSegment label value = .ok () ↔ ValidSegment value := by
  unfold assertValidSegment ValidSegment
  split_ifs with hempty hillegal
  · have hnil : value = [] := List.eq_nil_of_length_eq_zero hempty
    simp [hnil]
  · obtain ⟨c, hc, hbad⟩ := List.any_eq_true.mp hillegal
    simp only [false_iff, not_and]
    intro _ hall
    exact hall c hc (by simpa using hbad)
  · simp only [true_iff]
    have hne : value ≠ [] := fun hnil => hempty (by rw [hnil, List.length_nil])
    refine ⟨hne, fun c hc hbad => hillegal ?_⟩
    exact List.any_eq_true.mpr ⟨c, hc, by simpa using hbad⟩

theorem ValidSegment.slash (h : ValidSegment value) : '/' ∉ value :=
  fun hslash => h.2 '/' hslash (by simp [illegalSegmentChars])

theorem ValidSegment.of_all (hne : value ≠ []) (hall : (value.all fun c => c ∉ illegalSegmentChars) = true) : ValidSegment value := by
  refine ⟨hne, fun c hc => ?_⟩
  simpa using List.all_eq_true.mp hall c hc

theorem validSegment_namespace : ValidSegment sparkplugBNamespace := .of_all (by decide) (by decide)

theorem validSegment_text (messageType : SparkplugMessageType) : ValidSegment messageType.text := by
  cases messageType <;> exact .of_all (by decide) (by decide)

theorem joined_splitOn (topic : Text) : joined (topic.splitOn '/') = topic :=
  List.intercalate_splitOn '/'

theorem knownMessageType_eq
    (h : knownMessageType value = some messageType) : messageType.text = value := by
  simpa using List.find?_some h

/-! ### What the builders return -/

theorem buildNodeTopic_iff {node : EdgeNodeDescriptor} :
    buildNodeTopic node messageType = .ok topic ↔
      messageType ∈ nodeScopedMessageTypes ∧ ValidSegment node.groupId ∧ ValidSegment node.edgeNodeId ∧
        topic = joined [sparkplugBNamespace, node.groupId, messageType.text, node.edgeNodeId] := by
  constructor
  · intro h
    obtain ⟨hscope, hgroup, hedge, htopic⟩ := buildNodeTopic_ok h
    exact ⟨hscope, assertValidSegment_iff.mp hgroup, assertValidSegment_iff.mp hedge, htopic⟩
  · intro ⟨hscope, hgroup, hedge, htopic⟩
    rw [buildNodeTopic, if_neg (not_not.mpr hscope), assertValidSegment_iff.mpr hgroup,
      assertValidSegment_iff.mpr hedge, htopic]
    rfl

theorem buildDeviceTopic_iff {node : EdgeNodeDescriptor} {deviceId : Text} :
    buildDeviceTopic node deviceId messageType = .ok topic ↔
      messageType ∈ deviceScopedMessageTypes ∧ ValidSegment node.groupId ∧ ValidSegment node.edgeNodeId ∧
        ValidSegment deviceId ∧
        topic = joined [sparkplugBNamespace, node.groupId, messageType.text, node.edgeNodeId, deviceId] := by
  constructor
  · intro h
    obtain ⟨hscope, hgroup, hedge, hdevice, htopic⟩ := buildDeviceTopic_ok h
    exact ⟨hscope, assertValidSegment_iff.mp hgroup, assertValidSegment_iff.mp hedge,
      assertValidSegment_iff.mp hdevice, htopic⟩
  · intro ⟨hscope, hgroup, hedge, hdevice, htopic⟩
    rw [buildDeviceTopic, if_neg (not_not.mpr hscope), assertValidSegment_iff.mpr hgroup,
      assertValidSegment_iff.mpr hedge, assertValidSegment_iff.mpr hdevice, htopic]
    rfl

theorem buildStateTopic_iff {hostApplicationId : Text} :
    buildStateTopic hostApplicationId = .ok topic ↔
      ValidSegment hostApplicationId ∧ topic = joined [sparkplugBNamespace, stateSegment, hostApplicationId] := by
  rw [buildStateTopic, bind_unit_ok, assertValidSegment_iff]
  apply and_congr_right
  intro _
  constructor
  · exact fun h => (Except.ok.inj h).symm
  · exact fun h => congrArg Except.ok h.symm

theorem built_segments
    (h : (∃ node messageType, buildNodeTopic node messageType = .ok topic) ∨
      ∃ node deviceId messageType, buildDeviceTopic node deviceId messageType = .ok topic) :
    Shaped (topic.splitOn '/') ∧ ∀ segment ∈ topic.splitOn '/', ValidSegment segment := by
  obtain ⟨node, messageType, hbuild⟩ | ⟨node, deviceId, messageType, hbuild⟩ := h
  · obtain ⟨hscope, hgroup, hedge, rfl⟩ := buildNodeTopic_iff.mp hbuild
    have hvalid : ∀ segment ∈ [sparkplugBNamespace, node.groupId, messageType.text, node.edgeNodeId],
        ValidSegment segment := by
      simp [validSegment_namespace, validSegment_text, hgroup, hedge]
    rw [splitOn_joined _ (fun segment hmem => (hvalid segment hmem).slash) (by simp)]
    exact ⟨.node _ _ _ hscope, hvalid⟩
  · obtain ⟨hscope, hgroup, hedge, hdevice, rfl⟩ := buildDeviceTopic_iff.mp hbuild
    have hvalid : ∀ segment ∈ [sparkplugBNamespace, node.groupId, messageType.text, node.edgeNodeId, deviceId],
        ValidSegment segment := by
      simp [validSegment_namespace, validSegment_text, hgroup, hedge, hdevice]
    rw [splitOn_joined _ (fun segment hmem => (hvalid segment hmem).slash) (by simp)]
    exact ⟨.device _ _ _ _ hscope hdevice.1, hvalid⟩

theorem built_state_segments {hostApplicationId : Text} (h : buildStateTopic hostApplicationId = .ok topic) :
    StateShaped (topic.splitOn '/') ∧ ∀ segment ∈ topic.splitOn '/', ValidSegment segment := by
  obtain ⟨hhost, rfl⟩ := buildStateTopic_iff.mp h
  have hvalid : ∀ segment ∈ [sparkplugBNamespace, stateSegment, hostApplicationId], ValidSegment segment := by
    simp [validSegment_namespace, stateSegment, validSegment_text, hhost]
  rw [splitOn_joined _ (fun segment hmem => (hvalid segment hmem).slash) (by simp)]
  exact ⟨.state _ hhost.1, hvalid⟩

/-! ### What the parsers accept: the shape alone -/

theorem parseTopic_some (h : parseTopic topic = some parsed) :
    (parsed.deviceId = none ∧ parsed.messageType ∈ nodeScopedMessageTypes ∧
        topic.splitOn '/' = [sparkplugBNamespace, parsed.groupId, parsed.messageType.text, parsed.edgeNodeId]) ∨
      ∃ deviceId, parsed.deviceId = some deviceId ∧ deviceId ≠ [] ∧ parsed.messageType ∈ deviceScopedMessageTypes ∧
        topic.splitOn '/' =
          [sparkplugBNamespace, parsed.groupId, parsed.messageType.text, parsed.edgeNodeId, deviceId] := by
  unfold parseTopic at h
  split at h
  · rename_i namespaceId groupId rawType edgeNodeId rest hsplit
    split at h
    · cases h
    split at h
    · cases h
    rename_i hlong hnamespace
    have hnamespace := not_not.mp hnamespace
    split at h
    · cases h
    · cases h
    · rename_i messageType hstate hknown
      have htext := knownMessageType_eq hknown
      by_cases hscope : messageType ∈ deviceScopedMessageTypes
      · rw [if_pos hscope] at h
        split at h
        · rename_i deviceId
          split_ifs at h with hempty
          obtain rfl := Option.some.inj h
          have hne : deviceId ≠ [] := fun hnil => hempty (by rw [hnil, List.length_nil])
          exact .inr ⟨deviceId, rfl, hne, hscope, by rw [hsplit, hnamespace, htext]⟩
        · cases h
      · rw [if_neg hscope] at h
        split_ifs at h with hrest
        obtain rfl := Option.some.inj h
        have hnode : messageType ∈ nodeScopedMessageTypes := by
          cases messageType <;> simp_all [nodeScopedMessageTypes, deviceScopedMessageTypes]
        exact .inl ⟨rfl, hnode, by rw [hsplit, hnamespace, htext, not_not.mp hrest]⟩
  · cases h

theorem parseTopic_iff_shaped (topic : Text) : parseTopic topic ≠ none ↔ Shaped (topic.splitOn '/') := by
  constructor
  · intro h
    obtain ⟨parsed, hparsed⟩ := Option.ne_none_iff_exists'.mp h
    obtain ⟨-, hscope, hsplit⟩ | ⟨deviceId, -, hne, hscope, hsplit⟩ := parseTopic_some hparsed
    · rw [hsplit]
      exact .node _ _ _ hscope
    · rw [hsplit]
      exact .device _ _ _ _ hscope hne
  · intro h
    generalize hsplit : topic.splitOn '/' = segments at h
    unfold parseTopic
    rw [hsplit]
    cases h with
    | node groupId messageType edgeNodeId hscope =>
      simp only [knownMessageType_text]
      cases messageType <;> simp [nodeScopedMessageTypes] at hscope <;> simp [deviceScopedMessageTypes]
    | device groupId messageType edgeNodeId deviceId hscope hne =>
      simp only [knownMessageType_text]
      cases messageType <;> simp [deviceScopedMessageTypes] at hscope <;> simp [deviceScopedMessageTypes, hne]

theorem parseStateTopic_iff_shaped (topic : Text) : parseStateTopic topic ≠ none ↔ StateShaped (topic.splitOn '/') := by
  unfold parseStateTopic
  constructor
  · intro h
    split at h
    · rename_i namespaceId segment hostApplicationId hsplit
      split_ifs at h with hother hempty
      · exact absurd rfl h
      · exact absurd rfl h
      · have hsame : namespaceId = sparkplugBNamespace ∧ segment = stateSegment := by simpa using hother
        have hne : hostApplicationId ≠ [] := fun hnil => hempty (by rw [hnil, List.length_nil])
        rw [hsplit, hsame.1, hsame.2]
        exact .state _ hne
    · exact absurd rfl h
  · intro h
    generalize hsplit : topic.splitOn '/' = segments at h
    cases h with
    | state hostApplicationId hne => simp [hne]

theorem shaped_not_state {segments : List Text} (h : Shaped segments) : ¬ StateShaped segments := by
  intro hstate
  cases hstate with
  | state => cases h

/-! ### Accepted and built -/

def Built (topic : Text) : Prop :=
  (∃ node messageType, buildNodeTopic node messageType = .ok topic) ∨
    ∃ node deviceId messageType, buildDeviceTopic node deviceId messageType = .ok topic

theorem rebuild_parsed (h : parseTopic topic = some parsed)
    (hvalid : ∀ segment ∈ topic.splitOn '/', ValidSegment segment) : parsed.rebuild = .ok topic := by
  have htopic := joined_splitOn topic
  unfold ParsedTopic.rebuild
  obtain ⟨hdevice, hscope, hsplit⟩ | ⟨deviceId, hdevice, hne, hscope, hsplit⟩ := parseTopic_some h
  · rw [hsplit] at hvalid htopic
    rw [hdevice]
    exact buildNodeTopic_iff.mpr ⟨hscope, hvalid _ (by simp), hvalid _ (by simp), htopic.symm⟩
  · rw [hsplit] at hvalid htopic
    rw [hdevice]
    exact buildDeviceTopic_iff.mpr ⟨hscope, hvalid _ (by simp), hvalid _ (by simp), hvalid _ (by simp), htopic.symm⟩

theorem built_of_rebuild (h : parsed.rebuild = .ok topic) : Built topic := by
  unfold ParsedTopic.rebuild at h
  split at h
  · exact .inl ⟨_, _, h⟩
  · exact .inr ⟨_, _, _, h⟩

theorem stateTopic_built (h : StateShaped (topic.splitOn '/'))
    (hvalid : ∀ segment ∈ topic.splitOn '/', ValidSegment segment) :
    ∃ hostApplicationId, buildStateTopic hostApplicationId = .ok topic := by
  have htopic := joined_splitOn topic
  generalize topic.splitOn '/' = segments at h hvalid htopic
  cases h with
  | state hostApplicationId hne =>
    exact ⟨hostApplicationId, buildStateTopic_iff.mpr ⟨hvalid _ (by simp), htopic.symm⟩⟩

/-- The parsers accept what the builders return, as far as the identifiers of a topic are valid: they
do not check them. -/
theorem accepts_built_iff (topic : Text) :
    ((parseTopic topic ≠ none ↔ Built topic) ∧
        (∀ parsed, parseTopic topic = some parsed → parsed.rebuild = .ok topic) ∧
        (parseStateTopic topic ≠ none ↔ ∃ hostApplicationId, buildStateTopic hostApplicationId = .ok topic) ∧
        ¬ (parseTopic topic ≠ none ∧ parseStateTopic topic ≠ none)) ↔
      WellNamed topic := by
  constructor
  · rintro ⟨hbuilt, -, hstate, -⟩ (hshaped | hshaped)
    · exact (built_segments (hbuilt.mp ((parseTopic_iff_shaped topic).mpr hshaped))).2
    · obtain ⟨hostApplicationId, hbuild⟩ := hstate.mp ((parseStateTopic_iff_shaped topic).mpr hshaped)
      exact (built_state_segments hbuild).2
  · intro hnamed
    have hrebuild : ∀ parsed, parseTopic topic = some parsed → parsed.rebuild = .ok topic := by
      intro parsed hparsed
      have hshaped := (parseTopic_iff_shaped topic).mp (by simp [hparsed])
      exact rebuild_parsed hparsed (hnamed (.inl hshaped))
    refine ⟨⟨fun h => ?_, fun h => ?_⟩, hrebuild, ⟨fun h => ?_, fun ⟨_, h⟩ => ?_⟩, fun ⟨htopic, hstate⟩ => ?_⟩
    · obtain ⟨parsed, hparsed⟩ := Option.ne_none_iff_exists'.mp h
      exact built_of_rebuild (hrebuild parsed hparsed)
    · exact (parseTopic_iff_shaped topic).mpr (built_segments h).1
    · have hshaped := (parseStateTopic_iff_shaped topic).mp h
      exact stateTopic_built hshaped (hnamed (.inr hshaped))
    · exact (parseStateTopic_iff_shaped topic).mpr (built_state_segments h).1
    · exact shaped_not_state ((parseTopic_iff_shaped topic).mp htopic) ((parseStateTopic_iff_shaped topic).mp hstate)

/-- A topic of the namespace without a group: it is parsed, and no builder returns it. -/
def groupless : Text := "spBv1.0//NBIRTH/e".toList

theorem groupless_parsed : ¬ (parseTopic groupless ≠ none ↔ Built groupless) := by
  intro h
  have hparsed : parseTopic groupless ≠ none := by decide
  have hsegments := (built_segments (h.mp hparsed)).2
  exact (hsegments [] (by decide)).1 rfl

end OxScada.Sparkplug
