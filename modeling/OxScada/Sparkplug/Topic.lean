import OxScada.Js.Text
import OxScada.Runs.Reachable

/-! The Sparkplug B topics `spBv1.0/group/type/edge[/device]`: how they are built from identifiers,
how they are parsed, and that a topic that is built parses back to what it was built from. -/

namespace OxScada.Sparkplug
open OxScada.Bytes OxScada.Runs

def sparkplugBNamespace : Text := "spBv1.0".toList

inductive SparkplugMessageType where
  | nbirth | ndeath | ndata | ncmd | dbirth | ddeath | ddata | dcmd | state
  deriving DecidableEq, Repr

def SparkplugMessageType.text : SparkplugMessageType → Text
  | .nbirth => "NBIRTH".toList
  | .ndeath => "NDEATH".toList
  | .ndata => "NDATA".toList
  | .ncmd => "NCMD".toList
  | .dbirth => "DBIRTH".toList
  | .ddeath => "DDEATH".toList
  | .ddata => "DDATA".toList
  | .dcmd => "DCMD".toList
  | .state => "STATE".toList

def stateSegment : Text := SparkplugMessageType.state.text

def deviceScopedMessageTypes : List SparkplugMessageType := [.dbirth, .ddeath, .ddata, .dcmd]

def nodeScopedMessageTypes : List SparkplugMessageType := [.nbirth, .ndeath, .ndata, .ncmd]

structure EdgeNodeDescriptor where
  groupId : Text
  edgeNodeId : Text
  deriving DecidableEq, Repr

structure ParsedTopic where
  namespaceId : Text
  groupId : Text
  messageType : SparkplugMessageType
  edgeNodeId : Text
  deviceId : Option Text
  deriving DecidableEq, Repr

def illegalSegmentChars : List Char := ['+', '#', '/']

def assertValidSegment (label : String) (value : Text) : Except String Unit :=
  if value.length = 0 then .error ("Sparkplug topic " ++ label ++ " must not be empty")
  else if value.any fun c => c ∈ illegalSegmentChars then
    .error ("Sparkplug topic " ++ label ++ " \"" ++ String.ofList value ++ "\" contains an illegal character (+, # or /)")
  else .ok ()

def joined (segments : List Text) : Text := ['/'].intercalate segments

variable (node : EdgeNodeDescriptor)

def buildNodeTopic (messageType : SparkplugMessageType) : Except String Text :=
  if messageType ∉ nodeScopedMessageTypes then
    .error (String.ofList messageType.text ++ " is not a node-scoped message type; use buildDeviceTopic")
  else do
    assertValidSegment "group_id" node.groupId
    assertValidSegment "edge_node_id" node.edgeNodeId
    return joined [sparkplugBNamespace, node.groupId, messageType.text, node.edgeNodeId]

/-- `device` is the descriptor of the node together with `deviceId`. -/
def buildDeviceTopic (deviceId : Text) (messageType : SparkplugMessageType) : Except String Text :=
  if messageType ∉ deviceScopedMessageTypes then
    .error (String.ofList messageType.text ++ " is not a device-scoped message type; use buildNodeTopic")
  else do
    assertValidSegment "group_id" node.groupId
    assertValidSegment "edge_node_id" node.edgeNodeId
    assertValidSegment "device_id" deviceId
    return joined [sparkplugBNamespace, node.groupId, messageType.text, node.edgeNodeId, deviceId]

/-- The commands to this node and to its devices, and the state of every host application. -/
def buildCommandSubscriptionFilters : Except String (List Text) := do
  assertValidSegment "group_id" node.groupId
  assertValidSegment "edge_node_id" node.edgeNodeId
  return [joined [sparkplugBNamespace, node.groupId, "NCMD".toList, node.edgeNodeId],
    joined [sparkplugBNamespace, node.groupId, "DCMD".toList, node.edgeNodeId, ['+']],
    joined [sparkplugBNamespace, stateSegment, ['+']]]

def parseStateTopic (topic : Text) : Option Text :=
  match topic.splitOn '/' with
  | [namespaceId, segment, hostApplicationId] =>
    if namespaceId ≠ sparkplugBNamespace || segment ≠ stateSegment then none
    else if hostApplicationId.length = 0 then none
    else some hostApplicationId
  | _ => none

def knownMessageType (value : Text) : Option SparkplugMessageType :=
  (nodeScopedMessageTypes ++ deviceScopedMessageTypes ++ [SparkplugMessageType.state]).find? fun messageType => messageType.text = value

def parseTopic (topic : Text) : Option ParsedTopic :=
  match topic.splitOn '/' with
  | namespaceId :: groupId :: rawType :: edgeNodeId :: rest =>
    if 1 < rest.length then none
    else if namespaceId ≠ sparkplugBNamespace then none
    else match knownMessageType rawType with
      | none | some .state => none
      | some messageType =>
        if messageType ∈ deviceScopedMessageTypes then
          match rest with
          | [deviceId] => if deviceId.length = 0 then none else some ⟨namespaceId, groupId, messageType, edgeNodeId, some deviceId⟩
          | _ => none
        else if rest ≠ [] then none
        else some ⟨namespaceId, groupId, messageType, edgeNodeId, none⟩
  | _ => none

theorem assertValidSegment_ok {label : String} {value : Text} (h : assertValidSegment label value = .ok ()) :
    value ≠ [] ∧ '/' ∉ value := by
  unfold assertValidSegment at h
  split_ifs at h with hempty hillegal
  refine ⟨fun hnil => hempty (by rw [hnil, List.length_nil]), fun hslash => hillegal ?_⟩
  exact List.any_eq_true.mpr ⟨'/', hslash, by decide⟩

theorem knownMessageType_text (messageType : SparkplugMessageType) : knownMessageType messageType.text = some messageType := by
  cases messageType <;> decide

theorem text_slash (messageType : SparkplugMessageType) : '/' ∉ messageType.text := by
  cases messageType <;> decide

theorem namespace_slash : '/' ∉ sparkplugBNamespace := by decide

theorem splitOn_joined (segments : List Text) (h : ∀ segment ∈ segments, '/' ∉ segment) (hne : segments ≠ []) :
    (joined segments).splitOn '/' = segments :=
  List.splitOn_intercalate '/' h hne

variable {messageType : SparkplugMessageType} {node : EdgeNodeDescriptor} {topic deviceId : Text}

theorem buildNodeTopic_ok
    (h : buildNodeTopic node messageType = .ok topic) :
    messageType ∈ nodeScopedMessageTypes ∧ assertValidSegment "group_id" node.groupId = .ok () ∧
      assertValidSegment "edge_node_id" node.edgeNodeId = .ok () ∧
      topic = joined [sparkplugBNamespace, node.groupId, messageType.text, node.edgeNodeId] := by
  unfold buildNodeTopic at h
  split_ifs at h with hscope
  obtain ⟨hgroup, h⟩ := bind_unit_ok.mp h
  obtain ⟨hedge, h⟩ := bind_unit_ok.mp h
  exact ⟨by simpa using hscope, hgroup, hedge, (Except.ok.inj h).symm⟩

theorem buildDeviceTopic_ok
    (h : buildDeviceTopic node deviceId messageType = .ok topic) :
    messageType ∈ deviceScopedMessageTypes ∧ assertValidSegment "group_id" node.groupId = .ok () ∧
      assertValidSegment "edge_node_id" node.edgeNodeId = .ok () ∧ assertValidSegment "device_id" deviceId = .ok () ∧
      topic = joined [sparkplugBNamespace, node.groupId, messageType.text, node.edgeNodeId, deviceId] := by
  unfold buildDeviceTopic at h
  split_ifs at h with hscope
  obtain ⟨hgroup, h⟩ := bind_unit_ok.mp h
  obtain ⟨hedge, h⟩ := bind_unit_ok.mp h
  obtain ⟨hdevice, h⟩ := bind_unit_ok.mp h
  exact ⟨by simpa using hscope, hgroup, hedge, hdevice, (Except.ok.inj h).symm⟩

theorem buildNodeTopic_isOk {other : SparkplugMessageType}
    (h : buildNodeTopic node other = .ok topic) (messageType : SparkplugMessageType) (hscope : messageType ∈ nodeScopedMessageTypes) :
    ∃ topic', buildNodeTopic node messageType = .ok topic' := by
  obtain ⟨-, hgroup, hedge, -⟩ := buildNodeTopic_ok h
  refine ⟨joined [sparkplugBNamespace, node.groupId, messageType.text, node.edgeNodeId], ?_⟩
  rw [buildNodeTopic, if_neg (not_not.mpr hscope), hgroup, hedge]
  rfl

theorem buildDeviceTopic_isOk {other : SparkplugMessageType}
    (h : buildDeviceTopic node deviceId other = .ok topic) (messageType : SparkplugMessageType)
    (hscope : messageType ∈ deviceScopedMessageTypes) : ∃ topic', buildDeviceTopic node deviceId messageType = .ok topic' := by
  obtain ⟨-, hgroup, hedge, hdevice, -⟩ := buildDeviceTopic_ok h
  refine ⟨joined [sparkplugBNamespace, node.groupId, messageType.text, node.edgeNodeId, deviceId], ?_⟩
  rw [buildDeviceTopic, if_neg (not_not.mpr hscope), hgroup, hedge, hdevice]
  rfl

theorem filters_isOk
    (h : buildNodeTopic node messageType = .ok topic) : (buildCommandSubscriptionFilters node).isOk = true := by
  obtain ⟨-, hgroup, hedge, -⟩ := buildNodeTopic_ok h
  rw [buildCommandSubscriptionFilters, hgroup, hedge]
  rfl

theorem parseTopic_device
    (h : buildDeviceTopic node deviceId messageType = .ok topic) :
    parseTopic topic = some ⟨sparkplugBNamespace, node.groupId, messageType, node.edgeNodeId, some deviceId⟩ := by
  obtain ⟨hscope, hgroup, hedge, hdevice, rfl⟩ := buildDeviceTopic_ok h
  have hgroup := (assertValidSegment_ok hgroup).2
  have hedge := (assertValidSegment_ok hedge).2
  obtain ⟨hne, hdevice⟩ := assertValidSegment_ok hdevice
  have hsplit := splitOn_joined [sparkplugBNamespace, node.groupId, messageType.text, node.edgeNodeId, deviceId]
    (by simp [namespace_slash, text_slash, hgroup, hedge, hdevice]) (by simp)
  have hlength : ¬ deviceId.length = 0 := fun hnil => hne (List.length_eq_zero_iff.mp hnil)
  unfold parseTopic
  rw [hsplit]
  have hone : ¬ 1 < [deviceId].length := lt_irrefl 1
  dsimp only
  rw [if_neg hone, if_neg (not_not.mpr rfl), knownMessageType_text]
  -- a topic of a host application has no device
  cases messageType
  case state => exact absurd hscope (by decide)
  all_goals exact (if_pos hscope).trans (if_neg hlength)

end OxScada.Sparkplug
