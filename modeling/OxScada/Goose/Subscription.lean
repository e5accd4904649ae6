import OxScada.Goose.Pdu
import OxScada.Js.Number
import OxScada.Runs.Log

/-! A subscription of a GOOSE control block. A frame that passes the checks moves the numbers and the
expiry of the subscription, and a frame that is rejected moves nothing. -/

namespace OxScada.Goose
open OxScada.Bytes OxScada.Js OxScada.Runs Float.Model

inductive MemberType where
  | boolean | int | uint | float | bitstring | quality | octetstring | visiblestring | utctime | structured
  deriving DecidableEq, Repr

def MemberType.name : MemberType → String
  | .boolean => "boolean"
  | .int => "int"
  | .uint => "uint"
  | .float => "float"
  | .bitstring => "bitstring"
  | .quality => "quality"
  | .octetstring => "octetstring"
  | .visiblestring => "visiblestring"
  | .utctime => "utctime"
  | .structured => "structure"

def GooseDataValue.type : GooseDataValue → String
  | .boolean _ => "boolean"
  | .int _ => "int"
  | .uint _ => "uint"
  | .float _ => "float"
  | .bitstring _ _ => "bitstring"
  | .quality _ => "quality"
  | .octetstring _ => "octetstring"
  | .visiblestring _ => "visiblestring"
  | .utctime _ => "utctime"
  | .members _ => "structure"
  | .unknown _ _ => "unknown"

structure DatasetMember where
  tagName : Text
  type : MemberType
  deriving DecidableEq, Repr

inductive SimulationPolicy where
  | reject | accept | acceptFlagged
  deriving DecidableEq, Repr

structure GooseSubscriptionConfig where
  gocbRef : Text
  appId : ℕ
  expectedDestMac : Option Text
  expectedSrcMac : Option Text
  dataset : List DatasetMember
  expectedConfRev : Option ℕ
  simulationPolicy : SimulationPolicy
  deriving DecidableEq, Repr

structure GooseFrame where
  destMac : Text
  srcMac : Text
  appId : ℕ
  pdu : GoosePdu

inductive GooseRejectReason where
  | macMismatch | appIdMismatch | datasetShape | stnumRegression | sqnumRegression | confRevMismatch | simulation | ndsCom
  deriving DecidableEq, Repr

inductive TagQuality where
  | good | bad | uncertain
  deriving DecidableEq, Repr

inductive TagValue where
  | boolean (value : Bool)
  | integer (value : ℤ)
  | float (value : Ieee754)
  | text (value : Text)
  deriving DecidableEq, Repr

structure GooseTagUpdate where
  tagName : Text
  value : TagValue
  quality : TagQuality
  timestamp : ℤ
  gocbRef : Text
  stNum : ℕ
  simulated : Bool
  deriving DecidableEq, Repr

inductive GooseValidationResult where
  | accepted (updates : List GooseTagUpdate) (roundTripUs : Float) (stateChanged wasStale : Bool)
  | rejected (reason : GooseRejectReason) (detail : String)
  deriving DecidableEq

structure SubscriptionState where
  lastStNum : Option ℕ := none
  lastSqNum : Option ℕ := none
  expiresAt : Option Float := none
  deriving DecidableEq

inductive RangeError where
  | invalidTime
  deriving DecidableEq, Repr

/-! ### Values -/

def Validity.name : Validity → Text
  | .good => "good".toList
  | .invalid => "invalid".toList
  | .reserved => "reserved".toList
  | .questionable => "questionable".toList

def qualityToTagQuality (q : GooseQuality) : TagQuality :=
  if q.validity = .invalid || q.failure || q.badReference then .bad
  else if q.validity = .questionable || q.validity = .reserved || q.oldData || q.outOfRange || q.overflow || q.inconsistent ||
      q.inaccurate || q.oscillatory || q.source = .substituted || q.operatorBlocked || q.test then .uncertain
  else .good

def bitsToString (bits : List Bool) : Text := bits.map fun b => if b then '1' else '0'

def octetsHex (octets : Buffer) : Text := octets.flatMap fun b => [Nat.digitChar (b.toNat / 16), Nat.digitChar (b.toNat % 16)]

def projectValue : GooseDataValue → TagValue × TagQuality
  | .quality q => (.text q.validity.name, qualityToTagQuality q)
  | .boolean value => (.boolean value, .good)
  | .int value => (.integer value, .good)
  | .uint value => (.integer value, .good)
  | .float value => (.float value, .good)
  | .visiblestring value => (.text value, .good)
  | .bitstring bits _ => (.text (bitsToString bits), .good)
  | .octetstring value => (.text (octetsHex value), .good)
  | .utctime value => (.integer (value.seconds * 1000), .good)
  | .members value => (.text ("struct(".toList ++ Nat.toDigits 10 value.length ++ [')']), .good)
  | .unknown tag _ => (.text ("unknown(0x".toList ++ (tagHex tag).toList ++ [')']), .uncertain)

/-! ### Times -/

def maxTime : ℤ := 8640000000000000

def dateOf (ms : Float) : Option ℤ :=
  let time := clampInt ms (-maxTime - 1) (maxTime + 1)
  if ms.isFinite && decide (ms ≤ Float.ofInt maxTime) && decide (Float.ofInt (-maxTime) ≤ ms) then some time else none

/-- The milliseconds of a timestamp, as a double: it has 24 binary places. -/
def ofMs (t : ℚ) : Float := .ofModel (pack (UnpackedFloat.normalize .binary64 (t * 2 ^ 24).floor (-24) .positive))

def atLeastZero (x : Float) : Float := if x.isNaN then x else if 0 < x then x else 0

/-! ### Validation -/

def wrapFrom : ℕ := 0xfffffff0

def otherMac (expected : Option Text) (mac : Text) : Option Text :=
  expected.filter fun expected => expected ≠ [] && mac ≠ expected.map Char.toLower

namespace GooseSubscriptionConfig
variable (config : GooseSubscriptionConfig) (frame : GooseFrame) (receiveMs : Float)

def checkDatasetShape (allData : List GooseDataValue) : Option String :=
  if allData.length ≠ config.dataset.length then
    some s!"dataset entry count {allData.length} != expected {config.dataset.length}"
  else
    (List.range config.dataset.length).findSome? fun i =>
      match allData[i]?, config.dataset[i]? with
      | some actual, some want =>
        if want.type = .quality then
          if actual.type ≠ "quality" && actual.type ≠ "bitstring" then
            some s!"member {i} ({String.ofList want.tagName}) expected quality, got {actual.type}"
          else none
        else if actual.type ≠ want.type.name then
          some s!"member {i} ({String.ofList want.tagName}) expected {want.type.name}, got {actual.type}"
        else none
      | _, _ => none

def buildTagUpdates : Except RangeError (List GooseTagUpdate) :=
  match dateOf receiveMs with
  | none => .error .invalidTime
  | some timestamp =>
    .ok ((config.dataset.zip frame.pdu.allData).map fun (member, data) =>
      let (value, quality) := projectValue data
      ⟨member.tagName, value, quality, timestamp, frame.pdu.gocbRef, frame.pdu.stNum, frame.pdu.simulation⟩)

end GooseSubscriptionConfig

def SubscriptionState.isStale (state : SubscriptionState) (nowMs : Float) : Bool :=
  state.expiresAt.any fun expiresAt => decide (expiresAt < nowMs)

/-- Whether the numbers of a frame are a change of state, or why they are none that may follow. -/
def SubscriptionState.checkNumbers (state : SubscriptionState) (pdu : GoosePdu) : Except (GooseRejectReason × String) Bool :=
  match state.lastStNum with
  | none => .ok true
  | some lastStNum =>
    if pdu.stNum < lastStNum ∧ ¬(pdu.stNum ≤ 1 ∧ wrapFrom ≤ lastStNum) then
      .error (.stnumRegression, s!"stNum {pdu.stNum} < last {lastStNum}")
    else if pdu.stNum = lastStNum then
      match state.lastSqNum with
      | none => .ok false
      | some lastSqNum =>
        if pdu.sqNum ≤ lastSqNum ∧ ¬(pdu.sqNum = 0 ∧ wrapFrom ≤ lastSqNum) then
          .error (.sqnumRegression, s!"sqNum {pdu.sqNum} <= last {lastSqNum} for stNum {pdu.stNum}")
        else .ok false
    else .ok true

/-- The state and the result. The state is moved before the updates are built. -/
def validate (config : GooseSubscriptionConfig) (state : SubscriptionState) (frame : GooseFrame) (receiveMs : Float) :
    SubscriptionState × Except RangeError GooseValidationResult :=
  let pdu := frame.pdu
  let reject (reason : GooseRejectReason) (detail : String) : SubscriptionState × Except RangeError GooseValidationResult :=
    (state, .ok (.rejected reason detail))
  match otherMac config.expectedDestMac frame.destMac with
  | some expected => reject .macMismatch s!"destMac {String.ofList frame.destMac} != {String.ofList expected}"
  | none =>
    match otherMac config.expectedSrcMac frame.srcMac with
    | some expected => reject .macMismatch s!"srcMac {String.ofList frame.srcMac} != {String.ofList expected}"
    | none =>
      if frame.appId ≠ config.appId then reject .appIdMismatch ("appId 0x" ++ String.ofList (Nat.toDigits 16 frame.appId))
      else if pdu.ndsCom then reject .ndsCom "publisher signalled needsCommissioning"
      else
        match config.expectedConfRev.filter (pdu.confRev ≠ ·) with
        | some expected => reject .confRevMismatch s!"confRev {pdu.confRev} != expected {expected}"
        | none =>
          if pdu.simulation && config.simulationPolicy = .reject then reject .simulation "simulation bit set and policy=reject"
          else
            match config.checkDatasetShape pdu.allData with
            | some shapeError => reject .datasetShape shapeError
            | none =>
              match state.checkNumbers pdu with
              | .error (reason, detail) => reject reason detail
              | .ok stateChanged =>
                let advanced : SubscriptionState := ⟨some pdu.stNum, some pdu.sqNum, some (receiveMs + Float.ofNat pdu.timeAllowedToLive)⟩
                let roundTripUs := atLeastZero ((receiveMs - ofMs pdu.t) * 1000)
                (advanced, (config.buildTagUpdates frame receiveMs).map fun updates =>
                  .accepted updates roundTripUs stateChanged (state.isStale receiveMs))

/-! ### What a frame does -/

variable {config : GooseSubscriptionConfig} {state : SubscriptionState} {frame : GooseFrame} {receiveMs : Float}

def advanced (frame : GooseFrame) (receiveMs : Float) : SubscriptionState :=
  ⟨some frame.pdu.stNum, some frame.pdu.sqNum, some (receiveMs + Float.ofNat frame.pdu.timeAllowedToLive)⟩

theorem validate_cases (config : GooseSubscriptionConfig) (state : SubscriptionState) (frame : GooseFrame) (receiveMs : Float) :
    (∃ reason detail, validate config state frame receiveMs = (state, .ok (.rejected reason detail))) ∨
    ∃ stateChanged, state.checkNumbers frame.pdu = .ok stateChanged ∧ validate config state frame receiveMs =
      (advanced frame receiveMs, (config.buildTagUpdates frame receiveMs).map fun updates =>
        .accepted updates (atLeastZero ((receiveMs - ofMs frame.pdu.t) * 1000)) stateChanged (state.isStale receiveMs)) := by
  unfold validate
  dsimp only
  cases otherMac config.expectedDestMac frame.destMac with
  | some expected => exact .inl ⟨_, _, rfl⟩
  | none =>
    cases otherMac config.expectedSrcMac frame.srcMac with
    | some expected => exact .inl ⟨_, _, rfl⟩
    | none =>
      dsimp only
      by_cases happId : frame.appId ≠ config.appId
      · rw [if_pos happId]
        exact .inl ⟨_, _, rfl⟩
      rw [if_neg happId]
      by_cases hndsCom : frame.pdu.ndsCom = true
      · rw [if_pos hndsCom]
        exact .inl ⟨_, _, rfl⟩
      rw [if_neg hndsCom]
      cases config.expectedConfRev.filter (frame.pdu.confRev ≠ ·) with
      | some expected => exact .inl ⟨_, _, rfl⟩
      | none =>
        dsimp only
        split_ifs
        · exact .inl ⟨_, _, rfl⟩
        · cases config.checkDatasetShape frame.pdu.allData with
          | some shapeError => exact .inl ⟨_, _, rfl⟩
          | none =>
            cases hnumbers : state.checkNumbers frame.pdu with
            | error rejection => exact .inl ⟨_, _, rfl⟩
            | ok stateChanged => exact .inr ⟨stateChanged, rfl, rfl⟩

/-- A number of 32 bits has wrapped: the state number to at most 1, or the sequence number to 0. -/
def Wraps (older newer : GooseFrame) : Prop :=
  wrapFrom ≤ older.pdu.stNum ∧ newer.pdu.stNum ≤ 1 ∨
    newer.pdu.stNum = older.pdu.stNum ∧ wrapFrom ≤ older.pdu.sqNum ∧ newer.pdu.sqNum = 0

/-- The state number has risen, or it is the same and the sequence number has. -/
def Rises (older newer : GooseFrame) : Prop :=
  older.pdu.stNum < newer.pdu.stNum ∨ newer.pdu.stNum = older.pdu.stNum ∧ older.pdu.sqNum < newer.pdu.sqNum

instance : IsTrans GooseFrame Rises where
  trans first middle last hfirst hlast := by
    unfold Rises at *
    omega

theorem rises_irrefl {older newer : GooseFrame} (h : Rises older newer) :
    ¬(newer.pdu.stNum = older.pdu.stNum ∧ newer.pdu.sqNum = older.pdu.sqNum) := by
  unfold Rises at h
  omega

variable {stateChanged : Bool}

theorem checkNumbers_follows {older : GooseFrame} (hst : state.lastStNum = some older.pdu.stNum)
    (hsq : state.lastSqNum = some older.pdu.sqNum) (h : state.checkNumbers frame.pdu = .ok stateChanged) :
    (Rises older frame ∨ Wraps older frame) ∧ (stateChanged = true ↔ frame.pdu.stNum ≠ older.pdu.stNum) := by
  unfold SubscriptionState.checkNumbers at h
  rw [hst, hsq] at h
  dsimp only at h
  unfold Rises Wraps
  split_ifs at h with hregression hsame hrepeated
  · obtain rfl := Except.ok.inj h
    refine ⟨?_, by simp [hsame]⟩
    omega
  · obtain rfl := Except.ok.inj h
    refine ⟨?_, by simp [hsame]⟩
    omega

/-! ### Runs -/

abbrev Received := GooseFrame × Float

def stateAfter (config : GooseSubscriptionConfig) : List Received → SubscriptionState
  | [] => {}
  | (frame, receiveMs) :: earlier => (validate config (stateAfter config earlier) frame receiveMs).1

def outcome (config : GooseSubscriptionConfig) (frame : GooseFrame) (receiveMs : Float) (earlier : List Received) :
    Except RangeError GooseValidationResult :=
  (validate config (stateAfter config earlier) frame receiveMs).2

def isAccepted : Except RangeError GooseValidationResult → Bool
  | .ok (.accepted ..) => true
  | _ => false

def accepted (config : GooseSubscriptionConfig) : List Received → List GooseFrame
  | [] => []
  | (frame, receiveMs) :: earlier =>
    if isAccepted (outcome config frame receiveMs earlier) then frame :: accepted config earlier else accepted config earlier

def Dated (frames : List Received) : Prop := ∀ received ∈ frames, (dateOf received.2).isSome = true

/-- The numbers of the state are those of the frame that was accepted last, and of no frame before one is. -/
theorem stateAfter_numbers (config : GooseSubscriptionConfig) {frames : List Received} (hdated : Dated frames) :
    (stateAfter config frames).lastStNum = (accepted config frames).head?.map (·.pdu.stNum) ∧
      (stateAfter config frames).lastSqNum = (accepted config frames).head?.map (·.pdu.sqNum) := by
  induction frames with
  | nil => exact ⟨rfl, rfl⟩
  | cons latest earlier ih =>
    obtain ⟨frame, receiveMs⟩ := latest
    have hearlier := ih fun received hmem => hdated received (List.mem_cons_of_mem _ hmem)
    obtain ⟨timestamp, htimestamp⟩ := Option.isSome_iff_exists.mp (hdated (frame, receiveMs) (List.mem_cons_self ..))
    rw [stateAfter, accepted, outcome]
    rcases validate_cases config (stateAfter config earlier) frame receiveMs with ⟨reason, detail, heq⟩ | ⟨stateChanged, -, heq⟩
    · rw [heq]
      exact hearlier
    · rw [heq, GooseSubscriptionConfig.buildTagUpdates, htimestamp]
      exact ⟨rfl, rfl⟩

theorem accepted_follows {earlier : List Received} (hdated : Dated earlier)
    {updates : List GooseTagUpdate} {roundTripUs : Float} {wasStale : Bool}
    (h : outcome config frame receiveMs earlier = .ok (.accepted updates roundTripUs stateChanged wasStale)) :
    ∀ older, (accepted config earlier).head? = some older →
      (Rises older frame ∨ Wraps older frame) ∧ (stateChanged = true ↔ frame.pdu.stNum ≠ older.pdu.stNum) := by
  intro older hhead
  obtain ⟨hst, hsq⟩ := stateAfter_numbers config hdated
  rw [hhead] at hst hsq
  rw [outcome] at h
  rcases validate_cases config (stateAfter config earlier) frame receiveMs with ⟨reason, detail, heq⟩ | ⟨changed, hnumbers, heq⟩
  · rw [heq] at h
    cases h
  · rw [heq] at h
    obtain ⟨updates, hupdates, hresult⟩ := map_ok.mp h
    obtain ⟨-, -, rfl, -⟩ := GooseValidationResult.accepted.inj hresult
    exact checkNumbers_follows hst hsq hnumbers

theorem accepted_first {earlier : List Received} (hdated : Dated earlier)
    {updates : List GooseTagUpdate} {roundTripUs : Float} {wasStale : Bool}
    (h : outcome config frame receiveMs earlier = .ok (.accepted updates roundTripUs stateChanged wasStale))
    (hfirst : (accepted config earlier).head? = none) : stateChanged = true := by
  obtain ⟨hst, -⟩ := stateAfter_numbers config hdated
  rw [hfirst] at hst
  rw [outcome] at h
  rcases validate_cases config (stateAfter config earlier) frame receiveMs with ⟨reason, detail, heq⟩ | ⟨changed, hnumbers, heq⟩
  · rw [heq] at h
    cases h
  · have hchanged : changed = true := by
      rw [SubscriptionState.checkNumbers, hst] at hnumbers
      exact (Except.ok.inj hnumbers).symm
    rw [heq] at h
    obtain ⟨updates, hupdates, hresult⟩ := map_ok.mp h
    obtain ⟨-, -, rfl, -⟩ := GooseValidationResult.accepted.inj hresult
    exact hchanged

theorem accepted_chain (config : GooseSubscriptionConfig) {frames : List Received} (hdated : Dated frames) :
    (accepted config frames).IsChain fun newer older => Rises older newer ∨ Wraps older newer := by
  induction frames with
  | nil => exact .nil
  | cons latest earlier ih =>
    obtain ⟨frame, receiveMs⟩ := latest
    have hdated' : Dated earlier := fun received hmem => hdated received (List.mem_cons_of_mem _ hmem)
    rw [accepted]
    split_ifs with haccepted
    · cases houtcome : outcome config frame receiveMs earlier with
      | error error =>
        rw [houtcome] at haccepted
        cases haccepted
      | ok result =>
        cases result with
        | rejected reason detail =>
          rw [houtcome] at haccepted
          cases haccepted
        | accepted updates roundTripUs stateChanged wasStale =>
          refine List.isChain_cons.mpr ⟨fun older holder => ?_, ih hdated'⟩
          exact (accepted_follows hdated' houtcome older holder).1
    · exact ih hdated'

/-- A frame that is rejected moves nothing. When every frame is received at a time that is a date, frames
that are accepted one after the other have rising numbers or wrap, no numbers are accepted twice unless
some wrap in between, and a change of state is reported for a state number other than that of the frame
accepted before. -/
theorem replays_rejected (config : GooseSubscriptionConfig) :
    (∀ state frame receiveMs reason detail, (validate config state frame receiveMs).2 = .ok (.rejected reason detail) →
      (validate config state frame receiveMs).1 = state) ∧
    ∀ frames, Dated frames →
      ((accepted config frames).IsChain fun newer older => Rises older newer ∨ Wraps older newer) ∧
      (∀ after last between first before, accepted config frames = after ++ last :: (between ++ first :: before) →
        last.pdu.stNum = first.pdu.stNum → last.pdu.sqNum = first.pdu.sqNum →
        ∃ later newer older sooner, last :: (between ++ [first]) = later ++ newer :: older :: sooner ∧ Wraps older newer) ∧
      ∀ frame receiveMs updates roundTripUs stateChanged wasStale,
        outcome config frame receiveMs frames = .ok (.accepted updates roundTripUs stateChanged wasStale) →
        (stateChanged = true ↔ ∀ older, (accepted config frames).head? = some older → frame.pdu.stNum ≠ older.pdu.stNum) := by
  refine ⟨fun state frame receiveMs reason detail hrejected => ?_, fun frames hdated => ⟨accepted_chain config hdated, ?_, ?_⟩⟩
  · rcases validate_cases config state frame receiveMs with ⟨reason, detail, heq⟩ | ⟨stateChanged, -, heq⟩
    · rw [heq]
    · rw [heq] at hrejected
      cases hupdates : config.buildTagUpdates frame receiveMs with
      | error | ok =>
        rw [hupdates] at hrejected
        cases hrejected
  · intro after last between first before hsplit hst hsq
    have hchain := accepted_chain config hdated
    have hsegment : last :: (between ++ [first]) <:+: accepted config frames := by
      refine ⟨after, before, ?_⟩
      rw [hsplit]
      simp
    have hbetween := hchain.infix hsegment
    rcases risen_or_wrapped hbetween with hrisen | hwrapped
    · exact absurd ⟨hst, hsq⟩ (rises_irrefl hrisen)
    · exact hwrapped
  · intro frame receiveMs updates roundTripUs stateChanged wasStale haccepted
    cases hhead : (accepted config frames).head? with
    | none => simp [accepted_first hdated haccepted hhead]
    | some older =>
      have hfollows := (accepted_follows hdated haccepted older hhead).2
      rw [hfollows]
      simp

def breaker : GooseSubscriptionConfig := ⟨['g'], 1, none, none, [⟨['o'], .boolean⟩], none, .reject⟩

def breakerFrame (stNum : ℕ) : GooseFrame := ⟨[], [], 1, ⟨['g'], 2000, [], [], 0, stNum, 0, false, 1, false, 1, [.boolean true]⟩⟩

/-- A frame that wraps is received at no date: it is not accepted, and it moves the state, so that a frame
with a lower number, that does not wrap, is accepted next. -/
theorem lower_number_accepted : ∃ newer older,
    accepted breaker [(breakerFrame 5, 1), (breakerFrame 0, 0 / 0), (breakerFrame 0xfffffff5, 0)] = [newer, older] ∧
      ¬(Rises older newer ∨ Wraps older newer) := by
  have hfirst : isAccepted (outcome breaker (breakerFrame 0xfffffff5) 0 []) = true := by decide +kernel
  have hundated : isAccepted (outcome breaker (breakerFrame 0) (0 / 0) [(breakerFrame 0xfffffff5, 0)]) = false := by decide +kernel
  have hlast : isAccepted (outcome breaker (breakerFrame 5) 1 [(breakerFrame 0, 0 / 0), (breakerFrame 0xfffffff5, 0)]) = true := by
    decide +kernel
  refine ⟨breakerFrame 5, breakerFrame 0xfffffff5, ?_, ?_⟩
  · simp [accepted, hfirst, hundated, hlast]
  · simp [Rises, Wraps, breakerFrame, wrapFrom]

end OxScada.Goose
