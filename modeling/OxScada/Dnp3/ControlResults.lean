import OxScada.Dnp3.SelectBeforeOperate

/-! What a control result reports as executed, and which calls were made to the sink. -/

namespace OxScada.Dnp3

def Dnp3ControlCommand.isNoOp : Dnp3ControlCommand → Bool
  | .binaryOutput _ _ _ _ _ crob => crob.count = 0
  | .analogOutput .. => false

def accepted (events : List ControlEvent) : List Dnp3ControlCommand :=
  events.filterMap fun
    | .called command .ok => some command
    | _ => none

def reported (results : List (DecodedObject × CommandStatus)) : List Dnp3ControlCommand :=
  results.filterMap fun (d, status) => if status = .success then d.command else none

namespace Dnp3ControlProcessor

variable {p : Dnp3ControlProcessor} {sink : Dnp3ControlSink} {m : Dnp3PointMap} {req : ParsedRequest} {now : ℤ}
  {decoded : List DecodedObject} {command : Dnp3ControlCommand}

def eventsOf (p : Dnp3ControlProcessor) (m : Dnp3PointMap) (req : ParsedRequest) (now : ℤ) : List ControlEvent :=
  (p.process m req now).2.journal.drop p.journal.length

theorem callSink_journal (p : Dnp3ControlProcessor) (sink : Dnp3ControlSink) (now : ℤ) (command : Dnp3ControlCommand) :
    (p.callSink sink now command).2.journal = p.journal ++ [.called command (sink p.journal command)] := by
  unfold callSink
  dsimp only
  split
  · rfl
  · rfl
  · cases command <;> rfl

/-! ### What is reported as executed -/

theorem decodeObject_rejection (m : Dnp3PointMap) (header : ParsedObjectHeader) (item : ParsedPrefixedObject) :
    (decodeObject m header item).verdict ≠ .error .success := by
  unfold decodeObject
  split
  · split
    · simp
    · split
      · simp
      · split
        · simp
        · split <;> simp
  · split
    · split <;> simp
    · split <;> simp

theorem preempt_some {status : CommandStatus} (h : p.preempt now command = some status) :
    (command.isNoOp = true ∧ status = .success) ∨ (command.isNoOp = false ∧ status ≠ .success) := by
  cases command with
  | analogOutput => cases h
  | binaryOutput group variation index tagId value crob =>
    simp only [preempt] at h
    split_ifs at h with hcount
    · exact .inl ⟨by simp [Dnp3ControlCommand.isNoOp, hcount], (Option.some.inj h).symm⟩
    · exact .inr ⟨by simp [Dnp3ControlCommand.isNoOp, hcount], Option.some.inj h ▸ by decide⟩

theorem preempt_none (h : p.preempt now command = none) : command.isNoOp = false := by
  cases command with
  | analogOutput => rfl
  | binaryOutput group variation index tagId value crob =>
    simp only [preempt] at h
    split_ifs at h with hcount
    simp [Dnp3ControlCommand.isNoOp, hcount]

/-- What the statuses of the objects tell of the calls that were made for them. -/
structure Told (decoded : List DecodedObject) (statuses : List CommandStatus) (events : List ControlEvent) : Prop where
  reported : (accepted events).Sublist (reported (decoded.zip statuses))
  exact_iff : Dnp3.reported (decoded.zip statuses) = accepted events ↔
    (∀ d ∈ decoded, ∀ command, d.command = some command → command.isNoOp = false) ∧
      ∀ command, .called command (.refused (some .success)) ∉ events
  success : (∀ command, .called command (.refused (some .success)) ∉ events) → ∀ d status, (d, status) ∈ decoded.zip statuses →
    d.verdict ≠ .error .success → status = .success → ∃ command, d.command = some command ∧ (command ∈ accepted events ∨ command.isNoOp = true)

variable {events : List ControlEvent}

theorem Told.skip {statuses : List CommandStatus} (h : Told decoded statuses events) {d : DecodedObject}
    {status : CommandStatus} (hskip : d.verdict = .error status ∨ status ≠ .success ∧ ∀ command, d.command = some command → command.isNoOp = false) :
    Told (d :: decoded) (status :: statuses) events := by
  have hreported : Dnp3.reported ((d, status) :: decoded.zip statuses) = Dnp3.reported (decoded.zip statuses) := by
    rcases hskip with hverdict | ⟨hstatus, -⟩
    · simp [Dnp3.reported, DecodedObject.command, hverdict]
    · simp [Dnp3.reported, hstatus]
  have hop : ∀ command, d.command = some command → command.isNoOp = false := by
    rcases hskip with hverdict | ⟨-, hop⟩
    · simp [DecodedObject.command, hverdict]
    · exact hop
  refine ⟨hreported ▸ h.reported, ?_, fun hclean other status' hother hvalid hsuccess => ?_⟩
  · rw [List.zip_cons_cons, hreported, h.exact_iff, List.forall_mem_cons]
    exact and_congr_left' (and_iff_right hop).symm
  · rcases List.mem_cons.mp hother with hsame | hother
    · obtain ⟨rfl, rfl⟩ := Prod.mk.inj hsame
      rcases hskip with hverdict | ⟨hstatus, -⟩
      · exact absurd (hsuccess ▸ hverdict) hvalid
      · exact absurd hsuccess hstatus
    · exact h.success hclean other status' hother hvalid hsuccess

theorem Told.noOp {statuses : List CommandStatus} (h : Told decoded statuses events) {d : DecodedObject}
    (hcommand : d.command = some command) (hop : command.isNoOp = true) : Told (d :: decoded) (.success :: statuses) events := by
  have hreported : Dnp3.reported ((d, .success) :: decoded.zip statuses) = command :: Dnp3.reported (decoded.zip statuses) := by
    simp [Dnp3.reported, hcommand]
  refine ⟨hreported ▸ h.reported.cons command, ?_, fun hclean other status hother hvalid hsuccess => ?_⟩
  · rw [List.zip_cons_cons, hreported]
    constructor
    · intro hsame
      have hlength := h.reported.length_le
      rw [← hsame, List.length_cons] at hlength
      omega
    · intro ⟨hall, _⟩
      rw [hall d List.mem_cons_self command hcommand] at hop
      cases hop
  · rcases List.mem_cons.mp hother with hsame | hother
    · obtain ⟨rfl, rfl⟩ := Prod.mk.inj hsame
      exact ⟨command, hcommand, .inr hop⟩
    · exact h.success hclean other status hother hvalid hsuccess

theorem Told.call {statuses : List CommandStatus} {events : List ControlEvent} (h : Told decoded statuses events) {d : DecodedObject}
    (hcommand : d.command = some command) (hop : command.isNoOp = false) (answer : SinkAnswer) {status : CommandStatus}
    (hstatus : status = match answer with
      | .threw => .hardwareError
      | .refused status => status.getD .hardwareError
      | .ok => .success) : Told (d :: decoded) (status :: statuses) (.called command answer :: events) := by
  have hall : (∀ other ∈ d :: decoded, ∀ command, other.command = some command → command.isNoOp = false) ↔
      ∀ other ∈ decoded, ∀ command, other.command = some command → command.isNoOp = false := by
    rw [List.forall_mem_cons]
    refine and_iff_right fun other hother => ?_
    rw [← Option.some.inj (hcommand.symm.trans hother)]
    exact hop
  by_cases hok : answer = .ok
  · subst hok hstatus
    have hreported : Dnp3.reported ((d, .success) :: decoded.zip statuses) = command :: Dnp3.reported (decoded.zip statuses) := by
      simp [Dnp3.reported, hcommand]
    have haccepted : accepted (.called command .ok :: events) = command :: accepted events := rfl
    refine ⟨?_, ?_, fun hclean other status hother hvalid hsuccess => ?_⟩
    · rw [List.zip_cons_cons, hreported, haccepted]
      exact h.reported.cons_cons command
    · rw [List.zip_cons_cons, hreported, haccepted, List.cons.injEq, and_iff_right rfl, h.exact_iff, hall]
      simp
    · rw [haccepted]
      rcases List.mem_cons.mp hother with hsame | hother
      · obtain ⟨rfl, rfl⟩ := Prod.mk.inj hsame
        exact ⟨command, hcommand, .inl List.mem_cons_self⟩
      · obtain ⟨own, hown, htold⟩ := h.success (fun c hc => hclean c (List.mem_cons_of_mem _ hc)) other status hother hvalid hsuccess
        exact ⟨own, hown, htold.imp_left (List.mem_cons_of_mem _)⟩
  · have haccepted : accepted (.called command answer :: events) = accepted events := by
      cases answer with
      | ok => exact absurd rfl hok
      | refused | threw => rfl
    by_cases hfalse : answer = .refused (some .success)
    · -- the refusal is reported as an execution
      subst hfalse
      obtain rfl : status = .success := hstatus
      have hreported : Dnp3.reported ((d, .success) :: decoded.zip statuses) = command :: Dnp3.reported (decoded.zip statuses) := by
        simp [Dnp3.reported, hcommand]
      refine ⟨?_, ?_, fun hclean => absurd List.mem_cons_self (hclean command)⟩
      · rw [haccepted]
        exact hreported ▸ h.reported.cons command
      · rw [List.zip_cons_cons, hreported, haccepted]
        refine iff_of_false (fun hsame => ?_) fun hclean => hclean.2 command List.mem_cons_self
        have hlength := h.reported.length_le
        rw [← hsame, List.length_cons] at hlength
        omega
    · have hne : status ≠ .success := by
        rw [hstatus]
        rcases answer with _ | (_ | status) | _
        · exact absurd rfl hok
        · decide
        · exact fun hsame => hfalse (by rw [← hsame]; rfl)
        · decide
      have hskipped := h.skip (d := d) (.inr ⟨hne, fun c hc => Option.some.inj (hcommand.symm.trans hc) ▸ hop⟩)
      have hclean : (∀ c, .called c (.refused (some .success)) ∉ ControlEvent.called command answer :: events) ↔
          ∀ c, .called c (.refused (some .success)) ∉ events := by
        refine forall_congr' fun c => ?_
        rw [List.mem_cons, not_or, ControlEvent.called.injEq]
        exact and_iff_right fun hsame => hfalse hsame.2.symm
      refine ⟨haccepted ▸ hskipped.reported, ?_, ?_⟩
      · rw [haccepted, hclean]
        exact hskipped.exact_iff
      · rw [haccepted, hclean]
        exact hskipped.success

theorem executeAll_told (p : Dnp3ControlProcessor) (sink : Dnp3ControlSink) (now : ℤ) (decoded : List DecodedObject) :
    ∃ events, (executeAll sink now p decoded).2.journal = p.journal ++ events ∧ Told decoded (executeAll sink now p decoded).1 events := by
  induction decoded generalizing p with
  | nil =>
    refine ⟨[], (List.append_nil _).symm, ⟨List.Sublist.refl _, by simp [reported, accepted], ?_⟩⟩
    intro _ d status hd
    cases hd
  | cons d rest ih =>
    obtain ⟨events, hjournal, htold⟩ := ih (p.executeOne sink now d).2
    rw [executeAll]
    dsimp only
    rcases executeOne_cases p sink now d with ⟨status, hone, hverdict⟩ | ⟨command, status, hone, hverdict, hpreempt⟩ | ⟨command, hverdict, hpreempt, hone⟩
    · rw [hone] at hjournal htold ⊢
      exact ⟨events, hjournal, htold.skip (.inl hverdict)⟩
    · rw [hone] at hjournal htold ⊢
      have hcommand : d.command = some command := by rw [DecodedObject.command, hverdict]
      refine ⟨events, hjournal, ?_⟩
      rcases preempt_some hpreempt with ⟨hop, rfl⟩ | ⟨hop, hstatus⟩
      · exact htold.noOp hcommand hop
      · exact htold.skip (.inr ⟨hstatus, fun c hc => Option.some.inj (hcommand.symm.trans hc) ▸ hop⟩)
    · rw [hone] at hjournal htold ⊢
      have hcommand : d.command = some command := by rw [DecodedObject.command, hverdict]
      rw [callSink_journal] at hjournal
      refine ⟨_, hjournal.trans (by rw [List.append_assoc, List.singleton_append]), htold.call hcommand (preempt_none hpreempt) _ ?_⟩
      unfold callSink
      cases sink p.journal command <;> rfl

theorem eventsOf_eq (m : Dnp3PointMap) (h : (p.process m req now).2.journal = p.journal ++ events) :
    p.eventsOf m req now = events := by
  rw [eventsOf, h, List.drop_left]

/-- The result is what happened: `executed` has the commands that the sink took, in their order, an object of another
request than a SELECT is a success only if the sink took its command or it asks for no operation, and nothing is called or
armed while controls are off. -/
theorem executed_truthful_iff {result : ControlProcessResult} (hresult : (p.process m req now).1 = .ok result) :
    (result.executed = accepted (p.eventsOf m req now) ∧
      (req.func ≠ FunctionCode.select → ∀ d status, (d, status) ∈ (decodeRequest m req).zip result.statuses → status = .success →
        ∃ command, d.command = some command ∧ (command ∈ accepted (p.eventsOf m req now) ∨ command.isNoOp = true)) ∧
      (p.writable = false → p.eventsOf m req now = [] ∧ ((p.process m req now).2.armed = none ∨ (p.process m req now).2.armed = p.armed))) ↔
      (p.Executes req (decodeRequest m req) now →
        (∀ d ∈ decodeRequest m req, ∀ command, d.command = some command → command.isNoOp = false) ∧
          ∀ command, .called command (.refused (some .success)) ∉ p.eventsOf m req now) := by
  have hprocess := process_eq p m req now
  by_cases hreach : Reaches m req
  · rw [if_pos hreach] at hprocess
    have hheaders : controlHeaders req ≠ [] := fun hnil => hreach (by rw [decodeRequest, hnil]; rfl)
    have hlength : (decodeRequest m req).length ≠ 0 := fun hzero => hreach (List.length_eq_zero_iff.mp hzero)
    obtain ⟨hstatuses, hexecuted⟩ : result.statuses = (p.resolveStatuses req (decodeRequest m req) now).1 ∧
        result.executed = if req.func = FunctionCode.select then []
          else reported ((decodeRequest m req).zip (p.resolveStatuses req (decodeRequest m req) now).1) := by
      rw [process, if_neg hheaders] at hresult
      dsimp only at hresult
      rw [if_neg hlength] at hresult
      obtain ⟨objects, -, rfl⟩ := Runs.map_ok.mp hresult
      exact ⟨rfl, rfl⟩
    rw [hstatuses, hexecuted]
    -- the commands are carried out, or no status is a success
    rcases resolveStatuses_cases p req (decodeRequest m req) now with ⟨hexecutes, sink, -, heq⟩ | ⟨hnot, hstatus, hstate⟩
    · obtain ⟨events, hjournal, htold⟩ := executeAll_told p.disarm sink now (decodeRequest m req)
      have hevents : p.eventsOf m req now = events := eventsOf_eq m (by rw [hprocess, heq, hjournal]; rfl)
      rw [hevents, heq, if_neg hexecutes.2.1, htold.exact_iff]
      constructor
      · exact fun h _ => h.1
      · intro h
        obtain ⟨hop, hclean⟩ := h hexecutes
        refine ⟨⟨hop, hclean⟩, fun _ d status hd hsuccess => htold.success hclean d status hd ?_ hsuccess, fun hoff => ?_⟩
        · obtain ⟨header, -, hdecoded⟩ := List.mem_flatMap.mp (List.of_mem_zip hd).1
          obtain ⟨item, -, rfl⟩ := List.mem_map.mp hdecoded
          exact decodeObject_rejection m header item
        · rw [hexecutes.1] at hoff
          cases hoff
    · refine iff_of_true ?_ fun h => absurd h hnot
      have hfailed : req.func ≠ FunctionCode.select → ∀ r ∈ (decodeRequest m req).zip (p.resolveStatuses req (decodeRequest m req) now).1,
          r.2 ≠ .success := fun hfunc r hr => hstatus hfunc r.2 (List.of_mem_zip (a := r.1) (b := r.2) hr).2
      have hnone : (if req.func = FunctionCode.select then []
          else reported ((decodeRequest m req).zip (p.resolveStatuses req (decodeRequest m req) now).1)) = [] := by
        split_ifs with hselect
        · rfl
        · exact List.filterMap_eq_nil_iff.mpr fun r hr => if_neg (hfailed hselect r hr)
      have hevents : accepted (p.eventsOf m req now) = [] ∧ (p.writable = false →
          p.eventsOf m req now = [] ∧ ((p.process m req now).2.armed = none ∨ (p.process m req now).2.armed = p.armed)) := by
        rcases hstate with hsame | ⟨hwritable, -, -, harmed⟩
        · have hnil : p.eventsOf m req now = [] := eventsOf_eq m (by rw [hprocess, hsame]; simp [disarm])
          rw [hnil, hprocess, hsame]
          exact ⟨rfl, fun _ => ⟨rfl, .inl rfl⟩⟩
        · have hone : p.eventsOf m req now = [.armed _] := eventsOf_eq m (by rw [hprocess, harmed]; rfl)
          rw [hone]
          refine ⟨rfl, fun hoff => ?_⟩
          rw [hwritable] at hoff
          cases hoff
      exact ⟨hnone.trans hevents.1.symm, fun hfunc d status hd hsuccess => absurd hsuccess (hfailed hfunc _ hd), hevents.2⟩
  · -- nothing is judged, and the result is empty
    rw [if_neg hreach] at hprocess
    have hnil : decodeRequest m req = [] := not_not.mp hreach
    have hevents : p.eventsOf m req now = [] := eventsOf_eq m (by rw [hprocess, List.append_nil])
    have hempty : result.executed = [] := by
      rw [process] at hresult
      by_cases hheaders : controlHeaders req = []
      · rw [if_pos hheaders] at hresult
        exact Except.ok.inj hresult ▸ rfl
      · rw [if_neg hheaders] at hresult
        dsimp only at hresult
        rw [if_pos (by rw [hnil]; rfl)] at hresult
        exact Except.ok.inj hresult ▸ rfl
    rw [hevents, hnil, hempty, hprocess]
    exact iff_of_true ⟨rfl, fun _ d status hd => (by cases hd), fun _ => ⟨rfl, .inr rfl⟩⟩ fun _ => ⟨fun d hd => (by cases hd), fun _ => List.not_mem_nil⟩

end Dnp3ControlProcessor

/-- A control of output 3 with this operation type, count and on-time in milliseconds. -/
def outputRequest (func opType count onTimeMs : UInt8) : ParsedRequest :=
  { coilRequest 2 func with
    objects := [{
      group := 12
      variation := 1
      qualifier := 0x28
      count := some 1
      items := some [⟨3, [opType, count, onTimeMs, 0, 0, 0, 0, 0, 0, 0, 0]⟩] }] }

theorem executed_truthful_latch :
    ∃ result, (openProcessor.process coilMap (outputRequest FunctionCode.directOperate 3 1 0) 0).1 = .ok result ∧
      result.executed = accepted (openProcessor.eventsOf coilMap (outputRequest FunctionCode.directOperate 3 1 0) 0) ∧
      result.executed.length = 1 := by
  have hevents : openProcessor.eventsOf coilMap (outputRequest FunctionCode.directOperate 3 1 0) 0 =
      [.called (.binaryOutput 12 1 3 "coil" true ⟨3, 0, false, false, 1, 0, 0⟩) .ok] := rfl
  refine ⟨_, rfl, ((Dnp3ControlProcessor.executed_truthful_iff rfl).mpr fun _ => ⟨by decide +kernel, fun command => ?_⟩).1, rfl⟩
  rw [hevents]
  simp

theorem zero_count_reported :
    ∃ result, (openProcessor.process coilMap (outputRequest FunctionCode.directOperate 3 0 0) 0).1 = .ok result ∧
      openProcessor.eventsOf coilMap (outputRequest FunctionCode.directOperate 3 0 0) 0 = [] ∧
      result.executed ≠ accepted (openProcessor.eventsOf coilMap (outputRequest FunctionCode.directOperate 3 0 0) 0) := by
  refine ⟨_, rfl, rfl, fun hsame => ?_⟩
  have hlength := congrArg List.length hsame
  revert hlength
  decide +kernel

end OxScada.Dnp3
