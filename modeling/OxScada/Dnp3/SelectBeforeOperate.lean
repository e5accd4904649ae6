import OxScada.Dnp3.Controls
import OxScada.Runs.Reachable

/-! Select before operate. The only thing that lets an OPERATE reach the sink is an armed
select, and what is armed is always the newest thing that happened to the processor. -/

namespace OxScada.Dnp3
open OxScada.Bytes OxScada.Js OxScada.Runs

/-! ### What the digest commits to -/

/-- A control object as the master means it: its body is without the status octet. -/
def DecodedObject.target (d : DecodedObject) : UInt8 × UInt8 × ℕ × Buffer :=
  (d.header.group, d.header.variation, d.item.index, d.item.data.dropLast)

structure DecodedObject.Sized (d : DecodedObject) : Prop where
  size : commandObjectSize d.header.group d.header.variation = some d.item.data.length
  index : d.item.index < 65536

namespace DecodedObject

theorem Sized.canonical_eq {d : DecodedObject} (h : d.Sized) :
    d.canonical = [d.header.group, d.header.variation] ++ writeUIntLE 2 d.item.index ++
      (d.item.data.dropLast ++ [0]) := by
  have hne : d.item.data ≠ [] := List.ne_nil_of_length_pos (commandObjectSize_pos h.size)
  rw [canonical, if_neg hne]

theorem Sized.canonical_inj {d d' : DecodedObject} (h : d.Sized) (h' : d'.Sized) {rest rest' : Buffer}
    (heq : d.canonical ++ rest = d'.canonical ++ rest') : d.target = d'.target ∧ rest = rest' := by
  rw [h.canonical_eq, h'.canonical_eq] at heq
  simp only [List.cons_append, List.nil_append, List.append_assoc, List.cons.injEq] at heq
  obtain ⟨hgroup, hvariation, htail⟩ := heq
  have hlen : (writeUIntLE 2 d.item.index).length = (writeUIntLE 2 d'.item.index).length := by
    rw [writeUIntLE_length, writeUIntLE_length]
  obtain ⟨hindex, hbody⟩ := List.append_inj htail hlen
  have hindices : d.item.index = d'.item.index := by
    have hread : readUIntLE (writeUIntLE 2 d.item.index) = d.item.index := readUIntLE_writeUIntLE h.index
    rw [← hread, hindex]
    exact readUIntLE_writeUIntLE h'.index
  have hsize : d.item.data.length = d'.item.data.length := by
    have hsame := h.size
    rw [hgroup, hvariation, h'.size] at hsame
    exact (Option.some.inj hsame).symm
  obtain ⟨hdata, hlast⟩ := List.append_inj hbody (by rw [List.length_dropLast, List.length_dropLast, hsize])
  refine ⟨?_, (List.cons.inj hlast).2⟩
  rw [target, target, hgroup, hvariation, hindices, hdata]

theorem canonical_ne_nil (d : DecodedObject) : d.canonical ≠ [] := by
  rw [canonical]
  simp

end DecodedObject

theorem canonicalDigest_inj {ds ds' : List DecodedObject} (h : ∀ d ∈ ds, d.Sized) (h' : ∀ d ∈ ds', d.Sized)
    (heq : canonicalDigest ds = canonicalDigest ds') : ds.map (·.target) = ds'.map (·.target) := by
  induction ds generalizing ds' with
  | nil =>
    cases ds' with
    | nil => rfl
    | cons d' ds' =>
      have hnil : d'.canonical = [] := by
        have hflat : [] = d'.canonical ++ canonicalDigest ds' := heq
        exact (List.append_eq_nil_iff.mp hflat.symm).1
      exact absurd hnil d'.canonical_ne_nil
  | cons d ds ih =>
    cases ds' with
    | nil =>
      have hflat : d.canonical ++ canonicalDigest ds = [] := heq
      exact absurd (List.append_eq_nil_iff.mp hflat).1 d.canonical_ne_nil
    | cons d' ds' =>
      have hflat : d.canonical ++ canonicalDigest ds = d'.canonical ++ canonicalDigest ds' := heq
      have hhead := (h d (List.mem_cons_self ..)).canonical_inj (h' d' (List.mem_cons_self ..)) hflat
      have htail := ih (fun e he => h e (List.mem_cons_of_mem d he)) (fun e he => h' e (List.mem_cons_of_mem d' he))
        hhead.2
      rw [List.map_cons, List.map_cons, hhead.1, htail]

theorem decodeObject_header (m : Dnp3PointMap) (header : ParsedObjectHeader) (item : ParsedPrefixedObject) :
    (decodeObject m header item).header = header ∧ (decodeObject m header item).item = item := by
  unfold decodeObject
  repeat' split
  all_goals exact ⟨rfl, rfl⟩

theorem decodeRequest_sized {m : Dnp3PointMap} {req : ParsedRequest} (h : ∀ header ∈ req.objects, header.Sized) :
    ∀ d ∈ decodeRequest m req, d.Sized := by
  intro d hd
  obtain ⟨header, hheader, hd⟩ := List.mem_flatMap.mp hd
  obtain ⟨item, hitem, rfl⟩ := List.mem_map.mp hd
  obtain ⟨items, hitems⟩ : ∃ items, header.items = some items := by
    rcases hnone : header.items with _ | items
    · rw [hnone] at hitem
      cases hitem
    · exact ⟨items, rfl⟩
  rw [hitems, Option.getD_some] at hitem
  obtain ⟨hsize, hindex⟩ := (h header (List.mem_filter.mp hheader).1).item items hitems item hitem
  obtain ⟨hheader', hitem'⟩ := decodeObject_header m header item
  refine ⟨?_, ?_⟩
  · rwa [hheader', hitem']
  · rwa [hitem']

/-! ### What a request does to the arm and to the sink -/

namespace Dnp3ControlProcessor
variable (p : Dnp3ControlProcessor)

def sinkCalls : List ControlEvent :=
  p.journal.filter fun
    | .called .. => true
    | .armed _ => false

variable (sink : Dnp3ControlSink)

theorem callSink_keeps (now : ℤ) (command : Dnp3ControlCommand) :
    (p.callSink sink now command).2.armed = p.armed ∧ (p.callSink sink now command).2.config = p.config := by
  unfold callSink
  dsimp only
  split
  · exact ⟨rfl, rfl⟩
  · exact ⟨rfl, rfl⟩
  · cases command <;> exact ⟨rfl, rfl⟩

theorem executeOne_cases (now : ℤ) (d : DecodedObject) :
    (∃ status, p.executeOne sink now d = (status, p) ∧ d.verdict = .error status) ∨
      (∃ command status, p.executeOne sink now d = (status, p) ∧ d.verdict = .ok command ∧ p.preempt now command = some status) ∨
        ∃ command, d.verdict = .ok command ∧ p.preempt now command = none ∧ p.executeOne sink now d = p.callSink sink now command := by
  unfold executeOne
  cases hverdict : d.verdict with
  | error status => exact .inl ⟨status, rfl, rfl⟩
  | ok command =>
    right
    dsimp only
    cases hpreempt : p.preempt now command with
    | some status => exact .inl ⟨command, status, rfl, rfl, hpreempt⟩
    | none => exact .inr ⟨command, rfl, hpreempt, rfl⟩

theorem executeAll_keeps (now : ℤ) (decoded : List DecodedObject) :
    (executeAll sink now p decoded).2.armed = p.armed ∧ (executeAll sink now p decoded).2.config = p.config := by
  induction decoded generalizing p with
  | nil => exact ⟨rfl, rfl⟩
  | cons d rest ih =>
    obtain ⟨harmed, hconfig⟩ := ih (p.executeOne sink now d).2
    rcases executeOne_cases p sink now d with ⟨status, hone, -⟩ | ⟨command, status, hone, -⟩ | ⟨command, -, -, hone⟩
    · rw [hone] at harmed hconfig
      exact ⟨by rw [executeAll, hone, harmed], by rw [executeAll, hone, hconfig]⟩
    · rw [hone] at harmed hconfig
      exact ⟨by rw [executeAll, hone, harmed], by rw [executeAll, hone, hconfig]⟩
    · obtain ⟨harmed', hconfig'⟩ := callSink_keeps p sink now command
      rw [hone] at harmed hconfig
      exact ⟨by rw [executeAll, hone, harmed, harmed'], by rw [executeAll, hone, hconfig, hconfig']⟩

variable (req : ParsedRequest)
variable (decoded : List DecodedObject)

/-- The objects of a request are executed, and not only judged. -/
def Executes (now : ℤ) : Prop :=
  p.writable = true ∧ req.func ≠ FunctionCode.select ∧ (req.func = FunctionCode.operate →
    ∃ armed, p.armed = some armed ∧ armed.isMatch req decoded = true ∧ now - armed.armedAt ≤ p.config.selectTimeoutMs)

theorem resolveStatuses_cases (now : ℤ) :
    (p.Executes req decoded now ∧ ∃ sink, p.sink = some sink ∧ p.resolveStatuses req decoded now = executeAll sink now p.disarm decoded) ∨
      ¬ p.Executes req decoded now ∧ (req.func ≠ FunctionCode.select → ∀ status ∈ (p.resolveStatuses req decoded now).1, status ≠ .success) ∧
        ((p.resolveStatuses req decoded now).2 = p.disarm ∨
          p.writable = true ∧ req.func = FunctionCode.select ∧ (∀ d ∈ decoded, d.rejection = none) ∧
            (p.resolveStatuses req decoded now).2 = p.arm ⟨req.seq, now, canonicalDigest decoded, decoded.filterMap (·.command)⟩) := by
  have hexecute : p.writable = true → ∃ sink, p.sink = some sink ∧ p.disarm.execute decoded now = executeAll sink now p.disarm decoded := by
    intro hwritable
    rw [writable, Bool.and_eq_true] at hwritable
    obtain ⟨sink, hsink⟩ := Option.isSome_iff_exists.mp hwritable.2
    exact ⟨sink, hsink, by simp only [execute, disarm, hsink]⟩
  unfold resolveStatuses Executes
  by_cases hwritable : p.writable = true
  · rw [if_neg (by simp [hwritable])]
    by_cases hselect : req.func = FunctionCode.select
    · right
      rw [if_pos hselect]
      refine ⟨fun h => h.2.1 hselect, fun h => absurd hselect h, ?_⟩
      split_ifs with hinvalid
      · exact .inl rfl
      · refine .inr ⟨hwritable, hselect, fun d hd => ?_, rfl⟩
        by_contra hrejected
        exact hinvalid (List.any_eq_true.mpr ⟨d, hd, Option.isSome_iff_ne_none.mpr hrejected⟩)
    · rw [if_neg hselect]
      by_cases hoperate : req.func = FunctionCode.operate
      · rw [if_pos hoperate]
        cases harmed : p.armed with
        | none =>
          right
          refine ⟨fun h => ?_, fun _ status hstatus => ?_, .inl rfl⟩
          · obtain ⟨_, hcontra, -⟩ := h.2.2 hoperate
            cases hcontra
          · obtain ⟨_, -, rfl⟩ := List.mem_map.mp hstatus
            decide
        | some armed =>
          dsimp only
          split_ifs with hmatch hlate
          · right
            refine ⟨fun h => ?_, fun _ status hstatus => ?_, .inl rfl⟩
            · obtain ⟨_, hsame, hcontra, -⟩ := h.2.2 hoperate
              rw [← Option.some.inj hsame, hmatch] at hcontra
              cases hcontra
            · obtain ⟨_, -, rfl⟩ := List.mem_map.mp hstatus
              decide
          · right
            refine ⟨fun h => ?_, fun _ status hstatus => ?_, .inl rfl⟩
            · obtain ⟨_, hsame, -, hcontra⟩ := h.2.2 hoperate
              rw [← Option.some.inj hsame] at hcontra
              omega
            · obtain ⟨_, -, rfl⟩ := List.mem_map.mp hstatus
              decide
          · left
            exact ⟨⟨hwritable, hselect, fun _ => ⟨armed, rfl, by simpa using hmatch, by omega⟩⟩, hexecute hwritable⟩
      · rw [if_neg hoperate]
        exact .inl ⟨⟨hwritable, hselect, fun h => absurd h hoperate⟩, hexecute hwritable⟩
  · right
    rw [if_pos (by simpa using hwritable)]
    refine ⟨fun h => hwritable h.1, fun _ status hstatus => ?_, .inl rfl⟩
    obtain ⟨_, -, rfl⟩ := List.mem_map.mp hstatus
    decide

theorem resolveStatuses_config (now : ℤ) :
    (p.resolveStatuses req decoded now).2.config = p.config := by
  rcases resolveStatuses_cases p req decoded now with ⟨-, sink, -, heq⟩ | ⟨-, -, heq | ⟨-, -, -, heq⟩⟩
  · rw [heq]
    exact (executeAll_keeps _ sink now decoded).2
  · rw [heq]
    rfl
  · rw [heq]
    rfl

theorem resolveStatuses_armed {p : Dnp3ControlProcessor} {req : ParsedRequest} {decoded : List DecodedObject} {now : ℤ}
    {armed : ArmedSelect} (h : (p.resolveStatuses req decoded now).2.armed = some armed) :
    req.func = FunctionCode.select ∧ (∀ d ∈ decoded, d.rejection = none) ∧ armed.seq = req.seq ∧
      armed.armedAt = now ∧ armed.digest = canonicalDigest decoded := by
  rcases resolveStatuses_cases p req decoded now with ⟨-, sink, -, heq⟩ | ⟨-, -, heq | ⟨-, hselect, hvalid, heq⟩⟩
  · rw [heq, (executeAll_keeps _ sink now decoded).1] at h
    cases h
  · rw [heq] at h
    cases h
  · rw [heq] at h
    obtain rfl := Option.some.inj h
    exact ⟨hselect, hvalid, rfl, rfl, rfl⟩

/-- What is not executed makes no call. -/
theorem resolveStatuses_calls {p : Dnp3ControlProcessor} {req : ParsedRequest} {decoded : List DecodedObject} {now : ℤ}
    (h : ¬ p.Executes req decoded now) : (p.resolveStatuses req decoded now).2.sinkCalls = p.sinkCalls := by
  rcases resolveStatuses_cases p req decoded now with ⟨hexecutes, -⟩ | ⟨-, -, heq | ⟨-, -, -, heq⟩⟩
  · exact absurd hexecutes h
  · rw [heq]
    rfl
  · rw [heq]
    simp [sinkCalls, arm]

/-- The request has a control object that could be decoded, and so reaches `resolveStatuses`. -/
def Reaches (m : Dnp3PointMap) (req : ParsedRequest) : Prop := decodeRequest m req ≠ []

instance (m : Dnp3PointMap) (req : ParsedRequest) : Decidable (Reaches m req) :=
  decidable_of_iff ((decodeRequest m req).length ≠ 0) (by rw [Reaches, ne_eq, List.length_eq_zero_iff])

theorem process_eq (m : Dnp3PointMap) (req : ParsedRequest) (now : ℤ) :
    (p.process m req now).2 =
      if Reaches m req then (p.resolveStatuses req (decodeRequest m req) now).2 else p := by
  unfold process
  by_cases hheaders : controlHeaders req = []
  · have hnone : ¬ Reaches m req := by
      rw [Reaches, decodeRequest, hheaders]
      simp
    rw [if_pos hheaders, if_neg hnone]
  · rw [if_neg hheaders]
    dsimp only
    by_cases hempty : (decodeRequest m req).length = 0
    · have hnone : ¬ Reaches m req := by
        rw [Reaches, not_not]
        exact List.length_eq_zero_iff.mp hempty
      rw [if_pos hempty, if_neg hnone]
    · have hsome : Reaches m req := fun h => hempty (List.length_eq_zero_iff.mpr h)
      rw [if_neg hempty, if_pos hsome]

end Dnp3ControlProcessor

/-! ### Runs -/

open Dnp3ControlProcessor

/-- What has happened to a processor: a request that reached `resolveStatuses`, or a disarm. -/
inductive ControlRecord where
  | resolved (req : ParsedRequest) (now : ℤ)
  | disarmed

structure ControlRun where
  processor : Dnp3ControlProcessor
  history : List ControlRecord := []

inductive ControlAct where
  | process (fragment : Buffer) (now : ℤ)
  | disarm

def controlStep (m : Dnp3PointMap) (s : ControlRun) : ControlAct → Option ControlRun
  | .process fragment now =>
    match parseRequest fragment with
    | .error _ => none
    | .ok req =>
      some {
        processor := (s.processor.process m req now).2
        history := if Reaches m req then .resolved req now :: s.history else s.history }
  | .disarm => some { processor := s.processor.disarm, history := .disarmed :: s.history }

/-- What is armed is the newest record, which is a valid SELECT. -/
structure ArmedIsNewest (m : Dnp3PointMap) (config : Dnp3ControlConfig) (s : ControlRun) : Prop where
  config : s.processor.config = config
  newest : ∀ armed ∈ s.processor.armed, ∃ req now rest, s.history = .resolved req now :: rest ∧
    req.func = FunctionCode.select ∧ (∀ d ∈ decodeRequest m req, d.rejection = none) ∧ armed.seq = req.seq ∧
    armed.armedAt = now ∧ armed.digest = canonicalDigest (decodeRequest m req) ∧
    ∀ header ∈ req.objects, header.Sized

theorem controlStep_armedIsNewest {m : Dnp3PointMap} {config : Dnp3ControlConfig} {s s' : ControlRun} {a : ControlAct}
    (h : ArmedIsNewest m config s) (hstep : controlStep m s a = some s') : ArmedIsNewest m config s' := by
  cases a with
  | process fragment now =>
    simp only [controlStep] at hstep
    split at hstep
    · cases hstep
    · rename_i req hparse
      obtain rfl := Option.some.inj hstep
      rw [process_eq]
      by_cases hreach : Reaches m req
      · rw [if_pos hreach, if_pos hreach]
        refine ⟨(resolveStatuses_config ..).trans h.config, fun armed harmed => ?_⟩
        obtain ⟨hselect, hvalid, hseq, hat, hdigest⟩ := resolveStatuses_armed harmed
        exact ⟨req, now, s.history, rfl, hselect, hvalid, hseq, hat, hdigest, parseRequest_sized hparse⟩
      · rw [if_neg hreach, if_neg hreach]
        exact ⟨h.config, h.newest⟩
  | disarm =>
    obtain rfl := Option.some.inj hstep
    exact ⟨h.config, fun armed harmed => by cases harmed⟩

/-- When an OPERATE reaches the sink, the last thing that happened to the processor is a SELECT
of the same objects, all of them valid, with the sequence number before, and recent enough. A
SELECT never reaches the sink. -/
theorem select_before_operate {m : Dnp3PointMap} {config : Dnp3ControlConfig} {sink : Option Dnp3ControlSink}
    {s : ControlRun} (hrun : Reachable (controlStep m) (fun _ _ => True) ⟨{ config, sink }, []⟩ s) {fragment : Buffer}
    {req : ParsedRequest} (hparse : parseRequest fragment = .ok req) (now : ℤ) :
    (req.func = FunctionCode.operate → (s.processor.process m req now).2.sinkCalls ≠ s.processor.sinkCalls →
      ∃ selected at₀ rest, s.history = .resolved selected at₀ :: rest ∧ selected.func = FunctionCode.select ∧
        (∀ d ∈ decodeRequest m selected, d.rejection = none) ∧ selected.seq = (req.seq + 15) % 16 ∧
        (decodeRequest m selected).map (·.target) = (decodeRequest m req).map (·.target) ∧
        now - at₀ ≤ config.selectTimeoutMs) ∧
      (req.func = FunctionCode.select → (s.processor.process m req now).2.sinkCalls = s.processor.sinkCalls) := by
  have hstart : ArmedIsNewest m config ⟨{ config, sink }, []⟩ := ⟨rfl, fun armed harmed => by cases harmed⟩
  have hs := hrun.invariant hstart fun _ _ _ h _ hstep => controlStep_armedIsNewest h hstep
  rw [process_eq]
  by_cases hreach : Reaches m req
  · rw [if_pos hreach]
    refine ⟨fun hoperate hcalls => ?_, fun hselect => resolveStatuses_calls fun hexecutes => hexecutes.2.1 hselect⟩
    have hexecutes := not_imp_comm.mp resolveStatuses_calls hcalls
    obtain ⟨armed, harmed, hmatch, hrecent⟩ := hexecutes.2.2 hoperate
    obtain ⟨hseq, hdigest⟩ : armed.seq = (req.seq + 15) % 16 ∧ armed.digest = canonicalDigest (decodeRequest m req) := by
      simpa [ArmedSelect.isMatch] using hmatch
    obtain ⟨selected, at₀, rest, hhistory, hselect, hvalid, hseq', hat, hdigest', hsized⟩ := hs.newest armed harmed
    refine ⟨selected, at₀, rest, hhistory, hselect, hvalid, hseq'.symm.trans hseq, ?_, ?_⟩
    · exact canonicalDigest_inj (decodeRequest_sized hsized) (decodeRequest_sized (parseRequest_sized hparse))
        (hdigest'.symm.trans hdigest)
    · rwa [← hat, ← hs.config]
  · rw [if_neg hreach]
    exact ⟨fun _ hcalls => absurd rfl hcalls, fun _ => rfl⟩

def coilObjects : Buffer := [12, 1, 0x28, 1, 0, 3, 0, 0x03, 1, 0, 0, 0, 0, 0, 0, 0, 0, 0]

instance sequenceNumbers_neZero : NeZero 16 := ⟨by decide⟩

def coilRequest (seq : Fin 16) (func : UInt8) : ParsedRequest where
  appControl := 0xc0 ||| UInt8.ofNat seq
  fir := true
  fin := true
  con := false
  uns := false
  seq := seq
  func := func
  objects := [{
    group := 12
    variation := 1
    qualifier := 0x28
    count := some 1
    items := some [⟨3, [0x03, 1, 0, 0, 0, 0, 0, 0, 0, 0, 0]⟩] }]
  objectsComplete := true
  rawObjects := coilObjects
  raw := [0xc0 ||| UInt8.ofNat seq, func] ++ coilObjects

theorem parseRequest_coil (seq : Fin 16) (func : UInt8) :
    parseRequest ([0xc0 ||| UInt8.ofNat seq, func] ++ coilObjects) = .ok (coilRequest seq func) := by
  fin_cases seq <;> rfl

def coilMap : Dnp3PointMap where
  points := [⟨{ tagId := "coil", type := .binaryOutput, index := 3 }, ⟨.boolean false, .bad, 0⟩⟩]

def openProcessor : Dnp3ControlProcessor where
  config := { enabled := true }
  sink := some fun _ _ => .ok

/-- A SELECT of the coil, and its OPERATE one second later. -/
theorem select_before_operate_coil :
    ∃ s, Reachable (controlStep coilMap) (fun _ _ => True) ⟨openProcessor, []⟩ s ∧
      (s.processor.process coilMap (coilRequest 2 FunctionCode.operate) 1000).2.sinkCalls ≠ s.processor.sinkCalls ∧
      ∃ selected at₀ rest, s.history = .resolved selected at₀ :: rest ∧ selected.seq = 1 ∧
        (1000 : ℤ) - at₀ ≤ 5000 := by
  have hexec : exec (controlStep coilMap) ⟨openProcessor, []⟩ [.process ([0xc1, 0x03] ++ coilObjects) 0] =
      some ⟨(openProcessor.process coilMap (coilRequest 1 FunctionCode.select) 0).2,
        [.resolved (coilRequest 1 FunctionCode.select) 0]⟩ := rfl
  have hrun := Reachable.of_exec .start _ (fun _ _ _ => trivial) hexec
  have hcalls : ((openProcessor.process coilMap (coilRequest 1 FunctionCode.select) 0).2.process coilMap
      (coilRequest 2 FunctionCode.operate) 1000).2.sinkCalls ≠
      (openProcessor.process coilMap (coilRequest 1 FunctionCode.select) 0).2.sinkCalls := by decide
  have hparse := parseRequest_coil 2 FunctionCode.operate
  obtain ⟨selected, at₀, rest, hhistory, -, -, hseq, -, hrecent⟩ :=
    (select_before_operate hrun hparse 1000).1 rfl hcalls
  exact ⟨_, hrun, hcalls, selected, at₀, rest, hhistory, hseq, hrecent⟩

end OxScada.Dnp3
