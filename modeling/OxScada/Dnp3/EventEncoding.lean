import OxScada.Dnp3.EventObjects

/-! The event encoder takes as many events from the front as it has room for, never more
octets than that, and at least one event if the room is twenty octets. -/

namespace OxScada.Dnp3
open OxScada.Bytes OxScada.Js

theorem writeChecked_ok {width n : ℕ} (h : n < 256 ^ width) :
    writeChecked width n = .ok (writeUIntLE width n) := by
  rw [writeChecked, if_pos h]

namespace EventDescriptor
variable (d : EventDescriptor)

theorem prefixLen_pos : 1 ≤ d.prefixLen ∧ d.prefixLen ≤ 2 := by
  unfold prefixLen
  split_ifs <;> decide

theorem maxCount_pos : 0 < d.maxCount := by
  unfold maxCount
  split_ifs <;> decide

theorem index_lt {d first : EventDescriptor} (hindex : d.index ≤ 0xffff) (hsame : d.twoOctet = first.twoOctet) :
    d.index < 256 ^ first.prefixLen := by
  unfold prefixLen
  rw [← hsame, twoOctet]
  by_cases hwide : 0xff < d.index
  · rw [if_pos (by simpa using hwide)]
    exact Nat.lt_of_le_of_lt hindex (by decide)
  · rw [if_neg (by simpa using hwide)]
    exact Nat.lt_of_le_of_lt (not_lt.mp hwide) (by decide)

theorem timeField_length {d : EventDescriptor} {base : Float} {field : Buffer} (h : d.timeField base = some field) :
    field.length = timeFieldLength d.timeMode := by
  unfold timeField at h
  split at h
  · rename_i hmode
    obtain rfl := Option.some.inj h
    rw [hmode]
    exact writeIntLE_length ..
  · rename_i hmode
    dsimp only at h
    split_ifs at h
    obtain rfl := Option.some.inj h
    rw [hmode]
    exact writeIntLE_length ..
  · rename_i hmode
    obtain rfl := Option.some.inj h
    rw [hmode]
    rfl

theorem timeField_self : ∃ field, d.timeField d.timestamp = some field := by
  unfold timeField
  split
  · exact ⟨_, rfl⟩
  · have hwithin : ¬ (d.timestamp - d.timestamp < 0 ∨ 0xffff < d.timestamp - d.timestamp) :=
      not_or.mpr (sub_self_within d.timestamp)
    dsimp only
    rw [if_neg hwithin]
    exact ⟨_, rfl⟩
  · exact ⟨_, rfl⟩

end EventDescriptor

variable {maxBytes : ℕ}

/-- What a run is: events from the front, within the octets it may take. -/
def EventRun.FrontOf (run : EventRun) (maxBytes taken : ℕ) (ds : List EventDescriptor) : Prop :=
  ∃ done, ds = done ++ run.rest ∧ run.seqs = done.map (·.seq) ∧
    (taken ≤ maxBytes → taken + run.octets.length ≤ maxBytes)

variable (first : EventDescriptor)

theorem collectRun_ok {ds : List EventDescriptor} (hds : ∀ d ∈ ds, d.index ≤ 0xffff)
    (taken count : ℕ) :
    ∃ run, collectRun first maxBytes taken count ds = .ok run ∧ run.FrontOf maxBytes taken ds := by
  induction ds generalizing taken count with
  | nil => exact ⟨⟨[], [], []⟩, rfl, [], rfl, rfl, id⟩
  | cons d rest ih =>
    have hstop : EventRun.FrontOf ⟨[], [], d :: rest⟩ maxBytes taken (d :: rest) := ⟨[], rfl, rfl, id⟩
    unfold collectRun
    split_ifs with hbreak
    · exact ⟨_, rfl, hstop⟩
    · split
      · exact ⟨_, rfl, hstop⟩
      · rename_i field hfield
        dsimp only
        split_ifs with hroom
        · exact ⟨_, rfl, hstop⟩
        · simp only [not_or, not_not] at hbreak
          have hindex := EventDescriptor.index_lt (hds d (List.mem_cons_self ..)) hbreak.2.2.2
          obtain ⟨run, hrun, done, hrest, hseqs, hlength⟩ := ih (fun d' hd' => hds d' (List.mem_cons_of_mem d hd'))
            (taken + (first.prefixLen + d.core.length + field.length)) (count + 1)
          rw [writeChecked_ok hindex, hrun]
          refine ⟨_, rfl, d :: done, by rw [hrest]; rfl, by rw [List.map_cons, ← hseqs], fun _ => ?_⟩
          have hlater := hlength (not_lt.mp hroom)
          simp only [List.length_append, writeUIntLE_length]
          omega

theorem collectRun_first {first : EventDescriptor} {rest : List EventDescriptor} {taken : ℕ} {run : EventRun}
    (hroom : taken + first.itemLen ≤ maxBytes)
    (h : collectRun first maxBytes taken 0 (first :: rest) = .ok run) : run.seqs ≠ [] := by
  obtain ⟨field, hfield⟩ := first.timeField_self
  have hlength := EventDescriptor.timeField_length hfield
  have hcount := first.maxCount_pos
  have hbreak : ¬ (first.maxCount ≤ 0 ∨ first.group ≠ first.group ∨ first.variation ≠ first.variation ∨
      first.twoOctet ≠ first.twoOctet) := by
    simp only [ne_eq, not_true_eq_false, or_false]
    omega
  have hfits : ¬ maxBytes < taken + (first.prefixLen + first.core.length + field.length) := by
    rw [hlength]
    exact not_lt.mpr hroom
  rw [collectRun, if_neg hbreak, hfield] at h
  dsimp only at h
  rw [if_neg hfits] at h
  rcases hindexed : writeChecked first.prefixLen first.index with e | indexed
  · rw [hindexed] at h
    cases h
  · rw [hindexed] at h
    rcases hlater : collectRun first maxBytes (taken + (first.prefixLen + first.core.length + field.length)) (0 + 1)
        rest with e | later
    · rw [hlater] at h
      cases h
    · rw [hlater] at h
      obtain rfl := Except.ok.inj h
      exact List.cons_ne_nil _ _

/-! ### The outer loop -/

def runOctets (run : EventRun) : Buffer :=
  first.cto ++ ([first.group, first.variation, if first.twoOctet then 0x28 else 0x17] ++
    writeUIntLE first.prefixLen run.seqs.length) ++ run.octets

theorem runOctets_length (run : EventRun) :
    (runOctets first run).length = first.cto.length + first.headerLen + run.octets.length := by
  simp only [runOctets, List.length_append, List.length_cons, List.length_nil, writeUIntLE_length,
    EventDescriptor.headerLen]

variable {rounds used : ℕ} {first : EventDescriptor} {rest : List EventDescriptor} {run : EventRun}

theorem encodeRuns_run (hroom : used + first.cto.length + first.headerLen + first.itemLen ≤ maxBytes)
    (hrun : collectRun first maxBytes (used + first.cto.length + first.headerLen) 0 (first :: rest) = .ok run) :
    encodeRuns maxBytes (rounds + 1) used (first :: rest) =
      if run.seqs = [] then .ok ([], [])
      else
        (encodeRuns maxBytes rounds (used + first.cto.length + first.headerLen + run.octets.length) run.rest).map
          fun later => (runOctets first run ++ later.1, run.seqs ++ later.2) := by
  simp only [encodeRuns, if_neg (not_lt.mpr hroom), hrun]
  simp only [bind, Except.bind, pure, Except.pure]
  by_cases hempty : run.seqs = []
  · rw [if_pos hempty, if_pos hempty]
  · rw [if_neg hempty, if_neg hempty]
    split
    · rename_i hlater
      rw [hlater]
      rfl
    · rename_i hlater
      rw [hlater]
      rfl

theorem encodeRuns_ok (rounds : ℕ) {ds : List EventDescriptor} (hds : ∀ d ∈ ds, d.index ≤ 0xffff) (used : ℕ) :
    ∃ encoded, encodeRuns maxBytes rounds used ds = .ok encoded ∧ encoded.2 <+: ds.map (·.seq) ∧
      (used ≤ maxBytes → used + encoded.1.length ≤ maxBytes) ∧ (encoded.2 ≠ [] → encoded.1 ≠ []) := by
  induction rounds generalizing ds used with
  | zero => exact ⟨([], []), rfl, List.nil_prefix, id, fun h => absurd rfl h⟩
  | succ rounds ih =>
    cases ds with
    | nil => exact ⟨([], []), rfl, List.nil_prefix, id, fun h => absurd rfl h⟩
    | cons first rest =>
      by_cases hroom : used + first.cto.length + first.headerLen + first.itemLen ≤ maxBytes
      · obtain ⟨run, hrun, done, hrest, hseqs, hlength⟩ :=
          collectRun_ok first hds (used + first.cto.length + first.headerLen) 0
        rw [encodeRuns_run hroom hrun]
        by_cases hempty : run.seqs = []
        · rw [if_pos hempty]
          exact ⟨([], []), rfl, List.nil_prefix, id, fun h => absurd rfl h⟩
        · have hmem : ∀ d ∈ run.rest, d.index ≤ 0xffff := by
            intro d hd
            apply hds
            rw [hrest]
            exact List.mem_append_right done hd
          obtain ⟨later, hlater, hprefix, hbound, -⟩ :=
            ih hmem (used + first.cto.length + first.headerLen + run.octets.length)
          have hoctets := runOctets_length first run
          have hprefixLen : 3 ≤ first.headerLen := Nat.le_add_right 3 _
          rw [if_neg hempty, hlater]
          refine ⟨_, rfl, ?_, fun _ => ?_, fun _ hnil => ?_⟩
          · rw [hrest, List.map_append, ← hseqs]
            exact (List.prefix_append_right_inj run.seqs).mpr hprefix
          · have hwithin := hbound (hlength (by omega))
            rw [List.length_append]
            omega
          · have hlen := congrArg List.length (List.append_eq_nil_iff.mp hnil).1
            rw [hoctets, List.length_nil] at hlen
            omega
      · refine ⟨([], []), ?_, List.nil_prefix, id, fun h => absurd rfl h⟩
        simp only [encodeRuns, if_pos (not_le.mp hroom)]

theorem encodeRuns_first {encoded : Buffer × List ℕ}
    (hroom : used + first.cto.length + first.headerLen + first.itemLen ≤ maxBytes)
    (hindex : ∀ d ∈ first :: rest, d.index ≤ 0xffff)
    (h : encodeRuns maxBytes (rounds + 1) used (first :: rest) = .ok encoded) : encoded.2 ≠ [] := by
  obtain ⟨run, hrun, -⟩ := collectRun_ok first hindex (used + first.cto.length + first.headerLen) 0
  have hseqs := collectRun_first hroom hrun
  rw [encodeRuns_run hroom hrun, if_neg hseqs] at h
  rcases hlater : encodeRuns maxBytes rounds (used + first.cto.length + first.headerLen + run.octets.length)
      run.rest with e | later
  · rw [hlater] at h
    cases h
  · rw [hlater] at h
    obtain rfl := Except.ok.inj h
    exact fun hnil => hseqs (List.append_eq_nil_iff.mp hnil).1

/-! ### Events of mapped points -/

/-- An event of a point that the map has, with an index of two octets. -/
structure Dnp3Event.Mapped (m : Dnp3PointMap) (e : Dnp3Event) : Prop where
  point : (m.getPoint e.pointType e.index).isSome
  index : e.index ≤ 0xffff

theorem describeEvent_seq (e : Dnp3Event) (encoding : AnalogEncoding) (policy : EventVariationPolicy) :
    (describeEvent e encoding policy).seq = e.seq ∧ (describeEvent e encoding policy).index = e.index := by
  unfold describeEvent
  dsimp only
  split <;> exact ⟨rfl, rfl⟩

theorem describeEvent_small (e : Dnp3Event) (encoding : AnalogEncoding) (policy : EventVariationPolicy) :
    (describeEvent e encoding policy).core.length ≤ 5 ∧
      ((describeEvent e encoding policy).timeMode = .relative → (describeEvent e encoding policy).core.length = 1) := by
  unfold describeEvent
  dsimp only
  split
  · exact ⟨by simp, fun _ => rfl⟩
  · exact ⟨by simp, fun _ => rfl⟩
  · refine ⟨by simp [writeIntLE_length], fun hmode => ?_⟩
    cases hcounter : policy.counter <;> rw [hcounter] at hmode <;> cases hmode
  all_goals
    refine ⟨?_, fun hmode => ?_⟩
    · cases encoding <;> simp [writeIntLE_length, writeFloatLE_length]
    · cases hanalog : policy.analog <;> rw [hanalog] at hmode <;> cases hmode

theorem describeEvent_fits (e : Dnp3Event) (encoding : AnalogEncoding) (policy : EventVariationPolicy) :
    (describeEvent e encoding policy).cto.length + (describeEvent e encoding policy).headerLen +
      (describeEvent e encoding policy).itemLen ≤ 20 := by
  obtain ⟨hcore, hrelative⟩ := describeEvent_small e encoding policy
  obtain ⟨-, hprefix⟩ := (describeEvent e encoding policy).prefixLen_pos
  unfold EventDescriptor.cto EventDescriptor.headerLen EventDescriptor.itemLen
  cases hmode : (describeEvent e encoding policy).timeMode with
  | none | absolute =>
    simp only [timeFieldLength, reduceCtorEq, if_false, List.length_nil]
    omega
  | relative =>
    have hone := hrelative hmode
    simp only [timeFieldLength, if_true, buildCtoObject, encodeDnp3Time, List.length_append, List.length_cons,
      List.length_nil, writeIntLE_length]
    omega

theorem describeEvents_mapped {m : Dnp3PointMap} (policy : EventVariationPolicy) {events : List Dnp3Event}
    (h : ∀ e ∈ events, e.Mapped m) :
    describeEvents m policy events = events.map fun e =>
      describeEvent e (((m.getPoint e.pointType e.index).bind (·.encoding)).getD .float32) policy := by
  induction events with
  | nil => rfl
  | cons e rest ih =>
    have hpoint := (h e (List.mem_cons_self ..)).point
    rw [describeEvents, List.map_cons, ih fun e' he' => h e' (List.mem_cons_of_mem e he')]
    rw [if_neg]
    rintro ⟨-, hnone⟩
    rw [Option.isNone_iff_eq_none] at hnone
    rw [hnone] at hpoint
    cases hpoint

theorem buildEventObjects_ok {m : Dnp3PointMap} (policy : EventVariationPolicy) (maxBytes : ℕ) {events : List Dnp3Event}
    (h : ∀ e ∈ events, e.Mapped m) :
    ∃ encoded, buildEventObjects m policy maxBytes events = .ok encoded ∧ encoded.bytes.length ≤ maxBytes ∧
      encoded.encodedSeqs <+: events.map (·.seq) ∧ (encoded.encodedSeqs ≠ [] → encoded.bytes ≠ []) ∧
      (20 ≤ maxBytes → events ≠ [] → encoded.encodedSeqs ≠ []) := by
  have hdescribed := describeEvents_mapped policy h
  have hindex : ∀ d ∈ describeEvents m policy events, d.index ≤ 0xffff := by
    rw [hdescribed]
    intro d hd
    obtain ⟨e, he, rfl⟩ := List.mem_map.mp hd
    rw [(describeEvent_seq ..).2]
    exact (h e he).index
  have hseqs : (describeEvents m policy events).map (·.seq) = events.map (·.seq) := by
    rw [hdescribed, List.map_map]
    exact List.map_congr_left fun e _ => (describeEvent_seq ..).1
  obtain ⟨encoded, hencoded, hprefix, hlength, hbytes⟩ :=
    encodeRuns_ok (describeEvents m policy events).length hindex 0
  rw [buildEventObjects, hencoded]
  refine ⟨_, rfl, ?_, ?_, hbytes, fun hmax hevents => ?_⟩
  · simpa using hlength (Nat.zero_le maxBytes)
  · rw [← hseqs]
    exact hprefix
  · obtain ⟨e, rest, rfl⟩ := List.exists_cons_of_ne_nil hevents
    rw [hdescribed, List.map_cons] at hencoded hindex
    refine encodeRuns_first ?_ hindex hencoded
    have hfits := describeEvent_fits e (((m.getPoint e.pointType e.index).bind (·.encoding)).getD .float32) policy
    omega

end OxScada.Dnp3
