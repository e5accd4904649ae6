import OxScada.Dnp3.OutstationRuns

/-! A class poll reports every event of the classes it asks for, each of them once and in
order, in fragments that are no longer than allowed. -/

namespace OxScada.Dnp3
open OxScada.Bytes OxScada.Js OxScada.Runs

/-! ### Static blocks -/

/-- The fragments of a poll so far: within the budget, and empty only without events. -/
structure PackedFragment.Within (budget : ℕ) (frag : PackedFragment) : Prop where
  used : frag.used ≤ budget
  events : frag.used = 0 → frag.eventSeqs = []

theorem PackedFragment.Within.empty (budget : ℕ) : PackedFragment.Within budget {} := ⟨Nat.zero_le budget, fun _ => rfl⟩

theorem PackedFragment.used_append (blocks : List Buffer) (block : Buffer) (seqs : List ℕ) :
    PackedFragment.used ⟨blocks ++ [block], seqs⟩ = PackedFragment.used ⟨blocks, seqs⟩ + block.length := by
  simp [used]

variable {current : PackedFragment} {packed : List PackedFragment}

theorem packStatic_within {budget : ℕ} {blocks : List Buffer} (hblocks : ∀ block ∈ blocks, block.length ≤ budget)
    (h : ∀ frag ∈ packed ++ [current], frag.used ≤ budget ∧ frag.eventSeqs = []) :
    ∀ frag ∈ (packStatic budget packed current blocks).1 ++ [(packStatic budget packed current blocks).2],
      frag.used ≤ budget ∧ frag.eventSeqs = [] := by
  induction blocks generalizing packed current with
  | nil => exact h
  | cons block rest ih =>
    have hblock : block.length ≤ budget := hblocks block (List.mem_cons_self ..)
    have hrest : ∀ b ∈ rest, b.length ≤ budget := fun b hb => hblocks b (List.mem_cons_of_mem block hb)
    have hcurrent := h current (by simp)
    have hpacked : ∀ frag ∈ packed, frag.used ≤ budget ∧ frag.eventSeqs = [] :=
      fun frag hfrag => h frag (List.mem_append_left _ hfrag)
    unfold packStatic
    split_ifs with hfull
    · apply ih hrest
      intro frag hfrag
      rcases List.mem_append.mp hfrag with hold | hnew
      · exact h frag hold
      · rw [List.mem_singleton.mp hnew]
        exact ⟨by simpa [PackedFragment.used] using hblock, rfl⟩
    · apply ih hrest
      intro frag hfrag
      rcases List.mem_append.mp hfrag with hold | hnew
      · exact hpacked frag hold
      · rw [List.mem_singleton.mp hnew]
        refine ⟨?_, hcurrent.2⟩
        rw [PackedFragment.used_append]
        have hused : PackedFragment.used ⟨current.blocks, current.eventSeqs⟩ = current.used := rfl
        omega

/-! ### Events -/

variable {m : Dnp3PointMap} {budget : ℕ}

/-- The rounds that events need: one to begin a fragment and one to fill it, each time. -/
def roundsNeeded (current : PackedFragment) (pending : List Dnp3Event) : ℕ :=
  2 * pending.length - if current.used = 0 then 1 else 0

theorem roundsNeeded_empty (pending : List Dnp3Event) : roundsNeeded {} pending = 2 * pending.length - 1 := rfl

theorem roundsNeeded_le (current : PackedFragment) (pending : List Dnp3Event) :
    roundsNeeded current pending ≤ 2 * pending.length := Nat.sub_le _ _

theorem roundsNeeded_ge (current : PackedFragment) (pending : List Dnp3Event) :
    2 * pending.length - 1 ≤ roundsNeeded current pending := by
  unfold roundsNeeded
  split_ifs
  · exact le_rfl
  · exact Nat.sub_le _ _

theorem PackedFragment.Within.begin (h : ∀ frag ∈ packed, frag.Within budget) :
    ∀ frag ∈ packed ++ [({} : PackedFragment)], frag.Within budget := by
  intro frag hfrag
  rcases List.mem_append.mp hfrag with hold | hnew
  · exact h frag hold
  · rw [List.mem_singleton.mp hnew]
    exact .empty budget

theorem PackedFragment.Within.join (h : current.Within budget) {encoded : EventEncodeResult}
    (hlength : encoded.bytes.length ≤ budget - current.used)
    (hbytes : encoded.bytes ≠ []) :
    PackedFragment.Within budget ⟨current.blocks ++ [encoded.bytes], current.eventSeqs ++ encoded.encodedSeqs⟩ := by
  have hused : PackedFragment.used ⟨current.blocks ++ [encoded.bytes], current.eventSeqs ++ encoded.encodedSeqs⟩ =
      current.used + encoded.bytes.length := PackedFragment.used_append ..
  have hfits := h.used
  constructor
  · rw [hused]
    omega
  · intro hzero
    rw [hused, Nat.add_eq_zero_iff, List.length_eq_zero_iff] at hzero
    exact absurd hzero.2 hbytes

theorem flatMap_eventSeqs_begin (packed : List PackedFragment) :
    (packed ++ [({} : PackedFragment)]).flatMap (·.eventSeqs) = packed.flatMap (·.eventSeqs) := by
  rw [List.flatMap_append]
  exact List.append_nil _

theorem packEvents_ok (policy : EventVariationPolicy) (hbudget : 20 ≤ budget) (rounds : ℕ)
    {pending : List Dnp3Event} (hmapped : ∀ e ∈ pending, e.Mapped m)
    (hrounds : roundsNeeded current pending ≤ rounds)
    (hwithin : ∀ frag ∈ packed ++ [current], frag.Within budget) :
    ∃ result, packEvents m policy budget rounds packed current pending = .ok result ∧
      (∀ frag ∈ result.1 ++ [result.2], frag.Within budget) ∧
      (result.1 ++ [result.2]).flatMap (·.eventSeqs) =
        (packed ++ [current]).flatMap (·.eventSeqs) ++ pending.map (·.seq) := by
  induction rounds generalizing packed current pending with
  | zero =>
    cases pending with
    | nil => exact ⟨(packed, current), rfl, hwithin, by simp⟩
    | cons event rest =>
      have hneeded := roundsNeeded_ge current (event :: rest)
      rw [List.length_cons] at hneeded
      omega
  | succ rounds ih =>
    cases pending with
    | nil => exact ⟨(packed, current), rfl, hwithin, by simp⟩
    | cons event rest =>
      have hcurrent : current.Within budget := hwithin current (by simp)
      have hpacked : ∀ frag ∈ packed, frag.Within budget := fun frag hfrag => hwithin frag (List.mem_append_left _ hfrag)
      obtain ⟨encoded, hencoded, hlength, hprefix, hbytes, hfirst⟩ :=
        buildEventObjects_ok policy (budget - current.used) hmapped
      rw [packEvents]
      simp only [hencoded, bind, Except.bind, pure, Except.pure]
      -- nothing fits into what is left of a fragment only if it holds something already
      by_cases hnone : encoded.encodedSeqs = []
      · have hused : current.used ≠ 0 := by
          intro hzero
          exact hfirst (by omega) (List.cons_ne_nil _ _) hnone
        rw [if_pos hnone, if_neg hused]
        rw [roundsNeeded, if_neg hused] at hrounds
        have hrounds' : roundsNeeded {} (event :: rest) ≤ rounds := by
          rw [roundsNeeded_empty]
          omega
        obtain ⟨result, hresult, hwithin', hseqs⟩ := ih hmapped hrounds' (PackedFragment.Within.begin hwithin)
        refine ⟨result, hresult, hwithin', ?_⟩
        rw [hseqs, flatMap_eventSeqs_begin]
      · rw [if_neg hnone]
        have hjoined := hcurrent.join hlength (hbytes hnone)
        have hwithin' : ∀ frag ∈ packed ++
            [(⟨current.blocks ++ [encoded.bytes], current.eventSeqs ++ encoded.encodedSeqs⟩ : PackedFragment)],
            frag.Within budget := by
          intro frag hfrag
          rcases List.mem_append.mp hfrag with hold | hnew
          · exact hpacked frag hold
          · rw [List.mem_singleton.mp hnew]
            exact hjoined
        have hsplit : encoded.encodedSeqs ++ ((event :: rest).drop encoded.encodedSeqs.length).map (·.seq) =
            (event :: rest).map (·.seq) := by
          rw [List.map_drop]
          nth_rewrite 1 [List.prefix_iff_eq_take.mp hprefix]
          exact List.take_append_drop _ _
        split
        · rename_i hdrop
          rw [hdrop, List.map_nil, List.append_nil] at hsplit
          refine ⟨_, rfl, hwithin', ?_⟩
          simp only [List.flatMap_append, List.flatMap_cons, List.flatMap_nil, List.append_nil, List.append_assoc, hsplit]
        · rename_i hdrop
          have hpos : 0 < encoded.encodedSeqs.length := List.length_pos_iff.mpr hnone
          have hmapped' : ∀ e ∈ (event :: rest).drop encoded.encodedSeqs.length, e.Mapped m :=
            fun e he => hmapped e (List.mem_of_mem_drop he)
          have hrounds' : roundsNeeded {} ((event :: rest).drop encoded.encodedSeqs.length) ≤ rounds := by
            have hneeded := roundsNeeded_ge current (event :: rest)
            rw [roundsNeeded_empty, List.length_drop]
            rw [List.length_cons] at hneeded ⊢
            omega
          obtain ⟨result, hresult, hwithin'', hseqs⟩ := ih hmapped' hrounds' (PackedFragment.Within.begin hwithin')
          refine ⟨result, hresult, hwithin'', ?_⟩
          rw [hseqs, flatMap_eventSeqs_begin, ← hsplit]
          simp only [List.flatMap_append, List.flatMap_cons, List.flatMap_nil, List.append_nil, List.append_assoc]

/-! ### A poll -/

theorem mem_peek {b : Dnp3EventBuffer} {classes : List EventClass} {e : Dnp3Event} (h : e ∈ b.peek classes) :
    ∃ cls ∈ classes, e ∈ (b.queues cls).events := by
  rw [Dnp3EventBuffer.peek, List.mem_insertionSort] at h
  exact List.mem_flatMap.mp h

theorem packPoll_ok {ctx : OutstationContext} (hmax : 64 ≤ ctx.maxTxFragmentSize)
    (hmapped : ∀ cls, ∀ e ∈ (ctx.eventBuffer.queues cls).events, e.Mapped ctx.pointMap) (targets : ClassTargets) :
    ∃ packed, packPoll ctx targets = .ok packed ∧ packed ≠ [] ∧ (∀ frag ∈ packed, frag.used ≤ fragmentBudget ctx) ∧
      packed.flatMap (·.eventSeqs) = (ctx.eventBuffer.peek (requestedClasses targets)).map (·.seq) := by
  have hbudget : 60 ≤ fragmentBudget ctx := by
    unfold fragmentBudget appHeaderLen
    omega
  have hblocks : ∀ block ∈ (if wantStatic targets then buildClass0Blocks ctx.pointMap (fragmentBudget ctx) else []),
      block.length ≤ fragmentBudget ctx := by
    intro block hblock
    split_ifs at hblock
    · exact (buildClass0Blocks_length (Dnp3PointMap.hasRoom (by omega) _) block hblock).2
    · exact absurd hblock List.not_mem_nil
  have hfresh : ∀ frag ∈ ([] : List PackedFragment) ++ [({} : PackedFragment)],
      frag.used ≤ fragmentBudget ctx ∧ frag.eventSeqs = [] := by
    intro frag hfrag
    rw [List.mem_singleton.mp hfrag]
    exact ⟨Nat.zero_le _, rfl⟩
  have hstatic := packStatic_within hblocks hfresh
  set static := packStatic (fragmentBudget ctx) [] {}
    (if wantStatic targets then buildClass0Blocks ctx.pointMap (fragmentBudget ctx) else []) with hpacked
  have hquiet : (static.1 ++ [static.2]).flatMap (·.eventSeqs) = [] :=
    List.flatMap_eq_nil_iff.mpr fun frag hfrag => (hstatic frag hfrag).2
  have hpending : ∀ e ∈ ctx.eventBuffer.peek (requestedClasses targets), e.Mapped ctx.pointMap := by
    intro e he
    obtain ⟨cls, -, he⟩ := mem_peek he
    exact hmapped cls e he
  obtain ⟨⟨packed, current⟩, hresult, hwithin, hseqs⟩ := packEvents_ok ctx.eventVariations (by omega) _ hpending
    (roundsNeeded_le static.2 _) fun frag hfrag => ⟨(hstatic frag hfrag).1, fun _ => (hstatic frag hfrag).2⟩
  rw [hquiet, List.nil_append] at hseqs
  simp only [packPoll, ← hpacked, hresult, bind, Except.bind, pure, Except.pure]
  split_ifs with hlast
  · exact ⟨_, rfl, by simp, fun frag hfrag => (hwithin frag hfrag).used, hseqs⟩
  · rw [not_or, not_lt, Nat.le_zero] at hlast
    refine ⟨packed, rfl, hlast.2, fun frag hfrag => (hwithin frag (List.mem_append_left _ hfrag)).used, ?_⟩
    rw [← hseqs, List.flatMap_append, List.flatMap_singleton, (hwithin current (by simp)).events hlast.1, List.append_nil]

theorem buildFragments_getElem? {seq : ℕ} {iin : Iin} {i k : ℕ}
    {f : Dnp3ResponseFragment} (h : (buildFragments seq iin i packed)[k]? = some f) :
    ∃ frag ∈ packed, f.eventSeqs = frag.eventSeqs ∧ f.seq = (seq + (i + k)) % 16 ∧
      f.con = decide (frag.eventSeqs ≠ [] ∨ k + 1 < packed.length) ∧
      f.bytes = buildResponseHeader
        { seq := f.seq, fir := i + k = 0, fin := k + 1 = packed.length, con := f.con, iin } ++ frag.blocks.flatten := by
  induction packed generalizing i k with
  | nil => cases h
  | cons frag rest ih =>
    cases k with
    | zero =>
      obtain rfl := Option.some.inj h
      have hlast : (rest ≠ []) = (0 + 1 < (frag :: rest).length) := by
        rw [List.length_cons, Nat.add_lt_add_iff_right, List.length_pos_iff]
      have hend : (rest = []) = (0 + 1 = (frag :: rest).length) := by
        rw [List.length_cons, eq_iff_iff, ← List.length_eq_zero_iff]
        omega
      refine ⟨frag, List.mem_cons_self .., rfl, rfl, ?_, ?_⟩
      · simp only [hlast]
      · simp only [hend, Nat.add_zero]
    | succ k =>
      rw [buildFragments, List.getElem?_cons_succ] at h
      obtain ⟨frag', hmem, hseqs, hseq, hcon, hbytes⟩ := ih h
      have hplace : i + 1 + k = i + (k + 1) := by omega
      refine ⟨frag', List.mem_cons_of_mem frag hmem, hseqs, by rw [hseq, hplace], ?_, ?_⟩
      · rw [hcon, List.length_cons]
        simp only [Nat.add_lt_add_iff_right]
      · rw [hbytes, List.length_cons, hplace]
        simp only [Nat.add_right_cancel_iff]

theorem buildFragments_eventSeqs (seq : ℕ) (iin : Iin) (i : ℕ) (packed : List PackedFragment) :
    (buildFragments seq iin i packed).flatMap (·.eventSeqs) = packed.flatMap (·.eventSeqs) ∧
      (buildFragments seq iin i packed).length = packed.length := by
  induction packed generalizing i with
  | nil => exact ⟨rfl, rfl⟩
  | cons frag rest ih =>
    obtain ⟨hseqs, hlength⟩ := ih (i + 1)
    rw [buildFragments]
    exact ⟨by rw [List.flatMap_cons, List.flatMap_cons, hseqs], by rw [List.length_cons, List.length_cons, hlength]⟩

theorem peek_nodup {b : Dnp3EventBuffer} (h : b.Ordered) {classes : List EventClass} (hclasses : classes.Nodup) :
    ((b.peek classes).map (·.seq)).Nodup := by
  have hperm : (b.peek classes).Perm (classes.flatMap fun cls => (b.queues cls).events) := List.perm_insertionSort ..
  rw [(hperm.map (·.seq)).nodup_iff, List.map_flatMap, List.nodup_flatMap]
  constructor
  · intro cls _
    exact List.pairwise_map.mpr ((h.increasing cls).imp Nat.ne_of_lt)
  · refine hclasses.imp fun {cls other} hne => ?_
    intro seq hseq hseq'
    obtain ⟨e, he, rfl⟩ := List.mem_map.mp hseq
    obtain ⟨e', he', hsame⟩ := List.mem_map.mp hseq'
    exact hne (h.distinct cls other e he e' he' hsame.symm)

theorem requestedClasses_nodup (targets : ClassTargets) : (requestedClasses targets).Nodup := by
  rcases targets with ⟨_ | _, _ | _, _ | _, _ | _⟩ <;> decide

/-- What a poll reports: every event of the requested classes once and in order, in marked
fragments that are not too long. The marks are the bits of the first octet. -/
structure PollReport (ctx : OutstationContext) (req : ParsedRequest) (fragments : List Dnp3ResponseFragment) : Prop where
  nonempty : fragments ≠ []
  length : ∀ f ∈ fragments, f.bytes.length ≤ ctx.maxTxFragmentSize
  marks : ∀ i f, fragments[i]? = some f →
    (f.bytes.headD 0 &&& 0x80 ≠ 0 ↔ i = 0) ∧ (f.bytes.headD 0 &&& 0x40 ≠ 0 ↔ i + 1 = fragments.length) ∧
      (i + 1 ≠ fragments.length ∨ f.eventSeqs ≠ [] → f.con = true ∧ f.bytes.headD 0 &&& 0x20 ≠ 0) ∧
      f.seq = (req.seq + i) % 16 ∧ (f.bytes.headD 0 &&& 0x0f).toNat = f.seq
  events : fragments.flatMap (·.eventSeqs) =
    (ctx.eventBuffer.peek (requestedClasses (classReadTargets req))).map (·.seq)
  once : (fragments.flatMap (·.eventSeqs)).Nodup

theorem handleRead_report {ctx : OutstationContext} (hmax : 64 ≤ ctx.maxTxFragmentSize)
    (hordered : ctx.eventBuffer.Ordered)
    (hmapped : ∀ cls, ∀ e ∈ (ctx.eventBuffer.queues cls).events, e.Mapped ctx.pointMap) (req : ParsedRequest) :
    ∃ fragments, (handleRead ctx req).1 = .ok fragments ∧ PollReport ctx req fragments := by
  obtain ⟨packed, hpacked, hne, hused, hseqs⟩ := packPoll_ok hmax hmapped (classReadTargets req)
  obtain ⟨hevents, hlength⟩ := buildFragments_eventSeqs req.seq (currentIin ctx) 0 packed
  refine ⟨buildFragments req.seq (currentIin ctx) 0 packed, by rw [handleRead, hpacked], ?_⟩
  constructor
  case nonempty =>
    intro hnil
    rw [hnil, List.length_nil, eq_comm, List.length_eq_zero_iff] at hlength
    exact hne hlength
  case length =>
    intro f hf
    obtain ⟨i, hi⟩ := List.mem_iff_getElem?.mp hf
    obtain ⟨frag, hfrag, -, -, -, hbytes⟩ := buildFragments_getElem? hi
    have hwithin := hused frag hfrag
    rw [hbytes, List.length_append, buildResponseHeader_length]
    unfold fragmentBudget PackedFragment.used appHeaderLen at hwithin
    omega
  case marks =>
    intro i f hf
    obtain ⟨frag, hfrag, hfragSeqs, hseq, hcon, hbytes⟩ := buildFragments_getElem? hf
    rw [Nat.zero_add] at hseq hbytes
    have hplace : i < packed.length := by
      rw [← hlength]
      exact (List.getElem?_eq_some_iff.mp hf).1
    have hhead : f.bytes.headD 0 = ResponseHeader.appControl
        { seq := f.seq, fir := i = 0, fin := i + 1 = packed.length, con := f.con, iin := currentIin ctx } := by
      rw [hbytes]
      rfl
    obtain ⟨hfir, hfin, hconBit, -, hseqBits⟩ := ResponseHeader.appControl_bits
      { seq := f.seq, fir := i = 0, fin := i + 1 = packed.length, con := f.con, iin := currentIin ctx }
    rw [hhead, hlength]
    refine ⟨hfir.trans decide_eq_true_iff, hfin.trans decide_eq_true_iff, fun hmore => ?_, hseq, ?_⟩
    · have hset : f.con = true := by
        rw [hcon, decide_eq_true_iff, ← hfragSeqs]
        rcases hmore with hmore | hmore
        · exact .inr (by omega)
        · exact .inl hmore
      exact ⟨hset, hconBit.mpr hset⟩
    · rw [hseqBits, hseq, Nat.mod_mod]
  case events => rw [hevents, hseqs]
  case once =>
    rw [hevents, hseqs]
    exact peek_nodup hordered (requestedClasses_nodup _)

structure Pollable (r : LinkRun) : Prop where
  events : EventInv r
  size : 64 ≤ r.ctx.maxTxFragmentSize

theorem Pollable.step {hmac : Hmac} {r r' : LinkRun} {a : LinkAct} (h : Pollable r)
    (hstep : linkStep hmac r a = some r') : Pollable r' where
  events := linkStep_eventInv h.events hstep
  size := by
    rw [linkStep_maxTx hstep]
    exact h.size

/-- In every state that an outstation can reach, a poll reports all that it asks for. -/
theorem class_poll_complete (hmac : Hmac) (config : EventBufferConfig) {start r : LinkRun}
    (hindex : ∀ d ∈ start.ctx.pointMap.defs, d.index ≤ 0xffff) (hbuffer : start.ctx.eventBuffer = .new config)
    (hmax : 64 ≤ start.ctx.maxTxFragmentSize) (hr : Reachable (linkStep hmac) (fun _ _ => True) start r)
    (req : ParsedRequest) :
    ∃ fragments, (handleRead r.ctx req).1 = .ok fragments ∧ PollReport r.ctx req fragments := by
  have hstart : Pollable start := by
    refine ⟨⟨hindex, ?_, ?_⟩, hmax⟩
    · rw [hbuffer]
      exact .new config
    · intro cls e he
      rw [LinkRun.events, hbuffer] at he
      exact absurd he List.not_mem_nil
  have hinv : Pollable r := hr.invariant hstart fun _ _ _ h _ hstep => h.step hstep
  exact handleRead_report hinv.size hinv.events.ordered hinv.events.mapped req

/-- An outstation with one analog point, which reports its changes in class 1. -/
def levelRun : LinkRun where
  outstation :=
    { ctx :=
        { pointMap := { points := [⟨{ tagId := "level", type := .analogInput, index := 300, eventClass := some .class1 },
            ⟨.number 0, .bad, 0⟩⟩] }
          eventBuffer := .new {}
          secureAuth := .unkeyed
          controls := {}
          maxTxFragmentSize := 64 } }

def classOneRead : ParsedRequest where
  appControl := 0xc3
  fir := true
  fin := true
  con := false
  uns := false
  seq := 3
  func := FunctionCode.read
  objects := [{ group := Group.classData, variation := 2, qualifier := 0x06 }]
  objectsComplete := true
  rawObjects := [0x3c, 0x02, 0x06]
  raw := [0xc3, 0x01, 0x3c, 0x02, 0x06]

def levelSamples : List LinkAct :=
  [.updateTag "level" ⟨.number 1.5, .good, 1000⟩ fun _ => 1000, .updateTag "level" ⟨.number 2.5, .good, 2000⟩ fun _ => 2000]

/-- After two samples the poll of class 1 reports two events. -/
theorem class_poll_complete_level :
    ∃ r, Reachable (linkStep fun _ _ _ => []) (fun _ _ => True) levelRun r ∧
      (r.ctx.eventBuffer.peek (requestedClasses (classReadTargets classOneRead))).map (·.seq) = [1, 2] ∧
      ∃ fragments, (handleRead r.ctx classOneRead).1 = .ok fragments ∧ PollReport r.ctx classOneRead fragments := by
  have hrun : ∃ r, exec (linkStep fun _ _ _ => []) levelRun levelSamples = some r ∧
      (r.ctx.eventBuffer.peek (requestedClasses (classReadTargets classOneRead))).map (·.seq) = [1, 2] :=
    ⟨_, rfl, by decide +kernel⟩
  obtain ⟨r, hexec, hpeek⟩ := hrun
  have hreach : Reachable (linkStep fun _ _ _ => []) (fun _ _ => True) levelRun r :=
    Reachable.start.of_exec _ (fun _ _ _ => trivial) hexec
  refine ⟨r, hreach, hpeek, ?_⟩
  exact class_poll_complete _ {} (by decide) rfl (by decide) hreach classOneRead

end OxScada.Dnp3
