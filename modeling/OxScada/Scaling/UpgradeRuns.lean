import OxScada.Scaling.UpgradeSteps

/-! Runs of the rolling upgrade: what is deployed was certified, an upgrade that returns has
upgraded every instance or restored every instance, and the next call restores what a crash
left drained, if the adapter reports a version for it. -/

namespace OxScada.Scaling.Upgrade
open OxScada.Bytes OxScada.Js OxScada.Edge OxScada.Runs

variable {ok : Answer → Prop}

/-! ### The upgrade -/

structure Finished (ok : Answer → Prop) (compatibility : VersionCompatibilityMatrix) (deployed : List Deployment) (target : Text)
    (result : UpgradeResult) (s : State) : Prop where
  certified : Certified compatibility deployed s
  upgraded : result.succeeded = true → ∀ inst ∈ s.instances, Upgraded target inst
  restored : result.succeeded = false → result.rollbackFailures = [] → s.instances = s.reconciled ∧ AllOn s
  failures : result.succeeded = false → result.rollbackFailures ≠ [] → Fails ok

/-- The adapter's instances are told with their versions, in some order. -/
def Reported (base : List Instance) (told : List DeploymentInstance) : Prop :=
  (told.map fun d => (d.id, d.version)).Perm (base.map fun b => (b.id, b.version))

section Whole
variable {compatibility : VersionCompatibilityMatrix} {deployed : List Deployment} {base : List Instance}
  {plan : RollingUpgradePlan} {told : List DeploymentInstance}

theorem flatten_batches {batchSize : ℕ} (hpos : 0 < batchSize) (remainder : List DeploymentInstance) :
    (batches batchSize remainder).flatten = remainder := by
  have htake : ∀ n, ((List.range n).map fun k => (remainder.drop (k * batchSize)).take batchSize).flatten = remainder.take (n * batchSize) := by
    intro n
    induction n with
    | zero => simp
    | succ n ih => simp [List.range_succ, ih, Nat.succ_mul, List.take_add]
  rw [batches, htake]
  apply List.take_of_length_le
  have hdiv := Nat.div_add_mod (remainder.length + batchSize - 1) batchSize
  have hmod := Nat.mod_lt (remainder.length + batchSize - 1) hpos
  rw [mul_comm]
  omega

theorem applyBatch_meets (hnodup : (base.map (·.id)).Nodup) (stage : UpgradeStage) (batch rest : List DeploymentInstance) :
    Meets ok (Forward compatibility deployed base plan.targetVersion (batch ++ rest)) (applyBatch plan stage batch)
      ⟨fun _ => Forward compatibility deployed base plan.targetVersion rest, fun _ => Halted compatibility deployed base,
        Cut ok compatibility deployed⟩ :=
  Meets.forM (fun todo => Forward compatibility deployed base plan.targetVersion (todo ++ rest))
    (fun d todo => applyInstance_meets hnodup stage d (todo ++ rest)) (fun _ => id) batch

theorem Reported.mem {d : DeploymentInstance} (h : Reported base told) (hd : d ∈ told) : ∃ b ∈ base, b.id = d.id ∧ b.version = d.version := by
  have hmem : (d.id, d.version) ∈ base.map fun b => (b.id, b.version) := h.subset (List.mem_map.mpr ⟨d, hd, rfl⟩)
  obtain ⟨b, hb, heq⟩ := List.mem_map.mp hmem
  exact ⟨b, hb, congrArg Prod.fst heq, congrArg Prod.snd heq⟩

theorem Reported.mem' {b : Instance} (h : Reported base told) (hb : b ∈ base) : ∃ d ∈ told, d.id = b.id ∧ d.version = b.version := by
  have hmem : (b.id, b.version) ∈ told.map fun d => (d.id, d.version) := h.symm.subset (List.mem_map.mpr ⟨b, hb, rfl⟩)
  obtain ⟨d, hd, heq⟩ := List.mem_map.mp hmem
  exact ⟨d, hd, congrArg Prod.fst heq, congrArg Prod.snd heq⟩

theorem Reported.nodup (h : Reported base told) (htold : (told.map (·.id)).Nodup) : (base.map (·.id)).Nodup := by
  have hids := h.map Prod.fst
  rw [List.map_map, List.map_map] at hids
  exact hids.nodup_iff.mp htold

theorem Reported.known {b : Instance} (h : Reported base told) (htold : (told.map (·.id)).Nodup) (hb : b ∈ base) (hon : b.traffic = true) :
    Known (told.map fun d => (d.id, d.version)) b := by
  obtain ⟨d, hd, hid, hversion⟩ := h.mem' hb
  refine ⟨hon, lookup_of_mem (List.mem_map.mpr ⟨d, hd, by rw [hid, hversion]⟩) fun v hv => ?_⟩
  obtain ⟨d', hd', heq⟩ := List.mem_map.mp hv
  have hid' : d'.id = d.id := (congrArg Prod.fst heq).trans hid.symm
  obtain rfl := List.inj_on_of_nodup_map htold hd' hd hid'
  rw [← hversion]
  exact (congrArg Prod.snd heq).symm

variable {s : State}

theorem forward_start (hreported : Reported base told) (htold : (told.map (·.id)).Nodup)
    (hcompatible : ∀ d ∈ told, compatibility.assertCompatible d.version plan.targetVersion = .ok ())
    (hinstances : s.instances = base) (hreconciled : s.reconciled = base) (hs : Untouched deployed s) :
    Forward compatibility deployed base plan.targetVersion (told.filter (·.version ≠ plan.targetVersion)) s := by
  refine ⟨⟨fun b hb hne => ?_, fun d hd => ?_, fun d _ => ?_, htold.sublist (List.filter_sublist.map _)⟩, ?_⟩
  · obtain ⟨d, hd, hid, hversion⟩ := hreported.mem' hb
    refine .inr ⟨d, List.mem_filter.mpr ⟨hd, ?_⟩, hid⟩
    rw [hversion]
    exact decide_eq_true hne
  · have hmem := (List.mem_filter.mp hd).1
    exact ⟨hcompatible d hmem, hreported.mem hmem⟩
  · rw [hs.changed]
    exact List.not_mem_nil
  · refine ⟨?_, fun d hd => .inl (hs.deployments ▸ hd), hs.failures, hreconciled, fun id hid => ?_⟩
    · rw [hinstances, hs.changed]
      exact List.forall₂_same.mpr fun b _ => ⟨⟨⟨rfl, rfl⟩, fun _ => rfl⟩, fun hmem => (by cases hmem)⟩
    · rw [hs.changed] at hid
      cases hid

theorem Forward.finished (h : Forward compatibility deployed base plan.targetVersion [] s) (hon : ∀ b ∈ base, b.traffic = true) :
    ∀ inst ∈ s.instances, Upgraded plan.targetVersion inst := by
  intro w hw
  obtain ⟨b, hb, haltered, hupgraded⟩ := Order.forall₂_right h.2.world hw
  by_cases hmem : b.id ∈ s.changed
  · exact hupgraded hmem
  · obtain rfl := haltered.untouched hmem
    refine ⟨?_, hon w hb⟩
    by_contra hne
    rcases h.1.pending w hb hne with hmem' | ⟨d, hd, -⟩
    · exact hmem hmem'
    · cases hd

theorem Halted.restoring {originals : List (Text × Text)} (h : Halted compatibility deployed base s)
    (hknown : ∀ b ∈ base, Known originals b) :
    Restoring ok compatibility deployed base originals s.changed s.changed.reverse (fun _ _ => True) s where
  noted := rfl
  certified := h.certified
  reconciled := h.reconciled
  failures hsome := absurd h.failures hsome
  world := by
    refine ((List.forall₂_and_left _ _).mpr ⟨hknown, h.world⟩).imp fun b w hw => ?_
    exact { toAltered := hw.2, known := hw.1, restored := fun hmem hnot => absurd (List.mem_reverse.mpr hmem) hnot, now := trivial }

theorem Restoring.finished {originals : List (Text × Text)} {changed : List Text}
    (h : Restoring ok compatibility deployed base originals changed [] (fun _ _ => True) s) (hnone : s.rollbackFailures = []) :
    s.instances = s.reconciled ∧ AllOn s := by
  have hback : ∀ b w, Undoing originals changed [] s.rollbackFailures (fun _ _ => True) b w → w = b := by
    intro b w hw
    by_cases hmem : b.id ∈ changed
    · exact hw.restored hmem List.not_mem_nil hnone
    · exact hw.untouched hmem
  have hinstances : List.Forall₂ Eq base s.instances := h.world.imp fun b w hw => (hback b w hw).symm
  rw [List.forall₂_eq_eq_eq] at hinstances
  refine ⟨hinstances.symm.trans h.reconciled.symm, fun w hw => ?_⟩
  obtain ⟨b, -, hb⟩ := Order.forall₂_right h.world hw
  rw [hback b w hb]
  exact hb.known.1

theorem upgrade_meets {threw : Text → State → Prop} (hreported : Reported base told) (htold : (told.map (·.id)).Nodup)
    (hon : ∀ b ∈ base, b.traffic = true) (hbatch : 0 < countOf plan.batchSize)
    (hcompatible : ∀ d ∈ told, compatibility.assertCompatible d.version plan.targetVersion = .ok ()) :
    Meets ok (fun s => s.instances = base ∧ s.reconciled = base ∧ Untouched deployed s) (upgrade plan told)
      ⟨Finished ok compatibility deployed plan.targetVersion, threw, Cut ok compatibility deployed⟩ := by
  have hbase := hreported.nodup htold
  let pending := told.filter (·.version ≠ plan.targetVersion)
  let canaryCount := min (countOf plan.canaryCount) pending.length
  dsimp only [upgrade]
  apply Meets.tryCatch fun _ => Halted compatibility deployed base
  · apply Meets.bind fun _ => Forward compatibility deployed base plan.targetVersion (pending.drop canaryCount)
    · refine (applyBatch_meets hbase .canary (pending.take canaryCount) (pending.drop canaryCount)).of_pre ?_
      rintro s ⟨hinstances, hreconciled, hs⟩
      rw [List.take_append_drop]
      exact forward_start hreported htold hcompatible hinstances hreconciled hs
    intro _
    apply Meets.bind fun _ => Forward compatibility deployed base plan.targetVersion []
    · have hloop : Meets ok (Forward compatibility deployed base plan.targetVersion
          (batches (countOf plan.batchSize) (pending.drop canaryCount)).flatten)
          ((batches (countOf plan.batchSize) (pending.drop canaryCount)).forM (applyBatch plan .rolling))
          ⟨fun _ => Forward compatibility deployed base plan.targetVersion [], fun _ => Halted compatibility deployed base,
            Cut ok compatibility deployed⟩ :=
        Meets.forM (fun todo => Forward compatibility deployed base plan.targetVersion todo.flatten)
          (fun batch todo => applyBatch_meets hbase .rolling batch todo.flatten) (fun _ => id) _
      rw [flatten_batches hbatch] at hloop
      exact hloop
    intro _
    apply Meets.bind fun _ => Forward compatibility deployed base plan.targetVersion []
    · exact emit_meets forward_events
    intro _
    apply Meets.bind fun _ => Forward compatibility deployed base plan.targetVersion []
    · exact Meets.get fun _ => id
    intro read
    apply Meets.pure
    intro s hs
    exact { certified := hs.2.certified
            upgraded := fun _ => hs.finished hon
            restored := fun hfalse => (by cases hfalse)
            failures := fun hfalse => (by cases hfalse) }
  · intro error
    have hknown : ∀ b ∈ base, Known (told.map fun d => (d.id, d.version)) b := fun b hb => hreported.known htold hb (hon b hb)
    apply Meets.freeze State.changed
    intro changed
    let restoring := fun todo => Restoring ok compatibility deployed base (told.map fun d => (d.id, d.version)) changed todo fun _ _ => True
    apply Meets.bind fun read s => read.changed = changed ∧ restoring changed.reverse s
    · apply Meets.get
      rintro s ⟨rfl, hs⟩
      exact ⟨rfl, hs.restoring hknown⟩
    intro read
    refine Meets.given fun hchanged => ?_
    rw [hchanged]
    apply Meets.bind fun _ => restoring []
    · have hloop : Meets ok (fun s => (∀ id ∈ changed.reverse, id ∈ changed) ∧ restoring changed.reverse s)
          (changed.reverse.forM (rollbackInstance plan (told.map fun d => (d.id, d.version))))
          ⟨fun _ => restoring [], threw, Cut ok compatibility deployed⟩ := by
        apply Meets.forM fun todo s => (∀ id ∈ todo, id ∈ changed) ∧ restoring todo s
        · intro changedId todo
          refine Meets.given fun hmem => (rollbackInstance_meets (hmem changedId List.mem_cons_self)).of_done ?_
          intro _ s hs
          exact ⟨fun id hid => hmem id (List.mem_cons_of_mem _ hid), hs⟩
        · exact fun s hs => hs.2
      exact hloop.of_pre fun s hs => ⟨fun id hid => List.mem_reverse.mp hid, hs⟩
    intro _
    apply Meets.bind fun read s => read = s ∧ restoring [] s
    · exact Meets.get fun s hs => ⟨rfl, hs⟩
    intro read
    apply Meets.pure
    rintro s ⟨rfl, hs⟩
    exact { certified := hs.certified
            upgraded := fun hfalse => (by cases hfalse)
            restored := fun _ hnone => hs.finished hnone
            failures := fun _ hsome => hs.failures hsome }

end Whole

/-! ### One call of `execute` -/

section Execute
variable {sha256Hex : Text → Text} {localeCompare : Text → Text → ℤ} {compatibility : VersionCompatibilityMatrix}
  {deployed : List Deployment} {plan : RollingUpgradePlan}

theorem parseVersion_ok {version : Text} : parseVersion version = .ok () ↔ isVersion version = true := by
  unfold parseVersion
  split_ifs with h
  · exact iff_of_true rfl h
  · refine iff_of_false (fun heq => ?_) h
    cases heq

theorem validateDeploymentInstances_ok {ids : List Text} {told : List DeploymentInstance} :
    validateDeploymentInstances ids told = .ok () ↔
      (told.map (·.id)).Nodup ∧ ∀ d ∈ told, isBlank d.id = false ∧ d.id ∉ ids ∧ isVersion d.version = true := by
  induction told generalizing ids with
  | nil => simp [validateDeploymentInstances]
  | cons d told ih =>
    unfold validateDeploymentInstances
    rw [List.map_cons, List.nodup_cons, List.forall_mem_cons]
    split_ifs with hbad
    · refine iff_of_false (fun heq => (by cases heq)) ?_
      rintro ⟨-, ⟨hblank, hmem, -⟩, -⟩
      rcases hbad with hblank' | hmem'
      · rw [hblank] at hblank'
        cases hblank'
      · exact hmem hmem'
    · obtain ⟨hblank, hmem⟩ := not_or.mp hbad
      rw [bind_unit_ok, parseVersion_ok, ih]
      simp only [List.mem_cons, not_or, List.mem_map, Bool.not_eq_true] at hblank ⊢
      constructor
      · rintro ⟨hversion, hnodup, hrest⟩
        refine ⟨⟨?_, hnodup⟩, ⟨hblank, hmem, hversion⟩, fun d' hd' => ⟨(hrest d' hd').1, (hrest d' hd').2.1.2, (hrest d' hd').2.2⟩⟩
        rintro ⟨d', hd', hid⟩
        exact (hrest d' hd').2.1.1 hid
      · rintro ⟨⟨hnot, hnodup⟩, ⟨-, -, hversion⟩, hrest⟩
        exact ⟨hversion, hnodup, fun d' hd' => ⟨(hrest d' hd').1, ⟨fun hid => hnot ⟨d', hd', hid⟩, (hrest d' hd').2.1⟩, (hrest d' hd').2.2⟩⟩

theorem sort_perm (told : List DeploymentInstance) : (sortInstances sha256Hex localeCompare told).Perm told :=
  List.perm_insertionSort _ _

theorem mem_report {answer : Answer} {s : State} {d : DeploymentInstance} : d ∈ report answer s ↔ ∃ inst ∈ s.instances,
    d = { id := inst.id, version := inst.version, healthy := inst.id ∉ answer.unhealthy, zone := inst.zone,
          trafficEnabled := some inst.traffic } := by
  rw [report, List.mem_map]
  exact exists_congr fun inst => and_congr_right' eq_comm

theorem report_reported (answer : Answer) (s : State) : Reported s.instances (sortInstances sha256Hex localeCompare (report answer s)) := by
  refine ((sort_perm _).map _).trans ?_
  rw [report, List.map_map]
  exact .refl _

theorem report_toRecover (answer : Answer) (s : State) : ToRecover (sortInstances sha256Hex localeCompare (report answer s)) s := by
  intro inst hinst
  cases htraffic : inst.traffic with
  | true => exact .inl rfl
  | false =>
    refine .inr ⟨_, (sort_perm _).mem_iff.mpr (mem_report.mpr ⟨inst, hinst, rfl⟩), rfl, ?_⟩
    rw [htraffic]

theorem forM_ok {α : Type} {f : α → Except Text Unit} {xs : List α} (h : xs.forM f = .ok ()) : ∀ x ∈ xs, f x = .ok () := by
  induction xs with
  | nil => exact fun x hx => (by cases hx)
  | cons x xs ih =>
    obtain ⟨hx, hrest⟩ := bind_unit_ok.mp h
    exact List.forall_mem_cons.mpr ⟨hx, ih hrest⟩

theorem checkInstances_ok {told : List DeploymentInstance} (h : checkInstances compatibility plan told = .ok ()) :
    (told.map (·.id)).Nodup ∧ (∀ d ∈ told, isBlank d.id = false ∧ isVersion d.version = true) ∧
      ∀ d ∈ told, compatibility.assertCompatible d.version plan.targetVersion = .ok () := by
  obtain ⟨hvalid, hrest⟩ := bind_unit_ok.mp h
  obtain ⟨hnodup, hids⟩ := validateDeploymentInstances_ok.mp hvalid
  split_ifs at hrest
  exact ⟨hnodup, fun d hd => ⟨(hids d hd).1, (hids d hd).2.2⟩, forM_ok hrest⟩

theorem countOf_pos {value : Option ℚ} (h : isPositiveInteger value = true) : 0 < countOf value := by
  cases value with
  | none => cases h
  | some n =>
    have hpos : n.den = 1 ∧ 1 ≤ n.num := by simpa [isPositiveInteger] using h
    show 0 < n.num.toNat
    omega

theorem validateUpgradePlan_batch (h : validateUpgradePlan plan = .ok ()) : 0 < countOf plan.batchSize := by
  unfold validateUpgradePlan at h
  split_ifs at h with hvalid
  exact countOf_pos hvalid.2.1

/-- From the answer of the adapter on. A call that throws has told why: a call failed, the
instances are refused as they are, the reconciliation is stuck, or nothing is drained. -/
theorem executeReported_meets (hbatch : 0 < countOf plan.batchSize) {told : List Instance} {journal : List UpgradeJournalEntry}
    {first : List DeploymentInstance}
    (hfirst : ∀ s, s.instances = told → ToRecover (sortInstances sha256Hex localeCompare first) s) (hnone : first = [] → told = []) :
    Meets ok (fun s => s.instances = told ∧ s.journal = journal ∧ s.deployments = deployed)
      (executeReported sha256Hex localeCompare compatibility plan first)
      ⟨Finished ok compatibility deployed plan.targetVersion,
        fun _ s => Certified compatibility deployed s ∧ (Fails ok ∨ AllOn s ∨
          (s.instances = told ∧ validateDeploymentInstances [] (sortInstances sha256Hex localeCompare first) ≠ .ok ()) ∨
          (Stuck journal (sortInstances sha256Hex localeCompare first) ∧ ToRecover (sortInstances sha256Hex localeCompare first) s)),
        Cut ok compatibility deployed⟩ := by
  have hcertified : ∀ s, s.deployments = deployed → Certified compatibility deployed s := fun s hs d hd => .inl (hs ▸ hd)
  dsimp only [executeReported]
  apply Meets.bind fun _ s => s.instances = told ∧ s.journal = journal ∧ s.deployments = deployed
  · apply lift_meets
    · exact fun _ _ s hs => hs
    · intro message herror s hs
      refine ⟨hcertified s hs.2.2, .inr (.inr (.inl ⟨hs.1, fun hok => ?_⟩))⟩
      rw [hok] at herror
      cases herror
  intro _
  split_ifs with hempty
  · apply Meets.throw
    rintro s ⟨hinstances, -, hdeployed⟩
    refine ⟨hcertified s hdeployed, .inr (.inl fun inst hinst => ?_)⟩
    rw [hinstances, hnone hempty] at hinst
    cases hinst
  · apply Meets.bind fun _ s => s.journal = journal ∧ Untouched deployed s ∧ ToRecover (sortInstances sha256Hex localeCompare first) s
    · apply Meets.modify
      rintro s ⟨hinstances, hjournal, hdeployed⟩
      exact ⟨hjournal, ⟨hdeployed, rfl, rfl⟩, hfirst _ hinstances⟩
    intro _
    apply Meets.bind fun _ s => Untouched deployed s ∧ AllOn s
    · refine reconcileInterrupted_meets.weaken (fun _ => id) (fun _ _ => id) ?_ fun s hs => ⟨hcertified s hs.1, hs.2⟩
      rintro _ s ⟨hdeployed, hfails⟩
      exact ⟨hcertified s hdeployed, hfails.imp_right fun hstuck => .inr (.inr hstuck)⟩
    intro _
    apply Meets.bind fun _ s => s.reconciled = s.instances ∧ Untouched deployed s ∧ AllOn s
    · exact Meets.modify fun s hs => ⟨rfl, ⟨hs.1.1, hs.1.2, hs.1.3⟩, hs.2⟩
    intro _
    apply Meets.freeze State.instances
    intro base
    apply Meets.bind fun second s => Reported base (sortInstances sha256Hex localeCompare second) ∧ s.instances = base ∧ s.reconciled = base ∧
      Untouched deployed s ∧ AllOn s
    · apply ask_meets
      · rintro answer s - ⟨rfl, hreconciled, hs, hon⟩
        exact ⟨report_reported answer s, rfl, hreconciled, hs, hon⟩
      · rintro s ⟨-, -, hs, -⟩ hfails
        exact ⟨fun _ => ⟨hcertified s hs.deployments, .inl hfails⟩, hcertified s hs.deployments, hfails⟩
    intro second
    refine Meets.given fun hreported => ?_
    apply Meets.bind fun _ s => (checkInstances compatibility plan (sortInstances sha256Hex localeCompare second) = .ok () ∧
      ∀ b ∈ base, b.traffic = true) ∧ s.instances = base ∧ s.reconciled = base ∧ Untouched deployed s
    · apply lift_meets
      · rintro _ hchecked s ⟨rfl, hreconciled, hs, hon⟩
        exact ⟨⟨hchecked, hon⟩, rfl, hreconciled, hs⟩
      · rintro message - s ⟨-, -, hs, hon⟩
        exact ⟨hcertified s hs.deployments, .inr (.inl hon)⟩
    intro _
    refine Meets.given fun hfacts => ?_
    obtain ⟨hnodup, -, hcompatible⟩ := checkInstances_ok hfacts.1
    exact upgrade_meets hreported hnodup hfacts.2 hbatch hcompatible

end Execute

/-! ### What keeps a call from restoring -/

section Stuck
variable {inv : State → Prop} {latest : List (Text × UpgradeJournalEntry)} {healthTimeoutMs : Option ℚ} {d : DeploymentInstance}

theorem reconcileInstance_keeps (h : Aside d.id inv) (hlatest : ∀ entry ∈ latest.lookup d.id, entry.instanceId = d.id) :
    Meets ok inv (reconcileInstance latest healthTimeoutMs d) ⟨fun _ => inv, fun _ => inv, fun s => inv s ∧ Fails ok⟩ := by
  dsimp only [reconcileInstance]
  split_ifs
  · exact Meets.pure fun _ => id
  · apply Meets.bind fun _ => inv
    · exact emit_meets h.events
    intro _
    apply Meets.tryCatch fun _ => inv
    · apply Meets.bind fun _ => inv
      · refine (recoverInstance_meets h hlatest).weaken (fun _ => id) ?_ ?_ fun _ => id
        · exact fun _ s hs => hs.1
        · exact fun _ s hs => hs.1
      intro _
      exact emit_meets h.events
    · intro error
      apply Meets.bind fun _ => inv
      · exact emit_meets h.events
      intro _
      exact Meets.throw fun _ => id

theorem reconcileInstance_abandoned (h : Abandoned latest d) (hevents : ∀ s events, inv s → inv { s with events }) :
    Meets ok inv (reconcileInstance latest healthTimeoutMs d) ⟨fun _ _ => False, fun _ => inv, fun _ => False⟩ := by
  obtain ⟨hnone, hhealthy, htraffic⟩ := h
  dsimp only [reconcileInstance]
  rw [if_neg fun hskip => hskip.2 htraffic, hnone]
  apply Meets.bind fun _ => inv
  · exact emit_meets hevents
  intro _
  apply Meets.tryCatch fun _ => inv
  · apply Meets.bind fun _ _ => False
    · dsimp only [recoverInstance]
      rw [if_neg (by simp [hhealthy])]
      exact Meets.throw fun _ => id
    intro _
    exact Meets.of_false
  · intro error
    apply Meets.bind fun _ => inv
    · exact emit_meets hevents
    intro _
    exact Meets.throw fun _ => id

def Off (instanceId : Text) (s : State) : Prop := ∃ inst ∈ s.instances, inst.id = instanceId ∧ inst.traffic = false

theorem off_aside {id : Text} (hne : id ≠ d.id) : Aside d.id (Off id) where
  touch := by
    rintro s effect - ⟨inst, hinst, hid, hoff⟩
    refine ⟨_, List.mem_map.mpr ⟨inst, hinst, rfl⟩, ?_⟩
    rw [if_neg fun heq => hne (hid.symm.trans heq)]
    exact ⟨hid, hoff⟩
  journal _ _ h := h
  events _ _ h := h

theorem Off.not_allOn {s : State} {id : Text} (h : Off id s) : ¬ AllOn s := by
  obtain ⟨inst, hinst, -, hoff⟩ := h
  intro hon
  rw [hon inst hinst] at hoff
  cases hoff

theorem reconcileInterrupted_stuck {journal : List UpgradeJournalEntry} {first : List DeploymentInstance} {told : List Instance}
    (hids : (first.map (·.id)).Nodup) (hoff : ∃ inst ∈ told, inst.traffic = false)
    (htold : ∀ d ∈ first, d.trafficEnabled = some false → ∃ inst ∈ told, inst.id = d.id ∧ inst.traffic = false)
    (hstuck : Stuck journal first) :
    Meets (fun answer => answer.fate = .succeeds) (fun s => s.instances = told ∧ s.journal = journal)
      (reconcileInterrupted first healthTimeoutMs) ⟨fun _ _ => False, fun _ s => ¬ AllOn s, fun _ => False⟩ := by
  have hnever : ¬ Fails fun answer => answer.fate = .succeeds := fun ⟨_, hsucceeds, hnot⟩ => hnot hsucceeds
  unfold reconcileInterrupted
  apply Meets.bind fun read s => read = journal ∧ s.instances = told
  · apply ask_meets
    · rintro answer s - ⟨hinstances, hjournal⟩
      exact ⟨hjournal, hinstances⟩
    · intro s _ hfails
      exact absurd hfails hnever
  intro read
  apply Meets.bind fun latest s => latestUpgradeStates journal = .ok latest ∧ s.instances = told
  · apply lift_meets
    · rintro latest hlatest s ⟨rfl, hs⟩
      exact ⟨hlatest, hs⟩
    · rintro message - s ⟨-, hs⟩ hon
      obtain ⟨inst, hinst, htraffic⟩ := hoff
      rw [hon inst (hs ▸ hinst)] at htraffic
      cases htraffic
  intro latest
  refine Meets.given fun hlatest => ?_
  rcases hstuck with ⟨entry, hentry, hinvalid⟩ | ⟨j, hj, hnone, hhealthy, htraffic⟩
  · exact absurd (latest_valid hlatest entry hentry) hinvalid
  · have habandoned : Abandoned latest j := ⟨(latest_none hlatest).mpr hnone, hhealthy, htraffic⟩
    have hloop : Meets (fun answer => answer.fate = .succeeds)
        (fun s => (j ∈ first ∧ (first.map (·.id)).Nodup) ∧ Off j.id s) (first.forM (reconcileInstance latest healthTimeoutMs))
        ⟨fun _ _ => False, fun _ s => ¬ AllOn s, fun _ => False⟩ := by
      apply Meets.forM fun todo s => (j ∈ todo ∧ (todo.map (·.id)).Nodup) ∧ Off j.id s
      · intro d rest
        refine Meets.given fun hfacts => ?_
        obtain ⟨hmem, hnodup⟩ := hfacts
        obtain ⟨hd, hrest⟩ := List.nodup_cons.mp (List.map_cons ▸ hnodup)
        rcases List.mem_cons.mp hmem with rfl | hmem
        · refine (reconcileInstance_abandoned habandoned fun _ _ => id).weaken (fun _ => id) ?_ ?_ fun _ => id
          · exact fun _ _ hfalse => hfalse.elim
          · exact fun _ _ hs => hs.not_allOn
        · have hne : j.id ≠ d.id := fun heq => hd (List.mem_map.mpr ⟨j, hmem, heq⟩)
          refine (reconcileInstance_keeps (off_aside hne) fun entry hentry => (latest_entry hlatest entry hentry).1).weaken
            (fun _ => id) ?_ ?_ ?_
          · exact fun _ s hs => ⟨⟨hmem, hrest⟩, hs⟩
          · exact fun _ _ hs => hs.not_allOn
          · exact fun s hs => hnever hs.2
      · rintro s ⟨⟨hmem, -⟩, -⟩
        cases hmem
    refine hloop.of_pre fun s hs => ⟨⟨hj, hids⟩, ?_⟩
    obtain ⟨inst, hinst, hid, hoffj⟩ := htold j hj htraffic
    exact ⟨inst, hs ▸ hinst, hid, hoffj⟩

end Stuck

/-! ### What is journaled -/

structure UpgradeJournalEntry.Sound (entry : UpgradeJournalEntry) : Prop where
  target : isVersion entry.targetVersion = true
  original : isVersion entry.originalVersion = true
  id : isBlank entry.instanceId = false

structure JournalSound (journal : List UpgradeJournalEntry) : Prop where
  entries : ∀ entry ∈ journal, entry.Sound
  numbers : journal.map (·.sequence) = (List.range journal.length).map (· + 1)

section Journal
variable {journal : List UpgradeJournalEntry} {entry : UpgradeJournalEntry} {P : State → Prop} {plan : RollingUpgradePlan}

theorem validateUpgradeJournalEntry_ok : validateUpgradeJournalEntry entry = .ok () ↔ entry.Sound ∧ 1 ≤ entry.sequence ∧ entry.sequence < 2 ^ 53 := by
  unfold validateUpgradeJournalEntry
  rw [bind_unit_ok, bind_unit_ok, parseVersion_ok, parseVersion_ok]
  split_ifs with hblank hnumber
  · refine iff_of_false (fun h => (by cases h.2.2)) fun h => ?_
    have hid := h.1.id
    rw [hblank] at hid
    cases hid
  · refine iff_of_false (fun h => (by cases h.2.2)) fun h => ?_
    omega
  · obtain ⟨hlow, hhigh⟩ := not_or.mp hnumber
    have hid : isBlank entry.instanceId = false := by simpa using hblank
    exact ⟨fun h => ⟨⟨h.1, h.2.1, hid⟩, not_lt.mp hlow, not_le.mp hhigh⟩, fun h => ⟨h.1.target, h.1.original, rfl⟩⟩

theorem JournalSound.append (h : JournalSound journal) {error : Option Text} {targetVersion instanceId originalVersion : Text}
    {status : UpgradeJournalStatus} (htarget : isVersion targetVersion = true) (horiginal : isVersion originalVersion = true)
    (hid : isBlank instanceId = false) :
    JournalSound (journal ++ [{ targetVersion, instanceId, originalVersion, status, sequence := journal.length + 1, error }]) where
  entries := by
    intro entry hentry
    rcases List.mem_append.mp hentry with hold | hnew
    · exact h.entries entry hold
    · obtain rfl := List.mem_singleton.mp hnew
      exact ⟨htarget, horiginal, hid⟩
  numbers := by
    rw [List.map_append, h.numbers, List.length_append]
    simp [List.range_succ]

theorem JournalSound.valid_iff (h : JournalSound journal) :
    (∀ entry ∈ journal, validateUpgradeJournalEntry entry = .ok ()) ↔ journal.length < 2 ^ 53 := by
  have hnumber : ∀ entry ∈ journal, ∃ i < journal.length, i + 1 = entry.sequence := by
    intro entry hentry
    have hmem : entry.sequence ∈ (List.range journal.length).map (· + 1) := h.numbers ▸ List.mem_map.mpr ⟨entry, hentry, rfl⟩
    obtain ⟨i, hi, heq⟩ := List.mem_map.mp hmem
    exact ⟨i, List.mem_range.mp hi, heq⟩
  constructor
  · intro hall
    by_contra hlong
    have hmem : journal.length ∈ journal.map (·.sequence) := by
      rw [h.numbers]
      exact List.mem_map.mpr ⟨journal.length - 1, List.mem_range.mpr (by omega), by omega⟩
    obtain ⟨entry, hentry, heq⟩ := List.mem_map.mp hmem
    have hvalid := validateUpgradeJournalEntry_ok.mp (hall entry hentry)
    omega
  · intro hshort entry hentry
    obtain ⟨i, hi, heq⟩ := hnumber entry hentry
    exact validateUpgradeJournalEntry_ok.mpr ⟨h.entries entry hentry, by omega, by omega⟩

/-- A condition that only the entries and the changed ids matter to. -/
def Journaled (good : Text → Prop) (s : State) : Prop := JournalSound s.journal ∧ ∀ id ∈ s.changed, good id

variable {good : Text → Prop}

variable {instanceId : Text}

theorem sideEffect_journaled {effect : Instance → Instance} : Keeps (Journaled good) (sideEffect instanceId effect) :=
  sideEffect_meets (fun _ => id) fun _ _ _ hs _ => ⟨fun _ => hs, hs⟩

theorem ask_journaled {α : Type} {reply : Answer → State → α} : Keeps (Journaled good) (ask reply) :=
  ask_meets (fun _ _ _ => id) fun _ hs _ => ⟨fun _ => hs, hs⟩

theorem emit_journaled {event : UpgradeEvent} : Keeps (Journaled good) (emit event) := emit_meets fun _ _ => id

theorem append_journaled {error : Option Text} {targetVersion originalVersion : Text}
    {status : UpgradeJournalStatus} (htarget : isVersion targetVersion = true) (horiginal : isVersion originalVersion = true)
    (hid : isBlank instanceId = false) : Keeps (Journaled good) (append targetVersion instanceId originalVersion status error) := by
  apply Meets.call
  intro answer s _ hs
  have hwritten : JournalSound (s.journal ++ [⟨targetVersion, instanceId, originalVersion, status, s.journal.length + 1, error⟩]) :=
    hs.1.append htarget horiginal hid
  cases answer.fate with
  | succeeds => exact ⟨hwritten, hs.2⟩
  | fails | stops =>
    dsimp only
    split_ifs
    · exact ⟨hwritten, hs.2⟩
    · exact hs

theorem recoverOriginal_journaled (h : entry.Sound) : Keeps (Journaled good) (recoverOriginal entry) := by
  have happend : ∀ status error,
      Keeps (Journaled good) (append entry.targetVersion entry.instanceId entry.originalVersion status error) :=
    fun _ _ => append_journaled h.target h.original h.id
  refine (happend _ _).bind fun _ => Keeps.tryCatch ?_ fun error => ?_
  · exact sideEffect_journaled.bind fun _ => sideEffect_journaled.bind fun _ => happend _ _
  · exact ((happend _ _).tryCatch fun _ => Keeps.pure).bind fun _ => Keeps.throw

theorem recoverInstance_journaled {inst : DeploymentInstance} {healthTimeoutMs : Option ℚ} {entry : Option UpgradeJournalEntry}
    (h : ∀ e ∈ entry, e.Sound) : Keeps (Journaled good) (recoverInstance inst healthTimeoutMs entry) := by
  cases entry with
  | none =>
    dsimp only [recoverInstance]
    split_ifs
    · exact sideEffect_journaled
    · exact Keeps.throw
  | some entry =>
    have hentry := h entry rfl
    dsimp only [recoverInstance]
    split_ifs
    · exact recoverOriginal_journaled hentry
    · refine ask_journaled.bind fun healthy => ?_
      cases healthy with
      | false => exact recoverOriginal_journaled hentry
      | true =>
        have happend : ∀ status, Keeps (Journaled good) (append entry.targetVersion entry.instanceId entry.originalVersion status none) :=
          fun _ => append_journaled hentry.target hentry.original hentry.id
        exact (happend _).bind fun _ => sideEffect_journaled.bind fun _ => happend _
    · exact recoverOriginal_journaled hentry

theorem lift_keeps {inv : State → Prop} {α β : Type} {result : Except Text α} {f : α → Controller β}
    (h : ∀ a, result = .ok a → Keeps inv (f a)) : Keeps inv (lift result >>= f) := by
  cases hresult : result with
  | ok a => exact h a hresult
  | error message => exact Keeps.throw

theorem reconcileInterrupted_journaled {first : List DeploymentInstance} {healthTimeoutMs : Option ℚ} :
    Keeps (Journaled good) (reconcileInterrupted first healthTimeoutMs) := by
  refine ask_journaled.bind fun read => lift_keeps fun latest hlatest => Keeps.forM fun d _ => ?_
  have hentry : ∀ entry ∈ latest.lookup d.id, entry.Sound :=
    fun entry h => (validateUpgradeJournalEntry_ok.mp (latest_entry hlatest entry h).2).1
  dsimp only [reconcileInstance]
  split_ifs
  · exact Keeps.pure
  · refine emit_journaled.bind fun _ => Keeps.tryCatch ?_ fun error => ?_
    · exact (recoverInstance_journaled hentry).bind fun _ => emit_journaled
    · exact emit_journaled.bind fun _ => Keeps.throw

theorem applyInstance_journaled {stage : UpgradeStage} {inst : DeploymentInstance} (htarget : isVersion plan.targetVersion = true)
    (hversion : isVersion inst.version = true) (hid : isBlank inst.id = false) (hgood : good inst.id) :
    Keeps (Journaled good) (applyInstance plan stage inst) := by
  have happend : ∀ status, Keeps (Journaled good) (append plan.targetVersion inst.id inst.version status none) :=
    fun _ => append_journaled htarget hversion hid
  have hchange : Keeps (Journaled good) (Program.modify fun s => { s with changed := s.changed ++ [inst.id] } : Controller Unit) := by
    apply Meets.modify
    rintro s ⟨hjournal, hchanged⟩
    refine ⟨hjournal, fun id hmem => ?_⟩
    rcases List.mem_append.mp hmem with hold | hnew
    · exact hchanged id hold
    · rw [List.mem_singleton.mp hnew]
      exact hgood
  have hdeploy : Keeps (Journaled good) (deploy inst.id plan.targetVersion) :=
    Keeps.bind (Meets.modify fun _ => id) fun _ => sideEffect_journaled
  dsimp only [applyInstance]
  refine emit_journaled.bind fun _ => Keeps.tryCatch ?_ fun error => emit_journaled.bind fun _ => Keeps.throw
  refine (happend _).bind fun _ => hchange.bind fun _ => sideEffect_journaled.bind fun _ => hdeploy.bind fun _ =>
    (happend _).bind fun _ => ask_journaled.bind fun healthy => ?_
  cases healthy with
  | false => exact Keeps.throw
  | true => exact (happend _).bind fun _ => sideEffect_journaled.bind fun _ => (happend _).bind fun _ => emit_journaled

theorem rollbackInstance_journaled {originals : List (Text × Text)} (htarget : isVersion plan.targetVersion = true)
    (hid : isBlank instanceId = false) (horiginal : isVersion ((originals.lookup instanceId).getD []) = true) :
    Keeps (Journaled good) (rollbackInstance plan originals instanceId) := by
  have happend : ∀ status error, Keeps (Journaled good)
      (append plan.targetVersion instanceId ((originals.lookup instanceId).getD []) status error) :=
    fun _ _ => append_journaled htarget horiginal hid
  have htell : ∀ message, Keeps (Journaled good) (rollbackFailure message) := fun _ => Meets.modify fun _ => id
  dsimp only [rollbackInstance]
  refine emit_journaled.bind fun _ => ((happend _ _).tryCatch fun _ => htell _).bind fun _ => Keeps.tryCatch ?_ fun error => ?_
  · exact sideEffect_journaled.bind fun _ => sideEffect_journaled.bind fun _ => ((happend _ _).tryCatch fun _ => htell _).bind fun _ =>
      emit_journaled
  · exact (htell _).bind fun _ => ((happend _ _).tryCatch fun _ => htell _).bind fun _ => emit_journaled

theorem upgrade_journaled {told : List DeploymentInstance} (htarget : isVersion plan.targetVersion = true)
    (hnodup : (told.map (·.id)).Nodup) (hvalid : ∀ d ∈ told, isBlank d.id = false ∧ isVersion d.version = true) :
    Meets (fun _ => True) (Journaled fun _ => False) (upgrade plan told)
      ⟨fun _ s => JournalSound s.journal, fun _ s => JournalSound s.journal, fun s => JournalSound s.journal⟩ := by
  let originals := told.map fun d => (d.id, d.version)
  let good : Text → Prop := fun id => isBlank id = false ∧ isVersion ((originals.lookup id).getD []) = true
  have hgood : ∀ d ∈ told, good d.id := by
    intro d hd
    have hlookup : originals.lookup d.id = some d.version := by
      refine lookup_of_mem (List.mem_map.mpr ⟨d, hd, rfl⟩) fun v hv => ?_
      obtain ⟨d', hd', heq⟩ := List.mem_map.mp hv
      obtain rfl := List.inj_on_of_nodup_map hnodup hd' hd (congrArg Prod.fst heq)
      exact (congrArg Prod.snd heq).symm
    refine ⟨(hvalid d hd).1, ?_⟩
    rw [hlookup]
    exact (hvalid d hd).2
  have hbatch : ∀ stage batch, (∀ d ∈ batch, d ∈ told) → Keeps (Journaled good) (applyBatch plan stage batch) := by
    intro stage batch hmem
    exact Keeps.forM fun d hd => applyInstance_journaled htarget (hvalid d (hmem d hd)).2 (hvalid d (hmem d hd)).1 (hgood d (hmem d hd))
  have hget : Keeps (Journaled good) (Program.get : Controller State) := Meets.get fun _ => id
  have hpending : ∀ d ∈ told.filter (·.version ≠ plan.targetVersion), d ∈ told := fun d hd => (List.mem_filter.mp hd).1
  have hkeeps : Keeps (Journaled good) (upgrade plan told) := by
    dsimp only [upgrade]
    refine Keeps.tryCatch ?_ fun error => ?_
    · refine (hbatch _ _ fun d hd => hpending d (List.mem_of_mem_take hd)).bind fun _ => (Keeps.forM fun batch hb => ?_).bind fun _ =>
        emit_journaled.bind fun _ => hget.bind fun _ => Keeps.pure
      refine hbatch _ _ fun d hd => hpending d ?_
      obtain ⟨k, -, rfl⟩ := List.mem_map.mp hb
      exact List.mem_of_mem_drop (List.mem_of_mem_drop (List.mem_of_mem_take hd))
    · apply Meets.bind fun read s => Journaled good read ∧ Journaled good s
      · exact Meets.get fun s hs => ⟨hs, hs⟩
      intro read
      refine Meets.given fun hread => ?_
      have hloop : Keeps (Journaled good) (read.changed.reverse.forM (rollbackInstance plan originals)) := by
        refine Keeps.forM fun id hid => ?_
        obtain ⟨hblank, horiginal⟩ := hread.2 id (List.mem_reverse.mp hid)
        exact rollbackInstance_journaled htarget hblank horiginal
      exact hloop.bind fun _ => hget.bind fun _ => Keeps.pure
  refine hkeeps.weaken (fun s hs => ⟨hs.1, fun id hid => (hs.2 id hid).elim⟩) ?_ ?_ ?_
  · exact fun _ s hs => hs.1
  · exact fun _ s hs => hs.1
  · exact fun s hs => hs.1

theorem execute_journaled {sha256Hex : Text → Text} {localeCompare : Text → Text → ℤ} {compatibility : VersionCompatibilityMatrix} :
    Keeps (fun s => JournalSound s.journal) (executeExclusive sha256Hex localeCompare compatibility plan) := by
  have hask : Keeps (fun s => JournalSound s.journal) instances := ask_meets (fun _ _ _ => id) fun _ hs _ => ⟨fun _ => hs, hs⟩
  refine lift_keeps fun _ _ => lift_keeps fun _ htarget => hask.bind fun first => lift_keeps fun _ _ => ?_
  split_ifs
  · exact Keeps.throw
  have hreconcile : Meets (fun _ => True) (Journaled fun _ => False)
      (reconcileInterrupted (sortInstances sha256Hex localeCompare first) plan.healthTimeoutMs)
      ⟨fun _ => Journaled fun _ => False, fun _ s => JournalSound s.journal, fun s => JournalSound s.journal⟩ :=
    reconcileInterrupted_journaled.weaken (fun _ => id) (fun _ _ => id) (fun _ s hs => hs.1) fun s hs => hs.1
  apply Meets.bind fun _ => Journaled fun _ => False
  · apply Meets.modify
    intro s hs
    exact ⟨hs, fun id hid => (by cases hid)⟩
  intro _
  apply Meets.bind _ hreconcile
  intro _
  apply Meets.bind fun _ => Journaled fun _ => False
  · exact Meets.modify fun _ => id
  intro _
  apply Meets.bind fun _ => Journaled fun _ => False
  · exact ask_meets (fun _ _ _ => id) fun _ hs _ => ⟨fun _ => hs.1, hs.1⟩
  intro second
  apply Meets.bind fun _ s => checkInstances compatibility plan (sortInstances sha256Hex localeCompare second) = .ok () ∧ Journaled (fun _ => False) s
  · exact lift_meets (fun _ hchecked s hs => ⟨hchecked, hs⟩) fun _ _ s hs => hs.1
  intro _
  refine Meets.given fun hchecked => ?_
  obtain ⟨hnodup, hvalid, -⟩ := checkInstances_ok hchecked
  exact upgrade_journaled (parseVersion_ok.mp htarget) hnodup hvalid

end Journal

/-! ### Every call -/

structure Recoverable (execution : Execution) (s : State) : Prop where
  plan : validateUpgradePlan execution.plan = .ok ()
  target : isVersion execution.plan.targetVersion = true
  versions : ∀ inst ∈ s.instances, isVersion inst.version = true
  ids : (s.instances.map (·.id)).Nodup ∧ ∀ inst ∈ s.instances, isBlank inst.id = false
  journal : s.journal.length < 2 ^ 53
  journaled : ∀ inst ∈ s.instances, inst.traffic = false → (∀ entry ∈ s.journal, entry.instanceId ≠ inst.id) →
    inst.id ∉ (execution.answers 0).unhealthy

section Calls
variable {sha256Hex : Text → Text} {localeCompare : Text → Text → ℤ} {compatibility : VersionCompatibilityMatrix}
  {deployed : List Deployment} {plan : RollingUpgradePlan} {s : State} {execution : Execution}

theorem report_none {answer : Answer} (h : report answer s = []) : s.instances = [] := List.map_eq_nil_iff.mp h

theorem execute_meets : Meets ok (fun s => s.deployments = deployed) (executeExclusive sha256Hex localeCompare compatibility plan)
    ⟨Finished ok compatibility deployed plan.targetVersion, fun _ => Certified compatibility deployed, Cut ok compatibility deployed⟩ := by
  have hcertified : ∀ s, s.deployments = deployed → Certified compatibility deployed s := fun s hs d hd => .inl (hs ▸ hd)
  dsimp only [executeExclusive]
  apply Meets.bind fun _ s => validateUpgradePlan plan = .ok () ∧ s.deployments = deployed
  · exact lift_meets (fun _ hplan s hs => ⟨hplan, hs⟩) fun _ _ => hcertified
  intro _
  refine Meets.given fun hplan => ?_
  apply Meets.bind fun _ s => s.deployments = deployed
  · exact lift_meets (fun _ _ _ => id) fun _ _ => hcertified
  intro _
  apply Meets.freeze State.instances
  intro told
  apply Meets.freeze State.journal
  intro journal
  apply Meets.bind fun first s => ((∀ s, s.instances = told → ToRecover (sortInstances sha256Hex localeCompare first) s) ∧
    (first = [] → told = [])) ∧ s.instances = told ∧ s.journal = journal ∧ s.deployments = deployed
  · apply ask_meets
    · rintro answer s - ⟨rfl, rfl, hdeployed⟩
      refine ⟨⟨fun s' hs' => ?_, report_none⟩, rfl, rfl, hdeployed⟩
      intro inst hinst
      exact report_toRecover answer s inst (hs' ▸ hinst)
    · rintro s ⟨-, -, hdeployed⟩ hfails
      exact ⟨fun _ => hcertified s hdeployed, hcertified s hdeployed, hfails⟩
  intro first
  refine Meets.given fun hfacts => ?_
  refine (executeReported_meets (validateUpgradePlan_batch hplan) hfacts.1 hfacts.2).weaken (fun _ => id) (fun _ _ => id) ?_ fun _ => id
  exact fun _ s hs => hs.1

variable {answers : ℕ → Answer}

theorem execute_reported (hplan : validateUpgradePlan plan = .ok ()) (htarget : isVersion plan.targetVersion = true)
    (hanswer : (answers 0).fate = .succeeds) :
    executeExclusive sha256Hex localeCompare compatibility plan answers s =
      executeReported sha256Hex localeCompare compatibility plan (report (answers 0) s) (fun n => answers (n + 1)) s := by
  have hask : instances answers s = ⟨.done (report (answers 0) s), s, fun n => answers (n + 1)⟩ := by
    dsimp only [instances, ask, Program.call]
    rw [hanswer]
  have hplan' : (lift (validateUpgradePlan plan) : Controller Unit) answers s = ⟨.done (), s, answers⟩ := by
    rw [hplan]
    rfl
  have htarget' : (lift (parseVersion plan.targetVersion) : Controller Unit) answers s = ⟨.done (), s, answers⟩ := by
    rw [parseVersion_ok.mpr htarget]
    rfl
  rw [executeExclusive, Program.bind_done hplan', Program.bind_done htarget', Program.bind_done hask]

theorem execute_refused (h : ¬ (validateUpgradePlan plan = .ok () ∧ isVersion plan.targetVersion = true)) :
    (executeExclusive sha256Hex localeCompare compatibility plan answers s).state = s := by
  unfold executeExclusive
  cases hplan : validateUpgradePlan plan with
  | error message => rfl
  | ok _ =>
    cases htarget : parseVersion plan.targetVersion with
    | error message => rfl
    | ok _ => exact absurd ⟨hplan, parseVersion_ok.mp htarget⟩ h

theorem executeReported_refused {first : List DeploymentInstance}
    (h : validateDeploymentInstances [] (sortInstances sha256Hex localeCompare first) ≠ .ok ()) :
    (executeReported sha256Hex localeCompare compatibility plan first answers s).state = s := by
  unfold executeReported
  cases hvalid : validateDeploymentInstances [] (sortInstances sha256Hex localeCompare first) with
  | error message => rfl
  | ok _ => exact absurd hvalid h

def Succeeds (answer : Answer) : Prop := answer.fate = .succeeds

theorem not_fails_succeeds : ¬ Fails Succeeds := fun ⟨_, hsucceeds, hnot⟩ => hnot hsucceeds

theorem executeReported_stuck (hanswers : ∀ n, Succeeds (answers n)) {answer : Answer}
    (hvalid : validateDeploymentInstances [] (sortInstances sha256Hex localeCompare (report answer s)) = .ok ())
    (hoff : ∃ inst ∈ s.instances, inst.traffic = false)
    (hstuck : Stuck s.journal (sortInstances sha256Hex localeCompare (report answer s))) :
    ¬ AllOn (executeReported sha256Hex localeCompare compatibility plan (report answer s) answers s).state := by
  have hdrained : ∀ d ∈ sortInstances sha256Hex localeCompare (report answer s), d.trafficEnabled = some false →
      ∃ inst ∈ s.instances, inst.id = d.id ∧ inst.traffic = false := by
    intro d hd htraffic
    obtain ⟨inst, hinst, rfl⟩ := mem_report.mp ((sort_perm _).mem_iff.mp hd)
    exact ⟨inst, hinst, rfl, Option.some.inj htraffic⟩
  have hmeets : Meets Succeeds (fun s' => s'.instances = s.instances ∧ s'.journal = s.journal)
      (executeReported sha256Hex localeCompare compatibility plan (report answer s)) ⟨fun _ _ => False, fun _ s => ¬ AllOn s, fun _ => False⟩ := by
    dsimp only [executeReported]
    rw [hvalid]
    apply Meets.bind fun _ s' => s'.instances = s.instances ∧ s'.journal = s.journal
    · exact Meets.pure fun _ => id
    intro _
    split_ifs with hempty
    · apply Meets.throw
      rintro s' ⟨-, -⟩
      obtain ⟨inst, hinst, -⟩ := hoff
      rw [report_none hempty] at hinst
      cases hinst
    apply Meets.bind fun _ s' => s'.instances = s.instances ∧ s'.journal = s.journal
    · exact Meets.modify fun _ => id
    intro _
    apply Meets.bind fun _ _ => False
    · exact reconcileInterrupted_stuck (validateDeploymentInstances_ok.mp hvalid).1 hoff hdrained hstuck
    intro _
    exact Meets.of_false
  have hended := (hmeets answers s hanswers ⟨rfl, rfl⟩).2
  revert hended
  cases (executeReported sha256Hex localeCompare compatibility plan (report answer s) answers s).outcome with
  | done | stopped => exact fun hfalse => hfalse.elim
  | threw error => exact id

theorem Recoverable.not_stuck (h : Recoverable execution s) (hjournal : JournalSound s.journal) :
    ¬ Stuck s.journal (sortInstances sha256Hex localeCompare (report (execution.answers 0) s)) := by
  rintro (⟨entry, hentry, hinvalid⟩ | ⟨d, hd, hnone, hhealthy, htraffic⟩)
  · exact hinvalid (hjournal.valid_iff.mpr h.journal entry hentry)
  · obtain ⟨inst, hinst, rfl⟩ := mem_report.mp ((sort_perm _).mem_iff.mp hd)
    have hunhealthy : inst.id ∈ (execution.answers 0).unhealthy := by simpa using hhealthy
    exact h.journaled inst hinst (Option.some.inj htraffic) hnone hunhealthy

theorem report_valid (answer : Answer) : validateDeploymentInstances [] (sortInstances sha256Hex localeCompare (report answer s)) = .ok () ↔
    (∀ inst ∈ s.instances, isVersion inst.version = true) ∧ (s.instances.map (·.id)).Nodup ∧ ∀ inst ∈ s.instances, isBlank inst.id = false := by
  have hids : ((sortInstances sha256Hex localeCompare (report answer s)).map (·.id)).Nodup ↔ (s.instances.map (·.id)).Nodup := by
    rw [((sort_perm _).map _).nodup_iff, report, List.map_map]
    rfl
  have hmem : ∀ P : Text → Text → Prop, (∀ d ∈ sortInstances sha256Hex localeCompare (report answer s), P d.id d.version) ↔
      ∀ inst ∈ s.instances, P inst.id inst.version := by
    intro P
    constructor
    · intro h inst hinst
      exact h _ ((sort_perm _).mem_iff.mpr (mem_report.mpr ⟨inst, hinst, rfl⟩))
    · intro h d hd
      obtain ⟨inst, hinst, rfl⟩ := mem_report.mp ((sort_perm _).mem_iff.mp hd)
      exact h inst hinst
  rw [validateDeploymentInstances_ok, hids, hmem fun id version => isBlank id = false ∧ id ∉ [] ∧ isVersion version = true]
  constructor
  · rintro ⟨hnodup, hall⟩
    exact ⟨fun inst hinst => (hall inst hinst).2.2, hnodup, fun inst hinst => (hall inst hinst).1⟩
  · rintro ⟨hversions, hnodup, hblank⟩
    exact ⟨hnodup, fun inst hinst => ⟨hblank inst hinst, List.not_mem_nil, hversions inst hinst⟩⟩

theorem allOn_ended (hjournal : JournalSound s.journal) (hanswers : ∀ n, Succeeds (execution.answers n))
    (h : AllOn s ∨ Recoverable execution s) : AllOn (execution.ended sha256Hex localeCompare s).state := by
  unfold Execution.ended
  by_cases hplan : validateUpgradePlan execution.plan = .ok () ∧ isVersion execution.plan.targetVersion = true
  · have hfirst : ∀ s', s'.instances = s.instances →
        ToRecover (sortInstances sha256Hex localeCompare (report (execution.answers 0) s)) s' := by
      intro s' hs' inst hinst
      exact report_toRecover (execution.answers 0) s inst (hs' ▸ hinst)
    have hrest : ∀ n, Succeeds (execution.answers (n + 1)) := fun n => hanswers (n + 1)
    rw [execute_reported hplan.1 hplan.2 (hanswers 0)]
    have hmeets : Meets Succeeds (fun s' => s'.instances = s.instances ∧ s'.journal = s.journal ∧ s'.deployments = s.deployments)
        (executeReported sha256Hex localeCompare execution.compatibility execution.plan (report (execution.answers 0) s)) _ :=
      executeReported_meets (validateUpgradePlan_batch hplan.1) hfirst report_none
    have hended := (hmeets (fun n => execution.answers (n + 1)) s hrest ⟨rfl, rfl, rfl⟩).2
    revert hended
    cases (executeReported sha256Hex localeCompare execution.compatibility execution.plan (report (execution.answers 0) s)
      (fun n => execution.answers (n + 1)) s).outcome with
    | done result =>
      intro hdone
      cases hsucceeded : result.succeeded with
      | true => exact fun inst hinst => (hdone.upgraded hsucceeded inst hinst).2
      | false =>
        have hnone : result.rollbackFailures = [] := by
          by_contra hsome
          exact not_fails_succeeds (hdone.failures hsucceeded hsome)
        exact (hdone.restored hsucceeded hnone).2
    | stopped => exact fun hcut => absurd hcut.2 not_fails_succeeds
    | threw error =>
      rintro ⟨-, hfails | hon | ⟨hsame, hinvalid⟩ | ⟨hstuck, hdrained⟩⟩
      · exact absurd hfails not_fails_succeeds
      · exact hon
      · rcases h with hon | hrecoverable
        · exact fun inst hinst => hon inst (hsame ▸ hinst)
        · exact absurd ((report_valid _).mpr ⟨hrecoverable.versions, hrecoverable.ids⟩) hinvalid
      · rcases h with hon | hrecoverable
        · intro inst hinst
          refine (hdrained inst hinst).resolve_right ?_
          rintro ⟨d, hd, -, htraffic⟩
          obtain ⟨before, hbefore, rfl⟩ := mem_report.mp ((sort_perm _).mem_iff.mp hd)
          have hoff := (hon before hbefore).symm.trans (Option.some.inj htraffic)
          cases hoff
        · exact absurd hstuck (hrecoverable.not_stuck hjournal)
  · rw [execute_refused hplan]
    exact h.resolve_right fun hrecoverable => hplan ⟨hrecoverable.plan, hrecoverable.target⟩

theorem recoverable_of_allOn (hjournal : JournalSound s.journal) (hanswers : ∀ n, Succeeds (execution.answers n))
    (hon : AllOn (execution.ended sha256Hex localeCompare s).state) (hnot : ¬ AllOn s) : Recoverable execution s := by
  have hoff : ∃ inst ∈ s.instances, inst.traffic = false := by
    by_contra hnone
    push Not at hnone
    exact hnot fun inst hinst => by simpa using hnone inst hinst
  have hplan : validateUpgradePlan execution.plan = .ok () ∧ isVersion execution.plan.targetVersion = true := by
    by_contra hplan
    rw [Execution.ended, execute_refused hplan] at hon
    exact hnot hon
  have hrest : ∀ n, Succeeds (execution.answers (n + 1)) := fun n => hanswers (n + 1)
  rw [Execution.ended, execute_reported hplan.1 hplan.2 (hanswers 0)] at hon
  have hvalid : validateDeploymentInstances [] (sortInstances sha256Hex localeCompare (report (execution.answers 0) s)) = .ok () := by
    by_contra hinvalid
    rw [executeReported_refused hinvalid] at hon
    exact hnot hon
  have hfree : ¬ Stuck s.journal (sortInstances sha256Hex localeCompare (report (execution.answers 0) s)) :=
    fun hstuck => executeReported_stuck hrest hvalid hoff hstuck hon
  obtain ⟨hjournaled, habandoned⟩ := not_or.mp hfree
  obtain ⟨hversions, hids⟩ := (report_valid _).mp hvalid
  push Not at hjournaled
  refine ⟨hplan.1, hplan.2, hversions, hids, hjournal.valid_iff.mp hjournaled, fun inst hinst htraffic hnone hunhealthy => habandoned ?_⟩
  refine ⟨_, (sort_perm _).mem_iff.mpr (mem_report.mpr ⟨inst, hinst, rfl⟩), hnone, ?_, ?_⟩
  · simpa using hunhealthy
  · rw [htraffic]

theorem journalSound_reachable {told : List Instance}
    (hs : Reachable (step sha256Hex localeCompare) (fun _ _ => True) { instances := told } s) : JournalSound s.journal := by
  let inv : State → Prop := fun s => JournalSound s.journal
  have hstart : inv { instances := told } := ⟨fun entry hentry => (by cases hentry), rfl⟩
  have hnext : ∀ s execution s', inv s → True → step sha256Hex localeCompare s execution = some s' → inv s' := by
    intro s execution s' hsound _ hstep
    obtain rfl := Option.some.inj hstep
    have hkeeps : Keeps inv (executeExclusive sha256Hex localeCompare execution.compatibility execution.plan) := execute_journaled
    have hended := (hkeeps execution.answers s (fun _ => trivial) hsound).2
    revert hended
    unfold Execution.ended
    cases (executeExclusive sha256Hex localeCompare execution.compatibility execution.plan execution.answers s).outcome with
    | done | threw | stopped => exact id
  exact hs.invariant hstart hnext

/-- Whatever fails and wherever a call is cut off, the next one can read the journal until its numbers run out. -/
theorem journal_readable {told : List Instance}
    (hs : Reachable (step sha256Hex localeCompare) (fun _ _ => True) { instances := told } s) :
    JournalSound s.journal ∧ ((∃ latest, latestUpgradeStates s.journal = .ok latest) ↔ s.journal.length < 2 ^ 53) := by
  have hsound := journalSound_reachable hs
  refine ⟨hsound, fun ⟨latest, hlatest⟩ => hsound.valid_iff.mp (latest_valid hlatest), fun hshort => ?_⟩
  exact latest_ok (hsound.valid_iff.mpr hshort)

/-- In every run of calls, each of which may end in a crash, from any instances. -/
theorem all_or_nothing {told : List Instance} (hs : Reachable (step sha256Hex localeCompare) (fun _ _ => True) { instances := told } s)
    (execution : Execution) :
    (∀ d ∈ (execution.ended sha256Hex localeCompare s).state.deployments, d ∈ s.deployments ∨
      execution.compatibility.assertCompatible d.fromVersion d.toVersion = .ok ()) ∧
    (∀ result, (execution.ended sha256Hex localeCompare s).outcome = .done result →
      (result.succeeded = true → ∀ inst ∈ (execution.ended sha256Hex localeCompare s).state.instances,
        inst.version = execution.plan.targetVersion ∧ inst.traffic = true) ∧
      (result.succeeded = false → result.rollbackFailures = [] →
        (execution.ended sha256Hex localeCompare s).state.instances = (execution.ended sha256Hex localeCompare s).state.reconciled ∧
          ∀ inst ∈ (execution.ended sha256Hex localeCompare s).state.instances, inst.traffic = true)) ∧
    ((∀ n, (execution.answers n).fate = .succeeds) →
      ((∀ inst ∈ (execution.ended sha256Hex localeCompare s).state.instances, inst.traffic = true) ↔
        (∀ inst ∈ s.instances, inst.traffic = true) ∨ Recoverable execution s)) := by
  have hjournal := journalSound_reachable hs
  have hmeets : Meets (fun _ => True) (fun s' => s'.deployments = s.deployments)
      (executeExclusive sha256Hex localeCompare execution.compatibility execution.plan) _ := execute_meets
  refine ⟨?_, fun result hresult => ?_, fun hanswers => ⟨fun hon => ?_, allOn_ended hjournal hanswers⟩⟩
  · have hended := (hmeets execution.answers s (fun _ => trivial) rfl).2
    revert hended
    unfold Execution.ended
    cases (executeExclusive sha256Hex localeCompare execution.compatibility execution.plan execution.answers s).outcome with
    | done result => exact fun hdone => hdone.certified
    | threw error => exact id
    | stopped => exact fun hcut => hcut.1
  · have hended := (hmeets execution.answers s (fun _ => trivial) rfl).2
    unfold Execution.ended at hresult ⊢
    rw [hresult] at hended
    exact ⟨hended.upgraded, hended.restored⟩
  · by_cases hall : AllOn s
    · exact .inl hall
    · exact .inr (recoverable_of_allOn hjournal hanswers hon hall)

end Calls

/-! ### One instance -/

def oneInstance : List Instance := [{ id := ['a'], zone := none, version := "1.0.0".toList, traffic := true }]

def onePlan : RollingUpgradePlan :=
  { targetVersion := "1.1.0".toList, canaryCount := some 1, batchSize := some 1, healthTimeoutMs := some 1000 }

def oneMatrix : VersionCompatibilityMatrix :=
  ⟨[(transitionKey "1.0.0".toList "1.1.0".toList, ⟨"1.0.0".toList, "1.1.0".toList, true, none⟩)]⟩

def oneHash : Text → Text := fun _ => List.replicate 64 '0'

def oneCompare : Text → Text → ℤ := fun _ _ => 0

def oneExecution : Execution := ⟨onePlan, oneMatrix, fun _ => {}⟩

def oneResult : UpgradeResult where
  succeeded := true
  targetVersion := "1.1.0".toList
  upgraded := [['a']]
  events := [{ stage := .canary, instanceId := some ['a'], fromVersion := some "1.0.0".toList, toVersion := some "1.1.0".toList, outcome := .started },
    { stage := .canary, instanceId := some ['a'], fromVersion := some "1.0.0".toList, toVersion := some "1.1.0".toList, outcome := .healthy },
    { stage := .complete, outcome := .healthy }]
  failure := none
  rollbackFailures := []

theorem all_or_nothing_upgraded : (oneExecution.ended oneHash oneCompare { instances := oneInstance }).outcome = .done oneResult ∧
    ∀ inst ∈ (oneExecution.ended oneHash oneCompare { instances := oneInstance }).state.instances,
      inst.version = "1.1.0".toList ∧ inst.traffic = true := by
  have hdone : (oneExecution.ended oneHash oneCompare { instances := oneInstance }).outcome = .done oneResult := by decide +kernel
  have hs : Reachable (step oneHash oneCompare) (fun _ _ => True) { instances := oneInstance } { instances := oneInstance } := .start
  exact ⟨hdone, ((all_or_nothing hs oneExecution).2.1 oneResult hdone).1 rfl⟩

def cutExecution : Execution := ⟨onePlan, oneMatrix, fun n => if n = 5 then { fate := .stops } else {}⟩

def cutEnd : State := ((step oneHash oneCompare { instances := oneInstance } cutExecution).bind fun s => step oneHash oneCompare s oneExecution).getD
  { instances := [] }

theorem cut_stays_drained : exec (step oneHash oneCompare) { instances := oneInstance } [cutExecution, oneExecution] = some cutEnd ∧
    (∀ n, (oneExecution.answers n).fate = .succeeds) ∧ ¬ ∀ inst ∈ cutEnd.instances, inst.traffic = true := by
  refine ⟨?_, fun _ => rfl, ?_⟩
  · decide +kernel
  · decide +kernel

theorem journal_readable_cut : cutEnd.journal ≠ [] ∧ JournalSound cutEnd.journal := by
  have hexec : exec (step oneHash oneCompare) { instances := oneInstance } [cutExecution, oneExecution] = some cutEnd := by decide +kernel
  have hs := Reachable.start.of_exec _ (fun _ _ _ => trivial) hexec
  exact ⟨by decide +kernel, (journal_readable hs).1⟩

end OxScada.Scaling.Upgrade
