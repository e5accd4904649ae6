import OxScada.Scaling.Convergence

/-! The writes of a replica are later than everything it has seen, until a peer has driven its
clock to the end of the safe integers. -/

namespace OxScada.Scaling
open OxScada.Bytes OxScada.Js OxScada.Edge OxScada.Runs

section
variable (localeCompare : Text → Text → ℤ)

/-- What a merge takes in: it ends at the first operation that throws. -/
def handedOver (operations : List ConfigurationOperation) : List ConfigurationOperation :=
  operations.takeWhile fun operation => (validateOperation operation).isOk

/-- The operations that a replica has seen: its own writes, those that were applied, and those
that the merges have handed over. -/
def History.seen : History → List ConfigurationOperation
  | .created _ => []
  | .called before call => match call.effect localeCompare (before.replica localeCompare) with
    | .ok (_, operation) => operation :: before.seen
    | .error _ => before.seen
  | .merge before other => handedOver ((other.replica localeCompare).operations localeCompare) ++ before.seen

def Call.isLocal : Call → Bool
  | .apply _ => false
  | _ => true

def History.written : History → List ConfigurationOperation
  | .created _ => []
  | .called before call => match call.effect localeCompare (before.replica localeCompare) with
    | .ok (_, operation) => if call.isLocal then operation :: before.written else before.written
    | .error _ => before.written
  | .merge before _ => before.written

/-! ### What a replica knows of the operations it has seen -/

/-- The operation is taken in: it is put into its cell, or it is dropped. -/
structure Grows (r : ReplicatedConfiguration) (operation : ConfigurationOperation) (r' : ReplicatedConfiguration) : Prop where
  actorId : r'.actorId = r.actorId
  clock : r.clock ≤ r'.clock
  bound : r.clock ≤ 2 ^ 53 → r'.clock ≤ 2 ^ 53
  counter : operation.version.counter ≤ r'.clock
  cells : r'.cells = r.cells ∨ r'.cells = mapSet r.cells operation.path operation

/-- An operation that `validateOperation` accepts, up to the counter of a write of the replica. -/
structure Wellformed (actorId : Text) (operation : ConfigurationOperation) : Prop where
  path : validateConfigPath operation.path = .ok ()
  value : operation.deleted = false → operation.value.isSome = true
  origin : validateOperation operation = .ok () ∨ operation.version.actor = actorId

structure Known (r : ReplicatedConfiguration) (seen : List ConfigurationOperation) : Prop where
  actor : isBlank r.actorId = false
  nonneg : 0 ≤ r.clock
  bound : r.clock ≤ 2 ^ 53
  counter : ∀ operation ∈ seen, operation.version.counter ≤ r.clock
  wellformed : ∀ operation ∈ seen, Wellformed r.actorId operation
  nodup : (r.cells.map (·.1)).Nodup
  cell : ∀ path cell, (path, cell) ∈ r.cells → cell.path = path ∧ cell ∈ seen

variable {localeCompare} {r r' : ReplicatedConfiguration} {seen : List ConfigurationOperation} {operation : ConfigurationOperation}

theorem Known.grows (h : Known r seen) (hgrows : Grows r operation r') (hwellformed : Wellformed r.actorId operation) :
    Known r' (operation :: seen) where
  actor := hgrows.actorId ▸ h.actor
  nonneg := h.nonneg.trans hgrows.clock
  bound := hgrows.bound h.bound
  counter := by
    intro x hx
    rcases List.mem_cons.mp hx with rfl | hx
    · exact hgrows.counter
    · exact (h.counter x hx).trans hgrows.clock
  wellformed := by
    intro x hx
    rw [hgrows.actorId]
    rcases List.mem_cons.mp hx with rfl | hx
    · exact hwellformed
    · exact h.wellformed x hx
  nodup := by
    rcases hgrows.cells with hcells | hcells
    · rw [hcells]
      exact h.nodup
    · rw [hcells]
      exact mapSet_keys_nodup h.nodup
  cell := by
    have hold : ∀ path cell, (path, cell) ∈ r.cells → cell.path = path ∧ cell ∈ operation :: seen :=
      fun path cell hmem => (h.cell path cell hmem).imp_right (List.mem_cons_of_mem _)
    intro path cell hmem
    rcases hgrows.cells with hcells | hcells
    · rw [hcells] at hmem
      exact hold path cell hmem
    · rw [hcells] at hmem
      rcases mem_mapSet hmem with heq | hmem
      · obtain ⟨rfl, rfl⟩ := Prod.mk.inj heq
        exact ⟨rfl, List.mem_cons_self⟩
      · exact hold path cell hmem

theorem Wellformed.of_valid (actorId : Text) (h : validateOperation operation = .ok ()) : Wellformed actorId operation where
  path := (bind_unit_ok.mp h).1
  value := by
    intro hlive
    obtain ⟨-, hrest⟩ := bind_unit_ok.mp h
    obtain ⟨-, hvalue⟩ := bind_unit_ok.mp hrest
    rw [hlive] at hvalue
    cases hsome : operation.value with
    | none =>
      rw [hsome] at hvalue
      cases hvalue
    | some value => rfl
  origin := .inl h

theorem contest_grows (r : ReplicatedConfiguration) (current incoming : ConfigurationOperation) :
    (r.contest localeCompare current incoming).1.actorId = r.actorId ∧
      (r.contest localeCompare current incoming).1.clock = r.clock ∧
      ((r.contest localeCompare current incoming).1.cells = r.cells ∨
        (r.contest localeCompare current incoming).1.cells = mapSet r.cells incoming.path incoming) := by
  unfold ReplicatedConfiguration.contest
  dsimp only
  split_ifs
  all_goals first
    | exact ⟨rfl, rfl, .inl rfl⟩
    | exact ⟨rfl, rfl, .inr rfl⟩

theorem receive_grows (r : ReplicatedConfiguration) (hvalid : validateOperation operation = .ok ()) :
    Grows r operation (r.receive localeCompare operation).1 := by
  have hsafe := counter_of_valid hvalid
  have hbound : r.clock ≤ 2 ^ 53 → max r.clock operation.version.counter ≤ 2 ^ 53 := fun hr => max_le hr hsafe.le
  unfold ReplicatedConfiguration.receive
  dsimp only
  split
  · exact ⟨rfl, le_max_left _ _, hbound, le_max_right _ _, .inr rfl⟩
  next current hcurrent =>
    obtain ⟨hactor, hclock, hcells⟩ :=
      @contest_grows localeCompare { r with clock := max r.clock operation.version.counter } current operation
    refine ⟨hactor, ?_, ?_, ?_, hcells⟩
    · rw [hclock]
      exact le_max_left _ _
    · rw [hclock]
      exact hbound
    · rw [hclock]
      exact le_max_right _ _

theorem Known.receive (h : Known r seen) (hvalid : validateOperation operation = .ok ()) :
    Known (r.receive localeCompare operation).1 (operation :: seen) :=
  h.grows (receive_grows r hvalid) (.of_valid _ hvalid)

theorem Known.mono {seen' : List ConfigurationOperation} (h : Known r seen) (hsame : ∀ x, x ∈ seen' ↔ x ∈ seen) : Known r seen' where
  actor := h.actor
  nonneg := h.nonneg
  bound := h.bound
  counter x hx := h.counter x ((hsame x).mp hx)
  wellformed x hx := h.wellformed x ((hsame x).mp hx)
  nodup := h.nodup
  cell path cell hmem := (h.cell path cell hmem).imp_right (hsame cell).mpr

theorem Known.applyAll (operations : List ConfigurationOperation) (h : Known r seen) :
    Known (r.applyAll localeCompare operations).1 (handedOver operations ++ seen) := by
  induction operations generalizing r seen with
  | nil => exact h
  | cons operation rest ih =>
    unfold ReplicatedConfiguration.applyAll
    cases hvalid : validateOperation operation with
    | error message =>
      have happly : r.apply localeCompare operation = .error message := by
        unfold ReplicatedConfiguration.apply
        rw [hvalid]
        rfl
      have hnone : handedOver (operation :: rest) = [] := by
        rw [handedOver, List.takeWhile_cons, hvalid]
        rfl
      rw [happly, hnone]
      exact h
    | ok =>
      have happly : r.apply localeCompare operation = .ok (r.receive localeCompare operation) :=
        bind_unit_ok.mpr ⟨hvalid, rfl⟩
      have hsome : handedOver (operation :: rest) = operation :: handedOver rest := by
        rw [handedOver, List.takeWhile_cons, hvalid]
        rfl
      rw [happly, hsome]
      refine (ih (h.receive hvalid)).mono fun x => ?_
      simp only [List.mem_append, List.mem_cons, List.cons_append]
      tauto

/-! ### A write of its own -/

theorem write_grows (h : Known r seen) (path : Text) (value : Option JsonValue) (deleted : Bool) :
    Grows r (r.write path value deleted).2 (r.write path value deleted).1 := by
  have hnext : r.clock ≤ r.nextClock := by
    have hbound := h.bound
    unfold ReplicatedConfiguration.nextClock
    omega
  have hlimit : r.nextClock ≤ 2 ^ 53 := min_le_right _ _
  exact ⟨rfl, hnext, fun _ => hlimit, le_refl r.nextClock, .inr rfl⟩

theorem local_effect {call : Call} (hlocal : call.isLocal = true) (hcall : call.effect localeCompare r = .ok (r', operation)) :
    ∃ path value deleted, (r', operation) = r.write path value deleted ∧ validateConfigPath path = .ok () ∧
      (deleted = false → ∃ plain, value = some plain ∧ validateConfigurationValue path plain.1 = .ok ()) := by
  cases call with
  | set path value =>
    obtain ⟨hpath, hset⟩ := bind_unit_ok.mp hcall
    cases value with
    | none => cases hset
    | some value =>
      obtain ⟨hvalue, hset⟩ := bind_unit_ok.mp hset
      exact ⟨path, some value, false, (Except.ok.inj hset).symm, hpath, fun _ => ⟨value, rfl, hvalue⟩⟩
  | delete path =>
    obtain ⟨hpath, hdelete⟩ := bind_unit_ok.mp hcall
    exact ⟨path, none, true, (Except.ok.inj hdelete).symm, hpath, fun hlive => by cases hlive⟩
  | apply => cases hlocal

theorem Known.effect {call : Call} (h : Known r seen) (hcall : call.effect localeCompare r = .ok (r', operation)) :
    Grows r operation r' ∧ Wellformed r.actorId operation := by
  cases hlocal : call.isLocal with
  | true =>
    obtain ⟨path, value, deleted, heq, hpath, hvalue⟩ := local_effect hlocal hcall
    obtain ⟨rfl, rfl⟩ := Prod.mk.inj heq
    refine ⟨write_grows h path value deleted, hpath, fun hlive => ?_, .inr rfl⟩
    obtain ⟨plain, hplain, -⟩ := hvalue hlive
    exact Option.isSome_iff_exists.mpr ⟨plain, hplain⟩
  | false =>
    cases call with
    | apply incoming =>
      cases happly : r.apply localeCompare incoming with
      | error message =>
        rw [Call.effect, happly] at hcall
        cases hcall
      | ok result =>
        rw [Call.effect, happly] at hcall
        obtain ⟨rfl, rfl⟩ := Prod.mk.inj (Except.ok.inj hcall)
        obtain ⟨hvalid, hreceive⟩ := bind_unit_ok.mp happly
        rw [← Except.ok.inj hreceive]
        exact ⟨receive_grows r hvalid, .of_valid _ hvalid⟩
    | set => cases hlocal
    | delete => cases hlocal

theorem History.known (history : History) : Known (history.replica localeCompare) (history.seen localeCompare) := by
  induction history with
  | created actorId =>
    refine ⟨actorId.2, le_rfl, ?_, ?_, ?_, List.nodup_nil, ?_⟩
    · show (0 : ℤ) ≤ 2 ^ 53
      norm_num
    · intro x hx
      cases hx
    · intro x hx
      cases hx
    · intro path cell hmem
      cases hmem
  | called before call ih =>
    cases hcall : call.effect localeCompare (before.replica localeCompare) with
    | error message =>
      simp only [History.replica, History.seen, hcall]
      exact ih
    | ok result =>
      obtain ⟨hgrows, hwellformed⟩ := ih.effect hcall
      simp only [History.replica, History.seen, hcall]
      exact ih.grows hgrows hwellformed
  | merge before other ih => exact ih.applyAll _

theorem Known.write_valid (h : Known r seen) (hclock : r.clock < 2 ^ 53 - 1) {path : Text} {value : Option JsonValue}
    {deleted : Bool} (hpath : validateConfigPath path = .ok ())
    (hvalue : deleted = false → ∃ plain, value = some plain ∧ validateConfigurationValue path plain.1 = .ok ()) :
    validateOperation (r.write path value deleted).2 = .ok () := by
  have hnext : r.nextClock = r.clock + 1 := by
    unfold ReplicatedConfiguration.nextClock
    omega
  have hversion : validateVersion ⟨r.nextClock, r.actorId⟩ = .ok () := by
    have hnonneg := h.nonneg
    unfold validateVersion
    rw [if_neg]
    rw [hnext, h.actor]
    unfold isSafeInteger
    simp only [Bool.false_eq_true, or_false, not_or, not_not, not_lt]
    omega
  refine bind_unit_ok.mpr ⟨hpath, bind_unit_ok.mpr ⟨hversion, ?_⟩⟩
  cases deleted with
  | true => rfl
  | false =>
    obtain ⟨plain, rfl, hplain⟩ := hvalue rfl
    exact hplain

theorem apply_later (hvalid : validateOperation operation = .ok ())
    (hlater : ∀ x ∈ r.operations localeCompare, 0 < compareVersions localeCompare operation.version x.version) :
    ∃ r', r.apply localeCompare operation = .ok (r', true) := by
  have haccepted : (r.receive localeCompare operation).2 = true := by
    unfold ReplicatedConfiguration.receive
    dsimp only
    split
    · rfl
    next current hcurrent =>
      have hmem : current ∈ r.operations localeCompare := by
        rw [ReplicatedConfiguration.operations, List.mem_insertionSort]
        exact List.mem_map_of_mem (lookup_mem hcurrent)
      have hpos := hlater current hmem
      unfold ReplicatedConfiguration.contest
      dsimp only
      rw [if_neg hpos.ne', if_pos hpos]
  refine ⟨(r.receive localeCompare operation).1, bind_unit_ok.mpr ⟨hvalid, ?_⟩⟩
  rw [← haccepted]
  rfl

/-! ### The writes of a replica -/

theorem History.written_seen (history : History) : ∀ x ∈ history.written localeCompare, x ∈ history.seen localeCompare := by
  induction history with
  | created => exact fun _ hx => hx
  | called before call ih =>
    cases hcall : call.effect localeCompare (before.replica localeCompare) with
    | error message =>
      simp only [History.written, History.seen, hcall]
      exact ih
    | ok result =>
      simp only [History.written, History.seen, hcall]
      intro x hx
      split_ifs at hx with hlocal
      · rcases List.mem_cons.mp hx with rfl | hx
        · exact List.mem_cons_self
        · exact List.mem_cons_of_mem _ (ih x hx)
      · exact List.mem_cons_of_mem _ (ih x hx)
  | merge before other ih => exact fun x hx => List.mem_append_right _ (ih x hx)

theorem applyAll_clock_le (r : ReplicatedConfiguration) (operations : List ConfigurationOperation) :
    r.clock ≤ (r.applyAll localeCompare operations).1.clock := by
  induction operations generalizing r with
  | nil => exact le_rfl
  | cons operation rest ih =>
    unfold ReplicatedConfiguration.applyAll
    cases happly : r.apply localeCompare operation with
    | error message => exact le_rfl
    | ok result =>
      obtain ⟨hvalid, hreceive⟩ := bind_unit_ok.mp happly
      have hgrows := @receive_grows localeCompare _ r hvalid
      rw [Except.ok.inj hreceive] at hgrows
      exact hgrows.clock.trans (ih result.1)

theorem Known.write_later (h : Known r seen) (hclock : r.clock < 2 ^ 53) {x : ConfigurationOperation} (hx : x ∈ seen) :
    0 < compareVersions localeCompare ⟨r.nextClock, r.actorId⟩ x.version := by
  have hnext : r.nextClock = r.clock + 1 := by
    unfold ReplicatedConfiguration.nextClock
    omega
  have hcounter := h.counter x hx
  refine compareVersions_pos.mpr (.inl ?_)
  show x.version.counter < r.nextClock
  omega

theorem History.written_nodup (history : History) (hclock : (history.replica localeCompare).clock < 2 ^ 53) :
    ((history.written localeCompare).map (·.version)).Nodup := by
  induction history with
  | created => exact List.nodup_nil
  | called before call ih =>
    cases hcall : call.effect localeCompare (before.replica localeCompare) with
    | error message =>
      simp only [History.written, History.replica, hcall] at hclock ⊢
      exact ih hclock
    | ok result =>
      have hgrows := (before.known.effect hcall).1
      simp only [History.written, History.replica, hcall] at hclock ⊢
      have hnodup := ih (hgrows.clock.trans_lt hclock)
      split_ifs with hlocal
      · refine List.nodup_cons.mpr ⟨fun hmem => ?_, hnodup⟩
        obtain ⟨x, hx, hversion⟩ := List.mem_map.mp hmem
        obtain ⟨path, value, deleted, heq, -, -⟩ := local_effect hlocal hcall
        obtain ⟨-, hwrite⟩ := Prod.mk.inj heq
        have hcounter := before.known.counter x (before.written_seen x hx)
        have hnext : result.2.version.counter = (before.replica localeCompare).nextClock := by
          rw [hwrite]
        have hlater := hgrows.clock
        rw [hversion, hnext] at hcounter
        have hend : (before.replica localeCompare).clock < 2 ^ 53 := hlater.trans_lt hclock
        unfold ReplicatedConfiguration.nextClock at hcounter
        omega
      · exact hnodup
  | merge before other ih => exact ih ((applyAll_clock_le _ _).trans_lt hclock)

/-- A local write is later than all that its replica has seen, and is accepted wherever nothing
else is held, if and only if the clock is not at the end of the safe integers. -/
theorem local_write_wins (history : History) {call : Call} (hlocal : call.isLocal = true)
    (hcall : call.effect localeCompare (history.replica localeCompare) = .ok (r', operation)) :
    ((∀ x ∈ history.seen localeCompare, 0 < compareVersions localeCompare operation.version x.version) ∧
      validateOperation operation = .ok () ∧
      (∀ other : ReplicatedConfiguration, (∀ x ∈ other.operations localeCompare, x ∈ history.seen localeCompare) →
        ∃ other', other.apply localeCompare operation = .ok (other', true)) ∧
      (((History.called history call).written localeCompare).map (·.version)).Nodup) ↔
    (history.replica localeCompare).clock < 2 ^ 53 - 1 := by
  obtain ⟨path, value, deleted, heq, hpath, hvalue⟩ := local_effect hlocal hcall
  obtain ⟨hreplica, rfl⟩ := Prod.mk.inj heq
  have hknown : Known (history.replica localeCompare) (history.seen localeCompare) := history.known
  constructor
  · rintro ⟨-, hvalid, -, -⟩
    have hsafe : (history.replica localeCompare).nextClock < 2 ^ 53 := counter_of_valid hvalid
    unfold ReplicatedConfiguration.nextClock at hsafe
    omega
  · intro hclock
    have hvalid := hknown.write_valid hclock hpath hvalue
    have hlater : ∀ x ∈ history.seen localeCompare, 0 < compareVersions localeCompare
        ((history.replica localeCompare).write path value deleted).2.version x.version :=
      fun x hx => hknown.write_later (by omega) hx
    refine ⟨hlater, hvalid, fun other hother => ?_, ?_⟩
    · exact apply_later hvalid fun x hx => hlater x (hother x hx)
    · refine History.written_nodup _ ?_
      simp only [History.replica, hcall, hreplica]
      show (history.replica localeCompare).nextClock < 2 ^ 53
      unfold ReplicatedConfiguration.nextClock
      omega

end

def setMode (value : Text) : Call := .set "gateway.mode".toList (some ⟨.string value, .string value⟩)

def peerOperation : ConfigurationOperation where
  path := "gateway.mode".toList
  version := ⟨5, ['p']⟩
  value := some ⟨.string ['p'], .string ['p']⟩
  deleted := false

def peerFirst : History := .called (.created ⟨['l'], rfl⟩) (.apply peerOperation)

theorem local_write_wins_applied : (setMode ['a']).isLocal = true ∧
    ∃ r' operation, (setMode ['a']).effect compareCodeUnits (peerFirst.replica compareCodeUnits) = .ok (r', operation) ∧
      0 < compareVersions compareCodeUnits operation.version peerOperation.version ∧ validateOperation operation = .ok () := by
  have hlocal : (setMode ['a']).isLocal = true := rfl
  have hclock : (peerFirst.replica compareCodeUnits).clock < 2 ^ 53 - 1 := by decide +kernel
  obtain ⟨hlater, hvalid, -⟩ := (local_write_wins peerFirst hlocal rfl).mpr hclock
  have hseen : peerOperation ∈ peerFirst.seen compareCodeUnits := List.mem_singleton_self _
  exact ⟨hlocal, _, _, rfl, hlater _ hseen, hvalid⟩

def lastOperation : ConfigurationOperation := { peerOperation with version := ⟨2 ^ 53 - 1, ['p']⟩ }

def lastCounter : History := .called (.created ⟨['l'], rfl⟩) (.apply lastOperation)

theorem local_write_invalid : validateOperation lastOperation = .ok () ∧
    ∃ r' operation, (setMode ['a']).effect compareCodeUnits (lastCounter.replica compareCodeUnits) = .ok (r', operation) ∧
    operation.version.counter = 2 ^ 53 ∧ validateOperation operation = .error "invalid CRDT logical version".toList := by
  refine ⟨rfl, _, _, rfl, ?_, ?_⟩
  all_goals decide +kernel

end OxScada.Scaling
