import OxScada.Edge.MergeLaws
import OxScada.Edge.Sections
import OxScada.Scaling.ReplicatedConfiguration

/-! Replicas that were given the same operations have the same configuration. At each path a
replica has the greatest operation that it has heard of, whatever the order it heard them in. -/

namespace OxScada.Scaling
open OxScada.Bytes OxScada.Js OxScada.Edge OxScada.Runs

/-! ### The order in which the later operation wins -/

section Order
variable (localeCompare : Text → Text → ℤ)

def ConfigurationOperation.le (x y : ConfigurationOperation) : Prop :=
  0 < compareVersions localeCompare y.version x.version ∨
    y.version = x.version ∧ codeUnits (x.canonical localeCompare) ≤ codeUnits (y.canonical localeCompare)

variable {localeCompare}

theorem compareVersions_pos {left right : LogicalVersion} : 0 < compareVersions localeCompare left right ↔
    right.counter < left.counter ∨ right.counter = left.counter ∧ 0 < localeCompare left.actor right.actor := by
  unfold compareVersions
  split_ifs with hne
  · constructor
    · intro hpos
      exact .inl (by omega)
    · rintro (hlt | ⟨heq, -⟩)
      · omega
      · omega
  · have heq : right.counter = left.counter := by omega
    simp [heq]

variable (h : LocaleOrder localeCompare)
include h

theorem compareVersions_zero {left right : LogicalVersion} : compareVersions localeCompare left right = 0 ↔ left = right := by
  obtain ⟨counter, actor⟩ := left
  obtain ⟨counter', actor'⟩ := right
  simp only [compareVersions, LogicalVersion.mk.injEq]
  constructor
  · intro hzero
    split_ifs at hzero with hne
    · exact absurd hzero hne
    · exact ⟨by omega, h.eq_of_zero _ _ hzero⟩
  · rintro ⟨rfl, rfl⟩
    rw [sub_self, if_neg (by decide), h.self]

theorem compareVersions_trans {x y z : LogicalVersion} (hxy : 0 < compareVersions localeCompare x y)
    (hyz : 0 < compareVersions localeCompare y z) : 0 < compareVersions localeCompare x z := by
  rw [compareVersions_pos] at hxy hyz ⊢
  rcases hxy with hxy | ⟨hxy, hactor⟩ <;> rcases hyz with hyz | ⟨hyz, hactor'⟩
  · exact .inl (hyz.trans hxy)
  · exact .inl (hyz ▸ hxy)
  · exact .inl (hxy ▸ hyz)
  · exact .inr ⟨hyz.trans hxy, h.trans_pos hactor hactor'⟩

theorem compareVersions_asymm {x y : LogicalVersion} (hxy : 0 < compareVersions localeCompare x y) :
    ¬ 0 < compareVersions localeCompare y x := by
  intro hyx
  have hpos := compareVersions_trans h hxy hyx
  rw [(compareVersions_zero h).mpr rfl] at hpos
  exact lt_irrefl 0 hpos

theorem compareVersions_total {x y : LogicalVersion} (hne : x ≠ y) :
    0 < compareVersions localeCompare x y ∨ 0 < compareVersions localeCompare y x := by
  rw [compareVersions_pos, compareVersions_pos]
  rcases lt_trichotomy x.counter y.counter with hlt | heq | hgt
  · exact .inr (.inl hlt)
  · have hactor : localeCompare x.actor y.actor ≠ 0 := by
      intro hzero
      obtain ⟨counter, actor⟩ := x
      obtain ⟨counter', actor'⟩ := y
      obtain rfl : counter = counter' := heq
      obtain rfl : actor = actor' := h.eq_of_zero _ _ hzero
      exact hne rfl
    rcases h.pos_of_neg hactor with hpos | hpos
    · exact .inl (.inr ⟨heq.symm, hpos⟩)
    · exact .inr (.inr ⟨heq, hpos⟩)
  · exact .inl (.inl hgt)

variable {x y z : ConfigurationOperation}

theorem ConfigurationOperation.le_trans (hxy : x.le localeCompare y) (hyz : y.le localeCompare z) : x.le localeCompare z := by
  rcases hxy with hxy | ⟨hxy, htext⟩ <;> rcases hyz with hyz | ⟨hyz, htext'⟩
  · exact .inl (compareVersions_trans h hyz hxy)
  · exact .inl (hyz ▸ hxy)
  · exact .inl (hxy ▸ hyz)
  · exact .inr ⟨hyz.trans hxy, htext.trans htext'⟩

omit h in
theorem ConfigurationOperation.toJson_wellFormed (x : ConfigurationOperation) : x.toJson.WellFormed := by
  have hversion : x.version.toJson.WellFormed := by
    refine .object (by simp only [Fields.keys, List.map_cons, List.map_nil]; decide) fun field hfield => ?_
    rcases List.mem_pair.mp hfield with rfl | rfl
    · exact .string _
    · exact .number _
  cases hvalue : x.value with
  | none =>
    refine .object ?_ fun field hfield => ?_
    · simp only [hvalue, optionalField, Fields.keys, Option.map_none, Option.toList_none, List.map_nil, List.append_nil,
        List.map_append, List.map_cons]
      decide
    · simp only [hvalue, optionalField, Option.map_none, Option.toList_none, List.map_nil, List.append_nil,
        List.cons_append, List.nil_append, List.mem_cons, List.not_mem_nil, or_false] at hfield
      rcases hfield with rfl | rfl | rfl
      · exact .bool _
      · exact .string _
      · exact hversion
  | some value =>
    refine .object ?_ fun field hfield => ?_
    · simp only [hvalue, optionalField, Fields.keys, Option.map_some, Option.toList_some, List.map_nil,
        List.map_append, List.map_cons]
      decide
    · simp only [hvalue, optionalField, Option.map_some, Option.toList_some, List.map_nil, List.map_cons,
        List.cons_append, List.nil_append, List.mem_cons, List.not_mem_nil, or_false] at hfield
      rcases hfield with rfl | rfl | rfl | rfl
      · exact .bool _
      · exact .string _
      · exact value.2
      · exact hversion

omit h in
theorem ConfigurationOperation.ext_toJson (hversion : x.version = y.version) (hjson : x.toJson = y.toJson) : x = y := by
  obtain ⟨path, version, value, deleted⟩ := x
  obtain ⟨path', version', value', deleted'⟩ := y
  obtain rfl : version = version' := hversion
  cases value with
  | none =>
    cases value' with
    | none =>
      simp [toJson, optionalField] at hjson
      rw [hjson.1, hjson.2]
    | some value' => simp [toJson, optionalField] at hjson
  | some value =>
    cases value' with
    | none => simp [toJson, optionalField] at hjson
    | some value' =>
      simp [toJson, optionalField] at hjson
      rw [hjson.1, hjson.2.1, Subtype.ext hjson.2.2]

theorem ConfigurationOperation.le_antisymm (hxy : x.le localeCompare y) (hyx : y.le localeCompare x) : x = y := by
  rcases hxy with hxy | ⟨hversion, htext⟩
  · rcases hyx with hyx | ⟨hversion, -⟩
    · exact absurd hyx (compareVersions_asymm h hxy)
    · rw [hversion, (compareVersions_zero h).mpr rfl] at hxy
      exact absurd hxy (lt_irrefl 0)
  · rcases hyx with hyx | ⟨-, htext'⟩
    · rw [hversion, (compareVersions_zero h).mpr rfl] at hyx
      exact absurd hyx (lt_irrefl 0)
    · have hcanonical : x.canonical localeCompare = y.canonical localeCompare :=
        codeUnits_injective (htext.antisymm htext')
      exact ext_toJson hversion.symm (canonicalJson_injective x.toJson_wellFormed y.toJson_wellFormed hcanonical)

end Order

/-! ### Taking in an operation -/

section Replica
variable {localeCompare : Text → Text → ℤ} {r r' : ReplicatedConfiguration} {operation : ConfigurationOperation}

variable (localeCompare) in
/-- The replica takes in an operation: at its path there is then the greater of it and what
was there before, and nothing else changes. -/
structure TakesIn (r : ReplicatedConfiguration) (operation : ConfigurationOperation) (r' : ReplicatedConfiguration) : Prop where
  clock : r.clock ≤ r'.clock
  counter : operation.version.counter ≤ r'.clock
  nodup : (r.cells.map (·.1)).Nodup → (r'.cells.map (·.1)).Nodup
  other : ∀ path, path ≠ operation.path → r'.cells.lookup path = r.cells.lookup path
  winner : ∃ cell, r'.cells.lookup operation.path = some cell ∧ operation.le localeCompare cell ∧
    (∀ old, r.cells.lookup operation.path = some old → old.le localeCompare cell) ∧
    (cell = operation ∨ r.cells.lookup operation.path = some cell)

theorem ConfigurationOperation.le_refl (x : ConfigurationOperation) : x.le localeCompare x := .inr ⟨rfl, le_rfl⟩

theorem TakesIn.of_put (hclock : r.clock ≤ r'.clock) (hcounter : operation.version.counter ≤ r'.clock)
    (hcells : r'.cells = mapSet r.cells operation.path operation)
    (hold : ∀ old, r.cells.lookup operation.path = some old → old.le localeCompare operation) :
    TakesIn localeCompare r operation r' where
  clock := hclock
  counter := hcounter
  nodup := by
    intro hnodup
    rw [hcells]
    exact mapSet_keys_nodup hnodup
  other := by
    intro path hpath
    rw [hcells, lookup_mapSet, if_neg hpath]
  winner := by
    refine ⟨operation, ?_, operation.le_refl, hold, .inl rfl⟩
    rw [hcells, lookup_mapSet, if_pos rfl]

theorem TakesIn.of_drop {current : ConfigurationOperation} (hclock : r.clock ≤ r'.clock)
    (hcounter : operation.version.counter ≤ r'.clock) (hcells : r'.cells = r.cells)
    (hcurrent : r.cells.lookup operation.path = some current) (hle : operation.le localeCompare current) :
    TakesIn localeCompare r operation r' where
  clock := hclock
  counter := hcounter
  nodup := by
    intro hnodup
    rw [hcells]
    exact hnodup
  other := by
    intro path _
    rw [hcells]
  winner := by
    refine ⟨current, hcells ▸ hcurrent, hle, fun old hold => ?_, .inr hcurrent⟩
    rw [hcurrent] at hold
    rw [Option.some.inj hold]
    exact old.le_refl

theorem contest_clock (r : ReplicatedConfiguration) (current incoming : ConfigurationOperation) :
    (r.contest localeCompare current incoming).1.clock = r.clock := by
  unfold ReplicatedConfiguration.contest
  dsimp only
  split_ifs <;> rfl

theorem contest_cells (h : LocaleOrder localeCompare) (r : ReplicatedConfiguration) (current incoming : ConfigurationOperation) :
    incoming.le localeCompare current ∧ (r.contest localeCompare current incoming).1.cells = r.cells ∨
      current.le localeCompare incoming ∧
        (r.contest localeCompare current incoming).1.cells = mapSet r.cells incoming.path incoming := by
  unfold ReplicatedConfiguration.contest
  dsimp only
  by_cases hzero : compareVersions localeCompare incoming.version current.version = 0
  · have hversion := (compareVersions_zero h).mp hzero
    rw [if_pos hzero]
    split_ifs with hsame hlt
    · exact .inl ⟨.inr ⟨hversion.symm, by rw [hsame]⟩, rfl⟩
    · exact .inr ⟨.inr ⟨hversion, hlt.le⟩, rfl⟩
    · exact .inl ⟨.inr ⟨hversion.symm, not_lt.mp hlt⟩, rfl⟩
  · rw [if_neg hzero]
    by_cases hpos : 0 < compareVersions localeCompare incoming.version current.version
    · refine .inr ⟨.inl hpos, ?_⟩
      simp only [if_pos hpos]
      split_ifs <;> rfl
    · have hne : current.version ≠ incoming.version := fun heq => hzero ((compareVersions_zero h).mpr heq.symm)
      refine .inl ⟨.inl ((compareVersions_total h hne).resolve_right hpos), ?_⟩
      simp only [if_neg hpos]
      split_ifs <;> rfl

theorem receive_takesIn (h : LocaleOrder localeCompare) (r : ReplicatedConfiguration) (incoming : ConfigurationOperation) :
    TakesIn localeCompare r incoming (r.receive localeCompare incoming).1 := by
  unfold ReplicatedConfiguration.receive
  dsimp only
  cases hlookup : r.cells.lookup incoming.path with
  | none =>
    refine .of_put (le_max_left _ _) (le_max_right _ _) rfl fun old hold => ?_
    rw [hlookup] at hold
    cases hold
  | some current =>
    dsimp only
    have hclock := @contest_clock localeCompare { r with clock := max r.clock incoming.version.counter } current incoming
    have hlow : r.clock ≤ max r.clock incoming.version.counter := le_max_left _ _
    have hhigh : incoming.version.counter ≤ max r.clock incoming.version.counter := le_max_right _ _
    rcases contest_cells h { r with clock := max r.clock incoming.version.counter } current incoming with ⟨hle, hcells⟩ | ⟨hle, hcells⟩
    · exact .of_drop (hclock ▸ hlow) (hclock ▸ hhigh) hcells hlookup hle
    · refine .of_put (hclock ▸ hlow) (hclock ▸ hhigh) hcells fun old hold => ?_
      rw [hlookup] at hold
      exact Option.some.inj hold ▸ hle

theorem counter_of_valid (h : validateOperation operation = .ok ()) : operation.version.counter < 2 ^ 53 := by
  obtain ⟨-, hversion⟩ := bind_unit_ok.mp h
  obtain ⟨hversion, -⟩ := bind_unit_ok.mp hversion
  unfold validateVersion at hversion
  split_ifs at hversion with hbad
  obtain ⟨hsafe, -⟩ := not_or.mp hbad
  have hle := (not_not.mp hsafe).2
  omega

theorem write_takesIn (r : ReplicatedConfiguration) (path : Text) (value : Option JsonValue)
    (deleted : Bool) (hvalid : validateOperation (r.write path value deleted).2 = .ok ())
    (hclock : ∀ path cell, r.cells.lookup path = some cell → cell.version.counter ≤ r.clock) :
    TakesIn localeCompare r (r.write path value deleted).2 (r.write path value deleted).1 := by
  have hsafe : r.nextClock < 2 ^ 53 := counter_of_valid hvalid
  have hnext : r.nextClock = r.clock + 1 := by
    unfold ReplicatedConfiguration.nextClock at hsafe ⊢
    omega
  refine .of_put (show r.clock ≤ r.nextClock by omega) (le_rfl) rfl fun old hold => ?_
  have hold := hclock _ _ hold
  exact .inl ((compareVersions_pos).mpr (.inl (show old.version.counter < r.nextClock by omega)))

end Replica

/-! ### Histories -/

inductive Call where
  | set (path : Text) (value : Option JsonValue)
  | delete (path : Text)
  | apply (operation : ConfigurationOperation)

/-- What has been done with a replica. A merge reads another replica as it is at that time. -/
inductive History where
  | created (actorId : {text : Text // isBlank text = false})
  | called (before : History) (call : Call)
  | merge (before other : History)

section History
variable (localeCompare : Text → Text → ℤ)

/-- The replica after a call, and the operation that it took in. -/
def Call.effect (r : ReplicatedConfiguration) : Call → Except Text (ReplicatedConfiguration × ConfigurationOperation)
  | .set path value => r.set path value
  | .delete path => r.delete path
  | .apply operation => (r.apply localeCompare operation).map fun result => (result.1, operation)

/-- A call that throws changes nothing, a merge that throws keeps what it has applied. -/
def History.replica : History → ReplicatedConfiguration
  | .created actorId => { actorId := actorId.1 }
  | .called before call => match call.effect localeCompare before.replica with
    | .ok (r, _) => r
    | .error _ => before.replica
  | .merge before other => (before.replica.merge localeCompare other.replica).1

/-- The operations that were applied to the replica, and its own writes. -/
def History.received : History → List ConfigurationOperation
  | .created _ => []
  | .called before call => match call.effect localeCompare (before.replica localeCompare) with
    | .ok (_, operation) => operation :: before.received
    | .error _ => before.received
  | .merge before other => (other.replica localeCompare).operations localeCompare ++ before.received

/-- The operations that the replica or one that it was merged with has received. -/
def History.heard : History → List ConfigurationOperation
  | .created _ => []
  | .called before call => match call.effect localeCompare (before.replica localeCompare) with
    | .ok (_, operation) => operation :: before.heard
    | .error _ => before.heard
  | .merge before other => other.heard ++ before.heard

/-- Only a write of its own can be invalid, when the clock of the replica has run out. -/
def History.Valid (history : History) : Prop := ∀ operation ∈ history.heard localeCompare, validateOperation operation = .ok ()

/-- A set of valid operations has been delivered: the replica has heard of all of them, and
has received no others. -/
structure History.Delivers (history : History) (operations : Set ConfigurationOperation) : Prop where
  valid : history.Valid localeCompare
  complete : ∀ operation ∈ operations, operation ∈ history.heard localeCompare
  sound : ∀ operation ∈ history.received localeCompare, operation ∈ operations

/-- What a replica has at each path: the greatest operation that it has heard of, and one that
it has received. -/
structure Settled (r : ReplicatedConfiguration) (received heard : List ConfigurationOperation) : Prop where
  nodup : (r.cells.map (·.1)).Nodup
  cell : ∀ path cell, r.cells.lookup path = some cell → cell.path = path ∧ cell ∈ received ∧ cell.version.counter ≤ r.clock
  greatest : ∀ operation ∈ heard, ∃ cell, r.cells.lookup operation.path = some cell ∧ operation.le localeCompare cell

variable {localeCompare} {r r' : ReplicatedConfiguration} {received heard : List ConfigurationOperation}
  {operation : ConfigurationOperation}

theorem Settled.takesIn (h : LocaleOrder localeCompare) (hr : Settled localeCompare r received heard)
    (htakes : TakesIn localeCompare r operation r') : Settled localeCompare r' (operation :: received) (operation :: heard) where
  nodup := htakes.nodup hr.nodup
  cell := by
    obtain ⟨winner, hwinner, -, -, hchoice⟩ := htakes.winner
    have hold : ∀ path cell, r.cells.lookup path = some cell →
        cell.path = path ∧ cell ∈ operation :: received ∧ cell.version.counter ≤ r'.clock := by
      intro path cell hcell
      obtain ⟨hpath, hmem, hclock⟩ := hr.cell path cell hcell
      exact ⟨hpath, List.mem_cons_of_mem _ hmem, hclock.trans htakes.clock⟩
    intro path cell hcell
    by_cases hpath : path = operation.path
    · rw [hpath, hwinner] at hcell
      obtain rfl := Option.some.inj hcell
      rcases hchoice with rfl | hbefore
      · exact ⟨hpath.symm, List.mem_cons_self, htakes.counter⟩
      · exact hpath ▸ hold _ _ hbefore
    · rw [htakes.other path hpath] at hcell
      exact hold path cell hcell
  greatest := by
    obtain ⟨winner, hwinner, hle, hgreater, -⟩ := htakes.winner
    intro x hx
    rcases List.mem_cons.mp hx with rfl | hx
    · exact ⟨winner, hwinner, hle⟩
    · obtain ⟨cell, hcell, hxle⟩ := hr.greatest x hx
      by_cases hpath : x.path = operation.path
      · rw [hpath] at hcell ⊢
        exact ⟨winner, hwinner, ConfigurationOperation.le_trans h hxle (hgreater cell hcell)⟩
      · exact ⟨cell, (htakes.other x.path hpath).trans hcell, hxle⟩

theorem Settled.effect (h : LocaleOrder localeCompare) (hr : Settled localeCompare r received heard) {call : Call}
    (hcall : call.effect localeCompare r = .ok (r', operation)) (hvalid : validateOperation operation = .ok ()) :
    Settled localeCompare r' (operation :: received) (operation :: heard) := by
  have hclock : ∀ path cell, r.cells.lookup path = some cell → cell.version.counter ≤ r.clock :=
    fun path cell hcell => (hr.cell path cell hcell).2.2
  refine hr.takesIn h ?_
  cases call with
  | set path value =>
    obtain ⟨-, hset⟩ := bind_unit_ok.mp hcall
    cases value with
    | none => cases hset
    | some value =>
      obtain ⟨-, hset⟩ := bind_unit_ok.mp hset
      obtain ⟨rfl, rfl⟩ := Prod.mk.inj (Except.ok.inj hset)
      exact write_takesIn r path (some value) false hvalid hclock
  | delete path =>
    obtain ⟨-, hdelete⟩ := bind_unit_ok.mp hcall
    obtain ⟨rfl, rfl⟩ := Prod.mk.inj (Except.ok.inj hdelete)
    exact write_takesIn r path none true hvalid hclock
  | apply incoming =>
    cases happly : r.apply localeCompare incoming with
    | error message =>
      rw [Call.effect, happly] at hcall
      cases hcall
    | ok result =>
      rw [Call.effect, happly] at hcall
      obtain ⟨rfl, rfl⟩ := Prod.mk.inj (Except.ok.inj hcall)
      obtain ⟨-, hreceive⟩ := bind_unit_ok.mp happly
      rw [← Except.ok.inj hreceive]
      exact receive_takesIn h r incoming

variable {heard' received' : List ConfigurationOperation} {history : History}

theorem Settled.mono (hr : Settled localeCompare r received heard)
    (hreceived : ∀ x ∈ received, x ∈ received') (hheard : ∀ x ∈ heard', ∃ y ∈ heard, y.path = x.path ∧ x.le localeCompare y)
    (h : LocaleOrder localeCompare) : Settled localeCompare r received' heard' where
  nodup := hr.nodup
  cell := by
    intro path cell hcell
    obtain ⟨hpath, hmem, hclock⟩ := hr.cell path cell hcell
    exact ⟨hpath, hreceived cell hmem, hclock⟩
  greatest := by
    intro x hx
    obtain ⟨y, hy, hpath, hxy⟩ := hheard x hx
    obtain ⟨cell, hcell, hle⟩ := hr.greatest y hy
    exact ⟨cell, hpath ▸ hcell, ConfigurationOperation.le_trans h hxy hle⟩

theorem Settled.applyAll (h : LocaleOrder localeCompare) (operations : List ConfigurationOperation)
    (hvalid : ∀ operation ∈ operations, validateOperation operation = .ok ())
    (hr : Settled localeCompare r received heard) :
    (r.applyAll localeCompare operations).2 = .ok () ∧
      Settled localeCompare (r.applyAll localeCompare operations).1 (operations ++ received) (operations ++ heard) := by
  induction operations generalizing r received heard with
  | nil => exact ⟨rfl, hr⟩
  | cons operation rest ih =>
    rw [List.forall_mem_cons] at hvalid
    have happly : r.apply localeCompare operation = .ok (r.receive localeCompare operation) :=
      bind_unit_ok.mpr ⟨hvalid.1, rfl⟩
    obtain ⟨hok, hrest⟩ := ih hvalid.2 (hr.takesIn h (receive_takesIn h r operation))
    have hmiddle : ∀ {front : List ConfigurationOperation} {x}, x ∈ rest ++ operation :: front ↔ x ∈ (operation :: rest) ++ front := by
      intro front x
      simp only [List.mem_append, List.mem_cons, List.cons_append]
      tauto
    unfold ReplicatedConfiguration.applyAll
    rw [happly]
    refine ⟨hok, hrest.mono (fun x hx => hmiddle.mp hx) (fun x hx => ?_) h⟩
    exact ⟨x, hmiddle.mpr hx, rfl, x.le_refl⟩

theorem Settled.lookup (hr : Settled localeCompare r received heard) {path : Text} {cell : ConfigurationOperation}
    (hmem : (path, cell) ∈ r.cells) : r.cells.lookup path = some cell := by
  refine lookup_of_mem hmem fun other hother => ?_
  have hsame := List.inj_on_of_nodup_map hr.nodup hother hmem rfl
  exact (Prod.mk.inj hsame).2

theorem mem_operations (hr : Settled localeCompare r received heard) :
    operation ∈ r.operations localeCompare ↔ r.cells.lookup operation.path = some operation := by
  rw [ReplicatedConfiguration.operations, List.mem_insertionSort, List.mem_map]
  constructor
  · rintro ⟨⟨path, cell⟩, hmem, rfl⟩
    have hlookup := hr.lookup hmem
    rw [(hr.cell path cell hlookup).1]
    exact hlookup
  · intro hlookup
    exact ⟨_, lookup_mem hlookup, rfl⟩

theorem History.settled (h : LocaleOrder localeCompare) (history : History) (hvalid : history.Valid localeCompare) :
    Settled localeCompare (history.replica localeCompare) (history.received localeCompare) (history.heard localeCompare) ∧
      ∀ operation ∈ history.received localeCompare, operation ∈ history.heard localeCompare := by
  induction history with
  | created actorId =>
    refine ⟨⟨List.nodup_nil, ?_, ?_⟩, fun _ hmem => hmem⟩
    · intro path cell hcell
      cases hcell
    · intro x hx
      cases hx
  | called before call ih =>
    cases hcall : call.effect localeCompare (before.replica localeCompare) with
    | error message =>
      simp only [History.Valid, History.replica, History.received, History.heard, hcall] at hvalid ⊢
      exact ih hvalid
    | ok result =>
      obtain ⟨r', operation⟩ := result
      simp only [History.Valid, History.replica, History.received, History.heard, hcall, List.forall_mem_cons] at hvalid ⊢
      obtain ⟨hsettled, hsub⟩ := ih hvalid.2
      exact ⟨hsettled.effect h hcall hvalid.1, List.mem_cons_self, fun x hx => List.mem_cons_of_mem _ (hsub x hx)⟩
  | merge before other ih ih' =>
    simp only [History.Valid, History.heard, List.forall_mem_append] at hvalid
    obtain ⟨hsettled, hsub⟩ := ih hvalid.2
    obtain ⟨hother, hsub'⟩ := ih' hvalid.1
    -- what the other replica hands over it has received
    have hhanded : ∀ x ∈ (other.replica localeCompare).operations localeCompare, x ∈ other.heard localeCompare :=
      fun x hx => hsub' x (hother.cell _ _ ((mem_operations hother).mp hx)).2.1
    have hall := (hsettled.applyAll h _ (fun x hx => hvalid.1 x (hhanded x hx))).2
    refine ⟨hall.mono (fun x hx => hx) (fun x hx => ?_) h, fun x hx => ?_⟩
    · rcases List.mem_append.mp hx with hx | hx
      · obtain ⟨cell, hcell, hle⟩ := hother.greatest x hx
        have hpath := (hother.cell _ _ hcell).1
        exact ⟨cell, List.mem_append_left _ ((mem_operations hother).mpr (hpath ▸ hcell)), hpath, hle⟩
      · exact ⟨x, List.mem_append_right _ hx, rfl, x.le_refl⟩
    · rcases List.mem_append.mp hx with hx | hx
      · exact List.mem_append_left _ (hhanded x hx)
      · exact List.mem_append_right _ (hsub x hx)

/-! ### Convergence -/

def SameCells (r s : ReplicatedConfiguration) : Prop := ∀ path, r.cells.lookup path = s.cells.lookup path

theorem sameCells_of_delivers (h : LocaleOrder localeCompare) {operations : Set ConfigurationOperation} {history' : History}
    (hr : history.Delivers localeCompare operations) (hs : history'.Delivers localeCompare operations) :
    SameCells (history.replica localeCompare) (history'.replica localeCompare) := by
  obtain ⟨hsettled, -⟩ := history.settled h hr.valid
  obtain ⟨hsettled', -⟩ := history'.settled h hs.valid
  -- what one replica has at a path the other has heard of
  have hcell : ∀ path x, (history.replica localeCompare).cells.lookup path = some x →
      (history'.replica localeCompare).cells.lookup path = some x := by
    intro path x hx
    obtain ⟨rfl, hmem, -⟩ := hsettled.cell path x hx
    obtain ⟨y, hy, hxy⟩ := hsettled'.greatest x (hs.complete x (hr.sound x hmem))
    obtain ⟨hpath, hmem', -⟩ := hsettled'.cell x.path y hy
    obtain ⟨z, hz, hyz⟩ := hsettled.greatest y (hr.complete y (hs.sound y hmem'))
    rw [hpath, hx] at hz
    obtain rfl := Option.some.inj hz
    rw [ConfigurationOperation.le_antisymm h hxy hyz]
    exact hpath ▸ hy
  intro path
  cases hx : (history.replica localeCompare).cells.lookup path with
  | some x => exact (hcell path x hx).symm
  | none =>
    cases hy : (history'.replica localeCompare).cells.lookup path with
    | none => rfl
    | some y =>
      obtain ⟨rfl, hmem, -⟩ := hsettled'.cell path y hy
      obtain ⟨x, hx', -⟩ := hsettled.greatest y (hr.complete y (hs.sound y hmem))
      rw [hx] at hx'
      cases hx'

theorem Settled.operations_nodup (hr : Settled localeCompare r received heard) : (r.cells.map (·.2)).Nodup := by
  refine List.Nodup.of_map ConfigurationOperation.path ?_
  have hpaths : (r.cells.map (·.2)).map ConfigurationOperation.path = r.cells.map (·.1) := by
    rw [List.map_map]
    refine List.map_congr_left fun entry hentry => ?_
    exact (hr.cell _ _ (hr.lookup hentry)).1
  rw [hpaths]
  exact hr.nodup

section
variable (h : LocaleOrder localeCompare)
include h

theorem SameCells.operations {s : ReplicatedConfiguration}
    (hr : Settled localeCompare r received heard) (hs : Settled localeCompare s received' heard') (hsame : SameCells r s) :
    r.operations localeCompare = s.operations localeCompare := by
  have htotal : Std.Total fun x y : ConfigurationOperation => localeCompare x.path y.path ≤ 0 := by
    refine ⟨fun x y => ?_⟩
    rcases le_or_gt (localeCompare x.path y.path) 0 with hle | hgt
    · exact .inl hle
    · exact .inr ((h.swap _ _).mp hgt).le
  have htrans : IsTrans ConfigurationOperation fun x y => localeCompare x.path y.path ≤ 0 := ⟨fun _ _ _ => h.trans _ _ _⟩
  have hmem : ∀ x, x ∈ r.operations localeCompare ↔ x ∈ s.operations localeCompare := by
    intro x
    rw [mem_operations hr, mem_operations hs, hsame]
  have hnodup : ∀ {t : ReplicatedConfiguration} {received heard}, Settled localeCompare t received heard →
      (t.operations localeCompare).Nodup := by
    intro t received heard ht
    exact (List.perm_insertionSort _ _).nodup_iff.mpr ht.operations_nodup
  have hperm := (List.perm_ext_iff_of_nodup (hnodup hr) (hnodup hs)).mpr hmem
  refine hperm.eq_of_pairwise (fun x y hx hy hxy hyx => ?_) (List.pairwise_insertionSort _ _) (List.pairwise_insertionSort _ _)
  -- two operations on one path are the cell at it
  have hpath : x.path = y.path := h.eq_of_zero _ _ (hxy.antisymm (h.swap_nonneg.mpr hyx))
  have hxcell := (mem_operations hr).mp hx
  have hycell := (mem_operations hs).mp hy
  rw [hsame, hpath, hycell] at hxcell
  exact (Option.some.inj hxcell).symm

theorem SameCells.value {s : ReplicatedConfiguration}
    (hr : Settled localeCompare r received heard) (hs : Settled localeCompare s received' heard') (hsame : SameCells r s) :
    r.value localeCompare = s.value localeCompare := by
  have hhidden : ∀ operation, hiddenByParentTombstone localeCompare operation r.cells =
      hiddenByParentTombstone localeCompare operation s.cells := by
    intro operation
    unfold hiddenByParentTombstone
    simp only [hsame _]
  unfold ReplicatedConfiguration.value
  rw [hsame.operations h hr hs]
  simp only [hhidden]

theorem History.Valid.merge_delivers {history' : History} (hr : history.Valid localeCompare)
    (hs : history'.Valid localeCompare) :
    (History.merge history history').Delivers localeCompare
      {operation | operation ∈ history.heard localeCompare ∨ operation ∈ history'.heard localeCompare} := by
  have hvalid : (History.merge history history').Valid localeCompare := List.forall_mem_append.mpr ⟨hs, hr⟩
  obtain ⟨-, hsub⟩ := (History.merge history history').settled h hvalid
  refine ⟨hvalid, fun x hx => ?_, fun x hx => ?_⟩
  · exact List.mem_append.mpr hx.symm
  · exact (List.mem_append.mp (hsub x hx)).symm

theorem History.Valid.delivers (hr : history.Valid localeCompare) :
    history.Delivers localeCompare {operation | operation ∈ history.heard localeCompare} :=
  ⟨hr, fun _ hx => hx, (history.settled h hr).2⟩

end

theorem History.Delivers.congr {operations operations' : Set ConfigurationOperation}
    (hr : history.Delivers localeCompare operations) (heq : ∀ x, x ∈ operations ↔ x ∈ operations') :
    history.Delivers localeCompare operations' :=
  Set.ext heq ▸ hr

end History

/-! ### One actor that signs two values with the same version -/

def modeOperation (mode : Text) : ConfigurationOperation where
  path := "gateway.mode".toList
  version := ⟨7, "compromised-peer".toList⟩
  value := some ⟨.string mode, .string mode⟩
  deleted := false

def modeHistory (actorId : {text : Text // isBlank text = false}) (first second : Text) : History :=
  .called (.called (.created actorId) (.apply (modeOperation first))) (.apply (modeOperation second))

theorem modeHistory_delivers (localeCompare : Text → Text → ℤ) (actorId : {text : Text // isBlank text = false}) (first second : Text) :
    (modeHistory actorId first second).Delivers localeCompare {modeOperation first, modeOperation second} := by
  have hvalid : ∀ mode, validateOperation (modeOperation mode) = .ok () := fun mode => rfl
  have happly : ∀ r mode, (Call.apply (modeOperation mode)).effect localeCompare r =
      .ok ((r.receive localeCompare (modeOperation mode)).1, modeOperation mode) := fun r mode => rfl
  have hheard : (modeHistory actorId first second).heard localeCompare = [modeOperation second, modeOperation first] := by
    simp only [modeHistory, History.heard, happly]
  have hreceived : (modeHistory actorId first second).received localeCompare = [modeOperation second, modeOperation first] := by
    simp only [modeHistory, History.received, happly]
  refine ⟨fun x hx => ?_, fun x hx => ?_, fun x hx => ?_⟩
  · rw [hheard] at hx
    rcases List.mem_pair.mp hx with rfl | rfl <;> exact hvalid _
  · rw [hheard]
    exact List.mem_pair.mpr hx.symm
  · rw [hreceived] at hx
    exact (List.mem_pair.mp hx).symm

example : ((modeHistory ⟨['l'], rfl⟩ ['a'] ['s']).replica compareCodeUnits).observedConflicts.map (·.reason) = [.equivocation] := by
  decide +kernel

end OxScada.Scaling
