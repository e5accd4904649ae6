import OxScada.Dnp3.Outstation
import OxScada.Dnp3.SelectBeforeOperate

/-! When an OPERATE uses up the armed select. An OPERATE that does not get as far as
`resolveStatuses` leaves it in place. -/

namespace OxScada.Dnp3
open OxScada.Bytes Dnp3ControlProcessor

def HasControlItem (req : ParsedRequest) : Prop :=
  ∃ header ∈ req.objects, isControlGroup header.group = true ∧ ∃ items ∈ header.items, items ≠ []

theorem reaches_iff (m : Dnp3PointMap) (req : ParsedRequest) : Reaches m req ↔ HasControlItem req := by
  rw [Reaches, decodeRequest, ne_eq, List.flatMap_eq_nil_iff, not_forall]
  constructor
  · rintro ⟨header, hsome⟩
    rw [Classical.not_imp] at hsome
    obtain ⟨hheader, hitems⟩ := hsome
    obtain ⟨hmem, hgroup⟩ := List.mem_filter.mp hheader
    rw [decodeHeader, List.map_eq_nil_iff] at hitems
    rcases hnone : header.items with _ | items
    · rw [hnone] at hitems
      exact absurd rfl hitems
    · rw [hnone] at hitems
      exact ⟨header, hmem, hgroup, items, hnone, hitems⟩
  · rintro ⟨header, hmem, hgroup, items, hitems, hne⟩
    refine ⟨header, fun hnil => ?_⟩
    have hempty := hnil (List.mem_filter.mpr ⟨hmem, hgroup⟩)
    rw [decodeHeader, Option.mem_def.mp hitems, Option.getD_some, List.map_eq_nil_iff] at hempty
    exact hne hempty

variable {req : ParsedRequest}

theorem resolveStatuses_operate_armed {p : Dnp3ControlProcessor}
    (hfunc : req.func = FunctionCode.operate) (decoded : List DecodedObject) (now : ℤ) :
    (p.resolveStatuses req decoded now).2.armed = none := by
  rcases harmed : (p.resolveStatuses req decoded now).2.armed with _ | armed
  · rfl
  · have hselect := (resolveStatuses_armed harmed).1
    rw [hfunc] at hselect
    exact absurd hselect (by decide)

theorem process_operate_armed {p : Dnp3ControlProcessor} {m : Dnp3PointMap}
    (hfunc : req.func = FunctionCode.operate) (now : ℤ) :
    (p.process m req now).2.armed = none ↔ p.armed = none ∨ HasControlItem req := by
  rw [process_eq, ← reaches_iff m]
  by_cases hreach : Reaches m req
  · rw [if_pos hreach]
    exact iff_of_true (resolveStatuses_operate_armed hfunc _ _) (.inr hreach)
  · rw [if_neg hreach]
    exact ⟨.inl, fun h => h.resolve_right hreach⟩

theorem isWaiting_of_no_pending {sa : Sav5Outstation} {association : ℕ} (h : sa.pending association = none) (now : ℤ) :
    sa.isWaiting association now = (false, sa) := by
  rw [Sav5Outstation.isWaiting, h]

theorem handleApplicationRequest_unkeyed {ctx : OutstationContext}
    (hkeys : ∀ user, ctx.secureAuth.controlDirectionKeys user = none) (session : OutstationSession)
    (association userNumber : ℕ) (hfunc : req.func ≠ FunctionCode.authRequestNoAck) (now : ℤ)
    (nonce : Buffer) :
    handleApplicationRequest ctx session association userNumber req now nonce = handleChecked ctx session req now := by
  have hpending : ctx.secureAuth.pending association = none := by
    rcases hsome : ctx.secureAuth.pending association with _ | p
    · rfl
    · have hkeyed := ctx.secureAuth.keyed association p hsome
      rw [hkeys] at hkeyed
      cases hkeyed
  have huser : ctx.secureAuth.hasUser userNumber = false := by
    rw [Sav5Outstation.hasUser, hkeys]
    rfl
  rw [handleApplicationRequest, if_neg hfunc, isWaiting_of_no_pending hpending]
  dsimp only
  rw [if_neg (by simp), if_neg (by rw [huser]; simp)]

/-- An OPERATE leaves nothing armed if and only if nothing was armed, or its objects parse
completely and some control header of it has an item. -/
theorem operate_consumes_arm_iff {ctx : OutstationContext}
    (hkeys : ∀ user, ctx.secureAuth.controlDirectionKeys user = none) (session : OutstationSession)
    (association userNumber : ℕ) {req : ParsedRequest} (hfunc : req.func = FunctionCode.operate) (now : ℤ)
    (nonce : Buffer) :
    (handleApplicationRequest ctx session association userNumber req now nonce).2.1.controls.armed = none ↔
      ctx.controls.armed = none ∨ (req.objectsComplete = true ∧ HasControlItem req) := by
  have hcritical : isCriticalFunction req.func = true := by
    rw [hfunc]
    decide
  rw [handleApplicationRequest_unkeyed hkeys _ _ _ (by rw [hfunc]; decide), handleChecked]
  by_cases hcomplete : req.objectsComplete = true
  · rw [if_neg (by rw [hcomplete]; simp)]
    have hhandled : (handleFunction ctx session req now).2.1.controls = (ctx.controls.process ctx.pointMap req now).2 := by
      rw [handleFunction, hfunc]
      rfl
    rw [hhandled, process_operate_armed hfunc, hcomplete]
    simp
  · rw [if_pos ⟨hcritical, by simpa using hcomplete⟩]
    exact ⟨.inl, fun h => h.resolve_right fun h => hcomplete h.1⟩

/-- An outstation without keys that has the coil selected, with sequence number 1. -/
def selectedContext : OutstationContext where
  pointMap := coilMap
  eventBuffer := .new {}
  secureAuth := .unkeyed
  controls := (openProcessor.process coilMap (coilRequest 1 FunctionCode.select) 0).2

def bareOperate : ParsedRequest where
  appControl := 0xc2
  fir := true
  fin := true
  con := false
  uns := false
  seq := 2
  func := FunctionCode.operate
  objects := []
  objectsComplete := true
  rawObjects := []
  raw := [0xc2, 0x04]

/-- The OPERATE without objects leaves the coil selected, and the next OPERATE runs. -/
theorem bareOperate_keeps_arm :
    let kept := (handleApplicationRequest selectedContext {} 1 1 bareOperate 1000 []).2.1
    selectedContext.controls.writable = true ∧ (∀ user, selectedContext.secureAuth.controlDirectionKeys user = none) ∧
      parseRequest [0xc2, 0x04] = .ok bareOperate ∧ kept.controls.armed ≠ none ∧
      (handleApplicationRequest kept {} 1 1 (coilRequest 2 FunctionCode.operate) 2000 []).2.1.controls.sinkCalls ≠
        kept.controls.sinkCalls := by
  refine ⟨rfl, fun _ => rfl, rfl, ?_, ?_⟩ <;> decide

theorem operate_consumes_arm_iff_coil :
    selectedContext.controls.armed ≠ none ∧ HasControlItem (coilRequest 2 FunctionCode.operate) ∧
      (handleApplicationRequest selectedContext {} 1 1 (coilRequest 2 FunctionCode.operate) 1000 []).2.1.controls.armed =
        none := by
  have hitem : HasControlItem (coilRequest 2 FunctionCode.operate) :=
    ⟨_, List.mem_singleton.mpr rfl, rfl, _, rfl, by decide⟩
  exact ⟨by decide, hitem, (operate_consumes_arm_iff (fun _ => rfl) {} 1 1 rfl 1000 []).mpr (.inr ⟨rfl, hitem⟩)⟩

end OxScada.Dnp3
