import Mathlib.Tactic

/-! Steps that can be undone. A log of the calls, newest first, is in order when a step is
brought up only over the steps below it, and taken down only when nothing stands on it. -/

namespace OxScada.Runs

inductive CallKind
  | up
  | upDone
  | upFailed
  | down
  | downDone
  | downFailed
  deriving DecidableEq

structure Call (α : Type) where
  kind : CallKind
  of : α
  deriving DecidableEq

variable {α : Type} [DecidableEq α]
variable (calls : List (Call α))

/-- The calls since the latest one that brought the step up. -/
def sinceUp (a : α) : List (Call α) := calls.takeWhile (· ≠ ⟨.up, a⟩)

def upsSince (a : α) : List α := ((sinceUp calls a).filter (·.kind = .up)).map (·.of)

def Undone (a : α) : Prop := ⟨.downDone, a⟩ ∈ sinceUp calls a

instance (calls : List (Call α)) (a : α) : Decidable (Undone calls a) :=
  inferInstanceAs (Decidable (_ ∈ _))

/-- What was brought up after the step is undone, or is among the steps to be undone first. -/
def ReadyAfter (calls : List (Call α)) (above : List α) (a : α) : Prop :=
  ⟨.up, a⟩ ∈ calls → ∀ b ∈ upsSince calls a, Undone calls b ∨ b ∈ above

/-- Nothing that was brought up after the step still stands. -/
def Ready (calls : List (Call α)) (a : α) : Prop := ⟨.up, a⟩ ∈ calls → ∀ b ∈ upsSince calls a, Undone calls b

instance (calls : List (Call α)) (a : α) : Decidable (Ready calls a) :=
  inferInstanceAs (Decidable (_ → _))

variable (calls : List (Call α))

def latestCall (a : α) : Option (Call α) := calls.find? (·.of = a)

def Applied (a : α) : Prop := latestCall calls a = some ⟨.upDone, a⟩

/-- Never called, or taken down with success and not called since. -/
def Absent (a : α) : Prop := latestCall calls a = none ∨ latestCall calls a = some ⟨.downDone, a⟩

def Permitted (steps : List α) (earlier : List (Call α)) (call : Call α) : Prop :=
  match call.kind with
  | .up => Absent earlier call.of ∧ ∀ before after, steps = before ++ call.of :: after → ∀ b ∈ before, Applied earlier b
  | .down => Ready earlier call.of
  | _ => True

def InOrder (steps : List α) : List (Call α) → Prop
  | [] => True
  | call :: earlier => Permitted steps earlier call ∧ InOrder steps earlier

def Unwinds (todo : List α) : Prop :=
  ∀ above a below, todo = above ++ a :: below → ReadyAfter calls above a

variable {calls : List (Call α)} {call : Call α} {a b : α} {above todo : List α}

theorem latestCall_cons_self (h : call.of = a) : latestCall (call :: calls) a = some call := by
  have hfound : decide (call.of = a) = true := decide_eq_true h
  exact List.find?_cons_of_pos hfound

theorem latestCall_cons_ne (h : call.of ≠ a) : latestCall (call :: calls) a = latestCall calls a := by
  have hother : ¬ decide (call.of = a) = true := by simpa using h
  exact List.find?_cons_of_neg hother

theorem applied_upDone : Applied (⟨.upDone, a⟩ :: calls) a := latestCall_cons_self rfl

theorem absent_downDone : Absent (⟨.downDone, a⟩ :: calls) a := .inr (latestCall_cons_self rfl)

theorem applied_cons (h : call.of ≠ a) : Applied (call :: calls) a ↔ Applied calls a := by
  rw [Applied, Applied, latestCall_cons_ne h]

theorem absent_cons (h : call.of ≠ a) : Absent (call :: calls) a ↔ Absent calls a := by
  rw [Absent, Absent, latestCall_cons_ne h]

/-! ### What a call adds -/

theorem sinceUp_cons (h : call ≠ ⟨.up, a⟩) : sinceUp (call :: calls) a = call :: sinceUp calls a := by
  have hkeep : decide (call ≠ ⟨.up, a⟩) = true := decide_eq_true h
  exact List.takeWhile_cons_of_pos hkeep

theorem sinceUp_cons_self : sinceUp (⟨.up, a⟩ :: calls) a = [] := by
  have hstop : ¬ decide ((⟨.up, a⟩ : Call α) ≠ ⟨.up, a⟩) = true := by simp
  exact List.takeWhile_cons_of_neg hstop

theorem Undone.cons (h : Undone calls a) (hne : call ≠ ⟨.up, a⟩) : Undone (call :: calls) a := by
  rw [Undone, sinceUp_cons hne]
  exact List.mem_cons_of_mem _ h

theorem undone_downDone : Undone (⟨.downDone, a⟩ :: calls) a := by
  have hne : (⟨.downDone, a⟩ : Call α) ≠ ⟨.up, a⟩ := by simp
  rw [Undone, sinceUp_cons hne]
  exact List.mem_cons_self

theorem upsSince_cons (h : call.kind ≠ .up) : upsSince (call :: calls) a = upsSince calls a := by
  have hne : call ≠ ⟨.up, a⟩ := by
    rintro rfl
    exact h rfl
  rw [upsSince, sinceUp_cons hne, List.filter_cons, if_neg (by simpa using h)]
  rfl

theorem upsSince_cons_up (h : b ≠ a) : upsSince (⟨.up, b⟩ :: calls) a = b :: upsSince calls a := by
  have hne : (⟨.up, b⟩ : Call α) ≠ ⟨.up, a⟩ := by simpa using h
  rw [upsSince, sinceUp_cons hne, List.filter_cons, if_pos (by simp)]
  rfl

theorem readyAfter_nil : ReadyAfter calls [] a ↔ Ready calls a := by
  simp [ReadyAfter, Ready]

theorem ReadyAfter.cons (h : ReadyAfter calls above a) (hkind : call.kind ≠ .up) : ReadyAfter (call :: calls) above a := by
  intro hup b hb
  have hne : ∀ c, call ≠ ⟨.up, c⟩ := by
    rintro c rfl
    exact hkind rfl
  have hup' : ⟨.up, a⟩ ∈ calls := (List.mem_cons.mp hup).resolve_left (hne a).symm
  rw [upsSince_cons hkind] at hb
  exact (h hup' b hb).imp_left fun hundone => hundone.cons (hne b)

theorem Ready.cons (h : Ready calls a) (hkind : call.kind ≠ .up) : Ready (call :: calls) a :=
  readyAfter_nil.mp ((readyAfter_nil.mpr h).cons hkind)

theorem readyAfter_up_self : ReadyAfter (⟨.up, a⟩ :: calls) above a := by
  intro _ b hb
  rw [upsSince, sinceUp_cons_self] at hb
  cases hb

theorem ReadyAfter.up (h : ReadyAfter calls above a) : ReadyAfter (⟨.up, b⟩ :: calls) (b :: above) a := by
  by_cases hself : b = a
  · rw [hself]
    exact readyAfter_up_self
  · intro hup c hc
    have hup' : ⟨.up, a⟩ ∈ calls := (List.mem_cons.mp hup).resolve_left (by simpa using Ne.symm hself)
    rw [upsSince_cons_up hself] at hc
    by_cases hcb : c = b
    · exact .inr (List.mem_cons.mpr (.inl hcb))
    · have hmem := (List.mem_cons.mp hc).resolve_left hcb
      refine (h hup' c hmem).imp (fun hundone => hundone.cons ?_) (List.mem_cons_of_mem b)
      simpa using Ne.symm hcb

/-! ### Taking down -/

theorem unwinds_nil : Unwinds calls [] := by
  intro above a below h
  have hlength := congrArg List.length h
  simp at hlength

theorem unwinds_singleton (h : Ready calls a) : Unwinds calls [a] := by
  intro above b below heq
  cases above with
  | nil =>
    obtain ⟨rfl, -⟩ := List.cons.inj heq
    exact readyAfter_nil.mpr h
  | cons c above =>
    have hnil := (List.cons.inj heq).2
    cases above <;> cases hnil

theorem Unwinds.head (h : Unwinds calls (a :: todo)) : Ready calls a := readyAfter_nil.mp (h [] a todo rfl)

theorem Unwinds.cons (h : Unwinds calls todo) (hkind : call.kind ≠ .up) : Unwinds (call :: calls) todo := by
  intro above a below heq
  exact (h above a below heq).cons hkind

theorem Unwinds.up (h : Unwinds calls todo) : Unwinds (⟨.up, b⟩ :: calls) (b :: todo) := by
  intro above a below heq
  cases above with
  | nil =>
    obtain ⟨rfl, -⟩ := List.cons.inj heq
    exact readyAfter_up_self
  | cons c above =>
    obtain ⟨rfl, hrest⟩ := List.cons.inj heq
    exact (h above a below hrest).up

theorem Unwinds.downDone (h : Unwinds calls (b :: todo)) : Unwinds (⟨.downDone, b⟩ :: calls) todo := by
  intro above a below heq
  have hafter : ReadyAfter (⟨.downDone, b⟩ :: calls) (b :: above) a := by
    have hne : (⟨.downDone, b⟩ : Call α).kind ≠ .up := by simp
    refine (h (b :: above) a below ?_).cons hne
    rw [heq]
    rfl
  intro hup c hc
  rcases hafter hup c hc with hundone | hmem
  · exact .inl hundone
  · rcases List.mem_cons.mp hmem with rfl | habove
    · exact .inl undone_downDone
    · exact .inr habove

end OxScada.Runs
