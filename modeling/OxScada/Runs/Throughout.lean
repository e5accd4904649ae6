import Mathlib.Tactic

/-! What holds at every step of a run of a machine that never refuses an action, and of every entry of a log. -/

namespace OxScada.Runs

variable {σ α : Type*} {step : σ → α → σ} {P Q : σ → α → Prop} {I : σ → Prop} {s : σ}

def Throughout (step : σ → α → σ) (P : σ → α → Prop) : σ → List α → Prop
  | _, [] => True
  | s, a :: rest => P s a ∧ Throughout step P (step s a) rest

/-- Two conditions agree along a run where an invariant makes them agree and the second one keeps the invariant. -/
theorem throughout_iff (hiff : ∀ s a, I s → (P s a ↔ Q s a)) (hkeep : ∀ s a, I s → Q s a → I (step s a)) (hs : I s) (acts : List α) :
    Throughout step P s acts ↔ Throughout step Q s acts := by
  induction acts generalizing s with
  | nil => rfl
  | cons a rest ih =>
    refine (and_congr_left' (hiff s a hs)).trans (and_congr_right fun hQ => ?_)
    exact ih (hkeep s a hs hQ)

def EachLogged {ε : Type*} (P : ε → List ε → Prop) : List ε → Prop
  | [] => True
  | e :: older => P e older ∧ EachLogged P older

theorem Throughout.invariant (hkeep : ∀ s a, I s → Q s a → I (step s a)) (hs : I s) {acts : List α} (h : Throughout step Q s acts) :
    I (acts.foldl step s) := by
  induction acts generalizing s with
  | nil => exact hs
  | cons a rest ih => exact ih (hkeep s a hs h.1) h.2

theorem Throughout.gives (hkeep : ∀ s a, I s → P s a → I (step s a)) (hgives : ∀ s a, I s → P s a → Q s a) (hs : I s) {acts : List α}
    (h : Throughout step P s acts) : Throughout step Q s acts := by
  induction acts generalizing s with
  | nil => trivial
  | cons a rest ih => exact ⟨hgives s a hs h.1, ih (hkeep s a hs h.1) h.2⟩

theorem foldl_invariant (hkeep : ∀ s a, I s → I (step s a)) (hs : I s) (acts : List α) : I (acts.foldl step s) := by
  induction acts generalizing s with
  | nil => exact hs
  | cons a rest ih => exact ih (hkeep s a hs)

end OxScada.Runs
