import Mathlib.Data.Multiset.AddSub
import Mathlib.Data.Multiset.UnionInter
import Mathlib.Data.Multiset.ZeroCons
import Mathlib.Tactic

/-! Runs of a machine given by a partial step function. A run may be restricted to steps
that meet a condition on the action and on the state before it. -/

namespace OxScada.Runs

section Machine
variable {σ α : Type*} (step : σ → α → Option σ) (ok : σ → α → Prop)

/-- The states of the runs from `start` whose steps all meet `ok`. -/
inductive Reachable (start : σ) : σ → Prop
  | start : Reachable start start
  | step {s s' : σ} {a : α} (hs : Reachable start s) (hok : ok s a) (hstep : step s a = some s') :
      Reachable start s'

/-- The state after a list of actions, if all of them are enabled. -/
def exec : σ → List α → Option σ
  | s, [] => some s
  | s, a :: rest => (step s a).bind fun s' => exec s' rest

variable {step ok}

variable {s start : σ}

theorem Reachable.invariant {inv : σ → Prop} (hs : Reachable step ok start s)
    (hstart : inv start)
    (hstep : ∀ s a s', inv s → ok s a → step s a = some s' → inv s') : inv s := by
  induction hs with
  | start => exact hstart
  | step hs hok hnext ih => exact hstep _ _ _ ih hok hnext

theorem Reachable.trans {mid : σ} (hmid : Reachable step ok start mid) (hs : Reachable step ok mid s) : Reachable step ok start s := by
  induction hs with
  | start => exact hmid
  | step _ hok hnext ih => exact ih.step hok hnext

theorem exec_append (s : σ) (acts more : List α) :
    exec step s (acts ++ more) = (exec step s acts).bind fun s' => exec step s' more := by
  induction acts generalizing s with
  | nil => rfl
  | cons a acts ih =>
    rw [List.cons_append, exec, exec, Option.bind_assoc]
    exact congrArg _ (funext fun s' => ih s')

theorem Reachable.of_exec {start s s' : σ} (hs : Reachable step ok start s) (acts : List α)
    (hok : ∀ s, ∀ a ∈ acts, ok s a) (hexec : exec step s acts = some s') : Reachable step ok start s' := by
  induction acts generalizing s with
  | nil =>
    obtain rfl := Option.some.inj hexec
    exact hs
  | cons a acts ih =>
    obtain ⟨next, hnext, hrest⟩ := Option.bind_eq_some_iff.mp hexec
    have hhead : ok s a := hok s a (List.mem_cons_self ..)
    exact ih (hs.step hhead hnext) (fun s b hb => hok s b (List.mem_cons_of_mem a hb)) hrest

/-- The step function of a machine that refuses the steps that do not meet `ok`. -/
def checked (step : σ → α → Option σ) (ok : σ → α → Prop) [∀ s a, Decidable (ok s a)] (s : σ) (a : α) : Option σ :=
  if ok s a then step s a else none

theorem Reachable.of_exec_checked [∀ s a, Decidable (ok s a)] {s' : σ} (hs : Reachable step ok start s) (acts : List α)
    (hexec : exec (checked step ok) s acts = some s') : Reachable step ok start s' := by
  induction acts generalizing s with
  | nil =>
    obtain rfl := Option.some.inj hexec
    exact hs
  | cons a acts ih =>
    obtain ⟨next, hnext, hrest⟩ := Option.bind_eq_some_iff.mp hexec
    unfold checked at hnext
    split_ifs at hnext with hok
    exact ih (hs.step hok hnext) hrest

end Machine

theorem eq_some_getD {σ : Type*} {o : Option σ} (h : o.isSome) (default : σ) : o = some (o.getD default) := by
  obtain ⟨s, rfl⟩ := Option.isSome_iff_exists.mp h
  rfl

/-! ### Computations that may fail -/

theorem bind_ok {ε α β : Type} {x : Except ε α} {f : α → Except ε β} {b : β} :
    (x >>= f) = .ok b ↔ ∃ a, x = .ok a ∧ f a = .ok b := by
  cases x with
  | error e =>
    refine ⟨fun h => ?_, ?_⟩
    · cases h
    · rintro ⟨a, ha, -⟩
      cases ha
  | ok a =>
    refine ⟨fun h => ⟨a, rfl, h⟩, ?_⟩
    rintro ⟨a', ha, h⟩
    obtain rfl := Except.ok.inj ha
    exact h

theorem map_ok {ε α β : Type} {x : Except ε α} {f : α → β} {b : β} : x.map f = .ok b ↔ ∃ a, x = .ok a ∧ f a = b := by
  cases x with
  | error e =>
    refine ⟨fun h => ?_, ?_⟩
    · cases h
    · rintro ⟨a, ha, -⟩
      cases ha
  | ok a =>
    refine ⟨fun h => ⟨a, rfl, Except.ok.inj h⟩, ?_⟩
    rintro ⟨a', ha, rfl⟩
    rw [Except.ok.inj ha]
    rfl

theorem bind_unit_ok {ε β : Type} {x : Except ε Unit} {f : Unit → Except ε β} {b : β} :
    (x >>= f) = .ok b ↔ x = .ok () ∧ f () = .ok b := by
  rw [bind_ok]
  exact ⟨fun ⟨_, hx, hf⟩ => ⟨hx, hf⟩, fun ⟨hx, hf⟩ => ⟨(), hx, hf⟩⟩

/-! ### Custody

What a store that answers for its items is for: it holds exactly the items it took
responsibility for, each of them once, and none that it refused. -/

structure Ledger (α : Type*) where
  promised : Multiset α
  refused : Multiset α
  held : Multiset α

namespace Ledger
variable {α : Type*}

def known (l : Ledger α) : Multiset α := l.promised + l.refused

def accept (x : α) (l : Ledger α) : Ledger α := { l with promised := x ::ₘ l.promised, held := x ::ₘ l.held }

def refuse (x : α) (l : Ledger α) : Ledger α := { l with refused := x ::ₘ l.refused }

structure Sound (l : Ledger α) : Prop where
  balance : l.promised = l.held
  nodup : l.known.Nodup

variable {l : Ledger α} {x : α}

theorem Sound.accept (h : l.Sound) (hx : x ∉ l.known) : (l.accept x).Sound where
  balance := congrArg (x ::ₘ ·) h.balance
  nodup := by
    have hknown : (l.accept x).known = x ::ₘ l.known := Multiset.cons_add x _ _
    rw [hknown, Multiset.nodup_cons]
    exact ⟨hx, h.nodup⟩

theorem Sound.refuse (h : l.Sound) (hx : x ∉ l.known) : (l.refuse x).Sound where
  balance := h.balance
  nodup := by
    have hknown : (l.refuse x).known = x ::ₘ l.known := Multiset.add_cons x _ _
    rw [hknown, Multiset.nodup_cons]
    exact ⟨hx, h.nodup⟩

theorem Sound.held_nodup (h : l.Sound) : l.held.Nodup := by
  rw [← h.balance]
  exact (Multiset.nodup_add.mp h.nodup).1

theorem Sound.refused_notMem (h : l.Sound) (hx : x ∈ l.refused) : x ∉ l.held := by
  rw [← h.balance]
  intro hheld
  exact Multiset.disjoint_left.mp (Multiset.nodup_add.mp h.nodup).2.2 hheld hx

end Ledger

end OxScada.Runs
