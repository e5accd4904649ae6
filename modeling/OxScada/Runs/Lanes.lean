import Mathlib.Logic.Function.Basic
import OxScada.Order.Positions

/-! Tasks in lanes. A task waits for the task that was the tail of its lane when it came, and a tail that is done may
be let go. The tasks of a lane run one after another, in the order in which they came. -/

namespace OxScada.Runs
open OxScada.Order

inductive Phase
  | waiting
  | running
  | done
  deriving DecidableEq, Repr

structure LaneTask (κ : Type*) where
  lane : κ
  previous : Option ℕ
  phase : Phase := .waiting

structure Lanes (κ : Type*) where
  tasks : List (LaneTask κ) := []
  tail : κ → Option ℕ := fun _ => none

namespace Lanes
variable {κ : Type*}

def enqueue [DecidableEq κ] (q : Lanes κ) (lane : κ) : Lanes κ :=
  { tasks := q.tasks ++ [{ lane, previous := q.tail lane }], tail := Function.update q.tail lane (some q.tasks.length) }

def enter (q : Lanes κ) (n : ℕ) (phase : Phase) : Lanes κ := { q with tasks := q.tasks.modify n fun task => { task with phase } }

def release [DecidableEq κ] (q : Lanes κ) (lane : κ) : Lanes κ := { q with tail := Function.update q.tail lane none }

/-- A task before another one in its lane is done, unless the other one waits for it or for one that came later. -/
structure Valid (q : Lanes κ) : Prop where
  previous : ∀ (n p : ℕ) (task : LaneTask κ), q.tasks[n]? = some task → task.previous = some p →
    p < n ∧ ∃ middle, q.tasks[p]? = some middle ∧ middle.lane = task.lane
  earlier : ∀ (m n : ℕ) (task other : LaneTask κ), m < n → q.tasks[m]? = some task → q.tasks[n]? = some other → task.lane = other.lane →
    task.phase = .done ∨ other.phase = .waiting ∧ ∃ p, other.previous = some p ∧ m ≤ p
  tail : ∀ n lane, q.tail lane = some n → (∃ task, q.tasks[n]? = some task ∧ task.lane = lane) ∧
    ∀ (m : ℕ) (task : LaneTask κ), q.tasks[m]? = some task → task.lane = lane → m ≤ n
  idle : ∀ lane, q.tail lane = none → ∀ (m : ℕ) (task : LaneTask κ), q.tasks[m]? = some task → task.lane = lane → task.phase = .done

variable {q : Lanes κ} {n : ℕ} {lane : κ} {task : LaneTask κ}

theorem valid_empty : (({} : Lanes κ)).Valid := by
  constructor <;> simp

theorem Valid.done (h : q.Valid) {m : ℕ} {other : LaneTask κ} (hlt : m < n) (htask : q.tasks[m]? = some task)
    (hother : q.tasks[n]? = some other) (hlane : task.lane = other.lane) (hphase : other.phase ≠ .waiting) : task.phase = .done :=
  (h.earlier m n task other hlt htask hother hlane).resolve_right fun hwaits => hphase hwaits.1

theorem getElem?_enqueue [DecidableEq κ] {m : ℕ} : (q.enqueue lane).tasks[m]? = some task ↔
    q.tasks[m]? = some task ∨ m = q.tasks.length ∧ task = { lane, previous := q.tail lane } := getElem?_snoc

theorem Valid.enqueue [DecidableEq κ] (h : q.Valid) (lane : κ) : (q.enqueue lane).Valid := by
  have hlt : ∀ {m task}, q.tasks[m]? = some task → m < q.tasks.length := fun htask => (List.getElem?_eq_some_iff.mp htask).1
  have hself : (q.enqueue lane).tail lane = some q.tasks.length := Function.update_self ..
  have hrest : ∀ {other}, other ≠ lane → (q.enqueue lane).tail other = q.tail other := fun hother => Function.update_of_ne hother ..
  constructor
  · intro n p task htask hprevious
    rcases getElem?_enqueue.mp htask with hold | ⟨rfl, rfl⟩
    · obtain ⟨hpn, middle, hmiddle, hsame⟩ := h.previous n p task hold hprevious
      exact ⟨hpn, middle, getElem?_enqueue.mpr (.inl hmiddle), hsame⟩
    · obtain ⟨⟨middle, hmiddle, hsame⟩, -⟩ := h.tail p lane hprevious
      exact ⟨hlt hmiddle, middle, getElem?_enqueue.mpr (.inl hmiddle), hsame⟩
  · intro m n task other hmn htask hother hlane
    have htask' : q.tasks[m]? = some task := by
      refine (getElem?_enqueue.mp htask).resolve_right fun hnew => ?_
      rcases getElem?_enqueue.mp hother with hold | ⟨rfl, -⟩
      · have := hlt hold
        omega
      · omega
    rcases getElem?_enqueue.mp hother with hold | ⟨rfl, rfl⟩
    · exact h.earlier m n task other hmn htask' hold hlane
    · -- the new task waits for the tail of its lane
      cases htail : q.tail lane with
      | none => exact .inl (h.idle lane htail m task htask' hlane)
      | some p => exact .inr ⟨rfl, p, rfl, (h.tail p lane htail).2 m task htask' hlane⟩
  · intro n other htail
    by_cases hother : other = lane
    · subst hother
      obtain rfl := Option.some.inj (hself.symm.trans htail)
      refine ⟨⟨_, getElem?_enqueue.mpr (.inr ⟨rfl, rfl⟩), rfl⟩, fun m task htask _ => ?_⟩
      rcases getElem?_enqueue.mp htask with hold | ⟨rfl, -⟩
      · exact (hlt hold).le
      · exact le_rfl
    · obtain ⟨⟨task, htask, hsame⟩, hlast⟩ := h.tail n other ((hrest hother).symm.trans htail)
      refine ⟨⟨task, getElem?_enqueue.mpr (.inl htask), hsame⟩, fun m task htask hsame => ?_⟩
      rcases getElem?_enqueue.mp htask with hold | ⟨-, rfl⟩
      · exact hlast m task hold hsame
      · exact absurd hsame.symm hother
  · intro other htail m task htask hsame
    have hother : other ≠ lane := by
      rintro rfl
      rw [hself] at htail
      cases htail
    rcases getElem?_enqueue.mp htask with hold | ⟨-, rfl⟩
    · exact h.idle other ((hrest hother).symm.trans htail) m task hold hsame
    · exact absurd hsame.symm hother

theorem mem_enter {m : ℕ} {phase : Phase} (htask : (q.enter n phase).tasks[m]? = some task) :
    ∃ before, q.tasks[m]? = some before ∧ task.lane = before.lane ∧ task.previous = before.previous ∧
      task.phase = if n = m then phase else before.phase := by
  obtain ⟨before, hbefore, rfl⟩ := getElem?_modify_some htask
  refine ⟨before, hbefore, ?_⟩
  split_ifs <;> exact ⟨rfl, rfl, rfl⟩

theorem enter_mem {m : ℕ} {before : LaneTask κ} (hbefore : q.tasks[m]? = some before) (n : ℕ) (phase : Phase) :
    ∃ task, (q.enter n phase).tasks[m]? = some task ∧ task.lane = before.lane := by
  unfold enter
  rw [List.getElem?_modify, hbefore]
  refine ⟨_, rfl, ?_⟩
  dsimp only
  split_ifs <;> rfl

theorem Valid.enter {phase : Phase} (h : q.Valid) (htask : q.tasks[n]? = some task)
    (hbefore : ∀ (m : ℕ) (other : LaneTask κ), m < n → q.tasks[m]? = some other → other.lane = task.lane → other.phase = .done)
    (hkeep : task.phase = .done → phase = .done) : (q.enter n phase).Valid := by
  have hdone : ∀ {m new before}, q.tasks[m]? = some before → new.phase = (if n = m then phase else before.phase) →
      before.phase = .done → LaneTask.phase (κ := κ) new = .done := by
    intro m new before hbefore hphase hdone
    rw [hphase]
    split_ifs with hm
    · subst hm
      obtain rfl := Option.some.inj (htask.symm.trans hbefore)
      exact hkeep hdone
    · exact hdone
  constructor
  · intro k p new hnew hprevious
    obtain ⟨old, hold, hlane, hprevious', -⟩ := mem_enter hnew
    obtain ⟨hpk, middle, hmiddle, hsame⟩ := h.previous k p old hold (hprevious'.symm.trans hprevious)
    obtain ⟨middle', hmiddle', hsame'⟩ := enter_mem hmiddle n phase
    exact ⟨hpk, middle', hmiddle', by rw [hsame', hsame, hlane]⟩
  · intro m k new other hmk hnew hother hlane
    obtain ⟨old, hold, hlane₁, hprevious₁, hphase₁⟩ := mem_enter hnew
    obtain ⟨old', hold', hlane₂, hprevious₂, hphase₂⟩ := mem_enter hother
    have hsame : old.lane = old'.lane := by rw [← hlane₁, hlane, hlane₂]
    rcases h.earlier m k old old' hmk hold hold' hsame with hearlier | ⟨hwaits, p, hp, hmp⟩
    · exact .inl (hdone hold hphase₁ hearlier)
    · by_cases hk : n = k
      · subst hk
        obtain rfl := Option.some.inj (htask.symm.trans hold')
        exact .inl (hdone hold hphase₁ (hbefore m old hmk hold hsame))
      · rw [if_neg hk] at hphase₂
        exact .inr ⟨hphase₂.trans hwaits, p, hprevious₂.trans hp, hmp⟩
  · intro k lane htail
    obtain ⟨⟨old, hold, hin⟩, hlast⟩ := h.tail k lane htail
    obtain ⟨new, hnew, hlane⟩ := enter_mem hold n phase
    refine ⟨⟨new, hnew, hlane.trans hin⟩, fun m other hother hsame => ?_⟩
    obtain ⟨before, hbefore, hlane', -, -⟩ := mem_enter hother
    exact hlast m before hbefore (hlane'.symm.trans hsame)
  · intro lane htail m other hother hsame
    obtain ⟨before, hbefore, hlane', -, hphase⟩ := mem_enter hother
    exact hdone hbefore hphase (h.idle lane htail m before hbefore (hlane'.symm.trans hsame))

theorem Valid.start (h : q.Valid) (htask : q.tasks[n]? = some task) (hwaits : task.phase = .waiting)
    (hprevious : ∀ (p : ℕ) (middle : LaneTask κ), task.previous = some p → q.tasks[p]? = some middle → middle.phase = .done) :
    (q.enter n .running).Valid := by
  refine h.enter htask (fun m other hlt hother hlane => ?_) fun hdone => by simp [hwaits] at hdone
  rcases h.earlier m n other task hlt hother htask hlane with hdone | ⟨-, p, hp, hmp⟩
  · exact hdone
  · obtain ⟨-, middle, hmiddle, hsame⟩ := h.previous n p task htask hp
    have hmiddle' : middle.phase = .done := hprevious p middle hp hmiddle
    rcases Nat.eq_or_lt_of_le hmp with rfl | hmp
    · obtain rfl := Option.some.inj (hmiddle.symm.trans hother)
      exact hmiddle'
    · exact h.done hmp hother hmiddle (hlane.trans hsame.symm) (by simp [hmiddle'])

theorem Valid.proceed (h : q.Valid) (htask : q.tasks[n]? = some task) (hrunning : task.phase = .running) (phase : Phase) :
    (q.enter n phase).Valid := by
  refine h.enter htask (fun m other hlt hother hlane => ?_) fun hdone => by simp [hrunning] at hdone
  exact h.done hlt hother htask hlane (by simp [hrunning])

theorem Valid.release [DecidableEq κ] (h : q.Valid) (htask : q.tasks[n]? = some task) (hdone : task.phase = .done)
    (htail : q.tail task.lane = some n) : (q.release task.lane).Valid := by
  have hself : (q.release task.lane).tail task.lane = none := Function.update_self ..
  have hrest : ∀ {lane}, lane ≠ task.lane → (q.release task.lane).tail lane = q.tail lane := fun hlane => Function.update_of_ne hlane ..
  refine ⟨h.previous, h.earlier, fun m lane hlane => ?_, fun lane hlane m other hother hsame => ?_⟩
  · by_cases hown : lane = task.lane
    · rw [hown, hself] at hlane
      cases hlane
    · exact h.tail m lane ((hrest hown).symm.trans hlane)
  · by_cases hown : lane = task.lane
    · -- what came before the tail is done with it
      subst hown
      rcases Nat.lt_or_ge m n with hlt | hge
      · exact h.done hlt hother htask hsame (by simp [hdone])
      · obtain rfl : m = n := le_antisymm ((h.tail n _ htail).2 m other hother hsame) hge
        obtain rfl := Option.some.inj (htask.symm.trans hother)
        exact hdone
    · exact h.idle lane ((hrest hown).symm.trans hlane) m other hother hsame

end Lanes
end OxScada.Runs
