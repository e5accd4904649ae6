import Mathlib.Tactic

/-! Programs whose calls are answered by their environment. A call returns or throws, and the
process may stop in any of them. What a program meets is told by a condition before it and by
one after it for each way it may end, over the answers that are allowed. -/

namespace OxScada.Runs

inductive Outcome (ε α : Type)
  | done (a : α)
  | threw (error : ε)
  | stopped
  deriving DecidableEq

structure Ended (ω σ ε α : Type) where
  outcome : Outcome ε α
  state : σ
  answers : ℕ → ω

def Program (ω σ ε α : Type) : Type := (ℕ → ω) → σ → Ended ω σ ε α

namespace Program
variable {ω σ ε α β : Type}

instance : Monad (Program ω σ ε) where
  pure a := fun answers s => ⟨.done a, s, answers⟩
  bind m f := fun answers s =>
    match m answers s with
    | ⟨.done a, s', rest⟩ => f a rest s'
    | ⟨.threw error, s', rest⟩ => ⟨.threw error, s', rest⟩
    | ⟨.stopped, s', rest⟩ => ⟨.stopped, s', rest⟩

def throw (error : ε) : Program ω σ ε α := fun answers s => ⟨.threw error, s, answers⟩

def tryCatch (m : Program ω σ ε α) (handler : ε → Program ω σ ε α) : Program ω σ ε α := fun answers s =>
  match m answers s with
  | ⟨.threw error, s', rest⟩ => handler error rest s'
  | ended => ended

def modify (f : σ → σ) : Program ω σ ε Unit := fun answers s => ⟨.done (), f s, answers⟩

def get : Program ω σ ε σ := fun answers s => ⟨.done s, s, answers⟩

def call (f : ω → σ → Outcome ε α × σ) : Program ω σ ε α := fun answers s =>
  ⟨(f (answers 0) s).1, (f (answers 0) s).2, fun n => answers (n + 1)⟩

theorem bind_done {m : Program ω σ ε α} {f : α → Program ω σ ε β} {answers rest : ℕ → ω} {s s' : σ} {a : α}
    (h : m answers s = ⟨.done a, s', rest⟩) : (m >>= f) answers s = f a rest s' := by
  dsimp only [Bind.bind]
  rw [h]

end Program

structure Post (σ ε α : Type) where
  done : α → σ → Prop
  threw : ε → σ → Prop
  stopped : σ → Prop

def Post.Holds {σ ε α : Type} (post : Post σ ε α) (s : σ) : Outcome ε α → Prop
  | .done a => post.done a s
  | .threw error => post.threw error s
  | .stopped => post.stopped s

/-- From a state with the first condition, and with answers that are allowed. -/
def Meets {ω σ ε α : Type} (ok : ω → Prop) (pre : σ → Prop) (m : Program ω σ ε α) (post : Post σ ε α) : Prop :=
  ∀ answers s, (∀ n, ok (answers n)) → pre s →
    (∀ n, ok ((m answers s).answers n)) ∧ post.Holds (m answers s).state (m answers s).outcome

namespace Meets
variable {ω σ ε α β : Type} {ok : ω → Prop} {pre : σ → Prop} {m : Program ω σ ε α} {post : Post σ ε α}

theorem weaken {pre' : σ → Prop} {post' : Post σ ε α} (h : Meets ok pre m post) (hpre : ∀ s, pre' s → pre s)
    (hdone : ∀ a s, post.done a s → post'.done a s) (hthrew : ∀ error s, post.threw error s → post'.threw error s)
    (hstopped : ∀ s, post.stopped s → post'.stopped s) : Meets ok pre' m post' := by
  intro answers s hok hs
  obtain ⟨hrest, hpost⟩ := h answers s hok (hpre s hs)
  refine ⟨hrest, ?_⟩
  revert hpost
  cases (m answers s).outcome with
  | done a => exact hdone a _
  | threw error => exact hthrew error _
  | stopped => exact hstopped _

theorem of_pre {pre' : σ → Prop} (h : Meets ok pre m post) (hpre : ∀ s, pre' s → pre s) : Meets ok pre' m post :=
  h.weaken hpre (fun _ _ => id) (fun _ _ => id) (fun _ => id)

theorem of_done {done : α → σ → Prop} (h : Meets ok pre m post) (hdone : ∀ a s, post.done a s → done a s) :
    Meets ok pre m ⟨done, post.threw, post.stopped⟩ :=
  h.weaken (fun _ => id) hdone (fun _ _ => id) fun _ => id

theorem given {fact : Prop} (h : fact → Meets ok pre m post) : Meets ok (fun s => fact ∧ pre s) m post :=
  fun answers s hok hs => h hs.1 answers s hok hs.2

theorem freeze {τ : Type} (part : σ → τ) (h : ∀ t, Meets ok (fun s => part s = t ∧ pre s) m post) : Meets ok pre m post :=
  fun answers s hok hs => h (part s) answers s hok ⟨rfl, hs⟩

theorem of_false : Meets ok (fun _ => False) m post := fun _ _ _ hfalse => hfalse.elim

theorem pure {a : α} (h : ∀ s, pre s → post.done a s) : Meets ok pre (Pure.pure a) post :=
  fun _ s hok hs => ⟨hok, h s hs⟩

theorem throw {error : ε} (h : ∀ s, pre s → post.threw error s) : Meets ok pre (Program.throw error) post :=
  fun _ s hok hs => ⟨hok, h s hs⟩

theorem modify {f : σ → σ} {post : Post σ ε Unit} (h : ∀ s, pre s → post.done () (f s)) : Meets ok pre (Program.modify f) post :=
  fun _ s hok hs => ⟨hok, h s hs⟩

theorem get {post : Post σ ε σ} (h : ∀ s, pre s → post.done s s) : Meets ok pre Program.get post :=
  fun _ s hok hs => ⟨hok, h s hs⟩

theorem call {f : ω → σ → Outcome ε α × σ} (h : ∀ answer s, ok answer → pre s → post.Holds (f answer s).2 (f answer s).1) :
    Meets ok pre (Program.call f) post :=
  fun answers s hok hs => ⟨fun n => hok (n + 1), h (answers 0) s (hok 0) hs⟩

theorem bind {f : α → Program ω σ ε β} {post : Post σ ε β} (mid : α → σ → Prop) (hm : Meets ok pre m ⟨mid, post.threw, post.stopped⟩)
    (hf : ∀ a, Meets ok (mid a) (f a) post) : Meets ok pre (m >>= f) post := by
  intro answers s hok hs
  obtain ⟨hrest, hmid⟩ := hm answers s hok hs
  dsimp only [Bind.bind]
  rcases hended : m answers s with ⟨outcome, s', rest⟩
  rw [hended] at hrest hmid
  cases outcome with
  | done a => exact hf a rest s' hrest hmid
  | threw | stopped => exact ⟨hrest, hmid⟩

theorem tryCatch {handler : ε → Program ω σ ε α} (caught : ε → σ → Prop)
    (hm : Meets ok pre m ⟨post.done, caught, post.stopped⟩) (hhandler : ∀ error, Meets ok (caught error) (handler error) post) : Meets ok pre (m.tryCatch handler) post := by
  intro answers s hok hs
  obtain ⟨hrest, hmid⟩ := hm answers s hok hs
  unfold Program.tryCatch
  rcases hended : m answers s with ⟨outcome, s', rest⟩
  rw [hended] at hrest hmid
  cases outcome with
  | done | stopped => exact ⟨hrest, hmid⟩
  | threw error => exact hhandler error rest s' hrest hmid

theorem forM {f : β → Program ω σ ε PUnit} {post : Post σ ε PUnit} (inv : List β → σ → Prop)
    (hstep : ∀ x xs, Meets ok (inv (x :: xs)) (f x) ⟨fun _ => inv xs, post.threw, post.stopped⟩)
    (hend : ∀ s, inv [] s → post.done ⟨⟩ s) (xs : List β) : Meets ok (inv xs) (xs.forM f) post := by
  induction xs with
  | nil => exact pure hend
  | cons x xs ih => exact bind _ (hstep x xs) fun _ => ih

end Meets

def Keeps {ω σ ε α : Type} (inv : σ → Prop) (m : Program ω σ ε α) : Prop :=
  Meets (fun _ => True) inv m ⟨fun _ => inv, fun _ => inv, inv⟩

namespace Keeps
variable {ω σ ε α β : Type} {inv : σ → Prop} {m : Program ω σ ε α}

theorem pure {a : α} : Keeps inv (Pure.pure a : Program ω σ ε α) := Meets.pure fun _ => id

theorem throw {error : ε} : Keeps inv (Program.throw error : Program ω σ ε α) := Meets.throw fun _ => id

theorem bind {f : α → Program ω σ ε β} (hm : Keeps inv m) (hf : ∀ a, Keeps inv (f a)) : Keeps inv (m >>= f) := Meets.bind _ hm hf

theorem tryCatch {handler : ε → Program ω σ ε α} (hm : Keeps inv m) (hhandler : ∀ error, Keeps inv (handler error)) :
    Keeps inv (m.tryCatch handler) :=
  Meets.tryCatch _ hm hhandler

theorem forM {f : β → Program ω σ ε PUnit} {xs : List β} (hf : ∀ x ∈ xs, Keeps inv (f x)) : Keeps inv (xs.forM f) := by
  induction xs with
  | nil => exact pure
  | cons x xs ih => exact bind (hf x List.mem_cons_self) fun _ => ih fun y hy => hf y (List.mem_cons_of_mem x hy)

end Keeps

end OxScada.Runs
