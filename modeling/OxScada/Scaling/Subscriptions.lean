import Mathlib
import OxScada.Bytes.Buffer
import OxScada.Order.Positions

/-! The subscriptions of the event fan-out. Each topic has a map of them, and the function that takes a subscription
back keeps the map that it was put into, which may not be the map of its topic any more. -/

namespace OxScada.Scaling
open OxScada.Bytes OxScada.Order

/-- A subscription. Its handler is that of the call of `subscribe` that made it, which is told by its number. -/
structure Subscription where
  id : Text
  partitions : Option (List ℕ)
  number : ℕ
  deriving DecidableEq, Repr

/-- The function that a call of `subscribe` has returned. Whether it was called is a ghost. -/
structure Unsubscribe where
  topic : Text
  byTopic : ℕ
  subscription : Subscription
  called : Bool := false
  deriving DecidableEq, Repr

inductive FanoutError
  | required
  | invalidPartition (partition : ℚ)
  | duplicate (subscriberId topic : Text)
  deriving DecidableEq, Repr

/-- The map of topics. The maps that it leads to are told by numbers, those from `allocated` on are not made yet. -/
structure FanoutSubscriptions where
  maps : ℕ → List Subscription := fun _ => []
  allocated : ℕ := 0
  subscriptions : Text → Option ℕ := fun _ => none
  unsubscribes : List Unsubscribe := []

def Subscription.accepts (subscription : Subscription) (partition : ℕ) : Bool := subscription.partitions.all (partition ∈ ·)

namespace FanoutSubscriptions
variable (s : FanoutSubscriptions)

def selectPartition (partitionCount : ℕ) (partition : ℚ) : Except FanoutError ℕ :=
  if partition.den ≠ 1 ∨ partition < 0 ∨ partition ≥ partitionCount then .error (.invalidPartition partition)
  else .ok partition.num.toNat

def mapOf (topic : Text) : ℕ × List Subscription :=
  match s.subscriptions topic with
  | some byTopic => (byTopic, s.maps byTopic)
  | none => (s.allocated, [])

def add (topic subscriberId : Text) (partitions : Option (List ℕ)) : FanoutSubscriptions :=
  let subscription : Subscription := { id := subscriberId, partitions, number := s.unsubscribes.length }
  let byTopic := (s.mapOf topic).1
  { maps := Function.update s.maps byTopic ((s.mapOf topic).2 ++ [subscription])
    allocated := max s.allocated (byTopic + 1)
    subscriptions := Function.update s.subscriptions topic (some byTopic)
    unsubscribes := s.unsubscribes ++ [{ topic, byTopic, subscription }] }

def subscribe (partitionCount : ℕ) (topic subscriberId : Text) (partitions : Option (List ℚ)) : Except FanoutError FanoutSubscriptions := do
  if topic = [] ∨ subscriberId = [] then throw .required
  let selected ← partitions.mapM fun partitions => partitions.mapM (selectPartition partitionCount)
  if (s.mapOf topic).2.any (·.id = subscriberId) then throw (.duplicate subscriberId topic)
  return s.add topic subscriberId selected

/-- A call of the function that the call `number` of `subscribe` has returned. -/
def unsubscribe (number : ℕ) : FanoutSubscriptions :=
  match s.unsubscribes[number]? with
  | none => s
  | some closure =>
    let held := (s.maps closure.byTopic).filter (·.id ≠ closure.subscription.id)
    { s with
      maps := Function.update s.maps closure.byTopic held
      subscriptions := if held = [] then Function.update s.subscriptions closure.topic none else s.subscriptions
      unsubscribes := s.unsubscribes.modify number fun closure => { closure with called := true } }

/-- The subscriptions of a topic and partition whose functions were not called. -/
def live (topic : Text) (partition : ℕ) : List ℕ :=
  (s.unsubscribes.filter fun closure => closure.topic = topic ∧ closure.called = false ∧ closure.subscription.accepts partition = true).map
    (·.subscription.number)

def Subscribed (topic : Text) (subscription : Subscription) : Prop :=
  ∃ byTopic, s.subscriptions topic = some byTopic ∧ subscription ∈ s.maps byTopic

/-- A function that was called before is not called, unless its topic has no map, or has the map of the function with
no subscription of its id. -/
def Harmless (number : ℕ) : Prop :=
  ∀ closure : Unsubscribe, s.unsubscribes[number]? = some closure → closure.called = true → ∀ byTopic, s.subscriptions closure.topic = some byTopic →
    byTopic = closure.byTopic ∧ ∀ subscription ∈ s.maps byTopic, subscription.id ≠ closure.subscription.id

/-- A subscription is in the map of its topic until its function is called, and other maps are empty. -/
structure Sound (s : FanoutSubscriptions) : Prop where
  bound : ∀ topic byTopic, s.subscriptions topic = some byTopic → byTopic < s.allocated
  distinct : ∀ topic other byTopic, s.subscriptions topic = some byTopic → s.subscriptions other = some byTopic → topic = other
  nonempty : ∀ topic byTopic, s.subscriptions topic = some byTopic → s.maps byTopic ≠ []
  stale : ∀ byTopic, (∀ topic, s.subscriptions topic ≠ some byTopic) → s.maps byTopic = []
  ids : ∀ byTopic, ((s.maps byTopic).map (·.id)).Nodup
  number : ∀ (number : ℕ) (closure : Unsubscribe), s.unsubscribes[number]? = some closure → closure.subscription.number = number
  captured : ∀ (number : ℕ) (closure : Unsubscribe), s.unsubscribes[number]? = some closure → closure.byTopic < s.allocated ∧
    ∀ topic, s.subscriptions topic = some closure.byTopic → topic = closure.topic
  kept : ∀ (number : ℕ) (closure : Unsubscribe), s.unsubscribes[number]? = some closure → closure.called = false →
    s.subscriptions closure.topic = some closure.byTopic ∧ closure.subscription ∈ s.maps closure.byTopic
  known : ∀ topic subscription, s.Subscribed topic subscription → ∃ closure, s.unsubscribes[subscription.number]? = some closure ∧
    closure.called = false ∧ closure.topic = topic ∧ closure.subscription = subscription

variable {s} {topic subscriberId : Text} {partitions : Option (List ℕ)} {number : ℕ} {subscription : Subscription}

theorem sound_empty : ({} : FanoutSubscriptions).Sound := by
  constructor <;> simp [Subscribed]

/-! ### Subscribing -/

theorem subscribe_ok {partitionCount : ℕ} {partitions : Option (List ℚ)} {s' : FanoutSubscriptions}
    (h : s.subscribe partitionCount topic subscriberId partitions = .ok s') :
    ∃ selected, s' = s.add topic subscriberId selected ∧ ∀ held ∈ (s.mapOf topic).2, held.id ≠ subscriberId := by
  unfold subscribe at h
  by_cases hrequired : topic = [] ∨ subscriberId = []
  · rw [if_pos hrequired] at h
    cases h
  · rw [if_neg hrequired] at h
    cases hselected : (partitions.mapM fun partitions => partitions.mapM (selectPartition partitionCount) : Except FanoutError _) with
    | error error =>
      rw [hselected] at h
      cases h
    | ok selected =>
      rw [hselected] at h
      by_cases hduplicate : (s.mapOf topic).2.any (·.id = subscriberId) = true
      · simp only [hduplicate, if_true] at h
        cases h
      · simp only [hduplicate] at h
        refine ⟨selected, (Except.ok.inj h).symm, fun held hheld hid => hduplicate ?_⟩
        exact List.any_eq_true.mpr ⟨held, hheld, decide_eq_true hid⟩

theorem Sound.mapOf (h : s.Sound) (topic : Text) :
    s.maps (s.mapOf topic).1 = (s.mapOf topic).2 ∧
    (∀ other, s.subscriptions other = some (s.mapOf topic).1 → other = topic) ∧
    (s.subscriptions topic = some (s.mapOf topic).1 ∨
      s.subscriptions topic = none ∧ (s.mapOf topic).1 = s.allocated ∧ (s.mapOf topic).2 = []) := by
  unfold FanoutSubscriptions.mapOf
  cases htopic : s.subscriptions topic with
  | some byTopic => exact ⟨rfl, fun other hother => h.distinct other topic byTopic hother htopic, .inl rfl⟩
  | none =>
    have hfresh : ∀ other, s.subscriptions other ≠ some s.allocated := fun other hother => (h.bound other _ hother).ne rfl
    exact ⟨h.stale _ hfresh, fun other hother => absurd hother (hfresh other), .inr ⟨rfl, rfl, rfl⟩⟩

theorem getElem?_add {closure : Unsubscribe} : (s.add topic subscriberId partitions).unsubscribes[number]? = some closure ↔
    s.unsubscribes[number]? = some closure ∨ number = s.unsubscribes.length ∧
      closure = { topic, byTopic := (s.mapOf topic).1, subscription := ⟨subscriberId, partitions, s.unsubscribes.length⟩ } := getElem?_snoc

theorem Sound.add (h : s.Sound) (hnew : ∀ held ∈ (s.mapOf topic).2, held.id ≠ subscriberId) :
    (s.add topic subscriberId partitions).Sound := by
  obtain ⟨hheld, hother, htopic⟩ := h.mapOf topic
  have hcurrent : ∀ byTopic, s.subscriptions topic = some byTopic → (s.mapOf topic).1 = byTopic := by
    intro byTopic hbyTopic
    rcases htopic with hsome | ⟨hnone, -⟩
    · exact Option.some.inj (hsome.symm.trans hbyTopic)
    · rw [hnone] at hbyTopic
      cases hbyTopic
  have hself : (s.add topic subscriberId partitions).subscriptions topic = some (s.mapOf topic).1 := Function.update_self ..
  have hrest : ∀ {t}, t ≠ topic → (s.add topic subscriberId partitions).subscriptions t = s.subscriptions t := fun ht => Function.update_of_ne ht ..
  have hmap : (s.add topic subscriberId partitions).maps (s.mapOf topic).1 =
      (s.mapOf topic).2 ++ [⟨subscriberId, partitions, s.unsubscribes.length⟩] := Function.update_self ..
  have hmaps : ∀ {b}, b ≠ (s.mapOf topic).1 → (s.add topic subscriberId partitions).maps b = s.maps b := fun hb => Function.update_of_ne hb ..
  have hmono : s.allocated ≤ (s.add topic subscriberId partitions).allocated := le_max_left ..
  have hin : (s.mapOf topic).1 < (s.add topic subscriberId partitions).allocated := lt_of_lt_of_le (Nat.lt_succ_self _) (le_max_right ..)
  -- no two topics share a map, so the others keep theirs
  have hne : ∀ {t b}, t ≠ topic → s.subscriptions t = some b → b ≠ (s.mapOf topic).1 := by
    rintro t b ht hb rfl
    exact ht (hother t hb)
  constructor
  case bound =>
    intro t b hb
    by_cases ht : t = topic
    · subst ht
      obtain rfl := Option.some.inj (hself.symm.trans hb)
      exact hin
    · rw [hrest ht] at hb
      exact (h.bound t b hb).trans_le hmono
  case distinct =>
    intro t t' b hb hb'
    by_cases ht : t = topic <;> by_cases ht' : t' = topic
    · rw [ht, ht']
    · subst ht
      obtain rfl := Option.some.inj (hself.symm.trans hb)
      rw [hrest ht'] at hb'
      exact (hother t' hb').symm
    · subst ht'
      obtain rfl := Option.some.inj (hself.symm.trans hb')
      rw [hrest ht] at hb
      exact hother t hb
    · rw [hrest ht] at hb
      rw [hrest ht'] at hb'
      exact h.distinct t t' b hb hb'
  case nonempty =>
    intro t b hb
    by_cases ht : t = topic
    · subst ht
      obtain rfl := Option.some.inj (hself.symm.trans hb)
      rw [hmap]
      exact List.append_ne_nil_of_right_ne_nil _ (List.cons_ne_nil _ _)
    · rw [hrest ht] at hb
      rw [hmaps (hne ht hb)]
      exact h.nonempty t b hb
  case stale =>
    intro b hb
    have hb' : b ≠ (s.mapOf topic).1 := by
      rintro rfl
      exact hb topic hself
    rw [hmaps hb']
    refine h.stale b fun t hsome => ?_
    by_cases ht : t = topic
    · subst ht
      exact hb' (hcurrent b hsome).symm
    · exact hb t ((hrest ht).trans hsome)
  case ids =>
    intro b
    by_cases hb : b = (s.mapOf topic).1
    · subst hb
      rw [hmap, List.map_append, List.map_singleton]
      refine List.Nodup.append (hheld ▸ h.ids _) (List.nodup_singleton _) ?_
      rw [List.disjoint_singleton]
      intro hmem
      obtain ⟨held, hmem, hid⟩ := List.mem_map.mp hmem
      exact hnew held hmem hid
    · rw [hmaps hb]
      exact h.ids b
  case number =>
    intro number closure hclosure
    rcases getElem?_add.mp hclosure with hold | ⟨rfl, rfl⟩
    · exact h.number number closure hold
    · rfl
  case captured =>
    intro number closure hclosure
    rcases getElem?_add.mp hclosure with hold | ⟨rfl, rfl⟩
    · obtain ⟨hlt, honly⟩ := h.captured number closure hold
      refine ⟨hlt.trans_le hmono, fun t ht => ?_⟩
      by_cases hsame : t = topic
      · subst hsame
        rcases htopic with hsome | ⟨-, hfresh, -⟩
        · exact honly t (hsome.trans (hself.symm.trans ht))
        · rw [hself, Option.some_inj] at ht
          omega
      · exact honly t ((hrest hsame).symm.trans ht)
    · refine ⟨hin, fun t ht => ?_⟩
      by_cases hsame : t = topic
      · exact hsame
      · exact hother t ((hrest hsame).symm.trans ht)
  case kept =>
    intro number closure hclosure hcalled
    rcases getElem?_add.mp hclosure with hold | ⟨rfl, rfl⟩
    · obtain ⟨hsome, hmem⟩ := h.kept number closure hold hcalled
      by_cases hsame : closure.topic = topic
      · have hbyTopic := hcurrent closure.byTopic (hsame ▸ hsome)
        rw [hsame, ← hbyTopic, hself, hmap, ← hheld]
        exact ⟨rfl, List.mem_append_left _ (hbyTopic ▸ hmem)⟩
      · rw [hrest hsame, hmaps (hne hsame hsome)]
        exact ⟨hsome, hmem⟩
    · exact ⟨hself, hmap ▸ List.mem_append_right _ (List.mem_singleton_self _)⟩
  case known =>
    rintro t subscription ⟨b, hb, hmem⟩
    by_cases ht : t = topic
    · subst ht
      obtain rfl := Option.some.inj (hself.symm.trans hb)
      rw [hmap] at hmem
      rcases List.mem_append.mp hmem with hold | hmem
      · rcases htopic with hsome | ⟨-, -, hnil⟩
        · obtain ⟨closure, hclosure, hrest⟩ := h.known t subscription ⟨_, hsome, hheld ▸ hold⟩
          exact ⟨closure, getElem?_add.mpr (.inl hclosure), hrest⟩
        · rw [hnil] at hold
          cases hold
      · obtain rfl := List.mem_singleton.mp hmem
        exact ⟨_, getElem?_add.mpr (.inr ⟨rfl, rfl⟩), rfl, rfl, rfl⟩
    · rw [hrest ht] at hb
      rw [hmaps (hne ht hb)] at hmem
      obtain ⟨closure, hclosure, hrest⟩ := h.known t subscription ⟨b, hb, hmem⟩
      exact ⟨closure, getElem?_add.mpr (.inl hclosure), hrest⟩

/-! ### Unsubscribing -/

theorem unsubscribe_of {closure : Unsubscribe} (hclosure : s.unsubscribes[number]? = some closure) :
    s.unsubscribe number = { s with
      maps := Function.update s.maps closure.byTopic ((s.maps closure.byTopic).filter (·.id ≠ closure.subscription.id))
      subscriptions := if (s.maps closure.byTopic).filter (·.id ≠ closure.subscription.id) = [] then
        Function.update s.subscriptions closure.topic none else s.subscriptions
      unsubscribes := s.unsubscribes.modify number fun closure => { closure with called := true } } := by
  unfold FanoutSubscriptions.unsubscribe
  rw [hclosure]

theorem Sound.number_ne (h : s.Sound) {closure : Unsubscribe} (hclosure : s.unsubscribes[number]? = some closure)
    (hcalled : closure.called = true) (hin : s.Subscribed topic subscription) : subscription.number ≠ number := by
  rintro rfl
  obtain ⟨other, hother, hlive, -⟩ := h.known topic subscription hin
  obtain rfl := Option.some.inj (hother.symm.trans hclosure)
  rw [hcalled] at hlive
  cases hlive

theorem Sound.unsubscribe_again (h : s.Sound) (hharmless : s.Harmless number) {closure : Unsubscribe}
    (hclosure : s.unsubscribes[number]? = some closure) (hcalled : closure.called = true) : s.unsubscribe number = s := by
  have hflag : s.unsubscribes.modify number (fun closure => { closure with called := true }) = s.unsubscribes := by
    refine List.ext_getElem? fun i => ?_
    rw [List.getElem?_modify]
    by_cases hi : number = i
    · subst hi
      rw [hclosure]
      simp [← hcalled]
    · simp [hi]
  have hsame : (s.maps closure.byTopic).filter (·.id ≠ closure.subscription.id) = s.maps closure.byTopic ∧
      (s.maps closure.byTopic = [] → s.subscriptions closure.topic = none) := by
    cases htopic : s.subscriptions closure.topic with
    | none =>
      have hempty : s.maps closure.byTopic = [] := by
        refine h.stale _ fun topic hsome => ?_
        have hother := (h.captured number closure hclosure).2 topic hsome
        rw [hother, htopic] at hsome
        cases hsome
      rw [hempty]
      exact ⟨rfl, fun _ => rfl⟩
    | some byTopic =>
      obtain ⟨rfl, hids⟩ := hharmless closure hclosure hcalled byTopic htopic
      refine ⟨List.filter_eq_self.mpr fun subscription hmem => ?_, fun hnil => absurd hnil (h.nonempty _ _ htopic)⟩
      exact decide_eq_true (hids subscription hmem)
  rw [unsubscribe_of hclosure, hsame.1, hflag, Function.update_eq_self]
  split_ifs with hnil
  · rw [← hsame.2 hnil, Function.update_eq_self]
  · rfl

section FirstCall
variable {closure : Unsubscribe} {byTopic : ℕ}

theorem Sound.first_mem (h : s.Sound) (hclosure : s.unsubscribes[number]? = some closure) (hcalled : closure.called = false)
    (htopic : s.subscriptions topic = some byTopic) :
    subscription ∈ (s.unsubscribe number).maps byTopic ↔ subscription ∈ s.maps byTopic ∧ subscription.number ≠ number := by
  obtain ⟨hcurrent, hmem⟩ := h.kept number closure hclosure hcalled
  have hnumber : ∀ {subscription}, subscription ∈ s.maps byTopic → subscription.number = number →
      topic = closure.topic ∧ subscription = closure.subscription := by
    rintro subscription hin rfl
    obtain ⟨other, hother, -, rfl, rfl⟩ := h.known topic subscription ⟨byTopic, htopic, hin⟩
    obtain rfl := Option.some.inj (hother.symm.trans hclosure)
    exact ⟨rfl, rfl⟩
  rw [unsubscribe_of hclosure]
  by_cases hsame : byTopic = closure.byTopic
  · subst hsame
    dsimp only
    rw [Function.update_self, List.mem_filter, decide_eq_true_iff]
    refine and_congr_right fun hin => not_congr ⟨fun hid => ?_, fun heq => (hnumber hin heq).2 ▸ rfl⟩
    -- the ids of a map are distinct
    obtain rfl : subscription = closure.subscription := List.inj_on_of_nodup_map (h.ids closure.byTopic) hin hmem hid
    exact h.number number closure hclosure
  · dsimp only
    rw [Function.update_of_ne hsame]
    refine (and_iff_left_of_imp fun hin heq => hsame ?_).symm
    obtain ⟨rfl, -⟩ := hnumber hin heq
    exact Option.some.inj (htopic.symm.trans hcurrent)

theorem Sound.first_topic (h : s.Sound) (hclosure : s.unsubscribes[number]? = some closure) (hcalled : closure.called = false) :
    (s.unsubscribe number).subscriptions topic = some byTopic ↔
      s.subscriptions topic = some byTopic ∧ (s.unsubscribe number).maps byTopic ≠ [] := by
  obtain ⟨hcurrent, -⟩ := h.kept number closure hclosure hcalled
  rw [unsubscribe_of hclosure]
  dsimp only
  by_cases htopic : topic = closure.topic
  · subst htopic
    by_cases hsame : byTopic = closure.byTopic
    · subst hsame
      rw [Function.update_self]
      split_ifs with hnil
      · refine ⟨fun hsome => ?_, fun hboth => absurd hnil hboth.2⟩
        rw [Function.update_self] at hsome
        cases hsome
      · exact ⟨fun hsome => ⟨hsome, hnil⟩, fun hboth => hboth.1⟩
    · have hne : s.subscriptions closure.topic ≠ some byTopic := fun hsome => hsame (Option.some.inj (hsome.symm.trans hcurrent))
      split_ifs with hnil
      · simp [hne]
      · simp [hne]
  · have hkeep : (if (s.maps closure.byTopic).filter (·.id ≠ closure.subscription.id) = [] then
        Function.update s.subscriptions closure.topic none else s.subscriptions) topic = s.subscriptions topic := by
      split_ifs
      · exact Function.update_of_ne htopic ..
      · rfl
    rw [hkeep]
    refine (and_iff_left_of_imp fun hsome => ?_).symm
    have hne : byTopic ≠ closure.byTopic := by
      rintro rfl
      exact htopic ((h.captured number closure hclosure).2 topic hsome)
    rw [Function.update_of_ne hne]
    exact h.nonempty topic byTopic hsome

theorem Sound.unsubscribe_own (h : s.Sound) (hclosure : s.unsubscribes[number]? = some closure)
    (hcalled : closure.called = false) (topic : Text) (subscription : Subscription) :
    (s.unsubscribe number).Subscribed topic subscription ↔ s.Subscribed topic subscription ∧ subscription.number ≠ number := by
  constructor
  · rintro ⟨byTopic, htopic, hmem⟩
    have htopic' := ((h.first_topic hclosure hcalled).mp htopic).1
    obtain ⟨hmem, hne⟩ := (h.first_mem hclosure hcalled htopic').mp hmem
    exact ⟨⟨byTopic, htopic', hmem⟩, hne⟩
  · rintro ⟨⟨byTopic, htopic, hmem⟩, hne⟩
    have hmem' := (h.first_mem hclosure hcalled htopic).mpr ⟨hmem, hne⟩
    exact ⟨byTopic, (h.first_topic hclosure hcalled).mpr ⟨htopic, List.ne_nil_of_mem hmem'⟩, hmem'⟩

theorem mem_unsubscribe (hclosure : s.unsubscribes[number]? = some closure) {i : ℕ} {other : Unsubscribe}
    (hother : (s.unsubscribe number).unsubscribes[i]? = some other) :
    ∃ old, s.unsubscribes[i]? = some old ∧ other = { old with called := other.called } ∧ (other.called = false → old.called = false ∧ number ≠ i) := by
  rw [unsubscribe_of hclosure] at hother
  obtain ⟨old, hold, rfl⟩ := getElem?_modify_some hother
  refine ⟨old, hold, ?_⟩
  split_ifs with hi
  · exact ⟨rfl, fun hcalled => by cases hcalled⟩
  · exact ⟨rfl, fun hcalled => ⟨hcalled, hi⟩⟩

theorem Sound.unsubscribe_first (h : s.Sound) (hclosure : s.unsubscribes[number]? = some closure)
    (hcalled : closure.called = false) : (s.unsubscribe number).Sound := by
  have hsub : ∀ {topic byTopic}, (s.unsubscribe number).subscriptions topic = some byTopic → s.subscriptions topic = some byTopic :=
    fun htopic => ((h.first_topic hclosure hcalled).mp htopic).1
  have hallocated : (s.unsubscribe number).allocated = s.allocated := by
    rw [unsubscribe_of hclosure]
  have hmaps : ∀ byTopic, ((s.unsubscribe number).maps byTopic).Sublist (s.maps byTopic) := by
    intro byTopic
    rw [unsubscribe_of hclosure]
    dsimp only
    by_cases hsame : byTopic = closure.byTopic
    · subst hsame
      rw [Function.update_self]
      exact List.filter_sublist
    · rw [Function.update_of_ne hsame]
  constructor
  case bound =>
    intro topic byTopic htopic
    rw [hallocated]
    exact h.bound topic byTopic (hsub htopic)
  case distinct =>
    intro topic other byTopic htopic hother
    exact h.distinct topic other byTopic (hsub htopic) (hsub hother)
  case nonempty =>
    intro topic byTopic htopic
    exact ((h.first_topic hclosure hcalled).mp htopic).2
  case stale =>
    intro byTopic hnone
    by_contra hne
    have hempty := h.stale byTopic fun topic hsome => hnone topic ((h.first_topic hclosure hcalled).mpr ⟨hsome, hne⟩)
    exact hne (List.sublist_nil.mp (hempty ▸ hmaps byTopic))
  case ids =>
    intro byTopic
    exact (h.ids byTopic).sublist ((hmaps byTopic).map _)
  case number =>
    intro i other hother
    obtain ⟨old, hold, hsame, -⟩ := mem_unsubscribe hclosure hother
    rw [hsame]
    exact h.number i old hold
  case captured =>
    intro i other hother
    obtain ⟨old, hold, hsame, -⟩ := mem_unsubscribe hclosure hother
    rw [hsame, hallocated]
    exact ⟨(h.captured i old hold).1, fun topic htopic => (h.captured i old hold).2 topic (hsub htopic)⟩
  case kept =>
    intro i other hother hfirst
    obtain ⟨old, hold, hsame, hlive⟩ := mem_unsubscribe hclosure hother
    obtain ⟨hold', hne⟩ := hlive hfirst
    obtain ⟨htopic, hmem⟩ := h.kept i old hold hold'
    have hmem' : old.subscription ∈ (s.unsubscribe number).maps old.byTopic := by
      refine (h.first_mem hclosure hcalled htopic).mpr ⟨hmem, ?_⟩
      rw [h.number i old hold]
      exact hne.symm
    rw [hsame]
    exact ⟨(h.first_topic hclosure hcalled).mpr ⟨htopic, List.ne_nil_of_mem hmem'⟩, hmem'⟩
  case known =>
    intro topic subscription hin
    obtain ⟨hin, hne⟩ := (h.unsubscribe_own hclosure hcalled topic subscription).mp hin
    obtain ⟨other, hother, hrest⟩ := h.known topic subscription hin
    refine ⟨other, ?_, hrest⟩
    rw [unsubscribe_of hclosure]
    dsimp only
    rw [List.getElem?_modify, hother]
    simp [hne.symm]

end FirstCall

theorem Sound.unsubscribe (h : s.Sound) (hharmless : s.Harmless number) :
    (s.unsubscribe number).Sound ∧ ∀ topic subscription,
      (s.unsubscribe number).Subscribed topic subscription ↔ s.Subscribed topic subscription ∧ subscription.number ≠ number := by
  cases hclosure : s.unsubscribes[number]? with
  | none =>
    have hsame : s.unsubscribe number = s := by
      unfold FanoutSubscriptions.unsubscribe
      rw [hclosure]
    rw [hsame]
    refine ⟨h, fun topic subscription => (and_iff_left_of_imp fun hin => ?_).symm⟩
    rintro rfl
    obtain ⟨closure, hknown, -⟩ := h.known topic subscription hin
    rw [hclosure] at hknown
    cases hknown
  | some closure =>
    cases hcalled : closure.called with
    | false => exact ⟨h.unsubscribe_first hclosure hcalled, h.unsubscribe_own hclosure hcalled⟩
    | true =>
      rw [h.unsubscribe_again hharmless hclosure hcalled]
      exact ⟨h, fun topic subscription => (and_iff_left_of_imp fun hin => h.number_ne hclosure hcalled hin).symm⟩

theorem Sound.harmless_of_own (h : s.Sound) (hown : ∀ topic subscription, s.Subscribed topic subscription → subscription.number ≠ number →
    (s.unsubscribe number).Subscribed topic subscription) : s.Harmless number := by
  intro closure hclosure hcalled byTopic htopic
  rw [unsubscribe_of hclosure] at hown
  have hkept : ∀ subscription ∈ s.maps byTopic, (s.maps closure.byTopic).filter (·.id ≠ closure.subscription.id) ≠ [] ∧
      (byTopic = closure.byTopic → subscription.id ≠ closure.subscription.id) := by
    intro subscription hmem
    have hin : s.Subscribed closure.topic subscription := ⟨byTopic, htopic, hmem⟩
    obtain ⟨left, hleft, hheld⟩ := hown _ _ hin (h.number_ne hclosure hcalled hin)
    dsimp only at hleft hheld
    split_ifs at hleft with hnil
    · rw [Function.update_self] at hleft
      cases hleft
    · refine ⟨hnil, ?_⟩
      rintro rfl
      obtain rfl := Option.some.inj (htopic.symm.trans hleft)
      rw [Function.update_self] at hheld
      simpa using (List.mem_filter.mp hheld).2
  have hsame : byTopic = closure.byTopic := by
    by_contra hne
    have hempty : s.maps closure.byTopic = [] := by
      refine h.stale _ fun topic hsome => hne ?_
      obtain rfl := (h.captured number closure hclosure).2 topic hsome
      exact Option.some.inj (htopic.symm.trans hsome)
    obtain ⟨subscription, hmem⟩ := List.exists_mem_of_ne_nil _ (h.nonempty _ _ htopic)
    refine (hkept subscription hmem).1 ?_
    rw [hempty, List.filter_nil]
  exact ⟨hsame, fun subscription hmem => (hkept subscription hmem).2 hsame⟩

end FanoutSubscriptions
end OxScada.Scaling
