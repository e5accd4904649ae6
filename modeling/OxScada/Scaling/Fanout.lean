import OxScada.Js.Collation
import OxScada.Runs.Lanes
import OxScada.Runs.Throughout
import OxScada.Scaling.Subscriptions

/-! The partitioned event fan-out. The deliveries of one topic and partition are chained, and each of them calls the
handlers of the subscriptions that it finds when it starts. -/

namespace OxScada.Scaling
open OxScada.Bytes OxScada.Js OxScada.Order OxScada.Runs

structure PartitionedEvent (P : Type) where
  topic : Text
  key : Text
  payload : P
  deriving DecidableEq, Repr

structure FanoutReceipt where
  partition : ℕ
  delivered : ℕ
  failures : List (Text × Text)
  deriving DecidableEq, Repr

/-- How far the call of a handler is. A reason that has no text is `none`. -/
inductive Handover
  | ready
  | running
  | fulfilled
  | rejected (error : Option Text)
  deriving DecidableEq, Repr

inductive Delivery
  | queued
  | delivering (handovers : List (Subscription × Handover))
  | returned (receipt : Option FanoutReceipt)
  deriving DecidableEq, Repr

/-- A call of `publish`, with the call whose tail it waits for. The subscriptions that were live when its delivery
started are a ghost. -/
structure Publication (P : Type) where
  event : PartitionedEvent P
  partition : ℕ
  previous : Option ℕ
  delivery : Delivery := .queued
  live : List ℕ := []
  deriving DecidableEq, Repr

/-- The bus. Which handlers were called with which events is a ghost. -/
structure PartitionedEventFanout (P : Type) extends FanoutSubscriptions where
  partitionCount : ℕ
  positive : 0 < partitionCount
  partitionTails : Text → Option ℕ := fun _ => none
  publications : List (Publication P) := []
  handed : List (ℕ × ℕ) := []

inductive FanoutCall (P : Type)
  | subscribe (topic subscriberId : Text) (partitions : Option (List ℚ))
  | unsubscribe (number : ℕ)
  | publish (event : PartitionedEvent P)
  | start (number : ℕ)
  | hand (number index : ℕ)
  | settle (number index : ℕ) (outcome : Except (Option Text) Unit)
  | finish (number : ℕ)
  | cleanup (number : ℕ)

def orderedKey (topic : Text) (partition : ℕ) : Text := topic ++ '\x00' :: Nat.toDigits 10 partition

namespace Delivery

def isReturned : Delivery → Bool
  | returned _ => true
  | _ => false

/-- The subscriptions that are still to be handed the event. -/
def remaining : Delivery → List ℕ
  | delivering handovers => (handovers.filter (·.2 = .ready)).map (·.1.number)
  | _ => []

def phase : Delivery → Phase
  | queued => .waiting
  | delivering _ => .running
  | returned _ => .done

end Delivery

/-- What a delivery returns when all its handlers have settled. -/
def receiptOf (partition : ℕ) (handovers : List (Subscription × Handover)) : Option FanoutReceipt :=
  let failures := handovers.filterMap fun handover =>
    match handover.2 with
    | .rejected error => some (error.map fun error => (handover.1.id, error))
    | _ => none
  (failures.mapM id).map fun failures => { partition, delivered := handovers.length - failures.length, failures }

namespace PartitionedEventFanout
variable {P : Type}

def create (partitionCount : ℚ) : Except Text (PartitionedEventFanout P) :=
  if h : partitionCount.den = 1 ∧ 1 ≤ partitionCount then
    .ok { partitionCount := partitionCount.num.toNat, positive := by
            have hnum : 0 < partitionCount.num := Rat.num_pos.mpr (by linarith [h.2])
            omega }
  else .error "partitionCount must be a positive integer".toList

variable (hash64 : Text → ℕ) (localeCompare : Text → Text → ℤ) (bus : PartitionedEventFanout P)

def partitionFor (key : Text) : ℕ := hash64 key % bus.partitionCount

def publish (event : PartitionedEvent P) : PartitionedEventFanout P :=
  let partition := bus.partitionFor hash64 event.key
  let key := orderedKey event.topic partition
  { bus with
    publications := bus.publications ++ [{ event, partition, previous := bus.partitionTails key }]
    partitionTails := Function.update bus.partitionTails key (some bus.publications.length) }

def recipients (topic : Text) (partition : ℕ) : List Subscription :=
  (((bus.subscriptions topic).elim [] bus.maps).filter (·.accepts partition)).insertionSort
    (Sorts fun left right => localeCompare left.id right.id)

variable (number : ℕ)

def deliveryOf : Option Delivery := bus.publications[number]?.map fun publication => publication.delivery

def returned : Bool := (bus.deliveryOf number).any (·.isReturned)

def setDelivery (delivery : Delivery) : PartitionedEventFanout P :=
  { bus with publications := bus.publications.modify number fun publication => { publication with delivery } }

/-- A delivery starts when the one that it waits for has returned. -/
def start : PartitionedEventFanout P :=
  match bus.publications[number]? with
  | some publication =>
    if publication.delivery = .queued ∧ publication.previous.all bus.returned = true then
      let recipients := bus.recipients localeCompare publication.event.topic publication.partition
      let live := bus.live publication.event.topic publication.partition
      { bus with publications := bus.publications.modify number fun publication => { publication with
          delivery := .delivering (recipients.map fun subscription => (subscription, .ready)), live } }
    else bus
  | none => bus

def hand (number index : ℕ) : PartitionedEventFanout P :=
  match bus.deliveryOf number with
  | some (.delivering handovers) =>
    match handovers[index]? with
    | some (subscription, .ready) =>
      { bus.setDelivery number (.delivering (handovers.set index (subscription, .running))) with
        handed := bus.handed ++ [(number, subscription.number)] }
    | _ => bus
  | _ => bus

def settle (number index : ℕ) (outcome : Except (Option Text) Unit) : PartitionedEventFanout P :=
  match bus.deliveryOf number with
  | some (.delivering handovers) =>
    match handovers[index]? with
    | some (subscription, .running) =>
      let settled := match outcome with
        | .ok () => Handover.fulfilled
        | .error error => .rejected error
      bus.setDelivery number (.delivering (handovers.set index (subscription, settled)))
    | _ => bus
  | _ => bus

def finish : PartitionedEventFanout P :=
  match bus.publications[number]? with
  | some { delivery := .delivering handovers, partition, .. } =>
    if handovers.all fun handover => handover.2 ≠ .ready ∧ handover.2 ≠ .running then
      bus.setDelivery number (.returned (receiptOf partition handovers))
    else bus
  | _ => bus

/-- The last part of `publish`, which is not reached when the delivery has thrown. -/
def cleanup : PartitionedEventFanout P :=
  match bus.publications[number]? with
  | some { event, partition, delivery := .returned (some _), .. } =>
    let key := orderedKey event.topic partition
    if bus.partitionTails key = some number then { bus with partitionTails := Function.update bus.partitionTails key none } else bus
  | _ => bus

def step (call : FanoutCall P) : PartitionedEventFanout P :=
  match call with
  | .subscribe topic subscriberId partitions =>
    match bus.toFanoutSubscriptions.subscribe bus.partitionCount topic subscriberId partitions with
    | .ok subscriptions => { bus with toFanoutSubscriptions := subscriptions }
    | .error _ => bus
  | .unsubscribe number => { bus with toFanoutSubscriptions := bus.toFanoutSubscriptions.unsubscribe number }
  | .publish event => bus.publish hash64 event
  | .start number => bus.start localeCompare number
  | .hand number index => bus.hand number index
  | .settle number index outcome => bus.settle number index outcome
  | .finish number => bus.finish number
  | .cleanup number => bus.cleanup number

/-- The subscriptions whose handlers were called with an event, in the order of the calls. -/
def handedTo (number : ℕ) : List ℕ := (bus.handed.filter (·.1 = number)).map (·.2)

structure Orderly (bus : PartitionedEventFanout P) : Prop where
  once : ∀ (number : ℕ) (publication : Publication P), bus.publications[number]? = some publication → publication.live.Nodup ∧
    (bus.handedTo number ++ publication.delivery.remaining).Perm publication.live
  ordered : ∀ (first next : ℕ) (publication later : Publication P), first < next → bus.publications[first]? = some publication →
    bus.publications[next]? = some later → publication.event.topic = later.event.topic → publication.partition = later.partition →
    later.delivery ≠ .queued → publication.delivery.isReturned = true
  ready : ∀ (number : ℕ) (publication : Publication P), bus.publications[number]? = some publication →
    (∀ (first : ℕ) (other : Publication P), first < number → bus.publications[first]? = some other →
      other.event.topic = publication.event.topic → other.partition = publication.partition → other.delivery.isReturned = true) →
    publication.previous.all bus.returned = true

/-- A call leaves the deliveries orderly, and if it is a call of a function that `subscribe` has returned, it takes
back the subscription of that call and no other. -/
structure Delivers (bus : PartitionedEventFanout P) (call : FanoutCall P) : Prop where
  orderly : (bus.step hash64 localeCompare call).Orderly
  own : ∀ number, call = .unsubscribe number → ∀ topic subscription,
    (bus.step hash64 localeCompare call).Subscribed topic subscription ↔ bus.Subscribed topic subscription ∧ subscription.number ≠ number

/-- A function that was called before is called only while that is harmless. -/
def Fresh (bus : PartitionedEventFanout P) (call : FanoutCall P) : Prop := ∀ number, call = .unsubscribe number → bus.Harmless number

/-! ### The chains of deliveries -/

variable {hash64 localeCompare bus} {number : ℕ} {publication : Publication P}

def lanes (bus : PartitionedEventFanout P) : Lanes Text :=
  { tasks := bus.publications.map fun publication =>
      { lane := orderedKey publication.event.topic publication.partition, previous := publication.previous, phase := publication.delivery.phase }
    tail := bus.partitionTails }

theorem lanes_mem (h : bus.publications[number]? = some publication) : bus.lanes.tasks[number]? =
    some ⟨orderedKey publication.event.topic publication.partition, publication.previous, publication.delivery.phase⟩ := by
  unfold lanes
  rw [List.getElem?_map, h]
  rfl

theorem mem_lanes {task : LaneTask Text} (h : bus.lanes.tasks[number]? = some task) : ∃ publication, bus.publications[number]? = some publication ∧
    task = ⟨orderedKey publication.event.topic publication.partition, publication.previous, publication.delivery.phase⟩ := by
  unfold lanes at h
  rw [List.getElem?_map] at h
  obtain ⟨publication, hpublication, rfl⟩ := Option.map_eq_some_iff.mp h
  exact ⟨publication, hpublication, rfl⟩

theorem phase_done {delivery : Delivery} : delivery.phase = .done ↔ delivery.isReturned = true := by
  cases delivery <;> simp [Delivery.phase, Delivery.isReturned]

theorem orderedKey_injective {topic topic' : Text} {partition partition' : ℕ} (h : orderedKey topic partition = orderedKey topic' partition') :
    topic = topic' ∧ partition = partition' := by
  have hdigits : ∀ n, ∀ c ∈ (Nat.toDigits 10 n).reverse, (c ≠ '\x00') := by
    rintro n c hc rfl
    have hdigit := Nat.isDigit_of_mem_toDigits (by norm_num) (by norm_num) (List.mem_reverse.mp hc)
    simp [Char.isDigit] at hdigit
  -- the digits are what stands after the last zero character
  have hspan : ∀ topic n, (orderedKey topic n).reverse.takeWhile (· ≠ '\x00') = (Nat.toDigits 10 n).reverse ∧
      (orderedKey topic n).reverse.dropWhile (· ≠ '\x00') = '\x00' :: topic.reverse := by
    intro topic n
    unfold orderedKey
    rw [List.reverse_append, List.reverse_cons, List.append_assoc]
    constructor
    · rw [List.takeWhile_append_of_pos fun c hc => decide_eq_true (hdigits n c hc)]
      simp
    · rw [List.dropWhile_append_of_pos fun c hc => decide_eq_true (hdigits n c hc)]
      simp
  have hparts := hspan topic partition
  rw [h, (hspan topic' partition').1, (hspan topic' partition').2] at hparts
  refine ⟨?_, ?_⟩
  · simpa using hparts.2.symm
  · have hvalue := congrArg (fun l => Nat.ofDigitChars 10 l 0) (List.reverse_inj.mp hparts.1)
    simpa only [Nat.ofDigitChars_ten_toDigits] using hvalue.symm

theorem lanes_publish (event : PartitionedEvent P) :
    (bus.publish hash64 event).lanes = bus.lanes.enqueue (orderedKey event.topic (bus.partitionFor hash64 event.key)) := by
  simp [lanes, publish, Lanes.enqueue, Delivery.phase]

theorem lanes_modify {bus' : PartitionedEventFanout P} {phase : Phase} (hvalid : (bus.lanes.enter number phase).Valid)
    {f : Publication P → Publication P} (hpublications : bus'.publications = bus.publications.modify number f)
    (htails : bus'.partitionTails = bus.partitionTails) (hevent : ∀ publication, (f publication).event = publication.event)
    (hpartition : ∀ publication, (f publication).partition = publication.partition)
    (hprevious : ∀ publication, (f publication).previous = publication.previous)
    (hphase : ∀ publication, (f publication).delivery.phase = phase) : bus'.lanes.Valid := by
  have hlanes : bus'.lanes = bus.lanes.enter number phase := by
    unfold lanes Lanes.enter
    rw [hpublications, htails]
    congr 1
    refine List.ext_getElem? fun i => ?_
    rw [List.getElem?_map, List.getElem?_modify, List.getElem?_modify, List.getElem?_map]
    cases bus.publications[i]? with
    | none => rfl
    | some publication =>
      by_cases hi : number = i
      · simp [hi, hevent, hpartition, hprevious, hphase]
      · simp [hi]
  rw [hlanes]
  exact hvalid

/-! ### The handlers that are called -/

def handedIn (handed : List (ℕ × ℕ)) (number : ℕ) : List ℕ := (handed.filter (·.1 = number)).map (·.2)

/-- Each delivery has handed the event to live subscriptions, and has the others still to come. -/
structure Handed (publications : List (Publication P)) (handed : List (ℕ × ℕ)) : Prop where
  once : ∀ (number : ℕ) (publication : Publication P), publications[number]? = some publication → publication.live.Nodup ∧
    (handedIn handed number ++ publication.delivery.remaining).Perm publication.live
  queued : ∀ (number : ℕ) (publication : Publication P), publications[number]? = some publication → publication.delivery = .queued → publication.live = []
  known : ∀ entry ∈ handed, entry.1 < publications.length

theorem Handed.publish {publications : List (Publication P)} {handed : List (ℕ × ℕ)} (h : Handed publications handed)
    (hqueued : publication.delivery = .queued) (hlive : publication.live = []) : Handed (publications ++ [publication]) handed := by
  constructor
  · intro number other hother
    rcases getElem?_snoc.mp hother with hold | ⟨rfl, rfl⟩
    · exact h.once number other hold
    · have hnone : handedIn handed publications.length = [] := by
        unfold handedIn
        rw [List.map_eq_nil_iff, List.filter_eq_nil_iff]
        intro entry hentry hsame
        exact (h.known entry hentry).ne (of_decide_eq_true hsame)
      rw [hnone, hqueued, hlive]
      exact ⟨List.nodup_nil, .refl _⟩
  · intro number other hother hother'
    rcases getElem?_snoc.mp hother with hold | ⟨rfl, rfl⟩
    · exact h.queued number other hold hother'
    · exact hlive
  · intro entry hentry
    have hlt := h.known entry hentry
    rw [List.length_append]
    exact hlt.trans_le (Nat.le_add_right ..)

theorem Handed.modify {publications : List (Publication P)} {handed : List (ℕ × ℕ)} (h : Handed publications handed)
    (f : Publication P → Publication P) (more : List ℕ) (hpublication : publications[number]? = some publication)
    (hlive : (f publication).live.Nodup)
    (hperm : (handedIn handed number ++ more ++ (f publication).delivery.remaining).Perm (f publication).live)
    (hqueued : (f publication).delivery ≠ .queued) :
    Handed (publications.modify number f) (handed ++ more.map fun subscription => (number, subscription)) := by
  have hself : handedIn (handed ++ more.map fun subscription => (number, subscription)) number = handedIn handed number ++ more := by
    unfold handedIn
    rw [List.filter_append, List.map_append]
    congr 1
    rw [List.filter_eq_self.mpr (by simp), List.map_map]
    exact List.map_id _
  have hrest : ∀ i, number ≠ i → handedIn (handed ++ more.map fun subscription => (number, subscription)) i = handedIn handed i := by
    intro i hi
    unfold handedIn
    have hnone : (more.map fun subscription => (number, subscription)).filter (·.1 = i) = [] := by simp [hi]
    rw [List.filter_append, hnone, List.append_nil]
  constructor
  · intro i other hother
    obtain ⟨old, hold, rfl⟩ := getElem?_modify_some hother
    split_ifs with hi
    · subst hi
      obtain rfl := Option.some.inj (hpublication.symm.trans hold)
      rw [hself]
      exact ⟨hlive, hperm⟩
    · rw [hrest i hi]
      exact h.once i old hold
  · intro i other hother hother'
    obtain ⟨old, hold, rfl⟩ := getElem?_modify_some hother
    split_ifs at hother' ⊢ with hi
    · subst hi
      obtain rfl := Option.some.inj (hpublication.symm.trans hold)
      exact absurd hother' hqueued
    · exact h.queued i old hold hother'
  · intro entry hentry
    rw [List.length_modify]
    rcases List.mem_append.mp hentry with hold | hnew
    · exact h.known entry hold
    · obtain ⟨subscription, -, rfl⟩ := List.mem_map.mp hnew
      exact (List.getElem?_eq_some_iff.mp hpublication).1

theorem remaining_cons (handover : Subscription × Handover) (later : List (Subscription × Handover)) :
    (Delivery.delivering (handover :: later)).remaining =
      (if handover.2 = .ready then [handover.1.number] else []) ++ (Delivery.delivering later).remaining := by
  unfold Delivery.remaining
  dsimp only
  rw [List.filter_cons]
  split_ifs with hready hready' hready'
  · rfl
  · simp_all
  · simp_all
  · rfl

variable {handovers : List (Subscription × Handover)}

theorem remaining_call {index : ℕ} {subscription : Subscription} {next : Handover}
    (h : handovers[index]? = some (subscription, .ready)) (hnext : next ≠ .ready) :
    (subscription.number :: (Delivery.delivering (handovers.set index (subscription, next))).remaining).Perm
      (Delivery.delivering handovers).remaining := by
  induction handovers generalizing index with
  | nil => simp at h
  | cons handover later ih =>
    cases index with
    | zero =>
      obtain rfl : handover = (subscription, .ready) := by simpa using h
      rw [List.set_cons_zero, remaining_cons, remaining_cons, if_neg hnext, if_pos rfl]
      exact .refl _
    | succ index =>
      have hlater := ih (by simpa using h)
      rw [List.set_cons_succ, remaining_cons, remaining_cons]
      exact (List.perm_middle.symm).trans (hlater.append_left _)

theorem remaining_settle {index : ℕ} {subscription : Subscription} {before next : Handover}
    (h : handovers[index]? = some (subscription, before)) (hbefore : before ≠ .ready) (hnext : next ≠ .ready) :
    (Delivery.delivering (handovers.set index (subscription, next))).remaining = (Delivery.delivering handovers).remaining := by
  induction handovers generalizing index with
  | nil => simp at h
  | cons handover later ih =>
    cases index with
    | zero =>
      obtain rfl : handover = (subscription, before) := by simpa using h
      rw [List.set_cons_zero, remaining_cons, remaining_cons, if_neg hnext, if_neg hbefore]
    | succ index =>
      have hlater := ih (by simpa using h)
      rw [List.set_cons_succ, remaining_cons, remaining_cons, hlater]

/-! ### The subscriptions that a delivery finds -/

theorem recipients_live (localeCompare : Text → Text → ℤ) (h : bus.Sound) (topic : Text) (partition : ℕ) : (bus.live topic partition).Nodup ∧
    ((bus.recipients localeCompare topic partition).map (·.number)).Perm (bus.live topic partition) := by
  have hnumbers : bus.unsubscribes.map (·.subscription.number) = List.range bus.unsubscribes.length := by
    refine List.ext_getElem (by simp) fun i hi hi' => ?_
    have hlt : i < bus.unsubscribes.length := by simpa using hi
    have hclosure : bus.unsubscribes[i]? = some bus.unsubscribes[i] := List.getElem?_eq_getElem hlt
    simpa using h.number i _ hclosure
  have hlive : (bus.live topic partition).Nodup := by
    have hsub := (List.filter_sublist (l := bus.unsubscribes) (p := fun closure =>
      closure.topic = topic ∧ closure.called = false ∧ closure.subscription.accepts partition = true)).map (·.subscription.number)
    rw [hnumbers] at hsub
    exact List.nodup_range.sublist hsub
  have hin : ∀ subscription, subscription ∈ bus.recipients localeCompare topic partition ↔
      bus.Subscribed topic subscription ∧ subscription.accepts partition = true := by
    intro subscription
    unfold recipients FanoutSubscriptions.Subscribed
    rw [List.mem_insertionSort, List.mem_filter]
    cases bus.subscriptions topic <;> simp
  have hdistinct : (bus.recipients localeCompare topic partition).Nodup := by
    unfold recipients
    refine (List.perm_insertionSort _ _).nodup_iff.mpr (List.Nodup.filter _ ?_)
    cases bus.subscriptions topic with
    | none => exact List.nodup_nil
    | some byTopic => exact (h.ids byTopic).of_map
  refine ⟨hlive, (List.perm_ext_iff_of_nodup (hdistinct.map_on fun first hfirst next hnext hsame => ?_) hlive).mpr fun number => ?_⟩
  · obtain ⟨closure, hclosure, -, -, rfl⟩ := h.known topic first ((hin first).mp hfirst).1
    obtain ⟨other, hother, -, -, rfl⟩ := h.known topic next ((hin next).mp hnext).1
    rw [hsame, hother] at hclosure
    exact (Option.some.inj hclosure) ▸ rfl
  · unfold FanoutSubscriptions.live
    simp only [List.mem_map, List.mem_filter, decide_eq_true_eq]
    constructor
    · rintro ⟨subscription, hsubscription, rfl⟩
      obtain ⟨hsubscribed, haccepts⟩ := (hin subscription).mp hsubscription
      obtain ⟨closure, hclosure, hcalled, htopic, rfl⟩ := h.known topic subscription hsubscribed
      exact ⟨closure, ⟨List.mem_of_getElem? hclosure, htopic, hcalled, haccepts⟩, rfl⟩
    · rintro ⟨closure, ⟨hmem, rfl, hcalled, haccepts⟩, rfl⟩
      obtain ⟨i, hi, hclosure⟩ := List.getElem_of_mem hmem
      obtain ⟨htopic, hheld⟩ := h.kept i closure (List.getElem?_eq_some_iff.mpr ⟨hi, hclosure⟩) hcalled
      exact ⟨closure.subscription, (hin _).mpr ⟨⟨closure.byTopic, htopic, hheld⟩, haccepts⟩, rfl⟩

/-! ### Runs -/

structure Correct (bus : PartitionedEventFanout P) : Prop where
  sound : bus.Sound
  lanes : bus.lanes.Valid
  handed : Handed bus.publications bus.handed

section
variable (h : bus.Correct)
include h

theorem Correct.orderly : bus.Orderly := by
  refine ⟨h.handed.once, fun first next publication later hlt hfirst hnext htopic hpartition hstarted => ?_, fun number publication hpublication hbefore => ?_⟩
  · have hdone := h.lanes.done hlt (lanes_mem hfirst) (lanes_mem hnext) (by dsimp only; rw [htopic, hpartition]) fun hwaits => hstarted ?_
    · exact phase_done.mp hdone
    · cases hdelivery : later.delivery with
      | queued => rfl
      | delivering | returned => simp [hdelivery, Delivery.phase] at hwaits
  · cases hprevious : publication.previous with
    | none => rfl
    | some first =>
      obtain ⟨hlt, task, htask, hlane⟩ := h.lanes.previous number first _ (lanes_mem hpublication) hprevious
      obtain ⟨other, hother, rfl⟩ := mem_lanes htask
      obtain ⟨htopic, hpartition⟩ := orderedKey_injective hlane
      have hreturned := hbefore first other hlt hother htopic hpartition
      simp [returned, deliveryOf, hother, hreturned]

theorem Correct.publish (event : PartitionedEvent P) : (bus.publish hash64 event).Correct :=
  ⟨h.sound, lanes_publish event ▸ h.lanes.enqueue _, h.handed.publish rfl rfl⟩

theorem Correct.start (number : ℕ) : (bus.start localeCompare number).Correct := by
  unfold PartitionedEventFanout.start
  split
  · rename_i publication hpublication
    split_ifs with hready
    · obtain ⟨hqueued, hprevious⟩ := hready
      dsimp only
      obtain ⟨hnodup, hperm⟩ := recipients_live localeCompare h.sound publication.event.topic publication.partition
      generalize bus.recipients localeCompare publication.event.topic publication.partition = recipients at hperm ⊢
      generalize bus.live publication.event.topic publication.partition = live at hnodup hperm ⊢
      refine ⟨h.sound, ?_, ?_⟩
      · have hwaits : publication.delivery.phase = .waiting := by simp [hqueued, Delivery.phase]
        refine lanes_modify (h.lanes.start (lanes_mem hpublication) hwaits fun first task hfirst htask => ?_) rfl rfl
          (fun _ => rfl) (fun _ => rfl) (fun _ => rfl) (fun _ => rfl)
        obtain ⟨other, hother, rfl⟩ := mem_lanes htask
        refine phase_done.mpr ?_
        have hfirst' : publication.previous = some first := hfirst
        rw [hfirst'] at hprevious
        simpa [returned, deliveryOf, hother] using hprevious
      · have hnone : handedIn bus.handed number = [] := by
          have hbefore := (h.handed.once number publication hpublication).2
          rw [h.handed.queued number publication hpublication hqueued] at hbefore
          exact (List.append_eq_nil_iff.mp hbefore.eq_nil).1
        have hmodify := h.handed.modify (fun publication => { publication with
          delivery := .delivering (recipients.map fun subscription => (subscription, .ready)), live }) [] hpublication hnodup ?_ (by simp)
        · rw [List.map_nil, List.append_nil] at hmodify
          exact hmodify
        · rw [hnone]
          simpa [Delivery.remaining, List.filter_map, Function.comp_def] using hperm
    · exact h
  · exact h

theorem Correct.deliver (hdelivery : bus.deliveryOf number = some (.delivering handovers))
    (delivery : Delivery) (more : List ℕ) (hnext : delivery ≠ .queued) (hperm : (more ++ delivery.remaining).Perm (Delivery.delivering handovers).remaining) :
    ({ bus.setDelivery number delivery with handed := bus.handed ++ more.map fun subscription => (number, subscription) } : PartitionedEventFanout P).Correct := by
  obtain ⟨publication, hpublication, hdelivering⟩ : ∃ publication, bus.publications[number]? = some publication ∧ publication.delivery = .delivering handovers := by
    simpa [deliveryOf] using hdelivery
  refine ⟨h.sound, ?_, ?_⟩
  · have hvalid := h.lanes.proceed (lanes_mem hpublication) (by simp [hdelivering, Delivery.phase]) delivery.phase
    exact lanes_modify hvalid rfl rfl (fun _ => rfl) (fun _ => rfl) (fun _ => rfl) (fun _ => rfl)
  · obtain ⟨hnodup, honce⟩ := h.handed.once number publication hpublication
    rw [hdelivering] at honce
    refine h.handed.modify (fun publication => { publication with delivery }) more hpublication hnodup ?_ hnext
    rw [List.append_assoc]
    exact (hperm.append_left _).trans honce

theorem Correct.hand (number index : ℕ) : (bus.hand number index).Correct := by
  unfold PartitionedEventFanout.hand
  split
  · rename_i handovers hdelivery
    split
    · rename_i subscription hready
      exact h.deliver hdelivery _ [subscription.number] (by simp) (remaining_call hready (by simp))
    · exact h
  · exact h

theorem Correct.settle (number index : ℕ) (outcome : Except (Option Text) Unit) : (bus.settle number index outcome).Correct := by
  unfold PartitionedEventFanout.settle
  split
  · rename_i handovers hdelivery
    split
    · rename_i subscription hrunning
      have hnext : (match outcome with
          | .ok () => Handover.fulfilled
          | .error error => .rejected error) ≠ .ready := by
        cases outcome <;> simp
      have hdeliver := h.deliver hdelivery (.delivering _) [] (by simp) (.of_eq (remaining_settle hrunning (by simp) hnext))
      rw [List.map_nil, List.append_nil] at hdeliver
      exact hdeliver
    · exact h
  · exact h

theorem Correct.finish (number : ℕ) : (bus.finish number).Correct := by
  unfold PartitionedEventFanout.finish
  split
  · rename_i event partition previous handovers live hpublication
    split_ifs with hsettled
    · have hnone : (Delivery.delivering handovers).remaining = [] := by
        unfold Delivery.remaining
        rw [List.map_eq_nil_iff, List.filter_eq_nil_iff]
        intro handover hmem hready
        have hother := List.all_eq_true.mp hsettled handover hmem
        simp only [decide_eq_true_eq] at hready hother
        exact hother.1 hready
      have hdelivery : bus.deliveryOf number = some (.delivering handovers) := by simp [deliveryOf, hpublication]
      have hdeliver := h.deliver hdelivery (.returned (receiptOf partition handovers)) [] (by simp) (.of_eq hnone.symm)
      rw [List.map_nil, List.append_nil] at hdeliver
      exact hdeliver
    · exact h
  · exact h

theorem Correct.cleanup (number : ℕ) : (bus.cleanup number).Correct := by
  unfold PartitionedEventFanout.cleanup
  split
  · rename_i event partition receipt hpublication
    dsimp only
    split_ifs with htail
    · exact ⟨h.sound, h.lanes.release (lanes_mem hpublication) rfl htail, h.handed⟩
    · exact h
  · exact h

end

theorem Correct.step {call : FanoutCall P} (h : bus.Correct) (hfresh : bus.Fresh call) : (bus.step hash64 localeCompare call).Correct := by
  cases call with
  | subscribe topic subscriberId partitions =>
    unfold PartitionedEventFanout.step
    dsimp only
    split
    · rename_i subscriptions hsubscribe
      obtain ⟨selected, rfl, hnew⟩ := FanoutSubscriptions.subscribe_ok hsubscribe
      exact ⟨h.sound.add hnew, h.lanes, h.handed⟩
    · exact h
  | unsubscribe number => exact ⟨(h.sound.unsubscribe (hfresh number rfl)).1, h.lanes, h.handed⟩
  | publish event => exact h.publish event
  | start number => exact h.start number
  | hand number index => exact h.hand number index
  | settle number index outcome => exact h.settle number index outcome
  | finish number => exact h.finish number
  | cleanup number => exact h.cleanup number

theorem create_correct {partitionCount : ℚ} (h : create partitionCount = .ok bus) : bus.Correct := by
  unfold create at h
  split_ifs at h
  obtain rfl := Except.ok.inj h
  exact ⟨FanoutSubscriptions.sound_empty, Lanes.valid_empty, ⟨by simp, by simp, by simp⟩⟩

/-- A bus delivers as it should in each step of a run exactly if no function that takes a subscription back is called
again where that is not harmless. -/
theorem throughout_delivers_iff {partitionCount : ℚ} (h : create partitionCount = .ok bus) (calls : List (FanoutCall P)) :
    Throughout (step hash64 localeCompare) (Delivers hash64 localeCompare) bus calls ↔ Throughout (step hash64 localeCompare) Fresh bus calls := by
  refine throughout_iff (I := Correct) (fun bus call hbus => ⟨fun hdelivers number hcall => ?_, fun hfresh => ?_⟩)
    (fun bus call hbus hfresh => hbus.step hfresh) (create_correct h) calls
  · subst hcall
    exact hbus.sound.harmless_of_own fun topic subscription hsubscribed hne => (hdelivers.own number rfl topic subscription).mpr ⟨hsubscribed, hne⟩
  · refine ⟨(hbus.step hfresh).orderly, ?_⟩
    rintro number rfl
    exact (hbus.sound.unsubscribe (hfresh number rfl)).2

/-! ### A function that is called again -/

def threePartitions : PartitionedEventFanout ℕ := { partitionCount := 3, positive := Nat.zero_lt_succ 2 }

theorem create_three : create 3 = .ok threePartitions := by
  unfold create
  rw [dif_pos ⟨rfl, by norm_num⟩]
  rfl

def byLength (s t : Text) : ℤ := s.length - t.length

/-- Two subscriptions, one after the other, and an event for the second. -/
def replaced (between : List (FanoutCall ℕ)) : List (FanoutCall ℕ) :=
  [.subscribe ['t'] ['a'] none, .unsubscribe 0] ++ between ++ [.publish ⟨['t'], ['k'], 5⟩, .start 0, .finish 0]

/-- A function that is called again after its topic has got a new map removes that map. -/
theorem stale_unsubscribe :
    ¬ Throughout (step List.length byLength) (Delivers List.length byLength) threePartitions
      (replaced [.subscribe ['t'] ['b'] none, .unsubscribe 0]) ∧
    ((replaced [.subscribe ['t'] ['b'] none, .unsubscribe 0]).foldl (step List.length byLength) threePartitions).publications =
      [⟨⟨['t'], ['k'], 5⟩, 1, none, .returned (some ⟨1, 0, []⟩), [1]⟩] := by
  refine ⟨fun hall => ?_, by decide +kernel⟩
  obtain ⟨-, -, -, hdelivers, -⟩ := hall
  obtain ⟨byTopic, hmap, -⟩ := (hdelivers.own 0 rfl ['t'] ⟨['b'], none, 1⟩).mpr ⟨⟨1, rfl, by decide⟩, by decide⟩
  have hnone : ((([.subscribe ['t'] ['a'] none, .unsubscribe 0, .subscribe ['t'] ['b'] none, .unsubscribe 0] : List (FanoutCall ℕ)).foldl
      (step List.length byLength) threePartitions).subscriptions ['t']) = none := by decide
  cases hnone.symm.trans hmap

theorem harmless_unsubscribe_delivers : create 3 = .ok threePartitions ∧
    Throughout (step List.length byLength) (Delivers List.length byLength) threePartitions
      (replaced [.unsubscribe 0, .subscribe ['t'] ['b'] none]) := by
  refine ⟨create_three, (throughout_delivers_iff create_three _).mpr ⟨?_, ?_, ?_, ?_, ?_, ?_, ?_, trivial⟩⟩
  · rintro number ⟨⟩
  · rintro number ⟨⟩ closure hclosure hcalled
    obtain rfl := Option.some.inj hclosure
    cases hcalled
  · rintro number ⟨⟩ closure hclosure - byTopic hmap
    obtain rfl := Option.some.inj hclosure
    cases hmap
  all_goals rintro number ⟨⟩

end PartitionedEventFanout
end OxScada.Scaling
