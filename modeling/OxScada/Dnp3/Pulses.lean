import OxScada.Dnp3.ControlResults

/-! Pulses: an output is left alone while a pulse runs on it. -/

namespace OxScada.Dnp3
open OxScada.Runs

def ControlEvent.output : ControlEvent → Option ℕ
  | .called (.binaryOutput _ _ index _ _ _) _ => some index
  | _ => none

/-- The pulse that the sink took: its output, and how long it is. -/
def ControlEvent.pulse : ControlEvent → Option (ℕ × ℤ)
  | .called (.binaryOutput _ _ index _ _ crob) .ok =>
    if crob.opType = 1 ∨ crob.opType = 2 then
      some (index, crob.count.toNat * crob.onTimeMs + ((crob.count.toNat : ℤ) - 1) * crob.offTimeMs)
    else none
  | _ => none

/-- The second entry is no call for an output on which the first one started a pulse that still runs. -/
def Apart (first second : ℤ × ControlEvent) : Prop :=
  ∀ index duration, first.2.pulse = some (index, duration) → second.2.output = some index →
    ¬ (first.1 ≤ second.1 ∧ second.1 < first.1 + duration)

/-- A processor, the time of its last request, and what happened so far, with its times. -/
structure TimedRun where
  processor : Dnp3ControlProcessor
  clock : ℤ
  timed : List (ℤ × ControlEvent) := []

structure TimedRequest where
  pointMap : Dnp3PointMap
  req : ParsedRequest
  now : ℤ

def timedStep (s : TimedRun) (a : TimedRequest) : Option TimedRun :=
  if a.now < s.clock then none
  else some {
    processor := (s.processor.process a.pointMap a.req a.now).2
    clock := a.now
    timed := s.timed ++ (s.processor.eventsOf a.pointMap a.req a.now).map (a.now, ·) }

/-- No output was called for during a pulse, and the pulses that still run are known. -/
structure Exclusive (p : Dnp3ControlProcessor) (now : ℤ) (timed : List (ℤ × ControlEvent)) : Prop where
  apart : timed.Pairwise Apart
  busy : ∀ e ∈ timed, ∀ index duration, e.2.pulse = some (index, duration) →
    e.1 + duration ≤ now ∨ ∃ until', p.activeUntil index = some until' ∧ e.1 + duration ≤ until'

section Exclusive
variable {p q : Dnp3ControlProcessor} {now : ℤ} {timed : List (ℤ × ControlEvent)}

theorem Exclusive.later (h : Exclusive p now timed) {now' : ℤ} (hlater : now ≤ now') (hactive : q.activeUntil = p.activeUntil) :
    Exclusive q now' timed := by
  refine ⟨h.apart, fun e he index duration hpulse => ?_⟩
  rw [hactive]
  exact (h.busy e he index duration hpulse).imp_left fun hover => hover.trans hlater

theorem Exclusive.snoc (h : Exclusive p now timed) {event : ControlEvent}
    (hfree : ∀ index, event.output = some index → ∀ until', p.activeUntil index = some until' → until' ≤ now)
    (hactive : ∀ index, q.activeUntil index = p.activeUntil index ∨ event.output = some index)
    (hpulse : ∀ index duration, event.pulse = some (index, duration) →
      duration ≤ 0 ∨ ∃ until', q.activeUntil index = some until' ∧ now + duration ≤ until') :
    Exclusive q now (timed ++ [(now, event)]) := by
  have hover : ∀ e ∈ timed, ∀ index duration, e.2.pulse = some (index, duration) → event.output = some index → e.1 + duration ≤ now := by
    intro e he index duration hown hcalled
    rcases h.busy e he index duration hown with hover | ⟨until', huntil, hle⟩
    · exact hover
    · exact hle.trans (hfree index hcalled until' huntil)
  constructor
  · refine List.pairwise_append.mpr ⟨h.apart, List.pairwise_singleton _ _, fun e he last hlast => ?_⟩
    rw [List.mem_singleton.mp hlast]
    intro index duration hown hcalled hwithin
    have := hover e he index duration hown hcalled
    omega
  · intro e he index duration hown
    rcases List.mem_append.mp he with he | he
    · rcases hactive index with hsame | hcalled
      · rw [hsame]
        exact h.busy e he index duration hown
      · exact .inl (hover e he index duration hown hcalled)
    · rw [List.mem_singleton.mp he] at hown ⊢
      refine (hpulse index duration hown).imp_left fun hshort => ?_
      show now + duration ≤ now
      omega

theorem pulse_duration {event : ControlEvent} {index : ℕ} {duration : ℤ} (h : event.pulse = some (index, duration)) :
    ∃ group variation tagId value crob, event = .called (.binaryOutput group variation index tagId value crob) .ok ∧
      duration ≤ pulseDurationMs crob := by
  unfold ControlEvent.pulse at h
  split at h
  · rename_i group variation index' tagId value crob
    split_ifs at h with htype
    obtain ⟨rfl, rfl⟩ := Prod.mk.inj (Option.some.inj h)
    refine ⟨group, variation, tagId, value, crob, rfl, ?_⟩
    rw [pulseDurationMs, if_neg (by tauto)]
    by_cases hcount : crob.count = 0
    · rw [if_pos hcount, hcount]
      simp
    · have hpos : 1 ≤ crob.count.toNat := Nat.one_le_iff_ne_zero.mpr fun hzero => hcount (UInt8.toNat_inj.mp hzero)
      rw [if_neg hcount]
      push_cast [hpos]
      exact le_rfl
  · cases h

theorem Exclusive.executeOne (h : Exclusive p now timed) (sink : Dnp3ControlSink) (d : DecodedObject) :
    ∃ events, (p.executeOne sink now d).2.journal = p.journal ++ events ∧
      Exclusive (p.executeOne sink now d).2 now (timed ++ events.map (now, ·)) := by
  rcases p.executeOne_cases sink now d with ⟨status, hone, -⟩ | ⟨command, status, hone, -, -⟩ | ⟨command, -, hpreempt, hone⟩
  · exact ⟨[], by simp [hone], by simpa [hone] using h⟩
  · exact ⟨[], by simp [hone], by simpa [hone] using h⟩
  · rw [hone]
    refine ⟨_, p.callSink_journal sink now command, h.snoc (fun index hindex until' huntil => ?_) (fun index => ?_) fun index duration hpulse => ?_⟩
    · -- the command was let through, so no pulse runs on its output
      cases command with
      | analogOutput => cases hindex
      | binaryOutput group variation index' tagId value crob =>
        obtain rfl := Option.some.inj hindex
        simp only [Dnp3ControlProcessor.preempt, huntil] at hpreempt
        split_ifs at hpreempt with hcount hbusy
        simpa using hbusy
    · unfold Dnp3ControlProcessor.callSink
      cases sink p.journal command with
      | refused | threw => exact .inl rfl
      | ok =>
        cases command with
        | analogOutput => exact .inl rfl
        | binaryOutput group variation index' tagId value crob =>
          by_cases hindex : index = index'
          · exact .inr (congrArg some hindex.symm)
          · exact .inl (Function.update_of_ne hindex _ _)
    · obtain ⟨group, variation, tagId, value, crob, hevent, hduration⟩ := pulse_duration hpulse
      obtain ⟨rfl, hok⟩ := ControlEvent.called.inj hevent
      rw [Dnp3ControlProcessor.callSink, hok]
      by_cases hpos : 0 < pulseDurationMs crob
      · refine .inr ⟨now + pulseDurationMs crob, ?_, by omega⟩
        show Function.update p.activeUntil index _ index = _
        rw [Function.update_self, if_pos hpos]
      · exact .inl (by omega)

theorem Exclusive.executeAll (h : Exclusive p now timed) (sink : Dnp3ControlSink) (decoded : List DecodedObject) :
    ∃ events, (Dnp3ControlProcessor.executeAll sink now p decoded).2.journal = p.journal ++ events ∧
      Exclusive (Dnp3ControlProcessor.executeAll sink now p decoded).2 now (timed ++ events.map (now, ·)) := by
  induction decoded generalizing p timed with
  | nil => exact ⟨[], by simp [Dnp3ControlProcessor.executeAll], by simpa [Dnp3ControlProcessor.executeAll] using h⟩
  | cons d rest ih =>
    obtain ⟨first, hfirst, hone⟩ := h.executeOne sink d
    obtain ⟨later, hlater, hall⟩ := ih hone
    refine ⟨first ++ later, ?_, ?_⟩
    · rw [Dnp3ControlProcessor.executeAll, hlater, hfirst, List.append_assoc]
    · rw [List.map_append, ← List.append_assoc]
      exact hall

theorem Exclusive.process (h : Exclusive p now timed) (m : Dnp3PointMap) (req : ParsedRequest) :
    Exclusive (p.process m req now).2 now (timed ++ (p.eventsOf m req now).map (now, ·)) := by
  have hprocess := p.process_eq m req now
  obtain ⟨events, hjournal, hevents⟩ : ∃ events, (p.process m req now).2.journal = p.journal ++ events ∧
      Exclusive (p.process m req now).2 now (timed ++ events.map (now, ·)) := by
    rw [hprocess]
    split_ifs
    · rcases p.resolveStatuses_cases req (decodeRequest m req) now with ⟨-, sink, -, heq⟩ | ⟨-, -, heq | ⟨-, -, -, heq⟩⟩
      · rw [heq]
        exact (h.later le_rfl rfl : Exclusive p.disarm now timed).executeAll sink _
      · rw [heq]
        have hdisarmed : Exclusive p.disarm now timed := h.later le_rfl rfl
        exact ⟨[], by simp [Dnp3ControlProcessor.disarm], by simpa using hdisarmed⟩
      · rw [heq]
        refine ⟨[.armed _], rfl, ?_⟩
        exact h.snoc (fun _ hcontra => by cases hcontra) (fun _ => .inl rfl) fun _ _ hcontra => by cases hcontra
    · exact ⟨[], by simp, by simpa using h⟩
  rwa [Dnp3ControlProcessor.eventsOf_eq m hjournal]

end Exclusive

def TimedRun.Spaced (s : TimedRun) : Prop := Exclusive s.processor s.clock s.timed

theorem TimedRun.Spaced.step {s s' : TimedRun} (h : s.Spaced) {a : TimedRequest} (hstep : timedStep s a = some s') : s'.Spaced := by
  simp only [timedStep] at hstep
  split_ifs at hstep with hearlier
  obtain rfl := Option.some.inj hstep
  have hnow : Exclusive s.processor a.now s.timed := Exclusive.later h (not_lt.mp hearlier) rfl
  exact hnow.process a.pointMap a.req

theorem pulse_exclusive {config : Dnp3ControlConfig} {sink : Option Dnp3ControlSink} {start : ℤ} {s : TimedRun}
    (hs : Reachable timedStep (fun _ _ => True) ⟨{ config, sink }, start, []⟩ s) : s.timed.Pairwise Apart := by
  have hstart : TimedRun.Spaced ⟨{ config, sink }, start, []⟩ := ⟨List.Pairwise.nil, fun e he => by cases he⟩
  exact (hs.invariant hstart fun _ _ _ h _ hstep => h.step hstep).apart

/-- A pulse of ten milliseconds, a command five after it, which is refused, and one when it has ended. -/
theorem pulse_exclusive_coil :
    ∃ s, Reachable timedStep (fun _ _ => True) ⟨openProcessor, 0, []⟩ s ∧ s.timed.map Prod.fst = [0, 10] ∧ s.timed.Pairwise Apart := by
  have hrun : ∃ s, exec timedStep ⟨openProcessor, 0, []⟩ [⟨coilMap, outputRequest FunctionCode.directOperate 1 1 10, 0⟩,
      ⟨coilMap, outputRequest FunctionCode.directOperate 3 1 0, 5⟩, ⟨coilMap, outputRequest FunctionCode.directOperate 3 1 0, 10⟩] = some s ∧
      s.timed.map Prod.fst = [0, 10] := ⟨_, rfl, rfl⟩
  obtain ⟨s, hexec, htimes⟩ := hrun
  have hs : Reachable timedStep (fun _ _ => True) ⟨openProcessor, 0, []⟩ s := Reachable.start.of_exec _ (fun _ _ _ => trivial) hexec
  exact ⟨s, hs, htimes, pulse_exclusive hs⟩

end OxScada.Dnp3
