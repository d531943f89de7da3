import VehicleCloud.QueueWakeup
import VehicleCloud.SendHandover
import VehicleCloud.SendOrder

namespace VehicleCloud

open Transition

namespace SendLoop

theorem wake_not_waiting (s : SendLoop) : s.wake.phase ≠ .waiting := by
  rcases s.wake_phase with ⟨_, hq⟩ | ⟨hp, hq⟩
  · rw [hq]
    nofun
  · rwa [hq]

theorem taken_waiting {s : SendLoop} {x : BlockQueue.Taken (Option MessageBuffer)}
    (h : (s.taken x).phase = .waiting) : x = .waits := by
  cases x with
  | waits => rfl
  | undefined => cases h
  | front a => cases a <;> cases h

theorem taken_keeps (s : SendLoop) (x : BlockQueue.Taken (Option MessageBuffer)) :
    (s.taken x).queue = s.queue ∧ (s.taken x).calls = s.calls ∧ (s.taken x).pulled = s.pulled := by
  cases x with
  | waits => exact ⟨rfl, rfl, rfl⟩
  | undefined => exact ⟨rfl, rfl, rfl⟩
  | front a => cases a <;> exact ⟨rfl, rfl, rfl⟩

/-- No wakeup is lost: the thread waits while the queue is empty, and not longer. -/
def Waits (s : SendLoop) : Prop := s.phase = .waiting → s.queue.items = []

theorem waits_of_phase {s : SendLoop} (h : s.phase ≠ .waiting) : s.Waits := fun hp => absurd hp h

theorem step_waits {s t : SendLoop} {e : SendEvent} (h : s.step e = some t) : t.Waits := by
  cases e with
  | put p =>
    cases Option.some.inj h
    exact waits_of_phase (wake_not_waiting _)
  | notify =>
    cases Option.some.inj h
    exact waits_of_phase (wake_not_waiting s)
  | spurious =>
    obtain ⟨_, rfl⟩ := of_guard h
    exact waits_of_phase (wake_not_waiting s)
  | start =>
    obtain ⟨_, rfl⟩ := of_guard h
    exact waits_of_phase nofun
  | test stopped =>
    obtain ⟨_, rfl⟩ := of_guard h
    cases stopped <;> exact waits_of_phase nofun
  | take =>
    obtain ⟨_, rfl⟩ := of_guard h
    intro hp
    have hwaits := taken_waiting hp
    rw [(s.taken_keeps _).1]
    by_contra hq
    rw [BlockQueue.take_of_ne_nil hq] at hwaits
    exact s.queue.front_ne_waits hwaits
  | resume =>
    obtain ⟨_, rfl⟩ := of_guard h
    intro hp
    exact absurd (taken_waiting hp) s.queue.front_ne_waits
  | garbage p =>
    obtain ⟨_, rfl⟩ := of_guard h
    intro hp
    exact absurd (taken_waiting hp) nofun
  | send r =>
    obtain ⟨p, _, _, rfl⟩ := of_step_send h
    exact waits_of_phase nofun
  | pull =>
    obtain ⟨p, _, rfl⟩ := of_step_pull h
    exact waits_of_phase nofun

/-- A step of the thread while `stopped` is not set. -/
def Works (_ : SendLoop) : SendEvent → Prop
  | .test stopped => stopped = false
  | .take | .resume | .garbage _ | .send _ | .pull => True
  | .put _ | .notify | .spurious | .start => False

def lag : SendPhase → Nat
  | .test => 3
  | .tested => 2
  | .woken => 2
  | .holding _ => 1
  | .sent _ | .waiting | .exited | .undefined => 0

theorem lag_le (p : SendPhase) : lag p ≤ 3 := by
  cases p <;> simp [lag]

/-- The steps of the thread that the queue calls for, at the most. -/
def work (s : SendLoop) : Nat := 4 * s.queue.items.length + lag s.phase

/-- The thread has handed over what it has taken off the queue, and waits only for more. -/
structure Regular (s : SendLoop) : Prop extends s.Sound where
  handed : s.HandedOver
  waits : s.Waits

theorem initial_regular : initial.Regular := ⟨initial_sound, rfl, fun hp => by cases hp⟩

theorem step_regular {s t : SendLoop} {e : SendEvent} (hs : s.Regular) (hok : s.WakesOnItem e)
    (h : s.step e = some t) : t.Regular :=
  ⟨step_sound hs.toSound hok h, step_tallies hs.queued hs.handed (fun _ _ _ _ => rfl) h,
    step_waits h⟩

/-- A thread that is alive, with no null pointer in its queue. -/
structure Working (s : SendLoop) : Prop extends s.Regular where
  alive : s.phase ≠ .exited
  buffers : none ∉ s.queue.items

/-- `take` returns the first buffer. -/
theorem taken_front {s : SendLoop} (hq : s.queue.items ≠ []) (hnull : none ∉ s.queue.items) :
    ∃ p, s.taken s.queue.front = { s with phase := .holding p } := by
  cases hf : s.queue.front with
  | waits => exact absurd hf s.queue.front_ne_waits
  | undefined => exact absurd (BlockQueue.front_eq_undefined.mp hf) hq
  | front a =>
    have hmem := List.mem_of_mem_head? (BlockQueue.front_eq_front.mp hf)
    cases a with
    | none => exact absurd hmem hnull
    | some p => exact ⟨p, rfl⟩

theorem step_work {s t : SendLoop} {e : SendEvent} (hs : s.Working) (hok : s.Works e)
    (h : s.step e = some t) :
    t.work + 1 ≤ s.work ∧ t.puts = s.puts ∧ t.phase ≠ .exited ∧ none ∉ t.queue.items := by
  cases e with
  | put p => cases hok
  | notify => cases hok
  | spurious => cases hok
  | start => cases hok
  | test stopped =>
    obtain ⟨hp, rfl⟩ := of_guard h
    have hgo : stopped = false := hok
    subst hgo
    refine ⟨?_, rfl, by simp, hs.buffers⟩
    simp only [work, hp, lag, Bool.false_eq_true, ↓reduceIte]
    omega
  | take =>
    obtain ⟨hp, rfl⟩ := of_guard h
    by_cases hq : s.queue.items = []
    · rw [BlockQueue.take_nil hq]
      refine ⟨?_, rfl, by simp [taken], hs.buffers⟩
      simp only [work, taken, hp, hq, lag, List.length_nil]
      omega
    · rw [BlockQueue.take_of_ne_nil hq]
      obtain ⟨p, hfront⟩ := taken_front hq hs.buffers
      rw [hfront]
      refine ⟨?_, rfl, by simp, hs.buffers⟩
      simp only [work, hp, lag]
      omega
  | resume =>
    obtain ⟨hp, rfl⟩ := of_guard h
    obtain ⟨p, hfront⟩ := taken_front (hs.supplied.woken hp) hs.buffers
    rw [BlockQueue.resume, hfront]
    refine ⟨?_, rfl, by simp, hs.buffers⟩
    simp only [work, hp, lag]
    omega
  | garbage p =>
    obtain ⟨hp, _⟩ := of_guard h
    exact absurd hp hs.supplied.defined
  | send r =>
    obtain ⟨p, hp, _, rfl⟩ := of_step_send h
    refine ⟨?_, rfl, by simp, hs.buffers⟩
    simp only [work, hp, lag]
    omega
  | pull =>
    obtain ⟨p, hp, rfl⟩ := of_step_pull h
    obtain ⟨rest, hq⟩ := hs.queued.sent_head hp
    have hnull := hs.buffers
    rw [hq] at hnull
    refine ⟨?_, rfl, by simp, ?_⟩
    · simp only [work, hp, BlockQueue.pull_cons hq, hq, lag, List.length_cons]
      omega
    · rw [BlockQueue.pull_cons hq]
      exact fun hmem => hnull (List.mem_cons_of_mem _ hmem)

theorem works_wakesOnItem {s : SendLoop} {e : SendEvent} (hok : s.Works e) : s.WakesOnItem e := by
  rintro (rfl | rfl)
  · cases hok
  · cases hok

theorem step_working {s t : SendLoop} {e : SendEvent} (hs : s.Working) (hok : s.Works e)
    (h : s.step e = some t) : t.Working := by
  obtain ⟨_, _, halive, hnull⟩ := step_work hs hok h
  exact ⟨step_regular hs.toRegular (works_wakesOnItem hok) h, halive, hnull⟩

theorem goes_on {s : SendLoop} (hs : s.Working) (hw : s.phase ≠ .waiting) :
    ∃ e t, s.Works e ∧ s.SendsWhole e ∧ s.step e = some t := by
  cases hp : s.phase with
  | test => exact ⟨.test false, _, rfl, trivial, by rw [step, if_pos hp]⟩
  | tested => exact ⟨.take, _, trivial, trivial, by rw [step, if_pos hp]⟩
  | waiting => exact absurd hp hw
  | woken => exact ⟨.resume, _, trivial, trivial, by rw [step, if_pos hp]⟩
  | holding p =>
    have hsend : s.step (.send (.sent p.size.toNat)) =
        some { s with phase := .sent p, calls := s.calls ++ [(p, .sent p.size.toNat)] } := by
      rw [step, hp]
      exact if_pos (Nat.le_refl _)
    refine ⟨.send (.sent p.size.toNat), _, trivial, fun q hq => ?_, hsend⟩
    rw [hp] at hq
    cases Option.some.inj hq
    rfl
  | sent p => exact ⟨.pull, _, trivial, trivial, by rw [step, hp]⟩
  | exited => exact absurd hp hs.alive
  | undefined => exact absurd hp hs.supplied.defined

theorem run_regular {es : List SendEvent} {s : SendLoop}
    (hrun : Run step WakesOnItem initial es s) : s.Regular :=
  hrun.invariant initial_regular fun _ _ _ hs hok h => step_regular hs hok h

/-- A thread that waits has handed everything over that was put. -/
theorem handed_of_waiting {s : SendLoop} (hs : s.Regular) (hw : s.phase = .waiting) :
    s.handed.map some = s.puts := by
  obtain ⟨rest, hsplit, hitems⟩ := puts_eq hs.queued hs.handed
  rw [hs.waits hw] at hitems
  have hrest : rest = [] := (List.append_eq_nil_iff.mp hitems.symm).2
  rw [hsplit, hrest, List.append_nil]

/-- A wakeup by the first of two buffers, which are sent one after the other. -/
def draining : List SendEvent :=
  [.resume, .send (.sent 1), .pull, .test false, .take, .send (.error 0), .pull]

/-- The first pointer in the queue is null, and the thread has sent and pulled this and no more. -/
structure Blocked (calls : List (MessageBuffer × SendResult)) (pulled : List (Option MessageBuffer))
    (s : SendLoop) : Prop where
  queued : s.Queued
  defined : s.phase ≠ .undefined
  head : s.queue.items.head? = some none
  calls : s.calls = calls
  pulled : s.pulled = pulled

section

variable {calls : List (MessageBuffer × SendResult)} {pulled : List (Option MessageBuffer)}
  {s t : SendLoop}

theorem blocked_inHand (hs : s.Blocked calls pulled) (p : MessageBuffer) :
    inHand s.phase ≠ some p := by
  intro hp
  have hfront := hs.queued.front p hp
  rw [hs.head] at hfront
  cases hfront

/-- There is always something to look at. -/
theorem blocked_nonempty (hs : s.Blocked calls pulled) : s.queue.items ≠ [] := by
  intro hq
  have hhead := hs.head
  rw [hq] at hhead
  cases hhead

theorem step_blocked {e : SendEvent} (hs : s.Blocked calls pulled) (h : s.step e = some t) :
    t.Blocked calls pulled := by
  have hq := step_queued s e t hs.queued hs.defined h
  have hd := step_defined hs.defined (fun _ => blocked_nonempty hs) h
  have htaken (x : BlockQueue.Taken (Option MessageBuffer)) :
      (s.taken x).queue.items.head? = some none ∧ (s.taken x).calls = calls ∧
        (s.taken x).pulled = pulled := by
    obtain ⟨hqueue, hcalls, hpulled⟩ := s.taken_keeps x
    exact ⟨by rw [hqueue, hs.head], hcalls.trans hs.calls, hpulled.trans hs.pulled⟩
  obtain ⟨hhead, hcalls, hpulled⟩ : t.queue.items.head? = some none ∧ t.calls = calls ∧
      t.pulled = pulled := by
    cases e with
    | put p =>
      cases Option.some.inj h
      refine ⟨?_, by rw [wake_calls, hs.calls], by rw [wake_pulled, hs.pulled]⟩
      rw [wake_queue, BlockQueue.put_items, List.head?_append, hs.head, Option.some_or]
    | notify =>
      cases Option.some.inj h
      exact ⟨by rw [wake_queue, hs.head], by rw [wake_calls, hs.calls], by rw [wake_pulled, hs.pulled]⟩
    | spurious =>
      obtain ⟨_, rfl⟩ := of_guard h
      exact ⟨by rw [wake_queue, hs.head], by rw [wake_calls, hs.calls], by rw [wake_pulled, hs.pulled]⟩
    | start =>
      obtain ⟨_, rfl⟩ := of_guard h
      exact ⟨hs.head, hs.calls, hs.pulled⟩
    | test stopped =>
      obtain ⟨_, rfl⟩ := of_guard h
      exact ⟨hs.head, hs.calls, hs.pulled⟩
    | take =>
      obtain ⟨_, rfl⟩ := of_guard h
      exact htaken _
    | resume =>
      obtain ⟨_, rfl⟩ := of_guard h
      exact htaken _
    | garbage p =>
      obtain ⟨_, rfl⟩ := of_guard h
      exact htaken _
    | send r =>
      obtain ⟨p, hp, _, _⟩ := of_step_send h
      exact absurd (by rw [hp]; rfl) (blocked_inHand hs p)
    | pull =>
      obtain ⟨p, hp, _⟩ := of_step_pull h
      exact absurd (by rw [hp]; rfl) (blocked_inHand hs p)
  exact ⟨hq, hd, hhead, hcalls, hpulled⟩

end

/-- Nothing gets past a null pointer: the thread takes it again and again, and never pulls it. -/
theorem null_blocks {es fs : List SendEvent} {s t : SendLoop}
    (hrun : Run step WakesOnItem initial es s) (hnull : s.queue.items.head? = some none)
    (hrest : AnyRun step s fs t) :
    t.queue.items.head? = some none ∧ t.calls = s.calls ∧ t.pulled = s.pulled := by
  have hreg := run_regular hrun
  have hs : s.Blocked s.calls s.pulled := ⟨hreg.queued, hreg.supplied.defined, hnull, rfl, rfl⟩
  have ht : t.Blocked s.calls s.pulled := hrest.invariant hs fun _ _ _ hs _ h => step_blocked hs h
  exact ⟨ht.head, ht.calls, ht.pulled⟩

end SendLoop

end VehicleCloud
