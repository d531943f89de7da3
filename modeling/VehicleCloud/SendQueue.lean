import VehicleCloud.SendThread

namespace VehicleCloud

open Transition

namespace SendLoop

/-- The buffer in the hands of the thread, still the first one of the queue. -/
def inHand : SendPhase → Option MessageBuffer
  | .holding p => some p
  | .sent p => some p
  | _ => none

/-- Only this thread pulls, so the queue is what was put less what was pulled. -/
structure Queued (s : SendLoop) : Prop where
  split : s.puts = s.pulled ++ s.queue.items
  front : ∀ p, inHand s.phase = some p → s.queue.items.head? = some (some p)

/-- The buffer to pull next is the one that was sent. -/
theorem Queued.sent_head {s : SendLoop} (hs : s.Queued) {p : MessageBuffer}
    (hp : s.phase = .sent p) : ∃ rest, s.queue.items = some p :: rest :=
  List.head?_eq_some_iff.mp (hs.front p (by rw [hp]; rfl))

theorem initial_queued : initial.Queued := ⟨rfl, nofun⟩

theorem queued_wake {s : SendLoop} (hs : s.Queued) : s.wake.Queued := by
  refine ⟨by simpa using hs.split, fun p hp => ?_⟩
  rw [wake_congr inHand rfl] at hp
  rw [wake_queue]
  exact hs.front p hp

theorem queued_put {s : SendLoop} (hs : s.Queued) (p : Option MessageBuffer) :
    { s with queue := s.queue.put p, puts := s.puts ++ [p] }.wake.Queued := by
  apply queued_wake
  refine ⟨?_, fun q hq => ?_⟩
  · simp only [hs.split, BlockQueue.put_items, List.append_assoc]
  · have hfront := hs.front q hq
    simp only [BlockQueue.put_items, List.head?_append, hfront, Option.some_or]

/-- A phase with no buffer in hand asks nothing of the queue. -/
theorem queued_idle {s : SendLoop} (hs : s.Queued) {p : SendPhase} (hp : inHand p = none) :
    { s with phase := p }.Queued := by
  refine ⟨hs.split, fun q hq => ?_⟩
  rw [hp] at hq
  cases hq

theorem queued_taken {s : SendLoop} (hs : s.Queued) {t : BlockQueue.Taken (Option MessageBuffer)}
    (ht : ∀ a, t = .front a → s.queue.items.head? = some a) : (s.taken t).Queued := by
  cases t with
  | waits => exact queued_idle hs rfl
  | undefined => exact queued_idle hs rfl
  | front a =>
    cases a with
    | none => exact queued_idle hs rfl
    | some p =>
      refine ⟨hs.split, fun q hq => ?_⟩
      cases Option.some.inj hq
      exact ht _ rfl

theorem take_front {q : BlockQueue (Option MessageBuffer)} {a : Option MessageBuffer}
    (h : q.take = .front a) : q.items.head? = some a := by
  by_cases hq : q.items = []
  · rw [BlockQueue.take_nil hq] at h
    cases h
  · rw [BlockQueue.take_of_ne_nil hq] at h
    exact BlockQueue.front_eq_front.mp h

/-- As long as `take` has returned what the queue holds, only the front leaves it. -/
theorem step_queued (s : SendLoop) (e : SendEvent) (t : SendLoop) (hs : s.Queued)
    (hd : s.phase ≠ .undefined) (h : s.step e = some t) : t.Queued := by
  cases e with
  | put p =>
    cases Option.some.inj h
    exact queued_put hs p
  | notify =>
    cases Option.some.inj h
    exact queued_wake hs
  | spurious =>
    obtain ⟨_, rfl⟩ := of_guard h
    exact queued_wake hs
  | start =>
    obtain ⟨_, rfl⟩ := of_guard h
    exact queued_idle hs rfl
  | test stopped =>
    obtain ⟨_, rfl⟩ := of_guard h
    exact queued_idle hs (by cases stopped <;> rfl)
  | take =>
    obtain ⟨_, rfl⟩ := of_guard h
    exact queued_taken hs fun _ => take_front
  | resume =>
    obtain ⟨_, rfl⟩ := of_guard h
    exact queued_taken hs fun _ => BlockQueue.front_eq_front.mp
  | garbage p =>
    obtain ⟨hp, _⟩ := of_guard h
    exact absurd hp hd
  | send r =>
    obtain ⟨p, hp, _, rfl⟩ := of_step_send h
    refine ⟨hs.split, fun q hq => hs.front q ?_⟩
    rw [hp]
    exact hq
  | pull =>
    obtain ⟨p, hp, rfl⟩ := of_step_pull h
    obtain ⟨rest, hq⟩ := hs.sent_head hp
    refine ⟨?_, nofun⟩
    rw [hs.split, BlockQueue.pull_cons hq, hq]
    simp

end SendLoop

end VehicleCloud
