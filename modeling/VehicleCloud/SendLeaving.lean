import VehicleCloud.SendThread

namespace VehicleCloud

open Transition

namespace SendLoop

/-- The thread is not on its way into `wait`. -/
structure Leaving (s : SendLoop) : Prop where
  awake : s.phase ≠ .waiting
  supplied : s.phase = .tested → s.queue.items ≠ []

theorem leaving_of_phase {s : SendLoop} (hw : s.phase ≠ .waiting) (ht : s.phase ≠ .tested) :
    s.Leaving := ⟨hw, fun h => absurd h ht⟩

theorem leaving_wake {s : SendLoop} (h : s.phase = .tested → s.queue.items ≠ []) :
    s.wake.Leaving := by
  rcases s.wake_phase with ⟨_, hq⟩ | ⟨hp, hq⟩
  · exact leaving_of_phase (by rw [hq]; simp) (by rw [hq]; simp)
  · refine ⟨by rw [hq]; exact hp, fun ht => ?_⟩
    rw [wake_queue]
    exact h (hq ▸ ht)

theorem leaving_taken (s : SendLoop) {t : BlockQueue.Taken (Option MessageBuffer)}
    (ht : t ≠ .waits) : (s.taken t).Leaving := by
  cases t with
  | waits => exact absurd rfl ht
  | undefined => exact leaving_of_phase nofun nofun
  | front a => cases a <;> exact leaving_of_phase nofun nofun

/-- With `stopped` set, a thread that is leaving keeps leaving. -/
theorem step_leaving {s t : SendLoop} {e : SendEvent} (hs : s.Leaving)
    (hstop : ∀ stopped, e = .test stopped → stopped = true) (h : s.step e = some t) :
    t.Leaving := by
  cases e with
  | put p =>
    cases Option.some.inj h
    exact leaving_wake fun _ => by simp
  | notify =>
    cases Option.some.inj h
    exact leaving_wake hs.supplied
  | spurious =>
    obtain ⟨hp, _⟩ := of_guard h
    exact absurd hp hs.awake
  | start =>
    obtain ⟨_, rfl⟩ := of_guard h
    exact leaving_of_phase nofun nofun
  | test stopped =>
    obtain ⟨_, rfl⟩ := of_guard h
    rw [hstop stopped rfl]
    exact leaving_of_phase nofun nofun
  | take =>
    obtain ⟨hp, rfl⟩ := of_guard h
    apply leaving_taken
    rw [BlockQueue.take_of_ne_nil (hs.supplied hp)]
    exact s.queue.front_ne_waits
  | resume =>
    obtain ⟨_, rfl⟩ := of_guard h
    exact leaving_taken s s.queue.front_ne_waits
  | garbage p =>
    obtain ⟨_, rfl⟩ := of_guard h
    exact leaving_taken s nofun
  | send r =>
    obtain ⟨p, _, _, rfl⟩ := of_step_send h
    exact leaving_of_phase nofun nofun
  | pull =>
    obtain ⟨p, _, rfl⟩ := of_step_pull h
    exact leaving_of_phase nofun nofun

end SendLoop

end VehicleCloud
