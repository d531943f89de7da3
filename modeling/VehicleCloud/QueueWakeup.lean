import VehicleCloud.SendThread

namespace VehicleCloud

open Transition

namespace SendLoop

/-- A wakeup that does not come from `put` finds the consumer elsewhere, or an item for it. -/
def WakesOnItem (s : SendLoop) (e : SendEvent) : Prop :=
  e = .notify ∨ e = .spurious → s.phase = .waiting → s.queue.items ≠ []

instance (s : SendLoop) (e : SendEvent) : Decidable (s.WakesOnItem e) :=
  inferInstanceAs (Decidable (_ → _ → _))

/-- A consumer that was woken has something to return. -/
structure Supplied (s : SendLoop) : Prop where
  woken : s.phase = .woken → s.queue.items ≠ []
  defined : s.phase ≠ .undefined

theorem initial_supplied : initial.Supplied := ⟨fun h => absurd h (by decide), by decide⟩

theorem supplied_wake {s : SendLoop} (hs : s.Supplied)
    (hw : s.phase = .waiting → s.queue.items ≠ []) : s.wake.Supplied := by
  rcases s.wake_phase with ⟨hp, hq⟩ | ⟨_, hq⟩
  · exact ⟨fun _ => by rw [wake_queue]; exact hw hp, by rw [hq]; simp⟩
  · exact ⟨fun h => by rw [wake_queue]; exact hs.woken (hq ▸ h), by rw [hq]; exact hs.defined⟩

theorem supplied_put {s : SendLoop} (hs : s.Supplied) (p : Option MessageBuffer) :
    { s with queue := s.queue.put p, puts := s.puts ++ [p] }.wake.Supplied := by
  apply supplied_wake
  · exact ⟨fun _ => by simp, hs.defined⟩
  · intro _
    simp

/-- Whatever `take` comes to short of an evaluation of `front()` on nothing. -/
theorem supplied_taken (s : SendLoop) {t : BlockQueue.Taken (Option MessageBuffer)}
    (ht : t ≠ .undefined) : (s.taken t).Supplied := by
  cases t with
  | waits => exact ⟨fun h => absurd h (by simp [taken]), by simp [taken]⟩
  | front p => cases p <;> exact ⟨fun h => absurd h (by simp [taken]), by simp [taken]⟩
  | undefined => exact absurd rfl ht

theorem step_supplied (s : SendLoop) (e : SendEvent) (t : SendLoop) (hs : s.Supplied)
    (hok : s.WakesOnItem e) (h : s.step e = some t) : t.Supplied := by
  cases e with
  | put p =>
    cases Option.some.inj h
    exact supplied_put hs p
  | notify =>
    cases Option.some.inj h
    exact supplied_wake hs (hok (Or.inl rfl))
  | spurious =>
    obtain ⟨_, rfl⟩ := of_guard h
    exact supplied_wake hs (hok (Or.inr rfl))
  | start =>
    obtain ⟨_, rfl⟩ := of_guard h
    exact ⟨nofun, nofun⟩
  | test stopped =>
    obtain ⟨_, rfl⟩ := of_guard h
    cases stopped <;> exact ⟨nofun, nofun⟩
  | take =>
    obtain ⟨_, rfl⟩ := of_guard h
    exact supplied_taken s s.queue.take_ne_undefined
  | resume =>
    obtain ⟨hp, rfl⟩ := of_guard h
    exact supplied_taken s (mt BlockQueue.front_eq_undefined.mp (hs.woken hp))
  | garbage p =>
    obtain ⟨hp, _⟩ := of_guard h
    exact absurd hp hs.defined
  | send r =>
    obtain ⟨p, _, _, rfl⟩ := of_step_send h
    exact ⟨nofun, nofun⟩
  | pull =>
    obtain ⟨p, _, rfl⟩ := of_step_pull h
    exact ⟨nofun, nofun⟩

/-- A wakeup that finds the consumer waiting on nothing lets `take` look at that nothing. -/
theorem resume_of_empty_wakeup {s t : SendLoop} {e : SendEvent} (hn : ¬s.WakesOnItem e)
    (h : s.step e = some t) :
    s.queue.items = [] ∧ t.step .resume = some { s with phase := .undefined } := by
  simp only [WakesOnItem, not_forall, not_not] at hn
  obtain ⟨he, hp, hq⟩ := hn
  have hwake : s.wake = { s with phase := .woken } := if_pos hp
  have ht : t = s.wake := by
    rcases he with rfl | rfl
    · exact (Option.some.inj h).symm
    · obtain ⟨_, h⟩ := of_guard h
      exact h.symm
  have hfront : s.queue.resume = .undefined := BlockQueue.front_eq_undefined.mpr hq
  refine ⟨hq, ?_⟩
  rw [ht, hwake, step, if_pos rfl, hfront]
  rfl

/-- In every run in which no notification or spurious wakeup finds the consumer waiting on an
empty queue, `take` evaluates `front()` on items only; and the first such wakeup leads to a state
that can go wrong at once. -/
theorem take_front_nonempty {es : List SendEvent} {s : SendLoop}
    (hrun : Run step WakesOnItem initial es s) :
    s.phase ≠ .undefined ∧
    ∀ e t, ¬s.WakesOnItem e → s.step e = some t →
      ∃ u, t.step .resume = some u ∧ u.phase = .undefined := by
  have hs : s.Supplied := hrun.invariant initial_supplied step_supplied
  refine ⟨hs.defined, fun e t hn h => ?_⟩
  exact ⟨_, (resume_of_empty_wakeup hn h).2, rfl⟩

theorem take_front_nonempty_waiting :
    ({ initial with phase := .waiting } : SendLoop).phase ≠ .undefined ∧
    ∃ u, ({ initial with phase := .woken } : SendLoop).step .resume = some u ∧
      u.phase = .undefined := by
  have hrun : Run step WakesOnItem initial [.start, .test false, .take]
      { initial with phase := .waiting } := run_of_exec (by decide)
  obtain ⟨hp, hn⟩ := take_front_nonempty hrun
  exact ⟨hp, hn .notify _ (by decide) rfl⟩

theorem notified_take_fronts_nothing :
    ¬ ∀ es s, AnyRun step initial es s → s.phase ≠ .undefined := by
  intro h
  have hrun : AnyRun step initial [.start, .test false, .take, .notify, .resume]
      ⟨⟨[]⟩, .undefined, [], [], []⟩ := run_of_exec (by decide)
  exact h _ _ hrun rfl

end SendLoop

end VehicleCloud
