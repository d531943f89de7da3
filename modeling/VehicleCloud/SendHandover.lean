import VehicleCloud.QueueWakeup
import VehicleCloud.SendTally

namespace VehicleCloud

open Transition

namespace SendLoop

/-- The buffers that `Client::send` was called on. -/
def handed (s : SendLoop) : List MessageBuffer := s.calls.map Prod.fst

/-- `take` goes on after its `wait` only with an item in the queue. -/
def FindsItem (s : SendLoop) (e : SendEvent) : Prop := e = .resume → s.queue.items ≠ []

instance (s : SendLoop) (e : SendEvent) : Decidable (s.FindsItem e) :=
  inferInstanceAs (Decidable (_ → _))

def HandedOver : SendLoop → Prop := Tallies (fun c => [some c.1]) fun p => [p]

theorem handedOver_iff {s : SendLoop} :
    s.HandedOver ↔ s.handed.map some = s.pulled ++ unreturned s.phase := by
  have hcalls : s.calls.flatMap (fun c => [some c.1]) = s.handed.map some := by
    rw [handed, List.map_map, List.map_eq_flatMap]
    rfl
  rw [HandedOver, Tallies, hcalls, List.flatMap_singleton']

theorem wake_defined {s : SendLoop} (hd : s.phase ≠ .undefined) : s.wake.phase ≠ .undefined := by
  rcases s.wake_phase with ⟨_, hq⟩ | ⟨_, hq⟩
  · rw [hq]
    simp
  · rwa [hq]

theorem step_defined {s t : SendLoop} {e : SendEvent} (hd : s.phase ≠ .undefined)
    (hok : s.FindsItem e) (h : s.step e = some t) : t.phase ≠ .undefined := by
  cases e with
  | put p =>
    cases Option.some.inj h
    exact wake_defined hd
  | notify =>
    cases Option.some.inj h
    exact wake_defined hd
  | spurious =>
    obtain ⟨_, rfl⟩ := of_guard h
    exact wake_defined hd
  | start =>
    obtain ⟨_, rfl⟩ := of_guard h
    exact nofun
  | test stopped =>
    obtain ⟨_, rfl⟩ := of_guard h
    cases stopped <;> exact nofun
  | take =>
    obtain ⟨_, rfl⟩ := of_guard h
    exact (supplied_taken s s.queue.take_ne_undefined).defined
  | resume =>
    obtain ⟨_, rfl⟩ := of_guard h
    exact (supplied_taken s (mt BlockQueue.front_eq_undefined.mp (hok rfl))).defined
  | garbage p =>
    obtain ⟨hp, _⟩ := of_guard h
    exact absurd hp hd
  | send r =>
    obtain ⟨p, _, _, rfl⟩ := of_step_send h
    exact nofun
  | pull =>
    obtain ⟨p, _, rfl⟩ := of_step_pull h
    exact nofun

theorem run_handedOver {es : List SendEvent} {s : SendLoop}
    (hrun : Run step FindsItem initial es s) : s.Queued ∧ s.HandedOver := by
  obtain ⟨hq, hs, _⟩ : s.Queued ∧ s.HandedOver ∧ s.phase ≠ .undefined := by
    apply hrun.invariant (I := fun s => s.Queued ∧ s.HandedOver ∧ s.phase ≠ .undefined)
    · exact ⟨initial_queued, rfl, by decide⟩
    · rintro s e t ⟨hq, hs, hd⟩ hok h
      exact ⟨step_queued s e t hq hd h, step_tallies hq hs (fun _ _ _ _ => rfl) h,
        step_defined hd hok h⟩
  exact ⟨hq, hs⟩

/-- What was put and not handed over is, in order, what the queue holds behind the buffer that is
about to be pulled. -/
theorem puts_eq {s : SendLoop} (hq : s.Queued) (hs : s.HandedOver) :
    ∃ rest, s.puts = s.handed.map some ++ rest ∧ s.queue.items = unreturned s.phase ++ rest := by
  rw [handedOver_iff] at hs
  rw [hs, hq.split]
  cases hp : s.phase with
  | sent p =>
    obtain ⟨rest, hitems⟩ := hq.sent_head hp
    exact ⟨rest, by simp [hitems, unreturned], hitems⟩
  | _ => exact ⟨s.queue.items, by simp [unreturned], rfl⟩

theorem step_inHand {s t : SendLoop} {e : SendEvent} {p : MessageBuffer}
    (hp : inHand s.phase = some p) (hne : e ≠ .pull) (h : s.step e = some t) :
    inHand t.phase = some p := by
  cases e with
  | put q =>
    cases Option.some.inj h
    rw [wake_congr inHand rfl]
    exact hp
  | notify =>
    cases Option.some.inj h
    rw [wake_congr inHand rfl]
    exact hp
  | spurious =>
    obtain ⟨_, rfl⟩ := of_guard h
    rw [wake_congr inHand rfl]
    exact hp
  | start =>
    obtain ⟨hs, _⟩ := of_guard h
    simp [hs, inHand] at hp
  | test stopped =>
    obtain ⟨hs, _⟩ := of_guard h
    simp [hs, inHand] at hp
  | take =>
    obtain ⟨hs, _⟩ := of_guard h
    simp [hs, inHand] at hp
  | resume =>
    obtain ⟨hs, _⟩ := of_guard h
    simp [hs, inHand] at hp
  | garbage q =>
    obtain ⟨hs, _⟩ := of_guard h
    simp [hs, inHand] at hp
  | send r =>
    obtain ⟨q, hs, _, rfl⟩ := of_step_send h
    rw [hs] at hp
    exact hp
  | pull => exact absurd rfl hne

/-- The pull that follows a `take` removes what that `take` returned. -/
theorem pull_removes {s u v : SendLoop} {fs : List SendEvent} {p : MessageBuffer} (hq : s.Queued)
    (hp : s.phase = .holding p) (hrun : Run step (fun s e => s.FindsItem e ∧ e ≠ .pull) s fs u)
    (h : u.step .pull = some v) : u.queue.items = some p :: v.queue.items := by
  obtain ⟨hqu, hhand⟩ : u.Queued ∧ inHand u.phase = some p := by
    apply hrun.invariant (I := fun s => s.Queued ∧ inHand s.phase = some p) ⟨hq, by rw [hp]; rfl⟩
    rintro s e t ⟨hq, hhand⟩ hok h
    have hd : s.phase ≠ .undefined := fun hu => by simp [hu, inHand] at hhand
    exact ⟨step_queued s e t hq hd h, step_inHand hhand hok.2 h⟩
  obtain ⟨q, hsent, rfl⟩ := of_step_pull h
  rw [hsent] at hhand
  cases Option.some.inj hhand
  obtain ⟨rest, hitems⟩ := hqu.sent_head hsent
  rw [hitems, BlockQueue.pull_cons hitems]

/-- First in, first out, each once, over any number of producers and of stops and starts. -/
theorem send_thread_hands_over {es : List SendEvent} {s : SendLoop}
    (hrun : Run step FindsItem initial es s) :
    (∀ p fs u v, s.phase = .holding p → Run step (fun s e => s.FindsItem e ∧ e ≠ .pull) s fs u →
      u.step .pull = some v → u.queue.items = some p :: v.queue.items) ∧
    ∃ rest, s.puts = s.handed.map some ++ rest ∧ s.queue.items = unreturned s.phase ++ rest := by
  obtain ⟨hq, hs⟩ := run_handedOver hrun
  exact ⟨fun p fs u v hp hcont h => pull_removes hq hp hcont h, puts_eq hq hs⟩

def oneByte (b : UInt8) : MessageBuffer := ⟨1, [b]⟩

/-- A wakeup by `put`, a second producer between `take` and `pull`, and a stop before a new start. -/
def twoCycles : List SendEvent :=
  [.start, .test false, .take, .put (some (oneByte 7)), .resume, .put (some (oneByte 9)),
    .send (.sent 1), .pull, .test true, .start, .test false, .take]

def holdingSecond : SendLoop :=
  ⟨⟨[some (oneByte 9)]⟩, .holding (oneByte 9), [some (oneByte 7), some (oneByte 9)],
    [(oneByte 7, .sent 1)], [some (oneByte 7)]⟩

theorem send_thread_hands_over_two_cycles :
    (∃ u v : SendLoop, u.step .pull = some v ∧ u.queue.items = some (oneByte 9) :: v.queue.items) ∧
    ∃ rest, holdingSecond.puts = holdingSecond.handed.map some ++ rest ∧
      holdingSecond.queue.items = unreturned holdingSecond.phase ++ rest := by
  have hrun : Run step FindsItem initial twoCycles holdingSecond := run_of_exec (by decide)
  obtain ⟨hpull, hrest⟩ := send_thread_hands_over hrun
  have hcont : Run step (fun s e => s.FindsItem e ∧ e ≠ .pull) holdingSecond
      [.put none, .send (.sent 1)]
      ⟨⟨[some (oneByte 9), none]⟩, .sent (oneByte 9), [some (oneByte 7), some (oneByte 9), none],
        [(oneByte 7, .sent 1), (oneByte 9, .sent 1)], [some (oneByte 7)]⟩ := run_of_exec (by decide)
  exact ⟨⟨_, _, rfl, hpull _ _ _ _ rfl hcont rfl⟩, hrest⟩

end SendLoop

end VehicleCloud
