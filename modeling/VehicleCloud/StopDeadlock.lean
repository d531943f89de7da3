import VehicleCloud.StopInvariant

namespace VehicleCloud

open Transition

namespace Session

theorem side_setSide_self (s : Session) (d : Direction) (x : Side) : (s.setSide d x).side d = x := by
  rw [side_setSide, if_pos rfl]

theorem step_send {s : Session} {d : Direction} {e : SendEvent} {loop : SendLoop}
    (hc : s.Concurrent e) (h : (s.side d).loop.step e = some loop) :
    s.step (.send d e) = some (s.setSide d { s.side d with loop := loop }) := by
  rw [step, if_pos hc, h]
  rfl

/-- `close` leaves a live socket alone while the receive thread is in `recv`. -/
theorem deadlock_of_skipped_close {s : Session} {d : Direction} (hp : s.stop = .close d)
    (hn : ¬s.ClearAt (.close d)) : ∃ t, s.stopStep = some t ∧ t.Deadlocked := by
  simp only [ClearAt, not_not] at hn
  obtain ⟨hc, hr, hb⟩ := hn
  refine ⟨_, by rw [stopStep, hp], ?_⟩
  rw [Client.close_of_closed hc]
  apply Deadlocked.recv d
  · simp
  · rw [side_setSide_self]
    exact hr
  · rw [side_setSide_self]
    exact hb

/-- `notify` comes between the test of `stopped` and the `wait`, and is lost. -/
theorem deadlock_of_lost_notify {s : Session} {d : Direction} (hp : s.stop = .notify d)
    (hn : ¬s.ClearAt (.notify d)) :
    ∃ t u, s.stopStep = some t ∧ t.step (.send d .take) = some u ∧ u.Deadlocked := by
  simp only [ClearAt, not_not] at hn
  obtain ⟨ht, hq⟩ := hn
  have hwake : (s.side d).loop.wake = (s.side d).loop := by
    rw [SendLoop.wake, if_neg (by rw [ht]; nofun)]
  have hfirst : s.stopStep = some ({ s with stop := .joinSend d }.setSide d (s.side d)) := by
    rw [stopStep, hp]
    simp only [hwake]
  have htake : (({ s with stop := .joinSend d }.setSide d (s.side d)).side d).loop.step .take =
      some { (s.side d).loop with phase := .waiting } := by
    rw [side_setSide_self, SendLoop.step, if_pos ht, BlockQueue.take_nil hq]
    rfl
  refine ⟨_, _, hfirst, step_send trivial htake, ?_⟩
  apply Deadlocked.send d
  · simp
  · rw [side_setSide_self]
  · rw [side_setSide_self]
    exact hq

theorem deadlock_of_unclear {s t : Session} {e : SessionEvent} (hn : ¬s.StopClear e)
    (h : s.step e = some t) : ∃ es u, AnyRun step t es u ∧ u.Deadlocked := by
  cases e with
  | stop =>
    cases hp : s.stop with
    | close d =>
      obtain ⟨u, hu, hd⟩ := deadlock_of_skipped_close hp (by rw [← hp]; exact hn)
      cases Option.some.inj (hu.symm.trans h)
      exact ⟨[], _, Run.refl _, hd⟩
    | notify d =>
      obtain ⟨u, v, hu, hv, hd⟩ := deadlock_of_lost_notify hp (by rw [← hp]; exact hn)
      cases Option.some.inj (hu.symm.trans h)
      exact ⟨[.send d .take], v, Run.cons trivial hv (Run.refl _), hd⟩
    | _ => exact absurd trivial (by simpa only [StopClear, hp, ClearAt] using hn)
  | _ => exact absurd trivial hn

/-- `stop` never deadlocks in a run in which its statements `close` and `notify` find the other
threads clear of it; from the first one that does not, a deadlock can follow. -/
theorem stop_never_deadlocks {s t : Session} {es : List SessionEvent} (hs : s.Started)
    (hrun : Run step StopClear s es t) :
    ¬t.Deadlocked ∧
    ∀ e u, ¬t.StopClear e → t.step e = some u → ∃ fs v, AnyRun step u fs v ∧ v.Deadlocked := by
  refine ⟨?_, fun e u hn h => deadlock_of_unclear hn h⟩
  exact not_deadlocked_of_safe (hrun.invariant (started_safe hs) step_safe)

def freshSide : Side := ⟨⟨.CLOSED, true, true, false⟩, .test, ⟨⟨[]⟩, .test, [], [], []⟩⟩

def fresh : Session := ⟨false, freshSide, freshSide, .test⟩

theorem fresh_started : fresh.Started :=
  ⟨rfl, rfl, fun d => by cases d <;> rfl, fun d => by cases d <;> rfl, fun d => by cases d <;> rfl⟩

/-- The upstream send thread has read `stopped` when `stop` comes as far as `notify`. -/
def upToNotify : List SessionEvent :=
  [.tick .up TCP_ESTABLISHED, .recvTest .up, .send .up (.test false), .stop, .stop, .stop,
    .recv .up .shutdown, .stop]

def aboutToNotify : Session :=
  ⟨true,
    ⟨⟨.CLOSED, true, true, true⟩, .exited, ⟨⟨[]⟩, .tested, [], [], []⟩⟩, freshSide, .notify .up⟩

theorem stop_never_deadlocks_fresh :
    ¬aboutToNotify.Deadlocked ∧
    ∃ fs v, AnyRun step { aboutToNotify with stop := .joinSend .up } fs v ∧ v.Deadlocked := by
  have hrun : Run step StopClear fresh upToNotify aboutToNotify := run_of_exec (by decide)
  obtain ⟨hd, hn⟩ := stop_never_deadlocks fresh_started hrun
  exact ⟨hd, hn .stop _ (by decide) rfl⟩

/-- The only notification is lost, and `stop` joins a thread that waits. -/
theorem lost_notify_deadlocks :
    ¬ ∀ s es t, s.Started → AnyRun step s es t → ¬t.Deadlocked := by
  intro h
  have hrun : AnyRun step fresh (upToNotify ++ [.stop, .send .up .take])
      { aboutToNotify with
        up := { aboutToNotify.up with loop := ⟨⟨[]⟩, .waiting, [], [], []⟩ },
        stop := .joinSend .up } := run_of_exec (by decide)
  exact h _ _ _ fresh_started hrun (.send .up rfl rfl rfl)

end Session

end VehicleCloud
