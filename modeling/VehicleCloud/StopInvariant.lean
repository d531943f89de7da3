import VehicleCloud.ControllerStop
import VehicleCloud.SendLeaving

namespace VehicleCloud

open Transition

namespace Session

/-- What the two critical statements of `stop` must find: `close` an open state variable or a
receive thread that is not in a blocking `recv`, `notify` a send thread that is not between the
test of `stopped` and an empty queue. -/
def ClearAt (s : Session) : StopPhase → Prop
  | .close d => ¬((s.side d).client.state = .CLOSED ∧ (s.side d).recv = .recving ∧
      (s.side d).client.recvBlocks = true)
  | .notify d => ¬((s.side d).loop.phase = .tested ∧ (s.side d).loop.queue.items = [])
  | _ => True

def StopClear (s : Session) : SessionEvent → Prop
  | .stop => s.ClearAt s.stop
  | _ => True

instance (s : Session) (p : StopPhase) : Decidable (s.ClearAt p) :=
  match p with
  | .close _ => inferInstanceAs (Decidable ¬_)
  | .notify _ => inferInstanceAs (Decidable ¬_)
  | .test | .mark | .joinRecv _ | .joinSend _ | .returned => .isTrue trivial

instance (s : Session) (e : SessionEvent) : Decidable (s.StopClear e) :=
  match e with
  | .stop => inferInstanceAs (Decidable (s.ClearAt s.stop))
  | .recvTest _ | .recv _ _ | .tick _ _ | .remoteClose _ | .send _ _ => .isTrue trivial

/-- What `stop` may rely on while it joins the threads of one side. -/
structure JoinSafe (stop : StopPhase) (d : Direction) (x : Side) : Prop where
  recv : stop = .joinRecv d → x.recv = .recving → x.client.recvBlocks = false
  send : stop = .joinSend d → x.loop.Leaving

/-- Past the write of `stopped`, in the statements that close and join. -/
def joining : StopPhase → Bool
  | .test | .mark | .returned => false
  | .close _ | .joinRecv _ | .notify _ | .joinSend _ => true

structure Safe (s : Session) : Prop where
  marked : joining s.stop = true → s.stopped = true
  joins : ∀ d, JoinSafe s.stop d (s.side d)

theorem not_deadlocked_of_safe {s : Session} (hs : s.Safe) : ¬s.Deadlocked := by
  intro h
  cases h with
  | send d hstop hphase _ => exact ((hs.joins d).send hstop).awake hphase
  | recv d hstop hphase hblocks =>
    have hfree := (hs.joins d).recv hstop hphase
    rw [hfree] at hblocks
    cases hblocks

theorem started_safe {s : Session} (hs : s.Started) : s.Safe := by
  refine ⟨fun h => ?_, fun d => ⟨fun h => ?_, fun h => ?_⟩⟩
  · rw [hs.stop] at h
    cases h
  · rw [hs.stop] at h
    cases h
  · rw [hs.stop] at h
    cases h

theorem safe_setSide {s : Session} (hs : s.Safe) {d : Direction} {x : Side}
    (hx : JoinSafe s.stop d x) : (s.setSide d x).Safe := by
  refine ⟨by simpa using hs.marked, fun e => ?_⟩
  rw [setSide_stop, side_setSide]
  split
  next he => exact he ▸ hx
  next => exact hs.joins e

/-- After `close` the receive thread is not, or no longer, held by `recv`. -/
theorem close_joinSafe {s : Session} {d : Direction} (hok : s.ClearAt (.close d))
    (e : Direction) :
    JoinSafe (.joinRecv d) e
      (if e = d then { s.side d with client := (s.side d).client.close } else s.side e) := by
  refine ⟨fun he => ?_, nofun⟩
  cases he
  rw [if_pos rfl]
  intro hr
  by_cases hc : (s.side d).client.state = .CLOSED
  · rw [Client.close_of_closed hc]
    simpa using fun hb => hok ⟨hc, hr, hb⟩
  · exact Client.close_recvBlocks hc

/-- After `notify` the send thread is leaving. -/
theorem notify_joinSafe {s : Session} {d : Direction} (hok : s.ClearAt (.notify d))
    (e : Direction) :
    JoinSafe (.joinSend d) e
      (if e = d then { s.side d with loop := (s.side d).loop.wake } else s.side e) := by
  refine ⟨nofun, fun he => ?_⟩
  cases he
  rw [if_pos rfl]
  exact SendLoop.leaving_wake fun ht hq => hok ⟨ht, hq⟩

theorem stopStep_safe {s t : Session} (hs : s.Safe) (hok : s.ClearAt s.stop)
    (h : s.stopStep = some t) : t.Safe := by
  cases advance_of_stopStep h with
  | test hp =>
    split
    next => exact ⟨nofun, fun _ => ⟨nofun, nofun⟩⟩
    next => exact ⟨nofun, fun _ => ⟨nofun, nofun⟩⟩
  | mark hp =>
    exact ⟨fun _ => rfl, fun _ => ⟨nofun, nofun⟩⟩
  | close d hp =>
    have hm : s.stopped = true := hs.marked (by rw [hp]; rfl)
    refine ⟨fun _ => by simpa using hm, fun e => ?_⟩
    rw [setSide_stop, side_setSide]
    exact close_joinSafe (hp ▸ hok) e
  | joinRecv d hp _ =>
    exact ⟨fun _ => hs.marked (by rw [hp]; rfl), fun _ => ⟨nofun, nofun⟩⟩
  | notify d hp =>
    have hm : s.stopped = true := hs.marked (by rw [hp]; rfl)
    refine ⟨fun _ => by simpa using hm, fun e => ?_⟩
    rw [setSide_stop, side_setSide]
    exact notify_joinSafe (hp ▸ hok) e
  | joinSend d hp _ =>
    have hm : s.stopped = true := hs.marked (by rw [hp]; rfl)
    exact ⟨fun _ => hm, fun _ => by cases d <;> exact ⟨nofun, nofun⟩⟩

/-- A step of a thread, a tick or a peer keeps both sides joinable. -/
theorem step_safe (s : Session) (e : SessionEvent) (t : Session) (hs : s.Safe)
    (hok : s.StopClear e) (h : s.step e = some t) : t.Safe := by
  cases e with
  | stop => exact stopStep_safe hs hok h
  | recvTest d =>
    obtain ⟨hp, rfl⟩ := of_guard h
    refine safe_setSide hs ⟨fun hj => ?_, (hs.joins d).send⟩
    rw [hs.marked (by rw [hj]; rfl)]
    exact nofun
  | recv d r =>
    obtain ⟨hp, rfl⟩ := of_guard h
    exact safe_setSide hs ⟨fun hj _ => (hs.joins d).recv hj hp, (hs.joins d).send⟩
  | tick d tcpi_state =>
    cases Option.some.inj h
    refine safe_setSide hs ⟨fun hj => ?_, (hs.joins d).send⟩
    rw [Client.listen_recvBlocks]
    exact (hs.joins d).recv hj
  | remoteClose d =>
    cases Option.some.inj h
    exact safe_setSide hs ⟨fun _ _ => rfl, (hs.joins d).send⟩
  | send d e =>
    obtain ⟨hc, h⟩ := Option.ite_none_right_eq_some.mp h
    obtain ⟨loop, hl, h⟩ := Option.map_eq_some_iff.mp h
    subst h
    refine safe_setSide hs ⟨(hs.joins d).recv, fun hj => ?_⟩
    refine SendLoop.step_leaving ((hs.joins d).send hj) (fun stopped he => ?_) hl
    subst he
    exact hc.trans (hs.marked (by rw [hj]; rfl))

end Session

end VehicleCloud
