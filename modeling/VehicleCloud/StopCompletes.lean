import VehicleCloud.QueueWakeup
import VehicleCloud.StopDeadlock

namespace VehicleCloud

open Transition

namespace SendPhase

/-- Once `stopped` is set, the thread has fewer steps left than this. -/
def rank : SendPhase → Nat
  | .exited => 0
  | .test => 1
  | .sent _ => 2
  | .holding _ => 3
  | .undefined => 4
  | .woken => 5
  | .waiting => 6
  | .tested => 7

theorem rank_le (p : SendPhase) : p.rank ≤ 7 := by
  cases p <;> simp [rank]

end SendPhase

namespace SendEvent

/-- A step of the send thread itself. -/
def own : SendEvent → Bool
  | .put _ | .notify | .spurious | .start => false
  | .test _ | .take | .resume | .garbage _ | .send _ | .pull => true

end SendEvent

namespace SendLoop

theorem wake_rank (s : SendLoop) : s.wake.phase.rank ≤ s.phase.rank := by
  rcases s.wake_phase with ⟨hp, hq⟩ | ⟨_, hq⟩
  · rw [hp, hq]
    decide
  · exact Nat.le_of_eq (by rw [hq])

theorem taken_front_rank (s : SendLoop) (p : Option MessageBuffer) :
    (s.taken (.front p)).phase.rank ≤ 3 := by
  cases p <;> simp [taken, SendPhase.rank]

theorem taken_rank (s : SendLoop) (t : BlockQueue.Taken (Option MessageBuffer)) :
    (s.taken t).phase.rank ≤ 6 ∧ (t ≠ .waits → (s.taken t).phase.rank ≤ 4) := by
  cases t with
  | waits => exact ⟨Nat.le_refl 6, fun h => absurd rfl h⟩
  | undefined => exact ⟨by simp [taken, SendPhase.rank], fun _ => Nat.le_refl 4⟩
  | front a =>
    have hfront := s.taken_front_rank a
    exact ⟨by omega, fun _ => by omega⟩

/-- With `stopped` set, every step of the thread brings it closer to its end, and no other thread
sets it back. -/
theorem step_rank {s t : SendLoop} {e : SendEvent} (hstart : e ≠ .start)
    (hstop : ∀ stopped, e = .test stopped → stopped = true) (h : s.step e = some t) :
    t.phase.rank + (if e.own then 1 else 0) ≤ s.phase.rank := by
  cases e with
  | put p =>
    cases Option.some.inj h
    exact wake_rank _
  | notify =>
    cases Option.some.inj h
    exact wake_rank s
  | spurious =>
    obtain ⟨_, rfl⟩ := of_guard h
    exact wake_rank s
  | start => exact absurd rfl hstart
  | test stopped =>
    obtain ⟨hp, rfl⟩ := of_guard h
    rw [hp, hstop stopped rfl]
    exact Nat.le_refl 1
  | take =>
    obtain ⟨hp, rfl⟩ := of_guard h
    have hrank := (taken_rank s s.queue.take).1
    rw [hp]
    exact Nat.succ_le_succ hrank
  | resume =>
    obtain ⟨hp, rfl⟩ := of_guard h
    have hrank := (taken_rank s s.queue.resume).2 s.queue.front_ne_waits
    rw [hp]
    exact Nat.succ_le_succ hrank
  | garbage p =>
    obtain ⟨hp, rfl⟩ := of_guard h
    have hrank := s.taken_front_rank p
    rw [hp]
    exact Nat.succ_le_succ hrank
  | send r =>
    obtain ⟨p, hp, _, rfl⟩ := of_step_send h
    rw [hp]
    exact Nat.le_refl 3
  | pull =>
    obtain ⟨p, hp, rfl⟩ := of_step_pull h
    rw [hp]
    exact Nat.le_refl 2

theorem wake_exited {s : SendLoop} (hp : s.phase = .exited) : s.wake.phase = .exited := by
  rw [wake, if_neg (by simp [hp]), hp]

/-- Only `start` brings a thread back. -/
theorem step_exited {s t : SendLoop} {e : SendEvent} (hp : s.phase = .exited) (hstart : e ≠ .start)
    (h : s.step e = some t) : t.phase = .exited := by
  cases e with
  | put p =>
    cases Option.some.inj h
    exact wake_exited hp
  | notify =>
    cases Option.some.inj h
    exact wake_exited hp
  | start => exact absurd rfl hstart
  | spurious => simp [step, hp] at h
  | test stopped => simp [step, hp] at h
  | take => simp [step, hp] at h
  | resume => simp [step, hp] at h
  | garbage p => simp [step, hp] at h
  | send r => simp [step, hp] at h
  | pull => simp [step, hp] at h

end SendLoop

namespace RecvPhase

def rank : RecvPhase → Nat
  | .exited => 0
  | .test => 1
  | .recving => 2

theorem rank_le (p : RecvPhase) : p.rank ≤ 2 := by
  cases p <;> decide

theorem next_rank (r : RecvResult) : (next r).rank ≤ 1 := by
  unfold next
  cases r with
  | data bytes => exact Nat.le_refl 1
  | shutdown => exact Nat.zero_le 1
  | error errno =>
    simp only
    split
    next => exact Nat.le_refl 1
    next => exact Nat.zero_le 1

end RecvPhase

namespace StopPhase

/-- The statements that `stop` has left. -/
def rank : StopPhase → Nat
  | .test => 10
  | .mark => 9
  | .close .up => 8
  | .joinRecv .up => 7
  | .notify .up => 6
  | .joinSend .up => 5
  | .close .down => 4
  | .joinRecv .down => 3
  | .notify .down => 2
  | .joinSend .down => 1
  | .returned => 0

theorem rank_injective {p q : StopPhase} (h : p.rank = q.rank) : p = q := by
  have code (r : StopPhase) : r = [returned, joinSend .down, notify .down, joinRecv .down,
      close .down, joinSend .up, notify .up, joinRecv .up, close .up, mark, test].getD r.rank test := by
    rcases r with _ | _ | ⟨_ | _⟩ | ⟨_ | _⟩ | ⟨_ | _⟩ | ⟨_ | _⟩ | _ <;> rfl
  rw [code p, code q, h]

theorem joinRecv_rank (d : Direction) : (joinRecv d).rank = (notify d).rank + 1 := by
  cases d <;> rfl

end StopPhase

def Side.work (x : Side) : Nat := x.recv.rank + x.loop.phase.rank

namespace SessionEvent

/-- A step of `stop` or of one of the four threads. -/
def own : SessionEvent → Bool
  | .stop | .recvTest _ | .recv _ _ => true
  | .tick _ _ | .remoteClose _ => false
  | .send _ e => e.own

end SessionEvent

namespace Session

def work (s : Session) : Nat := s.stop.rank + (s.up.work + s.down.work)

theorem work_setSide (s : Session) (d : Direction) (x : Side) :
    (s.setSide d x).work + (s.side d).work = s.work + x.work := by
  cases d <;> simp only [work, setSide, side] <;> omega

theorem stopStep_work {s t : Session} (hs : s.stopped = true) (h : s.stopStep = some t) :
    t.stopped = true ∧ t.work + 1 ≤ s.work := by
  have hwork : s.work = s.stop.rank + (s.up.work + s.down.work) := rfl
  cases advance_of_stopStep h with
  | test hp =>
    refine ⟨hs, ?_⟩
    rw [if_pos hs, hwork, hp]
    simp only [work, StopPhase.rank]
    omega
  | mark hp =>
    refine ⟨rfl, ?_⟩
    rw [hwork, hp]
    simp only [work, StopPhase.rank]
    omega
  | close d hp =>
    refine ⟨by simpa using hs, ?_⟩
    rw [hwork, hp]
    cases d <;> simp only [work, setSide, side, Side.work, StopPhase.rank] <;> omega
  | joinRecv d hp _ =>
    refine ⟨hs, ?_⟩
    rw [hwork, hp]
    cases d <;> simp only [work, StopPhase.rank] <;> omega
  | notify d hp =>
    refine ⟨by simpa using hs, ?_⟩
    have hwake := SendLoop.wake_rank (s.side d).loop
    rw [hwork, hp]
    cases d <;> simp only [work, setSide, side, Side.work, StopPhase.rank] at hwake ⊢ <;> omega
  | joinSend d hp _ =>
    refine ⟨hs, ?_⟩
    rw [hwork, hp]
    cases d <;> simp only [work, afterJoin, StopPhase.rank] <;> omega

theorem setSide_work {s : Session} {d : Direction} {x : Side} {n : Nat} (hs : s.stopped = true)
    (hx : x.work + n ≤ (s.side d).work) :
    (s.setSide d x).stopped = true ∧ (s.setSide d x).work + n ≤ s.work := by
  have hset := s.work_setSide d x
  exact ⟨by simpa using hs, by omega⟩

theorem step_work {s t : Session} {e : SessionEvent} (hs : s.stopped = true)
    (h : s.step e = some t) : t.stopped = true ∧ t.work + (if e.own then 1 else 0) ≤ s.work := by
  cases e with
  | stop => exact stopStep_work hs h
  | recvTest d =>
    obtain ⟨hp, rfl⟩ := of_guard h
    apply setSide_work hs
    simp only [Side.work, hp, hs, ↓reduceIte, RecvPhase.rank, SessionEvent.own]
    omega
  | recv d r =>
    obtain ⟨hp, rfl⟩ := of_guard h
    have hnext := RecvPhase.next_rank r
    have htwo : RecvPhase.recving.rank = 2 := rfl
    apply setSide_work hs
    simp only [Side.work, hp, htwo, SessionEvent.own, ↓reduceIte]
    omega
  | tick d tcpi_state =>
    cases Option.some.inj h
    exact setSide_work hs (Nat.le_refl _)
  | remoteClose d =>
    cases Option.some.inj h
    exact setSide_work hs (Nat.le_refl _)
  | send d e =>
    obtain ⟨hc, h⟩ := Option.ite_none_right_eq_some.mp h
    obtain ⟨loop, hl, rfl⟩ := Option.map_eq_some_iff.mp h
    have hrank := SendLoop.step_rank (by rintro rfl; exact hc)
      (by rintro stopped rfl; exact hc.trans hs) hl
    have hown : (SessionEvent.send d e).own = e.own := rfl
    apply setSide_work hs
    rw [hown]
    simp only [Side.work]
    omega

/-- Once `stop` is past a join, the thread has gone. -/
structure Joined (s : Session) : Prop where
  marked : s.stopped = true → s.stop.rank ≤ 8
  recv : ∀ d, s.stop.rank ≤ (StopPhase.notify d).rank → (s.side d).recv = .exited
  send : ∀ d, s.stop.rank < (StopPhase.joinSend d).rank → (s.side d).loop.phase = .exited

theorem Joined.running {s : Session} (hs : s.Joined) (hp : s.stop = .test) : ¬s.stopped = true := by
  have hm := hs.marked
  rw [hp] at hm
  exact mt hm (by decide)

theorem started_joined {s : Session} (hs : s.Started) : s.Joined := by
  constructor
  · intro h
    rw [hs.stopped] at h
    cases h
  · intro d h
    rw [hs.stop] at h
    cases d <;> exact absurd h (by decide)
  · intro d h
    rw [hs.stop] at h
    cases d <;> exact absurd h (by decide)

/-- The thread has gone already, or `stop` has just joined it. -/
theorem joined_of {s t : Session} (hs : s.Joined) (hmarked : t.stopped = true → t.stop.rank ≤ 8)
    (hrecv : ∀ d, (s.side d).recv = .exited → (t.side d).recv = .exited)
    (hsend : ∀ d, (s.side d).loop.phase = .exited → (t.side d).loop.phase = .exited)
    (hnotify : ∀ d, t.stop.rank ≤ (StopPhase.notify d).rank →
      s.stop.rank ≤ (StopPhase.notify d).rank ∨ (s.side d).recv = .exited)
    (hjoin : ∀ d, t.stop.rank < (StopPhase.joinSend d).rank →
      s.stop.rank < (StopPhase.joinSend d).rank ∨ (s.side d).loop.phase = .exited) : t.Joined := by
  refine ⟨hmarked, fun d h => hrecv d ?_, fun d h => hsend d ?_⟩
  · rcases hnotify d h with hr | hr
    · exact hs.recv d hr
    · exact hr
  · rcases hjoin d h with hr | hr
    · exact hs.send d hr
    · exact hr

theorem setSide_joined {s : Session} {d : Direction} {x : Side} (hs : s.Joined)
    (hrecv : (s.side d).recv = .exited → x.recv = .exited)
    (hsend : (s.side d).loop.phase = .exited → x.loop.phase = .exited) : (s.setSide d x).Joined := by
  refine joined_of hs ?_ (fun e h => ?_) (fun e h => ?_) (fun e h => ?_) (fun e h => ?_)
  · rw [setSide_stopped, setSide_stop]
    exact hs.marked
  · rw [side_setSide]
    split
    next he => exact hrecv (he ▸ h)
    next => exact h
  · rw [side_setSide]
    split
    next he => exact hsend (he ▸ h)
    next => exact h
  · rw [setSide_stop] at h
    exact Or.inl h
  · rw [setSide_stop] at h
    exact Or.inl h

/-- `stop` goes on to its next statement, and may have done something to one of the sides. -/
theorem advance_joined {s : Session} {p : StopPhase} {d : Direction} {x : Side} (hs : s.Joined)
    (hrank : p.rank + 1 = s.stop.rank) (hrecv : x.recv = (s.side d).recv)
    (hsend : (s.side d).loop.phase = .exited → x.loop.phase = .exited)
    (hjoinRecv : ∀ e, s.stop = .joinRecv e → (s.side e).recv = .exited)
    (hjoinSend : ∀ e, s.stop = .joinSend e → (s.side e).loop.phase = .exited) :
    ({ s with stop := p }.setSide d x).Joined := by
  have hside (e : Direction) : ({ s with stop := p }.setSide d x).side e =
      if e = d then x else s.side e := side_setSide _ d e x
  have hp : ({ s with stop := p }.setSide d x).stop = p := setSide_stop _ d x
  have hstopped : ({ s with stop := p }.setSide d x).stopped = s.stopped := setSide_stopped _ d x
  refine joined_of hs ?_ (fun e h => ?_) (fun e h => ?_) (fun e h => ?_) (fun e h => ?_)
  · intro hm
    have hle := hs.marked (hstopped ▸ hm)
    rw [hp]
    omega
  · rw [hside]
    split
    next he => rw [hrecv, ← he, h]
    next => exact h
  · rw [hside]
    split
    next he => exact hsend (he ▸ h)
    next => exact h
  · rw [hp] at h
    by_cases he : s.stop = .joinRecv e
    · exact Or.inr (hjoinRecv e he)
    · left
      have hne := mt StopPhase.rank_injective he
      rw [StopPhase.joinRecv_rank] at hne
      omega
  · rw [hp] at h
    by_cases he : s.stop = .joinSend e
    · exact Or.inr (hjoinSend e he)
    · left
      have hne := mt StopPhase.rank_injective he
      omega

theorem setSide_side (s : Session) (d : Direction) : s.setSide d (s.side d) = s := by
  cases d <;> rfl

theorem stopStep_joined {s t : Session} (hs : s.Joined) (h : s.stopStep = some t) : t.Joined := by
  have hsame {p : StopPhase} (hrank : p.rank + 1 = s.stop.rank)
      (hjoinRecv : ∀ e, s.stop = .joinRecv e → (s.side e).recv = .exited)
      (hjoinSend : ∀ e, s.stop = .joinSend e → (s.side e).loop.phase = .exited) :
      { s with stop := p }.Joined := by
    rw [← setSide_side { s with stop := p } .up]
    exact advance_joined hs hrank rfl id hjoinRecv hjoinSend
  cases advance_of_stopStep h with
  | test hp =>
    rw [if_neg (hs.running hp)]
    exact hsame (by rw [hp]; rfl) (by simp [hp]) (by simp [hp])
  | mark hp =>
    have hmark := hsame (p := .close .up) (by rw [hp]; rfl) (by simp [hp]) (by simp [hp])
    exact ⟨fun _ => Nat.le_refl 8, hmark.recv, hmark.send⟩
  | close d hp =>
    exact advance_joined hs (by rw [hp]; cases d <;> rfl) rfl id (by simp [hp]) (by simp [hp])
  | joinRecv d hp hgone =>
    refine hsame (by rw [hp]; cases d <;> rfl) (fun e he => ?_) (by simp [hp])
    cases StopPhase.joinRecv.inj (hp.symm.trans he)
    exact hgone
  | notify d hp =>
    refine advance_joined hs (by rw [hp]; cases d <;> rfl) rfl (fun he => ?_) (by simp [hp])
      (by simp [hp])
    exact SendLoop.wake_exited he
  | joinSend d hp hgone =>
    refine hsame (by rw [hp]; cases d <;> rfl) (by simp [hp]) (fun e he => ?_)
    cases StopPhase.joinSend.inj (hp.symm.trans he)
    exact hgone

theorem step_joined {s t : Session} {e : SessionEvent} (hs : s.Joined) (h : s.step e = some t) :
    t.Joined := by
  cases e with
  | stop => exact stopStep_joined hs h
  | recvTest d =>
    obtain ⟨hp, rfl⟩ := of_guard h
    exact setSide_joined hs (fun he => by rw [hp] at he; cases he) id
  | recv d r =>
    obtain ⟨hp, rfl⟩ := of_guard h
    exact setSide_joined hs (fun he => by rw [hp] at he; cases he) id
  | tick d tcpi_state =>
    cases Option.some.inj h
    exact setSide_joined hs id id
  | remoteClose d =>
    cases Option.some.inj h
    exact setSide_joined hs id id
  | send d e =>
    obtain ⟨hc, h⟩ := Option.ite_none_right_eq_some.mp h
    obtain ⟨loop, hl, rfl⟩ := Option.map_eq_some_iff.mp h
    exact setSide_joined hs id fun he => SendLoop.step_exited he (by rintro rfl; exact hc) hl

theorem joined_returned {s : Session} (hs : s.Joined) (hstop : s.stop = .returned) (d : Direction) :
    (s.side d).recv = .exited ∧ (s.side d).loop.phase = .exited := by
  constructor
  · apply hs.recv d
    rw [hstop]
    exact Nat.zero_le _
  · apply hs.send d
    rw [hstop]
    cases d <;> decide

theorem run_joined {ok : Session → SessionEvent → Prop} {s t : Session} {es : List SessionEvent}
    (hs : s.Started) (hrun : Run step ok s es t) : t.Joined :=
  hrun.invariant (started_joined hs) fun _ _ _ hi _ h => step_joined hi h

/-- A `close` that does nothing must find a socket on which no call blocks. -/
def ShutsAt (s : Session) : StopPhase → Prop
  | .close d => (s.side d).client.state = .CLOSED → (s.side d).client.recvBlocks = false
  | _ => True

def CloseShuts (s : Session) : SessionEvent → Prop
  | .stop => s.ShutsAt s.stop
  | _ => True

instance (s : Session) (p : StopPhase) : Decidable (s.ShutsAt p) :=
  match p with
  | .close _ => inferInstanceAs (Decidable (_ → _))
  | .test | .mark | .joinRecv _ | .notify _ | .joinSend _ | .returned => .isTrue trivial

instance (s : Session) (e : SessionEvent) : Decidable (s.CloseShuts e) :=
  match e with
  | .stop => inferInstanceAs (Decidable (s.ShutsAt s.stop))
  | .recvTest _ | .recv _ _ | .tick _ _ | .remoteClose _ | .send _ _ => .isTrue trivial

/-- Past the `close` of a side, no call on its socket blocks. -/
def Cut (s : Session) : Prop :=
  ∀ d, s.stop.rank < (StopPhase.close d).rank → (s.side d).client.recvBlocks = false

theorem started_cut {s : Session} (hs : s.Started) : s.Cut := by
  intro d h
  rw [hs.stop] at h
  cases d <;> exact absurd h (by decide)

theorem setSide_cut {s : Session} {d : Direction} {x : Side} (hs : s.Cut)
    (hx : (s.side d).client.recvBlocks = false → x.client.recvBlocks = false) :
    (s.setSide d x).Cut := by
  intro e h
  rw [setSide_stop] at h
  rw [side_setSide]
  split
  next he => exact hx (hs d (he ▸ h))
  next => exact hs e h

/-- A statement of `stop` that is no `close`. -/
theorem advance_cut {s : Session} {p : StopPhase} (hs : s.Cut) (hrank : p.rank + 1 = s.stop.rank)
    (hclose : ∀ d, s.stop ≠ .close d) : { s with stop := p }.Cut := by
  intro d h
  have hne := mt StopPhase.rank_injective (hclose d)
  exact hs d (by simp only at h; omega)

theorem close_cut {s : Session} {d : Direction} (hs : s.Cut) (hp : s.stop = .close d)
    (hok : s.ShutsAt (.close d)) :
    ({ s with stop := .joinRecv d }.setSide d
      { s.side d with client := (s.side d).client.close }).Cut := by
  intro e h
  have hside : ({ s with stop := .joinRecv d }.setSide d
      { s.side d with client := (s.side d).client.close }).side e =
      if e = d then { s.side d with client := (s.side d).client.close } else s.side e :=
    side_setSide _ d e _
  rw [setSide_stop] at h
  rw [hside]
  split
  next he =>
    by_cases hc : (s.side d).client.state = .CLOSED
    · rw [Client.close_of_closed hc]
      exact hok hc
    · exact Client.close_recvBlocks hc
  next he =>
    apply hs e
    have hrank : (StopPhase.joinRecv d).rank < (StopPhase.close e).rank := h
    rw [hp]
    revert hrank he
    cases d <;> cases e <;> decide

theorem stopStep_cut {s t : Session} (hj : s.Joined) (hs : s.Cut) (hok : s.ShutsAt s.stop)
    (h : s.stopStep = some t) : t.Cut := by
  cases advance_of_stopStep h with
  | test hp =>
    rw [if_neg (hj.running hp)]
    exact advance_cut hs (by rw [hp]; rfl) (by simp [hp])
  | mark hp =>
    exact advance_cut (p := .close .up) hs (by rw [hp]; rfl) (by simp [hp])
  | close d hp =>
    exact close_cut hs hp (hp ▸ hok)
  | joinRecv d hp _ =>
    exact advance_cut hs (by rw [hp]; cases d <;> rfl) (by simp [hp])
  | notify d hp =>
    have hadvance : { s with stop := .joinSend d }.Cut :=
      advance_cut hs (by rw [hp]; cases d <;> rfl) (by simp [hp])
    exact setSide_cut hadvance (by cases d <;> exact id)
  | joinSend d hp _ =>
    exact advance_cut hs (by rw [hp]; cases d <;> rfl) (by simp [hp])

theorem step_cut {s t : Session} {e : SessionEvent} (hj : s.Joined) (hs : s.Cut)
    (hok : s.CloseShuts e) (h : s.step e = some t) : t.Cut := by
  cases e with
  | stop => exact stopStep_cut hj hs hok h
  | recvTest d =>
    obtain ⟨_, rfl⟩ := of_guard h
    exact setSide_cut hs id
  | recv d r =>
    obtain ⟨_, rfl⟩ := of_guard h
    exact setSide_cut hs id
  | tick d tcpi_state =>
    cases Option.some.inj h
    refine setSide_cut hs fun hb => ?_
    rw [Client.listen_recvBlocks, hb]
  | remoteClose d =>
    cases Option.some.inj h
    exact setSide_cut hs fun _ => rfl
  | send d e =>
    obtain ⟨_, h⟩ := Option.ite_none_right_eq_some.mp h
    obtain ⟨loop, _, rfl⟩ := Option.map_eq_some_iff.mp h
    exact setSide_cut hs id

/-- The notification of `stop` comes to a thread that does not wait on an empty queue. -/
def FindsAt (s : Session) : StopPhase → Prop
  | .notify d => (s.side d).loop.WakesOnItem .notify
  | _ => True

/-- Every wakeup of the two send threads finds an item. -/
def Wakes (s : Session) : SessionEvent → Prop
  | .stop => s.FindsAt s.stop
  | .send d e => (s.side d).loop.WakesOnItem e
  | _ => True

instance (s : Session) (p : StopPhase) : Decidable (s.FindsAt p) :=
  match p with
  | .notify d => inferInstanceAs (Decidable ((s.side d).loop.WakesOnItem .notify))
  | .test | .mark | .close _ | .joinRecv _ | .joinSend _ | .returned => .isTrue trivial

instance (s : Session) (e : SessionEvent) : Decidable (s.Wakes e) :=
  match e with
  | .stop => inferInstanceAs (Decidable (s.FindsAt s.stop))
  | .send d e => inferInstanceAs (Decidable ((s.side d).loop.WakesOnItem e))
  | .recvTest _ | .recv _ _ | .tick _ _ | .remoteClose _ => .isTrue trivial

theorem setSide_supplied {s : Session} {d : Direction} {x : Side}
    (hs : ∀ e, (s.side e).loop.Supplied) (hx : (s.side d).loop.Supplied → x.loop.Supplied) :
    ∀ e, ((s.setSide d x).side e).loop.Supplied := by
  intro e
  rw [side_setSide]
  split
  next => exact hx (hs d)
  next => exact hs e

theorem stopStep_supplied {s t : Session} (hs : ∀ d, (s.side d).loop.Supplied)
    (hok : s.FindsAt s.stop) (h : s.stopStep = some t) :
    ∀ d, (t.side d).loop.Supplied := by
  have hsame (stopped : Bool) (p : StopPhase) :
      ∀ d, ({ s with stopped := stopped, stop := p }.side d).loop.Supplied := by
    intro d
    cases d
    · exact hs .up
    · exact hs .down
  cases advance_of_stopStep h with
  | test _ => exact hsame s.stopped _
  | mark _ => exact hsame true _
  | close f _ => exact setSide_supplied (hsame s.stopped _) (by cases f <;> exact id)
  | joinRecv f _ _ => exact hsame s.stopped _
  | notify f hp =>
    have hwake := SendLoop.step_supplied _ .notify _ (hs f) (by rw [hp] at hok; exact hok) rfl
    exact setSide_supplied (hsame s.stopped _) fun _ => hwake
  | joinSend f _ _ => exact hsame s.stopped _

theorem step_supplied {s t : Session} {e : SessionEvent} (hs : ∀ d, (s.side d).loop.Supplied)
    (hok : s.Wakes e) (h : s.step e = some t) : ∀ d, (t.side d).loop.Supplied := by
  cases e with
  | stop => exact stopStep_supplied hs hok h
  | recvTest f =>
    obtain ⟨_, rfl⟩ := of_guard h
    exact setSide_supplied hs id
  | recv f r =>
    obtain ⟨_, rfl⟩ := of_guard h
    exact setSide_supplied hs id
  | tick f tcpi_state =>
    cases Option.some.inj h
    exact setSide_supplied hs id
  | remoteClose f =>
    cases Option.some.inj h
    exact setSide_supplied hs id
  | send f e =>
    obtain ⟨_, h⟩ := Option.ite_none_right_eq_some.mp h
    obtain ⟨loop, hl, rfl⟩ := Option.map_eq_some_iff.mp h
    exact setSide_supplied hs fun hf => SendLoop.step_supplied _ _ _ hf hok hl

theorem started_supplied {s : Session} (hs : s.Started) (d : Direction) :
    (s.side d).loop.Supplied := by
  have hphase := hs.loop d
  exact ⟨fun h => by simp [hphase] at h, by simp [hphase]⟩

/-- An event that neither waits for a peer nor depends on what `front()` makes of an empty queue. -/
def Unblocked (s : Session) : SessionEvent → Prop
  | .recv d _ => (s.side d).client.recvBlocks = false
  | .send d (.send _) => (s.side d).client.sendBlocks = false
  | .send _ (.garbage _) => False
  | _ => True

/-- `stop` or one of the threads has a step to take. -/
def CanGoOn (s : Session) : Prop :=
  ∃ e t, e.own = true ∧ s.Unblocked e ∧ s.step e = some t

theorem send_goes_on {s : Session} {d : Direction} (hs : s.stopped = true)
    (hb : (s.side d).client.sendBlocks = false) (hw : (s.side d).loop.phase ≠ .waiting)
    (he : (s.side d).loop.phase ≠ .exited) (hd : (s.side d).loop.phase ≠ .undefined) :
    s.CanGoOn := by
  have hgo {e : SendEvent} {loop : SendLoop} (hown : e.own = true) (hc : s.Concurrent e)
      (hu : s.Unblocked (.send d e)) (h : (s.side d).loop.step e = some loop) : s.CanGoOn :=
    ⟨.send d e, _, hown, hu, step_send hc h⟩
  cases hp : (s.side d).loop.phase with
  | test => exact hgo (e := .test true) rfl hs.symm trivial (by rw [SendLoop.step, if_pos hp])
  | tested => exact hgo (e := .take) rfl trivial trivial (by rw [SendLoop.step, if_pos hp])
  | waiting => exact absurd hp hw
  | woken => exact hgo (e := .resume) rfl trivial trivial (by rw [SendLoop.step, if_pos hp])
  | holding p =>
    -- the socket is shut or the peer has gone
    have hsend : (s.side d).loop.step (.send (.error 0)) =
        some { (s.side d).loop with
          phase := .sent p, calls := (s.side d).loop.calls ++ [(p, .error 0)] } := by
      rw [SendLoop.step, hp]
      exact if_pos (Nat.zero_le _)
    exact hgo (e := .send (.error 0)) rfl trivial hb hsend
  | sent p => exact hgo (e := .pull) rfl trivial trivial (by rw [SendLoop.step, hp])
  | exited => exact absurd hp he
  | undefined => exact absurd hp hd

theorem recv_goes_on {s : Session} {d : Direction}
    (hr : (s.side d).recv = .recving → (s.side d).client.recvBlocks = false)
    (he : (s.side d).recv ≠ .exited) : s.CanGoOn := by
  cases hp : (s.side d).recv with
  | test => exact ⟨.recvTest d, _, rfl, trivial, by rw [step, if_pos hp]⟩
  | recving => exact ⟨.recv d .shutdown, _, rfl, hr hp, by rw [step, if_pos hp]⟩
  | exited => exact absurd hp he

/-- `stop` joins a thread that evaluates `front()` on an empty queue. -/
def Stuck (s : Session) : Prop :=
  ∃ d, s.stop = .joinSend d ∧ (s.side d).loop.phase = .undefined

/-- What `stop` waits for is on its way. -/
theorem goes_on {s : Session} (hs : s.Safe) (hcut : s.Cut) (hn : s.stop ≠ .returned)
    (hstuck : ¬s.Stuck) : s.CanGoOn := by
  have hgo {t : Session} (h : s.stopStep = some t) : s.CanGoOn := ⟨.stop, t, rfl, trivial, h⟩
  cases hp : s.stop with
  | test => exact hgo (by rw [stopStep, hp])
  | mark => exact hgo (by rw [stopStep, hp])
  | close d => exact hgo (by rw [stopStep, hp])
  | joinRecv d =>
    by_cases he : (s.side d).recv = .exited
    · exact hgo (by rw [stopStep, hp]; exact if_pos he)
    · exact recv_goes_on ((hs.joins d).recv hp) he
  | notify d => exact hgo (by rw [stopStep, hp])
  | joinSend d =>
    by_cases he : (s.side d).loop.phase = .exited
    · exact hgo (by rw [stopStep, hp]; exact if_pos he)
    · have hb : (s.side d).client.sendBlocks = false := hcut d (by rw [hp]; cases d <;> decide)
      exact send_goes_on (hs.marked (by rw [hp]; rfl)) hb ((hs.joins d).send hp).awake he
        fun hd => hstuck ⟨d, hp, hd⟩
  | returned => exact absurd hp hn

theorem joined_work {s : Session} (hs : s.Joined) (hstop : s.stopped = true) : s.work ≤ 26 := by
  have hrank := hs.marked hstop
  have hup := s.up.recv.rank_le
  have hdown := s.down.recv.rank_le
  have hsendUp := s.up.loop.phase.rank_le
  have hsendDown := s.down.loop.phase.rank_le
  simp only [work, Side.work]
  omega

def fourBytes : MessageBuffer := ⟨4, [1, 2, 3, 4]⟩

/-- The down peer has closed, and the up send thread holds a message when `stopped` is set; the
threads then go one after the other. -/
def stopping : List SessionEvent :=
  [.tick .up TCP_ESTABLISHED, .tick .down TCP_ESTABLISHED, .recvTest .up, .recvTest .down,
    .send .up (.put (some fourBytes)), .send .up (.test false), .send .up .take, .remoteClose .down,
    .stop, .stop, .stop, .recv .up .shutdown, .stop, .stop, .send .up (.send (.sent 4)),
    .send .up .pull, .send .up (.test true), .stop, .stop, .recv .down .shutdown, .stop, .stop,
    .send .down (.test true), .stop]

end Session

end VehicleCloud
