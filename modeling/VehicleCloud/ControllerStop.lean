import VehicleCloud.Client
import VehicleCloud.ControllerRecv
import VehicleCloud.SendThread

namespace VehicleCloud

inductive Direction where
  | up
  | down
  deriving DecidableEq

/-- Where a receive thread stands: before the test of `stopped`, past it in `recv`, or gone. -/
inductive RecvPhase where
  | test
  | recving
  | exited
  deriving DecidableEq

namespace RecvPhase

/-- The branch a receive thread takes on a result of `recv`. A message is unpacked on the way. -/
def next : RecvResult → RecvPhase
  | .shutdown => exited
  | .error errno => if errno = EAGAIN ∨ errno = EWOULDBLOCK ∨ errno = EINTR then test else exited
  | .data _ => test

end RecvPhase

/-- One of the two connections with its threads. -/
structure Side where
  client : Client
  recv : RecvPhase
  loop : SendLoop
  deriving DecidableEq

/-- The statement of `Controller::stop` that comes next. -/
inductive StopPhase where
  | test
  | mark
  | close (d : Direction)
  | joinRecv (d : Direction)
  | notify (d : Direction)
  | joinSend (d : Direction)
  | returned
  deriving DecidableEq

/-- A started controller and the thread that is to stop it. -/
structure Session where
  stopped : Bool
  up : Side
  down : Side
  stop : StopPhase
  deriving DecidableEq

inductive SessionEvent where
  | stop
  | recvTest (d : Direction)
  | recv (d : Direction) (r : RecvResult)
  | tick (d : Direction) (tcpi_state : UInt8)
  | remoteClose (d : Direction)
  | send (d : Direction) (e : SendEvent)

namespace Session

def side (s : Session) : Direction → Side
  | .up => s.up
  | .down => s.down

def setSide (s : Session) (d : Direction) (x : Side) : Session :=
  match d with
  | .up => { s with up := x }
  | .down => { s with down := x }

@[simp] theorem setSide_stop (s : Session) (d : Direction) (x : Side) :
    (s.setSide d x).stop = s.stop := by
  cases d <;> rfl

@[simp] theorem setSide_stopped (s : Session) (d : Direction) (x : Side) :
    (s.setSide d x).stopped = s.stopped := by
  cases d <;> rfl

theorem side_setSide (s : Session) (d e : Direction) (x : Side) :
    (s.setSide d x).side e = if e = d then x else s.side e := by
  cases d <;> cases e <;> rfl

def afterJoin : Direction → StopPhase
  | .up => .close .down
  | .down => .returned

/-- `Controller::stop`. A join waits until its thread has gone. -/
def stopStep (s : Session) : Option Session :=
  match s.stop with
  | .test => some { s with stop := if s.stopped then .returned else .mark }
  | .mark => some { s with stopped := true, stop := .close .up }
  | .close d =>
    let x := s.side d
    some ({ s with stop := .joinRecv d }.setSide d { x with client := x.client.close })
  | .joinRecv d => if (s.side d).recv = .exited then some { s with stop := .notify d } else none
  | .notify d =>
    let x := s.side d
    some ({ s with stop := .joinSend d }.setSide d { x with loop := x.loop.wake })
  | .joinSend d =>
    if (s.side d).loop.phase = .exited then some { s with stop := afterJoin d } else none
  | .returned => none

/-- The events of a send loop that other threads than `stop` cause here, with the flag as it is. -/
def Concurrent (s : Session) : SendEvent → Prop
  | .notify => False
  | .start => False
  | .test stopped => stopped = s.stopped
  | _ => True

instance (s : Session) (e : SendEvent) : Decidable (s.Concurrent e) :=
  match e with
  | .notify | .start => .isFalse nofun
  | .test _ => inferInstanceAs (Decidable (_ = _))
  | .put _ | .spurious | .take | .resume | .garbage _ | .send _ | .pull => .isTrue trivial

/-- One atomic step of one of the threads, of a listen tick or of a peer. -/
def step (s : Session) : SessionEvent → Option Session
  | .stop => s.stopStep
  | .recvTest d =>
    let x := s.side d
    if x.recv = .test then
      some (s.setSide d { x with recv := if s.stopped then .exited else .recving })
    else none
  | .recv d r =>
    let x := s.side d
    if x.recv = .recving then some (s.setSide d { x with recv := .next r }) else none
  | .tick d tcpi_state =>
    let x := s.side d
    some (s.setSide d { x with client := (x.client.listen tcpi_state).1 })
  | .remoteClose d =>
    let x := s.side d
    some (s.setSide d { x with client := { x.client with established := false } })
  | .send d e =>
    let x := s.side d
    if s.Concurrent e then
      (x.loop.step e).map fun loop => s.setSide d { x with loop := loop }
    else none

/-- What a statement of `stop` does. A join has waited until its thread has gone. -/
inductive Advance (s : Session) : Session → Prop
  | test (hp : s.stop = .test) : s.Advance { s with stop := if s.stopped then .returned else .mark }
  | mark (hp : s.stop = .mark) : s.Advance { s with stopped := true, stop := .close .up }
  | close (d : Direction) (hp : s.stop = .close d) :
      s.Advance ({ s with stop := .joinRecv d }.setSide d
        { s.side d with client := (s.side d).client.close })
  | joinRecv (d : Direction) (hp : s.stop = .joinRecv d) (hgone : (s.side d).recv = .exited) :
      s.Advance { s with stop := .notify d }
  | notify (d : Direction) (hp : s.stop = .notify d) :
      s.Advance ({ s with stop := .joinSend d }.setSide d
        { s.side d with loop := (s.side d).loop.wake })
  | joinSend (d : Direction) (hp : s.stop = .joinSend d) (hgone : (s.side d).loop.phase = .exited) :
      s.Advance { s with stop := afterJoin d }

theorem advance_of_stopStep {s t : Session} (h : s.stopStep = some t) : s.Advance t := by
  unfold stopStep at h
  split at h
  next hp =>
    cases Option.some.inj h
    exact .test hp
  next hp =>
    cases Option.some.inj h
    exact .mark hp
  next d hp =>
    cases Option.some.inj h
    exact .close d hp
  next d hp =>
    obtain ⟨hgone, rfl⟩ := Transition.of_guard h
    exact .joinRecv d hp hgone
  next d hp =>
    cases Option.some.inj h
    exact .notify d hp
  next d hp =>
    obtain ⟨hgone, rfl⟩ := Transition.of_guard h
    exact .joinSend d hp hgone
  next => cases h

/-- `start` has returned. What is in the queues, and what the clients believe, is left open. -/
structure Started (s : Session) : Prop where
  stopped : s.stopped = false
  stop : s.stop = .test
  recv : ∀ d, (s.side d).recv = .test
  loop : ∀ d, (s.side d).loop.phase = .test
  shut : ∀ d, (s.side d).client.shut = false

/-- `stop` joins a thread that is blocked and that nothing `stop` has done or will do wakes. -/
inductive Deadlocked (s : Session) : Prop
  | send (d : Direction) (hstop : s.stop = .joinSend d) (hphase : (s.side d).loop.phase = .waiting)
      (hempty : (s.side d).loop.queue.items = [])
  | recv (d : Direction) (hstop : s.stop = .joinRecv d) (hphase : (s.side d).recv = .recving)
      (hblocks : (s.side d).client.recvBlocks = true)

end Session

end VehicleCloud
