import VehicleCloud.BlockQueue
import VehicleCloud.Packer
import VehicleCloud.Runs

namespace VehicleCloud

/-- What `::send` returns: the number of bytes the socket accepted, or -1. -/
inductive SendResult where
  | sent (count : Nat)
  | error (errno : Nat)
  deriving DecidableEq

namespace SendResult

def count : SendResult → Nat
  | sent n => n
  | error _ => 0

end SendResult

namespace MessageBuffer

/-- The `size` bytes at `data`, which are what `send` is called on. -/
def bytes (p : MessageBuffer) : List UInt8 := p.data.take p.size.toNat

def frame : Option MessageBuffer → List UInt8
  | none => []
  | some p => p.bytes

end MessageBuffer

inductive SendPhase where
  | test
  | tested -- past the test of `stopped`, before the lock of `take`
  | waiting
  | woken -- `wait` is over, `take` has not gone on
  | holding (p : MessageBuffer)
  | sent (p : MessageBuffer) -- past `send`, before `pull`
  | exited
  | undefined -- `front()` is evaluated on an empty queue
  deriving DecidableEq

/-- A send queue and its single consumer, with the history of `put`, `::send` and `pull`. -/
structure SendLoop where
  queue : BlockQueue (Option MessageBuffer)
  phase : SendPhase
  puts : List (Option MessageBuffer)
  calls : List (MessageBuffer × SendResult)
  pulled : List (Option MessageBuffer)
  deriving DecidableEq

inductive SendEvent where
  | put (p : Option MessageBuffer)
  | notify
  | spurious -- a wakeup without notification
  | start
  | test (stopped : Bool) -- the loop head reads this value of `stopped`
  | take
  | resume
  | garbage (p : Option MessageBuffer) -- what `front()` makes of an empty queue
  | send (r : SendResult)
  | pull
  deriving DecidableEq

namespace SendLoop

def initial : SendLoop := ⟨⟨[]⟩, .exited, [], [], []⟩

/-- `notify_all` on `cond_`. -/
def wake (s : SendLoop) : SendLoop := if s.phase = .waiting then { s with phase := .woken } else s

def taken (s : SendLoop) : BlockQueue.Taken (Option MessageBuffer) → SendLoop
  | .waits => { s with phase := .waiting }
  | .front none => { s with phase := .test } -- the `continue` for a null pointer
  | .front (some p) => { s with phase := .holding p }
  | .undefined => { s with phase := .undefined }

/-- `up_sock_send_thread` and `down_sock_send_thread`, step by step, with the calls that other
threads make on the queue. -/
def step (s : SendLoop) : SendEvent → Option SendLoop
  | .put p => some { s with queue := s.queue.put p, puts := s.puts ++ [p] }.wake
  | .notify => some s.wake
  | .spurious => if s.phase = .waiting then some s.wake else none
  | .start => if s.phase = .exited then some { s with phase := .test } else none
  | .test stopped =>
    if s.phase = .test then some { s with phase := if stopped then .exited else .tested } else none
  | .take => if s.phase = .tested then some (s.taken s.queue.take) else none
  | .resume => if s.phase = .woken then some (s.taken s.queue.resume) else none
  | .garbage p => if s.phase = .undefined then some (s.taken (.front p)) else none
  | .send r =>
    match s.phase with
    | .holding p =>
      -- the result is not looked at
      if r.count ≤ p.size.toNat then some { s with phase := .sent p, calls := s.calls ++ [(p, r)] }
      else none
    | _ => none
  | .pull =>
    match s.phase with
    | .sent _ =>
      some { s with phase := .test, queue := s.queue.pull, pulled := s.pulled ++ s.queue.items.take 1 }
    | _ => none

@[simp] theorem wake_queue (s : SendLoop) : s.wake.queue = s.queue := by
  unfold wake
  split <;> rfl

@[simp] theorem wake_puts (s : SendLoop) : s.wake.puts = s.puts := by
  unfold wake
  split <;> rfl

@[simp] theorem wake_calls (s : SendLoop) : s.wake.calls = s.calls := by
  unfold wake
  split <;> rfl

@[simp] theorem wake_pulled (s : SendLoop) : s.wake.pulled = s.pulled := by
  unfold wake
  split <;> rfl

theorem wake_phase (s : SendLoop) :
    s.phase = .waiting ∧ s.wake.phase = .woken ∨ s.phase ≠ .waiting ∧ s.wake.phase = s.phase := by
  unfold wake
  split
  next h => exact Or.inl ⟨h, rfl⟩
  next h => exact Or.inr ⟨h, rfl⟩

/-- What tells the waiting from the woken phase in no way survives `notify_all`. -/
theorem wake_congr {β : Type} (f : SendPhase → β) (hf : f .woken = f .waiting) (s : SendLoop) :
    f s.wake.phase = f s.phase := by
  rcases s.wake_phase with ⟨hp, hq⟩ | ⟨_, hq⟩
  · rw [hp, hq, hf]
  · rw [hq]

theorem of_step_send {s t : SendLoop} {r : SendResult} (h : s.step (.send r) = some t) :
    ∃ p, s.phase = .holding p ∧ r.count ≤ p.size.toNat ∧
      { s with phase := .sent p, calls := s.calls ++ [(p, r)] } = t := by
  simp only [step] at h
  split at h
  next p hp => exact ⟨p, hp, Transition.of_guard h⟩
  next => cases h

theorem of_step_pull {s t : SendLoop} (h : s.step .pull = some t) :
    ∃ p, s.phase = .sent p ∧
      { s with phase := .test, queue := s.queue.pull, pulled := s.pulled ++ s.queue.items.take 1 } = t := by
  simp only [step] at h
  split at h
  next p hp => exact ⟨p, hp, Option.some.inj h⟩
  next => cases h

end SendLoop

end VehicleCloud
