import VehicleCloud.Ledger
import VehicleCloud.Runs
import Mathlib.Logic.Function.Basic

namespace VehicleCloud

open Custody

/-- How the system calls of `Timer::start` come out. -/
inductive TimerStart where
  | noTimer -- `timer_create` fails
  | notSet (id : Nat) -- `timer_settime` fails
  | set (id : Nat)
  deriving DecidableEq

/-- The id that `timer_create` has stored. -/
def TimerStart.created : TimerStart → Option Nat
  | noTimer => none
  | notSet id => some id
  | set id => some id

def TimerStart.failed : TimerStart → Bool
  | noTimer => true
  | notSet _ => true
  | set _ => false

/-- A `Timer` object. Before the first `start` its id is what memory held. -/
structure Timer where
  stopped : Bool
  timer : Nat
  destroyed : Bool

/-- The new object and the return value. -/
def Timer.start (x : Timer) : TimerStart → Timer × Int
  | .noTimer => (x, -1)
  | .notSet id => ({ x with timer := id }, -1)
  | .set id => ({ x with timer := id, stopped := false }, 0)

theorem Timer.start_timer (x : Timer) {r : TimerStart} {id : Nat} (h : r.created = some id) :
    (x.start r).1.timer = id := by
  cases r <;> cases h <;> rfl

theorem Timer.start_destroyed (x : Timer) (r : TimerStart) :
    (x.start r).1.destroyed = x.destroyed := by
  cases r <;> rfl

/-- Timer objects and the pool of kernel ids they share. -/
structure Timers (ω : Type) where
  object : ω → Timer
  ledger : Ledger Nat ω

inductive TimerEvent (ω : Type) where
  | start (o : ω) (r : TimerStart)
  | stop (o : ω)
  | destroy (o : ω)

namespace Timers

variable {ω : Type} [DecidableEq ω]

/-- `Timer::stop`: the kernel's timers and the return value. The object is left as it is. -/
def stop (s : Timers ω) (o : ω) : Ledger Nat ω × Int :=
  if (s.object o).stopped then (s.ledger, 0)
  else (s.ledger.release o (s.object o).timer, if s.ledger.Free (s.object o).timer then -1 else 0)

theorem stop_of_stopped {s : Timers ω} {o : ω} (h : (s.object o).stopped = true) :
    (s.stop o).1 = s.ledger := by
  simp [stop, h]

theorem stop_of_running {s : Timers ω} {o : ω} (h : (s.object o).stopped = false) :
    (s.stop o).1 = s.ledger.release o (s.object o).timer := by
  simp [stop, h]

/-- After `stop` or the destructor the object should own no timer. -/
def step (s : Timers ω) : TimerEvent ω → Option (Timers ω)
  | .start o r =>
    if (s.object o).destroyed then none
    else
      match r.created with
      | none => some { s with object := Function.update s.object o ((s.object o).start r).1 }
      | some id =>
        if h : s.ledger.Free id then
          some ⟨Function.update s.object o ((s.object o).start r).1, s.ledger.create o id h⟩
        else none
  | .stop o =>
    if (s.object o).destroyed then none else some { s with ledger := (s.stop o).1.settle o }
  | .destroy o =>
    if (s.object o).destroyed then none
    else
      some ⟨Function.update s.object o { s.object o with destroyed := true }, (s.stop o).1.settle o⟩

/-- Objects as the constructor leaves them. -/
structure New (s : Timers ω) : Prop where
  stopped : ∀ o, (s.object o).stopped = true
  ledger : s.ledger = Ledger.empty

theorem of_step_start {s t : Timers ω} {o : ω} {r : TimerStart} (h : s.step (.start o r) = some t) :
    (s.object o).destroyed = false ∧
      (r.created = none ∧ t = s ∨
        ∃ id, ∃ hid : s.ledger.Free id, r.created = some id ∧
          t = ⟨Function.update s.object o ((s.object o).start r).1, s.ledger.create o id hid⟩) := by
  simp only [step] at h
  split at h
  next => cases h
  next hd =>
    refine ⟨by simpa using hd, ?_⟩
    split at h
    next hr =>
      cases Option.some.inj h
      cases r with
      | noTimer => exact Or.inl ⟨rfl, by simp [Timer.start]⟩
      | notSet id => cases hr
      | set id => cases hr
    next id hr =>
      split at h
      next hid => exact Or.inr ⟨id, hid, hr, (Option.some.inj h).symm⟩
      next => cases h

theorem of_step_stop {s t : Timers ω} {o : ω} (h : s.step (.stop o) = some t) :
    t = { s with ledger := (s.stop o).1.settle o } := by
  simp only [step] at h
  split at h
  next => cases h
  next => exact (Option.some.inj h).symm

theorem of_step_destroy {s t : Timers ω} {o : ω} (h : s.step (.destroy o) = some t) :
    t = ⟨Function.update s.object o { s.object o with destroyed := true },
      (s.stop o).1.settle o⟩ := by
  simp only [step] at h
  split at h
  next => cases h
  next => exact (Option.some.inj h).symm

end Timers

end VehicleCloud
