import VehicleCloud.Runs
import VehicleCloud.Socket

namespace VehicleCloud

/-- A client with the kernel timers that call its `listen`, and the calls that are under way. -/
structure Listener extends Socket where
  armed : List Nat
  dispatched : Nat
  deriving DecidableEq

inductive ListenEvent where
  | open (r : OpenResult)
  | expire (id : Nat)
  | tick (tcpi_state : UInt8)
  | close
  deriving DecidableEq

def Listener.open (x : Listener) (r : OpenResult) : Listener :=
  { x with toSocket := x.toSocket.open r, armed := r.armed.toList ++ x.armed }

namespace Listener

/-- `timer_delete` in `close` leaves the calls under way alone. -/
def close (x : Listener) : Listener :=
  { x with
    toSocket := x.toSocket.close
    armed := if x.state = .CLOSED then x.armed else x.armed.filter (· ≠ x.timer) }

def listen (x : Listener) (tcpi_state : UInt8) : Listener :=
  { x with toSocket := x.toSocket.listen tcpi_state, dispatched := x.dispatched - 1 }

/-- The new state and the notification that is sent. A tick is atomic, and so are the calls. -/
def step (x : Listener) : ListenEvent → Option (Listener × Option ConnectState)
  | .open r =>
    if ∀ id ∈ r.timer, id ∉ x.armed then some (x.open r, none) else none
  | .expire id =>
    if id ∈ x.armed then some ({ x with dispatched := x.dispatched + 1 }, none) else none
  | .tick tcpi_state =>
    if 0 < x.dispatched then some (x.listen tcpi_state, (x.toClient.listen tcpi_state).2)
    else none
  | .close => some (x.close, none)

@[simp] theorem open_dispatched (x : Listener) (r : OpenResult) :
    (x.open r).dispatched = x.dispatched := rfl

@[simp] theorem open_armed (x : Listener) (r : OpenResult) :
    (x.open r).armed = r.armed.toList ++ x.armed := rfl

@[simp] theorem close_dispatched (x : Listener) : x.close.dispatched = x.dispatched := rfl

theorem close_state (x : Listener) : x.close.state = .CLOSED := by
  simp only [close, Socket.close, Client.close]
  split
  next h => exact h
  next => rfl

@[simp] theorem close_callback (x : Listener) : x.close.callback = x.callback := by
  simp only [close, Socket.close, Client.close]
  split <;> rfl

theorem mem_close_armed {x : Listener} {id : Nat} :
    id ∈ x.close.armed ↔ id ∈ x.armed ∧ (x.state = .CLOSED ∨ id ≠ x.timer) := by
  simp only [close]
  split
  next h => simp [h]
  next h => simp [h]

/-- A tick either changes `state_` to what it reports, or nothing. -/
theorem listen_cases (x : Listener) (tcpi_state : UInt8) :
    (∃ state, (x.toClient.listen tcpi_state).2 = some state ∧ state ≠ x.state ∧
      (x.listen tcpi_state).state = state) ∨
    (x.toClient.listen tcpi_state).2 = none ∧ (x.listen tcpi_state).state = x.state := by
  simp only [listen, Socket.listen, Client.listen]
  split
  next => exact Or.inr ⟨rfl, rfl⟩
  next state _ =>
    split
    next h => exact Or.inl ⟨state, rfl, h.1, rfl⟩
    next => exact Or.inr ⟨rfl, rfl⟩

theorem listen_callback (x : Listener) (tcpi_state : UInt8) :
    (x.listen tcpi_state).callback = x.callback := by
  simp only [listen, Socket.listen, Client.listen]
  split
  next => rfl
  next => split <;> rfl

theorem of_step_open {x y : Listener} {r : OpenResult} {n : Option ConnectState}
    (h : x.step (.open r) = some (y, n)) : y = x.open r ∧ n = none := by
  obtain ⟨_, h⟩ := Transition.of_guard h
  exact ⟨(congrArg Prod.fst h).symm, (congrArg Prod.snd h).symm⟩

theorem of_step_expire {x y : Listener} {id : Nat} {n : Option ConnectState}
    (h : x.step (.expire id) = some (y, n)) :
    id ∈ x.armed ∧ y = { x with dispatched := x.dispatched + 1 } ∧ n = none := by
  obtain ⟨hid, h⟩ := Transition.of_guard h
  exact ⟨hid, (congrArg Prod.fst h).symm, (congrArg Prod.snd h).symm⟩

theorem of_step_tick {x y : Listener} {tcpi_state : UInt8} {n : Option ConnectState}
    (h : x.step (.tick tcpi_state) = some (y, n)) :
    0 < x.dispatched ∧ y = x.listen tcpi_state ∧ n = (x.toClient.listen tcpi_state).2 := by
  obtain ⟨hd, h⟩ := Transition.of_guard h
  exact ⟨hd, (congrArg Prod.fst h).symm, (congrArg Prod.snd h).symm⟩

theorem of_step_close {x y : Listener} {n : Option ConnectState}
    (h : x.step .close = some (y, n)) : y = x.close ∧ n = none := by
  cases Option.some.inj h
  exact ⟨rfl, rfl⟩

end Listener

end VehicleCloud
