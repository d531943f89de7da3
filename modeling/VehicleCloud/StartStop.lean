import VehicleCloud.ControllerStop

namespace VehicleCloud

/-- The four `std::thread` members of the controller. -/
inductive Slot where
  | recv (d : Direction)
  | send (d : Direction)
  deriving DecidableEq

/-- The statements of `Controller::start`, of `Controller::stop` and of the client's callback. -/
inductive Stmt where
  | clear -- `stopped = false`
  | open (d : Direction)
  | spawn (t : Slot) -- a new `std::thread` is assigned to the member
  | test -- `if (stopped) return`
  | mark -- `stopped = true`
  | close (d : Direction)
  | join (t : Slot)
  | notify (d : Direction)
  | schedule -- the detached thread that sleeps and calls `start`
  deriving DecidableEq

namespace Controller

def start : List Stmt :=
  [.clear,
    .open .up, .spawn (.recv .up), .spawn (.send .up),
    .open .down, .spawn (.recv .down), .spawn (.send .down)]

def stop : List Stmt :=
  [.test, .mark,
    .close .up, .join (.recv .up), .notify .up, .join (.send .up),
    .close .down, .join (.recv .down), .notify .down, .join (.send .down)]

/-- `on_up_connect_state` and `on_down_connect_state` for a state other than `CONNECTED`. -/
def lost : List Stmt := stop ++ [.schedule]

end Controller

/-- What calls of `start` and `stop` share: the flag, and the members that are joinable. -/
structure Members where
  stopped : Bool
  joinable : List Slot
  deriving DecidableEq

/-- The effect of a statement. There is none where the assignment to a joinable member terminates
the program, or the join of another one throws. That of a `join` is the one it has when it returns:
whether the thread ever ends is not said here. -/
def Stmt.effect (m : Members) : Stmt → Option Members
  | .clear => some { m with stopped := false }
  | .mark => some { m with stopped := true }
  | .spawn t => if t ∈ m.joinable then none else some { m with joinable := m.joinable ++ [t] }
  | .join t => if t ∈ m.joinable then some { m with joinable := m.joinable.erase t } else none
  | .open _ | .test | .close _ | .notify _ | .schedule => some m

/-- The threads that are inside `start` or a callback, each with the statements it has left. -/
structure Reconnect where
  members : Members
  threads : List (List Stmt)
  opened : List Direction -- the sockets whose listen timer can tick
  asleep : Nat
  failed : Bool
  deriving DecidableEq

inductive ReconnectEvent where
  | lost (d : Direction)
  | wake
  | run (n : Nat)
  deriving DecidableEq

namespace Reconnect

def code (s : Reconnect) (n : Nat) : List Stmt := s.threads.getD n []

/-- What a thread has left after a statement. From `stop` it returns to the callback. -/
def after (m : Members) (stmt : Stmt) (rest : List Stmt) : List Stmt :=
  if stmt = .test ∧ m.stopped = true then rest.dropWhile (· ≠ .schedule) else rest

def perform (s : Reconnect) (n : Nat) (stmt : Stmt) (rest : List Stmt) : Reconnect :=
  match stmt.effect s.members with
  | none => { s with failed := true }
  | some m =>
    { members := m
      threads := s.threads.set n (after s.members stmt rest)
      opened := match stmt with
        | .open d => d :: s.opened
        | _ => s.opened
      asleep := if stmt = .schedule then s.asleep + 1 else s.asleep
      failed := false }

/-- A tick that finds a socket lost, a delayed thread that wakes up, or a thread that goes on. -/
def step (s : Reconnect) (e : ReconnectEvent) : Option Reconnect :=
  if s.failed then none
  else
    match e with
    | .lost d =>
      if d ∈ s.opened then some { s with threads := s.threads ++ [Controller.lost] } else none
    | .wake =>
      if 0 < s.asleep then
        some { s with threads := s.threads ++ [Controller.start], asleep := s.asleep - 1 }
      else none
    | .run n =>
      match s.code n with
      | [] => none
      | stmt :: rest => some (s.perform n stmt rest)

/-- The client's `main` calls `start`. -/
def initial : Reconnect := ⟨⟨true, []⟩, [Controller.start], [], 0, false⟩

theorem code_of_le {s : Reconnect} {n : Nat} (h : s.threads.length ≤ n) : s.code n = [] := by
  rw [code, List.getD_eq_getElem?_getD, List.getElem?_eq_none h]
  rfl

theorem lt_of_code {s : Reconnect} {n : Nat} (h : s.code n ≠ []) : n < s.threads.length := by
  by_contra hlt
  exact h (code_of_le (Nat.le_of_not_lt hlt))

theorem code_append (s : Reconnect) (c : List Stmt) (k n : Nat) :
    code { s with threads := s.threads ++ [c], asleep := k } n =
      if n = s.threads.length then c else s.code n := by
  by_cases hlt : n < s.threads.length
  · simp [code, List.getElem?_append, hlt, Nat.ne_of_lt hlt]
  · by_cases heq : n = s.threads.length
    · simp [code, heq]
    · rw [if_neg heq, code_of_le (Nat.le_of_not_lt hlt)]
      apply code_of_le
      simp only [List.length_append, List.length_singleton]
      omega

theorem code_perform {s : Reconnect} {n : Nat} {stmt : Stmt} {rest : List Stmt} {m : Members}
    (hc : s.code n = stmt :: rest) (he : stmt.effect s.members = some m) (i : Nat) :
    (s.perform n stmt rest).code i = if i = n then after s.members stmt rest else s.code i := by
  have hlt : n < s.threads.length := lt_of_code (by rw [hc]; exact List.cons_ne_nil _ _)
  simp only [perform, he, code, List.getD_eq_getElem?_getD, List.getElem?_set]
  by_cases hi : n = i
  · subst hi
    simp [hlt]
  · simp [hi, Ne.symm hi]

theorem of_step_lost {s t : Reconnect} {d : Direction} (h : s.step (.lost d) = some t) :
    { s with threads := s.threads ++ [Controller.lost] } = t := by
  simp only [step] at h
  split at h
  next => cases h
  next => exact (Transition.of_guard h).2

theorem of_step_wake {s t : Reconnect} (h : s.step .wake = some t) :
    { s with threads := s.threads ++ [Controller.start], asleep := s.asleep - 1 } = t := by
  simp only [step] at h
  split at h
  next => cases h
  next => exact (Transition.of_guard h).2

theorem of_step_run {s t : Reconnect} {n : Nat} (h : s.step (.run n) = some t) :
    s.failed = false ∧ ∃ stmt rest, s.code n = stmt :: rest ∧ t = s.perform n stmt rest := by
  simp only [step] at h
  split at h
  next => cases h
  next hf =>
    refine ⟨by simpa using hf, ?_⟩
    split at h
    next => cases h
    next stmt rest hc => exact ⟨stmt, rest, hc, (Option.some.inj h).symm⟩

theorem step_run {s : Reconnect} {n : Nat} {stmt : Stmt} {rest : List Stmt} (hf : s.failed = false)
    (hc : s.code n = stmt :: rest) : s.step (.run n) = some (s.perform n stmt rest) := by
  simp [step, hf, hc]

end Reconnect

end VehicleCloud
