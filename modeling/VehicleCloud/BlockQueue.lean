import Mathlib.Tactic.Common

namespace VehicleCloud

structure BlockQueue (α : Type) where
  items : List α
  deriving DecidableEq, Inhabited

namespace BlockQueue

variable {α : Type}

/-- How a critical section of `take` ends: in `wait`, or with the value of `front()`, which an
empty queue does not have. -/
inductive Taken (α : Type) where
  | waits
  | front (a : α)
  | undefined
  deriving DecidableEq

def front (q : BlockQueue α) : Taken α :=
  match q.items with
  | [] => .undefined
  | a :: _ => .front a

/-- `take` up to its `wait` or its return. -/
def take (q : BlockQueue α) : Taken α := if q.items.length = 0 then .waits else q.front

/-- `take` from the return of `wait` on. The size is not tested again. -/
def resume (q : BlockQueue α) : Taken α := q.front

def put (q : BlockQueue α) (a : α) : BlockQueue α := ⟨q.items ++ [a]⟩

def pull (q : BlockQueue α) : BlockQueue α := if q.items.length = 0 then q else ⟨q.items.tail⟩

@[simp] theorem put_items (q : BlockQueue α) (a : α) : (q.put a).items = q.items ++ [a] := rfl

theorem pull_cons {q : BlockQueue α} {a : α} {rest : List α} (h : q.items = a :: rest) :
    q.pull.items = rest := by
  simp [pull, h]

theorem front_eq_front {q : BlockQueue α} {a : α} : q.front = .front a ↔ q.items.head? = some a := by
  unfold front
  cases q.items <;> simp

theorem front_eq_undefined {q : BlockQueue α} : q.front = .undefined ↔ q.items = [] := by
  unfold front
  cases q.items <;> simp

theorem front_ne_waits (q : BlockQueue α) : q.front ≠ .waits := by
  unfold front
  cases q.items <;> simp

theorem take_nil {q : BlockQueue α} (h : q.items = []) : q.take = .waits := by
  simp [take, h]

theorem take_of_ne_nil {q : BlockQueue α} (h : q.items ≠ []) : q.take = q.front := by
  simp [take, h]

/-- The first critical section of `take` is sound: it looks at the front of non-empty queues only. -/
theorem take_ne_undefined (q : BlockQueue α) : q.take ≠ .undefined := by
  by_cases h : q.items = []
  · simp [take_nil h]
  · rw [take_of_ne_nil h]
    exact mt front_eq_undefined.mp h

end BlockQueue

end VehicleCloud
