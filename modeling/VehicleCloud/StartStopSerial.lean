import VehicleCloud.StartStop
import Mathlib.Data.List.Infix

namespace VehicleCloud

open Transition

namespace Reconnect

/-- A thread is inside `start` or `stop`, past the first statement, and not done. -/
def inProgress : List Stmt → Bool
  | [] => false
  | .clear :: _ => false
  | .test :: _ => false
  | .schedule :: _ => false
  | _ => true

/-- No other thread is inside `start` or `stop`. -/
def Alone (s : Reconnect) (n : Nat) : Prop :=
  ∀ i < s.threads.length, i ≠ n → inProgress (s.code i) = false

/-- A `start` begins on a stopped controller, and neither a `start` nor a `stop` that goes past its
test begins beside another one. -/
def Serial (s : Reconnect) : ReconnectEvent → Prop
  | .run n =>
    match s.code n with
    | .clear :: _ => s.members.stopped = true ∧ s.Alone n
    | .test :: _ => s.members.stopped = false → s.Alone n
    | _ => True
  | _ => True

instance (s : Reconnect) (n : Nat) : Decidable (s.Alone n) :=
  inferInstanceAs (Decidable (∀ i < _, _))

instance (s : Reconnect) (e : ReconnectEvent) : Decidable (s.Serial e) := by
  unfold Serial
  split
  · split <;> infer_instance
  · exact .isTrue trivial

def slots : List Slot := [.recv .up, .send .up, .recv .down, .send .down]

def spawns (c : List Stmt) : List Slot :=
  c.filterMap fun
    | .spawn t => some t
    | _ => none

def joins (c : List Stmt) : List Slot :=
  c.filterMap fun
    | .join t => some t
    | _ => none

/-- What the only thread inside `start` or `stop` finds, by the statements it has left. -/
def expected (c : List Stmt) : Members :=
  if .schedule ∈ c then ⟨decide (c ≠ Controller.lost.tail), joins c⟩
  else ⟨false, slots.filter (· ∉ spawns c)⟩

/-- Between the calls the four members are joinable, or none is. -/
def Idle (m : Members) : Prop := m = ⟨true, []⟩ ∨ m = ⟨false, slots⟩

instance (m : Members) : Decidable (Idle m) := inferInstanceAs (Decidable (_ ∨ _))

/-- The points that a thread can be at. -/
def points : List (List Stmt) := Controller.start.tails ++ Controller.lost.tails

/-- At this point the next statement does what leads to the expected members. -/
def advances : List Stmt → Bool
  | [] => true
  | stmt :: rest =>
    match stmt.effect (expected (stmt :: rest)) with
    | none => false
    | some m => if inProgress rest then decide (m = expected rest) else decide (Idle m)

theorem advances_of_inProgress : ∀ c ∈ points, inProgress c = true → advances c = true := by decide

theorem start_of_clear : ∀ c ∈ points, c.head? = some .clear → c = Controller.start := by decide

theorem lost_of_test : ∀ c ∈ points, c.head? = some .test → c = Controller.lost := by decide

theorem end_of_schedule : ∀ c ∈ points, c.head? = some .schedule → c = [.schedule] := by decide

theorem effect_advances {stmt : Stmt} {rest : List Stmt} (hc : stmt :: rest ∈ points)
    (hp : inProgress (stmt :: rest) = true) :
    ∃ m, stmt.effect (expected (stmt :: rest)) = some m ∧
      (inProgress rest = true → m = expected rest) ∧ (inProgress rest = false → Idle m) := by
  have h := advances_of_inProgress _ hc hp
  simp only [advances] at h
  split at h
  next => cases h
  next m he =>
    refine ⟨m, he, fun hrest => ?_, fun hrest => ?_⟩
    · simpa [hrest] using h
    · simpa [hrest] using h

theorem mem_points_tail {stmt : Stmt} {rest : List Stmt} (h : stmt :: rest ∈ points) :
    rest ∈ points := by
  simp only [points, List.mem_append, List.mem_tails] at h ⊢
  have hrest : rest <:+ stmt :: rest := List.suffix_cons _ _
  exact h.imp hrest.trans hrest.trans

/-- At most one thread is inside `start` or `stop`, and the members are as it expects them. -/
structure Tidy (s : Reconnect) : Prop where
  failed : s.failed = false
  points : ∀ n, s.code n ∈ points
  alone : ∀ i n, inProgress (s.code i) = true → inProgress (s.code n) = true → i = n
  busy : ∀ n, inProgress (s.code n) = true → s.members = expected (s.code n)
  idle : (∀ n, inProgress (s.code n) = false) → Idle s.members

theorem initial_tidy : initial.Tidy := by
  have hcode (n : Nat) : initial.code n = Controller.start ∨ initial.code n = [] := by
    cases n with
    | zero => exact Or.inl rfl
    | succ n => exact Or.inr rfl
  have hquiet (n : Nat) : inProgress (initial.code n) = false := by
    rcases hcode n with h | h <;> rw [h] <;> rfl
  refine ⟨rfl, fun n => ?_, fun i n h => ?_, fun n h => ?_, fun _ => Or.inl rfl⟩
  · rcases hcode n with h | h <;> rw [h] <;> decide
  · rw [hquiet] at h
    cases h
  · rw [hquiet] at h
    cases h

theorem alone_iff {s : Reconnect} {n : Nat} :
    s.Alone n ↔ ∀ i, i ≠ n → inProgress (s.code i) = false := by
  constructor
  · intro h i hi
    by_cases hlt : i < s.threads.length
    · exact h i hlt hi
    · rw [code_of_le (Nat.le_of_not_lt hlt)]
      rfl
  · exact fun h i _ hi => h i hi

theorem tidy_of_alone {t : Reconnect} {n : Nat} (hf : t.failed = false)
    (hpoints : ∀ i, t.code i ∈ points) (hothers : ∀ i, i ≠ n → inProgress (t.code i) = false)
    (hbusy : inProgress (t.code n) = true → t.members = expected (t.code n))
    (hidle : inProgress (t.code n) = false → Idle t.members) : t.Tidy := by
  have honly (i : Nat) (hi : inProgress (t.code i) = true) : i = n := by
    by_contra hne
    rw [hothers i hne] at hi
    cases hi
  refine ⟨hf, hpoints, fun i j hi hj => (honly i hi).trans (honly j hj).symm, fun i hi => ?_,
    fun h => hidle (h n)⟩
  obtain rfl := honly i hi
  exact hbusy hi

/-- Threads that are not inside `start` or `stop` come and go. -/
theorem tidy_of_same {s t : Reconnect} (hs : s.Tidy) (hf : t.failed = false)
    (hpoints : ∀ i, t.code i ∈ points) (hm : t.members = s.members)
    (hsame : ∀ i, t.code i = s.code i ∨
      inProgress (t.code i) = false ∧ inProgress (s.code i) = false) : t.Tidy := by
  have hprogress (i : Nat) : inProgress (t.code i) = inProgress (s.code i) := by
    rcases hsame i with h | ⟨ht, hs⟩
    · rw [h]
    · rw [ht, hs]
  have hcode (i : Nat) (hi : inProgress (t.code i) = true) : t.code i = s.code i := by
    rcases hsame i with h | ⟨ht, _⟩
    · exact h
    · rw [ht] at hi
      cases hi
  refine ⟨hf, hpoints, fun i n hi hn => ?_, fun n hn => ?_, fun h => ?_⟩
  · exact hs.alone i n (by rwa [← hprogress]) (by rwa [← hprogress])
  · rw [hm, hcode n hn]
    exact hs.busy n (by rwa [← hprogress])
  · rw [hm]
    exact hs.idle fun n => by rw [← hprogress, h n]

theorem append_tidy {s : Reconnect} {c : List Stmt} (hs : s.Tidy) (hc : c ∈ points)
    (hp : inProgress c = false) (k : Nat) :
    Tidy { s with threads := s.threads ++ [c], asleep := k } := by
  have hcode := code_append s c k
  refine tidy_of_same hs hs.failed (fun i => ?_) rfl fun i => ?_
  · rw [hcode]
    split
    next => exact hc
    next => exact hs.points i
  · rw [hcode]
    split
    next hi =>
      rw [hi, code_of_le (Nat.le_refl _)]
      exact Or.inr ⟨hp, rfl⟩
    next => exact Or.inl rfl

section

variable {s : Reconnect} {n : Nat} {stmt : Stmt} {rest : List Stmt} {m : Members}

theorem perform_members (he : stmt.effect s.members = some m) :
    (s.perform n stmt rest).members = m := by
  simp [perform, he]

theorem perform_failed (he : stmt.effect s.members = some m) :
    (s.perform n stmt rest).failed = false := by
  simp [perform, he]

theorem perform_points (hs : s.Tidy) (hc : s.code n = stmt :: rest)
    (he : stmt.effect s.members = some m) (hafter : after s.members stmt rest ∈ points) (i : Nat) :
    (s.perform n stmt rest).code i ∈ points := by
  rw [code_perform hc he]
  split
  next => exact hafter
  next => exact hs.points i

/-- The only thread inside `start` or `stop` performs a statement. -/
theorem perform_tidy_of_alone (hs : s.Tidy) (hc : s.code n = stmt :: rest)
    (he : stmt.effect s.members = some m) (hafter : after s.members stmt rest = rest)
    (hothers : ∀ i, i ≠ n → inProgress (s.code i) = false)
    (hbusy : inProgress rest = true → m = expected rest)
    (hidle : inProgress rest = false → Idle m) : (s.perform n stmt rest).Tidy := by
  have hrest : rest ∈ points := by
    have hpoint := hs.points n
    rw [hc] at hpoint
    exact mem_points_tail hpoint
  have hcode : (s.perform n stmt rest).code n = rest := by
    rw [code_perform hc he, if_pos rfl, hafter]
  apply tidy_of_alone (perform_failed he) (perform_points hs hc he (by rwa [hafter]))
    (n := n)
  · intro i hi
    rw [code_perform hc he, if_neg hi]
    exact hothers i hi
  · rw [hcode, perform_members he]
    exact hbusy
  · rw [hcode, perform_members he]
    exact hidle

/-- A thread outside `start` and `stop` performs a statement. -/
theorem perform_tidy_of_quiet (hs : s.Tidy) (hc : s.code n = stmt :: rest)
    (he : stmt.effect s.members = some s.members) (hp : inProgress (stmt :: rest) = false)
    (hafter : after s.members stmt rest ∈ points)
    (hquiet : inProgress (after s.members stmt rest) = false) : (s.perform n stmt rest).Tidy := by
  apply tidy_of_same hs (perform_failed he) (perform_points hs hc he hafter) (perform_members he)
  intro i
  rw [code_perform hc he]
  split
  next hi =>
    rw [hi, hc]
    exact Or.inr ⟨hquiet, hp⟩
  next => exact Or.inl rfl

end

theorem run_tidy {s : Reconnect} {n : Nat} {stmt : Stmt} {rest : List Stmt} (hs : s.Tidy)
    (hc : s.code n = stmt :: rest) (hok : s.Serial (.run n)) : (s.perform n stmt rest).Tidy := by
  have hpoint : stmt :: rest ∈ points := by
    rw [← hc]
    exact hs.points n
  cases hp : inProgress (stmt :: rest) with
  | true =>
    have hothers (i : Nat) (hi : i ≠ n) : inProgress (s.code i) = false := by
      by_contra hother
      exact hi (hs.alone i n (by simpa using hother) (by rw [hc, hp]))
    have hmembers : s.members = expected (stmt :: rest) := by
      rw [← hc]
      exact hs.busy n (by rw [hc, hp])
    obtain ⟨m, he, hbusy, hidle⟩ := effect_advances hpoint hp
    rw [← hmembers] at he
    have hafter : after s.members stmt rest = rest := by
      apply if_neg
      rintro ⟨rfl, _⟩
      cases hp
    exact perform_tidy_of_alone hs hc he hafter hothers hbusy hidle
  | false =>
    have hquiet (ha : s.Alone n) : Idle s.members := by
      apply hs.idle
      intro i
      by_cases hi : i = n
      · rw [hi, hc, hp]
      · exact alone_iff.mp ha i hi
    simp only [Serial, hc] at hok
    cases stmt with
    | clear =>
      obtain ⟨hstopped, ha⟩ := hok
      obtain rfl : rest = Controller.start.tail :=
        congrArg List.tail (start_of_clear _ hpoint rfl)
      have hmembers : s.members = ⟨true, []⟩ := by
        rcases hquiet ha with h | h
        · exact h
        · rw [h] at hstopped
          cases hstopped
      exact perform_tidy_of_alone hs hc (m := ⟨false, []⟩) (by rw [hmembers]; rfl) rfl
        (alone_iff.mp ha) (fun _ => rfl) nofun
    | test =>
      obtain rfl : rest = Controller.lost.tail :=
        congrArg List.tail (lost_of_test _ hpoint rfl)
      cases hstopped : s.members.stopped with
      | true =>
        have hafter : after s.members .test Controller.lost.tail = [.schedule] := by
          rw [after, if_pos ⟨rfl, hstopped⟩]
          rfl
        exact perform_tidy_of_quiet hs hc rfl rfl (by rw [hafter]; decide) (by rw [hafter]; rfl)
      | false =>
        have ha := hok hstopped
        have hmembers : s.members = ⟨false, slots⟩ := by
          rcases hquiet ha with h | h
          · rw [h] at hstopped
            cases hstopped
          · exact h
        have hafter : after s.members .test Controller.lost.tail = Controller.lost.tail := by
          rw [after, if_neg (by simp [hstopped])]
        exact perform_tidy_of_alone hs hc rfl hafter (alone_iff.mp ha) (fun _ => hmembers) nofun
    | schedule =>
      cases end_of_schedule _ hpoint rfl
      have hafter : after s.members .schedule [] = [] := if_neg (by simp)
      exact perform_tidy_of_quiet hs hc rfl rfl (by rw [hafter]; decide) (by rw [hafter]; rfl)
    | _ => cases hp

theorem step_tidy (s : Reconnect) (e : ReconnectEvent) (t : Reconnect) (hs : s.Tidy)
    (hok : s.Serial e) (h : s.step e = some t) : t.Tidy := by
  cases e with
  | lost d =>
    cases of_step_lost h
    exact append_tidy (c := Controller.lost) hs (by decide) rfl s.asleep
  | wake =>
    cases of_step_wake h
    exact append_tidy (c := Controller.start) hs (by decide) rfl _
  | run n =>
    obtain ⟨_, stmt, rest, hc, rfl⟩ := of_step_run h
    exact run_tidy hs hc hok

end Reconnect

end VehicleCloud
