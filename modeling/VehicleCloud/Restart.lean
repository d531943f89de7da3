import VehicleCloud.StartStopSerial
import Mathlib.Algebra.Group.Action.Defs
import Mathlib.Algebra.Order.BigOperators.Group.List
import Mathlib.Algebra.Order.Ring.Nat

namespace VehicleCloud

open Transition

theorem sum_set_add {xs : List Nat} {n : Nat} (v : Nat) (hn : n < xs.length) :
    (xs.set n v).sum + xs[n] = xs.sum + v := by
  have hset (w : Nat) : (xs.set n w).sum = (xs.take n).sum + w + (xs.drop (n + 1)).sum := by
    rw [List.sum_set, if_pos hn]
  have hself := hset xs[n]
  rw [List.set_getElem_self] at hself
  rw [hset v, hself]
  omega

def ReconnectEvent.loses : ReconnectEvent → Bool
  | .lost _ => true
  | .wake | .run _ => false

namespace Reconnect

/-- A thread that will call `start`, or have it called. -/
def Ahead (c : List Stmt) : Prop := c = Controller.start ∨ .schedule ∈ c

/-- A stopped controller is not forgotten. -/
def Remembered (s : Reconnect) : Prop :=
  s.members.stopped = true → 0 < s.asleep ∨ ∃ n, Ahead (s.code n)

theorem schedule_of_mark : ∀ c ∈ points, c.head? = some .mark → .schedule ∈ c := by decide

theorem clear_of_start : ∀ c ∈ points, c = Controller.start → c.head? = some .clear := by decide

theorem ahead_ne_nil {c : List Stmt} (h : Ahead c) : c ≠ [] := by
  rcases h with h | h
  · rw [h]
    exact List.cons_ne_nil _ _
  · exact List.ne_nil_of_mem h

theorem schedule_mem_after {m : Members} {stmt : Stmt} {rest : List Stmt} (h : .schedule ∈ rest) :
    .schedule ∈ after m stmt rest := by
  unfold after
  split
  next =>
    induction rest with
    | nil => cases h
    | cons x xs ih =>
      by_cases hx : x = .schedule
      · simp [hx]
      · have hxs : .schedule ∈ xs := (List.mem_cons.mp h).resolve_left (Ne.symm hx)
        simpa [List.dropWhile_cons, hx] using ih hxs
  next => exact h

theorem after_isSuffix (m : Members) (stmt : Stmt) (rest : List Stmt) :
    after m stmt rest <:+ rest := by
  unfold after
  split
  next => exact List.dropWhile_suffix _
  next => exact List.suffix_refl rest

theorem effect_stopped {stmt : Stmt} {m m' : Members} (he : stmt.effect m = some m')
    (hstopped : m'.stopped = true) : stmt ≠ .clear ∧ (stmt = .mark ∨ m.stopped = true) := by
  cases stmt with
  | clear =>
    cases Option.some.inj he
    cases hstopped
  | mark => exact ⟨by simp, Or.inl rfl⟩
  | spawn t =>
    obtain ⟨_, he⟩ := Option.ite_none_left_eq_some.mp he
    cases Option.some.inj he
    exact ⟨by simp, Or.inr hstopped⟩
  | join t =>
    obtain ⟨_, rfl⟩ := of_guard he
    exact ⟨by simp, Or.inr hstopped⟩
  | _ =>
    cases Option.some.inj he
    exact ⟨by simp, Or.inr hstopped⟩

theorem run_remembered {s : Reconnect} {n : Nat} {stmt : Stmt} {rest : List Stmt} {m : Members}
    (hs : s.Tidy) (hr : s.Remembered) (hc : s.code n = stmt :: rest)
    (he : stmt.effect s.members = some m) : (s.perform n stmt rest).Remembered := by
  intro hstopped
  rw [perform_members he] at hstopped
  have hpoint := hs.points n
  rw [hc] at hpoint
  obtain ⟨hclear, hwas⟩ := effect_stopped he hstopped
  have hasleep : (s.perform n stmt rest).asleep = if stmt = .schedule then s.asleep + 1 else s.asleep := by
    simp [perform, he]
  have hcode := code_perform hc he
  by_cases hschedule : stmt = .schedule
  · rw [hasleep, if_pos hschedule]
    exact Or.inl (Nat.succ_pos _)
  rw [hasleep, if_neg hschedule]
  have hrest (h : .schedule ∈ stmt :: rest) : ∃ i, Ahead ((s.perform n stmt rest).code i) := by
    refine ⟨n, Or.inr ?_⟩
    rw [hcode, if_pos rfl]
    exact schedule_mem_after ((List.mem_cons.mp h).resolve_left (Ne.symm hschedule))
  rcases hwas with hmark | hold
  · exact Or.inr (hrest (schedule_of_mark _ hpoint (by rw [hmark]; rfl)))
  · rcases hr hold with hpos | ⟨i, hi⟩
    · exact Or.inl hpos
    · by_cases hin : i = n
      · rw [hin, hc] at hi
        rcases hi with hstart | hmem
        · exact absurd (Option.some.inj (clear_of_start _ hpoint hstart)) hclear
        · exact Or.inr (hrest hmem)
      · refine Or.inr ⟨i, ?_⟩
        rw [hcode, if_neg hin]
        exact hi

theorem step_remembered {s t : Reconnect} {e : ReconnectEvent} (hs : s.Tidy) (hr : s.Remembered)
    (ht : t.Tidy) (h : s.step e = some t) : t.Remembered := by
  cases e with
  | lost d =>
    cases of_step_lost h
    intro hstopped
    refine (hr hstopped).imp_right ?_
    rintro ⟨i, hi⟩
    refine ⟨i, ?_⟩
    rw [code_append s Controller.lost s.asleep, if_neg (Nat.ne_of_lt (lt_of_code (ahead_ne_nil hi)))]
    exact hi
  | wake =>
    cases of_step_wake h
    refine fun _ => Or.inr ⟨s.threads.length, Or.inl ?_⟩
    rw [code_append, if_pos rfl]
  | run n =>
    obtain ⟨_, stmt, rest, hc, rfl⟩ := of_step_run h
    cases he : stmt.effect s.members with
    | none =>
      have hfailed := ht.failed
      simp [perform, he] at hfailed
    | some m => exact run_remembered hs hr hc he

theorem code_of_lt {s : Reconnect} {n : Nat} (hn : n < s.threads.length) :
    s.code n = s.threads[n] := by
  simp [code, hn]

/-- The statements that a thread has left, and those of the `start` that it schedules. -/
def weight (c : List Stmt) : Nat := c.length + if .schedule ∈ c then 8 else 0

def work (s : Reconnect) : Nat := (s.threads.map weight).sum + 8 * s.asleep

theorem weight_after {m : Members} {stmt : Stmt} {rest : List Stmt} (hc : stmt :: rest ∈ points) :
    weight (after m stmt rest) + 1 + (if stmt = .schedule then 8 else 0) ≤ weight (stmt :: rest) := by
  by_cases hschedule : stmt = .schedule
  · subst hschedule
    cases end_of_schedule _ hc rfl
    have hafter : after m .schedule [] = [] := if_neg (by simp)
    rw [hafter]
    decide
  · have hle := (after_isSuffix m stmt rest).length_le
    have hsub := (after_isSuffix m stmt rest).subset
    rw [if_neg hschedule]
    unfold weight
    by_cases hmem : .schedule ∈ after m stmt rest
    · rw [if_pos hmem, if_pos (List.mem_cons_of_mem _ (hsub hmem)), List.length_cons]
      omega
    · rw [if_neg hmem, List.length_cons]
      omega

theorem step_work {s t : Reconnect} {e : ReconnectEvent} (hs : s.Tidy) (ht : t.Tidy)
    (hok : e.loses = false) (h : s.step e = some t) : t.work + 1 ≤ s.work := by
  cases e with
  | lost d => cases hok
  | wake =>
    have hpos : 0 < s.asleep := by
      by_contra hzero
      simp [step, hs.failed, hzero] at h
    cases of_step_wake h
    have hstart : weight Controller.start = 7 := by decide
    simp only [work, List.map_append, List.map_cons, List.map_nil, List.sum_append, List.sum_cons,
      List.sum_nil, hstart]
    omega
  | run n =>
    obtain ⟨_, stmt, rest, hc, rfl⟩ := of_step_run h
    have hlt : n < s.threads.length := lt_of_code (by rw [hc]; exact List.cons_ne_nil _ _)
    have hpoint := hs.points n
    rw [hc] at hpoint
    have hthread : s.threads[n] = stmt :: rest := by
      rw [← hc, code_of_lt hlt]
    cases he : stmt.effect s.members with
    | none =>
      have hfailed := ht.failed
      simp [perform, he] at hfailed
    | some m =>
      have hweight := weight_after (m := s.members) hpoint
      have hmapped : n < (s.threads.map weight).length := by rwa [List.length_map]
      have hsum := sum_set_add (weight (after s.members stmt rest)) hmapped
      rw [List.getElem_map, hthread, ← List.map_set] at hsum
      simp only [work, perform, he]
      split at hweight <;> simp_all <;> omega

theorem weight_le : ∀ c ∈ points, weight c ≤ 19 := by decide

theorem work_le {s : Reconnect} (hs : s.Tidy) : s.work ≤ 19 * s.threads.length + 8 * s.asleep := by
  have hall : ∀ w ∈ s.threads.map weight, w ≤ 19 := by
    intro w hw
    obtain ⟨c, hc, rfl⟩ := List.mem_map.mp hw
    obtain ⟨n, hn, rfl⟩ := List.getElem_of_mem hc
    have hpoint := hs.points n
    rw [code_of_lt hn] at hpoint
    exact weight_le _ hpoint
  have hsum := List.sum_le_card_nsmul _ _ hall
  rw [List.length_map, smul_eq_mul] at hsum
  simp only [work]
  omega

/-- As long as the controller does not run, a call goes on or the `start` that is ahead comes. -/
theorem goes_on {s : Reconnect} (hs : s.Tidy) (hr : s.Remembered)
    (hn : s.members ≠ ⟨false, slots⟩) :
    ∃ e t, s.Serial e ∧ e.loses = false ∧ s.step e = some t := by
  by_cases hbusy : ∃ n, inProgress (s.code n) = true
  · obtain ⟨n, hp⟩ := hbusy
    cases hc : s.code n with
    | nil =>
      rw [hc] at hp
      cases hp
    | cons stmt rest =>
      refine ⟨.run n, _, ?_, rfl, step_run hs.failed hc⟩
      rw [hc] at hp
      simp only [Serial, hc]
      -- a call in progress is past its first statement
      cases stmt with
      | clear => cases hp
      | test => cases hp
      | _ => trivial
  · have hquiet (n : Nat) : inProgress (s.code n) = false := by simpa using fun h => hbusy ⟨n, h⟩
    have hstopped : s.members.stopped = true := by
      rcases hs.idle hquiet with h | h
      · rw [h]
      · exact absurd h hn
    rcases hr hstopped with hpos | ⟨n, hahead⟩
    · refine ⟨.wake, { s with
        threads := s.threads ++ [Controller.start], asleep := s.asleep - 1 }, trivial, rfl, ?_⟩
      simp [step, hs.failed, hpos]
    · cases hc : s.code n with
      | nil => exact absurd hc (ahead_ne_nil hahead)
      | cons stmt rest =>
        refine ⟨.run n, _, ?_, rfl, step_run hs.failed hc⟩
        simp only [Serial, hc]
        split
        next => exact ⟨hstopped, alone_iff.mpr fun i _ => hquiet i⟩
        next => exact fun h => absurd (hstopped.symm.trans h) (by simp)
        next => trivial

/-- The next statement of the thread is a `join`, which may have to wait. -/
def atJoin (s : Reconnect) : ReconnectEvent → Bool
  | .run n =>
    match (s.code n).head? with
    | some (.join _) => true
    | _ => false
  | .lost _ | .wake => false

/-- The last statement of a callback, the delayed thread, and its `start`. -/
def restarting : List ReconnectEvent := [.run 1, .wake] ++ List.replicate 7 (.run 2)

end Reconnect

end VehicleCloud
