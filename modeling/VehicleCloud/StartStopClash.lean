import VehicleCloud.StartStopSerial

namespace VehicleCloud

open Transition

namespace Reconnect

/-- The statements of one thread after the other, with nobody else in between. -/
def runAlone : List Stmt → Members → Option Members
  | [], m => some m
  | stmt :: rest, m => (stmt.effect m).bind (runAlone rest)

/-- A second `start` beside a thread inside `start` or `stop`: one of the two fails. -/
theorem start_clashes : ∀ c ∈ points, inProgress c = true →
    (runAlone Controller.start.tail { expected c with stopped := false }).bind (runAlone c) = none := by
  decide

/-- A `stop` that read `stopped` beside a thread that had not set it yet. -/
theorem stop_clashes : ∀ c ∈ points, inProgress c = true → (expected c).stopped = false →
    (runAlone Controller.lost.tail (expected c)).bind (runAlone c) = none := by
  decide

theorem started_start_clashes : runAlone Controller.start.tail ⟨false, slots⟩ = none := by decide

theorem test_not_mem : ∀ c ∈ points, inProgress c = true → Stmt.test ∉ c := by decide

theorem run_step {s : Reconnect} {n : Nat} {stmt : Stmt} {rest : List Stmt} {m : Members}
    (hf : s.failed = false) (hc : s.code n = stmt :: rest) (ht : stmt ≠ .test)
    (he : stmt.effect s.members = some m) :
    ∃ t, s.step (.run n) = some t ∧ t.failed = false ∧ t.members = m ∧ t.code n = rest ∧
      ∀ i, i ≠ n → t.code i = s.code i := by
  refine ⟨_, step_run hf hc, perform_failed he, perform_members he, ?_, fun i hi => ?_⟩
  · rw [code_perform hc he, if_pos rfl, after, if_neg fun h => ht h.1]
  · rw [code_perform hc he, if_neg hi]

theorem run_alone {c : List Stmt} {s : Reconnect} {n : Nat} (hf : s.failed = false)
    (hc : s.code n = c) (ht : Stmt.test ∉ c) :
    ∃ es t, AnyRun step s es t ∧
      (runAlone c s.members = none ∧ t.failed = true ∨
        runAlone c s.members = some t.members ∧ t.failed = false ∧
          ∀ i, i ≠ n → t.code i = s.code i) := by
  induction c generalizing s with
  | nil => exact ⟨[], s, Run.refl s, Or.inr ⟨rfl, hf, fun _ _ => rfl⟩⟩
  | cons stmt rest ih =>
    rw [List.mem_cons, not_or] at ht
    cases he : stmt.effect s.members with
    | none =>
      refine ⟨[.run n], s.perform n stmt rest, Run.cons trivial (step_run hf hc) (Run.refl _),
        Or.inl ⟨by rw [runAlone, he]; rfl, ?_⟩⟩
      simp [perform, he]
    | some m =>
      obtain ⟨t, hstep, hft, hm, hct, hothers⟩ := run_step hf hc (Ne.symm ht.1) he
      obtain ⟨es, u, hrun, hu⟩ := ih hft hct ht.2
      rw [hm] at hu
      refine ⟨.run n :: es, u, Run.cons trivial hstep hrun, ?_⟩
      rw [runAlone, he, Option.bind_some]
      rcases hu with hfail | ⟨hmembers, hfu, hkeep⟩
      · exact Or.inl hfail
      · exact Or.inr ⟨hmembers, hfu, fun i hi => (hkeep i hi).trans (hothers i hi)⟩

/-- Two threads that cannot both go on to their ends. -/
theorem fails_of_clash {s : Reconnect} {n i : Nat} {c d : List Stmt} (hf : s.failed = false)
    (hne : i ≠ n) (hn : s.code n = c) (hi : s.code i = d) (htn : Stmt.test ∉ c)
    (hti : Stmt.test ∉ d) (hclash : (runAlone c s.members).bind (runAlone d) = none) :
    ∃ es t, AnyRun step s es t ∧ t.failed = true := by
  obtain ⟨es, t, hrun, ⟨_, hfail⟩ | ⟨hm, hft, hkeep⟩⟩ := run_alone hf hn htn
  · exact ⟨es, t, hrun, hfail⟩
  · obtain ⟨fs, u, hrest, ⟨_, hfail⟩ | ⟨hmu, _⟩⟩ := run_alone hft ((hkeep i hne).trans hi) hti
    · exact ⟨es ++ fs, u, hrun.append hrest, hfail⟩
    · rw [hm, Option.bind_some, hmu] at hclash
      cases hclash

section

variable {s t : Reconnect} {n : Nat} {rest : List Stmt}

theorem exists_other (hn : ¬s.Alone n) : ∃ i, i ≠ n ∧ inProgress (s.code i) = true := by
  rw [alone_iff] at hn
  simp only [not_forall, Bool.not_eq_false, exists_prop] at hn
  exact hn

theorem start_fails (hs : s.Tidy) (hc : s.code n = .clear :: rest)
    (hn : ¬(s.members.stopped = true ∧ s.Alone n)) :
    ∃ es t, AnyRun step (s.perform n .clear rest) es t ∧ t.failed = true := by
  have hpoint := hs.points n
  rw [hc] at hpoint
  obtain rfl : rest = Controller.start.tail := congrArg List.tail (start_of_clear _ hpoint rfl)
  have he : Stmt.effect s.members .clear = some { s.members with stopped := false } := rfl
  have hcode : (s.perform n .clear Controller.start.tail).code n = Controller.start.tail := by
    rw [code_perform hc he, if_pos rfl]
    rfl
  have hmembers : (s.perform n .clear Controller.start.tail).members =
      { s.members with stopped := false } := perform_members he
  by_cases ha : s.Alone n
  · have hidle : Idle s.members := by
      apply hs.idle
      intro i
      by_cases hi : i = n
      · rw [hi, hc]
        rfl
      · exact alone_iff.mp ha i hi
    have hall : s.members = ⟨false, slots⟩ := by
      rcases hidle with h | h
      · exact absurd ⟨by rw [h], ha⟩ hn
      · exact h
    obtain ⟨es, t, hrun, ⟨_, hfail⟩ | ⟨hm, _⟩⟩ := run_alone (perform_failed he) hcode (by decide)
    · exact ⟨es, t, hrun, hfail⟩
    · rw [hmembers, hall, started_start_clashes] at hm
      cases hm
  · obtain ⟨i, hi, hp⟩ := exists_other ha
    have hother : (s.perform n .clear Controller.start.tail).code i = s.code i := by
      rw [code_perform hc he, if_neg hi]
    apply fails_of_clash (perform_failed he) hi hcode hother (by decide)
      (test_not_mem _ (hs.points i) hp)
    rw [hmembers, hs.busy i hp]
    exact start_clashes _ (hs.points i) hp

theorem stop_fails (hs : s.Tidy) (hc : s.code n = .test :: rest)
    (hstopped : s.members.stopped = false) (ha : ¬s.Alone n) :
    ∃ es t, AnyRun step (s.perform n .test rest) es t ∧ t.failed = true := by
  have hpoint := hs.points n
  rw [hc] at hpoint
  obtain rfl : rest = Controller.lost.tail := congrArg List.tail (lost_of_test _ hpoint rfl)
  have he : Stmt.effect s.members .test = some s.members := rfl
  have hcode : (s.perform n .test Controller.lost.tail).code n = Controller.lost.tail := by
    rw [code_perform hc he, if_pos rfl, after, if_neg (by simp [hstopped])]
  obtain ⟨i, hi, hp⟩ := exists_other ha
  have hother : (s.perform n .test Controller.lost.tail).code i = s.code i := by
    rw [code_perform hc he, if_neg hi]
  apply fails_of_clash (perform_failed he) hi hcode hother (by decide)
    (test_not_mem _ (hs.points i) hp)
  rw [perform_members he, hs.busy i hp]
  refine stop_clashes _ (hs.points i) hp ?_
  rw [← hs.busy i hp, hstopped]

end

theorem fails_of_not_serial {s t : Reconnect} {e : ReconnectEvent} (hs : s.Tidy)
    (hn : ¬s.Serial e) (h : s.step e = some t) : ∃ fs u, AnyRun step t fs u ∧ u.failed = true := by
  cases e with
  | lost d => exact absurd trivial hn
  | wake => exact absurd trivial hn
  | run n =>
    obtain ⟨_, stmt, rest, hc, rfl⟩ := of_step_run h
    simp only [Serial, hc] at hn
    cases stmt with
    | clear => exact start_fails hs hc hn
    | test =>
      rw [Classical.not_imp] at hn
      exact stop_fails hs hc hn.1 hn.2
    | _ => exact absurd trivial hn

/-- As long as `start` and `stop` come one at a time no join fails and no joinable member is
assigned to; the first call that does not wait for its turn can end the program. -/
theorem start_stop_never_fail {s : Reconnect} {es : List ReconnectEvent}
    (hrun : Run step Serial initial es s) :
    s.failed = false ∧
    ∀ e t, ¬s.Serial e → s.step e = some t → ∃ fs u, AnyRun step t fs u ∧ u.failed = true := by
  have hs : s.Tidy := hrun.invariant initial_tidy step_tidy
  exact ⟨hs.failed, fun e t hn h => fails_of_not_serial hs hn h⟩

/-- `start` in `main`, a lost connection upstream, `stop`, and the delayed `start`. -/
def oneReconnect : List ReconnectEvent :=
  List.replicate 7 (.run 0) ++ [.lost .up] ++ List.replicate 11 (.run 1) ++ [.wake] ++
    List.replicate 7 (.run 2)

theorem start_stop_never_fail_reconnected :
    ∃ s, Run step Serial initial oneReconnect s ∧ s.members = ⟨false, slots⟩ ∧ s.failed = false := by
  obtain ⟨s, hrun, hm⟩ : ∃ s, Run step Serial initial oneReconnect s ∧ s.members = ⟨false, slots⟩ :=
    exists_run (by decide)
  exact ⟨s, hrun, hm, (start_stop_never_fail hrun).1⟩

/-- Both sockets lose the peer. The second `stop` returns early, two starts are scheduled, and the
second one assigns to a joinable thread. -/
def twoRestarts : List ReconnectEvent :=
  List.replicate 7 (.run 0) ++ [.lost .up, .lost .down, .run 1, .run 1, .run 2, .run 2] ++
    List.replicate 9 (.run 1) ++ [.wake, .wake] ++ List.replicate 7 (.run 3) ++
    List.replicate 3 (.run 4)

theorem second_restart_terminates :
    ¬ ∀ es s, AnyRun step initial es s → s.failed = false := by
  intro h
  obtain ⟨s, hrun, hfail⟩ : ∃ s, AnyRun step initial twoRestarts s ∧ s.failed = true :=
    exists_run (by decide)
  rw [h _ s hrun] at hfail
  cases hfail

end Reconnect

end VehicleCloud
