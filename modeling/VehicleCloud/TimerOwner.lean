import VehicleCloud.Timer

namespace VehicleCloud

open Transition Custody

namespace Timers

variable {ω : Type} [DecidableEq ω]

/-- A timer is created for an object that owns none, `settime` fails only under a cleared flag, and
an object with a cleared flag owns a timer when it is stopped or destroyed. -/
def Orderly (s : Timers ω) : TimerEvent ω → Prop
  | .start o r => r.created ≠ none →
    s.ledger.held o = [] ∧ ((s.object o).stopped = true → r.failed = false)
  | .stop o => (s.object o).stopped = false → s.ledger.held o ≠ []
  | .destroy o => (s.object o).stopped = false → s.ledger.held o ≠ []

instance (s : Timers ω) (e : TimerEvent ω) : Decidable (s.Orderly e) :=
  match e with
  | .start _ _ => inferInstanceAs (Decidable (_ → _))
  | .stop _ => inferInstanceAs (Decidable (_ → _))
  | .destroy _ => inferInstanceAs (Decidable (_ → _))

/-- No fault so far, and the object knows the one timer it owns. -/
structure Owned (s : Timers ω) : Prop where
  faultless : s.ledger.faults = []
  known : ∀ o, s.ledger.held o = [] ∨
    s.ledger.held o = [(s.object o).timer] ∧ (s.object o).stopped = false

theorem new_owned {s : Timers ω} (hs : s.New) : s.Owned := by
  constructor
  · rw [hs.ledger]
    rfl
  · intro o
    rw [hs.ledger]
    exact Or.inl rfl

theorem start_owned {s : Timers ω} {o : ω} {r : TimerStart} {id : Nat} (hs : s.Owned)
    (hid : s.ledger.Free id) (hr : r.created = some id) (hheld : s.ledger.held o = [])
    (hset : (s.object o).stopped = true → r.failed = false) :
    Owned ⟨Function.update s.object o ((s.object o).start r).1, s.ledger.create o id hid⟩ := by
  refine ⟨hs.faultless, fun p => ?_⟩
  simp only [Ledger.held_create]
  by_cases hp : o = p
  · subst hp
    rw [if_pos rfl, hheld, Function.update_self, Timer.start_timer _ hr]
    refine Or.inr ⟨rfl, ?_⟩
    cases r with
    | noTimer => cases hr
    | notSet _ =>
      by_contra hstopped
      cases hset (by simpa [Timer.start] using hstopped)
    | set _ => rfl
  · rw [if_neg hp, Function.update_of_ne (Ne.symm hp)]
    exact hs.known p

theorem stop_owned {s : Timers ω} {o : ω} (hs : s.Owned)
    (hheld : (s.object o).stopped = false → s.ledger.held o ≠ []) :
    Owned { s with ledger := (s.stop o).1.settle o } := by
  cases hstopped : (s.object o).stopped with
  | true =>
    have hnone : s.ledger.held o = [] :=
      (hs.known o).resolve_right fun h => by simp [hstopped] at h
    rw [stop_of_stopped hstopped]
    refine ⟨?_, hs.known⟩
    exact (Ledger.settle_faults_of_nil hnone).trans hs.faultless
  | false =>
    obtain ⟨hone, _⟩ := (hs.known o).resolve_left (hheld hstopped)
    have hmem : (s.object o).timer ∈ s.ledger.held o := by simp [hone]
    have hafter : (s.ledger.release o (s.object o).timer).held o = [] := by
      simp [Ledger.held_release, hone]
    rw [stop_of_running hstopped]
    refine ⟨?_, fun p => ?_⟩
    · rw [Ledger.settle_faults_of_nil hafter, Ledger.release_faults_of_mem hmem, hs.faultless]
    · rw [Ledger.held_settle]
      by_cases hp : p = o
      · subst hp
        exact Or.inl hafter
      · rw [Ledger.held_release_other hmem hp]
        exact hs.known p

theorem step_owned (s : Timers ω) (e : TimerEvent ω) (t : Timers ω) (hs : s.Owned)
    (hok : s.Orderly e) (h : s.step e = some t) : t.Owned := by
  cases e with
  | start o r =>
    obtain ⟨_, ⟨_, rfl⟩ | ⟨id, hid, hr, rfl⟩⟩ := of_step_start h
    · exact hs
    · obtain ⟨hheld, hset⟩ := hok (by rw [hr]; nofun)
      exact start_owned hs hid hr hheld hset
  | stop o =>
    cases of_step_stop h
    exact stop_owned hs hok
  | destroy o =>
    cases of_step_destroy h
    have hstop := stop_owned hs hok
    refine ⟨hstop.faultless, fun p => ?_⟩
    have hp := hstop.known p
    by_cases hpo : p = o
    · subst hpo
      simpa using hp
    · simpa [Function.update_of_ne hpo] using hp

theorem stop_leaks {s : Timers ω} {o : ω} {k : Nat} (hk : k ∈ s.ledger.held o)
    (hmiss : (s.object o).stopped = true ∨ k ≠ (s.object o).timer) :
    ((s.stop o).1.settle o).faults ≠ [] := by
  cases hstopped : (s.object o).stopped with
  | true =>
    rw [stop_of_stopped hstopped]
    exact Ledger.settle_faults_of_mem hk
  | false =>
    rw [stop_of_running hstopped]
    have hne := hmiss.resolve_left (by simp [hstopped])
    exact Ledger.settle_faults_of_mem (Ledger.mem_held_release hk hne)

/-- An object without a timer deletes what its old id stands for now. -/
theorem stop_misuses {s : Timers ω} {o : ω} (hstopped : (s.object o).stopped = false)
    (hheld : (s.object o).timer ∉ s.ledger.held o) :
    .misuse o (s.object o).timer :: s.ledger.faults <:+ ((s.stop o).1.settle o).faults := by
  rw [stop_of_running hstopped, ← Ledger.release_faults_of_not_mem hheld]
  exact Ledger.faults_settle _ o

theorem fault_of_start {s : Timers ω} {o : ω} {r : TimerStart} {id : Nat}
    (hd : (s.object o).destroyed = false) (hid : s.ledger.Free id) (hr : r.created = some id)
    (hn : s.ledger.held o ≠ [] ∨ (s.object o).stopped = true ∧ r.failed = true) :
    ∃ v, step ⟨Function.update s.object o ((s.object o).start r).1, s.ledger.create o id hid⟩
      (.stop o) = some v ∧ v.ledger.faults ≠ [] := by
  refine ⟨_, by simp only [step, Function.update_self, Timer.start_destroyed, hd]; rfl, ?_⟩
  rcases hn with hheld | ⟨hstopped, hfailed⟩
  · obtain ⟨k, hk⟩ := List.exists_mem_of_ne_nil _ hheld
    apply stop_leaks (k := k)
    · simp [Ledger.held_create, hk]
    · refine Or.inr ?_
      simp only [Function.update_self, Timer.start_timer _ hr]
      rintro rfl
      exact Ledger.not_mem_held_of_free hid hk
  · apply stop_leaks (k := id)
    · simp [Ledger.held_create]
    · refine Or.inl ?_
      simp only [Function.update_self]
      cases r with
      | noTimer => cases hr
      | notSet _ => exact hstopped
      | set _ => cases hfailed

theorem fault_of_not_orderly {s t : Timers ω} {e : TimerEvent ω} (hn : ¬s.Orderly e)
    (h : s.step e = some t) : ∃ fs v, AnyRun step t fs v ∧ v.ledger.faults ≠ [] := by
  cases e with
  | start o r =>
    simp only [Orderly, not_forall, not_and_or, Bool.not_eq_false, exists_prop] at hn
    obtain ⟨hsome, hn⟩ := hn
    obtain ⟨hd, ⟨hnone, _⟩ | ⟨id, hid, hr, rfl⟩⟩ := of_step_start h
    · exact absurd hnone hsome
    · obtain ⟨v, hv, hfault⟩ := fault_of_start hd hid hr hn
      exact ⟨[.stop o], v, Run.cons trivial hv (Run.refl _), hfault⟩
  | stop o =>
    simp only [Orderly, not_forall, not_not] at hn
    obtain ⟨hstopped, hheld⟩ := hn
    cases of_step_stop h
    have hmisuse := stop_misuses hstopped (by simp [hheld])
    exact ⟨[], _, Run.refl _, hmisuse.ne_nil (List.cons_ne_nil _ _)⟩
  | destroy o =>
    simp only [Orderly, not_forall, not_not] at hn
    obtain ⟨hstopped, hheld⟩ := hn
    cases of_step_destroy h
    have hmisuse := stop_misuses hstopped (by simp [hheld])
    exact ⟨[], _, Run.refl _, hmisuse.ne_nil (List.cons_ne_nil _ _)⟩

/-- In every orderly run each `timer_delete` hits a live timer of the same object, and `stop` and
the destructor leave it none; from the first step that is not orderly a fault follows. -/
theorem timers_stay_with_owner {s t : Timers ω} {es : List (TimerEvent ω)} (hs : s.New)
    (hrun : Run step Orderly s es t) :
    t.ledger.faults = [] ∧
    ∀ e u, ¬t.Orderly e → t.step e = some u →
      ∃ fs v, AnyRun step u fs v ∧ v.ledger.faults ≠ [] := by
  refine ⟨?_, fun e u hn h => fault_of_not_orderly hn h⟩
  exact (hrun.invariant (new_owned hs) step_owned).faultless

/-- Two objects, and a kernel that gives the first id out again. -/
def fresh : Timers Bool := ⟨fun _ => ⟨true, 0, false⟩, .empty⟩

theorem fresh_new : fresh.New := ⟨fun _ => rfl, rfl⟩

theorem timers_stay_with_owner_reused_id :
    ∃ t, Run step Orderly fresh [.start false (.set 7), .stop false, .start true (.set 7),
        .start false (.notSet 8), .stop false, .destroy true] t ∧
      t.ledger.live = [] ∧ t.ledger.faults = [] := by
  obtain ⟨t, hrun, hlive⟩ : ∃ t, Run step Orderly fresh [.start false (.set 7), .stop false,
      .start true (.set 7), .start false (.notSet 8), .stop false, .destroy true] t ∧
      t.ledger.live = [] := exists_run (by decide)
  exact ⟨t, hrun, hlive, (timers_stay_with_owner fresh_new hrun).1⟩

/-- A started and stopped object deletes its id again when it is destroyed; by then it is the id
of the other object's timer. -/
theorem destructor_deletes_foreign_timer :
    ¬ ∀ es t, AnyRun step fresh es t → t.ledger.faults = [] := by
  intro h
  obtain ⟨t, hrun, hfault⟩ : ∃ t, AnyRun step fresh [.start false (.set 7), .stop false,
      .start true (.set 7), .destroy false] t ∧ t.ledger.faults ≠ [] := exists_run (by decide)
  exact hfault (h _ t hrun)

end Timers

end VehicleCloud
