import Mathlib.Tactic.Common

namespace Transition

variable {σ ε : Type} {step : σ → ε → Option σ} {ok : σ → ε → Prop} {s t : σ} {es : List ε}

/-- A run from one state to another whose every step meets `ok` in the state it is taken in. -/
inductive Run (step : σ → ε → Option σ) (ok : σ → ε → Prop) : σ → List ε → σ → Prop
  | refl (s : σ) : Run step ok s [] s
  | cons {s t u : σ} {e : ε} {es : List ε} (hok : ok s e) (hstep : step s e = some t)
      (rest : Run step ok t es u) : Run step ok s (e :: es) u

abbrev AnyRun (step : σ → ε → Option σ) : σ → List ε → σ → Prop := Run step fun _ _ => True

theorem Run.invariant {I : σ → Prop} (hs : I s)
    (hstep : ∀ s e t, I s → ok s e → step s e = some t → I t) (h : Run step ok s es t) : I t := by
  induction h with
  | refl => exact hs
  | cons hok he _ ih => exact ih (hstep _ _ _ hs hok he)

theorem Run.imp {ok' : σ → ε → Prop} (himp : ∀ s e, ok s e → ok' s e) (h : Run step ok s es t) :
    Run step ok' s es t := by
  induction h with
  | refl s => exact Run.refl s
  | cons hok he _ ih => exact Run.cons (himp _ _ hok) he ih

/-- A second condition that the listed events meet in any state. -/
theorem Run.and (ok' : σ → ε → Prop) (h : Run step ok s es t) (hes : ∀ e ∈ es, ∀ s, ok' s e) :
    Run step (fun s e => ok s e ∧ ok' s e) s es t := by
  induction h with
  | refl s => exact Run.refl s
  | cons hok he _ ih =>
    exact Run.cons ⟨hok, hes _ List.mem_cons_self _⟩ he
      (ih fun e hmem => hes e (List.mem_cons_of_mem _ hmem))

theorem Run.append {u : σ} {fs : List ε} (h : Run step ok s es t) (hrest : Run step ok t fs u) :
    Run step ok s (es ++ fs) u := by
  induction h with
  | refl => exact hrest
  | cons hok he _ ih => exact Run.cons hok he (ih hrest)

/-- Forward simulation: a step of the first system is a run of the second, and `R` carries on. -/
theorem Run.simulate {τ φ : Type} {step' : τ → φ → Option τ} {ok' : τ → φ → Prop} {a : τ}
    {R : σ → τ → Prop}
    (hstep : ∀ s e t a, R s a → ok s e → step s e = some t →
      ∃ fs b, Run step' ok' a fs b ∧ R t b)
    (h : Run step ok s es t) (hs : R s a) : ∃ fs b, Run step' ok' a fs b ∧ R t b := by
  induction h generalizing a with
  | refl s => exact ⟨[], a, Run.refl a, hs⟩
  | cons hok he _ ih =>
    obtain ⟨fs, b, hfirst, hb⟩ := hstep _ _ _ _ hs hok he
    obtain ⟨gs, c, hrest, hc⟩ := ih hb
    exact ⟨fs ++ gs, c, hfirst.append hrest, hc⟩

theorem Run.single {e : ε} (hok : ok s e) (h : step s e = some t) : Run step ok s [e] t :=
  Run.cons hok h (Run.refl t)

/-- Each counted step uses up some of `μ`, and no step adds to it. -/
theorem Run.count_le {I : σ → Prop} {μ : σ → Nat} {counts : ε → Bool} (hs : I s)
    (hstep : ∀ s e t, I s → ok s e → step s e = some t →
      I t ∧ μ t + (if counts e then 1 else 0) ≤ μ s)
    (h : Run step ok s es t) : es.countP counts + μ t ≤ μ s := by
  induction h with
  | refl s => simp
  | cons hok he _ ih =>
    obtain ⟨ht, hle⟩ := hstep _ _ _ hs hok he
    have hrest := ih ht
    rw [List.countP_cons]
    omega

/-- A step costs no more than the credit it brings, but for those that are counted, which may cost
`k` more. -/
theorem Run.amortized {I : σ → Prop} {cost credit : σ → Nat} {counts : ε → Bool} {k : Nat} (hs : I s)
    (hstep : ∀ s e t, I s → ok s e → step s e = some t →
      I t ∧ cost t + credit s ≤ cost s + credit t + (if counts e then k else 0))
    (h : Run step ok s es t) :
    I t ∧ cost t + credit s ≤ cost s + credit t + k * es.countP counts := by
  induction h with
  | refl s => exact ⟨hs, Nat.le_add_right _ _⟩
  | cons hok he _ ih =>
    obtain ⟨ht, hle⟩ := hstep _ _ _ hs hok he
    obtain ⟨hu, hrest⟩ := ih ht
    refine ⟨hu, ?_⟩
    rw [List.countP_cons, Nat.mul_add]
    split at hle
    next hc =>
      simp only [hc, ↓reduceIte] at hrest ⊢
      omega
    next hc =>
      simp only [hc, Bool.false_eq_true, ↓reduceIte] at hrest ⊢
      omega

/-- The inversion of a step that has a guard and one outcome. -/
theorem of_guard {c : Prop} [Decidable c] {a b : σ} (h : (if c then some a else none) = some b) :
    c ∧ a = b := by
  obtain ⟨hc, h⟩ := Option.ite_none_right_eq_some.mp h
  exact ⟨hc, Option.some.inj h⟩

/-- The state that the listed events lead to, when each of them can happen and meets `ok`. -/
def exec (step : σ → ε → Option σ) (ok : σ → ε → Prop) [∀ s e, Decidable (ok s e)] :
    σ → List ε → Option σ
  | s, [] => some s
  | s, e :: es => if ok s e then (step s e).bind (exec step ok · es) else none

theorem run_of_exec [∀ s e, Decidable (ok s e)] (h : exec step ok s es = some t) :
    Run step ok s es t := by
  induction es generalizing s with
  | nil =>
    cases Option.some.inj h
    exact Run.refl _
  | cons e es ih =>
    obtain ⟨hok, h⟩ := Option.ite_none_right_eq_some.mp h
    obtain ⟨u, he, hrest⟩ := Option.bind_eq_some_iff.mp h
    exact Run.cons hok he (ih hrest)

theorem exists_run [∀ s e, Decidable (ok s e)] {P : σ → Prop} [DecidablePred P]
    (h : (exec step ok s es).any (fun t => decide (P t)) = true) :
    ∃ t, Run step ok s es t ∧ P t := by
  rw [Option.any_eq_true] at h
  obtain ⟨t, ht, hp⟩ := h
  exact ⟨t, run_of_exec ht, of_decide_eq_true hp⟩

end Transition
