import VehicleCloud.Runs

/-- A queue and the connection behind it: what was offered so far, what is still queued, what is on
its way, and what has arrived. -/
structure Channel (α : Type) where
  offered : List α
  queued : List α
  flying : List α
  delivered : List α

namespace Channel

open Transition

variable {α : Type}

inductive Event (α : Type) where
  | put (a : α)
  | transmit
  | drop -- the next one leaves the queue and is not transmitted
  | deliver (missed : Nat) -- the next one arrives, and those right behind it never will
  | cut -- what is on its way is lost

def initial : Channel α := ⟨[], [], [], []⟩

def step (s : Channel α) : Event α → Option (Channel α)
  | .put a => some { s with offered := s.offered ++ [a], queued := s.queued ++ [a] }
  | .transmit =>
    match s.queued with
    | [] => none
    | a :: rest => some { s with queued := rest, flying := s.flying ++ [a] }
  | .drop =>
    match s.queued with
    | [] => none
    | _ :: rest => some { s with queued := rest }
  | .deliver missed =>
    match s.flying with
    | [] => none
    | a :: rest => some { s with flying := rest.drop missed, delivered := s.delivered ++ [a] }
  | .cut => some { s with flying := [] }

/-- A step that loses nothing. -/
def Keeps (_ : Channel α) : Event α → Prop
  | .put _ | .transmit => True
  | .deliver missed => missed = 0
  | .drop | .cut => False

/-- Everything that has arrived or still may, the oldest first. -/
def carried (s : Channel α) : List α := s.delivered ++ (s.flying ++ s.queued)

theorem step_carried {s t : Channel α} {e : Event α} (hs : s.carried.Sublist s.offered)
    (h : s.step e = some t) : t.carried.Sublist t.offered := by
  cases e with
  | put a =>
    cases Option.some.inj h
    simpa [carried] using hs.append (List.Sublist.refl [a])
  | transmit =>
    simp only [step] at h
    split at h
    next => cases h
    next a rest hq =>
      cases Option.some.inj h
      simpa [carried, hq] using hs
  | drop =>
    simp only [step] at h
    split at h
    next => cases h
    next a rest hq =>
      cases Option.some.inj h
      have hless : (s.delivered ++ (s.flying ++ rest)).Sublist s.carried := by
        rw [carried, hq]
        exact (List.Sublist.refl _).append ((List.Sublist.refl _).append (List.sublist_cons_self _ _))
      exact hless.trans hs
  | deliver missed =>
    simp only [step] at h
    split at h
    next => cases h
    next a rest hf =>
      cases Option.some.inj h
      have hless : (s.delivered ++ [a] ++ (rest.drop missed ++ s.queued)).Sublist s.carried := by
        rw [carried, hf, List.append_assoc, List.singleton_append, List.cons_append]
        exact (List.Sublist.refl _).append
          (((List.drop_sublist _ _).append (List.Sublist.refl _)).cons_cons a)
      exact hless.trans hs
  | cut =>
    cases Option.some.inj h
    have hless : (s.delivered ++ ([] ++ s.queued)).Sublist s.carried :=
      (List.Sublist.refl _).append ((List.nil_sublist _).append (List.Sublist.refl _))
    exact hless.trans hs

/-- What is newly offered is all that changes. -/
theorem step_keeps {s t : Channel α} {e : Event α} (hok : s.Keeps e) (h : s.step e = some t) :
    ∃ new, t.offered = s.offered ++ new ∧ t.carried = s.carried ++ new := by
  cases e with
  | put a =>
    cases Option.some.inj h
    exact ⟨[a], rfl, by simp only [carried, List.append_assoc]⟩
  | transmit =>
    simp only [step] at h
    split at h
    next => cases h
    next a rest hq =>
      cases Option.some.inj h
      exact ⟨[], by simp, by simp [carried, hq]⟩
  | deliver missed =>
    have hzero : missed = 0 := hok
    subst hzero
    simp only [step] at h
    split at h
    next => cases h
    next a rest hf =>
      cases Option.some.inj h
      exact ⟨[], by simp, by simp [carried, hf]⟩
  | drop => exact False.elim hok
  | cut => exact False.elim hok

theorem run_keeps {s t : Channel α} {es : List (Event α)} (hrun : Run step Keeps s es t) :
    ∃ new, t.offered = s.offered ++ new ∧ t.carried = s.carried ++ new := by
  induction hrun with
  | refl s => exact ⟨[], (List.append_nil _).symm, (List.append_nil _).symm⟩
  | cons hok h _ ih =>
    obtain ⟨first, hoffered, hcarried⟩ := step_keeps hok h
    obtain ⟨rest, hro, hrc⟩ := ih
    exact ⟨first ++ rest, by rw [hro, hoffered, List.append_assoc],
      by rw [hrc, hcarried, List.append_assoc]⟩

/-- Nothing arrives twice, out of order, or without having been offered. -/
theorem carried_sublist {s : Channel α} {es : List (Event α)} (hrun : AnyRun step initial es s) :
    s.carried.Sublist s.offered := by
  apply hrun.invariant (I := fun s => s.carried.Sublist s.offered)
  · exact List.Sublist.refl []
  · intro s e t hs _ h
    exact step_carried hs h

theorem carried_all {s : Channel α} {es : List (Event α)} (hrun : Run step Keeps initial es s) :
    s.carried = s.offered := by
  obtain ⟨new, hoffered, hcarried⟩ := run_keeps hrun
  exact hcarried.trans hoffered.symm

end Channel
