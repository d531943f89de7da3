import Mathlib.Data.List.Basic
import Mathlib.Data.List.Nodup

namespace Custody

/-- What can go wrong with a handle: a release by one who does not hold it, and a handle that is
still held by an owner who should hold none. -/
inductive Fault (κ ω : Type) where
  | misuse (o : ω) (k : κ)
  | leak (o : ω)
  deriving DecidableEq

/-- The live handles, each with its only owner, and what has gone wrong. -/
structure Ledger (κ ω : Type) where
  live : List (κ × ω)
  faults : List (Fault κ ω)
  distinct : (live.map Prod.fst).Nodup

namespace Ledger

variable {κ ω : Type}

def empty : Ledger κ ω := ⟨[], [], List.nodup_nil⟩

def Free (l : Ledger κ ω) (k : κ) : Prop := k ∉ l.live.map Prod.fst

def create (l : Ledger κ ω) (o : ω) (k : κ) (h : l.Free k) : Ledger κ ω :=
  ⟨(k, o) :: l.live, l.faults, List.nodup_cons.mpr ⟨h, l.distinct⟩⟩

section

variable [DecidableEq ω]

/-- The handles of an owner, the latest first. -/
def held (l : Ledger κ ω) (o : ω) : List κ := (l.live.filter (·.2 = o)).map Prod.fst

theorem mem_held {l : Ledger κ ω} {o : ω} {k : κ} : k ∈ l.held o ↔ (k, o) ∈ l.live := by
  simp [held]

theorem not_mem_held_of_free {l : Ledger κ ω} {o : ω} {k : κ} (h : l.Free k) : k ∉ l.held o := by
  intro hk
  exact h (List.mem_map.mpr ⟨_, mem_held.mp hk, rfl⟩)

/-- No handle has two owners. -/
theorem owner_unique {l : Ledger κ ω} {o p : ω} {k : κ} (ho : k ∈ l.held o) (hp : k ∈ l.held p) :
    o = p := by
  rw [mem_held] at ho hp
  exact congrArg Prod.snd (List.inj_on_of_nodup_map l.distinct ho hp rfl)

theorem held_create (l : Ledger κ ω) (o : ω) (k : κ) (h : l.Free k) (p : ω) :
    (l.create o k h).held p = if o = p then k :: l.held p else l.held p := by
  by_cases hp : o = p <;> simp [held, create, hp]

/-- The owner should not hold anything any more. -/
def settle (l : Ledger κ ω) (o : ω) : Ledger κ ω where
  live := l.live
  faults := if l.held o = [] then l.faults else .leak o :: l.faults
  distinct := l.distinct

@[simp] theorem held_settle (l : Ledger κ ω) (o p : ω) : (l.settle o).held p = l.held p := rfl

theorem settle_faults_of_nil {l : Ledger κ ω} {o : ω} (h : l.held o = []) :
    (l.settle o).faults = l.faults := if_pos h

theorem settle_faults_of_held {l : Ledger κ ω} {o : ω} (h : l.held o ≠ []) :
    (l.settle o).faults = .leak o :: l.faults := if_neg h

theorem settle_faults_of_mem {l : Ledger κ ω} {o : ω} {k : κ} (h : k ∈ l.held o) :
    (l.settle o).faults ≠ [] := by
  rw [settle_faults_of_held (List.ne_nil_of_mem h)]
  exact List.cons_ne_nil _ _

/-- A fault stays. -/
theorem faults_settle (l : Ledger κ ω) (o : ω) : l.faults <:+ (l.settle o).faults := by
  by_cases h : l.held o = []
  · exact ⟨[], (settle_faults_of_nil h).symm⟩
  · rw [settle_faults_of_held h]
    exact List.suffix_cons _ _

end

variable [DecidableEq κ]

instance (l : Ledger κ ω) (k : κ) : Decidable (l.Free k) := inferInstanceAs (Decidable (_ ∉ _))

variable [DecidableEq ω]

/-- A release takes the handle away from whoever holds it. -/
def release (l : Ledger κ ω) (o : ω) (k : κ) : Ledger κ ω where
  live := l.live.filter (·.1 ≠ k)
  faults := if k ∈ l.held o then l.faults else .misuse o k :: l.faults
  distinct := l.distinct.sublist (List.filter_sublist.map _)

theorem held_release (l : Ledger κ ω) (o : ω) (k : κ) (p : ω) :
    (l.release o k).held p = (l.held p).filter (· ≠ k) := by
  simp only [held, release, List.filter_map, List.filter_filter]
  congr 2
  funext e
  simp [Function.comp, Bool.and_comm]

theorem mem_held_release {l : Ledger κ ω} {o p : ω} {j k : κ} (h : k ∈ l.held p) (hne : k ≠ j) :
    k ∈ (l.release o j).held p := by
  rw [held_release]
  exact List.mem_filter.mpr ⟨h, by simpa using hne⟩

/-- The release of a handle one holds concerns nobody else. -/
theorem held_release_other {l : Ledger κ ω} {o p : ω} {k : κ} (hk : k ∈ l.held o) (hp : p ≠ o) :
    (l.release o k).held p = l.held p := by
  rw [held_release]
  apply List.filter_eq_self.mpr
  intro j hj
  rw [decide_eq_true_eq]
  rintro rfl
  exact hp (owner_unique hj hk)

theorem release_faults_of_mem {l : Ledger κ ω} {o : ω} {k : κ} (h : k ∈ l.held o) :
    (l.release o k).faults = l.faults := if_pos h

theorem release_faults_of_not_mem {l : Ledger κ ω} {o : ω} {k : κ} (h : k ∉ l.held o) :
    (l.release o k).faults = .misuse o k :: l.faults := if_neg h

theorem faults_release (l : Ledger κ ω) (o : ω) (k : κ) : l.faults <:+ (l.release o k).faults := by
  by_cases h : k ∈ l.held o
  · exact ⟨[], (release_faults_of_mem h).symm⟩
  · rw [release_faults_of_not_mem h]
    exact List.suffix_cons _ _

def createAll (l : Ledger κ ω) (o : ω) : List κ → Option (Ledger κ ω)
  | [] => some l
  | k :: ks => if h : l.Free k then (l.create o k h).createAll o ks else none

def releaseAll (l : Ledger κ ω) (o : ω) (ks : List κ) : Ledger κ ω := ks.foldl (·.release o) l

theorem createAll_spec {l m : Ledger κ ω} {o : ω} {ks : List κ} (h : l.createAll o ks = some m) :
    m.held o = ks.reverse ++ l.held o ∧ m.faults = l.faults ∧ ∀ k ∈ ks, k ∉ l.held o := by
  induction ks generalizing l with
  | nil =>
    cases Option.some.inj h
    exact ⟨rfl, rfl, nofun⟩
  | cons k ks ih =>
    rw [createAll] at h
    split at h
    next hk =>
      obtain ⟨hheld, hfaults, hnew⟩ := ih h
      rw [held_create, if_pos rfl] at hheld hnew
      refine ⟨by simp [hheld], hfaults, fun j hj => ?_⟩
      rcases List.mem_cons.mp hj with rfl | hj
      · exact not_mem_held_of_free hk
      · exact fun hmem => hnew j hj (List.mem_cons_of_mem _ hmem)
    next => cases h

theorem faults_releaseAll (l : Ledger κ ω) (o : ω) (ks : List κ) :
    l.faults <:+ (l.releaseAll o ks).faults := by
  induction ks generalizing l with
  | nil => exact List.suffix_refl _
  | cons k ks ih => exact (l.faults_release o k).trans (ih _)

theorem mem_held_releaseAll {l : Ledger κ ω} {o p : ω} {k : κ} {ks : List κ} (h : k ∈ l.held p)
    (hne : k ∉ ks) : k ∈ (l.releaseAll o ks).held p := by
  induction ks generalizing l with
  | nil => exact h
  | cons j ks ih =>
    rw [List.mem_cons, not_or] at hne
    exact ih (mem_held_release h hne.1) hne.2

end Ledger

end Custody
