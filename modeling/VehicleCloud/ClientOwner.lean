import VehicleCloud.Ledger
import VehicleCloud.Runs
import VehicleCloud.Socket

namespace VehicleCloud

open Transition Custody

inductive Resource where
  | socket (fd : Nat)
  | timer (id : Nat)
  deriving DecidableEq

def OpenResult.created (r : OpenResult) : List Resource :=
  (r.fd.map .socket).toList ++ (r.timer.map .timer).toList

/-- What `close` deletes: the timer first, both under the handles that the client keeps. -/
def Socket.released (c : Socket) : List Resource :=
  if c.state = .CLOSED then [] else .timer c.timer :: (c.sockfd.map .socket).toList

/-- A client and the resources that its `open` calls have created. -/
structure Lifetime where
  client : Socket
  ledger : Ledger Resource Unit

inductive LifetimeEvent where
  | setCallback (set : Bool)
  | open (r : OpenResult)
  | tick (tcpi_state : UInt8)
  | close

namespace Lifetime

/-- When `close` returns nothing should be left. -/
def close (s : Lifetime) : Lifetime :=
  ⟨s.client.close, (s.ledger.releaseAll () s.client.released).settle ()⟩

def step (s : Lifetime) : LifetimeEvent → Option Lifetime
  | .setCallback set =>
    some { s with client := { s.client with callback := set } }
  | .open r => (s.ledger.createAll () r.created).map fun ledger => ⟨s.client.open r, ledger⟩
  | .tick tcpi_state => some { s with client := s.client.listen tcpi_state }
  | .close => some s.close

/-- A client as the constructor leaves it. -/
structure New (s : Lifetime) : Prop where
  state : s.client.state = .CLOSED
  ledger : s.ledger = Ledger.empty

/-- `open` finds nothing left over from earlier calls and fails, if it fails, with nothing created
or with a timer to close by; `close` finds `state_` to tell whether there is something to close. -/
def Orderly (s : Lifetime) : LifetimeEvent → Prop
  | .open r => s.ledger.held () = [] ∧ (r.fd = none ∨ r.timer ≠ none)
  | .close => s.client.state = .CLOSED ↔ s.ledger.held () = []
  | _ => True

instance (s : Lifetime) (e : LifetimeEvent) : Decidable (s.Orderly e) :=
  match e with
  | .open _ => inferInstanceAs (Decidable (_ ∧ _))
  | .close => inferInstanceAs (Decidable (_ ↔ _))
  | .setCallback _ | .tick _ => .isTrue trivial

/-- No fault so far, and the client's handles stand for what is live, if anything is. -/
structure Owned (s : Lifetime) : Prop where
  faultless : s.ledger.faults = []
  known : s.ledger.held () = [] ∨
    ∃ fd, s.client.sockfd = some fd ∧ s.ledger.held () = [.timer s.client.timer, .socket fd]

theorem of_step_open {s t : Lifetime} {r : OpenResult} (h : s.step (.open r) = some t) :
    t.client = s.client.open r ∧ t.ledger.held () = r.created.reverse ++ s.ledger.held () ∧
      t.ledger.faults = s.ledger.faults ∧ ∀ k ∈ r.created, k ∉ s.ledger.held () := by
  obtain ⟨l, hl, rfl⟩ := Option.map_eq_some_iff.mp h
  exact ⟨rfl, Ledger.createAll_spec hl⟩

theorem open_owned {s t : Lifetime} {r : OpenResult} (hs : s.Owned)
    (hheld : s.ledger.held () = []) (hr : r.fd = none ∨ r.timer ≠ none)
    (h : s.step (.open r) = some t) : t.Owned := by
  obtain ⟨hc, ht, hf, _⟩ := of_step_open h
  refine ⟨hf.trans hs.faultless, ?_⟩
  rw [ht, hc, hheld]
  cases r with
  | noSocket => exact Or.inl rfl
  | badAddress fd => simp [OpenResult.fd, OpenResult.timer] at hr
  | notConnected fd => simp [OpenResult.fd, OpenResult.timer] at hr
  | noTimer fd => simp [OpenResult.fd, OpenResult.timer] at hr
  | notSet fd id => exact Or.inr ⟨fd, rfl, rfl⟩
  | opened fd id => exact Or.inr ⟨fd, rfl, rfl⟩

theorem close_owned {s : Lifetime} (hs : s.Owned)
    (hstate : s.client.state = .CLOSED ↔ s.ledger.held () = []) : s.close.Owned := by
  rcases hs.known with hnone | ⟨fd, hfd, hheld⟩
  · have hclosed := hstate.mpr hnone
    refine ⟨?_, Or.inl ?_⟩ <;> simp only [close, Socket.released, hclosed, if_true]
    · exact (Ledger.settle_faults_of_nil hnone).trans hs.faultless
    · exact hnone
  · have hopen : s.client.state ≠ .CLOSED := by
      rw [ne_eq, hstate, hheld]
      exact List.cons_ne_nil _ _
    have hreleased : s.client.released = [.timer s.client.timer, .socket fd] := by
      rw [Socket.released, if_neg hopen, hfd]
      rfl
    have hfirst : (s.ledger.release () (.timer s.client.timer)).held () = [.socket fd] := by
      simp [Ledger.held_release, hheld]
    have hafter : (s.ledger.releaseAll () s.client.released).held () = [] := by
      rw [hreleased, Ledger.releaseAll]
      simp [Ledger.held_release, hheld]
    refine ⟨?_, Or.inl hafter⟩
    rw [close, Ledger.settle_faults_of_nil hafter, hreleased]
    have htwo : s.ledger.releaseAll () [.timer s.client.timer, .socket fd] =
        (s.ledger.release () (.timer s.client.timer)).release () (.socket fd) := rfl
    rw [htwo, Ledger.release_faults_of_mem (by simp [hfirst]),
      Ledger.release_faults_of_mem (by simp [hheld]), hs.faultless]

theorem step_owned (s : Lifetime) (e : LifetimeEvent) (t : Lifetime) (hs : s.Owned)
    (hok : s.Orderly e) (h : s.step e = some t) : t.Owned := by
  cases e with
  | setCallback set =>
    cases Option.some.inj h
    exact ⟨hs.faultless, hs.known⟩
  | «open» r => exact open_owned hs hok.1 hok.2 h
  | tick tcpi_state =>
    cases Option.some.inj h
    exact ⟨hs.faultless, hs.known⟩
  | close =>
    cases Option.some.inj h
    exact close_owned hs hok

theorem close_leaks {s : Lifetime} {k : Resource} (hk : k ∈ s.ledger.held ())
    (hn : k ∉ s.client.released) : s.close.ledger.faults ≠ [] :=
  Ledger.settle_faults_of_mem (Ledger.mem_held_releaseAll hk hn)

/-- A client that believes to be open deletes a timer it does not have. -/
theorem close_misuses {s : Lifetime} (hstate : s.client.state ≠ .CLOSED)
    (hn : Resource.timer s.client.timer ∉ s.ledger.held ()) : s.close.ledger.faults ≠ [] := by
  rw [close, Socket.released, if_neg hstate, Ledger.releaseAll, List.foldl_cons]
  refine ((Ledger.faults_releaseAll _ () _).trans (Ledger.faults_settle _ ())).ne_nil ?_
  rw [Ledger.release_faults_of_not_mem hn]
  exact List.cons_ne_nil _ _

/-- An `open` that overwrites live handles, or gives up between `socket` and `timer_create`, is
found out by the next `close`. -/
theorem fault_after_open {s t : Lifetime} {r : OpenResult} (hs : s.Owned)
    (hn : ¬s.Orderly (.open r)) (h : s.step (.open r) = some t) : t.close.ledger.faults ≠ [] := by
  obtain ⟨hc, ht, _, hnew⟩ := of_step_open h
  by_cases hstate : t.client.state = .CLOSED
  · have hnone : t.client.released = [] := if_pos hstate
    obtain ⟨k, hk⟩ : ∃ k, k ∈ t.ledger.held () := by
      apply List.exists_mem_of_ne_nil
      rw [ht]
      intro hempty
      obtain ⟨hcreated, hheld⟩ := List.append_eq_nil_iff.mp hempty
      refine hn ⟨hheld, Or.inl ?_⟩
      cases r <;> first | rfl | simp [OpenResult.created, OpenResult.fd] at hcreated
    exact close_leaks hk (by simp [hnone])
  · rcases hs.known with hnone | ⟨fd, hfd, hheld⟩
    · have htimer : r.timer = none := by
        by_contra htimer
        exact hn ⟨hnone, Or.inr htimer⟩
      apply close_misuses hstate
      rw [ht, hnone]
      cases hr : r.fd <;> simp [OpenResult.created, htimer, hr]
    · apply close_leaks (k := .socket fd)
      · simp [ht, hheld]
      · rw [Socket.released, if_neg hstate, hc]
        intro hmem
        have hcreated : Resource.socket fd ∈ r.created := by
          cases hr : r.fd with
          | none => simp [Socket.open, hr] at hmem
          | some fd =>
            simp only [Socket.open, hr, Option.map_some, Option.toList_some, List.mem_cons,
              reduceCtorEq, List.not_mem_nil, or_false, false_or] at hmem
            simp [OpenResult.created, hr, hmem]
        exact hnew _ hcreated (by simp [hheld])

theorem fault_of_not_orderly {s t : Lifetime} {e : LifetimeEvent} (hs : s.Owned)
    (hn : ¬s.Orderly e) (h : s.step e = some t) :
    ∃ fs v, AnyRun step t fs v ∧ v.ledger.faults ≠ [] := by
  cases e with
  | setCallback set => exact absurd trivial hn
  | «open» r =>
    exact ⟨[.close], _, Run.cons trivial rfl (Run.refl _), fault_after_open hs hn h⟩
  | tick tcpi_state => exact absurd trivial hn
  | close =>
    cases Option.some.inj h
    refine ⟨[], _, Run.refl _, ?_⟩
    by_cases hstate : s.client.state = .CLOSED
    · obtain ⟨k, hk⟩ := List.exists_mem_of_ne_nil _ fun hnone => hn ⟨fun _ => hnone, fun _ => hstate⟩
      exact close_leaks hk (by simp [Socket.released, hstate])
    · apply close_misuses hstate
      intro hmem
      refine hn ⟨fun hclosed => absurd hclosed hstate, fun hnone => ?_⟩
      rw [hnone] at hmem
      cases hmem

/-- In every orderly run nothing is deleted twice and nothing is left when `close` returns; the
first step that is not orderly leads to one or the other. -/
theorem client_releases_once {s t : Lifetime} {es : List LifetimeEvent} (hs : s.New)
    (hrun : Run step Orderly s es t) :
    t.ledger.faults = [] ∧
    ∀ e u, ¬t.Orderly e → t.step e = some u →
      ∃ fs v, AnyRun step u fs v ∧ v.ledger.faults ≠ [] := by
  have hstart : s.Owned := ⟨by rw [hs.ledger]; rfl, Or.inl (by rw [hs.ledger]; rfl)⟩
  have hend : t.Owned := hrun.invariant hstart step_owned
  exact ⟨hend.faultless, fun e u hn h => fault_of_not_orderly hend hn h⟩

def fresh : Lifetime := ⟨⟨⟨.CLOSED, false, false, false⟩, none, 0⟩, .empty⟩

theorem fresh_new : fresh.New := ⟨rfl, rfl⟩

theorem client_releases_once_reopened :
    ∃ t, Run step Orderly fresh [.setCallback true, .open (.opened 3 7), .tick 1, .close,
        .open .noSocket, .open (.opened 3 7), .tick 1, .tick 7, .close] t ∧
      t.ledger.live = [] ∧ t.ledger.faults = [] := by
  obtain ⟨t, hrun, hlive⟩ : ∃ t, Run step Orderly fresh [.setCallback true, .open (.opened 3 7),
      .tick 1, .close, .open .noSocket, .open (.opened 3 7), .tick 1, .tick 7, .close] t ∧
      t.ledger.live = [] := exists_run (by decide)
  exact ⟨t, hrun, hlive, (client_releases_once fresh_new hrun).1⟩

/-- No tick has come yet, so `close` takes the client for closed. -/
theorem close_before_tick_leaks :
    ¬ ∀ es t, AnyRun step fresh es t → t.ledger.faults = [] := by
  intro h
  obtain ⟨t, hrun, hfault⟩ : ∃ t, AnyRun step fresh [.setCallback true, .open (.opened 3 7),
      .close] t ∧ t.ledger.faults ≠ [] := exists_run (by decide)
  exact hfault (h _ t hrun)

end Lifetime

end VehicleCloud
