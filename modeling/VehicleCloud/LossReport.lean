import VehicleCloud.ControllerStop
import VehicleCloud.ListenTimer

namespace VehicleCloud

open Transition

/-- A socket of the controller; `reported` since its last `open`, if its callback was told of a loss. -/
structure Watched extends Listener where
  reported : Bool
  deriving DecidableEq

namespace Watched

/-- An examination of a socket that is not connected notifies `LOST`. Of a socket that was created
the kernel tells one of the states up to `TCP_CLOSING`. -/
def WillReport (x : Watched) : Prop :=
  ∀ tcpi_state ≤ TCP_CLOSING, tcpi_state ≠ TCP_ESTABLISHED →
    (x.toClient.listen tcpi_state).2 = some .LOST

/-- The socket is connected and its timer armed, or its loss has been reported, or an armed timer
will report it. What a timer reads of the descriptor -1 is not filled in. -/
def Covered (x : Watched) : Prop :=
  x.established = true ∧ x.armed ≠ [] ∨ x.reported = true ∨
    x.armed ≠ [] ∧ x.sockfd ≠ none ∧ x.WillReport

/-- A loss is reported, or will be once there is one. -/
def Safe (x : Watched) : Prop :=
  x.reported = true ∨ x.armed ≠ [] ∧ x.sockfd ≠ none ∧ x.callback = true ∧ x.state ≠ .LOST

def step (x : Watched) (e : ListenEvent) : Option Watched :=
  (x.toListener.step e).map fun y =>
    match e with
    | .open _ => ⟨y.1, false⟩
    | _ => ⟨y.1, x.reported || decide (y.2 = some .LOST)⟩

def lose (x : Watched) : Watched := { x with established := false }

theorem willReport_iff {x : Watched} :
    x.WillReport ↔ x.callback = true ∧ x.state ≠ .LOST := by
  constructor
  · intro h
    have hlost := h TCP_CLOSING (by decide) (by decide)
    simp only [Client.listen, Client.examine] at hlost
    by_cases hcond : ConnectState.LOST ≠ x.state ∧ x.callback = true
    · exact ⟨hcond.2, Ne.symm hcond.1⟩
    · simp [TCP_CLOSING, TCP_ESTABLISHED, hcond] at hlost
  · rintro ⟨hcallback, hstate⟩ tcpi_state hle hne
    simp [Client.listen, Client.examine, hle, hne, hcallback, Ne.symm hstate]

theorem covered_of_safe {x : Watched} (h : x.Safe) : x.Covered := by
  rcases h with hreported | ⟨harmed, hfd, hreport⟩
  · exact Or.inr (Or.inl hreported)
  · exact Or.inr (Or.inr ⟨harmed, hfd, willReport_iff.mpr hreport⟩)

/-- A timer is armed for a socket that exists only. -/
theorem fd_of_armed {r : OpenResult} (h : r.armed ≠ none) : r.fd ≠ none := by
  cases r <;> simp [OpenResult.armed, OpenResult.fd] at h ⊢

theorem open_safe {x y : Watched} {r : OpenResult}
    (harmed : r.armed ≠ none ∨ r.fd ≠ none ∧ x.armed ≠ []) (hcallback : x.callback = true)
    (hstate : x.state ≠ .LOST)
    (h : x.step (.open r) = some y) : y.Safe := by
  obtain ⟨z, hz, rfl⟩ := Option.map_eq_some_iff.mp h
  obtain ⟨hy, _⟩ := Listener.of_step_open hz
  rw [hy]
  refine Or.inr ⟨?_, ?_, hcallback, hstate⟩
  · cases hr : r.armed with
    | none =>
      rcases harmed with hnew | ⟨_, hold⟩
      · exact absurd hr hnew
      · simpa [hr] using hold
    | some id => simp [hr]
  · rcases harmed with hnew | ⟨hfd, _⟩
    · exact fd_of_armed hnew
    · exact hfd

theorem lose_safe {x : Watched} (hs : x.Safe) : x.lose.Safe := hs

theorem expire_safe {x y : Watched} {id : Nat} (hs : x.Safe) (h : x.step (.expire id) = some y) :
    y.Safe := by
  obtain ⟨z, hz, rfl⟩ := Option.map_eq_some_iff.mp h
  obtain ⟨_, hy, hn⟩ := Listener.of_step_expire hz
  rw [hy, hn]
  rcases hs with hreported | hwatched
  · exact Or.inl (by simp [hreported])
  · exact Or.inr hwatched

theorem tick_safe {x y : Watched} {tcpi_state : UInt8} (hs : x.Safe)
    (h : x.step (.tick tcpi_state) = some y) : y.Safe := by
  obtain ⟨z, hz, rfl⟩ := Option.map_eq_some_iff.mp h
  obtain ⟨_, hy, hn⟩ := Listener.of_step_tick hz
  rw [hy, hn]
  rcases hs with hreported | ⟨harmed, hfd, hcallback, hstate⟩
  · exact Or.inl (by simp [hreported])
  · have hkept := (x.toListener.listen_callback tcpi_state).trans hcallback
    rcases x.toListener.listen_cases tcpi_state with ⟨state, hs, _, hnew⟩ | ⟨_, hsame⟩
    · by_cases hlost : state = .LOST
      · exact Or.inl (by simp [hs, hlost])
      · exact Or.inr ⟨harmed, hfd, hkept, by rw [hnew]; exact hlost⟩
    · exact Or.inr ⟨harmed, hfd, hkept, by rw [hsame]; exact hstate⟩

/-- An `open` without what `open_safe` asks for leaves a socket whose loss goes unreported. -/
theorem lose_open_uncovered {x y : Watched} {r : OpenResult}
    (hn : ¬((r.armed ≠ none ∨ r.fd ≠ none ∧ x.armed ≠ []) ∧ x.callback = true ∧ x.state ≠ .LOST))
    (h : x.step (.open r) = some y) : ¬y.lose.Covered := by
  obtain ⟨z, hz, rfl⟩ := Option.map_eq_some_iff.mp h
  obtain ⟨hy, _⟩ := Listener.of_step_open hz
  rw [hy]
  rintro (⟨hestablished, _⟩ | hreported | ⟨harmed, hfd, hreport⟩)
  · cases hestablished
  · cases hreported
  · have hwill := willReport_iff.mp hreport
    refine hn ⟨?_, hwill⟩
    by_cases hr : r.armed = none
    · exact Or.inr ⟨hfd, by simpa [lose, hr] using harmed⟩
    · exact Or.inl hr

/-- Nothing examines the socket, and nothing was reported. -/
structure Unwatched (x : Watched) : Prop where
  armed : x.armed = []
  dispatched : x.dispatched = 0
  reported : x.reported = false

theorem step_unwatched {x y : Watched} {e : ListenEvent} (hs : x.Unwatched)
    (hne : ∀ r, e ≠ .open r) (h : x.step e = some y) : y.Unwatched := by
  obtain ⟨z, hz, rfl⟩ := Option.map_eq_some_iff.mp h
  cases e with
  | «open» r => exact absurd rfl (hne r)
  | expire id =>
    obtain ⟨hid, _⟩ := Listener.of_step_expire hz
    rw [hs.armed] at hid
    cases hid
  | tick tcpi_state =>
    obtain ⟨hd, _⟩ := Listener.of_step_tick hz
    rw [hs.dispatched] at hd
    exact absurd hd (Nat.lt_irrefl 0)
  | close =>
    obtain ⟨hy, hn⟩ := Listener.of_step_close hz
    rw [hy, hn]
    refine ⟨?_, hs.dispatched, by simp [hs.reported]⟩
    apply List.eq_nil_iff_forall_not_mem.mpr
    intro id hid
    have hmem := (Listener.mem_close_armed.mp hid).1
    rw [hs.armed] at hmem
    cases hmem

end Watched

end VehicleCloud
