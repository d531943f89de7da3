import VehicleCloud.ListenTimer

namespace VehicleCloud

open Transition

/-- What a client's user sees: calls that return, and the calls of its callback. -/
inductive Notice where
  | opened
  | closed
  | notified (state : ConnectState)
  deriving DecidableEq

/-- The session that a log, latest entry first, is in, with its last notification. It lasts from
a successful `open` to the next `close`. -/
def session : List Notice → Option (Option ConnectState)
  | [] => none
  | .opened :: past => some (session past).join
  | .closed :: _ => none
  | .notified state :: past => (session past).map fun _ => some state

/-- Each notification falls into a session and differs from the one before it there. -/
def Proper : List Notice → Prop
  | [] => True
  | .notified state :: past =>
    session past ≠ none ∧ session past ≠ some (some state) ∧ Proper past
  | .opened :: past => Proper past
  | .closed :: past => Proper past

instance decidableProper : DecidablePred Proper
  | [] => .isTrue trivial
  | .notified _ :: past =>
    have := decidableProper past
    inferInstanceAs (Decidable (_ ∧ _ ∧ _))
  | .opened :: past => decidableProper past
  | .closed :: past => decidableProper past

/-- A client with its listen timers and the log of what its user has seen. -/
structure Observed where
  listener : Listener
  log : List Notice

namespace Observed

def noticed : ListenEvent → Option ConnectState → List Notice
  | .open r, _ => if r.code = 0 then [.opened] else []
  | .close, _ => [.closed]
  | .expire _, _ => []
  | .tick _, n => (n.map .notified).toList

def step (s : Observed) (e : ListenEvent) : Option Observed :=
  (s.listener.step e).map fun x => ⟨x.1, noticed e x.2 ++ s.log⟩

/-- A client as the constructor leaves it, with its callback set. -/
structure New (s : Observed) : Prop where
  state : s.listener.state = .CLOSED
  callback : s.listener.callback = true
  armed : s.listener.armed = []
  dispatched : s.listener.dispatched = 0
  log : s.log = []

/-- `close` finds no tick under way and no timer that it is not going to delete. -/
def Quiet (s : Observed) : ListenEvent → Prop
  | .close => s.listener.dispatched = 0 ∧
    ∀ id ∈ s.listener.armed, id = s.listener.timer ∧ s.listener.state ≠ .CLOSED
  | _ => True

instance (s : Observed) (e : ListenEvent) : Decidable (s.Quiet e) :=
  match e with
  | .close => inferInstanceAs (Decidable (_ ∧ _))
  | .open _ | .expire _ | .tick _ => .isTrue trivial

/-- Between the sessions nothing can tick, and `state_` is what was last notified. -/
structure Kept (s : Observed) : Prop where
  proper : Proper s.log
  callback : s.listener.callback = true
  outside : session s.log = none → s.listener.armed = [] ∧ s.listener.dispatched = 0
  last : ∀ state, session s.log = some (some state) → s.listener.state = state

theorem new_kept {s : Observed} (hs : s.New) : s.Kept := by
  refine ⟨?_, hs.callback, fun _ => ⟨hs.armed, hs.dispatched⟩, fun state h => ?_⟩
  · rw [hs.log]
    exact trivial
  · rw [hs.log] at h
    cases h

theorem of_step {s t : Observed} {e : ListenEvent} (h : s.step e = some t) :
    ∃ n, s.listener.step e = some (t.listener, n) ∧ t.log = noticed e n ++ s.log := by
  obtain ⟨x, hx, rfl⟩ := Option.map_eq_some_iff.mp h
  exact ⟨x.2, hx, rfl⟩

theorem open_kept {s : Observed} (hs : s.Kept) (r : OpenResult) (n : Option ConnectState) :
    Kept ⟨s.listener.open r, noticed (.open r) n ++ s.log⟩ := by
  by_cases hr : r.code = 0
  · have hlog : noticed (.open r) n ++ s.log = .opened :: s.log := by simp [noticed, hr]
    rw [hlog]
    refine ⟨hs.proper, hs.callback, fun h => absurd h (Option.some_ne_none _), fun state h => ?_⟩
    exact hs.last state (Option.join_eq_some_iff.mp (Option.some.inj h))
  · have hlog : noticed (.open r) n ++ s.log = s.log := by simp [noticed, hr]
    have harmed : r.armed = none := by
      cases r <;> first | rfl | exact absurd rfl hr
    rw [hlog]
    refine ⟨hs.proper, hs.callback, fun h => ?_, hs.last⟩
    simpa [harmed] using hs.outside h

theorem expire_kept {s : Observed} {id : Nat} (hs : s.Kept) (hid : id ∈ s.listener.armed) :
    Kept ⟨{ s.listener with dispatched := s.listener.dispatched + 1 }, s.log⟩ := by
  refine ⟨hs.proper, hs.callback, fun h => ?_, hs.last⟩
  rw [(hs.outside h).1] at hid
  cases hid

theorem tick_kept {s : Observed} {tcpi_state : UInt8} (hs : s.Kept)
    (hd : 0 < s.listener.dispatched) :
    Kept ⟨s.listener.listen tcpi_state,
      noticed (.tick tcpi_state) (s.listener.toClient.listen tcpi_state).2 ++ s.log⟩ := by
  have hin : session s.log ≠ none := fun h => by
    have := (hs.outside h).2
    omega
  have hcallback := (s.listener.listen_callback tcpi_state).trans hs.callback
  rcases s.listener.listen_cases tcpi_state with ⟨state, hn, hne, hstate⟩ | ⟨hn, hstate⟩
  · have hnew : session s.log ≠ some (some state) := fun h => hne (hs.last state h).symm
    rw [hn]
    refine ⟨⟨hin, hnew, hs.proper⟩, hcallback, fun h => ?_, fun last h => ?_⟩
    · exact absurd (Option.map_eq_none_iff.mp h) hin
    · obtain ⟨_, _, hlast⟩ := Option.map_eq_some_iff.mp h
      exact hstate.trans (Option.some.inj hlast)
  · rw [hn]
    refine ⟨hs.proper, hcallback, fun h => absurd h hin, fun last h => ?_⟩
    exact hstate.trans (hs.last last h)

theorem close_kept {s : Observed} (hs : s.Kept) (hok : s.Quiet .close) :
    Kept ⟨s.listener.close, .closed :: s.log⟩ := by
  refine ⟨hs.proper, ?_, fun _ => ⟨?_, hok.1⟩, nofun⟩
  · rw [Listener.close_callback]
    exact hs.callback
  · apply List.eq_nil_iff_forall_not_mem.mpr
    intro id hid
    obtain ⟨hmem, hleft⟩ := Listener.mem_close_armed.mp hid
    obtain ⟨htimer, hstate⟩ := hok.2 id hmem
    rcases hleft with h | h
    · exact hstate h
    · exact h htimer

theorem step_kept (s : Observed) (e : ListenEvent) (t : Observed) (hs : s.Kept) (hok : s.Quiet e)
    (h : s.step e = some t) : t.Kept := by
  obtain ⟨n, hstep, hlog⟩ := of_step h
  have ht : t = ⟨t.listener, noticed e n ++ s.log⟩ := by rw [← hlog]
  rw [ht]
  cases e with
  | «open» r =>
    obtain ⟨hx, rfl⟩ := Listener.of_step_open hstep
    rw [hx]
    exact open_kept hs r none
  | expire id =>
    obtain ⟨hid, hx, rfl⟩ := Listener.of_step_expire hstep
    rw [hx]
    exact expire_kept hs hid
  | tick tcpi_state =>
    obtain ⟨hd, hx, rfl⟩ := Listener.of_step_tick hstep
    rw [hx]
    exact tick_kept hs hd
  | close =>
    obtain ⟨hx, rfl⟩ := Listener.of_step_close hstep
    rw [hx]
    exact close_kept hs hok

/-- A tick that is under way when `close` returns notifies: `CLOSED` looks like the time before
the first tick. -/
theorem stray_tick_notifies {s : Observed} (hstate : s.listener.state = .CLOSED)
    (hcallback : s.listener.callback = true) (hd : 0 < s.listener.dispatched)
    (hsession : session s.log = none) :
    ∃ t, s.step (.tick TCP_ESTABLISHED) = some t ∧ ¬Proper t.log := by
  have hn : (s.listener.toClient.listen TCP_ESTABLISHED).2 = some .CONNECTED := by
    simp only [Client.listen, Client.examine, hstate, hcallback]
    rfl
  refine ⟨_, by rw [step, Listener.step, if_pos hd]; rfl, fun h => ?_⟩
  simp only [noticed, hn, Option.map_some, Option.toList_some, List.cons_append, List.nil_append] at h
  exact h.1 hsession

theorem improper_of_not_quiet {s t : Observed} {e : ListenEvent} (hs : s.Kept) (hn : ¬s.Quiet e)
    (h : s.step e = some t) : ∃ fs u, AnyRun step t fs u ∧ ¬Proper u.log := by
  cases e with
  | «open» r => exact absurd trivial hn
  | expire id => exact absurd trivial hn
  | tick tcpi_state => exact absurd trivial hn
  | close =>
    obtain ⟨n, hstep, hlog⟩ := of_step h
    obtain ⟨hx, rfl⟩ := Listener.of_step_close hstep
    have hstate : t.listener.state = .CLOSED := by rw [hx, Listener.close_state]
    have hcallback : t.listener.callback = true := by rw [hx, Listener.close_callback, hs.callback]
    have hsession : session t.log = none := by rw [hlog]; rfl
    by_cases hd : s.listener.dispatched = 0
    · simp only [Quiet, hd, true_and, not_forall] at hn
      obtain ⟨id, hid, hleft⟩ := hn
      have hmem : id ∈ t.listener.armed := by
        rw [hx, Listener.mem_close_armed]
        refine ⟨hid, ?_⟩
        by_contra hno
        rw [not_or, not_not] at hno
        exact hleft ⟨hno.2, hno.1⟩
      obtain ⟨u, hu, himproper⟩ := stray_tick_notifies
        (s := ⟨{ t.listener with dispatched := t.listener.dispatched + 1 }, t.log⟩) hstate hcallback
        (Nat.succ_pos _) hsession
      refine ⟨[.expire id, .tick TCP_ESTABLISHED], u, Run.cons trivial ?_ (Run.cons trivial hu (Run.refl _)),
        himproper⟩
      rw [step, Listener.step, if_pos hmem]
      rfl
    · obtain ⟨u, hu, himproper⟩ := stray_tick_notifies hstate hcallback
        (by rw [hx, Listener.close_dispatched]; omega) hsession
      exact ⟨[.tick TCP_ESTABLISHED], u, Run.cons trivial hu (Run.refl _), himproper⟩

/-- When each `close` finds everything quiet, the callback is invoked in sessions only and never
twice in a row with one state; a `close` that does not can be followed by a stray notification. -/
theorem notifications_within_sessions {s t : Observed} {es : List ListenEvent} (hs : s.New)
    (hrun : Run step Quiet s es t) :
    Proper t.log ∧
    ∀ e u, ¬t.Quiet e → t.step e = some u → ∃ fs v, AnyRun step u fs v ∧ ¬Proper v.log := by
  have hend : t.Kept := hrun.invariant (new_kept hs) step_kept
  exact ⟨hend.proper, fun e u hn h => improper_of_not_quiet hend hn h⟩

def fresh : Observed := ⟨⟨⟨⟨.CLOSED, true, false, false⟩, none, 0⟩, [], 0⟩, []⟩

theorem fresh_new : fresh.New := ⟨rfl, rfl, rfl, rfl, rfl⟩

theorem notifications_within_sessions_reopened :
    ∃ t, Run step Quiet fresh [.open (.notConnected 3), .open (.opened 4 7), .expire 7, .tick 1,
        .expire 7, .tick 7, .expire 7, .tick 99, .close, .open (.opened 4 7), .expire 7, .tick 7] t ∧
      t.log = [.notified .LOST, .opened, .closed, .notified .LOST, .notified .CONNECTED, .opened] ∧
      Proper t.log := by
  obtain ⟨t, hrun, hlog⟩ : ∃ t, Run step Quiet fresh [.open (.notConnected 3),
      .open (.opened 4 7), .expire 7, .tick 1, .expire 7, .tick 7, .expire 7, .tick 99, .close,
      .open (.opened 4 7), .expire 7, .tick 7] t ∧
      t.log = [.notified .LOST, .opened, .closed, .notified .LOST, .notified .CONNECTED, .opened] :=
    exists_run (by decide)
  exact ⟨t, hrun, hlog, (notifications_within_sessions fresh_new hrun).1⟩

/-- The timer has expired again before `close` deletes it. -/
theorem notified_after_close :
    ¬ ∀ es t, AnyRun step fresh es t → Proper t.log := by
  intro h
  obtain ⟨t, hrun, himproper⟩ : ∃ t, AnyRun step fresh [.open (.opened 3 7), .expire 7, .tick 1,
      .expire 7, .close, .tick 7] t ∧ ¬Proper t.log := exists_run (by decide)
  exact himproper (h _ t hrun)

end Observed

end VehicleCloud
