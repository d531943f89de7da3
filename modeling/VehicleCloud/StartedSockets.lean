import VehicleCloud.LossReport

namespace VehicleCloud

open Transition

/-- Where `Controller::start` and `Controller::stop` have got to. -/
inductive SocketsPhase where
  | idle
  | opening -- the upstream socket has been opened
  | started
  | closing -- the upstream socket has been closed
  deriving DecidableEq

structure Sockets where
  phase : SocketsPhase
  up : Watched
  down : Watched
  deriving DecidableEq

inductive SocketsEvent where
  | open (d : Direction) (r : OpenResult)
  | close (d : Direction)
  | expire (d : Direction) (id : Nat)
  | tick (d : Direction) (tcpi_state : UInt8)
  | lose (d : Direction)
  deriving DecidableEq

namespace SocketsPhase

/-- `start` opens the upstream socket, then the downstream one, whatever comes of the first. -/
def opened : Direction → SocketsPhase → Option SocketsPhase
  | .up, idle => some opening
  | .up, started => some opening
  | .down, opening => some started
  | _, _ => none

def closed : Direction → SocketsPhase → Option SocketsPhase
  | .up, started => some closing
  | .down, closing => some idle
  | _, _ => none

theorem of_opened_up {p q : SocketsPhase} (h : p.opened .up = some q) : q = .opening := by
  cases p <;> simp [opened] at h <;> exact h.symm

theorem of_opened_down {p q : SocketsPhase} (h : p.opened .down = some q) :
    p = .opening ∧ q = .started := by
  cases p <;> simp [opened] at h
  exact ⟨rfl, h.symm⟩

theorem of_closed {d : Direction} {p q : SocketsPhase} (h : p.closed d = some q) :
    q = .closing ∨ q = .idle := by
  cases d <;> cases p <;> simp [closed] at h <;> simp [← h]

end SocketsPhase

namespace Sockets

def side (s : Sockets) : Direction → Watched
  | .up => s.up
  | .down => s.down

def setSide (s : Sockets) (d : Direction) (x : Watched) : Sockets :=
  match d with
  | .up => { s with up := x }
  | .down => { s with down := x }

@[simp] theorem setSide_phase (s : Sockets) (d : Direction) (x : Watched) :
    (s.setSide d x).phase = s.phase := by
  cases d <;> rfl

theorem side_setSide (s : Sockets) (d e : Direction) (x : Watched) :
    (s.setSide d x).side e = if e = d then x else s.side e := by
  cases d <;> cases e <;> rfl

def step (s : Sockets) : SocketsEvent → Option Sockets
  | .open d r => do
    let phase ← s.phase.opened d
    let x ← (s.side d).step (.open r)
    some ({ s with phase := phase }.setSide d x)
  | .close d => do
    let phase ← s.phase.closed d
    let x ← (s.side d).step .close
    some ({ s with phase := phase }.setSide d x)
  | .expire d id => ((s.side d).step (.expire id)).map (s.setSide d)
  | .tick d tcpi_state => ((s.side d).step (.tick tcpi_state)).map (s.setSide d)
  | .lose d => some (s.setSide d (s.side d).lose)

/-- A controller before its first `start`. -/
structure New (s : Sockets) : Prop where
  phase : s.phase = .idle
  state : ∀ d, (s.side d).state = .CLOSED
  armed : ∀ d, (s.side d).armed = []

/-- An `open` arms its timer, or creates its socket and finds an armed timer, under a callback, and
not in the state `LOST`. -/
def Reportable (s : Sockets) : SocketsEvent → Prop
  | .open d r => (r.armed ≠ none ∨ r.fd ≠ none ∧ (s.side d).armed ≠ []) ∧
    (s.side d).callback = true ∧ (s.side d).state ≠ .LOST
  | _ => True

instance (s : Sockets) (e : SocketsEvent) : Decidable (s.Reportable e) :=
  match e with
  | .open _ _ => inferInstanceAs (Decidable (_ ∧ _ ∧ _))
  | .close _ | .expire _ _ | .tick _ _ | .lose _ => .isTrue trivial

/-- The sockets that the current or last `start` has opened, and no `stop` has closed. -/
def Opened (s : Sockets) : Direction → Prop
  | .up => s.phase = .opening ∨ s.phase = .started
  | .down => s.phase = .started

def Watching (s : Sockets) : Prop := ∀ d, s.Opened d → (s.side d).Safe

theorem opened_of_started {s : Sockets} (h : s.phase = .started) (d : Direction) : s.Opened d := by
  cases d with
  | up => exact Or.inr h
  | down => exact h

theorem opened_congr {s t : Sockets} (h : t.phase = s.phase) (d : Direction) :
    t.Opened d ↔ s.Opened d := by
  cases d <;> simp [Opened, h]

theorem watching_setSide {s : Sockets} {d : Direction} {x : Watched} (hs : s.Watching)
    (hx : (s.side d).Safe → x.Safe) : (s.setSide d x).Watching := by
  intro e he
  rw [opened_congr (setSide_phase s d x)] at he
  rw [side_setSide]
  split
  next h =>
    subst h
    exact hx (hs e he)
  next => exact hs e he

theorem of_step_open {s t : Sockets} {d : Direction} {r : OpenResult}
    (h : s.step (.open d r) = some t) :
    ∃ phase x, s.phase.opened d = some phase ∧ (s.side d).step (.open r) = some x ∧
      t = { s with phase := phase }.setSide d x := by
  obtain ⟨phase, hphase, h⟩ := Option.bind_eq_some_iff.mp h
  obtain ⟨x, hx, h⟩ := Option.bind_eq_some_iff.mp h
  exact ⟨phase, x, hphase, hx, (Option.some.inj h).symm⟩

theorem of_step_close {s t : Sockets} {d : Direction} (h : s.step (.close d) = some t) :
    ∃ phase x, s.phase.closed d = some phase ∧ t = { s with phase := phase }.setSide d x := by
  obtain ⟨phase, hphase, h⟩ := Option.bind_eq_some_iff.mp h
  obtain ⟨x, _, h⟩ := Option.bind_eq_some_iff.mp h
  exact ⟨phase, x, hphase, (Option.some.inj h).symm⟩

theorem open_watching {s t : Sockets} {d : Direction} {r : OpenResult} (hs : s.Watching)
    (hok : s.Reportable (.open d r)) (h : s.step (.open d r) = some t) : t.Watching := by
  obtain ⟨phase, x, hphase, hx, rfl⟩ := of_step_open h
  have hsafe := Watched.open_safe hok.1 hok.2.1 hok.2.2 hx
  intro e he
  rw [side_setSide]
  split
  next => exact hsafe
  next hne =>
    apply hs
    rw [opened_congr (setSide_phase _ d x)] at he
    -- the other side counts as opened only when the downstream socket was opened after it
    cases d with
    | up =>
      cases e with
      | up => exact absurd rfl hne
      | down =>
        cases SocketsPhase.of_opened_up hphase
        cases he
    | down =>
      cases e with
      | up => exact Or.inl (SocketsPhase.of_opened_down hphase).1
      | down => exact absurd rfl hne

theorem close_watching {s t : Sockets} {d : Direction} (h : s.step (.close d) = some t) :
    t.Watching := by
  obtain ⟨phase, x, hphase, rfl⟩ := of_step_close h
  intro e he
  rw [opened_congr (setSide_phase _ d x)] at he
  rcases SocketsPhase.of_closed hphase with rfl | rfl <;> cases e <;> simp [Opened] at he

theorem step_watching (s : Sockets) (e : SocketsEvent) (t : Sockets) (hs : s.Watching)
    (hok : s.Reportable e) (h : s.step e = some t) : t.Watching := by
  cases e with
  | «open» d r => exact open_watching hs hok h
  | close d => exact close_watching h
  | expire d id =>
    obtain ⟨x, hx, rfl⟩ := Option.map_eq_some_iff.mp h
    exact watching_setSide hs fun hsafe => Watched.expire_safe hsafe hx
  | tick d tcpi_state =>
    obtain ⟨x, hx, rfl⟩ := Option.map_eq_some_iff.mp h
    exact watching_setSide hs fun hsafe => Watched.tick_safe hsafe hx
  | lose d =>
    cases Option.some.inj h
    exact watching_setSide hs Watched.lose_safe

/-- The socket whose `open` was not reportable can be lost unnoticed once `start` has returned. -/
theorem uncovered_of_not_reportable {s t : Sockets} {e : SocketsEvent} (hn : ¬s.Reportable e)
    (h : s.step e = some t) :
    ∃ fs u, AnyRun step t fs u ∧ u.phase = .started ∧ ∃ d, ¬(u.side d).Covered := by
  cases e with
  | «open» d r =>
    obtain ⟨phase, x, hphase, hx, rfl⟩ := of_step_open h
    have hlost := Watched.lose_open_uncovered hn hx
    cases d with
    | up =>
      cases SocketsPhase.of_opened_up hphase
      let y : Watched := ⟨s.down.toListener.open .noSocket, false⟩
      have hdown : step ⟨.opening, x, s.down⟩ (.open .down .noSocket) = some ⟨.started, x, y⟩ := by
        simp [step, setSide, side, SocketsPhase.opened, Watched.step, Listener.step,
          OpenResult.timer, y]
      have hlose : step ⟨.started, x, y⟩ (.lose .up) = some ⟨.started, x.lose, y⟩ := rfl
      exact ⟨[.open .down .noSocket, .lose .up], ⟨.started, x.lose, y⟩,
        Run.cons trivial hdown (Run.cons trivial hlose (Run.refl _)), rfl, .up, hlost⟩
    | down =>
      cases (SocketsPhase.of_opened_down hphase).2
      have hlose : step ⟨.started, s.up, x⟩ (.lose .down) = some ⟨.started, s.up, x.lose⟩ := rfl
      exact ⟨[.lose .down], ⟨.started, s.up, x.lose⟩, Run.cons trivial hlose (Run.refl _), rfl,
        .down, hlost⟩
  | _ => exact absurd trivial hn

/-- When each `open` of `start` is reportable, both sockets of a started controller are covered;
after the first one that is not, a socket can be left that nothing will ever report. -/
theorem started_sockets_covered {s t : Sockets} {es : List SocketsEvent} (hs : s.New)
    (hrun : Run step Reportable s es t) :
    (t.phase = .started → ∀ d, (t.side d).Covered) ∧
    ∀ e u, ¬t.Reportable e → t.step e = some u →
      ∃ fs v, AnyRun step u fs v ∧ v.phase = .started ∧ ∃ d, ¬(v.side d).Covered := by
  have hstart : s.Watching := by
    intro d hd
    cases d <;> simp [Opened, hs.phase] at hd
  have hend : t.Watching := hrun.invariant hstart step_watching
  refine ⟨fun hp d => ?_, fun e u hn h => uncovered_of_not_reportable hn h⟩
  exact Watched.covered_of_safe (hend d (opened_of_started hp d))

/-- A socket that no timer examines stays unreported until it is opened again. -/
theorem unwatched_unreported {s t : Sockets} {d : Direction} {es : List SocketsEvent}
    (hs : (s.side d).Unwatched) (hrun : Run step (fun _ e => ∀ r, e ≠ .open d r) s es t) :
    (t.side d).reported = false := by
  have hend : (t.side d).Unwatched := by
    apply hrun.invariant (I := fun s => (s.side d).Unwatched) hs
    intro s e t hs hne h
    have hkeep (c : Direction) (x : Watched) (p : SocketsPhase)
        (hx : (s.side c).Unwatched → x.Unwatched) :
        (({ s with phase := p }.setSide c x).side d).Unwatched := by
      rw [side_setSide]
      split
      next hc =>
        subst hc
        exact hx hs
      next => cases d <;> exact hs
    cases e with
    | «open» c r =>
      obtain ⟨phase, x, _, _, rfl⟩ := of_step_open h
      have hc : d ≠ c := fun hc => hne r (by rw [hc])
      rw [side_setSide, if_neg hc]
      cases d <;> exact hs
    | close c =>
      obtain ⟨phase, hphase, h⟩ := Option.bind_eq_some_iff.mp h
      obtain ⟨x, hx, h⟩ := Option.bind_eq_some_iff.mp h
      cases Option.some.inj h
      exact hkeep c x phase fun hu => Watched.step_unwatched (e := .close) hu nofun hx
    | expire c id =>
      obtain ⟨x, hx, rfl⟩ := Option.map_eq_some_iff.mp h
      exact hkeep c x s.phase fun hu => Watched.step_unwatched (e := .expire id) hu nofun hx
    | tick c tcpi_state =>
      obtain ⟨x, hx, rfl⟩ := Option.map_eq_some_iff.mp h
      exact hkeep c x s.phase fun hu => Watched.step_unwatched (e := .tick tcpi_state) hu nofun hx
    | lose c =>
      cases Option.some.inj h
      exact hkeep c _ s.phase fun hu => ⟨hu.armed, hu.dispatched, hu.reported⟩
  exact hend.reported

def fresh : Sockets :=
  ⟨.idle, ⟨⟨⟨⟨.CLOSED, true, false, false⟩, none, 0⟩, [], 0⟩, false⟩,
    ⟨⟨⟨⟨.CLOSED, true, false, false⟩, none, 0⟩, [], 0⟩, false⟩⟩

theorem fresh_new : fresh.New := ⟨rfl, fun d => by cases d <;> rfl, fun d => by cases d <;> rfl⟩

theorem started_sockets_covered_restarted :
    ∃ t, Run step Reportable fresh [.open .up (.opened 3 7), .open .down (.opened 4 8),
        .expire .up 7, .tick .up 1, .lose .up, .expire .up 7, .tick .up 7, .close .up, .close .down,
        .open .up (.opened 3 7), .open .down (.notConnected 5)] t ∧ t.phase = .started ∧
      ∀ d, (t.side d).Covered := by
  obtain ⟨t, hrun, hp⟩ : ∃ t, Run step Reportable fresh [.open .up (.opened 3 7),
      .open .down (.opened 4 8), .expire .up 7, .tick .up 1, .lose .up, .expire .up 7, .tick .up 7,
      .close .up, .close .down, .open .up (.opened 3 7), .open .down (.notConnected 5)] t ∧
      t.phase = .started := exists_run (by decide)
  exact ⟨t, hrun, hp, (started_sockets_covered fresh_new hrun).1 hp⟩

/-- The downstream `connect` fails in the first `start`. -/
theorem failed_connect_never_reported :
    ∃ es t, AnyRun step fresh es t ∧ t.phase = .started ∧ ¬(t.side .down).Covered ∧
      ∀ fs u, Run step (fun _ e => ∀ r, e ≠ .open .down r) t fs u →
        (u.side .down).reported = false := by
  have hrun : AnyRun step fresh [.open .up (.opened 3 7), .open .down (.notConnected 4)]
      ⟨.started, ⟨⟨⟨⟨.CLOSED, true, true, false⟩, some 3, 7⟩, [7], 0⟩, false⟩,
        ⟨⟨⟨⟨.CLOSED, true, false, false⟩, some 4, 0⟩, [], 0⟩, false⟩⟩ := run_of_exec (by decide)
  refine ⟨_, _, hrun, rfl, ?_, fun fs u hcont => unwatched_unreported ⟨rfl, rfl, rfl⟩ hcont⟩
  rintro (⟨h, _⟩ | h | ⟨h, _⟩)
  · cases h
  · cases h
  · exact h rfl

end Sockets

end VehicleCloud
