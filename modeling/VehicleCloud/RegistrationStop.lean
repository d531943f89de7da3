import VehicleCloud.Registration

namespace VehicleCloud

open Custody Transition

namespace Timers

variable {ω : Type} [DecidableEq ω]

/-- No timer is created for `o`. -/
def Spares (o : ω) (_ : Timers ω) (e : TimerEvent ω) : Prop := ∀ r, e ≠ .start o r

omit [DecidableEq ω] in
theorem spares_stop (s : Timers ω) (o p : ω) : s.Spares o (.stop p) := by
  intro r h
  cases h

omit [DecidableEq ω] in
theorem spares_start {s : Timers ω} {o p : ω} {r : TimerStart} (hp : p ≠ o) :
    s.Spares o (.start p r) := by
  intro r h
  cases h
  exact hp rfl

theorem stop_held (s : Timers ω) (o p : ω) : (s.stop p).1.held o ⊆ s.ledger.held o := by
  cases hp : (s.object p).stopped with
  | true => rw [stop_of_stopped hp]; exact List.Subset.refl _
  | false =>
    rw [stop_of_running hp, Ledger.held_release]
    exact List.filter_subset_self _

theorem stop_faults (s : Timers ω) (p : ω) :
    s.ledger.faults <:+ ((s.stop p).1.settle p).faults := by
  refine List.IsSuffix.trans ?_ (Ledger.faults_settle _ p)
  cases hp : (s.object p).stopped with
  | true => exact ⟨[], congrArg Ledger.faults (stop_of_stopped hp).symm⟩
  | false =>
    rw [stop_of_running hp]
    exact Ledger.faults_release _ _ _

/-- What a step that creates no timer for `o` leaves of it. Faults stay. -/
structure Wanes (o : ω) (s t : Timers ω) : Prop where
  held : t.ledger.held o ⊆ s.ledger.held o
  stopped : (t.object o).stopped = (s.object o).stopped
  timer : (t.object o).timer = (s.object o).timer
  faults : s.ledger.faults <:+ t.ledger.faults

theorem Wanes.refl (s : Timers ω) (o : ω) : s.Wanes o s :=
  ⟨List.Subset.refl _, rfl, rfl, List.suffix_refl _⟩

theorem Wanes.trans {s t u : Timers ω} {o : ω} (h : s.Wanes o t) (hrest : t.Wanes o u) :
    s.Wanes o u :=
  ⟨List.Subset.trans hrest.held h.held, hrest.stopped.trans h.stopped, hrest.timer.trans h.timer,
    h.faults.trans hrest.faults⟩

theorem step_wanes {s t : Timers ω} {o : ω} {e : TimerEvent ω} (hok : s.Spares o e)
    (h : s.step e = some t) : s.Wanes o t := by
  cases e with
  | start p r =>
    have hp : o ≠ p := by
      rintro rfl
      exact hok r rfl
    obtain ⟨_, ⟨_, rfl⟩ | ⟨id, hid, _, rfl⟩⟩ := of_step_start h
    · exact Wanes.refl _ o
    · refine ⟨?_, ?_, ?_, List.suffix_refl _⟩
      · simp only [Ledger.held_create, if_neg (Ne.symm hp)]
        exact List.Subset.refl _
      · simp only [Function.update_of_ne hp]
      · simp only [Function.update_of_ne hp]
  | stop p =>
    cases of_step_stop h
    exact ⟨s.stop_held o p, rfl, rfl, s.stop_faults p⟩
  | destroy p =>
    cases of_step_destroy h
    by_cases hp : o = p
    · subst hp
      refine ⟨s.stop_held o o, ?_, ?_, s.stop_faults o⟩ <;> simp only [Function.update_self]
    · refine ⟨s.stop_held o p, ?_, ?_, s.stop_faults p⟩ <;> simp only [Function.update_of_ne hp]

/-- The object does not know that its timer has gone. -/
structure Stale (o : ω) (s : Timers ω) : Prop where
  gone : (s.object o).timer ∉ s.ledger.held o
  running : (s.object o).stopped = false

theorem stale_of_wanes {s t : Timers ω} {o : ω} (hs : s.Stale o) (h : s.Wanes o t) : t.Stale o := by
  refine ⟨fun hmem => hs.gone ?_, h.stopped.trans hs.running⟩
  rw [← h.timer]
  exact h.held hmem

/-- A `stop` that meets no fault leaves its object nothing. -/
theorem held_of_stop {s t : Timers ω} {o : ω} (h : s.step (.stop o) = some t)
    (hclean : t.ledger.faults = s.ledger.faults) : t.ledger.held o = [] := by
  cases of_step_stop h
  by_contra hheld
  have hleak := Ledger.settle_faults_of_held (l := (s.stop o).1) hheld
  have hgrown : s.ledger.faults.length ≤ (s.stop o).1.faults.length := by
    cases hp : (s.object o).stopped with
    | true => exact Nat.le_of_eq (congrArg (·.faults.length) (stop_of_stopped hp).symm)
    | false =>
      rw [stop_of_running hp]
      exact (Ledger.faults_release _ _ _).length_le
  have hlen := congrArg List.length (hleak.symm.trans hclean)
  rw [List.length_cons] at hlen
  omega

theorem stale_of_stop {s t : Timers ω} {o : ω} (hs : (s.object o).stopped = false)
    (h : s.step (.stop o) = some t) : t.Stale o := by
  cases of_step_stop h
  refine ⟨fun hmem => ?_, hs⟩
  rw [stop_of_running hs, Ledger.held_settle, Ledger.held_release] at hmem
  simpa using (List.mem_filter.mp hmem).2

theorem run_wanes {s t : Timers ω} {o : ω} {es : List (TimerEvent ω)}
    (hrun : Run step (Spares o) s es t) : s.Wanes o t := by
  induction hrun with
  | refl s => exact Wanes.refl _ o
  | cons hok h _ ih => exact (step_wanes hok h).trans ih

/-- How often the object has released the id it has without owning it. -/
def misuses (s : Timers ω) (o : ω) : Nat :=
  s.ledger.faults.count (.misuse o (s.object o).timer)

theorem misuses_of_wanes {s t : Timers ω} {o : ω} (h : s.Wanes o t) : s.misuses o ≤ t.misuses o := by
  rw [misuses, misuses, h.timer]
  exact h.faults.sublist.count_le _

theorem misuses_of_stop {s t : Timers ω} {o : ω} (hs : s.Stale o) (h : s.step (.stop o) = some t) :
    s.misuses o < t.misuses o := by
  cases of_step_stop h
  have hmore := (stop_misuses hs.running hs.gone).sublist.count_le (.misuse o (s.object o).timer)
  rw [List.count_cons_self] at hmore
  exact hmore

/-- A stop of an object that was started once leaves it stale, and one of a stale object releases
what it does not own. -/
theorem run_stop {s t : Timers ω} {o : ω} {es : List (TimerEvent ω)}
    (hrun : Run step (Spares o) s es t) (hmem : .stop o ∈ es) :
    ((s.object o).stopped = false → t.Stale o) ∧ (s.Stale o → s.misuses o < t.misuses o) := by
  induction hrun with
  | refl s => cases hmem
  | cons hok h hrest ih =>
    rcases List.mem_cons.mp hmem with rfl | hmem
    · have hw := run_wanes hrest
      refine ⟨fun hs => stale_of_wanes (stale_of_stop hs h) hw, fun hs => ?_⟩
      exact Nat.lt_of_lt_of_le (misuses_of_stop hs h) (misuses_of_wanes hw)
    · have hw := step_wanes hok h
      obtain ⟨hstale, hmisuse⟩ := ih hmem
      refine ⟨fun hs => hstale (hw.stopped.trans hs), fun hs => ?_⟩
      exact Nat.lt_of_le_of_lt (misuses_of_wanes hw) (hmisuse (stale_of_wanes hs hw))

end Timers

/-- A handler that will send a registration, or is about to test whether it may. -/
def Tick.registers : Tick → Bool
  | .entered .g_inh_timer | .passed => true
  | .entered .g_hb_timer | .entered .g_state_timer | .sent | .loaded _ => false

namespace VehicleEvent

/-- A report that the upstream connection is up, which starts the registrations. -/
def connects : VehicleEvent → Bool
  | up state _ _ => state = .CONNECTED
  | down _ _ | res | expire _ _ | tick _ _ => false

end VehicleEvent

namespace Vehicle

/-- The event stops `g_inh_timer`. -/
def StopsInh (s : Vehicle) : VehicleEvent → Prop
  | .up state _ _ => state ≠ .CONNECTED
  | .down state _ => state ≠ .CONNECTED
  | .res => True
  | .tick (.entered .g_inh_timer) _ => 3 ≤ s.g_inh_count
  | .expire _ _ | .tick _ _ => False

theorem stopTimers_run {x y : Timers VehicleTimer} {os : List VehicleTimer}
    (h : stopTimers x os = some y) (o : VehicleTimer) :
    Run Timers.step (Timers.Spares o) x (os.map .stop) y := by
  induction os generalizing x with
  | nil =>
    cases Option.some.inj h
    exact Run.refl _
  | cons p os ih =>
    obtain ⟨z, hz, hrest⟩ := Option.bind_eq_some_iff.mp h
    exact Run.cons (Timers.spares_stop x o p) hz (ih hrest)

theorem lost_timers {s t : Vehicle} {order : List VehicleTimer} (h : s.lost order = some t) :
    Run Timers.step (Timers.Spares .g_inh_timer) s.timers (order.map .stop) t.timers := by
  obtain ⟨timers, hstop, rfl⟩ := Option.map_eq_some_iff.mp h
  exact stopTimers_run hstop _

theorem stopInh_timers {s : Vehicle} {timers : Timers VehicleTimer}
    (h : s.timers.step (.stop .g_inh_timer) = some timers) :
    Run Timers.step (Timers.Spares .g_inh_timer) s.timers [.stop .g_inh_timer] timers :=
  Run.single (Timers.spares_stop _ _ _) h

/-- What an event does to the timers when it is not a report that the upstream connection is up. -/
theorem step_timers {s t : Vehicle} {e : VehicleEvent} (hn : e.connects = false)
    (h : s.step e = some t) :
    ∃ es, Run Timers.step (Timers.Spares .g_inh_timer) s.timers es t.timers ∧
      (s.StopsInh e → .stop .g_inh_timer ∈ es) := by
  cases e with
  | up state inh status =>
    have hc : state ≠ .CONNECTED := by simpa [VehicleEvent.connects] using hn
    simp only [step, on_up_connect_state, hc, ↓reduceIte] at h
    exact ⟨_, lost_timers h, fun _ => by simp⟩
  | down state hb =>
    simp only [step, on_down_connect_state] at h
    split at h
    next hc =>
      obtain ⟨timers, hstart, rfl⟩ := Option.map_eq_some_iff.mp h
      have hspares : s.timers.Spares .g_inh_timer (.start .g_hb_timer hb) :=
        Timers.spares_start (by decide)
      exact ⟨_, Run.single hspares hstart, fun hs => absurd hc hs⟩
    next => exact ⟨_, lost_timers h, fun _ => by simp⟩
  | res =>
    obtain ⟨timers, hstop, rfl⟩ := Option.map_eq_some_iff.mp h
    exact ⟨_, stopInh_timers hstop, fun _ => List.mem_singleton_self _⟩
  | expire o id =>
    obtain ⟨_, rfl⟩ := of_guard h
    exact ⟨[], Run.refl _, False.elim⟩
  | tick k m =>
    obtain ⟨_, h⟩ := Option.ite_none_right_eq_some.mp h
    cases k with
    | entered o =>
      cases o with
      | g_inh_timer =>
        simp only [handler] at h
        split at h
        next =>
          obtain ⟨timers, hstop, rfl⟩ := Option.map_eq_some_iff.mp h
          exact ⟨_, stopInh_timers hstop, fun _ => List.mem_singleton_self _⟩
        next hlt =>
          cases Option.some.inj h
          exact ⟨[], Run.refl _, fun hs => absurd hs hlt⟩
      | _ =>
        cases Option.some.inj h
        exact ⟨[], Run.refl _, False.elim⟩
    | _ =>
      cases Option.some.inj h
      exact ⟨[], Run.refl _, False.elim⟩

/-- The upstream connection is not reported to be up. -/
def Unconnected (_ : Vehicle) (e : VehicleEvent) : Prop := e.connects = false

instance (s : Vehicle) (e : VehicleEvent) : Decidable (s.Unconnected e) :=
  inferInstanceAs (Decidable (_ = _))

theorem run_timers {s t : Vehicle} {es : List VehicleEvent} (hrun : Run step Unconnected s es t) :
    s.timers.Wanes .g_inh_timer t.timers := by
  induction hrun with
  | refl s => exact Timers.Wanes.refl _ _
  | cons hok h _ ih =>
    obtain ⟨fs, hfs, _⟩ := step_timers hok h
    exact (Timers.run_wanes hfs).trans ih

/-- `g_inh_timer` is stopped by a response, after the third registration and by the loss of either
connection. The second of these, unless the upstream connection comes up in between, deletes a timer
by an id that the object does not own any more. A response and then a loss are enough. -/
theorem second_stop_faults {s t u v : Vehicle} {e f : VehicleEvent} {es : List VehicleEvent}
    (hset : (s.timers.object .g_inh_timer).stopped = false) (he : s.StopsInh e)
    (hfirst : s.step e = some t) (hrest : Run step Unconnected t es u) (hf : u.StopsInh f)
    (hsecond : u.step f = some v) :
    u.timers.misuses .g_inh_timer < v.timers.misuses .g_inh_timer := by
  have hcalm {x : Vehicle} {g : VehicleEvent} (hg : x.StopsInh g) : g.connects = false := by
    cases g with
    | up state inh status => exact decide_eq_false hg
    | _ => rfl
  obtain ⟨fs, hrun, hmem⟩ := step_timers (hcalm he) hfirst
  have hstale : t.timers.Stale .g_inh_timer := (Timers.run_stop hrun (hmem he)).1 hset
  have hlater : u.timers.Stale .g_inh_timer := Timers.stale_of_wanes hstale (run_timers hrest)
  obtain ⟨gs, hrun, hmem⟩ := step_timers (hcalm hf) hsecond
  exact (Timers.run_stop hrun (hmem hf)).2 hlater

/-- The heartbeat timer gets the id of the registration timer, and loses it. -/
theorem second_stop_faults_response :
    ∃ u v : Vehicle, u.timers.ledger.held .g_hb_timer = [5] ∧
      v.timers.ledger.held .g_hb_timer = [] ∧ u.timers.ledger.faults = [] ∧
      u.timers.misuses .g_inh_timer < v.timers.misuses .g_inh_timer := by
  obtain ⟨s, _, hset, hres⟩ : ∃ s, AnyRun step fresh [.up .CONNECTED (.set 5) (.set 6)] s ∧
      (s.timers.object .g_inh_timer).stopped = false ∧
      (s.step .res).any (fun t => (t.step (.down .CONNECTED (.set 5))).any fun u =>
        decide (u.timers.ledger.held .g_hb_timer = [5] ∧ u.timers.ledger.faults = []) &&
          (u.step .res).any fun v =>
            decide (v.timers.ledger.held .g_hb_timer = [])) = true := exists_run (by decide)
  rw [Option.any_eq_true] at hres
  obtain ⟨t, hfirst, ht⟩ := hres
  rw [Option.any_eq_true] at ht
  obtain ⟨u, hdown, hu⟩ := ht
  obtain ⟨hbefore, hv⟩ := Bool.and_eq_true_iff.mp hu
  obtain ⟨hfive, hclean⟩ := of_decide_eq_true hbefore
  rw [Option.any_eq_true] at hv
  obtain ⟨v, hsecond, hnone⟩ := hv
  have hrest : Run step Unconnected t [.down .CONNECTED (.set 5)] u :=
    Run.single (of_decide_eq_true rfl) hdown
  refine ⟨u, v, hfive, of_decide_eq_true hnone, hclean, ?_⟩
  exact second_stop_faults (e := .res) (f := .res) hset trivial hfirst hrest trivial hsecond

/-- No timer and no handler is left that could send a registration. -/
structure Quiet (s : Vehicle) : Prop where
  held : s.timers.ledger.held .g_inh_timer = []
  ticks : ∀ k ∈ s.ticks, k.registers = false

theorem quiet_step {s t : Vehicle} {e : VehicleEvent} (hs : s.Quiet) (hok : s.Unconnected e)
    (h : s.step e = some t) : t.Quiet ∧ t.registrations = s.registrations := by
  obtain ⟨fs, hfs, _⟩ := step_timers hok h
  have hheld : t.timers.ledger.held .g_inh_timer = [] :=
    List.subset_nil.mp (hs.held ▸ (Timers.run_wanes hfs).held)
  cases e with
  | up state inh status =>
    have hc : state ≠ .CONNECTED := of_decide_eq_false hok
    simp only [step, on_up_connect_state, hc, ↓reduceIte] at h
    obtain ⟨timers, _, rfl⟩ := Option.map_eq_some_iff.mp h
    exact ⟨⟨hheld, hs.ticks⟩, rfl⟩
  | down state hb =>
    simp only [step, on_down_connect_state] at h
    split at h
    next =>
      obtain ⟨timers, _, rfl⟩ := Option.map_eq_some_iff.mp h
      exact ⟨⟨hheld, hs.ticks⟩, rfl⟩
    next =>
      obtain ⟨timers, _, rfl⟩ := Option.map_eq_some_iff.mp h
      exact ⟨⟨hheld, hs.ticks⟩, rfl⟩
  | res =>
    obtain ⟨timers, _, rfl⟩ := Option.map_eq_some_iff.mp h
    exact ⟨⟨hheld, hs.ticks⟩, rfl⟩
  | expire o id =>
    obtain ⟨hid, rfl⟩ := of_guard h
    refine ⟨⟨hheld, fun k hk => ?_⟩, rfl⟩
    rcases List.mem_cons.mp hk with rfl | hk
    · cases o with
      | g_inh_timer => rw [hs.held] at hid; cases hid
      | _ => rfl
    · exact hs.ticks k hk
  | tick k m =>
    obtain ⟨hk, h⟩ := Option.ite_none_right_eq_some.mp h
    have hkeep : ∀ j ∈ s.ticks.erase k, j.registers = false := fun j hj =>
      hs.ticks j (List.mem_of_mem_erase hj)
    have hquiet := hs.ticks k hk
    cases k with
    | entered o =>
      cases o with
      | g_inh_timer => cases hquiet
      | _ =>
        cases Option.some.inj h
        refine ⟨⟨hheld, hkeep⟩, ?_⟩
        exact List.countP_append
    | passed => cases hquiet
    | sent =>
      cases Option.some.inj h
      refine ⟨⟨hheld, List.forall_mem_cons.mpr ⟨rfl, hkeep⟩⟩, ?_⟩
      exact List.countP_append
    | loaded n =>
      cases Option.some.inj h
      refine ⟨⟨hheld, hkeep⟩, ?_⟩
      exact List.countP_append

/-- After a response the vehicle sends no registration until the upstream connection comes up
again, if the stop of `g_inh_timer` has met no fault and no handler was on its way. -/
theorem no_registration_after_response {s t u : Vehicle} {es : List VehicleEvent}
    (h : s.step .res = some t) (hclean : t.timers.ledger.faults = s.timers.ledger.faults)
    (hticks : ∀ k ∈ t.ticks, k.registers = false) (hrest : Run step Unconnected t es u) :
    u.registrations = t.registrations := by
  have hquiet : t.Quiet := by
    obtain ⟨timers, hstop, rfl⟩ := Option.map_eq_some_iff.mp h
    exact ⟨Timers.held_of_stop hstop hclean, hticks⟩
  obtain ⟨_, hsame⟩ : u.Quiet ∧ u.registrations = t.registrations := by
    apply hrest.invariant (I := fun u => u.Quiet ∧ u.registrations = t.registrations)
    · exact ⟨hquiet, rfl⟩
    · intro x e y hx hok hstep
      obtain ⟨hy, hsent⟩ := quiet_step hx.1 hok hstep
      exact ⟨hy, hsent.trans hx.2⟩
  exact hsame

theorem no_registration_after_response_heartbeats :
    ∃ t u : Vehicle, u.sent.length = t.sent.length + 1 ∧ u.registrations = t.registrations := by
  obtain ⟨s, _, hres⟩ : ∃ s, AnyRun step fresh
      ([.up .CONNECTED (.set 5) (.set 6)] ++ handling 0 ++ [.down .CONNECTED (.set 7)]) s ∧
      (s.step .res).any (fun t => decide (t.timers.ledger.faults = s.timers.ledger.faults) &&
        (decide (∀ k ∈ t.ticks, k.registers = false) &&
          (exec step Unconnected t [.expire .g_hb_timer 7, .tick (.entered .g_hb_timer) noon]).any
            fun u => decide (u.sent.length = t.sent.length + 1))) = true := exists_run (by decide)
  rw [Option.any_eq_true] at hres
  obtain ⟨t, hstep, ht⟩ := hres
  obtain ⟨hclean, ht⟩ := Bool.and_eq_true_iff.mp ht
  obtain ⟨hticks, hrest⟩ := Bool.and_eq_true_iff.mp ht
  obtain ⟨u, hrest, hone⟩ := exists_run hrest
  refine ⟨t, u, hone, ?_⟩
  exact no_registration_after_response hstep (of_decide_eq_true hclean) (of_decide_eq_true hticks) hrest

end Vehicle

end VehicleCloud
