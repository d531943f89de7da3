import VehicleCloud.TimerOwner
import VehicleCloud.Vehicle

namespace VehicleCloud

open Custody Transition

namespace Tick

/-- Between the test of `g_inh_count` and the end of `g_inh_count++`. -/
def active : Tick → Bool
  | entered _ => false
  | passed | sent | loaded _ => true

end Tick

namespace VehicleEvent

/-- A report other than that a connection is up. -/
def loses : VehicleEvent → Bool
  | up state _ _ => state ≠ .CONNECTED
  | down state _ => state ≠ .CONNECTED
  | res | expire _ _ | tick _ _ => false

end VehicleEvent

def Call.registers : Call → Bool
  | inh _ => true
  | header _ | res _ | state _ => false

def Outgoing.registers (o : Outgoing) : Bool := o.message.registers

namespace Vehicle

def active (s : Vehicle) : List Tick := s.ticks.filter Tick.active

def registrations (s : Vehicle) : Nat := s.sent.countP Outgoing.registers

/-- No two runs of the registration handler overlap in what they do to `g_inh_count`. -/
def Serial (s : Vehicle) : VehicleEvent → Prop
  | .tick (.entered .g_inh_timer) _ => s.active = []
  | _ => True

instance (s : Vehicle) (e : VehicleEvent) : Decidable (s.Serial e) :=
  match e with
  | .tick (.entered .g_inh_timer) _ => inferInstanceAs (Decidable (_ = _))
  | .tick (.entered .g_hb_timer) _ | .tick (.entered .g_state_timer) _ => .isTrue trivial
  | .tick .passed _ | .tick .sent _ | .tick (.loaded _) _ => .isTrue trivial
  | .up _ _ _ | .down _ _ | .res | .expire _ _ => .isTrue trivial

/-- The value of `g_inh_count` and the handler that is at work on it. -/
def Fits (count : UInt64) : List Tick → Prop
  | [] => count.toNat ≤ 3
  | [.passed] => count.toNat < 3
  | [.sent] => count.toNat < 3
  | [.loaded n] => n.toNat < 3 ∧ count.toNat ≤ n.toNat
  | _ => False

/-- What `g_inh_count` is when that handler is done. -/
def due (count : UInt64) : List Tick → Nat
  | .sent :: _ => count.toNat + 1
  | .loaded n :: _ => n.toNat + 1
  | _ => count.toNat

theorem fits_cases {count : UInt64} {ks : List Tick} (h : Fits count ks) :
    ks = [] ∧ count.toNat ≤ 3 ∨ ks = [.passed] ∧ count.toNat < 3 ∨ ks = [.sent] ∧ count.toNat < 3 ∨
      ∃ n, ks = [.loaded n] ∧ n.toNat < 3 ∧ count.toNat ≤ n.toNat := by
  unfold Fits at h
  split at h
  next => exact Or.inl ⟨rfl, h⟩
  next => exact Or.inr (Or.inl ⟨rfl, h⟩)
  next => exact Or.inr (Or.inr (Or.inl ⟨rfl, h⟩))
  next n => exact Or.inr (Or.inr (Or.inr ⟨n, rfl, h⟩))
  next => exact h.elim

theorem fits_zero {count : UInt64} {ks : List Tick} (h : Fits count ks) : Fits 0 ks := by
  rcases fits_cases h with ⟨rfl, _⟩ | ⟨rfl, _⟩ | ⟨rfl, _⟩ | ⟨n, rfl, hn, _⟩
  · exact Nat.zero_le 3
  · exact Nat.zero_lt_succ 2
  · exact Nat.zero_lt_succ 2
  · exact ⟨hn, Nat.zero_le _⟩

theorem due_le {count : UInt64} {ks : List Tick} (h : Fits count ks) : due count ks ≤ 3 := by
  rcases fits_cases h with ⟨rfl, hc⟩ | ⟨rfl, hc⟩ | ⟨rfl, hc⟩ | ⟨n, rfl, hn, _⟩
  · exact hc
  · exact Nat.le_of_lt hc
  · exact hc
  · exact hn

/-- The one handler at work is the one that takes a step. -/
theorem active_eq {s : Vehicle} (h : Fits s.g_inh_count s.active) {k : Tick} (hk : k ∈ s.ticks)
    (ha : k.active = true) : s.active = [k] ∧ (s.ticks.erase k).filter Tick.active = [] := by
  have hmem : k ∈ s.active := List.mem_filter.mpr ⟨hk, ha⟩
  have hone : s.active = [k] := by
    rcases fits_cases h with ⟨hks, _⟩ | ⟨hks, _⟩ | ⟨hks, _⟩ | ⟨n, hks, _⟩
    · rw [hks] at hmem
      cases hmem
    all_goals
      rw [hks] at hmem ⊢
      rw [List.mem_singleton.mp hmem]
  refine ⟨hone, ?_⟩
  rw [← List.erase_filter]
  change s.active.erase k = []
  rw [hone, List.erase_cons_head]

theorem active_erase {s : Vehicle} {k : Tick} (ha : k.active = false) :
    (s.ticks.erase k).filter Tick.active = s.active := by
  rw [← List.erase_filter]
  apply List.erase_of_not_mem
  intro hk
  rw [(List.mem_filter.mp hk).2] at ha
  cases ha

/-- What a state has in credit is what `g_inh_count` is or becomes. -/
def credit (s : Vehicle) : Nat := due s.g_inh_count s.active

/-- A step costs no more registrations than it brings credit, but for a loss. -/
structure Paid (s t : Vehicle) (lost : Bool) : Prop where
  fits : Fits t.g_inh_count t.active
  cost : t.registrations + s.credit ≤ s.registrations + t.credit + (if lost then 3 else 0)

theorem paid_of {s t : Vehicle} {p q : List Tick} {os : List Outgoing}
    (hs : s.active = p) (ht : t.active = q) (hsent : t.sent = s.sent ++ os)
    (hfits : Fits t.g_inh_count q)
    (hcost : os.countP Outgoing.registers + due s.g_inh_count p ≤ due t.g_inh_count q) :
    s.Paid t false := by
  refine ⟨ht ▸ hfits, ?_⟩
  rw [credit, credit, hs, ht, registrations, registrations, hsent, List.countP_append]
  simp only [Bool.false_eq_true, ↓reduceIte]
  omega

theorem paid_of_same {s t : Vehicle} {os : List Outgoing} (hs : Fits s.g_inh_count s.active)
    (hcount : t.g_inh_count = s.g_inh_count) (hactive : t.active = s.active)
    (hsent : t.sent = s.sent ++ os) (hnone : os.countP Outgoing.registers = 0) : s.Paid t false := by
  refine paid_of rfl hactive hsent (hcount ▸ hs) (Nat.le_of_eq ?_)
  rw [hnone, hcount, Nat.zero_add]

theorem lost_paid {s t : Vehicle} {order : List VehicleTimer} (hs : Fits s.g_inh_count s.active)
    (h : s.lost order = some t) : s.Paid t true := by
  obtain ⟨timers, _, rfl⟩ := Option.map_eq_some_iff.mp h
  refine ⟨fits_zero hs, ?_⟩
  have hdue : s.credit ≤ 3 := due_le hs
  simp only [↓reduceIte]
  exact Nat.add_le_add (Nat.le_add_right _ _) hdue

theorem entered_paid {s t : Vehicle} {o : VehicleTimer} {m : Moment}
    (hs : Fits s.g_inh_count s.active) (hok : s.Serial (.tick (.entered o) m))
    (h : s.step (.tick (.entered o) m) = some t) : s.Paid t false := by
  obtain ⟨_, h⟩ := Option.ite_none_right_eq_some.mp h
  have herase := active_erase (s := s) (k := .entered o) rfl
  cases o with
  | g_hb_timer =>
    cases Option.some.inj h
    exact paid_of_same hs rfl herase rfl rfl
  | g_state_timer =>
    cases Option.some.inj h
    exact paid_of_same hs rfl herase rfl rfl
  | g_inh_timer =>
    simp only [handler] at h
    split at h
    next =>
      obtain ⟨timers, _, rfl⟩ := Option.map_eq_some_iff.mp h
      exact paid_of_same hs rfl herase rfl rfl
    next hlt =>
      cases Option.some.inj h
      have hidle : s.active = [] := hok
      have hfew : s.g_inh_count.toNat < 3 := UInt64.lt_iff_toNat_lt.mp (UInt64.not_le.mp hlt)
      exact paid_of (q := [.passed]) hidle (congrArg _ (herase.trans hidle)) rfl hfew
        (Nat.le_of_eq (Nat.zero_add _))

/-- One step of a registration handler past its test. -/
theorem active_paid {s t : Vehicle} {k : Tick} {m : Moment} (hs : Fits s.g_inh_count s.active)
    (ha : k.active = true) (h : s.step (.tick k m) = some t) : s.Paid t false := by
  obtain ⟨hk, h⟩ := Option.ite_none_right_eq_some.mp h
  obtain ⟨hone, hrest⟩ := active_eq hs hk ha
  rw [hone] at hs
  cases k with
  | entered o => cases ha
  | passed =>
    cases Option.some.inj h
    exact paid_of (q := [.sent]) hone (congrArg _ hrest) rfl hs (Nat.le_of_eq (Nat.add_comm _ _))
  | sent =>
    cases Option.some.inj h
    exact paid_of (q := [.loaded s.g_inh_count]) hone (congrArg _ hrest) rfl
      ⟨hs, Nat.le_refl _⟩ (Nat.le_of_eq (Nat.zero_add _))
  | loaded n =>
    cases Option.some.inj h
    have hn : n.toNat < 3 := hs.1
    have hnext : (n + 1).toNat = n.toNat + 1 := by
      rw [UInt64.toNat_add]
      exact Nat.mod_eq_of_lt (by simp only [UInt64.reduceToNat]; omega)
    refine paid_of (q := []) hone hrest rfl (Nat.le_trans (Nat.le_of_eq hnext) hn) ?_
    exact Nat.le_of_eq ((Nat.zero_add _).trans hnext.symm)

theorem step_paid {s t : Vehicle} {e : VehicleEvent} (hs : Fits s.g_inh_count s.active)
    (hok : s.Serial e) (h : s.step e = some t) : s.Paid t e.loses := by
  have hsame {x : Timers VehicleTimer} : s.Paid { s with timers := x } false :=
    paid_of_same hs rfl rfl (List.append_nil _).symm rfl
  cases e with
  | up state inh status =>
    by_cases hc : state = .CONNECTED
    · simp only [step, on_up_connect_state, hc, ↓reduceIte] at h
      obtain ⟨timers, _, rfl⟩ := Option.map_eq_some_iff.mp h
      simpa [VehicleEvent.loses, hc] using hsame
    · simp only [step, on_up_connect_state, hc, ↓reduceIte] at h
      simpa [VehicleEvent.loses, hc] using lost_paid hs h
  | down state hb =>
    by_cases hc : state = .CONNECTED
    · simp only [step, on_down_connect_state, hc, ↓reduceIte] at h
      obtain ⟨timers, _, rfl⟩ := Option.map_eq_some_iff.mp h
      simpa [VehicleEvent.loses, hc] using hsame
    · simp only [step, on_down_connect_state, hc, ↓reduceIte] at h
      simpa [VehicleEvent.loses, hc] using lost_paid hs h
  | res =>
    obtain ⟨timers, _, rfl⟩ := Option.map_eq_some_iff.mp h
    exact paid_of_same hs rfl rfl (List.append_nil _).symm rfl
  | expire o id =>
    obtain ⟨_, rfl⟩ := of_guard h
    exact paid_of_same hs rfl rfl (List.append_nil _).symm rfl
  | tick k m =>
    cases hk : k.active with
    | false =>
      cases k with
      | entered o => exact entered_paid hs hok h
      | _ => cases hk
    | true => exact active_paid hs hk h

theorem initial_fits {s : Vehicle} (hs : s.Initial) : Fits s.g_inh_count s.active := by
  rw [active, hs.count, hs.ticks]
  exact Nat.zero_le 3

theorem run_paid {s t : Vehicle} {es : List VehicleEvent} (hs : Fits s.g_inh_count s.active)
    (hrun : Run step Serial s es t) :
    Fits t.g_inh_count t.active ∧
    t.registrations + s.credit ≤
      s.registrations + t.credit + 3 * es.countP VehicleEvent.loses := by
  apply hrun.amortized (I := fun s => Fits s.g_inh_count s.active) hs
  intro s e t hs hok h
  have hpaid := step_paid hs hok h
  exact ⟨hpaid.fits, hpaid.cost⟩

/-- As long as the runs of the registration handler do not overlap, a vehicle sends at most three
registrations before the next connection is lost, wherever it stands, and three for each loss. -/
theorem registrations_capped {s t u : Vehicle} {es fs : List VehicleEvent} (hs : s.Initial)
    (hrun : Run step Serial s es t) (hrest : Run step Serial t fs u) :
    u.registrations ≤ t.registrations + 3 * (fs.countP VehicleEvent.loses + 1) := by
  obtain ⟨ht, _⟩ := run_paid (initial_fits hs) hrun
  obtain ⟨hu, hcost⟩ := run_paid ht hrest
  have hdue : u.credit ≤ 3 := due_le hu
  omega

def fresh : Vehicle := ⟨⟨fun _ => ⟨true, 0, false⟩, .empty⟩, false, 0, [], []⟩

theorem fresh_initial : fresh.Initial := ⟨⟨fun _ => rfl, rfl⟩, rfl, rfl, rfl⟩

def noon : Moment := ⟨43200000, 43200000, ⟨fun _ => 7, fun _ => 7⟩, fun _ => default, fun _ => 9⟩

/-- A run of the registration handler from its start, at the given value of `g_inh_count`. -/
def handling (count : UInt64) : List VehicleEvent :=
  [.expire .g_inh_timer 5, .tick (.entered .g_inh_timer) noon, .tick .passed noon, .tick .sent noon,
    .tick (.loaded count) noon]

/-- The connection is lost between the reading and the writing of `g_inh_count`. -/
def losing : List VehicleEvent :=
  [.up .CONNECTED (.set 5) (.set 6), .expire .g_inh_timer 5, .tick (.entered .g_inh_timer) noon,
    .tick .passed noon, .tick .sent noon, .up .LOST .noTimer .noTimer, .tick (.loaded 0) noon]

theorem registrations_capped_losing :
    ∃ t u : Vehicle, t.registrations = 1 ∧ u.registrations = 3 ∧
      u.registrations ≤ t.registrations + 3 * (0 + 1) := by
  obtain ⟨t, hrun, hone, hrest⟩ : ∃ t, Run step Serial fresh losing t ∧ t.registrations = 1 ∧
      (exec step Serial t ([.up .CONNECTED (.set 5) (.set 6)] ++ handling 1 ++ handling 2)).any
        (fun u => decide (u.registrations = 3)) = true := exists_run (by decide)
  obtain ⟨u, hrest, hthree⟩ := exists_run hrest
  exact ⟨t, u, hone, hthree, registrations_capped fresh_initial hrun hrest⟩

/-- Two runs of the handler that overlap send a fourth registration. -/
theorem overlapping_registrations :
    ¬ ∀ es t, AnyRun step fresh es t →
      t.registrations ≤ 3 * (es.countP VehicleEvent.loses + 1) := by
  intro h
  obtain ⟨t, hrun, hfour⟩ : ∃ t, AnyRun step fresh ([.up .CONNECTED (.set 5) (.set 6)] ++
      handling 0 ++ handling 1 ++ [.expire .g_inh_timer 5, .expire .g_inh_timer 5,
        .tick (.entered .g_inh_timer) noon, .tick (.entered .g_inh_timer) noon, .tick .passed noon,
        .tick .passed noon]) t ∧ t.registrations = 4 := exists_run (by decide)
  have hthree := h _ t hrun
  rw [hfour] at hthree
  exact absurd hthree (by decide)

end Vehicle

end VehicleCloud
