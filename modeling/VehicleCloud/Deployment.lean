import VehicleCloud.Registration
import VehicleCloud.SentMessages

namespace VehicleCloud

open ByteStream Printf Transition

namespace Moment

theorem inh_framable (m : Moment) : (Call.inh m.inh).Framable where
  valid := ⟨rfl, rfl, ⟨rfl, rfl, rfl, rfl⟩, Nat.le_of_eq rfl⟩
  exact_length := rfl
  versions := by
    intro n hn
    cases Call.inh.inj hn
    exact ⟨rfl, Nat.le_succ 7⟩

theorem message_framable {m : Moment} {k : Tick} {c : Call} (h : m.message k = some c) :
    c.Framable := by
  cases k with
  | entered o =>
    cases o with
    | g_hb_timer =>
      cases Option.some.inj h
      exact ⟨⟨rfl, rfl, trivial, Nat.le_refl 0⟩, rfl, nofun⟩
    | g_state_timer =>
      cases Option.some.inj h
      exact ⟨⟨rfl, rfl, rfl, Nat.le_of_eq rfl⟩, rfl, nofun⟩
    | g_inh_timer => cases h
  | passed =>
    cases Option.some.inj h
    exact m.inh_framable
  | sent => cases h
  | loaded n => cases h

end Moment

/-- What an event hands to `g_controller.send`. -/
def VehicleEvent.outgoing : VehicleEvent → Option Outgoing
  | .tick k m => (m.message k).map m.outgoing
  | .up _ _ _ | .down _ _ | .res | .expire _ _ => none

theorem VehicleEvent.outgoing_framable {e : VehicleEvent} {o : Outgoing} (h : e.outgoing = some o) :
    o.message.Framable := by
  cases e with
  | tick k m =>
    obtain ⟨c, hc, rfl⟩ := Option.map_eq_some_iff.mp h
    exact Moment.message_framable hc
  | _ => cases h

namespace Vehicle

/-- The messages that go to one of the two connections. -/
def sentOn (s : Vehicle) (d : Direction) : List Outgoing :=
  s.sent.filter fun o => (Controller.send o).1 = d

theorem lost_sent {s t : Vehicle} {order : List VehicleTimer} (h : s.lost order = some t) :
    t.sent = s.sent := by
  obtain ⟨timers, _, rfl⟩ := Option.map_eq_some_iff.mp h
  rfl

theorem handler_sent {s t : Vehicle} {k : Tick} (h : s.handler k = some t) : t.sent = s.sent := by
  cases k with
  | entered o =>
    cases o with
    | g_inh_timer =>
      simp only [handler] at h
      split at h
      next =>
        obtain ⟨timers, _, rfl⟩ := Option.map_eq_some_iff.mp h
        rfl
      next =>
        cases Option.some.inj h
        rfl
    | _ =>
      cases Option.some.inj h
      rfl
  | _ =>
    cases Option.some.inj h
    rfl

theorem step_sent {s t : Vehicle} {e : VehicleEvent} (h : s.step e = some t) :
    t.sent = s.sent ++ e.outgoing.toList := by
  cases e with
  | up state inh status =>
    simp only [step, on_up_connect_state] at h
    split at h
    next =>
      obtain ⟨timers, _, rfl⟩ := Option.map_eq_some_iff.mp h
      exact (List.append_nil _).symm
    next => exact (lost_sent h).trans (List.append_nil _).symm
  | down state hb =>
    simp only [step, on_down_connect_state] at h
    split at h
    next =>
      obtain ⟨timers, _, rfl⟩ := Option.map_eq_some_iff.mp h
      exact (List.append_nil _).symm
    next => exact (lost_sent h).trans (List.append_nil _).symm
  | res =>
    obtain ⟨timers, _, rfl⟩ := Option.map_eq_some_iff.mp h
    exact (List.append_nil _).symm
  | expire o id =>
    obtain ⟨_, rfl⟩ := of_guard h
    exact (List.append_nil _).symm
  | tick k m =>
    obtain ⟨_, h⟩ := Option.ite_none_right_eq_some.mp h
    exact handler_sent h

end Vehicle

/-- The vehicle and its two connections, each with the send thread at the vehicle's end and a
receive thread at the cloud's. The cloud's program is not part of the source: it is taken to run
the library's own receive loop. -/
structure Deployment where
  vehicle : Vehicle
  up : Link
  down : Link

inductive DeploymentEvent where
  | vehicle (e : VehicleEvent)
  | link (d : Direction) (e : LinkEvent)

namespace LinkEvent

/-- An event in which nothing is put into the queue. -/
def Local : LinkEvent → Prop
  | sender (.put _) => False
  | sender _ | recv _ | reconnect _ => True

instance (e : LinkEvent) : Decidable e.Local :=
  match e with
  | sender (.put _) => .isFalse id
  | sender .notify | sender .spurious | sender .start | sender (.test _) | sender .take
  | sender .resume | sender (.garbage _) | sender (.send _) | sender .pull => .isTrue trivial
  | recv _ | reconnect _ => .isTrue trivial

theorem offers_of_local {e : LinkEvent} (h : e.Local) : e.offers = [] := by
  cases e with
  | sender e =>
    cases e with
    | put p => exact h.elim
    | _ => rfl
  | recv p => rfl
  | reconnect buf => rfl

end LinkEvent

theorem Link.sends_of_framed {d : Direction} {s : Link} {e : LinkEvent} (hlocal : e.Local)
    (h : s.Framed e) : s.Sends d e := by
  cases e with
  | sender e =>
    cases e with
    | put p => exact hlocal.elim
    | _ => exact h
  | recv p => exact h
  | reconnect buf => exact h

namespace Deployment

def link (s : Deployment) : Direction → Link
  | .up => s.up
  | .down => s.down

def setLink (s : Deployment) (d : Direction) (l : Link) : Deployment :=
  match d with
  | .up => { s with up := l }
  | .down => { s with down := l }

@[simp] theorem setLink_vehicle (s : Deployment) (d : Direction) (l : Link) :
    (s.setLink d l).vehicle = s.vehicle := by
  cases d <;> rfl

theorem link_setLink (s : Deployment) (d e : Direction) (l : Link) :
    (s.setLink d l).link e = if e = d then l else s.link e := by
  cases d <;> cases e <;> rfl

/-- `Controller::send` -/
def send (s : Deployment) (o : Outgoing) : Option Deployment :=
  ((s.link (Controller.send o).1).step (.sender (.put (Controller.send o).2))).map
    (s.setLink (Controller.send o).1)

/-- Nothing but the vehicle's handlers puts into the queues. -/
def step (s : Deployment) : DeploymentEvent → Option Deployment
  | .vehicle e =>
    (s.vehicle.step e).bind fun v =>
      match e.outgoing with
      | none => some { s with vehicle := v }
      | some o => { s with vehicle := v }.send o
  | .link d e => if e.Local then ((s.link d).step e).map (s.setLink d) else none

/-- Calls of `::send` and `recv` at the bounds of frames. -/
def Framed (s : Deployment) : DeploymentEvent → Prop
  | .vehicle _ => True
  | .link d e => (s.link d).Framed e

/-- Every wakeup of one of the two send threads finds an item. -/
def Wakes (s : Deployment) : DeploymentEvent → Prop
  | .vehicle _ => True
  | .link d e => (s.link d).Wakes e

structure Initial (s : Deployment) : Prop where
  vehicle : s.vehicle.Initial
  link : ∀ d, ∃ buf, s.link d = Link.initial buf

theorem of_send {s t : Deployment} {o : Outgoing} (h : s.send o = some t) :
    t.vehicle = s.vehicle ∧
    ∀ d, if (Controller.send o).1 = d then
        (s.link d).step (.sender (.put (some o.pack))) = some (t.link d)
      else t.link d = s.link d := by
  obtain ⟨l, hl, rfl⟩ := Option.map_eq_some_iff.mp h
  refine ⟨setLink_vehicle _ _ _, fun d => ?_⟩
  rw [link_setLink]
  have hbuffer : (Controller.send o).2 = some o.pack := Link.send_buffer rfl
  rw [hbuffer] at hl
  split
  next hd => rw [if_pos hd.symm, ← hd, hl]
  next hd => rw [if_neg (Ne.symm hd)]

/-- What a step does to one of the connections, and to the messages sent on it. -/
inductive Moves (s t : Deployment) (d : Direction) : Prop
  | same (hlink : t.link d = s.link d) (hsent : t.vehicle.sentOn d = s.vehicle.sentOn d)
  | put (o : Outgoing) (hframable : o.message.Framable) (hroute : (Controller.send o).1 = d)
      (hstep : (s.link d).step (.sender (.put (some o.pack))) = some (t.link d))
      (hsent : t.vehicle.sentOn d = s.vehicle.sentOn d ++ [o])
  | link (e : LinkEvent) (hlocal : e.Local) (hok : (s.link d).Framed e) (hwakes : (s.link d).Wakes e)
      (hstep : (s.link d).step e = some (t.link d))
      (hsent : t.vehicle.sentOn d = s.vehicle.sentOn d)

theorem step_moves {s t : Deployment} {e : DeploymentEvent} (hok : s.Framed e) (hwakes : s.Wakes e)
    (h : s.step e = some t) (d : Direction) : s.Moves t d := by
  cases e with
  | vehicle e =>
    obtain ⟨v, hv, h⟩ := Option.bind_eq_some_iff.mp h
    have hsent := Vehicle.step_sent hv
    cases ho : e.outgoing with
    | none =>
      simp only [ho] at h hsent
      cases Option.some.inj h
      exact .same (by cases d <;> rfl) (by rw [Vehicle.sentOn, hsent]; simp [Vehicle.sentOn])
    | some o =>
      simp only [ho] at h hsent
      obtain ⟨hvehicle, hlink⟩ := of_send h
      have hd := hlink d
      split at hd
      next hroute =>
        refine .put o (VehicleEvent.outgoing_framable ho) hroute ?_ ?_
        · rw [← hd]
          cases d <;> rfl
        · rw [hvehicle]
          simp [Vehicle.sentOn, hsent, hroute]
      next hroute =>
        refine .same ?_ ?_
        · rw [hd]
          cases d <;> rfl
        · rw [hvehicle]
          simp [Vehicle.sentOn, hsent, hroute]
  | link f e =>
    obtain ⟨hlocal, h⟩ := Option.ite_none_right_eq_some.mp h
    obtain ⟨l, hl, rfl⟩ := Option.map_eq_some_iff.mp h
    by_cases hd : d = f
    · subst hd
      refine .link e hlocal hok hwakes ?_ (by rw [setLink_vehicle])
      rw [link_setLink, if_pos rfl, hl]
    · exact .same (by rw [link_setLink, if_neg hd]) (by rw [setLink_vehicle])

/-- A connection of the deployment as one that takes messages by itself. -/
structure Projects (d : Direction) (s : Deployment) (l : Link) : Prop where
  link : s.link d = l
  sound : l.loop.Sound
  sent : l.Sent d (s.vehicle.sentOn d)

theorem initial_projects {s : Deployment} (hs : s.Initial) (d : Direction) :
    ∃ buf, s.Projects d (Link.initial buf) := by
  obtain ⟨buf, hl⟩ := hs.link d
  have hnone : s.vehicle.sentOn d = [] := by
    rw [Vehicle.sentOn, hs.vehicle.sent]
    rfl
  refine ⟨buf, hl, SendLoop.initial_sound, ?_, ?_, ?_⟩
  · rw [hnone]
    rfl
  · rw [hnone]
    nofun
  · rw [hnone]
    nofun

theorem moves_projects {s t : Deployment} {d : Direction} {l : Link} (hs : s.Projects d l)
    (h : s.Moves t d) :
    ∃ fs m, Run Link.step (fun s e => s.Sends d e ∧ s.Wakes e) l fs m ∧ t.Projects d m := by
  obtain ⟨rfl, hsound, hsent⟩ := hs
  cases h with
  | same hlink hsame => exact ⟨[], _, Run.refl _, hlink, hsound, hsame ▸ hsent⟩
  | put o hframable hroute hstep hnew =>
    have hputs := Link.step_puts hsound.queued hstep
    have hok : (s.link d).Sends d (.sender (.put (some o.pack))) :=
      ⟨o, hframable, Prod.ext hroute (Link.send_buffer rfl)⟩
    have hwakes : (s.link d).Wakes (.sender (.put (some o.pack))) := by
      rintro (he | he) <;> cases he
    refine ⟨_, _, Run.single ⟨hok, hwakes⟩ hstep, rfl, Link.step_sound hsound hwakes hstep, ?_⟩
    rw [hnew]
    refine ⟨?_, ?_, ?_⟩
    · rw [hputs, hsent.puts, List.map_append]
      rfl
    · exact List.forall_mem_append.mpr ⟨hsent.framable, by simpa using hframable⟩
    · exact List.forall_mem_append.mpr ⟨hsent.routed, by simpa using hroute⟩
  | link e hlocal hok hwakes hstep hsame =>
    have hputs := Link.step_puts hsound.queued hstep
    refine ⟨_, _, Run.single ⟨Link.sends_of_framed hlocal hok, hwakes⟩ hstep, rfl,
      Link.step_sound hsound hwakes hstep, ?_⟩
    rw [hsame]
    refine ⟨?_, hsent.framable, hsent.routed⟩
    rw [hputs, LinkEvent.offers_of_local hlocal, List.append_nil, hsent.puts]

theorem calls_sublist {s t : Deployment} {es : List DeploymentEvent} (hs : s.Initial)
    (hrun : Run step (fun s e => s.Framed e ∧ s.Wakes e) s es t) (d : Direction) :
    (t.link d).receiver.calls.Sublist ((t.vehicle.sentOn d).map fun o => o.message.arrival) := by
  obtain ⟨buf, hproject⟩ := initial_projects hs d
  obtain ⟨fs, l, hlink, ht⟩ := hrun.simulate (R := Projects d)
    (fun s e t l hs hok h => moves_projects hs (step_moves hok.1 hok.2 h d)) hproject
  obtain ⟨rfl, _, hsent⟩ := ht
  exact Link.arrives_of_sent hlink hsent

/-- A report of the vehicle's that one of its connections is not up. -/
def loses : DeploymentEvent → Bool
  | .vehicle e => e.loses
  | .link _ _ => false

def Serial (s : Deployment) : DeploymentEvent → Prop
  | .vehicle e => s.vehicle.Serial e
  | .link _ _ => True

theorem step_paid {s t : Deployment} {e : DeploymentEvent}
    (hs : Vehicle.Fits s.vehicle.g_inh_count s.vehicle.active) (hok : s.Serial e)
    (h : s.step e = some t) : s.vehicle.Paid t.vehicle (loses e) := by
  cases e with
  | vehicle e =>
    obtain ⟨v, hv, h⟩ := Option.bind_eq_some_iff.mp h
    have hvehicle : t.vehicle = v := by
      cases ho : e.outgoing with
      | none =>
        simp only [ho] at h
        cases Option.some.inj h
        rfl
      | some o =>
        simp only [ho] at h
        exact (of_send h).1
    rw [hvehicle]
    exact Vehicle.step_paid hs hok hv
  | link d e =>
    obtain ⟨_, h⟩ := Option.ite_none_right_eq_some.mp h
    obtain ⟨l, _, rfl⟩ := Option.map_eq_some_iff.mp h
    rw [setLink_vehicle]
    exact Vehicle.paid_of_same hs rfl rfl (List.append_nil _).symm rfl

theorem registrations_le {s t : Deployment} {es : List DeploymentEvent} (hs : s.Initial)
    (hrun : Run step Serial s es t) : t.vehicle.registrations ≤ 3 * (es.countP loses + 1) := by
  obtain ⟨hfits, hcost⟩ := hrun.amortized
    (I := fun s => Vehicle.Fits s.vehicle.g_inh_count s.vehicle.active)
    (Vehicle.initial_fits hs.vehicle) fun s e t hs hok h => by
      have hpaid := step_paid hs hok h
      exact ⟨hpaid.fits, hpaid.cost⟩
  have hnone : s.vehicle.registrations = 0 := by
    rw [Vehicle.registrations, hs.vehicle.sent]
    rfl
  have hdue : t.vehicle.credit ≤ 3 := Vehicle.due_le hfits
  omega

theorem registers_arrival (c : Call) : c.arrival.registers = c.registers := by
  cases c <;> rfl

def fresh : Deployment := ⟨Vehicle.fresh, Link.initial fun _ => 0, Link.initial fun _ => 0⟩

theorem fresh_initial : fresh.Initial :=
  ⟨Vehicle.fresh_initial, fun d => ⟨fun _ => 0, by cases d <;> rfl⟩⟩

/-- What a registration comes to on the wire. -/
def registered : Outgoing := Vehicle.noon.outgoing (.inh Vehicle.noon.inh)

end Deployment

end VehicleCloud
