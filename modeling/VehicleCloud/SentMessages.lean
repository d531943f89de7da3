import VehicleCloud.LinkChannel
import VehicleCloud.Relay

namespace VehicleCloud

open ByteStream Transition

namespace Veh2CloudInh

/-- What a peer makes of a registration: the hardware version is the software version, and the
software version, with its NUL, is where the third version is taken from. -/
def arrival (m : Veh2CloudInh) : Veh2CloudInh :=
  { m with hw_ver := m.sw_ver, ad_ver := (m.sw_ver ++ [0]).take m.ad_ver.length }

/-- The length bytes go with what is stored. -/
structure Framable (m : Veh2CloudInh) : Prop where
  hw_ver_len : m.hw_ver_len = m.sw_ver_len
  ad_ver : m.ad_ver.length ≤ m.sw_ver.length + 1

theorem arrival_consistent {m : Veh2CloudInh} (hc : m.Consistent) (hf : m.Framable) :
    m.arrival.Consistent where
  sw_ver := hc.sw_ver
  hw_ver := by
    have hlen : m.sw_ver.length = versionLength m.hw_ver_len := by rw [hf.hw_ver_len, hc.sw_ver]
    exact hlen
  ad_ver := by
    have hle := hf.ad_ver
    have hlen := hc.ad_ver
    simp only [arrival, List.length_take, List.length_append, List.length_singleton]
    omega
  user_data := hc.user_data

theorem stored_eq_arrival {m : Veh2CloudInh} (hc : m.Consistent) (hf : m.Framable) (past : Past) :
    (m.storedFields past).flatten = m.arrival.layout := by
  simp only [layout, wireFields, storedFields, copied, arrival, hf.hw_ver_len, ← hc.sw_ver,
    ← hc.ad_ver, ← hc.user_data, cstr_slice, cstr_slice_of_le past.sw_ver hf.ad_ver]

end Veh2CloudInh

namespace Call

def arrival : Call → Call
  | header m => .header m
  | inh m => .inh m.arrival
  | res m => .res m
  | state m => .state m

/-- A message whose counts fit what it has and whose data length is that of its body. -/
structure Framable (c : Call) : Prop where
  valid : c.Valid
  exact_length : c.bodyBytes.length = c.head.data_len.toNat
  versions : ∀ m, c = .inh m → m.Framable

theorem stored_eq_arrival {c : Call} (hc : c.Framable) {o : Outgoing} (hm : o.message = c) :
    o.stored = c.arrival.bodyBytes := by
  have hcon := hc.valid.consistent
  cases c with
  | header m => rw [Outgoing.stored, hm]; rfl
  | inh m =>
    rw [Outgoing.stored, hm]
    exact m.stored_eq_arrival hcon (hc.versions m rfl) o.past
  | res m => rw [Outgoing.stored, hm]; rfl
  | state m =>
    have hn : m.pass_pos.length = m.pass_pos_num.toNat := hcon
    simp only [Outgoing.stored, hm, Veh2CloudState.indexed_eq o.points hn, arrival, bodyBytes]

theorem arrival_head (c : Call) : c.arrival.head = c.head := by
  cases c <;> rfl

theorem arrival_bodyBytes_length {c : Call} (hc : c.Framable) :
    c.arrival.bodyBytes.length = c.bodyBytes.length := by
  obtain ⟨o, hm⟩ : ∃ o : Outgoing, o.message = c :=
    ⟨⟨c, ⟨fun _ => 0, fun _ => 0⟩, fun _ => default, fun _ => 0⟩, rfl⟩
  have hlen := Outgoing.stored_length (o := o) (by rw [hm]; exact hc.valid.consistent)
  rw [stored_eq_arrival hc hm, hm] at hlen
  exact hlen

theorem arrival_valid {c : Call} (hc : c.Framable) : c.arrival.Valid := by
  have hover : c.arrival.overload = c.overload := by cases c <;> rfl
  constructor
  · rw [arrival_head]
    exact hc.valid.id
  · rw [arrival_head, hover]
    exact hc.valid.overload
  · have hcon := hc.valid.consistent
    cases c with
    | inh m => exact m.arrival_consistent hcon (hc.versions m rfl)
    | header m => exact hcon
    | res m => exact hcon
    | state m => exact hcon
  · rw [arrival_head, arrival_bodyBytes_length hc]
    exact hc.valid.fits

end Call

/-- A framable message is packed as one frame. -/
theorem Outgoing.pack_frame {o : Outgoing} (hc : o.message.Framable) :
    ∃ f : Frame, MessageBuffer.frame (some o.pack) = f.bytes ∧ f.message = o.message.arrival := by
  have hlen := Call.arrival_bodyBytes_length hc
  have hstored := Call.stored_eq_arrival hc rfl
  have hle := o.stored_length_le
  have hexact := hc.exact_length
  rw [hstored, hlen, hexact] at hle
  have hframe : MessageBuffer.frame (some o.pack) = o.message.arrival.layout := by
    rw [Outgoing.frame_pack (by omega), hstored, Call.layout, Call.arrival_head]
  refine ⟨⟨o.message.arrival, Call.arrival_valid hc, [], ?_⟩, ?_, rfl⟩
  · rw [List.length_nil, Nat.add_zero, hlen, Call.arrival_head, hexact]
  · exact hframe.trans (List.append_nil _).symm

namespace Link

/-- Only `Controller::send` puts, here on the queue of one of the two connections. -/
def Sends (d : Direction) (s : Link) : LinkEvent → Prop
  | .sender (.put p) => ∃ o : Outgoing, o.message.Framable ∧ Controller.send o = (d, p)
  | e => s.Framed e

theorem send_buffer {o : Outgoing} {d : Direction} {p : Option MessageBuffer}
    (h : Controller.send o = (d, p)) : p = some o.pack := by
  unfold Controller.send at h
  cases hm : o.message <;> simp only [hm, Prod.mk.injEq] at h <;> exact h.2.symm

theorem framed_of_sends {d : Direction} {s : Link} {e : LinkEvent} (h : s.Sends d e) :
    s.Framed e := by
  cases e with
  | sender e =>
    cases e with
    | put p =>
      obtain ⟨o, hc, ho⟩ := h
      obtain ⟨f, hf, _⟩ := o.pack_frame hc
      rw [← send_buffer ho] at hf
      exact ⟨f, hf.symm⟩
    | _ => exact h
  | _ => exact h

/-- The buffers put so far are those of messages that `Controller::send` was called on. -/
structure Sent (d : Direction) (s : Link) (os : List Outgoing) : Prop where
  puts : s.loop.puts = os.map fun o => some o.pack
  framable : ∀ o ∈ os, o.message.Framable
  routed : ∀ o ∈ os, (Controller.send o).1 = d

theorem step_sent {d : Direction} {s t : Link} {e : LinkEvent} {os : List Outgoing}
    (hq : s.loop.Queued) (hs : s.Sent d os) (hok : s.Sends d e) (h : s.step e = some t) :
    ∃ os, t.Sent d os := by
  cases e with
  | sender e =>
    obtain ⟨loop, hl, rfl⟩ := Option.map_eq_some_iff.mp h
    obtain ⟨hputs, _⟩ := SendLoop.step_unsent hq hl
    rw [hs.puts] at hputs
    cases e with
    | put p =>
      obtain ⟨o, hc, ho⟩ := hok
      have hd : (Controller.send o).1 = d := by rw [ho]
      refine ⟨os ++ [o], ?_, ?_, ?_⟩
      · rw [hputs, List.map_append, send_buffer ho]
        rfl
      · exact List.forall_mem_append.mpr ⟨hs.framable, by simpa using hc⟩
      · exact List.forall_mem_append.mpr ⟨hs.routed, by simpa using hd⟩
    | _ => exact ⟨os, hputs.trans (List.append_nil _), hs.framable, hs.routed⟩
  | recv p =>
    obtain ⟨_, rfl⟩ := of_guard h
    exact ⟨os, hs.puts, hs.framable, hs.routed⟩
  | reconnect buf =>
    cases Option.some.inj h
    exact ⟨os, hs.puts, hs.framable, hs.routed⟩

theorem Sent.messages {d : Direction} {s : Link} {os : List Outgoing} (hs : s.Sent d os) :
    s.loop.messages = os.map fun o => o.message.arrival := by
  rw [SendLoop.messages, hs.puts, List.flatMap_map]
  have hall := hs.framable
  clear hs
  induction os with
  | nil => rfl
  | cons o os ih =>
    obtain ⟨f, hf, hm⟩ := o.pack_frame (hall o List.mem_cons_self)
    rw [List.flatMap_cons, ih fun q hq => hall q (List.mem_cons_of_mem _ hq), hf, Frame.decoded_bytes,
      hm]
    rfl

theorem arrives_of_sent {d : Direction} {buf : Mem} {es : List LinkEvent} {s : Link}
    {os : List Outgoing} (hrun : Run step (fun s e => s.Sends d e ∧ s.Wakes e) (initial buf) es s)
    (hsent : s.Sent d os) : s.receiver.calls.Sublist (os.map fun o => o.message.arrival) := by
  obtain ⟨_, c, hc, hs⟩ := framed_refines (hrun.imp fun _ _ hok => ⟨framed_of_sends hok.1, hok.2⟩)
  have hcarried := Channel.carried_sublist hc
  rw [← hsent.messages, hs.delivered, hs.offered_messages]
  exact ((List.sublist_append_left _ _).trans hcarried).flatMap _

/-- Whatever the failures, the reconnections and the other end's reading come to, a peer's handler
is called on messages that `Controller::send` was called on for that connection, in that order and
once at most, registrations with the software version for the others, as long as every wakeup of
the send thread finds an item. -/
theorem sent_messages_arrive {d : Direction} {buf : Mem} {es : List LinkEvent} {s : Link}
    (hrun : Run step (fun s e => s.Sends d e ∧ s.Wakes e) (initial buf) es s) :
    ∃ os : List Outgoing, s.Sent d os ∧
      s.receiver.calls.Sublist (os.map fun o => o.message.arrival) := by
  obtain ⟨_, os, hsent⟩ : s.loop.Sound ∧ ∃ os, s.Sent d os := by
    apply hrun.invariant (I := fun s => s.loop.Sound ∧ ∃ os, s.Sent d os)
    · exact ⟨SendLoop.initial_sound, [], rfl, nofun, nofun⟩
    · rintro s e t ⟨hsound, os, hsent⟩ ⟨hsends, hwakes⟩ h
      exact ⟨step_sound hsound hwakes h, step_sent hsound.queued hsent hsends h⟩
  exact ⟨os, hsent, arrives_of_sent hrun hsent⟩

/-- A registration with the versions "a1", "b1" and "c1". -/
def registration : Outgoing where
  message := .inh (Veh2CloudInh.ofArgs { (default : Veh2CloudInh.Args) with
    sw_ver := [0x61, 0x31], hw_ver := [0x62, 0x31], ad_ver := [0x63, 0x31] })
  past := ⟨fun _ => 7, fun _ => 7⟩
  points := fun _ => default
  stack := fun _ => 9

theorem registration_framable : registration.message.Framable where
  valid := ⟨rfl, rfl, ⟨rfl, rfl, rfl, rfl⟩, by decide⟩
  exact_length := rfl
  versions := by
    intro m hm
    cases Call.inh.inj hm
    exact ⟨rfl, by decide⟩

theorem sent_messages_arrive_registration :
    ∃ s : Link, s.receiver.calls = [registration.message.arrival] ∧ ∃ os : List Outgoing,
      s.Sent .up os ∧ s.receiver.calls.Sublist (os.map fun o => o.message.arrival) := by
  obtain ⟨f, hf, hm⟩ := registration.pack_frame registration_framable
  have hrun : ∃ s, Run step (Sends .up) (initial fun _ => 0)
      [.sender .start, .sender (.put (some registration.pack)), .sender (.test false),
        .sender .take, .sender (.send (.sent 38)),
        .recv (Controller.arrival default (MessageBuffer.frame (some registration.pack)))] s ∧
      s.receiver.calls = [registration.message.arrival] := by
    refine ⟨_, Run.cons trivial rfl (Run.cons ⟨registration, registration_framable, rfl⟩ rfl
      (Run.cons trivial rfl (Run.cons trivial rfl (Run.cons (Or.inr ?_) rfl
        (Run.cons (Or.inr ⟨f, [], ?_⟩) rfl (Run.refl _)))))), ?_⟩
    · intro p hp
      cases Option.some.inj hp
      decide
    · rw [← hf]
      decide
    · decide
  obtain ⟨s, hrun, hone⟩ := hrun
  have hwakes := hrun.and Wakes (by simp [Wakes, SendLoop.WakesOnItem])
  exact ⟨s, hone, sent_messages_arrive hwakes⟩

end Link

end VehicleCloud
