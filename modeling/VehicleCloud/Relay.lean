import VehicleCloud.ControllerSend
import VehicleCloud.Frame

namespace VehicleCloud

open ByteStream

namespace Veh2CloudInh

/-- The versions that are sent are the software version or found in it. -/
structure Repacks (m : Veh2CloudInh) : Prop where
  hw_ver_len : m.hw_ver_len = m.sw_ver_len
  hw_ver : m.hw_ver = m.sw_ver
  ad_ver : m.ad_ver <+: m.sw_ver ++ [0]

theorem stored_eq_layout_iff {m : Veh2CloudInh} (hc : m.Consistent) (past : Past) :
    (m.storedFields past).flatten = m.layout ↔ m.sw_ver_len = m.hw_ver_len ∧
      slice (cstr m.sw_ver past.sw_ver) 0 m.hw_ver.length = m.hw_ver ∧
      slice (cstr m.sw_ver past.sw_ver) 0 m.ad_ver.length = m.ad_ver := by
  simp only [layout, wireFields, storedFields, copied, ← hc.sw_ver, ← hc.hw_ver, ← hc.ad_ver,
    ← hc.user_data, cstr_slice, List.flatten_cons, List.append_cancel_left_eq, List.cons_append,
    List.nil_append, List.cons.injEq, true_and]
  constructor
  · rintro ⟨hlen, h⟩
    obtain ⟨hhw, h⟩ := List.append_inj h (slice_length _ _ _)
    simp only [List.cons.injEq, true_and] at h
    exact ⟨hlen, hhw, (List.append_inj h (slice_length _ _ _)).1⟩
  · rintro ⟨hlen, hhw, had⟩
    rw [hhw, had]
    exact ⟨hlen, rfl⟩

theorem stored_forall_layout_iff {m : Veh2CloudInh} (hc : m.Consistent) :
    (∀ past, (m.storedFields past).flatten = m.layout) ↔ m.Repacks := by
  simp only [stored_eq_layout_iff hc]
  constructor
  · intro h
    have hlen := (h ⟨fun _ => 0, fun _ => 0⟩).1
    have hhw := (h ⟨fun _ => 0, fun _ => 0⟩).2.1
    have hsame : m.hw_ver.length = m.sw_ver.length := by rw [hc.hw_ver, hc.sw_ver, hlen]
    rw [hsame, cstr_slice] at hhw
    exact ⟨hlen.symm, hhw.symm, cstr_slice_forall.mp fun past => (h ⟨past, fun _ => 0⟩).2.2⟩
  · intro h past
    refine ⟨h.hw_ver_len.symm, ?_, cstr_slice_forall.mpr h.ad_ver past.sw_ver⟩
    rw [h.hw_ver]
    exact cstr_slice _ _

end Veh2CloudInh

/-- `to_bytes` stores the message as it is. -/
def Call.Repacks : Call → Prop
  | header _ => True
  | inh m => m.Repacks
  | res _ => True
  | state _ => True

namespace Outgoing

theorem stored_length {o : Outgoing} (hc : o.message.Consistent) :
    o.stored.length = o.message.bodyBytes.length := by
  unfold stored
  cases hm : o.message with
  | header m => rfl
  | inh m =>
    rw [hm] at hc
    rw [Call.bodyBytes, m.storedFields_length, m.layout_length, hc.sw_ver, hc.hw_ver, hc.ad_ver,
      hc.user_data]
  | res m => rfl
  | state m =>
    rw [hm] at hc
    have hn : m.pass_pos.length = m.pass_pos_num.toNat := hc
    simp only [Call.bodyBytes, Veh2CloudState.indexed_eq o.points hn]

/-- Four strings or 255 way-points at most. -/
theorem stored_length_le (o : Outgoing) : o.stored.length ≤ 2122 := by
  unfold stored
  cases o.message with
  | header m => simp
  | inh m =>
    have h1 := Veh2CloudInh.versionLength_lt m.sw_ver_len
    have h2 := Veh2CloudInh.versionLength_lt m.hw_ver_len
    have h3 := Veh2CloudInh.versionLength_lt m.ad_ver_len
    have h4 := m.user_data_len.toNat_lt
    simp only [m.storedFields_length]
    omega
  | res m => simp
  | state m =>
    have hn := m.pass_pos_num.toNat_lt
    simp only [m.indexed_layout_length, Veh2CloudState.bodyLength]
    omega

theorem frame_pack {o : Outgoing} (hd : 16 + o.message.head.data_len.toNat < 2 ^ 32) :
    MessageBuffer.frame (some o.pack) = o.message.head.layout true ++ o.stored := by
  have hle := o.stored_length_le
  have hsize : (UInt32.ofNat (16 + o.stored.length)).toNat = 16 + o.stored.length := by
    rw [UInt32.toNat_ofNat']
    omega
  rw [pack_of_room hd, MessageBuffer.frame, MessageBuffer.bytes, hsize]
  apply List.take_of_length_le
  simp

theorem stored_forall_iff {c : Call} (hc : c.Consistent) :
    (∀ o : Outgoing, o.message = c → o.stored = c.bodyBytes) ↔ c.Repacks := by
  cases c with
  | header m => exact ⟨fun _ => trivial, fun _ o h => by rw [stored, h]; rfl⟩
  | inh m =>
    rw [Call.Repacks, ← Veh2CloudInh.stored_forall_layout_iff hc]
    constructor
    · intro h past
      exact h ⟨.inh m, past, fun _ => default, fun _ => 0⟩ rfl
    · intro h o ho
      rw [stored, ho]
      exact h o.past
  | res m => exact ⟨fun _ => trivial, fun _ o h => by rw [stored, h]; rfl⟩
  | state m =>
    refine ⟨fun _ => trivial, fun _ o h => ?_⟩
    have hn : m.pass_pos.length = m.pass_pos_num.toNat := hc
    simp only [stored, h, Veh2CloudState.indexed_eq o.points hn, Call.bodyBytes]

end Outgoing

/-- A peer that packs the message of the frame again sends the frame again. -/
def Frame.Relays (f : Frame) : Prop :=
  ∀ o : Outgoing, o.message = f.message → MessageBuffer.frame (some o.pack) = f.bytes

theorem Frame.room_of_pack {f : Frame} {o : Outgoing}
    (h : MessageBuffer.frame (some o.pack) = f.bytes) :
    16 + o.message.head.data_len.toNat < 2 ^ 32 := by
  by_contra hge
  have hlen := f.bytes_length
  rw [← h, Outgoing.pack_of_wrap (by omega)] at hlen
  simp [MessageBuffer.frame, MessageBuffer.bytes] at hlen
  omega

/-- Decoding and packing again keeps a frame exactly when it has no bytes to spare and, of the
registrations, when its versions can be had from the software version. -/
theorem relays_iff (f : Frame) : f.Relays ↔ f.slack = [] ∧ f.message.Repacks := by
  have hcon := f.valid.consistent
  constructor
  · intro h
    have hstored (o : Outgoing) (hm : o.message = f.message) :
        o.stored = f.message.bodyBytes ++ f.slack := by
      have hp := h o hm
      rw [Outgoing.frame_pack (f.room_of_pack hp), hm, Frame.bytes, Call.layout,
        List.append_assoc] at hp
      exact List.append_cancel_left hp
    have hslack : f.slack = [] := by
      obtain ⟨o, hm⟩ : ∃ o : Outgoing, o.message = f.message :=
        ⟨⟨f.message, ⟨fun _ => 0, fun _ => 0⟩, fun _ => default, fun _ => 0⟩, rfl⟩
      have hlen := congrArg List.length (hstored o hm)
      rw [Outgoing.stored_length (by rw [hm]; exact hcon), hm, List.length_append] at hlen
      exact List.length_eq_zero_iff.mp (by omega)
    refine ⟨hslack, (Outgoing.stored_forall_iff hcon).mp fun o hm => ?_⟩
    rw [hstored o hm, hslack, List.append_nil]
  · rintro ⟨hslack, hrepacks⟩ o hm
    have hstored := (Outgoing.stored_forall_iff hcon).mpr hrepacks o hm
    have hlen := f.length
    have hle := o.stored_length_le
    rw [hslack, List.length_nil, Nat.add_zero, ← hstored] at hlen
    have hd : 16 + o.message.head.data_len.toNat < 2 ^ 32 := by
      rw [hm]
      omega
    rw [Outgoing.frame_pack hd, hstored, hm, Frame.bytes, hslack, List.append_nil, Call.layout]

end VehicleCloud
