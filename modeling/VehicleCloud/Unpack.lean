import VehicleCloud.WireFormat

namespace VehicleCloud

open ByteStream

namespace Packer

/-- The identifier and type bytes are read first, then the `switch` is entered. -/
theorem unpack_eq_dispatch {size : UInt64} {mem : Mem} (raw : Raw) (hs : size ≠ 0)
    (hid : mem 0 = 0xF2) :
    unpack raw false size mem 0 =
      ⟨(dispatch raw size (mem 5) mem 0).value, (dispatch raw size (mem 5) mem 0).offset,
       0 :: 5 :: (dispatch raw size (mem 5) mem 0).reads⟩ := by
  simp [unpack, hs, hid]

theorem unpack_of_no_identifier {size : UInt64} {mem : Mem} (raw : Raw) (hs : size ≠ 0)
    (hid : mem 0 ≠ 0xF2) : unpack raw false size mem 0 = ⟨[], 0, [0]⟩ := by
  simp [unpack, hs, hid]

theorem dispatch_eq (raw : Raw) (size : UInt64) (t : UInt8) :
    dispatch raw size t = match overloadOf t with
      | some .inh => do
        let msg ← Veh2CloudInh.decode raw.inh false size true
        pure [Call.inh msg]
      | some .res => do
        let msg ← Cloud2VehInhRes.decode raw.res false size true
        pure [Call.res msg]
      | some .state => do
        let msg ← Veh2CloudState.decode raw.state false size true
        pure [Call.state msg]
      | some .header => do
        let msg ← MessageHeader.decode raw.header false size true
        pure [Call.header msg]
      | none => pure [] := by
  unfold dispatch overloadOf
  split_ifs <;> rfl

theorem unpack_of_unknown {size : UInt64} {mem : Mem} (raw : Raw) (hs : size ≠ 0)
    (hid : mem 0 = 0xF2) (hk : overloadOf (mem 5) = none) :
    unpack raw false size mem 0 = ⟨[], 0, [0, 5]⟩ := by
  rw [unpack_eq_dispatch raw hs hid, dispatch_eq, hk]
  rfl

/-- A buffer that starts with the layout of a message and holds the declared length is
delivered as that message, whatever the object's memory held. -/
theorem unpack_of_layout {size : UInt64} {mem : Mem} {c : Call} (raw : Raw)
    (hid : mem 0 = 0xF2) (hk : overloadOf (mem 5) = some c.overload) (hc : c.Consistent)
    (hm : Holds mem 0 c.layout) (hd : 16 + declaredLength mem ≤ size.toNat) :
    unpack raw false size mem 0 =
      ⟨[c], c.layout.length, 0 :: 5 :: List.range' 0 c.layout.length⟩ := by
  obtain ⟨hh, _⟩ := Call.holds_layout.mp hm
  rw [header_data_len hh] at hd
  have hs : 16 ≤ size.toNat := by omega
  have hne : size ≠ 0 := by
    rintro rfl
    simp at hs
  rw [unpack_eq_dispatch raw hne hid, dispatch_eq, hk, Call.layout_length]
  cases c with
  | header m =>
    have hr := MessageHeader.decode_of_le hs hh raw.header 0
    simp [Call.overload, Call.bodyBytes, Call.head, hr]
  | inh m =>
    have hr : raw.inh.decode false size true mem 0 = _ :=
      MessageHeader.decodeWith_of_yields (Veh2CloudInh.yields_body hc) hm hd
    simp only [Call.overload, Call.bodyBytes, Reader.bind_run, hr, Reader.pure_run, List.append_nil]
  | res m =>
    have hr : raw.res.decode false size true mem 0 = _ :=
      MessageHeader.decodeWith_of_yields (Cloud2VehInhRes.yields_body m) hm hd
    simp only [Call.overload, Call.bodyBytes, Reader.bind_run, hr, Reader.pure_run, List.append_nil]
  | state m =>
    have hr : raw.state.decode false size true mem 0 = _ :=
      MessageHeader.decodeWith_of_yields (Veh2CloudState.yields_body m true hc) hm hd
    simp only [Call.overload, Call.bodyBytes, Reader.bind_run, hr, Reader.pure_run, List.append_nil]

/-- The objects handed on after a failed length check. -/
def rejectedCall (raw : Raw) (h : MessageHeader) : Overload → Call
  | .header => .header h
  | .inh => .inh (raw.inh.rejected h)
  | .res => .res (raw.res.rejected h)
  | .state => .state (raw.state.rejected h)

/-- A buffer shorter than its declared length is delivered all the same. -/
theorem unpack_of_truncated {size : UInt64} {mem : Mem} {h : MessageHeader} {k : Overload}
    (raw : Raw) (hid : mem 0 = 0xF2) (hk : overloadOf (mem 5) = some k)
    (hm : Holds mem 0 (h.layout true)) (hs : 16 ≤ size.toNat)
    (hd : size.toNat < 16 + declaredLength mem) :
    unpack raw false size mem 0 =
      ⟨[rejectedCall raw h k], 16, 0 :: 5 :: List.range' 0 16⟩ := by
  rw [header_data_len hm] at hd
  have hne : size ≠ 0 := by
    rintro rfl
    simp at hs
  rw [unpack_eq_dispatch raw hne hid, dispatch_eq, hk]
  cases k with
  | header =>
    have hr := MessageHeader.decode_of_le hs hm raw.header 0
    simp [rejectedCall, hr]
  | inh =>
    have hr : raw.inh.decode false size true mem 0 = _ :=
      MessageHeader.decodeWith_of_invalid hm hs hd
    simp [rejectedCall, hr]
  | res =>
    have hr : raw.res.decode false size true mem 0 = _ :=
      MessageHeader.decodeWith_of_invalid hm hs hd
    simp [rejectedCall, hr]
  | state =>
    have hr : raw.state.decode false size true mem 0 = _ :=
      MessageHeader.decodeWith_of_invalid hm hs hd
    simp [rejectedCall, hr]

/-- A buffer shorter than the header is delivered too, and a body is read behind its end. -/
theorem unpack_of_short {size : UInt64} {mem : Mem} {k : Overload} (raw : Raw) (hne : size ≠ 0)
    (hid : mem 0 = 0xF2) (hk : overloadOf (mem 5) = some k) (hs : size.toNat < 16) :
    ∃ c : Call, c.overload = k ∧ (unpack raw false size mem 0).value = [c] ∧
      (unpack raw false size mem 0).reads = 0 :: 5 :: List.range' 16 c.bodyBytes.length := by
  rw [unpack_eq_dispatch raw hne hid, dispatch_eq, hk]
  cases k with
  | header =>
    have hr := MessageHeader.decode_of_short hs raw.header true mem 0
    exact ⟨.header { raw.header with id := 0xF2 }, rfl, by simp [hr], by simp [hr, Call.bodyBytes]⟩
  | inh =>
    obtain ⟨_, m, _, ⟨_, _, rfl⟩, hb⟩ :=
      Veh2CloudInh.scans_body { raw.inh.toMessageHeader with id := 0xF2 } mem 16
    have hr : raw.inh.decode false size true mem 0 = _ :=
      (MessageHeader.decodeWith_of_short hs).trans hb
    exact ⟨.inh m, rfl, by simp [hr], by simp [hr, Call.bodyBytes]⟩
  | res =>
    obtain ⟨_, m, _, ⟨_, rfl⟩, hb⟩ :=
      Cloud2VehInhRes.scans_body { raw.res.toMessageHeader with id := 0xF2 } mem 16
    have hr : raw.res.decode false size true mem 0 = _ :=
      (MessageHeader.decodeWith_of_short hs).trans hb
    exact ⟨.res m, rfl, by simp [hr], by simp [hr, Call.bodyBytes]⟩
  | state =>
    obtain ⟨_, m, _, ⟨_, _, rfl⟩, hb⟩ :=
      Veh2CloudState.scans_body { raw.state.toMessageHeader with id := 0xF2 } true mem 16
    have hr : raw.state.decode false size true mem 0 = _ :=
      (MessageHeader.decodeWith_of_short hs).trans hb
    exact ⟨.state m, rfl, by simp [hr], by simp [hr, Call.bodyBytes]⟩

end Packer

end VehicleCloud
