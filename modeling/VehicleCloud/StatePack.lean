import VehicleCloud.Frame

namespace VehicleCloud

open ByteStream

namespace Veh2CloudState

/-- A packed message: frame size, length field, room on the stack, and what the peer decodes. -/
structure PackedWell (a : Args) (p : Packed) (raw : Raw) (beyond : Mem) : Prop where
  length : p.buffer.data.length = 16 + 82 + 8 * a.pass_pos.length
  size : p.buffer.size.toNat = p.buffer.data.length
  data_len : declaredLength (Mem.ofBytes p.buffer.data beyond) = 82 + 8 * a.pass_pos.length
  in_room : ∀ w ∈ p.sink.writes, w.2 < p.room.toNat
  unpacked : (Packer.unpack raw false p.buffer.size.toUInt64 (Mem.ofBytes p.buffer.data beyond) 0).value =
    [Call.state (ofArgs a)]

/-- Packing succeeds whatever the stack, the neighbourhood of the way-point vector and the memory
behind the frame hold. -/
def PacksFaithfully (a : Args) : Prop :=
  ∀ (past : Nat → Position2D) (stack : Mem) (raw : Raw) (beyond : Mem),
    PackedWell a (Packer.packState (ofArgs a) past stack) raw beyond

theorem ofArgs_count {a : Args} (hn : a.pass_pos.length ≤ 255) :
    (ofArgs a).pass_pos.length = (ofArgs a).pass_pos_num.toNat := by
  simp only [ofArgs, UInt8.toNat_ofNat']
  omega

/-- The data length counts one byte for each way-point. -/
theorem ofArgs_data_len {a : Args} (hn : a.pass_pos.length ≤ 255) :
    (ofArgs a).data_len.toNat = 82 + a.pass_pos.length := by
  simp only [ofArgs, sizeofFixed, UInt32.toNat_ofNat']
  omega

theorem packState_ofArgs {a : Args} (hn : a.pass_pos.length ≤ 255) (past : Nat → Position2D)
    (stack : Mem) :
    Packer.packState (ofArgs a) past stack =
      ⟨UInt64.ofNat (98 + a.pass_pos.length),
       ⟨98 + 8 * a.pass_pos.length,
        ((ofArgs a).toMessageHeader.layout true ++ (ofArgs a).layout true).zipIdx,
        (ofArgs a).fetched⟩,
       ⟨UInt32.ofNat (98 + 8 * a.pass_pos.length),
        (ofArgs a).toMessageHeader.layout true ++ (ofArgs a).layout true⟩⟩ := by
  have hd := ofArgs_data_len hn
  have hlen : 16 + ((ofArgs a).layout true).length = 98 + 8 * a.pass_pos.length := by
    rw [layout_length]
    simp only [ofArgs]
    omega
  have hroom : 16 + (ofArgs a).data_len.toNat = 98 + a.pass_pos.length := by omega
  have hp := Packer.packWith_of_emits (emits_store_of_count (ofArgs_count hn) past true)
    (h := (ofArgs a).toMessageHeader) (by omega) stack
  rw [hlen, hroom] at hp
  exact hp

theorem frame_length {a : Args} :
    ((ofArgs a).toMessageHeader.layout true ++ (ofArgs a).layout true).length =
      98 + 8 * a.pass_pos.length := by
  simp only [List.length_append, MessageHeader.layout_length, layout_length, ofArgs]
  omega

theorem exists_last_write {a : Args} (hn : a.pass_pos.length ≤ 255) (past : Nat → Position2D)
    (stack : Mem) :
    ∃ w ∈ (Packer.packState (ofArgs a) past stack).sink.writes,
      w.2 = 97 + 8 * a.pass_pos.length := by
  rw [packState_ofArgs hn]
  have hi : 97 + 8 * a.pass_pos.length <
      ((ofArgs a).toMessageHeader.layout true ++ (ofArgs a).layout true).length := by
    rw [frame_length]
    omega
  obtain ⟨b, hb⟩ := mem_zipIdx_iff.mpr hi
  exact ⟨(b, _), hb, rfl⟩

theorem packedWell_of_nil {a : Args} (hp : a.pass_pos = []) (past : Nat → Position2D)
    (stack : Mem) (raw : Raw) (beyond : Mem) :
    PackedWell a (Packer.packState (ofArgs a) past stack) raw beyond := by
  have hn : a.pass_pos.length = 0 := by rw [hp]; rfl
  have hle : a.pass_pos.length ≤ 255 := by omega
  have hd := ofArgs_data_len hle
  have hlen := frame_length (a := a)
  have hm := holds_ofBytes ((ofArgs a).toMessageHeader.layout true ++ (ofArgs a).layout true) beyond
  have hh := (holds_append.mp hm).1
  rw [packState_ofArgs hle]
  constructor
  · simp only [hlen, hn]
  · simp only [hlen, hn]
    rfl
  · rw [header_data_len hh, hd, hn]
  · rintro ⟨b, i⟩ hw
    have hi := mem_zipIdx_iff.mp ⟨b, hw⟩
    rw [hlen, hn] at hi
    simp only [hn, UInt64.toNat_ofNat']
    omega
  · have hfits : 16 + declaredLength (Mem.ofBytes ((ofArgs a).toMessageHeader.layout true ++
        (ofArgs a).layout true) beyond) ≤ (UInt64.ofNat 98).toNat := by
      rw [header_data_len hh, hd, hn]
      exact Nat.le_refl _
    have hu := Packer.unpack_of_layout (c := .state (ofArgs a)) raw
      (header_id hh) (by rw [header_data_type hh]; rfl) (ofArgs_count hle) hm hfits
    simp only [hn]
    exact congrArg Read.value hu

/-- Packing is faithful exactly for the empty way-point list. -/
theorem packsFaithfully_iff (a : Args) (hn : a.pass_pos.length ≤ 255) :
    PacksFaithfully a ↔ a.pass_pos = [] := by
  constructor
  · intro h
    obtain ⟨w, hw, hi⟩ := exists_last_write hn (fun _ => default) (fun _ => 0)
    have hroom := (h (fun _ => default) (fun _ => 0) default (fun _ => 0)).in_room w hw
    rw [packState_ofArgs hn, hi] at hroom
    simp only [UInt64.toNat_ofNat'] at hroom
    apply List.length_eq_zero_iff.mp
    omega
  · intro hp past stack raw beyond
    exact packedWell_of_nil hp past stack raw beyond

def onePointArgs : Args :=
  { (default : Args) with pass_pos := [⟨7, 9⟩] }

theorem packsFaithfully_iff_one_point : PacksFaithfully onePointArgs ↔ onePointArgs.pass_pos = [] :=
  packsFaithfully_iff onePointArgs (by decide)

/-- One way-point: `to_bytes` stores 106 bytes in a stack buffer of 99. -/
theorem one_point_not_faithful : ¬PacksFaithfully onePointArgs := by
  intro h
  have hroom := (h (fun _ => default) (fun _ => 0) default (fun _ => 0)).in_room
  revert hroom
  decide

end Veh2CloudState

end VehicleCloud
