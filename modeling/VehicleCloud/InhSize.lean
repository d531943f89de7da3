import VehicleCloud.InhPack

namespace VehicleCloud

open ByteStream

namespace Veh2CloudInh

/-- The sizes of a packed message agree: the constructor's data length, the stack buffer, the
indices written, the offset returned, and the message buffer with its length field. -/
structure SizesAgree (a : Args) (p : Packed) (beyond : Mem) : Prop where
  data_len : (ofArgs a).data_len.toNat = 16 + (counted a.sw_ver).length +
    (counted a.hw_ver).length + (counted a.ad_ver).length + (counted a.user_data).length
  room : p.room.toNat = 16 + (ofArgs a).data_len.toNat
  writes : ∀ i, (∃ b, (b, i) ∈ p.sink.writes) ↔ i < p.room.toNat
  returned : p.sink.offset = p.room.toNat
  size : p.buffer.size.toNat = 16 + (ofArgs a).data_len.toNat
  data : p.buffer.data.length = 16 + (ofArgs a).data_len.toNat
  length_field : declaredLength (Mem.ofBytes p.buffer.data beyond) = (ofArgs a).data_len.toNat

theorem packed_sizes_agree (a : Args) (past : Past) (stack beyond : Mem) :
    SizesAgree a (Packer.packInh (ofArgs a) past stack) beyond := by
  have hb := data_len_bound a
  have hstored := stored_length a past
  have hlen : ((ofArgs a).toMessageHeader.layout true ++
      ((ofArgs a).storedFields past).flatten).length = 16 + (ofArgs a).data_len.toNat := by
    rw [List.length_append, MessageHeader.layout_length, hstored]
  have hroom : (UInt64.ofNat (16 + (ofArgs a).data_len.toNat)).toNat =
      16 + (ofArgs a).data_len.toNat := by
    rw [UInt64.toNat_ofNat']
    omega
  have hsize : (UInt32.ofNat (16 + (ofArgs a).data_len.toNat)).toNat =
      16 + (ofArgs a).data_len.toNat := by
    rw [UInt32.toNat_ofNat']
    omega
  have hh := (holds_append.mp (holds_ofBytes ((ofArgs a).toMessageHeader.layout true ++
    ((ofArgs a).storedFields past).flatten) beyond)).1
  rw [packInh_ofArgs]
  exact
    { data_len := ofArgs_data_len a
      room := hroom
      writes := fun i => by rw [mem_zipIdx_iff, hlen, hroom]
      returned := hroom.symm
      size := hsize
      data := hlen
      length_field := header_data_len hh }

end Veh2CloudInh

end VehicleCloud
