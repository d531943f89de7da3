import VehicleCloud.Frame

namespace VehicleCloud

open ByteStream

/-- Unpacking the buffer calls the handler once, with the message `c`, whatever the memory of the
object under construction and behind the buffer holds. -/
def MessageBuffer.UnpacksTo (b : MessageBuffer) (c : Call) : Prop :=
  ∀ (raw : Raw) (beyond : Mem),
    (Packer.unpack raw false b.size.toUInt64 (Mem.ofBytes b.data beyond) 0).value = [c]

theorem unpacksTo_of_exact {c : Call} (hv : c.Valid)
    (hl : c.bodyBytes.length = c.head.data_len.toNat) {size : UInt32}
    (hs : size.toNat = c.layout.length) : (⟨size, c.layout⟩ : MessageBuffer).UnpacksTo c := by
  intro raw beyond
  let f : Frame := ⟨c, hv, [], by simpa using hl⟩
  have hb : f.bytes = c.layout := List.append_nil _
  have hm : Holds (Mem.ofBytes c.layout beyond) 0 f.bytes := by
    rw [hb]
    exact holds_ofBytes _ _
  have hsize : f.bytes.length ≤ size.toUInt64.toNat := by
    rw [hb, UInt32.toNat_toUInt64]
    omega
  exact unpack_of_frame raw hm hsize

namespace Packer

theorem packHeader_buffer {m : MessageHeader} (hd : m.data_len = 0) (stack : Mem) :
    (packHeader m stack).buffer = ⟨16, (Call.header m).layout⟩ := by
  have hp := packWith_of_emits Writer.emits_pure (h := m) (by simp [hd]) stack
  simp only [MessageHeader.toBytesWith_pure] at hp
  rw [packHeader, hp]
  rfl

theorem packRes_buffer {m : Cloud2VehInhRes} (hd : m.data_len = 9) (stack : Mem) :
    (packRes m stack).buffer = ⟨25, (Call.res m).layout⟩ := by
  have hp := packWith_of_emits m.emits_store (h := m.toMessageHeader) (by simp [hd]) stack
  have hb : packRes m stack = _ := hp
  rw [hb, m.layout_length]
  rfl

end Packer

theorem header_unpacksTo {m : MessageHeader} (hid : m.id = 0xF2)
    (ht : m.data_type = HEARTBEAT ∨ m.data_type = HEARTBEAT_RES) (hd : m.data_len = 0) :
    (⟨16, (Call.header m).layout⟩ : MessageBuffer).UnpacksTo (.header m) := by
  have hk : overloadOf m.data_type = some .header := by
    rcases ht with ht | ht <;> rw [ht] <;> rfl
  have hl : (Call.header m).bodyBytes.length = (Call.header m).head.data_len.toNat := by
    simp [Call.bodyBytes, Call.head, hd]
  have hv : (Call.header m).Valid := ⟨hid, hk, trivial, Nat.le_of_eq hl⟩
  exact unpacksTo_of_exact hv hl (by simp [Call.layout_length, Call.bodyBytes])

theorem res_unpacksTo {m : Cloud2VehInhRes} (hid : m.id = 0xF2)
    (ht : m.data_type = CLOUD2VEH_INH_RES) (hd : m.data_len = 9) :
    (⟨25, (Call.res m).layout⟩ : MessageBuffer).UnpacksTo (.res m) := by
  have hk : overloadOf m.data_type = some .res := by
    rw [ht]
    rfl
  have hl : (Call.res m).bodyBytes.length = (Call.res m).head.data_len.toNat := by
    simp [Call.bodyBytes, Call.head, hd]
  have hv : (Call.res m).Valid := ⟨hid, hk, trivial, Nat.le_of_eq hl⟩
  exact unpacksTo_of_exact hv hl (by simp [Call.layout_length, Call.bodyBytes])

/-- Bytes whose first six are known are the layout of a message with these header fields. -/
theorem exists_call_of_take {bs : List UInt8} {d t : UInt8} {k : Overload}
    (hb : bs.take 6 = [0xF2, 0, 0, 0, d, t]) (hk : overloadOf t = some k)
    (hl : ∀ c : Call, c.overload = k → c.layout.length = bs.length) :
    ∃ c : Call, c.overload = k ∧ bs = c.layout ∧ c.head.id = 0xF2 ∧ c.head.data_type = t ∧
      c.head.data_len.toNat = d.toNat := by
  have hm := holds_ofBytes bs fun _ => 0
  have hpre : Holds (Mem.ofBytes bs fun _ => 0) 0 [0xF2, 0, 0, 0, d, t] := by
    rw [← List.take_append_drop 6 bs, hb] at hm
    rw [← List.take_append_drop 6 bs, hb]
    exact (holds_append.mp hm).1
  generalize Mem.ofBytes bs (fun _ => 0) = mem at hm hpre
  have hfirst : [mem 0, mem 1, mem 2, mem 3, mem 4, mem 5] = [0xF2, 0, 0, 0, d, t] := hpre
  simp only [List.cons.injEq, and_true] at hfirst
  obtain ⟨h0, h1, h2, h3, h4, h5⟩ := hfirst
  have hd : declaredLength mem = d.toNat := by
    have hs : slice mem 1 4 = [mem 1, mem 2, mem 3, mem 4] := rfl
    rw [declaredLength, hs, h1, h2, h3, h4]
    simp [ofLE]
  rw [← h5] at hk
  obtain ⟨c, hc, _, hcm⟩ := exists_call hk
  have hh := (Call.holds_layout.mp hcm).1
  exact ⟨c, hc, holds_unique hm hcm (hl c hc).symm, (header_id hh).symm.trans h0,
    (header_data_type hh).symm.trans h5, (header_data_len hh).symm.trans hd⟩

theorem header_recovered {bs : List UInt8} {t : UInt8} (hl : bs.length = 16)
    (hb : bs.take 6 = [0xF2, 0, 0, 0, 0, t]) (ht : t = HEARTBEAT ∨ t = HEARTBEAT_RES) :
    ∃ m : MessageHeader, (⟨16, bs⟩ : MessageBuffer).UnpacksTo (.header m) ∧
      ∀ stack, (Packer.packHeader m stack).buffer = ⟨16, bs⟩ := by
  have hk : overloadOf t = some .header := by
    rcases ht with rfl | rfl <;> rfl
  have hlen (c : Call) (hc : c.overload = .header) : c.layout.length = bs.length := by
    cases c <;> simp_all [Call.overload, Call.layout_length, Call.bodyBytes]
  obtain ⟨c, hc, rfl, hid, htype, hd⟩ := exists_call_of_take hb hk hlen
  cases c with
  | header m =>
    have hzero : m.data_len = 0 := UInt32.toNat_inj.mp hd
    exact ⟨m, header_unpacksTo hid (by rw [← htype] at ht; exact ht) hzero,
      Packer.packHeader_buffer hzero⟩
  | inh m => cases hc
  | res m => cases hc
  | state m => cases hc

theorem res_recovered {bs : List UInt8} (hl : bs.length = 25)
    (hb : bs.take 6 = [0xF2, 0, 0, 0, 9, CLOUD2VEH_INH_RES]) :
    ∃ m : Cloud2VehInhRes, (⟨25, bs⟩ : MessageBuffer).UnpacksTo (.res m) ∧
      ∀ stack, (Packer.packRes m stack).buffer = ⟨25, bs⟩ := by
  have hlen (c : Call) (hc : c.overload = .res) : c.layout.length = bs.length := by
    cases c <;> simp_all [Call.overload, Call.layout_length, Call.bodyBytes]
  obtain ⟨c, hc, rfl, hid, htype, hd⟩ := exists_call_of_take hb (k := .res) rfl hlen
  cases c with
  | header m => cases hc
  | inh m => cases hc
  | res m =>
    have hnine : m.data_len = 9 := UInt32.toNat_inj.mp hd
    exact ⟨m, res_unpacksTo hid htype hnine, Packer.packRes_buffer hnine⟩
  | state m => cases hc

/-- Heartbeats and registration responses survive the way through the codec in both directions. -/
theorem short_frames_round_trip :
    (∀ (m : MessageHeader) (stack : Mem), m.id = 0xF2 →
      (m.data_type = HEARTBEAT ∨ m.data_type = HEARTBEAT_RES) → m.data_len = 0 →
      (Packer.packHeader m stack).buffer.UnpacksTo (.header m)) ∧
    (∀ (a : Cloud2VehInhRes.Args) (stack : Mem),
      (Packer.packRes (Cloud2VehInhRes.ofArgs a) stack).buffer.UnpacksTo
        (.res (Cloud2VehInhRes.ofArgs a)) ∧
      (Cloud2VehInhRes.ofArgs a).vehicle_id.toList = (a.vehicle_id.takeWhile (· ≠ 0)).takeD 8 0) ∧
    (∀ (bs : List UInt8) (t : UInt8), bs.length = 16 → bs.take 6 = [0xF2, 0, 0, 0, 0, t] →
      (t = HEARTBEAT ∨ t = HEARTBEAT_RES) →
      ∃ m : MessageHeader, (⟨16, bs⟩ : MessageBuffer).UnpacksTo (.header m) ∧
        ∀ stack, (Packer.packHeader m stack).buffer = ⟨16, bs⟩) ∧
    (∀ bs : List UInt8, bs.length = 25 → bs.take 6 = [0xF2, 0, 0, 0, 9, CLOUD2VEH_INH_RES] →
      ∃ m : Cloud2VehInhRes, (⟨25, bs⟩ : MessageBuffer).UnpacksTo (.res m) ∧
        ∀ stack, (Packer.packRes m stack).buffer = ⟨25, bs⟩) := by
  refine ⟨fun m stack hid ht hd => ?_, fun a stack => ?_, fun bs t hl hb ht => ?_,
    fun bs hl hb => ?_⟩
  · rw [Packer.packHeader_buffer hd]
    exact header_unpacksTo hid ht hd
  · rw [Packer.packRes_buffer rfl]
    exact ⟨res_unpacksTo rfl rfl rfl, rfl⟩
  · exact header_recovered hl hb ht
  · exact res_recovered hl hb

theorem short_frames_round_trip_heartbeat :
    (Packer.packHeader (MessageHeader.ofArgs 0 HEARTBEAT 1 2 3) fun _ => 0).buffer.UnpacksTo
        (.header (MessageHeader.ofArgs 0 HEARTBEAT 1 2 3)) ∧
      ∃ m : Cloud2VehInhRes,
        (⟨25, [0xF2, 0, 0, 0, 9, 0x35] ++ List.replicate 19 7⟩ : MessageBuffer).UnpacksTo (.res m) ∧
        ∀ stack, (Packer.packRes m stack).buffer = ⟨25, [0xF2, 0, 0, 0, 9, 0x35] ++ List.replicate 19 7⟩ :=
  ⟨short_frames_round_trip.1 _ _ rfl (Or.inl rfl) rfl,
    short_frames_round_trip.2.2.2 _ (by decide) (by decide)⟩

/-- A heartbeat header decoded from bytes without the identifier. -/
def foreignHeartbeat : MessageHeader :=
  (MessageHeader.decode default false 16 true (fun i => if i = 5 then HEARTBEAT else 0) 0).value

theorem foreign_identifier_not_delivered :
    foreignHeartbeat.data_type = HEARTBEAT ∧ foreignHeartbeat.data_len = 0 ∧
      ¬(Packer.packHeader foreignHeartbeat fun _ => 0).buffer.UnpacksTo
        (.header foreignHeartbeat) := by
  refine ⟨by decide, by decide, fun h => ?_⟩
  have hcall := h default fun _ => 0
  exact absurd hcall (by decide)

end VehicleCloud
