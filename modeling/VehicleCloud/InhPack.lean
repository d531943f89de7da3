import VehicleCloud.Frame

namespace VehicleCloud

open ByteStream

namespace Veh2CloudInh

/-- The part of a string that is meant to be transmitted: all of it, or nothing from 255 on. -/
def counted (s : List UInt8) : List UInt8 := if s.length ≤ 254 then s else []

/-- The message a receiver is meant to get. -/
def received (a : Args) : Veh2CloudInh :=
  { ofArgs a with
    sw_ver := counted a.sw_ver, hw_ver := counted a.hw_ver,
    ad_ver := counted a.ad_ver, user_data := counted a.user_data }

/-- Unpacking the packed frame calls the handler once, with that message, whatever the memory
past the strings, on the stack and behind the frame holds. -/
def PacksFaithfully (a : Args) : Prop :=
  ∀ (past : Past) (stack : Mem) (raw : Raw) (beyond : Mem),
    let p := Packer.packInh (ofArgs a) past stack
    (Packer.unpack raw false p.buffer.size.toUInt64 (Mem.ofBytes p.buffer.data beyond) 0).value =
      [Call.inh (received a)]

theorem lengthByte_toNat (s : List UInt8) : (lengthByte s).toNat = (counted s).length := by
  unfold lengthByte counted
  by_cases h : s.length ≤ 254
  · rw [if_neg (by omega), if_pos h, UInt8.toNat_ofNat']
    omega
  · rw [if_pos (by omega), if_neg h]
    rfl

theorem counted_length_le (s : List UInt8) : (counted s).length ≤ 254 := by
  unfold counted
  split
  next h => exact h
  next => exact Nat.zero_le _

theorem counted_length_le_length (s : List UInt8) : (counted s).length ≤ s.length := by
  unfold counted
  split
  next => exact Nat.le_refl _
  next => exact Nat.zero_le _

theorem versionLength_lengthByte (s : List UInt8) :
    versionLength (lengthByte s) = (counted s).length := by
  have hb := lengthByte_toNat s
  have hle := counted_length_le s
  unfold versionLength
  split
  next => exact hb
  next hn =>
    simp only [not_and_or, not_not] at hn
    rcases hn with h | h
    · rw [← hb, h]
      rfl
    · rw [h] at hb
      have : (0xFF : UInt8).toNat = 255 := rfl
      omega

theorem lengthByte_inj {s t : List UInt8} (h : lengthByte s = lengthByte t) :
    (counted s).length = (counted t).length := by
  rw [← lengthByte_toNat, ← lengthByte_toNat, h]

theorem received_consistent (a : Args) : (received a).Consistent where
  sw_ver := (versionLength_lengthByte a.sw_ver).symm
  hw_ver := (versionLength_lengthByte a.hw_ver).symm
  ad_ver := (versionLength_lengthByte a.ad_ver).symm
  user_data := (lengthByte_toNat a.user_data).symm

theorem ofArgs_data_len (a : Args) :
    (ofArgs a).data_len.toNat = 16 + (counted a.sw_ver).length + (counted a.hw_ver).length +
      (counted a.ad_ver).length + (counted a.user_data).length := by
  have h1 := counted_length_le a.sw_ver
  have h2 := counted_length_le a.hw_ver
  have h3 := counted_length_le a.ad_ver
  have h4 := counted_length_le a.user_data
  simp only [ofArgs, sizeofFixed, UInt32.toNat_add, UInt32.toNat_ofNat', UInt8.toNat_toUInt32,
    lengthByte_toNat]
  omega

theorem received_layout_length (a : Args) :
    (received a).layout.length = (ofArgs a).data_len.toNat := by
  rw [layout_length, ofArgs_data_len]
  rfl

theorem stored_length (a : Args) (past : Past) :
    ((ofArgs a).storedFields past).flatten.length = (ofArgs a).data_len.toNat := by
  rw [storedFields_length, ofArgs_data_len]
  simp only [ofArgs, versionLength_lengthByte, lengthByte_toNat]

theorem data_len_bound (a : Args) : (ofArgs a).data_len.toNat ≤ 1032 := by
  have h1 := counted_length_le a.sw_ver
  have h2 := counted_length_le a.hw_ver
  have h3 := counted_length_le a.ad_ver
  have h4 := counted_length_le a.user_data
  have hd := ofArgs_data_len a
  omega

theorem packInh_ofArgs (a : Args) (past : Past) (stack : Mem) :
    Packer.packInh (ofArgs a) past stack =
      ⟨UInt64.ofNat (16 + (ofArgs a).data_len.toNat),
       ⟨16 + (ofArgs a).data_len.toNat,
        ((ofArgs a).toMessageHeader.layout true ++ ((ofArgs a).storedFields past).flatten).zipIdx,
        (ofArgs a).fetched⟩,
       ⟨UInt32.ofNat (16 + (ofArgs a).data_len.toNat),
        (ofArgs a).toMessageHeader.layout true ++ ((ofArgs a).storedFields past).flatten⟩⟩ := by
  have hb := data_len_bound a
  have hp := Packer.packWith_of_emits ((ofArgs a).emits_store past)
    (h := (ofArgs a).toMessageHeader) (by omega) stack
  rw [stored_length] at hp
  exact hp

/-- The peer gets the intended message exactly when the stored bytes are its wire format. -/
theorem unpack_packInh_iff (a : Args) (past : Past) (stack : Mem) (raw : Raw) (beyond : Mem) :
    (Packer.unpack raw false (Packer.packInh (ofArgs a) past stack).buffer.size.toUInt64
      (Mem.ofBytes (Packer.packInh (ofArgs a) past stack).buffer.data beyond) 0).value =
        [Call.inh (received a)] ↔
      ((ofArgs a).storedFields past).flatten = (received a).layout := by
  have hb := data_len_bound a
  rw [packInh_ofArgs]
  simp only
  have hsize : (UInt32.ofNat (16 + (ofArgs a).data_len.toNat)).toUInt64.toNat =
      16 + (ofArgs a).data_len.toNat := by
    rw [UInt32.toNat_toUInt64, UInt32.toNat_ofNat']
    omega
  have hm := holds_ofBytes
    ((ofArgs a).toMessageHeader.layout true ++ ((ofArgs a).storedFields past).flatten) beyond
  obtain ⟨hh, hbody⟩ := holds_append.mp hm
  have hid := header_id hh
  have hk : overloadOf (Mem.ofBytes ((ofArgs a).toMessageHeader.layout true ++
      ((ofArgs a).storedFields past).flatten) beyond 5) = some .inh := by
    rw [header_data_type hh]
    rfl
  have hd : 16 + declaredLength (Mem.ofBytes ((ofArgs a).toMessageHeader.layout true ++
      ((ofArgs a).storedFields past).flatten) beyond) ≤
      (UInt32.ofNat (16 + (ofArgs a).data_len.toNat)).toUInt64.toNat := by
    have hdl := header_data_len hh
    simp only [ofArgs] at hdl hsize ⊢
    omega
  constructor
  · intro h
    obtain ⟨c, hov, hc, hlay⟩ := exists_call hk
    rw [Packer.unpack_of_layout raw hid (by rw [hk, hov]) hc hlay hd] at h
    have hcall : c = .inh (received a) := by simpa using h
    subst hcall
    have hrec := (Call.holds_layout.mp hlay).2
    have hsame : (Call.inh (received a)).bodyBytes.length =
        ((ofArgs a).storedFields past).flatten.length := by
      rw [stored_length]
      exact received_layout_length a
    rw [MessageHeader.layout_length, Nat.zero_add] at hbody
    exact holds_unique hbody hrec hsame.symm
  · intro h
    rw [h] at hm hk hd hid ⊢
    rw [Packer.unpack_of_layout (c := .inh (received a)) raw hid hk (received_consistent a) hm hd]

theorem counted_slice (s : List UInt8) (past : Mem) :
    slice (cstr s past) 0 (counted s).length = counted s := by
  unfold counted
  split
  next => exact cstr_slice s past
  next => rfl

theorem copied_lengthByte (s t : List UInt8) (past : Mem) :
    copied (lengthByte s) t past = slice (cstr t past) 0 (counted s).length := by
  rw [copied, versionLength_lengthByte]

theorem lengthByte_congr {s t : List UInt8} (h : counted s = counted t) :
    lengthByte s = lengthByte t := by
  apply UInt8.toNat_inj.mp
  rw [lengthByte_toNat, lengthByte_toNat, h]

/-- Stored and intended bytes agree up to the second length byte, and again after the third copy. -/
theorem stored_eq_iff (a : Args) (past : Past) :
    ((ofArgs a).storedFields past).flatten = (received a).layout ↔
      lengthByte a.sw_ver = lengthByte a.hw_ver ∧
        slice (cstr a.sw_ver past.sw_ver) 0 (counted a.hw_ver).length = counted a.hw_ver ∧
        slice (cstr a.sw_ver past.sw_ver) 0 (counted a.ad_ver).length = counted a.ad_ver := by
  simp only [layout, wireFields, storedFields, received, ofArgs, copied_lengthByte,
    lengthByte_toNat, counted_slice, List.flatten_cons, List.append_cancel_left_eq,
    List.cons_append, List.nil_append, List.cons.injEq, true_and]
  constructor
  · rintro ⟨hlen, h⟩
    obtain ⟨hhw, h⟩ := List.append_inj h (slice_length _ _ _)
    simp only [List.cons.injEq, true_and] at h
    exact ⟨hlen, hhw, (List.append_inj h (slice_length _ _ _)).1⟩
  · rintro ⟨hlen, hhw, had⟩
    rw [hhw, had]
    exact ⟨hlen, rfl⟩

theorem stored_forall_iff (a : Args) :
    (∀ past, ((ofArgs a).storedFields past).flatten = (received a).layout) ↔
      counted a.hw_ver = counted a.sw_ver ∧ counted a.ad_ver <+: a.sw_ver ++ [0] := by
  simp only [stored_eq_iff]
  constructor
  · intro h
    have hhw := (h ⟨fun _ => 0, fun _ => 0⟩).2.1
    have hlen := lengthByte_inj (h ⟨fun _ => 0, fun _ => 0⟩).1
    refine ⟨?_, cstr_slice_forall.mp fun past => (h ⟨past, fun _ => 0⟩).2.2⟩
    rw [← hlen, counted_slice] at hhw
    exact hhw.symm
  · rintro ⟨hhw, had⟩ past
    refine ⟨lengthByte_congr hhw.symm, ?_, cstr_slice_forall.mpr had past.sw_ver⟩
    rw [hhw]
    exact counted_slice _ _

theorem inh_packs_faithfully_iff (a : Args) :
    PacksFaithfully a ↔
      counted a.hw_ver = counted a.sw_ver ∧ counted a.ad_ver <+: a.sw_ver ++ [0] := by
  rw [← stored_forall_iff]
  constructor
  · intro h past
    exact (unpack_packInh_iff a past (fun _ => 0) default (fun _ => 0)).mp
      (h past (fun _ => 0) default (fun _ => 0))
  · intro h past stack raw beyond
    exact (unpack_packInh_iff a past stack raw beyond).mpr (h past)

/-- Three one-byte versions, the hardware one different. -/
theorem hardware_version_not_faithful :
    ¬PacksFaithfully { (default : Args) with sw_ver := [1], hw_ver := [2], ad_ver := [1] } := by
  intro h
  have hp := h ⟨fun _ => 0, fun _ => 0⟩ (fun _ => 0) default (fun _ => 0)
  exact absurd hp (by decide)

end Veh2CloudInh

end VehicleCloud
