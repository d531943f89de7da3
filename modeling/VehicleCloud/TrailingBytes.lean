import VehicleCloud.Frame

namespace VehicleCloud

open ByteStream

/-- What follows the declared end of the frame does not influence the handler calls: any two
buffers that hold the declared length and agree up to it are delivered alike. -/
def EndsAsDeclared (mem : Mem) : Prop :=
  ∀ (mem' : Mem) (size size' : UInt64) (raw raw' : Raw),
    16 + declaredLength mem ≤ size.toNat → 16 + declaredLength mem ≤ size'.toNat →
    (∀ i < 16 + declaredLength mem, mem' i = mem i) →
    (Packer.unpack raw false size mem 0).value = (Packer.unpack raw' false size' mem' 0).value

theorem declaredLength_of_agree {mem mem' : Mem} {n : Nat} (hn : 16 ≤ n)
    (h : ∀ i < n, mem' i = mem i) : declaredLength mem' = declaredLength mem := by
  obtain ⟨m, hm⟩ := MessageHeader.exists_header mem true
  have hm' := hm.of_agree (by simpa using hn) h
  rw [header_data_len hm, header_data_len hm']

theorem unpack_agree_of_no_call {mem mem' : Mem} {size size' : UInt64} (raw raw' : Raw)
    (hs : size ≠ 0) (hs' : size' ≠ 0) (h0 : mem' 0 = mem 0) (h5 : mem' 5 = mem 5)
    (h : mem 0 ≠ 0xF2 ∨ overloadOf (mem 5) = none) :
    (Packer.unpack raw false size mem 0).value = (Packer.unpack raw' false size' mem' 0).value := by
  by_cases hid : mem 0 = 0xF2
  · have hk := h.resolve_left (not_not_intro hid)
    rw [Packer.unpack_of_unknown raw hs hid hk,
      Packer.unpack_of_unknown raw' hs' (h0.trans hid) (by rw [h5, hk])]
  · rw [Packer.unpack_of_no_identifier raw hs hid,
      Packer.unpack_of_no_identifier raw' hs' (by rwa [h0])]

/-- A body that ends within the declared length is read from the bytes both buffers share. -/
theorem unpack_agree_of_end {mem mem' : Mem} {size size' : UInt64} {k : Overload} (raw raw' : Raw)
    (hid : mem 0 = 0xF2) (hk : overloadOf (mem 5) = some k)
    (he : announcedEnd mem k ≤ 16 + declaredLength mem)
    (hs : 16 + declaredLength mem ≤ size.toNat) (hs' : 16 + declaredLength mem ≤ size'.toNat)
    (h : ∀ i < 16 + declaredLength mem, mem' i = mem i) :
    (Packer.unpack raw false size mem 0).value = (Packer.unpack raw' false size' mem' 0).value := by
  obtain ⟨f, hm, hl⟩ := wellFormed_iff_frame.mp
    (⟨by omega, hid, Nat.le_refl _, k, hk, he⟩ : WellFormed mem (16 + declaredLength mem))
  have hm' := hm.of_agree hl h
  rw [unpack_of_frame raw hm (by omega), unpack_of_frame raw' hm' (by omega)]

/-- A body that is announced to end behind the declared length takes in the byte there. -/
theorem end_of_endsAsDeclared {mem : Mem} {k : Overload} (hid : mem 0 = 0xF2)
    (hk : overloadOf (mem 5) = some k) (h : EndsAsDeclared mem) :
    announcedEnd mem k ≤ 16 + declaredLength mem := by
  by_contra hlt
  have hd : declaredLength mem < 2 ^ 32 := by
    obtain ⟨m, hm⟩ := MessageHeader.exists_header mem true
    rw [header_data_len hm]
    exact m.data_len.toNat_lt
  let mem' : Mem := fun i => if i < 16 + declaredLength mem then mem i else mem i + 1
  have hagree : ∀ i < 16 + declaredLength mem, mem' i = mem i := fun i hi => if_pos hi
  have hdiff : mem' (16 + declaredLength mem) = mem (16 + declaredLength mem) + 1 :=
    if_neg (Nat.lt_irrefl _)
  obtain ⟨size, hsize⟩ : ∃ size : UInt64, 16 + declaredLength mem = size.toNat :=
    ⟨UInt64.ofNat (16 + declaredLength mem), by rw [UInt64.toNat_ofNat']; omega⟩
  have hid' : mem' 0 = 0xF2 := (hagree 0 (by omega)).trans hid
  have hk' : overloadOf (mem' 5) = some k := by rw [hagree 5 (by omega), hk]
  obtain ⟨c, rfl, hc, hm⟩ := exists_call hk
  obtain ⟨c', hov, hc', hm'⟩ := exists_call hk'
  have hsame := h mem' size size default default (by omega) (by omega) hagree
  have hd' := declaredLength_of_agree (by omega) hagree
  rw [Packer.unpack_of_layout default hid hk hc hm (by omega),
    Packer.unpack_of_layout default hid' (by rw [hk', hov]) hc' hm' (by omega)] at hsame
  obtain rfl : c = c' := by simpa using hsame
  -- both memories hold the layout of the same message, past the index at which they differ
  rw [announcedEnd_eq hc hm] at hlt
  have hbyte := holds_iff_getElem.mp hm (16 + declaredLength mem) (by omega)
  have hbyte' := holds_iff_getElem.mp hm' (16 + declaredLength mem) (by omega)
  rw [Nat.zero_add] at hbyte hbyte'
  rw [hdiff, ← hbyte, ← UInt8.toNat_inj, UInt8.toNat_add] at hbyte'
  have hone : (1 : UInt8).toNat = 1 := rfl
  omega

/-- Precisely the frames whose announced body ends within their declared length, and the buffers
that `unpack` turns away by their first bytes, are decoded without a look at what follows. -/
theorem endsAsDeclared_iff (mem : Mem) :
    EndsAsDeclared mem ↔
      mem 0 ≠ 0xF2 ∨ ∀ k ∈ overloadOf (mem 5), announcedEnd mem k ≤ 16 + declaredLength mem := by
  constructor
  · intro h
    by_cases hid : mem 0 = 0xF2
    · exact Or.inr fun k hk => end_of_endsAsDeclared hid hk h
    · exact Or.inl hid
  · intro h mem' size size' raw raw' hs hs' hagree
    have hne : size ≠ 0 := by
      rintro rfl
      simp at hs
    have hne' : size' ≠ 0 := by
      rintro rfl
      simp at hs'
    have h0 := hagree 0 (by omega)
    have h5 := hagree 5 (by omega)
    by_cases hid : mem 0 = 0xF2
    · cases hk : overloadOf (mem 5) with
      | none => exact unpack_agree_of_no_call raw raw' hne hne' h0 h5 (Or.inr hk)
      | some k =>
        have he := h.resolve_left (not_not_intro hid) k hk
        exact unpack_agree_of_end raw raw' hid hk he hs hs' hagree
    · exact unpack_agree_of_no_call raw raw' hne hne' h0 h5 (Or.inl hid)

/-- A response that declares no body, and the first nine bytes of a heartbeat of type `t`. -/
def bareResponseThen (t : UInt8) : Mem :=
  Mem.ofBytes ([0xF2, 0, 0, 0, 0, 0x35, 1, 0, 0, 0, 0, 0, 0, 0, 0, 0] ++
    [0xF2, 0, 0, 0, 0, t, 1, 0, 0]) fun _ => 0

/-- The next frame is decoded as the vehicle id. -/
theorem coalesced_frame_decoded_as_body :
    declaredLength (bareResponseThen HEARTBEAT) = 0 ∧
      (∀ i < 16, bareResponseThen HEARTBEAT_RES i = bareResponseThen HEARTBEAT i) ∧
      (Packer.unpack default false 25 (bareResponseThen HEARTBEAT) 0).value ≠
        (Packer.unpack default false 25 (bareResponseThen HEARTBEAT_RES) 0).value ∧
      ¬EndsAsDeclared (bareResponseThen HEARTBEAT) := by
  have hd : declaredLength (bareResponseThen HEARTBEAT) = 0 := by decide
  have hagree : ∀ i < 16, bareResponseThen HEARTBEAT_RES i = bareResponseThen HEARTBEAT i := by
    decide
  have hdiff : (Packer.unpack default false 25 (bareResponseThen HEARTBEAT) 0).value ≠
      (Packer.unpack default false 25 (bareResponseThen HEARTBEAT_RES) 0).value := by
    intro h
    have hid := congrArg (fun cs => cs.flatMap fun
      | Call.res m => m.vehicle_id.toList
      | _ => []) h
    exact absurd hid (by decide)
  refine ⟨hd, hagree, hdiff, fun h => hdiff ?_⟩
  exact h _ 25 25 default default (by rw [hd]; decide) (by rw [hd]; decide) (by rw [hd]; exact hagree)

end VehicleCloud
