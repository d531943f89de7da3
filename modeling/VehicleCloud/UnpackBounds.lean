import VehicleCloud.AnnouncedEnd

namespace VehicleCloud

open ByteStream

/-- The buffers that `Packer::unpack` reads within their size: either the type byte is never
read, or it is there and a body is read only when the inner lengths end inside the buffer. -/
def ReadsFit (mem : Mem) (size : Nat) : Prop :=
  size = 0 ∨ mem 0 ≠ 0xF2 ∨ 6 ≤ size ∧ ∀ k ∈ overloadOf (mem 5), k ≠ .header →
    16 ≤ size ∧ (size < 16 + declaredLength mem ∨ announcedEnd mem k ≤ size)

theorem bodyBytes_pos {c : Call} (h : c.overload ≠ .header) : 0 < c.bodyBytes.length := by
  cases c with
  | header m => exact absurd rfl h
  | inh m => rw [Call.bodyBytes, Veh2CloudInh.layout_length]; omega
  | res m => rw [Call.bodyBytes, Cloud2VehInhRes.layout_length]; omega
  | state m => rw [Call.bodyBytes, Veh2CloudState.layout_length]; omega

theorem bodyBytes_header {c : Call} (h : c.overload = .header) : c.bodyBytes = [] := by
  cases c with
  | header m => rfl
  | inh m => simp [Call.overload] at h
  | res m => simp [Call.overload] at h
  | state m => simp [Call.overload] at h

theorem range_bounded_iff {o n size : Nat} (hn : 0 < n) :
    (∀ i ∈ List.range' o n, i < size) ↔ o + n ≤ size := by
  constructor
  · intro h
    have hlast := h (o + n - 1) (List.mem_range'_1.mpr ⟨by omega, by omega⟩)
    omega
  · intro h i hi
    have hb := List.mem_range'_1.mp hi
    omega

/-- `Packer::unpack` stays within the buffer exactly on the buffers `ReadsFit` describes,
whatever stands behind the buffer and in the message object. -/
theorem unpack_reads_in_bounds_iff (raw : Raw) (mem : Mem) (size : UInt64) :
    (∀ i ∈ (Packer.unpack raw false size mem 0).reads, i < size.toNat) ↔
      ReadsFit mem size.toNat := by
  by_cases hz : size = 0
  · subst hz
    simp [Packer.unpack, ReadsFit]
  have hpos : size.toNat ≠ 0 := fun h => hz (UInt64.toNat_inj.mp h)
  by_cases hid : mem 0 = 0xF2
  swap
  · rw [Packer.unpack_of_no_identifier raw hz hid]
    simp only [List.mem_singleton, forall_eq, ReadsFit, hid, ne_eq, not_false_eq_true, true_or,
      or_true, iff_true]
    omega
  cases hk : overloadOf (mem 5) with
  | none =>
    rw [Packer.unpack_of_unknown raw hz hid hk]
    simp [ReadsFit, hid, hk, hpos]
    omega
  | some k =>
    have hfit : ReadsFit mem size.toNat ↔ 6 ≤ size.toNat ∧ (k ≠ .header → 16 ≤ size.toNat ∧
        (size.toNat < 16 + declaredLength mem ∨ announcedEnd mem k ≤ size.toNat)) := by
      simp [ReadsFit, hid, hk, hpos]
    rw [hfit]
    by_cases hs : size.toNat < 16
    · obtain ⟨c, rfl, _, hr⟩ := Packer.unpack_of_short raw hz hid hk hs
      rw [hr, List.forall_mem_cons, List.forall_mem_cons]
      by_cases hh : c.overload = .header
      · simp [bodyBytes_header hh, hh]
        omega
      · rw [range_bounded_iff (bodyBytes_pos hh)]
        constructor
        · rintro ⟨_, _, hb⟩
          omega
        · rintro ⟨_, hb⟩
          have := (hb hh).1
          omega
    · by_cases hd : size.toNat < 16 + declaredLength mem
      · obtain ⟨h, hm⟩ := MessageHeader.exists_header mem true
        rw [Packer.unpack_of_truncated raw hid hk hm (by omega) hd, List.forall_mem_cons,
          List.forall_mem_cons, range_bounded_iff (by omega)]
        constructor
        · rintro ⟨_, _, _⟩
          exact ⟨by omega, fun _ => ⟨by omega, Or.inl hd⟩⟩
        · intro _
          omega
      · obtain ⟨c, rfl, hc, hm⟩ := exists_call hk
        have hlen := c.layout_length
        rw [Packer.unpack_of_layout raw hid hk hc hm (by omega), announcedEnd_eq hc hm,
          List.forall_mem_cons, List.forall_mem_cons, range_bounded_iff (by omega)]
        constructor
        · rintro ⟨_, _, hb⟩
          exact ⟨by omega, fun _ => ⟨by omega, Or.inr (by omega)⟩⟩
        · rintro ⟨_, hb⟩
          by_cases hh : c.overload = .header
          · rw [bodyBytes_header hh, List.length_nil] at hlen
            omega
          · rcases (hb hh).2 with ht | ht <;> omega

/-- A buffer of the identifier alone: the type byte is read five bytes behind it. -/
theorem unpack_reads_past_identifier :
    ¬ ∀ i ∈ (Packer.unpack default false 1 (Mem.ofBytes [0xF2] fun _ => 0) 0).reads,
      i < ([0xF2] : List UInt8).length := by
  decide

end VehicleCloud
