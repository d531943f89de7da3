import VehicleCloud.ControllerRecv
import VehicleCloud.Frame

namespace VehicleCloud

open ByteStream

/-- The handler is called once, by the overload of the type byte, on a well-formed frame, and
neither it nor the client's callback is reached on anything else. -/
def AcceptsExactly (callback : Bool) (raw : Raw) (mem : Mem) (size : UInt64) : Prop :=
  (WellFormed mem size.toNat → ∃ c, (Packer.unpack raw false size mem 0).value = [c] ∧
      overloadOf (mem 5) = some c.overload) ∧
    (¬WellFormed mem size.toNat → (Packer.unpack raw false size mem 0).value = [] ∧
      (Packer.unpack raw false size mem 0).value.flatMap (Controller.on_unpack callback) = [])

theorem unpack_calls_of_known {mem : Mem} {size : UInt64} {k : Overload} (raw : Raw)
    (hz : size ≠ 0) (hid : mem 0 = 0xF2) (hk : overloadOf (mem 5) = some k) :
    (Packer.unpack raw false size mem 0).value ≠ [] := by
  by_cases hs : size.toNat < 16
  · obtain ⟨c, _, hv, _⟩ := Packer.unpack_of_short raw hz hid hk hs
    simp [hv]
  · by_cases hd : size.toNat < 16 + declaredLength mem
    · obtain ⟨h, hm⟩ := MessageHeader.exists_header mem true
      simp [Packer.unpack_of_truncated raw hid hk hm (by omega) hd]
    · obtain ⟨c, rfl, hc, hm⟩ := exists_call hk
      rw [Packer.unpack_of_layout raw hid hk hc hm (by omega)]
      simp

/-- Acceptance is exact precisely when the frame is well formed or is turned away by the tests
of `unpack` itself: no constructor's failure stops the call. -/
theorem unpack_accepts_exactly_iff (callback : Bool) (raw : Raw) (mem : Mem) (size : UInt64) :
    AcceptsExactly callback raw mem size ↔
      WellFormed mem size.toNat ∨ size = 0 ∨ mem 0 ≠ 0xF2 ∨ overloadOf (mem 5) = none := by
  constructor
  · rintro ⟨_, hreject⟩
    by_cases hw : WellFormed mem size.toNat
    · exact Or.inl hw
    · by_contra hno
      simp only [not_or, not_not] at hno
      obtain ⟨_, hz, hid, hk⟩ := hno
      obtain ⟨k, hk⟩ := Option.ne_none_iff_exists'.mp hk
      exact unpack_calls_of_known raw hz hid hk (hreject hw).1
  · intro h
    constructor
    · intro hw
      obtain ⟨f, hm, hs⟩ := wellFormed_iff_frame.mp hw
      refine ⟨f.message, unpack_of_frame raw hm hs, ?_⟩
      rw [header_data_type (f.holds_head hm)]
      exact f.valid.overload
    · intro hw
      have hnone : (Packer.unpack raw false size mem 0).value = [] := by
        by_cases hz : size = 0
        · simp [Packer.unpack, hz]
        · by_cases hid : mem 0 = 0xF2
          · have hk : overloadOf (mem 5) = none := by
              rcases h with h | h | h | h
              · exact absurd h hw
              · exact absurd h hz
              · exact absurd hid h
              · exact h
            rw [Packer.unpack_of_unknown raw hz hid hk]
          · rw [Packer.unpack_of_no_identifier raw hz hid]
      exact ⟨hnone, by rw [hnone]; rfl⟩

/-- The sixteen header bytes of a response whose nine body bytes are missing. -/
def bodilessResponse : List UInt8 := [0xF2, 0, 0, 0, 9, 0x35, 1, 0, 0, 0, 0, 0, 0, 0, 0, 0]

theorem truncated_response_reaches_callback :
    ¬AcceptsExactly true default (Mem.ofBytes bodilessResponse fun _ => 0) 16 := by
  rintro ⟨_, hreject⟩
  have hw : ¬WellFormed (Mem.ofBytes bodilessResponse fun _ => 0) (16 : UInt64).toNat := by
    rintro ⟨_, _, hd, _⟩
    revert hd
    decide
  have hcall : (Packer.unpack default false 16
      (Mem.ofBytes bodilessResponse fun _ => 0) 0).value.flatMap (Controller.on_unpack true) ≠ [] := by
    decide
  exact hcall (hreject hw).2

end VehicleCloud
