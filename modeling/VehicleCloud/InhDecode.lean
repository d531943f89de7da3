import VehicleCloud.InhLayout

namespace VehicleCloud

open ByteStream

namespace Veh2CloudInh

/-- The decoding constructor follows the frame's layout to its end, whatever the four lengths are
and whatever stands behind the frame. -/
theorem decode_laid_out (m : Veh2CloudInh) (hc : m.Consistent)
    (hd : m.data_len.toNat = m.layout.length) {mem : Mem}
    (hm : Holds mem 0 (m.toMessageHeader.layout true ++ m.layout)) {size : UInt64}
    (hs : 16 + m.data_len.toNat ≤ size.toNat) (raw : Veh2CloudInh) :
    (∀ i ∈ (decode raw false size true mem 0).reads, i < 16 + m.data_len.toNat) ∧
      (decode raw false size true mem 0).offset = 16 + m.data_len.toNat ∧
      (decode raw false size true mem 0).value = m := by
  have hr : decode raw false size true mem 0 = _ :=
    MessageHeader.decodeWith_of_yields (yields_body hc) hm hs
  rw [hr, hd]
  refine ⟨fun i hi => ?_, rfl, rfl⟩
  have hb := List.mem_range'_1.mp hi
  omega

/-- No software version (`0xFF`), a hardware version of two bytes, no ad version, one user byte. -/
def mixedLengths : Veh2CloudInh :=
  { (default : Veh2CloudInh) with
    data_len := 19, sw_ver_len := 0xFF, hw_ver_len := 2, hw_ver := [1, 2], user_data_len := 1,
    user_data := [9] }

theorem decode_laid_out_mixed_lengths :
    let mem := Mem.ofBytes (mixedLengths.toMessageHeader.layout true ++ mixedLengths.layout) fun _ => 7
    (decode default false 40 true mem 0).offset = 35 ∧
      (decode default false 40 true mem 0).value = mixedLengths :=
  (decode_laid_out mixedLengths ⟨by decide, by decide, by decide, by decide⟩ (by decide)
    (holds_ofBytes _ _) (by decide) default).2

end Veh2CloudInh

end VehicleCloud
