import VehicleCloud.AnnouncedEnd

namespace VehicleCloud

open ByteStream

/-- The buffer starts with a well-formed frame: identifier, known type, the declared length
inside the buffer, and the announced body layout inside the declared length. -/
def WellFormed (mem : Mem) (size : Nat) : Prop :=
  16 ≤ size ∧ mem 0 = 0xF2 ∧ 16 + declaredLength mem ≤ size ∧
    ∃ k ∈ overloadOf (mem 5), announcedEnd mem k ≤ 16 + declaredLength mem

/-- A message of valid layout and the bytes that fill up its declared length. -/
structure Frame where
  message : Call
  valid : message.Valid
  slack : List UInt8
  length : message.bodyBytes.length + slack.length = message.head.data_len.toNat

def Frame.bytes (f : Frame) : List UInt8 := f.message.layout ++ f.slack

theorem Frame.bytes_length (f : Frame) :
    f.bytes.length = 16 + f.message.head.data_len.toNat := by
  have hl := f.length
  rw [Frame.bytes, List.length_append, Call.layout_length]
  omega

theorem Frame.holds_head {f : Frame} {mem : Mem} (hm : Holds mem 0 f.bytes) :
    Holds mem 0 (f.message.head.layout true) :=
  (Call.holds_layout.mp (holds_append.mp hm).1).1

/-- The grammar by offsets and the grammar by messages accept the same buffers. -/
theorem wellFormed_iff_frame {mem : Mem} {size : Nat} :
    WellFormed mem size ↔ ∃ f : Frame, Holds mem 0 f.bytes ∧ f.bytes.length ≤ size := by
  constructor
  · rintro ⟨hs, hid, hd, k, hk, he⟩
    obtain ⟨c, rfl, hc, hm⟩ := exists_call hk
    have hh := (Call.holds_layout.mp hm).1
    have hlen := c.layout_length
    rw [announcedEnd_eq hc hm] at he
    rw [header_data_len hh] at he hd
    rw [header_data_type hh] at hk
    rw [header_id hh] at hid
    have hfit : c.bodyBytes.length ≤ c.head.data_len.toNat := by omega
    let slack := slice mem c.layout.length (c.head.data_len.toNat - c.bodyBytes.length)
    refine ⟨⟨c, ⟨hid, hk, hc, hfit⟩, slack, by simp [slack]; omega⟩, ?_, ?_⟩
    · exact holds_append.mpr ⟨hm, by simpa [slack] using holds_slice _ _ _⟩
    · rw [Frame.bytes_length]
      exact hd
  · rintro ⟨f, hm, hs⟩
    have hh := f.holds_head hm
    have hlen := f.message.layout_length
    have hfit := f.valid.fits
    rw [f.bytes_length] at hs
    refine ⟨by omega, (header_id hh).trans f.valid.id, by rw [header_data_len hh]; omega,
      f.message.overload, ?_, ?_⟩
    · rw [header_data_type hh]
      exact f.valid.overload
    · rw [announcedEnd_eq f.valid.consistent (holds_append.mp hm).1, header_data_len hh]
      omega

/-- A well-formed frame is delivered once, as the message it encodes. -/
theorem unpack_of_frame {f : Frame} {mem : Mem} {size : UInt64} (raw : Raw)
    (hm : Holds mem 0 f.bytes) (hs : f.bytes.length ≤ size.toNat) :
    (Packer.unpack raw false size mem 0).value = [f.message] := by
  have hh := f.holds_head hm
  rw [f.bytes_length] at hs
  rw [Packer.unpack_of_layout raw ((header_id hh).trans f.valid.id)
    (by rw [header_data_type hh]; exact f.valid.overload) f.valid.consistent
    (holds_append.mp hm).1 (by rw [header_data_len hh]; omega)]

end VehicleCloud
