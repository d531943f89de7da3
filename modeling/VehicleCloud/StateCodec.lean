import VehicleCloud.AnnouncedEnd

namespace VehicleCloud

open ByteStream

namespace Veh2CloudState

/-- The list is as long as the count says and the data length is that of the body. -/
structure Framed (m : Veh2CloudState) : Prop where
  count : m.pass_pos.length = m.pass_pos_num.toNat
  data_len : m.data_len.toNat = 82 + 8 * m.pass_pos.length

/-- The size of the frame of a message with `n` way-points, as a `size_t`. -/
def frameSize (n : Nat) : UInt64 := UInt64.ofNat (98 + 8 * n)

theorem frameSize_toNat (n : UInt8) : (frameSize n.toNat).toNat = 98 + 8 * n.toNat := by
  have hn := n.toNat_lt
  rw [frameSize, UInt64.toNat_ofNat']
  omega

theorem to_bytes_framed {m : Veh2CloudState} (hm : m.Framed) (past : Nat → Position2D) :
    m.to_bytes past false (frameSize m.pass_pos.length) true =
      ⟨98 + 8 * m.pass_pos.length, (m.toMessageHeader.layout true ++ m.layout true).zipIdx,
        m.fetched⟩ := by
  have hsize : 16 + m.data_len.toNat ≤ (frameSize m.pass_pos.length).toNat := by
    rw [hm.data_len, hm.count, frameSize_toNat]
    omega
  have hemit := emits_store_of_count hm.count past true
  have hlen : 16 + (m.layout true).length = 98 + 8 * m.pass_pos.length := by
    rw [layout_length]
    omega
  rw [to_bytes, MessageHeader.toBytesWith_of_le hemit hsize, hlen]

theorem decode_framed {m : Veh2CloudState} (hm : m.Framed) {mem : Mem}
    (hh : Holds mem 0 (m.toMessageHeader.layout true ++ m.layout true)) (raw : Veh2CloudState) :
    (decode raw false (frameSize m.pass_pos.length) true mem 0).value = m := by
  have hsize : 16 + m.data_len.toNat ≤ (frameSize m.pass_pos.length).toNat := by
    rw [hm.data_len, hm.count, frameSize_toNat]
    omega
  have hr : decode raw false (frameSize m.pass_pos.length) true mem 0 = _ :=
    MessageHeader.decodeWith_of_yields (m.yields_body true hm.count) hh hsize
  rw [hr]

/-- Any bytes of frame length whose length field and count agree are those of some message. -/
theorem exists_framed {mem : Mem} {n : UInt8} (hd : declaredLength mem = 82 + 8 * n.toNat)
    (hn : mem 97 = n) :
    ∃ m : Veh2CloudState, m.Framed ∧ m.pass_pos_num = n ∧
      Holds mem 0 (m.toMessageHeader.layout true ++ m.layout true) := by
  obtain ⟨h, hh⟩ := MessageHeader.exists_header mem true
  obtain ⟨_, m, hb, ⟨rfl, hc, rfl⟩, _⟩ := scans_body h true mem 16
  have hnum : m.pass_pos_num = n := (stateCount_eq hb).symm.trans hn
  have hlen : m.pass_pos.length = n.toNat := by rw [hc, hnum]
  refine ⟨m, ⟨hc, ?_⟩, hnum, holds_append.mpr ⟨hh, by simpa using hb⟩⟩
  rw [← header_data_len hh, hd, hlen]

/-- In big-endian mode decoding and `to_bytes` are mutually inverse: on every message whose
count and data length fit its way-points, and on every byte string of that shape. -/
theorem decode_to_bytes_inverse :
    (∀ (m : Veh2CloudState) (past : Nat → Position2D) (buf : Mem) (raw : Veh2CloudState), m.Framed →
      (m.to_bytes past false (frameSize m.pass_pos.length) true).offset = 98 + 8 * m.pass_pos.length ∧
      (decode raw false (frameSize m.pass_pos.length) true
        (buf.store (m.to_bytes past false (frameSize m.pass_pos.length) true).writes) 0).value = m) ∧
    ∀ (bs : List UInt8) (n : UInt8) (beyond : Mem) (past : Nat → Position2D) (buf : Mem)
      (raw : Veh2CloudState), bs.length = 98 + 8 * n.toNat →
      declaredLength (Mem.ofBytes bs beyond) = 82 + 8 * n.toNat → bs[97]? = some n →
      let m := (decode raw false (frameSize n.toNat) true (Mem.ofBytes bs beyond) 0).value
      let s := m.to_bytes past false (frameSize n.toNat) true
      s.offset = bs.length ∧ slice (buf.store s.writes) 0 bs.length = bs := by
  constructor
  · intro m past buf raw hm
    rw [to_bytes_framed hm past]
    exact ⟨rfl, decode_framed hm (holds_store buf _ 0) raw⟩
  · intro bs n beyond past buf raw hl hd hn
    have h97 : Mem.ofBytes bs beyond 97 = n := by
      obtain ⟨hi, he⟩ := List.getElem?_eq_some_iff.mp hn
      simp [Mem.ofBytes, hi, he]
    obtain ⟨m, hm, hnum, hh⟩ := exists_framed hd h97
    have hlen : m.pass_pos.length = n.toNat := by rw [hm.count, hnum]
    -- the frame of `m` and `bs` have one length, so they are the same bytes
    have hbs : m.toMessageHeader.layout true ++ m.layout true = bs := by
      have hsame : (m.toMessageHeader.layout true ++ m.layout true).length = bs.length := by
        simp only [List.length_append, MessageHeader.layout_length, layout_length, hlen, hl]
        omega
      exact holds_unique hh (holds_ofBytes bs beyond) hsame
    have hdec := decode_framed hm hh raw
    have henc := to_bytes_framed hm past
    rw [hlen] at hdec henc
    intro m' s
    have hs : s = ⟨98 + 8 * n.toNat, bs.zipIdx, m.fetched⟩ := by
      simp only [s, m', hdec, henc, hbs]
    rw [hs]
    exact ⟨hl.symm, holds_store buf bs 0⟩

def onePoint : Veh2CloudState :=
  { (default : Veh2CloudState) with data_len := 90, pass_pos_num := 1, pass_pos := [⟨7, 9⟩] }

theorem decode_to_bytes_inverse_one_point :
    (decode default false (frameSize 1) true (Mem.store (fun _ => 0)
      (onePoint.to_bytes (fun _ => default) false (frameSize 1) true).writes) 0).value = onePoint ∧
    let bs := onePoint.toMessageHeader.layout true ++ onePoint.layout true
    let m := (decode default false (frameSize 1) true (Mem.ofBytes bs fun _ => 0) 0).value
    slice (Mem.store (fun _ => 0) (m.to_bytes (fun _ => default) false (frameSize 1) true).writes)
      0 bs.length = bs := by
  constructor
  · exact (decode_to_bytes_inverse.1 onePoint (fun _ => default) (fun _ => 0) default
      ⟨by decide, by decide⟩).2
  · exact (decode_to_bytes_inverse.2 (onePoint.toMessageHeader.layout true ++ onePoint.layout true) 1
      (fun _ => 0) (fun _ => default) (fun _ => 0) default (by decide) (by decide) (by decide)).2

end Veh2CloudState

end VehicleCloud
