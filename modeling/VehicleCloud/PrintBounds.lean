import VehicleCloud.SourceReads

namespace VehicleCloud

open ByteStream Printf HexDump

/-- The line of a block whose own texts fit is no longer than its array. -/
def Within (room : Nat) (b : Block) : Prop := b.StoresFit → b.width + 11 ≤ room

/-- 16 hexadecimal digits, 20 decimal ones and the label. -/
theorem ofNumbers_within {room : Nat} (h : 256 ≤ room) : OfNumbers (Within room) := by
  intro d n l v hd hl hv _
  have hhex : (hexadecimal v).length ≤ 16 := by
    rw [hexadecimal, numeral_length_le (by decide) (by decide)]
    exact hv
  have hdec : (decimal v).length ≤ 20 := decimal_length_le (by decide) (Nat.lt_trans hv (by decide))
  have hpad := padZero_length d (hexadecimal v)
  have hw : (number d n l v).width =
      (padZero d (hexadecimal v)).length + l.length + (decimal v).length := rfl
  omega

theorem bytesBlock_width (label : String) (src : Mem) (len avail : Nat) (shown : Text) :
    (bytesBlock label src len avail shown).width =
      2 * len + (utf8 label).length + shown.length := by
  have hhex := bytes_to_string_length src len 256
  show (bytes_to_string src len 256).text.length + _ + _ = _
  rw [hhex]
  rfl

theorem arrayBlock_within {room : Nat} (h : 512 ≤ room) (v : Vector UInt8 8) :
    Within room (arrayBlock "车辆编号" v) := by
  intro _
  have hlabel : (utf8 "车辆编号").length = 12 := by decide
  have hshown := str_length_le v.toList
  have hlen : v.toList.length = 8 := Vector.length_toList
  rw [arrayBlock, bytesBlock_width]
  omega

/-- In the 127 characters that `str` can take, a string is not too long for the line either. -/
theorem stringBlock_within {label : String} (hl : (utf8 label).length ≤ 64) {len : UInt8}
    {s : List UInt8} (hs : Veh2CloudInh.versionLength len ≠ 0 →
      s.length ≤ Veh2CloudInh.versionLength len) (past : Mem) :
    ∀ b ∈ stringBlock label len s past, Within 512 b := by
  have hshown := str_length_le s
  unfold Veh2CloudInh.versionLength at hs
  unfold stringBlock
  split
  next hlen =>
    rw [if_pos hlen] at hs
    rw [List.forall_mem_singleton]
    intro hfit
    have hfit' : len.toNat ≤ 127 :=
      (bytesBlock_storesFit_iff label (cstr s past) len.toNat (s.length + 1) (str s)).mp hfit
    have hwidth := bytesBlock_width label (cstr s past) len.toNat (s.length + 1) (str s)
    have hpos : len.toNat ≠ 0 := fun hz => hlen.1 (UInt8.toNat_inj.mp hz)
    have hle := hs hpos
    show (bytesBlock label (cstr s past) len.toNat (s.length + 1) (str s)).width + 11 ≤ 512
    omega
  next => exact List.forall_mem_nil _

theorem stringBlock_sizes (label : String) (len : UInt8) (s : List UInt8) (past : Mem) :
    ((stringBlock label len s past).map Block.size).sum = Veh2CloudInh.versionLength len := by
  unfold stringBlock Veh2CloudInh.versionLength
  split
  next => exact Nat.add_zero _
  next => rfl

namespace MessageHeader

theorem print_fits (m : MessageHeader) : m.print.Fits := by
  have hsizes : (m.blocks.map Block.size).sum = 16 := rfl
  rw [print, run_fits_iff (by rw [hsizes]; decide) (forall_blocks (ofNumbers_within (Nat.le_refl _)))]
  exact ⟨List.forall_mem_nil _, forall_blocks ofNumbers_storesFit⟩

theorem printWith_fits_iff (m : MessageHeader) {room : Nat} {bs : List Block}
    (ho : 16 + (bs.map Block.size).sum < 10000) (hw : ∀ b ∈ bs, Within room b) :
    (m.printWith room bs).Fits ↔ ∀ b ∈ bs, b.StoresFit := by
  rw [printWith, run_fits_iff ho hw]
  exact and_iff_right m.print_fits

end MessageHeader

theorem Cloud2VehInhRes.print_fits (m : Cloud2VehInhRes) : m.print.Fits := by
  have hsizes : (m.blocks.map Block.size).sum = 9 := rfl
  have hwithin : ∀ b ∈ m.blocks, Within 512 b :=
    forall_blocks (ofNumbers_within (by decide)) (arrayBlock_within (Nat.le_refl _) _)
  rw [print, m.toMessageHeader.printWith_fits_iff (by rw [hsizes]; decide) hwithin]
  exact forall_blocks ofNumbers_storesFit (arrayBlock_storesFit _ _)

namespace Veh2CloudInh

/-- A string that is printed is not longer than its length byte says. -/
structure Measured (m : Veh2CloudInh) : Prop where
  sw_ver : versionLength m.sw_ver_len ≠ 0 → m.sw_ver.length ≤ versionLength m.sw_ver_len
  hw_ver : versionLength m.hw_ver_len ≠ 0 → m.hw_ver.length ≤ versionLength m.hw_ver_len
  ad_ver : versionLength m.ad_ver_len ≠ 0 → m.ad_ver.length ≤ versionLength m.ad_ver_len
  user_data : versionLength m.user_data_len ≠ 0 →
    m.user_data.length ≤ versionLength m.user_data_len

theorem versionLength_of_ne_zero {len : UInt8} (h : versionLength len ≠ 0) :
    versionLength len = len.toNat := by
  unfold versionLength at h ⊢
  split
  next => rfl
  next hn => rw [if_neg hn] at h; exact absurd rfl h

/-- Without 0xFF the version strings and the user data go by one rule. -/
theorem versionLength_of_ne {len : UInt8} (h : len ≠ 0xFF) : versionLength len = len.toNat := by
  unfold versionLength
  split
  next => rfl
  next hn =>
    have hz : len = 0 := by
      by_contra hne
      exact hn ⟨hne, h⟩
    rw [hz]
    rfl

theorem versionLength_le_254 (len : UInt8) : versionLength len ≤ 254 := by
  have hlt := len.toNat_lt
  unfold versionLength
  split
  next h =>
    have hne : len.toNat ≠ 255 := fun he => h.2 (UInt8.toNat_inj.mp he)
    omega
  next => exact Nat.zero_le _

theorem Consistent.measured {m : Veh2CloudInh} (hc : m.Consistent) : m.Measured where
  sw_ver _ := Nat.le_of_eq hc.sw_ver
  hw_ver _ := Nat.le_of_eq hc.hw_ver
  ad_ver _ := Nat.le_of_eq hc.ad_ver
  user_data h := by
    rw [versionLength_of_ne_zero h]
    exact Nat.le_of_eq hc.user_data

theorem rejected_measured (raw : Veh2CloudInh) (h : MessageHeader) : (raw.rejected h).Measured :=
  ⟨fun _ => Nat.zero_le _, fun _ => Nat.zero_le _, fun _ => Nat.zero_le _, fun _ => Nat.zero_le _⟩

/-- A string of 255 bytes or more is not printed at all. -/
theorem length_le_of_counted {s : List UInt8} (h : versionLength (lengthByte s) ≠ 0) :
    s.length ≤ versionLength (lengthByte s) := by
  rw [versionLength_lengthByte] at h ⊢
  unfold counted at h ⊢
  split
  next => exact Nat.le_refl _
  next hs => rw [if_neg hs] at h; exact absurd rfl h

theorem ofArgs_measured (a : Args) : (ofArgs a).Measured :=
  ⟨length_le_of_counted, length_le_of_counted, length_le_of_counted, length_le_of_counted⟩

theorem object_measured (o : Origin) : (object o).Measured := by
  cases o with
  | fields a => exact ofArgs_measured a
  | buffer raw size big_endian mem =>
    by_cases h : MessageHeader.Refuses big_endian mem size
    · obtain ⟨m, hr⟩ := decode_of_refuses raw h
      have hobj : object (.buffer raw size big_endian mem) = raw.rejected m := hr
      rw [hobj]
      exact rejected_measured raw m
    · exact (decode_of_not_refuses raw h).1.measured
  | null raw size big_endian refused =>
    obtain ⟨m, hr⟩ := decode_of_null big_endian (fun _ => 0) refused
    have hobj : object (.null raw size big_endian refused) = raw.rejected m := hr
    rw [hobj]
    exact rejected_measured raw m

/-- The strings that are printed have at most 127 bytes on the wire. -/
structure Short (m : Veh2CloudInh) : Prop where
  sw_ver : versionLength m.sw_ver_len ≤ 127
  hw_ver : versionLength m.hw_ver_len ≤ 127
  ad_ver : versionLength m.ad_ver_len ≤ 127
  user_data : versionLength m.user_data_len ≤ 127

theorem blocks_sizes (m : Veh2CloudInh) (past : Behind) :
    ((m.blocks past).map Block.size).sum = 16 + versionLength m.sw_ver_len +
      versionLength m.hw_ver_len + versionLength m.ad_ver_len + versionLength m.user_data_len := by
  simp only [blocks, List.map_append, List.sum_append, stringBlock_sizes, List.map_cons,
    List.map_nil, List.sum_cons, List.sum_nil, number, arrayBlock, bytesBlock]
  omega

theorem print_fits_iff {m : Veh2CloudInh} (hm : m.Measured) (past : Behind) :
    (m.print past).Fits ↔ m.Short := by
  have h1 := versionLength_le_254 m.sw_ver_len
  have h2 := versionLength_le_254 m.hw_ver_len
  have h3 := versionLength_le_254 m.ad_ver_len
  have h4 := versionLength_le_254 m.user_data_len
  have hsizes := m.blocks_sizes past
  have hwithin : ∀ b ∈ m.blocks past, Within 512 b :=
    (forall_blocks_iff (ofNumbers_within (by decide)) (arrayBlock_within (Nat.le_refl _) _)).mpr
      ⟨stringBlock_within (by decide) hm.sw_ver _, stringBlock_within (by decide) hm.hw_ver _,
        stringBlock_within (by decide) hm.ad_ver _, stringBlock_within (by decide) hm.user_data _⟩
  rw [print, m.toMessageHeader.printWith_fits_iff (by omega) hwithin,
    forall_blocks_iff ofNumbers_storesFit (arrayBlock_storesFit _ _)]
  simp only [stringBlock_storesFit_iff]
  constructor
  · rintro ⟨hsw, hhw, had, hud⟩
    exact ⟨hsw, hhw, had, hud⟩
  · intro h
    exact ⟨h.sw_ver, h.hw_ver, h.ad_ver, h.user_data⟩

end Veh2CloudInh

namespace Veh2CloudState

theorem messageIdBlock_storesFit (v : Vector UInt8 8) : (messageIdBlock v).StoresFit := by
  have hid := (bytesBlock_storesFit_iff "消息编号" (Mem.ofBytes v.toList fun _ => 0) 8 8 []).mpr
    (by decide)
  unfold Block.StoresFit at hid ⊢
  exact hid

theorem messageIdBlock_within (v : Vector UInt8 8) : Within 1024 (messageIdBlock v) := by
  intro _
  have htext := bytes_to_string_length (Mem.ofBytes v.toList fun _ => 0) 8 256
  have hlabel : (utf8 "消息编号").length = 12 := by decide
  have hshown := str_length_le
    (bytes_to_string (Mem.ofBytes v.toList fun _ => 0) 8 256).text.reverse
  simp only [Block.width, messageIdBlock, bytesBlock, List.length_reverse] at hshown ⊢
  omega

/-- A way-point's two lines carry its index, which has at most three digits. -/
theorem forall_passPosBlocks {P : Block → Prop} {m : Veh2CloudState} {past : Nat → Position2D}
    (hnumber : OfNumbers P) (hfetches : ∀ b fs, P b → P { b with fetches := fs }) {i : Nat}
    (hi : i < 256) : ∀ b ∈ m.passPosBlocks past i, P b := by
  have hdec : (decimal i).length ≤ 3 := decimal_length_le (by decide) (by omega)
  have hpoint : (utf8 "途经点").length = 9 := by decide
  have hlon : (utf8 "-经度").length = 7 := by decide
  have hlat : (utf8 "-纬度").length = 7 := by decide
  simp only [passPosBlocks, List.forall_mem_cons, List.not_mem_nil, false_implies, implies_true,
    and_true]
  constructor
  · apply hfetches
    apply hnumber.uint32 _ (by decide)
    rw [List.length_append, List.length_append]
    omega
  · apply hfetches
    apply hnumber.uint32 _ (by decide)
    rw [List.length_append, List.length_append]
    omega

theorem forall_blocks {P : Block → Prop} {m : Veh2CloudState} {past : Nat → Position2D}
    (hnumber : OfNumbers P) (harray : P (arrayBlock "车辆编号" m.vehicle_id))
    (hid : P (messageIdBlock m.message_id))
    (hfetches : ∀ b fs, P b → P { b with fetches := fs }) : ∀ b ∈ m.blocks past, P b := by
  have hn := m.pass_pos_num.toNat_lt
  rw [blocks, List.forall_mem_append, List.forall_mem_flatMap]
  refine ⟨forall_fixedBlocks hnumber harray hid, fun i hi => ?_⟩
  have hi' := List.mem_range.mp hi
  exact forall_passPosBlocks hnumber hfetches (by omega)

theorem blocks_sizes (m : Veh2CloudState) (past : Nat → Position2D) :
    ((m.blocks past).map Block.size).sum = 82 + 8 * m.pass_pos_num.toNat := by
  have hfixed : (m.fixedBlocks.map Block.size).sum = 82 := by
    simp only [fixedBlocks, List.map_cons, List.map_nil, List.sum_cons, List.sum_nil, number,
      arrayBlock, messageIdBlock, bytesBlock, Nat.reduceAdd]
  have hround : ∀ i, ((m.passPosBlocks past i).map Block.size).sum = 8 := fun _ => rfl
  rw [blocks, List.map_append, List.sum_append, hfixed]
  induction m.pass_pos_num.toNat with
  | zero => rfl
  | succ n ih =>
    rw [List.range_succ, List.flatMap_append, List.map_append, List.sum_append,
      List.flatMap_singleton, hround]
    omega

theorem print_fits (m : Veh2CloudState) (past : Nat → Position2D) : (m.print past).Fits := by
  have hn := m.pass_pos_num.toNat_lt
  have hsizes := m.blocks_sizes past
  have hwithin : ∀ b ∈ m.blocks past, Within 1024 b :=
    forall_blocks (ofNumbers_within (by decide)) (arrayBlock_within (by decide) _)
      (messageIdBlock_within _) (fun _ _ h => h)
  rw [print, m.toMessageHeader.printWith_fits_iff (by omega) hwithin]
  exact forall_blocks ofNumbers_storesFit (arrayBlock_storesFit _ _) (messageIdBlock_storesFit _)
    (fun _ _ h => h)

end Veh2CloudState

/-- However a message came to be, only a string of more than 127 bytes in an inherent-data message
leaves its array when printed; a buffer's dump does so only when the size of its array wraps. -/
theorem printed_text_fits_iff (past : Surroundings) :
    (∀ o, ((Veh2CloudInh.object o).print past.strings).Fits ↔ (Veh2CloudInh.object o).Short) ∧
    (∀ m : Cloud2VehInhRes, m.print.Fits) ∧
    (∀ m : Veh2CloudState, (m.print past.points).Fits) ∧
    (∀ pre id buf size, (print_buffer pre id buf size).Fits ↔
      4 * size.toNat + (str pre).length + 100 < 2 ^ 64) := by
  refine ⟨fun o => ?_, fun m => m.print_fits, fun m => m.print_fits past.points, ?_⟩
  · exact Veh2CloudInh.print_fits_iff (Veh2CloudInh.object_measured o) past.strings
  · exact print_buffer_fits_iff

/-- A software version of 128 bytes: 257 characters in `str`. -/
theorem long_version_overflows :
    ¬((Veh2CloudInh.object (.fields { (default : Veh2CloudInh.Args) with
        sw_ver := List.replicate 128 97 })).print
      ⟨fun _ => 0, fun _ => 0, fun _ => 0, fun _ => 0⟩).Fits := by
  rw [Veh2CloudInh.print_fits_iff (Veh2CloudInh.object_measured _)]
  intro h
  have hlen := h.sw_ver
  simp only [Veh2CloudInh.object, Veh2CloudInh.ofArgs, Veh2CloudInh.lengthByte,
    List.length_replicate] at hlen
  exact absurd hlen (by decide)

end VehicleCloud
