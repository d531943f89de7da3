import VehicleCloud.PrintBounds

namespace VehicleCloud

open ByteStream Printf HexDump

theorem shows_uint16 (label : Text) (a : UInt16) :
    (number 4 2 label a.toNat).Shows (wordBytes true a) := number_shows_word label a (by decide)

theorem shows_uint32 (label : Text) (a : UInt32) :
    (number 8 4 label a.toNat).Shows (wordBytes true a) := number_shows_word label a (by decide)

theorem shows_uint64 (label : Text) (a : UInt64) :
    (number 16 8 label a.toNat).Shows (wordBytes true a) := number_shows_word label a (by decide)

theorem array_text (v : Vector UInt8 8) :
    (bytes_to_string (Mem.ofBytes v.toList fun _ => 0) 8 256).text = hex v.toList := by
  have hlen : v.toList.length = 8 := Vector.length_toList
  have hslice : slice (Mem.ofBytes v.toList fun _ => 0) 0 8 = v.toList := by
    have hm := holds_ofBytes v.toList fun _ => 0
    rwa [Holds, hlen] at hm
  rw [bytes_to_string_text, hslice]

theorem arrayBlock_shows (label : String) (v : Vector UInt8 8) :
    (arrayBlock label v).Shows v.toList :=
  ⟨Vector.length_toList.symm, array_text v⟩

/-- A field without bytes is no field of the frame. -/
def present (s : List UInt8) : List (List UInt8) := if s = [] then [] else [s]

@[simp] theorem present_flatten (s : List UInt8) : (present s).flatten = s := by
  unfold present
  split
  next h => rw [h]; rfl
  next => exact List.append_nil s

theorem stringBlock_show {len : UInt8} {s : List UInt8} (label : String)
    (h : s.length = Veh2CloudInh.versionLength len) (past : Mem) :
    Show (stringBlock label len s past) (present s) := by
  unfold Veh2CloudInh.versionLength at h
  unfold stringBlock
  split
  next hlen =>
    rw [if_pos hlen] at h
    have hne : s ≠ [] := by
      intro hs
      rw [hs] at h
      exact hlen.1 (UInt8.toNat_inj.mp h.symm)
    have htext := bytes_to_string_text (cstr s past) len.toNat 256
    rw [← h, cstr_slice, h] at htext
    rw [present, if_neg hne]
    exact .cons ⟨h.symm, htext⟩ .nil
  next hlen =>
    rw [if_neg hlen] at h
    have hs : s = [] := List.length_eq_zero_iff.mp h
    rw [hs]
    exact .nil

/-- The dump is printed within its arrays, at the offsets of the fields, with the digits of these
bytes. -/
structure Dumps (p : Printer) (fields : List (List UInt8)) (bytes : List UInt8) : Prop where
  fits : p.Fits
  offsets : p.offsets = startsFrom 0 (fields.map List.length)
  text : p.text = hex bytes

namespace MessageHeader

def wireFields (m : MessageHeader) : List (List UInt8) :=
  [[m.id], wordBytes true m.data_len, [m.data_type], [m.version], wordBytes true m.timestamp,
    [m.ctrl]]

theorem show_blocks (m : MessageHeader) : Show m.blocks m.wireFields :=
  .cons (number_shows_byte _ _) (.cons (shows_uint32 _ _) (.cons (number_shows_byte _ _)
    (.cons (number_shows_byte _ _) (.cons (shows_uint64 _ _) (.cons (number_shows_byte _ _) .nil)))))

theorem print_text_iff (m : MessageHeader) (slack : List UInt8) :
    m.print.text = hex (m.layout true ++ slack) ↔ slack = [] := by
  have hiff := m.show_blocks.span.hex_eq_iff slack
  rw [print, run_text]
  constructor
  · intro h
    exact (hiff.mp h).2
  · intro hslack
    exact hiff.mpr ⟨m.show_blocks, hslack⟩

theorem print_text (m : MessageHeader) : m.print.text = hex (m.layout true) := by
  have htext := (m.print_text_iff []).mpr rfl
  rwa [List.append_nil] at htext

theorem print_offsets (m : MessageHeader) :
    m.print.offsets = startsFrom 0 (m.wireFields.map List.length) := by
  rw [print, run_offsets, m.show_blocks.span.sizes]
  rfl

theorem wireFields_sizes (m : MessageHeader) : (m.wireFields.map List.length).sum = 16 := by
  simp only [wireFields, List.map_cons, List.map_nil, List.sum_cons, List.sum_nil,
    wordBytes_length, width_uint32, width_uint64, List.length_singleton, Nat.reduceAdd]

section

variable {m : MessageHeader} {room : Nat} {bs : List Block} {fields : List (List UInt8)}

theorem printWith_text : (m.printWith room bs).text = hex (m.layout true) ++ bs.flatMap Block.hex := by
  rw [printWith, run_text]
  exact congrArg (· ++ _) m.print_text

theorem printWith_offsets : (m.printWith room bs).offsets =
    startsFrom 0 (m.wireFields.map List.length) ++ startsFrom 16 (bs.map Block.size) := by
  rw [printWith, run_offsets]
  exact congrArg (· ++ _) m.print_offsets

theorem printWith_dumps_iff (h : Span bs fields) (slack : List UInt8) :
    Dumps (m.printWith room bs) (m.wireFields ++ fields) (m.layout true ++ fields.flatten ++ slack) ↔
      (m.printWith room bs).Fits ∧ Show bs fields ∧ slack = [] := by
  have htext : (m.printWith room bs).text = hex (m.layout true ++ fields.flatten ++ slack) ↔
      Show bs fields ∧ slack = [] := by
    rw [printWith_text, List.append_assoc, hex_append, List.append_cancel_left_eq, h.hex_eq_iff]
  have hoffsets : (m.printWith room bs).offsets =
      startsFrom 0 ((m.wireFields ++ fields).map List.length) := by
    rw [printWith_offsets, List.map_append, startsFrom_append, m.wireFields_sizes, Nat.zero_add,
      h.sizes]
  constructor
  · intro hd
    exact ⟨hd.fits, htext.mp hd.text⟩
  · rintro ⟨hfits, hshow⟩
    exact ⟨hfits, hoffsets, htext.mpr hshow⟩

theorem print_dumps_iff (m : MessageHeader) (slack : List UInt8) :
    Dumps m.print m.wireFields (m.layout true ++ slack) ↔ slack = [] := by
  constructor
  · intro hd
    exact (m.print_text_iff slack).mp hd.text
  · intro hslack
    exact ⟨m.print_fits, m.print_offsets, (m.print_text_iff slack).mpr hslack⟩

/-- A dump at the right offsets has as many lines as the frame has fields. -/
theorem printWith_dumps_length {bytes : List UInt8}
    (h : Dumps (m.printWith room bs) (m.wireFields ++ fields) bytes) : bs.length = fields.length := by
  have hlen := congrArg List.length h.offsets
  rw [printWith_offsets, List.map_append, startsFrom_append, List.length_append,
    List.length_append, startsFrom_length, startsFrom_length, startsFrom_length, List.length_map,
    List.length_map, List.length_map] at hlen
  omega

end

end MessageHeader

namespace Cloud2VehInhRes

def wireFields (m : Cloud2VehInhRes) : List (List UInt8) := [m.vehicle_id.toList, [m.res]]

theorem show_blocks (m : Cloud2VehInhRes) : Show m.blocks m.wireFields :=
  .cons (arrayBlock_shows _ _) (.cons (number_shows_byte _ _) .nil)

end Cloud2VehInhRes

namespace Veh2CloudInh

/-- The fields of the body that have bytes. -/
def presentFields (m : Veh2CloudInh) : List (List UInt8) :=
  [m.vehicle_id.toList, [m.sw_ver_len]] ++ present m.sw_ver ++ [[m.hw_ver_len]] ++
    present m.hw_ver ++ [[m.ad_ver_len]] ++ present m.ad_ver ++
    [[m.com_type], [m.pos_confidence], [m.time_sync], [m.gnss_type], [m.user_data_len]] ++
    present m.user_data

theorem presentFields_flatten (m : Veh2CloudInh) : m.presentFields.flatten = m.layout := by
  simp only [presentFields, layout, wireFields, List.flatten_append, present_flatten,
    List.flatten_cons, List.flatten_nil, List.append_nil, List.append_assoc]

section

variable {m : Veh2CloudInh}

theorem show_blocks (past : Behind) (hc : m.Consistent) (h : m.user_data_len ≠ 0xFF) :
    Show (m.blocks past) m.presentFields := by
  have hud : m.user_data.length = versionLength m.user_data_len := by
    rw [hc.user_data, versionLength_of_ne h]
  unfold blocks presentFields
  refine List.rel_append (List.rel_append (List.rel_append (List.rel_append (List.rel_append
    (List.rel_append (List.rel_append ?_ ?_) ?_) ?_) ?_) ?_) ?_) ?_
  · exact .cons (arrayBlock_shows _ _) (.cons (number_shows_byte _ _) .nil)
  · exact stringBlock_show _ hc.sw_ver _
  · exact .cons (number_shows_byte _ _) .nil
  · exact stringBlock_show _ hc.hw_ver _
  · exact .cons (number_shows_byte _ _) .nil
  · exact stringBlock_show _ hc.ad_ver _
  · exact .cons (number_shows_byte _ _) (.cons (number_shows_byte _ _) (.cons (number_shows_byte _ _)
      (.cons (number_shows_byte _ _) (.cons (number_shows_byte _ _) .nil))))
  · exact stringBlock_show _ hud _

/-- User data of 255 bytes are on the wire but not in the dump. -/
theorem blocks_length_of_full (past : Behind) (hc : m.Consistent) (h : m.user_data_len = 0xFF) :
    (m.blocks past).length + 1 = m.presentFields.length := by
  have hsw := (stringBlock_show "车辆软件版本" hc.sw_ver past.sw_ver).length_eq
  have hhw := (stringBlock_show "自动驾驶系统硬件版本" hc.hw_ver past.hw_ver).length_eq
  have had := (stringBlock_show "自动驾驶系统软件版本号" hc.ad_ver past.ad_ver).length_eq
  have hnone : stringBlock "自定义字段内容" m.user_data_len m.user_data past.user_data = [] := by
    rw [h]
    rfl
  have hone : present m.user_data = [m.user_data] := by
    apply if_neg
    intro hn
    have hlen := hc.user_data
    rw [hn, h] at hlen
    exact absurd hlen (by decide)
  simp only [blocks, presentFields, List.length_append, List.length_cons, List.length_nil, hsw, hhw,
    had, hnone, hone]

theorem print_dumps_iff (past : Behind) (hc : m.Consistent) (slack : List UInt8) :
    Dumps (m.print past) (m.toMessageHeader.wireFields ++ m.presentFields)
      (m.toMessageHeader.layout true ++ m.layout ++ slack) ↔
        slack = [] ∧ m.Short ∧ m.user_data_len ≠ 0xFF := by
  by_cases h : m.user_data_len = 0xFF
  · have hlen := blocks_length_of_full past hc h
    constructor
    · intro hd
      have hlines := MessageHeader.printWith_dumps_length hd
      omega
    · rintro ⟨_, _, hn⟩
      exact absurd h hn
  · have hshow := show_blocks past hc h
    rw [← presentFields_flatten, print, MessageHeader.printWith_dumps_iff hshow.span, ← print,
      print_fits_iff hc.measured]
    constructor
    · rintro ⟨hshort, _, hslack⟩
      exact ⟨hslack, hshort, h⟩
    · rintro ⟨hslack, hshort, _⟩
      exact ⟨hshort, hshow, hslack⟩

end

end Veh2CloudInh

namespace Veh2CloudState

theorem messageIdBlock_hex (v : Vector UInt8 8) : (messageIdBlock v).hex = (hex v.toList).reverse := by
  have htext := array_text v
  simp only [messageIdBlock, bytesBlock, htext]

theorem reverseId_toList (v : Vector UInt8 8) : (reverseId true v).toList = v.toList.reverse := by
  simp only [reverseId, ↓reduceIte, Vector.toList_mk]

theorem messageIdBlock_spans (v : Vector UInt8 8) :
    (messageIdBlock v).Spans (reverseId true v).toList where
  size := Vector.length_toList.symm
  hex_length_le := by
    have hlen : (reverseId true v).toList.length = v.toList.length := by
      rw [reverseId_toList, List.length_reverse]
    rw [messageIdBlock_hex, List.length_reverse, hex_length]
    omega

/-- Reversing the digits, not the bytes, exchanges the two halves of each byte. -/
theorem messageIdBlock_shows_iff (v : Vector UInt8 8) :
    (messageIdBlock v).Shows (reverseId true v).toList ↔
      ∀ b ∈ v.toList, b.toNat / 16 = b.toNat % 16 := by
  rw [← hex_reverse_iff, ← messageIdBlock_hex, ← reverseId_toList]
  constructor
  · intro h
    exact h.hex
  · intro h
    exact ⟨Vector.length_toList.symm, h⟩

theorem steering_spans (label : Text) (a : UInt32) :
    (number 2 4 label a.toNat).Spans (wordBytes true a) := by
  have hdigits : (hexadecimal a.toNat).length ≤ 8 :=
    (numeral_length_le (by decide) (by decide)).mpr a.toNat_lt
  have hpad := padZero_length 2 (hexadecimal a.toNat)
  have hword : (wordBytes true a).length = 4 := wordBytes_length true a
  refine ⟨hword.symm, ?_⟩
  show (padZero 2 (hexadecimal a.toNat)).length ≤ 2 * (wordBytes true a).length
  omega

/-- Two digits are asked for where the field has eight. -/
theorem steering_shows_iff (label : Text) (a : UInt32) :
    (number 2 4 label a.toNat).Shows (wordBytes true a) ↔ 0x10000000 ≤ a.toNat := by
  have hshow := shows_uint32 label a
  have hpad : padZero 2 (hexadecimal a.toNat) = padZero 8 (hexadecimal a.toNat) ↔
      8 ≤ (hexadecimal a.toNat).length := padZero_eq_padZero_iff (by decide)
  have hdigits : (hexadecimal a.toNat).length ≤ 7 ↔ a.toNat < 16 ^ 7 :=
    numeral_length_le (by decide) (by decide)
  have hiff : (number 2 4 label a.toNat).Shows (wordBytes true a) ↔
      padZero 2 (hexadecimal a.toNat) = padZero 8 (hexadecimal a.toNat) := by
    constructor
    · intro h
      exact h.hex.trans hshow.hex.symm
    · intro h
      exact ⟨(wordBytes_length true a).symm, h.trans hshow.hex⟩
  rw [hiff, hpad]
  omega

/-- All other fixed fields are shown as they are. -/
theorem fixedBlocks_rel_iff {R : Block → List UInt8 → Prop} (hR : ∀ b bs, b.Shows bs → R b bs)
    (m : Veh2CloudState) : List.Forall₂ R m.fixedBlocks (m.wireFields true).dropLast ↔
      R (messageIdBlock m.message_id) (reverseId true m.message_id).toList ∧
      R (number 2 4 (utf8 "方向盘转角") m.steering_angle.toNat) (wordBytes true m.steering_angle) := by
  have harray := hR _ _ (arrayBlock_shows "车辆编号" m.vehicle_id)
  have h8 (l : Text) (a : UInt8) := hR _ _ (number_shows_byte l a)
  have h16 (l : Text) (a : UInt16) := hR _ _ (shows_uint16 l a)
  have h32 (l : Text) (a : UInt32) := hR _ _ (shows_uint32 l a)
  have h64 (l : Text) (a : UInt64) := hR _ _ (shows_uint64 l a)
  simp only [fixedBlocks, wireFields, List.dropLast_cons_cons, List.dropLast_singleton,
    List.forall₂_cons, List.Forall₂.nil, harray, h8, h16, h32, h64, true_and, and_true]

/-- A way-point's two words are two fields. -/
def splitFields (m : Veh2CloudState) : List (List UInt8) :=
  (m.wireFields true).dropLast ++
    m.pass_pos.flatMap fun p => [wordBytes true p.longitude, wordBytes true p.latitude]

theorem splitFields_flatten (m : Veh2CloudState) : m.splitFields.flatten = m.layout true := by
  have hpoints : (m.pass_pos.flatMap fun p =>
      [wordBytes true p.longitude, wordBytes true p.latitude]).flatten =
      m.pass_pos.flatMap (Position2D.layout · true) := by
    induction m.pass_pos with
    | nil => rfl
    | cons p ps ih =>
      rw [List.flatMap_cons, List.flatten_append, ih, List.flatMap_cons, Position2D.layout]
      simp only [List.flatten_cons, List.flatten_nil, List.append_nil]
  rw [splitFields, List.flatten_append, hpoints]
  simp only [layout, wireFields, List.dropLast_cons_cons, List.dropLast_singleton, List.flatten_cons,
    List.flatten_nil, List.append_nil, List.append_assoc]

theorem show_passPosBlocks {m : Veh2CloudState} {past : Nat → Position2D}
    (hn : m.pass_pos.length = m.pass_pos_num.toNat) :
    Show ((List.range m.pass_pos_num.toNat).flatMap (m.passPosBlocks past))
      (m.pass_pos.flatMap fun p => [wordBytes true p.longitude, wordBytes true p.latitude]) := by
  have hpoints : List.Forall₂ (fun i p => m.pass_pos.getD i (past i) = p)
      (List.range m.pass_pos_num.toNat) m.pass_pos := by
    rw [← List.forall₂_map_left_iff (R := Eq), List.forall₂_eq_eq_eq]
    exact indexed_eq past hn
  refine List.rel_flatMap hpoints ?_
  rintro i p rfl
  have hlon := shows_uint32 (utf8 "途经点" ++ decimal i ++ utf8 "-经度")
    (m.pass_pos.getD i (past i)).longitude
  have hlat := shows_uint32 (utf8 "途经点" ++ decimal i ++ utf8 "-纬度")
    (m.pass_pos.getD i (past i)).latitude
  exact .cons ⟨hlon.size, hlon.hex⟩ (.cons ⟨hlat.size, hlat.hex⟩ .nil)

theorem fixedBlocks_length (m : Veh2CloudState) :
    m.fixedBlocks.length = (m.wireFields true).dropLast.length := rfl

section

variable {m : Veh2CloudState} {past : Nat → Position2D}

theorem span_blocks (hn : m.pass_pos.length = m.pass_pos_num.toNat) :
    Span (m.blocks past) m.splitFields :=
  List.rel_append
    ((m.fixedBlocks_rel_iff fun _ _ => Block.Shows.spans).mpr
      ⟨messageIdBlock_spans _, steering_spans _ _⟩)
    (show_passPosBlocks hn).span

theorem show_blocks_iff (hn : m.pass_pos.length = m.pass_pos_num.toNat) :
    Show (m.blocks past) m.splitFields ↔
      (∀ b ∈ m.message_id.toList, b.toNat / 16 = b.toNat % 16) ∧
        0x10000000 ≤ m.steering_angle.toNat := by
  rw [← messageIdBlock_shows_iff, ← steering_shows_iff (utf8 "方向盘转角"),
    ← m.fixedBlocks_rel_iff fun _ _ h => h]
  constructor
  · intro h
    have hfixed := List.forall₂_take_append _ _ _ h
    rwa [← m.fixedBlocks_length, blocks, List.take_left] at hfixed
  · intro h
    exact List.rel_append h (show_passPosBlocks hn)

theorem print_dumps_iff (hn : m.pass_pos.length = m.pass_pos_num.toNat) (slack : List UInt8) :
    Dumps (m.print past) (m.toMessageHeader.wireFields ++ m.splitFields)
      (m.toMessageHeader.layout true ++ m.layout true ++ slack) ↔
        slack = [] ∧ (∀ b ∈ m.message_id.toList, b.toNat / 16 = b.toNat % 16) ∧
          0x10000000 ≤ m.steering_angle.toNat := by
  rw [← splitFields_flatten, print, MessageHeader.printWith_dumps_iff (span_blocks hn), ← print,
    show_blocks_iff hn]
  constructor
  · rintro ⟨_, hshow, hslack⟩
    exact ⟨hslack, hshow⟩
  · rintro ⟨hslack, hshow⟩
    exact ⟨m.print_fits past, hshow, hslack⟩

end

end Veh2CloudState

theorem Cloud2VehInhRes.print_dumps_iff (m : Cloud2VehInhRes) (slack : List UInt8) :
    Dumps m.print (m.toMessageHeader.wireFields ++ m.wireFields)
      (m.toMessageHeader.layout true ++ m.layout ++ slack) ↔ slack = [] := by
  have hflat : m.wireFields.flatten = m.layout := rfl
  rw [← hflat, print, MessageHeader.printWith_dumps_iff m.show_blocks.span, ← print]
  constructor
  · rintro ⟨_, _, hslack⟩
    exact hslack
  · intro hslack
    exact ⟨m.print_fits, m.show_blocks, hslack⟩

/-- The fields of a message's frame, in the order of their offsets. -/
def Call.fields (c : Call) : List (List UInt8) :=
  c.head.wireFields ++ match c with
    | header _ => []
    | inh m => m.presentFields
    | res m => m.wireFields
    | state m => m.splitFields

theorem Call.fields_flatten (c : Call) : c.fields.flatten = c.layout := by
  have hhead : c.head.wireFields.flatten = c.head.layout true := rfl
  unfold fields layout
  rw [List.flatten_append, hhead]
  cases c with
  | header m => rfl
  | inh m => exact congrArg (_ ++ ·) m.presentFields_flatten
  | res m => rfl
  | state m => exact congrArg (_ ++ ·) m.splitFields_flatten

/-- What a dump can show as it is: short strings and no user data of length 0xFF, a message id of
bytes with equal halves and a steering angle of eight digits. -/
def Call.Legible : Call → Prop
  | header _ => True
  | inh m => m.Short ∧ m.user_data_len ≠ 0xFF
  | res _ => True
  | state m => (∀ b ∈ m.message_id.toList, b.toNat / 16 = b.toNat % 16) ∧
      0x10000000 ≤ m.steering_angle.toNat

/-- The message of a frame, decoded and printed, gives the frame's bytes exactly when it is legible
and nothing fills up its declared length. -/
theorem dump_agrees_iff {f : Frame} {mem : Mem} {size : UInt64} (raw : Raw) (past : Surroundings)
    (hm : Holds mem 0 f.bytes) (hs : f.bytes.length ≤ size.toNat) :
    ∃ c, (Packer.unpack raw false size mem 0).value = [c] ∧
      (Dumps (c.print past) f.message.fields f.bytes ↔ f.slack = [] ∧ f.message.Legible) := by
  refine ⟨f.message, unpack_of_frame raw hm hs, ?_⟩
  have hc := f.valid.consistent
  unfold Frame.bytes Call.layout Call.fields
  cases hmsg : f.message with
  | header m =>
    simp only [Call.head, Call.bodyBytes, Call.print, Call.Legible, List.append_nil, and_true]
    exact m.print_dumps_iff f.slack
  | inh m =>
    rw [hmsg] at hc
    exact Veh2CloudInh.print_dumps_iff past.strings hc f.slack
  | res m =>
    simp only [Call.head, Call.bodyBytes, Call.print, Call.Legible, and_true]
    exact m.print_dumps_iff f.slack
  | state m =>
    rw [hmsg] at hc
    exact Veh2CloudState.print_dumps_iff hc f.slack

/-- A state message without way-points that fills its frame. -/
def plainState (message_id : Vector UInt8 8) (steering_angle : UInt32) : Frame where
  message := .state { (default : Veh2CloudState) with
    data_len := 82, data_type := VEH2CLOUD_STATE, message_id, steering_angle, pass_pos_num := 0,
    pass_pos := [] }
  valid := ⟨rfl, rfl, rfl, by simp [Call.bodyBytes, Call.head]⟩
  slack := []
  length := by simp [Call.bodyBytes, Call.head]

theorem dump_agrees_iff_plain_state :
    ∃ c, (Packer.unpack default false 98
        (Mem.ofBytes (plainState (zeros 8) 0xFFFFFFFF).bytes fun _ => 0) 0).value = [c] ∧
      (Dumps (c.print ⟨⟨fun _ => 0, fun _ => 0, fun _ => 0, fun _ => 0⟩, fun _ => default⟩)
          (plainState (zeros 8) 0xFFFFFFFF).message.fields (plainState (zeros 8) 0xFFFFFFFF).bytes ↔
        (plainState (zeros 8) 0xFFFFFFFF).slack = [] ∧
          (plainState (zeros 8) 0xFFFFFFFF).message.Legible) :=
  dump_agrees_iff default _ (holds_ofBytes _ _) (by rw [Frame.bytes_length]; decide)

/-- A message id that starts with the byte 0x12 is printed with the digits 21 in that place. -/
theorem message_id_halves_exchanged :
    ∃ c, (Packer.unpack default false 98
        (Mem.ofBytes (plainState #v[0x12, 0, 0, 0, 0, 0, 0, 0] 0xFFFFFFFF).bytes fun _ => 0) 0).value =
          [c] ∧
      ¬Dumps (c.print ⟨⟨fun _ => 0, fun _ => 0, fun _ => 0, fun _ => 0⟩, fun _ => default⟩)
          (plainState #v[0x12, 0, 0, 0, 0, 0, 0, 0] 0xFFFFFFFF).message.fields
          (plainState #v[0x12, 0, 0, 0, 0, 0, 0, 0] 0xFFFFFFFF).bytes := by
  let f := plainState #v[0x12, 0, 0, 0, 0, 0, 0, 0] 0xFFFFFFFF
  refine ⟨f.message, unpack_of_frame default (holds_ofBytes f.bytes _) ?_, ?_⟩
  · rw [Frame.bytes_length]
    decide
  · intro hd
    have hplain := (Veh2CloudState.print_dumps_iff rfl []).mp hd
    exact absurd (hplain.2.1 0x12 (by decide)) (by decide)

end VehicleCloud
