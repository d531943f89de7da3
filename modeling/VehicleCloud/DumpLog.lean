import VehicleCloud.DumpAgrees
import VehicleCloud.DumpReading

namespace VehicleCloud

open ByteStream Printf HexDump

theorem arrayBlock_hex (label : String) (v : Vector UInt8 8) :
    (arrayBlock label v).hex = hex v.toList := array_text v

theorem arrayBlock_hex_inj {label : String} {v w : Vector UInt8 8} :
    (arrayBlock label v).hex = (arrayBlock label w).hex ↔ v = w := by
  rw [arrayBlock_hex, arrayBlock_hex]
  exact ⟨fun h => Vector.toList_inj.mp (hex_inj h), fun h => by rw [h]⟩

theorem arrayBlock_akin (label : String) (v w : Vector UInt8 8) :
    (arrayBlock label v).Akin (arrayBlock label w) := by
  refine ⟨rfl, rfl, fun h => by rw [arrayBlock_hex_inj.mp h], ?_, ?_⟩
  all_goals
    rw [arrayBlock_hex]
    exact bracket_not_mem_hex _

/-- Strings of the length that was printed before them. -/
theorem stringBlock_akin {len : UInt8} {s t : List UInt8} (label : String) (past past' : Mem)
    (hs : len ≠ 0xFF → s.length = Veh2CloudInh.versionLength len)
    (ht : len ≠ 0xFF → t.length = Veh2CloudInh.versionLength len) :
    Akin (stringBlock label len s past) (stringBlock label len t past') ∧
    ((stringBlock label len s past).map Block.hex = (stringBlock label len t past').map Block.hex ↔
      (len ≠ 0xFF → s = t)) := by
  unfold stringBlock
  split
  next hlen =>
    rw [Veh2CloudInh.versionLength, if_pos hlen] at hs ht
    have hhex {u : List UInt8} (hu : u.length = len.toNat) (mem : Mem) :
        (bytes_to_string (cstr u mem) len.toNat 256).text = hex u := by
      rw [bytes_to_string_text, ← hu, cstr_slice]
    have hinj : hex s = hex t ↔ s = t := ⟨hex_inj, fun h => by rw [h]⟩
    simp only [bytesBlock, hhex (hs hlen.2), hhex (ht hlen.2), List.map_cons, List.map_nil,
      List.cons.injEq, and_true, hinj]
    refine ⟨.cons ⟨rfl, rfl, fun h => ?_, bracket_not_mem_hex s, bracket_not_mem_hex t⟩ .nil, ?_⟩
    · rw [hinj.mp h]
    · exact ⟨fun h _ => h, fun h => h hlen.2⟩
  next hlen =>
    refine ⟨.nil, fun _ hne => ?_, fun _ => rfl⟩
    have hs := hs hne
    have ht := ht hne
    rw [Veh2CloudInh.versionLength, if_neg hlen] at hs ht
    rw [List.length_eq_zero_iff.mp hs, List.length_eq_zero_iff.mp ht]

namespace MessageHeader

theorem blocks_akin (m n : MessageHeader) : Akin m.blocks n.blocks :=
  .cons (number_akin _ _ _ _ _) (.cons (number_akin _ _ _ _ _) (.cons (number_akin _ _ _ _ _)
    (.cons (number_akin _ _ _ _ _) (.cons (number_akin _ _ _ _ _) (.cons (number_akin _ _ _ _ _) .nil)))))

theorem blocks_hex_inj {m n : MessageHeader} :
    m.blocks.map Block.hex = n.blocks.map Block.hex ↔ m = n := by
  constructor
  · intro h
    simp only [blocks, List.map_cons, List.map_nil, List.cons.injEq, and_true, number_hex_inj,
      UInt8.toNat_inj, UInt32.toNat_inj, UInt64.toNat_inj] at h
    obtain ⟨hid, hlen, htype, hversion, htime, hctrl⟩ := h
    cases m
    cases n
    simp_all
  · intro h
    rw [h]

end MessageHeader

namespace Cloud2VehInhRes

theorem blocks_akin (m n : Cloud2VehInhRes) : Akin m.blocks n.blocks :=
  .cons (arrayBlock_akin _ _ _) (.cons (number_akin _ _ _ _ _) .nil)

theorem blocks_hex_inj {m n : Cloud2VehInhRes} (hhead : m.toMessageHeader = n.toMessageHeader)
    (h : m.blocks.map Block.hex = n.blocks.map Block.hex) : m = n := by
  simp only [blocks, List.map_cons, List.map_nil, List.cons.injEq, and_true, number_hex_inj,
    UInt8.toNat_inj, arrayBlock_hex_inj] at h
  cases m
  cases n
  simp_all

end Cloud2VehInhRes

namespace Veh2CloudInh

/-- What is printed of a message: user data of length 0xFF are left out. -/
def shown (m : Veh2CloudInh) : Veh2CloudInh :=
  { m with user_data := if m.user_data_len = 0xFF then [] else m.user_data }

theorem printed_length {m : Veh2CloudInh} (hc : m.Consistent) {len : UInt8}
    (hlen : m.user_data_len = len) (hne : len ≠ 0xFF) : m.user_data.length = versionLength len := by
  rw [hc.user_data, hlen, versionLength_of_ne hne]

section

variable {m n : Veh2CloudInh}

theorem shown_eq_iff : m.shown = n.shown ↔ m.toMessageHeader = n.toMessageHeader ∧
    (m.vehicle_id = n.vehicle_id ∧ m.sw_ver_len = n.sw_ver_len) ∧ m.sw_ver = n.sw_ver ∧
    m.hw_ver_len = n.hw_ver_len ∧ m.hw_ver = n.hw_ver ∧ m.ad_ver_len = n.ad_ver_len ∧
    m.ad_ver = n.ad_ver ∧ (m.com_type = n.com_type ∧ m.pos_confidence = n.pos_confidence ∧
      m.time_sync = n.time_sync ∧ m.gnss_type = n.gnss_type ∧ m.user_data_len = n.user_data_len) ∧
    (n.user_data_len ≠ 0xFF → m.user_data = n.user_data) := by
  cases m
  cases n
  simp only [shown, Veh2CloudInh.mk.injEq]
  grind

/-- Every length is printed before its string, so that what was read says which line comes next. -/
theorem length_string_inj {l : Text} {label : String} {len len' : UInt8} {s t : List UInt8}
    {past past' : Mem} {p q : List Block} {o : Nat} {x y : Text}
    (hs : len ≠ 0xFF → s.length = versionLength len)
    (ht : len' ≠ 0xFF → t.length = versionLength len')
    (h : textFrom o (number 2 1 l len.toNat :: (stringBlock label len s past ++ p)) ++ x =
      textFrom o (number 2 1 l len'.toNat :: (stringBlock label len' t past' ++ q)) ++ y) :
    len = len' ∧ (len' ≠ 0xFF → s = t) ∧ ∃ o', textFrom o' p ++ x = textFrom o' q ++ y := by
  obtain ⟨hlen, _, h⟩ := (number_akin _ _ _ _ _).textFrom_inj h
  cases UInt8.toNat_inj.mp (number_hex_inj.mp hlen)
  obtain ⟨hakin, hiff⟩ := stringBlock_akin label past past' hs ht
  obtain ⟨hhex, hrest⟩ := hakin.textFrom_inj h
  exact ⟨rfl, hiff.mp hhex, hrest⟩

/-- A version of length 0xFF is empty. -/
theorem version_eq {len : UInt8} {s t : List UInt8} (hs : s.length = versionLength len)
    (ht : t.length = versionLength len) (h : len ≠ 0xFF → s = t) : s = t := by
  by_cases hlen : len = 0xFF
  · have hzero : versionLength 0xFF = 0 := rfl
    rw [hlen, hzero] at hs ht
    rw [List.length_eq_zero_iff.mp hs, List.length_eq_zero_iff.mp ht]
  · exact h hlen

theorem blocks_inj {past past' : Behind} {o : Nat} {s t : Text} (hm : m.Consistent)
    (hn : n.Consistent) (hhead : m.toMessageHeader = n.toMessageHeader)
    (h : textFrom o (m.blocks past) ++ s = textFrom o (n.blocks past') ++ t) :
    m.shown = n.shown ∧ s = t := by
  simp only [blocks, List.append_assoc, List.cons_append, List.nil_append] at h
  obtain ⟨hid, _, h⟩ := (arrayBlock_akin "车辆编号" m.vehicle_id n.vehicle_id).textFrom_inj h
  obtain ⟨hswlen, hsw, _, h⟩ := length_string_inj (fun _ => hm.sw_ver) (fun _ => hn.sw_ver) h
  obtain ⟨hhwlen, hhw, _, h⟩ := length_string_inj (fun _ => hm.hw_ver) (fun _ => hn.hw_ver) h
  obtain ⟨hadlen, had, _, h⟩ := length_string_inj (fun _ => hm.ad_ver) (fun _ => hn.ad_ver) h
  obtain ⟨hcom, _, h⟩ := (number_akin _ _ _ _ _).textFrom_inj h
  obtain ⟨hpos, _, h⟩ := (number_akin _ _ _ _ _).textFrom_inj h
  obtain ⟨htime, _, h⟩ := (number_akin _ _ _ _ _).textFrom_inj h
  obtain ⟨hgnss, _, h⟩ := (number_akin _ _ _ _ _).textFrom_inj h
  -- nothing is printed behind the user data
  rw [← List.append_nil (stringBlock "自定义字段内容" m.user_data_len m.user_data past.user_data),
    ← List.append_nil (stringBlock "自定义字段内容" n.user_data_len n.user_data past'.user_data)] at h
  obtain ⟨hudlen, hud, _, h⟩ := length_string_inj (printed_length hm rfl) (printed_length hn rfl) h
  refine ⟨shown_eq_iff.mpr ⟨hhead, ⟨arrayBlock_hex_inj.mp hid, hswlen⟩, ?_, hhwlen, ?_, hadlen, ?_,
    ⟨?_, ?_, ?_, ?_, hudlen⟩, hud⟩, h⟩
  · exact version_eq (hswlen ▸ hm.sw_ver) hn.sw_ver hsw
  · exact version_eq (hhwlen ▸ hm.hw_ver) hn.hw_ver hhw
  · exact version_eq (hadlen ▸ hm.ad_ver) hn.ad_ver had
  · exact UInt8.toNat_inj.mp (number_hex_inj.mp hcom)
  · exact UInt8.toNat_inj.mp (number_hex_inj.mp hpos)
  · exact UInt8.toNat_inj.mp (number_hex_inj.mp htime)
  · exact UInt8.toNat_inj.mp (number_hex_inj.mp hgnss)

theorem blocks_congr {past past' : Behind} (hm : m.Consistent) (hn : n.Consistent)
    (h : m.shown = n.shown) (o : Nat) :
    textFrom o (m.blocks past) = textFrom o (n.blocks past') := by
  obtain ⟨_, ⟨hid, hswlen⟩, hsw, hhwlen, hhw, hadlen, had, ⟨hcom, hpos, htime, hgnss, hudlen⟩, hud⟩ :=
    shown_eq_iff.mp h
  have hms := hm.sw_ver
  have hmh := hm.hw_ver
  have hma := hm.ad_ver
  rw [hswlen] at hms
  rw [hhwlen] at hmh
  rw [hadlen] at hma
  obtain ⟨hswakin, hswhex⟩ := stringBlock_akin "车辆软件版本" past.sw_ver past'.sw_ver
    (fun _ => hms) fun _ => hn.sw_ver
  obtain ⟨hhwakin, hhwhex⟩ := stringBlock_akin "自动驾驶系统硬件版本" past.hw_ver past'.hw_ver
    (fun _ => hmh) fun _ => hn.hw_ver
  obtain ⟨hadakin, hadhex⟩ := stringBlock_akin "自动驾驶系统软件版本号" past.ad_ver past'.ad_ver
    (fun _ => hma) fun _ => hn.ad_ver
  obtain ⟨hudakin, hudhex⟩ := stringBlock_akin "自定义字段内容" past.user_data past'.user_data
    (printed_length hm hudlen) (printed_length hn rfl)
  unfold blocks
  rw [hid, hswlen, hhwlen, hadlen, hcom, hpos, htime, hgnss, hudlen]
  apply Akin.textFrom_congr
  · refine List.rel_append (List.rel_append (List.rel_append (List.rel_append (List.rel_append
      (List.rel_append (List.rel_append ?_ hswakin) ?_) hhwakin) ?_) hadakin) ?_) hudakin
    · exact .cons (arrayBlock_akin _ _ _) (.cons (number_akin _ _ _ _ _) .nil)
    · exact .cons (number_akin _ _ _ _ _) .nil
    · exact .cons (number_akin _ _ _ _ _) .nil
    · exact .cons (number_akin _ _ _ _ _) (.cons (number_akin _ _ _ _ _) (.cons (number_akin _ _ _ _ _)
        (.cons (number_akin _ _ _ _ _) (.cons (number_akin _ _ _ _ _) .nil))))
  · simp only [List.map_append, hswhex.mpr fun _ => hsw, hhwhex.mpr fun _ => hhw,
      hadhex.mpr fun _ => had, hudhex.mpr hud]

end

end Veh2CloudInh

theorem Position.eq_iff {p q : Position} : p = q ↔
    p.longitude = q.longitude ∧ p.latitude = q.latitude ∧ p.elevation = q.elevation := by
  cases p
  cases q
  simp only [Position.mk.injEq]

theorem Position2D.eq_iff {p q : Position2D} : p = q ↔
    p.longitude = q.longitude ∧ p.latitude = q.latitude := by
  cases p
  cases q
  simp only [Position2D.mk.injEq]

namespace Veh2CloudState

theorem messageIdBlock_hex_inj {v w : Vector UInt8 8} :
    (messageIdBlock v).hex = (messageIdBlock w).hex ↔ v = w := by
  rw [messageIdBlock_hex, messageIdBlock_hex, List.reverse_inj]
  exact ⟨fun h => Vector.toList_inj.mp (hex_inj h), fun h => by rw [h]⟩

theorem messageIdBlock_akin (v w : Vector UInt8 8) :
    (messageIdBlock v).Akin (messageIdBlock w) := by
  refine ⟨rfl, rfl, fun h => by rw [messageIdBlock_hex_inj.mp h], ?_, ?_⟩
  all_goals
    rw [messageIdBlock_hex, List.mem_reverse]
    exact bracket_not_mem_hex _

theorem fixedBlocks_akin (m n : Veh2CloudState) : Akin m.fixedBlocks n.fixedBlocks := by
  simp only [fixedBlocks, List.forall₂_cons, List.Forall₂.nil, arrayBlock_akin, messageIdBlock_akin,
    number_akin, and_self]

section

variable {m n : Veh2CloudState}

theorem fixedBlocks_hex_inj (hhead : m.toMessageHeader = n.toMessageHeader)
    (h : m.fixedBlocks.map Block.hex = n.fixedBlocks.map Block.hex) :
    { m with pass_pos := n.pass_pos } = n := by
  simp only [fixedBlocks, List.map_cons, List.map_nil, List.cons.injEq, and_true, number_hex_inj,
    arrayBlock_hex_inj, messageIdBlock_hex_inj, UInt8.toNat_inj, UInt16.toNat_inj, UInt32.toNat_inj,
    UInt64.toNat_inj] at h
  cases m
  cases n
  simp only [Veh2CloudState.mk.injEq, Position.eq_iff, Position2D.eq_iff]
  simp_all

/-- A round of the way-point loop prints the same labels for both. -/
theorem passPosBlocks_akin (past past' : Nat → Position2D) (count : Nat) :
    Akin ((List.range count).flatMap (m.passPosBlocks past))
      ((List.range count).flatMap (n.passPosBlocks past')) := by
  have hround : List.Forall₂ Eq (List.range count) (List.range count) := List.forall₂_refl _
  refine List.rel_flatMap hround ?_
  rintro i _ rfl
  have hakin (v w : Nat) := number_akin 8 4 [] v w
  exact .cons ⟨rfl, rfl, (hakin _ _).value, (hakin _ _).closed⟩
    (.cons ⟨rfl, rfl, (hakin _ _).value, (hakin _ _).closed⟩ .nil)

def pointHex (p : Position2D) : List Text :=
  [padZero 8 (hexadecimal p.longitude.toNat), padZero 8 (hexadecimal p.latitude.toNat)]

theorem pointHex_inj {ps qs : List Position2D} (h : ps.flatMap pointHex = qs.flatMap pointHex) :
    ps = qs := by
  induction ps generalizing qs with
  | nil =>
    cases qs with
    | nil => rfl
    | cons q qs => cases h
  | cons p ps ih =>
    cases qs with
    | nil => cases h
    | cons q qs =>
      simp only [List.flatMap_cons, pointHex, List.cons_append, List.nil_append, List.cons.injEq] at h
      obtain ⟨hlon, hlat, hrest⟩ := h
      have hpq : p = q := Position2D.eq_iff.mpr ⟨UInt32.toNat_inj.mp (padZero_hexadecimal_inj hlon),
        UInt32.toNat_inj.mp (padZero_hexadecimal_inj hlat)⟩
      rw [hpq, ih hrest]

theorem passPosBlocks_hex {past : Nat → Position2D} (hn : m.pass_pos.length = m.pass_pos_num.toNat) :
    ((List.range m.pass_pos_num.toNat).flatMap (m.passPosBlocks past)).map Block.hex =
      m.pass_pos.flatMap pointHex := by
  rw [← congrArg (List.flatMap pointHex) (indexed_eq past hn), indexed, List.map_flatMap,
    List.flatMap_map]
  rfl

theorem blocks_inj {past past' : Nat → Position2D} {o : Nat} {s t : Text}
    (hm : m.pass_pos.length = m.pass_pos_num.toNat) (hn : n.pass_pos.length = n.pass_pos_num.toNat)
    (hhead : m.toMessageHeader = n.toMessageHeader)
    (h : textFrom o (m.blocks past) ++ s = textFrom o (n.blocks past') ++ t) : m = n ∧ s = t := by
  obtain ⟨hfixed, _, h⟩ := (m.fixedBlocks_akin n).textFrom_inj h
  have hsame := fixedBlocks_hex_inj hhead hfixed
  have hcount : m.pass_pos_num = n.pass_pos_num := congrArg (·.pass_pos_num) hsame
  have hcountNat : m.pass_pos_num.toNat = n.pass_pos_num.toNat := by rw [hcount]
  rw [hcountNat] at h
  obtain ⟨hhex, hst⟩ := (passPosBlocks_akin past past' n.pass_pos_num.toNat).textFrom_inj_all h
  rw [← hcountNat, passPosBlocks_hex hm, hcountNat, passPosBlocks_hex hn] at hhex
  rw [← pointHex_inj hhex] at hsame
  exact ⟨hsame, hst⟩

theorem blocks_congr {past past' : Nat → Position2D}
    (hm : m.pass_pos.length = m.pass_pos_num.toNat) (o : Nat) :
    textFrom o (m.blocks past) = textFrom o (m.blocks past') := by
  apply Akin.textFrom_congr
  · exact List.rel_append (m.fixedBlocks_akin m) (passPosBlocks_akin past past' _)
  · rw [blocks, blocks, List.map_append, List.map_append, passPosBlocks_hex hm, passPosBlocks_hex hm]

end

end Veh2CloudState

namespace Call

def shown : Call → Call
  | header m => header m
  | inh m => inh m.shown
  | res m => res m
  | state m => state m

def blocks (past : Surroundings) (c : Call) : List Block :=
  c.head.blocks ++ match c with
    | header _ => []
    | inh m => m.blocks past.strings
    | res m => m.blocks
    | state m => m.blocks past.points

theorem print_output (past : Surroundings) (c : Call) :
    (c.print past).output = textFrom 0 (c.blocks past) := by
  have hhead (m : MessageHeader) : m.print.output = textFrom 0 m.blocks := by
    rw [MessageHeader.print, run_output]
    rfl
  have hbody (m : MessageHeader) (room : Nat) (bs : List Block) :
      (m.printWith room bs).output = textFrom 0 (m.blocks ++ bs) := by
    rw [MessageHeader.printWith, run_output, textFrom_append, ← hhead]
    rfl
  cases c with
  | header m => exact (hhead m).trans (by rw [blocks, List.append_nil]; rfl)
  | inh m => exact hbody _ _ _
  | res m => exact hbody _ _ _
  | state m => exact hbody _ _ _

/-- The header says of which type the message is, and so which lines follow. -/
theorem blocks_inj {c d : Call} {past past' : Surroundings} {s t : Text} (hc : c.Valid)
    (hd : d.Valid) (h : textFrom 0 (c.blocks past) ++ s = textFrom 0 (d.blocks past') ++ t) :
    c.shown = d.shown ∧ s = t := by
  obtain ⟨hhex, _, h⟩ := (c.head.blocks_akin d.head).textFrom_inj h
  have hhead := MessageHeader.blocks_hex_inj.mp hhex
  have hover : some c.overload = some d.overload := by
    rw [← hc.overload, ← hd.overload, hhead]
  have hcc := hc.consistent
  have hdc := hd.consistent
  cases c with
  | header m =>
    cases d with
    | header n => exact ⟨congrArg header hhead, h⟩
    | _ => cases hover
  | inh m =>
    cases d with
    | inh n =>
      obtain ⟨hshown, hst⟩ := Veh2CloudInh.blocks_inj hcc hdc hhead h
      exact ⟨congrArg inh hshown, hst⟩
    | _ => cases hover
  | res m =>
    cases d with
    | res n =>
      obtain ⟨hres, hst⟩ := (m.blocks_akin n).textFrom_inj_all h
      exact ⟨congrArg res (Cloud2VehInhRes.blocks_hex_inj hhead hres), hst⟩
    | _ => cases hover
  | state m =>
    cases d with
    | state n =>
      obtain ⟨hsame, hst⟩ := Veh2CloudState.blocks_inj hcc hdc hhead h
      exact ⟨congrArg state hsame, hst⟩
    | _ => cases hover

theorem blocks_congr {c d : Call} {past past' : Surroundings} (hc : c.Valid) (hd : d.Valid)
    (h : c.shown = d.shown) : textFrom 0 (c.blocks past) = textFrom 0 (d.blocks past') := by
  have hcc := hc.consistent
  have hdc := hd.consistent
  cases c with
  | header m =>
    cases d with
    | header n => cases Call.header.inj h; rfl
    | _ => cases h
  | inh m =>
    cases d with
    | inh n =>
      have hshown : m.shown = n.shown := Call.inh.inj h
      have hbody : ∀ o, textFrom o (m.blocks past.strings) = textFrom o (n.blocks past'.strings) :=
        Veh2CloudInh.blocks_congr hcc hdc hshown
      simp only [blocks, head, textFrom_append, (Veh2CloudInh.shown_eq_iff.mp hshown).1, hbody]
    | _ => cases h
  | res m =>
    cases d with
    | res n => cases Call.res.inj h; rfl
    | _ => cases h
  | state m =>
    cases d with
    | state n =>
      cases Call.state.inj h
      have hbody : ∀ o, textFrom o (m.blocks past.points) = textFrom o (m.blocks past'.points) :=
        Veh2CloudState.blocks_congr hcc
      simp only [blocks, textFrom_append, hbody]
    | _ => cases h

end Call

/-- What `Controller::on_unpack` prints of the message of a well-formed frame, where it fits in its
arrays. -/
structure Dump where
  message : Call
  valid : message.Valid
  past : Surroundings
  fits : (message.print past).Fits

namespace Dump

/-- `std::cout << std::endl << _msg` -/
def text (d : Dump) : Text := utf8 "\n" ++ (d.message.print d.past).output

theorem text_inj {d e : Dump} {s t : Text} (h : d.text ++ s = e.text ++ t) :
    d.message.shown = e.message.shown ∧ s = t := by
  simp only [text, Call.print_output, List.append_assoc, List.append_cancel_left_eq] at h
  exact Call.blocks_inj d.valid e.valid h

theorem text_ne_nil (d : Dump) : d.text ≠ [] :=
  List.append_ne_nil_of_left_ne_nil (List.cons_ne_nil 10 []) _

theorem text_congr {d e : Dump} (h : d.message.shown = e.message.shown) : d.text = e.text := by
  rw [text, text, Call.print_output, Call.print_output, Call.blocks_congr d.valid e.valid h]

/-- A log of messages can be read back: two logs are the same exactly when they are of the same
messages, but for user data of length 0xFF. -/
theorem logs_tell_messages (ds es : List Dump) : ds.flatMap text = es.flatMap text ↔
    ds.map (fun d => d.message.shown) = es.map fun e => e.message.shown := by
  induction ds generalizing es with
  | nil =>
    cases es with
    | nil => exact ⟨fun _ => rfl, fun _ => rfl⟩
    | cons e es => exact ⟨fun h => absurd h (by simp [text_ne_nil]), fun h => by cases h⟩
  | cons d ds ih =>
    cases es with
    | nil => exact ⟨fun h => absurd h (by simp [text_ne_nil]), fun h => by cases h⟩
    | cons e es =>
      rw [List.flatMap_cons, List.flatMap_cons, List.map_cons, List.map_cons, List.cons.injEq, ← ih es]
      constructor
      · intro h
        exact text_inj h
      · rintro ⟨hshown, hrest⟩
        rw [text_congr hshown, hrest]

def heartbeat (past : Surroundings) : Dump where
  message := .header (MessageHeader.ofArgs 0 HEARTBEAT 1 0x0102030405060708 0xFC)
  valid := ⟨rfl, by decide, trivial, by decide⟩
  past := past
  fits := MessageHeader.print_fits _

/-- The versions "a1", "b2" and "c3", and user data. -/
def registrationArgs : Veh2CloudInh.Args := { (default : Veh2CloudInh.Args) with
  version := 1, timestamp := 0x1112131415161718, ctrl := 0xFC, vehicle_id := [0x51, 0x31]
  sw_ver := [0x61, 0x31], hw_ver := [0x62, 0x32], ad_ver := [0x63, 0x33], user_data := [4, 5, 6] }

def registration (past : Surroundings) : Dump where
  message := .inh (Veh2CloudInh.ofArgs registrationArgs)
  valid := ⟨rfl, by decide, ⟨rfl, rfl, rfl, rfl⟩, by decide⟩
  past := past
  fits := (Veh2CloudInh.print_fits_iff (Veh2CloudInh.ofArgs_measured _) past.strings).mpr
    ⟨by decide, by decide, by decide, by decide⟩

/-- Whatever memory holds behind the strings, the log tells the two messages and their order. -/
theorem logs_tell_messages_registration :
    let past : Surroundings := ⟨⟨fun _ => 0, fun _ => 0, fun _ => 0, fun _ => 0⟩, fun _ => default⟩
    let other : Surroundings := ⟨⟨fun _ => 1, fun _ => 2, fun _ => 3, fun _ => 4⟩, fun _ => default⟩
    [heartbeat past, registration past].flatMap text =
      [heartbeat other, registration other].flatMap text ∧
    [heartbeat past, registration past].flatMap text ≠
      [registration past, heartbeat past].flatMap text := by
  refine ⟨(logs_tell_messages _ _).mpr rfl, fun h => ?_⟩
  have hshown := (logs_tell_messages _ _).mp h
  cases hshown

end Dump

end VehicleCloud
