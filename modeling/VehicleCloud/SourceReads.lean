import VehicleCloud.AllOrNothing
import VehicleCloud.AnnouncedEnd
import VehicleCloud.InhPack
import VehicleCloud.MessagePrint

namespace VehicleCloud

open ByteStream Printf HexDump

/-- How a message object comes to be. A decoding constructor that is given a null pointer returns
only if the length check refuses what the object's memory held before. -/
inductive Origin (Args α : Type) (head : α → MessageHeader) where
  | fields (a : Args)
  | buffer (raw : α) (size : UInt64) (big_endian : Bool) (mem : Mem)
  | null (raw : α) (size : UInt64) (big_endian : Bool)
      (refused : invalidSize size MessageHeader.get_header_length (head raw).data_len = true)

namespace MessageHeader

theorem to_bytes_fetches (m : MessageHeader) (null : Bool) (size : UInt64) (big_endian : Bool) :
    (m.to_bytes null size big_endian).fetches = [] := by
  rcases to_bytes_failed_or null size with hf | ⟨rfl, hs⟩
  · rw [to_bytes_of_failed hf]
  · rw [to_bytes_of_le m hs]

/-- Some call of a derived `to_bytes` gets to the body, so all calls read existing data exactly
when the body does. -/
theorem toBytesWith_fetches_iff {h : MessageHeader} {ι : Type} {body : ι → Writer Unit}
    {bs : ι → List UInt8} {fs : List (Nat × Nat)} (hb : ∀ i, (body i).Emits (bs i) fs) (i₀ : ι) :
    (∀ i null size, ∀ a ∈ (h.toBytesWith (body i) null size).fetches, a.1 ≤ a.2) ↔
      ∀ a ∈ fs, a.1 ≤ a.2 := by
  constructor
  · intro hall
    have hd := h.data_len.toNat_lt
    have hroom : 16 + h.data_len.toNat ≤ (UInt64.ofNat (16 + h.data_len.toNat)).toNat := by
      rw [UInt64.toNat_ofNat']
      omega
    have hcall := hall i₀ false (UInt64.ofNat (16 + h.data_len.toNat))
    rw [toBytesWith_of_le (hb i₀) hroom] at hcall
    exact hcall
  · intro hfs i null size
    have hnone := h.to_bytes_fetches null size true
    unfold toBytesWith
    dsimp only
    split
    next => rw [hnone]; exact fun _ ha => absurd ha List.not_mem_nil
    next =>
      rw [hb i]
      simp only [hnone, List.nil_append]
      exact hfs

theorem print_inBounds (m : MessageHeader) : m.print.InBounds := by
  rw [print, run_inBounds]
  exact ⟨fun _ ha => absurd ha List.not_mem_nil, forall_blocks ofNumbers_inBounds⟩

theorem printWith_inBounds_iff (m : MessageHeader) (room : Nat) (bs : List Block) :
    (m.printWith room bs).InBounds ↔ ∀ b ∈ bs, b.InBounds := by
  rw [printWith, run_inBounds]
  exact ⟨fun h => h.2, fun h => ⟨m.print_inBounds, h⟩⟩

end MessageHeader

namespace Veh2CloudInh

/-- Whatever surrounds the object and whatever it is given, `to_bytes` and `operator<<` read
existing source data only. -/
structure ReadsExist (m : Veh2CloudInh) : Prop where
  to_bytes : ∀ (past : Past) (null : Bool) (size : UInt64) (big_endian : Bool),
    ∀ a ∈ (m.to_bytes past null size big_endian).fetches, a.1 ≤ a.2
  print : ∀ past, (m.print past).InBounds

theorem versionFetch_iff (len : UInt8) (s : List UInt8) :
    (∀ a ∈ versionFetch len s, a.1 ≤ a.2) ↔ versionLength len ≤ s.length + 1 := by
  unfold versionFetch versionLength
  split
  next => exact List.forall_mem_singleton
  next => simp

theorem userFetch_iff (len : UInt8) (s : List UInt8) :
    (∀ a ∈ userFetch len s, a.1 ≤ a.2) ↔ len.toNat ≤ s.length + 1 := by
  unfold userFetch
  split
  next => exact List.forall_mem_singleton
  next hl =>
    have hz : len = 0 := by simpa using hl
    simp [hz]

theorem versionLength_le (len : UInt8) : versionLength len ≤ len.toNat := by
  unfold versionLength
  split
  next => exact Nat.le_refl _
  next => exact Nat.zero_le _

theorem readsExist_iff (m : Veh2CloudInh) : m.ReadsExist ↔
    (versionLength m.sw_ver_len ≤ m.sw_ver.length + 1 ∧
      versionLength m.hw_ver_len ≤ m.sw_ver.length + 1 ∧
      versionLength m.ad_ver_len ≤ m.sw_ver.length + 1 ∧
      m.user_data_len.toNat ≤ m.user_data.length + 1) ∧
    versionLength m.hw_ver_len ≤ m.hw_ver.length + 1 ∧
    versionLength m.ad_ver_len ≤ m.ad_ver.length + 1 := by
  have hbytes := MessageHeader.toBytesWith_fetches_iff (h := m.toMessageHeader) m.emits_store
    ⟨fun _ => 0, fun _ => 0⟩
  have hsome : Nonempty Behind := ⟨⟨fun _ => 0, fun _ => 0, fun _ => 0, fun _ => 0⟩⟩
  have hprint : (∀ past, (m.print past).InBounds) ↔
      versionLength m.sw_ver_len ≤ m.sw_ver.length + 1 ∧
      versionLength m.hw_ver_len ≤ m.hw_ver.length + 1 ∧
      versionLength m.ad_ver_len ≤ m.ad_ver.length + 1 ∧
      versionLength m.user_data_len ≤ m.user_data.length + 1 := by
    simp only [Veh2CloudInh.print, MessageHeader.printWith_inBounds_iff,
      forall_blocks_iff ofNumbers_inBounds (arrayBlock_inBounds _ _), stringBlock_inBounds_iff]
    exact forall_const Behind
  have hcalls : m.ReadsExist ↔ (∀ past null size, ∀ a ∈
      (m.toMessageHeader.toBytesWith (m.store past) null size).fetches, a.1 ≤ a.2) ∧
      ∀ past, (m.print past).InBounds :=
    ⟨fun h => ⟨fun past null size => h.to_bytes past null size true, h.print⟩,
      fun h => ⟨fun past null size _ => h.1 past null size, h.2⟩⟩
  have huser := versionLength_le m.user_data_len
  simp only [fetched, List.forall_mem_append, versionFetch_iff, userFetch_iff] at hbytes
  rw [hcalls, hbytes, hprint]
  constructor
  · rintro ⟨hstored, _, hhw, had, _⟩
    exact ⟨hstored, hhw, had⟩
  · rintro ⟨hstored, hhw, had⟩
    exact ⟨hstored, hstored.1, hhw, had, Nat.le_trans huser hstored.2.2.2⟩

/-- The length bytes that the object's memory held announce no more than the NUL of an empty
string. -/
def Blank (raw : Veh2CloudInh) : Prop :=
  versionLength raw.sw_ver_len ≤ 1 ∧ versionLength raw.hw_ver_len ≤ 1 ∧
    versionLength raw.ad_ver_len ≤ 1 ∧ raw.user_data_len.toNat ≤ 1

theorem rejected_readsExist_iff (raw : Veh2CloudInh) (h : MessageHeader) :
    (raw.rejected h).ReadsExist ↔ raw.Blank := by
  rw [readsExist_iff]
  constructor
  · rintro ⟨hstored, _⟩
    exact hstored
  · intro hb
    exact ⟨hb, hb.2.1, hb.2.2.1⟩

theorem consistent_readsExist_iff {m : Veh2CloudInh} (hc : m.Consistent) :
    m.ReadsExist ↔ versionLength m.hw_ver_len ≤ versionLength m.sw_ver_len + 1 ∧
      versionLength m.ad_ver_len ≤ versionLength m.sw_ver_len + 1 := by
  rw [readsExist_iff, hc.sw_ver, hc.hw_ver, hc.ad_ver, hc.user_data]
  omega

theorem ofArgs_readsExist_iff (a : Args) :
    (ofArgs a).ReadsExist ↔ (counted a.hw_ver).length ≤ a.sw_ver.length + 1 ∧
      (counted a.ad_ver).length ≤ a.sw_ver.length + 1 := by
  have hle := counted_length_le_length
  have hsw := hle a.sw_ver
  have hhw := hle a.hw_ver
  have had := hle a.ad_ver
  have hud := hle a.user_data
  rw [readsExist_iff]
  simp only [ofArgs, versionLength_lengthByte, lengthByte_toNat]
  omega

end Veh2CloudInh

namespace MessageHeader

/-- The length check of a decoding constructor refuses the buffer. -/
def Refuses (big_endian : Bool) (mem : Mem) (size : UInt64) : Prop :=
  16 ≤ size.toNat ∧ size.toNat < 16 + (fields big_endian mem 0).value.data_len.toNat

section

variable {α : Type} {raw : MessageHeader} {size : UInt64} {big_endian : Bool}
  {rejected : MessageHeader → α} {body : MessageHeader → Reader α} {mem : Mem}

theorem decodeWith_of_refuses (h : Refuses big_endian mem size) :
    ∃ m, (raw.decodeWith false size big_endian rejected body mem 0).value = rejected m := by
  obtain ⟨m, hm⟩ := exists_header mem big_endian
  have hd := h.2
  rw [yields_fields m big_endian mem 0 hm] at hd
  exact ⟨m, by rw [decodeWith_of_invalid hm h.1 hd]⟩

/-- What is not refused is read as a body, from a buffer without a whole header too. -/
theorem decodeWith_of_not_refuses {P : MessageHeader → List UInt8 → α → Prop}
    (raw : MessageHeader) (rejected : MessageHeader → α) (hbody : ∀ m, (body m).Scans (P m))
    (h : ¬Refuses big_endian mem size) :
    ∃ m bs, Holds mem 16 bs ∧
      P m bs (raw.decodeWith false size big_endian rejected body mem 0).value := by
  rcases Nat.lt_or_ge size.toNat 16 with hs | hs
  · obtain ⟨bs, b, hb, hp, hr⟩ := hbody { raw with id := 0xF2 } mem 16
    refine ⟨{ raw with id := 0xF2 }, bs, hb, ?_⟩
    rw [decodeWith_of_short hs, hr]
    exact hp
  · obtain ⟨m, hm⟩ := exists_header mem big_endian
    obtain ⟨bs, b, hb, hp, hr⟩ := hbody m mem 16
    have hi : invalidSize size 16 m.data_len = false := by
      rw [← Bool.not_eq_true, invalidSize_header]
      intro hv
      exact h ⟨hv.1, by rw [yields_fields m big_endian mem 0 hm]; exact hv.2⟩
    refine ⟨m, bs, hb, ?_⟩
    simp only [decodeWith, Reader.bind_run, decode_of_le hs hm, Reader.seek_run,
      get_header_length, hi, Bool.false_eq_true, ↓reduceIte, hr]
    exact hp

theorem decodeWith_of_null (h : invalidSize size get_header_length raw.data_len = true) :
    ∃ m, (raw.decodeWith true size big_endian rejected body mem 0).value = rejected m :=
  ⟨{ raw with id := 0xF2 }, by simp [decodeWith, decode, h]⟩

end

end MessageHeader

namespace Veh2CloudInh

/-- The hardware and the ad version announced in a buffer are no longer than the software version
and its NUL. -/
def Enough (mem : Mem) : Prop :=
  let hw := 25 + versionLength (mem 24)
  let ad := hw + 1 + versionLength (mem hw)
  versionLength (mem hw) ≤ versionLength (mem 24) + 1 ∧
    versionLength (mem ad) ≤ versionLength (mem 24) + 1

theorem consistent_enough_iff {m : Veh2CloudInh} {mem : Mem} (hc : m.Consistent)
    (hm : Holds mem 16 m.layout) : m.ReadsExist ↔ Enough mem := by
  obtain ⟨hsw, hhw, had, _⟩ := inh_length_bytes hc hm
  rw [consistent_readsExist_iff hc]
  simp only [Enough, hsw, hhw, had]

theorem decode_of_refuses {size : UInt64} {big_endian : Bool} {mem : Mem} (raw : Veh2CloudInh)
    (h : MessageHeader.Refuses big_endian mem size) :
    ∃ m, (raw.decode false size big_endian mem 0).value = raw.rejected m :=
  MessageHeader.decodeWith_of_refuses h

theorem decode_of_not_refuses {size : UInt64} {big_endian : Bool} {mem : Mem} (raw : Veh2CloudInh)
    (h : ¬MessageHeader.Refuses big_endian mem size) :
    (raw.decode false size big_endian mem 0).value.Consistent ∧
      Holds mem 16 (raw.decode false size big_endian mem 0).value.layout := by
  obtain ⟨_, bs, hb, _, hc, hl⟩ := MessageHeader.decodeWith_of_not_refuses raw.toMessageHeader
    raw.rejected scans_body h
  have hm : Holds mem 16 (raw.decode false size big_endian mem 0).value.layout := hl ▸ hb
  exact ⟨hc, hm⟩

theorem decode_of_null {raw : Veh2CloudInh} {size : UInt64} (big_endian : Bool) (mem : Mem)
    (h : invalidSize size MessageHeader.get_header_length raw.data_len = true) :
    ∃ m, (raw.decode true size big_endian mem 0).value = raw.rejected m :=
  MessageHeader.decodeWith_of_null h

theorem decode_readsExist_iff (raw : Veh2CloudInh) (size : UInt64) (big_endian : Bool) (mem : Mem) :
    (raw.decode false size big_endian mem 0).value.ReadsExist ↔
      (MessageHeader.Refuses big_endian mem size → raw.Blank) ∧
        (¬MessageHeader.Refuses big_endian mem size → Enough mem) := by
  by_cases h : MessageHeader.Refuses big_endian mem size
  · obtain ⟨m, hr⟩ := decode_of_refuses raw h
    rw [hr, rejected_readsExist_iff]
    exact ⟨fun hb => ⟨fun _ => hb, fun hn => absurd h hn⟩, fun hb => hb.1 h⟩
  · obtain ⟨hc, hm⟩ := decode_of_not_refuses raw h
    rw [consistent_enough_iff hc hm]
    exact ⟨fun he => ⟨fun hn => absurd hn h, fun _ => he⟩, fun he => he.2 h⟩

theorem null_readsExist_iff {raw : Veh2CloudInh} {size : UInt64} (big_endian : Bool) (mem : Mem)
    (h : invalidSize size MessageHeader.get_header_length raw.data_len = true) :
    (raw.decode true size big_endian mem 0).value.ReadsExist ↔ raw.Blank := by
  obtain ⟨m, hr⟩ := decode_of_null big_endian mem h
  rw [hr, rejected_readsExist_iff]

abbrev Origin := VehicleCloud.Origin Args Veh2CloudInh toMessageHeader

def object : Origin → Veh2CloudInh
  | .fields a => ofArgs a
  | .buffer raw size big_endian mem => (raw.decode false size big_endian mem 0).value
  | .null raw size big_endian _ => (raw.decode true size big_endian (fun _ => 0) 0).value

/-- What an object is made of covers what will be read from it. -/
def Covers : Origin → Prop
  | .fields a => (counted a.hw_ver).length ≤ a.sw_ver.length + 1 ∧
      (counted a.ad_ver).length ≤ a.sw_ver.length + 1
  | .buffer raw size big_endian mem =>
      (MessageHeader.Refuses big_endian mem size → raw.Blank) ∧
        (¬MessageHeader.Refuses big_endian mem size → Enough mem)
  | .null raw _ _ _ => raw.Blank

theorem object_readsExist_iff (o : Origin) : (object o).ReadsExist ↔ Covers o := by
  cases o with
  | fields a => exact ofArgs_readsExist_iff a
  | buffer raw size big_endian mem => exact decode_readsExist_iff raw size big_endian mem
  | null raw size big_endian refused => exact null_readsExist_iff big_endian _ refused

end Veh2CloudInh

namespace Veh2CloudState

structure ReadsExist (m : Veh2CloudState) : Prop where
  to_bytes : ∀ (past : Nat → Position2D) (null : Bool) (size : UInt64) (big_endian : Bool),
    ∀ a ∈ (m.to_bytes past null size big_endian).fetches, a.1 ≤ a.2
  print : ∀ past, (m.print past).InBounds

theorem range_succ_le_iff (n k : Nat) : (∀ i ∈ List.range n, i + 1 ≤ k) ↔ n ≤ k := by
  simp only [List.mem_range, Nat.succ_le_iff]
  constructor
  · intro h
    rcases Nat.eq_zero_or_pos n with rfl | hpos
    · exact Nat.zero_le k
    · have hlast := h (n - 1) (by omega)
      omega
  · intro h i hi
    exact Nat.lt_of_lt_of_le hi h

theorem fetched_iff (m : Veh2CloudState) :
    (∀ a ∈ m.fetched, a.1 ≤ a.2) ↔ m.pass_pos_num.toNat ≤ m.pass_pos.length := by
  simp only [fetched, List.forall_mem_flatMap, List.forall_mem_cons, List.not_mem_nil,
    false_implies, implies_true, and_true, and_self]
  exact range_succ_le_iff _ _

theorem blocks_inBounds_iff (m : Veh2CloudState) (past : Nat → Position2D) :
    (∀ b ∈ m.blocks past, b.InBounds) ↔ m.pass_pos_num.toNat ≤ m.pass_pos.length := by
  have hfixed := forall_fixedBlocks (m := m) ofNumbers_inBounds (arrayBlock_inBounds _ _)
    (List.forall_mem_singleton.mpr (Nat.le_refl 8))
  rw [blocks, List.forall_mem_append, List.forall_mem_flatMap]
  simp only [passPosBlocks, Block.InBounds, List.forall_mem_cons, List.not_mem_nil,
    false_implies, implies_true, and_true, and_self, range_succ_le_iff]
  exact and_iff_right hfixed

/-- Both loops go up to the count. -/
theorem readsExist_iff (m : Veh2CloudState) :
    m.ReadsExist ↔ m.pass_pos_num.toNat ≤ m.pass_pos.length := by
  have hbytes := MessageHeader.toBytesWith_fetches_iff (h := m.toMessageHeader)
    (fun i : (Nat → Position2D) × Bool => m.emits_store i.1 i.2) (fun _ => default, true)
  rw [fetched_iff] at hbytes
  constructor
  · intro h
    exact hbytes.mp fun i null size => h.to_bytes i.1 null size i.2
  · intro h
    have hcalls := hbytes.mpr h
    refine ⟨fun past null size big_endian => hcalls (past, big_endian) null size, fun past => ?_⟩
    rw [Veh2CloudState.print, MessageHeader.printWith_inBounds_iff]
    exact (m.blocks_inBounds_iff past).mpr h

theorem ofArgs_readsExist (a : Args) : (ofArgs a).ReadsExist := by
  rw [readsExist_iff]
  simp only [ofArgs, UInt8.toNat_ofNat']
  exact Nat.mod_le _ _

theorem rejected_readsExist_iff (raw : Veh2CloudState) (h : MessageHeader) :
    (raw.rejected h).ReadsExist ↔ raw.pass_pos_num = 0 := by
  rw [readsExist_iff, ← UInt8.toNat_inj]
  exact Nat.le_zero

theorem decode_of_refuses {size : UInt64} {big_endian : Bool} {mem : Mem} (raw : Veh2CloudState)
    (h : MessageHeader.Refuses big_endian mem size) :
    ∃ m, (raw.decode false size big_endian mem 0).value = raw.rejected m :=
  MessageHeader.decodeWith_of_refuses h

theorem decode_of_not_refuses {size : UInt64} {big_endian : Bool} {mem : Mem}
    (raw : Veh2CloudState) (h : ¬MessageHeader.Refuses big_endian mem size) :
    (raw.decode false size big_endian mem 0).value.pass_pos.length =
      (raw.decode false size big_endian mem 0).value.pass_pos_num.toNat := by
  obtain ⟨_, _, _, _, hn, _⟩ := MessageHeader.decodeWith_of_not_refuses raw.toMessageHeader
    raw.rejected (scans_body · big_endian) h
  exact hn

theorem decode_readsExist_iff (raw : Veh2CloudState) (size : UInt64) (big_endian : Bool)
    (mem : Mem) : (raw.decode false size big_endian mem 0).value.ReadsExist ↔
      (MessageHeader.Refuses big_endian mem size → raw.pass_pos_num = 0) := by
  by_cases h : MessageHeader.Refuses big_endian mem size
  · obtain ⟨m, hr⟩ := decode_of_refuses raw h
    rw [hr, rejected_readsExist_iff]
    exact ⟨fun hz _ => hz, fun hz => hz h⟩
  · have hn := decode_of_not_refuses raw h
    rw [readsExist_iff]
    exact ⟨fun _ hr => absurd hr h, fun _ => Nat.le_of_eq hn.symm⟩

theorem null_readsExist_iff {raw : Veh2CloudState} {size : UInt64} (big_endian : Bool) (mem : Mem)
    (h : invalidSize size MessageHeader.get_header_length raw.data_len = true) :
    (raw.decode true size big_endian mem 0).value.ReadsExist ↔ raw.pass_pos_num = 0 := by
  obtain ⟨m, hr⟩ : ∃ m, (raw.decode true size big_endian mem 0).value = raw.rejected m :=
    MessageHeader.decodeWith_of_null h
  rw [hr, rejected_readsExist_iff]

abbrev Origin := VehicleCloud.Origin Args Veh2CloudState toMessageHeader

def object : Origin → Veh2CloudState
  | .fields a => ofArgs a
  | .buffer raw size big_endian mem => (raw.decode false size big_endian mem 0).value
  | .null raw size big_endian _ => (raw.decode true size big_endian (fun _ => 0) 0).value

/-- A refused buffer leaves the count as it was found, and no way-points. -/
def Covers : Origin → Prop
  | .fields _ => True
  | .buffer raw size big_endian mem =>
      MessageHeader.Refuses big_endian mem size → raw.pass_pos_num = 0
  | .null raw _ _ _ => raw.pass_pos_num = 0

theorem object_readsExist_iff (o : Origin) : (object o).ReadsExist ↔ Covers o := by
  cases o with
  | fields a => exact iff_of_true (ofArgs_readsExist a) trivial
  | buffer raw size big_endian mem => exact decode_readsExist_iff raw size big_endian mem
  | null raw size big_endian refused => exact null_readsExist_iff big_endian _ refused

end Veh2CloudState

/-- An object of either class is read within bounds exactly when what it was made of covers what
its counts announce. -/
theorem source_reads_exist_iff (inh : Veh2CloudInh.Origin) (state : Veh2CloudState.Origin) :
    ((Veh2CloudInh.object inh).ReadsExist ↔ Veh2CloudInh.Covers inh) ∧
    ((Veh2CloudState.object state).ReadsExist ↔ Veh2CloudState.Covers state) :=
  ⟨Veh2CloudInh.object_readsExist_iff inh, Veh2CloudState.object_readsExist_iff state⟩

/-- A hardware version of two bytes beside an empty software version. -/
theorem hardware_version_read_past_string :
    ¬(Veh2CloudInh.object (.fields { (default : Veh2CloudInh.Args) with hw_ver := [97, 98] })).ReadsExist := by
  intro h
  have hall := h.to_bytes ⟨fun _ => 0, fun _ => 0⟩ false 34 true
  revert hall
  decide

end VehicleCloud
