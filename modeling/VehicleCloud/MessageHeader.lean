import VehicleCloud.Writer

namespace VehicleCloud

open ByteStream

def VEH2CLOUD_INH : UInt8 := 0x34
def CLOUD2VEH_INH_RES : UInt8 := 0x35
def VEH2CLOUD_STATE : UInt8 := 0x15
def HEARTBEAT : UInt8 := 0x0C
def HEARTBEAT_RES : UInt8 := 0x0D

structure MessageHeader where
  id : UInt8 := 0xF2
  data_len : UInt32
  data_type : UInt8
  version : UInt8
  timestamp : UInt64
  ctrl : UInt8
  deriving DecidableEq, Inhabited

/-- The length check of the derived classes: `_size - offset < get_data_length()`,
a subtraction in `size_t`. -/
def invalidSize (size : UInt64) (offset : Nat) (data_len : UInt32) : Bool :=
  decide (size - UInt64.ofNat offset < data_len.toUInt64)

theorem invalidSize_header (size : UInt64) (d : UInt32) :
    invalidSize size 16 d = true ↔ 16 ≤ size.toNat ∧ size.toNat < 16 + d.toNat := by
  have hd := d.toNat_lt
  have hs := size.toNat_lt
  rw [invalidSize, decide_eq_true_iff, UInt64.lt_iff_toNat_lt, UInt64.toNat_sub]
  simp only [UInt64.toNat_ofNat', UInt32.toNat_toUInt64]
  omega

/-- A size below the header's never fails the check: the subtraction wraps. -/
theorem invalidSize_short {size : UInt64} (d : UInt32) (h : size.toNat < 16) :
    invalidSize size 16 d = false := by
  rw [← Bool.not_eq_true, invalidSize_header]
  omega

namespace MessageHeader

/-- `sizeof(MessageHeader)` under `#pragma pack(1)`. -/
def get_header_length : Nat := 16

/-- The field constructor. -/
def ofArgs (data_len : UInt32) (data_type version : UInt8) (timestamp : UInt64) (ctrl : UInt8) :
    MessageHeader := { data_len, data_type, version, timestamp, ctrl }

/-- The six reads of the decoding constructor, from offset 0. -/
def fields (big_endian : Bool) : Reader MessageHeader := do
  let id ← Reader.byte
  let data_len ← Reader.word big_endian
  let data_type ← Reader.byte
  let version ← Reader.byte
  let timestamp ← Reader.word big_endian
  let ctrl ← Reader.byte
  pure { id, data_len, data_type, version, timestamp, ctrl }

/-- The decoding constructor. A failed one keeps `raw`, what the object's memory held
before, in every field without a default. -/
def decode (raw : MessageHeader) (null : Bool) (size : UInt64) (big_endian : Bool) :
    Reader MessageHeader :=
  if null then pure { raw with id := 0xF2 }
  else if size < 16 then pure { raw with id := 0xF2 }
  else do
    Reader.seek 0
    fields big_endian

def store (m : MessageHeader) (big_endian : Bool) : Writer Unit := do
  Writer.byte m.id
  Writer.word big_endian m.data_len
  Writer.byte m.data_type
  Writer.byte m.version
  Writer.word big_endian m.timestamp
  Writer.byte m.ctrl

/-- The returned value is the sink's offset. -/
def to_bytes (m : MessageHeader) (null : Bool) (size : UInt64) (big_endian : Bool) : Sink :=
  if null then ⟨0, [], []⟩
  else if size < 16 then ⟨0, [], []⟩
  else (m.store big_endian ⟨0, [], []⟩).2

def layout (m : MessageHeader) (big_endian : Bool) : List UInt8 :=
  [[m.id], wordBytes big_endian m.data_len, [m.data_type], [m.version],
    wordBytes big_endian m.timestamp, [m.ctrl]].flatten

@[simp] theorem layout_length (m : MessageHeader) (big_endian : Bool) :
    (m.layout big_endian).length = 16 := by
  simp [layout]

theorem yields_fields (m : MessageHeader) (big_endian : Bool) :
    (fields big_endian).Yields (m.layout big_endian) m := by
  unfold fields layout
  apply Reader.yields_field (Reader.yields_byte _)
  apply Reader.yields_field (Reader.yields_word _ _)
  apply Reader.yields_field (Reader.yields_byte _)
  apply Reader.yields_field (Reader.yields_byte _)
  apply Reader.yields_field (Reader.yields_word _ _)
  apply Reader.yields_field (Reader.yields_byte _)
  exact Reader.yields_pure _

theorem emits_store (m : MessageHeader) (big_endian : Bool) :
    (m.store big_endian).Emits (m.layout big_endian) [] := by
  unfold store layout
  apply Writer.emits_field (Writer.emits_byte _)
  apply Writer.emits_field (Writer.emits_word _ _)
  apply Writer.emits_field (Writer.emits_byte _)
  apply Writer.emits_field (Writer.emits_byte _)
  apply Writer.emits_field (Writer.emits_word _ _)
  simpa using Writer.emits_byte m.ctrl

theorem scans_fields (big_endian : Bool) :
    (fields big_endian).Scans (fun bs m => bs = m.layout big_endian) := by
  unfold fields layout
  refine Reader.scans_bind (Reader.scans_byte fun _ => ?_)
  refine Reader.scans_bind (Reader.scans_word fun _ => ?_)
  refine Reader.scans_bind (Reader.scans_byte fun _ => ?_)
  refine Reader.scans_bind (Reader.scans_byte fun _ => ?_)
  refine Reader.scans_bind (Reader.scans_word fun _ => ?_)
  refine Reader.scans_bind (Reader.scans_byte fun _ => ?_)
  exact Reader.scans_pure rfl

/-- Any sixteen bytes are some header. -/
theorem exists_header (mem : Mem) (big_endian : Bool) :
    ∃ m : MessageHeader, Holds mem 0 (m.layout big_endian) := by
  obtain ⟨_, m, hb, rfl, _⟩ := scans_fields big_endian mem 0
  exact ⟨m, hb⟩

theorem decode_of_short {size : UInt64} (hs : size.toNat < 16) (raw : MessageHeader)
    (big_endian : Bool) (mem : Mem) (o : Nat) :
    raw.decode false size big_endian mem o = ⟨{ raw with id := 0xF2 }, o, []⟩ := by
  have hlt : size < 16 := UInt64.lt_iff_toNat_lt.mpr hs
  simp [decode, hlt]

theorem decode_of_le {size : UInt64} (hs : 16 ≤ size.toNat) {m : MessageHeader} {mem : Mem}
    {big_endian : Bool} (hm : Holds mem 0 (m.layout big_endian)) (raw : MessageHeader) (o : Nat) :
    raw.decode false size big_endian mem o = ⟨m, 16, List.range' 0 16⟩ := by
  have hge : ¬size < 16 := fun h => absurd (UInt64.lt_iff_toNat_lt.mp h) (by simpa using hs)
  have hr := yields_fields m big_endian mem 0 hm
  simp only [layout_length, Nat.zero_add] at hr
  simp [decode, hge, hr]

/-- What the three derived decoding constructors share: the base constructor, the offset
reset to the header length, the length check, then the body. -/
def decodeWith {α : Type} (raw : MessageHeader) (null : Bool) (size : UInt64) (big_endian : Bool)
    (rejected : MessageHeader → α) (body : MessageHeader → Reader α) : Reader α := do
  let h ← raw.decode null size big_endian
  Reader.seek get_header_length
  if invalidSize size get_header_length h.data_len then pure (rejected h) else body h

section

variable {α : Type} {raw : MessageHeader} {size : UInt64} {big_endian : Bool}
  {rejected : MessageHeader → α} {body : MessageHeader → Reader α} {mem : Mem} {o : Nat}

/-- Below the header's size the base fails, the check passes, and the body is read all the same. -/
theorem decodeWith_of_short (hs : size.toNat < 16) :
    raw.decodeWith false size big_endian rejected body mem o = body { raw with id := 0xF2 } mem 16 := by
  simp [decodeWith, decode_of_short hs, get_header_length, invalidSize_short _ hs]

theorem decodeWith_of_invalid {m : MessageHeader} (hm : Holds mem 0 (m.layout big_endian))
    (hs : 16 ≤ size.toNat) (hd : size.toNat < 16 + m.data_len.toNat) :
    raw.decodeWith false size big_endian rejected body mem o =
      ⟨rejected m, 16, List.range' 0 16⟩ := by
  have hi := (invalidSize_header size m.data_len).mpr ⟨hs, hd⟩
  simp [decodeWith, decode_of_le hs hm, get_header_length, hi]

theorem decodeWith_of_yields {m : MessageHeader} {bs : List UInt8} {b : α}
    (hb : (body m).Yields bs b) (hm : Holds mem 0 (m.layout big_endian ++ bs))
    (hd : 16 + m.data_len.toNat ≤ size.toNat) :
    raw.decodeWith false size big_endian rejected body mem o =
      ⟨b, 16 + bs.length, List.range' 0 (16 + bs.length)⟩ := by
  obtain ⟨hh, hbs⟩ := holds_append.mp hm
  have hs : 16 ≤ size.toNat := by omega
  have hi : invalidSize size 16 m.data_len = false := by
    rw [← Bool.not_eq_true, invalidSize_header]
    omega
  have hr := hb mem 16 (by simpa using hbs)
  simp only [decodeWith, Reader.bind_run, decode_of_le hs hh, Reader.seek_run, get_header_length,
    hi, Bool.false_eq_true, ↓reduceIte, hr, List.nil_append, ← List.range'_append, Nat.one_mul,
    Nat.zero_add]

end

/-- What the three derived `to_bytes` share: the base class is called with its default byte
order, and its result serves as the offset of the body. -/
def toBytesWith (m : MessageHeader) (body : Writer Unit) (null : Bool) (size : UInt64) : Sink :=
  let s := m.to_bytes null size true
  if invalidSize size s.offset m.data_len then s else (body s).2

/-- The base class alone is a derived one with an empty body. -/
theorem toBytesWith_pure (m : MessageHeader) (null : Bool) (size : UInt64) :
    m.toBytesWith (pure ()) null size = m.to_bytes null size true := by
  simp only [toBytesWith, Writer.pure_run, ite_self]

theorem toBytesWith_of_le {m : MessageHeader} {size : UInt64} {body : Writer Unit}
    {bs : List UInt8} {fs : List (Nat × Nat)} (hb : body.Emits bs fs)
    (hd : 16 + m.data_len.toNat ≤ size.toNat) :
    m.toBytesWith body false size =
      ⟨16 + bs.length, (m.layout true ++ bs).zipIdx, fs⟩ := by
  have hge : ¬size < 16 := fun h => by
    have := UInt64.lt_iff_toNat_lt.mp h
    simp at this
    omega
  have hi : invalidSize size 16 m.data_len = false := by
    rw [← Bool.not_eq_true, invalidSize_header]
    omega
  have hh := emits_store m true ⟨0, [], []⟩
  simp only [layout_length, Nat.zero_add, List.nil_append] at hh
  simp [toBytesWith, to_bytes, hge, hh, hi, hb ⟨16, _, _⟩, List.zipIdx_append]

end MessageHeader

end VehicleCloud
