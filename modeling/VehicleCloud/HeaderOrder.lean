import VehicleCloud.MessageHeader

namespace VehicleCloud

open ByteStream

theorem bswap_ne_self {d : UInt32} (hpos : 0 < d.toNat) (hlt : d.toNat < 65536) : bswap d ≠ d := by
  intro h
  have hb : (nativeBytes d).reverse = nativeBytes d := by rw [← nativeBytes_bswap, h]
  have hbytes : nativeBytes d = [UInt8.ofNat d.toNat, UInt8.ofNat (d.toNat / 256),
    UInt8.ofNat (d.toNat / 256 / 256), UInt8.ofNat (d.toNat / 256 / 256 / 256)] := rfl
  rw [hbytes] at hb
  simp only [List.reverse_cons, List.reverse_nil, List.nil_append, List.cons_append,
    List.cons.injEq] at hb
  obtain ⟨h0, h1, _⟩ := hb
  -- the two upper bytes are zero, so the two lower ones are
  have hupper : d.toNat / 256 / 256 = 0 := by omega
  have e0 := congrArg UInt8.toNat h0
  have e1 := congrArg UInt8.toNat h1
  simp only [hupper, UInt8.toNat_ofNat', Nat.zero_div, Nat.zero_mod] at e0 e1
  omega

namespace MessageHeader

/-- The header that the other byte order makes of the same sixteen bytes. -/
def flipped (m : MessageHeader) : MessageHeader :=
  { m with data_len := bswap m.data_len, timestamp := bswap m.timestamp }

theorem flipped_layout (m : MessageHeader) : m.flipped.layout false = m.layout true := rfl

theorem to_bytes_of_le (m : MessageHeader) {size : UInt64} (hs : 16 ≤ size.toNat)
    (big_endian : Bool) :
    m.to_bytes false size big_endian = ⟨16, (m.layout big_endian).zipIdx, []⟩ := by
  have hge : ¬size < 16 := fun h => absurd (UInt64.lt_iff_toNat_lt.mp h) (by simpa using hs)
  have hr := emits_store m big_endian ⟨0, [], []⟩
  simp only [layout_length, Nat.zero_add, List.nil_append] at hr
  simp [to_bytes, hge, hr]

/-- Whether or not there is room for a body, the header goes out big-endian. -/
theorem toBytesWith_header (m : MessageHeader) {size : UInt64} {body : Writer Unit}
    {bs : List UInt8} {fs : List (Nat × Nat)} (hb : body.Emits bs fs) (hs : 16 ≤ size.toNat) :
    (m.toBytesWith body false size).writes.take 16 = (m.layout true).zipIdx := by
  have hl : (m.layout true).zipIdx.length = 16 := by simp
  simp only [toBytesWith, to_bytes_of_le m hs]
  split
  next => exact List.take_of_length_le (Nat.le_of_eq hl)
  next =>
    rw [hb]
    simp only [List.take_append, hl, Nat.sub_self, List.take_zero, List.append_nil]
    exact List.take_of_length_le (Nat.le_of_eq hl)

/-- A derived decoding constructor takes the header of its frame, accepted or not. -/
theorem decodeWith_header {α : Type} {raw m : MessageHeader} {size : UInt64} {big_endian : Bool}
    {rejected : MessageHeader → α} {body : MessageHeader → Reader α} {mem : Mem} {o : Nat}
    {head : α → MessageHeader} (hbody : ∀ h, (body h).Scans fun _ b => head b = h)
    (hrejected : ∀ h, head (rejected h) = h) (hm : Holds mem 0 (m.layout big_endian))
    (hs : 16 ≤ size.toNat) :
    head (raw.decodeWith false size big_endian rejected body mem o).value = m := by
  obtain ⟨bs, b, _, hh, hr⟩ := hbody m mem 16
  simp only [decodeWith, Reader.bind_run, decode_of_le hs hm, Reader.seek_run, get_header_length]
  split
  next => exact hrejected m
  next => rw [hr]; exact hh

structure SameFields (x y : MessageHeader) : Prop where
  data_len : x.data_len = y.data_len
  data_type : x.data_type = y.data_type
  version : x.version = y.version
  timestamp : x.timestamp = y.timestamp
  ctrl : x.ctrl = y.ctrl

end MessageHeader

/-- The object that a decoding constructor makes of what `to_bytes` left in `buf`. -/
def reread {α : Type} (decode : UInt64 → Reader α) (s : Sink) (buf : Mem) : α :=
  (decode (UInt64.ofNat s.offset) (buf.store s.writes) 0).value

/-- Encoder and decoder of a derived class treat the header as the base class does under the same
byte-order flag: the same sixteen bytes, a frame that passes the length check, the same fields. -/
structure CarriesHeader {α : Type} (h : MessageHeader) (head : α → MessageHeader)
    (to_bytes : UInt64 → Sink) (decode : α → UInt64 → Reader α) (big_endian : Bool) : Prop where
  header_bytes : ∀ size : UInt64, 16 ≤ size.toNat →
    (to_bytes size).writes.take 16 = (h.to_bytes false size big_endian).writes
  accepted : ∀ (size : UInt64) (buf : Mem) (raw : α), 16 + h.data_len.toNat ≤ size.toNat →
    invalidSize (UInt64.ofNat (to_bytes size).offset) MessageHeader.get_header_length
      (head (reread (decode raw) (to_bytes size) buf)).data_len = false
  recovered : ∀ (size : UInt64) (buf : Mem) (raw : α), 16 + h.data_len.toNat ≤ size.toNat →
    (head (reread (decode raw) (to_bytes size) buf)).SameFields h

section

variable {α : Type} {h : MessageHeader} {head : α → MessageHeader}
  {rejected : α → MessageHeader → α} {body : MessageHeader → Reader α} {w : Writer Unit}
  {bs : List UInt8} {fs : List (Nat × Nat)}

/-- What comes back from a frame of a derived class: its own header, or the flipped one. -/
theorem reread_header (hw : w.Emits bs fs) (hd : h.data_len.toNat = bs.length)
    (hbody : ∀ h, (body h).Scans fun _ b => head b = h)
    (hrejected : ∀ raw h, head (rejected raw h) = h) {size : UInt64}
    (hs : 16 + h.data_len.toNat ≤ size.toNat) (buf : Mem) (raw : α) (big_endian : Bool) :
    head (reread (fun size => (head raw).decodeWith false size big_endian (rejected raw) body)
      (h.toBytesWith w false size) buf) = if big_endian then h else h.flipped := by
  have hsize := size.toNat_lt
  have hroom : 16 ≤ (UInt64.ofNat (16 + bs.length)).toNat := by
    rw [UInt64.toNat_ofNat']
    omega
  have hm := (holds_append.mp (holds_store buf (h.layout true ++ bs) 0)).1
  rw [reread, MessageHeader.toBytesWith_of_le hw hs]
  cases big_endian with
  | true => exact MessageHeader.decodeWith_header hbody (hrejected raw) hm hroom
  | false =>
    rw [← MessageHeader.flipped_layout] at hm
    exact MessageHeader.decodeWith_header hbody (hrejected raw) hm hroom

theorem carriesHeader_iff (hw : w.Emits bs fs) (hd : h.data_len.toNat = bs.length)
    (hpos : 0 < bs.length) (hlt : bs.length < 65536)
    (hbody : ∀ h, (body h).Scans fun _ b => head b = h)
    (hrejected : ∀ raw h, head (rejected raw h) = h) (big_endian : Bool) :
    CarriesHeader h head (h.toBytesWith w false)
      (fun raw size => (head raw).decodeWith false size big_endian (rejected raw) body) big_endian ↔
      big_endian = true := by
  constructor
  · intro hc
    by_contra hne
    have hfalse : big_endian = false := by simpa using hne
    subst hfalse
    have hroom : 16 + h.data_len.toNat ≤ (UInt64.ofNat (16 + bs.length)).toNat := by
      rw [UInt64.toNat_ofNat']
      omega
    obtain ⟨_, b, _⟩ := hbody h (fun _ => 0) 0
    have hr := (hc.recovered _ (fun _ => 0) b hroom).data_len
    rw [reread_header hw hd hbody hrejected hroom] at hr
    exact bswap_ne_self (by omega) (by omega) hr
  · intro htrue
    subst htrue
    constructor
    · intro size hs
      rw [MessageHeader.toBytesWith_header h hw hs, MessageHeader.to_bytes_of_le h hs]
    · intro size buf raw hs
      have hsize := size.toNat_lt
      rw [reread_header hw hd hbody hrejected hs, MessageHeader.toBytesWith_of_le hw hs,
        ← Bool.not_eq_true, MessageHeader.get_header_length, invalidSize_header]
      simp only [↓reduceIte, UInt64.toNat_ofNat']
      omega
    · intro size buf raw hs
      rw [reread_header hw hd hbody hrejected hs]
      exact ⟨rfl, rfl, rfl, rfl, rfl⟩

end

end VehicleCloud
