import VehicleCloud.Cloud2VehInhRes

namespace VehicleCloud

open ByteStream

structure Veh2CloudInh extends MessageHeader where
  vehicle_id : Vector UInt8 8
  sw_ver_len : UInt8
  sw_ver : List UInt8
  hw_ver_len : UInt8
  hw_ver : List UInt8
  ad_ver_len : UInt8
  ad_ver : List UInt8
  com_type : UInt8
  pos_confidence : UInt8
  time_sync : UInt8
  gnss_type : UInt8
  user_data_len : UInt8
  user_data : List UInt8
  deriving DecidableEq, Inhabited

namespace Veh2CloudInh

structure Args where
  version : UInt8
  timestamp : UInt64
  ctrl : UInt8
  vehicle_id : List UInt8
  sw_ver : List UInt8
  hw_ver : List UInt8
  ad_ver : List UInt8
  com_type : UInt8
  pos_confidence : UInt8
  time_sync : UInt8
  gnss_type : UInt8
  user_data : List UInt8
  deriving Inhabited

/-- `_s.length() >= 0xFF ? 0 : _s.length()`, narrowed to a byte. -/
def lengthByte (s : List UInt8) : UInt8 := if s.length ≥ 0xFF then 0 else UInt8.ofNat s.length

/-- `sizeof(Veh2CloudInh)` less the header and the four string objects, packed. -/
def sizeofFixed : Nat := 8 + 1 + 1 + 1 + 4 + 1

def ofArgs (a : Args) : Veh2CloudInh where
  data_len := UInt32.ofNat sizeofFixed + (lengthByte a.sw_ver).toUInt32 +
    (lengthByte a.hw_ver).toUInt32 + (lengthByte a.ad_ver).toUInt32 +
    (lengthByte a.user_data).toUInt32
  data_type := VEH2CLOUD_INH
  version := a.version
  timestamp := a.timestamp
  ctrl := a.ctrl
  vehicle_id := strncpy 8 a.vehicle_id
  sw_ver_len := lengthByte a.sw_ver
  sw_ver := a.sw_ver
  hw_ver_len := lengthByte a.hw_ver
  hw_ver := a.hw_ver
  ad_ver_len := lengthByte a.ad_ver
  ad_ver := a.ad_ver
  com_type := a.com_type
  pos_confidence := a.pos_confidence
  time_sync := a.time_sync
  gnss_type := a.gnss_type
  user_data_len := lengthByte a.user_data
  user_data := a.user_data

/-- A version string is on the wire unless its length byte is 0 or 0xFF. -/
def versionString (len : UInt8) : Reader (List UInt8) :=
  if len ≠ 0 ∧ len ≠ 0xFF then Reader.bytes len.toNat else pure []

def userString (len : UInt8) : Reader (List UInt8) :=
  if len ≠ 0 then Reader.bytes len.toNat else pure []

def body (h : MessageHeader) : Reader Veh2CloudInh := do
  let vehicle_id ← Reader.array 8
  let sw_ver_len ← Reader.byte
  let sw_ver ← versionString sw_ver_len
  let hw_ver_len ← Reader.byte
  let hw_ver ← versionString hw_ver_len
  let ad_ver_len ← Reader.byte
  let ad_ver ← versionString ad_ver_len
  let com_type ← Reader.byte
  let pos_confidence ← Reader.byte
  let time_sync ← Reader.byte
  let gnss_type ← Reader.byte
  let user_data_len ← Reader.byte
  let user_data ← userString user_data_len
  pure { toMessageHeader := h, vehicle_id, sw_ver_len, sw_ver, hw_ver_len, hw_ver, ad_ver_len,
         ad_ver, com_type, pos_confidence, time_sync, gnss_type, user_data_len, user_data }

/-- The object of a failed length check. -/
def rejected (raw : Veh2CloudInh) (h : MessageHeader) : Veh2CloudInh :=
  { raw with toMessageHeader := h, vehicle_id := zeros 8,
               sw_ver := [], hw_ver := [], ad_ver := [], user_data := [] }

def decode (raw : Veh2CloudInh) (null : Bool) (size : UInt64) (big_endian : Bool) :
    Reader Veh2CloudInh :=
  raw.toMessageHeader.decodeWith null size big_endian raw.rejected body

/-- What memory holds past the NUL of the two strings that are copied from. -/
structure Past where
  sw_ver : Mem
  user_data : Mem

def storeVersion (len : UInt8) (s : List UInt8) (past : Mem) : Writer Unit :=
  if len ≠ 0 ∧ len ≠ 0xFF then Writer.copy len.toNat s past else pure ()

def storeUser (len : UInt8) (s : List UInt8) (past : Mem) : Writer Unit :=
  if len ≠ 0 then Writer.copy len.toNat s past else pure ()

def store (m : Veh2CloudInh) (past : Past) : Writer Unit := do
  Writer.bytes m.vehicle_id.toList
  Writer.byte m.sw_ver_len
  storeVersion m.sw_ver_len m.sw_ver past.sw_ver
  -- the hardware version's length byte is written from `sw_ver_len_`
  Writer.byte m.sw_ver_len
  -- and both remaining versions are copied from `sw_ver_`
  storeVersion m.hw_ver_len m.sw_ver past.sw_ver
  Writer.byte m.ad_ver_len
  storeVersion m.ad_ver_len m.sw_ver past.sw_ver
  Writer.byte m.com_type
  Writer.byte m.pos_confidence
  Writer.byte m.time_sync
  Writer.byte m.gnss_type
  Writer.byte m.user_data_len
  storeUser m.user_data_len m.user_data past.user_data

def to_bytes (m : Veh2CloudInh) (past : Past) (null : Bool) (size : UInt64) (_big_endian : Bool) :
    Sink :=
  m.toMessageHeader.toBytesWith (m.store past) null size

end Veh2CloudInh

end VehicleCloud
