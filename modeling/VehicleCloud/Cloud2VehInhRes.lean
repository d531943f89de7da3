import VehicleCloud.CString
import VehicleCloud.MessageHeader

namespace VehicleCloud

open ByteStream

structure Cloud2VehInhRes extends MessageHeader where
  vehicle_id : Vector UInt8 8
  res : UInt8
  deriving DecidableEq, Inhabited

namespace Cloud2VehInhRes

structure Args where
  version : UInt8
  timestamp : UInt64
  ctrl : UInt8
  vehicle_id : List UInt8
  res : UInt8
  deriving Inhabited

/-- `sizeof(Cloud2VehInhRes) - sizeof(MessageHeader)`, packed. -/
def sizeofBody : Nat := 8 + 1

def ofArgs (a : Args) : Cloud2VehInhRes where
  data_len := UInt32.ofNat sizeofBody
  data_type := CLOUD2VEH_INH_RES
  version := a.version
  timestamp := a.timestamp
  ctrl := a.ctrl
  vehicle_id := strncpy 8 a.vehicle_id
  res := a.res

def body (h : MessageHeader) : Reader Cloud2VehInhRes := do
  let vehicle_id ← Reader.array 8
  let res ← Reader.byte
  pure { toMessageHeader := h, vehicle_id, res }

/-- The object of a failed length check. -/
def rejected (raw : Cloud2VehInhRes) (h : MessageHeader) : Cloud2VehInhRes :=
  { raw with toMessageHeader := h }

def decode (raw : Cloud2VehInhRes) (null : Bool) (size : UInt64) (big_endian : Bool) :
    Reader Cloud2VehInhRes :=
  raw.toMessageHeader.decodeWith null size big_endian raw.rejected body

def store (m : Cloud2VehInhRes) : Writer Unit := do
  Writer.bytes m.vehicle_id.toList
  Writer.byte m.res

/-- The base class is called with its default byte order. -/
def to_bytes (m : Cloud2VehInhRes) (null : Bool) (size : UInt64) (_big_endian : Bool) : Sink :=
  m.toMessageHeader.toBytesWith m.store null size

def layout (m : Cloud2VehInhRes) : List UInt8 := [m.vehicle_id.toList, [m.res]].flatten

@[simp] theorem layout_length (m : Cloud2VehInhRes) : m.layout.length = 9 := by
  simp [layout]

theorem yields_body (m : Cloud2VehInhRes) : (body m.toMessageHeader).Yields m.layout m := by
  unfold body layout
  apply Reader.yields_field (Reader.yields_array _)
  apply Reader.yields_field (Reader.yields_byte _)
  exact Reader.yields_pure _

theorem scans_body (h : MessageHeader) :
    (body h).Scans (fun bs m => m.toMessageHeader = h ∧ bs = m.layout) := by
  unfold body
  refine Reader.scans_bind (Reader.scans_array fun v => ?_)
  refine Reader.scans_bind (Reader.scans_byte fun r => ?_)
  exact Reader.scans_pure ⟨rfl, by simp [layout]⟩

theorem emits_store (m : Cloud2VehInhRes) : m.store.Emits m.layout [] := by
  unfold store layout
  apply Writer.emits_field (Writer.emits_bytes _)
  simpa using Writer.emits_byte m.res

end Cloud2VehInhRes

end VehicleCloud
