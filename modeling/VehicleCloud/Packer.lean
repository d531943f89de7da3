import VehicleCloud.Veh2CloudInh
import VehicleCloud.Veh2CloudState

namespace VehicleCloud

open ByteStream

/-- A call of one of the four `Handler::on_unpack` overloads. -/
inductive Call where
  | header (m : MessageHeader)
  | inh (m : Veh2CloudInh)
  | res (m : Cloud2VehInhRes)
  | state (m : Veh2CloudState)
  deriving DecidableEq

/-- What the memory of the message object under construction held before. -/
structure Raw where
  header : MessageHeader
  inh : Veh2CloudInh
  res : Cloud2VehInhRes
  state : Veh2CloudState
  deriving Inhabited

namespace Packer

def dispatch (raw : Raw) (size : UInt64) (data_type : UInt8) : Reader (List Call) :=
  if data_type = VEH2CLOUD_INH then do
    let msg ← Veh2CloudInh.decode raw.inh false size true
    pure [Call.inh msg]
  else if data_type = CLOUD2VEH_INH_RES then do
    let msg ← Cloud2VehInhRes.decode raw.res false size true
    pure [Call.res msg]
  else if data_type = VEH2CLOUD_STATE then do
    let msg ← Veh2CloudState.decode raw.state false size true
    pure [Call.state msg]
  else if data_type = HEARTBEAT ∨ data_type = HEARTBEAT_RES then do
    let msg ← MessageHeader.decode raw.header false size true
    pure [Call.header msg]
  else pure []

def unpack (raw : Raw) (null : Bool) (size : UInt64) : Reader (List Call) :=
  if null ∨ size = 0 then pure []
  else do
    let id ← Reader.peek 0
    if id ≠ 0xF2 then pure []
    else do
      let data_type ← Reader.peek 5
      dispatch raw size data_type

end Packer

structure MessageBuffer where
  size : UInt32
  data : List UInt8
  deriving DecidableEq

/-- A run of `Packer::pack`: the size of its stack buffer, what `to_bytes` did to it, and the
message buffer made of it. -/
structure Packed where
  room : UInt64
  sink : Sink
  buffer : MessageBuffer

namespace Packer

/-- The sum of the two lengths is taken in 32 bits. A store at or behind `room` is outside of the
stack buffer and has no meaning in the source; here it is kept, so that `buffer` is what is sent
only where `to_bytes` stays within its room. -/
def packWith (data_len : UInt32) (to_bytes : UInt64 → Sink) (stack : Mem) : Packed :=
  let room := (UInt32.ofNat MessageHeader.get_header_length + data_len).toUInt64
  let sink := to_bytes room
  { room := room
    sink := sink
    buffer := ⟨UInt32.ofNat sink.offset, slice (stack.store sink.writes) 0 sink.offset⟩ }

def packHeader (m : MessageHeader) (stack : Mem) : Packed :=
  packWith m.data_len (m.to_bytes false · true) stack

def packRes (m : Cloud2VehInhRes) (stack : Mem) : Packed :=
  packWith m.data_len (m.to_bytes false · true) stack

def packInh (m : Veh2CloudInh) (past : Veh2CloudInh.Past) (stack : Mem) : Packed :=
  packWith m.data_len (m.to_bytes past false · true) stack

def packState (m : Veh2CloudState) (past : Nat → Position2D) (stack : Mem) : Packed :=
  packWith m.data_len (m.to_bytes past false · true) stack

/-- Packing by a `to_bytes` that is given enough room. -/
theorem packWith_of_emits {h : MessageHeader} {body : Writer Unit} {bs : List UInt8}
    {fs : List (Nat × Nat)} (hb : body.Emits bs fs) (hd : 16 + h.data_len.toNat < 2 ^ 32)
    (stack : Mem) :
    packWith h.data_len (h.toBytesWith body false ·) stack =
      ⟨UInt64.ofNat (16 + h.data_len.toNat),
       ⟨16 + bs.length, (h.layout true ++ bs).zipIdx, fs⟩,
       ⟨UInt32.ofNat (16 + bs.length), h.layout true ++ bs⟩⟩ := by
  have hroom : (UInt32.ofNat MessageHeader.get_header_length + h.data_len).toUInt64 =
      UInt64.ofNat (16 + h.data_len.toNat) := by
    apply UInt64.toNat_inj.mp
    simp only [MessageHeader.get_header_length, UInt32.toNat_toUInt64, UInt32.toNat_add,
      UInt32.toNat_ofNat', UInt64.toNat_ofNat']
    omega
  have hsize : 16 + h.data_len.toNat ≤ (UInt64.ofNat (16 + h.data_len.toNat)).toNat := by
    rw [UInt64.toNat_ofNat']
    omega
  have hhold := holds_store stack (h.layout true ++ bs) 0
  simp only [Holds, List.length_append, MessageHeader.layout_length] at hhold
  simp only [packWith, hroom, MessageHeader.toBytesWith_of_le hb hsize, hhold]

end Packer

end VehicleCloud
