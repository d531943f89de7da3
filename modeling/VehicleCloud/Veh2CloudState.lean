import VehicleCloud.Cloud2VehInhRes

namespace VehicleCloud

open ByteStream

structure Position where
  longitude : UInt32
  latitude : UInt32
  elevation : UInt32
  deriving DecidableEq, Inhabited

structure Position2D where
  longitude : UInt32
  latitude : UInt32
  deriving DecidableEq, Inhabited

structure Veh2CloudState extends MessageHeader where
  vehicle_id : Vector UInt8 8
  message_id : Vector UInt8 8
  gnss_timestamp : UInt64
  gnss_velocity : UInt16
  position : Position
  heading : UInt32
  gear : UInt8
  steering_angle : UInt32
  velocity : UInt16
  acc_lon : UInt16
  acc_lat : UInt16
  acc_ver : UInt16
  yaw_rate : UInt16
  accel_pos : UInt16
  engine_speed : UInt16
  engine_torque : UInt32
  break_flag : UInt8
  break_pos : UInt16
  break_pressure : UInt16
  fuel_consume : UInt16
  drive_mode : UInt8
  dest_location : Position2D
  pass_pos_num : UInt8
  pass_pos : List Position2D
  deriving DecidableEq, Inhabited

namespace Veh2CloudState

structure Args where
  version : UInt8
  timestamp : UInt64
  ctrl : UInt8
  vehicle_id : List UInt8
  message_id : List UInt8
  gnss_timestamp : UInt64
  gnss_velocity : UInt16
  position : Position
  heading : UInt32
  gear : UInt8
  steering_angle : UInt32
  velocity : UInt16
  acc_lon : UInt16
  acc_lat : UInt16
  acc_ver : UInt16
  yaw_rate : UInt16
  accel_pos : UInt16
  engine_speed : UInt16
  engine_torque : UInt32
  break_flag : UInt8
  break_pos : UInt16
  break_pressure : UInt16
  fuel_consume : UInt16
  drive_mode : UInt8
  dest_location : Position2D
  pass_pos : List Position2D
  deriving Inhabited

/-- `sizeof(Veh2CloudState)` less the header and the vector object, packed. -/
def sizeofFixed : Nat :=
  8 + 8 + 8 + 2 + 12 + 4 + 1 + 4 + 2 + 2 + 2 + 2 + 2 + 2 + 2 + 4 + 1 + 2 + 2 + 2 + 1 + 8 + 1

/-- The field constructor: each way-point counts one byte in the data length. -/
def ofArgs (a : Args) : Veh2CloudState where
  data_len := UInt32.ofNat (sizeofFixed + a.pass_pos.length)
  data_type := VEH2CLOUD_STATE
  version := a.version
  timestamp := a.timestamp
  ctrl := a.ctrl
  vehicle_id := strncpy 8 a.vehicle_id
  message_id := memcpyArray 8 a.message_id
  gnss_timestamp := a.gnss_timestamp
  gnss_velocity := a.gnss_velocity
  position := a.position
  heading := a.heading
  gear := a.gear
  steering_angle := a.steering_angle
  velocity := a.velocity
  acc_lon := a.acc_lon
  acc_lat := a.acc_lat
  acc_ver := a.acc_ver
  yaw_rate := a.yaw_rate
  accel_pos := a.accel_pos
  engine_speed := a.engine_speed
  engine_torque := a.engine_torque
  break_flag := a.break_flag
  break_pos := a.break_pos
  break_pressure := a.break_pressure
  fuel_consume := a.fuel_consume
  drive_mode := a.drive_mode
  dest_location := a.dest_location
  pass_pos_num := UInt8.ofNat a.pass_pos.length
  pass_pos := a.pass_pos

/-- The message id's bytes are reversed on the wire in big-endian mode. -/
def reverseId (big_endian : Bool) (v : Vector UInt8 8) : Vector UInt8 8 :=
  if big_endian then ⟨v.toList.reverse.toArray, by simp⟩ else v

def passPos (big_endian : Bool) : Nat → Reader (List Position2D)
  | 0 => pure []
  | n + 1 => do
    let longitude ← Reader.word big_endian
    let latitude ← Reader.word big_endian
    let rest ← passPos big_endian n
    pure (⟨longitude, latitude⟩ :: rest)

def body (h : MessageHeader) (big_endian : Bool) : Reader Veh2CloudState := do
  let vehicle_id ← Reader.array 8
  let v ← Reader.array 8
  let message_id := reverseId big_endian v
  let gnss_timestamp ← Reader.word big_endian
  let gnss_velocity ← Reader.word big_endian
  let longitude ← Reader.word big_endian
  let latitude ← Reader.word big_endian
  let elevation ← Reader.word big_endian
  let heading ← Reader.word big_endian
  let gear ← Reader.byte
  let steering_angle ← Reader.word big_endian
  let velocity ← Reader.word big_endian
  let acc_lon ← Reader.word big_endian
  let acc_lat ← Reader.word big_endian
  let acc_ver ← Reader.word big_endian
  let yaw_rate ← Reader.word big_endian
  let accel_pos ← Reader.word big_endian
  let engine_speed ← Reader.word big_endian
  let engine_torque ← Reader.word big_endian
  let break_flag ← Reader.byte
  let break_pos ← Reader.word big_endian
  let break_pressure ← Reader.word big_endian
  let fuel_consume ← Reader.word big_endian
  let drive_mode ← Reader.byte
  let dest_longitude ← Reader.word big_endian
  let dest_latitude ← Reader.word big_endian
  let pass_pos_num ← Reader.byte
  let pass_pos ← passPos big_endian pass_pos_num.toNat
  pure { toMessageHeader := h, vehicle_id, message_id, gnss_timestamp, gnss_velocity,
         position := ⟨longitude, latitude, elevation⟩, heading, gear, steering_angle, velocity,
         acc_lon, acc_lat, acc_ver, yaw_rate, accel_pos, engine_speed, engine_torque, break_flag,
         break_pos, break_pressure, fuel_consume, drive_mode,
         dest_location := ⟨dest_longitude, dest_latitude⟩, pass_pos_num, pass_pos }

/-- The object of a failed length check. -/
def rejected (raw : Veh2CloudState) (h : MessageHeader) : Veh2CloudState :=
  { raw with toMessageHeader := h, vehicle_id := zeros 8, message_id := zeros 8, pass_pos := [] }

def decode (raw : Veh2CloudState) (null : Bool) (size : UInt64) (big_endian : Bool) :
    Reader Veh2CloudState :=
  raw.toMessageHeader.decodeWith null size big_endian raw.rejected (body · big_endian)

/-- One round of the way-point loop; `past` is what stands behind the vector's last element. -/
def storePassPos (m : Veh2CloudState) (past : Nat → Position2D) (big_endian : Bool) (i : Nat) :
    Writer Unit := do
  Writer.fetch (i + 1) m.pass_pos.length
  Writer.word big_endian (m.pass_pos.getD i (past i)).longitude
  Writer.fetch (i + 1) m.pass_pos.length
  Writer.word big_endian (m.pass_pos.getD i (past i)).latitude

def store (m : Veh2CloudState) (past : Nat → Position2D) (big_endian : Bool) : Writer Unit := do
  Writer.bytes m.vehicle_id.toList
  Writer.bytes (reverseId big_endian m.message_id).toList
  Writer.word big_endian m.gnss_timestamp
  Writer.word big_endian m.gnss_velocity
  Writer.word big_endian m.position.longitude
  Writer.word big_endian m.position.latitude
  Writer.word big_endian m.position.elevation
  Writer.word big_endian m.heading
  Writer.byte m.gear
  Writer.word big_endian m.steering_angle
  Writer.word big_endian m.velocity
  Writer.word big_endian m.acc_lon
  Writer.word big_endian m.acc_lat
  Writer.word big_endian m.acc_ver
  Writer.word big_endian m.yaw_rate
  Writer.word big_endian m.accel_pos
  Writer.word big_endian m.engine_speed
  Writer.word big_endian m.engine_torque
  Writer.byte m.break_flag
  Writer.word big_endian m.break_pos
  Writer.word big_endian m.break_pressure
  Writer.word big_endian m.fuel_consume
  Writer.byte m.drive_mode
  Writer.word big_endian m.dest_location.longitude
  Writer.word big_endian m.dest_location.latitude
  Writer.byte m.pass_pos_num
  (List.range m.pass_pos_num.toNat).forM (m.storePassPos past big_endian)

/-- The header goes out in the base class's default byte order, the body in the caller's. -/
def to_bytes (m : Veh2CloudState) (past : Nat → Position2D) (null : Bool) (size : UInt64)
    (big_endian : Bool) : Sink :=
  m.toMessageHeader.toBytesWith (m.store past big_endian) null size

end Veh2CloudState

end VehicleCloud
