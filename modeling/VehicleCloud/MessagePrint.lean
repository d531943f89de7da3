import VehicleCloud.HexDump
import VehicleCloud.Converter
import VehicleCloud.WireFormat

namespace VehicleCloud

open ByteStream Printf HexDump

/-- `len` bytes at `src`, where `avail` are, printed by way of `char str[256]`; `shown` is what
follows the brackets. -/
def bytesBlock (label : String) (src : Mem) (len avail : Nat) (shown : Text) : Block :=
  let w := bytes_to_string src len 256
  { size := len, hex := w.text, label := utf8 label, value := shown,
    stores := w.stores, fetches := [(len, avail)] }

/-- An array member; `std::string(id, 8).c_str()` is printed behind it. -/
def arrayBlock (label : String) (v : Vector UInt8 8) : Block :=
  bytesBlock label (Mem.ofBytes v.toList fun _ => 0) 8 8 (str v.toList)

/-- A string of which `len` bytes are on the wire; `%s` reads its `c_str()` up to a NUL. -/
def stringBlock (label : String) (len : UInt8) (s : List UInt8) (past : Mem) : List Block :=
  if len ≠ 0 ∧ len ≠ 0xFF then
    [{ bytesBlock label (cstr s past) len.toNat (s.length + 1) (str s) with
        fetches := [(len.toNat, s.length + 1), ((str s).length + 1, s.length + 1)] }]
  else []

namespace MessageHeader

def blocks (m : MessageHeader) : List Block :=
  [number 2 1 (utf8 "标识位") m.id.toNat,
    number 8 4 (utf8 "数据段长度") m.data_len.toNat,
    number 2 1 (utf8 "数据类别") m.data_type.toNat,
    number 2 1 (utf8 "版本号") m.version.toNat,
    number 16 8 (utf8 "时间戳") m.timestamp.toNat,
    number 2 1 (utf8 "控制内容") m.ctrl.toNat]

/-- `operator<<`, with `char ostr[256]`. -/
def print (m : MessageHeader) : Printer := Printer.empty.run 256 m.blocks

/-- What the three derived `operator<<` share: the header's, then an offset of their own. -/
def printWith (m : MessageHeader) (room : Nat) (bs : List Block) : Printer :=
  Printer.run room { m.print with offset := get_header_length } bs

end MessageHeader

namespace Cloud2VehInhRes

def blocks (m : Cloud2VehInhRes) : List Block :=
  [arrayBlock "车辆编号" m.vehicle_id,
    number 2 1 (utf8 "执行标志") m.res.toNat]

def print (m : Cloud2VehInhRes) : Printer := m.toMessageHeader.printWith 512 m.blocks

end Cloud2VehInhRes

namespace Veh2CloudInh

/-- What memory holds past the NUL of the four strings. -/
structure Behind where
  sw_ver : Mem
  hw_ver : Mem
  ad_ver : Mem
  user_data : Mem

def blocks (m : Veh2CloudInh) (past : Behind) : List Block :=
  [arrayBlock "车辆编号" m.vehicle_id,
    number 2 1 (utf8 "车载终端设备软件版本号长度") m.sw_ver_len.toNat] ++
  stringBlock "车辆软件版本" m.sw_ver_len m.sw_ver past.sw_ver ++
  [number 2 1 (utf8 "自动驾驶系统硬件版本号长度") m.hw_ver_len.toNat] ++
  stringBlock "自动驾驶系统硬件版本" m.hw_ver_len m.hw_ver past.hw_ver ++
  [number 2 1 (utf8 "自动驾驶系统软件版本号长度") m.ad_ver_len.toNat] ++
  stringBlock "自动驾驶系统软件版本号" m.ad_ver_len m.ad_ver past.ad_ver ++
  [number 2 1 (utf8 "无线通讯类型") m.com_type.toNat,
    number 2 1 (utf8 "定位精度") m.pos_confidence.toNat,
    number 2 1 (utf8 "时间同步方式") m.time_sync.toNat,
    number 2 1 (utf8 "坐标系类型") m.gnss_type.toNat,
    number 2 1 (utf8 "自定义字段长度") m.user_data_len.toNat] ++
  -- unlike `to_bytes`, which leaves out the user data for a length of 0 only
  stringBlock "自定义字段内容" m.user_data_len m.user_data past.user_data

def print (m : Veh2CloudInh) (past : Behind) : Printer :=
  m.toMessageHeader.printWith 512 (m.blocks past)

end Veh2CloudInh

namespace Veh2CloudState

/-- The text of the message id is reversed character by character. -/
def messageIdBlock (v : Vector UInt8 8) : Block :=
  let b := bytesBlock "消息编号" (Mem.ofBytes v.toList fun _ => 0) 8 8 []
  { b with hex := b.hex.reverse, value := str b.hex.reverse }

/-- One round of the way-point loop. -/
def passPosBlocks (m : Veh2CloudState) (past : Nat → Position2D) (i : Nat) : List Block :=
  let p := m.pass_pos.getD i (past i)
  [{ number 8 4 (utf8 "途经点" ++ decimal i ++ utf8 "-经度") p.longitude.toNat with
      fetches := [(i + 1, m.pass_pos.length)] },
    { number 8 4 (utf8 "途经点" ++ decimal i ++ utf8 "-纬度") p.latitude.toNat with
      fetches := [(i + 1, m.pass_pos.length)] }]

def fixedBlocks (m : Veh2CloudState) : List Block :=
  [arrayBlock "车辆编号" m.vehicle_id,
    messageIdBlock m.message_id,
    number 16 8 (utf8 "GNSS时间戳") m.gnss_timestamp.toNat,
    number 4 2 (utf8 "GNSS速度") m.gnss_velocity.toNat,
    number 8 4 (utf8 "位置-经度") m.position.longitude.toNat,
    number 8 4 (utf8 "位置-纬度") m.position.latitude.toNat,
    number 8 4 (utf8 "位置-高程") m.position.elevation.toNat,
    number 8 4 (utf8 "航向角") m.heading.toNat,
    number 2 1 (utf8 "档位") m.gear.toNat,
    number 2 4 (utf8 "方向盘转角") m.steering_angle.toNat,
    number 4 2 (utf8 "当前车速") m.velocity.toNat,
    number 4 2 (utf8 "纵向加速度") m.acc_lon.toNat,
    number 4 2 (utf8 "横向加速度") m.acc_lat.toNat,
    number 4 2 (utf8 "垂向加速度") m.acc_ver.toNat,
    number 4 2 (utf8 "横摆角速度") m.yaw_rate.toNat,
    number 4 2 (utf8 "油门开度") m.accel_pos.toNat,
    number 4 2 (utf8 "发动机输出转速") m.engine_speed.toNat,
    number 8 4 (utf8 "发动机扭矩") m.engine_torque.toNat,
    number 2 1 (utf8 "制动踏板开关") m.break_flag.toNat,
    number 4 2 (utf8 "制动踏板开度") m.break_pos.toNat,
    number 4 2 (utf8 "制动主缸压力") m.break_pressure.toNat,
    number 4 2 (utf8 "油耗") m.fuel_consume.toNat,
    number 2 1 (utf8 "车辆驾驶模式") m.drive_mode.toNat,
    number 8 4 (utf8 "目的地位置-经度") m.dest_location.longitude.toNat,
    number 8 4 (utf8 "目的地位置-纬度") m.dest_location.latitude.toNat,
    number 2 1 (utf8 "途经点数量") m.pass_pos_num.toNat]

def blocks (m : Veh2CloudState) (past : Nat → Position2D) : List Block :=
  m.fixedBlocks ++ (List.range m.pass_pos_num.toNat).flatMap (m.passPosBlocks past)

def print (m : Veh2CloudState) (past : Nat → Position2D) : Printer :=
  m.toMessageHeader.printWith 1024 (m.blocks past)

end Veh2CloudState

/-- What memory holds behind the strings and the way-points of a message. -/
structure Surroundings where
  strings : Veh2CloudInh.Behind
  points : Nat → Position2D

def Call.print (past : Surroundings) : Call → Printer
  | header m => m.print
  | inh m => m.print past.strings
  | res m => m.print
  | state m => m.print past.points

theorem bytesBlock_storesFit_iff (label : String) (src : Mem) (len avail : Nat) (shown : Text) :
    (bytesBlock label src len avail shown).StoresFit ↔ len ≤ 127 := by
  have h := bytes_to_string_fits_iff src len 256
  unfold Built.Fits at h
  rw [Block.StoresFit, bytesBlock, h]
  omega

theorem arrayBlock_storesFit (label : String) (v : Vector UInt8 8) :
    (arrayBlock label v).StoresFit :=
  (bytesBlock_storesFit_iff _ _ _ _ _).mpr (by decide)

theorem arrayBlock_inBounds (label : String) (v : Vector UInt8 8) :
    (arrayBlock label v).InBounds := List.forall_mem_singleton.mpr (Nat.le_refl 8)

theorem stringBlock_storesFit_iff (label : String) (len : UInt8) (s : List UInt8) (past : Mem) :
    (∀ b ∈ stringBlock label len s past, b.StoresFit) ↔ Veh2CloudInh.versionLength len ≤ 127 := by
  unfold stringBlock Veh2CloudInh.versionLength
  split
  next => rw [List.forall_mem_singleton]; exact bytesBlock_storesFit_iff label _ _ 0 []
  next => simp

theorem stringBlock_inBounds_iff (label : String) (len : UInt8) (s : List UInt8) (past : Mem) :
    (∀ b ∈ stringBlock label len s past, b.InBounds) ↔
      Veh2CloudInh.versionLength len ≤ s.length + 1 := by
  have hstr := str_length_le s
  unfold stringBlock Veh2CloudInh.versionLength
  split
  next =>
    rw [List.forall_mem_singleton, Block.InBounds, List.forall_mem_cons, List.forall_mem_singleton]
    constructor
    · intro h
      exact h.1
    · intro h
      exact ⟨h, Nat.succ_le_succ hstr⟩
  next => simp

/-- `P` holds of every number of at most 64 bits with a short label. -/
def OfNumbers (P : Block → Prop) : Prop :=
  ∀ d n l v, d ≤ 16 → l.length ≤ 64 → v < 2 ^ 64 → P (number d n l v)

namespace OfNumbers

variable {P : Block → Prop} {d n : Nat} {l : Text}

theorem uint8 (h : OfNumbers P) (a : UInt8) (hd : d ≤ 16) (hl : l.length ≤ 64) :
    P (number d n l a.toNat) := h d n l _ hd hl (Nat.lt_trans a.toNat_lt (by decide))

theorem uint16 (h : OfNumbers P) (a : UInt16) (hd : d ≤ 16) (hl : l.length ≤ 64) :
    P (number d n l a.toNat) := h d n l _ hd hl (Nat.lt_trans a.toNat_lt (by decide))

theorem uint32 (h : OfNumbers P) (a : UInt32) (hd : d ≤ 16) (hl : l.length ≤ 64) :
    P (number d n l a.toNat) := h d n l _ hd hl (Nat.lt_trans a.toNat_lt (by decide))

theorem uint64 (h : OfNumbers P) (a : UInt64) (hd : d ≤ 16) (hl : l.length ≤ 64) :
    P (number d n l a.toNat) := h d n l _ hd hl a.toNat_lt

end OfNumbers

theorem MessageHeader.forall_blocks {P : Block → Prop} {m : MessageHeader}
    (hnumber : OfNumbers P) : ∀ b ∈ m.blocks, P b := by
  simp only [blocks, List.forall_mem_cons, List.not_mem_nil, false_implies, implies_true, and_true]
  exact ⟨hnumber.uint8 _ (by decide) (by decide), hnumber.uint32 _ (by decide) (by decide),
    hnumber.uint8 _ (by decide) (by decide), hnumber.uint8 _ (by decide) (by decide),
    hnumber.uint64 _ (by decide) (by decide), hnumber.uint8 _ (by decide) (by decide)⟩

theorem Cloud2VehInhRes.forall_blocks {P : Block → Prop} {m : Cloud2VehInhRes}
    (hnumber : OfNumbers P) (harray : P (arrayBlock "车辆编号" m.vehicle_id)) :
    ∀ b ∈ m.blocks, P b := by
  simp only [blocks, List.forall_mem_cons, List.not_mem_nil, false_implies, implies_true, and_true]
  exact ⟨harray, hnumber.uint8 _ (by decide) (by decide)⟩

/-- What holds of the numbers and of the vehicle id holds of all blocks when it does of the four
strings. -/
theorem Veh2CloudInh.forall_blocks_iff {P : Block → Prop} {m : Veh2CloudInh} {past : Behind}
    (hnumber : OfNumbers P) (harray : P (arrayBlock "车辆编号" m.vehicle_id)) :
    (∀ b ∈ m.blocks past, P b) ↔
      (∀ b ∈ stringBlock "车辆软件版本" m.sw_ver_len m.sw_ver past.sw_ver, P b) ∧
      (∀ b ∈ stringBlock "自动驾驶系统硬件版本" m.hw_ver_len m.hw_ver past.hw_ver, P b) ∧
      (∀ b ∈ stringBlock "自动驾驶系统软件版本号" m.ad_ver_len m.ad_ver past.ad_ver, P b) ∧
      (∀ b ∈ stringBlock "自定义字段内容" m.user_data_len m.user_data past.user_data, P b) := by
  have h8 (l : Text) (a : UInt8) (hl : l.length ≤ 64) : P (number 2 1 l a.toNat) :=
    hnumber.uint8 a (by decide) hl
  simp (disch := decide) only [blocks, List.forall_mem_append, List.forall_mem_cons,
    List.not_mem_nil, false_implies, implies_true, and_true, true_and, and_assoc, harray, h8]

theorem Veh2CloudState.forall_fixedBlocks {P : Block → Prop} {m : Veh2CloudState}
    (hnumber : OfNumbers P) (harray : P (arrayBlock "车辆编号" m.vehicle_id))
    (hid : P (messageIdBlock m.message_id)) : ∀ b ∈ m.fixedBlocks, P b := by
  have h8 (l : Text) (a : UInt8) (hl : l.length ≤ 64) : P (number 2 1 l a.toNat) :=
    hnumber.uint8 a (by decide) hl
  have h16 (l : Text) (a : UInt16) (hl : l.length ≤ 64) : P (number 4 2 l a.toNat) :=
    hnumber.uint16 a (by decide) hl
  have h32 (l : Text) (a : UInt32) (hl : l.length ≤ 64) : P (number 8 4 l a.toNat) :=
    hnumber.uint32 a (by decide) hl
  have hsteering := hnumber.uint32 (d := 2) (n := 4) (l := utf8 "方向盘转角") m.steering_angle
    (by decide) (by decide)
  have htimestamp := hnumber.uint64 (d := 16) (n := 8) (l := utf8 "GNSS时间戳") m.gnss_timestamp
    (by decide) (by decide)
  simp (disch := decide) only [fixedBlocks, List.forall_mem_cons, List.not_mem_nil, false_implies,
    implies_true, and_true, harray, hid, htimestamp, hsteering, h8, h16, h32]

theorem ofNumbers_inBounds : OfNumbers Block.InBounds := fun d n l v _ _ _ =>
  number_inBounds d n l v

theorem ofNumbers_storesFit : OfNumbers Block.StoresFit := fun d n l v _ _ _ =>
  number_storesFit d n l v

end VehicleCloud
