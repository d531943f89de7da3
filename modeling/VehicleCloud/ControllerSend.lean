import VehicleCloud.AllOrNothing
import VehicleCloud.ControllerStop
import VehicleCloud.WireFormat

namespace VehicleCloud

open ByteStream

/-- An argument of `Controller::send`, and what memory holds where its packing may read or build:
past the strings, behind the way-points, on the stack. -/
structure Outgoing where
  message : Call
  past : Veh2CloudInh.Past
  points : Nat → Position2D
  stack : Mem

namespace Outgoing

/-- `Packer::pack` at the type of the argument. -/
def packed (o : Outgoing) : Packed :=
  match o.message with
  | .header m => Packer.packHeader m o.stack
  | .inh m => Packer.packInh m o.past o.stack
  | .res m => Packer.packRes m o.stack
  | .state m => Packer.packState m o.points o.stack

def pack (o : Outgoing) : MessageBuffer := o.packed.buffer

/-- What `to_bytes` does after the header. -/
def body (o : Outgoing) : Writer Unit :=
  match o.message with
  | .header _ => pure ()
  | .inh m => m.store o.past
  | .res m => m.store
  | .state m => m.store o.points true

/-- The bytes that it stores there. -/
def stored (o : Outgoing) : List UInt8 :=
  match o.message with
  | .header _ => []
  | .inh m => (m.storedFields o.past).flatten
  | .res m => m.layout
  | .state m => { m with pass_pos := m.indexed o.points }.layout true

theorem emits_body (o : Outgoing) : ∃ fs, o.body.Emits o.stored fs := by
  unfold body stored
  cases o.message with
  | header m => exact ⟨[], Writer.emits_pure⟩
  | inh m => exact ⟨m.fetched, m.emits_store o.past⟩
  | res m => exact ⟨[], m.emits_store⟩
  | state m => exact ⟨m.fetched, m.emits_store o.points true⟩

theorem packed_eq_packWith (o : Outgoing) :
    o.packed = Packer.packWith o.message.head.data_len
      (o.message.head.toBytesWith o.body false ·) o.stack := by
  unfold packed body
  cases o.message with
  | header m => simp only [Call.head, MessageHeader.toBytesWith_pure, Packer.packHeader]
  | inh m => rfl
  | res m => rfl
  | state m => rfl

theorem packed_of_room {o : Outgoing} (h : 16 + o.message.head.data_len.toNat < 2 ^ 32) :
    ∃ fs, o.packed = ⟨UInt64.ofNat (16 + o.message.head.data_len.toNat),
      ⟨16 + o.stored.length, (o.message.head.layout true ++ o.stored).zipIdx, fs⟩,
      ⟨UInt32.ofNat (16 + o.stored.length), o.message.head.layout true ++ o.stored⟩⟩ := by
  obtain ⟨fs, hb⟩ := o.emits_body
  exact ⟨fs, by rw [packed_eq_packWith, Packer.packWith_of_emits hb h]⟩

theorem pack_of_room {o : Outgoing} (h : 16 + o.message.head.data_len.toNat < 2 ^ 32) :
    o.pack = ⟨UInt32.ofNat (16 + o.stored.length), o.message.head.layout true ++ o.stored⟩ := by
  obtain ⟨fs, hp⟩ := packed_of_room h
  rw [pack, hp]

/-- A frame length that wraps in 32 bits leaves no room for the header. -/
theorem packed_of_wrap {o : Outgoing} (h : 2 ^ 32 ≤ 16 + o.message.head.data_len.toNat) :
    o.packed.sink = ⟨0, [], []⟩ ∧ o.packed.buffer = ⟨0, []⟩ := by
  obtain ⟨fs, hb⟩ := o.emits_body
  have hd := o.message.head.data_len.toNat_lt
  let room := (UInt32.ofNat MessageHeader.get_header_length + o.message.head.data_len).toUInt64
  have hroom : room.toNat = 16 + o.message.head.data_len.toNat - 2 ^ 32 := by
    simp only [room, MessageHeader.get_header_length, UInt32.toNat_toUInt64, UInt32.toNat_add,
      UInt32.toNat_ofNat']
    omega
  have hsink : o.message.head.toBytesWith o.body false room = _ :=
    MessageHeader.toBytesWith_of_failed hb (Or.inr (by omega))
  rw [if_pos (by omega)] at hsink
  simp only [packed_eq_packWith, Packer.packWith]
  rw [hsink]
  exact ⟨rfl, rfl⟩

theorem pack_of_wrap {o : Outgoing} (h : 2 ^ 32 ≤ 16 + o.message.head.data_len.toNat) :
    o.pack = ⟨0, []⟩ := (packed_of_wrap h).2

end Outgoing

namespace Controller

/-- `Controller::send`: the queue that the buffer is put in. -/
def send (o : Outgoing) : Direction × Option MessageBuffer :=
  match o.message with
  | .header _ => (.down, some o.pack)
  | .inh _ => (.up, some o.pack)
  | .res _ => (.up, some o.pack)
  | .state _ => (.up, some o.pack)

end Controller

end VehicleCloud
