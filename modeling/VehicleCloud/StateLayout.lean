import VehicleCloud.Veh2CloudState

namespace VehicleCloud

open ByteStream

namespace Position2D

def layout (p : Position2D) (big_endian : Bool) : List UInt8 :=
  wordBytes big_endian p.longitude ++ wordBytes big_endian p.latitude

@[simp] theorem layout_length (p : Position2D) (big_endian : Bool) :
    (p.layout big_endian).length = 8 := by
  simp [layout]

end Position2D

namespace Veh2CloudState

/-- The wire format of the body, field by field. -/
def wireFields (m : Veh2CloudState) (big_endian : Bool) : List (List UInt8) :=
  [m.vehicle_id.toList,
    (reverseId big_endian m.message_id).toList,
    wordBytes big_endian m.gnss_timestamp,
    wordBytes big_endian m.gnss_velocity,
    wordBytes big_endian m.position.longitude,
    wordBytes big_endian m.position.latitude,
    wordBytes big_endian m.position.elevation,
    wordBytes big_endian m.heading,
    [m.gear],
    wordBytes big_endian m.steering_angle,
    wordBytes big_endian m.velocity,
    wordBytes big_endian m.acc_lon,
    wordBytes big_endian m.acc_lat,
    wordBytes big_endian m.acc_ver,
    wordBytes big_endian m.yaw_rate,
    wordBytes big_endian m.accel_pos,
    wordBytes big_endian m.engine_speed,
    wordBytes big_endian m.engine_torque,
    [m.break_flag],
    wordBytes big_endian m.break_pos,
    wordBytes big_endian m.break_pressure,
    wordBytes big_endian m.fuel_consume,
    [m.drive_mode],
    wordBytes big_endian m.dest_location.longitude,
    wordBytes big_endian m.dest_location.latitude,
    [m.pass_pos_num],
    m.pass_pos.flatMap (Position2D.layout · big_endian)]

def layout (m : Veh2CloudState) (big_endian : Bool) : List UInt8 := (m.wireFields big_endian).flatten

theorem wayPoints_length (ps : List Position2D) (big_endian : Bool) :
    (ps.flatMap (Position2D.layout · big_endian)).length = 8 * ps.length := by
  induction ps with
  | nil => rfl
  | cons p ps ih =>
    rw [List.flatMap_cons, List.length_append, ih, Position2D.layout_length, List.length_cons]
    omega

@[simp] theorem layout_length (m : Veh2CloudState) (big_endian : Bool) :
    (m.layout big_endian).length = 82 + 8 * m.pass_pos.length := by
  simp only [layout, wireFields, List.length_flatten, List.map_cons, List.map_nil,
    List.sum_cons, List.sum_nil, wordBytes_length, wayPoints_length, Vector.length_toList,
    List.length_singleton, width_uint16, width_uint32, width_uint64]
  omega

theorem yields_passPos (ps : List Position2D) (big_endian : Bool) :
    (passPos big_endian ps.length).Yields (ps.flatMap (Position2D.layout · big_endian)) ps := by
  induction ps with
  | nil => exact Reader.yields_pure _
  | cons p ps ih =>
    rw [List.flatMap_cons, Position2D.layout, List.append_assoc]
    apply Reader.yields_bind (Reader.yields_word _ _)
    apply Reader.yields_bind (Reader.yields_word _ _)
    exact Reader.yields_last ih (Reader.yields_pure _)

theorem scans_passPos (big_endian : Bool) (n : Nat) :
    (passPos big_endian n).Scans (fun bs ps => ps.length = n ∧
      bs = ps.flatMap (Position2D.layout · big_endian)) := by
  induction n with
  | zero => exact Reader.scans_pure ⟨rfl, rfl⟩
  | succ n ih =>
    refine Reader.scans_bind (Reader.scans_word fun lon => ?_)
    refine Reader.scans_bind (Reader.scans_word fun lat => ?_)
    refine Reader.scans_bind (ih.imp ?_)
    rintro bs ps ⟨hl, rfl⟩
    exact Reader.scans_pure ⟨by simp [hl], by simp [Position2D.layout]⟩

theorem reverseId_reverseId (big_endian : Bool) (v : Vector UInt8 8) :
    reverseId big_endian (reverseId big_endian v) = v := by
  cases big_endian with
  | false => rfl
  | true => simp [reverseId, Vector.toList]

theorem yields_body (m : Veh2CloudState) (big_endian : Bool)
    (hn : m.pass_pos.length = m.pass_pos_num.toNat) :
    (body m.toMessageHeader big_endian).Yields (m.layout big_endian) m := by
  unfold body layout wireFields
  apply Reader.yields_field (Reader.yields_array _)
  apply Reader.yields_field (Reader.yields_array _)
  iterate 6 apply Reader.yields_field (Reader.yields_word _ _)
  apply Reader.yields_field (Reader.yields_byte _)
  iterate 9 apply Reader.yields_field (Reader.yields_word _ _)
  apply Reader.yields_field (Reader.yields_byte _)
  iterate 3 apply Reader.yields_field (Reader.yields_word _ _)
  apply Reader.yields_field (Reader.yields_byte _)
  iterate 2 apply Reader.yields_field (Reader.yields_word _ _)
  apply Reader.yields_field (Reader.yields_byte _)
  rw [← hn, reverseId_reverseId, List.flatten_singleton]
  exact Reader.yields_last (yields_passPos _ _) (Reader.yields_pure _)

/-- Whatever follows the header reads as the body of some message whose count fits its list. -/
theorem scans_body (h : MessageHeader) (big_endian : Bool) :
    (body h big_endian).Scans (fun bs m => m.toMessageHeader = h ∧
      m.pass_pos.length = m.pass_pos_num.toNat ∧ bs = m.layout big_endian) := by
  unfold body layout wireFields
  refine Reader.scans_bind (Reader.scans_array fun _ => ?_)
  refine Reader.scans_bind (Reader.scans_array fun _ => ?_)
  iterate 6 refine Reader.scans_bind (Reader.scans_word fun _ => ?_)
  refine Reader.scans_bind (Reader.scans_byte fun _ => ?_)
  iterate 9 refine Reader.scans_bind (Reader.scans_word fun _ => ?_)
  refine Reader.scans_bind (Reader.scans_byte fun _ => ?_)
  iterate 3 refine Reader.scans_bind (Reader.scans_word fun _ => ?_)
  refine Reader.scans_bind (Reader.scans_byte fun _ => ?_)
  iterate 2 refine Reader.scans_bind (Reader.scans_word fun _ => ?_)
  refine Reader.scans_bind (Reader.scans_byte fun _ => ?_)
  refine Reader.scans_bind ((scans_passPos _ _).imp ?_)
  rintro bs ps ⟨hl, rfl⟩
  refine Reader.scans_pure ⟨rfl, hl, ?_⟩
  simp only [List.flatten_cons, List.flatten_nil, reverseId_reverseId]

theorem emits_storePassPos (m : Veh2CloudState) (past : Nat → Position2D) (big_endian : Bool)
    (i : Nat) :
    (m.storePassPos past big_endian i).Emits
      ((m.pass_pos.getD i (past i)).layout big_endian)
      [(i + 1, m.pass_pos.length), (i + 1, m.pass_pos.length)] := by
  unfold storePassPos
  apply Writer.emits_fetch
  apply Writer.emits_then (Writer.emits_word _ _)
  exact Writer.emits_fetch (Writer.emits_word _ _)

/-- The way-points as the encoding loop sees them: indexed up to the count. -/
def indexed (m : Veh2CloudState) (past : Nat → Position2D) : List Position2D :=
  (List.range m.pass_pos_num.toNat).map fun i => m.pass_pos.getD i (past i)

theorem indexed_eq {m : Veh2CloudState} (past : Nat → Position2D)
    (hn : m.pass_pos.length = m.pass_pos_num.toNat) : m.indexed past = m.pass_pos := by
  apply List.ext_getElem (by simp [indexed, hn])
  intro i _ hi
  simp [indexed, hi]

def fetched (m : Veh2CloudState) : List (Nat × Nat) :=
  (List.range m.pass_pos_num.toNat).flatMap fun i =>
    [(i + 1, m.pass_pos.length), (i + 1, m.pass_pos.length)]

theorem emits_store (m : Veh2CloudState) (past : Nat → Position2D) (big_endian : Bool) :
    (m.store past big_endian).Emits
      ({ m with pass_pos := m.indexed past }.layout big_endian) m.fetched := by
  unfold store layout wireFields
  iterate 2 apply Writer.emits_field (Writer.emits_bytes _)
  iterate 6 apply Writer.emits_field (Writer.emits_word _ _)
  apply Writer.emits_field (Writer.emits_byte _)
  iterate 9 apply Writer.emits_field (Writer.emits_word _ _)
  apply Writer.emits_field (Writer.emits_byte _)
  iterate 3 apply Writer.emits_field (Writer.emits_word _ _)
  apply Writer.emits_field (Writer.emits_byte _)
  iterate 2 apply Writer.emits_field (Writer.emits_word _ _)
  apply Writer.emits_field (Writer.emits_byte _)
  rw [List.flatten_singleton, indexed, List.flatMap_map]
  exact Writer.emits_forM (m.emits_storePassPos past big_endian) _

theorem emits_store_of_count {m : Veh2CloudState} (hn : m.pass_pos.length = m.pass_pos_num.toNat)
    (past : Nat → Position2D) (big_endian : Bool) :
    (m.store past big_endian).Emits (m.layout big_endian) m.fetched := by
  have h := m.emits_store past big_endian
  rwa [indexed_eq past hn] at h

end Veh2CloudState

end VehicleCloud
