import VehicleCloud.HeaderOrder
import VehicleCloud.InhLayout
import VehicleCloud.StateLayout

namespace VehicleCloud

open ByteStream

namespace Cloud2VehInhRes

def KeepsHeader (m : Cloud2VehInhRes) (big_endian : Bool) : Prop :=
  CarriesHeader m.toMessageHeader Cloud2VehInhRes.toMessageHeader
    (m.to_bytes false · big_endian) (decode · false · big_endian) big_endian

theorem keepsHeader_iff {m : Cloud2VehInhRes} (hd : m.data_len.toNat = 9) (big_endian : Bool) :
    m.KeepsHeader big_endian ↔ big_endian = true := by
  have hlen := m.layout_length
  exact carriesHeader_iff m.emits_store (by omega) (by omega) (by omega)
    (fun h => (scans_body h).imp fun _ _ hb => hb.1) (fun _ _ => rfl) big_endian

end Cloud2VehInhRes

namespace Veh2CloudInh

def KeepsHeader (m : Veh2CloudInh) (past : Past) (big_endian : Bool) : Prop :=
  CarriesHeader m.toMessageHeader Veh2CloudInh.toMessageHeader
    (m.to_bytes past false · big_endian) (decode · false · big_endian) big_endian

/-- The length of the body that the four length bytes announce. -/
def bodyLength (m : Veh2CloudInh) : Nat :=
  16 + versionLength m.sw_ver_len + versionLength m.hw_ver_len + versionLength m.ad_ver_len +
    m.user_data_len.toNat

theorem versionLength_lt (len : UInt8) : versionLength len < 256 := by
  have hlt := len.toNat_lt
  unfold versionLength
  split <;> omega

theorem keepsHeader_iff {m : Veh2CloudInh} (hd : m.data_len.toNat = m.bodyLength) (past : Past)
    (big_endian : Bool) : m.KeepsHeader past big_endian ↔ big_endian = true := by
  have hlen := m.storedFields_length past
  have h1 := versionLength_lt m.sw_ver_len
  have h2 := versionLength_lt m.hw_ver_len
  have h3 := versionLength_lt m.ad_ver_len
  have h4 := m.user_data_len.toNat_lt
  unfold bodyLength at hd
  exact carriesHeader_iff (m.emits_store past) (by omega) (by omega) (by omega)
    (fun h => (scans_body h).imp fun _ _ hb => hb.1) (fun _ _ => rfl) big_endian

end Veh2CloudInh

namespace Veh2CloudState

def KeepsHeader (m : Veh2CloudState) (past : Nat → Position2D) (big_endian : Bool) : Prop :=
  CarriesHeader m.toMessageHeader Veh2CloudState.toMessageHeader
    (m.to_bytes past false · big_endian) (decode · false · big_endian) big_endian

def bodyLength (m : Veh2CloudState) : Nat := 82 + 8 * m.pass_pos_num.toNat

theorem indexed_layout_length (m : Veh2CloudState) (past : Nat → Position2D) (big_endian : Bool) :
    ({ m with pass_pos := m.indexed past }.layout big_endian).length = m.bodyLength := by
  rw [layout_length]
  simp [indexed, bodyLength]

theorem keepsHeader_iff {m : Veh2CloudState} (hd : m.data_len.toNat = m.bodyLength)
    (past : Nat → Position2D) (big_endian : Bool) :
    m.KeepsHeader past big_endian ↔ big_endian = true := by
  have hn := m.pass_pos_num.toNat_lt
  have hlen := m.indexed_layout_length past big_endian
  have hb : m.bodyLength = 82 + 8 * m.pass_pos_num.toNat := rfl
  exact carriesHeader_iff (m.emits_store past big_endian) (by omega) (by omega) (by omega)
    (fun h => (scans_body h big_endian).imp fun _ _ hs => hs.1) (fun _ _ => rfl) big_endian

end Veh2CloudState

/-- The three derived classes honour the byte-order flag in the header exactly when it is set. -/
theorem derived_classes_keep_header_iff (big_endian : Bool) :
    (∀ m : Cloud2VehInhRes, m.data_len.toNat = 9 → (m.KeepsHeader big_endian ↔ big_endian = true)) ∧
    (∀ (m : Veh2CloudInh) (past : Veh2CloudInh.Past),
      m.data_len.toNat = m.bodyLength → (m.KeepsHeader past big_endian ↔ big_endian = true)) ∧
    (∀ (m : Veh2CloudState) (past : Nat → Position2D),
      m.data_len.toNat = m.bodyLength → (m.KeepsHeader past big_endian ↔ big_endian = true)) :=
  ⟨fun _ hd => Cloud2VehInhRes.keepsHeader_iff hd big_endian,
    fun _ past hd => Veh2CloudInh.keepsHeader_iff hd past big_endian,
    fun _ past hd => Veh2CloudState.keepsHeader_iff hd past big_endian⟩

def response : Cloud2VehInhRes :=
  Cloud2VehInhRes.ofArgs ⟨1, 0x0102030405060708, 5, [0x56, 0x31], 1⟩

/-- A registration with three versions and user data. -/
def versioned : Veh2CloudInh :=
  Veh2CloudInh.ofArgs { (default : Veh2CloudInh.Args) with
    version := 2, timestamp := 0x1112131415161718, ctrl := 6, vehicle_id := [0x56, 0x32]
    sw_ver := [0x61, 0x31], hw_ver := [0x62, 0x32, 0x33], ad_ver := [0x63], user_data := [4, 5] }

/-- A state with a way-point, and the data length of its body. -/
def underway : Veh2CloudState :=
  { (default : Veh2CloudState) with
    id := 0xF2, data_len := 90, data_type := VEH2CLOUD_STATE, version := 3
    timestamp := 0x2122232425262728, ctrl := 7, gnss_velocity := 0x0102
    pass_pos_num := 1, pass_pos := [⟨0x01020304, 0x05060708⟩] }

theorem derived_classes_keep_header_filled :
    (response.KeepsHeader true ↔ true = true) ∧
    (versioned.KeepsHeader ⟨fun _ => 0, fun _ => 0⟩ true ↔ true = true) ∧
    (underway.KeepsHeader (fun _ => default) true ↔ true = true) :=
  ⟨(derived_classes_keep_header_iff true).1 response rfl,
    (derived_classes_keep_header_iff true).2.1 versioned _ (by decide),
    (derived_classes_keep_header_iff true).2.2 underway _ rfl⟩

/-- A nine-byte response in the native byte order: its length field goes out swapped. -/
theorem native_order_header_not_kept : ¬response.KeepsHeader false := by
  intro h
  have hb := h.header_bytes 25 (by decide)
  revert hb
  decide

end VehicleCloud
