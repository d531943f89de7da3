import VehicleCloud.Veh2CloudInh

namespace VehicleCloud

open ByteStream

namespace Veh2CloudInh

/-- The number of string bytes a version's length byte announces. -/
def versionLength (len : UInt8) : Nat := if len ≠ 0 ∧ len ≠ 0xFF then len.toNat else 0

/-- The wire format of the body, field by field. -/
def wireFields (m : Veh2CloudInh) : List (List UInt8) :=
  [m.vehicle_id.toList,
    [m.sw_ver_len], m.sw_ver,
    [m.hw_ver_len], m.hw_ver,
    [m.ad_ver_len], m.ad_ver,
    [m.com_type], [m.pos_confidence], [m.time_sync], [m.gnss_type],
    [m.user_data_len], m.user_data]

def layout (m : Veh2CloudInh) : List UInt8 := m.wireFields.flatten

/-- Each string is as long as its length byte announces. -/
structure Consistent (m : Veh2CloudInh) : Prop where
  sw_ver : m.sw_ver.length = versionLength m.sw_ver_len
  hw_ver : m.hw_ver.length = versionLength m.hw_ver_len
  ad_ver : m.ad_ver.length = versionLength m.ad_ver_len
  user_data : m.user_data.length = m.user_data_len.toNat

theorem layout_length (m : Veh2CloudInh) :
    m.layout.length = 16 + m.sw_ver.length + m.hw_ver.length + m.ad_ver.length +
      m.user_data.length := by
  simp only [layout, wireFields, List.length_flatten, List.map_cons, List.map_nil,
    List.sum_cons, List.sum_nil, Vector.length_toList, List.length_singleton]
  omega

theorem yields_versionString {len : UInt8} {s : List UInt8} (h : s.length = versionLength len) :
    (versionString len).Yields s s := by
  unfold versionString
  unfold versionLength at h
  split
  next hl =>
    rw [if_pos hl] at h
    rw [← h]
    exact Reader.yields_bytes s
  next hl =>
    rw [if_neg hl] at h
    rw [List.length_eq_zero_iff.mp h]
    exact Reader.yields_pure _

theorem scans_versionString {len : UInt8} {P : List UInt8 → List UInt8 → Prop}
    (h : ∀ s, s.length = versionLength len → P s s) : (versionString len).Scans P := by
  unfold versionString
  unfold versionLength at h
  split
  next hl => exact Reader.scans_bytes fun s hs => h s (by rw [if_pos hl, hs])
  next hl => exact Reader.scans_pure (h [] (by rw [if_neg hl]; rfl))

theorem yields_userString {len : UInt8} {s : List UInt8} (h : s.length = len.toNat) :
    (userString len).Yields s s := by
  unfold userString
  split
  next => rw [← h]; exact Reader.yields_bytes s
  next hl =>
    have hz : len = 0 := by simpa using hl
    rw [hz] at h
    rw [List.length_eq_zero_iff.mp h]
    exact Reader.yields_pure _

theorem scans_userString {len : UInt8} {P : List UInt8 → List UInt8 → Prop}
    (h : ∀ s, s.length = len.toNat → P s s) : (userString len).Scans P := by
  unfold userString
  split
  next => exact Reader.scans_bytes h
  next hl =>
    have hz : len = 0 := by simpa using hl
    exact Reader.scans_pure (h [] (by rw [hz]; rfl))

theorem yields_body {m : Veh2CloudInh} (hc : m.Consistent) :
    (body m.toMessageHeader).Yields m.layout m := by
  unfold body layout wireFields
  apply Reader.yields_field (Reader.yields_array _)
  apply Reader.yields_field (Reader.yields_byte _)
  apply Reader.yields_field (yields_versionString hc.sw_ver)
  apply Reader.yields_field (Reader.yields_byte _)
  apply Reader.yields_field (yields_versionString hc.hw_ver)
  apply Reader.yields_field (Reader.yields_byte _)
  apply Reader.yields_field (yields_versionString hc.ad_ver)
  iterate 5 apply Reader.yields_field (Reader.yields_byte _)
  apply Reader.yields_field (yields_userString hc.user_data)
  exact Reader.yields_pure _

/-- Whatever follows the header reads as the body of some consistent message. -/
theorem scans_body (h : MessageHeader) :
    (body h).Scans (fun bs m => m.toMessageHeader = h ∧ m.Consistent ∧ bs = m.layout) := by
  unfold body layout wireFields
  refine Reader.scans_bind (Reader.scans_array fun _ => ?_)
  refine Reader.scans_bind (Reader.scans_byte fun _ => ?_)
  refine Reader.scans_bind (scans_versionString fun _ hsw => ?_)
  refine Reader.scans_bind (Reader.scans_byte fun _ => ?_)
  refine Reader.scans_bind (scans_versionString fun _ hhw => ?_)
  refine Reader.scans_bind (Reader.scans_byte fun _ => ?_)
  refine Reader.scans_bind (scans_versionString fun _ had => ?_)
  iterate 5 refine Reader.scans_bind (Reader.scans_byte fun _ => ?_)
  refine Reader.scans_bind (scans_userString fun _ hud => ?_)
  exact Reader.scans_pure ⟨rfl, ⟨hsw, hhw, had, hud⟩, rfl⟩

/-- What `storeVersion` copies from the string it is given. -/
def copied (len : UInt8) (s : List UInt8) (past : Mem) : List UInt8 :=
  slice (cstr s past) 0 (versionLength len)

def versionFetch (len : UInt8) (s : List UInt8) : List (Nat × Nat) :=
  if len ≠ 0 ∧ len ≠ 0xFF then [(len.toNat, s.length + 1)] else []

def userFetch (len : UInt8) (s : List UInt8) : List (Nat × Nat) :=
  if len ≠ 0 then [(len.toNat, s.length + 1)] else []

theorem emits_storeVersion (len : UInt8) (s : List UInt8) (past : Mem) :
    (storeVersion len s past).Emits (copied len s past) (versionFetch len s) := by
  unfold storeVersion copied versionFetch versionLength
  split
  next => exact Writer.emits_copy _ _ _
  next => exact Writer.emits_pure

theorem emits_storeUser (len : UInt8) (s : List UInt8) (past : Mem) :
    (storeUser len s past).Emits (slice (cstr s past) 0 len.toNat) (userFetch len s) := by
  unfold storeUser userFetch
  split
  next => exact Writer.emits_copy _ _ _
  next hl =>
    have hz : len = 0 := by simpa using hl
    subst hz
    exact Writer.emits_pure

/-- The body fields `to_bytes` really stores. -/
def storedFields (m : Veh2CloudInh) (past : Past) : List (List UInt8) :=
  [m.vehicle_id.toList,
    [m.sw_ver_len], copied m.sw_ver_len m.sw_ver past.sw_ver,
    [m.sw_ver_len], copied m.hw_ver_len m.sw_ver past.sw_ver,
    [m.ad_ver_len], copied m.ad_ver_len m.sw_ver past.sw_ver,
    [m.com_type], [m.pos_confidence], [m.time_sync], [m.gnss_type],
    [m.user_data_len], slice (cstr m.user_data past.user_data) 0 m.user_data_len.toNat]

def fetched (m : Veh2CloudInh) : List (Nat × Nat) :=
  versionFetch m.sw_ver_len m.sw_ver ++ (versionFetch m.hw_ver_len m.sw_ver ++
    (versionFetch m.ad_ver_len m.sw_ver ++ userFetch m.user_data_len m.user_data))

theorem storedFields_length (m : Veh2CloudInh) (past : Past) :
    (m.storedFields past).flatten.length = 16 + versionLength m.sw_ver_len +
      versionLength m.hw_ver_len + versionLength m.ad_ver_len + m.user_data_len.toNat := by
  simp only [storedFields, copied, List.length_flatten, List.map_cons, List.map_nil,
    List.sum_cons, List.sum_nil, Vector.length_toList, List.length_singleton, slice_length]
  omega

theorem emits_store (m : Veh2CloudInh) (past : Past) :
    (m.store past).Emits (m.storedFields past).flatten m.fetched := by
  unfold store storedFields fetched
  apply Writer.emits_field (Writer.emits_bytes _)
  apply Writer.emits_field (Writer.emits_byte _)
  apply Writer.emits_bind (emits_storeVersion _ _ _)
  apply Writer.emits_field (Writer.emits_byte _)
  apply Writer.emits_bind (emits_storeVersion _ _ _)
  apply Writer.emits_field (Writer.emits_byte _)
  apply Writer.emits_bind (emits_storeVersion _ _ _)
  iterate 5 apply Writer.emits_field (Writer.emits_byte _)
  rw [List.flatten_singleton]
  exact emits_storeUser _ _ _

end Veh2CloudInh

end VehicleCloud
