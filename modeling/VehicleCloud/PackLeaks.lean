import VehicleCloud.ControllerSend

namespace VehicleCloud

open ByteStream

/-- All that is stored, and all that is copied off again, lies within the stack buffer. -/
structure Packed.InRoom (p : Packed) : Prop where
  writes : ∀ w ∈ p.sink.writes, w.2 < p.room.toNat
  offset : p.sink.offset ≤ p.room.toNat

/-- Packing stays within its stack buffer, and finds the bytes of the message in the message: what
else memory holds, past its strings, behind its way-points and on the stack, makes no difference. -/
def Call.PacksAlike (c : Call) : Prop :=
  ∀ o o' : Outgoing, o.message = c → o'.message = c → o.packed.InRoom ∧ o.pack = o'.pack

/-- Every copy ends with the NUL of its string, at the latest. -/
def Veh2CloudInh.Covered (m : Veh2CloudInh) : Prop :=
  Veh2CloudInh.versionLength m.sw_ver_len ≤ m.sw_ver.length + 1 ∧
    Veh2CloudInh.versionLength m.hw_ver_len ≤ m.sw_ver.length + 1 ∧
    Veh2CloudInh.versionLength m.ad_ver_len ≤ m.sw_ver.length + 1 ∧
    m.user_data_len.toNat ≤ m.user_data.length + 1

/-- Every way-point that is counted exists. -/
def Veh2CloudState.Covered (m : Veh2CloudState) : Prop :=
  m.pass_pos_num.toNat ≤ m.pass_pos.length

def Call.Covered : Call → Prop
  | header _ => True
  | inh m => m.Covered
  | res _ => True
  | state m => m.Covered

/-- The length of what `to_bytes` stores after the header. -/
def Call.storedLength : Call → Nat
  | header _ => 0
  | inh m => m.bodyLength
  | res _ => 9
  | state m => m.bodyLength

namespace Outgoing

theorem stored_length_eq (o : Outgoing) : o.stored.length = o.message.storedLength := by
  unfold stored
  cases o.message with
  | header m => rfl
  | inh m => exact m.storedFields_length o.past
  | res m => exact m.layout_length
  | state m => exact m.indexed_layout_length o.points true

/-- The data length makes the room, the counts of the message what is stored in it. -/
theorem inRoom_iff {o : Outgoing} (hd : 16 + o.message.head.data_len.toNat < 2 ^ 32) :
    o.packed.InRoom ↔ o.message.storedLength ≤ o.message.head.data_len.toNat := by
  obtain ⟨fs, hp⟩ := packed_of_room hd
  have hroom : (UInt64.ofNat (16 + o.message.head.data_len.toNat)).toNat =
      16 + o.message.head.data_len.toNat := by
    rw [UInt64.toNat_ofNat']
    omega
  rw [hp, ← stored_length_eq]
  constructor
  · intro h
    have hle : 16 + o.stored.length ≤ (UInt64.ofNat (16 + o.message.head.data_len.toNat)).toNat :=
      h.offset
    omega
  · intro hle
    have hoffset : 16 + o.stored.length ≤ (UInt64.ofNat (16 + o.message.head.data_len.toNat)).toNat := by
      omega
    refine ⟨fun w hw => ?_, hoffset⟩
    have hlt := mem_zipIdx_iff.mp ⟨w.1, hw⟩
    rw [List.length_append, MessageHeader.layout_length] at hlt
    exact Nat.lt_of_lt_of_le hlt hoffset

theorem inRoom_of_wrap {o : Outgoing} (hd : 2 ^ 32 ≤ 16 + o.message.head.data_len.toNat) :
    o.packed.InRoom := by
  have hsink := (packed_of_wrap hd).1
  exact ⟨by simp [hsink], by simp [hsink]⟩

theorem pack_eq_iff {o o' : Outgoing} (hm : o.message = o'.message)
    (hd : 16 + o.message.head.data_len.toNat < 2 ^ 32) :
    o.pack = o'.pack ↔ o.stored = o'.stored := by
  have hd' : 16 + o'.message.head.data_len.toNat < 2 ^ 32 := by rw [← hm]; exact hd
  rw [pack_of_room hd, pack_of_room hd', hm]
  constructor
  · intro h
    exact List.append_cancel_left (congrArg MessageBuffer.data h)
  · intro h
    rw [h]

end Outgoing

namespace Veh2CloudInh

theorem stored_eq_stored_iff (m : Veh2CloudInh) (past past' : Past) :
    (m.storedFields past).flatten = (m.storedFields past').flatten ↔
      (copied m.sw_ver_len m.sw_ver past.sw_ver = copied m.sw_ver_len m.sw_ver past'.sw_ver ∧
        copied m.hw_ver_len m.sw_ver past.sw_ver = copied m.hw_ver_len m.sw_ver past'.sw_ver ∧
        copied m.ad_ver_len m.sw_ver past.sw_ver = copied m.ad_ver_len m.sw_ver past'.sw_ver) ∧
      slice (cstr m.user_data past.user_data) 0 m.user_data_len.toNat =
        slice (cstr m.user_data past'.user_data) 0 m.user_data_len.toNat := by
  have hlen (len : UInt8) :
      (copied len m.sw_ver past.sw_ver).length = (copied len m.sw_ver past'.sw_ver).length := by
    simp only [copied, slice_length]
  simp only [storedFields, List.flatten_cons, List.flatten_nil, List.append_nil,
    List.append_cancel_left_eq, List.singleton_append]
  constructor
  · intro h
    obtain ⟨hsw, h⟩ := List.append_inj (List.cons.inj h).2 (hlen _)
    obtain ⟨hhw, h⟩ := List.append_inj (List.cons.inj h).2 (hlen _)
    obtain ⟨had, h⟩ := List.append_inj (List.cons.inj h).2 (hlen _)
    simp only [List.cons.injEq, true_and] at h
    exact ⟨⟨hsw, hhw, had⟩, h⟩
  · rintro ⟨⟨hsw, hhw, had⟩, hud⟩
    rw [hsw, hhw, had, hud]

theorem stored_alike_iff (m : Veh2CloudInh) :
    (∀ past past', (m.storedFields past).flatten = (m.storedFields past').flatten) ↔
      m.Covered := by
  simp only [stored_eq_stored_iff, Covered, ← cstr_slice_const_iff]
  constructor
  · intro h
    have hsw (p p' : Mem) := (h ⟨p, fun _ => 0⟩ ⟨p', fun _ => 0⟩).1
    have hud (p p' : Mem) := (h ⟨fun _ => 0, p⟩ ⟨fun _ => 0, p'⟩).2
    exact ⟨fun p p' => (hsw p p').1, fun p p' => (hsw p p').2.1, fun p p' => (hsw p p').2.2, hud⟩
  · rintro ⟨hsw, hhw, had, hud⟩ past past'
    exact ⟨⟨hsw _ _, hhw _ _, had _ _⟩, hud _ _⟩

end Veh2CloudInh

namespace Veh2CloudState

theorem indexed_length (m : Veh2CloudState) (past : Nat → Position2D) :
    (m.indexed past).length = m.pass_pos_num.toNat := by
  simp [indexed]

/-- The body shows every way-point that is stored. -/
theorem stored_eq_stored_iff (m : Veh2CloudState) (past past' : Nat → Position2D) :
    { m with pass_pos := m.indexed past }.layout true =
      { m with pass_pos := m.indexed past' }.layout true ↔ m.indexed past = m.indexed past' := by
  constructor
  · intro h
    have hp := yields_body { m with pass_pos := m.indexed past } true (m.indexed_length past)
    have hp' := yields_body { m with pass_pos := m.indexed past' } true (m.indexed_length past')
    rw [← h] at hp'
    exact congrArg pass_pos (hp.unique hp')
  · intro h
    rw [h]

theorem stored_alike_iff (m : Veh2CloudState) :
    (∀ past past', { m with pass_pos := m.indexed past }.layout true =
      { m with pass_pos := m.indexed past' }.layout true) ↔ m.Covered := by
  simp only [stored_eq_stored_iff, Covered]
  constructor
  · intro h
    by_contra hlt
    have hi : m.pass_pos.length < m.pass_pos_num.toNat := by omega
    have he := congrArg (·[m.pass_pos.length]?) (h (fun _ => ⟨0, 0⟩) fun _ => ⟨1, 1⟩)
    simp [indexed, hi] at he
  · intro hle past past'
    apply List.map_congr_left
    intro i hi
    have hlt : i < m.pass_pos.length := by
      have hb := List.mem_range.mp hi
      omega
    simp [hlt]

end Veh2CloudState

theorem Call.stored_alike_iff (c : Call) :
    (∀ o o' : Outgoing, o.message = c → o'.message = c → o.stored = o'.stored) ↔ c.Covered := by
  cases c with
  | header m =>
    refine ⟨fun _ => trivial, fun _ o o' h h' => ?_⟩
    rw [Outgoing.stored, Outgoing.stored, h, h']
  | res m =>
    refine ⟨fun _ => trivial, fun _ o o' h h' => ?_⟩
    rw [Outgoing.stored, Outgoing.stored, h, h']
  | inh m =>
    rw [Call.Covered, ← m.stored_alike_iff]
    constructor
    · intro h past past'
      exact h ⟨.inh m, past, fun _ => default, fun _ => 0⟩
        ⟨.inh m, past', fun _ => default, fun _ => 0⟩ rfl rfl
    · intro h o o' ho ho'
      simp only [Outgoing.stored, ho, ho']
      exact h o.past o'.past
  | state m =>
    rw [Call.Covered, ← m.stored_alike_iff]
    constructor
    · intro h points points'
      exact h ⟨.state m, ⟨fun _ => 0, fun _ => 0⟩, points, fun _ => 0⟩
        ⟨.state m, ⟨fun _ => 0, fun _ => 0⟩, points', fun _ => 0⟩ rfl rfl
    · intro h o o' ho ho'
      simp only [Outgoing.stored, ho, ho']
      exact h o.points o'.points

/-- `Packer::pack` stays in bounds and discloses nothing but the message exactly when the data length
has room for the body and the counts of the message cover what it has, or when the data length wraps
and nothing is packed. -/
theorem packs_alike_iff (c : Call) :
    c.PacksAlike ↔ 2 ^ 32 ≤ 16 + c.head.data_len.toNat ∨
      c.storedLength ≤ c.head.data_len.toNat ∧ c.Covered := by
  rcases Nat.lt_or_ge (16 + c.head.data_len.toNat) (2 ^ 32) with hd | hd
  · have hiff (o o' : Outgoing) (h : o.message = c) (h' : o'.message = c) :
        o.pack = o'.pack ↔ o.stored = o'.stored :=
      Outgoing.pack_eq_iff (h.trans h'.symm) (by rw [h]; exact hd)
    have hroom (o : Outgoing) (h : o.message = c) :
        o.packed.InRoom ↔ c.storedLength ≤ c.head.data_len.toNat := by
      subst h
      exact Outgoing.inRoom_iff hd
    let some : Outgoing := ⟨c, ⟨fun _ => 0, fun _ => 0⟩, fun _ => default, fun _ => 0⟩
    rw [or_iff_right (Nat.not_le_of_lt hd), ← c.stored_alike_iff]
    constructor
    · intro halike
      refine ⟨(hroom some rfl).mp (halike some some rfl rfl).1, fun o o' h h' => ?_⟩
      exact (hiff o o' h h').mp (halike o o' h h').2
    · rintro ⟨hle, halike⟩ o o' h h'
      exact ⟨(hroom o h).mpr hle, (hiff o o' h h').mpr (halike o o' h h')⟩
  · constructor
    · intro _
      exact Or.inl hd
    · rintro _ o o' rfl h
      refine ⟨Outgoing.inRoom_of_wrap hd, ?_⟩
      rw [Outgoing.pack_of_wrap hd, Outgoing.pack_of_wrap (by rw [h]; exact hd)]

end VehicleCloud
