import VehicleCloud.DerivedOrder

namespace VehicleCloud

open ByteStream

/-- What a call of a derived `to_bytes` may do: fill the declared frame from its first byte to its
last and return its length, given a buffer with that much room, or write nothing and return 0. -/
def AllOrNothing (h : MessageHeader) (null : Bool) (size : UInt64) (s : Sink) : Prop :=
  (null = false ∧ 16 + h.data_len.toNat ≤ size.toNat ∧
    (∀ i, (∃ b, (b, i) ∈ s.writes) ↔ i < 16 + h.data_len.toNat) ∧
    s.offset = 16 + h.data_len.toNat) ∨
  (s.writes = [] ∧ s.offset = 0)

/-- There is room for the frame and the data length is that of the body, or the base class fails
and the data length alone is more than the size. -/
def Decided (h : MessageHeader) (body_len : Nat) (null : Bool) (size : UInt64) : Prop :=
  (null = false ∧ 16 + h.data_len.toNat ≤ size.toNat ∧ h.data_len.toNat = body_len) ∨
  ((null = true ∨ size.toNat < 16) ∧ size.toNat < h.data_len.toNat)

theorem invalidSize_zero (size : UInt64) (d : UInt32) :
    invalidSize size 0 d = true ↔ size.toNat < d.toNat := by
  rw [invalidSize, decide_eq_true_iff, UInt64.lt_iff_toNat_lt, UInt32.toNat_toUInt64]
  simp

namespace MessageHeader

theorem to_bytes_of_failed {null : Bool} {size : UInt64} (hf : null = true ∨ size.toNat < 16)
    (m : MessageHeader) (big_endian : Bool) : m.to_bytes null size big_endian = ⟨0, [], []⟩ := by
  unfold to_bytes
  split
  next => rfl
  next hn =>
    have hlt : size < 16 := UInt64.lt_iff_toNat_lt.mpr (hf.resolve_left hn)
    rw [if_pos hlt]

theorem to_bytes_failed_or (null : Bool) (size : UInt64) :
    (null = true ∨ size.toNat < 16) ∨ null = false ∧ 16 ≤ size.toNat := by
  cases null with
  | true => exact Or.inl (Or.inl rfl)
  | false => have h := Nat.lt_or_ge size.toNat 16; simpa using h

section

variable {h : MessageHeader} {body : Writer Unit} {bs : List UInt8} {fs : List (Nat × Nat)}
  {null : Bool} {size : UInt64}

/-- The failure value of the base class is taken for an offset: the body goes to the front of
the buffer. -/
theorem toBytesWith_of_failed (hb : body.Emits bs fs) (hf : null = true ∨ size.toNat < 16) :
    h.toBytesWith body null size =
      if size.toNat < h.data_len.toNat then ⟨0, [], []⟩ else ⟨bs.length, bs.zipIdx, fs⟩ := by
  have hi := invalidSize_zero size h.data_len
  have hw := hb ⟨0, [], []⟩
  simp only [Nat.zero_add, List.nil_append] at hw
  simp only [toBytesWith, to_bytes_of_failed hf, hi, hw]

/-- Without room for the body the header stays in the buffer. -/
theorem toBytesWith_of_lt (hs : 16 ≤ size.toNat) (hd : size.toNat < 16 + h.data_len.toNat) :
    h.toBytesWith body false size = ⟨16, (h.layout true).zipIdx, []⟩ := by
  have hi := (invalidSize_header size h.data_len).mpr ⟨hs, hd⟩
  simp only [toBytesWith, to_bytes_of_le h hs, hi, ↓reduceIte]

theorem allOrNothing_of_failed (hb : body.Emits bs fs) (hne : bs ≠ [])
    (hf : null = true ∨ size.toNat < 16) :
    AllOrNothing h null size (h.toBytesWith body null size) ↔ size.toNat < h.data_len.toNat := by
  rw [toBytesWith_of_failed hb hf]
  split
  next hlt => exact ⟨fun _ => hlt, fun _ => Or.inr ⟨rfl, rfl⟩⟩
  next hge =>
    constructor
    · rintro (⟨hn, hd, _⟩ | ⟨_, hz⟩)
      · have hs : size.toNat < 16 := hf.resolve_left (by simp [hn])
        omega
      · exact absurd (List.length_eq_zero_iff.mp hz) hne
    · intro hlt
      exact absurd hlt hge

theorem allOrNothing_of_le (hb : body.Emits bs fs) (hs : 16 ≤ size.toNat) :
    AllOrNothing h false size (h.toBytesWith body false size) ↔
      16 + h.data_len.toNat ≤ size.toNat ∧ h.data_len.toNat = bs.length := by
  rcases Nat.lt_or_ge size.toNat (16 + h.data_len.toNat) with hd | hd
  · rw [toBytesWith_of_lt hs hd]
    constructor
    · rintro (⟨_, hle, _⟩ | ⟨_, hz⟩)
      · omega
      · simp at hz
    · rintro ⟨hle, _⟩
      omega
  · rw [toBytesWith_of_le hb hd]
    constructor
    · rintro (⟨_, _, _, ho⟩ | ⟨_, hz⟩)
      · exact ⟨hd, by simp at ho; omega⟩
      · simp at hz
    · rintro ⟨_, hl⟩
      refine Or.inl ⟨rfl, hd, fun i => ?_, by simp [hl]⟩
      rw [mem_zipIdx_iff, List.length_append, layout_length, hl]

theorem allOrNothing_iff (hb : body.Emits bs fs) (hne : bs ≠ []) :
    AllOrNothing h null size (h.toBytesWith body null size) ↔ Decided h bs.length null size := by
  unfold Decided
  rcases to_bytes_failed_or null size with hf | ⟨rfl, hs⟩
  · rw [allOrNothing_of_failed hb hne hf]
    constructor
    · intro hlt
      exact Or.inr ⟨hf, hlt⟩
    · rintro (⟨hn, hd, _⟩ | ⟨_, hlt⟩)
      · have hs := hf.resolve_left (by simp [hn])
        omega
      · exact hlt
  · rw [allOrNothing_of_le hb hs]
    simp only [true_and, Bool.false_eq_true, false_or]
    omega

end

end MessageHeader

/-- The three derived classes write a whole frame or nothing exactly when the call is decided by
its size: not when the base class fails on a buffer that the body alone fits in, and not when
only the header does. -/
theorem derived_to_bytes_all_or_nothing_iff (null : Bool) (size : UInt64) (big_endian : Bool) :
    (∀ m : Cloud2VehInhRes,
      AllOrNothing m.toMessageHeader null size (m.to_bytes null size big_endian) ↔
        Decided m.toMessageHeader 9 null size) ∧
    (∀ (m : Veh2CloudInh) (past : Veh2CloudInh.Past),
      AllOrNothing m.toMessageHeader null size (m.to_bytes past null size big_endian) ↔
        Decided m.toMessageHeader m.bodyLength null size) ∧
    (∀ (m : Veh2CloudState) (past : Nat → Position2D),
      AllOrNothing m.toMessageHeader null size (m.to_bytes past null size big_endian) ↔
        Decided m.toMessageHeader m.bodyLength null size) := by
  refine ⟨fun m => ?_, fun m past => ?_, fun m past => ?_⟩
  · rw [← m.layout_length]
    exact MessageHeader.allOrNothing_iff m.emits_store
      (List.ne_nil_of_length_pos (by simp))
  · have hl : (m.storedFields past).flatten.length = m.bodyLength := m.storedFields_length past
    rw [← hl]
    exact MessageHeader.allOrNothing_iff (m.emits_store past)
      (List.ne_nil_of_length_pos (by rw [hl, Veh2CloudInh.bodyLength]; omega))
  · have hl : ({ m with pass_pos := m.indexed past }.layout big_endian).length = m.bodyLength :=
      m.indexed_layout_length past big_endian
    rw [← hl]
    exact MessageHeader.allOrNothing_iff (m.emits_store past big_endian)
      (List.ne_nil_of_length_pos (by rw [hl, Veh2CloudState.bodyLength]; omega))

/-- A nine-byte response in a buffer of twelve bytes: the body is written without its header. -/
theorem short_buffer_gets_bare_body :
    ¬AllOrNothing response.toMessageHeader false 12 (response.to_bytes false 12 true) := by
  rintro (⟨_, hd, _⟩ | ⟨_, hz⟩)
  · revert hd
    decide
  · revert hz
    decide

end VehicleCloud
