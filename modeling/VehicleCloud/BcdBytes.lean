import VehicleCloud.BcdString

namespace VehicleCloud

open ByteStream Printf

/-- A byte of two decimal digits. -/
def Bcd (b : UInt8) : Prop := b.toNat / 16 ≤ 9 ∧ b.toNat % 16 ≤ 9

instance (b : UInt8) : Decidable (Bcd b) := inferInstanceAs (Decidable (_ ∧ _))

/-- What `atoi` makes of the hexadecimal digit of a nibble. -/
def digitOf (d : Nat) : Nat := if d ≤ 9 then d else 0

def hexDigit (d : Nat) : UInt8 := UInt8.ofNat (if d < 10 then 48 + d else 55 + d)

theorem hexadecimal_digit : ∀ d < 16, hexadecimal d = [hexDigit d] := by decide

theorem atoi_hexDigit : ∀ d < 16, hexDigit d ≠ 0 ∧ (atoi (hexDigit d)).toNat = digitOf d := by decide

/-- The text of a byte, as the digits that are read back. -/
theorem digits_hexByte (b : UInt8) :
    (hexByte b).map (fun c => (atoi c).toNat) = [digitOf (b.toNat / 16), digitOf (b.toNat % 16)] ∧
    ∀ c ∈ hexByte b, c ≠ 0 := by
  have hb := b.toNat_lt
  have hhigh : b.toNat / 16 < 16 := by omega
  have hlow : b.toNat % 16 < 16 := by omega
  obtain ⟨hc0, hc⟩ := atoi_hexDigit _ hhigh
  obtain ⟨he0, he⟩ := atoi_hexDigit _ hlow
  rw [hexByte_eq, hexadecimal_digit _ hhigh, hexadecimal_digit _ hlow]
  constructor
  · simp [hc, he]
  · simp [hc0, he0]

theorem digits_hex (bs : List UInt8) : (hex bs).map (fun c => (atoi c).toNat) =
    bs.flatMap fun b => [digitOf (b.toNat / 16), digitOf (b.toNat % 16)] := by
  induction bs with
  | nil => rfl
  | cons b bs ih => rw [hex_cons, List.map_append, ih, (digits_hexByte b).1, List.flatMap_cons]

theorem str_hex (bs : List UInt8) : str (hex bs) = hex bs := by
  apply List.takeWhile_eq_self_iff.mpr
  intro c hc
  obtain ⟨b, _, hb⟩ := List.mem_flatMap.mp hc
  simpa using (digits_hexByte b).2 c hb

/-- The two entries that one element of the list becomes. -/
theorem getD_flatMap_pair {α : Type} (f g : α → Nat) {xs : List α} {k : Nat} (hk : k < xs.length) :
    (xs.flatMap fun x => [f x, g x]).getD (2 * k) 0 = f xs[k] ∧
    (xs.flatMap fun x => [f x, g x]).getD (2 * k + 1) 0 = g xs[k] := by
  induction xs generalizing k with
  | nil => exact absurd hk (Nat.not_lt_zero k)
  | cons x xs ih =>
    cases k with
    | zero => exact ⟨rfl, rfl⟩
    | succ k => exact ih (Nat.lt_of_succ_lt_succ hk)

/-- The byte that comes back for `b`. -/
theorem bcd_of_hex {mem bcd : Mem} {size : UInt64} (hsize : size.toNat < 2 ^ 31) {k : Nat}
    (hk : k < size.toNat) :
    ((string_to_bcd (hex (slice mem 0 size.toNat)) bcd size).mem k).toNat =
      16 * digitOf ((mem k).toNat / 16) + digitOf ((mem k).toNat % 16) := by
  have hlength : (hex (slice mem 0 size.toNat)).length = 2 * size.toNat := by
    rw [hex_length, slice_length]
  have hlen : (UInt64.ofNat (hex (slice mem 0 size.toNat)).length).toNat = 2 * size.toNat := by
    rw [UInt64.toNat_ofNat', hlength]
    omega
  have hzero : Nibbles (Target.memset ⟨bcd, []⟩ 0 size.toNat).mem size.toNat [] := by
    intro j hj
    rw [Target.memset_mem, if_pos hj]
    rfl
  have hplace : ([] : List Nat).length +
      (UInt64.ofNat (hex (slice mem 0 size.toNat)).length).toNat =
        2 * size.toNat + (0 : UInt64).toNat := by
    rw [hlen, List.length_nil, UInt64.toNat_zero]
    omega
  have hend : ([] : List Nat).length + (hex (slice mem 0 size.toNat)).length = 2 * size.toNat := by
    rw [hlength, List.length_nil, Nat.zero_add]
  obtain ⟨_, hdone⟩ := bcdLoop_nibbles hsize (by omega) (Target.within_memset bcd size.toNat) hzero
    hplace hend
  rw [string_to_bcd, str_hex, hdone k hk, List.nil_append, digits_hex]
  have hk' : k < (slice mem 0 size.toNat).length := by rwa [slice_length]
  obtain ⟨hhigh, hlow⟩ := getD_flatMap_pair (fun b : UInt8 => digitOf (b.toNat / 16))
    (fun b : UInt8 => digitOf (b.toNat % 16)) hk'
  have hbyte : (slice mem 0 size.toNat)[k] = mem k := by simp [slice]
  rw [hhigh, hlow, hbyte]

theorem digitOf_eq_iff {b : UInt8} :
    16 * digitOf (b.toNat / 16) + digitOf (b.toNat % 16) = b.toNat ↔ Bcd b := by
  have hdiv := Nat.div_add_mod b.toNat 16
  unfold digitOf Bcd
  constructor
  · intro h
    split at h <;> split at h <;> omega
  · rintro ⟨hhigh, hlow⟩
    rw [if_pos hhigh, if_pos hlow, hdiv]

/-- Bytes that are written as a string and read back come out as they were exactly when each of
them is two decimal digits: the digits from A to F are read as 0. -/
theorem bcd_round_trip_iff (mem bcd : Mem) (size : UInt64) (room : Nat)
    (hsize : size.toNat < 2 ^ 31) :
    (∀ k < size.toNat,
      (string_to_bcd (bytes_to_string mem size.toNat room).text bcd size).mem k = mem k) ↔
    ∀ k < size.toNat, Bcd (mem k) := by
  rw [bytes_to_string_text]
  apply forall₂_congr
  intro k hk
  rw [← UInt8.toNat_inj, bcd_of_hex hsize hk, digitOf_eq_iff]

theorem bcd_round_trip_iff_two :
    (∀ k < 2, (string_to_bcd (bytes_to_string (Mem.ofBytes [0x12, 0x3A] fun _ => 0) 2 5).text
      (fun _ => 7) 2).mem k = Mem.ofBytes [0x12, 0x3A] (fun _ => 0) k) ↔
    ∀ k < 2, Bcd (Mem.ofBytes [0x12, 0x3A] (fun _ => 0) k) :=
  bcd_round_trip_iff (Mem.ofBytes [0x12, 0x3A] fun _ => 0) (fun _ => 7) 2 5 (by decide)

end VehicleCloud
