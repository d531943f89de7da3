import VehicleCloud.Printf
import VehicleCloud.Reader

namespace VehicleCloud

open ByteStream Printf

/-- `room` is the size of the array `_str`. -/
def bytes_to_string (bytes : Mem) (size room : Nat) : Built :=
  Built.catEach 3 room (fun i => hexByte (bytes i)) size (Built.copy room [])

/-- As built with `_UDEBUG`: the text, and the size of the array that is declared for it. -/
def print_buffer (pre : Text) (id : UInt32) (buf : Mem) (size : UInt64) : Built :=
  let room := (4 * size + UInt64.ofNat (str pre).length + 100).toNat
  let head := str pre ++ utf8 "(0x" ++ hexadecimal id.toNat ++ utf8 "," ++
    signed size.toInt64.toInt ++ utf8 "): "
  let w := Built.catEach 10 room (fun i => hexByte (buf i) ++ utf8 " ") size.toNat
    (Built.copy room head)
  Built.cat room w (utf8 "\n")

theorem bytes_to_string_text (bytes : Mem) (size room : Nat) :
    (bytes_to_string bytes size room).text = hex (slice bytes 0 size) := by
  rw [bytes_to_string, Built.catEach_text, hex, slice, List.flatMap_map, List.range_eq_range']
  rfl

theorem bytes_to_string_length (bytes : Mem) (size room : Nat) :
    (bytes_to_string bytes size room).text.length = 2 * size := by
  rw [bytes_to_string_text, hex_length, slice_length]

theorem bytes_to_string_fits_iff (bytes : Mem) (size room : Nat) :
    (bytes_to_string bytes size room).Fits ↔ 2 * size + 1 ≤ room := by
  rw [bytes_to_string, Built.copy_catEach_fits_iff (fun _ _ => by simp), ← bytes_to_string,
    bytes_to_string_length]

theorem signed_length_le (n : UInt64) : (signed n.toInt64.toInt).length ≤ 20 := by
  have h1 := n.toInt64.toInt_lt
  have h2 := n.toInt64.le_toInt
  have hd : (decimal n.toInt64.toInt.natAbs).length ≤ 19 :=
    decimal_length_le (by decide) (by omega)
  have hm : (utf8 "-").length = 1 := rfl
  rw [signed]
  split
  next => rw [List.length_append, hm]; omega
  next => omega

theorem print_buffer_length (pre : Text) (id : UInt32) (buf : Mem) (size : UInt64) :
    (print_buffer pre id buf size).text.length = (str pre).length +
      (hexadecimal id.toNat).length + (signed size.toInt64.toInt).length + 3 * size.toNat + 8 := by
  have h1 : (utf8 "(0x").length = 3 := rfl
  have h2 : (utf8 ",").length = 1 := rfl
  have h3 : (utf8 "): ").length = 3 := rfl
  have h4 : (utf8 "\n").length = 1 := rfl
  have hpieces : ((List.range size.toNat).flatMap fun i => hexByte (buf i) ++ utf8 " ").length =
      3 * size.toNat := by
    have hone : ∀ i, (hexByte (buf i) ++ utf8 " ").length = 3 := fun i => by
      rw [List.length_append, hexByte_length]
      rfl
    simp only [List.length_flatMap, hone, List.map_const', List.sum_replicate_nat,
      List.length_range]
    omega
  simp only [print_buffer, Built.cat, Built.catEach_text, Built.copy, List.length_append, hpieces,
    h1, h2, h3, h4]
  omega

/-- The array is large enough unless the computation of its size wraps. -/
theorem print_buffer_fits_iff (pre : Text) (id : UInt32) (buf : Mem) (size : UInt64) :
    (print_buffer pre id buf size).Fits ↔ 4 * size.toNat + (str pre).length + 100 < 2 ^ 64 := by
  have hsize := size.toNat_lt
  have hid : (hexadecimal id.toNat).length ≤ 8 :=
    (numeral_length_le (by decide) (by decide)).mpr id.toNat_lt
  have hpos : 0 < (hexadecimal id.toNat).length := numeral_length_pos 16 _
  have hsigned := signed_length_le size
  have hlen := print_buffer_length pre id buf size
  have hroom : (4 * size + UInt64.ofNat (str pre).length + 100).toNat =
      (4 * size.toNat + (str pre).length + 100) % 2 ^ 64 := by
    simp only [UInt64.toNat_add, UInt64.toNat_mul, UInt64.toNat_ofNat']
    have h4 : (4 : UInt64).toNat = 4 := rfl
    have h100 : (100 : UInt64).toNat = 100 := rfl
    rw [h4, h100]
    omega
  have hpiece : ∀ i < size.toNat, (hexByte (buf i) ++ utf8 " ").length + 1 ≤ 10 := by
    intro i _
    rw [List.length_append, hexByte_length]
    decide
  have hlast := hlen
  rw [print_buffer, Built.cat, List.length_append, show (utf8 "\n").length = 1 from rfl] at hlast
  rw [print_buffer, Built.cat_fits, Built.copy_catEach_fits_iff hpiece, ← print_buffer, hlen]
  omega

end VehicleCloud
