import VehicleCloud.WordBytes

namespace Printf

open ByteStream

abbrev Text := List UInt8

def utf8 (s : String) : Text := s.toByteArray.data.toList

/-- `%s`: the characters before the first NUL. -/
def str (s : Text) : Text := s.takeWhile (· ≠ 0)

/-- A number without leading zeros, its digits above nine in upper case. -/
def numeral (base n : Nat) : Text :=
  (Nat.toDigits base n).map fun c => UInt8.ofNat c.toUpper.toNat

/-- `%lu` -/
def decimal (n : Nat) : Text := numeral 10 n

/-- `%lX` -/
def hexadecimal (n : Nat) : Text := numeral 16 n

/-- `%ld` -/
def signed (z : Int) : Text :=
  if z < 0 then utf8 "-" ++ decimal z.natAbs else decimal z.natAbs

/-- The flag `-` with a field width. -/
def padRight (width : Nat) (t : Text) : Text := t.rightpad width 32

/-- The flag `0` with a field width. -/
def padZero (width : Nat) (t : Text) : Text := t.leftpad width 48

theorem str_length_le (s : Text) : (str s).length ≤ s.length :=
  (List.takeWhile_sublist _).length_le

theorem numeral_length_le {base n k : Nat} (hb : 1 < base) (hk : 0 < k) :
    (numeral base n).length ≤ k ↔ n < base ^ k := by
  rw [numeral, List.length_map, Nat.length_toDigits_le_iff hb hk]

theorem numeral_length_pos (base n : Nat) : 0 < (numeral base n).length := by
  rw [numeral, List.length_map]
  exact Nat.length_toDigits_pos

theorem numeral_of_lt {base n : Nat} (h : n < base) :
    numeral base n = [UInt8.ofNat n.digitChar.toUpper.toNat] := by
  rw [numeral, Nat.toDigits_of_lt_base h]
  rfl

theorem numeral_of_le {base n : Nat} (hb : 1 < base) (h : base ≤ n) :
    numeral base n = numeral base (n / base) ++ numeral base (n % base) := by
  have hlt : n % base < base := Nat.mod_lt n (by omega)
  rw [numeral_of_lt hlt, numeral, numeral, Nat.toDigits_of_base_le hb h, List.map_append]
  rfl

theorem decimal_length_le {n k : Nat} (hk : 0 < k) (h : n < 10 ^ k) : (decimal n).length ≤ k :=
  (numeral_length_le (by decide) hk).mpr h

theorem padRight_length (width : Nat) (t : Text) : (padRight width t).length = max width t.length := by
  rw [padRight, List.length_rightpad]

theorem padZero_length (width : Nat) (t : Text) : (padZero width t).length = max width t.length := by
  rw [padZero, List.length_leftpad]

theorem padZero_of_le {width : Nat} {t : Text} (h : width ≤ t.length) : padZero width t = t := by
  rw [padZero, List.leftpad, Nat.sub_eq_zero_of_le h]
  rfl

/-- Two widths give one text when it takes up the larger. -/
theorem padZero_eq_padZero_iff {k width : Nat} {t : Text} (hk : k < width) :
    padZero k t = padZero width t ↔ width ≤ t.length := by
  constructor
  · intro h
    have hlen := congrArg List.length h
    rw [padZero_length, padZero_length] at hlen
    omega
  · intro h
    rw [padZero_of_le h, padZero_of_le (by omega)]

/-- The last digit of a padded number, and the padded rest. -/
theorem padZero_numeral_succ {base n k : Nat} (hb : 1 < base) (hk : 0 < k) :
    padZero (k + 1) (numeral base n) =
      padZero k (numeral base (n / base)) ++ numeral base (n % base) := by
  have hlt : n % base < base := Nat.mod_lt n (by omega)
  rcases Nat.lt_or_ge n base with h | h
  · rw [Nat.div_eq_of_lt h, Nat.mod_eq_of_lt h, numeral_of_lt h, numeral_of_lt (by omega : 0 < base)]
    obtain ⟨j, rfl⟩ := Nat.exists_eq_succ_of_ne_zero (Nat.ne_of_gt hk)
    simp only [padZero, List.leftpad, List.length_singleton, Nat.succ_eq_add_one,
      Nat.add_sub_cancel, List.replicate_succ', List.append_assoc]
    rfl
  · have hl : (numeral base (n % base)).length = 1 := by rw [numeral_of_lt hlt]; rfl
    rw [numeral_of_le hb h, padZero, padZero, List.leftpad, List.leftpad, List.length_append, hl,
      Nat.add_sub_add_right, List.append_assoc]

/-- `%02X` of a byte. -/
def hexByte (b : UInt8) : Text := padZero 2 (hexadecimal b.toNat)

def hex (bs : List UInt8) : Text := bs.flatMap hexByte

theorem hexByte_eq (b : UInt8) :
    hexByte b = hexadecimal (b.toNat / 16) ++ hexadecimal (b.toNat % 16) := by
  rw [hexByte, hexadecimal, padZero_numeral_succ (by decide) (by decide),
    padZero_of_le (numeral_length_pos _ _)]
  rfl

theorem hexDigit_length {d : Nat} (h : d < 16) : (hexadecimal d).length = 1 := by
  rw [hexadecimal, numeral_of_lt h]
  rfl

@[simp] theorem hexByte_length (b : UInt8) : (hexByte b).length = 2 := by
  have hb := b.toNat_lt
  rw [hexByte_eq, List.length_append, hexDigit_length (by omega), hexDigit_length (by omega)]

@[simp] theorem hex_append (xs ys : List UInt8) : hex (xs ++ ys) = hex xs ++ hex ys :=
  List.flatMap_append

theorem hex_cons (b : UInt8) (bs : List UInt8) : hex (b :: bs) = hexByte b ++ hex bs := rfl

@[simp] theorem hex_length (bs : List UInt8) : (hex bs).length = 2 * bs.length := by
  induction bs with
  | nil => rfl
  | cons b bs ih =>
    rw [hex_cons, List.length_append, hexByte_length, ih, List.length_cons]
    omega

/-- A number in hexadecimal, padded to its width in bytes, shows these bytes from the most
significant one on. -/
theorem padZero_hexadecimal {w n : Nat} (hw : 0 < w) (hn : n < 256 ^ w) :
    padZero (2 * w) (hexadecimal n) = hex (toLE w n).reverse := by
  induction w generalizing n with
  | zero => omega
  | succ w ih =>
    rw [toLE, List.reverse_cons, hex_append]
    rcases Nat.eq_zero_or_pos w with rfl | hpos
    · have hb : (UInt8.ofNat n).toNat = n := by
        rw [UInt8.toNat_ofNat']
        omega
      rw [toLE, List.reverse_nil, hex_cons, hexByte, hb]
      exact (List.append_nil _).symm
    · have hq : n / 256 < 256 ^ w := by
        rw [Nat.pow_succ] at hn
        omega
      have hlast : hex [UInt8.ofNat n] = hexadecimal (n / 16 % 16) ++ hexadecimal (n % 16) := by
        rw [hex_cons, hexByte_eq, UInt8.toNat_ofNat']
        have h1 : n % 2 ^ 8 / 16 = n / 16 % 16 := by omega
        have h2 : n % 2 ^ 8 % 16 = n % 16 := by omega
        rw [h1, h2]
        exact List.append_nil _
      have hdiv : n / 16 / 16 = n / 256 := by omega
      rw [hexadecimal, show 2 * (w + 1) = 2 * w + 1 + 1 by omega,
        padZero_numeral_succ (by decide) (by omega), padZero_numeral_succ (by decide) (by omega),
        hdiv, List.append_assoc, hlast]
      exact congrArg (· ++ _) (ih hpos hq)

theorem padZero_hexadecimal_word {α : Type} [Word α] (a : α) (hw : 0 < Word.width α) :
    padZero (2 * Word.width α) (hexadecimal (Word.toNat a)) = hex (wordBytes true a) := by
  rw [padZero_hexadecimal hw (Word.toNat_lt a), wordBytes_true]
  rfl

theorem hexDigit_injective : ∀ d < 16, ∀ e < 16, hexadecimal d = hexadecimal e → d = e := by
  decide

/-- Read backwards, a byte's two digits are those of the byte with its halves exchanged. -/
theorem hexByte_reverse_iff (b : UInt8) :
    (hexByte b).reverse = hexByte b ↔ b.toNat / 16 = b.toNat % 16 := by
  have hb := b.toNat_lt
  have hh : b.toNat / 16 < 16 := by omega
  have hl : b.toNat % 16 < 16 := by omega
  have hrev : (hexByte b).reverse = hexadecimal (b.toNat % 16) ++ hexadecimal (b.toNat / 16) := by
    rw [hexByte_eq, hexadecimal, hexadecimal, numeral_of_lt hh, numeral_of_lt hl]
    rfl
  rw [hrev, hexByte_eq]
  constructor
  · intro h
    have heq := (List.append_inj h (by rw [hexDigit_length hl, hexDigit_length hh])).2
    exact hexDigit_injective _ hh _ hl heq
  · intro h
    rw [h]

/-- The digits of a byte string read backwards are those of the reversed byte string exactly when
the halves of each byte are equal. -/
theorem hex_reverse_iff (bs : List UInt8) :
    (hex bs).reverse = hex bs.reverse ↔ ∀ b ∈ bs, b.toNat / 16 = b.toNat % 16 := by
  induction bs with
  | nil => simp [hex]
  | cons b bs ih =>
    have hone : hex [b] = hexByte b := List.append_nil _
    rw [hex_cons, List.reverse_append, List.reverse_cons, hex_append, hone, List.forall_mem_cons,
      ← ih, ← hexByte_reverse_iff]
    constructor
    · intro h
      exact (List.append_inj h (by simp)).symm
    · rintro ⟨hb, hbs⟩
      rw [hb, hbs]

/-- A text that is built up in an array, with all stores into arrays: the characters stored, their
NUL included, and the characters there is room for. -/
structure Built where
  text : Text
  stores : List (Nat × Nat)

namespace Built

def Fits (w : Built) : Prop := ∀ a ∈ w.stores, a.1 ≤ a.2

/-- `strcpy`, or `sprintf`, into an array of `room` characters. -/
def copy (room : Nat) (t : Text) : Built := ⟨t, [(t.length + 1, room)]⟩

/-- `strcat` -/
def cat (room : Nat) (w : Built) (t : Text) : Built :=
  ⟨w.text ++ t, w.stores ++ [((w.text ++ t).length + 1, room)]⟩

/-- One after the other, `n` pieces are formatted in an array of `pieceRoom` characters and
appended to the text. -/
def catEach (pieceRoom room : Nat) (piece : Nat → Text) (n : Nat) (w : Built) : Built :=
  (List.range n).foldl (fun w i =>
    cat room { w with stores := w.stores ++ [((piece i).length + 1, pieceRoom)] } (piece i)) w

variable {pieceRoom room n : Nat} {piece : Nat → Text} {w : Built}

theorem catEach_succ : catEach pieceRoom room piece (n + 1) w =
    cat room { catEach pieceRoom room piece n w with
      stores := (catEach pieceRoom room piece n w).stores ++ [((piece n).length + 1, pieceRoom)] }
      (piece n) := by
  rw [catEach, List.range_succ, List.foldl_append]
  rfl

theorem catEach_text :
    (catEach pieceRoom room piece n w).text = w.text ++ (List.range n).flatMap piece := by
  induction n with
  | zero => exact (List.append_nil _).symm
  | succ n ih =>
    rw [catEach_succ, cat, ih, List.range_succ, List.flatMap_append, List.append_assoc,
      List.flatMap_singleton]

theorem catEach_succ_fits : (catEach pieceRoom room piece (n + 1) w).Fits ↔
    (catEach pieceRoom room piece n w).Fits ∧ (piece n).length + 1 ≤ pieceRoom ∧
      (catEach pieceRoom room piece (n + 1) w).text.length + 1 ≤ room := by
  rw [catEach_succ]
  unfold Fits cat
  simp only [List.forall_mem_append, List.forall_mem_singleton, and_assoc]

theorem copy_fits {t : Text} : (copy room t).Fits ↔ t.length + 1 ≤ room :=
  List.forall_mem_singleton

theorem cat_fits {t : Text} :
    (cat room w t).Fits ↔ w.Fits ∧ (cat room w t).text.length + 1 ≤ room := by
  unfold Fits cat
  rw [List.forall_mem_append, List.forall_mem_singleton]

/-- The text only grows, so it fits all the time when it fits at the end. -/
theorem catEach_fits_iff (hpiece : ∀ i < n, (piece i).length + 1 ≤ pieceRoom)
    (hw : w.Fits → w.text.length + 1 ≤ room) :
    (catEach pieceRoom room piece n w).Fits ↔
      w.Fits ∧ (catEach pieceRoom room piece n w).text.length + 1 ≤ room := by
  induction n with
  | zero => exact ⟨fun h => ⟨h, hw h⟩, fun h => h.1⟩
  | succ n ih =>
    have hprev := ih (fun i hi => hpiece i (Nat.lt_succ_of_lt hi))
    have hlast := hpiece n (Nat.lt_succ_self n)
    have hgrow : (catEach pieceRoom room piece n w).text.length ≤
        (catEach pieceRoom room piece (n + 1) w).text.length := by
      rw [catEach_succ, cat, List.length_append]
      exact Nat.le_add_right _ _
    rw [catEach_succ_fits, hprev]
    constructor
    · rintro ⟨⟨hfits, _⟩, _, hle⟩
      exact ⟨hfits, hle⟩
    · rintro ⟨hfits, hle⟩
      exact ⟨⟨hfits, by omega⟩, hlast, hle⟩

theorem copy_catEach_fits_iff {t : Text} (hpiece : ∀ i < n, (piece i).length + 1 ≤ pieceRoom) :
    (catEach pieceRoom room piece n (copy room t)).Fits ↔
      (catEach pieceRoom room piece n (copy room t)).text.length + 1 ≤ room := by
  rw [catEach_fits_iff hpiece copy_fits.mp, copy_fits]
  have hgrow : t.length ≤ (catEach pieceRoom room piece n (copy room t)).text.length := by
    rw [catEach_text, List.length_append]
    exact Nat.le_add_right _ _
  constructor
  · intro h
    exact h.2
  · intro h
    exact ⟨by omega, h⟩

end Built

end Printf
