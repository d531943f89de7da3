import VehicleCloud.Converter
import Mathlib.Data.List.GetD
import Mathlib.Data.List.TakeWhile

namespace VehicleCloud

open ByteStream Printf

/-- What the target array holds, and the indices stored to so far. -/
structure Target where
  mem : Mem
  writes : List Nat

namespace Target

def put (t : Target) (i : Nat) (b : UInt8) : Target :=
  ⟨fun j => if j = i then b else t.mem j, t.writes ++ [i]⟩

def memset (t : Target) (b : UInt8) (n : Nat) : Target :=
  (List.range n).foldl (fun t i => t.put i b) t

end Target

/-- `atoi(&c)`, taken as the value of the one character. -/
def atoi (c : UInt8) : UInt8 := if 48 ≤ c ∧ c ≤ 57 then c - 48 else 0

/-- A `size_t` stored in an `int` and compared as a `size_t` again. -/
def throughInt (k : UInt64) : UInt64 := k.toUInt32.toInt32.toInt64.toUInt64

/-- The loop of `string_to_bcd` from the index `i` on, where `cs` is what is left of the string. -/
def bcdLoop (size len : UInt64) : List UInt8 → UInt64 → Target → Target
  | [], _, t => t
  | c :: cs, i, t =>
    let k := (2 * size - len + i) / 2
    if throughInt k ≥ size then t
    else
      let shift := 4 * ((if len % 2 = 0 then i + 1 else i) % 2)
      let b := t.mem k.toNat ||| atoi c <<< shift.toUInt8
      bcdLoop size len cs (i + 1) (t.put k.toNat b)

def string_to_bcd (s : Text) (bcd : Mem) (size : UInt64) : Target :=
  bcdLoop size (UInt64.ofNat (str s).length) (str s) 0 (Target.memset ⟨bcd, []⟩ 0 size.toNat)

theorem throughInt_toNat (k : UInt64) : (throughInt k).toNat =
    if k.toNat % 2 ^ 32 < 2 ^ 31 then k.toNat % 2 ^ 32
    else k.toNat % 2 ^ 32 + (2 ^ 64 - 2 ^ 32) := by
  have hb : (throughInt k).toBitVec = (k.toBitVec.setWidth 32).signExtend 64 := rfl
  rw [← UInt64.toNat_toBitVec, hb, BitVec.toNat_signExtend]
  simp only [BitVec.toNat_setWidth, BitVec.msb_eq_decide, UInt64.toNat_toBitVec,
    decide_eq_true_eq]
  split <;> split <;> omega

namespace Target

theorem put_mem (t : Target) (i : Nat) (b : UInt8) (j : Nat) :
    (t.put i b).mem j = if j = i then b else t.mem j := rfl

theorem memset_succ (t : Target) (b : UInt8) (n : Nat) :
    t.memset b (n + 1) = (t.memset b n).put n b := by
  rw [memset, List.range_succ, List.foldl_append]
  rfl

theorem memset_mem (t : Target) (b : UInt8) (n j : Nat) :
    (t.memset b n).mem j = if j < n then b else t.mem j := by
  induction n with
  | zero => rfl
  | succ n ih =>
    rw [memset_succ, put_mem, ih]
    split
    next he => rw [if_pos (by omega)]
    next hne =>
      have hiff : j < n ↔ j < n + 1 := by omega
      simp only [hiff]

theorem memset_writes (t : Target) (b : UInt8) (n : Nat) :
    (t.memset b n).writes = t.writes ++ List.range n := by
  induction n with
  | zero => exact (List.append_nil _).symm
  | succ n ih =>
    rw [memset_succ, put, ih, List.range_succ, List.append_assoc]

/-- Only indices below `size` have been stored to, and the others are as in `bcd`. -/
structure Within (t : Target) (bcd : Mem) (size : Nat) : Prop where
  writes : ∀ i ∈ t.writes, i < size
  beyond : ∀ i, size ≤ i → t.mem i = bcd i

theorem within_memset (bcd : Mem) (size : Nat) :
    (Target.memset ⟨bcd, []⟩ 0 size).Within bcd size := by
  constructor
  · intro i hi
    rw [memset_writes] at hi
    exact List.mem_range.mp hi
  · intro i hi
    rw [memset_mem, if_neg (by omega)]

theorem within_put {t : Target} {bcd : Mem} {size i : Nat} (h : t.Within bcd size) (hi : i < size)
    (b : UInt8) : (t.put i b).Within bcd size := by
  constructor
  · intro j hj
    rcases List.mem_append.mp hj with hj | hj
    · exact h.writes j hj
    · rw [List.mem_singleton.mp hj]
      exact hi
  · intro j hj
    rw [put_mem, if_neg (by omega), h.beyond j hj]

end Target

/-- The two halves of each of the first `n` bytes are the digits `ds`, in order and with zeros
where these end. -/
def Nibbles (mem : Mem) (n : Nat) (ds : List Nat) : Prop :=
  ∀ k < n, (mem k).toNat = 16 * ds.getD (2 * k) 0 + ds.getD (2 * k + 1) 0

theorem getD_concat (ds : List Nat) (v j : Nat) :
    (ds ++ [v]).getD j 0 = if j = ds.length then v else ds.getD j 0 := by
  rcases Nat.lt_trichotomy j ds.length with h | h | h
  · rw [if_neg (by omega), List.getD_append _ _ _ _ h]
  · rw [if_pos h, h, List.getD_append_right _ _ _ _ (Nat.le_refl _), Nat.sub_self]
    rfl
  · rw [if_neg (by omega), List.getD_eq_default _ _ (by simp; omega),
      List.getD_eq_default _ _ (by omega)]

theorem or_high {v : UInt8} (hv : v.toNat < 16) : ((0 : UInt8) ||| v <<< 4).toNat = 16 * v.toNat := by
  rw [UInt8.toNat_or, UInt8.toNat_shiftLeft, UInt8.toNat_zero, Nat.zero_or, Nat.shiftLeft_eq]
  have h4 : (4 : UInt8).toNat % 8 = 4 := rfl
  rw [h4]
  omega

theorem or_low {m v : UInt8} {a : Nat} (hm : m.toNat = 16 * a) (hv : v.toNat < 16) :
    (m ||| v <<< 0).toNat = 16 * a + v.toNat := by
  have h0 : (0 : UInt8).toNat % 8 = 0 := rfl
  have hor := Nat.two_pow_add_eq_or_of_lt (i := 4) hv a
  rw [UInt8.toNat_or, UInt8.toNat_shiftLeft, h0, Nat.shiftLeft_zero, Nat.mod_eq_of_lt v.toNat_lt,
    hm]
  exact hor.symm

/-- Storing the next digit: in the upper half of a byte that is still zero, or in the lower half
beside the digit before. -/
theorem nibbles_put {t : Target} {n : Nat} {ds : List Nat} {v : UInt8} (h : Nibbles t.mem n ds)
    (hlt : ds.length < 2 * n) (hv : v.toNat < 16) {shift : UInt8}
    (hshift : shift = if ds.length % 2 = 0 then 4 else 0) :
    Nibbles (t.put (ds.length / 2) (t.mem (ds.length / 2) ||| v <<< shift)).mem n
      (ds ++ [v.toNat]) := by
  intro k hk
  rw [Target.put_mem, getD_concat, getD_concat]
  have hbyte := h (ds.length / 2) (by omega)
  split
  next hk' =>
    rcases Nat.mod_two_eq_zero_or_one ds.length with heven | hodd
    · rw [if_pos heven] at hshift
      have hzero : t.mem (ds.length / 2) = 0 := by
        rw [List.getD_eq_default _ _ (by omega), List.getD_eq_default _ _ (by omega)] at hbyte
        exact UInt8.toNat_inj.mp hbyte
      rw [hzero, hshift, or_high hv, if_pos (by omega), if_neg (by omega),
        List.getD_eq_default _ _ (by omega)]
      rfl
    · rw [if_neg (by omega)] at hshift
      have hend : ds.getD (2 * (ds.length / 2) + 1) 0 = 0 := List.getD_eq_default _ _ (by omega)
      rw [hend, Nat.add_zero] at hbyte
      rw [hshift, or_low hbyte hv, if_neg (by omega), if_pos (by omega), hk']
  next hne =>
    rw [h k hk, if_neg (by omega), if_neg (by omega)]

/-- The decimal digits that `atoi` reads one by one. -/
def Digits (s : Text) : Prop := ∀ c ∈ s, 48 ≤ c ∧ c ≤ 57

instance (s : Text) : Decidable (Digits s) :=
  List.decidableBAll (fun c => 48 ≤ c ∧ c ≤ 57) s

theorem atoi_lt (c : UInt8) : (atoi c).toNat < 16 := by
  unfold atoi
  split
  next h =>
    have h1 := UInt8.le_iff_toNat_le.mp h.1
    have h2 := UInt8.le_iff_toNat_le.mp h.2
    rw [UInt8.toNat_sub_of_le _ _ h.1]
    simp only [UInt8.reduceToNat] at h1 h2 ⊢
    omega
  next => decide

theorem hexadecimal_decimal_digit : ∀ d < 10, hexadecimal d = [UInt8.ofNat (48 + d)] := by decide

theorem hexadecimal_atoi {c : UInt8} (h : 48 ≤ c ∧ c ≤ 57) : hexadecimal (atoi c).toNat = [c] := by
  have h1 := UInt8.le_iff_toNat_le.mp h.1
  have h2 := UInt8.le_iff_toNat_le.mp h.2
  simp only [UInt8.reduceToNat] at h1 h2
  have hv : (atoi c).toNat = c.toNat - 48 := by
    rw [atoi, if_pos h, UInt8.toNat_sub_of_le _ _ h.1]
    rfl
  have hc : 48 + (c.toNat - 48) = c.toNat := by omega
  rw [hv, hexadecimal_decimal_digit _ (by omega), hc, UInt8.ofNat_toNat]

theorem str_of_digits {s : Text} (hs : Digits s) : str s = s := by
  apply List.takeWhile_eq_self_iff.mpr
  intro c hc
  have h := (hs c hc).1
  have hne : c ≠ 0 := by
    rintro rfl
    revert h
    decide
  simpa using hne

section

variable {size len : UInt64} {bcd : Mem}

/-- The parity of the string's length turns that of the index into that of the digit's place. -/
theorem bcdShift_eq {i : UInt64} {p : Nat} (hp : p + len.toNat = 2 * size.toNat + i.toNat) :
    (4 * ((if len % 2 = 0 then i + 1 else i) % 2)).toUInt8 = if p % 2 = 0 then 4 else 0 := by
  have heven : len % 2 = 0 ↔ len.toNat % 2 = 0 := by
    rw [← UInt64.toNat_inj, UInt64.toNat_mod]
    rfl
  have hbit : (if len % 2 = 0 then i + 1 else i) % 2 = if p % 2 = 0 then 1 else 0 := by
    apply UInt64.toNat_inj.mp
    rw [UInt64.toNat_mod]
    split <;> split <;> simp only [heven, UInt64.toNat_add, UInt64.reduceToNat] at * <;> omega
  rw [hbit]
  split <;> rfl

/-- While the digits fit, one round of the loop stores the next one in its place. -/
theorem bcdLoop_cons (hsize : size.toNat < 2 ^ 31) (hlen : len.toNat ≤ 2 * size.toNat) {c : UInt8}
    {cs : List UInt8} {i : UInt64} {t : Target} {p : Nat}
    (hp : p + len.toNat = 2 * size.toNat + i.toNat) (hlt : p < 2 * size.toNat) :
    bcdLoop size len (c :: cs) i t = bcdLoop size len cs (i + 1)
      (t.put (p / 2) (t.mem (p / 2) ||| atoi c <<< (if p % 2 = 0 then 4 else 0))) := by
  have h2 : (2 : UInt64).toNat = 2 := rfl
  have hk : ((2 * size - len + i) / 2).toNat = p / 2 := by
    rw [UInt64.toNat_div, UInt64.toNat_add, UInt64.toNat_sub, UInt64.toNat_mul, h2]
    omega
  have hin : ¬throughInt ((2 * size - len + i) / 2) ≥ size := by
    rw [ge_iff_le, UInt64.le_iff_toNat_le, throughInt_toNat, hk, if_pos (by omega)]
    omega
  rw [bcdLoop, if_neg hin, hk]
  dsimp only
  rw [bcdShift_eq hp]

/-- While the digits fit, the loop appends them to those that are there. -/
theorem bcdLoop_nibbles (hsize : size.toNat < 2 ^ 31) (hlen : len.toNat ≤ 2 * size.toNat)
    {cs : List UInt8} {i : UInt64} {t : Target} {ds : List Nat} (ht : t.Within bcd size.toNat)
    (hn : Nibbles t.mem size.toNat ds) (hp : ds.length + len.toNat = 2 * size.toNat + i.toNat)
    (hend : ds.length + cs.length = 2 * size.toNat) :
    (bcdLoop size len cs i t).Within bcd size.toNat ∧
      Nibbles (bcdLoop size len cs i t).mem size.toNat (ds ++ cs.map fun c => (atoi c).toNat) := by
  induction cs generalizing i t ds with
  | nil => exact ⟨ht, by simpa [bcdLoop] using hn⟩
  | cons c cs ih =>
    rw [List.length_cons] at hend
    have hnext : (i + 1).toNat = i.toNat + 1 := by
      rw [UInt64.toNat_add]
      simp only [UInt64.reduceToNat]
      omega
    rw [bcdLoop_cons hsize hlen hp (by omega), List.map_cons, ← List.singleton_append,
      ← List.append_assoc]
    apply ih
    · exact Target.within_put ht (by omega) _
    · exact nibbles_put hn (by omega) (atoi_lt c) rfl
    · rw [List.length_append, List.length_singleton, hnext]
      omega
    · rw [List.length_append, List.length_singleton]
      omega

/-- A string that is too long wraps the first index, which the range test on the `int` finds. -/
theorem bcdLoop_of_long (hsize : size.toNat < 2 ^ 31) (hlen : len.toNat < 2 ^ 31)
    (hlong : 2 * size.toNat < len.toNat) (cs : List UInt8) (t : Target) :
    bcdLoop size len cs 0 t = t := by
  cases cs with
  | nil => rfl
  | cons c cs =>
    have h2 : (2 : UInt64).toNat = 2 := rfl
    have hk : ((2 * size - len + 0) / 2).toNat =
        (2 ^ 64 - (len.toNat - 2 * size.toNat)) / 2 := by
      rw [UInt64.add_zero, UInt64.toNat_div, UInt64.toNat_sub, UInt64.toNat_mul, h2]
      omega
    have hout : throughInt ((2 * size - len + 0) / 2) ≥ size := by
      rw [ge_iff_le, UInt64.le_iff_toNat_le, throughInt_toNat, hk, if_neg (by omega)]
      omega
    rw [bcdLoop, if_pos hout]

end

/-- The two digits of each byte are the nibbles in order. -/
theorem hex_of_nibbles {mem : Mem} {o n : Nat} {ds : List Nat}
    (h : Nibbles (fun k => mem (o + k)) n ds) (hl : ds.length = 2 * n) (hlt : ∀ d ∈ ds, d < 16) :
    hex (slice mem o n) = ds.flatMap hexadecimal := by
  induction n generalizing o ds with
  | zero => rw [List.length_eq_zero_iff.mp hl]; rfl
  | succ n ih =>
    obtain ⟨a, b, rest, rfl⟩ : ∃ a b rest, ds = a :: b :: rest := by
      match ds, hl with
      | a :: b :: rest, _ => exact ⟨a, b, rest, rfl⟩
    have ha : a < 16 := hlt a (by simp)
    have hb : b < 16 := hlt b (by simp)
    have hfirst : (mem o).toNat = 16 * a + b := h 0 (Nat.succ_pos n)
    have hrest : Nibbles (fun k => mem (o + 1 + k)) n rest := by
      intro k hk
      have hnext : (mem (o + (k + 1))).toNat = 16 * rest.getD (2 * k) 0 + rest.getD (2 * k + 1) 0 :=
        h (k + 1) (by omega)
      rw [show o + (k + 1) = o + 1 + k by omega] at hnext
      exact hnext
    have hhigh : (16 * a + b) / 16 = a := by omega
    have hlow : (16 * a + b) % 16 = b := by omega
    have hstep := ih hrest (by simp at hl; omega) (fun d hd => hlt d (by simp [hd]))
    rw [Nat.add_comm n 1, slice_add, hex_append, hstep]
    have hone : hex (slice mem o 1) = hexadecimal a ++ hexadecimal b := by
      have hdigits := hexByte_eq (mem o)
      rw [hfirst, hhigh, hlow] at hdigits
      exact (List.append_nil _).trans hdigits
    rw [hone, List.append_assoc]
    rfl

theorem padZero_eq_flatMap {s : Text} (hs : Digits s) (n : Nat) :
    (List.replicate (n - s.length) 0 ++ s.map fun c => (atoi c).toNat).flatMap hexadecimal =
      padZero n s := by
  have hdigits : (s.map fun c => (atoi c).toNat).flatMap hexadecimal = s := by
    rw [List.flatMap_map]
    induction s with
    | nil => rfl
    | cons c s ih =>
      rw [List.flatMap_cons, hexadecimal_atoi (hs c List.mem_cons_self),
        ih fun d hd => hs d (List.mem_cons_of_mem c hd)]
      rfl
  have hzeros : (List.replicate (n - s.length) 0).flatMap hexadecimal =
      List.replicate (n - s.length) 48 := by
    induction n - s.length with
    | zero => rfl
    | succ m ih => rw [List.replicate_succ, List.flatMap_cons, ih]; rfl
  rw [List.flatMap_append, hdigits, hzeros]
  rfl

/-- A string of decimal digits comes out right-aligned and padded with zeros; one that is too
long leaves the target zero. -/
theorem string_to_bcd_right_aligned (s : Text) (bcd : Mem) (size : UInt64) (room : Nat)
    (hs : Digits s) (hl : s.length < 2 ^ 31) (hsize : size.toNat < 2 ^ 31) :
    (string_to_bcd s bcd size).Within bcd size.toNat ∧
    (s.length ≤ 2 * size.toNat →
      (bytes_to_string (string_to_bcd s bcd size).mem size.toNat room).text =
        padZero (2 * size.toNat) s) ∧
    (2 * size.toNat < s.length → ∀ i < size.toNat, (string_to_bcd s bcd size).mem i = 0) := by
  have hlen : (UInt64.ofNat s.length).toNat = s.length := by
    rw [UInt64.toNat_ofNat']
    omega
  have hstart := Target.within_memset bcd size.toNat
  have hzero := Target.memset_mem ⟨bcd, []⟩ 0 size.toNat
  rw [string_to_bcd, str_of_digits hs]
  rcases Nat.lt_or_ge (2 * size.toNat) s.length with hlong | hfits
  · rw [bcdLoop_of_long hsize (by omega) (by omega)]
    refine ⟨hstart, fun h => absurd h (by omega), fun _ i hi => ?_⟩
    rw [hzero, if_pos hi]
  · have hnibbles : Nibbles (Target.memset ⟨bcd, []⟩ 0 size.toNat).mem size.toNat
        (List.replicate (2 * size.toNat - s.length) 0) := by
      intro k hk
      rw [hzero, if_pos hk]
      simp
    have hplace : (List.replicate (2 * size.toNat - s.length) 0).length +
        (UInt64.ofNat s.length).toNat = 2 * size.toNat + (0 : UInt64).toNat := by
      rw [List.length_replicate, hlen, UInt64.toNat_zero]
      omega
    have hend : (List.replicate (2 * size.toNat - s.length) 0).length + s.length =
        2 * size.toNat := by
      rw [List.length_replicate]
      omega
    obtain ⟨hwithin, hdone⟩ := bcdLoop_nibbles hsize (by omega) hstart hnibbles hplace hend
    refine ⟨hwithin, fun _ => ?_, fun h => absurd h (by omega)⟩
    rw [bytes_to_string_text, ← padZero_eq_flatMap hs]
    apply hex_of_nibbles
    · simpa using hdone
    · simp
      omega
    · intro d hd
      rcases List.mem_append.mp hd with h | h
      · rw [List.eq_of_mem_replicate h]
        decide
      · obtain ⟨c, _, rfl⟩ := List.mem_map.mp h
        exact atoi_lt c

/-- Three digits in two bytes. -/
theorem string_to_bcd_right_aligned_odd :
    (string_to_bcd (utf8 "123") (fun _ => 7) 2).Within (fun _ => 7) 2 ∧
    ((utf8 "123").length ≤ 2 * 2 →
      (bytes_to_string (string_to_bcd (utf8 "123") (fun _ => 7) 2).mem 2 5).text =
        padZero (2 * 2) (utf8 "123")) ∧
    (2 * 2 < (utf8 "123").length →
      ∀ i < 2, (string_to_bcd (utf8 "123") (fun _ => 7) 2).mem i = 0) :=
  string_to_bcd_right_aligned (utf8 "123") (fun _ => 7) 2 5 (by decide) (by decide) (by decide)

end VehicleCloud
