import Mathlib.Algebra.Group.Nat.Defs
import Mathlib.Tactic.Common

namespace ByteStream

def toLE : Nat → Nat → List UInt8
  | 0, _ => []
  | k + 1, n => UInt8.ofNat n :: toLE k (n / 256)

def ofLE : List UInt8 → Nat
  | [] => 0
  | b :: bs => b.toNat + 256 * ofLE bs

@[simp] theorem toLE_length (k n : Nat) : (toLE k n).length = k := by
  induction k generalizing n with
  | zero => rfl
  | succ k ih => simp [toLE, ih]

theorem ofLE_lt (bs : List UInt8) : ofLE bs < 256 ^ bs.length := by
  induction bs with
  | nil => simp [ofLE]
  | cons b bs ih =>
    have hb := b.toNat_lt
    simp only [ofLE, List.length_cons, Nat.pow_succ]
    omega

theorem ofLE_toLE {k n : Nat} (h : n < 256 ^ k) : ofLE (toLE k n) = n := by
  induction k generalizing n with
  | zero => simp only [Nat.pow_zero] at h; simp only [toLE, ofLE]; omega
  | succ k ih =>
    have hd : n / 256 < 256 ^ k := by rw [Nat.pow_succ] at h; omega
    simp only [toLE, ofLE, ih hd, UInt8.toNat_ofNat']
    omega

theorem toLE_ofLE (bs : List UInt8) : toLE bs.length (ofLE bs) = bs := by
  induction bs with
  | nil => rfl
  | cons b bs ih =>
    have hb := b.toNat_lt
    have hhead : UInt8.ofNat (b.toNat + 256 * ofLE bs) = b := by
      apply UInt8.toNat_inj.mp
      rw [UInt8.toNat_ofNat']
      omega
    have htail : (b.toNat + 256 * ofLE bs) / 256 = ofLE bs := by omega
    simp only [List.length_cons, toLE, ofLE, hhead, htail, ih]

/-- An unsigned machine integer of `width` bytes. -/
class Word (α : Type) where
  width : Nat
  toNat : α → Nat
  ofNat : Nat → α
  toNat_lt : ∀ a, toNat a < 256 ^ width
  ofNat_toNat : ∀ a, ofNat (toNat a) = a
  toNat_ofNat : ∀ n, n < 256 ^ width → toNat (ofNat n) = n

instance : Word UInt16 where
  width := 2
  toNat := UInt16.toNat
  ofNat := UInt16.ofNat
  toNat_lt := UInt16.toNat_lt
  ofNat_toNat _ := UInt16.ofNat_toNat
  toNat_ofNat n h := by rw [UInt16.toNat_ofNat']; exact Nat.mod_eq_of_lt h

instance : Word UInt32 where
  width := 4
  toNat := UInt32.toNat
  ofNat := UInt32.ofNat
  toNat_lt := UInt32.toNat_lt
  ofNat_toNat _ := UInt32.ofNat_toNat
  toNat_ofNat n h := by rw [UInt32.toNat_ofNat']; exact Nat.mod_eq_of_lt h

instance : Word UInt64 where
  width := 8
  toNat := UInt64.toNat
  ofNat := UInt64.ofNat
  toNat_lt := UInt64.toNat_lt
  ofNat_toNat _ := UInt64.ofNat_toNat
  toNat_ofNat n h := by rw [UInt64.toNat_ofNat']; exact Nat.mod_eq_of_lt h

@[simp] theorem width_uint16 : Word.width UInt16 = 2 := rfl
@[simp] theorem width_uint32 : Word.width UInt32 = 4 := rfl
@[simp] theorem width_uint64 : Word.width UInt64 = 8 := rfl

variable {α : Type} [Word α]

/-- The object representation of an integer on a little-endian host. -/
def nativeBytes (a : α) : List UInt8 := toLE (Word.width α) (Word.toNat a)

def ofNative (bs : List UInt8) : α := Word.ofNat (ofLE bs)

@[simp] theorem nativeBytes_length (a : α) : (nativeBytes a).length = Word.width α :=
  toLE_length _ _

theorem ofNative_nativeBytes (a : α) : ofNative (nativeBytes a) = a := by
  rw [ofNative, nativeBytes, ofLE_toLE (Word.toNat_lt a), Word.ofNat_toNat]

theorem nativeBytes_ofNative {bs : List UInt8} (h : bs.length = Word.width α) :
    nativeBytes (ofNative bs : α) = bs := by
  have hlt : ofLE bs < 256 ^ Word.width α := h ▸ ofLE_lt bs
  rw [nativeBytes, ofNative, Word.toNat_ofNat _ hlt, ← h, toLE_ofLE]

def bswap (a : α) : α := ofNative (nativeBytes a).reverse

theorem nativeBytes_bswap (a : α) : nativeBytes (bswap a) = (nativeBytes a).reverse :=
  nativeBytes_ofNative (by simp)

theorem bswap_bswap (a : α) : bswap (bswap a) = a := by
  rw [bswap, nativeBytes_bswap, List.reverse_reverse, ofNative_nativeBytes]

/-- The bytes of `a` in transmission order: most significant first when `swap` is set. -/
def wordBytes (swap : Bool) (a : α) : List UInt8 :=
  nativeBytes (if swap then bswap a else a)

@[simp] theorem wordBytes_length (swap : Bool) (a : α) :
    (wordBytes swap a).length = Word.width α := nativeBytes_length _

theorem wordBytes_true (a : α) : wordBytes true a = (nativeBytes a).reverse := by
  simp [wordBytes, nativeBytes_bswap]

theorem exists_wordBytes (swap : Bool) {bs : List UInt8} (h : bs.length = Word.width α) :
    ∃ a : α, wordBytes swap a = bs := by
  cases swap with
  | false => exact ⟨ofNative bs, nativeBytes_ofNative h⟩
  | true =>
    refine ⟨ofNative bs.reverse, ?_⟩
    rw [wordBytes_true, nativeBytes_ofNative (by simpa using h), List.reverse_reverse]

end ByteStream
