import VehicleCloud.Writer
import Mathlib.Data.List.TakeDrop

namespace ByteStream

/-- What `s.c_str()` points at: the bytes of `s`, a NUL, then whatever follows. -/
def cstr (s : List UInt8) (past : Mem) : Mem := fun i =>
  if h : i < s.length then s[i] else if i = s.length then 0 else past i

/-- `strncpy` into an array of `n` bytes. -/
def strncpy (n : Nat) (s : List UInt8) : Vector UInt8 n :=
  ⟨((s.takeWhile (· ≠ 0)).takeD n 0).toArray, by simp [List.takeD_length]⟩

/-- An array of `n` zero bytes after `memcpy` of at most `n` bytes of `v` into it. -/
def memcpyArray (n : Nat) (v : List UInt8) : Vector UInt8 n :=
  ⟨(v.takeD n 0).toArray, by simp [List.takeD_length]⟩

def zeros (n : Nat) : Vector UInt8 n := ⟨(List.replicate n 0).toArray, by simp⟩

/-- `memcpy` of `len` bytes from `s.c_str()`. -/
def Writer.copy (len : Nat) (s : List UInt8) (past : Mem) : Writer Unit := do
  Writer.fetch len (s.length + 1)
  Writer.bytes (slice (cstr s past) 0 len)

theorem Writer.emits_copy (len : Nat) (s : List UInt8) (past : Mem) :
    (Writer.copy len s past).Emits (slice (cstr s past) 0 len) [(len, s.length + 1)] :=
  Writer.emits_fetch (Writer.emits_bytes _)

theorem cstr_slice (s : List UInt8) (past : Mem) : slice (cstr s past) 0 s.length = s := by
  apply List.ext_getElem (by simp)
  intro i hi hs
  simp [slice, cstr, hs]

theorem cstr_slice_of_le {s : List UInt8} {n : Nat} (past : Mem) (h : n ≤ s.length + 1) :
    slice (cstr s past) 0 n = (s ++ [0]).take n := by
  apply List.ext_getElem (by simp; omega)
  intro i hi _
  have hn : i < n := by simpa using hi
  by_cases hs : i < s.length
  · simp [slice, cstr, hs, List.getElem_append_left hs]
  · have he : i = s.length := by omega
    subst he
    simp [slice, cstr]

/-- Two copies agree, whatever follows the string, as long as they end with its NUL. -/
theorem cstr_slice_const_iff {s : List UInt8} {n : Nat} :
    (∀ past past', slice (cstr s past) 0 n = slice (cstr s past') 0 n) ↔ n ≤ s.length + 1 := by
  constructor
  · intro h
    by_contra hlt
    have hi : s.length + 1 < n := by omega
    have hn : ¬s.length + 1 < s.length := by omega
    have he := congrArg (·[s.length + 1]?) (h (fun _ => 0) fun _ => 1)
    simp [slice, cstr, hi, hn] at he
  · intro h past past'
    rw [cstr_slice_of_le past h, cstr_slice_of_le past' h]

/-- A copy is independent of what follows the string exactly up to the NUL. -/
theorem cstr_slice_forall {s t : List UInt8} :
    (∀ past, slice (cstr s past) 0 t.length = t) ↔ t <+: s ++ [0] := by
  constructor
  · intro h
    have hle : t.length ≤ s.length + 1 := by
      by_contra hlt
      have hi : s.length + 1 < t.length := by omega
      have hval : ∀ past : Mem, past (s.length + 1) = t[s.length + 1] := by
        intro past
        have he := congrArg (·[s.length + 1]?) (h past)
        have hn : ¬s.length + 1 < s.length := by omega
        simpa [slice, cstr, hi, hn] using he
      have h0 := hval (fun _ => 0)
      have h1 := hval (fun _ => 1)
      exact absurd (h0.trans h1.symm) (by decide)
    rw [← h (fun _ => 0), cstr_slice_of_le _ hle]
    exact List.take_prefix _ _
  · intro h past
    have hle : t.length ≤ s.length + 1 := by simpa using h.length_le
    rw [cstr_slice_of_le past hle]
    exact (List.prefix_iff_eq_take.mp h).symm

end ByteStream
