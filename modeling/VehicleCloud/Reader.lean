import VehicleCloud.WordBytes

namespace ByteStream

/-- What the addresses from a pointer on hold, inside its buffer and past it. -/
abbrev Mem := Nat → UInt8

def slice (mem : Mem) (o n : Nat) : List UInt8 := (List.range' o n).map mem

@[simp] theorem slice_length (mem : Mem) (o n : Nat) : (slice mem o n).length = n := by
  simp [slice]

@[simp] theorem slice_zero (mem : Mem) (o : Nat) : slice mem o 0 = [] := rfl

theorem slice_add (mem : Mem) (o m n : Nat) :
    slice mem o (m + n) = slice mem o m ++ slice mem (o + m) n := by
  simp only [slice, ← List.map_append]
  rw [← List.range'_append, Nat.one_mul]

def Holds (mem : Mem) (o : Nat) (bs : List UInt8) : Prop := slice mem o bs.length = bs

theorem holds_slice (mem : Mem) (o n : Nat) : Holds mem o (slice mem o n) := by
  simp [Holds]

theorem holds_append {mem : Mem} {o : Nat} {xs ys : List UInt8} :
    Holds mem o (xs ++ ys) ↔ Holds mem o xs ∧ Holds mem (o + xs.length) ys := by
  unfold Holds
  rw [List.length_append, slice_add]
  constructor
  · intro h
    exact List.append_inj h (by simp)
  · rintro ⟨hx, hy⟩
    rw [hx, hy]

theorem holds_singleton {mem : Mem} {o : Nat} {b : UInt8} : Holds mem o [b] ↔ mem o = b := by
  simp [Holds, slice]

theorem holds_unique {mem : Mem} {o : Nat} {xs ys : List UInt8} (hx : Holds mem o xs)
    (hy : Holds mem o ys) (hl : xs.length = ys.length) : xs = ys := by
  rw [Holds, hl] at hx
  exact hx.symm.trans hy

theorem holds_iff_getElem {mem : Mem} {o : Nat} {bs : List UInt8} :
    Holds mem o bs ↔ ∀ (i : Nat) (hi : i < bs.length), mem (o + i) = bs[i] := by
  unfold Holds
  constructor
  · intro h i hi
    have hget := congrArg (fun xs => xs[i]?) h
    simpa [slice, hi] using hget
  · intro h
    apply List.ext_getElem (by simp)
    intro i _ hi
    simpa [slice] using h i hi

/-- Only the addresses of the bytes matter. -/
theorem Holds.of_agree {mem mem' : Mem} {bs : List UInt8} {n : Nat} (h : Holds mem 0 bs)
    (hl : bs.length ≤ n) (hagree : ∀ i < n, mem' i = mem i) : Holds mem' 0 bs := by
  rw [holds_iff_getElem] at h ⊢
  intro i hi
  have hget := h i hi
  simp only [Nat.zero_add] at hget ⊢
  rw [hagree i (by omega), hget]

/-- Memory that starts with the bytes `bs` and goes on with `past`. -/
def Mem.ofBytes (bs : List UInt8) (past : Mem) : Mem := fun i =>
  if h : i < bs.length then bs[i] else past i

theorem holds_ofBytes (bs : List UInt8) (past : Mem) : Holds (Mem.ofBytes bs past) 0 bs := by
  apply List.ext_getElem (by simp)
  intro i _ hi
  simp [slice, Mem.ofBytes, hi]

/-- The value a read returned, where it left the offset, and the indices it touched. -/
structure Read (α : Type) where
  value : α
  offset : Nat
  reads : List Nat

def Reader (α : Type) := Mem → Nat → Read α

namespace Reader

variable {α β : Type}

instance : Monad Reader where
  pure a := fun _ o => ⟨a, o, []⟩
  bind r f := fun mem o =>
    let x := r mem o
    let y := f x.value mem x.offset
    ⟨y.value, y.offset, x.reads ++ y.reads⟩

@[simp] theorem pure_run (a : α) (mem : Mem) (o : Nat) :
    (pure a : Reader α) mem o = ⟨a, o, []⟩ := rfl

@[simp] theorem bind_run (r : Reader α) (f : α → Reader β) (mem : Mem) (o : Nat) :
    (r >>= f) mem o =
      ⟨(f (r mem o).value mem (r mem o).offset).value,
       (f (r mem o).value mem (r mem o).offset).offset,
       (r mem o).reads ++ (f (r mem o).value mem (r mem o).offset).reads⟩ := rfl

def seek (o : Nat) : Reader Unit := fun _ _ => ⟨(), o, []⟩

def peek (i : Nat) : Reader UInt8 := fun mem o => ⟨mem i, o, [i]⟩

def byte : Reader UInt8 := fun mem o => ⟨mem o, o + 1, [o]⟩

def bytes (n : Nat) : Reader (List UInt8) := fun mem o =>
  ⟨slice mem o n, o + n, List.range' o n⟩

def array (n : Nat) : Reader (Vector UInt8 n) := fun mem o =>
  ⟨⟨(slice mem o n).toArray, by simp⟩, o + n, List.range' o n⟩

def word [Word α] (swap : Bool) : Reader α := fun mem o =>
  let v : α := ofNative (slice mem o (Word.width α))
  ⟨if swap then bswap v else v, o + Word.width α, List.range' o (Word.width α)⟩

@[simp] theorem seek_run (k : Nat) (mem : Mem) (o : Nat) : seek k mem o = ⟨(), k, []⟩ := rfl

@[simp] theorem peek_run (i : Nat) (mem : Mem) (o : Nat) : peek i mem o = ⟨mem i, o, [i]⟩ := rfl

/-- Wherever the bytes `bs` stand, `r` reads exactly them and returns `a`. -/
def Yields (r : Reader α) (bs : List UInt8) (a : α) : Prop :=
  ∀ mem o, Holds mem o bs → r mem o = ⟨a, o + bs.length, List.range' o bs.length⟩

theorem Yields.unique {r : Reader α} {bs : List UInt8} {a b : α} (ha : r.Yields bs a)
    (hb : r.Yields bs b) : a = b := by
  have hm := holds_ofBytes bs fun _ => 0
  have hr := (ha _ 0 hm).symm.trans (hb _ 0 hm)
  exact congrArg Read.value hr

theorem yields_pure (a : α) : Yields (pure a) [] a := by
  intro mem o _
  simp

theorem yields_bind {r : Reader α} {f : α → Reader β} {xs ys : List UInt8} {a : α} {b : β}
    (hr : Yields r xs a) (hf : Yields (f a) ys b) : Yields (r >>= f) (xs ++ ys) b := by
  intro mem o h
  obtain ⟨hx, hy⟩ := holds_append.mp h
  rw [bind_run, hr mem o hx, hf mem _ hy]
  simp only [List.length_append, ← List.range'_append, Nat.one_mul, Nat.add_assoc]

theorem yields_last {r : Reader α} {f : α → Reader β} {xs : List UInt8} {a : α} {b : β}
    (hr : Yields r xs a) (hf : Yields (f a) [] b) : Yields (r >>= f) xs b := by
  simpa only [List.append_nil] using yields_bind hr hf

/-- The rule for a field: the layout is the list of the fields' bytes. -/
theorem yields_field {r : Reader α} {f : α → Reader β} {xs : List UInt8}
    {rest : List (List UInt8)} {a : α} {b : β}
    (hr : Yields r xs a) (hf : Yields (f a) rest.flatten b) :
    Yields (r >>= f) (xs :: rest).flatten b := yields_bind hr hf

theorem yields_byte (b : UInt8) : Yields byte [b] b := by
  intro mem o h
  simp [byte, holds_singleton.mp h]

theorem yields_bytes (bs : List UInt8) : Yields (bytes bs.length) bs bs := by
  intro mem o h
  simp [bytes, show slice mem o bs.length = bs from h]

theorem yields_array {n : Nat} (v : Vector UInt8 n) : Yields (array n) v.toList v := by
  intro mem o h
  have hs : slice mem o n = v.toList := by simpa [Holds] using h
  simp [array, hs, Vector.toList]

theorem yields_word [Word α] (swap : Bool) (a : α) :
    Yields (word swap) (wordBytes swap a) a := by
  intro mem o h
  have hs : slice mem o (Word.width α) = wordBytes swap a := by simpa [Holds] using h
  cases swap <;> simp [word, hs, wordBytes, ofNative_nativeBytes, bswap_bswap]

/-- Whatever memory holds, `r` reads one contiguous run of bytes at its offset,
and these bytes stand in the relation `P` to the value it returns. -/
def Scans (r : Reader α) (P : List UInt8 → α → Prop) : Prop :=
  ∀ mem o, ∃ bs a, Holds mem o bs ∧ P bs a ∧
    r mem o = ⟨a, o + bs.length, List.range' o bs.length⟩

theorem Scans.imp {r : Reader α} {P Q : List UInt8 → α → Prop} (h : Scans r P)
    (hpq : ∀ bs a, P bs a → Q bs a) : Scans r Q := by
  intro mem o
  obtain ⟨bs, a, hb, hp, hr⟩ := h mem o
  exact ⟨bs, a, hb, hpq _ _ hp, hr⟩

theorem scans_pure {a : α} {P : List UInt8 → α → Prop} (h : P [] a) : Scans (pure a) P :=
  fun _ _ => ⟨[], a, rfl, h, rfl⟩

theorem scans_bind {r : Reader α} {f : α → Reader β} {P : List UInt8 → β → Prop}
    (h : Scans r (fun xs a => Scans (f a) (fun ys b => P (xs ++ ys) b))) :
    Scans (r >>= f) P := by
  intro mem o
  obtain ⟨xs, a, hx, hf, hr⟩ := h mem o
  obtain ⟨ys, b, hy, hp, he⟩ := hf mem (o + xs.length)
  refine ⟨xs ++ ys, b, holds_append.mpr ⟨hx, hy⟩, hp, ?_⟩
  rw [bind_run, hr, he]
  simp only [List.length_append, ← List.range'_append, Nat.one_mul, Nat.add_assoc]

theorem scans_byte {P : List UInt8 → UInt8 → Prop} (h : ∀ b, P [b] b) : Scans byte P :=
  fun mem o => ⟨[mem o], mem o, rfl, h _, rfl⟩

theorem scans_bytes {n : Nat} {P : List UInt8 → List UInt8 → Prop}
    (h : ∀ bs, bs.length = n → P bs bs) : Scans (bytes n) P := fun mem o =>
  ⟨slice mem o n, slice mem o n, holds_slice _ _ _, h _ (by simp), by simp [bytes]⟩

theorem scans_array {n : Nat} {P : List UInt8 → Vector UInt8 n → Prop}
    (h : ∀ v : Vector UInt8 n, P v.toList v) : Scans (array n) P := by
  intro mem o
  let v : Vector UInt8 n := ⟨(slice mem o n).toArray, by simp⟩
  have hv : Holds mem o v.toList := by simpa [v, Vector.toList] using holds_slice mem o n
  exact ⟨v.toList, v, hv, h v, yields_array v mem o hv⟩

theorem scans_word [Word α] {swap : Bool} {P : List UInt8 → α → Prop}
    (h : ∀ a, P (wordBytes swap a) a) : Scans (word swap) P := by
  intro mem o
  obtain ⟨a, ha⟩ : ∃ a : α, wordBytes swap a = slice mem o (Word.width α) :=
    exists_wordBytes swap (slice_length mem o _)
  have hh : Holds mem o (wordBytes swap a) := by simp [Holds, ha]
  exact ⟨wordBytes swap a, a, hh, h a, yields_word swap a mem o hh⟩

end Reader

end ByteStream
