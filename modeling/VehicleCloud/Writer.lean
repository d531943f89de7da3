import VehicleCloud.Reader

namespace ByteStream

/-- An offset, the bytes stored so far with their indices, and the accesses to source
objects: how many elements each needs and how many the object has. -/
structure Sink where
  offset : Nat
  writes : List (UInt8 × Nat)
  fetches : List (Nat × Nat)
  deriving DecidableEq

def Writer (α : Type) := Sink → α × Sink

namespace Writer

variable {α : Type}

instance : Monad Writer where
  pure a := fun s => (a, s)
  bind w f := fun s => f (w s).1 (w s).2

@[simp] theorem pure_run (a : α) (s : Sink) : (pure a : Writer α) s = (a, s) := rfl

@[simp] theorem bind_run {β : Type} (w : Writer α) (f : α → Writer β) (s : Sink) :
    (w >>= f) s = f (w s).1 (w s).2 := rfl

def bytes (bs : List UInt8) : Writer Unit := fun s =>
  ((), { s with offset := s.offset + bs.length, writes := s.writes ++ bs.zipIdx s.offset })

def byte (b : UInt8) : Writer Unit := bytes [b]

def word [Word α] (swap : Bool) (a : α) : Writer Unit :=
  bytes (nativeBytes (if swap then bswap a else a))

def fetch (need avail : Nat) : Writer Unit := fun s =>
  ((), { s with fetches := s.fetches ++ [(need, avail)] })

/-- `w` stores exactly the bytes `bs` and makes exactly the accesses `fs`. -/
def Emits (w : Writer Unit) (bs : List UInt8) (fs : List (Nat × Nat)) : Prop :=
  ∀ s, w s = ((), ⟨s.offset + bs.length, s.writes ++ bs.zipIdx s.offset, s.fetches ++ fs⟩)

theorem emits_pure : Emits (pure ()) [] [] := by
  intro s
  simp

theorem emits_bind {w : Writer Unit} {f : Unit → Writer Unit} {xs ys : List UInt8}
    {as bs : List (Nat × Nat)} (hw : Emits w xs as) (hf : Emits (f ()) ys bs) :
    Emits (w >>= f) (xs ++ ys) (as ++ bs) := by
  intro s
  rw [bind_run, hw s, hf]
  simp only [List.length_append, List.zipIdx_append, List.append_assoc, Nat.add_assoc]

theorem emits_then {w : Writer Unit} {f : Unit → Writer Unit} {xs ys : List UInt8}
    {fs : List (Nat × Nat)} (hw : Emits w xs []) (hf : Emits (f ()) ys fs) :
    Emits (w >>= f) (xs ++ ys) fs := emits_bind hw hf

theorem emits_field {w : Writer Unit} {f : Unit → Writer Unit} {xs : List UInt8}
    {rest : List (List UInt8)} {fs : List (Nat × Nat)}
    (hw : Emits w xs []) (hf : Emits (f ()) rest.flatten fs) :
    Emits (w >>= f) (xs :: rest).flatten fs := emits_then hw hf

theorem emits_bytes (bs : List UInt8) : Emits (bytes bs) bs [] := by
  intro s
  simp [bytes]

theorem emits_byte (b : UInt8) : Emits (byte b) [b] [] := emits_bytes _

theorem emits_word [Word α] (swap : Bool) (a : α) :
    Emits (word swap a) (wordBytes swap a) [] := emits_bytes _

theorem emits_fetch {need avail : Nat} {f : Unit → Writer Unit} {ys : List UInt8}
    {fs : List (Nat × Nat)} (hf : Emits (f ()) ys fs) :
    Emits (fetch need avail >>= f) ys ((need, avail) :: fs) := by
  intro s
  rw [bind_run, hf]
  simp [fetch]

theorem emits_forM {ι : Type} {body : ι → Writer Unit} {bs : ι → List UInt8}
    {fs : ι → List (Nat × Nat)} (h : ∀ i, Emits (body i) (bs i) (fs i)) (is : List ι) :
    Emits (is.forM body) (is.flatMap bs) (is.flatMap fs) := by
  induction is with
  | nil => exact emits_pure
  | cons i is ih => exact emits_bind (h i) ih

end Writer

theorem mem_zipIdx_iff {bs : List UInt8} {i : Nat} :
    (∃ b, (b, i) ∈ bs.zipIdx) ↔ i < bs.length := by
  constructor
  · intro h
    obtain ⟨b, hb⟩ := h
    obtain ⟨hi, _⟩ := List.getElem?_eq_some_iff.mp (List.mk_mem_zipIdx_iff_getElem?.mp hb)
    exact hi
  · intro h
    exact ⟨bs[i], List.mk_mem_zipIdx_iff_getElem?.mpr (List.getElem?_eq_getElem h)⟩

/-- Memory after the stores `writes`, a later one winning. -/
def Mem.store (mem : Mem) : List (UInt8 × Nat) → Mem
  | [] => mem
  | (b, i) :: rest => Mem.store (fun j => if j = i then b else mem j) rest

theorem store_zipIdx_of_lt (mem : Mem) {bs : List UInt8} {o i : Nat} (h : i < o) :
    mem.store (bs.zipIdx o) i = mem i := by
  induction bs generalizing mem o with
  | nil => rfl
  | cons b bs ih =>
    have hne : i ≠ o := by omega
    simp [Mem.store, ih _ (Nat.lt_succ_of_lt h), hne]

theorem holds_store (mem : Mem) (bs : List UInt8) (o : Nat) :
    Holds (mem.store (bs.zipIdx o)) o bs := by
  induction bs generalizing mem o with
  | nil => rfl
  | cons b bs ih =>
    have hhead : mem.store ((b :: bs).zipIdx o) o = b := by
      simp [Mem.store, store_zipIdx_of_lt]
    have htail := ih (fun j => if j = o then b else mem j) (o + 1)
    have hcons : slice (mem.store ((b :: bs).zipIdx o)) o (bs.length + 1) =
        mem.store ((b :: bs).zipIdx o) o :: slice (mem.store ((b :: bs).zipIdx o)) (o + 1) bs.length := rfl
    rw [Holds, List.length_cons, hcons, hhead]
    exact congrArg (b :: ·) htail

end ByteStream
