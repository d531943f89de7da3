import VehicleCloud.Printf
import Mathlib.Algebra.GroupWithZero.Nat
import Mathlib.Data.List.Forall2

namespace HexDump

open ByteStream Printf

/-- What is printed for one field: the text in the brackets, what follows it, and the number of
bytes the offset moves on by. `stores` are the stores into arrays other than that of the line,
`fetches` the accesses to source objects: how many elements each needs and how many there are. -/
structure Block where
  size : Nat
  hex : Text
  label : Text
  value : Text
  stores : List (Nat × Nat)
  fetches : List (Nat × Nat)

structure Line where
  offset : Nat
  hex : Text
  label : Text
  value : Text

/-- `"%-4ld[%s] label: %s\n"` -/
def Line.render (l : Line) : Text :=
  padRight 4 (decimal l.offset) ++ utf8 "[" ++ l.hex ++ utf8 "] " ++ l.label ++ utf8 ": " ++
    l.value ++ utf8 "\n"

structure Printer where
  offset : Nat
  lines : List Line
  stores : List (Nat × Nat)
  fetches : List (Nat × Nat)

def Printer.empty : Printer := ⟨0, [], [], []⟩

/-- `sprintf` into an array of `room` characters, `offset +=` and `os <<`. -/
def Block.print (room : Nat) (p : Printer) (b : Block) : Printer :=
  let line : Line := ⟨p.offset, b.hex, b.label, b.value⟩
  { offset := p.offset + b.size
    lines := p.lines ++ [line]
    stores := p.stores ++ (b.stores ++ [(line.render.length + 1, room)])
    fetches := p.fetches ++ b.fetches }

def Printer.run (room : Nat) (p : Printer) (bs : List Block) : Printer := bs.foldl (Block.print room) p

/-- The block's texts outside the line fit in their arrays. -/
def Block.StoresFit (b : Block) : Prop := ∀ a ∈ b.stores, a.1 ≤ a.2

/-- The block reads existing source data only. -/
def Block.InBounds (b : Block) : Prop := ∀ a ∈ b.fetches, a.1 ≤ a.2

/-- A number in `digits` hexadecimal digits, and in decimal ones. -/
def number (digits size : Nat) (label : Text) (value : Nat) : Block :=
  { size, hex := padZero digits (hexadecimal value), label, value := decimal value,
    stores := [], fetches := [] }

theorem number_storesFit (digits size : Nat) (label : Text) (value : Nat) :
    (number digits size label value).StoresFit := List.forall_mem_nil _

theorem number_inBounds (digits size : Nat) (label : Text) (value : Nat) :
    (number digits size label value).InBounds := List.forall_mem_nil _

namespace Printer

/-- No text is longer than its array. -/
def Fits (p : Printer) : Prop := ∀ a ∈ p.stores, a.1 ≤ a.2

/-- No access goes beyond its object. -/
def InBounds (p : Printer) : Prop := ∀ a ∈ p.fetches, a.1 ≤ a.2

def text (p : Printer) : Text := p.lines.flatMap Line.hex

def offsets (p : Printer) : List Nat := p.lines.map Line.offset

end Printer

/-- The offsets of fields of these sizes that stand one after the other. -/
def startsFrom : Nat → List Nat → List Nat
  | _, [] => []
  | o, n :: ns => o :: startsFrom (o + n) ns

section

variable (room : Nat) (p : Printer) (bs : List Block)

theorem run_fetches : (p.run room bs).fetches = p.fetches ++ bs.flatMap Block.fetches := by
  induction bs generalizing p with
  | nil => simp [Printer.run]
  | cons b bs ih =>
    rw [Printer.run, List.foldl_cons, ← Printer.run, ih]
    simp [Block.print]

theorem run_text : (p.run room bs).text = p.text ++ bs.flatMap Block.hex := by
  induction bs generalizing p with
  | nil => simp [Printer.run]
  | cons b bs ih =>
    rw [Printer.run, List.foldl_cons, ← Printer.run, ih]
    simp [Block.print, Printer.text]

theorem run_offsets :
    (p.run room bs).offsets = p.offsets ++ startsFrom p.offset (bs.map Block.size) := by
  induction bs generalizing p with
  | nil => simp [Printer.run, startsFrom]
  | cons b bs ih =>
    rw [Printer.run, List.foldl_cons, ← Printer.run, ih]
    simp [Block.print, Printer.offsets, startsFrom]

theorem run_inBounds :
    (p.run room bs).InBounds ↔ p.InBounds ∧ ∀ b ∈ bs, b.InBounds := by
  unfold Printer.InBounds Block.InBounds
  rw [run_fetches, List.forall_mem_append, List.forall_mem_flatMap]

end

/-- The characters of a block's own parts of its line. -/
def Block.width (b : Block) : Nat := b.hex.length + b.label.length + b.value.length

theorem render_length (l : Line) : l.render.length =
    max 4 (decimal l.offset).length + l.hex.length + l.label.length + l.value.length + 6 := by
  have h1 : (utf8 "[").length = 1 := rfl
  have h2 : (utf8 "] ").length = 2 := rfl
  have h3 : (utf8 ": ").length = 2 := rfl
  have h4 : (utf8 "\n").length = 1 := rfl
  simp only [Line.render, List.length_append, padRight_length, h1, h2, h3, h4]
  omega

/-- Below 10000 the offset takes four characters, so that a line is eleven characters longer than
its own parts. -/
theorem render_length_of_lt {l : Line} (h : l.offset < 10000) :
    l.render.length = l.hex.length + l.label.length + l.value.length + 10 := by
  have hd := decimal_length_le (k := 4) (by decide) h
  rw [render_length]
  omega

section

variable {room : Nat} {p : Printer} {b : Block} {bs : List Block}

theorem print_fits (ho : p.offset < 10000) :
    (b.print room p).Fits ↔ p.Fits ∧ b.StoresFit ∧ b.width + 11 ≤ room := by
  have hl := render_length_of_lt (l := ⟨p.offset, b.hex, b.label, b.value⟩) ho
  unfold Printer.Fits Block.StoresFit Block.width
  simp only [Block.print, List.forall_mem_append, List.forall_mem_singleton, hl]

theorem run_fits_iff (ho : p.offset + (bs.map Block.size).sum < 10000)
    (hw : ∀ b ∈ bs, b.StoresFit → b.width + 11 ≤ room) :
    (p.run room bs).Fits ↔ p.Fits ∧ ∀ b ∈ bs, b.StoresFit := by
  induction bs generalizing p with
  | nil => simp [Printer.run]
  | cons b bs ih =>
    simp only [List.map_cons, List.sum_cons] at ho
    have hnext : (b.print room p).offset = p.offset + b.size := rfl
    rw [Printer.run, List.foldl_cons, ← Printer.run, ih (by omega)
      (fun c hc => hw c (List.mem_cons_of_mem b hc)), print_fits (by omega), List.forall_mem_cons]
    have hb := hw b List.mem_cons_self
    constructor
    · rintro ⟨⟨hp, hs, _⟩, hbs⟩
      exact ⟨hp, hs, hbs⟩
    · rintro ⟨hp, hs, hbs⟩
      exact ⟨⟨hp, hs, hb hs⟩, hbs⟩

end

/-- The block shows the bytes `bs`. -/
structure Block.Shows (b : Block) (bs : List UInt8) : Prop where
  size : b.size = bs.length
  hex : b.hex = Printf.hex bs

theorem number_shows_byte (label : Text) (b : UInt8) : (number 2 1 label b.toNat).Shows [b] :=
  ⟨rfl, (List.append_nil _).symm⟩

theorem number_shows_word {α : Type} [Word α] (label : Text) (a : α) (hw : 0 < Word.width α) :
    (number (2 * Word.width α) (Word.width α) label (Word.toNat a)).Shows (wordBytes true a) :=
  ⟨(wordBytes_length true a).symm, padZero_hexadecimal_word a hw⟩

/-- Blocks that show the fields of a frame one by one. -/
abbrev Show (bs : List Block) (fields : List (List UInt8)) : Prop :=
  List.Forall₂ Block.Shows bs fields

theorem startsFrom_append (o : Nat) (xs ys : List Nat) :
    startsFrom o (xs ++ ys) = startsFrom o xs ++ startsFrom (o + xs.sum) ys := by
  induction xs generalizing o with
  | nil => rfl
  | cons x xs ih =>
    rw [List.cons_append, startsFrom, startsFrom, ih, List.sum_cons, Nat.add_assoc, List.cons_append]

@[simp] theorem startsFrom_length (o : Nat) (xs : List Nat) : (startsFrom o xs).length = xs.length := by
  induction xs generalizing o with
  | nil => rfl
  | cons x xs ih => rw [startsFrom, List.length_cons, ih, List.length_cons]

/-- The block moves on by the size of the bytes `bs`, and shows no more digits than they have. -/
structure Block.Spans (b : Block) (bs : List UInt8) : Prop where
  size : b.size = bs.length
  hex_length_le : b.hex.length ≤ 2 * bs.length

theorem Block.Shows.spans {b : Block} {bs : List UInt8} (h : b.Shows bs) : b.Spans bs where
  size := h.size
  hex_length_le := Nat.le_of_eq (by rw [h.hex, hex_length])

abbrev Span (bs : List Block) (fields : List (List UInt8)) : Prop :=
  List.Forall₂ Block.Spans bs fields

theorem Show.span {bs : List Block} {fields : List (List UInt8)} (h : Show bs fields) :
    Span bs fields := h.imp fun _ _ => Block.Shows.spans

namespace Span

variable {bs : List Block} {fields : List (List UInt8)}

theorem sizes (h : Span bs fields) : bs.map Block.size = fields.map List.length := by
  induction h with
  | nil => rfl
  | cons hb _ ih => rw [List.map_cons, List.map_cons, hb.size, ih]

theorem hex_length_le (h : Span bs fields) :
    (bs.flatMap Block.hex).length ≤ 2 * fields.flatten.length := by
  induction h with
  | nil => exact Nat.le_refl 0
  | cons hb _ ih =>
    have hhead := hb.hex_length_le
    rw [List.flatMap_cons, List.flatten_cons, List.length_append, List.length_append]
    omega

/-- No block makes up for digits that another one lacks: the texts are those of the bytes exactly
when every block shows its field and nothing follows the fields. -/
theorem hex_eq_iff (h : Span bs fields) (slack : List UInt8) :
    bs.flatMap Block.hex = Printf.hex (fields.flatten ++ slack) ↔ Show bs fields ∧ slack = [] := by
  induction h with
  | nil =>
    constructor
    · intro heq
      have hlen := congrArg List.length heq
      rw [hex_length] at hlen
      have hslack : slack.length = 0 := by
        simp only [List.flatMap_nil, List.length_nil, List.flatten_nil, List.nil_append] at hlen
        omega
      exact ⟨.nil, List.length_eq_zero_iff.mp hslack⟩
    · rintro ⟨_, rfl⟩
      rfl
  | @cons b field bs fields hb hbs ih =>
    have hcons : Show (b :: bs) (field :: fields) ↔ b.Shows field ∧ Show bs fields :=
      List.forall₂_cons
    rw [List.flatMap_cons, List.flatten_cons, List.append_assoc, hex_append, hcons]
    constructor
    · intro heq
      have hlen := congrArg List.length heq
      have hhead := hb.hex_length_le
      have htail := hex_length_le hbs
      rw [List.length_append, List.length_append, hex_length, hex_length, List.length_append] at hlen
      have hfull : b.hex.length = (Printf.hex field).length := by
        rw [hex_length]
        omega
      obtain ⟨hfield, hrest⟩ := List.append_inj heq hfull
      obtain ⟨hshow, hslack⟩ := ih.mp hrest
      exact ⟨⟨⟨hb.size, hfield⟩, hshow⟩, hslack⟩
    · rintro ⟨⟨hfield, hshow⟩, hslack⟩
      rw [hfield.hex, ih.mpr ⟨hshow, hslack⟩]

end Span

end HexDump
