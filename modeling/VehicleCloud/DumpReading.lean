import VehicleCloud.HexDump

namespace Printf

def digitValue (c : UInt8) : Nat := if c.toNat < 65 then c.toNat - 48 else c.toNat - 55

/-- The number that a text of hexadecimal digits stands for. -/
def hexValue (t : Text) : Nat := t.foldl (fun v c => 16 * v + digitValue c) 0

theorem hexValue_digit : ∀ d < 16, hexValue (hexadecimal d) = d := by decide

theorem hexValue_append_digit (t : Text) {d : Nat} (hd : d < 16) :
    hexValue (t ++ hexadecimal d) = 16 * hexValue t + d := by
  have hdigit := hexValue_digit d hd
  obtain ⟨c, hc⟩ := List.length_eq_one_iff.mp (hexDigit_length hd)
  rw [hc] at hdigit ⊢
  simp only [hexValue, List.foldl_append, List.foldl_cons, List.foldl_nil] at hdigit ⊢
  omega

theorem hexValue_hexadecimal (n : Nat) : hexValue (hexadecimal n) = n := by
  induction n using Nat.strongRecOn with
  | _ n ih =>
    rcases Nat.lt_or_ge n 16 with h | h
    · exact hexValue_digit n h
    · rw [hexadecimal, numeral_of_le (by decide) h, ← hexadecimal, ← hexadecimal,
        hexValue_append_digit _ (Nat.mod_lt n (by decide)), ih (n / 16) (by omega)]
      omega

/-- Leading zeros do not count. -/
theorem hexValue_padZero (width : Nat) (t : Text) : hexValue (padZero width t) = hexValue t := by
  have hzeros (k : Nat) : (List.replicate k (48 : UInt8)).foldl (fun v c => 16 * v + digitValue c) 0 = 0 := by
    induction k with
    | zero => rfl
    | succ k ih => exact ih
  rw [hexValue, padZero, List.leftpad, List.foldl_append, hzeros, ← hexValue]

theorem padZero_hexadecimal_inj {width m n : Nat}
    (h : padZero width (hexadecimal m) = padZero width (hexadecimal n)) : m = n := by
  have hvalue := congrArg hexValue h
  rwa [hexValue_padZero, hexValue_padZero, hexValue_hexadecimal, hexValue_hexadecimal] at hvalue

theorem hexByte_inj {b c : UInt8} (h : hexByte b = hexByte c) : b = c :=
  UInt8.toNat_inj.mp (padZero_hexadecimal_inj h)

theorem hex_inj {bs cs : List UInt8} (h : hex bs = hex cs) : bs = cs := by
  induction bs generalizing cs with
  | nil =>
    have hlen := congrArg List.length h
    rw [hex_length, hex_length] at hlen
    simp only [List.length_nil] at hlen
    exact (List.length_eq_zero_iff.mp (by omega)).symm
  | cons b bs ih =>
    cases cs with
    | nil =>
      have hlen := congrArg List.length h
      rw [hex_length, hex_length] at hlen
      simp only [List.length_cons, List.length_nil] at hlen
      omega
    | cons c cs =>
      rw [hex_cons, hex_cons] at h
      obtain ⟨hhead, htail⟩ := List.append_inj h (by rw [hexByte_length, hexByte_length])
      rw [hexByte_inj hhead, ih htail]

/-- Every character is a digit. -/
theorem digit_of_mem {c : UInt8} {n : Nat} (h : c ∈ hexadecimal n) :
    ∃ d < 16, c ∈ hexadecimal d := by
  induction n using Nat.strongRecOn with
  | _ n ih =>
    rcases Nat.lt_or_ge n 16 with hn | hn
    · exact ⟨n, hn, h⟩
    · rw [hexadecimal, numeral_of_le (by decide) hn, ← hexadecimal, ← hexadecimal] at h
      rcases List.mem_append.mp h with h | h
      · exact ih (n / 16) (by omega) h
      · exact ⟨n % 16, Nat.mod_lt n (by decide), h⟩

/-- The closing bracket is no digit. -/
theorem bracket_not_mem (width n : Nat) : 93 ∉ padZero width (hexadecimal n) := by
  have hdigits : ∀ d < 16, (93 : UInt8) ∉ hexadecimal d := by decide
  rw [padZero, List.leftpad]
  intro h
  rcases List.mem_append.mp h with h | h
  · exact absurd (List.eq_of_mem_replicate h) (by decide)
  · obtain ⟨d, hd, hmem⟩ := digit_of_mem h
    exact hdigits d hd hmem

theorem bracket_not_mem_hex (bs : List UInt8) : 93 ∉ hex bs := by
  intro h
  obtain ⟨b, _, hb⟩ := List.mem_flatMap.mp h
  exact bracket_not_mem 2 b.toNat hb

end Printf

namespace HexDump

open Printf

theorem append_cons_inj {α : Type} {a : α} {xs ys s t : List α} (hx : a ∉ xs) (hy : a ∉ ys)
    (h : xs ++ a :: s = ys ++ a :: t) : xs = ys ∧ s = t := by
  induction xs generalizing ys with
  | nil =>
    cases ys with
    | nil => exact ⟨rfl, (List.cons.inj h).2⟩
    | cons y ys => exact absurd ((List.cons.inj h).1 ▸ List.mem_cons_self) hy
  | cons x xs ih =>
    cases ys with
    | nil => exact absurd ((List.cons.inj h).1 ▸ List.mem_cons_self) hx
    | cons y ys =>
      obtain ⟨hhead, htail⟩ := List.cons.inj h
      obtain ⟨hrest, hst⟩ := ih (fun hm => hx (List.mem_cons_of_mem x hm))
        (fun hm => hy (List.mem_cons_of_mem y hm)) htail
      exact ⟨by rw [hhead, hrest], hst⟩

/-- The lines of blocks that start at the offset `o`. -/
def linesFrom : Nat → List Block → List Line
  | _, [] => []
  | o, b :: bs => ⟨o, b.hex, b.label, b.value⟩ :: linesFrom (o + b.size) bs

/-- What is printed for them. -/
def textFrom (o : Nat) (bs : List Block) : Text := (linesFrom o bs).flatMap Line.render

def Printer.output (p : Printer) : Text := p.lines.flatMap Line.render

theorem textFrom_cons (o : Nat) (b : Block) (bs : List Block) : textFrom o (b :: bs) =
    Line.render ⟨o, b.hex, b.label, b.value⟩ ++ textFrom (o + b.size) bs := rfl

theorem textFrom_append (o : Nat) (bs cs : List Block) : textFrom o (bs ++ cs) =
    textFrom o bs ++ textFrom (o + (bs.map Block.size).sum) cs := by
  induction bs generalizing o with
  | nil => rfl
  | cons b bs ih =>
    rw [List.cons_append, textFrom_cons, textFrom_cons, ih, List.append_assoc, List.map_cons,
      List.sum_cons, Nat.add_assoc]

theorem run_lines (room : Nat) (p : Printer) (bs : List Block) :
    (p.run room bs).lines = p.lines ++ linesFrom p.offset bs := by
  induction bs generalizing p with
  | nil => exact (List.append_nil _).symm
  | cons b bs ih =>
    rw [Printer.run, List.foldl_cons, ← Printer.run, ih]
    simp only [Block.print, linesFrom, List.append_assoc, List.singleton_append]

theorem run_output (room : Nat) (p : Printer) (bs : List Block) :
    (p.run room bs).output = p.output ++ textFrom p.offset bs := by
  rw [Printer.output, run_lines, List.flatMap_append]
  rfl

/-- Two blocks that print one field, of values that may differ. What differs shows in the digits. -/
structure Block.Akin (b c : Block) : Prop where
  size : b.size = c.size
  label : b.label = c.label
  value : b.hex = c.hex → b.value = c.value
  closed : 93 ∉ b.hex ∧ 93 ∉ c.hex

/-- Blocks that print the same fields one by one. -/
abbrev Akin (bs cs : List Block) : Prop := List.Forall₂ Block.Akin bs cs

theorem number_akin (digits size : Nat) (label : Text) (v w : Nat) :
    (number digits size label v).Akin (number digits size label w) :=
  ⟨rfl, rfl, fun h => congrArg decimal (padZero_hexadecimal_inj h),
    bracket_not_mem digits v, bracket_not_mem digits w⟩

theorem number_hex_inj {digits size : Nat} {label : Text} {v w : Nat} :
    (number digits size label v).hex = (number digits size label w).hex ↔ v = w :=
  ⟨padZero_hexadecimal_inj, fun h => by rw [h]⟩

/-- The digits of a line end at the first closing bracket. -/
theorem Block.Akin.render_inj {b c : Block} (hk : b.Akin c) {o : Nat} {s t : Text}
    (h : Line.render ⟨o, b.hex, b.label, b.value⟩ ++ s =
      Line.render ⟨o, c.hex, c.label, c.value⟩ ++ t) : b.hex = c.hex ∧ s = t := by
  have hbracket : utf8 "] " = [93, 32] := rfl
  simp only [Line.render, hbracket, List.append_assoc, List.append_cancel_left_eq,
    List.cons_append] at h
  obtain ⟨hhex, hrest⟩ := append_cons_inj hk.closed.1 hk.closed.2 h
  rw [hk.label, hk.value hhex] at hrest
  simp only [List.cons.injEq, List.nil_append, List.append_cancel_left_eq, true_and] at hrest
  exact ⟨hhex, hrest⟩

theorem Block.Akin.textFrom_inj {b c : Block} {bs cs : List Block} {o : Nat} {s t : Text}
    (hk : b.Akin c) (h : textFrom o (b :: bs) ++ s = textFrom o (c :: cs) ++ t) :
    b.hex = c.hex ∧ ∃ o', textFrom o' bs ++ s = textFrom o' cs ++ t := by
  rw [textFrom_cons, textFrom_cons, List.append_assoc, List.append_assoc] at h
  obtain ⟨hhex, hrest⟩ := hk.render_inj h
  rw [hk.size] at hrest
  exact ⟨hhex, _, hrest⟩

namespace Akin

variable {bs cs : List Block}

theorem textFrom_congr (hk : Akin bs cs) (hhex : bs.map Block.hex = cs.map Block.hex) (o : Nat) :
    textFrom o bs = textFrom o cs := by
  induction hk generalizing o with
  | nil => rfl
  | cons hb _ ih =>
    obtain ⟨hhead, htail⟩ := List.cons.inj hhex
    rw [textFrom_cons, textFrom_cons, hhead, hb.label, hb.value hhead, hb.size, ih htail]

/-- A text that starts with the lines of either is read in one way, and both go on with the same
offset. -/
theorem textFrom_inj {bs' cs' : List Block} {o : Nat} {s t : Text} (hk : Akin bs cs)
    (h : textFrom o (bs ++ bs') ++ s = textFrom o (cs ++ cs') ++ t) :
    bs.map Block.hex = cs.map Block.hex ∧ ∃ o', textFrom o' bs' ++ s = textFrom o' cs' ++ t := by
  induction hk generalizing o with
  | nil => exact ⟨rfl, o, h⟩
  | cons hb _ ih =>
    obtain ⟨hhead, _, hrest⟩ := hb.textFrom_inj h
    obtain ⟨htail, o', ho⟩ := ih hrest
    exact ⟨by rw [List.map_cons, List.map_cons, hhead, htail], o', ho⟩

/-- The same of a text that starts with all lines. -/
theorem textFrom_inj_all {o : Nat} {s t : Text} (hk : Akin bs cs)
    (h : textFrom o bs ++ s = textFrom o cs ++ t) :
    bs.map Block.hex = cs.map Block.hex ∧ s = t := by
  have hnil : textFrom o (bs ++ []) ++ s = textFrom o (cs ++ []) ++ t := by
    rwa [List.append_nil, List.append_nil]
  obtain ⟨hhex, _, hst⟩ := hk.textFrom_inj hnil
  exact ⟨hhex, hst⟩

end Akin

end HexDump
