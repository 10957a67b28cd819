import Mathlib.Algebra.Order.Floor.Ring
import Mathlib.Data.Rat.Floor
import Mathlib.Tactic

/-! Numbers as decimal text, as `printf` writes them, and the readers that take
them back. A number with a fixed count of decimals comes back rounded to it. -/

namespace Decimal

def IsNumeral (c : Char) : Prop := c.isDigit ∨ c = '.' ∨ c = '-'

/-- `%llu` -/
def unsigned (n : ℕ) : List Char := Nat.toDigits 10 n

/-- `%d` -/
def signed (i : ℤ) : List Char :=
  if i < 0 then '-' :: unsigned i.natAbs else unsigned i.natAbs

def readUnsigned (cs : List Char) : Option ℕ :=
  if cs ≠ [] ∧ cs.all Char.isDigit then some (Nat.ofDigitChars 10 cs 0) else none

def readSigned (cs : List Char) : Option ℤ :=
  if cs.head? = some '-' then (readUnsigned cs.tail).map fun n : ℕ => -(n : ℤ)
  else (readUnsigned cs).map fun n : ℕ => (n : ℤ)

theorem isDigit_unsigned {n : ℕ} {c : Char} (h : c ∈ unsigned n) : c.isDigit :=
  Nat.isDigit_of_mem_toDigits (by decide) (by decide) h

theorem readUnsigned_of_digits {cs : List Char} (hne : cs ≠ []) (h : ∀ c ∈ cs, c.isDigit) :
    readUnsigned cs = some (Nat.ofDigitChars 10 cs 0) :=
  if_pos ⟨hne, List.all_eq_true.mpr h⟩

theorem unsigned_ne_nil (n : ℕ) : unsigned n ≠ [] := Nat.toDigits_ne_nil

theorem readUnsigned_unsigned (n : ℕ) : readUnsigned (unsigned n) = some n := by
  rw [readUnsigned_of_digits (unsigned_ne_nil n) fun c => isDigit_unsigned]
  exact congrArg some Nat.ofDigitChars_ten_toDigits

theorem head_unsigned (n : ℕ) : (unsigned n).head? ≠ some '-' := by
  intro h
  exact absurd (isDigit_unsigned (List.mem_of_head? h)) (by decide)

theorem readSigned_signed (i : ℤ) : readSigned (signed i) = some i := by
  by_cases hi : i < 0
  · have habs : -(i.natAbs : ℤ) = i := by omega
    rw [signed, if_pos hi, readSigned, List.head?_cons, if_pos rfl, List.tail_cons,
      readUnsigned_unsigned, Option.map_some, habs]
  · have habs : (i.natAbs : ℤ) = i := by omega
    rw [signed, if_neg hi, readSigned, if_neg (head_unsigned _), readUnsigned_unsigned,
      Option.map_some, habs]

theorem isNumeral_unsigned (n : ℕ) : ∀ c ∈ unsigned n, IsNumeral c :=
  fun _ hc => Or.inl (isDigit_unsigned hc)

theorem isNumeral_signed (i : ℤ) : ∀ c ∈ signed i, IsNumeral c := by
  intro c hc
  unfold signed at hc
  split_ifs at hc
  · rcases List.mem_cons.mp hc with rfl | hc
    · exact Or.inr (Or.inr rfl)
    · exact isNumeral_unsigned _ c hc
  · exact isNumeral_unsigned _ c hc

/-- The nearest integer, the even one on ties. -/
def halfEven (x : ℚ) : ℕ :=
  if x - ⌊x⌋₊ < 1 / 2 then ⌊x⌋₊
  else if 1 / 2 < x - ⌊x⌋₊ then ⌊x⌋₊ + 1
  else if ⌊x⌋₊ % 2 = 0 then ⌊x⌋₊ else ⌊x⌋₊ + 1

theorem abs_halfEven_sub_le {x : ℚ} (hx : 0 ≤ x) : |(halfEven x : ℚ) - x| ≤ 1 / 2 := by
  have hlo := Nat.floor_le hx
  have hhi := Nat.lt_floor_add_one x
  rw [abs_le]
  unfold halfEven
  split_ifs with h1 h2 h3 <;> push_cast <;> refine ⟨?_, ?_⟩ <;> linarith

def rounded (d : ℕ) (q : ℚ) : ℚ :=
  if q < 0 then -(halfEven (-q * 10 ^ d) / 10 ^ d) else halfEven (q * 10 ^ d) / 10 ^ d

theorem abs_div_sub_le {x : ℚ} (hx : 0 ≤ x) (d : ℕ) :
    |(halfEven (x * 10 ^ d) : ℚ) / 10 ^ d - x| ≤ 1 / 2 / 10 ^ d := by
  have hpow : (0 : ℚ) < 10 ^ d := by positivity
  have hround := abs_halfEven_sub_le (mul_nonneg hx hpow.le)
  have hsub : (halfEven (x * 10 ^ d) : ℚ) / 10 ^ d - x =
      ((halfEven (x * 10 ^ d) : ℚ) - x * 10 ^ d) / 10 ^ d := by
    field_simp
  rw [hsub, abs_div, abs_of_pos hpow]
  gcongr

theorem abs_rounded_sub_le (d : ℕ) (q : ℚ) : |rounded d q - q| ≤ 1 / 2 / 10 ^ d := by
  unfold rounded
  split_ifs with hq
  · have h := abs_div_sub_le (neg_nonneg.mpr hq.le) d
    rw [← abs_neg]
    convert h using 2
    ring
  · exact abs_div_sub_le (not_lt.mp hq) d

/-- The digits of `n`, filled up with zeros to `d` of them. -/
def padded (d n : ℕ) : List Char := List.replicate (d - (unsigned n).length) '0' ++ unsigned n

def fixedUnits (d m : ℕ) : List Char := unsigned (m / 10 ^ d) ++ '.' :: padded d (m % 10 ^ d)

def fixed (d : ℕ) (q : ℚ) : List Char :=
  if q < 0 then '-' :: fixedUnits d (halfEven (-q * 10 ^ d)) else fixedUnits d (halfEven (q * 10 ^ d))

def readFixedUnits (d : ℕ) (cs : List Char) : Option ℕ :=
  match cs.splitOn '.' with
  | [whole, frac] =>
    match readUnsigned whole, readUnsigned frac with
    | some m, some n => if frac.length = d then some (m * 10 ^ d + n) else none
    | _, _ => none
  | _ => none

def readFixed (d : ℕ) (cs : List Char) : Option ℚ :=
  if cs.head? = some '-' then (readFixedUnits d cs.tail).map fun m => -((m : ℚ) / 10 ^ d)
  else (readFixedUnits d cs).map fun m => (m : ℚ) / 10 ^ d

theorem isDigit_padded {d n : ℕ} {c : Char} (h : c ∈ padded d n) : c.isDigit := by
  rcases List.mem_append.mp h with hz | hn
  · rw [List.eq_of_mem_replicate hz]
    decide
  · exact isDigit_unsigned hn

theorem length_padded {d n : ℕ} (hd : 0 < d) (hn : n < 10 ^ d) : (padded d n).length = d := by
  have hlen : (unsigned n).length ≤ d := (Nat.length_toDigits_le_iff (by decide) hd).mpr hn
  rw [padded, List.length_append, List.length_replicate]
  omega

theorem readUnsigned_padded (d n : ℕ) : readUnsigned (padded d n) = some n := by
  have hne : padded d n ≠ [] := List.append_ne_nil_of_right_ne_nil _ (unsigned_ne_nil n)
  rw [readUnsigned_of_digits hne fun c => isDigit_padded, padded, Nat.ofDigitChars_append,
    Nat.ofDigitChars_replicate_zero, Nat.mul_zero]
  exact congrArg some Nat.ofDigitChars_ten_toDigits

theorem readFixedUnits_fixedUnits {d : ℕ} (hd : 0 < d) (m : ℕ) :
    readFixedUnits d (fixedUnits d m) = some m := by
  have hpos : 0 < 10 ^ d := by positivity
  have hwhole : '.' ∉ unsigned (m / 10 ^ d) := fun h => absurd (isDigit_unsigned h) (by decide)
  have hfrac : '.' ∉ padded d (m % 10 ^ d) := fun h => absurd (isDigit_padded h) (by decide)
  rw [readFixedUnits, fixedUnits, List.splitOn_append_cons_self_of_not_mem hwhole,
    List.splitOn_eq_singleton hfrac]
  simp only [readUnsigned_unsigned, readUnsigned_padded]
  rw [if_pos (length_padded hd (Nat.mod_lt m hpos)), Nat.div_add_mod']

theorem head_fixedUnits (d m : ℕ) : (fixedUnits d m).head? ≠ some '-' := by
  rw [fixedUnits, List.head?_append_of_ne_nil _ (unsigned_ne_nil _)]
  exact head_unsigned _

theorem readFixed_fixed {d : ℕ} (hd : 0 < d) (q : ℚ) : readFixed d (fixed d q) = some (rounded d q) := by
  by_cases hq : q < 0
  · rw [fixed, if_pos hq, readFixed, List.head?_cons, if_pos rfl, List.tail_cons,
      readFixedUnits_fixedUnits hd, rounded, if_pos hq]
    rfl
  · rw [fixed, if_neg hq, readFixed, if_neg (head_fixedUnits d _), readFixedUnits_fixedUnits hd,
      rounded, if_neg hq]
    rfl

theorem isNumeral_fixedUnits (d m : ℕ) : ∀ c ∈ fixedUnits d m, IsNumeral c := by
  intro c hc
  rcases List.mem_append.mp hc with hw | hf
  · exact isNumeral_unsigned _ c hw
  · rcases List.mem_cons.mp hf with rfl | hf
    · exact Or.inr (Or.inl rfl)
    · exact Or.inl (isDigit_padded hf)

theorem isNumeral_fixed (d : ℕ) (q : ℚ) : ∀ c ∈ fixed d q, IsNumeral c := by
  intro c hc
  unfold fixed at hc
  split_ifs at hc
  · rcases List.mem_cons.mp hc with rfl | hc
    · exact Or.inr (Or.inr rfl)
    · exact isNumeral_fixedUnits _ _ c hc
  · exact isNumeral_fixedUnits _ _ c hc

end Decimal
