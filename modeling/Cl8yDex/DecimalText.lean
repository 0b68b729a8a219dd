import Mathlib.Algebra.Order.Field.Rat
import Mathlib.Data.List.DropRight
import Mathlib.Tactic.FieldSimp
import Mathlib.Tactic.Ring

/-!
# Decimal numbers as text

Texts of decimal digits and the numbers they stand for: whole numbers, and fractions of a fixed
number of places without their trailing zeros.
-/

namespace DecimalText

/-- Nothing but digits, and at least one of them. -/
def isDigits (text : List Char) : Bool := !text.isEmpty && text.all Char.isDigit

def value (text : List Char) : ℕ := Nat.ofDigitChars 10 text 0

/-- The length of a text in UTF-8. -/
def byteLength (text : List Char) : ℕ := (text.map Char.utf8Size).sum

/-- The digits of a number with zeros before them up to a width. -/
def padded (width n : ℕ) : List Char :=
  List.replicate (width - (Nat.toDigits 10 n).length) '0' ++ Nat.toDigits 10 n

def trimmed (text : List Char) : List Char := text.rdropWhile (· == '0')

/-- The parts before and after the first separator. -/
def splitOnce (separator : Char) (text : List Char) : Option (List Char × List Char) :=
  if separator ∈ text then
    some (text.takeWhile (· != separator), (text.dropWhile (· != separator)).tail)
  else none

variable {text before after : List Char} {n k : ℕ}

theorem utf8Size_of_isDigit {c : Char} (h : c.isDigit = true) : c.utf8Size = 1 := by
  unfold Char.isDigit at h
  unfold Char.utf8Size
  simp only [Bool.and_eq_true, decide_eq_true_eq] at h
  have hle : c.val ≤ 127 := Nat.le_trans h.2 (by decide)
  simp [hle]

theorem byteLength_append :
    byteLength (before ++ after) = byteLength before + byteLength after := by
  simp [byteLength]

theorem byteLength_of_digits (h : ∀ c ∈ text, c.isDigit = true) :
    byteLength text = text.length := by
  induction text with
  | nil => rfl
  | cons c text ih =>
    have hrest := ih fun d hd => h d (List.mem_cons_of_mem c hd)
    unfold byteLength at hrest ⊢
    rw [List.map_cons, List.sum_cons, hrest, utf8Size_of_isDigit (h c List.mem_cons_self),
      List.length_cons, Nat.add_comm]

theorem isDigits_iff : isDigits text = true ↔ text ≠ [] ∧ ∀ c ∈ text, c.isDigit = true := by
  simp [isDigits]

theorem value_append :
    value (before ++ after) = 10 ^ after.length * value before + value after := by
  unfold value
  rw [Nat.ofDigitChars_append, Nat.ofDigitChars_eq_ofDigitChars_zero]

section Whole

theorem isDigit_toDigits : ∀ c ∈ Nat.toDigits 10 n, c.isDigit = true :=
  fun _ hc => Nat.isDigit_of_mem_toDigits (by decide) (by decide) hc

theorem isDigits_toDigits : isDigits (Nat.toDigits 10 n) = true :=
  isDigits_iff.2 ⟨Nat.toDigits_ne_nil, isDigit_toDigits⟩

theorem value_toDigits : value (Nat.toDigits 10 n) = n := Nat.ofDigitChars_ten_toDigits

theorem length_toDigits (hk : 0 < k) (h : n < 10 ^ k) : (Nat.toDigits 10 n).length ≤ k :=
  (Nat.length_toDigits_le_iff (by decide) hk).2 h

theorem byteLength_toDigits (hk : 0 < k) (h : n < 10 ^ k) :
    byteLength (Nat.toDigits 10 n) ≤ k := by
  rw [byteLength_of_digits isDigit_toDigits]
  exact length_toDigits hk h

theorem splitOnce_toDigits : splitOnce '.' (Nat.toDigits 10 n) = none := by
  apply if_neg
  intro hmem
  have hdigit := isDigit_toDigits '.' hmem
  cases hdigit

end Whole

section Fraction

theorem isDigit_padded : ∀ c ∈ padded k n, c.isDigit = true := by
  intro c hc
  rcases List.mem_append.1 hc with hzero | hdigit
  · rw [List.eq_of_mem_replicate hzero]
    rfl
  · exact isDigit_toDigits c hdigit

theorem value_padded : value (padded k n) = n := by
  unfold padded
  rw [value_append, value_toDigits]
  unfold value
  rw [Nat.ofDigitChars_replicate_zero]
  simp

theorem length_padded (hk : 0 < k) (h : n < 10 ^ k) : (padded k n).length = k := by
  have hle := length_toDigits hk h
  unfold padded
  rw [List.length_append, List.length_replicate]
  omega

/-- The zeros that a trimmed text lacks. -/
theorem trimmed_append (text : List Char) :
    ∃ zeros, text = trimmed text ++ List.replicate zeros '0' := by
  refine ⟨(text.rtakeWhile (· == '0')).length, ?_⟩
  have hzeros : text.rtakeWhile (· == '0') =
      List.replicate (text.rtakeWhile (· == '0')).length '0' := by
    apply List.eq_replicate_of_mem
    intro c hc
    have hzero := List.mem_rtakeWhile_imp hc
    simpa using hzero
  unfold trimmed
  rw [← hzeros, List.rdropWhile_append_rtakeWhile]

theorem isDigit_trimmed (h : ∀ c ∈ text, c.isDigit = true) :
    ∀ c ∈ trimmed text, c.isDigit = true :=
  fun c hc => h c ((List.rdropWhile_prefix _ _).subset hc)

theorem length_trimmed : (trimmed text).length ≤ text.length :=
  (List.rdropWhile_prefix _ _).length_le

/-- Trimming keeps the fraction. -/
theorem fraction_trimmed (text : List Char) :
    (value (trimmed text) : ℚ) / 10 ^ (trimmed text).length =
      (value text : ℚ) / 10 ^ text.length := by
  obtain ⟨zeros, htext⟩ := trimmed_append text
  have hlength : text.length = (trimmed text).length + zeros := by
    have h := congrArg List.length htext
    rwa [List.length_append, List.length_replicate] at h
  have hvalue : value text = 10 ^ zeros * value (trimmed text) := by
    have h := congrArg value htext
    rw [value_append, List.length_replicate] at h
    have hzero : value (List.replicate zeros '0') = 0 := by
      unfold value
      rw [Nat.ofDigitChars_replicate_zero, Nat.mul_zero]
    rw [h, hzero, Nat.add_zero]
  rw [hvalue, hlength, pow_add]
  push_cast
  field_simp

theorem trimmed_ne_nil (h : value text ≠ 0) : trimmed text ≠ [] := by
  intro hnil
  obtain ⟨zeros, htext⟩ := trimmed_append text
  apply h
  rw [htext, hnil, List.nil_append]
  unfold value
  rw [Nat.ofDigitChars_replicate_zero, Nat.mul_zero]

end Fraction

/-- The first separator is the one that was put between two parts, the first without any. -/
theorem splitOnce_append (separator : Char) (h : separator ∉ before) :
    splitOnce separator (before ++ separator :: after) = some (before, after) := by
  have hbefore : ∀ c ∈ before, (c != separator) = true := by
    intro c hc
    simp only [bne_iff_ne, ne_eq]
    rintro rfl
    exact h hc
  unfold splitOnce
  rw [if_pos (by simp), List.takeWhile_append_of_pos hbefore, List.dropWhile_append_of_pos hbefore]
  simp

end DecimalText
