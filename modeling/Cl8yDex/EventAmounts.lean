import Cl8yDex.Arithmetic
import Cl8yDex.DecimalText

/-!
# Amounts and prices of attributes

What the indexer accepts as a number in the text of an attribute, and the texts that contracts
write for their numbers.
-/

namespace Cl8yDex.WasmEvents

open DecimalText

inductive AmountError
  | missing
  | invalid
  | overflow
  deriving DecidableEq

/-- An unsigned integer of at most 38 digits. -/
def parseRawAmount (value : Option String) : Except AmountError ℕ :=
  match value with
  | none => .error .missing
  | some value =>
    if 38 < byteLength value.toList then .error .overflow
    else if ¬ isDigits value.toList then .error .invalid
    else .ok (DecimalText.value value.toList)

def parseOptionalRawAmount (value : Option String) : Except AmountError (Option ℕ) :=
  match value with
  | none => .ok none
  | some value => (parseRawAmount (some value)).map some

/-- At most twenty digits, and at most eighteen after a point. -/
def parsePrice (value : Option String) : Except AmountError ℚ :=
  match value with
  | none => .error .missing
  | some value =>
    if 39 < byteLength value.toList then .error .overflow
    else match splitOnce '.' value.toList with
    | some (integer, fraction) =>
      if ¬ isDigits integer ∨ ¬ isDigits fraction then .error .invalid
      else if 20 < byteLength integer ∨ 18 < byteLength fraction then .error .overflow
      else .ok (DecimalText.value integer + DecimalText.value fraction / 10 ^ fraction.length)
    | none =>
      if ¬ isDigits value.toList then .error .invalid
      else if 20 < byteLength value.toList then .error .overflow
      else .ok (DecimalText.value value.toList)

def requiredAmount (value : Option String) : Option ℕ := (parseRawAmount value).toOption

def optionalAmount (value : Option String) : Option (Option ℕ) :=
  (parseOptionalRawAmount value).toOption

def requiredPrice (value : Option String) : Option ℚ := (parsePrice value).toOption

def optionalPrice (value : Option String) : Option (Option ℚ) :=
  match value with
  | none => some none
  | some value => (requiredPrice (some value)).map some

/-- A 32-bit integer up to a bound, written without a sign. -/
def optionalInteger (value : Option String) (max : ℕ) : Option (Option ℕ) :=
  match value with
  | none => some none
  | some value =>
    (requiredAmount (some value)).bind fun n => if n < 2 ^ 31 ∧ n ≤ max then some (some n) else none

/-- The integer with this sign and these digits, when it has 64 bits. -/
def signedI64 (negative : Bool) (digits : List Char) : Option ℤ :=
  let n : ℤ := if negative then -(DecimalText.value digits : ℤ) else DecimalText.value digits
  if isDigits digits ∧ -2 ^ 63 ≤ n ∧ n < 2 ^ 63 then some n else none

/-- `str::parse::<i64>`: digits after an optional sign. -/
def parseI64 (text : String) : Option ℤ :=
  match text.toList with
  | '+' :: digits => signedI64 false digits
  | '-' :: digits => signedI64 true digits
  | digits => signedI64 false digits

/-- How a decimal is written: no trailing zeros, and no point without a fraction. -/
def decimalText (d : Decimal) : String :=
  if d.atomics % 10 ^ 18 = 0 then toString (d.atomics / 10 ^ 18)
  else String.ofList (Nat.toDigits 10 (d.atomics / 10 ^ 18) ++
    '.' :: trimmed (padded 18 (d.atomics % 10 ^ 18)))

section Numbers

variable {n : ℕ}

theorem toList_toString : (toString n).toList = Nat.toDigits 10 n := Nat.toList_repr

theorem requiredAmount_toString (h : n < 10 ^ 38) :
    requiredAmount (some (toString n)) = some n := by
  unfold requiredAmount parseRawAmount
  dsimp only
  have hlength : ¬ 38 < byteLength (Nat.toDigits 10 n) :=
    Nat.not_lt.2 (byteLength_toDigits (by decide) h)
  rw [toList_toString, if_neg hlength, if_neg (by simp [isDigits_toDigits]), value_toDigits]
  rfl

theorem optionalAmount_none : optionalAmount none = some none := rfl

theorem optionalAmount_toString (h : n < 10 ^ 38) :
    optionalAmount (some (toString n)) = some (some n) := by
  have hread := requiredAmount_toString h
  unfold requiredAmount at hread
  unfold optionalAmount parseOptionalRawAmount
  dsimp only
  cases hparse : parseRawAmount (some (toString n)) with
  | error e =>
    rw [hparse] at hread
    cases hread
  | ok m =>
    rw [hparse] at hread
    cases hread
    rfl

theorem optionalInteger_toString {max : ℕ} (h : n < 2 ^ 31) (hmax : n ≤ max) :
    optionalInteger (some (toString n)) max = some (some n) := by
  unfold optionalInteger
  dsimp only
  rw [requiredAmount_toString (Nat.lt_of_lt_of_le h (by decide)), Option.bind_some,
    if_pos ⟨h, hmax⟩]

theorem parseI64_toString (h : n < 2 ^ 63) : parseI64 (toString n) = some (n : ℤ) := by
  have hsigned : signedI64 false (Nat.toDigits 10 n) = some (n : ℤ) := by
    unfold signedI64
    rw [value_toDigits]
    apply if_pos
    refine ⟨isDigits_toDigits, ?_, ?_⟩
    · norm_num
    · norm_num
      omega
  have hdigit : ∀ c ∈ Nat.toDigits 10 n, c.isDigit = true := isDigit_toDigits
  unfold parseI64
  rw [toList_toString]
  split
  · rename_i heq
    rw [heq] at hdigit
    cases hdigit '+' List.mem_cons_self
  · rename_i heq
    rw [heq] at hdigit
    cases hdigit '-' List.mem_cons_self
  · exact hsigned

end Numbers

section Prices

variable {d : Decimal}

/-- A price below `10^20` is read as what it is. -/
theorem requiredPrice_decimalText (h : d.atomics < 10 ^ 20 * 10 ^ 18) :
    requiredPrice (some (decimalText d)) = some ((d.atomics : ℚ) / 10 ^ 18) := by
  have hwhole : d.atomics / 10 ^ 18 < 10 ^ 20 :=
    Nat.div_lt_of_lt_mul (Nat.mul_comm _ _ ▸ h)
  have hinteger := byteLength_toDigits (by decide : 0 < 20) hwhole
  have hsplit : (d.atomics : ℚ) =
      10 ^ 18 * (d.atomics / 10 ^ 18 : ℕ) + (d.atomics % 10 ^ 18 : ℕ) := by
    exact_mod_cast (Nat.div_add_mod d.atomics (10 ^ 18)).symm
  unfold requiredPrice parsePrice decimalText
  dsimp only
  by_cases hfraction : d.atomics % 10 ^ 18 = 0
  · rw [if_pos hfraction, toList_toString, splitOnce_toDigits]
    rw [if_neg (by omega)]
    dsimp only
    rw [if_neg (by simp [isDigits_toDigits]), if_neg (by omega), value_toDigits, hsplit, hfraction]
    simp [Except.toOption]
  · have hless : d.atomics % 10 ^ 18 < 10 ^ 18 := Nat.mod_lt _ (by decide)
    have hlength := length_padded (by decide) hless
    have htrimmed := isDigit_trimmed (isDigit_padded (k := 18) (n := d.atomics % 10 ^ 18))
    have hshort := byteLength_of_digits htrimmed
    have hle : (trimmed (padded 18 (d.atomics % 10 ^ 18))).length ≤ _ := length_trimmed
    have hnonempty : trimmed (padded 18 (d.atomics % 10 ^ 18)) ≠ [] := by
      apply trimmed_ne_nil
      rw [value_padded]
      exact hfraction
    have hdigits := isDigits_iff.2 ⟨hnonempty, htrimmed⟩
    have hdot : '.' ∉ Nat.toDigits 10 (d.atomics / 10 ^ 18) := by
      intro hmem
      cases isDigit_toDigits '.' hmem
    have hbytes : byteLength ('.' :: trimmed (padded 18 (d.atomics % 10 ^ 18))) =
        1 + byteLength (trimmed (padded 18 (d.atomics % 10 ^ 18))) := by
      unfold byteLength
      rw [List.map_cons, List.sum_cons]
      rfl
    rw [if_neg hfraction, String.toList_ofList, byteLength_append, hbytes, if_neg (by omega),
      splitOnce_append '.' hdot]
    dsimp only
    rw [if_neg (not_or.2 ⟨not_not_intro isDigits_toDigits, not_not_intro hdigits⟩),
      if_neg (by omega), value_toDigits, fraction_trimmed, value_padded, hlength, hsplit]
    simp only [Except.toOption, Option.some.injEq]
    field_simp

theorem optionalPrice_decimalText (h : d.atomics < 10 ^ 20 * 10 ^ 18) :
    optionalPrice (some (decimalText d)) = some (some ((d.atomics : ℚ) / 10 ^ 18)) := by
  unfold optionalPrice
  dsimp only
  rw [requiredPrice_decimalText h]
  rfl

end Prices

end Cl8yDex.WasmEvents
