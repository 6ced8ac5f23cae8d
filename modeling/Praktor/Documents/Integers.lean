/-
# Integers of a document

A JSON number keeps the text that it was parsed from, and a text without a dot and without an
exponent is converted digit by digit in an unsigned machine word.  The limit of the sign is
checked before each digit is added, so no word wraps and the conversion is exact at every
width.  Other numbers are converted through a double.
-/

import Mathlib.Algebra.Order.Ring.Nat
import Mathlib.Data.Int.Order.Basic
import Praktor.Data.Json

namespace Praktor.Documents

open Praktor.Data

/-- What the C library computes with the double of a number. -/
structure IntegerDoubles where
  Number : Type
  /-- `json_number`. -/
  ofJson : JsonNumber → Number
  isFinite : Number → Bool
  /-- `modf`: whether the fraction is zero, and the integral part. -/
  modf : Number → Bool × Number
  /-- `ldexp(1.0, e)`. -/
  ldexp : Nat → Number
  zero : Number
  neg : Number → Number
  less : Number → Number → Bool
  toUInt64 : Number → UInt64

/-- The statuses of the conversions. -/
inductive IntegerStatus
  | ok
  | einval
  | erange
  deriving DecidableEq, Repr

/-- `json_number_text`. -/
def jsonNumberText : JsonNumber → Option Bytes
  | .parsed token => some token
  | .built _ => none

/-- A byte of a decimal number. -/
def isDecimal (byte : UInt8) : Bool := 48 ≤ byte && byte ≤ 57

/-- `integer_token`. -/
def integerToken (value : JsonNumber) : Option Bytes :=
  match jsonNumberText value with
  | none => none
  | some token =>
      if token.isEmpty then none
      else if token.any fun byte => byte = 46 || byte = 101 || byte = 69 then none
      else some token

/-- The digit of a byte; a byte below `'0'` wraps around. -/
def digitOf (byte : UInt8) : UInt64 := (byte.toUInt32 - 48).toUInt64

/-- The check before a digit is added. -/
def refusesDigit (limit result digit : UInt64) : Bool :=
  digit > 9 || result > limit / 10 || (result = limit / 10 && digit > limit % 10)

/-- The loop of `magnitude`. -/
def accumulate (limit : UInt64) : Bytes → UInt64 → Option UInt64
  | [], result => some result
  | byte :: rest, result =>
      if refusesDigit limit result (digitOf byte) then none
      else accumulate limit rest (result * 10 + digitOf byte)

/-- The token begins with a minus. -/
def hasSign (token : Bytes) : Bool := token.head? = some 45

/-- `magnitude`: the absolute value and the sign. -/
def magnitude (token : Bytes) (allowNegative : Bool) (positiveLimit negativeLimit : UInt64) :
    Option (UInt64 × Bool) :=
  if hasSign token && !allowNegative then none
  else
    let digits := if hasSign token then token.drop 1 else token
    let limit := if hasSign token then negativeLimit else positiveLimit
    if digits.isEmpty then none
    else (accumulate limit digits 0).map fun result => (result, hasSign token)

/-- `INT64_MAX`. -/
def int64Max : UInt64 := 9223372036854775807

/-- `UINT64_C(1) << 63`. -/
def int64MinMagnitude : UInt64 := (1 : UInt64) <<< (63 : UInt64)

/-- `praktor_value_is_int64`. -/
def praktorValueIsInt64 : Option Json → Bool
  | some (.number value) =>
      match integerToken value with
      | none => false
      | some token => (magnitude token true int64Max int64MinMagnitude).isSome
  | _ => false

/-- `praktor_value_is_uint64`. -/
def praktorValueIsUint64 : Option Json → Bool
  | some (.number value) =>
      match integerToken value with
      | none => false
      | some token => (magnitude token false 18446744073709551615 0).isSome
  | _ => false

/-- `negative_limit`. -/
def negativeLimit (bits : Nat) (isSigned : Bool) : UInt64 :=
  if isSigned then 1 <<< UInt64.ofNat (bits - 1) else 0

/-- `positive_limit`. -/
def positiveLimit (bits : Nat) (isSigned : Bool) : UInt64 :=
  if isSigned then negativeLimit bits true - 1
  else if bits = 64 then 18446744073709551615 else 1 <<< UInt64.ofNat bits - 1

/-- The conversion of `integer_value` through a double. -/
def doubleInteger (doubles : IntegerDoubles) (value : JsonNumber) (bits : Nat) (isSigned : Bool) :
    Option (UInt64 × Bool) :=
  let number := doubles.ofJson value
  let upper := doubles.ldexp (if isSigned then bits - 1 else bits)
  let (whole, integral) := doubles.modf number
  let lower := if isSigned then doubles.neg upper else doubles.zero
  if !doubles.isFinite number || !whole || doubles.less integral lower ||
      !doubles.less integral upper then none
  else
    let negative := doubles.less integral doubles.zero
    some (doubles.toUInt64 (if negative then doubles.neg integral else integral), negative)

/-- `integer_value`, with the message of a refusal. -/
def integerValue (doubles : IntegerDoubles) (value : Option Json) (bits : Nat) (isSigned : Bool) :
    Except (IntegerStatus × Bytes) (UInt64 × Bool) :=
  match value with
  | some (.number value) =>
      if bits = 0 || bits > 64 then
        .error (.einval, ascii "Invalid WorkflowValue integer width")
      else
        match integerToken value with
        | some token =>
            match magnitude token isSigned (positiveLimit bits isSigned)
                (negativeLimit bits isSigned) with
            | none => .error (.erange, ascii "WorkflowValue integer is out of range")
            | some result => .ok result
        | none =>
            match doubleInteger doubles value bits isSigned with
            | none =>
                .error (.erange, ascii "WorkflowValue number cannot be represented as an integer")
            | some result => .ok result
  | _ => .error (.einval, ascii "WorkflowValue is not a number")

/-- The signed result of a magnitude. -/
def signedResult (result : UInt64) (negative : Bool) : Int64 :=
  if negative then
    if result = int64MinMagnitude then Int64.minValue else -result.toInt64
  else result.toInt64

/-- `praktor_value_as_signed`. -/
def praktorValueAsSigned (doubles : IntegerDoubles) (value : Option Json) (bits : Nat) :
    Except (IntegerStatus × Bytes) Int64 :=
  (integerValue doubles value bits true).map fun found => signedResult found.1 found.2

/-- `praktor_value_as_unsigned`. -/
def praktorValueAsUnsigned (doubles : IntegerDoubles) (value : Option Json) (bits : Nat) :
    Except (IntegerStatus × Bytes) UInt64 :=
  (integerValue doubles value bits false).map Prod.fst

/-! ## The denoted integer -/

/-- A token of decimal digits, after a minus or not. -/
structure IntegerText where
  negative : Bool
  digits : Bytes
  nonempty : digits ≠ []
  decimal : ∀ byte ∈ digits, isDecimal byte = true

/-- The value of decimal digits after a beginning of this value. -/
def digitsValue (digits : Bytes) (initial : Nat) : Nat :=
  digits.foldl (fun value byte => value * 10 + (byte.toNat - 48)) initial

namespace IntegerText

/-- The bytes of the token. -/
def token (text : IntegerText) : Bytes := if text.negative then 45 :: text.digits else text.digits

/-- The JSON number of the token. -/
def number (text : IntegerText) : Option Json := some (.number (.parsed text.token))

/-- The absolute value. -/
def size (text : IntegerText) : Nat := digitsValue text.digits 0

/-- The denoted integer. -/
def value (text : IntegerText) : Int := if text.negative then -text.size else text.size

end IntegerText

/-! ## The loop -/

section Loop

variable {limit result digit : UInt64} {byte : UInt8} {digits : Bytes}

theorem digitsValue_cons (byte : UInt8) (rest : Bytes) (initial : Nat) :
    digitsValue (byte :: rest) initial = digitsValue rest (initial * 10 + (byte.toNat - 48)) :=
  List.foldl_cons

theorem le_digitsValue (digits : Bytes) (initial : Nat) : initial ≤ digitsValue digits initial := by
  induction digits generalizing initial with
  | nil => exact Nat.le_refl _
  | cons byte rest ih =>
      rw [digitsValue_cons]
      exact Nat.le_trans (by omega) (ih _)

theorem isDecimal_iff : isDecimal byte = true ↔ 48 ≤ byte.toNat ∧ byte.toNat ≤ 57 := by
  have hlow : (48 : UInt8).toNat = 48 := rfl
  have hhigh : (57 : UInt8).toNat = 57 := rfl
  rw [isDecimal, Bool.and_eq_true, decide_eq_true_eq, decide_eq_true_eq, UInt8.le_iff_toNat_le,
    UInt8.le_iff_toNat_le, hlow, hhigh]

theorem digitOf_toNat (hbyte : isDecimal byte = true) :
    (digitOf byte).toNat = byte.toNat - 48 ∧ byte.toNat - 48 ≤ 9 := by
  obtain ⟨hlow, hhigh⟩ := isDecimal_iff.mp hbyte
  have hsub : (byte.toUInt32 - 48).toNat = byte.toNat - 48 := by
    rw [UInt32.toNat_sub_of_le _ _ (by rw [UInt32.le_iff_toNat_le]; exact hlow)]
    rfl
  refine ⟨?_, by omega⟩
  rw [digitOf, UInt32.toNat_toUInt64, hsub]

/-- The check before a digit is added, on numbers. -/
theorem refusesDigit_iff : refusesDigit limit result digit = true ↔
    9 < digit.toNat ∨ limit.toNat < result.toNat * 10 + digit.toNat := by
  have hten : (limit / 10).toNat = limit.toNat / 10 := UInt64.toNat_div _ _
  have hunit : (limit % 10).toNat = limit.toNat % 10 := UInt64.toNat_mod _ _
  simp only [refusesDigit, Bool.or_eq_true, Bool.and_eq_true, decide_eq_true_eq, gt_iff_lt,
    UInt64.lt_iff_toNat_lt, ← UInt64.toNat_inj, hten, hunit]
  have hnine : (9 : UInt64).toNat = 9 := rfl
  omega

/-- No addition wraps around. -/
theorem toNat_step (haccepts : refusesDigit limit result digit = false) :
    (result * 10 + digit).toNat = result.toNat * 10 + digit.toNat := by
  have hnot := mt refusesDigit_iff.mpr (by rw [haccepts]; decide)
  have hlimit := limit.toNat_lt
  have hten : (10 : UInt64).toNat = 10 := rfl
  rw [UInt64.toNat_add, UInt64.toNat_mul, hten]
  omega

/-- The loop returns the value of the digits when it is within the limit. -/
theorem accumulate_spec (hdigits : ∀ byte ∈ digits, isDecimal byte = true)
    (hresult : result ≤ limit) : (accumulate limit digits result).map UInt64.toNat =
      if digitsValue digits result.toNat ≤ limit.toNat then some (digitsValue digits result.toNat)
      else none := by
  induction digits generalizing result with
  | nil =>
      have hwithin : digitsValue [] result.toNat ≤ limit.toNat := UInt64.le_iff_toNat_le.mp hresult
      rw [if_pos hwithin]
      rfl
  | cons byte rest ih =>
      obtain ⟨hdigit, hnine⟩ := digitOf_toNat (hdigits byte List.mem_cons_self)
      rw [accumulate, digitsValue_cons]
      cases hrefuses : refusesDigit limit result (digitOf byte) with
      | true =>
          rw [if_pos rfl, if_neg]
          · rfl
          · have hbeyond := refusesDigit_iff.mp hrefuses
            have hle := le_digitsValue rest (result.toNat * 10 + (byte.toNat - 48))
            omega
      | false =>
          have hstep := toNat_step hrefuses
          have hwithin := mt refusesDigit_iff.mpr (by rw [hrefuses]; decide)
          rw [if_neg Bool.false_ne_true, ih (fun other hother => hdigits other
            (List.mem_cons_of_mem _ hother)) (UInt64.le_iff_toNat_le.mpr (by omega)), hstep, hdigit]

end Loop

/-! ## Tokens -/

namespace IntegerText

variable (text : IntegerText)

theorem hasSign_token : hasSign text.token = text.negative := by
  unfold hasSign IntegerText.token
  cases hnegative : text.negative with
  | true => rfl
  | false =>
      obtain ⟨first, rest, hdigits⟩ := List.exists_cons_of_ne_nil text.nonempty
      have hfirst := isDecimal_iff.mp (text.decimal first (by rw [hdigits]; exact List.mem_cons_self))
      rw [if_neg Bool.false_ne_true, hdigits, List.head?_cons, decide_eq_false_iff_not]
      intro hminus
      rw [Option.some.inj hminus] at hfirst
      exact absurd hfirst.1 (by decide)

theorem integerToken_parsed : integerToken (.parsed text.token) = some text.token := by
  have hplain : ∀ byte ∈ text.token, ¬ (byte = 46 ∨ byte = 101 ∨ byte = 69) := by
    intro byte hbyte
    have hcases : byte = 45 ∨ isDecimal byte = true := by
      unfold IntegerText.token at hbyte
      split at hbyte
      · rcases List.mem_cons.mp hbyte with rfl | hbyte
        · exact .inl rfl
        · exact .inr (text.decimal byte hbyte)
      · exact .inr (text.decimal byte hbyte)
    rcases hcases with rfl | hdecimal
    · decide
    · have hrange := isDecimal_iff.mp hdecimal
      rintro (rfl | rfl | rfl)
      · exact absurd hrange (by decide)
      · exact absurd hrange (by decide)
      · exact absurd hrange (by decide)
  have hsome : text.token.isEmpty = false := by
    unfold IntegerText.token
    split
    · rfl
    · exact List.isEmpty_eq_false_iff.mpr text.nonempty
  have hnone : (text.token.any fun byte => byte = 46 || byte = 101 || byte = 69) = false := by
    refine List.any_eq_false.mpr fun byte hbyte htrue => hplain byte hbyte ?_
    simpa [or_assoc] using htrue
  simp only [integerToken, jsonNumberText, hsome, hnone]
  rfl

/-- The magnitude of a token within the limit of its sign. -/
theorem magnitude_spec (allowNegative : Bool) (positive negative : UInt64) :
    (magnitude text.token allowNegative positive negative).map
        (fun found => (found.1.toNat, found.2)) =
      if (text.negative = true → allowNegative = true) ∧
          text.size ≤ (if text.negative then negative else positive).toNat then
        some (text.size, text.negative)
      else none := by
  have hdigits : (if text.negative then text.token.drop 1 else text.token) = text.digits := by
    unfold IntegerText.token
    cases text.negative <;> rfl
  have hsome : text.digits.isEmpty = false := List.isEmpty_eq_false_iff.mpr text.nonempty
  have hloop := @accumulate_spec (if text.negative then negative else positive) 0 text.digits
    text.decimal (UInt64.le_iff_toNat_le.mpr (Nat.zero_le _))
  rw [magnitude, hasSign_token, hdigits]
  dsimp only
  rw [hsome]
  by_cases hallowed : text.negative = true → allowNegative = true
  · have hnot : (text.negative && !allowNegative) = false := by
      cases hnegative : text.negative with
      | true => simp [hallowed hnegative]
      | false => rfl
    rw [hnot, if_neg Bool.false_ne_true, if_neg Bool.false_ne_true, Option.map_map]
    change (accumulate _ text.digits 0).map _ = _
    have hcompose : ((fun found : UInt64 × Bool => (found.1.toNat, found.2)) ∘
        fun result => (result, text.negative)) = (fun size => (size, text.negative)) ∘ UInt64.toNat :=
      rfl
    rw [hcompose, ← Option.map_map, hloop]
    change (if text.size ≤ _ then some text.size else none).map _ = _
    by_cases hwithin : text.size ≤ (if text.negative then negative else positive).toNat
    · rw [if_pos hwithin, if_pos ⟨hallowed, hwithin⟩]
      rfl
    · rw [if_neg hwithin, if_neg fun hboth => hwithin hboth.2]
      rfl
  · have hrefused : (text.negative && !allowNegative) = true := by
      cases hnegative : text.negative with
      | true =>
          cases allowNegative with
          | true => exact absurd (fun _ => rfl) hallowed
          | false => rfl
      | false => exact absurd (fun htrue => absurd htrue (by simp [hnegative])) hallowed
    rw [hrefused, if_pos rfl, if_neg fun hboth => hallowed hboth.1]
    rfl

/-- A token is refused only for its range. -/
theorem integerValue_number (doubles : IntegerDoubles) {bits : Nat} (hbits : 1 ≤ bits ∧ bits ≤ 64)
    (isSigned : Bool) : integerValue doubles text.number bits isSigned =
      match magnitude text.token isSigned (positiveLimit bits isSigned)
          (negativeLimit bits isSigned) with
      | none => .error (.erange, ascii "WorkflowValue integer is out of range")
      | some result => .ok result := by
  have hwidth : (decide (bits = 0) || decide (bits > 64)) = false := by
    simp only [Bool.or_eq_false_iff, decide_eq_false_iff_not]
    omega
  simp only [integerValue, IntegerText.number, hwidth, integerToken_parsed]
  rfl

end IntegerText

/-! ## The limits -/

section Limits

variable {bits : Nat}

theorem shift_toNat (hbits : bits < 64) :
    ((1 : UInt64) <<< UInt64.ofNat bits).toNat = 2 ^ bits := by
  have hbound : 2 ^ bits < 18446744073709551616 :=
    Nat.lt_of_le_of_lt (Nat.pow_le_pow_right (by decide) (Nat.le_of_lt_succ hbits)) (by decide)
  have hamount : (UInt64.ofNat bits).toNat = bits :=
    UInt64.toNat_ofNat_of_lt' (Nat.lt_trans hbits (by decide))
  have hone : (1 : UInt64).toNat = 1 := rfl
  rw [UInt64.toNat_shiftLeft, hamount, Nat.mod_eq_of_lt hbits, hone, Nat.shiftLeft_eq, Nat.one_mul]
  exact Nat.mod_eq_of_lt hbound

/-- The limit of negative numbers is exact. -/
theorem negativeLimit_toNat (hbits : 1 ≤ bits ∧ bits ≤ 64) :
    (negativeLimit bits true).toNat = 2 ^ (bits - 1) := shift_toNat (by omega)

/-- The limits of nonnegative numbers are exact, and neither subtraction wraps around. -/
theorem positiveLimit_toNat (hbits : 1 ≤ bits ∧ bits ≤ 64) :
    (positiveLimit bits true).toNat = 2 ^ (bits - 1) - 1 ∧
      (positiveLimit bits false).toNat = 2 ^ bits - 1 := by
  have hone : (1 : UInt64).toNat = 1 := rfl
  have hsub {word : UInt64} {size : Nat} (hword : word.toNat = 2 ^ size) :
      (word - 1).toNat = 2 ^ size - 1 := by
    have hpositive := Nat.two_pow_pos size
    rw [UInt64.toNat_sub_of_le _ _ (by rw [UInt64.le_iff_toNat_le, hword, hone]; exact hpositive),
      hword, hone]
  refine ⟨hsub (negativeLimit_toNat hbits), ?_⟩
  by_cases hwide : bits = 64
  · subst hwide
    rfl
  · have hshift : positiveLimit bits false = 1 <<< UInt64.ofNat bits - 1 := if_neg hwide
    rw [hshift]
    exact hsub (shift_toNat (by omega))

theorem toInt64_toInt {result : UInt64} (hresult : result.toNat < 9223372036854775808) :
    result.toInt64.toInt = result.toNat :=
  BitVec.toInt_eq_toNat_of_lt (by
    change 2 * result.toNat < 18446744073709551616
    omega)

/-- The negation of a magnitude other than that of `INT64_MIN` does not overflow. -/
theorem neg_toInt64_toInt {result : UInt64} (hresult : result.toNat < 9223372036854775808) :
    (-result.toInt64).toInt = -result.toInt64.toInt := by
  have hplain := toInt64_toInt hresult
  rw [Int64.toInt_neg]
  exact Int.bmod_eq_of_le (by omega) (by omega)

theorem signedResult_toInt {result : UInt64} {negative : Bool} (hresult : result.toNat ≤
      if negative then int64MinMagnitude.toNat else int64MinMagnitude.toNat - 1) :
    (signedResult result negative).toInt =
      if negative then -(result.toNat : Int) else (result.toNat : Int) := by
  have hmagnitude : int64MinMagnitude.toNat = 9223372036854775808 := rfl
  unfold signedResult
  rw [hmagnitude] at hresult
  cases negative with
  | false =>
      simp only [Bool.false_eq_true, if_false] at hresult ⊢
      exact toInt64_toInt (by omega)
  | true =>
      simp only [if_true] at hresult ⊢
      by_cases hmin : result = int64MinMagnitude
      · rw [if_pos hmin, hmin, hmagnitude]
        rfl
      · have hless : result.toNat < 9223372036854775808 := by
          have hne : result.toNat ≠ int64MinMagnitude.toNat := fun hsame =>
            hmin (UInt64.toNat_inj.mp hsame)
          omega
        rw [if_neg hmin, neg_toInt64_toInt hless, toInt64_toInt hless]

end Limits

/-! ## Exact conversions -/

/-- The additions of the loop: what was there and the digit. -/
def additions (limit : UInt64) : Bytes → UInt64 → List (UInt64 × UInt64)
  | [], _ => []
  | byte :: rest, result =>
      if refusesDigit limit result (digitOf byte) then []
      else (result, digitOf byte) :: additions limit rest (result * 10 + digitOf byte)

theorem toNat_additions (limit : UInt64) (digits : Bytes) (result : UInt64) :
    ∀ addition ∈ additions limit digits result,
      (addition.1 * 10 + addition.2).toNat = addition.1.toNat * 10 + addition.2.toNat := by
  induction digits generalizing result with
  | nil => exact fun addition hmem => absurd hmem List.not_mem_nil
  | cons byte rest ih =>
      intro addition hmem
      rw [additions] at hmem
      split at hmem
      · exact absurd hmem List.not_mem_nil
      · next haccepts =>
          rcases List.mem_cons.mp hmem with rfl | hmem
          · exact toNat_step (Bool.eq_false_iff.mpr haccepts)
          · exact ih _ addition hmem

/-- What a conversion is to do with a token, at a width. -/
structure ExactConversions (doubles : IntegerDoubles) (text : IntegerText) (bits : Nat) : Prop where
  signed_ok : (∃ out, praktorValueAsSigned doubles text.number bits = .ok out) ↔
    -2 ^ (bits - 1) ≤ text.value ∧ text.value ≤ 2 ^ (bits - 1) - 1
  signed_value : ∀ out, praktorValueAsSigned doubles text.number bits = .ok out →
    out.toInt = text.value
  unsigned_ok : (∃ out, praktorValueAsUnsigned doubles text.number bits = .ok out) ↔
    text.negative = false ∧ text.value ≤ 2 ^ bits - 1
  unsigned_value : ∀ out, praktorValueAsUnsigned doubles text.number bits = .ok out →
    (out.toNat : Int) = text.value
  int64 : praktorValueIsInt64 text.number = true ↔
    ∃ out, praktorValueAsSigned doubles text.number 64 = .ok out
  uint64 : praktorValueIsUint64 text.number = true ↔
    ∃ out, praktorValueAsUnsigned doubles text.number 64 = .ok out
  /-- The limits are the numbers that the source means. -/
  limits : (negativeLimit bits true).toNat = 2 ^ (bits - 1) ∧
    (positiveLimit bits true).toNat = 2 ^ (bits - 1) - 1 ∧
      (positiveLimit bits false).toNat = 2 ^ bits - 1
  /-- No addition wraps around, whatever the limit is. -/
  additions : ∀ limit, ∀ addition ∈ additions limit text.digits 0,
    (addition.1 * 10 + addition.2).toNat = addition.1.toNat * 10 + addition.2.toNat
  /-- No negation overflows: `INT64_MIN` is not reached by one. -/
  negation : ∀ result : UInt64, result.toNat ≤ 2 ^ (bits - 1) → result ≠ int64MinMagnitude →
    (-result.toInt64).toInt = -(result.toNat : Int)

section Conversions

variable (doubles : IntegerDoubles) (text : IntegerText) {bits : Nat}

/-- A magnitude that was found. -/
theorem magnitude_eq_some {allowNegative : Bool} {positive negative result : UInt64} {sign : Bool}
    (hfound : magnitude text.token allowNegative positive negative = some (result, sign)) :
    sign = text.negative ∧ result.toNat = text.size ∧
      (text.negative = true → allowNegative = true) ∧
        text.size ≤ (if text.negative then negative else positive).toNat := by
  have hspec := text.magnitude_spec allowNegative positive negative
  rw [hfound] at hspec
  by_cases hrange : (text.negative = true → allowNegative = true) ∧
      text.size ≤ (if text.negative then negative else positive).toNat
  · rw [if_pos hrange] at hspec
    have hpair := Option.some.inj hspec
    exact ⟨congrArg Prod.snd hpair, congrArg Prod.fst hpair, hrange⟩
  · rw [if_neg hrange] at hspec
    cases hspec

theorem magnitude_isSome {allowNegative : Bool} {positive negative : UInt64} :
    (magnitude text.token allowNegative positive negative).isSome = true ↔
      (text.negative = true → allowNegative = true) ∧
        text.size ≤ (if text.negative then negative else positive).toNat := by
  have hspec := congrArg Option.isSome (text.magnitude_spec allowNegative positive negative)
  rw [Option.isSome_map] at hspec
  rw [hspec]
  by_cases hrange : (text.negative = true → allowNegative = true) ∧
      text.size ≤ (if text.negative then negative else positive).toNat
  · rw [if_pos hrange]
    exact ⟨fun _ => hrange, fun _ => rfl⟩
  · rw [if_neg hrange]
    exact ⟨fun hsome => absurd hsome Bool.false_ne_true, fun hboth => absurd hboth hrange⟩

/-- The range of a width, in terms of the magnitude. -/
theorem signed_range (hbits : 1 ≤ bits ∧ bits ≤ 64) :
    (text.size ≤ (if text.negative then negativeLimit bits true else positiveLimit bits true).toNat) ↔
      (-2 ^ (bits - 1) ≤ text.value ∧ text.value ≤ 2 ^ (bits - 1) - 1) := by
  have hnegative := negativeLimit_toNat hbits
  have hpositive := (positiveLimit_toNat hbits).1
  have hpower : ((2 ^ (bits - 1) : Nat) : Int) = 2 ^ (bits - 1) := by push_cast; rfl
  have hone := Nat.two_pow_pos (bits - 1)
  rw [← hpower]
  unfold IntegerText.value
  cases text.negative with
  | true =>
      simp only [if_true]
      omega
  | false =>
      simp only [Bool.false_eq_true, if_false]
      omega

theorem signed_iff (hbits : 1 ≤ bits ∧ bits ≤ 64) :
    (∃ out, praktorValueAsSigned doubles text.number bits = .ok out) ↔
      (magnitude text.token true (positiveLimit bits true) (negativeLimit bits true)).isSome =
        true := by
  rw [praktorValueAsSigned, text.integerValue_number doubles hbits]
  cases magnitude text.token true (positiveLimit bits true) (negativeLimit bits true) with
  | none =>
      refine ⟨fun ⟨out, hout⟩ => ?_, fun hsome => nomatch hsome⟩
      cases hout
  | some found => exact ⟨fun _ => rfl, fun _ => ⟨_, rfl⟩⟩

theorem unsigned_iff (hbits : 1 ≤ bits ∧ bits ≤ 64) :
    (∃ out, praktorValueAsUnsigned doubles text.number bits = .ok out) ↔
      (magnitude text.token false (positiveLimit bits false) (negativeLimit bits false)).isSome =
        true := by
  rw [praktorValueAsUnsigned, text.integerValue_number doubles hbits]
  cases magnitude text.token false (positiveLimit bits false) (negativeLimit bits false) with
  | none =>
      refine ⟨fun ⟨out, hout⟩ => ?_, fun hsome => nomatch hsome⟩
      cases hout
  | some found => exact ⟨fun _ => rfl, fun _ => ⟨_, rfl⟩⟩

theorem signed_value (hbits : 1 ≤ bits ∧ bits ≤ 64) {out : Int64}
    (hout : praktorValueAsSigned doubles text.number bits = .ok out) : out.toInt = text.value := by
  rw [praktorValueAsSigned, text.integerValue_number doubles hbits] at hout
  cases hfound : magnitude text.token true (positiveLimit bits true) (negativeLimit bits true) with
  | none =>
      rw [hfound] at hout
      cases hout
  | some found =>
      obtain ⟨result, sign⟩ := found
      rw [hfound] at hout
      obtain rfl : signedResult result sign = out := Except.ok.inj hout
      obtain ⟨rfl, hsize, -, hlimit⟩ := magnitude_eq_some text hfound
      have hhalf : (2 : Nat) ^ (bits - 1) ≤ 9223372036854775808 :=
        Nat.le_trans (Nat.pow_le_pow_right (by decide) (by omega : bits - 1 ≤ 63)) (by decide)
      have hmagnitude : int64MinMagnitude.toNat = 9223372036854775808 := rfl
      have hnegative := negativeLimit_toNat hbits
      have hpositive := (positiveLimit_toNat hbits).1
      unfold IntegerText.value
      rw [signedResult_toInt, hsize]
      cases hsign : text.negative with
      | true =>
          rw [hsign] at hlimit
          simp only [if_true] at hlimit ⊢
          omega
      | false =>
          rw [hsign] at hlimit
          simp only [Bool.false_eq_true, if_false] at hlimit ⊢
          omega

theorem unsigned_value (hbits : 1 ≤ bits ∧ bits ≤ 64) {out : UInt64}
    (hout : praktorValueAsUnsigned doubles text.number bits = .ok out) :
    (out.toNat : Int) = text.value := by
  rw [praktorValueAsUnsigned, text.integerValue_number doubles hbits] at hout
  cases hfound : magnitude text.token false (positiveLimit bits false)
      (negativeLimit bits false) with
  | none =>
      rw [hfound] at hout
      cases hout
  | some found =>
      obtain ⟨result, sign⟩ := found
      rw [hfound] at hout
      obtain rfl : result = out := Except.ok.inj hout
      obtain ⟨-, hsize, hsign, -⟩ := magnitude_eq_some text hfound
      have hplain : text.negative = false := by
        cases hnegative : text.negative with
        | true => exact absurd (hsign hnegative) Bool.false_ne_true
        | false => rfl
      rw [IntegerText.value, hplain, hsize]
      rfl

theorem unsigned_range (hbits : 1 ≤ bits ∧ bits ≤ 64) :
    ((text.negative = true → false = true) ∧
        text.size ≤ (if text.negative then negativeLimit bits false
          else positiveLimit bits false).toNat) ↔
      (text.negative = false ∧ text.value ≤ 2 ^ bits - 1) := by
  have hpositive := (positiveLimit_toNat hbits).2
  have hpower : ((2 ^ bits : Nat) : Int) = 2 ^ bits := by push_cast; rfl
  have hone := Nat.two_pow_pos bits
  rw [← hpower]
  unfold IntegerText.value
  cases text.negative with
  | true => simp
  | false =>
      simp only [Bool.false_eq_true, if_false, false_implies, true_and, hpositive]
      omega

end Conversions

/-- Every conversion of a token is exact at every width. -/
theorem praktorValue_integers_exact (doubles : IntegerDoubles) (text : IntegerText) (bits : Nat)
    (hbits : 1 ≤ bits ∧ bits ≤ 64) : ExactConversions doubles text bits where
  signed_ok := by
    rw [signed_iff doubles text hbits, magnitude_isSome, ← signed_range text hbits]
    exact ⟨And.right, fun hrange => ⟨fun _ => rfl, hrange⟩⟩
  signed_value := fun _ => signed_value doubles text hbits
  unsigned_ok := by
    rw [unsigned_iff doubles text hbits, magnitude_isSome, unsigned_range text hbits]
  unsigned_value := fun _ => unsigned_value doubles text hbits
  int64 := by
    rw [signed_iff doubles text (by decide)]
    simp only [praktorValueIsInt64, IntegerText.number, text.integerToken_parsed]
    rfl
  uint64 := by
    rw [unsigned_iff doubles text (by decide)]
    simp only [praktorValueIsUint64, IntegerText.number, text.integerToken_parsed]
    rfl
  limits := ⟨negativeLimit_toNat hbits, positiveLimit_toNat hbits⟩
  additions := fun limit => toNat_additions limit text.digits 0
  negation := by
    intro result hresult hmin
    have hhalf : (2 : Nat) ^ (bits - 1) ≤ 9223372036854775808 :=
      Nat.le_trans (Nat.pow_le_pow_right (by decide) (by omega : bits - 1 ≤ 63)) (by decide)
    have hmagnitude : int64MinMagnitude.toNat = 9223372036854775808 := rfl
    have hne : result.toNat ≠ int64MinMagnitude.toNat := fun hsame =>
      hmin (UInt64.toNat_inj.mp hsame)
    rw [neg_toInt64_toInt (by omega), toInt64_toInt (by omega)]

/-- Whole numbers in the place of doubles. -/
def wholeDoubles : IntegerDoubles where
  Number := Int
  ofJson
    | .built value => value
    | .parsed _ => 0
  isFinite _ := true
  modf value := (true, value)
  ldexp exponent := 2 ^ exponent
  zero := 0
  neg value := -value
  less a b := a < b
  toUInt64 value := UInt64.ofNat value.toNat

/-- The least integer of eight bits, with a leading zero. -/
def leastByte : IntegerText where
  negative := true
  digits := ascii "0128"
  nonempty := by decide
  decimal := by decide +kernel

theorem praktorValue_integers_exact_leastByte : ExactConversions wholeDoubles leastByte 8 :=
  praktorValue_integers_exact wholeDoubles leastByte 8 (by decide)

end Praktor.Documents
