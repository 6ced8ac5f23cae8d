/-
# The integers of `force_terminate`

A text of `force_terminate` may be an integer: a sign, a prefix for the base and underscores are
allowed, and the integer must be zero or one.  The digits are accumulated in an unsigned word that
is checked before each of them, so it never wraps, and a text of any length is read for what it
denotes.
-/

import Mathlib.Data.Nat.Digits.Defs
import Praktor.Data.Bytes

namespace Praktor.Yaml

open Praktor.Data

/-! ## Reading -/

/-- The value of a byte as a digit. -/
def digitValue (byte : UInt8) : Option Nat :=
  if 48 ≤ byte ∧ byte ≤ 57 then some (byte.toNat - 48)
  else if 97 ≤ byte ∧ byte ≤ 102 then some (byte.toNat - 97 + 10)
  else if 65 ≤ byte ∧ byte ≤ 70 then some (byte.toNat - 65 + 10)
  else none

/-- The loop over the digits; the sum and the product are those of `uint64_t`. -/
def readDigits (base : Nat) : Bytes → Nat → Bool → Option (Nat × Bool)
  | [], number, digits => some (number, digits)
  | byte :: rest, number, digits =>
      if byte = 95 then readDigits base rest number digits
      else
        match digitValue byte with
        | none => none
        | some digit =>
            if digit ≥ base ∨ number > (uint64Max - digit) / base then none
            else readDigits base rest ((number * base + digit) % (uint64Max + 1)) true

/-- The base that a prefix stands for. -/
def prefixBase : Bytes → Nat
  | 48 :: letter :: _ =>
      if letter = 98 then 2 else if letter = 111 then 8 else if letter = 120 then 16 else 10
  | _ => 10

/-- `isdigit` of the first byte. -/
def startsWithDigit : Bytes → Bool
  | byte :: _ => 48 ≤ byte && byte ≤ 57
  | [] => false

/-- `praktor_yaml_force_terminate_integer` of a text that is valid, with the output before. -/
def praktorYamlForceTerminateInteger (value : Bytes) (out : Bool) : Salts × Bool :=
  let negative := value.head? = some 45
  let text := if negative ∨ value.head? = some 43 then value.drop 1 else value
  let base := prefixBase text
  let digits := if base ≠ 10 then text.drop 2 else text
  if value = [] ∨ text = [] then (.enoent, out)
  else if digits = [] ∨ (base = 10 ∧ !startsWithDigit digits) then (.enoent, out)
  else
    match readDigits base digits 0 false with
    | none => (.enoent, out)
    | some (number, seen) =>
        if !seen ∨ number > 1 ∨ (negative ∧ number ≠ 0) then (.enoent, out)
        else (.ok, number = 1)

/-! ## Integers -/

/-- A byte is a digit of a base or an underscore. -/
def IsDigitOf (base : Nat) (byte : UInt8) : Prop :=
  byte = 95 ∨ ∃ digit, digitValue byte = some digit ∧ digit < base

/-- The digits of a text without its underscores. -/
def digitsOf (text : Bytes) : List Nat := text.filterMap digitValue

/-- The number that digits denote. -/
def denoted (base : Nat) (text : Bytes) : Nat := Nat.ofDigits base (digitsOf text).reverse

/-- The letters that stand for a base after a zero. -/
def baseLetters : List (UInt8 × Nat) := [(98, 2), (111, 8), (120, 16)]

/-- An integer without its sign. -/
inductive UnsignedText : Bytes → Nat → Prop
  | decimal (first : UInt8) (rest : Bytes) (hfirst : 48 ≤ first ∧ first ≤ 57)
      (hrest : ∀ byte ∈ rest, IsDigitOf 10 byte) :
      UnsignedText (first :: rest) (denoted 10 (first :: rest))
  | radix (letter : UInt8) (base : Nat) (digits : Bytes) (hbase : (letter, base) ∈ baseLetters)
      (hdigits : ∀ byte ∈ digits, IsDigitOf base byte) (hsome : digitsOf digits ≠ []) :
      UnsignedText (48 :: letter :: digits) (denoted base digits)

/-- An integer with a sign or without one. -/
inductive SignedText : Bytes → Bool → Nat → Prop
  | unsigned (text : Bytes) (number : Nat) (htext : UnsignedText text number) :
      SignedText text false number
  | plus (text : Bytes) (number : Nat) (htext : UnsignedText text number) :
      SignedText (43 :: text) false number
  | minus (text : Bytes) (number : Nat) (htext : UnsignedText text number) :
      SignedText (45 :: text) true number

/-! ## The loop -/

/-- The number that digits denote after a beginning of this number. -/
def denotedFrom (base : Nat) (text : Bytes) (initial : Nat) : Nat :=
  (digitsOf text).foldl (fun number digit => number * base + digit) initial

theorem denotedFrom_zero (base : Nat) (text : Bytes) :
    denotedFrom base text 0 = denoted base text := by
  rw [denotedFrom, denoted, Nat.ofDigits_eq_foldr, List.foldr_reverse]
  congr 1
  funext number digit
  rw [Nat.add_comm, Nat.mul_comm]
  rfl

section Loop

variable {base : Nat} {byte : UInt8} {rest : Bytes}

theorem digitValue_underscore : digitValue 95 = none := by decide

theorem digitsOf_underscore : digitsOf (95 :: rest) = digitsOf rest := by
  rw [digitsOf, List.filterMap_cons_none digitValue_underscore, digitsOf]

theorem digitsOf_digit {digit : Nat} (hdigit : digitValue byte = some digit) :
    digitsOf (byte :: rest) = digit :: digitsOf rest := by
  rw [digitsOf, List.filterMap_cons_some hdigit, digitsOf]

theorem denotedFrom_underscore (initial : Nat) :
    denotedFrom base (95 :: rest) initial = denotedFrom base rest initial := by
  rw [denotedFrom, digitsOf_underscore, denotedFrom]

theorem denotedFrom_digit {digit : Nat} (hdigit : digitValue byte = some digit) (initial : Nat) :
    denotedFrom base (byte :: rest) initial = denotedFrom base rest (initial * base + digit) := by
  rw [denotedFrom, digitsOf_digit hdigit, List.foldl_cons, denotedFrom]

theorem le_denotedFrom (hbase : 0 < base) (text : Bytes) (initial : Nat) :
    initial ≤ denotedFrom base text initial := by
  rw [denotedFrom]
  induction digitsOf text generalizing initial with
  | nil => exact Nat.le_refl _
  | cons digit rest ih =>
      rw [List.foldl_cons]
      exact Nat.le_trans (Nat.le_add_right_of_le (Nat.le_mul_of_pos_right _ hbase)) (ih _)

/-- The check before a digit says that the number still fits. -/
theorem fits_iff (hbase : 0 < base) {number digit : Nat} (hdigit : digit ≤ uint64Max) :
    ¬ number > (uint64Max - digit) / base ↔ number * base + digit ≤ uint64Max := by
  rw [Nat.not_lt, Nat.le_div_iff_mul_le hbase]
  omega

/-- The loop reads digits of the base whose number fits, and it reads them exactly. -/
theorem readDigits_eq_some (hbase : 0 < base) (hsmall : base ≤ 16) (text : Bytes) (number : Nat)
    (seen : Bool) (hnumber : number ≤ uint64Max) (result : Nat × Bool) :
    readDigits base text number seen = some result ↔
      (∀ byte ∈ text, IsDigitOf base byte) ∧ denotedFrom base text number ≤ uint64Max ∧
        result = (denotedFrom base text number, seen || decide (digitsOf text ≠ [])) := by
  induction text generalizing number seen with
  | nil => simp [readDigits, denotedFrom, digitsOf, hnumber, eq_comm]
  | cons byte rest ih =>
      rw [readDigits, List.forall_mem_cons]
      by_cases hunderscore : byte = 95
      · subst hunderscore
        rw [if_pos rfl, ih number seen hnumber, denotedFrom_underscore, digitsOf_underscore]
        simp [IsDigitOf]
      rw [if_neg hunderscore]
      cases hdigit : digitValue byte with
      | none => simp [IsDigitOf, hunderscore, hdigit]
      | some digit =>
          have hdigitOf : IsDigitOf base byte ↔ digit < base := by
            simp [IsDigitOf, hunderscore, hdigit]
          rw [hdigitOf, denotedFrom_digit hdigit, digitsOf_digit hdigit]
          simp only
          by_cases hlarge : digit ≥ base
          · rw [if_pos (.inl hlarge)]
            exact ⟨nofun, fun hdigits => absurd hdigits.1.1 (Nat.not_lt.mpr hlarge)⟩
          have hfits := @fits_iff base hbase number digit (by simp [uint64Max]; omega)
          by_cases hwraps : number > (uint64Max - digit) / base
          · rw [if_pos (.inr hwraps)]
            refine ⟨nofun, fun hdigits => absurd (hfits.not.mp (not_not.mpr hwraps)) ?_⟩
            exact not_not.mpr (Nat.le_trans (le_denotedFrom hbase rest _) hdigits.2.1)
          · have hnext := hfits.mp hwraps
            rw [if_neg (not_or.mpr ⟨hlarge, hwraps⟩), Nat.mod_eq_of_lt (Nat.lt_succ_of_le hnext),
              ih _ true hnext]
            simp [Nat.lt_of_not_le hlarge]

end Loop

/-! ## Prefixes -/

/-- What follows the prefix of a text. -/
def afterPrefix (text : Bytes) : Bytes := if prefixBase text ≠ 10 then text.drop 2 else text

/-- The loop reads a text without its sign as this number. -/
def ReadAs (text : Bytes) (number : Nat) : Prop :=
  (afterPrefix text ≠ [] ∧ (prefixBase text = 10 → startsWithDigit (afterPrefix text) = true)) ∧
    readDigits (prefixBase text) (afterPrefix text) 0 false = some (number, true)

theorem base_of_letter {letter : UInt8} {base : Nat} (hbase : (letter, base) ∈ baseLetters) :
    (base ≠ 10 ∧ 0 < base ∧ base ≤ 16) ∧ ¬ IsDigitOf 10 letter ∧
      ∀ digits, prefixBase (48 :: letter :: digits) = base := by
  simp only [baseLetters, List.mem_cons, Prod.mk.injEq, List.not_mem_nil, or_false] at hbase
  rcases hbase with ⟨rfl, rfl⟩ | ⟨rfl, rfl⟩ | ⟨rfl, rfl⟩ <;>
    exact ⟨by decide, by simp [IsDigitOf, digitValue], fun _ => rfl⟩

theorem prefixBase_cases (text : Bytes) :
    prefixBase text = 10 ∨
      ∃ letter base digits, (letter, base) ∈ baseLetters ∧ text = 48 :: letter :: digits := by
  unfold prefixBase
  split
  next letter digits =>
    by_cases hb : letter = 98
    · exact .inr ⟨98, 2, digits, by decide, by rw [hb]⟩
    by_cases ho : letter = 111
    · exact .inr ⟨111, 8, digits, by decide, by rw [ho]⟩
    by_cases hx : letter = 120
    · exact .inr ⟨120, 16, digits, by decide, by rw [hx]⟩
    · exact .inl (by rw [if_neg hb, if_neg ho, if_neg hx])
  next => exact .inl rfl

theorem prefixBase_decimal (first : UInt8) {rest : Bytes}
    (hrest : ∀ byte ∈ rest, IsDigitOf 10 byte) : prefixBase (first :: rest) = 10 := by
  obtain hten | ⟨letter, base, digits, hbase, htext⟩ := prefixBase_cases (first :: rest)
  · exact hten
  · rw [List.cons_eq_cons] at htext
    refine absurd (hrest letter ?_) (base_of_letter hbase).2.1
    rw [htext.2]
    exact List.mem_cons_self ..

theorem digit_of_range {byte : UInt8} (hbyte : 48 ≤ byte ∧ byte ≤ 57) :
    digitValue byte = some (byte.toNat - 48) ∧ byte.toNat - 48 < 10 := by
  refine ⟨by rw [digitValue, if_pos hbyte], ?_⟩
  have hle := UInt8.le_iff_toNat_le.mp hbyte.2
  simp only [UInt8.reduceToNat] at hle
  omega

/-- The loop reads the texts that are integers without a sign, of a number that fits. -/
theorem readAs_iff (text : Bytes) (number : Nat) :
    ReadAs text number ↔ UnsignedText text number ∧ number ≤ uint64Max := by
  constructor
  · rintro ⟨⟨hsome, hfirst⟩, hread⟩
    obtain hten | ⟨letter, base, digits, hbase, rfl⟩ := prefixBase_cases text
    · rw [afterPrefix, if_neg (not_not.mpr hten)] at hsome hfirst hread
      rw [hten, readDigits_eq_some (by decide) (by decide) _ _ _ (Nat.zero_le _),
        denotedFrom_zero, Prod.mk.injEq] at hread
      obtain ⟨hdigits, hfits, rfl, -⟩ := hread
      match text, hsome with
      | first :: rest, _ =>
          refine ⟨.decimal first rest ?_ fun byte hbyte => hdigits byte (.tail _ hbyte), hfits⟩
          simpa [startsWithDigit] using hfirst hten
    · have hletter := base_of_letter hbase
      rw [afterPrefix, hletter.2.2, if_pos hletter.1.1, List.drop_succ_cons, List.drop_one,
        List.tail_cons, readDigits_eq_some hletter.1.2.1 hletter.1.2.2 _ _ _ (Nat.zero_le _),
        denotedFrom_zero, Prod.mk.injEq] at hread
      obtain ⟨hdigits, hfits, rfl, hseen⟩ := hread
      exact ⟨.radix letter base digits hbase hdigits (by simpa using hseen.symm), hfits⟩
  · rintro ⟨htext, hfits⟩
    cases htext with
    | decimal first rest hfirst hrest =>
        have hten := prefixBase_decimal first hrest
        obtain ⟨hvalue, hsmall⟩ := digit_of_range hfirst
        rw [ReadAs, afterPrefix, if_neg (not_not.mpr hten), hten,
          readDigits_eq_some (by decide) (by decide) _ _ _ (Nat.zero_le _), denotedFrom_zero]
        refine ⟨⟨List.cons_ne_nil _ _, fun _ => by simpa [startsWithDigit] using hfirst⟩, ?_,
          hfits, ?_⟩
        · rw [List.forall_mem_cons]
          exact ⟨.inr ⟨_, hvalue, hsmall⟩, hrest⟩
        · rw [digitsOf_digit hvalue]
          simp
    | radix letter base digits hbase hdigits hseen =>
        have hletter := base_of_letter hbase
        rw [ReadAs, afterPrefix, hletter.2.2, if_pos hletter.1.1, List.drop_succ_cons,
          List.drop_one, List.tail_cons,
          readDigits_eq_some hletter.1.2.1 hletter.1.2.2 _ _ _ (Nat.zero_le _), denotedFrom_zero]
        refine ⟨⟨?_, fun hten => absurd hten hletter.1.1⟩, hdigits, hfits, by simp [hseen]⟩
        rintro rfl
        exact hseen rfl

/-! ## Signs -/

/-- What the function makes of a text without its sign. -/
def finish (text : Bytes) (negative : Bool) (out : Bool) : Salts × Bool :=
  if afterPrefix text = [] ∨ (prefixBase text = 10 ∧ !startsWithDigit (afterPrefix text)) then
    (.enoent, out)
  else
    match readDigits (prefixBase text) (afterPrefix text) 0 false with
    | none => (.enoent, out)
    | some (number, seen) =>
        if !seen ∨ number > 1 ∨ (negative ∧ number ≠ 0) then (.enoent, out)
        else (.ok, number = 1)

theorem finish_nil (negative out : Bool) : finish [] negative out = (.enoent, out) := by
  rw [finish, if_pos (.inl (by decide))]

/-- The flag that an integer stands for. -/
def FlagOf (negative : Bool) (number : Nat) (flag : Bool) : Prop :=
  (number = 0 ∧ flag = false) ∨ (number = 1 ∧ negative = false ∧ flag = true)

theorem FlagOf.fits {negative flag : Bool} {number : Nat} (hflag : FlagOf negative number flag) :
    number ≤ uint64Max := by
  obtain ⟨rfl, -⟩ | ⟨rfl, -⟩ := hflag <;> decide

/-- A number with its sign stands for a flag unless the last check refuses it. -/
theorem flagOf_iff (negative : Bool) (number : Nat) (flag : Bool) :
    FlagOf negative number flag ↔
      ¬ (number > 1 ∨ (negative ∧ number ≠ 0)) ∧ flag = decide (number = 1) := by
  match number with
  | 0 => simp [FlagOf]
  | 1 => simp [FlagOf]
  | number + 2 => simp [FlagOf]

theorem finish_eq_ok (text : Bytes) (negative out flag : Bool) :
    finish text negative out = (.ok, flag) ↔
      ∃ number, UnsignedText text number ∧ FlagOf negative number flag := by
  rw [finish]
  split
  next hbad =>
    refine ⟨nofun, ?_⟩
    rintro ⟨number, htext, hflag⟩
    obtain ⟨⟨hsome, hfirst⟩, -⟩ := (readAs_iff text number).mpr ⟨htext, hflag.fits⟩
    obtain hnil | ⟨hten, hnot⟩ := hbad
    · exact absurd hnil hsome
    · simp [hfirst hten] at hnot
  next hgood =>
    rw [not_or, not_and, Bool.not_eq_true, Bool.not_eq_false'] at hgood
    have hread (number : Nat) : UnsignedText text number ∧ number ≤ uint64Max ↔
        readDigits (prefixBase text) (afterPrefix text) 0 false = some (number, true) := by
      rw [← readAs_iff, ReadAs, and_iff_right hgood]
    constructor
    · intro hrun
      cases hdigits : readDigits (prefixBase text) (afterPrefix text) 0 false with
      | none => simp [hdigits] at hrun
      | some read =>
          obtain ⟨number, seen⟩ := read
          simp only [hdigits] at hrun
          split at hrun
          next => cases hrun
          next hkept =>
            rw [not_or, Bool.not_eq_true, Bool.not_eq_false'] at hkept
            rw [hkept.1] at hdigits
            refine ⟨number, ((hread number).mpr hdigits).1, ?_⟩
            rw [flagOf_iff]
            exact ⟨hkept.2, (congrArg Prod.snd hrun).symm⟩
    · rintro ⟨number, htext, hflag⟩
      rw [(hread number).mp ⟨htext, hflag.fits⟩]
      obtain ⟨hkept, rfl⟩ := (flagOf_iff negative number flag).mp hflag
      simp only [Bool.not_true, Bool.false_eq_true, false_or]
      rw [if_neg hkept]

theorem finish_kept {text : Bytes} {negative out : Bool}
    (hfails : (finish text negative out).1 ≠ .ok) : (finish text negative out).2 = out := by
  unfold finish at hfails ⊢
  split
  next => rfl
  next hgood =>
    rw [if_neg hgood] at hfails
    split
    next => rfl
    next number seen hread =>
      rw [hread] at hfails
      simp only at hfails
      split
      next => rfl
      next hok => exact absurd (by rw [if_neg hok]) hfails

/-- The function strips a sign and reads the rest. -/
theorem integer_eq (value : Bytes) (out : Bool) :
    praktorYamlForceTerminateInteger value out =
      match value with
      | 45 :: text => finish text true out
      | 43 :: text => finish text false out
      | text => finish text false out := by
  unfold praktorYamlForceTerminateInteger
  split
  next text =>
    cases text with
    | nil => rw [finish_nil]; rfl
    | cons first rest => simp [finish, afterPrefix]
  next text =>
    cases text with
    | nil => rw [finish_nil]; rfl
    | cons first rest => simp [finish, afterPrefix]
  next hminus hplus =>
    cases value with
    | nil => rw [finish_nil]; rfl
    | cons first rest =>
        have hfirst : first ≠ 45 ∧ first ≠ 43 :=
          ⟨fun heq => hminus rest (by rw [heq]), fun heq => hplus rest (by rw [heq])⟩
        simp [finish, afterPrefix, hfirst.1, hfirst.2]

theorem UnsignedText.unsigned_first {byte : UInt8} {text : Bytes} {number : Nat}
    (htext : UnsignedText (byte :: text) number) : 48 ≤ byte ∧ byte ≤ 57 := by
  cases htext with
  | decimal first rest hfirst hrest => exact hfirst
  | radix letter base digits hbase hdigits hseen => decide

/-- **The integers of `force_terminate` are read exactly.**  A text of any length is read with a
flag exactly if it is a signed integer in one of the four bases that is zero, or one without a
minus; otherwise the output is what it was. -/
theorem force_terminate_exact (value : Bytes) (out : Bool) :
    (∀ flag, praktorYamlForceTerminateInteger value out = (.ok, flag) ↔
      ∃ negative number, SignedText value negative number ∧ FlagOf negative number flag) ∧
    ((praktorYamlForceTerminateInteger value out).1 ≠ .ok →
      (praktorYamlForceTerminateInteger value out).2 = out) := by
  rw [integer_eq]
  split
  next text =>
    refine ⟨fun flag => ?_, finish_kept⟩
    rw [finish_eq_ok]
    constructor
    · rintro ⟨number, htext, hflag⟩
      exact ⟨true, number, .minus text number htext, hflag⟩
    · rintro ⟨negative, number, hsigned, hflag⟩
      cases hsigned with
      | unsigned _ _ htext => exact absurd htext.unsigned_first (by decide)
      | minus _ _ htext => exact ⟨number, htext, hflag⟩
  next text =>
    refine ⟨fun flag => ?_, finish_kept⟩
    rw [finish_eq_ok]
    constructor
    · rintro ⟨number, htext, hflag⟩
      exact ⟨false, number, .plus text number htext, hflag⟩
    · rintro ⟨negative, number, hsigned, hflag⟩
      cases hsigned with
      | unsigned _ _ htext => exact absurd htext.unsigned_first (by decide)
      | plus _ _ htext => exact ⟨number, htext, hflag⟩
  next hminus hplus =>
    refine ⟨fun flag => ?_, finish_kept⟩
    rw [finish_eq_ok]
    constructor
    · rintro ⟨number, htext, hflag⟩
      exact ⟨false, number, .unsigned _ number htext, hflag⟩
    · rintro ⟨negative, number, hsigned, hflag⟩
      cases hsigned with
      | unsigned _ _ htext => exact ⟨number, htext, hflag⟩
      | plus rest _ htext => exact absurd rfl (hplus rest)
      | minus rest _ htext => exact absurd rfl (hminus rest)

end Praktor.Yaml
