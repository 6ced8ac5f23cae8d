/-
# Sizing sizes

Admission code computes with sizes and stores what it was given.  It may refuse its input, and it
must not do two things: let a sum, a difference or a product of sizes wrap, and store outside of
what it allocated.  Here both are outcomes of their own, so that one can say that they never
happen, and the rules below derive it together with what holds of the result.
-/

import Praktor.Data.Sizes

namespace Praktor.Data

/-- Why admission ends early. -/
inductive SizingEnd
  | status (code : Salts)
  | wraps
  | overrun
  deriving DecidableEq, Repr

/-- A computation of admission. -/
abbrev Sizing := Except SizingEnd

namespace Sizing

variable {α β : Type}

/-- A sum of sizes. -/
def plus (first second : Nat) : Sizing Nat :=
  if first + second ≤ sizeMax then .ok (first + second) else .error .wraps

/-- A difference of sizes. -/
def minus (first second : Nat) : Sizing Nat :=
  if second ≤ first then .ok (first - second) else .error .wraps

/-- A product of sizes. -/
def times (first second : Nat) : Sizing Nat :=
  if first * second ≤ sizeMax then .ok (first * second) else .error .wraps

/-- Refuse the input. -/
def refuse (code : Salts) : Sizing α := .error (.status code)

/-- Something is stored, or there is no room. -/
def stored : Option α → Sizing α
  | some result => .ok result
  | none => .error .overrun

/-- The computation refuses its input, or this holds of its result; it does nothing else. -/
def Admits (computation : Sizing α) (holds : α → Prop) : Prop :=
  match computation with
  | .ok result => holds result
  | .error (.status _) => True
  | .error .wraps => False
  | .error .overrun => False

section Rules

variable {holds : α → Prop} {after : β → Prop}

theorem Admits.pure {result : α} (hresult : holds result) :
    Admits (Except.ok result : Sizing α) holds := hresult

theorem Admits.refuse (code : Salts) : Admits (Sizing.refuse code : Sizing α) holds := trivial

theorem Admits.bind {first : Sizing α} {second : α → Sizing β} (hfirst : Admits first holds)
    (hsecond : ∀ result, holds result → Admits (second result) after) :
    Admits (first >>= second) after := by
  match first, hfirst with
  | .ok result, hresult => exact hsecond result hresult
  | .error (.status code), _ => exact trivial

theorem Admits.mono {computation : Sizing α} {weaker : α → Prop}
    (hadmits : Admits computation holds) (hmono : ∀ result, holds result → weaker result) :
    Admits computation weaker := by
  match computation, hadmits with
  | .ok result, hresult => exact hmono result hresult
  | .error (.status code), _ => exact trivial

theorem Admits.ite {condition : Prop} [Decidable condition] {first second : Sizing α}
    (hfirst : condition → Admits first holds) (hsecond : ¬ condition → Admits second holds) :
    Admits (if condition then first else second) holds := by
  split
  next hcondition => exact hfirst hcondition
  next hcondition => exact hsecond hcondition

theorem Admits.plus {first second : Nat} (hfits : first + second ≤ sizeMax) :
    Admits (Sizing.plus first second) (· = first + second) := by
  rw [Sizing.plus, if_pos hfits]
  exact rfl

theorem Admits.minus {first second : Nat} (hle : second ≤ first) :
    Admits (Sizing.minus first second) (· = first - second) := by
  rw [Sizing.minus, if_pos hle]
  exact rfl

theorem Admits.times {first second : Nat} (hfits : first * second ≤ sizeMax) :
    Admits (Sizing.times first second) (· = first * second) := by
  rw [Sizing.times, if_pos hfits]
  exact rfl

theorem Admits.stored {result : Option α} {kept : α} (hresult : result = some kept)
    (hkept : holds kept) : Admits (Sizing.stored result) holds := by
  rw [hresult]
  exact hkept

end Rules

end Sizing

end Praktor.Data
