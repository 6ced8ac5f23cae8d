/-
# JSON values

The JSON library of the sources is a separate package.  Its values are modelled
by the syntax tree they denote, and its accessors by what the sources rely on: a
lookup in something that is not an object finds nothing, something that is not an
array has no items, and something that is not a string has no text.
-/

import Praktor.Data.Bytes

namespace Praktor.Data

/-- A number keeps the token it was parsed from; one that was built from a machine value
has none. -/
inductive JsonNumber
  | parsed (token : Bytes)
  | built (value : Nat)
  deriving DecidableEq

/-- The length of the token, and what the sources take where there is none. -/
def JsonNumber.tokenLength : JsonNumber → Nat
  | .parsed token => token.length
  | .built _ => 32

/-- A JSON document. -/
inductive Json
  | null
  | bool (value : Bool)
  | number (value : JsonNumber)
  | string (text : Bytes)
  | array (items : List Json)
  | object (members : List (Bytes × Json))

namespace Json

/-- `json_object_get`. -/
def objectGet : Json → Bytes → Option Json
  | .object members, key => members.lookup key
  | _, _ => none

/-- The values `json_array_get` yields below `json_array_size`. -/
def arrayItems : Json → List Json
  | .array items => items
  | _ => []

/-- `json_string` with `json_string_len`. -/
def stringText : Json → Option Bytes
  | .string text => some text
  | _ => none

/-- A lookup tries the first member and then the others. -/
theorem lookup_member {value : Json} (name key : Bytes) (rest : List (Bytes × Json)) :
    ((name, value) :: rest).lookup key = if key = name then some value else rest.lookup key := by
  by_cases hkey : key = name
  · simp [hkey]
  · have hne : (key == name) = false := by simpa using hkey
    simp [List.lookup_cons, hkey, hne]

theorem objectGet_isSome {members : List (Bytes × Json)} {key : Bytes} :
    ((object members).objectGet key).isSome = true ↔ ∃ entry ∈ members, entry.1 = key := by
  rw [objectGet, List.lookup_isSome_iff]
  simp only [beq_iff_eq]
  exact ⟨fun ⟨entry, hentry, hkey⟩ => ⟨entry, hentry, hkey.symm⟩,
    fun ⟨entry, hentry, hkey⟩ => ⟨entry, hentry, hkey.symm⟩⟩

end Json

end Praktor.Data
