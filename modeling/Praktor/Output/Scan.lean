/-
# Scanning a text for pairs

`praktor_output_next_pair` reads the next line that has the delimiter, and
`praktor_output_key_value_json` keeps the pairs sorted by key and writes them as a JSON
object.  A span is the list of its bytes; a text that is there has no null pointer.
-/

import Mathlib.Data.List.Basic
import Praktor.Data.Bytes

namespace Praktor.Output

open Praktor.Data

/-- `praktor_output_pair`. -/
structure OutputPair where
  key : Bytes
  value : Bytes
  deriving DecidableEq, Repr

/-- `find`: the place of the first occurrence, or the size of the input. -/
def find (input search : Bytes) : Nat :=
  if search.length > input.length then input.length
  else if search.length = 0 then 0
  else
    ((List.range (input.length - search.length + 1)).find? fun place =>
      (input.drop place).take search.length = search).getD input.length

/-- `whitespace`. -/
def whitespace (byte : UInt8) : Bool := byte = 32 || byte = 9 || byte = 13 || byte = 10

/-- `trim`. -/
def trim (span : Bytes) : Bytes :=
  ((span.dropWhile whitespace).reverse.dropWhile whitespace).reverse

theorem find_le (input search : Bytes) : find input search ≤ input.length := by
  unfold find
  split_ifs with hlong hempty
  · exact Nat.le_refl _
  · exact Nat.zero_le _
  · cases hfound : (List.range (input.length - search.length + 1)).find? fun place =>
        (input.drop place).take search.length = search with
    | none => exact Nat.le_refl _
    | some place =>
        have hplace := List.mem_range.mp (List.mem_of_find?_eq_some hfound)
        rw [Option.getD_some]
        omega

/-- The end of the line at an offset, after its separator. -/
def lineEnd (input separator : Bytes) (offset : Nat) : Nat :=
  offset + find (input.drop offset) separator +
    if find (input.drop offset) separator < (input.drop offset).length then separator.length else 0

theorem lineEnd_gt {input separator : Bytes} {offset : Nat} (hseparator : separator ≠ [])
    (hoffset : offset < input.length) : offset < lineEnd input separator offset := by
  have hpositive := List.length_pos_iff.mpr hseparator
  have hle := find_le (input.drop offset) separator
  rw [List.length_drop] at hle
  unfold lineEnd
  split_ifs with hshorter
  · omega
  · rw [List.length_drop] at hshorter
    omega

/-- The line at an offset, without its separator. -/
def lineAt (input separator : Bytes) (offset : Nat) : Bytes :=
  (input.drop offset).take (find (input.drop offset) separator)

/-- The loop of `praktor_output_next_pair`: the pair and the offset after its line. -/
def nextPair (input delimiter separator : Bytes) (hseparator : separator ≠ []) (offset : Nat) :
    Option (OutputPair × Nat) :=
  if hoffset : offset < input.length then
    let line := lineAt input separator offset
    let split := find line delimiter
    if delimiter.length = 0 || split < line.length then
      some (⟨trim (line.take split), trim (line.drop (split + delimiter.length))⟩,
        lineEnd input separator offset)
    else nextPair input delimiter separator hseparator (lineEnd input separator offset)
  else none
termination_by input.length - offset
decreasing_by
  have hgreater := lineEnd_gt hseparator hoffset
  omega

/-- Every pair moves the offset forward. -/
theorem nextPair_gt {input delimiter separator : Bytes} {hseparator : separator ≠ []}
    {offset next : Nat} {pair : OutputPair}
    (hpair : nextPair input delimiter separator hseparator offset = some (pair, next)) :
    offset < input.length ∧ offset < next := by
  induction hrest : input.length - offset using Nat.strongRecOn generalizing offset with
  | ind rest ih =>
      rw [nextPair] at hpair
      split at hpair
      · next hoffset =>
          have hgreater := lineEnd_gt hseparator hoffset
          refine ⟨hoffset, ?_⟩
          dsimp only at hpair
          split at hpair
          · obtain ⟨-, rfl⟩ := Prod.mk.inj (Option.some.inj hpair)
            exact hgreater
          · exact Nat.lt_trans hgreater (ih _ (by omega) hpair rfl).2
      · cases hpair

/-- `memcmp` over the smaller size. -/
def memcmp : Bytes → Bytes → Ordering
  | left :: lefts, right :: rights =>
      if left = right then memcmp lefts rights else if left < right then .lt else .gt
  | _, _ => .eq

/-- `compare`. -/
def compareSpans (left right : Bytes) : Ordering :=
  match memcmp left right with
  | .eq => compare left.length right.length
  | order => order

/-- The place of a pair among sorted ones, for pairs before that place. -/
def before (pair other : OutputPair) : Bool := compareSpans other.key pair.key = .lt

/-- One round of the loop of `praktor_output_key_value_json`: replace or insert a pair. -/
def insertPair (capacity : Nat) (pairs : List OutputPair) (pair : OutputPair) :
    Option (List OutputPair) :=
  let smaller := pairs.takeWhile (before pair)
  match pairs.dropWhile (before pair) with
  | found :: rest =>
      if compareSpans found.key pair.key = .eq then some (smaller ++ pair :: rest)
      else if pairs.length = capacity then none
      else some (smaller ++ pair :: found :: rest)
  | [] => if pairs.length = capacity then none else some (smaller ++ [pair])

/-- That loop, from an offset on. -/
def collectPairs (input delimiter separator : Bytes) (hseparator : separator ≠ [])
    (capacity offset : Nat) (pairs : List OutputPair) : Option (List OutputPair) :=
  match hpair : nextPair input delimiter separator hseparator offset with
  | none => some pairs
  | some (pair, next) =>
      match insertPair capacity pairs pair with
      | none => none
      | some pairs => collectPairs input delimiter separator hseparator capacity next pairs
termination_by input.length - offset
decreasing_by
  have hgreater := nextPair_gt hpair
  omega

/-! ## Writing -/

/-- `append`. -/
def append (capacity : Nat) (output text : Bytes) : Option Bytes :=
  if text.length ≥ capacity - output.length then none else some (output ++ text)

/-- A digit of the table `hex`. -/
def hexDigit (value : Nat) : UInt8 := UInt8.ofNat (if value < 10 then 48 + value else 87 + value)

/-- The escaped form of a byte. -/
def escape (byte : UInt8) : Bytes :=
  if byte = 34 then [92, 34]
  else if byte = 92 then [92, 92]
  else if byte = 8 then ascii "\\b"
  else if byte = 12 then ascii "\\f"
  else if byte = 10 then ascii "\\n"
  else if byte = 13 then ascii "\\r"
  else if byte = 9 then ascii "\\t"
  else if byte < 32 then
    [92, 117, 48, 48, hexDigit (byte.toNat / 16), hexDigit (byte.toNat % 16)]
  else [byte]

/-- The loop of `string`. -/
def appendEscaped (capacity : Nat) : Bytes → Bytes → Option Bytes
  | output, [] => some output
  | output, byte :: rest =>
      match append capacity output (escape byte) with
      | none => none
      | some output => appendEscaped capacity output rest

/-- `string`. -/
def appendString (capacity : Nat) (output span : Bytes) : Option Bytes :=
  match append capacity output [34] with
  | none => none
  | some output =>
      match appendEscaped capacity output span with
      | none => none
      | some output => append capacity output [34]

/-- The loop over the pairs; `first` is `i == 0`. -/
def appendMembers (capacity : Nat) : Bool → Bytes → List OutputPair → Option Bytes
  | _, output, [] => some output
  | first, output, pair :: rest => do
      let output ← if first then some output else append capacity output (ascii ",")
      let output ← appendString capacity output pair.key
      let output ← append capacity output (ascii ":")
      let output ← appendString capacity output pair.value
      appendMembers capacity false output rest

/-- The end of `praktor_output_key_value_json`. -/
def writeObject (capacity : Nat) (pairs : List OutputPair) : Option Bytes := do
  let output ← append capacity [] [123]
  let output ← appendMembers capacity true output pairs
  append capacity output [125]

/-- The results of `praktor_output_key_value_json`: 0 with the output, -1 and -2. -/
inductive EncodeResult
  | ok (output : Bytes)
  | invalid
  | insufficient
  deriving DecidableEq, Repr

/-- `praktor_output_key_value_json`. -/
def praktorOutputKeyValueJson (input delimiter separator : Bytes) (pairCapacity capacity : Nat) :
    EncodeResult :=
  if hseparator : separator = [] then .invalid
  else if capacity = 0 || input.contains 0 || delimiter.contains 0 || separator.contains 0 then
    .invalid
  else
    match collectPairs input delimiter separator hseparator pairCapacity 0 [] with
    | none => .insufficient
    | some pairs =>
        match writeObject capacity pairs with
        | none => .insufficient
        | some output => .ok output

end Praktor.Output
