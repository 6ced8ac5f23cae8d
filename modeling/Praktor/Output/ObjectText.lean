/-
# The JSON object of the members

The writer stops at the first byte that does not fit, so its result depends only on the
length of the whole text.  The decoder below reads a JSON object of strings by the rules of
JSON strings; it takes the text back to the members.
-/

import Praktor.Output.KeyValues

namespace Praktor.Output

open Praktor.Data

/-! ## The text -/

/-- The string of a span. -/
def stringText (span : Bytes) : Bytes := 34 :: (span.flatMap escape ++ [34])

/-- A member of an object. -/
def memberText (pair : OutputPair) : Bytes := stringText pair.key ++ 58 :: stringText pair.value

/-- The members after the first, each behind its comma. -/
def laterText (pairs : List OutputPair) : Bytes := pairs.flatMap fun pair => 44 :: memberText pair

/-- The object. -/
def objectText : List OutputPair → Bytes
  | [] => [123, 125]
  | first :: rest => 123 :: (memberText first ++ laterText rest ++ [125])

section Writing

variable {capacity : Nat}

theorem append_eq (output text : Bytes) : append capacity output text =
    if output.length + text.length < capacity then some (output ++ text) else none := by
  unfold append
  by_cases hfits : output.length + text.length < capacity
  · rw [if_pos hfits, if_neg (by omega)]
  · rw [if_neg hfits, if_pos (by omega)]

/-- Two texts fit one after the other exactly when they fit together. -/
theorem append_append (output first second : Bytes) :
    ((append capacity output first).bind fun output => append capacity output second) =
      append capacity output (first ++ second) := by
  rw [append_eq, append_eq output (first ++ second), List.length_append]
  by_cases hfirst : output.length + first.length < capacity
  · rw [if_pos hfirst, Option.bind_some, append_eq, List.length_append, List.append_assoc,
      Nat.add_assoc]
  · rw [if_neg hfirst, Option.bind_none, if_neg (by omega)]

theorem append_nil {output : Bytes} (hfits : output.length < capacity) :
    append capacity output [] = some output := by
  rw [append_eq, List.length_nil, Nat.add_zero, if_pos hfits, List.append_nil]

theorem append_length {output text result : Bytes} (happend : append capacity output text = some result) :
    result.length < capacity := by
  rw [append_eq] at happend
  split_ifs at happend with hfits
  rw [← Option.some.inj happend, List.length_append]
  exact hfits

theorem appendEscaped_eq (span : Bytes) {output : Bytes} (hfits : output.length < capacity) :
    appendEscaped capacity output span = append capacity output (span.flatMap escape) := by
  induction span generalizing output with
  | nil => exact (append_nil hfits).symm
  | cons byte rest ih =>
      rw [appendEscaped, List.flatMap_cons, ← append_append]
      cases happend : append capacity output (escape byte) with
      | none => rfl
      | some output => exact ih (append_length happend)

theorem appendString_eq (output span : Bytes) :
    appendString capacity output span = append capacity output (stringText span) := by
  have hparts : stringText span = [34] ++ (span.flatMap escape ++ [34]) := rfl
  rw [appendString, hparts, ← append_append]
  cases hquote : append capacity output [34] with
  | none => rfl
  | some output =>
      dsimp only [Option.bind_some]
      rw [appendEscaped_eq span (append_length hquote), ← append_append]
      cases append capacity output (span.flatMap escape) with
      | none => rfl
      | some output => rfl

theorem appendMember_eq (output : Bytes) (pair : OutputPair) (rest : Bytes → Option Bytes) :
    (do
      let output ← appendString capacity output pair.key
      let output ← append capacity output (ascii ":")
      let output ← appendString capacity output pair.value
      rest output) = (append capacity output (memberText pair)).bind rest := by
  have hparts : memberText pair = stringText pair.key ++ ([58] ++ stringText pair.value) := rfl
  rw [hparts, ← append_append, appendString_eq]
  cases append capacity output (stringText pair.key) with
  | none => rfl
  | some output =>
      rw [Option.bind_some, ← append_append]
      change (append capacity output [58]).bind _ = _
      cases append capacity output [58] with
      | none => rfl
      | some output =>
          rw [Option.bind_some, Option.bind_some, appendString_eq]
          rfl

theorem appendMembers_cons (first : Bool) (output : Bytes) (pair : OutputPair)
    (rest : List OutputPair) : appendMembers capacity first output (pair :: rest) =
      (if first then some output else append capacity output [44]).bind fun output =>
        (append capacity output (memberText pair)).bind fun output =>
          appendMembers capacity false output rest := by
  rw [appendMembers]
  cases first with
  | true => exact appendMember_eq output pair _
  | false =>
      change (append capacity output [44]).bind _ = (append capacity output [44]).bind _
      congr 1
      funext output
      exact appendMember_eq output pair _

theorem appendMembers_later (pairs : List OutputPair) {output : Bytes}
    (hfits : output.length < capacity) :
    appendMembers capacity false output pairs = append capacity output (laterText pairs) := by
  induction pairs generalizing output with
  | nil => exact (append_nil hfits).symm
  | cons pair rest ih =>
      have hparts : laterText (pair :: rest) = [44] ++ (memberText pair ++ laterText rest) := by
        rw [laterText, List.flatMap_cons]
        rfl
      rw [appendMembers_cons, hparts, ← append_append]
      congr 1
      funext output
      rw [← append_append]
      cases hmember : append capacity output (memberText pair) with
      | none => rfl
      | some output => exact ih (append_length hmember)

/-- Writing an object succeeds exactly when its text and a terminator fit. -/
theorem writeObject_eq (pairs : List OutputPair) : writeObject capacity pairs =
    if (objectText pairs).length < capacity then some (objectText pairs) else none := by
  have hwhole : writeObject capacity pairs = append capacity [] (objectText pairs) := by
    cases pairs with
    | nil => exact append_append [] [123] [125]
    | cons first rest =>
        have hparts : objectText (first :: rest) =
            [123] ++ (memberText first ++ (laterText rest ++ [125])) := by
          rw [objectText, List.append_assoc]
          rfl
        rw [hparts, ← append_append]
        change (append capacity [] [123]).bind _ = _
        congr 1
        funext output
        rw [← append_append, appendMembers_cons, if_pos rfl, Option.bind_some]
        change Option.bind (Option.bind _ _) _ = _
        cases hmember : append capacity output (memberText first) with
        | none => rfl
        | some output =>
            rw [Option.bind_some, Option.bind_some, appendMembers_later rest (append_length hmember),
              append_append]
  rw [hwhole, append_eq, List.length_nil, Nat.zero_add, List.nil_append]

end Writing

/-! ## Decoding -/

/-- The bytes of a code point. -/
def utf8 (code : Nat) : Bytes :=
  if code < 128 then [UInt8.ofNat code]
  else if code < 2048 then [UInt8.ofNat (192 + code / 64), UInt8.ofNat (128 + code % 64)]
  else if code < 65536 then
    [UInt8.ofNat (224 + code / 4096), UInt8.ofNat (128 + code / 64 % 64),
      UInt8.ofNat (128 + code % 64)]
  else
    [UInt8.ofNat (240 + code / 262144), UInt8.ofNat (128 + code / 4096 % 64),
      UInt8.ofNat (128 + code / 64 % 64), UInt8.ofNat (128 + code % 64)]

/-- The value of a hexadecimal digit. -/
def hexValue (digit : UInt8) : Option Nat :=
  if 48 ≤ digit ∧ digit ≤ 57 then some (digit.toNat - 48)
  else if 65 ≤ digit ∧ digit ≤ 70 then some (digit.toNat - 55)
  else if 97 ≤ digit ∧ digit ≤ 102 then some (digit.toNat - 87)
  else none

/-- The code unit of four digits. -/
def codeUnit (first second third fourth : UInt8) : Option Nat := do
  let first ← hexValue first
  let second ← hexValue second
  let third ← hexValue third
  let fourth ← hexValue fourth
  some (((first * 16 + second) * 16 + third) * 16 + fourth)

/-- The byte of a short escape. -/
def shortEscape (letter : UInt8) : Option UInt8 :=
  if letter = 34 || letter = 92 || letter = 47 then some letter
  else if letter = 98 then some 8
  else if letter = 102 then some 12
  else if letter = 110 then some 10
  else if letter = 114 then some 13
  else if letter = 116 then some 9
  else none

/-- Bytes in front of what was decoded. -/
def prepend (bytes : Bytes) (decoded : Option (Bytes × Bytes)) : Option (Bytes × Bytes) :=
  decoded.map fun parts => (bytes ++ parts.1, parts.2)

/-- The characters of a string up to its closing quote, and what follows it.  A high
surrogate must be followed by a low one. -/
def decodeChars : Bytes → Option (Bytes × Bytes)
  | [] => none
  | 34 :: rest => some ([], rest)
  | 92 :: 117 :: first :: second :: third :: fourth :: rest =>
      match codeUnit first second third fourth with
      | none => none
      | some code =>
          if 55296 ≤ code ∧ code < 56320 then
            match rest with
            | 92 :: 117 :: first :: second :: third :: fourth :: rest =>
                match codeUnit first second third fourth with
                | none => none
                | some low =>
                    if 56320 ≤ low ∧ low < 57344 then
                      prepend (utf8 (65536 + (code - 55296) * 1024 + (low - 56320)))
                        (decodeChars rest)
                    else none
            | _ => none
          else if 56320 ≤ code ∧ code < 57344 then none
          else prepend (utf8 code) (decodeChars rest)
  | 92 :: letter :: rest =>
      match shortEscape letter with
      | none => none
      | some byte => prepend [byte] (decodeChars rest)
  | byte :: rest => if byte < 32 || byte = 92 then none else prepend [byte] (decodeChars rest)

/-- A string. -/
def decodeString : Bytes → Option (Bytes × Bytes)
  | 34 :: rest => decodeChars rest
  | _ => none

/-- A member and what follows it. -/
def decodeMember (text : Bytes) : Option (OutputPair × Bytes) :=
  match decodeString text with
  | some (key, 58 :: rest) => (decodeString rest).map fun parts => (⟨key, parts.1⟩, parts.2)
  | _ => none

/-- The members of an object up to its closing brace, at most so many. -/
def decodeMembers : Nat → Bytes → Option (List OutputPair)
  | 0, _ => none
  | bound + 1, text =>
      match decodeMember text with
      | some (member, [125]) => some [member]
      | some (member, 44 :: rest) => (decodeMembers bound rest).map (member :: ·)
      | _ => none

/-- An object whose values are strings, written without blanks. -/
def decodeObject : Bytes → Option (List OutputPair)
  | [123, 125] => some []
  | 123 :: rest => decodeMembers rest.length rest
  | _ => none

theorem decodeChars_code (first second third fourth : UInt8) (rest : Bytes) {code : Nat}
    (hcode : codeUnit first second third fourth = some code) (hbasic : code < 55296) :
    decodeChars (92 :: 117 :: first :: second :: third :: fourth :: rest) =
      prepend (utf8 code) (decodeChars rest) := by
  rw [decodeChars, hcode]
  dsimp only
  rw [if_neg (by omega), if_neg (by omega)]

theorem decodeChars_letter {letter byte : UInt8} (rest : Bytes) (hletter : letter ≠ 117)
    (hbyte : shortEscape letter = some byte) :
    decodeChars (92 :: letter :: rest) = prepend [byte] (decodeChars rest) := by
  rw [decodeChars, hbyte]
  exact fun _ _ _ _ _ hsame _ => hletter hsame

theorem decodeChars_plain {byte : UInt8} (rest : Bytes) (hquote : byte ≠ 34) (hslash : byte ≠ 92)
    (hcontrol : ¬ byte < 32) : decodeChars (byte :: rest) = prepend [byte] (decodeChars rest) := by
  rw [decodeChars]
  · simp [hslash, hcontrol]
  · simpa using hquote
  · simp [hslash]
  · simp [hslash]

theorem codeUnit_control : ∀ value < 32,
    codeUnit 48 48 (hexDigit (value / 16)) (hexDigit (value % 16)) = some value := by
  decide

theorem utf8_ascii {byte : UInt8} (hcontrol : byte < 32) : utf8 byte.toNat = [byte] := by
  have hsmall : byte.toNat < 32 := UInt8.lt_iff_toNat_lt.mp hcontrol
  rw [utf8, if_pos (by omega), UInt8.ofNat_toNat]

/-- The escaped form of a byte is read as that byte. -/
theorem decodeChars_escape (byte : UInt8) (rest : Bytes) :
    decodeChars (escape byte ++ rest) = prepend [byte] (decodeChars rest) := by
  unfold escape
  split_ifs with hquote hslash hback hform hline hreturn htab hcontrol
  · subst hquote
    exact decodeChars_letter rest (by decide) rfl
  · subst hslash
    exact decodeChars_letter rest (by decide) rfl
  · subst hback
    exact decodeChars_letter rest (by decide) rfl
  · subst hform
    exact decodeChars_letter rest (by decide) rfl
  · subst hline
    exact decodeChars_letter rest (by decide) rfl
  · subst hreturn
    exact decodeChars_letter rest (by decide) rfl
  · subst htab
    exact decodeChars_letter rest (by decide) rfl
  · have hsmall : byte.toNat < 32 := UInt8.lt_iff_toNat_lt.mp hcontrol
    change decodeChars (92 :: 117 :: 48 :: 48 :: _ :: _ :: rest) = _
    rw [decodeChars_code _ _ _ _ rest (codeUnit_control byte.toNat hsmall) (by omega),
      utf8_ascii hcontrol]
  · exact decodeChars_plain rest hquote hslash hcontrol

theorem decodeString_text (span rest : Bytes) :
    decodeString (stringText span ++ rest) = some (span, rest) := by
  change decodeChars ((span.flatMap escape ++ [34]) ++ rest) = some (span, rest)
  induction span with
  | nil => rw [List.flatMap_nil, List.nil_append, List.singleton_append, decodeChars]
  | cons byte span ih =>
      rw [List.flatMap_cons, List.append_assoc, List.append_assoc, decodeChars_escape,
        ← List.append_assoc, ih]
      rfl

theorem decodeMember_text (pair : OutputPair) (rest : Bytes) :
    decodeMember (memberText pair ++ rest) = some (pair, rest) := by
  rw [decodeMember, memberText, List.append_assoc, decodeString_text]
  change (decodeString (stringText pair.value ++ rest)).map _ = _
  rw [decodeString_text]
  rfl

theorem decodeMembers_text (first : OutputPair) (rest : List OutputPair) {bound : Nat}
    (hbound : rest.length < bound) :
    decodeMembers bound (memberText first ++ laterText rest ++ [125]) = some (first :: rest) := by
  induction rest generalizing first bound with
  | nil =>
      cases bound with
      | zero => cases hbound
      | succ bound =>
          rw [decodeMembers, List.append_assoc, decodeMember_text]
          rfl
  | cons second rest ih =>
      cases bound with
      | zero => cases hbound
      | succ bound =>
          have hparts : laterText (second :: rest) = 44 :: (memberText second ++ laterText rest) := by
            rw [laterText, List.flatMap_cons]
            rfl
          rw [decodeMembers, List.append_assoc, decodeMember_text, hparts]
          change (decodeMembers bound (memberText second ++ laterText rest ++ [125])).map _ = _
          rw [ih second (Nat.lt_of_succ_lt_succ hbound)]
          rfl

theorem length_laterText (pairs : List OutputPair) : pairs.length ≤ (laterText pairs).length := by
  induction pairs with
  | nil => exact Nat.le_refl _
  | cons pair rest ih =>
      have hparts : laterText (pair :: rest) = 44 :: (memberText pair ++ laterText rest) := by
        rw [laterText, List.flatMap_cons]
        rfl
      rw [hparts, List.length_cons, List.length_cons, List.length_append]
      omega

/-- Decoding takes the text of an object back to its members. -/
theorem decodeObject_text (pairs : List OutputPair) : decodeObject (objectText pairs) = some pairs := by
  cases pairs with
  | nil => rfl
  | cons first rest =>
      have hlater := length_laterText rest
      have hbound : rest.length < (memberText first ++ laterText rest ++ [125]).length := by
        rw [List.length_append, List.length_append, List.length_singleton]
        omega
      have hobject : decodeObject (objectText (first :: rest)) =
          decodeMembers (memberText first ++ laterText rest ++ [125]).length
            (memberText first ++ laterText rest ++ [125]) := by
        rw [objectText, memberText, stringText]
        rfl
      rw [hobject, decodeMembers_text first rest hbound]

/-! ## The whole encoding -/

/-- The members are the map of the text: sorted keys, and the last pair of a key decides.
They always fit where the host allocates an entry for two bytes and one more. -/
theorem membersOf_map {separator : Bytes} (hseparator : separator ≠ []) (delimiter text : Bytes) :
    Increasing (membersOf delimiter separator text) ∧
      (∀ key, valueOf key (membersOf delimiter separator text) =
        valueOf key (pairsOf delimiter separator text).reverse) ∧
      (membersOf delimiter separator text).length ≤ text.length / 2 + 1 :=
  ⟨increasing_foldl _ List.Pairwise.nil,
    fun key => (valueOf_foldl key _ []).trans (Option.or_none),
    membersOf_length hseparator delimiter text⟩

theorem praktorOutputKeyValueJson_exact (input delimiter separator : CString)
    (hseparator : separator.bytes ≠ []) {capacity : Nat} (hcapacity : capacity ≠ 0) :
    ∃ (members : List OutputPair) (text : Bytes),
      Increasing members ∧
      (∀ key, valueOf key members =
        valueOf key (pairsOf delimiter.bytes separator.bytes input.bytes).reverse) ∧
      decodeObject text = some members ∧
      (∀ pairCapacity, members.length ≤ pairCapacity →
        praktorOutputKeyValueJson input.bytes delimiter.bytes separator.bytes pairCapacity capacity =
          if text.length < capacity then .ok text else .insufficient) ∧
      ∀ pairCapacity, input.bytes.length / 2 + 1 ≤ pairCapacity →
        collectPairs input.bytes delimiter.bytes separator.bytes hseparator pairCapacity 0 [] =
          some members := by
  obtain ⟨hincreasing, hvalues, hlength⟩ := membersOf_map hseparator delimiter.bytes input.bytes
  refine ⟨membersOf delimiter.bytes separator.bytes input.bytes,
    objectText (membersOf delimiter.bytes separator.bytes input.bytes), hincreasing, hvalues,
    decodeObject_text _, fun pairCapacity hfits => ?_, fun pairCapacity henough => ?_⟩
  · have hguard : ¬ (capacity = 0 || input.bytes.contains 0 || delimiter.bytes.contains 0 ||
        separator.bytes.contains 0) = true := by
      simp [hcapacity, input.nulFree, delimiter.nulFree, separator.nulFree]
    rw [praktorOutputKeyValueJson, dif_neg hseparator, if_neg hguard,
      collectPairs_members hseparator, if_pos hfits]
    dsimp only
    rw [writeObject_eq]
    split_ifs
    · rfl
    · rfl
  · rw [collectPairs_members hseparator, if_pos (Nat.le_trans hlength henough)]

theorem praktorOutputKeyValueJson_exact_sample :
    ∃ (members : List OutputPair) (text : Bytes),
      Increasing members ∧
      (∀ key, valueOf key members = valueOf key (pairsOf (CString.literal "=").bytes
        (CString.literal "\n").bytes (CString.literal "z=first\na=two\nz=last").bytes).reverse) ∧
      decodeObject text = some members ∧
      (∀ pairCapacity, members.length ≤ pairCapacity →
        praktorOutputKeyValueJson (CString.literal "z=first\na=two\nz=last").bytes
            (CString.literal "=").bytes (CString.literal "\n").bytes pairCapacity 22 =
          if text.length < 22 then .ok text else .insufficient) ∧
      ∀ pairCapacity, (CString.literal "z=first\na=two\nz=last").bytes.length / 2 + 1 ≤ pairCapacity →
        collectPairs (CString.literal "z=first\na=two\nz=last").bytes (CString.literal "=").bytes
          (CString.literal "\n").bytes (by decide) pairCapacity 0 [] = some members :=
  praktorOutputKeyValueJson_exact _ _ _ (by decide) (by decide)

/-- Without room for a terminator the call is invalid, not too large; and a separator at the
end of the text adds no line that an empty delimiter would find. -/
theorem praktorOutputKeyValueJson_no_room :
    praktorOutputKeyValueJson (ascii "a=1") (ascii "=") (ascii "\n") 2 0 = .invalid ∧
      praktorOutputKeyValueJson (ascii "a\n") [] (ascii "\n") 2 100 =
        .ok (objectText [⟨[], ascii "a"⟩]) := by
  decide +kernel

end Praktor.Output
