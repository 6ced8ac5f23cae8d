/-
# Byte strings, status codes and allocation outcomes

The sources work on byte buffers with explicit lengths (`vstr`) and on C strings.
A buffer is a list of bytes.  A C string ends at its first NUL, so its contents
are exactly the byte lists without a zero: the absence of a zero is carried as a
field, and two C strings are equal when their contents are.

`size_t` values are natural numbers.  `sizeMax` is the value the sources use for
"absent"; where a field may hold it the model has an `Option` instead.
-/

import Mathlib.Data.List.Basic

namespace Praktor.Data

/-! The small tables of the sources are not empty. -/

instance neZeroTwo : @NeZero Nat Zero.ofOfNat0 2 := ⟨Nat.succ_ne_zero 1⟩

instance neZeroThree : @NeZero Nat Zero.ofOfNat0 3 := ⟨Nat.succ_ne_zero 2⟩

instance neZeroFour : @NeZero Nat Zero.ofOfNat0 4 := ⟨Nat.succ_ne_zero 3⟩

instance neZeroFive : @NeZero Nat Zero.ofOfNat0 5 := ⟨Nat.succ_ne_zero 4⟩

/-- A byte buffer together with its length. -/
abbrev Bytes := List UInt8

/-- The bytes of an ASCII literal of the sources. -/
def ascii (text : String) : Bytes :=
  text.toList.map fun character => UInt8.ofNat character.toNat

/-- `tolower` of the C locale. -/
def lower (byte : UInt8) : UInt8 := if 65 ≤ byte ∧ byte ≤ 90 then byte + 32 else byte

/-- `SIZE_MAX` of a 64-bit target. -/
def sizeMax : Nat := 18446744073709551615

/-- `UINT64_MAX`. -/
def uint64Max : Nat := 18446744073709551615

/-- The contents of a NUL-terminated string, without the terminator. -/
structure CString where
  bytes : Bytes
  nulFree : 0 ∉ bytes
  deriving DecidableEq

namespace CString

/-- `strlen`. -/
def length (text : CString) : Nat := text.bytes.length

@[ext]
theorem ext {first second : CString} (hbytes : first.bytes = second.bytes) : first = second := by
  cases first
  cases second
  simpa using hbytes

/-- The first `count` bytes of a C string form a C string again. -/
def take (text : CString) (count : Nat) : CString where
  bytes := text.bytes.take count
  nulFree hzero := text.nulFree (List.mem_of_mem_take hzero)

/-- What follows the first `count` bytes of a C string forms a C string again. -/
def drop (text : CString) (count : Nat) : CString where
  bytes := text.bytes.drop count
  nulFree hzero := text.nulFree (List.mem_of_mem_drop hzero)

/-- Two C strings one after the other. -/
def append (first second : CString) : CString where
  bytes := first.bytes ++ second.bytes
  nulFree hzero := (List.mem_append.mp hzero).elim first.nulFree second.nulFree

/-- The C string at the beginning of a buffer. -/
def ofBuffer (buffer : Bytes) : CString where
  bytes := buffer.takeWhile (· ≠ 0)
  nulFree hzero := by
    have hall := List.all_eq_true.mp (@List.all_takeWhile _ (fun byte => decide (byte ≠ 0)) buffer) 0 hzero
    exact absurd rfl (of_decide_eq_true hall)

/-- A buffer without a NUL is taken as a whole. -/
theorem ofBuffer_bytes {buffer : Bytes} (hzero : 0 ∉ buffer) : (ofBuffer buffer).bytes = buffer := by
  induction buffer with
  | nil => rfl
  | cons byte rest ih =>
      obtain ⟨hbyte, hrest⟩ := not_or.mp (mt List.mem_cons.mpr hzero)
      have hkept : decide (byte ≠ 0) = true := decide_eq_true (Ne.symm hbyte)
      change (byte :: rest).takeWhile (fun byte => decide (byte ≠ 0)) = byte :: rest
      rw [List.takeWhile_cons, if_pos hkept]
      exact congrArg (byte :: ·) (ih hrest)

/-- The C string of a literal of the sources. -/
def literal (text : String) : CString where
  bytes := (ascii text).filter (· ≠ 0)
  nulFree := by simp

/-- A buffer as a C string, when it has no NUL of its own. -/
def ofBytes (bytes : Bytes) : Option CString :=
  if hzero : 0 ∈ bytes then none else some ⟨bytes, hzero⟩

end CString

/-- The status codes of the Salts libraries that the sources return. -/
inductive Salts
  | ok
  | einval
  | enomem
  | enoent
  | ebusy
  | enotsup
  | enobufs
  | eio
  deriving DecidableEq, Repr

/-- Outcomes of the coming allocation calls, first call first.  A call receives
`none` when it fails and otherwise the address of the new block; addresses are
arbitrary, so an address may be one that was freed before.  Once the list is
used up every further call succeeds, so `[]` is a run without failures. -/
abbrev AllocSchedule := List (Option Nat)

/-- One allocation call: the address it returned and the outcomes still to come. -/
def AllocSchedule.alloc : AllocSchedule → Option Nat × AllocSchedule
  | [] => (some 0, [])
  | outcome :: rest => (outcome, rest)

@[simp]
theorem AllocSchedule.alloc_nil : AllocSchedule.alloc [] = (some 0, []) := rfl

/-- While no failure is scheduled, a call succeeds. -/
theorem AllocSchedule.alloc_of_not_mem {schedule : AllocSchedule} (hplenty : none ∉ schedule) :
    ∃ address rest, schedule.alloc = (some address, rest) ∧ none ∉ rest := by
  cases schedule with
  | nil => exact ⟨0, [], rfl, hplenty⟩
  | cons outcome rest =>
      obtain ⟨hsome, hrest⟩ := not_or.mp (mt List.mem_cons.mpr hplenty)
      obtain ⟨address, rfl⟩ := Option.ne_none_iff_exists'.mp (Ne.symm hsome)
      exact ⟨address, rest, rfl, hrest⟩

end Praktor.Data
