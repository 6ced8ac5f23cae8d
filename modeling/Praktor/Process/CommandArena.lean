/-
# The scratch of rendered commands

`text_size`, `add`, `copy`, `render` and `prepare` of `service_control.c` on the storage they
use: one array of bytes for every string, one array of addresses for the three commands, and
sizes of 64 bits that wrap around.  An address is a place in the array of bytes.  Writing or
pointing outside of an array is a fault.

The result of this module: from every content of the scratch the functions do what the ones
without storage do, no size wraps around, and the strings stand in the array one after the
other.
-/

import Mathlib.Algebra.Order.Ring.Nat
import Praktor.Data.Sizes
import Praktor.Math.Arena
import Praktor.Math.Scanning
import Praktor.Math.Substitution
import Praktor.Process.ServiceControl

namespace Praktor.Process

open Praktor.Data Praktor.Math

/-! ## The storage -/

/-- The part of `service_impl` that holds rendered commands: a command is the place of its
first address and their count. -/
structure Scratch where
  metadata : Bytes
  argv : List (Option Nat)
  used : Nat
  program : Nat
  commands : CommandSlot → Nat × Nat

/-- Why a function does not go on: it returned false, or it left an array. -/
inductive ScratchStop
  | refused
  | fault
  deriving DecidableEq, Repr

/-- The number of a command. -/
def CommandSlot.number : CommandSlot → Nat
  | .status => 0
  | .start => 1
  | .stop => 2

/-- `{service_name}`. -/
def nameMarker : Bytes := [123] ++ ascii "service_name" ++ [125]

/-- `{arguments}`. -/
def argumentsMarker : Bytes := [123] ++ ascii "arguments" ++ [125]

namespace Scratch

section Functions

variable (config : ServiceConfig)

/-- `text_size`: a C string is followed by its NUL in memory. -/
def textSize (text : Option CString) : Except ScratchStop (CString × Nat) :=
  match text with
  | none => .error .refused
  | some text =>
      match scanWhile (· ≠ 0) (text.bytes ++ [0]) config.maxMetadataBytes 0 with
      | none => .error .fault
      | some size => if size = config.maxMetadataBytes then .error .refused else .ok (text, size)

/-- `add`: the first `size` bytes of a memory. -/
def add (scratch : Scratch) (memory : Bytes) (size : Nat) : Except ScratchStop Scratch :=
  if size > sizeSub config.maxMetadataBytes scratch.used then .error .refused
  else if memory.length < size ∨ scratch.metadata.length < scratch.used + size then .error .fault
  else
    .ok
      { scratch with
        metadata := Arena.write scratch.metadata scratch.used (memory.take size)
        used := sizeAdd scratch.used size }

/-- `copy`: the address of the copy. -/
def copy (scratch : Scratch) (text : Option CString) : Except ScratchStop (Nat × Scratch) := do
  let (text, size) ← textSize config text
  let copied ← add config scratch (text.bytes ++ [0]) (sizeAdd size 1)
  pure (scratch.used, copied)

/-- An address at a place of the array of addresses. -/
def point (scratch : Scratch) (place address : Nat) : Except ScratchStop Scratch :=
  if place < scratch.argv.length then
    .ok { scratch with argv := scratch.argv.set place (some address) }
  else .error .fault

/-- The loop of `render` over the bytes of a template. -/
def substitute (name text : Bytes) (position : Nat) (scratch : Scratch) :
    Except ScratchStop Scratch :=
  if position < text.length then
    if text.length - position ≥ 14 ∧ (text.drop position).take 14 = nameMarker then do
      let scratch ← add config scratch (name ++ [0]) name.length
      substitute name text (position + 14) scratch
    else do
      let scratch ← add config scratch (text.drop position) 1
      substitute name text (position + 1) scratch
  else .ok scratch
termination_by text.length - position

/-- The loop of `render` over the arguments of the request; `base` is the place of the first
address of the command. -/
def renderArguments (base : Nat) :
    List (Option CString) → Nat → Scratch → Except ScratchStop (Nat × Scratch)
  | [], count, scratch => .ok (count, scratch)
  | text :: rest, count, scratch =>
      if count = config.maxArguments then .error .refused
      else do
        let (address, scratch) ← copy config scratch text
        let scratch ← point scratch (base + count) address
        renderArguments base rest (count + 1) scratch

/-- The loop of `render` over the templates. -/
def renderTemplates (request : ServiceRequest) (name : CString) (base : Nat) :
    List (Option CString) → Nat → Scratch → Except ScratchStop (Nat × Scratch)
  | [], count, scratch => .ok (count, scratch)
  | template :: rest, count, scratch => do
      let (text, _) ← textSize config template
      if text.bytes = argumentsMarker then do
        let (count, scratch) ←
          renderArguments config base request.arguments.texts count scratch
        renderTemplates request name base rest count scratch
      else if count = config.maxArguments then .error .refused
      else do
        let scratch ← point scratch (base + count) scratch.used
        let scratch ← substitute config name.bytes text.bytes 0 scratch
        let scratch ← add config scratch [0] 1
        renderTemplates request name base rest (count + 1) scratch

/-- `render`. -/
def render (request : ServiceRequest) (input : ServiceArgs) (slot : CommandSlot)
    (scratch : Scratch) : Except ScratchStop Scratch := do
  let base := sizeMul slot.number config.maxArguments
  let (name, _) ← textSize config request.name
  if input.count > config.maxArguments ∨ input.missing then .error .refused
  else do
    let (count, scratch) ← renderTemplates config request name base input.texts 0 scratch
    let addresses := sizeMul (sizeAdd count 1) 8
    if addresses > sizeSub config.maxMetadataBytes scratch.used then .error .refused
    else
      .ok
        { scratch with
          used := sizeAdd scratch.used addresses
          commands := Function.update scratch.commands slot (base, count) }

/-- `prepare` counts one more text of what it was given. -/
def countInput (counted : Nat) (text : Option CString) : Except ScratchStop Nat := do
  let (_, size) ← textSize config text
  if sizeAdd size 1 > sizeSub config.maxMetadataBytes counted then .error .refused
  else .ok (sizeAdd counted (sizeAdd size 1))

/-- The texts of a request fit into the scratch. -/
def countInputs (request : ServiceRequest) : Except ScratchStop Nat := do
  let (_, size) ← textSize config request.name
  let counted ← countInput config (sizeAdd size 1) request.profileName
  request.arguments.texts.foldlM (countInput config) counted

/-- The commands of a profile. -/
def renderProfile (request : ServiceRequest) (profile : ServiceProfile) (scratch : Scratch) :
    Except ScratchStop Scratch :=
  if !present profile.program then .error .refused
  else do
    let (program, scratch) ← copy config scratch profile.program
    let scratch ← render config request profile.status .status { scratch with program }
    let scratch ← render config request profile.start .start scratch
    render config request profile.stop .stop scratch

/-- `prepare`, on a scratch with any content; there is no result when it leaves an array. -/
def prepare (request : ServiceRequest) (scratch : Scratch) :
    Option (Except Refusal (Scratch × UInt64)) :=
  if !wellFormed config request then
    some (.error
      { error := .invalid, phase := "validate"
        message := CString.literal "service parameters are invalid" })
  else
    match countInputs config request, request.profile with
    | .error .fault, _ => none
    | .error .refused, _ => some (.error limitRefusal)
    | .ok _, none =>
        some (.error
          { error := .stateFailed, phase := "profile"
            message := (CString.literal "unknown service command profile: ").append
              ((request.profileName.getD (CString.literal "")).take 900) })
    | .ok _, some profile =>
        match renderProfile config request profile { scratch with used := 0 } with
        | .error .fault => none
        | .error .refused => some (.error limitRefusal)
        | .ok scratch => some (.ok (scratch, request.timeoutMs.toUInt64 * 1000000))

end Functions

/-- `praktor_service_control_init` on a control that is not in use: the storage, when the three
blocks are there; `content` is what the block of the bytes holds. -/
def init (config : ServiceConfig) (schedule : AllocSchedule) (content : Bytes) :
    Except Salts Scratch :=
  if config.maxArguments = 0 ∨ config.maxArguments > sizeMax / 24 ∨ config.maxMetadataBytes = 0 ∨
      config.maxOutputBytes = 0 then .error .einval
  else
    let (impl, schedule) := schedule.alloc
    if impl.isNone then .error .enomem
    else
      let (argv, schedule) := schedule.alloc
      let (metadata, _) := schedule.alloc
      if argv.isNone ∨ metadata.isNone then .error .enomem
      else
        .ok
          { metadata := content, argv := List.replicate (3 * config.maxArguments) none, used := 0
            program := 0, commands := fun _ => (0, 0) }

/-! ## Agreement with the functions without storage -/

/-- A function on the storage agrees with one without: it returns false where that has no
result, and else their results are related. -/
def Agrees {α β : Type} (related : α → β → Prop) (model : Option α) (result : Except ScratchStop β) :
    Prop :=
  match model with
  | none => result = .error .refused
  | some value => ∃ out, result = .ok out ∧ related value out

theorem Agrees.bind {α β γ δ : Type} {related : α → β → Prop} {after : γ → δ → Prop}
    {model : Option α} {result : Except ScratchStop β} {next : α → Option γ}
    {following : β → Except ScratchStop δ} (hagrees : Agrees related model result)
    (hnext : ∀ value out, related value out → Agrees after (next value) (following out)) :
    Agrees after (model.bind next) (result.bind following) := by
  cases model with
  | none =>
      obtain rfl : result = .error .refused := hagrees
      rfl
  | some value =>
      obtain ⟨out, rfl, hrelated⟩ := hagrees
      exact hnext value out hrelated

theorem Agrees.pure {α β : Type} {related : α → β → Prop} {value : α} {out : β}
    (hrelated : related value out) : Agrees related (some value) (.ok out) :=
  ⟨out, rfl, hrelated⟩

theorem Agrees.imp {α β : Type} {related weaker : α → β → Prop} {model : Option α}
    {result : Except ScratchStop β} (hagrees : Agrees related model result)
    (hweaker : ∀ value out, related value out → weaker value out) :
    Agrees weaker model result := by
  cases model with
  | none => exact hagrees
  | some value =>
      obtain ⟨out, hresult, hrelated⟩ := hagrees
      exact ⟨out, hresult, hweaker value out hrelated⟩

theorem Agrees.map {α β γ : Type} {related : α → β → Prop} {after : γ → β → Prop}
    {model : Option α} {result : Except ScratchStop β} (hagrees : Agrees related model result)
    {next : α → γ} (hafter : ∀ value out, related value out → after (next value) out) :
    Agrees after (model.bind fun value => some (next value)) result := by
  cases model with
  | none => exact hagrees
  | some value =>
      obtain ⟨out, hresult, hrelated⟩ := hagrees
      exact ⟨out, hresult, hafter value out hrelated⟩

/-- What `praktor_service_control_init` lets pass, with sizes that fit a `size_t`. -/
structure Admits (config : ServiceConfig) : Prop where
  arguments_pos : 0 < config.maxArguments
  arguments_le : config.maxArguments ≤ sizeMax / 24
  metadata_pos : 0 < config.maxMetadataBytes
  metadata_le : config.maxMetadataBytes ≤ sizeMax

section Agreement

variable {config : ServiceConfig}

variable (config) in
theorem textSize_agrees (text : Option CString) :
    Agrees (fun model out => ∃ found, text = some found ∧ model = (found, found.length) ∧
        out = (found, found.length) ∧ found.length < config.maxMetadataBytes)
      (Process.textSize config text) (textSize config text) := by
  cases text with
  | none => rfl
  | some text =>
      have hnul : ∀ byte ∈ text.bytes, decide (byte ≠ 0) = true := by
        intro byte hmem
        rw [decide_eq_true_eq]
        rintro rfl
        exact text.nulFree hmem
      have hscan := scanWhile_run (fun byte : UInt8 => decide (byte ≠ 0)) text.bytes [] hnul
        (by decide : decide ((0 : UInt8) ≠ 0) = false) config.maxMetadataBytes
      simp only [textSize, hscan, Process.textSize, Option.bind_eq_bind, Option.bind_some]
      by_cases hshort : text.length < config.maxMetadataBytes
      · have hmin : min text.bytes.length config.maxMetadataBytes = text.length :=
          Nat.min_eq_left (Nat.le_of_lt hshort)
        rw [if_pos hshort, hmin, if_neg (Nat.ne_of_lt hshort)]
        exact .pure ⟨text, rfl, rfl, rfl, hshort⟩
      · have hmin : min text.bytes.length config.maxMetadataBytes = config.maxMetadataBytes :=
          Nat.min_eq_right (Nat.le_of_not_lt hshort)
        rw [if_neg hshort, hmin, if_pos rfl]
        rfl

/-- Nothing of the storage is outside of its arrays. -/
structure Fits (config : ServiceConfig) (scratch : Scratch) : Prop where
  metadata_length : scratch.metadata.length = config.maxMetadataBytes
  argv_length : scratch.argv.length = 3 * config.maxArguments
  used_le : scratch.used ≤ config.maxMetadataBytes

/-- Texts stand below a place, and from there on what is being written. -/
structure Writing (config : ServiceConfig) (scratch : Scratch) (texts : List (Nat × CString))
    (place : Nat) (written : Bytes) : Prop extends Fits config scratch where
  stored : ∀ text ∈ texts, Arena.Holds 0 scratch.metadata text.1 text.2.bytes
  apart : texts.Pairwise fun first second => first.1 + (first.2.length + 1) ≤ second.1
  below : ∀ text ∈ texts, text.1 + (text.2.length + 1) ≤ place
  reads : Arena.read scratch.metadata place written.length = written
  used_eq : scratch.used = place + written.length

/-- Texts stand in the scratch that is in use. -/
def Holding (config : ServiceConfig) (scratch : Scratch) (texts : List (Nat × CString)) : Prop :=
  Writing config scratch texts scratch.used []

/-- The storage with more written to it. -/
def written (scratch : Scratch) (bytes : Bytes) : Scratch :=
  { scratch with
    metadata := Arena.write scratch.metadata scratch.used bytes
    used := scratch.used + bytes.length }

/-- `add` writes what fits. -/
theorem add_eq (hadmits : Admits config) {scratch : Scratch} (hfits : Fits config scratch)
    {memory : Bytes} {size : Nat} (hmemory : size ≤ memory.length) :
    add config scratch memory size =
      if scratch.used + size ≤ config.maxMetadataBytes then .ok (scratch.written (memory.take size))
      else .error .refused := by
  have hused := hfits.used_le
  have hsizes := hadmits.metadata_le
  have hroom : sizeSub config.maxMetadataBytes scratch.used =
      config.maxMetadataBytes - scratch.used :=
    sizeSub_eq hused hsizes
  rw [add, hroom]
  by_cases hle : scratch.used + size ≤ config.maxMetadataBytes
  · have hinside : ¬ (memory.length < size ∨ scratch.metadata.length < scratch.used + size) := by
      rw [hfits.metadata_length]
      omega
    have hsum : sizeAdd scratch.used size = scratch.used + size := sizeAdd_eq (Nat.le_trans hle hsizes)
    rw [if_neg (by omega), if_neg hinside, if_pos hle, hsum, written, List.length_take,
      Nat.min_eq_left hmemory]
  · rw [if_pos (by omega), if_neg hle]

theorem Writing.add {scratch : Scratch} {texts : List (Nat × CString)} {place : Nat}
    {bytes : Bytes} (hwriting : Writing config scratch texts place bytes) {more : Bytes}
    (hroom : scratch.used + more.length ≤ config.maxMetadataBytes) :
    Writing config (scratch.written more) texts place (bytes ++ more) := by
  have hused := hwriting.used_eq
  have hinside : scratch.used + more.length ≤ scratch.metadata.length := by
    rw [hwriting.metadata_length]
    exact hroom
  have hsame := Arena.sameOutside_write (Nat.le_refl scratch.used) (Nat.le_refl _) hinside
  constructor
  · exact ⟨(Arena.length_write hinside).trans hwriting.metadata_length, hwriting.argv_length, hroom⟩
  · intro text hmem
    refine (hwriting.stored text hmem).of_sameOutside hsame (.inl ?_)
    have hbelow := hwriting.below text hmem
    have hlength : text.2.length = text.2.bytes.length := rfl
    omega
  · exact hwriting.apart
  · exact hwriting.below
  · rw [List.length_append, Arena.read_add, ← hused]
    have hearlier := (hsame.read_eq place bytes.length (.inl (by omega))).trans hwriting.reads
    rw [written, hearlier, Arena.read_write_self hinside]
  · rw [List.length_append, written, hused, Nat.add_assoc]

/-- A text that has been written with its NUL is one more text. -/
theorem Writing.finish {scratch : Scratch} {texts : List (Nat × CString)} {place : Nat}
    {text : CString} (hwriting : Writing config scratch texts place (text.bytes ++ [0])) :
    Holding config scratch (texts ++ [(place, text)]) := by
  have hused := hwriting.used_eq
  have hlength : text.length = text.bytes.length := rfl
  rw [List.length_append, List.length_singleton] at hused
  constructor
  · exact hwriting.toFits
  · intro other hmem
    rcases List.mem_append.mp hmem with hearlier | hlast
    · exact hwriting.stored other hearlier
    · obtain rfl := List.mem_singleton.mp hlast
      refine ⟨text.nulFree, ?_⟩
      have hreads := hwriting.reads
      rwa [List.length_append, List.length_singleton] at hreads
  · refine List.pairwise_append.mpr ⟨hwriting.apart, List.pairwise_singleton _ _, ?_⟩
    intro first hfirst second hsecond
    obtain rfl := List.mem_singleton.mp hsecond
    exact hwriting.below first hfirst
  · intro other hmem
    rcases List.mem_append.mp hmem with hearlier | hlast
    · have hbelow := hwriting.below other hearlier
      omega
    · obtain rfl := List.mem_singleton.mp hlast
      simp only
      omega
  · rfl
  · rfl

/-- The same addresses and commands. -/
structure Beside (before after : Scratch) : Prop where
  argv_eq : after.argv = before.argv
  program_eq : after.program = before.program
  commands_eq : after.commands = before.commands

theorem Beside.refl (scratch : Scratch) : Beside scratch scratch := ⟨rfl, rfl, rfl⟩

theorem Beside.trans {first second third : Scratch} (hfirst : Beside first second)
    (hsecond : Beside second third) : Beside first third :=
  ⟨hsecond.argv_eq.trans hfirst.argv_eq, hsecond.program_eq.trans hfirst.program_eq,
    hsecond.commands_eq.trans hfirst.commands_eq⟩

section Texts

variable (hadmits : Admits config) {scratch : Scratch} {texts : List (Nat × CString)}
  {place : Nat} {bytes : Bytes}
include hadmits

theorem add_agrees (hwriting : Writing config scratch texts place bytes) {memory : Bytes}
    {size : Nat} (hmemory : size ≤ memory.length) :
    Agrees (fun used out => Writing config out texts place (bytes ++ memory.take size) ∧
        out.used = used ∧ Beside scratch out)
      (Process.add config scratch.used size) (add config scratch memory size) := by
  have hused := hwriting.used_le
  have hlength : (memory.take size).length = size := by
    rw [List.length_take, Nat.min_eq_left hmemory]
  rw [add_eq hadmits hwriting.toFits hmemory, Process.add]
  by_cases hroom : scratch.used + size ≤ config.maxMetadataBytes
  · rw [if_pos hroom, if_neg (by omega)]
    refine .pure ⟨hwriting.add (by rwa [hlength]), ?_, ⟨rfl, rfl, rfl⟩⟩
    rw [written, hlength]
  · rw [if_neg hroom, if_pos (by omega)]
    rfl

/-- The longest text leaves room for its NUL in a `size_t`. -/
theorem succ_le_sizeMax {text : CString} (hshort : text.length < config.maxMetadataBytes) :
    sizeAdd text.length 1 = text.length + 1 :=
  sizeAdd_eq (Nat.le_trans hshort hadmits.metadata_le)

theorem copy_agrees (hholding : Holding config scratch texts) (text : Option CString) :
    Agrees (fun model out => out.1 = scratch.used ∧
        Holding config out.2 (texts ++ [(out.1, model.1)]) ∧ out.2.used = model.2 ∧
        out.2.used = scratch.used + (model.1.length + 1) ∧ Beside scratch out.2)
      (Process.copy config scratch.used text) (copy config scratch text) := by
  refine (textSize_agrees config text).bind ?_
  rintro _ _ ⟨text, rfl, rfl, rfl, hshort⟩
  have hlength : text.length + 1 = (text.bytes ++ [0]).length := by
    rw [List.length_append]
    rfl
  simp only
  rw [succ_le_sizeMax hadmits hshort]
  refine (add_agrees hadmits hholding (Nat.le_of_eq hlength)).bind ?_
  rintro used out ⟨hwriting, hused, hbeside⟩
  rw [hlength, List.take_length, List.nil_append] at hwriting
  refine .pure ⟨rfl, hwriting.finish, hused, ?_, hbeside⟩
  rw [hlength]
  exact hwriting.used_eq

omit hadmits in
/-- What is left of a marker is skipped. -/
theorem substitute_skip (name : CString) (skip : Nat) (text rendered : Bytes) (used : Nat) :
    Process.substitute config name skip text rendered used =
      Process.substitute config name 0 (text.drop skip) rendered used := by
  induction text generalizing skip with
  | nil => cases skip <;> rfl
  | cons byte rest ih =>
      cases skip with
      | zero => rfl
      | succ skip => exact ih skip

omit hadmits in
/-- The loop without storage at a marker. -/
theorem substitute_marker (name : CString) {text : Bytes} (hmarker : text.take 14 = nameMarker)
    (rendered : Bytes) (used : Nat) :
    Process.substitute config name 0 text rendered used =
      (Process.add config used name.length).bind fun used =>
        Process.substitute config name 0 (text.drop 14) (rendered ++ name.bytes) used := by
  cases text with
  | nil => cases hmarker
  | cons byte rest =>
      have hmarker' : (byte :: rest).take 14 = [123] ++ ascii "service_name" ++ [125] := hmarker
      have hskip := @substitute_skip config name 13 rest
      rw [Process.substitute, if_pos hmarker']
      simp only [hskip]
      rfl

omit hadmits in
/-- The loop without storage at another byte. -/
theorem substitute_byte (name : CString) {byte : UInt8} {rest : Bytes}
    (hmarker : (byte :: rest).take 14 ≠ nameMarker) (rendered : Bytes) (used : Nat) :
    Process.substitute config name 0 (byte :: rest) rendered used =
      (Process.add config used 1).bind fun used =>
        Process.substitute config name 0 rest (rendered ++ [byte]) used := by
  have hmarker' : ¬ (byte :: rest).take 14 = [123] ++ ascii "service_name" ++ [125] := hmarker
  rw [Process.substitute, if_neg hmarker']
  rfl

theorem substitute_agrees (name : CString) (text : Bytes) (position : Nat)
    (hwriting : Writing config scratch texts place bytes) :
    Agrees (fun model out => Writing config out texts place model.1 ∧ out.used = model.2 ∧
        Beside scratch out)
      (Process.substitute config name 0 (text.drop position) bytes scratch.used)
      (substitute config name.bytes text position scratch) := by
  fun_induction substitute config name.bytes text position scratch generalizing bytes with
  | case1 position scratch hinside hmarker ih =>
      have hname : name.length ≤ (name.bytes ++ [0]).length := by
        rw [List.length_append]
        exact Nat.le_add_right _ _
      have hwhole : (name.bytes ++ [0]).take name.length = name.bytes := List.take_left
      rw [substitute_marker name hmarker.2, List.drop_drop]
      refine (add_agrees hadmits hwriting hname).bind ?_
      rintro used out ⟨hwritten, rfl, hbeside⟩
      rw [hwhole] at hwritten
      exact (ih out hwritten).imp fun model final ⟨hfinal, hused, hlater⟩ =>
        ⟨hfinal, hused, hbeside.trans hlater⟩
  | case2 position scratch hinside hmarker ih =>
      have hcons := List.drop_eq_getElem_cons hinside
      have hfree : (text.drop position).take 14 ≠ nameMarker := by
        intro hsame
        refine hmarker ⟨?_, hsame⟩
        have hlength := congrArg List.length hsame
        rw [List.length_take, List.length_drop] at hlength
        have hfourteen : nameMarker.length = 14 := rfl
        omega
      have hone : 1 ≤ (text.drop position).length := by
        rw [List.length_drop]
        omega
      have hfirst : (text.drop position).take 1 = [text[position]] := by
        rw [hcons]
        rfl
      have hadd := add_agrees hadmits hwriting hone
      rw [hfirst] at hadd
      rw [hcons] at hfree ⊢
      rw [substitute_byte name hfree, ← hcons]
      refine hadd.bind ?_
      rintro used out ⟨hwritten, rfl, hbeside⟩
      exact (ih out hwritten).imp fun model final ⟨hfinal, hused, hlater⟩ =>
        ⟨hfinal, hused, hbeside.trans hlater⟩
  | case3 position scratch hinside =>
      have hnone : text.drop position = [] := List.drop_of_length_le (Nat.le_of_not_lt hinside)
      rw [hnone]
      exact .pure ⟨hwriting, rfl, .refl _⟩

end Texts

/-! ## Templates -/

theorem notMem_substituteFrom {name : CString} {text : Bytes} (htext : 0 ∉ text) (skip : Nat) :
    0 ∉ substituteFrom nameMarker name.bytes skip text := by
  induction text generalizing skip with
  | nil => cases skip <;> exact List.not_mem_nil
  | cons byte rest ih =>
      obtain ⟨hbyte, hrest⟩ := not_or.mp (mt List.mem_cons.mpr htext)
      cases skip with
      | succ skip => exact ih hrest skip
      | zero =>
          rw [substituteFrom]
          split
          · exact fun hmem => (List.mem_append.mp hmem).elim name.nulFree (ih hrest _)
          · exact fun hmem => (List.mem_cons.mp hmem).elim hbyte (ih hrest _)

/-- What the loop without storage renders. -/
theorem substitute_eq_some {name : CString} {skip used : Nat} {text rendered : Bytes}
    {result : Bytes × Nat}
    (hresult : Process.substitute config name skip text rendered used = some result) :
    result.1 = rendered ++ substituteFrom nameMarker name.bytes skip text := by
  induction text generalizing skip rendered used with
  | nil =>
      have hsame : some (rendered, used) = some result := by
        cases skip <;> exact hresult
      obtain rfl := Option.some.inj hsame
      cases skip <;> simp [substituteFrom]
  | cons byte rest ih =>
      cases skip with
      | succ skip => exact ih hresult
      | zero =>
          rw [substituteFrom, show nameMarker.length = 14 from rfl]
          by_cases hbegins : (byte :: rest).take 14 = nameMarker
          · rw [substitute_marker name hbegins] at hresult
            obtain ⟨middle, -, hlater⟩ := Option.bind_eq_some_iff.mp hresult
            have hskipped : Process.substitute config name 13 rest (rendered ++ name.bytes) middle =
                some result := by
              rw [substitute_skip]
              exact hlater
            rw [ih hskipped, if_pos hbegins, List.append_assoc]
          · rw [substitute_byte name hbegins] at hresult
            obtain ⟨middle, -, hlater⟩ := Option.bind_eq_some_iff.mp hresult
            rw [ih hlater, if_neg hbegins, List.append_assoc]
            rfl

/-- Other addresses leave the texts alone. -/
theorem Holding.pointed {scratch : Scratch} {texts : List (Nat × CString)}
    (hholding : Holding config scratch texts) {argv : List (Option Nat)}
    (hargv : argv.length = scratch.argv.length) :
    Holding config { scratch with argv } texts :=
  ⟨⟨hholding.metadata_length, hargv.trans hholding.argv_length, hholding.used_le⟩, hholding.stored,
    hholding.apart, hholding.below, hholding.reads, hholding.used_eq⟩

/-- So does another address of the program. -/
theorem Holding.named {scratch : Scratch} {texts : List (Nat × CString)}
    (hholding : Holding config scratch texts) (program : Nat) :
    Holding config { scratch with program } texts :=
  ⟨⟨hholding.metadata_length, hholding.argv_length, hholding.used_le⟩, hholding.stored,
    hholding.apart, hholding.below, hholding.reads, hholding.used_eq⟩

/-- Texts that an array of addresses points to, from a place on. -/
def Points (scratch : Scratch) (base : Nat) (texts : List (Nat × CString)) : Prop :=
  ∀ index text, texts[index]? = some text → scratch.argv[base + index]? = some (some text.1)

/-- The bytes of texts with their NULs. -/
def space (texts : List (Nat × CString)) : Nat :=
  (texts.map fun text => text.2.length + 1).sum

/-- A command of which some texts have been rendered, after `earlier` ones that belong to
others. -/
structure Rendering (config : ServiceConfig) (before scratch : Scratch)
    (earlier : List (Nat × CString)) (base : Nat) (vector : List (Nat × CString)) : Prop where
  holding : Holding config scratch (earlier ++ vector)
  points : Points scratch base vector
  bounded : vector.length ≤ config.maxArguments
  used_eq : scratch.used = before.used + space vector
  frame : ∀ place, place < base ∨ base + config.maxArguments ≤ place →
    scratch.argv[place]? = before.argv[place]?
  program_eq : scratch.program = before.program
  commands_eq : scratch.commands = before.commands

section Vectors

variable {before scratch : Scratch} {earlier vector : List (Nat × CString)} {base : Nat}

/-- One more text of a command. -/
theorem Rendering.step (hrendering : Rendering config before scratch earlier base vector)
    (hroom : vector.length < config.maxArguments)
    (hbase : base + config.maxArguments ≤ 3 * config.maxArguments) {out : Scratch} {text : CString}
    (hholding : Holding config out (earlier ++ vector ++ [(scratch.used, text)]))
    (hargv : out.argv = scratch.argv.set (base + vector.length) (some scratch.used))
    (hused : out.used = scratch.used + (text.length + 1))
    (hprogram : out.program = scratch.program) (hcommands : out.commands = scratch.commands) :
    Rendering config before out earlier base (vector ++ [(scratch.used, text)]) := by
  have hplace : base + vector.length < scratch.argv.length := by
    rw [hrendering.holding.argv_length]
    omega
  constructor
  · rw [← List.append_assoc]
    exact hholding
  · intro index found hfound
    rw [hargv]
    by_cases hlast : index = vector.length
    · subst hlast
      rw [List.getElem?_append_right (Nat.le_refl _), Nat.sub_self] at hfound
      obtain rfl := Option.some.inj hfound
      rw [List.getElem?_set_self hplace]
    · have hlater : index < (vector ++ [(scratch.used, text)]).length :=
        (List.getElem?_eq_some_iff.mp hfound).1
      rw [List.length_append, List.length_singleton] at hlater
      rw [List.getElem?_append_left (by omega)] at hfound
      rw [List.getElem?_set_ne (by omega)]
      exact hrendering.points index found hfound
  · rw [List.length_append, List.length_singleton]
    exact hroom
  · rw [hused, hrendering.used_eq, space, space, List.map_append, List.sum_append]
    simp only [List.map_cons, List.map_nil, List.sum_cons, List.sum_nil]
    omega
  · intro place hapart
    rw [hargv, List.getElem?_set_ne (by omega)]
    exact hrendering.frame place hapart
  · rw [hprogram, hrendering.program_eq]
  · rw [hcommands, hrendering.commands_eq]

/-- What the loops over arguments and templates leave. -/
def Rendered (config : ServiceConfig) (before : Scratch) (earlier : List (Nat × CString))
    (base : Nat) (model : List CString × Nat) (out : Nat × Scratch) : Prop :=
  ∃ vector, out.1 = vector.length ∧ vector.map Prod.snd = model.1 ∧ out.2.used = model.2 ∧
    Rendering config before out.2 earlier base vector

variable (hadmits : Admits config) (hbase : base + config.maxArguments ≤ 3 * config.maxArguments)
include hadmits hbase

omit hadmits in
theorem point_eq (hrendering : Rendering config before scratch earlier base vector)
    (hroom : vector.length < config.maxArguments) {out : Scratch} (hargv : out.argv = scratch.argv)
    (address : Nat) :
    point out (base + vector.length) address =
      .ok { out with argv := scratch.argv.set (base + vector.length) (some address) } := by
  have hplace : base + vector.length < out.argv.length := by
    rw [hargv, hrendering.holding.argv_length]
    omega
  rw [point, if_pos hplace, hargv]

theorem renderArguments_agrees (arguments : List (Option CString))
    (hrendering : Rendering config before scratch earlier base vector) :
    Agrees (Rendered config before earlier base)
      (Process.renderArguments config arguments (vector.map Prod.snd) scratch.used)
      (renderArguments config base arguments vector.length scratch) := by
  induction arguments generalizing scratch vector with
  | nil => exact .pure ⟨vector, rfl, rfl, rfl, hrendering⟩
  | cons text rest ih =>
      rw [Process.renderArguments, renderArguments, List.length_map]
      by_cases hfull : vector.length = config.maxArguments
      · rw [if_pos hfull, if_pos hfull]
        rfl
      rw [if_neg hfull, if_neg hfull]
      have hroom : vector.length < config.maxArguments :=
        Nat.lt_of_le_of_ne hrendering.bounded hfull
      refine (copy_agrees hadmits hrendering.holding text).bind ?_
      rintro ⟨copied, used⟩ ⟨_, out⟩ ⟨rfl, hholding, rfl, hused, hbeside⟩
      simp only at hholding hused hbeside ⊢
      rw [point_eq hbase hrendering hroom hbeside.argv_eq]
      have hargv : (scratch.argv.set (base + vector.length) (some scratch.used)).length =
          out.argv.length := by
        rw [List.length_set, hbeside.argv_eq]
      have hpointed := Holding.pointed hholding hargv
      have hlater := ih (hrendering.step hroom hbase hpointed rfl hused hbeside.program_eq
        hbeside.commands_eq)
      rw [List.map_append, List.length_append] at hlater
      exact hlater

theorem renderTemplates_agrees (request : ServiceRequest) (name : CString)
    (templates : List (Option CString))
    (hrendering : Rendering config before scratch earlier base vector) :
    Agrees (Rendered config before earlier base)
      (Process.renderTemplates config request name templates (vector.map Prod.snd) scratch.used)
      (renderTemplates config request name base templates vector.length scratch) := by
  induction templates generalizing scratch vector with
  | nil => exact .pure ⟨vector, rfl, rfl, rfl, hrendering⟩
  | cons template rest ih =>
      rw [Process.renderTemplates, renderTemplates]
      refine (textSize_agrees config template).bind ?_
      rintro _ _ ⟨text, rfl, rfl, rfl, -⟩
      simp only
      by_cases harguments : text.bytes = argumentsMarker
      · have harguments' : text.bytes = [123] ++ ascii "arguments" ++ [125] := harguments
        rw [if_pos harguments, if_pos harguments']
        refine (renderArguments_agrees hadmits hbase _ hrendering).bind ?_
        rintro ⟨_, _⟩ ⟨_, out⟩ ⟨vector, rfl, rfl, rfl, hrendered⟩
        exact ih hrendered
      have harguments' : ¬ text.bytes = [123] ++ ascii "arguments" ++ [125] := harguments
      rw [if_neg harguments, if_neg harguments', List.length_map]
      by_cases hfull : vector.length = config.maxArguments
      · rw [if_pos hfull, if_pos hfull]
        rfl
      rw [if_neg hfull, if_neg hfull]
      have hroom : vector.length < config.maxArguments :=
        Nat.lt_of_le_of_ne hrendering.bounded hfull
      have hargv : (scratch.argv.set (base + vector.length) (some scratch.used)).length =
          scratch.argv.length :=
        List.length_set
      rw [point_eq hbase hrendering hroom rfl]
      have hpointed := Holding.pointed hrendering.holding hargv
      have hsubstitute := substitute_agrees hadmits name text.bytes 0 hpointed
      rw [List.drop_zero] at hsubstitute
      cases hmodel : Process.substitute config name 0 text.bytes [] scratch.used with
      | none =>
          rw [hmodel] at hsubstitute
          change Agrees _ none (Except.bind (substitute _ _ _ _ _) _)
          rw [show substitute _ _ _ _ _ = Except.error ScratchStop.refused from hsubstitute]
          rfl
      | some model =>
          obtain ⟨rendered, used⟩ := model
          rw [hmodel] at hsubstitute
          obtain ⟨out, hout, hwriting, rfl, hbeside⟩ := hsubstitute
          have hnul : 0 ∉ rendered := by
            have hrendered := substitute_eq_some hmodel
            rw [List.nil_append] at hrendered
            obtain rfl : rendered = _ := hrendered
            exact notMem_substituteFrom text.nulFree 0
          have hbytes : (CString.ofBuffer rendered).bytes = rendered := CString.ofBuffer_bytes hnul
          change Agrees _ (Option.bind (Process.add config out.used 1) _)
            (Except.bind (substitute _ _ _ _ _) _)
          rw [hout]
          change Agrees _ _ (Except.bind (add config out [0] 1) _)
          have hone : 1 ≤ ([0] : Bytes).length := Nat.le_refl 1
          refine Agrees.bind (add_agrees hadmits hwriting hone) ?_
          rintro _ final ⟨hfinal, rfl, hlast⟩
          have hfinal' : Writing config final (earlier ++ vector) scratch.used
              ((CString.ofBuffer rendered).bytes ++ [0]) := by
            rw [hbytes]
            exact hfinal
          have hused : final.used = scratch.used + ((CString.ofBuffer rendered).length + 1) := by
            rw [hfinal'.used_eq, List.length_append]
            rfl
          have hbeside := hbeside.trans hlast
          have hlater := ih (hrendering.step hroom hbase hfinal'.finish hbeside.argv_eq hused
            hbeside.program_eq hbeside.commands_eq)
          rw [List.map_append, List.length_append] at hlater
          exact hlater

end Vectors

/-! ## Commands -/

/-- The place of the first address of a command. -/
def baseOf (config : ServiceConfig) (slot : CommandSlot) : Nat := slot.number * config.maxArguments

theorem number_le (slot : CommandSlot) : slot.number ≤ 2 := by
  cases slot <;> decide

theorem baseOf_le (slot : CommandSlot) :
    baseOf config slot + config.maxArguments ≤ 3 * config.maxArguments := by
  have hle := Nat.mul_le_mul_right config.maxArguments (number_le slot)
  rw [baseOf]
  omega

/-- A command that has been rendered after other texts. -/
structure Command (config : ServiceConfig) (before scratch : Scratch)
    (earlier : List (Nat × CString)) (slot : CommandSlot) (vector : List (Nat × CString)) :
    Prop where
  holding : Holding config scratch (earlier ++ vector)
  points : Points scratch (baseOf config slot) vector
  bounded : vector.length ≤ config.maxArguments
  used_eq : scratch.used = before.used + space vector + (vector.length + 1) * 8
  frame : ∀ place, place < baseOf config slot ∨ baseOf config slot + config.maxArguments ≤ place →
    scratch.argv[place]? = before.argv[place]?
  program_eq : scratch.program = before.program
  commands_eq : scratch.commands =
    Function.update before.commands slot (baseOf config slot, vector.length)

/-- Room that is set aside behind the texts. -/
theorem Holding.reserve {scratch : Scratch} {texts : List (Nat × CString)}
    (hholding : Holding config scratch texts) {used : Nat} (hused : scratch.used ≤ used)
    (hroom : used ≤ config.maxMetadataBytes) (commands : CommandSlot → Nat × Nat) :
    Holding config { scratch with used, commands } texts :=
  ⟨⟨hholding.metadata_length, hholding.argv_length, hroom⟩, hholding.stored, hholding.apart,
    fun text hmem => Nat.le_trans (hholding.below text hmem) hused, rfl, rfl⟩

/-- The sizes of the addresses of a command do not wrap around. -/
theorem addresses_eq (hadmits : Admits config) {count : Nat} (hcount : count ≤ config.maxArguments) :
    sizeMul (sizeAdd count 1) 8 = (count + 1) * 8 := by
  have hlimit := hadmits.arguments_le
  have hmax : sizeMax = 18446744073709551615 := rfl
  rw [sizeAdd_eq (by omega), sizeMul_eq (by omega)]

theorem sizeMul_number (hadmits : Admits config) (slot : CommandSlot) :
    sizeMul slot.number config.maxArguments = baseOf config slot := by
  have hlimit := hadmits.arguments_le
  have hmax : sizeMax = 18446744073709551615 := rfl
  have hle := Nat.mul_le_mul_right config.maxArguments (number_le slot)
  rw [sizeMul_eq (by omega)]
  rfl

theorem render_agrees (hadmits : Admits config) {scratch : Scratch} {earlier : List (Nat × CString)}
    (hholding : Holding config scratch earlier) (request : ServiceRequest) (input : ServiceArgs)
    (slot : CommandSlot) :
    Agrees (fun model out => ∃ vector, vector.map Prod.snd = model.1 ∧ out.used = model.2 ∧
        Command config scratch out earlier slot vector)
      (Process.render config request input scratch.used)
      (render config request input slot scratch) := by
  rw [Process.render, render, sizeMul_number hadmits]
  refine (textSize_agrees config request.name).bind ?_
  rintro _ _ ⟨name, -, rfl, rfl, -⟩
  simp only
  by_cases hrefused : input.count > config.maxArguments ∨ input.missing = true
  · rw [if_pos hrefused, if_pos hrefused]
    rfl
  rw [if_neg hrefused, if_neg hrefused]
  have hstart : Rendering config scratch scratch earlier (baseOf config slot) [] :=
    ⟨by rwa [List.append_nil], fun _ _ hnone => absurd hnone (by simp), Nat.zero_le _, rfl,
      fun _ _ => rfl, rfl, rfl⟩
  refine (renderTemplates_agrees hadmits (baseOf_le slot) request name input.texts hstart).bind ?_
  rintro ⟨_, _⟩ ⟨_, out⟩ ⟨vector, rfl, rfl, rfl, hrendering⟩
  simp only at hrendering ⊢
  have hused := hrendering.holding.used_le
  rw [addresses_eq hadmits hrendering.bounded, sizeSub_eq hused hadmits.metadata_le, List.length_map,
    Process.add]
  by_cases hroom : (vector.length + 1) * 8 > config.maxMetadataBytes - out.used
  · rw [if_pos hroom, if_pos hroom]
    rfl
  rw [if_neg hroom, if_neg hroom]
  have hsum : sizeAdd out.used ((vector.length + 1) * 8) =
      out.used + (vector.length + 1) * 8 := by
    have hlimit := hadmits.metadata_le
    exact sizeAdd_eq (by omega)
  rw [hsum]
  have hreserved := Holding.reserve hrendering.holding (Nat.le_add_right _ ((vector.length + 1) * 8))
    (by omega) (Function.update out.commands slot (baseOf config slot, vector.length))
  refine .pure ⟨vector, rfl, rfl, hreserved, hrendering.points, hrendering.bounded, ?_,
    hrendering.frame, hrendering.program_eq, ?_⟩
  · rw [← hrendering.used_eq]
  · rw [← hrendering.commands_eq]

/-- Where the program and the three commands of a request stand. -/
structure Layout (config : ServiceConfig) (scratch : Scratch) (program : Nat × CString)
    (vectors : CommandSlot → List (Nat × CString)) : Prop where
  holding : Holding config scratch
    (program :: (vectors .status ++ (vectors .start ++ vectors .stop)))
  program_eq : scratch.program = program.1
  points : ∀ slot, Points scratch (baseOf config slot) (vectors slot)
  commands_eq : ∀ slot, scratch.commands slot = (baseOf config slot, (vectors slot).length)
  bounded : ∀ slot, (vectors slot).length ≤ config.maxArguments
  used_eq : scratch.used =
    space (program :: (vectors .status ++ (vectors .start ++ vectors .stop))) +
      ((vectors .status).length + 1 + ((vectors .start).length + 1) +
        ((vectors .stop).length + 1)) * 8

/-- The addresses of another command are left alone. -/
theorem Points.frame {before after : Scratch} {texts : List (Nat × CString)} {base other : Nat}
    (hpoints : Points before base texts) (hbounded : texts.length ≤ config.maxArguments)
    (hapart : base + config.maxArguments ≤ other ∨ other + config.maxArguments ≤ base)
    (hframe : ∀ place, place < other ∨ other + config.maxArguments ≤ place →
      after.argv[place]? = before.argv[place]?) :
    Points after base texts := by
  intro index text htext
  have hindex := (List.getElem?_eq_some_iff.mp htext).1
  rw [hframe _ (by omega)]
  exact hpoints index text htext

theorem renderProfile_agrees (hadmits : Admits config) {scratch : Scratch}
    (hfits : Fits config scratch) (hempty : scratch.used = 0) (request : ServiceRequest)
    (profile : ServiceProfile) :
    Agrees (fun model out => ∃ program vectors, program.2 = model.1 ∧
        (∀ slot, (vectors slot).map Prod.snd = model.2 slot) ∧ Layout config out program vectors)
      (Process.renderProfile config request profile)
      (renderProfile config request profile scratch) := by
  rw [Process.renderProfile, renderProfile]
  cases present profile.program with
  | false => rfl
  | true =>
      have hholding : Holding config scratch [] :=
        ⟨hfits, by simp, .nil, by simp, rfl, rfl⟩
      have hcopy := copy_agrees hadmits hholding profile.program
      rw [hempty] at hcopy
      refine Agrees.bind hcopy ?_
      rintro ⟨program, used⟩ ⟨address, copied⟩ ⟨haddress, hcopied, rfl, hused, hbeside⟩
      simp only at haddress hcopied hused hbeside ⊢
      have hnamed : Holding config { copied with program := address } [(address, program)] :=
        Holding.named hcopied address
      refine (render_agrees hadmits hnamed request profile.status .status).bind ?_
      rintro ⟨_, _⟩ first ⟨status, rfl, rfl, hstatus⟩
      refine (render_agrees hadmits hstatus.holding request profile.start .start).bind ?_
      rintro ⟨_, _⟩ second ⟨start, rfl, rfl, hstart⟩
      refine (render_agrees hadmits hstart.holding request profile.stop .stop).map ?_
      rintro ⟨_, _⟩ third ⟨stop, rfl, rfl, hstop⟩
      let vectors : CommandSlot → List (Nat × CString)
        | .status => status
        | .start => start
        | .stop => stop
      refine ⟨(address, program), vectors, rfl, ?_, ?_⟩
      · rintro (_ | _ | _) <;> rfl
      have hbases : baseOf config .status = 0 ∧ baseOf config .start = config.maxArguments ∧
          baseOf config .stop = 2 * config.maxArguments :=
        ⟨Nat.zero_mul _, Nat.one_mul _, rfl⟩
      obtain ⟨hzero, hone, htwo⟩ := hbases
      constructor
      · have hholding := hstop.holding
        simp only [List.cons_append, List.nil_append, List.append_assoc] at hholding
        exact hholding
      · rw [hstop.program_eq, hstart.program_eq, hstatus.program_eq]
      · rintro (_ | _ | _)
        · refine Points.frame ?_ hstatus.bounded (.inl ?_) hstop.frame
          · refine Points.frame hstatus.points hstatus.bounded (.inl ?_) hstart.frame
            omega
          · omega
        · refine Points.frame hstart.points hstart.bounded (.inl ?_) hstop.frame
          omega
        · exact hstop.points
      · rw [hstop.commands_eq, hstart.commands_eq, hstatus.commands_eq]
        rintro (_ | _ | _) <;> rfl
      · rintro (_ | _ | _)
        · exact hstatus.bounded
        · exact hstart.bounded
        · exact hstop.bounded
      · rw [hstop.used_eq, hstart.used_eq, hstatus.used_eq, hused]
        simp only [space, vectors, List.map_cons, List.map_append, List.sum_cons, List.sum_append]
        omega

/-! ## Preparing -/

theorem countInput_agrees (hadmits : Admits config) {counted : Nat}
    (hcounted : counted ≤ config.maxMetadataBytes) (text : Option CString) :
    Agrees (fun model out => out = model ∧ model ≤ config.maxMetadataBytes)
      (Process.countInput config counted text) (countInput config counted text) := by
  have hlimit := hadmits.metadata_le
  rw [Process.countInput, countInput]
  refine (textSize_agrees config text).bind ?_
  rintro _ _ ⟨found, -, rfl, rfl, hshort⟩
  simp only
  rw [succ_le_sizeMax hadmits hshort, sizeSub_eq hcounted hlimit, Process.add]
  by_cases hroom : found.length + 1 > config.maxMetadataBytes - counted
  · rw [if_pos hroom, if_pos hroom]
    rfl
  · rw [if_neg hroom, if_neg hroom, sizeAdd_eq (by omega)]
    exact .pure ⟨rfl, by omega⟩

theorem countTexts_agrees (hadmits : Admits config) {counted : Nat}
    (hcounted : counted ≤ config.maxMetadataBytes) (texts : List (Option CString)) :
    Agrees (fun model out => out = model ∧ model ≤ config.maxMetadataBytes)
      (texts.foldlM (Process.countInput config) counted)
      (texts.foldlM (countInput config) counted) := by
  induction texts generalizing counted with
  | nil => exact .pure ⟨rfl, hcounted⟩
  | cons text rest ih =>
      rw [List.foldlM_cons, List.foldlM_cons]
      refine (countInput_agrees hadmits hcounted text).bind ?_
      rintro counted _ ⟨rfl, hle⟩
      exact ih hle

theorem countInputs_agrees (hadmits : Admits config) (request : ServiceRequest) :
    Agrees (fun model out => out = model ∧ model ≤ config.maxMetadataBytes)
      (Process.countInputs config request) (countInputs config request) := by
  have hname : Process.countInputs config request =
      (Process.textSize config request.name).bind fun sized =>
        (Process.countInput config (sized.2 + 1) request.profileName).bind fun counted =>
          request.arguments.texts.foldlM (Process.countInput config) counted := by
    rw [Process.countInputs, Process.countInput]
    cases hsize : Process.textSize config request.name with
    | none => rfl
    | some sized =>
        have hsized := textSize_agrees config request.name
        rw [hsize] at hsized
        obtain ⟨_, -, found, -, rfl, -, hshort⟩ := hsized
        have hfirst : Process.add config 0 (found.length + 1) = some (found.length + 1) := by
          rw [Process.add, if_neg (by omega), Nat.zero_add]
        simp only [Option.bind_eq_bind, Option.bind_some, hfirst]
  rw [hname, countInputs]
  refine (textSize_agrees config request.name).bind ?_
  rintro _ _ ⟨found, -, rfl, rfl, hshort⟩
  simp only
  rw [succ_le_sizeMax hadmits hshort]
  refine (countInput_agrees hadmits hshort request.profileName).bind ?_
  rintro counted _ ⟨rfl, hle⟩
  exact countTexts_agrees hadmits hle _

/-- `prepare` on the storage decides as the one without, and leaves the strings of the
commands that it accepts. -/
theorem prepare_agrees (hadmits : Admits config) (request : ServiceRequest) (scratch : Scratch)
    (hmetadata : scratch.metadata.length = config.maxMetadataBytes)
    (hargv : scratch.argv.length = 3 * config.maxArguments) :
    match Process.prepare config request with
    | .error refusal => prepare config request scratch = some (.error refusal)
    | .ok prepared => ∃ out program vectors,
        prepare config request scratch = some (.ok (out, prepared.budget)) ∧
          program.2 = prepared.program ∧
          (∀ slot, (vectors slot).map Prod.snd = prepared.arguments slot) ∧
          Layout config out program vectors := by
  rw [Process.prepare, prepare]
  by_cases hformed : (!wellFormed config request) = true
  · rw [if_pos hformed, if_pos hformed]
  rw [if_neg hformed, if_neg hformed]
  have hcounted := countInputs_agrees hadmits request
  cases hcount : Process.countInputs config request with
  | none =>
      rw [hcount] at hcounted
      rw [show countInputs config request = .error .refused from hcounted]
  | some counted =>
      rw [hcount] at hcounted
      obtain ⟨_, hlow, -⟩ := hcounted
      rw [hlow]
      cases request.profile with
      | none => rfl
      | some profile =>
          have hfits : Fits config { scratch with used := 0 } := ⟨hmetadata, hargv, Nat.zero_le _⟩
          have hprofile := renderProfile_agrees hadmits hfits rfl request profile
          simp only
          cases hmodel : Process.renderProfile config request profile with
          | none =>
              rw [hmodel] at hprofile
              rw [show renderProfile config request profile { scratch with used := 0 } =
                .error .refused from hprofile]
          | some model =>
              rw [hmodel] at hprofile
              obtain ⟨out, hout, program, vectors, hprogram, hvectors, hlayout⟩ := hprofile
              rw [hout]
              exact ⟨out, program, vectors, rfl, hprogram, hvectors, hlayout⟩

end Agreement

end Scratch

end Praktor.Process
