/-
# The texts of a worker

`praktor_process_worker_start` measures the program, the directory, the arguments and the
environment against one budget, with their arrays of pointers, and copies the texts into one buffer
of the size that is left without the arrays.  What was measured is what is copied: the buffer is
filled to its end, and each pointer is to a copy of its text.
-/

import Mathlib.Algebra.Order.Ring.Nat
import Praktor.Data.CheckedSizes
import Praktor.Math.Filling

namespace Praktor.Process.Admission

open Praktor.Data Praktor.Data.Sizing Praktor.Math Praktor.Math.Filling

/-! ## Configurations -/

/-- `sizeof(char *)`. -/
def pointerBytes : Nat := 8

/-- The options of a process that have texts.  A list ends at its null pointer. -/
structure ProcessOptions where
  program : Option CString
  cwd : Option CString
  args : Option (List CString)
  env : Option (List CString)

/-- `praktor_process_worker_config`; the input has the size that it is given with. -/
structure AdmissionConfig where
  options : ProcessOptions
  input : Option Bytes
  inputSize : UInt64
  maxInputBytes : UInt64
  maxOutputBytes : UInt64
  maxMetadataBytes : UInt64
  maxArguments : UInt64
  maxEnvironmentEntries : UInt64

/-! ## Measuring -/

/-- The loop of `measure_string`: the length of a text that ends within `room` bytes. -/
def scanText : Bytes → Nat → Nat → Option Nat
  | _, 0, _ => none
  | [], _ + 1, count => some count
  | _ :: rest, room + 1, count => scanText rest room (count + 1)

/-- `measure_string`, with the bytes used before and after. -/
def measureString (text : Option CString) (used limit : Nat) : Sizing Nat :=
  match text with
  | none => refuse .einval
  | some text => do
      let room ← minus limit used
      match scanText text.bytes room 0 with
      | none => refuse .enobufs
      | some count => do
          let size ← plus count 1
          plus used size

/-- The loop of `measure_list` from an entry on. -/
def measureItems (limit budget : Nat) : List CString → Nat → Nat → Sizing (Nat × Nat)
  | [], index, bytes => do
      let entries ← plus index 1
      let room ← minus budget bytes
      if entries > room / pointerBytes then refuse .enobufs
      else
        let size ← times entries pointerBytes
        let bytes ← plus bytes size
        pure (index, bytes)
  | item :: rest, index, bytes =>
      if index = limit then refuse .enobufs
      else do
        let bytes ← measureString (some item) bytes budget
        measureItems limit budget rest (index + 1) bytes

/-- `measure_list`: the count and the bytes used. -/
def measureList (list : Option (List CString)) (limit bytes budget : Nat) : Sizing (Nat × Nat) :=
  match list with
  | none => pure (0, bytes)
  | some items => measureItems limit budget items 0 bytes

/-- The bytes of the array of a list. -/
def arrayBytes (list : Option (List CString)) (count : Nat) : Sizing Nat :=
  match list with
  | none => pure 0
  | some _ => do
      let entries ← plus count 1
      times entries pointerBytes

/-! ## Copying -/

/-- `copy_string`: where the copy is. -/
def copyString (text : CString) (filling : Filling UInt8) : Sizing (Nat × Filling UInt8) :=
  stored (filling.put (text.bytes ++ [0]))

/-- The loop that copies the entries of a list and stores where they are. -/
def copyItems : List CString → Nat → List (Option Nat) → Filling UInt8 →
    Sizing (List (Option Nat) × Filling UInt8)
  | [], _, array, filling => pure (array, filling)
  | item :: rest, index, array, filling => do
      let (place, filling) ← copyString item filling
      if index < array.length then copyItems rest (index + 1) (array.set index (some place)) filling
      else .error .overrun

/-- The array of a list as `calloc` leaves it. -/
def blankArray (list : Option (List CString)) (count : Nat) : Option (List (Option Nat)) :=
  list.map fun _ => List.replicate (count + 1) none

/-- Copy a list into its array. -/
def copyList (list : Option (List CString)) (count : Nat) (filling : Filling UInt8) :
    Sizing (Option (List (Option Nat)) × Filling UInt8) :=
  match list with
  | none => pure (none, filling)
  | some items => do
      let (array, filling) ← copyItems (items.take count) 0 (List.replicate (count + 1) none) filling
      pure (some array, filling)

/-- What a worker keeps of its configuration: pointers are places in the buffer of the texts. -/
structure AdmittedWorker where
  metadata : Filling UInt8
  input : Bytes
  program : Nat
  cwd : Option Nat
  arguments : Option (List (Option Nat))
  environment : Option (List (Option Nat))

/-! ## Starting -/

/-- The checks of `praktor_process_worker_start` before it measures. -/
def accepted (taken : Bool) (config : AdmissionConfig) : Bool :=
  !(taken || config.options.program.isNone ||
    config.options.program.any (fun program => program.length = 0) ||
    (config.inputSize ≠ 0 && config.input.isNone) || config.inputSize > config.maxInputBytes ||
    config.inputSize.toNat = sizeMax || config.maxMetadataBytes = 0 ||
    config.maxMetadataBytes.toNat = sizeMax || config.maxOutputBytes = 0 ||
    config.maxOutputBytes.toNat > (sizeMax - 1) / 4 ||
    config.maxArguments.toNat ≥ sizeMax / pointerBytes ||
    config.maxEnvironmentEntries.toNat ≥ sizeMax / pointerBytes)

/-- Measure a text that may be missing. -/
def measureOptional (text : Option CString) (used limit : Nat) : Sizing Nat :=
  if text.isSome then measureString text used limit else pure used

/-- The measuring pass of `praktor_process_worker_start`: the counts of both lists, and the bytes of
the texts and the arrays together. -/
def measureOptions (config : AdmissionConfig) : Sizing (Nat × Nat × Nat) := do
  let options := config.options
  let budget := config.maxMetadataBytes.toNat
  let bytes ← measureString options.program 0 budget
  let bytes ← measureOptional options.cwd bytes budget
  let (args, bytes) ← measureList options.args config.maxArguments.toNat bytes budget
  let (env, bytes) ← measureList options.env config.maxEnvironmentEntries.toNat bytes budget
  pure (args, env, bytes)

/-- What is left for the texts once the arrays have blocks of their own. -/
def textRoom (options : ProcessOptions) (args env bytes : Nat) : Sizing Nat := do
  let bytes ← minus bytes (← arrayBytes options.args args)
  minus bytes (← arrayBytes options.env env)

/-- Copy a text that may be missing. -/
def copyOptional (text : Option CString) (filling : Filling UInt8) :
    Sizing (Option Nat × Filling UInt8) :=
  match text with
  | none => pure (none, filling)
  | some text => do
      let (place, filling) ← copyString text filling
      pure (some place, filling)

/-- The copying pass of `praktor_process_worker_start`. -/
def copyOptions (config : AdmissionConfig) (program : CString) (args env : Nat)
    (filling : Filling UInt8) : Sizing AdmittedWorker := do
  let (program, filling) ← copyString program filling
  let (cwd, filling) ← copyOptional config.options.cwd filling
  let (arguments, filling) ← copyList config.options.args args filling
  let (environment, filling) ← copyList config.options.env env filling
  pure ⟨filling, (config.input.getD []).take config.inputSize.toNat, program, cwd, arguments,
    environment⟩

/-- `praktor_process_worker_start` up to its thread.  `granted` tells which of its allocations
succeed, and `garbage` is what a new block holds. -/
def praktorProcessWorkerStart (garbage : Nat → UInt8) (granted : Nat → Bool) (taken : Bool)
    (config : AdmissionConfig) : Sizing AdmittedWorker :=
  if !accepted taken config then refuse .einval
  else
    match config.options.program with
    | none => refuse .einval
    | some program => do
        let (args, env, bytes) ← measureOptions config
        if !granted 0 then refuse .enomem
        else
          let bytes ← textRoom config.options args env bytes
          if !granted 1 || !granted 2 || (config.options.args.isSome && !granted 3) ||
              (config.options.env.isSome && !granted 4) then refuse .enomem
          else copyOptions config program args env ⟨(List.range bytes).map garbage, 0⟩

/-! ## What is measured -/

/-- The bytes of texts with their terminators. -/
def textBytes (texts : List CString) : Nat := (texts.map fun text => text.length + 1).sum

/-- The texts of a list. -/
def listTexts (list : Option (List CString)) : List CString := list.getD []

theorem textBytes_append (first second : List CString) :
    textBytes (first ++ second) = textBytes first + textBytes second := by
  rw [textBytes, List.map_append, List.sum_append, textBytes, textBytes]

theorem textBytes_cons (text : CString) (rest : List CString) :
    textBytes (text :: rest) = text.length + 1 + textBytes rest := rfl

theorem scanText_eq (text : Bytes) (room count found : Nat)
    (hscan : scanText text room count = some found) :
    found = count + text.length ∧ text.length < room := by
  induction text generalizing room count with
  | nil =>
      cases room with
      | zero => cases hscan
      | succ room =>
          rw [scanText, Option.some.injEq] at hscan
          exact ⟨hscan.symm, Nat.succ_pos _⟩
  | cons byte rest ih =>
      cases room with
      | zero => cases hscan
      | succ room =>
          obtain ⟨hfound, hlt⟩ := ih room (count + 1) hscan
          rw [List.length_cons]
          omega

section Measuring

variable {budget used : Nat}

theorem measureString_admits (hbudget : budget ≤ sizeMax) (hused : used ≤ budget)
    (text : Option CString) :
    Admits (measureString text used budget) fun total =>
      ∃ found, text = some found ∧ total = used + (found.length + 1) ∧ total ≤ budget := by
  match text with
  | none => exact Admits.refuse _
  | some text =>
      refine (Admits.minus hused).bind fun room hroom => ?_
      cases hscan : scanText text.bytes room 0 with
      | none => exact Admits.refuse _
      | some count =>
          obtain ⟨hcount, hlt⟩ := scanText_eq _ _ _ _ hscan
          have hlength : text.length = text.bytes.length := rfl
          refine (Admits.plus (by omega)).bind fun size hsize => ?_
          refine (Admits.plus (by omega)).mono fun total htotal => ?_
          exact ⟨text, rfl, by omega, by omega⟩

theorem measureOptional_admits (hbudget : budget ≤ sizeMax) (hused : used ≤ budget)
    (text : Option CString) :
    Admits (measureOptional text used budget) fun total =>
      total = used + textBytes text.toList ∧ total ≤ budget := by
  match text with
  | none => exact Admits.pure ⟨rfl, hused⟩
  | some text =>
      rw [measureOptional, if_pos Option.isSome_some]
      refine (measureString_admits hbudget hused _).mono ?_
      rintro total ⟨found, hfound, htotal, hle⟩
      rw [Option.some.injEq] at hfound
      subst hfound
      exact ⟨htotal, hle⟩

theorem measureItems_admits (hbudget : budget ≤ sizeMax) {limit : Nat}
    (hlimit : limit < sizeMax / pointerBytes) (items : List CString) (index used : Nat)
    (hused : used ≤ budget) (hindex : index ≤ limit) :
    Admits (measureItems limit budget items index used) fun (count, total) =>
      count = index + items.length ∧
        total = used + textBytes items + (count + 1) * pointerBytes ∧ total ≤ budget := by
  induction items generalizing index used with
  | nil =>
      have hmax : sizeMax / pointerBytes ≤ sizeMax := Nat.div_le_self _ _
      refine (Admits.plus (by omega)).bind fun entries hentries => ?_
      refine (Admits.minus hused).bind fun room hroom => Admits.ite (fun _ => Admits.refuse _)
        fun hfits => ?_
      have hmul : entries * pointerBytes ≤ room :=
        (Nat.le_div_iff_mul_le (by decide)).mp (Nat.le_of_not_gt hfits)
      refine (Admits.times (by omega)).bind fun size hsize => ?_
      refine (Admits.plus (by omega)).bind fun total htotal => ?_
      refine Admits.pure ⟨rfl, ?_, by omega⟩
      rw [htotal, hsize, hentries]
      rfl
  | cons item rest ih =>
      refine Admits.ite (fun _ => Admits.refuse _) fun hmore => ?_
      refine (measureString_admits hbudget hused _).bind fun total htotal => ?_
      obtain ⟨found, hfound, htotal, hle⟩ := htotal
      rw [Option.some.injEq] at hfound
      subst hfound
      refine (ih (index + 1) total hle (by omega)).mono ?_
      rintro ⟨count, last⟩ ⟨hcount, hlast, hfits⟩
      refine ⟨by rw [hcount, List.length_cons]; omega, ?_, hfits⟩
      rw [hlast, htotal, textBytes_cons]
      omega

/-- The bytes of an array. -/
def entryBytes (list : Option (List CString)) : Nat :=
  match list with
  | none => 0
  | some items => (items.length + 1) * pointerBytes

theorem measureList_admits (hbudget : budget ≤ sizeMax) (hused : used ≤ budget) {limit : Nat}
    (hlimit : limit < sizeMax / pointerBytes) (list : Option (List CString)) :
    Admits (measureList list limit used budget) fun (count, total) =>
      count = (listTexts list).length ∧ total = used + textBytes (listTexts list) + entryBytes list ∧
        total ≤ budget := by
  match list with
  | none => exact Admits.pure ⟨rfl, rfl, hused⟩
  | some items =>
      refine (measureItems_admits hbudget hlimit items 0 used hused (Nat.zero_le _)).mono ?_
      rintro ⟨count, total⟩ ⟨hcount, htotal, hle⟩
      rw [Nat.zero_add] at hcount
      refine ⟨hcount, ?_, hle⟩
      rw [htotal, hcount]
      rfl

theorem arrayBytes_admits (list : Option (List CString)) {count : Nat}
    (hcount : count = (listTexts list).length) (hfits : entryBytes list ≤ sizeMax) :
    Admits (arrayBytes list count) (· = entryBytes list) := by
  match list with
  | none => exact Admits.pure rfl
  | some items =>
      simp only [entryBytes, listTexts, Option.getD_some] at hfits hcount
      have hentriesFit : items.length + 1 ≤ (items.length + 1) * pointerBytes :=
        Nat.le_mul_of_pos_right _ (by decide)
      refine (Admits.plus (by omega)).bind fun entries hentries => ?_
      refine (Admits.times (by rw [hentries, hcount]; exact hfits)).mono fun size hsize => ?_
      rw [hsize, hentries, hcount]
      rfl

end Measuring

/-! ## What is copied -/

/-- The copy of a text, with its terminator. -/
def copyOf (text : CString) : Bytes := text.bytes ++ [0]

theorem length_copyOf (text : CString) : (copyOf text).length = text.length + 1 := by
  rw [copyOf, List.length_append, List.length_singleton]
  rfl

theorem copyString_admits (text : CString) {filling : Filling UInt8}
    (hroom : Room filling (text.length + 1)) :
    Admits (copyString text filling) fun (place, next) =>
      Grown filling (text.length + 1) next ∧ Has next place (copyOf text) := by
  have hlength := length_copyOf text
  rw [← hlength] at hroom ⊢
  obtain ⟨next, hput, hgrown, hhas⟩ := put_eq hroom
  exact Admits.stored hput ⟨hgrown, hhas⟩

/-- The entries of an array from an index on point to copies of these texts. -/
def Points (filling : Filling UInt8) (array : List (Option Nat)) (items : List CString) (index : Nat) :
    Prop :=
  ∀ (place : Nat) item, items[place]? = some item →
    ∃ pointer, array[index + place]? = some (some pointer) ∧ Has filling pointer (copyOf item)

theorem copyItems_admits (items : List CString) (index : Nat) (array : List (Option Nat))
    (filling : Filling UInt8) (hroom : Room filling (textBytes items))
    (harray : index + items.length < array.length) :
    Admits (copyItems items index array filling) fun (filled, next) =>
      Grown filling (textBytes items) next ∧ Points next filled items index ∧
        filled.length = array.length ∧
        ∀ place, (place < index ∨ index + items.length ≤ place) → filled[place]? = array[place]? := by
  induction items generalizing index array filling with
  | nil =>
      refine Admits.pure ⟨Grown.refl _, ?_, rfl, fun _ _ => rfl⟩
      intro place item hitem
      cases hitem
  | cons item rest ih =>
      rw [textBytes_cons] at hroom ⊢
      rw [List.length_cons] at harray
      refine (copyString_admits item hroom.front).bind ?_
      rintro ⟨pointer, next⟩ ⟨hgrown, hhas⟩
      have hindex : index < array.length := by omega
      simp only [if_pos hindex]
      refine (ih (index + 1) (array.set index (some pointer)) next (hroom.after hgrown)
        (by rw [List.length_set]; omega)).mono ?_
      rintro ⟨filled, last⟩ ⟨hlast, hpoints, hlength, hothers⟩
      rw [List.length_set] at hlength
      refine ⟨hgrown.trans hlast, ?_, hlength, ?_⟩
      · intro place found hfound
        cases place with
        | zero =>
            rw [List.getElem?_cons_zero, Option.some.injEq] at hfound
            subst hfound
            refine ⟨pointer, ?_, hhas.later hlast.extension⟩
            rw [Nat.add_zero, hothers index (.inl (Nat.lt_succ_self _)),
              List.getElem?_set_self hindex]
        | succ place =>
            obtain ⟨other, hother, hcopied⟩ := hpoints place found hfound
            refine ⟨other, ?_, hcopied⟩
            rw [← hother]
            congr 1
            omega
      · intro place hplace
        rw [List.length_cons] at hplace
        rw [hothers place (by omega), List.getElem?_set_ne (by omega)]

/-- The array of a list: a pointer for each text, and a null pointer at the end. -/
def ArrayOf (filling : Filling UInt8) (list : Option (List CString))
    (array : Option (List (Option Nat))) : Prop :=
  match list, array with
  | none, none => True
  | some items, some pointers => pointers.length = items.length + 1 ∧
      Points filling pointers items 0 ∧ pointers[items.length]? = some none
  | _, _ => False

theorem copyList_admits (list : Option (List CString)) {count : Nat}
    (hcount : count = (listTexts list).length) (filling : Filling UInt8)
    (hroom : Room filling (textBytes (listTexts list))) :
    Admits (copyList list count filling) fun (array, next) =>
      Grown filling (textBytes (listTexts list)) next ∧ ArrayOf next list array := by
  match list with
  | none => exact Admits.pure ⟨Grown.refl _, trivial⟩
  | some items =>
      simp only [listTexts, Option.getD_some] at hcount hroom ⊢
      subst hcount
      rw [copyList, List.take_length]
      refine (copyItems_admits items 0 _ filling hroom (by
        rw [List.length_replicate]; omega)).bind ?_
      rintro ⟨pointers, next⟩ ⟨hgrown, hpoints, hlength, hothers⟩
      refine Admits.pure ⟨hgrown, ?_, hpoints, ?_⟩
      · rw [hlength, List.length_replicate]
      · rw [hothers items.length (.inr (by omega)), List.getElem?_replicate]
        simp

theorem ArrayOf.later {before after : Filling UInt8} {list : Option (List CString)}
    {array : Option (List (Option Nat))} (harray : ArrayOf before list array)
    (hextends : Extends before after) : ArrayOf after list array := by
  match list, array, harray with
  | none, none, _ => exact trivial
  | some items, some pointers, ⟨hlength, hpoints, hlast⟩ =>
      refine ⟨hlength, fun place item hitem => ?_, hlast⟩
      obtain ⟨pointer, hpointer, hhas⟩ := hpoints place item hitem
      exact ⟨pointer, hpointer, hhas.later hextends⟩

/-- An optional pointer is to a copy of an optional text. -/
def CopyAt (filling : Filling UInt8) (text : Option CString) (place : Option Nat) : Prop :=
  match text, place with
  | none, none => True
  | some text, some place => Has filling place (copyOf text)
  | _, _ => False

theorem copyOptional_admits (text : Option CString) {filling : Filling UInt8}
    (hroom : Room filling (textBytes text.toList)) :
    Admits (copyOptional text filling) fun (place, next) =>
      Grown filling (textBytes text.toList) next ∧ CopyAt next text place := by
  match text with
  | none => exact Admits.pure ⟨Grown.refl _, trivial⟩
  | some text =>
      refine (copyString_admits text hroom).bind ?_
      rintro ⟨place, next⟩ ⟨hgrown, hhas⟩
      exact Admits.pure ⟨hgrown, hhas⟩

theorem CopyAt.later {before after : Filling UInt8} {text : Option CString} {place : Option Nat}
    (hcopy : CopyAt before text place) (hextends : Extends before after) :
    CopyAt after text place := by
  match text, place, hcopy with
  | none, none, _ => exact trivial
  | some text, some place, hhas => exact Has.later hhas hextends

/-! ## The worker -/

/-- The texts that a worker keeps, in the order of their copies. -/
def keptTexts (options : ProcessOptions) : List CString :=
  options.program.toList ++ (options.cwd.toList ++ (listTexts options.args ++ listTexts options.env))

/-- The copying pass of a worker has done what the measuring pass has measured. -/
structure WorkerCopied (config : AdmissionConfig) (worker : AdmittedWorker) : Prop where
  /-- The buffer is as large as the texts with their terminators, and it is filled to its end. -/
  measured : worker.metadata.buffer.length = textBytes (keptTexts config.options)
  filled : worker.metadata.cursor = worker.metadata.buffer.length
  program : CopyAt worker.metadata config.options.program (some worker.program)
  cwd : CopyAt worker.metadata config.options.cwd worker.cwd
  arguments : ArrayOf worker.metadata config.options.args worker.arguments
  environment : ArrayOf worker.metadata config.options.env worker.environment

theorem accepted_limits {taken : Bool} {config : AdmissionConfig}
    (haccepted : accepted taken config = true) :
    config.maxArguments.toNat < sizeMax / pointerBytes ∧
      config.maxEnvironmentEntries.toNat < sizeMax / pointerBytes := by
  simp only [accepted, Bool.not_eq_true', Bool.or_eq_false_iff, decide_eq_false_iff_not,
    Nat.not_le] at haccepted
  exact ⟨haccepted.1.2, haccepted.2⟩

theorem measureOptions_admits {taken : Bool} {config : AdmissionConfig}
    (haccepted : accepted taken config = true) :
    Admits (measureOptions config) fun (args, env, bytes) =>
      args = (listTexts config.options.args).length ∧
        env = (listTexts config.options.env).length ∧
        bytes = textBytes (keptTexts config.options) + entryBytes config.options.args +
          entryBytes config.options.env ∧
        bytes ≤ sizeMax := by
  have hbudget : config.maxMetadataBytes.toNat ≤ sizeMax :=
    Nat.le_of_lt_succ config.maxMetadataBytes.toNat_lt
  obtain ⟨hargsLimit, henvLimit⟩ := accepted_limits haccepted
  refine (measureString_admits hbudget (Nat.zero_le _) _).bind ?_
  rintro first ⟨program, hprogram, hfirst, hfirstFits⟩
  refine (measureOptional_admits hbudget hfirstFits config.options.cwd).bind ?_
  rintro second ⟨hsecond, hsecondFits⟩
  refine (measureList_admits hbudget hsecondFits hargsLimit config.options.args).bind ?_
  rintro ⟨args, third⟩ ⟨hargs, hthird, hthirdFits⟩
  refine (measureList_admits hbudget hthirdFits henvLimit config.options.env).bind ?_
  rintro ⟨env, fourth⟩ ⟨henv, hfourth, hfourthFits⟩
  refine Admits.pure ⟨hargs, henv, ?_, Nat.le_trans hfourthFits hbudget⟩
  have hone : textBytes [program] = program.length + 1 := rfl
  simp only [keptTexts, hprogram, Option.toList_some, textBytes_append, hone]
  omega

theorem textRoom_admits (options : ProcessOptions) {texts : Nat}
    (hfits : texts + entryBytes options.args + entryBytes options.env ≤ sizeMax) :
    Admits (textRoom options (listTexts options.args).length (listTexts options.env).length
      (texts + entryBytes options.args + entryBytes options.env)) (· = texts) := by
  refine (arrayBytes_admits options.args rfl (by omega)).bind fun argsBytes hargs => ?_
  refine (Admits.minus (by omega)).bind fun bytes hbytes => ?_
  refine (arrayBytes_admits options.env rfl (by omega)).bind fun envBytes henv => ?_
  exact (Admits.minus (by omega)).mono fun left hleft => by omega

theorem copyOptions_admits (config : AdmissionConfig) {program : CString}
    (hprogram : config.options.program = some program) {filling : Filling UInt8}
    (hcursor : filling.cursor = 0)
    (hbuffer : filling.buffer.length = textBytes (keptTexts config.options)) :
    Admits (copyOptions config program (listTexts config.options.args).length
      (listTexts config.options.env).length filling) (WorkerCopied config) := by
  have hkept : textBytes (keptTexts config.options) = program.length + 1 +
      (textBytes config.options.cwd.toList + (textBytes (listTexts config.options.args) +
        textBytes (listTexts config.options.env))) := by
    have hone : textBytes [program] = program.length + 1 := rfl
    simp only [keptTexts, hprogram, Option.toList_some, textBytes_append, hone]
  have hroom : Room filling (program.length + 1 +
      (textBytes config.options.cwd.toList + (textBytes (listTexts config.options.args) +
        textBytes (listTexts config.options.env)))) := by
    exact Nat.le_of_eq (by rw [hcursor, hbuffer, hkept, Nat.zero_add])
  refine (copyString_admits program hroom.front).bind ?_
  rintro ⟨programPlace, first⟩ ⟨hfirst, hprogramCopy⟩
  refine (copyOptional_admits config.options.cwd (hroom.after hfirst).front).bind ?_
  rintro ⟨cwdPlace, second⟩ ⟨hsecond, hcwdCopy⟩
  have hargsRoom := (hroom.after hfirst).after hsecond
  refine (copyList_admits config.options.args rfl second hargsRoom.front).bind ?_
  rintro ⟨arguments, third⟩ ⟨hthird, hargsCopy⟩
  refine (copyList_admits config.options.env rfl third (hargsRoom.after hthird)).bind ?_
  rintro ⟨environment, last⟩ ⟨hlast, henvCopy⟩
  have hall := hfirst.trans (hsecond.trans (hthird.trans hlast))
  have hlength := hall.extension.length_eq
  have hend := hall.cursor
  refine Admits.pure ⟨hlength.trans hbuffer, ?_, ?_, ?_, ?_, henvCopy⟩
  · show last.cursor = last.buffer.length
    omega
  · rw [hprogram]
    exact hprogramCopy.later (hsecond.trans (hthird.trans hlast)).extension
  · exact hcwdCopy.later (hthird.trans hlast).extension
  · exact hargsCopy.later hlast.extension

/-- What a worker measures is what it copies: no size wraps, nothing is stored past an end, and the
buffer holds each text with its terminator and is full. -/
theorem worker_admits (garbage : Nat → UInt8) (granted : Nat → Bool) (taken : Bool)
    (config : AdmissionConfig) :
    Admits (praktorProcessWorkerStart garbage granted taken config) (WorkerCopied config) := by
  rw [praktorProcessWorkerStart]
  refine Admits.ite (fun _ => Admits.refuse _) fun haccepted => ?_
  rw [Bool.not_eq_true', Bool.not_eq_false] at haccepted
  cases hprogram : config.options.program with
  | none => exact Admits.refuse _
  | some program =>
      refine (measureOptions_admits haccepted).bind ?_
      rintro ⟨args, env, bytes⟩ ⟨hargs, henv, hbytes, hfits⟩
      subst hargs henv hbytes
      refine Admits.ite (fun _ => Admits.refuse _) fun _ => ?_
      refine (textRoom_admits config.options hfits).bind ?_
      rintro texts rfl
      refine Admits.ite (fun _ => Admits.refuse _) fun _ => ?_
      exact copyOptions_admits config hprogram rfl (by rw [List.length_map, List.length_range])

-- A program, no directory, one argument and an environment without entries.
example : ((praktorProcessWorkerStart (fun _ => 0) (fun _ => true) false
    ⟨⟨some ⟨[97], by decide⟩, none, some [⟨[98, 99], by decide⟩], some []⟩, none, 0, 0, 1, 40, 1, 0⟩).map
      fun worker => (worker.metadata.buffer, worker.arguments)).toOption =
    some ([97, 0, 98, 99, 0], some [some 2, none]) := by decide +kernel

end Praktor.Process.Admission
