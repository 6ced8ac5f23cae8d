/-
# The storage of a plan

`praktor_c11_session_init` measures the nodes of a plan against its budget before it copies them:
the texts go to one buffer, the parameters and the sizes of their texts to arrays of their own.
A text has the size that the plan gives it or ends at its NUL, and it may hold more than that.
-/

import Praktor.Process.WorkerAdmission

namespace Praktor.Session.Storage

open Praktor.Data Praktor.Data.Sizing Praktor.Math Praktor.Math.Filling
open Praktor.Process.Admission (copyOf length_copyOf pointerBytes)

variable {Tree Number : Type}

/-! ## Plans -/

/-- `PRAKTOR_C11_LEAF_STRING`, the first of the kinds of parameters. -/
def leafString : Int := 0

/-- `PRAKTOR_C11_LEAF_BOOLEAN`, the last. -/
def leafBoolean : Int := 2

/-- `PRAKTOR_C11_TERMINAL_RUNTIME`, the first of the terminal actions. -/
def terminalRuntime : Int := 0

/-- `PRAKTOR_C11_TERMINAL_SWITCH_FAILURE`, the last. -/
def terminalSwitchFailure : Int := 3

/-- `SESSION_SLOTS`. -/
def sessionSlots : Nat := 9

/-- `praktor_c11_leaf_parameter`.  A text is the memory that can be read from its start on. -/
structure PlanParameter (Number : Type) where
  name : Option CString
  kind : Int
  text : Option Bytes
  number : Number
  boolean : Bool

/-- A text can be read as far as it is used: to its size, or to its NUL. -/
def Readable (sizes : Option (List UInt64)) (index : Nat) (text : Bytes) : Prop :=
  match sizes with
  | some sizes => ∀ size ∈ sizes[index]?, size.toNat ≤ text.length
  | none => 0 ∈ text

/-- `praktor_c11_session_node`; its arrays are as long as it counts, and the texts of its parameters
can be read. -/
structure PlanEntry (Tree Number : Type) where
  tree : Tree
  action : Option CString
  parameters : Option (List (PlanParameter Number))
  parameterCount : UInt64
  textSizes : Option (List UInt64)
  terminal : Int
  counted : ∀ list ∈ parameters, list.length = parameterCount.toNat
  sized : ∀ sizes ∈ textSizes, sizes.length = parameterCount.toNat
  readable : ∀ list ∈ parameters, ∀ index, ∀ parameter ∈ list[index]?,
    parameter.kind = leafString → ∀ text ∈ parameter.text, Readable textSizes index text

/-- The limits of `praktor_c11_session_config`. -/
structure StorageLimits where
  maxNodes : UInt64
  maxPlanBytes : UInt64
  maxValueBytes : UInt64
  maxStateBytes : UInt64
  maxParametersPerNode : UInt64

/-- The sizes of the structures that are counted against a budget. -/
structure Widths where
  node : Nat
  parameter : Nat
  slot : Nat
  node_pos : 0 < node
  parameter_pos : 0 < parameter
  slot_pos : 0 < slot

/-! ## Measuring -/

/-- `add_bytes`. -/
def addBytes (used count width limit : Nat) : Sizing Nat := do
  let room ← minus limit used
  if count > room / width then refuse .enobufs
  else
    let size ← times count width
    plus used size

/-- The loop of `string_bytes`. -/
def scanBlock : Bytes → Nat → Nat → Sizing Nat
  | _, 0, _ => refuse .enobufs
  | [], _ + 1, _ => .error .overrun
  | byte :: rest, room + 1, count =>
      if byte = 0 then pure count else scanBlock rest room (count + 1)

/-- `string_bytes`. -/
def stringBytes (text : Option Bytes) (limit : Nat) : Sizing Nat :=
  match text with
  | none => refuse .einval
  | some text => scanBlock text limit 0

/-- `strlen`. -/
def strlen (text : Bytes) : Sizing Nat :=
  if 0 ∈ text then pure (text.takeWhile (· ≠ 0)).length else .error .overrun

/-- An entry of the sizes of texts. -/
def sizeAt (sizes : List UInt64) (index : Nat) : Sizing Nat := do
  let size ← stored sizes[index]?
  pure size.toNat

/-- How much of a text the measuring pass counts. -/
def measureSize (sizes : Option (List UInt64)) (index : Nat) (text : Bytes) (limit : Nat) :
    Sizing Nat :=
  match sizes with
  | some sizes => sizeAt sizes index
  | none => stringBytes (some text) limit

/-- How much of a text the copying pass copies. -/
def copySize (sizes : Option (List UInt64)) (index : Nat) (text : Bytes) : Sizing Nat :=
  match sizes with
  | some sizes => sizeAt sizes index
  | none => strlen text

/-- Count the bytes of a text with its terminator. -/
def addText (size used limit : Nat) : Sizing Nat := do
  let bytes ← plus size 1
  addBytes used bytes 1 limit

/-- The loop that measures the parameters of a node from an index on. -/
def measureParameters (sizes : Option (List UInt64)) (limit : Nat) :
    List (PlanParameter Number) → Nat → Nat → Sizing Nat
  | [], _, used => pure used
  | parameter :: rest, index, used =>
      if parameter.kind < leafString || parameter.kind > leafBoolean then refuse .einval
      else do
        let size ← stringBytes (parameter.name.map copyOf) limit
        let used ← addText size used limit
        if parameter.kind = leafString then
          match parameter.text with
          | none => refuse .einval
          | some text => do
              let size ← measureSize sizes index text limit
              if size = sizeMax then refuse .enobufs
              else
                let used ← addText size used limit
                measureParameters sizes limit rest (index + 1) used
        else measureParameters sizes limit rest (index + 1) used

/-- The loop that measures the nodes: the bytes of the texts and the number of parameters. -/
def measureNodes (limits : StorageLimits) :
    List (PlanEntry Tree Number) → Nat → Nat → Sizing (Nat × Nat)
  | [], texts, parameters => pure (texts, parameters)
  | node :: rest, texts, parameters =>
      let limit := limits.maxPlanBytes.toNat
      if node.terminal < terminalRuntime || node.terminal > terminalSwitchFailure ||
          node.parameterCount > limits.maxParametersPerNode ||
          (node.parameterCount ≠ 0 && node.parameters.isNone) then refuse .einval
      else do
        let size ← stringBytes (node.action.map copyOf) limit
        let texts ← addText size texts limit
        let parameters ← addBytes parameters node.parameterCount.toNat 1 limit
        let texts ← measureParameters node.textSizes limit (node.parameters.getD []) 0 texts
        measureNodes limits rest texts parameters

/-! ## Copying -/

/-- `copy_text`. -/
def copyText (text : Option Bytes) (size : Nat) (filling : Filling UInt8) :
    Sizing (Nat × Filling UInt8) :=
  match text with
  | none => .error .overrun
  | some text =>
      if size ≤ text.length then stored (filling.put (text.take size ++ [0]))
      else .error .overrun

/-- Copy a name of the plan. -/
def copyName (name : Option CString) (filling : Filling UInt8) : Sizing (Nat × Filling UInt8) :=
  match name with
  | none => .error .overrun
  | some name => do
      let size ← strlen (copyOf name)
      copyText (some (copyOf name)) size filling

/-- A parameter that the session owns: pointers are places in the buffer of the texts. -/
structure StoredParameter (Number : Type) where
  name : Nat
  kind : Int
  text : Option Nat
  number : Number
  boolean : Bool

/-- A node that the session owns; its parameters and sizes are those from an index on. -/
structure StoredEntry (Tree : Type) where
  tree : Tree
  action : Nat
  parameters : Option Nat
  parameterCount : UInt64
  textSizes : Option Nat
  terminal : Int

/-- The buffer of the texts and both arrays; an entry of the first is `none` as `calloc` leaves
it. -/
structure PlanArrays (Number : Type) where
  texts : Filling UInt8
  parameters : List (Option (StoredParameter Number))
  sizes : List Nat

/-- Store a parameter. -/
def storeParameter (place : Nat) (parameter : StoredParameter Number)
    (arrays : PlanArrays Number) : Sizing (PlanArrays Number) :=
  if place < arrays.parameters.length then
    pure { arrays with parameters := arrays.parameters.set place (some parameter) }
  else .error .overrun

/-- Store the size of a text. -/
def storeSize (place size : Nat) (arrays : PlanArrays Number) : Sizing (PlanArrays Number) :=
  if place < arrays.sizes.length then pure { arrays with sizes := arrays.sizes.set place size }
  else .error .overrun

/-- Copy a parameter to its place. -/
def copyParameter (sizes : Option (List UInt64)) (parameter : PlanParameter Number)
    (index place : Nat) (arrays : PlanArrays Number) : Sizing (PlanArrays Number) := do
  let (name, texts) ← copyName parameter.name arrays.texts
  let arrays := { arrays with texts }
  if parameter.kind = leafString then
    let size ← copySize sizes index (parameter.text.getD [])
    let arrays ← storeSize place size arrays
    let (text, texts) ← copyText parameter.text size arrays.texts
    storeParameter place ⟨name, parameter.kind, some text, parameter.number, parameter.boolean⟩
      { arrays with texts }
  else
    storeParameter place ⟨name, parameter.kind, none, parameter.number, parameter.boolean⟩ arrays

/-- The loop that copies the parameters of a node from an index on. -/
def copyParameters (sizes : Option (List UInt64)) :
    List (PlanParameter Number) → Nat → Nat → PlanArrays Number → Sizing (Nat × PlanArrays Number)
  | [], _, place, arrays => pure (place, arrays)
  | parameter :: rest, index, place, arrays => do
      let arrays ← copyParameter sizes parameter index place arrays
      copyParameters sizes rest (index + 1) (place + 1) arrays

/-- The loop that copies the nodes. -/
def copyNodes : List (PlanEntry Tree Number) → Nat → PlanArrays Number →
    Sizing (List (StoredEntry Tree) × PlanArrays Number)
  | [], _, arrays => pure ([], arrays)
  | node :: rest, place, arrays => do
      let (action, texts) ← copyName node.action arrays.texts
      let start := if arrays.parameters.isEmpty then none else some place
      let (next, arrays) ← copyParameters node.textSizes (node.parameters.getD []) 0 place
        { arrays with texts }
      let (nodes, arrays) ← copyNodes rest next arrays
      pure (⟨node.tree, action, start, node.parameterCount, start, node.terminal⟩ :: nodes, arrays)

/-! ## Starting -/

/-- The checks of `praktor_c11_session_init` before it measures. -/
def acceptedPlan (taken : Bool) (limits : StorageLimits) (count : Nat) : Bool :=
  !(taken || count = 0 || count > limits.maxNodes.toNat || limits.maxPlanBytes = 0 ||
    limits.maxPlanBytes.toNat = sizeMax || limits.maxValueBytes = 0 || limits.maxStateBytes = 0 ||
    limits.maxValueBytes.toNat = sizeMax || limits.maxStateBytes.toNat = sizeMax ||
    limits.maxParametersPerNode = 0)

/-- The measuring pass of `praktor_c11_session_init`. -/
def measurePlan (widths : Widths) (limits : StorageLimits) (nodes : List (PlanEntry Tree Number)) :
    Sizing (Nat × Nat) := do
  let limit := limits.maxPlanBytes.toNat
  let used ← addBytes 0 nodes.length widths.node limit
  let (texts, parameters) ← measureNodes limits nodes 0 0
  let used ← addBytes used parameters (widths.parameter + pointerBytes) limit
  let _ ← addBytes used texts 1 limit
  pure (texts, parameters)

/-- `praktor_c11_session_init` up to its tree.  `contracted` tells whether the hooks of the host
suit the nodes, `granted` which of the allocations succeed, and `garbage` what a new block holds. -/
def praktorC11SessionInit (widths : Widths) (garbage : Nat → UInt8) (granted : Nat → Bool)
    (contracted taken : Bool) (limits : StorageLimits) (nodes : List (PlanEntry Tree Number)) :
    Sizing (List (StoredEntry Tree) × PlanArrays Number) :=
  if !acceptedPlan taken limits nodes.length then refuse .einval
  else if nodes.length > sizeMax / sessionSlots / widths.slot then refuse .enobufs
  else do
    let (texts, parameters) ← measurePlan widths limits nodes
    if !granted 0 then refuse .enomem
    else if !contracted then refuse .einval
    else
      let _ ← times nodes.length sessionSlots
      if !(granted 1 && granted 2 && granted 3 && granted 4 && granted 5) ||
          (parameters ≠ 0 && !(granted 6 && granted 7)) then refuse .enomem
      else copyNodes nodes 0 ⟨⟨(List.range texts).map garbage, 0⟩, List.replicate parameters none,
        List.replicate parameters 0⟩

/-! ## What is measured -/

/-- The length of a text up to its NUL. -/
def textLength (text : Bytes) : Nat := (text.takeWhile (· ≠ 0)).length

/-- How much of a text is kept: its size, or its length. -/
def textSize (sizes : Option (List UInt64)) (index : Nat) (text : Bytes) : Nat :=
  match sizes with
  | some sizes => (sizes[index]?.getD 0).toNat
  | none => textLength text

/-- The bytes of a name with its terminator. -/
def nameBytes (name : Option CString) : Nat := (name.map fun name => name.length + 1).getD 0

/-- The bytes of the texts of a parameter. -/
def parameterBytes (sizes : Option (List UInt64)) (index : Nat) (parameter : PlanParameter Number) :
    Nat :=
  nameBytes parameter.name +
    if parameter.kind = leafString then textSize sizes index (parameter.text.getD []) + 1 else 0

/-- The bytes of the texts of parameters from an index on. -/
def parametersBytes (sizes : Option (List UInt64)) : List (PlanParameter Number) → Nat → Nat
  | [], _ => 0
  | parameter :: rest, index =>
      parameterBytes sizes index parameter + parametersBytes sizes rest (index + 1)

/-- The bytes of the texts of a node. -/
def entryBytes (node : PlanEntry Tree Number) : Nat :=
  nameBytes node.action + parametersBytes node.textSizes (node.parameters.getD []) 0

/-- Nothing that a parameter needs is missing. -/
def Complete (parameter : PlanParameter Number) : Prop :=
  parameter.name.isSome ∧ (parameter.kind = leafString → parameter.text.isSome)

/-- Parameters from an index on can be read. -/
structure Ready (sizes : Option (List UInt64)) (list : List (PlanParameter Number)) (index : Nat) :
    Prop where
  sized : ∀ entries ∈ sizes, index + list.length ≤ entries.length
  readable : ∀ offset, ∀ parameter ∈ list[offset]?, parameter.kind = leafString →
    ∀ text ∈ parameter.text, Readable sizes (index + offset) text

section Ready

variable {sizes : Option (List UInt64)} {parameter : PlanParameter Number}
  {list : List (PlanParameter Number)} {index limit used : Nat} {text : Bytes}

theorem Ready.tail (hready : Ready sizes (parameter :: list) index) :
    Ready sizes list (index + 1) where
  sized entries hentries := by
    have hle := hready.sized entries hentries
    rw [List.length_cons] at hle
    omega
  readable offset found hfound hkind text htext := by
    have hreadable := hready.readable (offset + 1) found hfound hkind text htext
    rwa [Nat.add_comm offset 1, ← Nat.add_assoc] at hreadable

theorem Ready.head (hready : Ready sizes (parameter :: list) index)
    (hkind : parameter.kind = leafString) (htext : parameter.text = some text) :
    Readable sizes index text :=
  hready.readable 0 parameter rfl hkind text htext

theorem Ready.entry (hready : Ready sizes (parameter :: list) index) :
    ∀ entries ∈ sizes, index < entries.length := by
  intro entries hentries
  have hle := hready.sized entries hentries
  rw [List.length_cons] at hle
  omega

/-- What is read of a text is there. -/
theorem textSize_le (hentry : ∀ entries ∈ sizes, index < entries.length)
    (hreadable : Readable sizes index text) : textSize sizes index text ≤ text.length := by
  match sizes with
  | none => exact (List.takeWhile_sublist _).length_le
  | some entries =>
      have hlt := hentry entries rfl
      have hfound := List.getElem?_eq_getElem hlt
      have hsize : textSize (some entries) index text = (entries[index]).toNat := by
        simp only [textSize, hfound, Option.getD_some]
      rw [hsize]
      exact hreadable _ hfound

theorem scanBlock_admits (hnul : 0 ∈ text) (room count : Nat) :
    Admits (scanBlock text room count) fun size =>
      size = count + textLength text ∧ textLength text < room := by
  induction text generalizing room count with
  | nil => cases hnul
  | cons byte rest ih =>
      cases room with
      | zero => exact Admits.refuse _
      | succ room =>
          refine Admits.ite (fun hzero => ?_) fun hbyte => ?_
          · refine Admits.pure ?_
            rw [textLength, hzero, List.takeWhile_cons_of_neg (by decide)]
            exact ⟨rfl, Nat.succ_pos _⟩
          · have hlength : textLength (byte :: rest) = textLength rest + 1 := by
              rw [textLength, List.takeWhile_cons_of_pos (by simpa using hbyte), List.length_cons]
              rfl
            have hrest : 0 ∈ rest := (List.mem_cons.mp hnul).resolve_left (Ne.symm hbyte)
            refine (ih hrest room (count + 1)).mono fun size hsize => ?_
            rw [hlength]
            omega

theorem textLength_copyOf (name : CString) : textLength (copyOf name) = name.length := by
  have hkept : ∀ byte ∈ name.bytes, decide (byte ≠ 0) = true := by
    intro byte hbyte
    refine decide_eq_true fun hzero => name.nulFree ?_
    rw [← hzero]
    exact hbyte
  rw [textLength, copyOf, List.takeWhile_append_of_pos hkept]
  simp [CString.length]

theorem zero_mem_copyOf (name : CString) : 0 ∈ copyOf name :=
  List.mem_append_right _ (List.mem_singleton.mpr rfl)

theorem addBytes_admits (hlimit : limit ≤ sizeMax) (hused : used ≤ limit) (count : Nat)
    {width : Nat} (hwidth : 0 < width) :
    Admits (addBytes used count width limit) fun total =>
      total = used + count * width ∧ total ≤ limit := by
  refine (Admits.minus hused).bind fun room hroom => Admits.ite (fun _ => Admits.refuse _)
    fun hfits => ?_
  have hmul : count * width ≤ room :=
    (Nat.le_div_iff_mul_le hwidth).mp (Nat.le_of_not_gt hfits)
  refine (Admits.times (by omega)).bind fun size hsize => ?_
  refine (Admits.plus (by omega)).mono fun total htotal => ?_
  exact ⟨by rw [htotal, hsize], by omega⟩

theorem addText_admits (hlimit : limit ≤ sizeMax) (hused : used ≤ limit) {size : Nat}
    (hsize : size < sizeMax) :
    Admits (addText size used limit) fun total => total = used + (size + 1) ∧ total ≤ limit := by
  refine (Admits.plus hsize).bind fun bytes hbytes => ?_
  refine (addBytes_admits hlimit hused bytes Nat.one_pos).mono fun total htotal => ?_
  omega

/-- A name is measured, with its terminator. -/
theorem name_admits {α : Type} {name : Option CString} (hlimit : limit < sizeMax)
    (hused : used ≤ limit) {next : Nat → Sizing α} {after : α → Prop}
    (hnext : ∀ total, total = used + nameBytes name → total ≤ limit → name.isSome →
      Admits (next total) after) :
    Admits (do
      let size ← stringBytes (name.map copyOf) limit
      let total ← addText size used limit
      next total) after := by
  match name with
  | none => exact Admits.refuse _
  | some name =>
      refine (scanBlock_admits (zero_mem_copyOf name) limit 0).bind ?_
      rintro size ⟨hsize, hlt⟩
      rw [textLength_copyOf, Nat.zero_add] at *
      subst hsize
      refine (addText_admits (Nat.le_of_lt hlimit) hused (by omega)).bind ?_
      rintro total ⟨htotal, hle⟩
      exact hnext total htotal hle rfl

theorem sizeAt_admits {entries : List UInt64} (hentry : index < entries.length) :
    Admits (sizeAt entries index) fun size =>
      size = textSize (some entries) index text ∧ size ≤ sizeMax := by
  have hfound := List.getElem?_eq_getElem hentry
  rw [sizeAt]
  have hkept : Admits (stored entries[index]?) (· = entries[index]) := Admits.stored hfound rfl
  refine hkept.bind ?_
  rintro size rfl
  refine Admits.pure ⟨?_, Nat.le_of_lt_succ (UInt64.toNat_lt _)⟩
  simp only [textSize, hfound, Option.getD_some]

theorem measureSize_admits (hentry : ∀ entries ∈ sizes, index < entries.length)
    (hreadable : Readable sizes index text) (hlimit : limit < sizeMax) :
    Admits (measureSize sizes index text limit) fun size =>
      size = textSize sizes index text ∧ size ≤ sizeMax := by
  match sizes with
  | some entries => exact sizeAt_admits (hentry entries rfl)
  | none =>
      refine (scanBlock_admits hreadable limit 0).mono ?_
      rintro size ⟨hsize, hlt⟩
      rw [Nat.zero_add] at hsize
      refine ⟨hsize, ?_⟩
      omega

theorem measureParameters_admits (hlimit : limit < sizeMax) (list : List (PlanParameter Number))
    (index used : Nat) (hused : used ≤ limit) (hready : Ready sizes list index) :
    Admits (measureParameters sizes limit list index used) fun total =>
      total = used + parametersBytes sizes list index ∧ total ≤ limit ∧
        ∀ parameter ∈ list, Complete parameter := by
  induction list generalizing index used with
  | nil =>
      refine Admits.pure ⟨rfl, hused, fun parameter hparameter => ?_⟩
      cases hparameter
  | cons parameter rest ih =>
      refine Admits.ite (fun _ => Admits.refuse _) fun _ => ?_
      refine name_admits hlimit hused fun named hnamed hnamedFits hname => ?_
      refine Admits.ite (fun hkind => ?_) fun hkind => ?_
      · cases htext : parameter.text with
        | none => exact Admits.refuse _
        | some text =>
            refine (measureSize_admits hready.entry (hready.head hkind htext) hlimit).bind ?_
            rintro size ⟨hsize, hsizeFits⟩
            refine Admits.ite (fun _ => Admits.refuse _) fun hbelow => ?_
            refine (addText_admits (Nat.le_of_lt hlimit) hnamedFits (by omega)).bind ?_
            rintro texts ⟨htexts, htextsFit⟩
            refine (ih (index + 1) texts htextsFit hready.tail).mono ?_
            rintro total ⟨htotal, hfits, hcomplete⟩
            refine ⟨?_, hfits, List.forall_mem_cons.mpr ⟨⟨hname, fun _ => ?_⟩, hcomplete⟩⟩
            · rw [htotal, htexts, hnamed, hsize, parametersBytes, parameterBytes, if_pos hkind,
                htext, Option.getD_some]
              omega
            · rw [htext]
              rfl
      · refine (ih (index + 1) named hnamedFits hready.tail).mono ?_
        rintro total ⟨htotal, hfits, hcomplete⟩
        refine ⟨?_, hfits, List.forall_mem_cons.mpr ⟨⟨hname, fun h => absurd h hkind⟩, hcomplete⟩⟩
        rw [htotal, hnamed, parametersBytes, parameterBytes, if_neg hkind]
        omega

end Ready

/-- What the copying pass relies on: an action and complete parameters that can be read. -/
structure Prepared (node : PlanEntry Tree Number) : Prop where
  action : node.action.isSome
  length_eq : (node.parameters.getD []).length = node.parameterCount.toNat
  complete : ∀ parameter ∈ node.parameters.getD [], Complete parameter

theorem PlanEntry.ready (node : PlanEntry Tree Number)
    (hlength : (node.parameters.getD []).length = node.parameterCount.toNat) :
    Ready node.textSizes (node.parameters.getD []) 0 where
  sized entries hentries := by
    exact Nat.le_of_eq (by rw [Nat.zero_add, hlength, node.sized entries hentries])
  readable offset parameter hparameter hkind text htext := by
    rw [Nat.zero_add]
    cases hlist : node.parameters with
    | none =>
        rw [hlist] at hparameter
        cases hparameter
    | some list =>
        rw [hlist, Option.getD_some] at hparameter
        exact node.readable list hlist offset parameter hparameter hkind text htext

/-- The bytes of the texts of a plan. -/
def planBytes (nodes : List (PlanEntry Tree Number)) : Nat := (nodes.map entryBytes).sum

/-- The parameters of a plan. -/
def planParameters (nodes : List (PlanEntry Tree Number)) : Nat :=
  (nodes.map fun node => node.parameterCount.toNat).sum

theorem measureNodes_admits {limits : StorageLimits} (hlimit : limits.maxPlanBytes.toNat < sizeMax)
    (nodes : List (PlanEntry Tree Number)) (texts parameters : Nat)
    (htexts : texts ≤ limits.maxPlanBytes.toNat)
    (hparameters : parameters ≤ limits.maxPlanBytes.toNat) :
    Admits (measureNodes limits nodes texts parameters) fun (allTexts, allParameters) =>
      allTexts = texts + planBytes nodes ∧ allParameters = parameters + planParameters nodes ∧
        allTexts ≤ limits.maxPlanBytes.toNat ∧ allParameters ≤ limits.maxPlanBytes.toNat ∧
        ∀ node ∈ nodes, Prepared node := by
  induction nodes generalizing texts parameters with
  | nil =>
      refine Admits.pure ⟨rfl, rfl, htexts, hparameters, fun node hnode => ?_⟩
      cases hnode
  | cons node rest ih =>
      refine Admits.ite (fun _ => Admits.refuse _) fun hnode => ?_
      have hlength : (node.parameters.getD []).length = node.parameterCount.toNat := by
        simp only [Bool.or_eq_true, Bool.and_eq_true, decide_eq_true_eq, not_or, not_and] at hnode
        cases hlist : node.parameters with
        | some list => exact node.counted list hlist
        | none =>
            have hzero : node.parameterCount = 0 := by
              by_contra hcount
              exact hnode.2 hcount (by rw [hlist]; rfl)
            rw [hzero]
            rfl
      refine name_admits hlimit htexts fun named hnamed hnamedFits haction => ?_
      refine (addBytes_admits (Nat.le_of_lt hlimit) hparameters _ Nat.one_pos).bind ?_
      rintro counted ⟨hcounted, hcountedFits⟩
      refine (measureParameters_admits hlimit _ 0 named hnamedFits (node.ready hlength)).bind ?_
      rintro measured ⟨hmeasured, hmeasuredFits, hcomplete⟩
      refine (ih measured counted hmeasuredFits hcountedFits).mono ?_
      rintro ⟨allTexts, allParameters⟩ ⟨hall, hcount, hallFits, hcountFits, hprepared⟩
      refine ⟨?_, ?_, hallFits, hcountFits,
        List.forall_mem_cons.mpr ⟨⟨haction, hlength, hcomplete⟩, hprepared⟩⟩
      · rw [hall, hmeasured, hnamed, planBytes, planBytes, List.map_cons, List.sum_cons, entryBytes]
        omega
      · rw [hcount, hcounted, planParameters, planParameters, List.map_cons, List.sum_cons]
        omega

/-! ## What is copied -/

/-- The arrays after more was copied: what they held before a place is kept. -/
structure Advanced (before : PlanArrays Number) (place bytes : Nat) (after : PlanArrays Number) :
    Prop where
  texts : Grown before.texts bytes after.texts
  parameters_length : after.parameters.length = before.parameters.length
  sizes_length : after.sizes.length = before.sizes.length
  parameters_kept : ∀ other < place, after.parameters[other]? = before.parameters[other]?
  sizes_kept : ∀ other < place, after.sizes[other]? = before.sizes[other]?

theorem Advanced.refl (arrays : PlanArrays Number) (place : Nat) : Advanced arrays place 0 arrays :=
  ⟨Grown.refl _, rfl, rfl, fun _ _ => rfl, fun _ _ => rfl⟩

theorem Advanced.trans {before between after : PlanArrays Number} {place later bytes more : Nat}
    (hle : place ≤ later) (hbefore : Advanced before place bytes between)
    (hafter : Advanced between later more after) : Advanced before place (bytes + more) after where
  texts := hbefore.texts.trans hafter.texts
  parameters_length := hafter.parameters_length.trans hbefore.parameters_length
  sizes_length := hafter.sizes_length.trans hbefore.sizes_length
  parameters_kept other hother := by
    rw [hafter.parameters_kept other (by omega), hbefore.parameters_kept other hother]
  sizes_kept other hother := by
    rw [hafter.sizes_kept other (by omega), hbefore.sizes_kept other hother]

/-- A pointer is to a copy of a name. -/
def NameCopied (texts : Filling UInt8) (name : Option CString) (place : Nat) : Prop :=
  ∃ text, name = some text ∧ Has texts place (copyOf text)

/-- A pointer is to a copy of a text with as many bytes as its size says, which is kept beside. -/
def TextCopied (arrays : PlanArrays Number) (sizes : Option (List UInt64)) (index place : Nat)
    (text : Option Bytes) (pointer : Option Nat) : Prop :=
  ∃ bytes start, text = some bytes ∧ pointer = some start ∧
    textSize sizes index bytes ≤ bytes.length ∧
    arrays.sizes[place]? = some (textSize sizes index bytes) ∧
    Has arrays.texts start (bytes.take (textSize sizes index bytes) ++ [0])

/-- A parameter is copied to a place of the arrays. -/
def ParameterCopied (arrays : PlanArrays Number) (sizes : Option (List UInt64)) (index place : Nat)
    (parameter : PlanParameter Number) : Prop :=
  ∃ stored, arrays.parameters[place]? = some (some stored) ∧ stored.kind = parameter.kind ∧
    stored.number = parameter.number ∧ stored.boolean = parameter.boolean ∧
    NameCopied arrays.texts parameter.name stored.name ∧
    if parameter.kind = leafString then
      TextCopied arrays sizes index place parameter.text stored.text
    else stored.text = none

section Copying

variable {sizes : Option (List UInt64)} {parameter : PlanParameter Number}
  {list : List (PlanParameter Number)} {index place beyond bytes : Nat} {text : Bytes}
  {arrays before after : PlanArrays Number} {texts next : Filling UInt8}

theorem NameCopied.later {name : Option CString} {start : Nat} (hname : NameCopied texts name start)
    (hextends : Extends texts next) : NameCopied next name start := by
  obtain ⟨text, htext, hhas⟩ := hname
  exact ⟨text, htext, hhas.later hextends⟩

theorem ParameterCopied.later (hcopied : ParameterCopied before sizes index place parameter)
    (hadvanced : Advanced before beyond bytes after) (hplace : place < beyond) :
    ParameterCopied after sizes index place parameter := by
  obtain ⟨stored, hstored, hkind, hnumber, hboolean, hname, htext⟩ := hcopied
  refine ⟨stored, ?_, hkind, hnumber, hboolean, hname.later hadvanced.texts.extension, ?_⟩
  · rw [hadvanced.parameters_kept place hplace, hstored]
  · split at htext
    next hstring =>
      obtain ⟨original, start, horiginal, hstart, hle, hsize, hhas⟩ := htext
      rw [if_pos hstring]
      refine ⟨original, start, horiginal, hstart, hle, ?_, hhas.later hadvanced.texts.extension⟩
      rw [hadvanced.sizes_kept place hplace, hsize]
    next hother =>
      rw [if_neg hother]
      exact htext

theorem copyText_admits {size : Nat} (hsize : size ≤ text.length) (hroom : Room texts (size + 1)) :
    Admits (copyText (some text) size texts) fun (start, next) =>
      Grown texts (size + 1) next ∧ Has next start (text.take size ++ [0]) := by
  have hlength : (text.take size ++ [0]).length = size + 1 := by
    rw [List.length_append, List.length_take, Nat.min_eq_left hsize, List.length_singleton]
  rw [← hlength] at hroom ⊢
  obtain ⟨next, hput, hgrown, hhas⟩ := put_eq hroom
  rw [copyText, if_pos hsize]
  exact Admits.stored hput ⟨hgrown, hhas⟩

theorem strlen_admits (hnul : 0 ∈ text) : Admits (strlen text) (· = textLength text) := by
  rw [strlen, if_pos hnul]
  exact Admits.pure rfl

theorem copyName_admits {name : Option CString} (hname : name.isSome)
    (hroom : Room texts (nameBytes name)) :
    Admits (copyName name texts) fun (start, next) =>
      Grown texts (nameBytes name) next ∧ NameCopied next name start := by
  match name, hname with
  | some name, _ =>
      have hroom : Room texts (name.length + 1) := hroom
      refine (strlen_admits (zero_mem_copyOf name)).bind ?_
      rintro size hsize
      rw [textLength_copyOf] at hsize
      subst hsize
      have htake : (copyOf name).take name.length ++ [0] = copyOf name := by
        rw [copyOf, List.take_left']
        rfl
      have hcopied : Admits (copyText (some (copyOf name)) name.length texts) _ :=
        copyText_admits (by rw [length_copyOf]; omega) hroom
      rw [htake] at hcopied
      refine hcopied.mono ?_
      rintro ⟨start, next⟩ ⟨hgrown, hhas⟩
      exact ⟨hgrown, name, rfl, hhas⟩

theorem copySize_admits (hentry : ∀ entries ∈ sizes, index < entries.length)
    (hreadable : Readable sizes index text) :
    Admits (copySize sizes index text) (· = textSize sizes index text) := by
  match sizes with
  | some entries => exact (sizeAt_admits (hentry entries rfl)).mono fun size hsize => hsize.1
  | none => exact strlen_admits hreadable

theorem copyParameter_admits (hready : Ready sizes (parameter :: list) index)
    (hcomplete : Complete parameter) (hplace : place < arrays.parameters.length)
    (hsizes : place < arrays.sizes.length)
    (hroom : Room arrays.texts (parameterBytes sizes index parameter)) :
    Admits (copyParameter sizes parameter index place arrays) fun after =>
      Advanced arrays place (parameterBytes sizes index parameter) after ∧
        ParameterCopied after sizes index place parameter := by
  rw [parameterBytes] at hroom ⊢
  refine (copyName_admits hcomplete.1 hroom.front).bind ?_
  rintro ⟨name, named⟩ ⟨hnamed, hname⟩
  have hleft := hroom.after hnamed
  refine Admits.ite (fun hkind => ?_) fun hkind => ?_
  · obtain ⟨text, htext⟩ := Option.isSome_iff_exists.mp (hcomplete.2 hkind)
    have hreadable := hready.head hkind htext
    rw [if_pos hkind, htext, Option.getD_some] at hleft ⊢
    refine (copySize_admits hready.entry hreadable).bind ?_
    rintro size rfl
    simp only [storeSize, if_pos hsizes]
    have hle := textSize_le hready.entry hreadable
    refine (copyText_admits hle hleft).bind ?_
    rintro ⟨start, last⟩ ⟨hlast, hhas⟩
    rw [storeParameter, if_pos hplace]
    refine Admits.pure ⟨⟨hnamed.trans hlast, List.length_set, List.length_set, ?_, ?_⟩, ?_⟩
    · intro other hother
      exact List.getElem?_set_ne (Nat.ne_of_gt hother)
    · intro other hother
      exact List.getElem?_set_ne (Nat.ne_of_gt hother)
    · refine ⟨_, List.getElem?_set_self hplace, rfl, rfl, rfl, hname.later hlast.extension, ?_⟩
      rw [if_pos hkind]
      exact ⟨text, start, htext, rfl, hle, List.getElem?_set_self hsizes, hhas⟩
  · rw [if_neg hkind] at hleft ⊢
    rw [storeParameter, if_pos hplace]
    refine Admits.pure ⟨⟨hnamed, List.length_set, rfl, ?_, fun _ _ => rfl⟩, ?_⟩
    · intro other hother
      exact List.getElem?_set_ne (Nat.ne_of_gt hother)
    · refine ⟨_, List.getElem?_set_self hplace, rfl, rfl, rfl, hname, ?_⟩
      rw [if_neg hkind]

theorem copyParameters_admits (list : List (PlanParameter Number)) (index place : Nat)
    (arrays : PlanArrays Number) (hready : Ready sizes list index)
    (hcomplete : ∀ parameter ∈ list, Complete parameter)
    (hplace : place + list.length ≤ arrays.parameters.length)
    (hsizes : place + list.length ≤ arrays.sizes.length)
    (hroom : Room arrays.texts (parametersBytes sizes list index)) :
    Admits (copyParameters sizes list index place arrays) fun (last, after) =>
      last = place + list.length ∧ Advanced arrays place (parametersBytes sizes list index) after ∧
        ∀ offset parameter, list[offset]? = some parameter →
          ParameterCopied after sizes (index + offset) (place + offset) parameter := by
  induction list generalizing index place arrays with
  | nil =>
      refine Admits.pure ⟨rfl, Advanced.refl _ _, fun offset parameter hparameter => ?_⟩
      cases hparameter
  | cons parameter rest ih =>
      rw [List.length_cons] at hplace hsizes
      rw [parametersBytes] at hroom ⊢
      obtain ⟨hfirst, hrest⟩ := List.forall_mem_cons.mp hcomplete
      refine (copyParameter_admits hready hfirst (by omega) (by omega) hroom.front).bind ?_
      rintro next ⟨hnext, hcopied⟩
      have hparametersLength := hnext.parameters_length
      have hsizesLength := hnext.sizes_length
      refine (ih (index + 1) (place + 1) next hready.tail hrest (by omega) (by omega)
        (hroom.after hnext.texts)).mono ?_
      rintro ⟨last, after⟩ ⟨hlast, hafter, hothers⟩
      refine ⟨?_, hnext.trans (Nat.le_succ _) hafter, ?_⟩
      · rw [hlast, List.length_cons]
        omega
      · intro offset found hfound
        cases offset with
        | zero =>
            rw [List.getElem?_cons_zero, Option.some.injEq] at hfound
            subst hfound
            exact hcopied.later hafter (Nat.lt_succ_self _)
        | succ offset =>
            have hoffset := hothers offset found hfound
            rwa [Nat.add_assoc, Nat.add_assoc, Nat.add_comm 1 offset] at hoffset

end Copying

/-- A node is copied, with its parameters from a place of the arrays on. -/
structure EntryCopied (arrays : PlanArrays Number) (node : PlanEntry Tree Number) (place : Nat)
    (copy : StoredEntry Tree) : Prop where
  tree : copy.tree = node.tree
  terminal : copy.terminal = node.terminal
  parameterCount : copy.parameterCount = node.parameterCount
  action : NameCopied arrays.texts node.action copy.action
  start : copy.parameters = if arrays.parameters.isEmpty then none else some place
  sizes : copy.textSizes = copy.parameters
  within : place + node.parameterCount.toNat ≤ arrays.parameters.length
  parameters : ∀ offset parameter, (node.parameters.getD [])[offset]? = some parameter →
    offset < node.parameterCount.toNat ∧
      ParameterCopied arrays node.textSizes offset (place + offset) parameter

/-- The nodes are copied in their order, with their parameters one after another. -/
def EntriesCopied (arrays : PlanArrays Number) :
    List (PlanEntry Tree Number) → Nat → List (StoredEntry Tree) → Prop
  | [], _, copies => copies = []
  | node :: rest, place, copies => ∃ copy others, copies = copy :: others ∧
      EntryCopied arrays node place copy ∧
        EntriesCopied arrays rest (place + node.parameterCount.toNat) others

theorem copyNodes_admits (nodes : List (PlanEntry Tree Number)) (place : Nat)
    (arrays : PlanArrays Number) (hprepared : ∀ node ∈ nodes, Prepared node)
    (hplace : place + planParameters nodes ≤ arrays.parameters.length)
    (hsizes : place + planParameters nodes ≤ arrays.sizes.length)
    (hroom : Room arrays.texts (planBytes nodes)) :
    Admits (copyNodes nodes place arrays) fun (copies, after) =>
      Advanced arrays place (planBytes nodes) after ∧ EntriesCopied after nodes place copies := by
  induction nodes generalizing place arrays with
  | nil => exact Admits.pure ⟨Advanced.refl _ _, rfl⟩
  | cons node rest ih =>
      obtain ⟨hnode, hrest⟩ := List.forall_mem_cons.mp hprepared
      have hcount : planParameters (node :: rest) =
          node.parameterCount.toNat + planParameters rest := by
        rw [planParameters, planParameters, List.map_cons, List.sum_cons]
      have hbytes : planBytes (node :: rest) = nameBytes node.action +
          (parametersBytes node.textSizes (node.parameters.getD []) 0 + planBytes rest) := by
        rw [planBytes, planBytes, List.map_cons, List.sum_cons, entryBytes, Nat.add_assoc]
      have hlength := hnode.length_eq
      rw [hcount] at hplace hsizes
      rw [hbytes] at hroom ⊢
      have hplaceHere : place + (node.parameters.getD []).length ≤ arrays.parameters.length := by
        omega
      have hsizesHere : place + (node.parameters.getD []).length ≤ arrays.sizes.length := by omega
      refine (copyName_admits hnode.action hroom.front).bind ?_
      rintro ⟨action, named⟩ ⟨hnamed, haction⟩
      have hleft := hroom.after hnamed
      refine (copyParameters_admits _ 0 place { arrays with texts := named }
        (node.ready hlength) hnode.complete hplaceHere hsizesHere hleft.front).bind ?_
      rintro ⟨last, between⟩ ⟨hlast, hbetween, hcopied⟩
      rw [hlength] at hlast
      subst hlast
      have hparametersLength : between.parameters.length = arrays.parameters.length :=
        hbetween.parameters_length
      have hsizesLength : between.sizes.length = arrays.sizes.length := hbetween.sizes_length
      refine (ih (place + node.parameterCount.toNat) between hrest (by omega) (by omega)
        (hleft.after hbetween.texts)).bind ?_
      rintro ⟨copies, after⟩ ⟨hafter, hcopies⟩
      have hafterLength := hafter.parameters_length
      have hle : place ≤ place + node.parameterCount.toNat := Nat.le_add_right _ _
      have hall := hbetween.trans hle hafter
      refine Admits.pure ⟨⟨hnamed.trans hall.texts, hall.parameters_length, hall.sizes_length,
        hall.parameters_kept, hall.sizes_kept⟩, _, copies, rfl, ⟨rfl, rfl, rfl, ?_, ?_, rfl, ?_, ?_⟩,
        hcopies⟩
      · exact haction.later hall.texts.extension
      · have hempty : after.parameters.isEmpty = arrays.parameters.isEmpty := by
          rw [Bool.eq_iff_iff, List.isEmpty_iff_length_eq_zero, List.isEmpty_iff_length_eq_zero,
            hafterLength, hparametersLength]
        show (if arrays.parameters.isEmpty then none else some place) = _
        rw [hempty]
      · omega
      · intro offset parameter hparameter
        have hoffset : offset < node.parameterCount.toNat := by
          rw [← hlength]
          exact (List.getElem?_eq_some_iff.mp hparameter).1
        refine ⟨hoffset, ?_⟩
        have hthere := hcopied offset parameter hparameter
        rw [Nat.zero_add] at hthere
        exact hthere.later hafter (by omega)

/-! ## The session -/

/-- The copying pass of a session has done what the measuring pass has measured. -/
structure PlanCopied (nodes : List (PlanEntry Tree Number)) (copies : List (StoredEntry Tree))
    (arrays : PlanArrays Number) : Prop where
  /-- The buffer is as large as the texts with their terminators, and it is filled to its end. -/
  measured : arrays.texts.buffer.length = planBytes nodes
  filled : arrays.texts.cursor = arrays.texts.buffer.length
  parameters : arrays.parameters.length = planParameters nodes
  sizes : arrays.sizes.length = planParameters nodes
  entries : EntriesCopied arrays nodes 0 copies

theorem acceptedPlan_limit {taken : Bool} {limits : StorageLimits} {count : Nat}
    (haccepted : acceptedPlan taken limits count = true) :
    limits.maxPlanBytes.toNat < sizeMax := by
  have hle : limits.maxPlanBytes.toNat ≤ sizeMax := Nat.le_of_lt_succ (UInt64.toNat_lt _)
  have hne : limits.maxPlanBytes.toNat ≠ sizeMax := by
    intro heq
    simp [acceptedPlan, heq] at haccepted
  omega

theorem measurePlan_admits {widths : Widths} {limits : StorageLimits}
    (hlimit : limits.maxPlanBytes.toNat < sizeMax) (nodes : List (PlanEntry Tree Number)) :
    Admits (measurePlan widths limits nodes) fun (texts, parameters) =>
      texts = planBytes nodes ∧ parameters = planParameters nodes ∧
        ∀ node ∈ nodes, Prepared node := by
  have hfits := Nat.le_of_lt hlimit
  refine (addBytes_admits hfits (Nat.zero_le _) _ widths.node_pos).bind ?_
  rintro used ⟨-, hused⟩
  refine (measureNodes_admits hlimit nodes 0 0 (Nat.zero_le _) (Nat.zero_le _)).bind ?_
  rintro ⟨texts, parameters⟩ ⟨htexts, hparameters, -, -, hprepared⟩
  refine (addBytes_admits hfits hused _ (Nat.add_pos_left widths.parameter_pos _)).bind ?_
  rintro usedMore ⟨-, husedMore⟩
  refine (addBytes_admits hfits husedMore _ Nat.one_pos).bind ?_
  rintro usedAll -
  rw [Nat.zero_add] at htexts hparameters
  exact Admits.pure ⟨htexts, hparameters, hprepared⟩

/-- What a session measures is what it copies: no size wraps, nothing is stored past an end, and
the buffer holds each text with its terminator and is full. -/
theorem session_admits (widths : Widths) (garbage : Nat → UInt8) (granted : Nat → Bool)
    (contracted taken : Bool) (limits : StorageLimits) (nodes : List (PlanEntry Tree Number)) :
    Admits (praktorC11SessionInit widths garbage granted contracted taken limits nodes)
      fun (copies, arrays) => PlanCopied nodes copies arrays := by
  rw [praktorC11SessionInit]
  refine Admits.ite (fun _ => Admits.refuse _) fun haccepted => ?_
  rw [Bool.not_eq_true', Bool.not_eq_false] at haccepted
  refine Admits.ite (fun _ => Admits.refuse _) fun hslots => ?_
  have hcount : nodes.length * sessionSlots ≤ sizeMax := by
    have hle : nodes.length ≤ sizeMax / sessionSlots :=
      Nat.le_trans (Nat.le_of_not_gt hslots) (Nat.div_le_self _ _)
    exact (Nat.le_div_iff_mul_le (by decide)).mp hle
  refine (measurePlan_admits (acceptedPlan_limit haccepted) nodes).bind ?_
  rintro ⟨texts, parameters⟩ ⟨rfl, rfl, hprepared⟩
  refine Admits.ite (fun _ => Admits.refuse _) fun _ => ?_
  refine Admits.ite (fun _ => Admits.refuse _) fun _ => ?_
  refine (Admits.times hcount).bind fun _ _ => ?_
  refine Admits.ite (fun _ => Admits.refuse _) fun _ => ?_
  refine (copyNodes_admits nodes 0 _ hprepared ?_ ?_ ?_).mono ?_
  · exact Nat.le_of_eq (by rw [List.length_replicate, Nat.zero_add])
  · exact Nat.le_of_eq (by rw [List.length_replicate, Nat.zero_add])
  · exact Nat.le_of_eq (by rw [List.length_map, List.length_range, Nat.zero_add])
  · rintro ⟨copies, arrays⟩ ⟨hadvanced, hentries⟩
    have hlength := hadvanced.texts.extension.length_eq
    have hend := hadvanced.texts.cursor
    rw [List.length_map, List.length_range] at hlength
    rw [Nat.zero_add] at hend
    refine ⟨hlength, hend.trans hlength.symm, ?_, ?_, hentries⟩
    · rw [hadvanced.parameters_length, List.length_replicate]
    · rw [hadvanced.sizes_length, List.length_replicate]

/-- The measuring pass bounds the copying pass, of a worker and of a session. -/
theorem measured_bounds_copied (garbage : Nat → UInt8) (granted : Nat → Bool) (taken : Bool) :
    (∀ config : Process.Admission.AdmissionConfig,
      Admits (Process.Admission.praktorProcessWorkerStart garbage granted taken config)
        (Process.Admission.WorkerCopied config)) ∧
    ∀ (Tree Number : Type) (widths : Widths) (contracted : Bool) (limits : StorageLimits)
      (nodes : List (PlanEntry Tree Number)),
      Admits (praktorC11SessionInit widths garbage granted contracted taken limits nodes)
        fun (copies, arrays) => PlanCopied nodes copies arrays :=
  ⟨fun config => Process.Admission.worker_admits garbage granted taken config,
    fun _ _ widths contracted limits nodes =>
      session_admits widths garbage granted contracted taken limits nodes⟩

end Praktor.Session.Storage
