/-
# The command line of a native process

`append`, `quote` and `start` of `process_native.c`, up to the call that creates the process.
The command line is built in an array of fixed length; an access outside of it is a fault.
The conversion from UTF-8 and the other calls of the system are parameters.

The rules by which the C runtime of the process takes the command line apart are stated as a
parser.  The main result: it finds the arguments that were given, whenever they fit into the
array, and nothing is created when they do not.
-/

import Mathlib.Data.List.Forall2
import Praktor.Data.Sizes
import Praktor.Math.Arena
import Praktor.Process.ServiceControl

namespace Praktor.Process

open Praktor.Data Praktor.Math

/-- A string of `wchar_t` without its terminator. -/
structure WideString where
  units : List UInt16
  nulFree : 0 ∉ units
  deriving DecidableEq

/-- `WIDE_CAP`. -/
def wideCap : Nat := 32768

/-- `UTF8_CAP`. -/
def utf8Cap : Nat := 131072

/-- `ARGUMENT_CAP`. -/
def argumentCap : Nat := 16384

/-! ## The array -/

/-- `n->command` with the index of its end. -/
structure CommandLine where
  cells : List UInt16
  used : Nat

namespace CommandLine

/-- `append`: whether there was room, and the command line after it. -/
def append (line : CommandLine) (unit : UInt16) (count : Nat) : Option (Bool × CommandLine) :=
  if count > sizeSub (wideCap - 1) line.used then some (false, line)
  else if line.used + count < line.cells.length then
    some (true,
      { cells := Arena.write line.cells line.used (List.replicate count unit ++ [0])
        used := line.used + count })
  else none

/-- The second of two calls is made when the first returned true. -/
def followed (result : Option (Bool × CommandLine))
    (next : CommandLine → Option (Bool × CommandLine)) : Option (Bool × CommandLine) :=
  match result with
  | some (true, line) => next line
  | other => other

/-- The loop of `quote` over an argument that needs no quotes. -/
def appendUnits : List UInt16 → CommandLine → Option (Bool × CommandLine)
  | [], line => some (true, line)
  | unit :: rest, line => followed (append line unit 1) fun line => appendUnits rest line

/-- The loop of `quote` inside the quotes, with the backslashes that are pending. -/
def appendQuoted : List UInt16 → Nat → CommandLine → Option (Bool × CommandLine)
  | [], slashes, line => followed (append line 92 (slashes * 2)) fun line => append line 34 1
  | unit :: rest, slashes, line =>
      if unit = 92 then appendQuoted rest (slashes + 1) line
      else
        followed
          (append line 92 (slashes * (if unit = 34 then 2 else 1) + (if unit = 34 then 1 else 0)))
          fun line => followed (append line unit 1) fun line => appendQuoted rest 0 line

/-- An argument that is empty or holds white space or a quote. -/
def needsQuotes (arg : List UInt16) : Bool :=
  arg.isEmpty || arg.any fun unit => unit = 32 || unit = 9 || unit = 10 || unit = 11 || unit = 34

/-- `quote`. -/
def quote (line : CommandLine) (arg : List UInt16) : Option (Bool × CommandLine) :=
  if !needsQuotes arg then appendUnits arg line
  else followed (append line 34 1) fun line => appendQuoted arg 0 line

end CommandLine

/-! ## Starting -/

/-- `failure`. -/
def nativeFailure (error : Int) (message : String) : ProcessBackendResult :=
  ⟨false, error, some (CString.literal message)⟩

/-- What the system answers before the process is created. -/
structure NativeHost where
  /-- `available`: why the backend takes no call. -/
  unavailable : Option ProcessBackendResult
  /-- `match` of two image names. -/
  compare : CString → CString → Except ProcessBackendResult Bool
  /-- `MultiByteToWideChar` of UTF-8 text. -/
  decode : CString → Option WideString
  /-- `ProcessIdToSessionId` of the calling process. -/
  hasSession : Bool
  /-- `GetLastError`. -/
  lastError : Int

/-- The request of `start`. -/
structure NativeRequest where
  imageName : Option CString
  executable : Option CString
  arguments : ServiceArgs
  workingDirectory : Option CString

/-- How `start` goes on: it leaves an array, returns before a process is created, or calls
`CreateProcessW`. -/
inductive NativeStart
  | fault
  | failed (result : ProcessBackendResult)
  | created (executable : WideString) (command : CommandLine) (directory : List UInt16)

/-- `basename`: where the last component of a path begins. -/
def baseStart : Nat → Nat → List UInt16 → Nat
  | _, name, [] => name
  | position, name, unit :: rest =>
      baseStart (position + 1)
        (if unit = 47 || unit = 92 || (position = 1 && unit = 58) then position + 1 else name) rest

section Start

variable (host : NativeHost)

/-- `wide_from`. -/
def wideFrom (text : Option CString) : Except ProcessBackendResult WideString :=
  let text := text.getD (CString.literal "")
  if text.length ≥ utf8Cap then
    .error (nativeFailure 111 "managed process value exceeds native text bound")
  else
    match host.decode text with
    | none => .error (nativeFailure host.lastError "failed to decode UTF-8 process value")
    | some wide =>
        if wide.units.length + 1 > wideCap then
          .error (nativeFailure 111 "managed process value exceeds native text bound")
        else .ok wide

/-- The failure of a command line that does not fit. -/
def oversized : ProcessBackendResult :=
  nativeFailure 206 "managed process command line exceeds native bound"

/-- The loop of `start` over the arguments. -/
def appendArguments :
    List (Option CString) → CommandLine → Option (Except ProcessBackendResult CommandLine)
  | [], line => some (.ok line)
  | none :: _, _ => some (.error (nativeFailure 87 "managed process argument is null"))
  | some text :: rest, line =>
      match wideFrom host (some text) with
      | .error failed => some (.error failed)
      | .ok argument =>
          match CommandLine.followed (line.append 32 1) fun line => line.quote argument.units with
          | none => none
          | some (false, _) => some (.error oversized)
          | some (true, line) => appendArguments rest line

/-- What `start` checks of a request. -/
def startChecked (request : NativeRequest) : Bool :=
  present request.executable && present request.imageName &&
    decide (request.arguments.count ≤ argumentCap) && !request.arguments.missing

/-- `start`, up to the creation of the process; `cells` is what the array held before. -/
def startNative (request : NativeRequest) (cells : List UInt16) : NativeStart :=
  match host.unavailable with
  | some failed => .failed failed
  | none =>
      if !startChecked request then
        .failed (nativeFailure 87 "managed process parameters are invalid")
      else
        let image := request.imageName.getD (CString.literal "")
        match host.compare image image with
        | .error failed => .failed failed
        | .ok _ =>
            match wideFrom host request.executable, wideFrom host request.workingDirectory with
            | .error failed, _ => .failed failed
            | .ok _, .error failed => .failed failed
            | .ok executable, .ok directory =>
                match CommandLine.quote ⟨cells, 0⟩ executable.units with
                | none => .fault
                | some (false, _) => .failed oversized
                | some (true, line) =>
                    match appendArguments host request.arguments.texts line with
                    | none => .fault
                    | some (.error failed) => .failed failed
                    | some (.ok line) =>
                        if !host.hasSession then
                          .failed (nativeFailure host.lastError
                            "failed to determine current process session")
                        else
                          .created executable line
                            (if directory.units = [] then
                              executable.units.take (baseStart 0 0 executable.units)
                            else directory.units)

end Start

/-! ## The rules of the C runtime -/

/-- What separates arguments outside of quotes. -/
def isSeparator (unit : UInt16) : Bool := unit = 32 || unit = 9

/-- One argument and what is left behind it.  A quote after 2n backslashes opens or closes and
leaves n of them, one after 2n + 1 leaves n and itself, other backslashes stand for
themselves.  With `doubled`, two quotes inside of quotes leave one; `skip` is true at the
second. -/
def crtArgument (doubled : Bool) :
    Bool → Bool → Nat → List UInt16 → List UInt16 → List UInt16 × List UInt16
  | _, _, slashes, argument, [] => (argument ++ List.replicate slashes 92, [])
  | true, quoted, _, argument, _ :: rest => crtArgument doubled false quoted 0 argument rest
  | false, quoted, slashes, argument, unit :: rest =>
      if unit = 92 then crtArgument doubled false quoted (slashes + 1) argument rest
      else if unit = 34 then
        let kept := argument ++ List.replicate (slashes / 2) 92
        if slashes % 2 = 1 then crtArgument doubled false quoted 0 (kept ++ [34]) rest
        else if doubled && quoted && rest.head? = some 34 then
          crtArgument doubled true quoted 0 (kept ++ [34]) rest
        else crtArgument doubled false (!quoted) 0 kept rest
      else if !quoted && isSeparator unit then
        (argument ++ List.replicate slashes 92, unit :: rest)
      else
        crtArgument doubled false quoted 0 (argument ++ List.replicate slashes 92 ++ [unit]) rest

/-- The name of the program and what is left behind the separator after it; backslashes have
no meaning in it. -/
def crtProgram : Bool → List UInt16 → List UInt16 × List UInt16
  | _, [] => ([], [])
  | quoted, unit :: rest =>
      if unit = 34 then crtProgram (!quoted) rest
      else if !quoted && isSeparator unit then ([], rest)
      else
        let (program, left) := crtProgram quoted rest
        (unit :: program, left)

theorem length_crtArgument (doubled skip quoted : Bool) (slashes : Nat)
    (argument line : List UInt16) :
    (crtArgument doubled skip quoted slashes argument line).2.length ≤ line.length := by
  induction line generalizing skip quoted slashes argument with
  | nil => cases skip <;> exact Nat.le_refl _
  | cons unit rest ih =>
      have hlater : ∀ skip quoted slashes argument,
          (crtArgument doubled skip quoted slashes argument rest).2.length ≤ (unit :: rest).length :=
        fun skip quoted slashes argument =>
          Nat.le_succ_of_le (ih skip quoted slashes argument)
      cases skip with
      | true => exact hlater _ _ _ _
      | false =>
          rw [crtArgument]
          simp only
          split_ifs
          all_goals first | exact hlater _ _ _ _ | exact Nat.le_refl _

/-- An argument takes its first unit, which is no separator. -/
theorem length_crtArgument_cons (doubled : Bool) {unit : UInt16} (hunit : isSeparator unit = false)
    (rest : List UInt16) :
    (crtArgument doubled false false 0 [] (unit :: rest)).2.length ≤ rest.length := by
  rw [crtArgument, hunit]
  simp only [Bool.and_false, Bool.false_eq_true, if_false]
  split_ifs
  all_goals exact length_crtArgument _ _ _ _ _ _

/-- The arguments behind the name of the program. -/
def crtArguments (doubled : Bool) (line : List UInt16) : List (List UInt16) :=
  match _hline : line.dropWhile isSeparator with
  | [] => []
  | unit :: rest =>
      (crtArgument doubled false false 0 [] (unit :: rest)).1 ::
        crtArguments doubled (crtArgument doubled false false 0 [] (unit :: rest)).2
termination_by line.length
decreasing_by
  have hunit : isSeparator unit = false := by
    have hhead := List.head?_dropWhile_not isSeparator line
    rw [_hline] at hhead
    simpa using hhead
  have hshorter := length_crtArgument_cons doubled hunit rest
  have hdropped : (unit :: rest).length ≤ line.length := by
    rw [← _hline]
    exact (List.dropWhile_sublist _).length_le
  rw [List.length_cons] at hdropped
  omega

/-- `argv`: the name of the program and its arguments. -/
def crtArgv (doubled : Bool) (line : List UInt16) : List (List UInt16) :=
  (crtProgram false line).1 :: crtArguments doubled (crtProgram false line).2

/-! ## The text of a command line -/

/-- What `quote` appends inside of quotes, up to the closing one. -/
def quoteBody : List UInt16 → Nat → List UInt16
  | [], slashes => List.replicate (slashes * 2) 92 ++ [34]
  | unit :: rest, slashes =>
      if unit = 92 then quoteBody rest (slashes + 1)
      else
        List.replicate
            (slashes * (if unit = 34 then 2 else 1) + (if unit = 34 then 1 else 0)) 92 ++
          unit :: quoteBody rest 0

/-- What `quote` appends. -/
def quotedForm (arg : List UInt16) : List UInt16 :=
  if CommandLine.needsQuotes arg then 34 :: quoteBody arg 0 else arg

/-- The arguments of a command line, each after a space. -/
def argumentsForm (arguments : List (List UInt16)) : List UInt16 :=
  arguments.flatMap fun arg => 32 :: quotedForm arg

/-- The command line of a program and its arguments. -/
def commandForm (executable : List UInt16) (arguments : List (List UInt16)) : List UInt16 :=
  quotedForm executable ++ argumentsForm arguments

/-! ## Taking a command line apart -/

section Parsing

variable {doubled : Bool} {rest : List UInt16}

/-- What may stand behind an argument. -/
def Ended (rest : List UInt16) : Prop := ∀ unit ∈ rest.head?, isSeparator unit = true

theorem crtArgument_slashes (quoted : Bool) (slashes count : Nat) (argument : List UInt16)
    (text : List UInt16) :
    crtArgument doubled false quoted slashes argument (List.replicate count 92 ++ text) =
      crtArgument doubled false quoted (slashes + count) argument text := by
  induction count generalizing slashes with
  | zero => rfl
  | succ count ih =>
      rw [List.replicate_succ, List.cons_append, crtArgument, if_pos rfl, ih]
      congr 1
      omega

/-- An argument ends outside of quotes at the end or before a separator. -/
theorem crtArgument_ended (hended : Ended rest) (slashes : Nat) (argument : List UInt16) :
    crtArgument doubled false false slashes argument rest =
      (argument ++ List.replicate slashes 92, rest) := by
  cases rest with
  | nil => rfl
  | cons unit rest =>
      have hseparator := hended unit rfl
      have hslash : unit ≠ 92 := by
        rintro rfl
        exact absurd hseparator (by decide)
      have hquote : unit ≠ 34 := by
        rintro rfl
        exact absurd hseparator (by decide)
      rw [crtArgument, if_neg hslash, if_neg hquote, hseparator]
      rfl

/-- An argument without quotes is taken as it stands. -/
theorem crtArgument_plain {arg : List UInt16}
    (hplain : ∀ unit ∈ arg, unit ≠ 34 ∧ isSeparator unit = false) (hended : Ended rest)
    (slashes : Nat) (argument : List UInt16) :
    crtArgument doubled false false slashes argument (arg ++ rest) =
      (argument ++ (List.replicate slashes 92 ++ arg), rest) := by
  induction arg generalizing slashes argument with
  | nil => rw [List.nil_append, List.append_nil, crtArgument_ended hended]
  | cons unit arg ih =>
      obtain ⟨hquote, hseparator⟩ := hplain unit List.mem_cons_self
      have hlater := ih fun other hmem => hplain other (List.mem_cons_of_mem _ hmem)
      rw [List.cons_append, crtArgument]
      by_cases hslash : unit = 92
      · rw [if_pos hslash, hlater, hslash, List.replicate_succ']
        simp
      · rw [if_neg hslash, if_neg hquote, hseparator]
        simp only [Bool.and_false, Bool.false_eq_true, if_false]
        rw [hlater]
        simp

theorem Ended.not_quote (hended : Ended rest) : rest.head? ≠ some 34 := by
  intro hquote
  exact absurd (hended 34 hquote) (by decide)

/-- A quoted argument is taken with its backslashes and quotes. -/
theorem crtArgument_quoted (hended : Ended rest) (arg : List UInt16) (slashes : Nat)
    (argument : List UInt16) :
    crtArgument doubled false true 0 argument (quoteBody arg slashes ++ rest) =
      (argument ++ (List.replicate slashes 92 ++ arg), rest) := by
  induction arg generalizing slashes argument with
  | nil =>
      have hslash : ¬ (34 : UInt16) = 92 := by decide
      have heven : ¬ (0 + slashes * 2) % 2 = 1 := by omega
      have hhalf : (0 + slashes * 2) / 2 = slashes := by omega
      have hclosing : ¬ (doubled && true && decide (rest.head? = some 34)) = true := by
        simp [hended.not_quote]
      rw [quoteBody, List.append_assoc, crtArgument_slashes, List.singleton_append, crtArgument,
        if_neg hslash, if_pos rfl]
      simp only [if_neg heven, if_neg hclosing, hhalf]
      rw [Bool.not_true, crtArgument_ended hended]
      simp
  | cons unit arg ih =>
      rw [quoteBody]
      by_cases hslash : unit = 92
      · rw [if_pos hslash, ih, hslash, List.replicate_succ']
        simp
      rw [if_neg hslash, List.append_assoc, crtArgument_slashes, List.cons_append, crtArgument,
        if_neg hslash]
      by_cases hquote : unit = 34
      · have hodd : (0 + (slashes * 2 + 1)) % 2 = 1 := by omega
        have hhalf : (0 + (slashes * 2 + 1)) / 2 = slashes := by omega
        simp only [if_pos hquote, if_pos hodd, hhalf]
        rw [ih, hquote]
        simp
      · simp only [if_neg hquote, Bool.not_true, Bool.false_and, Bool.false_eq_true, if_false,
          Nat.mul_one, Nat.add_zero, Nat.zero_add]
        rw [ih]
        simp

/-- What needs no quotes holds no quote and no separator, and it is not empty. -/
theorem plain_of_not_needsQuotes {arg : List UInt16} (hplain : CommandLine.needsQuotes arg = false) :
    arg ≠ [] ∧ ∀ unit ∈ arg, unit ≠ 34 ∧ isSeparator unit = false := by
  rw [CommandLine.needsQuotes, Bool.or_eq_false_iff] at hplain
  refine ⟨fun hempty => ?_, fun unit hmem => ?_⟩
  · rw [hempty] at hplain
    exact Bool.noConfusion hplain.1
  · have hunit := List.any_eq_false.mp hplain.2 unit hmem
    simp only [Bool.or_eq_true, decide_eq_true_eq, not_or] at hunit
    refine ⟨hunit.2, ?_⟩
    simp [isSeparator, hunit.1.1.1.1, hunit.1.1.1.2]

/-- The form of an argument is taken as the argument. -/
theorem crtArgument_form (hended : Ended rest) (arg : List UInt16) :
    crtArgument doubled false false 0 [] (quotedForm arg ++ rest) = (arg, rest) := by
  rw [quotedForm]
  cases hneeds : CommandLine.needsQuotes arg with
  | false =>
      rw [if_neg Bool.false_ne_true, crtArgument_plain (plain_of_not_needsQuotes hneeds).2 hended]
      simp
  | true =>
      have hopening : ¬ (doubled && false && decide ((quoteBody arg 0 ++ rest).head? = some 34)) =
          true := by
        simp
      rw [if_pos rfl, List.cons_append, crtArgument, if_neg (by decide), if_pos rfl]
      simp only [Nat.zero_mod, Nat.zero_ne_one, if_false, if_neg hopening]
      rw [Bool.not_false, Nat.zero_div, List.replicate_zero, List.append_nil,
        crtArgument_quoted hended]
      simp

/-- The form of an argument does not begin with a separator. -/
theorem quotedForm_eq_cons (arg : List UInt16) :
    ∃ unit rest, quotedForm arg = unit :: rest ∧ isSeparator unit = false := by
  rw [quotedForm]
  cases hneeds : CommandLine.needsQuotes arg with
  | true => exact ⟨34, quoteBody arg 0, if_pos rfl, by decide⟩
  | false =>
      obtain ⟨hne, hplain⟩ := plain_of_not_needsQuotes hneeds
      obtain ⟨unit, rest, rfl⟩ := List.exists_cons_of_ne_nil hne
      exact ⟨unit, rest, if_neg Bool.false_ne_true, (hplain unit List.mem_cons_self).2⟩

theorem ended_argumentsForm (arguments : List (List UInt16)) : Ended (argumentsForm arguments) := by
  intro unit hunit
  cases arguments with
  | nil => cases hunit
  | cons arg arguments =>
      obtain rfl := Option.some.inj hunit
      decide

theorem crtArguments_eq (line : List UInt16) :
    crtArguments doubled line =
      match line.dropWhile isSeparator with
      | [] => []
      | unit :: rest =>
          (crtArgument doubled false false 0 [] (unit :: rest)).1 ::
            crtArguments doubled (crtArgument doubled false false 0 [] (unit :: rest)).2 := by
  rw [crtArguments]
  split <;> rename_i hline <;> rw [hline]

theorem crtArguments_separator {separator : UInt16} (hseparator : isSeparator separator = true)
    (line : List UInt16) :
    crtArguments doubled (separator :: line) = crtArguments doubled line := by
  rw [crtArguments_eq, crtArguments_eq line, List.dropWhile_cons_of_pos hseparator]

theorem crtArguments_form (arg : List UInt16) (hended : Ended rest) :
    crtArguments doubled (quotedForm arg ++ rest) = arg :: crtArguments doubled rest := by
  have hargument := @crtArgument_form doubled rest hended arg
  obtain ⟨unit, form, hform, hunit⟩ := quotedForm_eq_cons arg
  rw [hform, List.cons_append] at hargument ⊢
  rw [crtArguments_eq, List.dropWhile_cons_of_neg (by simp [hunit])]
  simp only [hargument]

/-- The arguments of a command line are found. -/
theorem crtArguments_argumentsForm (arguments : List (List UInt16)) :
    crtArguments doubled (argumentsForm arguments) = arguments := by
  induction arguments with
  | nil => rw [argumentsForm, List.flatMap_nil, crtArguments_eq, List.dropWhile_nil]
  | cons arg arguments ih =>
      have hcons : argumentsForm (arg :: arguments) =
          32 :: (quotedForm arg ++ argumentsForm arguments) := rfl
      rw [hcons, crtArguments_separator (by decide),
        crtArguments_form arg (ended_argumentsForm arguments), ih]

/-- The name of a program stands up to a separator outside of quotes. -/
theorem crtProgram_plain {program : List UInt16}
    (hplain : ∀ unit ∈ program, unit ≠ 34 ∧ isSeparator unit = false) :
    (crtProgram false (program ++ rest)).2 = (crtProgram false rest).2 := by
  induction program with
  | nil => rfl
  | cons unit program ih =>
      obtain ⟨hquote, hseparator⟩ := hplain unit List.mem_cons_self
      rw [List.cons_append, crtProgram, if_neg hquote, hseparator]
      exact ih fun other hmem => hplain other (List.mem_cons_of_mem _ hmem)

theorem crtProgram_quoted {program : List UInt16} (hplain : 34 ∉ program) :
    (crtProgram true (program ++ 34 :: rest)).2 = (crtProgram false rest).2 := by
  induction program with
  | nil =>
      rw [List.nil_append, crtProgram, if_pos rfl]
      rfl
  | cons unit program ih =>
      obtain ⟨hquote, hlater⟩ := not_or.mp (mt List.mem_cons.mpr hplain)
      rw [List.cons_append, crtProgram, if_neg (Ne.symm hquote)]
      exact ih hlater

/-- Without quotes only the last unit inside of the quotes is one. -/
theorem quoteBody_plain {program : List UInt16} (hplain : 34 ∉ program) (slashes : Nat) :
    ∃ body, quoteBody program slashes = body ++ [34] ∧ 34 ∉ body := by
  have hslashes : ∀ count, (34 : UInt16) ∉ List.replicate count 92 := fun count hmem =>
    absurd (List.eq_of_mem_replicate hmem) (by decide)
  induction program generalizing slashes with
  | nil => exact ⟨_, rfl, hslashes _⟩
  | cons unit program ih =>
      obtain ⟨hquote, hlater⟩ := not_or.mp (mt List.mem_cons.mpr hplain)
      rw [quoteBody]
      split
      · exact ih hlater _
      · obtain ⟨body, hbody, hfree⟩ := ih hlater 0
        refine ⟨_ ++ unit :: body, by rw [hbody, List.append_assoc]; rfl, fun hmem => ?_⟩
        rcases List.mem_append.mp hmem with hleft | hright
        · exact hslashes _ hleft
        · rcases List.mem_cons.mp hright with hunit | hbody
          · exact hquote hunit
          · exact hfree hbody

/-- What is left behind the name of the program. -/
theorem crtProgram_form {program : List UInt16} (hplain : 34 ∉ program) (hended : Ended rest) :
    (crtProgram false (quotedForm program ++ rest)).2 = rest.tail := by
  have hrest : (crtProgram false rest).2 = rest.tail := by
    cases rest with
    | nil => rfl
    | cons unit rest =>
        have hseparator := hended unit rfl
        have hquote : unit ≠ 34 := fun hquote => hended.not_quote (congrArg some hquote)
        rw [crtProgram, if_neg hquote, hseparator]
        rfl
  rw [quotedForm]
  cases hneeds : CommandLine.needsQuotes program with
  | false =>
      rw [if_neg Bool.false_ne_true, crtProgram_plain (plain_of_not_needsQuotes hneeds).2, hrest]
  | true =>
      obtain ⟨body, hbody, hfree⟩ := quoteBody_plain hplain 0
      rw [if_pos rfl, hbody, List.cons_append, crtProgram, if_pos rfl, Bool.not_false,
        List.append_assoc, List.singleton_append, crtProgram_quoted hfree, hrest]

/-- The arguments of the form of a command line are those that it was made from. -/
theorem crtArguments_commandForm {executable : List UInt16} (hplain : 34 ∉ executable)
    (arguments : List (List UInt16)) :
    (crtArgv doubled (commandForm executable arguments)).tail = arguments := by
  rw [crtArgv, List.tail_cons, commandForm,
    crtProgram_form hplain (ended_argumentsForm arguments)]
  cases arguments with
  | nil => exact crtArguments_argumentsForm []
  | cons arg arguments =>
      have hcons : (argumentsForm (arg :: arguments)).tail =
          quotedForm arg ++ argumentsForm arguments := rfl
      rw [hcons, crtArguments_form arg (ended_argumentsForm arguments), crtArguments_argumentsForm]

end Parsing

/-! ## Building a command line -/

namespace CommandLine

/-- An array that holds a text up to its index. -/
structure Built (line : CommandLine) (form : List UInt16) : Prop where
  length_eq : line.cells.length = wideCap
  used_eq : line.used = form.length
  used_lt : line.used < wideCap
  take_eq : line.cells.take line.used = form

/-- A text that ends with a terminator. -/
def Closed (line : CommandLine) : Prop := line.cells[line.used]? = some 0

/-- What a call makes of the array: it appends its text when there is room, and else returns
false. -/
def Appends (form more : List UInt16) (result : Option (Bool × CommandLine)) : Prop :=
  if (form ++ more).length < wideCap then
    ∃ next, result = some (true, next) ∧ Built next (form ++ more) ∧ Closed next
  else ∃ next, result = some (false, next)

theorem append_appends {line : CommandLine} {form : List UInt16} (hbuilt : Built line form)
    (unit : UInt16) (count : Nat) :
    Appends form (List.replicate count unit) (append line unit count) := by
  obtain ⟨hlength, hused, hlt, htake⟩ := hbuilt
  have hroom : sizeSub (wideCap - 1) line.used = wideCap - 1 - line.used :=
    sizeSub_eq (Nat.le_pred_of_lt hlt) (by decide)
  have htotal : (form ++ List.replicate count unit).length = line.used + count := by
    rw [List.length_append, List.length_replicate, hused]
  rw [append, Appends, hroom, htotal]
  by_cases hfits : line.used + count < wideCap
  · have hmore : (List.replicate count unit ++ [0]).length = count + 1 := by simp
    have hinside : line.used + (List.replicate count unit ++ [0]).length ≤ line.cells.length := by
      rw [hmore, hlength]
      omega
    have hwritten := @Arena.take_write _ line.cells (List.replicate count unit ++ [0]) line.used
      (Nat.le_trans (Nat.le_add_right _ _) hinside)
    have hsmall : ¬ count > wideCap - 1 - line.used := by omega
    have hcell : line.used + count < line.cells.length := by
      rw [hlength]
      exact hfits
    rw [if_neg hsmall, if_pos hcell, if_pos hfits]
    rw [hmore, htake, ← List.append_assoc, ← Nat.add_assoc] at hwritten
    refine ⟨_, rfl, ⟨(Arena.length_write hinside).trans hlength, htotal.symm, hfits, ?_⟩, ?_⟩
    · have hshort := congrArg (List.take (line.used + count)) hwritten
      rw [List.take_take, Nat.min_eq_left (Nat.le_succ _), ← htotal, List.take_left, htotal] at hshort
      exact hshort
    · have hlast := congrArg (fun text => text[line.used + count]?) hwritten
      rw [List.getElem?_take_of_lt (Nat.lt_succ_self _), ← htotal,
        List.getElem?_append_right (Nat.le_refl _), Nat.sub_self, htotal] at hlast
      exact hlast
  · have hlarge : count > wideCap - 1 - line.used := by omega
    rw [if_pos hlarge, if_neg hfits]
    exact ⟨line, rfl⟩

/-- Two calls one after the other. -/
theorem Appends.followed {form first second : List UInt16} {result : Option (Bool × CommandLine)}
    {next : CommandLine → Option (Bool × CommandLine)} (hfirst : Appends form first result)
    (hsecond : ∀ line, Built line (form ++ first) → Closed line →
      Appends (form ++ first) second (next line)) :
    Appends form (first ++ second) (CommandLine.followed result next) := by
  rw [Appends, ← List.append_assoc]
  rw [Appends] at hfirst
  by_cases hroom : (form ++ first).length < wideCap
  · rw [if_pos hroom] at hfirst
    obtain ⟨line, rfl, hbuilt, hclosed⟩ := hfirst
    exact hsecond line hbuilt hclosed
  · rw [if_neg hroom] at hfirst
    obtain ⟨line, rfl⟩ := hfirst
    have hfull : ¬ ((form ++ first) ++ second).length < wideCap := by
      rw [List.length_append]
      omega
    rw [if_neg hfull]
    exact ⟨line, rfl⟩

section Quoting

variable {line : CommandLine} {form : List UInt16}

theorem appends_nil (hbuilt : Built line form) (hclosed : Closed line) :
    Appends form [] (some (true, line)) := by
  rw [Appends, List.append_nil, if_pos (hbuilt.used_eq ▸ hbuilt.used_lt)]
  exact ⟨line, rfl, hbuilt, hclosed⟩

theorem appendUnit_appends (hbuilt : Built line form) (unit : UInt16) :
    Appends form [unit] (append line unit 1) :=
  append_appends hbuilt unit 1

theorem appendUnits_appends (hbuilt : Built line form) {arg : List UInt16}
    (hsome : Closed line ∨ arg ≠ []) : Appends form arg (appendUnits arg line) := by
  induction arg generalizing line form with
  | nil => exact appends_nil hbuilt (hsome.resolve_right fun hne => hne rfl)
  | cons unit rest ih =>
      exact (appendUnit_appends hbuilt unit).followed fun line hbuilt hclosed =>
        ih hbuilt (.inl hclosed)

theorem appendQuoted_appends (hbuilt : Built line form) (arg : List UInt16) (slashes : Nat) :
    Appends form (quoteBody arg slashes) (appendQuoted arg slashes line) := by
  induction arg generalizing line form slashes with
  | nil =>
      exact (append_appends hbuilt 92 _).followed fun line hbuilt _ => appendUnit_appends hbuilt 34
  | cons unit rest ih =>
      rw [quoteBody, appendQuoted]
      split
      · exact ih hbuilt _
      · refine (append_appends hbuilt 92 _).followed fun line hbuilt _ => ?_
        exact (appendUnit_appends hbuilt unit).followed fun line hbuilt _ => ih hbuilt 0

theorem quote_appends (hbuilt : Built line form) (arg : List UInt16) :
    Appends form (quotedForm arg) (quote line arg) := by
  rw [quote, quotedForm]
  cases hneeds : needsQuotes arg with
  | false =>
      rw [if_neg Bool.false_ne_true]
      exact appendUnits_appends hbuilt (.inr (plain_of_not_needsQuotes hneeds).1)
  | true =>
      rw [if_pos rfl]
      exact (appendUnit_appends hbuilt 34).followed fun line hbuilt _ =>
        appendQuoted_appends hbuilt arg 0

/-- What stands in the array is the text up to its terminator. -/
theorem text_eq (hbuilt : Built line form) (hclosed : Closed line) (hnul : 0 ∉ form) :
    Arena.text 0 line.cells 0 = form := by
  apply Arena.Holds.text_eq
  refine ⟨hnul, ?_⟩
  rw [Arena.read, List.drop_zero, ← hbuilt.used_eq, List.take_add_one, hbuilt.take_eq, hclosed]
  rfl

end Quoting

end CommandLine

/-! ## Starting with arguments -/

section Starting

variable (host : NativeHost)

/-- An argument that is converted. -/
def Converted (text : Option CString) (wide : WideString) : Prop :=
  ∃ found, text = some found ∧ wideFrom host (some found) = .ok wide

/-- The text of a command line of wide strings. -/
def lineForm (executable : WideString) (arguments : List WideString) : List UInt16 :=
  commandForm executable.units (arguments.map WideString.units)

variable {host} {line : CommandLine} {form : List UInt16}

/-- The loop over arguments that can all be converted. -/
theorem appendArguments_converted (hbuilt : CommandLine.Built line form)
    (hclosed : CommandLine.Closed line) {texts : List (Option CString)} {arguments : List WideString}
    (hconverted : List.Forall₂ (Converted host) texts arguments) :
    if (form ++ argumentsForm (arguments.map WideString.units)).length < wideCap then
      ∃ next, appendArguments host texts line = some (.ok next) ∧
        CommandLine.Built next (form ++ argumentsForm (arguments.map WideString.units)) ∧
        CommandLine.Closed next
    else appendArguments host texts line = some (.error oversized) := by
  induction hconverted generalizing line form with
  | nil =>
      have hroom : (form ++ argumentsForm (([] : List WideString).map WideString.units)).length <
          wideCap := by
        rw [List.map_nil, argumentsForm, List.flatMap_nil, List.append_nil, ← hbuilt.used_eq]
        exact hbuilt.used_lt
      rw [if_pos hroom]
      refine ⟨line, rfl, ?_, hclosed⟩
      rw [List.map_nil, argumentsForm, List.flatMap_nil, List.append_nil]
      exact hbuilt
  | @cons text wide texts arguments hfirst _ ih =>
      obtain ⟨found, rfl, hwide⟩ := hfirst
      have hform : argumentsForm ((wide :: arguments).map WideString.units) =
          32 :: quotedForm wide.units ++ argumentsForm (arguments.map WideString.units) := rfl
      have happends : CommandLine.Appends form (32 :: quotedForm wide.units)
          (CommandLine.followed (line.append 32 1) fun line => line.quote wide.units) :=
        (CommandLine.appendUnit_appends hbuilt 32).followed fun line hbuilt _ =>
          CommandLine.quote_appends hbuilt wide.units
      rw [hform, ← List.append_assoc, appendArguments, hwide]
      simp only
      rw [CommandLine.Appends] at happends
      by_cases hroom : (form ++ 32 :: quotedForm wide.units).length < wideCap
      · rw [if_pos hroom] at happends
        obtain ⟨next, hnext, hbuilt, hclosed⟩ := happends
        rw [hnext]
        exact ih hbuilt hclosed
      · rw [if_neg hroom] at happends
        obtain ⟨next, hnext⟩ := happends
        rw [hnext, if_neg]
        rw [List.length_append]
        omega

/-- The loop over the arguments fails when one cannot be converted. -/
theorem appendArguments_total (hbuilt : CommandLine.Built line form) (texts : List (Option CString)) :
    (∃ arguments, List.Forall₂ (Converted host) texts arguments) ∨
      ∃ failed, appendArguments host texts line = some (.error failed) := by
  induction texts generalizing line form with
  | nil => exact .inl ⟨[], .nil⟩
  | cons text texts ih =>
      cases text with
      | none => exact .inr ⟨_, rfl⟩
      | some found =>
          rw [appendArguments]
          cases hwide : wideFrom host (some found) with
          | error failed => exact .inr ⟨failed, rfl⟩
          | ok wide =>
              have happends : CommandLine.Appends form (32 :: quotedForm wide.units)
                  (CommandLine.followed (line.append 32 1) fun line => line.quote wide.units) :=
                (CommandLine.appendUnit_appends hbuilt 32).followed fun line hbuilt _ =>
                  CommandLine.quote_appends hbuilt wide.units
              simp only
              rw [CommandLine.Appends] at happends
              split at happends
              · obtain ⟨next, hnext, hbuilt, -⟩ := happends
                rw [hnext]
                rcases ih hbuilt with ⟨arguments, harguments⟩ | hfailed
                · exact .inl ⟨wide :: arguments, .cons ⟨found, rfl, hwide⟩ harguments⟩
                · exact .inr hfailed
              · obtain ⟨next, hnext⟩ := happends
                rw [hnext]
                exact .inr ⟨_, rfl⟩

/-- The values of a request that `start` converts. -/
structure Conversion (host : NativeHost) (request : NativeRequest) where
  executable : WideString
  directory : WideString
  arguments : List WideString
  executable_eq : wideFrom host request.executable = .ok executable
  directory_eq : wideFrom host request.workingDirectory = .ok directory
  arguments_eq : List.Forall₂ (Converted host) request.arguments.texts arguments

/-- `n->command` before a call. -/
abbrev CommandCells := { cells : List UInt16 // cells.length = wideCap }

theorem built_start (cells : CommandCells) : CommandLine.Built ⟨cells.1, 0⟩ [] :=
  ⟨cells.2, rfl, (by decide : 0 < wideCap), rfl⟩

variable (host) in
/-- A request that passes the checks before the command line is built. -/
def Checked (request : NativeRequest) : Prop :=
  host.unavailable = none ∧ startChecked request = true ∧
    ∃ same, host.compare (request.imageName.getD (CString.literal ""))
      (request.imageName.getD (CString.literal "")) = .ok same

/-- `start` on an empty command line: where it fits it holds its text, and where it does not
nothing is created. -/
theorem startNative_converted (request : NativeRequest) (cells : CommandCells)
    (conversion : Conversion host request) (hchecked : Checked host request) :
    if (lineForm conversion.executable conversion.arguments).length < wideCap then
      ∃ line, CommandLine.Built line (lineForm conversion.executable conversion.arguments) ∧
        CommandLine.Closed line ∧ startNative host request cells.1 =
          if host.hasSession then
            .created conversion.executable line
              (if conversion.directory.units = [] then
                conversion.executable.units.take (baseStart 0 0 conversion.executable.units)
              else conversion.directory.units)
          else .failed (nativeFailure host.lastError "failed to determine current process session")
    else startNative host request cells.1 = .failed oversized := by
  obtain ⟨havailable, hrequest, same, hsame⟩ := hchecked
  obtain ⟨executable, directory, arguments, hexecutable, hdirectory, harguments⟩ := conversion
  have hrefused : ¬ (!startChecked request) = true := by
    rw [hrequest]
    exact Bool.false_ne_true
  have hquote := CommandLine.quote_appends (built_start cells) executable.units
  rw [CommandLine.Appends, List.nil_append] at hquote
  simp only [startNative, havailable, if_neg hrefused, hsame, hexecutable, hdirectory, lineForm,
    commandForm]
  by_cases hroom : (quotedForm executable.units).length < wideCap
  · rw [if_pos hroom] at hquote
    obtain ⟨line, hline, hbuilt, hclosed⟩ := hquote
    have hloop := appendArguments_converted hbuilt hclosed harguments
    rw [hline]
    by_cases hfits : (quotedForm executable.units ++
        argumentsForm (arguments.map WideString.units)).length < wideCap
    · rw [if_pos hfits] at hloop ⊢
      obtain ⟨last, hlast, hbuilt, hclosed⟩ := hloop
      refine ⟨last, hbuilt, hclosed, ?_⟩
      simp only [hlast]
      cases host.hasSession <;> rfl
    · rw [if_neg hfits] at hloop ⊢
      simp only [hloop]
  · rw [if_neg hroom] at hquote
    obtain ⟨line, hline⟩ := hquote
    have hfull : ¬ (quotedForm executable.units ++
        argumentsForm (arguments.map WideString.units)).length < wideCap := by
      rw [List.length_append]
      omega
    rw [if_neg hfull, hline]

/-- A request that is not converted or not checked creates nothing and leaves no array. -/
theorem startNative_refused (request : NativeRequest) (cells : CommandCells)
    (hrefused : ¬ (Checked host request ∧ Nonempty (Conversion host request))) :
    ∃ failed, startNative host request cells.1 = .failed failed := by
  rw [startNative]
  cases havailable : host.unavailable with
  | some failed => exact ⟨failed, rfl⟩
  | none =>
      cases hrequest : startChecked request with
      | false => exact ⟨_, rfl⟩
      | true =>
          rw [if_neg (by simp)]
          simp only
          cases hsame : host.compare (request.imageName.getD (CString.literal ""))
            (request.imageName.getD (CString.literal "")) with
          | error failed => exact ⟨failed, rfl⟩
          | ok same =>
              have hchecked : Checked host request := ⟨havailable, hrequest, same, hsame⟩
              cases hexecutable : wideFrom host request.executable with
              | error failed => exact ⟨failed, rfl⟩
              | ok executable =>
                  cases hdirectory : wideFrom host request.workingDirectory with
                  | error failed => exact ⟨failed, rfl⟩
                  | ok directory =>
                      have hquote := CommandLine.quote_appends (built_start cells) executable.units
                      rw [CommandLine.Appends] at hquote
                      simp only
                      split at hquote
                      swap
                      · obtain ⟨line, hline⟩ := hquote
                        rw [hline]
                        exact ⟨_, rfl⟩
                      obtain ⟨line, hline, hbuilt, -⟩ := hquote
                      rw [hline]
                      rcases @appendArguments_total host line _ hbuilt request.arguments.texts with
                        ⟨arguments, harguments⟩ | ⟨failed, hfailed⟩
                      · exact absurd ⟨hchecked, ⟨⟨executable, directory, arguments, hexecutable,
                          hdirectory, harguments⟩⟩⟩ hrefused
                      · simp only [hfailed]
                        exact ⟨failed, rfl⟩

theorem notMem_quoteBody {arg : List UInt16} (hnul : 0 ∉ arg) (slashes : Nat) :
    0 ∉ quoteBody arg slashes := by
  have hslashes : ∀ count, (0 : UInt16) ∉ List.replicate count 92 := fun count hmem =>
    absurd (List.eq_of_mem_replicate hmem) (by decide)
  induction arg generalizing slashes with
  | nil =>
      rw [quoteBody]
      intro hmem
      rcases List.mem_append.mp hmem with hleft | hright
      · exact hslashes _ hleft
      · exact absurd (List.mem_singleton.mp hright) (by decide)
  | cons unit rest ih =>
      obtain ⟨hunit, hrest⟩ := not_or.mp (mt List.mem_cons.mpr hnul)
      rw [quoteBody]
      split
      · exact ih hrest _
      · intro hmem
        rcases List.mem_append.mp hmem with hleft | hright
        · exact hslashes _ hleft
        · exact (List.mem_cons.mp hright).elim hunit (ih hrest 0)

theorem notMem_quotedForm {arg : List UInt16} (hnul : 0 ∉ arg) : 0 ∉ quotedForm arg := by
  rw [quotedForm]
  split
  · exact fun hmem => (List.mem_cons.mp hmem).elim (by decide) (notMem_quoteBody hnul 0)
  · exact hnul

theorem notMem_lineForm (executable : WideString) (arguments : List WideString) :
    0 ∉ lineForm executable arguments := by
  intro hmem
  rcases List.mem_append.mp hmem with hleft | hright
  · exact notMem_quotedForm executable.nulFree hleft
  · obtain ⟨units, hunits, hform⟩ := List.mem_flatMap.mp hright
    obtain ⟨wide, -, rfl⟩ := List.mem_map.mp hunits
    exact (List.mem_cons.mp hform).elim (by decide) (notMem_quotedForm wide.nulFree)

/-- What `start` makes of a request. -/
structure CommandLineStarted (host : NativeHost) (request : NativeRequest)
    (cells : CommandCells) : Prop where
  /-- No index leaves the array. -/
  inside : startNative host request cells.1 ≠ .fault
  /-- The C runtime finds the arguments of a process that is created. -/
  created : ∀ executable line directory,
    startNative host request cells.1 = .created executable line directory →
    ∃ conversion : Conversion host request, conversion.executable = executable ∧
      line.used < wideCap ∧
      (34 ∉ executable.units → ∀ doubled,
        (crtArgv doubled (Arena.text 0 line.cells 0)).tail =
          conversion.arguments.map WideString.units)
  /-- A command line that fits is given to the process. -/
  fitting : ∀ conversion : Conversion host request, Checked host request →
    host.hasSession = true →
    (lineForm conversion.executable conversion.arguments).length < wideCap →
    ∃ line directory,
      startNative host request cells.1 = .created conversion.executable line directory
  /-- Nothing is created for one that does not fit. -/
  exceeding : ∀ conversion : Conversion host request,
    wideCap ≤ (lineForm conversion.executable conversion.arguments).length →
    ∃ failed, startNative host request cells.1 = .failed failed

/-- A started process finds its arguments, and what does not fit is not started. -/
theorem commandLineStarted (host : NativeHost) (request : NativeRequest) (cells : CommandCells) :
    CommandLineStarted host request cells := by
  by_cases hready : Checked host request ∧ Nonempty (Conversion host request)
  swap
  · obtain ⟨failed, hfailed⟩ := startNative_refused request cells hready
    constructor
    · rw [hfailed]
      exact NativeStart.noConfusion
    · intro executable line directory hcreated
      rw [hfailed] at hcreated
      cases hcreated
    · exact fun conversion hchecked => absurd ⟨hchecked, ⟨conversion⟩⟩ hready
    · exact fun _ _ => ⟨failed, hfailed⟩
  obtain ⟨hchecked, ⟨conversion⟩⟩ := hready
  have hstart := startNative_converted request cells conversion hchecked
  constructor
  · split at hstart
    · obtain ⟨line, -, -, hline⟩ := hstart
      rw [hline]
      cases host.hasSession <;> exact NativeStart.noConfusion
    · rw [hstart]
      exact NativeStart.noConfusion
  · intro executable line directory hcreated
    split at hstart
    swap
    · rw [hstart] at hcreated
      cases hcreated
    obtain ⟨built, hbuilt, hclosed, hline⟩ := hstart
    rw [hline] at hcreated
    split at hcreated
    swap
    · cases hcreated
    obtain ⟨rfl, rfl, rfl⟩ := NativeStart.created.inj hcreated
    refine ⟨conversion, rfl, hbuilt.used_lt, fun hplain doubled => ?_⟩
    rw [CommandLine.text_eq hbuilt hclosed (notMem_lineForm _ _)]
    exact crtArguments_commandForm hplain _
  · intro other hchecked hsession hfits
    have hother := startNative_converted request cells other hchecked
    rw [if_pos hfits] at hother
    obtain ⟨line, -, -, hline⟩ := hother
    rw [hline, if_pos hsession]
    exact ⟨line, _, rfl⟩
  · intro other hexceeds
    have hother := startNative_converted request cells other hchecked
    rw [if_neg (Nat.not_lt.mpr hexceeds)] at hother
    exact ⟨oversized, hother⟩

end Starting

end Praktor.Process
