/-
# The lines that the driver of a process hands over

The bytes of an output are handed over line by line as they are captured, in whatever chunks
they come, and what is left of a line at the end is handed over when the driver is done.  The
lines of a stream are then the lines of what was captured of it.

A callback that refuses a line stops the driver, but not what is already under way: a
completion of the same round, or the other stream's remainder, may still be handed over.
-/

import Praktor.Process.DriverIO
import Praktor.Math.Splitting

namespace Praktor.Process

open Praktor.Data Praktor.Math

/-! ## What is handed over -/

/-- A line that the callback refused. -/
def DriverEvent.isRefused : DriverEvent → Bool
  | .emitted _ _ code => decide (code ≠ .ok)
  | _ => false

/-- The lines handed over of an output. -/
def emittedOn (index : Fin 2) (log : List DriverEvent) : List Bytes :=
  log.filterMap fun
    | .emitted other line _ => if other = index then some line else none
    | _ => none

/-- A text without its carriage returns. -/
def withoutReturns (bytes : Bytes) : Bytes := bytes.filter fun byte => decide (byte ≠ 13)

/-- An event that makes the driver hand over a line: a completion before closing whose captured
bytes end a line, or a remainder that is not empty. -/
def Loud (before : List DriverEvent) : DriverEvent → Prop
  | .completed event room =>
      .closing ∉ before ∧ (∃ index, event.stream = some (outputStream index)) ∧ event.kind = .ok ∧
        event.data.length ≤ 4096 ∧ 10 ∈ event.data.take room
  | .flushing _ line => line ≠ []
  | _ => False

/-- A line was refused. -/
def Refused (log : List DriverEvent) : Prop := ∃ event ∈ log, event.isRefused = true

/-- No line is handed over after one that was refused. -/
def Silenced (log : List DriverEvent) : Prop :=
  Justified (fun before event => Refused before → event.isEmitted = false) log

/-- Nothing that makes the driver hand over a line comes after one that was refused. -/
def Muted (log : List DriverEvent) : Prop :=
  Justified (fun before event => Refused before → ¬ Loud before event) log

section Logs

variable {log tail : List DriverEvent} {cause : DriverEvent}

theorem emittedOn_append (index : Fin 2) (log tail : List DriverEvent) :
    emittedOn index (log ++ tail) = emittedOn index log ++ emittedOn index tail :=
  List.filterMap_append

theorem Refused.append (hrefused : Refused log) (tail : List DriverEvent) :
    Refused (log ++ tail) := by
  obtain ⟨event, hevent, hcode⟩ := hrefused
  exact ⟨event, List.mem_append_left _ hevent, hcode⟩

theorem refused_append : Refused (log ++ tail) ↔ Refused log ∨ Refused tail := by
  constructor
  · rintro ⟨event, hevent, hcode⟩
    rcases List.mem_append.mp hevent with hevent | hevent
    · exact .inl ⟨event, hevent, hcode⟩
    · exact .inr ⟨event, hevent, hcode⟩
  · rintro (hrefused | ⟨event, hevent, hcode⟩)
    · exact hrefused.append tail
    · exact ⟨event, List.mem_append_right _ hevent, hcode⟩

theorem isEmitted_of_isRefused {event : DriverEvent} (hrefused : event.isRefused = true) :
    event.isEmitted = true := by
  cases event <;> simp [DriverEvent.isRefused, DriverEvent.isEmitted] at hrefused ⊢

/-- What follows an event: the lines that it makes the driver hand over, of which only the last
may be refused, and failures. -/
structure Group (log : List DriverEvent) (cause : DriverEvent) (rest : List DriverEvent) : Prop where
  mute : cause.isEmitted = false
  calm : ∀ event ∈ rest, ∀ before, ¬ Loud before event
  last : Silenced rest
  loud : (∃ event ∈ rest, event.isEmitted = true) ↔ Loud log cause

/-- A log of events, each with what it makes the driver hand over. -/
inductive Grouped : List DriverEvent → Prop
  | nil : Grouped []
  | group {log cause rest} : Grouped log → Group log cause rest → Grouped (log ++ cause :: rest)

/-- After a line was refused the driver hands over another just where an event makes it. -/
theorem Grouped.silenced_iff (hgrouped : Grouped log) : Silenced log ↔ Muted log := by
  induction hgrouped with
  | nil => exact ⟨fun _ => justified_nil, fun _ => justified_nil⟩
  | @group log cause rest hgrouped hgroup ih =>
      by_cases hrefused : Refused log
      · constructor
        · intro hsilenced
          have hquiet : ∀ event ∈ rest, event.isEmitted = false := by
            intro event hevent
            obtain ⟨before, after, rfl⟩ := List.append_of_mem hevent
            exact hsilenced (log ++ cause :: before) event after (by simp) (hrefused.append _)
          refine (ih.mp hsilenced.init).extend fun before event after hsplit _ => ?_
          cases before with
          | nil =>
              obtain ⟨rfl, -⟩ := List.cons.inj hsplit
              rw [List.append_nil]
              intro hloud
              obtain ⟨later, hlater, hemitted⟩ := hgroup.loud.mpr hloud
              simp [hquiet later hlater] at hemitted
          | cons first before =>
              obtain ⟨-, hrest⟩ := List.cons.inj hsplit
              exact hgroup.calm event (by simp [hrest]) _
        · intro hmuted
          have hcause : ¬ Loud log cause := hmuted log cause rest rfl hrefused
          refine (ih.mpr hmuted.init).extend fun before event after hsplit _ => ?_
          cases before with
          | nil =>
              obtain ⟨rfl, -⟩ := List.cons.inj hsplit
              exact hgroup.mute
          | cons first before =>
              obtain ⟨-, hrest⟩ := List.cons.inj hsplit
              refine (Bool.not_eq_true _).mp fun hemitted => hcause (hgroup.loud.mp ?_)
              exact ⟨event, by simp [hrest], hemitted⟩
      · -- the first line to be refused is the last of its group
        have hnone : ∀ event ∈ log, event.isRefused = false := by
          intro event hevent
          exact (Bool.not_eq_true _).mp fun hcode => hrefused ⟨event, hevent, hcode⟩
        have hclean : ∀ justifies : List DriverEvent → DriverEvent → Prop,
            Justified (fun before event => Refused before → justifies before event) log := by
          rintro justifies before event after rfl ⟨prior, hprior, hcode⟩
          exact absurd hcode (by simp [hnone prior (by simp [hprior])])
        have hcause : ∀ before, ¬ Refused (log ++ cause :: before) ∨ Refused before := by
          intro before
          by_cases hbefore : Refused before
          · exact .inr hbefore
          · refine .inl fun hall => ?_
            rcases refused_append.mp hall with hlog | ⟨event, hevent, hcode⟩
            · exact hrefused hlog
            · rcases List.mem_cons.mp hevent with rfl | hevent
              · exact absurd (isEmitted_of_isRefused hcode) (by simp [hgroup.mute])
              · exact hbefore ⟨event, hevent, hcode⟩
        have hsilenced : Silenced (log ++ cause :: rest) := by
          refine (hclean _).extend fun before event after hsplit hall => ?_
          cases before with
          | nil => exact absurd (by simpa using hall) hrefused
          | cons first before =>
              obtain ⟨rfl, hrest⟩ := List.cons.inj hsplit
              have hbefore := (hcause before).resolve_left (not_not.mpr hall)
              exact hgroup.last before event after hrest hbefore
        have hmuted : Muted (log ++ cause :: rest) := by
          refine (hclean _).extend fun before event after hsplit hall => ?_
          cases before with
          | nil => exact absurd (by simpa using hall) hrefused
          | cons first before =>
              obtain ⟨-, hrest⟩ := List.cons.inj hsplit
              exact hgroup.calm event (by simp [hrest]) _
        exact ⟨fun _ => hmuted, fun _ => hsilenced⟩

/-- An event by which nothing is handed over. -/
theorem Group.alone (hcause : cause.isEmitted = false) (hmute : ¬ Loud log cause) :
    Group log cause [] :=
  ⟨hcause, by simp, justified_nil, by simpa using hmute⟩

end Logs

/-! ## Handing over the bytes of a read -/

section Emission

variable {callback : List DriverEvent → Bytes → Salts} {peerClosed : Int → Bool}
  {driver before after : DriverState} {index : Fin 2} {bytes : Bytes}

/-- An event by which a line is handed over, or a callback's refusal noted. -/
def DriverEvent.isHandover (index : Fin 2) : DriverEvent → Bool
  | .emitted other _ _ => decide (other = index)
  | .failure operation => decide (operation = "stream callback")
  | _ => false

/-- What handing over the bytes of a read does. -/
structure Emission (index : Fin 2) (bytes : Bytes) (before after : DriverState)
    (tail : List DriverEvent) : Prop where
  log : after.log = before.log ++ tail
  handover : ∀ event ∈ tail, event.isHandover index = true
  last : Silenced tail
  loud : (∃ event ∈ tail, event.isEmitted = true) ↔ 10 ∈ bytes
  fits : (after.line index).length ≤ (before.line index).length + bytes.length
  others : ∀ other, other ≠ index → after.line other = before.line other
  refused : Refused tail → after.failed = true
  cut : after.failed = false → ∀ text lines, Cut 10 text lines (before.line index) →
    Cut 10 (text ++ withoutReturns bytes) (lines ++ emittedOn index tail) (after.line index)

/-- A byte that is handed over with nothing being logged. -/
theorem Emission.cons {byte : UInt8} {rest : Bytes} {next : DriverState}
    {tail : List DriverEvent} (hrest : Emission index rest next after tail)
    (hlog : next.log = before.log) (hbyte : byte ≠ 10)
    (hfits : (next.line index).length ≤ (before.line index).length + 1)
    (hothers : ∀ other, other ≠ index → next.line other = before.line other)
    (hcut : ∀ text lines, Cut 10 text lines (before.line index) →
      Cut 10 (text ++ withoutReturns [byte]) lines (next.line index)) :
    Emission index (byte :: rest) before after tail := by
  refine ⟨by rw [hrest.log, hlog], hrest.handover, hrest.last, ?_, ?_, fun other hother => ?_,
    hrest.refused, fun hfailed text lines hbefore => ?_⟩
  · rw [hrest.loud, List.mem_cons]
    exact (or_iff_right (Ne.symm hbyte)).symm
  · have hbound := hrest.fits
    rw [List.length_cons]
    omega
  · rw [hrest.others other hother, hothers other hother]
  · have hnext := hrest.cut hfailed _ _ (hcut text lines hbefore)
    rwa [List.append_assoc, withoutReturns, withoutReturns, ← List.filter_append] at hnext

/-- A line that the callback takes. -/
theorem Emission.ended {line : Bytes} {rest : Bytes} {next : DriverState}
    {tail : List DriverEvent} (hrest : Emission index rest next after tail)
    (hline : before.line index = line)
    (hlog : next.log = before.log ++ [.emitted index line .ok])
    (hnext : next.line index = [])
    (hothers : ∀ other, other ≠ index → next.line other = before.line other) :
    Emission index (10 :: rest) before after (.emitted index line .ok :: tail) := by
  refine ⟨by rw [hrest.log, hlog, List.append_assoc, List.singleton_append], ?_, ?_, ?_, ?_,
    fun other hother => ?_, ?_, fun hfailed text lines hbefore => ?_⟩
  · intro event hevent
    rcases List.mem_cons.mp hevent with rfl | hevent
    · simp [DriverEvent.isHandover]
    · exact hrest.handover event hevent
  · intro earlier event later hsplit hrefused
    cases earlier with
    | nil =>
        obtain ⟨prior, hprior, -⟩ := hrefused
        cases hprior
    | cons first earlier =>
        obtain ⟨rfl, htail⟩ := List.cons.inj hsplit
        apply hrest.last earlier event later htail
        obtain ⟨prior, hprior, hcode⟩ := hrefused
        rcases List.mem_cons.mp hprior with rfl | hprior
        · simp [DriverEvent.isRefused] at hcode
        · exact ⟨prior, hprior, hcode⟩
  · exact ⟨fun _ => List.mem_cons_self, fun _ => ⟨_, List.mem_cons_self, rfl⟩⟩
  · have hbound := hrest.fits
    rw [hnext] at hbound
    rw [List.length_cons]
    simp only [List.length_nil, Nat.zero_add] at hbound
    omega
  · rw [hrest.others other hother, hothers other hother]
  · rintro ⟨prior, hprior, hcode⟩
    rcases List.mem_cons.mp hprior with rfl | hprior
    · simp [DriverEvent.isRefused] at hcode
    · exact hrest.refused ⟨prior, hprior, hcode⟩
  · rw [hline] at hbefore
    have hended := hbefore.ended
    have hthen := hrest.cut hfailed _ _ (by rw [hnext]; exact hended)
    have hsame : text ++ withoutReturns (10 :: rest) = text ++ [10] ++ withoutReturns rest := by
      simp [withoutReturns]
    have hemitted : emittedOn index (.emitted index line .ok :: tail) =
        line :: emittedOn index tail := by
      simp [emittedOn]
    have hlines : lines ++ line :: emittedOn index tail =
        lines ++ [line] ++ emittedOn index tail := by
      simp
    rw [hsame, hemitted, hlines]
    exact hthen

variable (callback) in
/-- The bytes of a read are handed over line by line, and the line never outgrows its buffer. -/
theorem emitBytes_emission (index : Fin 2) (bytes : Bytes) :
    ∀ driver : DriverState, (driver.line index).length + bytes.length ≤ driver.capacity →
      ∃ tail, Emission index bytes driver (emitBytes callback index bytes driver) tail := by
  induction bytes with
  | nil =>
      intro driver _
      refine ⟨[], by simp [emitBytes], by simp, justified_nil, by simp, by simp [emitBytes],
        fun _ _ => rfl, fun hrefused => ?_, fun _ text lines hcut => ?_⟩
      · obtain ⟨event, hevent, -⟩ := hrefused
        cases hevent
      · simpa [withoutReturns, emittedOn, emitBytes] using hcut
  | cons byte rest ih =>
      intro driver hroom
      rw [List.length_cons] at hroom
      rw [emitBytes]
      split
      · rename_i hreturn
        subst hreturn
        obtain ⟨tail, htail⟩ := ih driver (by omega)
        refine ⟨tail, htail.cons rfl (by decide) (Nat.le_succ _) (fun _ _ => rfl) ?_⟩
        intro text lines hcut
        simpa [withoutReturns] using hcut
      split
      · rename_i hfeed
        subst hfeed
        dsimp only
        split
        · rename_i hcode
          refine ⟨[.emitted index (driver.line index) (callback driver.log (driver.line index)),
            .failure "stream callback"], ?_⟩
          refine ⟨by simp [DriverState.fail, DriverState.saw], by simp [DriverEvent.isHandover], ?_,
            by simp [DriverEvent.isEmitted], ?_, fun _ _ => rfl, fun _ => rfl, fun hfailed => ?_⟩
          · exact (justified_nil.snoc (by simp [Refused])).snoc fun _ => rfl
          · exact Nat.le_add_right _ _
          · cases hfailed
        · rename_i hcode
          have hok : callback driver.log (driver.line index) = .ok := not_not.mp hcode
          rw [hok]
          generalize hnext : ({ driver.saw (.emitted index (driver.line index) .ok) with
            line := Function.update (driver.saw (.emitted index (driver.line index) .ok)).line
              index [] } : DriverState) = next
          have hline : next.line = Function.update driver.line index [] := by
            rw [← hnext]
            rfl
          have hempty : next.line index = [] := by rw [hline, Function.update_self]
          have hcapacity : next.capacity = driver.capacity := by
            rw [← hnext]
            rfl
          obtain ⟨tail, htail⟩ := ih next (by rw [hempty, hcapacity, List.length_nil]; omega)
          refine ⟨_, htail.ended rfl ?_ hempty fun other hother => ?_⟩
          · rw [← hnext]
            rfl
          · rw [hline, Function.update_of_ne hother]
      split
      · rename_i hfull
        omega
      · rename_i hreturn hfeed hspace
        obtain ⟨tail, htail⟩ := ih
          { driver with
            line := Function.update driver.line index (driver.line index ++ [byte]) }
          (by simp; omega)
        refine ⟨tail, htail.cons rfl hfeed (by simp) (fun other hother => ?_) ?_⟩
        · exact Function.update_of_ne hother _ _
        · intro text lines hcut
          have hpushed := hcut.push hfeed
          simpa [withoutReturns, hreturn] using hpushed

/-! ### What is left of a line -/

/-- What handing over the rest of a line does. -/
structure Flushed (index : Fin 2) (before after : DriverState) (tail : List DriverEvent) :
    Prop where
  log : after.log = before.log ++ .flushing index (before.line index) :: tail
  handover : ∀ event ∈ tail, event.isHandover index = true
  last : Silenced tail
  loud : (∃ event ∈ tail, event.isEmitted = true) ↔ before.line index ≠ []
  line : after.line = Function.update before.line index []
  refused : Refused tail → after.failed = true
  emitted : emittedOn index tail = if before.line index = [] then [] else [before.line index]

variable (callback) in
theorem flush_flushed (index : Fin 2) (driver : DriverState) :
    ∃ tail, Flushed index driver (flush callback index driver) tail := by
  unfold flush
  dsimp only
  split
  · rename_i hempty
    refine ⟨[], rfl, by simp, justified_nil, by simp [hempty], rfl, fun hrefused => ?_,
      by simp [hempty, emittedOn]⟩
    obtain ⟨event, hevent, -⟩ := hrefused
    cases hevent
  rename_i hline
  generalize callback (driver.saw (.flushing index (driver.line index))).log (driver.line index) =
    code
  split
  · refine ⟨[.emitted index (driver.line index) code, .failure "stream callback"],
      by simp [DriverState.fail, DriverState.saw], by simp [DriverEvent.isHandover], ?_,
      by simp [DriverEvent.isEmitted, hline], rfl, fun _ => rfl, by simp [hline, emittedOn]⟩
    exact (justified_nil.snoc (by simp [Refused])).snoc fun _ => rfl
  · rename_i hcode
    have hok : code = .ok := not_not.mp hcode
    subst hok
    refine ⟨[.emitted index (driver.line index) .ok], by simp [DriverState.saw],
      by simp [DriverEvent.isHandover], ?_, by simp [DriverEvent.isEmitted, hline], rfl,
      fun hrefused => ?_, by simp [hline, emittedOn]⟩
    · exact justified_nil.snoc (by simp [Refused])
    · simp [Refused, DriverEvent.isRefused] at hrefused

/-! ## The invariant -/

/-- What holds of the lines of a driver that has a callback. -/
structure LinesSound (driver : DriverState) : Prop where
  emits : driver.emits = !driver.closing
  fits : ∀ index, (driver.line index).length ≤ (driver.output index).length
  roomy : .failure "stream line capacity" ∉ driver.log
  grouped : Grouped driver.log
  refused : Refused driver.log → driver.failed = true
  stopped : Justified
    (fun before event => (∃ stream, event.isAccepted stream = true) → ¬ Refused before) driver.log

/-- What was handed over is the lines of what was captured, with the last line once the driver
is done. -/
structure TextSound (driver : DriverState) : Prop where
  cut : driver.failed = false → driver.done = false → ∀ index,
    Cut 10 (withoutReturns (driver.output index)) (emittedOn index driver.log) (driver.line index)
  settled : driver.failed = false → driver.done = true → ∀ index,
    emittedOn index driver.log = splitLines [10] (withoutReturns (driver.output index))

/-- What holds of the lines and of what was handed over. -/
structure HandedOver (driver : DriverState) : Prop extends LinesSound driver, TextSound driver

/-- The lines and the outputs are as they were. -/
structure SameLines (before after : DriverState) : Prop where
  line : after.line = before.line
  output : after.output = before.output
  done : after.done = before.done
  failed : before.failed = true → after.failed = true

theorem SameLines.open (hsame : SameLines before after) (hfailed : after.failed = false) :
    before.failed = false :=
  (Bool.not_eq_true _).mp fun hbefore => by simp [hsame.failed hbefore] at hfailed

/-- Nothing was logged. -/
theorem LinesSound.same (hlines : LinesSound before) (hsame : SameLines before after)
    (hlog : after.log = before.log) (hemits : after.emits = !after.closing) :
    LinesSound after := by
  refine ⟨hemits, ?_, ?_, ?_, ?_, ?_⟩
  · rw [hsame.line, hsame.output]
    exact hlines.fits
  · rw [hlog]
    exact hlines.roomy
  · rw [hlog]
    exact hlines.grouped
  · rw [hlog]
    exact fun hrefused => hsame.failed (hlines.refused hrefused)
  · rw [hlog]
    exact hlines.stopped

theorem TextSound.same (htext : TextSound before) (hsame : SameLines before after)
    (hemitted : ∀ index, emittedOn index after.log = emittedOn index before.log) :
    TextSound after := by
  refine ⟨fun hfailed hdone index => ?_, fun hfailed hdone index => ?_⟩
  · rw [hsame.output, hsame.line, hemitted]
    exact htext.cut (hsame.open hfailed) (hsame.done ▸ hdone) index
  · rw [hsame.output, hemitted]
    exact htext.settled (hsame.open hfailed) (hsame.done ▸ hdone) index

/-- One event was logged by which nothing is handed over. -/
theorem LinesSound.snoc (hlines : LinesSound before) (hsame : SameLines before after)
    {event : DriverEvent} (hlog : after.log = before.log ++ [event])
    (hemits : after.emits = !after.closing) (hemitted : event.isEmitted = false)
    (hloud : ¬ Loud before.log event) (hcapacity : event ≠ .failure "stream line capacity")
    (haccepted : (∃ stream, event.isAccepted stream = true) → ¬ Refused before.log) :
    LinesSound after := by
  refine ⟨hemits, ?_, ?_, ?_, ?_, ?_⟩
  · rw [hsame.line, hsame.output]
    exact hlines.fits
  · rw [hlog, List.mem_append, List.mem_singleton, not_or]
    exact ⟨hlines.roomy, Ne.symm hcapacity⟩
  · rw [hlog]
    exact hlines.grouped.group (.alone hemitted hloud)
  · rw [hlog, refused_append]
    rintro (hrefused | ⟨last, hlast, hcode⟩)
    · exact hsame.failed (hlines.refused hrefused)
    · obtain rfl := List.mem_singleton.mp hlast
      exact absurd (isEmitted_of_isRefused hcode) (by simp [hemitted])
  · rw [hlog]
    exact hlines.stopped.snoc haccepted

theorem emittedOn_snoc (index : Fin 2) (log : List DriverEvent) {event : DriverEvent}
    (hemitted : event.isEmitted = false) : emittedOn index (log ++ [event]) = emittedOn index log := by
  rw [emittedOn_append]
  cases event <;> simp [emittedOn, DriverEvent.isEmitted] at hemitted ⊢

theorem TextSound.snoc (htext : TextSound before) (hsame : SameLines before after)
    {event : DriverEvent} (hlog : after.log = before.log ++ [event])
    (hemitted : event.isEmitted = false) : TextSound after :=
  htext.same hsame fun index => by rw [hlog, emittedOn_snoc index _ hemitted]

namespace HandedOver

theorem same (hhanded : HandedOver before) (hsame : SameLines before after)
    (hlog : after.log = before.log) (hemits : after.emits = !after.closing) : HandedOver after :=
  ⟨hhanded.toLinesSound.same hsame hlog hemits,
    hhanded.toTextSound.same hsame fun index => by rw [hlog]⟩

theorem snoc (hhanded : HandedOver before) (hsame : SameLines before after) {event : DriverEvent}
    (hlog : after.log = before.log ++ [event]) (hemits : after.emits = !after.closing)
    (hemitted : event.isEmitted = false) (hloud : ¬ Loud before.log event)
    (hcapacity : event ≠ .failure "stream line capacity")
    (haccepted : (∃ stream, event.isAccepted stream = true) → ¬ Refused before.log) :
    HandedOver after :=
  ⟨hhanded.toLinesSound.snoc hsame hlog hemits hemitted hloud hcapacity haccepted,
    hhanded.toTextSound.snoc hsame hlog hemitted⟩

theorem fail (hhanded : HandedOver driver) (operation : String) (status : FailureStatus)
    (hoperation : operation ≠ "stream line capacity") :
    HandedOver (driver.fail operation status) := by
  refine hhanded.snoc ⟨rfl, rfl, rfl, fun _ => rfl⟩ rfl hhanded.emits rfl id ?_ ?_
  · simpa using hoperation
  · rintro ⟨stream, haccepted⟩
    cases haccepted

end HandedOver

theorem not_refused_snoc {log : List DriverEvent} {event : DriverEvent} (hnone : ¬ Refused log)
    (hemitted : event.isEmitted = false) : ¬ Refused (log ++ [event]) := by
  rw [refused_append]
  rintro (hrefused | ⟨last, hlast, hcode⟩)
  · exact hnone hrefused
  · obtain rfl := List.mem_singleton.mp hlast
    exact absurd (isEmitted_of_isRefused hcode) (by simp [hemitted])

/-! ### Submissions -/

theorem submitRead_lines (status : SubmitStatus) (index : Fin 2) (hhanded : HandedOver driver)
    (hnone : ¬ Refused driver.log) :
    HandedOver (submitRead status index driver) ∧ ¬ Refused (submitRead status index driver).log := by
  unfold submitRead
  split
  · exact ⟨hhanded, hnone⟩
  cases status with
  | accepted =>
      refine ⟨hhanded.snoc ⟨rfl, rfl, rfl, id⟩ rfl hhanded.emits rfl id (by simp) fun _ => hnone, ?_⟩
      exact not_refused_snoc hnone rfl
  | full => exact ⟨hhanded, hnone⟩
  | leaseInUse => exact ⟨hhanded, hnone⟩
  | refused code =>
      exact ⟨hhanded.fail _ _ (by decide), not_refused_snoc hnone rfl⟩

theorem submitInput_lines (write : SubmitStatus) (closeStdin : Salts) (hhanded : HandedOver driver)
    (hnone : ¬ Refused driver.log) :
    HandedOver (submitInput write closeStdin driver) ∧
      ¬ Refused (submitInput write closeStdin driver).log := by
  unfold submitInput
  split
  · exact ⟨hhanded, hnone⟩
  split
  · dsimp only
    have hfilled : ∀ chunk, HandedOver { driver with inputBuffer := chunk } := fun chunk =>
      hhanded.same ⟨rfl, rfl, rfl, id⟩ rfl hhanded.emits
    cases write with
    | accepted =>
        refine ⟨hhanded.snoc ⟨rfl, rfl, rfl, id⟩ rfl hhanded.emits rfl id (by simp) fun _ => hnone, ?_⟩
        exact not_refused_snoc hnone rfl
    | full => exact ⟨hfilled _, hnone⟩
    | leaseInUse => exact ⟨(hfilled _).fail _ _ (by decide), not_refused_snoc hnone rfl⟩
    | refused code => exact ⟨(hfilled _).fail _ _ (by decide), not_refused_snoc hnone rfl⟩
  split
  · exact ⟨hhanded.same ⟨rfl, rfl, rfl, id⟩ rfl hhanded.emits, hnone⟩
  split
  · exact ⟨hhanded.fail _ _ (by decide), not_refused_snoc hnone rfl⟩
  · exact ⟨hhanded, hnone⟩

/-! ### Completions -/

variable {event : Completion}

/-- A completion by which nothing is handed over. -/
theorem HandedOver.completed (hhanded : HandedOver before)
    (hsame : SameLines before after)
    (hlog : after.log = before.log ++ [.completed event before.room])
    (hemits : after.emits = !after.closing)
    (hloud : ¬ Loud before.log (.completed event before.room)) : HandedOver after := by
  refine hhanded.snoc hsame hlog hemits rfl hloud (by simp) ?_
  rintro ⟨stream, haccepted⟩
  cases haccepted

theorem inputCompleted_lines (hhanded : HandedOver driver) (event : Completion) :
    HandedOver (inputCompleted peerClosed driver event) := by
  unfold inputCompleted
  cases event.kind with
  | ok =>
      dsimp only
      split
      · exact hhanded.fail _ _ (by decide)
      · exact hhanded.same ⟨rfl, rfl, rfl, id⟩ rfl hhanded.emits
  | eof => exact hhanded.same ⟨rfl, rfl, rfl, id⟩ rfl hhanded.emits
  | failed =>
      dsimp only
      split
      · exact hhanded.same ⟨rfl, rfl, rfl, id⟩ rfl hhanded.emits
      · exact hhanded.fail _ _ (by decide)
  | other => exact hhanded.fail _ _ (by decide)

theorem not_loud_handover {last : DriverEvent} (hhandover : last.isHandover index = true)
    (before : List DriverEvent) : ¬ Loud before last := by
  cases last <;> simp [DriverEvent.isHandover, Loud] at hhandover ⊢

theorem emittedOn_handover {tail : List DriverEvent} {other : Fin 2} (hother : other ≠ index)
    (hhandover : ∀ event ∈ tail, event.isHandover index = true) : emittedOn other tail = [] := by
  refine List.filterMap_eq_nil_iff.mpr fun last hlast => ?_
  have hlast := hhandover last hlast
  cases last with
  | emitted stream line code =>
      obtain rfl := of_decide_eq_true hlast
      exact if_neg (Ne.symm hother)
  | _ => rfl

theorem emittedOn_silent {tail : List DriverEvent}
    (hnone : ¬ ∃ event ∈ tail, event.isEmitted = true) (index : Fin 2) :
    emittedOn index tail = [] := by
  refine List.filterMap_eq_nil_iff.mpr fun last hlast => ?_
  cases last with
  | emitted stream line code => exact absurd ⟨_, hlast, rfl⟩ hnone
  | _ => rfl

/-- What is captured of a read is handed over. -/
theorem HandedOver.captured (hhanded : HandedOver driver) (hrun : RunSound peerClosed driver)
    (hopen : driver.closing = false) (hstream : event.stream = some (outputStream index))
    (hkind : event.kind = .ok) (hfits : event.data.length ≤ 4096)
    (hpending : driver.pending index = true) {accepted : Bytes}
    (haccepted : accepted = event.data.take (min event.data.length driver.room))
    {captured emitted : DriverState} {tail : List DriverEvent}
    (hlog : captured.log = driver.log ++ [.completed event driver.room])
    (hline : captured.line = driver.line)
    (houtput : captured.output =
      Function.update driver.output index (driver.output index ++ accepted))
    (hmarks : captured.done = driver.done ∧ captured.failed = driver.failed ∧
      captured.closing = driver.closing ∧ captured.emits = driver.emits)
    (hemission : Emission index accepted captured emitted tail)
    (hremarked : Remarked captured emitted) : HandedOver emitted := by
  obtain ⟨hdone, hfailed, hclosing, hemits⟩ := hmarks
  have hemittedLog : emitted.log = driver.log ++ .completed event driver.room :: tail := by
    rw [hemission.log, hlog, List.append_assoc, List.singleton_append]
  have hemittedOutput : emitted.output =
      Function.update driver.output index (driver.output index ++ accepted) :=
    hremarked.output.trans houtput
  have hfailedBefore : emitted.failed = false → driver.failed = false := fun hnone =>
    (Bool.not_eq_true _).mp fun hbefore => by simp [hremarked.failed (hfailed.trans hbefore)] at hnone
  have hotherLine : ∀ other, other ≠ index → emitted.line other = driver.line other :=
    fun other hother => by rw [hemission.others other hother, hline]
  have hloud : (∃ last ∈ tail, last.isEmitted = true) ↔
      Loud driver.log (.completed event driver.room) := by
    have hnotMem : .closing ∉ driver.log := fun hmem => by
      simp [hrun.sound.streams.closing.mpr hmem] at hopen
    have htake : accepted = event.data.take driver.room := by
      rw [haccepted, Nat.min_comm, ← List.take_eq_take_min]
    rw [hemission.loud, htake]
    exact ⟨fun hmem => ⟨hnotMem, ⟨index, hstream⟩, hkind, hfits, hmem⟩, fun hloud => hloud.2.2.2.2⟩
  refine ⟨⟨?_, fun other => ?_, ?_, ?_, ?_, ?_⟩, ⟨fun hnone hrunning other => ?_,
    fun hnone hover other => ?_⟩⟩
  · rw [hremarked.emits, hremarked.closing, hemits, hclosing]
    exact hhanded.emits
  · rw [hemittedOutput]
    by_cases hother : other = index
    · subst hother
      have hbound := hemission.fits
      have hbefore := hhanded.fits other
      rw [hline] at hbound
      rw [Function.update_self, List.length_append]
      omega
    · rw [hotherLine other hother, Function.update_of_ne hother]
      exact hhanded.fits other
  · rw [hemittedLog]
    intro hmem
    rcases List.mem_append.mp hmem with hmem | hmem
    · exact hhanded.roomy hmem
    · rcases List.mem_cons.mp hmem with hmem | hmem
      · cases hmem
      · simpa [DriverEvent.isHandover] using hemission.handover _ hmem
  · rw [hemittedLog]
    refine hhanded.grouped.group ⟨rfl, fun last hlast => ?_, hemission.last, hloud⟩
    exact not_loud_handover (hemission.handover last hlast)
  · rw [hemittedLog, refused_append]
    rintro (hrefused | ⟨last, hlast, hcode⟩)
    · exact hremarked.failed (hfailed.trans (hhanded.refused hrefused))
    · rcases List.mem_cons.mp hlast with rfl | hlast
      · cases hcode
      · exact hemission.refused ⟨last, hlast, hcode⟩
  · rw [hemittedLog]
    refine hhanded.stopped.append fun last hlast before => ?_
    rintro ⟨stream, hsubmitted⟩
    rcases List.mem_cons.mp hlast with rfl | hlast
    · cases hsubmitted
    · have hhandover := hemission.handover last hlast
      cases last <;> simp [DriverEvent.isHandover, DriverEvent.isAccepted] at hhandover hsubmitted
  · rw [hemittedLog, hemittedOutput, List.append_cons, emittedOn_append,
      emittedOn_snoc other _ rfl]
    have hbefore := hhanded.cut (hfailedBefore hnone)
      ((hdone.symm.trans hremarked.done.symm).trans hrunning) other
    by_cases hother : other = index
    · subst hother
      rw [← hline] at hbefore
      have hthen := hemission.cut hnone _ _ hbefore
      rw [Function.update_self, withoutReturns, List.filter_append]
      exact hthen
    · rw [hotherLine other hother, Function.update_of_ne hother,
        emittedOn_handover hother hemission.handover, List.append_nil]
      exact hbefore
  · have hdoneBefore : driver.done = true := (hdone.symm.trans hremarked.done.symm).trans hover
    have hbefore := hhanded.settled (hfailedBefore hnone) hdoneBefore other
    have hnothing : accepted = [] := by
      rcases hrun.settled hdoneBefore with hany | hlimited | hfinished
      · simp [hfailedBefore hnone] at hany
      · have hfull := (hrun.sound.streams.dropped hlimited).1
        have hroom : driver.room =
          driver.capacity - (driver.output 0).length - (driver.output 1).length := rfl
        have hzero : min event.data.length driver.room = 0 := by omega
        rw [haccepted, hzero, List.take_zero]
      · simp [not_finished_output hpending] at hfinished
    have hsilent : ¬ ∃ last ∈ tail, last.isEmitted = true := by
      rw [hemission.loud, hnothing]
      exact List.not_mem_nil
    rw [hemittedLog, hemittedOutput, List.append_cons, emittedOn_append,
      emittedOn_snoc other _ rfl, emittedOn_silent hsilent, List.append_nil, hnothing,
      List.append_nil, Function.update_eq_self]
    exact hbefore

theorem outputCompleted_lines (hhanded : HandedOver driver) (hrun : RunSound peerClosed driver)
    (hopen : driver.closing = false) (index : Fin 2)
    (hstream : event.stream = some (outputStream index)) (hpending : driver.pending index = true) :
    HandedOver
      (outputCompleted callback index
        { driver.saw (.completed event driver.room) with
          pending := Function.update driver.pending index false } event) := by
  have hcleared : ¬ (event.kind = .ok ∧ event.data.length ≤ 4096) → HandedOver
      { driver.saw (.completed event driver.room) with
        pending := Function.update driver.pending index false } := by
    intro hbad
    refine hhanded.completed ⟨rfl, rfl, rfl, id⟩ rfl hhanded.emits ?_
    rintro ⟨-, -, hkind, hfits, -⟩
    exact hbad ⟨hkind, hfits⟩
  unfold outputCompleted
  cases hkind : event.kind with
  | eof =>
      have hnow := hcleared (by simp [hkind])
      exact hnow.same ⟨rfl, rfl, rfl, id⟩ rfl hnow.emits
  | failed => exact (hcleared (by simp [hkind])).fail _ _ (by decide)
  | other => exact (hcleared (by simp [hkind])).fail _ _ (by decide)
  | ok =>
      dsimp only
      split
      · rename_i hlong
        exact (hcleared fun hall => absurd hall.2 (Nat.not_le.mpr hlong)).fail _ _ (by decide)
      rename_i hfits
      have hfits := Nat.not_lt.mp hfits
      have hemits : driver.emits = true := by
        rw [hhanded.emits, hopen]
        rfl
      generalize haccepted : event.data.take (min event.data.length driver.room) = accepted
      generalize hcaptured : ({ driver.saw (.completed event driver.room) with
          pending := Function.update driver.pending index false
          output := Function.update driver.output index (driver.output index ++ accepted) } :
        DriverState) = captured
      have hbound : (captured.line index).length + accepted.length ≤ captured.capacity := by
        have hline := hhanded.fits index
        have hroom := hrun.sound.streams.room
        have hlength : accepted.length ≤ driver.room := by
          rw [← haccepted, List.length_take]
          omega
        have hleft : driver.room =
          driver.capacity - (driver.output 0).length - (driver.output 1).length := rfl
        have hmore : (driver.output index).length + accepted.length ≤ driver.capacity := by
          match index with
          | 0 => omega
          | 1 => omega
        rw [← hcaptured]
        exact (Nat.add_le_add_right hline _).trans hmore
      obtain ⟨tail, htail⟩ := emitBytes_emission callback index accepted captured hbound
      have hremarked := emitBytes_remarked callback index accepted captured
        (by rw [← hcaptured]; exact hopen)
      have hnow : HandedOver (emitBytes callback index accepted captured) := by
        refine hhanded.captured hrun hopen hstream hkind hfits hpending haccepted.symm ?_ ?_ ?_ ?_
          htail hremarked
        · rw [← hcaptured]
          rfl
        · rw [← hcaptured]
          rfl
        · rw [← hcaptured]
        · rw [← hcaptured]
          exact ⟨rfl, rfl, rfl, rfl⟩
      have hresult : HandedOver
          (if accepted.length ≠ event.data.length then
            { emitBytes callback index accepted captured with
              limited := true
              error := (emitBytes callback index accepted captured).error.or (some .limit) }
          else emitBytes callback index accepted captured) := by
        split
        · exact hnow.same ⟨rfl, rfl, rfl, id⟩ rfl hnow.emits
        · exact hnow
      have hcalled : captured.emits = true := by
        rw [← hcaptured]
        exact hemits
      have hgoal : HandedOver
          (if accepted.length ≠ event.data.length then
            { (if captured.emits then emitBytes callback index accepted captured else captured) with
              limited := true
              error := (if captured.emits then emitBytes callback index accepted captured
                else captured).error.or (some .limit) }
          else if captured.emits then emitBytes callback index accepted captured else captured) := by
        rw [if_pos hcalled]
        exact hresult
      rw [← hcaptured, ← haccepted] at hgoal
      exact hgoal

theorem completion_lines (hhanded : HandedOver driver) (hrun : RunSound peerClosed driver)
    (hprovided : Provided driver.log (.completed event driver.room)) :
    HandedOver (completion callback peerClosed driver event) := by
  obtain ⟨stream, hstream, hpending⟩ := hrun.sound.flight.pending hprovided
  have hclosed : driver.closing = true → ¬ Loud driver.log (.completed event driver.room) :=
    fun hclosing hloud => hloud.1 (hrun.sound.streams.closing.mp hclosing)
  unfold completion
  rw [hstream]
  cases stream with
  | stdin =>
      have hmute : ¬ Loud driver.log (.completed event driver.room) := by
        rintro ⟨-, ⟨index, hother⟩, -⟩
        exact outputStream_ne_stdin index (Option.some.inj (hother.symm.trans hstream))
      have hcleared : HandedOver
          { driver.saw (.completed event driver.room) with inputPending := false } :=
        hhanded.completed ⟨rfl, rfl, rfl, id⟩ rfl hhanded.emits hmute
      dsimp only
      split
      · exact hcleared
      · exact inputCompleted_lines hcleared event
  | stdout =>
      dsimp only
      split
      · rename_i hclosing
        exact hhanded.completed ⟨rfl, rfl, rfl, id⟩ rfl hhanded.emits (hclosed hclosing)
      · rename_i hopen
        exact outputCompleted_lines hhanded hrun ((Bool.not_eq_true _).mp hopen) 0 hstream hpending
  | stderr =>
      dsimp only
      split
      · rename_i hclosing
        exact hhanded.completed ⟨rfl, rfl, rfl, id⟩ rfl hhanded.emits (hclosed hclosing)
      · rename_i hopen
        exact outputCompleted_lines hhanded hrun ((Bool.not_eq_true _).mp hopen) 1 hstream hpending

theorem completion_run (hrun : RunSound peerClosed driver)
    (hprovided : OneCompletion (completion callback peerClosed driver event).log) :
    RunSound peerClosed (completion callback peerClosed driver event) :=
  completions_sound [event] hrun hprovided

variable (callback) in
theorem completions_lines (events : List Completion) (hhanded : HandedOver driver)
    (hrun : RunSound peerClosed driver)
    (hprovided : OneCompletion (completions callback peerClosed driver events).log) :
    HandedOver (completions callback peerClosed driver events) := by
  induction events generalizing driver with
  | nil => exact hhanded
  | cons event rest ih =>
      have hrest := completions_serves callback peerClosed rest
        (completion callback peerClosed driver event)
      have hadvances := completion_advances callback peerClosed
        driver event
      have hnow : OneCompletion (completion callback peerClosed driver event).log :=
        hprovided.of_prefix hrest.log
      refine ih ?_ (completion_run hrun hnow) hprovided
      exact completion_lines hhanded hrun ((hnow.of_prefix hadvances.log) _ _ [] rfl)

/-! ### Ticks -/

theorem pass_lines (replies : PassReplies) (hhanded : HandedOver driver)
    (hrun : RunSound peerClosed driver) (hdone : driver.done = false)
    (hfailed : driver.failed = false)
    (hprovided : OneCompletion (pass callback peerClosed replies driver).log) :
    HandedOver (pass callback peerClosed replies driver) := by
  have hnone : ¬ Refused driver.log := fun hrefused => by simp [hhanded.refused hrefused] at hfailed
  obtain ⟨hfirst, hnoneFirst⟩ := submitRead_lines (replies.read 0) 0 hhanded hnone
  obtain ⟨hsecond, hnoneSecond⟩ := submitRead_lines (replies.read 1) 1 hfirst hnoneFirst
  obtain ⟨hsubmitted, -⟩ := submitInput_lines replies.write replies.closeStdin hsecond hnoneSecond
  have hadvances := ((submitRead_advances (replies.read 0) 0 driver).trans
    (submitRead_advances (replies.read 1) 1 _)).trans
      (submitInput_advances replies.write replies.closeStdin _)
  have hsubmittedRun : RunSound peerClosed (submitInput replies.write replies.closeStdin
      (submitRead (replies.read 1) 1 (submitRead (replies.read 0) 0 driver))) := by
    refine ⟨submitInput_sound _ _ (submitRead_sound _ _ (submitRead_sound _ _ hrun.sound)),
      fun hany => ?_⟩
    simp [hadvances.done, hdone] at hany
  have hdriven := completions_lines callback replies.completions hsubmitted
    hsubmittedRun
  unfold pass at hprovided ⊢
  dsimp only at hprovided ⊢
  generalize completions callback peerClosed _ replies.completions = driven at hdriven hprovided ⊢
  have hready : OneCompletion
      (if replies.ready ≠ .ok then driven.fail "driver" (.salts replies.ready) else driven).log →
      HandedOver
        (if replies.ready ≠ .ok then driven.fail "driver" (.salts replies.ready) else driven) := by
    intro hnow
    split at hnow
    · rename_i hcode
      rw [if_pos hcode]
      exact (hdriven (hnow.of_prefix (Advances.fail _ _ _).log)).fail _ _ (by decide)
    · rename_i hcode
      rw [if_neg hcode]
      exact hdriven hnow
  generalize (if replies.ready ≠ .ok then driven.fail "driver" (.salts replies.ready) else driven) =
    ready at hready hprovided ⊢
  split at hprovided
  · rename_i hpoll
    rw [if_pos hpoll]
    have hnow := hready hprovided
    exact hnow.same ⟨rfl, rfl, rfl, id⟩ rfl hnow.emits
  rename_i hpoll
  rw [if_neg hpoll]
  split at hprovided
  · rename_i hbusy
    rw [if_pos hbusy]
    have hnow := hready (hprovided.of_prefix (List.prefix_append _ _))
    have hpolled : HandedOver { ready with result := replies.result } :=
      hnow.same ⟨rfl, rfl, rfl, id⟩ rfl hnow.emits
    exact hpolled.fail _ _ (by decide)
  · rename_i hbusy
    rw [if_neg hbusy]
    have hnow := hready hprovided
    exact hnow.same ⟨rfl, rfl, rfl, id⟩ rfl hnow.emits

variable (callback) in
theorem passUnlessStopped_lines (replies : PassReplies) (hhanded : HandedOver driver)
    (hrun : RunSound peerClosed driver) (hdone : driver.done = false)
    (hprovided : OneCompletion (passUnlessStopped callback peerClosed replies driver).log) :
    HandedOver (passUnlessStopped callback peerClosed replies driver) := by
  unfold passUnlessStopped at hprovided ⊢
  split
  · exact hhanded
  · rename_i hgoing
    rw [if_neg hgoing] at hprovided
    simp only [Bool.or_eq_true, not_or, Bool.not_eq_true] at hgoing
    exact pass_lines replies hhanded hrun hdone hgoing.1 hprovided

variable (callback) in
/-- The rest of a line is handed over. -/
theorem flush_lines (index : Fin 2) (hlines : LinesSound driver) (hopen : driver.closing = false) :
    LinesSound (flush callback index driver) := by
  obtain ⟨tail, hflushed⟩ := flush_flushed callback index driver
  have hremarked := flush_remarked callback index hopen
  refine ⟨?_, fun other => ?_, ?_, ?_, ?_, ?_⟩
  · rw [hremarked.emits, hremarked.closing]
    exact hlines.emits
  · rw [hremarked.output, hflushed.line]
    by_cases hother : other = index
    · subst hother
      rw [Function.update_self]
      exact Nat.zero_le _
    · rw [Function.update_of_ne hother]
      exact hlines.fits other
  · rw [hflushed.log]
    intro hmem
    rcases List.mem_append.mp hmem with hmem | hmem
    · exact hlines.roomy hmem
    · rcases List.mem_cons.mp hmem with hmem | hmem
      · cases hmem
      · simpa [DriverEvent.isHandover] using hflushed.handover _ hmem
  · rw [hflushed.log]
    refine hlines.grouped.group ⟨rfl, fun last hlast => ?_, hflushed.last, hflushed.loud⟩
    exact not_loud_handover (hflushed.handover last hlast)
  · rw [hflushed.log, refused_append]
    rintro (hrefused | ⟨last, hlast, hcode⟩)
    · exact hremarked.failed (hlines.refused hrefused)
    · rcases List.mem_cons.mp hlast with rfl | hlast
      · cases hcode
      · exact hflushed.refused ⟨last, hlast, hcode⟩
  · rw [hflushed.log]
    refine hlines.stopped.append fun last hlast before => ?_
    rintro ⟨stream, hsubmitted⟩
    rcases List.mem_cons.mp hlast with rfl | hlast
    · cases hsubmitted
    · have hhandover := hflushed.handover last hlast
      cases last <;> simp [DriverEvent.isHandover, DriverEvent.isAccepted] at hhandover hsubmitted

/-- What a flush hands over. -/
theorem flush_emitted (index other : Fin 2) (driver : DriverState) :
    emittedOn other (flush callback index driver).log = emittedOn other driver.log ++
      if other = index ∧ driver.line index ≠ [] then [driver.line index] else [] := by
  obtain ⟨tail, hflushed⟩ := flush_flushed callback index driver
  rw [hflushed.log, List.append_cons, emittedOn_append, emittedOn_snoc other _ rfl]
  by_cases hother : other = index
  · subst hother
    rw [hflushed.emitted]
    by_cases hline : driver.line other = []
    · simp [hline]
    · simp [hline]
  · rw [emittedOn_handover hother hflushed.handover, if_neg fun hall => hother hall.1]

/-- The end of a tick, with what is left of the lines. -/
theorem settle_lines (hhanded : HandedOver driver) (hopen : driver.closing = false)
    (hdone : driver.done = false) : HandedOver (settle callback driver) := by
  have hremarked := settle_remarked callback hopen
  have hmarks : driver.marked.log = driver.log ∧ driver.marked.line = driver.line ∧
      driver.marked.output = driver.output ∧ driver.marked.failed = driver.failed :=
    ⟨rfl, rfl, rfl, rfl⟩
  have hlines : LinesSound driver.marked :=
    ⟨hhanded.emits, hhanded.fits, hhanded.roomy, hhanded.grouped, hhanded.refused, hhanded.stopped⟩
  have hmarkedOpen : driver.marked.closing = false := hopen
  unfold settle at hremarked ⊢
  dsimp only at hremarked ⊢
  generalize driver.marked = marked at hremarked hmarks hlines hmarkedOpen ⊢
  obtain ⟨hlog, hline, houtput, hfailed⟩ := hmarks
  have hcut : marked.failed = false → ∀ index,
      Cut 10 (withoutReturns (marked.output index)) (emittedOn index marked.log)
        (marked.line index) := by
    intro hnone
    rw [hlog, hline, houtput]
    exact hhanded.cut (hfailed.symm.trans hnone) hdone
  have hemits : marked.emits = true := by
    rw [hlines.emits, hmarkedOpen]
    rfl
  split
  · rename_i hcalls
    rw [if_pos hcalls] at hremarked
    simp only [hemits, Bool.and_true, Bool.and_eq_true, Bool.not_eq_true'] at hcalls
    obtain ⟨hover, hnone⟩ := hcalls
    have hfirst := flush_remarked callback 0 hmarkedOpen
    refine ⟨flush_lines _ 1 (flush_lines _ 0 hlines hmarkedOpen) (hfirst.closing.trans hmarkedOpen),
      fun _ hrunning => ?_, fun _ _ index => ?_⟩
    · simp [hremarked.done, hover] at hrunning
    · obtain ⟨tail, hflushed⟩ := flush_flushed callback 0 marked
      have hsecond : (flush callback 0 marked).line 1 = marked.line 1 := by
        rw [hflushed.line]
        exact Function.update_of_ne (by decide) _ _
      rw [hremarked.output, (hcut hnone index).splitLines, flush_emitted, flush_emitted, hsecond]
      match index with
      | 0 =>
          by_cases hempty : marked.line 0 = []
          · simp [hempty]
          · simp [hempty]
      | 1 =>
          by_cases hempty : marked.line 1 = []
          · simp [hempty]
          · simp [hempty]
  · rename_i hcalls
    refine ⟨hlines, fun hnone _ => hcut hnone, fun hnone hover => ?_⟩
    simp [hemits, hnone, hover] at hcalls

variable (callback) in
theorem tick_lines (first second : PassReplies) (hhanded : HandedOver driver)
    (hrun : RunSound peerClosed driver)
    (hprovided :
      OneCompletion (praktorProcessDriverTick callback peerClosed first second driver).2.log) :
    HandedOver (praktorProcessDriverTick callback peerClosed first second driver).2 := by
  unfold praktorProcessDriverTick at hprovided ⊢
  split
  · exact hhanded
  rename_i hattached
  rw [if_neg hattached] at hprovided
  split
  · exact hhanded
  rename_i hopen
  rw [if_neg hopen] at hprovided
  split
  · exact hhanded
  rename_i hdone
  rw [if_neg hdone] at hprovided
  have hdone := (Bool.not_eq_true _).mp hdone
  have hopen := (Bool.not_eq_true _).mp hopen
  dsimp only at hprovided ⊢
  have hfirst := passUnlessStopped_serves callback peerClosed first
    driver
  have hfirstLines := passUnlessStopped_lines callback first hhanded hrun hdone
  generalize passUnlessStopped callback peerClosed first driver = once
    at hfirst hfirstLines hprovided ⊢
  have hsecond := passUnlessStopped_serves callback peerClosed second
    once
  have hsecondLines : HandedOver once → RunSound peerClosed once → OneCompletion
      (passUnlessStopped callback peerClosed second once).log →
      HandedOver (passUnlessStopped callback peerClosed second once) :=
    fun hlines hsound => passUnlessStopped_lines _ second hlines hsound (hfirst.done.trans hdone)
  generalize passUnlessStopped callback peerClosed second once = twice
    at hsecond hsecondLines hprovided ⊢
  have htwiceOpen : twice.closing = false := (hsecond.closing.trans hfirst.closing).trans hopen
  have htwice : OneCompletion twice.log := hprovided.of_prefix (settle_log _ htwiceOpen)
  have honce : OneCompletion once.log := htwice.of_prefix hsecond.log
  have honceRun : RunSound peerClosed once := by
    refine ⟨hfirst.sound honce hrun.sound, fun hany => ?_⟩
    simp [hfirst.done, hdone] at hany
  exact settle_lines (hsecondLines (hfirstLines honce) honceRun htwice) htwiceOpen
    ((hsecond.done.trans hfirst.done).trans hdone)

/-! ### Closing -/

variable (callback) in
theorem shutdown_lines (steps : List ShutdownReplies) (hhanded : HandedOver driver)
    (hrun : RunSound peerClosed driver)
    (hprovided : OneCompletion (shutdown callback peerClosed steps driver).log) :
    HandedOver (shutdown callback peerClosed steps driver) := by
  induction steps generalizing driver with
  | nil => exact hhanded
  | cons replies rest ih =>
      have hdriven := completions_lines callback replies.completions hhanded hrun
      have hdrivenRun : OneCompletion
          (completions callback peerClosed driver replies.completions).log →
          RunSound peerClosed (completions callback peerClosed driver replies.completions) :=
        completions_sound replies.completions hrun
      unfold shutdown at hprovided ⊢
      dsimp only at hprovided ⊢
      generalize completions callback peerClosed driver replies.completions = driven
        at hdriven hdrivenRun hprovided ⊢
      split at hprovided
      · rename_i hstep
        rw [if_pos hstep]
        exact (hdriven (hprovided.of_prefix (Advances.fail _ _ _).log)).fail _ _ (by decide)
      rename_i hstep
      rw [if_neg hstep]
      split at hprovided
      · rename_i hquiescent
        rw [if_pos hquiescent]
        split at hprovided
        · rename_i hdestroy
          rw [if_pos hdestroy]
          exact (hdriven (hprovided.of_prefix (Advances.fail _ _ _).log)).fail _ _ (by decide)
        · rename_i hdestroy
          rw [if_neg hdestroy]
          have hnow := hdriven hprovided
          exact hnow.same ⟨rfl, rfl, rfl, id⟩ rfl hnow.emits
      · rename_i hquiescent
        rw [if_neg hquiescent]
        have hserves := shutdown_serves callback peerClosed rest driven
        have hnow := hprovided.of_prefix hserves.log
        exact ih (hdriven hnow) (hdrivenRun hnow) hprovided

theorem close_lines (close : Salts) (steps : List ShutdownReplies) (hhanded : HandedOver driver)
    (hrun : RunSound peerClosed driver)
    (hprovided :
      OneCompletion (praktorProcessDriverClose callback peerClosed close steps driver).2.log) :
    HandedOver (praktorProcessDriverClose callback peerClosed close steps driver).2 := by
  unfold praktorProcessDriverClose at hprovided ⊢
  split
  · exact hhanded
  rename_i hattached
  rw [if_neg hattached] at hprovided
  dsimp only at hprovided ⊢
  have hbegun := hrun.closing
  have hbegunLines : HandedOver driver.close := by
    refine hhanded.snoc ⟨rfl, rfl, rfl, id⟩ rfl rfl rfl id (by simp) ?_
    rintro ⟨stream, haccepted⟩
    cases haccepted
  generalize driver.close = begun at hbegun hbegunLines hprovided ⊢
  split
  · rename_i hlive
    rw [if_pos hlive] at hprovided
    have hclosed : RunSound peerClosed
          (if close ≠ .ok ∧ close ≠ .ebusy then begun.fail "close" (.salts close) else begun) ∧
        HandedOver
          (if close ≠ .ok ∧ close ≠ .ebusy then begun.fail "close" (.salts close) else begun) := by
      split
      · exact ⟨hbegun.fail _ _, hbegunLines.fail _ _ (by decide)⟩
      · exact ⟨hbegun, hbegunLines⟩
    generalize (if close ≠ .ok ∧ close ≠ .ebusy then begun.fail "close" (.salts close) else begun) =
      closed at hclosed hprovided ⊢
    have hshutdown := shutdown_lines callback (steps.take 4096) hclosed.2 hclosed.1
    generalize shutdown callback peerClosed (steps.take 4096) closed = last
      at hshutdown hprovided ⊢
    split
    · rename_i hleft
      rw [if_pos hleft] at hprovided
      have hlast := hshutdown hprovided
      exact hlast.same ⟨rfl, rfl, rfl, id⟩ rfl hlast.emits
    · rename_i hleft
      rw [if_neg hleft] at hprovided
      exact hshutdown hprovided
  · exact hbegunLines

/-! ### Runs -/

/-- What one call keeps of the lines. -/
theorem performCall_lines (call : DriverCall) (hhanded : HandedOver driver)
    (hrun : RunSound peerClosed driver)
    (hprovided : OneCompletion (performCall callback peerClosed driver call).log) :
    HandedOver (performCall callback peerClosed driver call) := by
  cases call with
  | tick first second => exact tick_lines _ first second hhanded hrun hprovided
  | completions events => exact completions_lines _ events hhanded hrun hprovided
  | terminate reply =>
      unfold performCall terminate
      dsimp only
      split
      · exact hhanded
      generalize (if driver.closing then Salts.einval else reply) = code
      split
      · exact hhanded.fail _ _ (by decide)
      · exact hhanded
  | close close steps => exact close_lines close steps hhanded hrun hprovided
  | release retainer =>
      unfold performCall praktorProcessDriverRelease
      dsimp only
      split
      · exact hhanded
      split
      · exact hhanded
      split
      · exact hhanded
      · exact hhanded.same ⟨rfl, rfl, rfl, id⟩ rfl hhanded.emits

theorem start_lines (config : DriverConfig) (hemits : config.emits = true) :
    HandedOver (praktorProcessDriverStart config) := by
  have hempty : ∀ done, HandedOver
      { attached := true, live := config.live, reserved := config.reserved, input := config.input
        capacity := config.capacity, emits := config.emits, done, failed := done } := by
    refine fun done => ⟨⟨hemits, fun _ => Nat.le_refl _, List.not_mem_nil, .nil, fun hrefused => ?_,
      justified_nil⟩, fun _ _ _ => .nil 10, fun hnone hover _ => ?_⟩
    · obtain ⟨event, hevent, -⟩ := hrefused
      cases hevent
    · exact absurd (hnone.symm.trans hover) Bool.false_ne_true
  unfold praktorProcessDriverStart
  split
  · exact ((hempty true).fail "start" (.salts config.start) (by decide)).same
      ⟨rfl, rfl, rfl, id⟩ rfl hemits
  · exact hempty false

variable (callback peerClosed) in
theorem driverRun_lines (config : DriverConfig) (calls : List DriverCall)
    (hemits : config.emits = true)
    (hprovided : OneCompletion (driverRun callback peerClosed config calls).log) :
    HandedOver (driverRun callback peerClosed config calls) := by
  induction calls using List.reverseRecOn with
  | nil => exact start_lines config hemits
  | append_singleton calls call ih =>
      have hrun := driverRun_sound callback peerClosed config calls
      unfold driverRun at hprovided ih hrun ⊢
      rw [List.foldl_append] at hprovided ⊢
      have hbefore := hprovided.of_prefix (performCall_log _ call)
      exact performCall_lines call (ih hbefore) (hrun hbefore) hprovided

end Emission

/-! ## The contract -/

section Contract

variable (callback : List DriverEvent → Bytes → Salts) (peerClosed : Int → Bool)

/-- The lines that are handed over are those of what was captured, no line outgrows its buffer,
a line that is refused ends the execution, and none is handed over after it. -/
structure LineContract (driver : DriverState) : Prop where
  text : ∀ first second report after,
    praktorProcessDriverTick callback peerClosed first second driver = (report, after) →
    OneCompletion after.log → report.2 = some true → after.failed = false →
      ∀ index, emittedOn index after.log = splitLines [10] (withoutReturns (after.output index))
  roomy : .failure "stream line capacity" ∉ driver.log
  failed : Refused driver.log → driver.failed = true
  ends : Refused driver.log → ∀ first second,
    (praktorProcessDriverTick callback peerClosed first second driver).1.2 ≠ some false
  stopped : ∀ before stream buffer after,
    driver.log = before ++ .accepted stream buffer :: after → ¬ Refused before
  silenced : Silenced driver.log

variable {callback peerClosed} {driver : DriverState}

variable (callback peerClosed) in
/-- A tick reports what it notes. -/
theorem tick_reports (first second : PassReplies) (driver : DriverState)
    (hreport :
      (praktorProcessDriverTick callback peerClosed first second driver).1.2 = some true) :
    (praktorProcessDriverTick callback peerClosed first second driver).2.done = true := by
  rcases tick_cases callback peerClosed first second driver with
    ⟨code, report, htick, hsame⟩ | ⟨-, passed, -, htick⟩
  · rw [htick] at hreport ⊢
    exact hsame hreport
  · rw [htick] at hreport ⊢
    exact Option.some.inj hreport

/-- A driver that has failed is done with its next tick. -/
theorem tick_failed (hfailed : driver.failed = true) (first second : PassReplies) :
    (praktorProcessDriverTick callback peerClosed first second driver).1.2 ≠ some false := by
  unfold praktorProcessDriverTick
  split
  · simp
  split
  · simp
  rename_i hopen
  split
  · simp
  have hpasses : ∀ replies, passUnlessStopped callback peerClosed replies driver = driver := by
    intro replies
    unfold passUnlessStopped
    rw [if_pos (by simp [hfailed])]
  have hdone : (settle callback driver).done = true := by
    rw [(settle_remarked callback ((Bool.not_eq_true _).mp hopen)).done]
    simp [DriverState.marked, hfailed]
  dsimp only
  rw [hpasses, hpasses, hdone]
  simp

variable (callback peerClosed) in
/-- What is handed over of a run is what the contract has of it just when nothing that makes the
driver hand over a line comes after one that was refused. -/
theorem praktorProcessDriver_lines (config : DriverConfig) (calls : List DriverCall)
    (hemits : config.emits = true)
    (hprovided : OneCompletion (driverRun callback peerClosed config calls).log) :
    LineContract callback peerClosed (driverRun callback peerClosed config calls) ↔
      Muted (driverRun callback peerClosed config calls).log := by
  have hrun := driverRun_sound _ _ config calls hprovided
  have hhanded := driverRun_lines _ _ config calls hemits hprovided
  refine ⟨fun hcontract => hhanded.grouped.silenced_iff.mp hcontract.silenced, fun hmuted => ?_⟩
  refine ⟨fun first second report after htick hafter hreport hnone => ?_, hhanded.roomy,
    hhanded.refused, fun hrefused => tick_failed (hhanded.refused hrefused),
    fun before stream buffer after hsplit => ?_, hhanded.grouped.silenced_iff.mpr hmuted⟩
  · have hlines := tick_lines callback first second hhanded hrun
    have hdone := (tick_reports callback peerClosed first second
      (driverRun callback peerClosed config calls))
    rw [htick] at hlines hdone
    exact (hlines hafter).settled hnone (hdone hreport)
  · exact hhanded.stopped before _ after hsplit ⟨stream, by simp [DriverEvent.isAccepted]⟩

end Contract

/-! ### Two lines in a round -/

/-- A round that delivers a line on each of the outputs. -/
def linePass : PassReplies :=
  { read := fun _ => .accepted, write := .accepted, closeStdin := .ok
    completions :=
      [{ stream := some .stdout, kind := .ok, data := [97, 10] },
        { stream := some .stderr, kind := .ok, data := [98, 10] }]
    ready := .ok, poll := .ebusy, result := {} }

/-- A callback that refuses every line gets both. -/
def refusedRun : DriverState :=
  driverRun (fun _ _ => .eio) (fun _ => false) { input := [], capacity := 64, emits := true }
    [.tick linePass linePass]

theorem refusedRun_log : refusedRun.log =
    [.accepted .stdout [], .accepted .stderr [],
      .completed { stream := some .stdout, kind := .ok, data := [97, 10] } 64,
      .emitted 0 [97] .eio, .failure "stream callback",
      .completed { stream := some .stderr, kind := .ok, data := [98, 10] } 62,
      .emitted 1 [98] .eio, .failure "stream callback"] := by
  decide +kernel

theorem refusedRun_provided : OneCompletion refusedRun.log := by
  rw [refusedRun_log]
  have hfirst : OneCompletion [.accepted .stdout [], .accepted .stderr [],
      .completed { stream := some .stdout, kind := .ok, data := [97, 10] } 64] :=
    ((justified_nil.snoc trivial).snoc trivial).snoc ⟨.stdout, rfl, by decide⟩
  have hemitted : OneCompletion [.accepted .stdout [], .accepted .stderr [],
      .completed { stream := some .stdout, kind := .ok, data := [97, 10] } 64,
      .emitted 0 [97] .eio] :=
    hfirst.snoc trivial
  have hrefused : OneCompletion [.accepted .stdout [], .accepted .stderr [],
      .completed { stream := some .stdout, kind := .ok, data := [97, 10] } 64,
      .emitted 0 [97] .eio, .failure "stream callback"] :=
    hemitted.snoc trivial
  have hsecond : OneCompletion [.accepted .stdout [], .accepted .stderr [],
      .completed { stream := some .stdout, kind := .ok, data := [97, 10] } 64,
      .emitted 0 [97] .eio, .failure "stream callback",
      .completed { stream := some .stderr, kind := .ok, data := [98, 10] } 62] :=
    hrefused.snoc ⟨.stderr, rfl, by decide⟩
  have hagain : OneCompletion [.accepted .stdout [], .accepted .stderr [],
      .completed { stream := some .stdout, kind := .ok, data := [97, 10] } 64,
      .emitted 0 [97] .eio, .failure "stream callback",
      .completed { stream := some .stderr, kind := .ok, data := [98, 10] } 62,
      .emitted 1 [98] .eio] :=
    hsecond.snoc trivial
  exact hagain.snoc trivial

theorem praktorProcessDriver_lines_refused :
    LineContract (fun _ _ => .eio) (fun _ => false) refusedRun ↔ Muted refusedRun.log :=
  praktorProcessDriver_lines (fun _ _ => .eio) (fun _ => false)
    { input := [], capacity := 64, emits := true } [.tick linePass linePass] rfl refusedRun_provided

/-- The callback refuses the line of stdout and still gets the line of stderr. -/
theorem emitted_after_refusal :
    OneCompletion refusedRun.log ∧
      ¬ LineContract (fun _ _ => .eio) (fun _ => false) refusedRun := by
  refine ⟨refusedRun_provided, fun hcontract => ?_⟩
  have hsilenced := hcontract.silenced
  rw [refusedRun_log] at hsilenced
  have hquiet := hsilenced
    [.accepted .stdout [], .accepted .stderr [],
      .completed { stream := some .stdout, kind := .ok, data := [97, 10] } 64,
      .emitted 0 [97] .eio, .failure "stream callback",
      .completed { stream := some .stderr, kind := .ok, data := [98, 10] } 62]
    (.emitted 1 [98] .eio) [.failure "stream callback"] rfl
    ⟨.emitted 0 [97] .eio, by decide, rfl⟩
  cases hquiet

end Praktor.Process
