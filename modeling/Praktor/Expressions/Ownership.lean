/-
# What an evaluation holds and how it fails

Handles of regular expressions and texts of the host pass through the evaluator as values.
The invariant has three parts: the values at hand are what the history leaves in custody, the
latched status is that of the first failure, and no host function but `regex_destroy` is
called after that failure.  Every function of the evaluator keeps it for any host, so at the
end nothing is held but the text that was moved to `*out`.
-/

import Praktor.Expressions.Evaluation
import Praktor.Math.Custody

namespace Praktor.Expressions

open Praktor.Data Praktor.Math

/-! ## The invariant -/

/-- What the evaluator has to release. -/
inductive Item
  | handle (call : Nat)
  | text (call : Nat)
  deriving DecidableEq, Repr

/-- The number of the call that returned it. -/
def Item.call : Item → Nat
  | .handle call => call
  | .text call => call

/-- What an event does with an item. -/
def HostEvent.role : HostEvent → Role Item
  | .resolved call _ true => .acquire (.text call)
  | .compiled call _ true => .acquire (.handle call)
  | .searched call _ => .use (.handle call)
  | .destroyed call => .release (.handle call)
  | .released call => .release (.text call)
  | _ => .idle

/-- A call of `resolve`, `regex_compile` or `regex_search`. -/
def HostEvent.isCall : HostEvent → Bool
  | .resolved _ _ _ => true
  | .compiled _ _ _ => true
  | .searched _ _ => true
  | _ => false

/-- The status of a failure. -/
def HostEvent.failure : HostEvent → Option EvalStatus
  | .failed status => some status
  | _ => none

/-- The status is that of the first failure, and nothing is called after it. -/
def Latched (trace : List HostEvent) (status : EvalStatus) : Prop :=
  (status = .ok ∧ ∀ event ∈ trace, event.failure = none) ∨
    ∃ before after, trace = before ++ .failed status :: after ∧ status ≠ .ok ∧
      (∀ event ∈ before, event.failure = none) ∧ ∀ event ∈ after, event.isCall = false

/-- The evaluator holds these items. -/
structure Holds (p : Parser) (held : List Item) : Prop where
  custody : Custody HostEvent.role p.trace held
  numbered : ∀ (place : Nat) (event : HostEvent), p.trace[place]? = some event → ∀ item,
    event.role = .acquire item → item.call = place
  latched : Latched p.trace p.status

section Holds

variable {p : Parser} {held : List Item}

theorem Holds.perm (hholds : Holds p held) {other : List Item} (hperm : held.Perm other) :
    Holds p other := ⟨hholds.custody.perm hperm, hholds.numbered, hholds.latched⟩

/-- A new item has a number of its own. -/
theorem Holds.fresh (hholds : Holds p held) {item : Item} (hitem : item.call = p.trace.length) :
    ∀ earlier ∈ p.trace, earlier.role ≠ .acquire item := by
  intro earlier hearlier hrole
  obtain ⟨place, hplace, hevent⟩ := List.mem_iff_getElem.mp hearlier
  have hcall := hholds.numbered place earlier (by rw [← hevent]; exact List.getElem?_eq_getElem _)
    item hrole
  omega

/-- The numbers of the items, after one more event. -/
theorem numbered_record (hholds : Holds p held) {event : HostEvent}
    (hevent : ∀ item, event.role = .acquire item → item.call = p.trace.length) (place : Nat)
    (found : HostEvent) (hfound : (p.trace ++ [event])[place]? = some found) (item : Item)
    (hitem : found.role = .acquire item) : item.call = place := by
  by_cases hplace : place < p.trace.length
  · rw [List.getElem?_append_left hplace] at hfound
    exact hholds.numbered place found hfound item hitem
  · rw [List.getElem?_append_right (Nat.not_lt.mp hplace)] at hfound
    obtain ⟨hzero, hsame⟩ : place - p.trace.length = 0 ∧ event = found := by
      simpa [List.getElem?_singleton] using hfound
    rw [hevent item (hsame ▸ hitem)]
    omega

theorem Latched.quiet {trace : List HostEvent} {status : EvalStatus} (hlatched : Latched trace status)
    {event : HostEvent} (hcall : event.isCall = false) (hfailure : event.failure = none) :
    Latched (trace ++ [event]) status := by
  rcases hlatched with ⟨hok, hnone⟩ | ⟨before, after, rfl, hfailed, hbefore, hafter⟩
  · refine .inl ⟨hok, fun found hfound => ?_⟩
    rcases List.mem_append.mp hfound with hfound | hfound
    · exact hnone found hfound
    · rw [List.mem_singleton.mp hfound]
      exact hfailure
  · refine .inr ⟨before, after ++ [event], by simp, hfailed, hbefore, fun found hfound => ?_⟩
    rcases List.mem_append.mp hfound with hfound | hfound
    · exact hafter found hfound
    · rw [List.mem_singleton.mp hfound]
      exact hcall

/-- A call is made while nothing failed. -/
theorem Latched.call {trace : List HostEvent} {status : EvalStatus} (hlatched : Latched trace status)
    (hok : status = .ok) {event : HostEvent} (hfailure : event.failure = none) :
    Latched (trace ++ [event]) status := by
  rcases hlatched with ⟨-, hnone⟩ | ⟨_, _, _, hfailed, _, _⟩
  · refine .inl ⟨hok, fun found hfound => ?_⟩
    rcases List.mem_append.mp hfound with hfound | hfound
    · exact hnone found hfound
    · rw [List.mem_singleton.mp hfound]
      exact hfailure
  · exact absurd hok hfailed

/-- A failure is latched unless another one was. -/
theorem Latched.fail {trace : List HostEvent} {status next : EvalStatus}
    (hlatched : Latched trace status) (hnext : next ≠ .ok) :
    Latched (trace ++ [.failed next]) (if status = .ok then next else status) := by
  rcases hlatched with ⟨hok, hnone⟩ | ⟨before, after, rfl, hfailed, hbefore, hafter⟩
  · rw [if_pos hok]
    exact .inr ⟨trace, [], rfl, hnext, hnone, by simp⟩
  · rw [if_neg hfailed]
    refine .inr ⟨before, after ++ [.failed next], by simp, hfailed, hbefore, fun found hfound => ?_⟩
    rcases List.mem_append.mp hfound with hfound | hfound
    · exact hafter found hfound
    · rw [List.mem_singleton.mp hfound]
      rfl

end Holds

/-! ## The parser keeps the invariant -/

section Parser

variable {p : Parser} {held : List Item}

theorem failure_salts {status : Salts} (hstatus : status ≠ .ok) : EvalStatus.salts status ≠ .ok :=
  fun hsame => hstatus (EvalStatus.salts.inj hsame)

/-- Something that is neither a call nor a failure, and that holds or releases nothing new. -/
theorem Holds.record (hholds : Holds p held) {event : HostEvent} {later : List Item}
    (hcustody : Custody HostEvent.role (p.trace ++ [event]) later)
    (hevent : ∀ item, event.role = .acquire item → item.call = p.trace.length)
    (hlatched : Latched (p.trace ++ [event]) p.status) : Holds (p.record event) later :=
  ⟨hcustody, numbered_record hholds hevent, hlatched⟩

theorem Holds.fail (hholds : Holds p held) {status : Salts} (hstatus : status ≠ .ok)
    (message : Bytes) : Holds (p.fail status message) held :=
  ⟨.idle hholds.custody rfl, numbered_record hholds nofun,
    hholds.latched.fail (failure_salts hstatus)⟩

theorem Holds.explain (hholds : Holds p held) (message : Bytes) : Holds (p.explain message) held :=
  ⟨hholds.custody, hholds.numbered, hholds.latched⟩

theorem Holds.allocate (hholds : Holds p held) : Holds p.allocate.2 held :=
  ⟨hholds.custody, hholds.numbered, hholds.latched⟩

theorem Holds.next (hholds : Holds p held) : Holds p.next held := by
  unfold Parser.next
  split
  · split
    · exact ⟨hholds.custody, hholds.numbered, hholds.latched⟩
    · exact hholds.fail (by decide) _
    · exact (hholds.fail (by decide) _).explain _
  · exact hholds

theorem Holds.take (hholds : Holds p held) {kind : TokenKind} {later : Parser}
    (htake : p.take kind = some later) : Holds later held := by
  unfold Parser.take at htake
  split at htake
  · cases htake
    split
    · exact hholds
    · exact hholds.next
  · cases htake

theorem Holds.takeOperator (hholds : Holds p held) {text : Bytes} {later : Parser}
    (htake : p.takeOperator text = some later) : Holds later held := by
  unfold Parser.takeOperator at htake
  split at htake
  · cases htake
    exact hholds.next
  · cases htake

theorem Holds.require (hholds : Holds p held) (kind : TokenKind) (message : Bytes) :
    Holds (p.require kind message) held := by
  unfold Parser.require
  split
  · split
    · next htake => exact hholds.take htake
    · exact hholds.fail (by decide) message
  · exact hholds

/-- A reply of the host, after a call that was made while nothing had failed. -/
theorem Holds.hostResult (hholds : Holds p held) (hok : p.status = .ok) (status : EvalStatus)
    (message : Option Bytes) : Holds (p.hostResult status message) held := by
  unfold Parser.hostResult
  simp only
  split
  · exact hholds.explain _
  · next hstatus =>
      refine ⟨.idle hholds.custody rfl, numbered_record hholds nofun, ?_⟩
      have hlatched := hholds.latched.fail hstatus
      rwa [if_pos hok] at hlatched

/-- What a value has to release. -/
def EvalValue.items {N : Type} (value : EvalValue N) : List Item :=
  match value.content, value.call with
  | .regex _, some call => [.handle call]
  | .value (.string _), some call => [.text call]
  | _, _ => []

@[simp]
theorem items_blank {N : Type} : (EvalValue.blank : EvalValue N).items = [] := rfl

@[simp]
theorem items_boolean {N : Type} (value : Bool) : (booleanValue value : EvalValue N).items = [] := rfl

theorem Holds.clearValue {ctx : Context} {value : ctx.Value}
    (hholds : Holds p (value.items ++ held)) : Holds (clearValue p value) held := by
  obtain ⟨content, call⟩ := value
  cases call with
  | none =>
      cases content with
      | regex pattern => exact hholds
      | value content => cases content <;> exact hholds
  | some call =>
      cases content with
      | regex pattern =>
          exact hholds.record (.release hholds.custody rfl (List.Perm.refl _)) nofun
            (hholds.latched.quiet rfl rfl)
      | value content =>
          cases content with
          | string text =>
              exact hholds.record (.release hholds.custody rfl (List.Perm.refl _)) nofun
                (hholds.latched.quiet rfl rfl)
          | null => exact hholds
          | boolean value => exact hholds
          | number value => exact hholds
          | invalid => exact hholds

/-- A value below another one is released. -/
theorem Holds.clearInner {ctx : Context} {front : List Item} {value : ctx.Value}
    (hholds : Holds p (front ++ (value.items ++ held))) :
    Holds (Expressions.clearValue p value) (front ++ held) :=
  (hholds.perm (List.perm_append_comm_assoc _ _ _)).clearValue

end Parser

/-! ## Operands -/

section Operands

variable {ctx : Context} {p : Parser} {held : List Item}

theorem status_hostResult {status : EvalStatus} (hstatus : status = .ok) (message : Option Bytes) :
    (p.hostResult status message).status = p.status := by
  simp only [Parser.hostResult]
  rw [if_pos hstatus]
  rfl

/-- A pattern is only compiled without a failure. -/
theorem compileRegex_status (hok : p.status = .ok) {pattern : Bytes}
    (hcompiled : (compileRegex ctx p pattern).1 = true) :
    (compileRegex ctx p pattern).2.2.status = .ok := by
  unfold compileRegex at hcompiled ⊢
  split at hcompiled
  · cases hcompiled
  · next hooks _ =>
      simp only at hcompiled ⊢
      split at hcompiled
      · cases hcompiled
      · next hnot =>
          rw [if_neg hnot, status_hostResult (of_decide_eq_true hcompiled)]
          exact hok

/-- A text is returned without a failure. -/
theorem asText_status {content : Content ctx.doubles.Number} {text : Bytes} {later : Parser}
    (htext : asText ctx p content = (some text, later)) : later.status = p.status := by
  have hformatted : (formatNumber ctx p content).2.status = p.status := by
    unfold formatNumber
    split <;> rfl
  simp only [asText] at htext
  split at htext
  · split at htext
    · cases htext
    · cases htext
      exact hformatted
  · cases htext

/-- A function that returns a value adds what the value has to release. -/
def Keeps (run : Parser → ctx.Value × Parser) : Prop :=
  ∀ p held, Holds p held → Holds (run p).2 ((run p).1.items ++ held)

/-- One round of a loop over a value. -/
def KeepsRound (round : ctx.Value → Parser → Option (ctx.Value × Parser)) : Prop :=
  ∀ value p next later held, Holds p (value.items ++ held) → round value p = some (next, later) →
    Holds later (next.items ++ held)

theorem Keeps.repeatStep {first : Parser → ctx.Value × Parser} (hfirst : Keeps first)
    {round : ctx.Value → Parser → Option (ctx.Value × Parser)} (hround : KeepsRound round)
    (bound : Parser → Nat) :
    Keeps fun p => Math.repeatStep round (bound (first p).2) (first p).1 (first p).2 :=
  fun p held hholds => @repeatStep_induct _ _ round (fun value p => Holds p (value.items ++ held))
    (fun value p next later hkept hone => hround value p next later held hkept hone) _ _ _
    (hfirst p held hholds)

/-- A handle is stored even when the host reports a failure. -/
theorem Holds.compileRegex (hholds : Holds p held) (hok : p.status = .ok) (pattern : Bytes) :
    Holds (Expressions.compileRegex ctx p pattern).2.2
      ((Expressions.compileRegex ctx p pattern).2.1.toList.map Item.handle ++ held) := by
  unfold Expressions.compileRegex
  split
  · exact hholds.fail (by decide) _
  · next hooks _ =>
      simp only
      rcases hreply : hooks.compile p.trace pattern with ⟨status, stored, message⟩
      have hrecord : Holds (p.record (.compiled p.trace.length pattern stored))
          ((if stored then [.handle p.trace.length] else []) ++ held) := by
        cases stored with
        | false =>
            exact hholds.record (.idle hholds.custody rfl) nofun (hholds.latched.call hok rfl)
        | true =>
            refine hholds.record (.acquire hholds.custody rfl (hholds.fresh rfl) (List.Perm.refl _))
              ?_ (hholds.latched.call hok rfl)
            intro item hitem
            obtain rfl := Role.acquire.inj hitem
            rfl
      have hresult := hrecord.hostResult hok status message
      cases stored with
      | false =>
          split
          · exact hresult.fail (by decide) _
          · exact hresult
      | true =>
          rw [if_neg (by simp)]
          exact hresult

theorem Holds.resolveVariable (hholds : Holds p held) (hok : p.status = .ok) :
    Holds (Expressions.resolveVariable ctx p).2
      ((Expressions.resolveVariable ctx p).1.items ++ held) := by
  unfold Expressions.resolveVariable
  split
  · exact hholds.fail (by decide) _
  · next resolve _ =>
      simp only
      rcases hreply : resolve p.trace p.token.text ctx.limits.maxStringBytes with
        ⟨status, value, message⟩
      -- only a string is acquired
      have hother : Holds (p.record (.resolved p.trace.length p.token.text false)) held :=
        hholds.record (.idle hholds.custody rfl) nofun (hholds.latched.call hok rfl)
      cases value with
      | string text =>
          have hrecord : Holds (p.record (.resolved p.trace.length p.token.text true))
              (.text p.trace.length :: held) := by
            refine hholds.record (.acquire hholds.custody rfl (hholds.fresh rfl) (List.Perm.refl _))
              ?_ (hholds.latched.call hok rfl)
            intro item hitem
            obtain rfl := Role.acquire.inj hitem
            rfl
          have hresult := hrecord.hostResult hok status message
          simp only
          split
          · exact hresult.fail (by decide) _
          · exact hresult
      | invalid =>
          simp only
          split
          · exact (hother.hostResult hok status message).fail (by decide) _
          · exact hother.hostResult hok status message
      | null => exact hother.hostResult hok status message
      | boolean value => exact hother.hostResult hok status message
      | number value => exact hother.hostResult hok status message

theorem Holds.copyString (hholds : Holds p held) : Holds (Expressions.copyString ctx p).2
    ((Expressions.copyString ctx p).1.items ++ held) := by
  simp only [Expressions.copyString]
  split
  · exact hholds.fail (by decide) _
  · split
    · exact hholds.allocate
    · exact hholds.allocate.fail (by decide) _

theorem primary_keeps {nested : Parser → ctx.Value × Parser} (hnested : Keeps nested) :
    Keeps (primary ctx nested) := by
  intro p held hholds
  unfold primary
  split
  · next hok =>
      split
      · next later htake => exact (hnested later held (hholds.take htake)).require _ _
      · split
        · exact (hholds.resolveVariable hok).next
        · exact hholds.copyString.next
        · simp only
          split
          · exact (hholds.fail (by decide) _).next
          · exact hholds.next
        · have hcompiled := @Holds.compileRegex ctx _ _ hholds hok p.token.text
          simp only
          split
          · next call hhandle =>
              rw [hhandle] at hcompiled
              exact hcompiled.next
          · next hhandle =>
              rw [hhandle] at hcompiled
              exact hcompiled.next
        · split
          · exact hholds.next
          · split
            · exact hholds.next
            · exact (hholds.fail (by decide) _).explain _
        · exact hholds.fail (by decide) _
  · exact hholds

theorem Holds.asText (hholds : Holds p held) (content : Content ctx.doubles.Number) :
    Holds (Expressions.asText ctx p content).2 held := by
  have hformatted : Holds (formatNumber ctx p content).2 held := by
    unfold formatNumber
    split
    · exact hholds.allocate
    · exact hholds
  simp only [Expressions.asText]
  split
  · split
    · exact hformatted.fail (by decide) _
    · exact hformatted
  · exact hformatted.fail (by decide) _

theorem Holds.searchRegex (hholds : Holds p held) (hok : p.status = .ok) {call : Nat}
    (hheld : .handle call ∈ held) (text : Bytes) :
    Holds (Expressions.searchRegex ctx p call text).2
      ((Expressions.searchRegex ctx p call text).1.items ++ held) := by
  unfold Expressions.searchRegex
  split
  · exact hholds
  · have hrecord : Holds (p.record (.searched call text)) held :=
      hholds.record (.use hholds.custody rfl hheld) nofun (hholds.latched.call hok rfl)
    exact hrecord.hostResult hok _ _

theorem searchRegex_items (call : Nat) (text : Bytes) :
    (searchRegex ctx p call text).1.items = [] := by
  unfold searchRegex
  split <;> rfl

theorem Holds.testMethod (hholds : Holds p held) (hok : p.status = .ok) {receiver : ctx.Value}
    (hreceiver : ∀ item ∈ receiver.items, item ∈ held) (text other : Bytes) :
    Holds (Expressions.testMethod ctx p receiver text other).2
      ((Expressions.testMethod ctx p receiver text other).1.items ++ held) := by
  unfold Expressions.testMethod
  split
  · next pattern call hcontent hcall =>
      refine hholds.searchRegex hok (hreceiver _ ?_) other
      simp [EvalValue.items, hcontent, hcall]
  · have hcompiled := @Holds.compileRegex ctx _ _ hholds hok text
    simp only
    split
    · next hhandle =>
        rw [hhandle] at hcompiled
        exact hcompiled
    · next call hhandle =>
        rw [hhandle] at hcompiled
        -- the pattern that was compiled here is destroyed in either case
        split
        · next hsuccess =>
            have hdone := compileRegex_status hok hsuccess
            have hfound := @Holds.searchRegex ctx _ _ hcompiled hdone call (by simp) other
            rw [searchRegex_items] at hfound ⊢
            exact hfound.record (.release hfound.custody rfl (List.Perm.refl _)) nofun
              (hfound.latched.quiet rfl rfl)
        · exact hcompiled.record (.release hcompiled.custody rfl (List.Perm.refl _)) nofun
            (hcompiled.latched.quiet rfl rfl)

theorem Holds.method (hholds : Holds p held) (hok : p.status = .ok) {receiver : ctx.Value}
    (hreceiver : ∀ item ∈ receiver.items, item ∈ held) (name : Bytes) (argument : ctx.Value)
    (hasArgument : Bool) : Holds (Expressions.method ctx p receiver name argument hasArgument).2
      ((Expressions.method ctx p receiver name argument hasArgument).1.items ++ held) := by
  unfold Expressions.method
  split
  · exact (hholds.fail (by decide) _).explain _
  · split
    · have hfirst := hholds.asText receiver.content
      split
      · next later htext =>
          rw [htext] at hfirst
          exact hfirst
      · next text between htext =>
          rw [htext] at hfirst
          have hsecond := hfirst.asText argument.content
          split
          · next later hother =>
              rw [hother] at hsecond
              exact hsecond
          · next other later hother =>
              rw [hother] at hsecond
              split
              · exact hsecond
              · exact hsecond
              · exact hsecond
              · refine hsecond.testMethod ?_ hreceiver text other
                rw [asText_status hother, asText_status htext, hok]
    · exact (hholds.fail (by decide) _).explain _

/-- After a call the argument and the receiver are released. -/
theorem Holds.callMethod {value : ctx.Value} {argument : ctx.Value × Parser}
    (hholds : Holds argument.2 (argument.1.items ++ (value.items ++ held))) (name : Bytes)
    (hasArgument : Bool) : Holds (Expressions.callMethod ctx value name hasArgument argument).2
      ((Expressions.callMethod ctx value name hasArgument argument).1.items ++ held) := by
  have hrequired := hholds.require .rparen (ascii "expected ')' after arguments")
  have hreceiver : ∀ item ∈ value.items, item ∈ argument.1.items ++ (value.items ++ held) :=
    fun item hitem => List.mem_append_right _ (List.mem_append_left _ hitem)
  unfold Expressions.callMethod
  simp only
  split
  · next hok =>
      exact (hrequired.method hok hreceiver name argument.1 hasArgument).clearInner.clearInner
  · exact hrequired.clearValue.clearValue

theorem Holds.callArgument {nested : Parser → ctx.Value × Parser} (hnested : Keeps nested)
    {value : ctx.Value} (hholds : Holds p (value.items ++ held)) (name : Bytes) :
    Holds (Expressions.callArgument ctx nested value name p).2
      ((Expressions.callArgument ctx nested value name p).1.items ++ held) := by
  have hrequired := hholds.require .lparen (ascii "expected '(' after method name")
  unfold Expressions.callArgument
  apply Holds.callMethod
  split
  · exact hnested _ _ hrequired
  · exact hrequired

theorem callRound_keeps {nested : Parser → ctx.Value × Parser} (hnested : Keeps nested) :
    KeepsRound (callRound ctx nested) := by
  intro value p next later held hholds hround
  unfold callRound at hround
  split at hround
  · cases hround
  · next dotted htake =>
      have hdotted := hholds.take htake
      split at hround
      · split at hround
        · obtain ⟨rfl, rfl⟩ := Prod.mk.inj (Option.some.inj hround)
          exact hdotted.allocate.next.callArgument hnested _
        · obtain ⟨rfl, rfl⟩ := Prod.mk.inj (Option.some.inj hround)
          exact hdotted.allocate.fail (by decide) _
      · obtain ⟨rfl, rfl⟩ := Prod.mk.inj (Option.some.inj hround)
        exact hdotted.fail (by decide) _

theorem parsePostfix_keeps {nested : Parser → ctx.Value × Parser} (hnested : Keeps nested) :
    Keeps (parsePostfix ctx nested) :=
  (primary_keeps hnested).repeatStep (callRound_keeps hnested) fun p => p.lexer.remaining + 1

end Operands

/-! ## Operators -/

section Operators

variable {ctx : Context} {p : Parser} {held : List Item}

theorem Holds.equalValues (hholds : Holds p held) (left right : Content ctx.doubles.Number) :
    Holds (Expressions.equalValues ctx p left right).2 held := by
  unfold Expressions.equalValues
  split
  · exact hholds
  · split
    · exact hholds
    · have hleft := hholds.asText left
      unfold equalTexts
      split
      · next later htext =>
          rw [htext] at hleft
          exact hleft
      · next text between htext =>
          rw [htext] at hleft
          have hright := hleft.asText right
          split
          · next later hother =>
              rw [hother] at hright
              exact hright
          · next other later hother =>
              rw [hother] at hright
              exact hright

theorem comparisonRound_keeps {operand : Parser → ctx.Value × Parser} (hoperand : Keeps operand) :
    KeepsRound (comparisonRound ctx operand) := by
  intro value p next later held hholds hround
  unfold comparisonRound at hround
  split at hround
  · split at hround
    · cases hround
    · split at hround
      · obtain ⟨rfl, rfl⟩ := Prod.mk.inj (Option.some.inj hround)
        have hright := hoperand _ _ hholds.next
        refine Holds.clearValue (Holds.clearValue ?_)
        split
        · split
          · exact hright
          · exact hright.fail (by decide) _
        · exact hright
      · cases hround
  · cases hround

theorem equalityRound_keeps {operand : Parser → ctx.Value × Parser} (hoperand : Keeps operand) :
    KeepsRound (equalityRound ctx operand) := by
  intro value p next later held hholds hround
  unfold equalityRound at hround
  split at hround
  · split at hround
    · split at hround
      · obtain ⟨rfl, rfl⟩ := Prod.mk.inj (Option.some.inj hround)
        exact hholds.fail (by decide) _
      · cases hround
    · split at hround
      · obtain ⟨rfl, rfl⟩ := Prod.mk.inj (Option.some.inj hround)
        have hright := hoperand _ _ hholds.next
        refine Holds.clearValue (Holds.clearValue ?_)
        split
        · exact hright.equalValues _ _
        · exact hright
      · cases hround
  · cases hround

theorem logicalRound_keeps (isOr : Bool) {operand : Parser → ctx.Value × Parser}
    (hoperand : Keeps operand) : KeepsRound (logicalRound ctx isOr operand) := by
  intro value p next later held hholds hround
  unfold logicalRound at hround
  split at hround
  · cases hround
  · next after htake =>
      obtain ⟨rfl, rfl⟩ := Prod.mk.inj (Option.some.inj hround)
      exact (hoperand _ _ (hholds.takeOperator htake)).clearValue.clearValue

theorem logical_keeps (isOr : Bool) {operand : Parser → ctx.Value × Parser}
    (hoperand : Keeps operand) : Keeps (logical ctx isOr operand) :=
  hoperand.repeatStep (logicalRound_keeps isOr hoperand) fun p => p.lexer.remaining + 1

theorem entered_keeps {unary : Parser → ctx.Value × Parser} (hunary : Keeps unary) :
    Keeps (entered ctx unary) := by
  have hcomparison : Keeps (comparison ctx unary) :=
    hunary.repeatStep (comparisonRound_keeps hunary) fun p => p.lexer.remaining + 1
  have hequality : Keeps (equality ctx (comparison ctx unary)) :=
    hcomparison.repeatStep (equalityRound_keeps hcomparison) fun p => p.lexer.remaining + 1
  exact logical_keeps true (logical_keeps false hequality)

theorem enter_keeps {inside : Option (Parser → ctx.Value × Parser)}
    (hinside : ∀ run ∈ inside, Keeps run) : Keeps (enter ctx inside) := by
  intro p held hholds
  unfold enter
  split
  · split
    · exact hholds.fail (by decide) _
    · next run => exact hinside run rfl _ _ hholds
  · exact hholds

theorem unaryWith_keeps {deeper : Option (Parser → ctx.Value × Parser)}
    (hdeeper : ∀ run ∈ deeper, Keeps run) : Keeps (unaryWith ctx deeper) := by
  intro p held hholds
  unfold unaryWith
  split
  · next later htake =>
      refine enter_keeps (fun run hrun => ?_) _ _ (hholds.takeOperator htake)
      obtain ⟨inner, hinner, rfl⟩ := Option.map_eq_some_iff.mp hrun
      exact fun p held hbefore => (hdeeper inner hinner _ _ hbefore).clearValue
  · refine parsePostfix_keeps (enter_keeps fun run hrun => ?_) _ _ hholds
    obtain ⟨inner, hinner, rfl⟩ := Option.map_eq_some_iff.mp hrun
    exact entered_keeps (hdeeper inner hinner)

theorem parseUnary_keeps (room : Nat) : Keeps (parseUnary ctx room) := by
  induction room with
  | zero => exact unaryWith_keeps nofun
  | succ room ih =>
      refine unaryWith_keeps fun run hrun => ?_
      obtain rfl := Option.some.inj hrun
      exact ih

theorem parseExpression_keeps (room : Nat) : Keeps (parseExpression ctx room) := by
  cases room with
  | zero => exact enter_keeps nofun
  | succ room =>
      refine enter_keeps fun run hrun => ?_
      obtain rfl := Option.some.inj hrun
      exact entered_keeps (parseUnary_keeps room)

end Operators

/-! ## The whole evaluation -/

theorem Holds.scanTokens {p : Parser} {held : List Item} (hholds : Holds p held) (room : Nat) :
    Holds (scanTokens room p) held := by
  induction room generalizing p with
  | zero => exact hholds.fail (by decide) _
  | succ room ih =>
      rw [Expressions.scanTokens]
      split
      · exact ih hholds.next
      · exact hholds.next

/-- The first scan calls no host function. -/
theorem scanTokens_silent {p : Parser} (hsilent : ∀ event ∈ p.trace, ∃ status, event = .failed status)
    (room : Nat) : ∀ event ∈ (scanTokens room p).trace, ∃ status, event = .failed status := by
  have hfail {p : Parser} (hbefore : ∀ event ∈ p.trace, ∃ status, event = .failed status)
      (status : EvalStatus) :
      ∀ event ∈ p.trace ++ [.failed status], ∃ status, event = .failed status := by
    intro event hevent
    rcases List.mem_append.mp hevent with hevent | hevent
    · exact hbefore event hevent
    · exact ⟨status, List.mem_singleton.mp hevent⟩
  induction room generalizing p with
  | zero => exact hfail hsilent _
  | succ room ih =>
      have hnext : ∀ event ∈ p.next.trace, ∃ status, event = .failed status := by
        unfold Parser.next
        split
        · split
          · exact hsilent
          · exact hfail hsilent _
          · exact hfail hsilent _
        · exact hsilent
      rw [scanTokens]
      split
      · exact ih hnext
      · exact hnext

/-- What is left at the end is the text that was moved. -/
theorem finishEvaluation_holds {ctx : Context} {value : ctx.Value} {p : Parser}
    (hholds : Holds p value.items) :
    ∃ last, Holds last ((finishEvaluation ctx value p).moved.toList.map Item.text) ∧
      last.trace = (finishEvaluation ctx value p).trace ∧
        last.status = (finishEvaluation ctx value p).status := by
  have hcleared (cleared : ctx.Value) : (clearValue p cleared).status = p.status := by
    unfold clearValue
    split <;> rfl
  unfold finishEvaluation
  split
  · refine ⟨clearValue p value.withoutPublic, ?_, rfl, hcleared _⟩
    obtain ⟨content, call⟩ := value
    cases content with
    | regex pattern =>
        rw [← List.append_nil (EvalValue.items _)] at hholds
        exact hholds.clearValue
    | value content =>
        cases content <;> cases call <;> exact hholds
  · rw [← List.append_nil value.items] at hholds
    exact ⟨clearValue p value, hholds.clearValue, rfl, hcleared _⟩

/-- Nothing is held before the first scan. -/
theorem holds_start (text : Bytes) (allocations : AllocSchedule) :
    Holds (.start text allocations) [] := ⟨.nil, nofun, .inl ⟨rfl, nofun⟩⟩

section Released

variable {trace : List HostEvent} {held : List Item}

theorem releases_handle (call : Nat) :
    releases HostEvent.role trace (.handle call) = trace.count (.destroyed call) := by
  refine List.countP_congr fun event _ => ?_
  cases event with
  | resolved _ _ stored => cases stored <;> simp [HostEvent.role]
  | compiled _ _ stored => cases stored <;> simp [HostEvent.role]
  | _ => simp [HostEvent.role]

theorem releases_text (call : Nat) :
    releases HostEvent.role trace (.text call) = trace.count (.released call) := by
  refine List.countP_congr fun event _ => ?_
  cases event with
  | resolved _ _ stored => cases stored <;> simp [HostEvent.role]
  | compiled _ _ stored => cases stored <;> simp [HostEvent.role]
  | _ => simp [HostEvent.role]

theorem role_acquire_handle {event : HostEvent} {call : Nat}
    (hrole : event.role = .acquire (.handle call)) : ∃ pattern, event = .compiled call pattern true := by
  cases event with
  | resolved _ _ stored => cases stored <;> simp [HostEvent.role] at hrole
  | compiled other pattern stored =>
      cases stored with
      | false => simp [HostEvent.role] at hrole
      | true =>
          obtain rfl : other = call := by simpa [HostEvent.role] using hrole
          exact ⟨pattern, rfl⟩
  | _ => simp [HostEvent.role] at hrole

end Released

/-- What an evaluation leaves behind; the number of a call is its place in the trace. -/
structure FailsClosed {N : Type} (text : Bytes) (limits : ExpressionLimits)
    (result : Evaluation N) : Prop where
  /-- Every handle that was stored is destroyed exactly once. -/
  destroyed : ∀ place call pattern, result.trace[place]? = some (.compiled call pattern true) →
    call = place ∧ result.trace.count (.destroyed call) = 1
  /-- Nothing else is destroyed. -/
  stored : ∀ call, .destroyed call ∈ result.trace → ∃ pattern, .compiled call pattern true ∈ result.trace
  /-- A handle is searched after it was stored and before it is destroyed. -/
  searched : ∀ before call other after, result.trace = before ++ .searched call other :: after →
    (∃ pattern, .compiled call pattern true ∈ before) ∧ .destroyed call ∉ before
  /-- Every string of the host is either released, once, or moved. -/
  released : ∀ place call path, result.trace[place]? = some (.resolved call path true) →
    call = place ∧
      result.trace.count (.released call) + (if result.moved = some call then 1 else 0) = 1
  /-- A string is only moved to `*out`. -/
  moved : ∀ call, result.moved = some call →
    ∃ string truthy, result.published = some (.string string, truthy)
  /-- Of a text with an invalid token or with too many tokens nothing is told to the host. -/
  scanned : (¬ ∃ tokens, Lexes (.init text) tokens ∧ tokens.length + 1 ≤ limits.maxTokens) →
    ∀ event ∈ result.trace, ∃ status, event = .failed status
  /-- The status is that of the first failure, and only handles are destroyed after it. -/
  latched : Latched result.trace result.status
  /-- `*out` and `*truthy` are only written on success. -/
  untouched : result.status ≠ .ok → result.published = none ∧ result.moved = none

theorem FailsClosed.intro {N : Type} {text : Bytes} {limits : ExpressionLimits}
    {result : Evaluation N} {last : Parser} (hholds : Holds last (result.moved.toList.map Item.text))
    (htrace : last.trace = result.trace) (hstatus : last.status = result.status)
    (hmoved : ∀ call, result.moved = some call →
      ∃ string truthy, result.published = some (.string string, truthy))
    (hscanned : (¬ ∃ tokens, Lexes (.init text) tokens ∧ tokens.length + 1 ≤ limits.maxTokens) →
      ∀ event ∈ result.trace, ∃ status, event = .failed status)
    (huntouched : result.status ≠ .ok → result.published = none ∧ result.moved = none) :
    FailsClosed text limits result := by
  have hcustody := hholds.custody
  have hnumbered := hholds.numbered
  rw [htrace] at hcustody hnumbered
  refine ⟨fun place call pattern hevent => ?_, fun call hdestroyed => ?_,
    fun before call other after hsplit => ?_, fun place call path hevent => ?_, hmoved, hscanned,
    htrace ▸ hstatus ▸ hholds.latched, huntouched⟩
  · have hrole : HostEvent.role (.compiled call pattern true) = .acquire (.handle call) := rfl
    have hcount := hcustody.released_or_held (List.mem_of_getElem? hevent) hrole
    rw [releases_handle] at hcount
    have hnone : (result.moved.toList.map Item.text).count (.handle call) = 0 :=
      List.count_eq_zero.mpr (by simp)
    exact ⟨hnumbered place _ hevent _ rfl, by omega⟩
  · have hcount := hcustody.count (.handle call)
    have hpositive := List.count_pos_iff.mpr hdestroyed
    rw [releases_handle] at hcount
    have hacquired : 0 < acquisitions HostEvent.role result.trace (.handle call) := by omega
    obtain ⟨event, hevent, hrole⟩ := List.countP_pos_iff.mp hacquired
    obtain ⟨pattern, rfl⟩ := role_acquire_handle (of_decide_eq_true hrole)
    exact ⟨pattern, hevent⟩
  · rw [hsplit] at hcustody
    have huse : HostEvent.role (.searched call other) = .use (.handle call) := rfl
    obtain ⟨⟨event, hevent, hrole⟩, hreleases⟩ := hcustody.used huse
    obtain ⟨pattern, rfl⟩ := role_acquire_handle hrole
    rw [releases_handle] at hreleases
    exact ⟨⟨pattern, hevent⟩, List.count_eq_zero.mp hreleases⟩
  · have hrole : HostEvent.role (.resolved call path true) = .acquire (.text call) := rfl
    have hcount := hcustody.released_or_held (List.mem_of_getElem? hevent) hrole
    rw [releases_text] at hcount
    refine ⟨hnumbered place _ hevent _ rfl, ?_⟩
    cases hmove : result.moved with
    | none => simpa [hmove] using hcount
    | some other =>
        by_cases hsame : other = call
        · simpa [hmove, hsame] using hcount
        · simpa [hmove, hsame] using hcount

theorem finishEvaluation_moved {ctx : Context} (value : ctx.Value) (p : Parser) (call : Nat)
    (hmoved : (finishEvaluation ctx value p).moved = some call) :
    ∃ string truthy, (finishEvaluation ctx value p).published = some (.string string, truthy) := by
  unfold finishEvaluation at hmoved ⊢
  split at hmoved
  · next hok =>
      rw [if_pos hok]
      obtain ⟨content, source⟩ := value
      cases content with
      | regex pattern => cases hmoved
      | value content =>
          cases content with
          | string text => exact ⟨text, _, rfl⟩
          | null => cases hmoved
          | boolean value => cases hmoved
          | number value => cases hmoved
          | invalid => cases hmoved
  · cases hmoved

theorem finishEvaluation_untouched {ctx : Context} (value : ctx.Value) (p : Parser)
    (hstatus : (finishEvaluation ctx value p).status ≠ .ok) :
    (finishEvaluation ctx value p).published = none ∧
      (finishEvaluation ctx value p).moved = none := by
  rw [finishEvaluation_status] at hstatus
  unfold finishEvaluation
  rw [if_neg hstatus]
  exact ⟨rfl, rfl⟩

theorem finishEvaluation_closed {ctx : Context} {value : ctx.Value} {p : Parser} {text : Bytes}
    {limits : ExpressionLimits} (hholds : Holds p value.items)
    (hscanned : (¬ ∃ tokens, Lexes (.init text) tokens ∧ tokens.length + 1 ≤ limits.maxTokens) →
      ∀ event ∈ (finishEvaluation ctx value p).trace, ∃ status, event = .failed status) :
    FailsClosed text limits (finishEvaluation ctx value p) := by
  obtain ⟨last, hlast, htrace, hstatus⟩ := finishEvaluation_holds hholds
  exact .intro hlast htrace hstatus (finishEvaluation_moved value p) hscanned
    (finishEvaluation_untouched value p)

theorem refuse_closed {N : Type} (text : Bytes) (limits : ExpressionLimits) {status : Salts}
    (hstatus : status ≠ .ok) (message : Bytes) :
    FailsClosed text limits (Evaluation.refuse status message : Evaluation N) := by
  have hholds := (holds_start text []).fail hstatus message
  refine .intro hholds rfl rfl nofun (fun _ event hevent => ?_) fun _ => ⟨rfl, rfl⟩
  exact ⟨_, List.mem_singleton.mp hevent⟩

/-- Every evaluation releases what it acquires and fails closed. -/
theorem praktorExpressionEvaluate_closed (doubles : Doubles) (text : Bytes)
    (host : Option (ExpressionHost doubles.Number)) (limits : Option ExpressionLimits)
    (allocations : AllocSchedule) : FailsClosed text (limits.getD expressionDefaultLimits)
      (praktorExpressionEvaluate doubles text host limits allocations) := by
  unfold praktorExpressionEvaluate
  split
  · exact refuse_closed _ _ (by decide) _
  · next hooks _ =>
      simp only
      split_ifs with harguments hlength hscratch hscan
      · exact refuse_closed _ _ (by decide) _
      · exact refuse_closed _ _ (by decide) _
      · exact refuse_closed _ _ (by decide) _
      · have hscanned := (holds_start text allocations.alloc.2).scanTokens
          (limits.getD expressionDefaultLimits).maxTokens
        have hlexes := (scanTokens_ok (p := .start text allocations.alloc.2) rfl (Nat.zero_le _)
          (limits.getD expressionDefaultLimits).maxTokens).1.mp hscan
        -- the second scan begins with a lexer of its own
        have hagain : ∀ {p : Parser} {lexer : Lexer}, Holds p [] → Holds { p with lexer := lexer } [] :=
          fun hholds => ⟨hholds.custody, hholds.numbered, hholds.latched⟩
        have hparsed := @parseExpression_keeps ⟨doubles, hooks, limits.getD expressionDefaultLimits⟩
          (limits.getD expressionDefaultLimits).maxDepth _ [] (@hagain _ (.init text) hscanned).next
        rw [List.append_nil] at hparsed
        exact finishEvaluation_closed (hparsed.require _ _) fun hnone => absurd hlexes hnone
      · have hscanned := (holds_start text allocations.alloc.2).scanTokens
          (limits.getD expressionDefaultLimits).maxTokens
        refine finishEvaluation_closed hscanned fun _ => ?_
        rw [finishEvaluation, if_neg hscan]
        exact scanTokens_silent (p := .start text allocations.alloc.2) nofun _

end Praktor.Expressions
