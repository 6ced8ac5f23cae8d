/-
# What the controls read and write

A value store that keeps its promises is a map from keys to texts.  Whatever a read of a session
returns is then the text of that map, and a write that succeeds changes it at one key; a read
changes scratch buffers only, whether it succeeds or not.
-/

import Praktor.Math.Outcomes
import Praktor.Session.ControlModel
import Praktor.Session.Reading

namespace Praktor.Session

open Praktor.Data Praktor.Math Stateful

variable {Store Number : Type} {count : Nat}

/-- The functions of a value store work on the map that `view` shows.  Any of them may be refused,
and a query for the size of an empty text may be answered as one for any other. -/
structure ValueHooks.Lawful (hooks : ValueHooks Store) (view : Store → CString → Option Bytes) :
    Prop where
  contains : ∀ {store key yes}, hooks.valueContains store key = some yes →
    yes = (view store key).isSome
  size : ∀ {store key text}, view store key = some text →
    (hooks.valueGet store key 0).size = text.length
  read : ∀ {store key text}, view store key = some text → ∀ {capacity}, text.length < capacity →
    hooks.valueGet store key capacity = ⟨.ok, text.length, text ++ [0]⟩
  missing : ∀ {store key}, view store key = none →
    (hooks.valueGet store key 0).answer ≠ .ok ∧ (hooks.valueGet store key 0).answer ≠ .bufferTooSmall
  set : ∀ {store key text next}, hooks.valueSet store key text = some next →
    view next = Function.update (view store) key (some text.bytes)
  setBytes : ∀ {setBytes}, hooks.setBytes = some setBytes →
    ∀ {store key text next}, setBytes store key text = some next →
      view next = Function.update (view store) key (some text)

/-- Nothing has changed but scratch buffers, and of these the given one and that of keys only. -/
structure Used (buffer : Fin 4) (s next : SessionState Store count) : Prop where
  scratched : Scratched s next
  others : ∀ other, other ≠ buffer → other ≠ 3 → next.scratch other = s.scratch other

theorem Used.refl (buffer : Fin 4) (s : SessionState Store count) : Used buffer s s :=
  ⟨scratched_frame.refl s, fun _ _ _ => rfl⟩

theorem Used.trans {buffer : Fin 4} {s middle next : SessionState Store count}
    (hfirst : Used buffer s middle) (hsecond : Used buffer middle next) : Used buffer s next :=
  ⟨scratched_frame.trans hfirst.scratched hsecond.scratched, fun other hother hkey =>
    (hsecond.others other hother hkey).trans (hfirst.others other hother hkey)⟩

section Reads

variable {hooks : ValueHooks Store} {view : Store → CString → Option Bytes}
  (hlawful : hooks.Lawful view) (session : SessionImpl Number count)
  {s : SessionState Store count} {key : SessionText} {buffer place : Fin 4} {name : CString}

/-! ## Steps -/

theorem reserveScratch_leads (s : SessionState Store count) (buffer : Fin 4) (bytes limit : Nat) :
    Leads s (reserveScratch buffer bytes limit : SessionM Store count PUnit)
      (fun _ next => ∃ data fresh, bytes < data.length ∧
        next = { s with fresh }.withScratch buffer data)
      (fun next => Used buffer s next) := by
  unfold reserveScratch
  refine .step (on_get _) ?_
  refine .step (on_modify _ _) ?_
  cases hreserve : sessionBufferReserve (s.scratch buffer) bytes limit
      (s.fresh.headD (some fun _ => 0)) with
  | error code => exact .throw ⟨⟨s.scratch, _, s.queries, rfl⟩, fun _ _ _ => rfl⟩
  | ok data => exact .modify ⟨data, _, (sessionBufferReserve_room hreserve).2, rfl⟩

include hlawful

/-- The read of a text that is stored. -/
theorem readValue_leads {text : Bytes} (hkey : key.Holds s place name.bytes)
    (hplace : place ≠ buffer) (hstored : view s.store name = some text) :
    Leads s (readValue hooks session key buffer text.length)
      (fun value next => value.Holds next buffer text ∧ Used buffer s next)
      (fun next => Used buffer s next) := by
  unfold readValue
  refine .bind (reserveScratch_leads s buffer _ _) ?_
  rintro ⟨⟩ _ ⟨data, fresh, hroom, rfl⟩
  -- The terminator is put behind the text that is to come, and then the text before it.
  let blank := Arena.write data text.length [0]
  let reserved := ({ s with fresh } : SessionState Store count)
  let start := (reserved.withScratch buffer data).withScratch buffer blank
  let last := start.withScratch buffer (Arena.write blank 0 (text ++ [0]))
  have hblank : blank.length = data.length := Arena.length_write hroom
  have hstart : start.scratch buffer = blank := withScratch_self _ _ _
  have hothers : ∀ other, other ≠ buffer → start.scratch other = s.scratch other := by
    intro other hother
    rw [withScratch_of_ne _ _ _ hother, withScratch_of_ne _ _ _ hother]
  have hname : key.cString start = name :=
    (hkey.of_same (hothers place hplace)).cString_eq name.nulFree
  have hreply : hooks.valueGet start.store name blank.length = ⟨.ok, text.length, text ++ [0]⟩ :=
    hlawful.read hstored (by omega)
  have hbuffer : last.scratch buffer = text ++ 0 :: blank.drop (text.length + 1) := by
    rw [withScratch_self]
    simp [Arena.write]
  have hlast : Used buffer s last := by
    refine ⟨⟨_, _, _, rfl⟩, fun other hother _ => ?_⟩
    rw [withScratch_of_ne _ _ _ hother, hothers other hother]
  have hrun : on (do
      let name ← keyOf key
      let s ← get
      let reply := hooks.valueGet s.store name (s.scratch buffer).length
      putScratch buffer 0 reply.data
      let s ← get
      if reply.answer ≠ .ok ∨ reply.size ≠ text.length ∨
          (s.scratch buffer)[text.length]? ≠ some 0 then throw Salts.eio
      else return SessionText.scratch buffer reply.size) start =
      (.ok (.scratch buffer text.length), last) := by
    rw [on_bind_ok (on_keyOf key _), hname, on_bind_ok (on_get _), hstart, hreply,
      on_bind_ok (on_putScratch _ _ _ _), hstart, on_bind_ok (on_get _)]
    change on (if _ ∨ _ ∨ (last.scratch buffer)[text.length]? ≠ some 0 then _ else _) last = _
    rw [hbuffer, if_neg (by simp)]
    rfl
  refine .step (on_putScratch _ _ _ _) ?_
  rw [withScratch_self]
  exact .of_ok hrun ⟨.inr ⟨rfl, _, hbuffer⟩, hlast⟩

/-- `session_get`. -/
theorem sessionGet_leads (hkey : key.Holds s place name.bytes) (hplace : place ≠ buffer) :
    Leads s (sessionGet hooks session key buffer)
      (fun value next => ∃ text, view s.store name = some text ∧ value.Holds next buffer text ∧
        Used buffer s next)
      (fun next => Used buffer s next) := by
  have hname : key.cString s = name := hkey.cString_eq name.nulFree
  unfold sessionGet
  refine .ite (fun _ => .throw (.refl buffer s)) fun _ => ?_
  refine .step (on_keyOf key s) ?_
  rw [hname]
  refine .step (on_modify _ _) ?_
  have hasked : Used buffer s { s with queries := s.queries ++ [name] } :=
    ⟨⟨_, _, _, rfl⟩, fun _ _ _ => rfl⟩
  refine .step (on_get _) ?_
  dsimp only
  refine .ite (fun _ => .throw hasked) fun _ => ?_
  refine .ite (fun hempty => ?_) fun hsome => .ite (fun _ => .throw hasked) fun hsmall => ?_
  · cases hstored : view s.store name with
    | none => exact absurd hempty.1 (hlawful.missing hstored).1
    | some text =>
        have hsize : text.length = 0 := (hlawful.size hstored).symm.trans hempty.2
        obtain rfl := List.eq_nil_of_length_eq_zero hsize
        exact .pure ⟨[], rfl, .inl rfl, hasked⟩
  · rw [ne_eq, not_not] at hsmall
    cases hstored : view s.store name with
    | none => exact absurd hsmall (hlawful.missing hstored).2
    | some text =>
        rw [hlawful.size hstored]
        refine .mono (readValue_leads hlawful session (s := { s with queries := _ })
          (hkey.of_same rfl) hplace hstored) ?_ fun next hused => hasked.trans hused
        rintro value next ⟨hholds, hused⟩
        exact ⟨text, rfl, hholds, hasked.trans hused⟩

/-- `session_has`. -/
theorem sessionHas_leads (hkey : key.Holds s place name.bytes) :
    Leads s (sessionHas hooks key : SessionM Store count Bool)
      (fun yes next => next = s ∧ yes = (view s.store name).isSome) (fun next => next = s) := by
  unfold sessionHas
  refine .step (on_keyOf key s) ?_
  rw [hkey.cString_eq name.nulFree]
  refine .step (on_get _) ?_
  cases hcontains : hooks.valueContains s.store ⟨name.bytes, name.nulFree⟩ with
  | none => exact .throw rfl
  | some yes => exact .pure ⟨rfl, hlawful.contains hcontains⟩

/-- The value of a key that may not be there. -/
theorem getOrEmpty_leads (hkey : key.Holds s place name.bytes) (hplace : place ≠ buffer) :
    Leads s (getOrEmpty session hooks key buffer)
      (fun value next => value.Holds next buffer (valueAt (view s.store) name) ∧ Used buffer s next)
      (fun next => Used buffer s next) := by
  unfold getOrEmpty valueAt
  refine .bind (.mono (sessionHas_leads hlawful hkey) (fun _ _ hyes => hyes) ?_) ?_
  · intro next hnext
    rw [hnext]
    exact .refl buffer s
  rintro yes next ⟨hnext, hyes⟩
  rw [hnext, hyes]
  cases hstored : view s.store name with
  | none =>
      exact .pure ⟨.inl rfl, .refl buffer s⟩
  | some text =>
      refine .mono (sessionGet_leads hlawful session hkey hplace) ?_ fun _ hused => hused
      rintro value next ⟨text', htext, hholds, hused⟩
      rw [hstored] at htext
      obtain rfl := Option.some.inj htext
      exact ⟨hholds, hused⟩

/-- `session_set`. -/
theorem sessionSet_leads (value : SessionText) (hkey : key.cString s = name) :
    Leads s (sessionSet hooks session key value)
      (fun _ next => ∃ store, next = { s with store } ∧
        view store = Function.update (view s.store) name (some (value.read s)))
      (fun next => next = s) := by
  unfold sessionSet
  refine .step (on_textOf value s) ?_
  refine .ite (fun _ => .throw rfl) fun _ => ?_
  refine .step (on_keyOf key s) ?_
  refine .step (on_get _) ?_
  rw [hkey]
  cases hset : hooks.setBytes with
  | some setBytes =>
      dsimp only
      cases hstore : setBytes s.store name (value.read s) with
      | none => exact .throw rfl
      | some store => exact .modify ⟨store, rfl, hlawful.setBytes hset hstore⟩
  | none =>
      dsimp only
      cases htext : CString.ofBytes (value.read s) with
      | none => exact .throw rfl
      | some text =>
          dsimp only
          cases hstore : hooks.valueSet s.store name text with
          | none => exact .throw rfl
          | some store =>
              refine .modify ⟨store, rfl, ?_⟩
              rw [hlawful.set hstore]
              unfold CString.ofBytes at htext
              split at htext
              · cases htext
              · obtain rfl := Option.some.inj htext
                rfl

/-! ## Parameters -/

variable (numbers : SessionNumbers Number)

/-- `session_resolve` of a text. -/
theorem resolveText_leads (text : Bytes) (hbuffer : buffer ≠ 3) :
    Leads s (resolveText hooks session text buffer)
      (fun value next => ∃ resolved,
        (if 3 ≤ text.length ∧ text.head? = some 123 ∧ text.getLast? = some 125 then
          (CString.ofBytes ((text.drop 1).take (text.length - 2))).bind (view s.store)
        else some text) = some resolved ∧ value.Holds next buffer resolved ∧ Used buffer s next)
      (fun next => Used buffer s next) := by
  unfold resolveText
  refine .ite (fun _ => .throw (.refl buffer s)) fun _ => .ite (fun hbraced => ?_) fun hplain => ?_
  · rw [if_pos hbraced]
    have hlength : ((text.drop 1).take (text.length - 2)).length = text.length - 2 := by
      rw [List.length_take, List.length_drop]
      omega
    generalize (text.drop 1).take (text.length - 2) = inner at hlength ⊢
    have hkept : ∀ {next : SessionState Store count}, Used 3 s next → Used buffer s next :=
      fun hused => ⟨hused.scratched, fun other _ hkey => hused.others other hkey hkey⟩
    refine .bind (.mono (reserveScratch_leads s 3 _ _) (fun _ _ hdata => hdata)
      fun _ hused => hkept hused) ?_
    rintro ⟨⟩ _ ⟨data, fresh, hroom, rfl⟩
    refine .step (on_putScratch _ _ _ _) ?_
    refine .step (on_putScratch _ _ _ _) ?_
    rw [withScratch_self, withScratch_self]
    have hused : Used 3 s ((({ s with fresh }.withScratch 3 data).withScratch 3
        (Arena.write data 0 inner)).withScratch 3
          (Arena.write (Arena.write data 0 inner) (text.length - 2) [0])) := by
      refine ⟨⟨_, _, _, rfl⟩, fun other hother _ => ?_⟩
      rw [withScratch_of_ne _ _ _ hother, withScratch_of_ne _ _ _ hother,
        withScratch_of_ne _ _ _ hother]
    refine .ite (fun _ => .throw (hkept hused)) fun hzero => ?_
    have hname : CString.ofBytes inner = some ⟨inner, hzero⟩ := by
      unfold CString.ofBytes
      rw [dif_neg hzero]
    rw [hname, Option.bind_some]
    have hwritten : Arena.write (Arena.write data 0 inner) (text.length - 2) [0] =
        Arena.write data 0 (inner ++ [0]) := by
      rw [← Arena.write_append (by rw [Nat.zero_add, hlength]; exact hroom), Nat.zero_add, hlength]
    have hholds : (SessionText.scratch 3 (text.length - 2)).Holds ((({ s with fresh }.withScratch 3
        data).withScratch 3 (Arena.write data 0 inner)).withScratch 3
          (Arena.write (Arena.write data 0 inner) (text.length - 2) [0])) 3 inner := by
      refine .inr ⟨by rw [hlength], data.drop (inner.length + 1), ?_⟩
      rw [withScratch_self, hwritten]
      simp [Arena.write]
    have hkey : (SessionText.scratch 3 (text.length - 2)).Holds _ 3 (CString.mk inner hzero).bytes :=
      hholds
    refine .mono (sessionGet_leads hlawful session hkey (Ne.symm hbuffer)) ?_
      fun _ hread => (hkept hused).trans hread
    rintro value next ⟨resolved, hstored, hvalue, hread⟩
    exact ⟨resolved, hstored, hvalue, (hkept hused).trans hread⟩
  · rw [if_neg hplain]
    exact .pure ⟨text, rfl, .inl rfl, .refl buffer s⟩

/-- `session_resolve`. -/
theorem sessionResolve_leads (node : Fin count) (parameter : String) (fallback : Option String)
    (hbuffer : buffer ≠ 3) :
    Leads s (sessionResolve numbers hooks session node parameter fallback buffer)
      (fun value next => ∃ text,
        resolvedText numbers session (view s.store) node parameter fallback = some text ∧
          value.Holds next buffer text ∧ Used buffer s next)
      (fun next => Used buffer s next) := by
  unfold sessionResolve resolvedText
  rw [if_neg hbuffer]
  cases sessionParameter session node parameter with
  | none =>
      cases fallback with
      | none => exact .throw (.refl buffer s)
      | some text =>
          refine .ite (fun _ => .throw (.refl buffer s)) fun _ => ?_
          exact .pure ⟨_, rfl, .inl rfl, .refl buffer s⟩
  | some value =>
      cases value with
      | boolean value => exact .pure ⟨_, rfl, .inl rfl, .refl buffer s⟩
      | string text => exact resolveText_leads hlawful session text hbuffer
      | number value =>
          dsimp only
          cases hfinite : numbers.isfinite value with
          | false => exact .throw (.refl buffer s)
          | true =>
              refine .bind (reserveScratch_leads s buffer _ _) ?_
              rintro ⟨⟩ _ ⟨data, fresh, hroom, rfl⟩
              refine .step (on_putScratch _ _ _ _) ?_
              rw [withScratch_self]
              refine .pure ⟨_, rfl, .inr ⟨rfl, data.drop ((numbers.format value).length + 1), ?_⟩,
                ⟨_, _, _, rfl⟩, fun other hother _ => ?_⟩
              · rw [withScratch_self]
                simp [Arena.write]
              · rw [withScratch_of_ne _ _ _ hother, withScratch_of_ne _ _ _ hother]

/-- `session_key`. -/
theorem sessionKey_leads (node : Fin count) (parameter : String) (fallback : Option String)
    (hbuffer : buffer ≠ 3) :
    Leads s (sessionKey numbers hooks session node parameter fallback buffer)
      (fun value next => ∃ name : CString,
        namedKey numbers session (view s.store) node parameter fallback = some name ∧
          value.Holds next buffer name.bytes ∧ Used buffer s next)
      (fun next => Used buffer s next) := by
  unfold sessionKey namedKey
  refine .bind (sessionResolve_leads hlawful session numbers node parameter fallback hbuffer) ?_
  rintro value next ⟨text, htext, hholds, hused⟩
  refine .step (on_textOf value next) ?_
  rw [hholds.read_eq]
  refine .ite (fun _ => .throw hused) fun hzero => ?_
  refine .pure ⟨⟨text, hzero⟩, ?_, hholds, hused⟩
  rw [htext, Option.bind_some]
  unfold CString.ofBytes
  rw [dif_neg hzero]

omit hlawful in
/-- `session_integer` of a number. -/
theorem sessionInteger_leads {node : Fin count} {parameter : String} {value : Number}
    (hparameter : sessionParameter session node parameter = some (.number value)) (fallback : Int) :
    Leads s (sessionInteger numbers hooks session node parameter fallback)
      (fun parsed next => next = s ∧ numbers.toInt value = some parsed) (fun next => next = s) := by
  unfold sessionInteger
  rw [hparameter]
  dsimp only
  cases hint : numbers.toInt value with
  | none => exact .throw rfl
  | some parsed => exact .pure ⟨rfl, rfl⟩

end Reads

end Praktor.Session
