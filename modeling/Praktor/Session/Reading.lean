/-
# Reading the values of a session

A read changes scratch buffers, takes memory, and asks for keys, and nothing else.  When memory is
there and the value is within its bound, a read gives the text that is stored, and the text stays
what it is for as long as its buffer is not used again.
-/

import Praktor.Session.Values

namespace Praktor.Session

open Praktor.Data Praktor.Math Stateful

variable {Store Number : Type} {count : Nat}

/-! ## Frames -/

/-- Nothing has changed but scratch buffers, memory and the keys that were asked for. -/
def Scratched (s next : SessionState Store count) : Prop :=
  ∃ scratch fresh queries, next = { s with scratch, fresh, queries }

theorem scratched_frame : Frame (@Scratched Store count) where
  refl := fun s => ⟨s.scratch, s.fresh, s.queries, rfl⟩
  trans := by
    rintro first second third ⟨scratch, fresh, queries, rfl⟩ ⟨scratch', fresh', queries', rfl⟩
    exact ⟨scratch', fresh', queries', rfl⟩

/-- Nothing has changed but scratch buffers and memory. -/
def Buffered (s next : SessionState Store count) : Prop :=
  ∃ scratch fresh, next = { s with scratch, fresh }

theorem buffered_frame : Frame (@Buffered Store count) where
  refl := fun s => ⟨s.scratch, s.fresh, rfl⟩
  trans := by
    rintro first second third ⟨scratch, fresh, rfl⟩ ⟨scratch', fresh', rfl⟩
    exact ⟨scratch', fresh', rfl⟩

theorem Buffered.scratched {s next : SessionState Store count} (hbuffered : Buffered s next) :
    Scratched s next := by
  obtain ⟨scratch, fresh, rfl⟩ := hbuffered
  exact ⟨scratch, fresh, s.queries, rfl⟩

theorem textOf_keeps (value : SessionText) :
    Keeps Buffered (textOf value : SessionM Store count Bytes) :=
  .bind buffered_frame (.get buffered_frame) fun _ => .pure buffered_frame _

theorem keyOf_keeps (value : SessionText) :
    Keeps Buffered (keyOf value : SessionM Store count CString) :=
  .bind buffered_frame (.get buffered_frame) fun _ => .pure buffered_frame _

theorem putScratch_keeps (buffer : Fin 4) (offset : Nat) (items : Bytes) :
    Keeps Buffered (putScratch buffer offset items : SessionM Store count PUnit) :=
  .modify fun s => ⟨_, s.fresh, rfl⟩

theorem reserveScratch_keeps (buffer : Fin 4) (bytes limit : Nat) :
    Keeps Buffered (reserveScratch buffer bytes limit : SessionM Store count PUnit) := by
  refine .bind buffered_frame (.get buffered_frame) fun s => ?_
  refine .bind buffered_frame (.modify fun s => ⟨s.scratch, _, rfl⟩) fun _ => ?_
  split
  · exact .throw buffered_frame _
  · exact .modify fun s => ⟨_, s.fresh, rfl⟩

section Keeping

variable (numbers : SessionNumbers Number) (hooks : ValueHooks Store)
  (session : SessionImpl Number count)

theorem readValue_keeps (key : SessionText) (scratch : Fin 4) (required : Nat) :
    Keeps Buffered (readValue hooks session key scratch required) := by
  refine .bind buffered_frame (reserveScratch_keeps _ _ _) fun _ => ?_
  refine .bind buffered_frame (putScratch_keeps _ _ _) fun _ => ?_
  refine .bind buffered_frame (keyOf_keeps key) fun name => ?_
  refine .bind buffered_frame (.get buffered_frame) fun s => ?_
  refine .bind buffered_frame (putScratch_keeps _ _ _) fun _ => ?_
  refine .bind buffered_frame (.get buffered_frame) fun s => ?_
  exact .ite (.throw buffered_frame _) (.pure buffered_frame _)

end Keeping

/-! ## Texts -/

/-- A text is its own, or it stands in a buffer with a NUL behind it. -/
def SessionText.Holds (value : SessionText) (s : SessionState Store count) (buffer : Fin 4)
    (text : Bytes) : Prop :=
  value = .bytes text ∨
    value = .scratch buffer text.length ∧ ∃ rest, s.scratch buffer = text ++ 0 :: rest

/-- A key in braces. -/
def bracedKey (name : CString) : Bytes := [123] ++ name.bytes ++ [125]

theorem braced_bracedKey (name : CString) : Braced (bracedKey name) :=
  ⟨by simp [bracedKey], rfl, List.getLast?_concat⟩

/-- A text in braces is a key in braces, when it has no NUL. -/
theorem eq_bracedKey {text : Bytes} (htext : Braced text) (hzero : 0 ∉ text) :
    ∃ name, text = bracedKey name := by
  obtain ⟨hlength, hhead, hlast⟩ := htext
  cases text with
  | nil => cases hhead
  | cons first rest =>
      obtain rfl := Option.some.inj hhead
      have hrest : rest ≠ [] := by
        rintro rfl
        simp at hlength
      rw [List.getLast?_cons, List.getLast?_eq_some_getLast hrest, Option.getD_some] at hlast
      have hzero' : 0 ∉ rest.dropLast := fun hmem =>
        hzero (List.mem_cons_of_mem _ (List.mem_of_mem_dropLast hmem))
      refine ⟨⟨rest.dropLast, hzero'⟩, ?_⟩
      show 123 :: rest = 123 :: (rest.dropLast ++ [125])
      rw [← Option.some.inj hlast, List.dropLast_concat_getLast]

section Texts

variable {value : SessionText} {s next : SessionState Store count} {buffer : Fin 4} {text : Bytes}

theorem SessionText.Holds.read_eq (hholds : value.Holds s buffer text) : value.read s = text := by
  rcases hholds with rfl | ⟨rfl, rest, hbuffer⟩
  · rfl
  · rw [SessionText.read, hbuffer, List.take_left]

theorem SessionText.Holds.cString_eq (hholds : value.Holds s buffer text) (hzero : 0 ∉ text) :
    value.cString s = ⟨text, hzero⟩ := by
  apply CString.ext
  rcases hholds with rfl | ⟨rfl, rest, hbuffer⟩
  · exact CString.ofBuffer_bytes hzero
  · rw [SessionText.cString, hbuffer]
    show (text ++ 0 :: rest).takeWhile (· ≠ 0) = text
    rw [List.takeWhile_append_of_pos fun byte hbyte => ?_]
    · simp
    · simpa using fun hsame : byte = 0 => hzero (hsame ▸ hbyte)

/-- A text stays while its buffer does. -/
theorem SessionText.Holds.of_same (hholds : value.Holds s buffer text)
    (hsame : next.scratch buffer = s.scratch buffer) : value.Holds next buffer text := by
  rcases hholds with rfl | ⟨rfl, rest, hbuffer⟩
  · exact .inl rfl
  · exact .inr ⟨rfl, rest, hsame.trans hbuffer⟩

end Texts

@[simp]
theorem on_textOf (value : SessionText) (s : SessionState Store count) :
    on (textOf value) s = (.ok (value.read s), s) := rfl

@[simp]
theorem on_keyOf (value : SessionText) (s : SessionState Store count) :
    on (keyOf value) s = (.ok (value.cString s), s) := rfl

/-! ## Reads that succeed -/

section Scratch

variable (s : SessionState Store count) (buffer : Fin 4) (data : Bytes)

@[simp]
theorem withScratch_self : (s.withScratch buffer data).scratch buffer = data :=
  Function.update_self _ _ _

@[simp]
theorem withScratch_of_ne {other : Fin 4} (hother : other ≠ buffer) :
    (s.withScratch buffer data).scratch other = s.scratch other :=
  Function.update_of_ne hother _ _

@[simp]
theorem on_putScratch (offset : Nat) (items : Bytes) :
    on (putScratch buffer offset items) s =
      (.ok ⟨⟩, s.withScratch buffer (Arena.write (s.scratch buffer) offset items)) := rfl

end Scratch

/-- A reservation within the limit gives room for one byte more. -/
theorem on_reserveScratch {s : SessionState Store count} (hmemory : none ∉ s.fresh)
    {bytes limit : Nat} (hbytes : bytes ≤ limit) (hlimit : limit < sizeMax) (buffer : Fin 4) :
    ∃ data, bytes < data.length ∧
      on (reserveScratch buffer bytes limit : SessionM Store count PUnit) s =
        (.ok ⟨⟩, { s with fresh := s.fresh.tail }.withScratch buffer data) := by
  obtain ⟨bits, hfresh⟩ : ∃ bits, s.fresh.headD (some fun _ => 0) = some bits := by
    cases hlist : s.fresh with
    | nil => exact ⟨_, rfl⟩
    | cons outcome rest =>
        rw [hlist, List.mem_cons, not_or] at hmemory
        obtain ⟨bits, rfl⟩ := Option.ne_none_iff_exists'.mp (Ne.symm hmemory.1)
        exact ⟨bits, rfl⟩
  obtain ⟨data, hreserve⟩ :=
    sessionBufferReserve_exists hbytes hlimit (s.scratch buffer) bits
  refine ⟨data, (sessionBufferReserve_room hreserve).2, ?_⟩
  unfold reserveScratch
  rw [on_bind_ok (on_get s), on_bind_ok (on_modify _ s), hfresh, hreserve]
  rfl

theorem notMem_tail {fresh : List Fresh} (hmemory : none ∉ fresh) : none ∉ fresh.tail :=
  fun hmem => hmemory (List.mem_of_mem_tail hmem)

/-- What a read that succeeds leaves: the text, and all buffers but the one for it. -/
structure Fetched (s next : SessionState Store count) (value : SessionText) (buffer : Fin 4)
    (text : Bytes) : Prop where
  scratched : Scratched s next
  memory : none ∉ next.fresh
  holds : value.Holds next buffer text
  others : ∀ other, other ≠ buffer → next.scratch other = s.scratch other

section Reads

variable (hooks : ValueHooks Store) (session : SessionImpl Number count)
  {s : SessionState Store count} {key : SessionText} {buffer place : Fin 4} {name : CString}
  {text : Bytes}

/-- A read into a buffer that the key is not in. -/
theorem readValue_fetched (hmemory : none ∉ s.fresh) (hkey : key.Holds s place name.bytes)
    (hplace : place ≠ buffer) (hstored : hooks.Stores s.store name text)
    (hfits : text.length ≤ session.config.maxValueBytes) :
    ∃ value next, on (readValue hooks session key buffer text.length) s = (.ok value, next) ∧
      Fetched s next value buffer text ∧ next.queries = s.queries := by
  obtain ⟨data, hroom, hreserve⟩ :=
    on_reserveScratch hmemory hfits session.config.values_lt buffer
  -- The terminator is put behind the text that is to come, and then the text before it.
  let blank := Arena.write data text.length [0]
  have hblank : blank.length = data.length := Arena.length_write hroom
  let reserved := ({ s with fresh := s.fresh.tail } : SessionState Store count)
  let last := ((reserved.withScratch buffer data).withScratch buffer blank).withScratch buffer
    (Arena.write blank 0 (text ++ [0]))
  have hname : key.cString ((reserved.withScratch buffer data).withScratch buffer blank) = name := by
    refine (hkey.of_same ?_).cString_eq name.nulFree
    rw [withScratch_of_ne _ _ _ hplace, withScratch_of_ne _ _ _ hplace]
  have hreply : hooks.valueGet ((reserved.withScratch buffer data).withScratch buffer blank).store
      name blank.length = ⟨.ok, text.length, text ++ [0]⟩ := hstored.read _ (by omega)
  have hbuffer : last.scratch buffer = text ++ 0 :: blank.drop (text.length + 1) := by
    rw [withScratch_self]
    simp [Arena.write]
  have hstart : ((reserved.withScratch buffer data).withScratch buffer blank).scratch buffer = blank :=
    withScratch_self _ _ _
  refine ⟨.scratch buffer text.length, last, ?_, ⟨?_, notMem_tail hmemory, ?_, ?_⟩, rfl⟩
  · unfold readValue
    rw [on_bind_ok hreserve, on_bind_ok (on_putScratch _ _ _ _), withScratch_self,
      on_bind_ok (on_keyOf key _)]
    change on (get >>= _) ((reserved.withScratch buffer data).withScratch buffer blank) = _
    rw [hname, on_bind_ok (on_get _), hstart, hreply, on_bind_ok (on_putScratch _ _ _ _), hstart,
      on_bind_ok (on_get _)]
    change on (if _ ∨ _ ∨ (last.scratch buffer)[text.length]? ≠ some 0 then _ else _) last = _
    rw [hbuffer, if_neg (by simp)]
    rfl
  · exact ⟨_, _, _, rfl⟩
  · exact .inr ⟨rfl, _, hbuffer⟩
  · intro other hother
    rw [withScratch_of_ne _ _ _ hother, withScratch_of_ne _ _ _ hother,
      withScratch_of_ne _ _ _ hother]

/-- Whatever comes of it, the key of `session_get` is asked for. -/
theorem sessionGet_queries (hbuffer : buffer ≠ 3) :
    (on (sessionGet hooks session key buffer) s).2.queries = s.queries ++ [key.cString s] := by
  let asked : SessionState Store count := { s with queries := s.queries ++ [key.cString s] }
  unfold sessionGet
  rw [if_neg hbuffer, on_bind_ok (on_keyOf key s), on_bind_ok (on_modify _ s),
    on_bind_ok (on_get _)]
  dsimp only
  split
  · rfl
  split
  · rfl
  split
  · rfl
  · obtain ⟨scratch, fresh, hnext⟩ := readValue_keeps hooks session key buffer _ asked
    exact congrArg SessionState.queries hnext

/-- `session_get` of a text that is stored. -/
theorem sessionGet_fetched (hmemory : none ∉ s.fresh) (hbuffer : buffer ≠ 3)
    (hkey : key.Holds s place name.bytes) (hplace : place ≠ buffer)
    (hstored : hooks.Stores s.store name text)
    (hfits : text.length ≤ session.config.maxValueBytes) :
    ∃ value next, on (sessionGet hooks session key buffer) s = (.ok value, next) ∧
      Fetched s next value buffer text ∧ next.queries = s.queries ++ [name] := by
  have hname : key.cString s = name := hkey.cString_eq name.nulFree
  let asked : SessionState Store count := { s with queries := s.queries ++ [name] }
  unfold sessionGet
  rw [if_neg hbuffer, on_bind_ok (on_keyOf key s), hname, on_bind_ok (on_modify _ s),
    on_bind_ok (on_get _)]
  by_cases hempty : text = []
  · subst hempty
    have hanswer := hstored.empty rfl
    have hsize : (hooks.valueGet s.store name 0).size = 0 := hstored.size
    rw [if_neg (by rw [hanswer]; exact nofun), if_pos ⟨hanswer, hsize⟩]
    exact ⟨_, asked, rfl, ⟨⟨_, _, _, rfl⟩, hmemory, .inl rfl, fun _ _ => rfl⟩, rfl⟩
  · have hanswer := hstored.query hempty
    rw [if_neg (by rw [hanswer]; exact nofun), if_neg (by rw [hanswer]; exact nofun),
      if_neg (not_not.mpr hanswer), hstored.size]
    have hasked : key.Holds asked place name.bytes := hkey.of_same rfl
    obtain ⟨value, next, hread, hfetched, hqueries⟩ := readValue_fetched hooks session
      (s := asked) hmemory hasked hplace hstored hfits
    refine ⟨value, next, hread, ⟨?_, hfetched.memory, hfetched.holds, hfetched.others⟩, hqueries⟩
    exact scratched_frame.trans ⟨s.scratch, s.fresh, _, rfl⟩ hfetched.scratched

variable (buffer) in
/-- `session_resolve` of a key in braces reads the key from the fourth buffer. -/
theorem resolveText_key (hmemory : none ∉ s.fresh) (hnonempty : name.bytes ≠ [])
    (hroom : name.length + 2 ≤ session.config.maxValueBytes) :
    ∃ start, on (resolveText hooks session (bracedKey name) buffer) s =
        on (sessionGet hooks session (.scratch 3 name.length) buffer) start ∧
      Buffered s start ∧ none ∉ start.fresh ∧
      (SessionText.scratch 3 name.length).Holds start 3 name.bytes ∧
      ∀ other, other ≠ 3 → start.scratch other = s.scratch other := by
  have hlength : (bracedKey name).length = name.length + 2 := by simp [bracedKey, CString.length]
  have hpos : 0 < name.length := List.length_pos_iff.mpr hnonempty
  have hinner : ((bracedKey name).drop 1).take (name.length + 2 - 2) = name.bytes := by
    simp [bracedKey, CString.length]
  unfold resolveText
  rw [hlength, if_neg (by omega), if_pos ⟨by omega, rfl, List.getLast?_concat⟩, hinner,
    Nat.add_sub_cancel]
  obtain ⟨data, hdata, hreserve⟩ :=
    on_reserveScratch hmemory (by omega : name.length ≤ _) session.config.values_lt 3
  rw [on_bind_ok hreserve, on_bind_ok (on_putScratch _ _ _ _), withScratch_self,
    on_bind_ok (on_putScratch _ _ _ _), withScratch_self, if_neg name.nulFree]
  refine ⟨_, rfl, ⟨_, _, rfl⟩, notMem_tail hmemory, ?_, fun other hother => ?_⟩
  · have hwritten : Arena.write (Arena.write data 0 name.bytes) name.length [0] =
        Arena.write data 0 (name.bytes ++ [0]) := by
      rw [← Arena.write_append (by rw [Nat.zero_add]; exact hdata), Nat.zero_add]
      rfl
    refine .inr ⟨rfl, data.drop (name.length + 1), ?_⟩
    rw [withScratch_self, hwritten]
    simp [Arena.write, CString.length]
  · rw [withScratch_of_ne _ _ _ hother, withScratch_of_ne _ _ _ hother,
      withScratch_of_ne _ _ _ hother]

variable (buffer) in
/-- `session_resolve` of a key under which a text is stored. -/
theorem resolveText_fetched (hmemory : none ∉ s.fresh) (hbuffer : buffer ≠ 3)
    (hnonempty : name.bytes ≠ []) (hroom : name.length + 2 ≤ session.config.maxValueBytes)
    (hstored : hooks.Stores s.store name text)
    (hfits : text.length ≤ session.config.maxValueBytes) :
    ∃ value next, on (resolveText hooks session (bracedKey name) buffer) s = (.ok value, next) ∧
      Scratched s next ∧ none ∉ next.fresh ∧ value.Holds next buffer text ∧
      ∀ other, other ≠ buffer → other ≠ 3 → next.scratch other = s.scratch other := by
  obtain ⟨start, hresolve, hbuffered, hmemory', hkey, hothers⟩ :=
    resolveText_key hooks session buffer hmemory hnonempty hroom
  have hstore : start.store = s.store := by
    obtain ⟨scratch, fresh, rfl⟩ := hbuffered
    rfl
  obtain ⟨value, next, hget, hfetched, -⟩ := sessionGet_fetched hooks session hmemory' hbuffer
    hkey (Ne.symm hbuffer) (hstore.symm ▸ hstored) hfits
  refine ⟨value, next, hresolve.trans hget, ?_, hfetched.memory, hfetched.holds, ?_⟩
  · exact scratched_frame.trans hbuffered.scratched hfetched.scratched
  · intro other hother hkeyBuffer
    rw [hfetched.others other hother, hothers other hkeyBuffer]

/-- A key in braces is asked for. -/
theorem resolveText_queries (hmemory : none ∉ s.fresh) (hbuffer : buffer ≠ 3)
    (hnonempty : name.bytes ≠ []) (hroom : name.length + 2 ≤ session.config.maxValueBytes) :
    (on (resolveText hooks session (bracedKey name) buffer) s).2.queries = s.queries ++ [name] := by
  obtain ⟨start, hresolve, ⟨scratch, fresh, rfl⟩, -, hkey, -⟩ :=
    resolveText_key hooks session buffer hmemory hnonempty hroom
  rw [hresolve, sessionGet_queries hooks session hbuffer, hkey.cString_eq name.nulFree]

end Reads

end Praktor.Session
