/-
# The cached state over a run

The pool of a session holds a list of texts, one for each slot that is present, packed in
the order they were cached.  Dropping a text takes it out of the list and caching one puts
it at the end, so every slot keeps its own text along every run of calls.
-/

import Mathlib.Data.List.Induction
import Mathlib.Data.List.Nodup
import Praktor.Session.Cache

namespace Praktor.Session

open Praktor.Data Praktor.Math

variable {count : Nat}

/-- The place and the size of a text. -/
def CachePool.placeOf (pool : CachePool count) (place : SlotPlace count) : Nat × Nat :=
  ((pool.slots place).offset, (pool.slots place).size)

/-- The pool holds these texts, in this order. -/
structure CachePool.Holds (pool : CachePool count) (entries : List (SlotPlace count × Bytes)) :
    Prop where
  nodup : (entries.map Prod.fst).Nodup
  packed : Arena.packed 0 entries <+: pool.data
  used_eq : pool.used = (Arena.packed 0 entries).length
  laid : Arena.Laid pool.placeOf 0 entries
  present_iff : ∀ place, (pool.slots place).present = true ↔ place ∈ entries.map Prod.fst

namespace CachePool.Holds

variable {pool : CachePool count} {entries : List (SlotPlace count × Bytes)}
  {place : SlotPlace count}

theorem empty (count : Nat) : (CachePool.empty count).Holds [] where
  nodup := List.nodup_nil
  packed := List.nil_prefix
  used_eq := rfl
  laid := trivial
  present_iff _ := ⟨nofun, nofun⟩

/-- The entries before and after the one of a slot. -/
theorem split (hholds : pool.Holds entries) (hpresent : (pool.slots place).present = true) :
    ∃ before text after, entries = before ++ (place, text) :: after ∧
      place ∉ before.map Prod.fst ∧ place ∉ after.map Prod.fst ∧
      pool.slots place = ⟨(Arena.packed 0 before).length, text.length, true⟩ := by
  obtain ⟨⟨owner, text⟩, hentry, howner⟩ := List.mem_map.mp ((hholds.present_iff place).mp hpresent)
  obtain rfl : owner = place := howner
  obtain ⟨before, after, rfl⟩ := List.append_of_mem hentry
  have hnodup := hholds.nodup
  rw [List.map_append, List.map_cons, List.nodup_middle] at hnodup
  have habsent := (List.nodup_cons.mp hnodup).1
  rw [List.mem_append, not_or] at habsent
  have hlaid := ((Arena.laid_append 0).mp hholds.laid).2.1
  rw [Nat.zero_add] at hlaid
  refine ⟨before, text, after, rfl, habsent.1, habsent.2, ?_⟩
  have hoffset := congrArg Prod.fst hlaid
  have hsize := congrArg Prod.snd hlaid
  cases hslot : pool.slots owner with
  | mk offset size present =>
      rw [CachePool.placeOf, hslot] at hoffset hsize
      rw [hslot] at hpresent
      dsimp only at hoffset hsize hpresent
      rw [hoffset, hsize, hpresent]

/-- A slot that is present gives the text it holds, and a terminator stands behind it. -/
theorem cached (hholds : pool.Holds entries) {text : Bytes} (hentry : (place, text) ∈ entries) :
    (pool.slots place).present = true ∧ pool.sessionCached place = text ∧
      Arena.read pool.data (pool.slots place).offset ((pool.slots place).size + 1) =
        text ++ [0] := by
  have hpresent := (hholds.present_iff place).mpr (List.mem_map.mpr ⟨_, hentry, rfl⟩)
  obtain ⟨before, stored, after, rfl, hbefore, hafter, hslot⟩ := hholds.split hpresent
  have hsame : text = stored := by
    rcases List.mem_append.mp hentry with hearlier | hlater
    · exact absurd (List.mem_map.mpr ⟨_, hearlier, rfl⟩) hbefore
    rcases List.mem_cons.mp hlater with hhere | hlast
    · exact (Prod.mk.inj hhere).2
    · exact absurd (List.mem_map.mpr ⟨_, hlast, rfl⟩) hafter
  have hread := Arena.read_packed hholds.packed
  subst hsame
  refine ⟨hpresent, ?_, by rw [hslot]; exact hread⟩
  rw [CachePool.sessionCached, if_pos hpresent, hslot]
  have hinitial := congrArg (List.take text.length) hread
  rwa [Arena.read, List.take_take, Nat.min_eq_left (Nat.le_succ _), List.take_left] at hinitial

/-- A slot that is not present gives nothing. -/
theorem absent (hholds : pool.Holds entries) (hplace : place ∉ entries.map Prod.fst) :
    (pool.slots place).present = false ∧ pool.sessionCached place = [] := by
  have hfalse : (pool.slots place).present = false := by
    rw [← Bool.not_eq_true, hholds.present_iff]
    exact hplace
  exact ⟨hfalse, by rw [CachePool.sessionCached, hfalse]; rfl⟩

/-- The bytes of a slot are among the bytes in use. -/
theorem size_lt_used (hholds : pool.Holds entries) (hpresent : (pool.slots place).present = true) :
    (pool.slots place).size + 1 ≤ pool.used := by
  obtain ⟨before, text, after, rfl, -, -, hslot⟩ := hholds.split hpresent
  rw [hslot, hholds.used_eq, Arena.packed_split, List.length_append, List.length_append,
    List.length_append, List.length_singleton]
  dsimp only
  omega

theorem used_le (hholds : pool.Holds entries) : pool.used ≤ pool.data.length := by
  rw [hholds.used_eq]
  exact hholds.packed.length_le

/-- Dropping a text takes it out of the list. -/
theorem uncache (hholds : pool.Holds entries) (place : SlotPlace count) :
    (pool.sessionUncache place).Holds (entries.filter fun entry => entry.1 ≠ place) := by
  by_cases hpresent : (pool.slots place).present = true
  · obtain ⟨before, text, after, rfl, hbefore, hafter, hslot⟩ := hholds.split hpresent
    have hkeep : (before ++ (place, text) :: after).filter (fun entry => entry.1 ≠ place) =
        before ++ after := by
      rw [List.filter_append, List.filter_cons_of_neg (by simp)]
      congr 1
      · rw [List.filter_eq_self]
        exact fun entry hentry => decide_eq_true fun hsame =>
          hbefore (List.mem_map.mpr ⟨entry, hentry, hsame⟩)
      · rw [List.filter_eq_self]
        exact fun entry hentry => decide_eq_true fun hsame =>
          hafter (List.mem_map.mpr ⟨entry, hentry, hsame⟩)
    have hused := hholds.used_eq
    rw [Arena.packed_split, List.length_append, List.length_append, List.length_append,
      List.length_singleton] at hused
    have hbounds := (Arena.laid_append 0).mp hholds.laid
    obtain ⟨hlaidBefore, -, hlaidAfter⟩ := hbounds
    rw [Nat.zero_add] at hlaidAfter
    rw [hkeep]
    unfold CachePool.sessionUncache
    rw [if_pos hpresent, hslot]
    dsimp only
    have hrest : pool.used - ((Arena.packed 0 before).length + (text.length + 1)) =
        (Arena.packed 0 after).length := by omega
    rw [hrest]
    have hpresentOf : ∀ entry ∈ before ++ (place, text) :: after,
        (pool.slots entry.1).present = true := fun entry hentry =>
      (hholds.present_iff entry.1).mpr (List.mem_map.mpr ⟨entry, hentry, rfl⟩)
    exact {
      nodup := by
        have hnodup := hholds.nodup
        rw [List.map_append, List.map_cons, List.nodup_middle, ← List.map_append] at hnodup
        exact (List.nodup_cons.mp hnodup).2
      packed := Arena.packed_remove hholds.packed
      used_eq := by
        rw [Arena.packed_append, List.length_append]
        dsimp only
        omega
      laid := by
        refine (Arena.laid_append 0).mpr ⟨hlaidBefore.congr fun entry hentry => ?_, ?_⟩
        · have hne : entry.1 ≠ place := fun hsame =>
            hbefore (List.mem_map.mpr ⟨entry, hentry, hsame⟩)
          obtain ⟨-, -, hstop⟩ := hlaidBefore.bounds 0 hentry
          rw [Nat.zero_add] at hstop
          have hstays : ¬ ((pool.slots entry.1).present && decide ((pool.slots entry.1).offset ≥
              (Arena.packed 0 before).length + (text.length + 1))) = true := by
            rw [Bool.and_eq_true, decide_eq_true_iff]
            rintro ⟨-, hbehind⟩
            change (pool.slots entry.1).offset + _ ≤ _ at hstop
            omega
          rw [CachePool.placeOf]
          dsimp only
          rw [Function.update_of_ne hne, if_neg hstays]
          rfl
        · rw [Nat.zero_add]
          refine hlaidAfter.shift fun entry hentry => ?_
          have hne : entry.1 ≠ place := fun hsame =>
            hafter (List.mem_map.mpr ⟨entry, hentry, hsame⟩)
          obtain ⟨hstart, -, -⟩ := hlaidAfter.bounds 0 hentry
          have hmoves : ((pool.slots entry.1).present && decide ((pool.slots entry.1).offset ≥
              (Arena.packed 0 before).length + (text.length + 1))) = true := by
            rw [Bool.and_eq_true, decide_eq_true_iff]
            exact ⟨hpresentOf entry (List.mem_append_right _ (List.mem_cons_of_mem _ hentry)), hstart⟩
          rw [CachePool.placeOf]
          dsimp only
          rw [Function.update_of_ne hne, if_pos hmoves]
          rfl
      present_iff := by
        intro other
        by_cases hother : other = place
        · subst hother
          dsimp only
          rw [Function.update_self, List.map_append, List.mem_append]
          exact ⟨nofun, fun hmember => hmember.elim (absurd · hbefore) (absurd · hafter)⟩
        · have hsame := hholds.present_iff other
          rw [List.map_append, List.map_cons, List.mem_append, List.mem_cons] at hsame
          dsimp only
          rw [Function.update_of_ne hother, List.map_append, List.mem_append]
          simp only [hother, false_or] at hsame
          rw [← hsame]
          split
          · exact Iff.rfl
          · exact Iff.rfl }
  · have habsent : place ∉ entries.map Prod.fst := mt (hholds.present_iff place).mpr hpresent
    have hkeep : entries.filter (fun entry => entry.1 ≠ place) = entries := by
      rw [List.filter_eq_self]
      exact fun entry hentry => decide_eq_true fun hsame =>
        habsent (List.mem_map.mpr ⟨entry, hentry, hsame⟩)
    rw [hkeep, CachePool.sessionUncache, if_neg hpresent]
    exact hholds

/-- More memory behind the bytes in use. -/
theorem widen (hholds : pool.Holds entries) {data : Bytes} (hdata : pool.data <+: data) :
    ({ pool with data } : CachePool count).Holds entries where
  nodup := hholds.nodup
  packed := hholds.packed.trans hdata
  used_eq := hholds.used_eq
  laid := hholds.laid
  present_iff := hholds.present_iff

/-- A text is written behind the last one. -/
theorem concat (hholds : pool.Holds entries) {value : Bytes}
    (hplace : place ∉ entries.map Prod.fst)
    (hfits : pool.used + value.length + 1 ≤ pool.data.length) :
    (CachePool.mk
      (Arena.write (Arena.write pool.data pool.used value) (pool.used + value.length) [0])
      (pool.used + value.length + 1)
      (Function.update pool.slots place ⟨pool.used, value.length, true⟩)).Holds
      (entries ++ [(place, value)]) where
  nodup := by
    rw [List.map_append, List.map_singleton, List.nodup_append]
    refine ⟨hholds.nodup, List.nodup_singleton _, fun owner howner other hother => ?_⟩
    obtain rfl : other = place := List.mem_singleton.mp hother
    rintro rfl
    exact hplace howner
  packed := by
    have hused := hholds.used_eq
    dsimp only
    rw [hused] at hfits ⊢
    exact Arena.packed_concat place hholds.packed hfits
  used_eq := by
    rw [Arena.length_packed_append, Arena.length_packed_cons, Arena.packed_nil, List.length_nil,
      ← hholds.used_eq]
    rfl
  laid := by
    refine (Arena.laid_append 0).mpr ⟨hholds.laid.congr fun entry hentry => ?_, ?_, trivial⟩
    · have hne : entry.1 ≠ place := fun hsame => hplace (List.mem_map.mpr ⟨entry, hentry, hsame⟩)
      rw [CachePool.placeOf]
      dsimp only
      rw [Function.update_of_ne hne]
      rfl
    · rw [CachePool.placeOf, Nat.zero_add, ← hholds.used_eq]
      dsimp only
      rw [Function.update_self]
  present_iff := by
    intro other
    dsimp only
    rw [List.map_append, List.mem_append, List.map_singleton, List.mem_singleton]
    by_cases hother : other = place
    · subst hother
      rw [Function.update_self]
      exact ⟨fun _ => .inr rfl, fun _ => rfl⟩
    · rw [Function.update_of_ne hother, hholds.present_iff]
      exact ⟨.inl, fun hmember => hmember.resolve_right hother⟩

end CachePool.Holds

/-! ## Sizes -/

theorem CachePool.used_sessionUncache (pool : CachePool count) (place : SlotPlace count) :
    (pool.sessionUncache place).used = pool.retained place := by
  unfold CachePool.sessionUncache CachePool.retained
  by_cases hpresent : (pool.slots place).present = true
  · rw [if_pos hpresent, if_pos hpresent]
  · rw [if_neg hpresent, if_neg hpresent]
    rfl

theorem CachePool.Holds.length_sessionUncache {pool : CachePool count}
    {entries : List (SlotPlace count × Bytes)} (hholds : pool.Holds entries)
    (place : SlotPlace count) : (pool.sessionUncache place).data.length = pool.data.length := by
  unfold CachePool.sessionUncache
  by_cases hpresent : (pool.slots place).present = true
  · rw [if_pos hpresent]
    have hused := hholds.used_le
    have hmoved : (Arena.read pool.data ((pool.slots place).offset + ((pool.slots place).size + 1))
        (pool.used - ((pool.slots place).offset + ((pool.slots place).size + 1)))).length ≤
        pool.used - ((pool.slots place).offset + ((pool.slots place).size + 1)) :=
      List.length_take_le ..
    obtain ⟨before, text, after, rfl, -, -, hslot⟩ := hholds.split hpresent
    have htotal := hholds.used_eq
    rw [Arena.packed_split, List.length_append, List.length_append, List.length_append,
      List.length_singleton] at htotal
    rw [hslot] at hmoved ⊢
    dsimp only at hmoved ⊢
    exact Arena.length_write (by omega)
  · rw [if_neg hpresent]

/-- The bounds a session keeps. -/
structure CachePool.Bounded (limit : Nat) (pool : CachePool count) : Prop where
  used_le : pool.used ≤ limit
  length_le : pool.data.length ≤ limit + 1

/-- What `session_cache` does: nothing, or it puts the text behind the others. -/
theorem CachePool.Holds.cache {limit : Nat} {pool : CachePool count}
    {entries : List (SlotPlace count × Bytes)} (hholds : pool.Holds entries)
    (hbounded : pool.Bounded limit) (place : SlotPlace count) (value : Bytes) (fresh : Fresh) :
    ((pool.sessionCache limit place value fresh).1 ≠ .ok ∧
        (pool.sessionCache limit place value fresh).2 = pool) ∨
      ((pool.sessionCache limit place value fresh).1 = .ok ∧
        (pool.sessionCache limit place value fresh).2.Holds
          ((entries.filter fun entry => entry.1 ≠ place) ++ [(place, value)]) ∧
        (pool.sessionCache limit place value fresh).2.Bounded limit ∧
        pool.data.length ≤ (pool.sessionCache limit place value fresh).2.data.length ∧
        ∃ data, sessionBufferReserve pool.data (pool.retained place + value.length + 1) limit fresh =
            .ok data ∧
          (pool.sessionCache limit place value fresh).2.data.length = data.length) := by
  unfold CachePool.sessionCache
  split
  · exact .inl ⟨nofun, rfl⟩
  · next hroom =>
      rw [not_or, Nat.not_le, Nat.not_lt] at hroom
      cases hreserve : sessionBufferReserve pool.data (pool.retained place + value.length + 1) limit
          fresh with
      | error code =>
          refine .inl ⟨?_, rfl⟩
          rintro rfl
          exact sessionBufferReserve_error hreserve rfl
      | ok data =>
          obtain ⟨hinitial, henough, hlimit⟩ := sessionBufferReserve_ok hreserve hbounded.length_le
          have hwide := hholds.widen hinitial
          have hdropped := hwide.uncache place
          have hlength := hwide.length_sessionUncache place
          have hused : (({ pool with data } : CachePool count).sessionUncache place).used =
              pool.retained place := CachePool.used_sessionUncache _ place
          have habsent : place ∉ (entries.filter fun entry => entry.1 ≠ place).map Prod.fst := by
            intro hmember
            obtain ⟨entry, hentry, hsame⟩ := List.mem_map.mp hmember
            exact of_decide_eq_true (List.mem_filter.mp hentry).2 hsame
          dsimp only at hlength ⊢
          have hfits : (({ pool with data } : CachePool count).sessionUncache place).used +
              value.length + 1 ≤
              (({ pool with data } : CachePool count).sessionUncache place).data.length := by
            rw [hused, hlength]
            omega
          have hwritten := @Arena.length_write _
            (({ pool with data } : CachePool count).sessionUncache place).data value
            (({ pool with data } : CachePool count).sessionUncache place).used (by omega)
          have hclosed := @Arena.length_write _ (Arena.write
            (({ pool with data } : CachePool count).sessionUncache place).data
            (({ pool with data } : CachePool count).sessionUncache place).used value) [0]
            ((({ pool with data } : CachePool count).sessionUncache place).used + value.length)
            (by rw [hwritten, List.length_singleton]; omega)
          have hgrown := hinitial.length_le
          refine .inr ⟨rfl, hdropped.concat habsent hfits, ⟨?_, ?_⟩, ?_, data, rfl, ?_⟩
          · dsimp only
            omega
          · dsimp only
            omega
          · omega
          · omega

/-! ## Runs -/

/-- A call on the cached state. -/
inductive CacheRequest (count : Nat)
  | cache (place : SlotPlace count) (value : Bytes) (fresh : Fresh)
  | uncache (place : SlotPlace count)

/-- The slot a call is about. -/
def CacheRequest.place : CacheRequest count → SlotPlace count
  | .cache place _ _ => place
  | .uncache place => place

/-- One call. -/
def cacheStep (limit : Nat) (pool : CachePool count) :
    CacheRequest count → CachePool count × Salts
  | .cache place value fresh =>
      ((pool.sessionCache limit place value fresh).2, (pool.sessionCache limit place value fresh).1)
  | .uncache place => (pool.sessionUncache place, .ok)

/-- The texts last cached and not dropped since, in the order they were cached. -/
def kept (entries : List (SlotPlace count × Bytes)) :
    CacheRequest count × Salts → List (SlotPlace count × Bytes)
  | (.cache place value _, .ok) =>
      (entries.filter fun entry => entry.1 ≠ place) ++ [(place, value)]
  | (.cache _ _ _, _) => entries
  | (.uncache place, _) => entries.filter fun entry => entry.1 ≠ place

/-- What a history of calls and replies leaves in the slots. -/
def keptBy (history : List (CacheRequest count × Salts)) : List (SlotPlace count × Bytes) :=
  history.foldl kept []

variable {limit : Nat} {pool : CachePool count} {entries : List (SlotPlace count × Bytes)}

/-- One call keeps the invariant. -/
theorem CachePool.Holds.step (hholds : pool.Holds entries) (hbounded : pool.Bounded limit)
    (request : CacheRequest count) :
    (cacheStep limit pool request).1.Holds
        (kept entries (request, (cacheStep limit pool request).2)) ∧
      (cacheStep limit pool request).1.Bounded limit ∧
      pool.data.length ≤ (cacheStep limit pool request).1.data.length ∧
      ((cacheStep limit pool request).2 ≠ .ok → (cacheStep limit pool request).1 = pool) := by
  cases request with
  | cache place value fresh =>
      rcases hholds.cache hbounded place value fresh with
        ⟨hrefused, hsame⟩ | ⟨hok, hnext, hnextBounded, hgrows, -⟩
      · have hkept : kept entries (.cache place value fresh,
            (cacheStep limit pool (.cache place value fresh)).2) = entries := by
          change (pool.sessionCache limit place value fresh).1 ≠ .ok at hrefused
          unfold cacheStep
          dsimp only
          cases hcode : (pool.sessionCache limit place value fresh).1 with
          | ok => exact absurd hcode hrefused
          | _ => rfl
        have hpool : (cacheStep limit pool (.cache place value fresh)).1 = pool := hsame
        rw [hkept, hpool]
        exact ⟨hholds, hbounded, Nat.le_refl _, fun _ => rfl⟩
      · have hkept : kept entries (.cache place value fresh,
            (cacheStep limit pool (.cache place value fresh)).2) =
            (entries.filter fun entry => entry.1 ≠ place) ++ [(place, value)] := by
          unfold cacheStep
          dsimp only
          rw [hok]
          rfl
        rw [hkept]
        exact ⟨hnext, hnextBounded, hgrows, fun hother => absurd hok hother⟩
  | uncache place =>
      have hlength := hholds.length_sessionUncache place
      have hused := CachePool.used_sessionUncache pool place
      have hretained : pool.retained place ≤ pool.used := Nat.sub_le _ _
      refine ⟨hholds.uncache place, ⟨?_, ?_⟩, ?_, fun hother => absurd rfl hother⟩
      · exact hused ▸ Nat.le_trans hretained hbounded.used_le
      · exact hlength ▸ hbounded.length_le
      · exact Nat.le_of_eq hlength.symm

/-- The invariant along every run. -/
theorem cacheRun_holds {history : List (CacheRequest count × Salts)}
    (hrun : Run (cacheStep limit) (CachePool.empty count) history pool) :
    pool.Holds (keptBy history) ∧ pool.Bounded limit := by
  refine hrun.invariant (fun history pool => pool.Holds (keptBy history) ∧ pool.Bounded limit)
    ⟨.empty count, Nat.zero_le _, Nat.zero_le _⟩ ?_
  intro history state request _ hstate
  obtain ⟨hnext, hbounded, -, -⟩ := hstate.1.step hstate.2 request
  refine ⟨?_, hbounded⟩
  rw [keptBy, List.foldl_append]
  exact hnext

/-- The text last cached for every slot, unless it was dropped since. -/
def lastCached (history : List (CacheRequest count × Salts)) : SlotPlace count → Option Bytes :=
  history.foldl
    (fun texts call =>
      match call with
      | (.cache place value _, .ok) => Function.update texts place (some value)
      | (.cache _ _ _, _) => texts
      | (.uncache place, _) => Function.update texts place none)
    fun _ => none

/-- The texts that are kept are the ones last cached. -/
theorem mem_keptBy_iff (history : List (CacheRequest count × Salts)) (place : SlotPlace count)
    (text : Bytes) : (place, text) ∈ keptBy history ↔ lastCached history place = some text := by
  induction history using List.reverseRecOn with
  | nil => simp [keptBy, lastCached]
  | append_singleton history call ih =>
      rw [keptBy, lastCached, List.foldl_append, List.foldl_append]
      change (place, text) ∈ kept (keptBy history) call ↔
        (match call with
          | (.cache place value _, .ok) => Function.update (lastCached history) place (some value)
          | (.cache _ _ _, _) => lastCached history
          | (.uncache place, _) => Function.update (lastCached history) place none) place = some text
      obtain ⟨request, reply⟩ := call
      cases request with
      | cache other value fresh =>
          cases reply with
          | ok =>
              by_cases hplace : place = other
              · subst hplace
                simp [kept, eq_comm]
              · simp [kept, hplace, ih]
          | _ => exact ih
      | uncache other =>
          by_cases hplace : place = other
          · subst hplace
            simp [kept]
          · simp [kept, hplace, ih]

theorem CachePool.Holds.cached_eq {history : List (CacheRequest count × Salts)}
    (hholds : pool.Holds (keptBy history)) (place : SlotPlace count) :
    (pool.slots place).present = (lastCached history place).isSome ∧
      pool.sessionCached place = (lastCached history place).getD [] := by
  cases hlast : lastCached history place with
  | none =>
      have habsent : place ∉ (keptBy history).map Prod.fst := by
        intro hmember
        obtain ⟨⟨owner, text⟩, hentry, rfl⟩ := List.mem_map.mp hmember
        rw [mem_keptBy_iff, hlast] at hentry
        cases hentry
      exact hholds.absent habsent
  | some text =>
      obtain ⟨hpresent, hcached, -⟩ := hholds.cached ((mem_keptBy_iff history place text).mpr hlast)
      exact ⟨hpresent, hcached⟩

/-- A call about another slot changes nothing that was cached last. -/
theorem lastCached_append_of_ne {history : List (CacheRequest count × Salts)}
    {request : CacheRequest count} {reply : Salts} {place : SlotPlace count}
    (hplace : place ≠ request.place) :
    lastCached (history ++ [(request, reply)]) place = lastCached history place := by
  rw [lastCached, List.foldl_append]
  cases request with
  | cache other value fresh =>
      cases reply with
      | ok => exact Function.update_of_ne hplace ..
      | _ => rfl
  | uncache other => exact Function.update_of_ne hplace ..

/-- The cached state of a session along every run of calls from an empty one. -/
theorem session_cache_sound {history : List (CacheRequest count × Salts)}
    (hrun : Run (cacheStep limit) (CachePool.empty count) history pool) :
    (∃ order : List (SlotPlace count × Bytes),
      (order.map Prod.fst).Nodup ∧ Arena.Laid pool.placeOf 0 order ∧
      (∀ place, (pool.slots place).present = true ↔ place ∈ order.map Prod.fst) ∧
      pool.used = (Arena.packed 0 order).length) ∧
    (∀ place, (pool.slots place).present = (lastCached history place).isSome ∧
      pool.sessionCached place = (lastCached history place).getD [] ∧
      ((pool.slots place).present = true →
        (pool.slots place).size + 1 ≤ pool.used ∧
        Arena.read pool.data (pool.slots place).offset ((pool.slots place).size + 1) =
          pool.sessionCached place ++ [0])) ∧
    pool.used ≤ limit ∧ pool.used ≤ pool.data.length ∧ pool.data.length ≤ limit + 1 ∧
    ∀ request : CacheRequest count,
      (∀ place, place ≠ request.place →
        ((cacheStep limit pool request).1.slots place).present = (pool.slots place).present ∧
        (cacheStep limit pool request).1.sessionCached place = pool.sessionCached place) ∧
      pool.data.length ≤ (cacheStep limit pool request).1.data.length ∧
      ((cacheStep limit pool request).2 ≠ .ok → (cacheStep limit pool request).1 = pool) ∧
      ∀ place value fresh, request = .cache place value fresh →
        (cacheStep limit pool request).2 = .ok →
          ∃ data, sessionBufferReserve pool.data (pool.retained place + value.length + 1) limit
              fresh = .ok data ∧
            (cacheStep limit pool request).1.data.length = data.length := by
  obtain ⟨hholds, hbounded⟩ := cacheRun_holds hrun
  refine ⟨⟨keptBy history, hholds.nodup, hholds.laid, hholds.present_iff, hholds.used_eq⟩,
    fun place => ⟨(hholds.cached_eq place).1, (hholds.cached_eq place).2, fun hpresent => ?_⟩,
    hbounded.used_le, hholds.used_le, hbounded.length_le, fun request => ?_⟩
  · obtain ⟨⟨owner, text⟩, hentry, rfl⟩ := List.mem_map.mp ((hholds.present_iff place).mp hpresent)
    obtain ⟨-, hcached, hread⟩ := hholds.cached hentry
    exact ⟨hholds.size_lt_used hpresent, by rw [hcached]; exact hread⟩
  · obtain ⟨-, -, hgrows, hrefused⟩ := hholds.step hbounded request
    have hnext := (cacheRun_holds (hrun.extend request)).1
    refine ⟨fun place hplace => ?_, hgrows, hrefused, ?_⟩
    · have hlast : lastCached (history ++ [(request, (cacheStep limit pool request).2)]) place =
          lastCached history place := lastCached_append_of_ne hplace
      rw [(hnext.cached_eq place).1, (hnext.cached_eq place).2, (hholds.cached_eq place).1,
        (hholds.cached_eq place).2, hlast]
      exact ⟨rfl, rfl⟩
    · rintro place value fresh rfl hok
      rcases hholds.cache hbounded place value fresh with
        ⟨hother, -⟩ | ⟨-, -, -, -, data, hreserve, hlength⟩
      · exact absurd hok hother
      · exact ⟨data, hreserve, hlength⟩

/-- Two slots of a node, the first of them replaced by a longer text. -/
def replacedCalls : List (CacheRequest 1) :=
  [.cache (0, .pipeData) (ascii "a") (some fun _ => 7), .cache (0, .pipeKey) (ascii "b") none,
    .cache (0, .pipeData) (ascii "cc") none]

theorem session_cache_sound_replaced :
    (drive (cacheStep 100) (CachePool.empty 1) replacedCalls).used ≤ 100 :=
  (session_cache_sound (run_drive (cacheStep 100) (CachePool.empty 1) replacedCalls)).2.2.1

end Praktor.Session
