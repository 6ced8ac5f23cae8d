/-
# The value store in memory

`Values.Store` speaks of a store as a table of slots.  In memory there are two arenas with
one fixed cell for the key and one for the value of every entry, an array of entries with
their occupied flags, and a counter of occupied entries that is kept by hand.  Freed
entries are used again, in the order of the array.

The functions of this module follow the source on that memory.  `Lays` relates a memory to
a table of slots, and every operation on the memory is shown to do what the operation on
the table does.
-/

import Praktor.Math.Arena
import Praktor.Values.Store

namespace Praktor.Values

open Praktor.Data Praktor.Math

/-- `praktor_c11_value_entry`; the two pointers are offsets into the arenas. -/
structure ValueEntry where
  key : Nat
  value : Nat
  valueSize : Nat
  occupied : Bool
  deriving DecidableEq, Repr

/-- `praktor_c11_value_store_impl`; the entries are an array of `capacity` elements. -/
structure ValueStoreImpl where
  capacity : Nat
  maxKeyBytes : Nat
  maxValueBytes : Nat
  size : Nat
  entries : List ValueEntry
  keyStorage : Bytes
  valueStorage : Bytes
  deriving DecidableEq, Repr

namespace ValueStoreImpl

/-- The numbers the store was created with. -/
def limits (impl : ValueStoreImpl) : StoreLimits :=
  ⟨impl.capacity, impl.maxKeyBytes, impl.maxValueBytes⟩

/-- `strlen` of the key of an entry. -/
def keyLength (impl : ValueStoreImpl) (entry : ValueEntry) : Nat :=
  (Arena.text 0 impl.keyStorage entry.key).length

/-- `find_entry`: the place of the first occupied entry with the key. -/
def findEntry (impl : ValueStoreImpl) (key : CString) (keySize : Nat) : Option Nat :=
  impl.entries.findIdx? fun entry => entry.occupied && impl.keyLength entry = keySize &&
    Arena.read impl.keyStorage entry.key keySize = key.bytes.take keySize

/-- The memory `calloc` returns, with the pointers of the entries set. -/
def blank (limits : StoreLimits) : ValueStoreImpl where
  capacity := limits.capacity
  maxKeyBytes := limits.maxKeyBytes
  maxValueBytes := limits.maxValueBytes
  size := 0
  entries := (List.range limits.capacity).map fun index =>
    ⟨index * (limits.maxKeyBytes + 1), index * (limits.maxValueBytes + 1), 0, false⟩
  keyStorage := List.replicate (limits.capacity * (limits.maxKeyBytes + 1)) 0
  valueStorage := List.replicate (limits.capacity * (limits.maxValueBytes + 1)) 0

/-- `praktor_c11_value_store_init` while allocation succeeds. -/
def init (limits : StoreLimits) : Except ValueStatus ValueStoreImpl :=
  if limits.admitted then .ok (blank limits) else .error .einval

/-- One turn of the copy loop of `praktor_c11_value_store_clone`. -/
def copyEntry (source copy : ValueStoreImpl) (index : Nat) : ValueStoreImpl :=
  match source.entries[index]?, copy.entries[index]? with
  | some src, some dst =>
      if !src.occupied then copy
      else
        { copy with
          keyStorage := Arena.write copy.keyStorage dst.key
            (Arena.read source.keyStorage src.key (source.keyLength src + 1))
          valueStorage := Arena.write copy.valueStorage dst.value
            (Arena.read source.valueStorage src.value (src.valueSize + 1))
          entries := copy.entries.set index { dst with valueSize := src.valueSize, occupied := true }
          size := copy.size + 1 }
  | _, _ => copy

/-- `praktor_c11_value_store_clone` into a handle without an implementation. -/
def clone (source : ValueStoreImpl) : Except ValueStatus ValueStoreImpl :=
  match init source.limits with
  | .error _ => .error .enomem
  | .ok copy => .ok ((List.range source.capacity).foldl source.copyEntry copy)

/-- Give a free entry to a new key. -/
def occupy (impl : ValueStoreImpl) (index : Nat) (key : CString) (keySize : Nat) : ValueStoreImpl :=
  match impl.entries[index]? with
  | none => impl
  | some entry =>
      { impl with
        keyStorage := Arena.write (Arena.write impl.keyStorage entry.key (key.bytes.take keySize))
          (entry.key + keySize) [0]
        entries := impl.entries.set index { entry with occupied := true }
        size := impl.size + 1 }

/-- Write the value of an entry. -/
def writeValue (impl : ValueStoreImpl) (index : Nat) (value : CString) (valueSize : Nat) :
    ValueStoreImpl :=
  match impl.entries[index]? with
  | none => impl
  | some entry =>
      { impl with
        valueStorage := Arena.write
          (Arena.write impl.valueStorage entry.value (value.bytes.take valueSize))
          (entry.value + valueSize) [0]
        entries := impl.entries.set index { entry with valueSize := valueSize } }

/-- `praktor_c11_value_store_set`. -/
def set (impl : ValueStoreImpl) (key value : Option CString) : ValueStoreImpl × ValueStatus :=
  match key, value with
  | some key, some value =>
      let keySize := boundedLength key impl.maxKeyBytes
      let valueSize := boundedLength value impl.maxValueBytes
      if keySize = 0 ∨ keySize = sizeMax then (impl, .einval)
      else if keySize > impl.maxKeyBytes ∨ valueSize > impl.maxValueBytes then (impl, .enobufs)
      else
        match impl.findEntry key keySize with
        | some index => (impl.writeValue index value valueSize, .ok)
        | none =>
            match impl.entries.findIdx? fun entry => !entry.occupied with
            | none => (impl, .enospc)
            | some index =>
                ((impl.occupy index key keySize).writeValue index value valueSize, .ok)
  | _, _ => (impl, .einval)

/-- The validation loop of `set_many`; `seen` holds the keys of the writes before, and the
result counts the writes whose key is new. -/
def checkWrites (impl : ValueStoreImpl) :
    List (Option CString × Option CString) → List CString → Nat → Except ValueStatus Nat
  | [], _, needed => .ok needed
  | (some key, some value) :: rest, seen, needed =>
      let keySize := boundedLength key impl.maxKeyBytes
      if keySize = 0 then .error .einval
      else if keySize > impl.maxKeyBytes ∨
          boundedLength value impl.maxValueBytes > impl.maxValueBytes then .error .enobufs
      else if key ∈ seen then .error .einval
      else
        impl.checkWrites rest (seen ++ [key])
          (needed + if impl.findEntry key keySize = none then 1 else 0)
  | _ :: _, _, _ => .error .einval

/-- `praktor_c11_value_store_set_many`. -/
def setMany (impl : ValueStoreImpl) (writes : List (Option CString × Option CString)) :
    ValueStoreImpl × ValueStatus :=
  if writes.length > impl.capacity then (impl, .enospc)
  else
    match impl.checkWrites writes [] 0 with
    | .error status => (impl, status)
    | .ok needed =>
        if needed > impl.capacity - impl.size then (impl, .enospc)
        else (writes.foldl (fun impl write => (impl.set write.1 write.2).1) impl, .ok)

/-- The key checks shared by `get`, `contains` and `erase`. -/
def admitsKey (impl : ValueStoreImpl) (keySize : Nat) : Bool :=
  !(keySize = 0 || keySize > impl.maxKeyBytes || keySize = sizeMax)

/-- `praktor_c11_value_store_get` into a buffer of `capacity` bytes, `none` when the caller
passed no buffer: the size written back and the bytes copied, with the terminator. -/
def get (impl : ValueStoreImpl) (key : Option CString) (capacity : Option Nat) :
    ValueStatus × Option Nat × Option Bytes :=
  match key with
  | none => (.einval, none, none)
  | some key =>
      let keySize := boundedLength key impl.maxKeyBytes
      if impl.admitsKey keySize then
        match (impl.findEntry key keySize).bind fun index => impl.entries[index]? with
        | none => (.enotfound, none, none)
        | some entry =>
            match capacity with
            | none => (.enobufs, some entry.valueSize, none)
            | some capacity =>
                if capacity ≤ entry.valueSize then (.enobufs, some entry.valueSize, none)
                else
                  (.ok, some entry.valueSize,
                    some (Arena.read impl.valueStorage entry.value (entry.valueSize + 1)))
      else (.einval, none, none)

/-- `praktor_c11_value_store_contains`. -/
def contains (impl : ValueStoreImpl) (key : Option CString) : Except ValueStatus Bool :=
  match key with
  | none => .error .einval
  | some key =>
      let keySize := boundedLength key impl.maxKeyBytes
      if impl.admitsKey keySize then .ok (impl.findEntry key keySize).isSome else .error .einval

/-- `praktor_c11_value_store_erase`. -/
def erase (impl : ValueStoreImpl) (key : Option CString) : ValueStoreImpl × ValueStatus :=
  match key with
  | none => (impl, .einval)
  | some key =>
      let keySize := boundedLength key impl.maxKeyBytes
      if impl.admitsKey keySize then
        match impl.findEntry key keySize with
        | none => (impl, .enotfound)
        | some index =>
            match impl.entries[index]? with
            | none => (impl, .enotfound)
            | some entry =>
                ({ impl with
                    keyStorage := Arena.write impl.keyStorage entry.key
                      (List.replicate (impl.maxKeyBytes + 1) 0)
                    valueStorage := Arena.write impl.valueStorage entry.value
                      (List.replicate (impl.maxValueBytes + 1) 0)
                    entries := impl.entries.set index
                      { entry with valueSize := 0, occupied := false }
                    size := impl.size - 1 }, .ok)
      else (impl, .einval)

@[simp]
theorem writeValue_limits (impl : ValueStoreImpl) (index : Nat) (value : CString)
    (valueSize : Nat) : (impl.writeValue index value valueSize).limits = impl.limits := by
  rw [writeValue]
  split <;> rfl

@[simp]
theorem writeValue_size (impl : ValueStoreImpl) (index : Nat) (value : CString)
    (valueSize : Nat) : (impl.writeValue index value valueSize).size = impl.size := by
  rw [writeValue]
  split <;> rfl

@[simp]
theorem occupy_limits (impl : ValueStoreImpl) (index : Nat) (key : CString) (keySize : Nat) :
    (impl.occupy index key keySize).limits = impl.limits := by
  rw [occupy]
  split <;> rfl

theorem occupy_size {impl : ValueStoreImpl} {index : Nat} {entry : ValueEntry}
    (hentry : impl.entries[index]? = some entry) (key : CString) (keySize : Nat) :
    (impl.occupy index key keySize).size = impl.size + 1 := by
  rw [occupy, hentry]

/-! ## Memory and slots -/

/-- An entry and the two arenas hold what a slot of the table holds. -/
def SlotHeld (limits : StoreLimits) (keys values : Bytes) (entry : ValueEntry) :
    Option (CString × CString) → Prop
  | none => entry.occupied = false
  | some (key, value) => entry.occupied = true ∧ limits.fitsKey key ∧ limits.fitsValue value ∧
      Arena.Holds 0 keys entry.key key.bytes ∧ Arena.Holds 0 values entry.value value.bytes ∧
      entry.valueSize = value.length

/-- A memory lays out a list of slots. -/
structure Lays (impl : ValueStoreImpl) (slots : List (Option (CString × CString))) : Prop where
  entries_length : impl.entries.length = impl.capacity
  slots_length : slots.length = impl.capacity
  keys_length : impl.keyStorage.length = impl.capacity * (impl.maxKeyBytes + 1)
  values_length : impl.valueStorage.length = impl.capacity * (impl.maxValueBytes + 1)
  placed : ∀ (index : Nat) entry, impl.entries[index]? = some entry →
    entry.key = index * (impl.maxKeyBytes + 1) ∧ entry.value = index * (impl.maxValueBytes + 1)
  held : ∀ (index : Nat) entry slot, impl.entries[index]? = some entry → slots[index]? = some slot →
    SlotHeld impl.limits impl.keyStorage impl.valueStorage entry slot

/-- Searches through two lists that agree place by place end at the same place. -/
theorem findIdx?_congr {α β : Type} {first : List α} {second : List β} {p : α → Bool} {q : β → Bool}
    (hlength : first.length = second.length)
    (hagree : ∀ (index : Nat) x y, first[index]? = some x → second[index]? = some y → p x = q y) :
    first.findIdx? p = second.findIdx? q := by
  induction first generalizing second with
  | nil =>
      obtain rfl : second = [] := List.length_eq_zero_iff.mp hlength.symm
      rfl
  | cons x rest ih =>
      cases second with
      | nil => simp at hlength
      | cons y rest' =>
          have hhead := hagree 0 x y rfl rfl
          have htail := @ih rest' (by simpa using hlength) fun index x y hx hy =>
            hagree (index + 1) x y (by simpa using hx) (by simpa using hy)
          rw [List.findIdx?_cons, List.findIdx?_cons, hhead, htail]

section Layout

variable {impl : ValueStoreImpl} {slots : List (Option (CString × CString))}

/-- The entry search finds the slot that holds the key. -/
theorem Lays.findEntry_eq (hlays : Lays impl slots) (key : CString) :
    impl.findEntry key key.length = slots.findIdx? (SlotTable.holdsKey key) := by
  apply findIdx?_congr (hlays.entries_length.trans hlays.slots_length.symm)
  intro index entry slot hentry hslot
  have hheld := hlays.held index entry slot hentry hslot
  cases slot with
  | none => simp [SlotTable.holdsKey, show entry.occupied = false from hheld]
  | some pair =>
      obtain ⟨stored, value⟩ := pair
      obtain ⟨hoccupied, _, _, hkey, _, _⟩ := hheld
      rw [hoccupied, keyLength, hkey.text_eq, SlotTable.holdsKey, Bool.true_and,
        Bool.eq_iff_iff, Bool.and_eq_true, decide_eq_true_eq, decide_eq_true_eq,
        decide_eq_true_eq, show key.bytes.take key.length = key.bytes from List.take_length]
      constructor
      · rintro ⟨hlength, hbytes⟩
        rw [← hlength, hkey.read_eq] at hbytes
        exact CString.ext hbytes
      · rintro rfl
        exact ⟨rfl, hkey.read_eq⟩

/-- The search for a free entry finds the first free slot. -/
theorem Lays.findFree_eq (hlays : Lays impl slots) :
    (impl.entries.findIdx? fun entry => !entry.occupied) = slots.findIdx? Option.isNone := by
  apply findIdx?_congr (hlays.entries_length.trans hlays.slots_length.symm)
  intro index entry slot hentry hslot
  have hheld := hlays.held index entry slot hentry hslot
  cases slot with
  | none => simp [show entry.occupied = false from hheld]
  | some pair => simp [show entry.occupied = true from hheld.1]

/-- The entry and the slot at a place below the capacity. -/
theorem Lays.entry (hlays : Lays impl slots) {index : Nat} {slot : Option (CString × CString)}
    (hslot : slots[index]? = some slot) :
    index < impl.capacity ∧ ∃ entry, impl.entries[index]? = some entry := by
  obtain ⟨hlt, _⟩ := List.getElem?_eq_some_iff.mp hslot
  rw [hlays.slots_length] at hlt
  refine ⟨hlt, ?_⟩
  rw [← hlays.entries_length] at hlt
  exact ⟨_, List.getElem?_eq_getElem hlt⟩

/-- The cells of two entries do not overlap. -/
theorem cells_apart {index other width : Nat} (hne : index ≠ other) :
    (other + 1) * width ≤ index * width ∨ (index + 1) * width ≤ other * width := by
  rcases Nat.lt_or_gt_of_ne hne with hlt | hgt
  · exact .inr (Nat.mul_le_mul_right width hlt)
  · exact .inl (Nat.mul_le_mul_right width hgt)

/-- Changing one entry and its two cells changes one slot. -/
theorem Lays.set (hlays : Lays impl slots) {index : Nat} {entry : ValueEntry}
    (hentry : impl.entries[index]? = some entry) {next : ValueStoreImpl}
    {changed : ValueEntry} {slot : Option (CString × CString)} (hlimits : next.limits = impl.limits)
    (hentries : next.entries = impl.entries.set index changed)
    (hplaced : changed.key = entry.key ∧ changed.value = entry.value)
    (hkeys : Arena.SameOutside (index * (impl.maxKeyBytes + 1))
      ((index + 1) * (impl.maxKeyBytes + 1)) impl.keyStorage next.keyStorage)
    (hvalues : Arena.SameOutside (index * (impl.maxValueBytes + 1))
      ((index + 1) * (impl.maxValueBytes + 1)) impl.valueStorage next.valueStorage)
    (hheld : SlotHeld impl.limits next.keyStorage next.valueStorage changed slot) :
    Lays next (slots.set index slot) := by
  obtain ⟨hcapacity, hmaxKey, hmaxValue⟩ : next.capacity = impl.capacity ∧
      next.maxKeyBytes = impl.maxKeyBytes ∧ next.maxValueBytes = impl.maxValueBytes := by
    simpa [limits] using hlimits
  refine ⟨by rw [hentries, List.length_set, hlays.entries_length, hcapacity],
    by rw [List.length_set, hlays.slots_length, hcapacity],
    by rw [hkeys.length_eq, hlays.keys_length, hcapacity, hmaxKey],
    by rw [hvalues.length_eq, hlays.values_length, hcapacity, hmaxValue], ?_, ?_⟩
  · intro other found hfound
    rw [hentries, List.getElem?_set] at hfound
    rw [hmaxKey, hmaxValue]
    by_cases hother : index = other
    · obtain ⟨_, rfl⟩ : other < impl.entries.length ∧ changed = found := by
        simpa [hother] using hfound
      rw [hplaced.1, hplaced.2]
      exact hlays.placed other entry (hother ▸ hentry)
    · rw [if_neg hother] at hfound
      exact hlays.placed other found hfound
  · intro other found stored hfound hstored
    rw [hentries, List.getElem?_set] at hfound
    rw [List.getElem?_set] at hstored
    rw [hlimits]
    by_cases hother : index = other
    · obtain ⟨_, rfl⟩ : other < impl.entries.length ∧ changed = found := by
        simpa [hother] using hfound
      obtain ⟨_, rfl⟩ : other < slots.length ∧ slot = stored := by simpa [hother] using hstored
      exact hheld
    · rw [if_neg hother] at hfound hstored
      have hbefore := hlays.held other found stored hfound hstored
      obtain ⟨hkey, hvalue⟩ := hlays.placed other found hfound
      cases stored with
      | none => exact hbefore
      | some pair =>
          obtain ⟨hoccupied, hfitsKey, hfitsValue, hholdsKey, hholdsValue, hsize⟩ := hbefore
          refine ⟨hoccupied, hfitsKey, hfitsValue, ?_, ?_, hsize⟩
          · refine hholdsKey.of_sameOutside hkeys ?_
            have hle : pair.1.bytes.length + 1 ≤ impl.maxKeyBytes + 1 :=
              Nat.succ_le_succ hfitsKey.2
            rw [hkey]
            rcases @cells_apart index other (impl.maxKeyBytes + 1) hother with hapart | hapart
            · rw [Nat.succ_mul] at hapart
              exact .inl (by omega)
            · exact .inr hapart
          · refine hholdsValue.of_sameOutside hvalues ?_
            have hle : pair.2.bytes.length + 1 ≤ impl.maxValueBytes + 1 :=
              Nat.succ_le_succ hfitsValue
            rw [hvalue]
            rcases @cells_apart index other (impl.maxValueBytes + 1) hother with hapart | hapart
            · rw [Nat.succ_mul] at hapart
              exact .inl (by omega)
            · exact .inr hapart

/-- The cell of an entry lies in its arena. -/
theorem cell_le {index capacity width : Nat} (hindex : index < capacity) :
    index * width + width ≤ capacity * width := by
  rw [← Nat.succ_mul]
  exact Nat.mul_le_mul_right width hindex

/-- Writing the value of an occupied entry. -/
theorem Lays.writeValue (hlays : Lays impl slots) {index : Nat} {key old value : CString}
    (hslot : slots[index]? = some (some (key, old))) (hvalue : impl.limits.fitsValue value) :
    Lays (impl.writeValue index value value.length) (slots.set index (some (key, value))) := by
  obtain ⟨hindex, entry, hentry⟩ := hlays.entry hslot
  obtain ⟨hoccupied, hfits, _, hkey, _, _⟩ := hlays.held index entry _ hentry hslot
  obtain ⟨_, hplace⟩ := hlays.placed index entry hentry
  have hcell := @cell_le index impl.capacity (impl.maxValueBytes + 1) hindex
  have hlength : value.bytes.length ≤ impl.maxValueBytes := hvalue
  have htake : value.bytes.take value.length = value.bytes := List.take_length
  rw [← hlays.values_length, ← hplace] at hcell
  simp only [ValueStoreImpl.writeValue, hentry, htake]
  refine hlays.set hentry rfl rfl ⟨rfl, rfl⟩ (.refl _ _ _) ?_ ⟨hoccupied, hfits, hvalue, hkey, ?_, rfl⟩
  · rw [Nat.succ_mul, ← hplace]
    exact Arena.sameOutside_text le_rfl (by omega) hcell
  · exact Arena.holds_write value.nulFree (by omega)

/-- Giving a free entry to a new key and its value. -/
theorem Lays.occupy (hlays : Lays impl slots) {index : Nat} {slot : Option (CString × CString)}
    {key value : CString} (hslot : slots[index]? = some slot) (hkey : impl.limits.fitsKey key)
    (hvalue : impl.limits.fitsValue value) :
    Lays ((impl.occupy index key key.length).writeValue index value value.length)
      (slots.set index (some (key, value))) := by
  obtain ⟨hindex, entry, hentry⟩ := hlays.entry hslot
  obtain ⟨hkeyPlace, hvaluePlace⟩ := hlays.placed index entry hentry
  have hkeyCell := @cell_le index impl.capacity (impl.maxKeyBytes + 1) hindex
  have hvalueCell := @cell_le index impl.capacity (impl.maxValueBytes + 1) hindex
  have hkeyLength : key.bytes.length ≤ impl.maxKeyBytes := hkey.2
  have hvalueLength : value.bytes.length ≤ impl.maxValueBytes := hvalue
  have hkeyTake : key.bytes.take key.length = key.bytes := List.take_length
  have hvalueTake : value.bytes.take value.length = value.bytes := List.take_length
  have hlt : index < impl.entries.length := by rwa [hlays.entries_length]
  rw [← hlays.keys_length, ← hkeyPlace] at hkeyCell
  rw [← hlays.values_length, ← hvaluePlace] at hvalueCell
  simp only [ValueStoreImpl.occupy, hentry, ValueStoreImpl.writeValue, List.getElem?_set_self hlt,
    List.set_set, hkeyTake, hvalueTake]
  refine hlays.set hentry rfl rfl ⟨rfl, rfl⟩ ?_ ?_ ⟨rfl, hkey, hvalue, ?_, ?_, rfl⟩
  · rw [Nat.succ_mul, ← hkeyPlace]
    exact Arena.sameOutside_text le_rfl (by omega) hkeyCell
  · rw [Nat.succ_mul, ← hvaluePlace]
    exact Arena.sameOutside_text le_rfl (by omega) hvalueCell
  · exact Arena.holds_write key.nulFree (by omega)
  · exact Arena.holds_write value.nulFree (by omega)

end Layout

/-! ## The operations -/

/-- A memory realizes a store. -/
structure Realizes (impl : ValueStoreImpl) (store : ValueStore) : Prop where
  limits_eq : impl.limits = store.limits
  size_eq : impl.size = store.size
  lays : Lays impl store.entries.slots

section Operations

variable {impl : ValueStoreImpl} {store : ValueStore}

theorem Realizes.maxKeyBytes_eq (hrealizes : Realizes impl store) :
    impl.maxKeyBytes = store.limits.maxKeyBytes := congrArg StoreLimits.maxKeyBytes hrealizes.limits_eq

theorem Realizes.maxValueBytes_eq (hrealizes : Realizes impl store) :
    impl.maxValueBytes = store.limits.maxValueBytes :=
  congrArg StoreLimits.maxValueBytes hrealizes.limits_eq

theorem Realizes.capacity_eq (hrealizes : Realizes impl store) :
    impl.capacity = store.limits.capacity := congrArg StoreLimits.capacity hrealizes.limits_eq

/-- A key that fits is measured as a whole. -/
theorem boundedLength_of_fits {limits : StoreLimits} {key : CString} (hkey : limits.fitsKey key) :
    boundedLength key limits.maxKeyBytes = key.length := by
  have hle := hkey.2
  rw [boundedLength]
  omega

theorem Realizes.findEntry_eq (hrealizes : Realizes impl store) {key : CString}
    (hkey : store.limits.fitsKey key) :
    impl.findEntry key (boundedLength key impl.maxKeyBytes) =
      store.entries.slots.findIdx? (SlotTable.holdsKey key) := by
  rw [hrealizes.maxKeyBytes_eq, boundedLength_of_fits hkey, hrealizes.lays.findEntry_eq]

/-- A value that fits is measured as a whole. -/
theorem boundedLength_of_fitsValue {limits : StoreLimits} {value : CString}
    (hvalue : limits.fitsValue value) :
    boundedLength value limits.maxValueBytes = value.length := by
  have hle : value.length ≤ limits.maxValueBytes := hvalue
  rw [boundedLength]
  omega

/-- A memory after a put realizes the store after the put. -/
theorem Realizes.of_put (hrealizes : Realizes impl store) {next : ValueStore} {key value : CString}
    (hput : store.entries.put key value = some next.entries) (hlimits : next.limits = store.limits)
    {after : ValueStoreImpl} (hafter : after.limits = impl.limits)
    (hsize : after.size = impl.size + if store.findEntry key = none then 1 else 0)
    (hlays : Lays after next.entries.slots) : Realizes after next := by
  refine ⟨by rw [hafter, hrealizes.limits_eq, hlimits], ?_, hlays⟩
  rw [hsize, next.size_eq, SlotTable.occupied_put hput, hrealizes.size_eq, store.size_eq]
  rfl

/-- An admitted `set`. -/
theorem Realizes.insert (hrealizes : Realizes impl store) {key value : CString}
    (hkey : store.limits.fitsKey key) (hvalue : store.limits.fitsValue value) :
    Realizes (impl.set (some key) (some value)).1 (store.insert key value hkey hvalue).1 ∧
      (impl.set (some key) (some value)).2 = (store.insert key value hkey hvalue).2 := by
  have hmax := store.maxKeyBytes_lt
  have hkeyLength := hkey.2
  have hkeyPos := hkey.1
  have hvalueLength : value.length ≤ store.limits.maxValueBytes := hvalue
  have hfits := hrealizes.limits_eq
  have hslots := store.entries.put_slots key value
  have hfind := hrealizes.findEntry_eq hkey
  have hlookup := store.entries.lookup_eq_of_findIdx? key
  simp only [ValueStoreImpl.set, hrealizes.maxKeyBytes_eq, hrealizes.maxValueBytes_eq,
    boundedLength_of_fits hkey, boundedLength_of_fitsValue hvalue] at hfind ⊢
  rw [if_neg (by omega), if_neg (by omega), hfind]
  rcases ValueStore.insert_cases hkey hvalue with ⟨hput, hinsert⟩ | ⟨next, hput, hlimits, hinsert⟩
  · rw [hinsert]
    rw [hput] at hslots
    cases hplace : store.entries.slots.findIdx? (SlotTable.holdsKey key) with
    | some index => simp [hplace] at hslots
    | none =>
        rw [hrealizes.lays.findFree_eq]
        have hfull : store.entries.slots.findIdx? Option.isNone = none := by
          simpa [hplace] using hslots
        rw [hfull]
        exact ⟨hrealizes, rfl⟩
  · rw [hinsert]
    rw [hput, Option.map_some] at hslots
    cases hplace : store.entries.slots.findIdx? (SlotTable.holdsKey key) with
    | some index =>
        obtain ⟨old, hslot⟩ := SlotTable.getElem?_of_findIdx? hplace
        have hnext : next.entries.slots = store.entries.slots.set index (some (key, value)) := by
          simpa [hplace] using hslots
        have hpresent : store.findEntry key = some old := by
          rw [ValueStore.findEntry, hlookup, hplace, Option.bind_some, hslot]
          rfl
        have hlays := hrealizes.lays.writeValue hslot (hfits ▸ hvalue)
        rw [← hnext] at hlays
        refine ⟨hrealizes.of_put hput hlimits (writeValue_limits ..) ?_ hlays, rfl⟩
        simp [hpresent]
    | none =>
        have habsent : store.findEntry key = none := by
          rw [ValueStore.findEntry, hlookup, hplace]
          rfl
        rw [hrealizes.lays.findFree_eq]
        cases hfree : store.entries.slots.findIdx? Option.isNone with
        | none => simp [hplace, hfree] at hslots
        | some index =>
            have hnext : next.entries.slots = store.entries.slots.set index (some (key, value)) := by
              simpa [hplace, hfree] using hslots
            obtain ⟨hlt, _, _⟩ := List.findIdx?_eq_some_iff_getElem.mp hfree
            have hslot := List.getElem?_eq_getElem hlt
            obtain ⟨_, entry, hentry⟩ := hrealizes.lays.entry hslot
            have hlays := hrealizes.lays.occupy hslot (hfits ▸ hkey) (hfits ▸ hvalue)
            rw [← hnext] at hlays
            refine ⟨hrealizes.of_put hput hlimits ?_ ?_ hlays, rfl⟩
            · simp
            · simp [occupy_size hentry, habsent]

/-- `set` on the memory does what `set` on the store does. -/
theorem Realizes.set (hrealizes : Realizes impl store) (key value : Option CString) :
    Realizes (impl.set key value).1 (store.set key value).1 ∧
      (impl.set key value).2 = (store.set key value).2 := by
  cases key with
  | none => exact ⟨hrealizes, rfl⟩
  | some key =>
      cases value with
      | none => exact ⟨hrealizes, rfl⟩
      | some value =>
          by_cases hempty : boundedLength key store.limits.maxKeyBytes = 0 ∨
              boundedLength key store.limits.maxKeyBytes = sizeMax
          · simp only [ValueStoreImpl.set, ValueStore.set, hrealizes.maxKeyBytes_eq, if_pos hempty,
              dif_pos hempty, and_true]
            exact hrealizes
          by_cases hlong : boundedLength key store.limits.maxKeyBytes > store.limits.maxKeyBytes ∨
              boundedLength value store.limits.maxValueBytes > store.limits.maxValueBytes
          · simp only [ValueStoreImpl.set, ValueStore.set, hrealizes.maxKeyBytes_eq,
              hrealizes.maxValueBytes_eq, if_neg hempty, dif_neg hempty, if_pos hlong, dif_pos hlong,
              and_true]
            exact hrealizes
          · obtain ⟨hkey, hvalue⟩ := fits_of_lengths hempty hlong
            rw [ValueStore.set_eq_insert hkey hvalue]
            exact hrealizes.insert hkey hvalue

theorem Realizes.admitsKey_eq (hrealizes : Realizes impl store) (key : CString) :
    impl.admitsKey (boundedLength key impl.maxKeyBytes) = store.admitsKey key := by
  rw [ValueStoreImpl.admitsKey, ValueStore.admitsKey, hrealizes.maxKeyBytes_eq]

/-- The memory of an erased entry. -/
theorem Lays.erase {slots : List (Option (CString × CString))} (hlays : Lays impl slots)
    {index : Nat} {slot : Option (CString × CString)} (hslot : slots[index]? = some slot)
    {entry : ValueEntry} (hentry : impl.entries[index]? = some entry) :
    Lays { impl with
        keyStorage := Arena.write impl.keyStorage entry.key
          (List.replicate (impl.maxKeyBytes + 1) 0)
        valueStorage := Arena.write impl.valueStorage entry.value
          (List.replicate (impl.maxValueBytes + 1) 0)
        entries := impl.entries.set index { entry with valueSize := 0, occupied := false }
        size := impl.size - 1 } (slots.set index none) := by
  obtain ⟨hindex, _⟩ := hlays.entry hslot
  obtain ⟨hkeyPlace, hvaluePlace⟩ := hlays.placed index entry hentry
  have hkeyCell := @cell_le index impl.capacity (impl.maxKeyBytes + 1) hindex
  have hvalueCell := @cell_le index impl.capacity (impl.maxValueBytes + 1) hindex
  rw [← hlays.keys_length, ← hkeyPlace] at hkeyCell
  rw [← hlays.values_length, ← hvaluePlace] at hvalueCell
  refine hlays.set hentry rfl rfl ⟨rfl, rfl⟩ ?_ ?_ rfl
  · rw [Nat.succ_mul, ← hkeyPlace]
    exact Arena.sameOutside_write le_rfl (by rw [List.length_replicate]) hkeyCell
  · rw [Nat.succ_mul, ← hvaluePlace]
    exact Arena.sameOutside_write le_rfl (by rw [List.length_replicate]) hvalueCell

/-- `erase` on the memory does what `erase` on the store does. -/
theorem Realizes.erase (hrealizes : Realizes impl store) (key : Option CString) :
    Realizes (impl.erase key).1 (store.erase key).1 ∧
      (impl.erase key).2 = (store.erase key).2 := by
  cases key with
  | none => exact ⟨hrealizes, rfl⟩
  | some key =>
      simp only [ValueStoreImpl.erase, ValueStore.erase, hrealizes.admitsKey_eq key]
      by_cases hadmits : store.admitsKey key = true
      · rw [if_pos hadmits, if_pos hadmits,
          hrealizes.findEntry_eq (ValueStore.admitsKey_iff.mp hadmits)]
        have hlookup := store.entries.lookup_eq_of_findIdx? key
        cases hplace : store.entries.slots.findIdx? (SlotTable.holdsKey key) with
        | none =>
            have habsent : store.findEntry key = none := by
              rw [ValueStore.findEntry, hlookup, hplace]
              rfl
            rw [dif_pos habsent]
            exact ⟨hrealizes, rfl⟩
        | some index =>
            obtain ⟨old, hslot⟩ := SlotTable.getElem?_of_findIdx? hplace
            have hpresent : store.findEntry key ≠ none := by
              rw [ValueStore.findEntry, hlookup, hplace, Option.bind_some, hslot]
              simp
            obtain ⟨_, entry, hentry⟩ := hrealizes.lays.entry hslot
            rw [dif_neg hpresent]
            simp only [hentry]
            refine ⟨⟨hrealizes.limits_eq, by rw [hrealizes.size_eq], ?_⟩, trivial⟩
            have hlays := hrealizes.lays.erase hslot hentry
            rw [← SlotTable.erase_slots hplace] at hlays
            exact hlays
      · rw [if_neg hadmits, if_neg hadmits]
        exact ⟨hrealizes, rfl⟩

/-- `contains` reads from the memory what the store holds. -/
theorem Realizes.contains (hrealizes : Realizes impl store) (key : Option CString) :
    impl.contains key = store.contains key := by
  cases key with
  | none => rfl
  | some key =>
      simp only [ValueStoreImpl.contains, ValueStore.contains, hrealizes.admitsKey_eq key]
      by_cases hadmits : store.admitsKey key = true
      · rw [if_pos hadmits, if_pos hadmits,
          hrealizes.findEntry_eq (ValueStore.admitsKey_iff.mp hadmits), ValueStore.findEntry,
          store.entries.lookup_eq_of_findIdx? key]
        cases hplace : store.entries.slots.findIdx? (SlotTable.holdsKey key) with
        | none => rfl
        | some index =>
            obtain ⟨old, hslot⟩ := SlotTable.getElem?_of_findIdx? hplace
            simp [hslot]
      · rw [if_neg hadmits, if_neg hadmits]

/-- `get` copies from the memory the text the store holds, with its terminator. -/
theorem Realizes.get (hrealizes : Realizes impl store) (key : Option CString)
    (capacity : Option Nat) :
    impl.get key capacity = ((store.get key capacity).1, (store.get key capacity).2.1,
      (store.get key capacity).2.2.map fun value => value.bytes ++ [0]) := by
  cases key with
  | none => rfl
  | some key =>
      simp only [ValueStoreImpl.get, ValueStore.get, hrealizes.admitsKey_eq key]
      by_cases hadmits : store.admitsKey key = true
      · rw [if_pos hadmits, if_pos hadmits,
          hrealizes.findEntry_eq (ValueStore.admitsKey_iff.mp hadmits), ValueStore.findEntry,
          store.entries.lookup_eq_of_findIdx? key]
        cases hplace : store.entries.slots.findIdx? (SlotTable.holdsKey key) with
        | none => rfl
        | some index =>
            obtain ⟨value, hslot⟩ := SlotTable.getElem?_of_findIdx? hplace
            obtain ⟨_, entry, hentry⟩ := hrealizes.lays.entry hslot
            obtain ⟨_, _, _, _, hholds, hsize⟩ := hrealizes.lays.held index entry _ hentry hslot
            simp only [Option.bind_some, hentry, hslot, Option.join_some, Option.map_some]
            cases capacity with
            | none => simp [hsize]
            | some capacity =>
                simp only [hsize]
                by_cases hshort : capacity ≤ value.length
                · rw [if_pos hshort, if_pos hshort]
                  rfl
                · rw [if_neg hshort, if_neg hshort, Option.map_some]
                  exact congrArg (fun text => (ValueStatus.ok, some value.length, some text)) hholds.2
      · rw [if_neg hadmits, if_neg hadmits]
        rfl

/-- A key that fits is missing from the memory when it is missing from the store. -/
theorem Realizes.findEntry_eq_none_iff (hrealizes : Realizes impl store) {key : CString}
    (hkey : store.limits.fitsKey key) :
    impl.findEntry key (boundedLength key impl.maxKeyBytes) = none ↔ store.findEntry key = none := by
  rw [hrealizes.findEntry_eq hkey, ValueStore.findEntry, store.entries.lookup_eq_of_findIdx? key]
  cases hplace : store.entries.slots.findIdx? (SlotTable.holdsKey key) with
  | none => simp
  | some index =>
      obtain ⟨old, hslot⟩ := SlotTable.getElem?_of_findIdx? hplace
      simp [hslot]

theorem Realizes.checkWrites (hrealizes : Realizes impl store)
    (writes : List (Option CString × Option CString)) (seen : List CString) (needed : Nat) :
    impl.checkWrites writes seen needed = store.checkWrites writes seen needed := by
  induction writes generalizing seen needed with
  | nil => rfl
  | cons write rest ih =>
      obtain ⟨key, value⟩ := write
      cases key with
      | none => rfl
      | some key =>
          cases value with
          | none => rfl
          | some value =>
              simp only [ValueStoreImpl.checkWrites, ValueStore.checkWrites, ih,
                hrealizes.maxValueBytes_eq, hrealizes.maxKeyBytes_eq]
              by_cases hempty : boundedLength key store.limits.maxKeyBytes = 0
              · rw [if_pos hempty, if_pos hempty]
              by_cases hlong : boundedLength key store.limits.maxKeyBytes > store.limits.maxKeyBytes ∨
                  boundedLength value store.limits.maxValueBytes > store.limits.maxValueBytes
              · rw [if_neg hempty, if_neg hempty, if_pos hlong, if_pos hlong]
              have hkey : store.limits.fitsKey key := by
                rw [boundedLength_eq_zero_iff] at hempty
                rw [not_or, boundedLength_gt_iff] at hlong
                exact ⟨Nat.pos_of_ne_zero hempty, Nat.le_of_not_lt hlong.1⟩
              have hfind := hrealizes.findEntry_eq_none_iff hkey
              rw [hrealizes.maxKeyBytes_eq] at hfind
              simp only [hfind]

/-- `set_many` on the memory does what `set_many` on the store does. -/
theorem Realizes.setMany (hrealizes : Realizes impl store)
    (writes : List (Option CString × Option CString)) :
    Realizes (impl.setMany writes).1 (store.setMany writes).1 ∧
      (impl.setMany writes).2 = (store.setMany writes).2 := by
  have hfold : ∀ (writes : List (Option CString × Option CString)) (memory : ValueStoreImpl)
      (current : ValueStore), Realizes memory current →
      Realizes (writes.foldl (fun impl write => (impl.set write.1 write.2).1) memory)
        (writes.foldl (fun store write => (store.set write.1 write.2).1) current) := by
    intro writes
    induction writes with
    | nil => exact fun _ _ hcurrent => hcurrent
    | cons write rest ih =>
        intro memory current hcurrent
        exact ih _ _ (hcurrent.set write.1 write.2).1
  rw [ValueStoreImpl.setMany, ValueStore.setMany, hrealizes.capacity_eq, hrealizes.size_eq,
    hrealizes.checkWrites]
  by_cases hcount : writes.length > store.limits.capacity
  · rw [if_pos hcount, if_pos hcount]
    exact ⟨hrealizes, rfl⟩
  rw [if_neg hcount, if_neg hcount]
  cases store.checkWrites writes [] 0 with
  | error status => exact ⟨hrealizes, rfl⟩
  | ok needed =>
      by_cases hfull : needed > store.limits.capacity - store.size
      · simp only [if_pos hfull, and_true]
        exact hrealizes
      · simp only [if_neg hfull, and_true]
        exact hfold writes impl store hrealizes

/-- New memory realizes a store without entries. -/
theorem realizes_blank (limits : StoreLimits) (hadmitted : limits.admitted = true) :
    Realizes (blank limits) (.blank limits hadmitted) := by
  refine ⟨rfl, rfl, by simp [blank], by simp [ValueStore.blank, SlotTable.blank, blank],
    by simp [blank], by simp [blank], ?_, ?_⟩
  · intro index entry hentry
    obtain ⟨place, hplace, rfl⟩ : ∃ place, (List.range limits.capacity)[index]? = some place ∧
        (⟨place * (limits.maxKeyBytes + 1), place * (limits.maxValueBytes + 1), 0, false⟩ :
          ValueEntry) = entry := by
      simpa [blank] using hentry
    obtain ⟨_, rfl⟩ : index < limits.capacity ∧ index = place := by
      simpa [List.getElem?_eq_some_iff] using hplace
    exact ⟨rfl, rfl⟩
  · intro index entry slot hentry hslot
    have hnone : slot = none := by
      have hmem := List.mem_of_getElem? hslot
      exact List.eq_of_mem_replicate hmem
    have hfree : entry.occupied = false := by
      have hmem := List.mem_of_getElem? hentry
      obtain ⟨place, _, rfl⟩ := List.mem_map.mp hmem
      rfl
    rw [hnone]
    exact hfree

/-! ## Copies -/

/-- The slots that are laid out when the first `count` ones have been copied. -/
def copied (slots : List (Option (CString × CString))) (count : Nat) :
    List (Option (CString × CString)) :=
  slots.take count ++ List.replicate (slots.length - count) none

theorem copied_succ {slots : List (Option (CString × CString))} {count : Nat}
    {slot : Option (CString × CString)} (hslot : slots[count]? = some slot) :
    copied slots (count + 1) = (copied slots count).set count slot := by
  obtain ⟨hlt, _⟩ := List.getElem?_eq_some_iff.mp hslot
  have hlength : (slots.take count).length = count := by
    rw [List.length_take]
    omega
  have hrest : slots.length - count = (slots.length - (count + 1)) + 1 := by omega
  rw [copied, copied, List.take_add_one, hslot, hrest, List.replicate_succ,
    List.set_append_right _ _ hlength.le, hlength, Nat.sub_self, List.set_cons_zero,
    List.append_assoc]
  rfl

theorem getElem?_copied {slots : List (Option (CString × CString))} {count : Nat}
    (hlt : count < slots.length) : (copied slots count)[count]? = some none := by
  have hlength : (slots.take count).length = count := by
    rw [List.length_take]
    omega
  rw [copied, List.getElem?_append_right hlength.le, hlength, Nat.sub_self,
    List.getElem?_replicate, if_pos (by omega)]

/-- One turn of the copy loop copies one slot. -/
theorem Lays.copyEntry {source copy : ValueStoreImpl}
    {slots current : List (Option (CString × CString))} (hsource : Lays source slots)
    (hcopy : Lays copy current) (hlimits : copy.limits = source.limits) {index : Nat}
    {slot : Option (CString × CString)} (hslot : slots[index]? = some slot)
    (hfree : current[index]? = some none) :
    Lays (source.copyEntry copy index) (current.set index slot) ∧
      (source.copyEntry copy index).limits = source.limits ∧
      (source.copyEntry copy index).size = copy.size + if slot.isSome then 1 else 0 := by
  obtain ⟨_, src, hsrc⟩ := hsource.entry hslot
  obtain ⟨hindex, dst, hdst⟩ := hcopy.entry hfree
  have hheld := hsource.held index src slot hsrc hslot
  simp only [ValueStoreImpl.copyEntry, hsrc, hdst]
  cases slot with
  | none =>
      obtain ⟨hlt, hget⟩ := List.getElem?_eq_some_iff.mp hfree
      have hsame : current.set index none = current := by
        rw [← hget, List.set_getElem_self]
      rw [show src.occupied = false from hheld, hsame]
      exact ⟨hcopy, hlimits, rfl⟩
  | some pair =>
      obtain ⟨key, value⟩ := pair
      obtain ⟨hoccupied, hfitsKey, hfitsValue, hkey, hvalue, hsize⟩ := hheld
      obtain ⟨hkeyPlace, hvaluePlace⟩ := hcopy.placed index dst hdst
      rw [← hlimits] at hfitsKey hfitsValue
      have hkeyLength : key.bytes.length ≤ copy.maxKeyBytes := hfitsKey.2
      have hvalueLength : value.bytes.length ≤ copy.maxValueBytes := hfitsValue
      have hkeyCell := @cell_le index copy.capacity (copy.maxKeyBytes + 1) hindex
      have hvalueCell := @cell_le index copy.capacity (copy.maxValueBytes + 1) hindex
      rw [← hcopy.keys_length, ← hkeyPlace] at hkeyCell
      rw [← hcopy.values_length, ← hvaluePlace] at hvalueCell
      have hkeyRead : Arena.read source.keyStorage src.key (source.keyLength src + 1) =
          key.bytes ++ [0] := by
        rw [keyLength, hkey.text_eq]
        exact hkey.2
      have hvalueRead : Arena.read source.valueStorage src.value (src.valueSize + 1) =
          value.bytes ++ [0] := by
        rw [hsize]
        exact hvalue.2
      simp only [hoccupied, hkeyRead, hvalueRead, Bool.not_true, Bool.false_eq_true, if_false]
      refine ⟨hcopy.set hdst rfl rfl ⟨rfl, rfl⟩ ?_ ?_ ⟨rfl, hfitsKey, hfitsValue, ?_, ?_, hsize⟩,
        hlimits, rfl⟩
      · rw [Nat.succ_mul, ← hkeyPlace]
        refine Arena.sameOutside_write le_rfl ?_ hkeyCell
        rw [List.length_append, List.length_singleton]
        omega
      · rw [Nat.succ_mul, ← hvaluePlace]
        refine Arena.sameOutside_write le_rfl ?_ hvalueCell
        rw [List.length_append, List.length_singleton]
        omega
      · exact Arena.holds_copy key.nulFree (by omega)
      · exact Arena.holds_copy value.nulFree (by omega)

/-- The copy loop after `count` turns. -/
theorem Lays.copyEntries {source blank : ValueStoreImpl} {slots : List (Option (CString × CString))}
    (hsource : Lays source slots) (hblank : Lays blank (copied slots 0))
    (hlimits : blank.limits = source.limits) (hsize : blank.size = 0) (count : Nat)
    (hcount : count ≤ slots.length) :
    Lays ((List.range count).foldl source.copyEntry blank) (copied slots count) ∧
      ((List.range count).foldl source.copyEntry blank).limits = source.limits ∧
      ((List.range count).foldl source.copyEntry blank).size =
        (SlotTable.keysOf (slots.take count)).length := by
  induction count with
  | zero => exact ⟨hblank, hlimits, hsize⟩
  | succ count ih =>
      obtain ⟨hcopy, hsame, htotal⟩ := ih (Nat.le_of_succ_le hcount)
      have hslot := List.getElem?_eq_getElem hcount
      obtain ⟨hlays, hkept, hnext⟩ :=
        hsource.copyEntry hcopy hsame hslot (getElem?_copied hcount)
      rw [List.range_succ, List.foldl_append, List.foldl_cons, List.foldl_nil, copied_succ hslot]
      refine ⟨hlays, hkept, ?_⟩
      rw [hnext, htotal, List.take_add_one, hslot, SlotTable.keysOf, SlotTable.keysOf,
        List.filterMap_append, List.length_append]
      cases slots[count] <;> rfl

/-- A clone of the memory realizes the same store. -/
theorem Realizes.clone (hrealizes : Realizes impl store) :
    ∃ copy, impl.clone = .ok copy ∧ Realizes copy store := by
  have hadmitted := store.admitted
  have hblank := realizes_blank store.limits hadmitted
  have hlength := hrealizes.lays.slots_length
  refine ⟨(List.range impl.capacity).foldl impl.copyEntry (blank impl.limits), ?_, ?_⟩
  · rw [ValueStoreImpl.clone, init, hrealizes.limits_eq, if_pos hadmitted]
  · have hstart : copied store.entries.slots 0 =
        (ValueStore.blank store.limits hadmitted).entries.slots := by
      simp [copied, ValueStore.blank, SlotTable.blank, store.length_eq]
    have hnew : Lays (blank impl.limits) (copied store.entries.slots 0) := by
      rw [hstart, hrealizes.limits_eq]
      exact hblank.lays
    obtain ⟨hlays, hlimits, hsize⟩ :=
      hrealizes.lays.copyEntries hnew rfl rfl impl.capacity hlength.ge
    rw [← hlength] at hlays hlimits hsize ⊢
    rw [copied, List.take_length, Nat.sub_self, List.replicate_zero, List.append_nil] at hlays
    refine ⟨hlimits.trans hrealizes.limits_eq, ?_, hlays⟩
    rw [hsize, List.take_length, store.size_eq]
    rfl

end Operations

end ValueStoreImpl

end Praktor.Values
