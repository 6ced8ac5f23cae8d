/-
# Text scopes of tasks

A task runs on a scope of its own: a copy of the root store with the variables of the task
on top.  `fork` makes the scope behind a new handle and `load` puts it behind a handle that
has a store already.  What goes back to the root is selected key by key: `prepare` drafts the
selected texts in a transaction, and the owner commits it.

The main result: a scope reads as the root overlaid with the variables of the task, a
committed selection changes the root at the selected keys and nowhere else, and whatever
fails leaves every store and every transaction as it was.
-/

import Praktor.Runtime.TaskValues
import Praktor.Values.StoreRefinement

namespace Praktor.Runtime

open Praktor.Data Praktor.Math Praktor.Math.SlotTable Praktor.Values Praktor.Workflow

/-! ## The calls on handles -/

/-- `praktor_c11_workflow_fork_task_text_variables` on the handles of the root and of the
child, which has no store yet. -/
def forkTaskTextVariablesAt (world : World) (snapshot : WorkflowSnapshot) (index root child : Nat)
    (schedule : AllocSchedule) : World × ValueStatus × AllocSchedule :=
  if root = child ∨ (world.stores child).isSome then (world, .einval, schedule)
  else
    match snapshot.tasks[index]?, world.stores root with
    | some task, some store =>
        match forkTaskTextVariables task store schedule with
        | (.error status, schedule) => (world, status, schedule)
        | (.ok scope, schedule) => (world.withStore child scope, .ok, schedule)
    | _, _ => (world, .einval, schedule)

/-- `praktor_c11_workflow_load_task_text_scope` on the handles of the root and of the
destination. -/
def loadTaskTextScopeAt (world : World) (snapshot : WorkflowSnapshot)
    (index root destination : Nat) (schedule : AllocSchedule) :
    World × ValueStatus × AllocSchedule :=
  if root = destination then (world, .einval, schedule)
  else
    match snapshot.tasks[index]?, world.stores root, world.stores destination with
    | some task, some store, some previous =>
        match loadTaskTextScope task store previous schedule with
        | (.error status, schedule) => (world, status, schedule)
        | (.ok scope, schedule) => (world.withStore destination scope, .ok, schedule)
    | _, _, _ => (world, .einval, schedule)

/-- `praktor_c11_workflow_prepare_task_text_outputs` on the handles of the root and of the
scope, into the transaction handle `txn`. -/
def prepareTaskTextOutputsAt (world : World) (txn root scope : Nat) (keys : List CString)
    (schedule : AllocSchedule) : World × ValueStatus × AllocSchedule :=
  if root = scope then (world, .einval, schedule)
  else
    match world.stores root, world.stores scope, world.txns txn with
    | some _, some store, none => prepareTaskTextOutputs world txn root store keys schedule
    | _, _, _ => (world, .einval, schedule)

/-! ## Scopes -/

/-- A map with the text members of an object on top. -/
def overlaid (map : CString → Option CString) (vars : Option Json) (key : CString) :
    Option CString :=
  (((vars.bind (·.objectGet key.bytes)).bind Json.stringText).bind CString.ofBytes).or (map key)

/-- The writes of a variables object are its members, all of them text. -/
theorem seedWrites_some {members : List (Bytes × Json)} {bindings : List (CString × CString)}
    (hwrites : seedWrites members =
      some (bindings.map fun binding => (some binding.1, some binding.2))) :
    members = bindings.map fun binding => (binding.1.bytes, .string binding.2.bytes) := by
  induction members generalizing bindings with
  | nil =>
      cases bindings with
      | nil => rfl
      | cons binding bindings => cases hwrites
  | cons member rest ih =>
      obtain ⟨key, entry⟩ := member
      rw [seedWrites] at hwrites
      split at hwrites
      · rename_i text value hkey hentry
        split at hwrites
        · cases hwrites
        cases hrest : seedWrites rest with
        | none => simp [hrest] at hwrites
        | some later =>
            rw [hrest, Option.map_some, Option.some.injEq] at hwrites
            cases bindings with
            | nil => simp at hwrites
            | cons binding bindings =>
                obtain ⟨hhead, htail⟩ := List.cons.inj hwrites
                obtain ⟨rfl, rfl⟩ : text = binding.1 ∧ value = binding.2 := by simpa using hhead
                have hmembers := ih (hrest.trans (congrArg some htail))
                have hbytes : key = binding.1.bytes := by
                  rw [CString.ofBytes] at hkey
                  split at hkey
                  · cases hkey
                  · exact congrArg CString.bytes (Option.some.inj hkey)
                obtain ⟨bytes, htext, hvalue⟩ := Option.bind_eq_some_iff.mp hentry
                have hstring : entry = .string binding.2.bytes := by
                  cases entry with
                  | string text =>
                      obtain rfl : text = bytes := Option.some.inj htext
                      rw [CString.ofBytes] at hvalue
                      split at hvalue
                      · cases hvalue
                      · exact congrArg (fun value => Json.string (CString.bytes value))
                          (Option.some.inj hvalue)
                  | _ => cases htext
                rw [hmembers, hbytes, hstring]
                rfl
      · cases hwrites

/-- Bindings of different keys read as the members of their object. -/
theorem bindAll_eq_overlaid (map : CString → Option CString) {bindings : List (CString × CString)}
    (hnodup : (bindings.map Prod.fst).Nodup) :
    MapStore.bindAll map bindings = overlaid map (some (.object (bindings.map fun binding =>
      (binding.1.bytes, .string binding.2.bytes)))) := by
  funext key
  by_cases hmem : key ∈ bindings.map Prod.fst
  · obtain ⟨binding, hbinding, rfl⟩ := List.mem_map.mp hmem
    rw [MapStore.bindAll_of_mem hnodup hbinding]
    have hlookup : (bindings.map fun binding =>
        (binding.1.bytes, Json.string binding.2.bytes)).lookup binding.1.bytes =
          some (.string binding.2.bytes) := by
      clear hmem
      induction bindings with
      | nil => cases hbinding
      | cons first rest ih =>
          obtain ⟨hfirst, hrest⟩ := List.nodup_cons.mp hnodup
          rw [List.map_cons, Json.lookup_member]
          rcases List.mem_cons.mp hbinding with rfl | hlater
          · rw [if_pos rfl]
          · have hne : binding.1.bytes ≠ first.1.bytes := by
              intro hsame
              exact hfirst (List.mem_map.mpr ⟨binding, hlater, CString.ext hsame⟩)
            rw [if_neg hne]
            exact ih hrest hlater
    have hzero : ¬ 0 ∈ binding.2.bytes := binding.2.nulFree
    simp [overlaid, Json.objectGet, hlookup, Json.stringText, CString.ofBytes, hzero]
  · rw [MapStore.bindAll_of_not_mem hmem]
    have hlookup : (bindings.map fun binding =>
        (binding.1.bytes, Json.string binding.2.bytes)).lookup key.bytes = none := by
      rw [List.lookup_eq_none_iff]
      intro member hmember
      obtain ⟨binding, hbinding, rfl⟩ := List.mem_map.mp hmember
      rw [bne_iff_ne]
      intro hsame
      exact hmem (List.mem_map.mpr ⟨binding, hbinding, (CString.ext hsame).symm⟩)
    simp [overlaid, Json.objectGet, hlookup]

/-- Writing nothing is always possible and does nothing. -/
theorem setMany_nil (store : ValueStore) : store.setMany [] = (store, .ok) := by
  simp [ValueStore.setMany, ValueStore.checkWrites]

/-- A seeded store reads as before with the variables on top. -/
theorem seedTextObject_ok {vars : Option Json} {store next : ValueStore}
    {schedule rest : AllocSchedule}
    (hseed : seedTextObject vars store schedule = ((next, .ok), rest)) :
    next.limits = store.limits ∧ next.findEntry = overlaid store.findEntry vars := by
  have hnothing (vars : Option Json) (hnone : ∀ key, vars.bind (·.objectGet key) = none)
      (hsame : store.setMany [] = (next, .ok)) :
      next.limits = store.limits ∧ next.findEntry = overlaid store.findEntry vars := by
    obtain rfl : store = next := congrArg Prod.fst ((setMany_nil store).symm.trans hsame)
    refine ⟨rfl, funext fun key => ?_⟩
    simp [overlaid, hnone key.bytes]
  rw [seedTextObject.eq_def] at hseed
  split at hseed
  · exact hnothing none (fun _ => rfl) (congrArg Prod.fst hseed)
  · rename_i members
    split at hseed
    · cases hseed
    split at hseed
    · rename_i hempty
      obtain rfl := List.eq_nil_of_length_eq_zero hempty
      exact hnothing _ (fun _ => rfl) (congrArg Prod.fst hseed)
    split at hseed
    · cases hseed
    split at hseed
    · cases hseed
    · rename_i writes hwrites
      have hmany : store.setMany writes = (next, .ok) := congrArg Prod.fst hseed
      obtain ⟨bindings, rfl, hbindable, hnext⟩ := ValueStore.setMany_accepted hmany
      refine ⟨congrArg MapStore.limits hnext, ?_⟩
      rw [seedWrites_some hwrites, ← bindAll_eq_overlaid _ hbindable.nodup]
      exact congrArg MapStore.map hnext
  · cases hseed

/-- A scope reads as the root with the variables of its task on top. -/
theorem forkTaskTextVariables_ok {task : SnapshotTask} {root scope : ValueStore}
    {schedule rest : AllocSchedule}
    (hfork : forkTaskTextVariables task root schedule = (.ok scope, rest)) :
    scope.limits = root.limits ∧
      scope.findEntry = overlaid root.findEntry (task.metadata.objectGet (ascii "vars")) := by
  rw [forkTaskTextVariables] at hfork
  split at hfork
  · split at hfork
    · cases hfork
    · rename_i staging later hclone
      obtain rfl := clone_ok_eq hclone
      split at hfork
      rename_i child status final hseed
      split at hfork
      · rename_i hok
        obtain ⟨rfl⟩ : child = scope := by simpa using congrArg Prod.fst hfork
        exact seedTextObject_ok (hok ▸ hseed)
      · cases hfork
  · cases hfork

/-- A fork never fails with `OK`. -/
theorem forkTaskTextVariables_error {task : SnapshotTask} {root : ValueStore} {status : ValueStatus}
    {schedule rest : AllocSchedule}
    (hfork : forkTaskTextVariables task root schedule = (.error status, rest)) : status ≠ .ok := by
  rw [forkTaskTextVariables] at hfork
  split at hfork
  · split at hfork
    · rename_i hclone
      obtain ⟨rfl⟩ : _ = status := by simpa using congrArg Prod.fst hfork
      exact clone_error_ne hclone
    · split at hfork
      split at hfork
      · cases hfork
      · rename_i hrefused
        obtain ⟨rfl⟩ : _ = status := by simpa using congrArg Prod.fst hfork
        exact hrefused
  · obtain ⟨rfl⟩ : _ = status := by simpa using congrArg Prod.fst hfork
    nofun

/-- What a call that makes a scope does: nothing when it fails, and otherwise the handle has
the root store with the variables of the task on top. -/
structure ScopeMade (world : World) (snapshot : WorkflowSnapshot) (index root handle : Nat)
    (result : World × ValueStatus × AllocSchedule) : Prop where
  overlaid : result.2.1 = .ok → ∃ task parent scope, snapshot.tasks[index]? = some task ∧
    world.stores root = some parent ∧ result.1.stores handle = some scope ∧
    scope.limits = parent.limits ∧
    scope.findEntry = Runtime.overlaid parent.findEntry (task.metadata.objectGet (ascii "vars"))
  root_eq : result.1.stores root = world.stores root
  others_eq : ∀ id, id ≠ handle → result.1.stores id = world.stores id
  txns_eq : result.1.txns = world.txns
  refused : result.2.1 ≠ .ok → result.1 = world

section Scopes

variable {world : World} {snapshot : WorkflowSnapshot} {index root handle : Nat}

theorem ScopeMade.nothing {status : ValueStatus} (hstatus : status ≠ .ok)
    (schedule : AllocSchedule) :
    ScopeMade world snapshot index root handle (world, status, schedule) :=
  ⟨fun hok => absurd hok hstatus, rfl, fun _ _ => rfl, rfl, fun _ => rfl⟩

theorem ScopeMade.scope {task : SnapshotTask} {parent scope : ValueStore} (hne : root ≠ handle)
    (htask : snapshot.tasks[index]? = some task) (hparent : world.stores root = some parent)
    (hlimits : scope.limits = parent.limits)
    (hscope : scope.findEntry =
      Runtime.overlaid parent.findEntry (task.metadata.objectGet (ascii "vars")))
    (schedule : AllocSchedule) :
    ScopeMade world snapshot index root handle (world.withStore handle scope, .ok, schedule) where
  overlaid _ := ⟨task, parent, scope, htask, hparent, by simp [World.withStore], hlimits, hscope⟩
  root_eq := by simp [World.withStore, hne]
  others_eq id hid := by simp [World.withStore, hid]
  txns_eq := rfl
  refused hfailed := absurd rfl hfailed

theorem forkTaskTextVariablesAt_made (schedule : AllocSchedule) :
    ScopeMade world snapshot index root handle
      (forkTaskTextVariablesAt world snapshot index root handle schedule) := by
  rw [forkTaskTextVariablesAt]
  split
  · exact .nothing (by simp) _
  rename_i hhandles
  split
  · rename_i task parent htask hparent
    split
    · rename_i hfork
      exact .nothing (forkTaskTextVariables_error hfork) _
    · rename_i hfork
      obtain ⟨hlimits, hscope⟩ := forkTaskTextVariables_ok hfork
      exact .scope (fun hsame => hhandles (.inl hsame)) htask hparent hlimits hscope _
  · exact .nothing (by simp) _

theorem loadTaskTextScopeAt_made (schedule : AllocSchedule) :
    ScopeMade world snapshot index root handle
      (loadTaskTextScopeAt world snapshot index root handle schedule) := by
  rw [loadTaskTextScopeAt]
  split
  · exact .nothing (by simp) _
  rename_i hne
  split
  swap
  · exact .nothing (by simp) _
  rename_i task parent previous htask hparent hprevious
  rw [loadTaskTextScope]
  cases hfork : forkTaskTextVariables task parent schedule with
  | mk made later =>
      cases made with
      | error status => exact .nothing (forkTaskTextVariables_error hfork) _
      | ok staged =>
          obtain ⟨hlimits, hscope⟩ := forkTaskTextVariables_ok hfork
          simp only [replaceClone]
          by_cases hdiffer : previous.limits ≠ staged.limits
          · rw [if_pos hdiffer]
            exact .nothing (by simp) _
          rw [if_neg hdiffer]
          cases hclone : staged.clone later with
          | mk copied rest =>
              cases copied with
              | error status => exact .nothing (clone_error_ne hclone) _
              | ok copy =>
                  obtain rfl := clone_ok_eq hclone
                  exact .scope hne htask hparent hlimits hscope _

end Scopes

/-! ## Selected outputs -/

/-- A commit that does not run out of memory does what it does with enough memory. -/
theorem txnCommit_schedule (world : World) (id : Nat) (schedule : AllocSchedule) :
    ((world.txnCommit id schedule).1 = world ∧ (world.txnCommit id schedule).2.1 = .enomem) ∨
      ((world.txnCommit id schedule).1 = (world.txnCommit id []).1 ∧
        (world.txnCommit id schedule).2.1 = (world.txnCommit id []).2.1) := by
  simp only [World.txnCommit]
  cases world.txns id with
  | none => exact .inr ⟨rfl, rfl⟩
  | some txn =>
      simp only
      cases world.stores txn.target with
      | none => exact .inr ⟨rfl, rfl⟩
      | some target =>
          simp only
          split
          · exact .inr ⟨rfl, rfl⟩
          rcases target.clone_cases schedule with hclone | hclone
          · rw [ValueStore.clone_nil]
            cases hresult : target.clone schedule with
            | mk copy rest =>
                rw [hresult] at hclone
                obtain rfl : copy = .ok target := hclone
                right
                simp only
                split
                · exact ⟨rfl, rfl⟩
                · exact ⟨rfl, rfl⟩
          · cases hresult : target.clone schedule with
            | mk copy rest =>
                rw [hresult] at hclone
                obtain rfl : copy = .error .enomem := hclone
                exact .inl ⟨rfl, rfl⟩

/-- Texts drafted on an unchanged store fit it all along their replay. -/
theorem Drafted.fitsThroughout {before after : World} {txn root : Nat} {parent : ValueStore}
    {writes : List (CString × Option CString)} (hnodup : (touchedBy writes).Nodup)
    (hkept : ∀ write ∈ writes, write.2 ≠ none) (hparent : before.stores root = some parent)
    (hdrafted : Drafted before txn root ((Snapshot.opened parent.findEntry).writeAll writes) after) :
    FitsThroughout parent writes := by
  obtain ⟨draft, store, _, _, hstore, hlimits, hrepresents⟩ := hdrafted.live
  obtain rfl : store = parent := Option.some.inj (hstore.symm.trans hparent)
  intro count
  have hworking : overlay store.findEntry writes = draft.working.findEntry := by
    have hbegun := ((Snapshot.opened store.findEntry).writeAll writes).overlay_begun_net
    rw [Snapshot.begun_writeAll, Snapshot.net_writeAll_opened _ hnodup] at hbegun
    exact hbegun.trans hrepresents.working_eq.symm
  have hsubset := domain_overlay_take_subset store.findEntry hnodup hkept count
  rw [hworking] at hsubset
  have hcount := Set.ncard_le_ncard hsubset (finite_domain_lookup draft.working.entries)
  have hsize : (domain draft.working.findEntry).ncard = draft.working.size := by
    rw [draft.working.size_eq]
    exact ncard_domain_lookup draft.working.entries
  have hbound := draft.working.size_le
  rw [hrepresents.limits_eq, ← hlimits] at hbound
  exact hcount.trans (hsize.trans_le hbound)

/-- What a commit of selected texts does to a world whose root store is as it was. -/
structure SelectionCommitted (world : World) (txn root : Nat) (keys : List CString)
    (scope parent : ValueStore) (result : World × ValueStatus × AllocSchedule) : Prop where
  status : result.2.1 = .ok ∨ result.2.1 = .enomem
  refused : result.2.1 ≠ .ok → result.1 = world
  root_changed : result.2.1 = .ok → ∃ next, result.1.stores root = some next ∧
    next.limits = parent.limits ∧
    ∀ key, next.findEntry key = if key ∈ keys then scope.findEntry key else parent.findEntry key
  others_eq : ∀ id, id ≠ root → result.1.stores id = world.stores id
  closed : result.2.1 = .ok → result.1.txns = Function.update world.txns txn none

/-- What a preparation of selected texts does: nothing when it fails, and otherwise it drafts
a transaction whose commit, with no writer in between, changes the root at the selected keys
to the texts of the scope. -/
structure SelectionDrafted (world : World) (txn root scope : Nat) (keys : List CString)
    (result : World × ValueStatus × AllocSchedule) : Prop where
  refused : result.2.1 ≠ .ok → result.1 = world
  selected : result.2.1 = .ok → keys.Nodup ∧ ∃ store parent, world.stores scope = some store ∧
    world.stores root = some parent ∧
    (∀ key ∈ keys, 0 < key.length ∧ store.findEntry key ≠ none) ∧
    ∀ between : World, between.stores root = world.stores root →
      between.txns txn = result.1.txns txn → ∀ later,
        SelectionCommitted between txn root keys store parent (between.txnCommit txn later) ∧
        (between.txnCommit txn []).2.1 = .ok
  stores_eq : result.1.stores = world.stores
  others_eq : ∀ id, id ≠ txn → result.1.txns id = world.txns id

section Selection

variable {world : World} {txn root : Nat} {keys : List CString}

/-- The commit of a draft of selected texts. -/
theorem Drafted.committed {after between : World} {scope parent : ValueStore} (hnodup : keys.Nodup)
    (hfound : ∀ key ∈ keys, (scope.findEntry key).isSome = true)
    (hparent : world.stores root = some parent)
    (hdrafted : Drafted world txn root
      ((Snapshot.opened parent.findEntry).writeAll (portWrites scope keys)) after)
    (hroot : between.stores root = world.stores root)
    (htxn : between.txns txn = after.txns txn) (later : AllocSchedule) :
    SelectionCommitted between txn root keys scope parent (between.txnCommit txn later) ∧
      (between.txnCommit txn []).2.1 = .ok := by
  have htouched : (touchedBy (portWrites scope keys)).Nodup :=
    (touchedBy_portWrites scope keys).symm ▸ hnodup
  have hkept : ∀ write ∈ portWrites scope keys, write.2 ≠ none := by
    intro write hwrite
    obtain ⟨key, hkey, rfl⟩ := List.mem_map.mp hwrite
    exact Option.isSome_iff_ne_none.mp (hfound key hkey)
  have hfits := hdrafted.fitsThroughout htouched hkept hparent
  obtain ⟨draft, store, hdraft, rfl, hstore, hlimits, hrepresents⟩ := hdrafted.live
  obtain rfl : store = parent := Option.some.inj (hstore.symm.trans hparent)
  have hnet := Snapshot.net_writeAll_opened store.findEntry htouched
  have hquiet : ¬ ((Snapshot.opened store.findEntry).writeAll
      (portWrites scope keys)).Conflicts store.findEntry := by
    rintro ⟨key, -, hdiffers⟩
    rw [Snapshot.begun_writeAll] at hdiffers
    exact hdiffers rfl
  rcases txnCommit_cases (htxn.trans hdraft) (hroot.trans hstore) hlimits hrepresents with
    ⟨hconflict, -⟩ | ⟨-, hfull, -⟩ | ⟨-, -, next, hnext, hlookup, hcommit⟩
  · exact absurd hconflict hquiet
  · rw [hnet] at hfull
    exact absurd hfits hfull
  rw [hnet] at hlookup
  have hplenty : SelectionCommitted between txn draft.target keys scope store
      (between.txnCommit txn []) := by
    rw [hcommit]
    refine ⟨.inl rfl, fun hfailed => absurd rfl hfailed, fun _ => ⟨next, ?_, hnext, fun key => ?_⟩,
      fun id hid => ?_, fun _ => ?_⟩
    · simp [World.txnAbort, World.withTxn, World.withStore]
    · rw [hlookup]
      by_cases hkey : key ∈ keys
      · rw [if_pos hkey, overlay_of_mem htouched (List.mem_map_of_mem hkey)]
      · rw [if_neg hkey, overlay_of_not_mem ((touchedBy_portWrites scope keys).symm ▸ hkey)]
    · simp [World.txnAbort, World.withTxn, World.withStore, hid]
    · funext id
      by_cases hid : id = txn
      · simp [World.txnAbort, World.withTxn, World.withStore, hid]
      · simp [World.txnAbort, World.withTxn, World.withStore, hid]
  refine ⟨?_, by rw [hcommit]⟩
  rcases txnCommit_schedule between txn later with ⟨hsame, hstatus⟩ | ⟨hsame, hstatus⟩
  · have hfailed : (between.txnCommit txn later).2.1 ≠ .ok := by simp [hstatus]
    exact ⟨.inr hstatus, fun _ => hsame, fun hok => absurd hok hfailed, fun _ _ => by rw [hsame],
      fun hok => absurd hok hfailed⟩
  · constructor
    · rw [hstatus]
      exact hplenty.status
    · rw [hstatus, hsame]
      exact hplenty.refused
    · rw [hstatus, hsame]
      exact hplenty.root_changed
    · rw [hsame]
      exact hplenty.others_eq
    · rw [hstatus, hsame]
      exact hplenty.closed

theorem prepareTaskTextOutputsAt_drafted (scope : Nat) (schedule : AllocSchedule) :
    SelectionDrafted world txn root scope keys
      (prepareTaskTextOutputsAt world txn root scope keys schedule) := by
  have hnothing (status : ValueStatus) (hstatus : status ≠ .ok) :
      SelectionDrafted world txn root scope keys (world, status, schedule) :=
    ⟨fun _ => rfl, fun hok => absurd hok hstatus, rfl, fun _ _ => rfl⟩
  rw [prepareTaskTextOutputsAt]
  split
  · exact hnothing _ nofun
  split
  swap
  · exact hnothing _ nofun
  rename_i parent store hparent hstore hfree
  obtain ⟨hprepared, hrefused⟩ := prepareTaskTextOutputs_spec hfree hparent store keys schedule
  by_cases hok : (prepareTaskTextOutputs world txn root store keys schedule).2.1 = .ok
  · obtain ⟨hnodup, hfound, hdrafted⟩ := hprepared hok
    refine ⟨fun hfailed => absurd hok hfailed, fun _ => ⟨hnodup, store, parent, hstore, hparent,
      fun key hkey => ⟨?_, Option.isSome_iff_ne_none.mp (hfound key hkey)⟩,
      fun between hroot htxn later => hdrafted.committed hnodup hfound hparent hroot htxn later⟩,
      hdrafted.stores_eq, hdrafted.others_eq⟩
    obtain ⟨value, hvalue⟩ := Option.isSome_iff_exists.mp (hfound key hkey)
    exact (ValueStore.fitsKey_of_findEntry hvalue).1
  · have hsame := hrefused hok
    exact ⟨fun _ => hsame, fun hdone => absurd hdone hok, by rw [hsame], fun _ _ => by rw [hsame]⟩

end Selection

/-- Scopes overlay and publish exactly what was selected. -/
theorem textScopes_exact (world : World) (snapshot : WorkflowSnapshot)
    (index root handle txn scope : Nat) (keys : List CString) (schedule : AllocSchedule) :
    ScopeMade world snapshot index root handle
        (forkTaskTextVariablesAt world snapshot index root handle schedule) ∧
      ScopeMade world snapshot index root handle
        (loadTaskTextScopeAt world snapshot index root handle schedule) ∧
      SelectionDrafted world txn root scope keys
        (prepareTaskTextOutputsAt world txn root scope keys schedule) :=
  ⟨forkTaskTextVariablesAt_made schedule, loadTaskTextScopeAt_made schedule,
    prepareTaskTextOutputsAt_drafted scope schedule⟩

end Praktor.Runtime
