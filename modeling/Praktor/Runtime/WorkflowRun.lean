/-
# Whole workflow runs

A run is a list of turns from the state in which the loop is entered.  Its history says
for every turn what came from outside and what the turn did, so the statements about
order, about the tasks that succeeded and about the root store are statements about the
history.  `RunFacts` is the invariant; it is kept by every turn.

The reason of a failed task is copied, and the loop drops the status of that call.  A
task whose reason cannot be copied stays `RUNNING`, so `RunSemantics` needs the copies.
-/

import Praktor.Runtime.RunSemantics

namespace Praktor.Runtime

open Praktor.Data Praktor.Math Praktor.Values Praktor.Workflow Praktor.Workflow.DagState

/-! ## Entering the loop -/

/-- The root store after `praktor_c11_workflow_seed_root_text_variables`. -/
def Seeded (request : RuntimeRequest) (snapshot : WorkflowSnapshot) (seeded : ValueStore) : Prop :=
  ∃ root schedule between rest, ValueStore.init request.storeLimits schedule = (.ok root, between) ∧
    seedRootTextVariables snapshot root between = ((seeded, .ok), rest)

section Entry

variable {host : RuntimeHost} {request : RuntimeRequest} {owner : RuntimeOwner}

theorem admitRoot_some {snapshot : WorkflowSnapshot} {registry : TaskRegistry} {dag : DagState}
    {schedule : AllocSchedule}
    (hroot : admitRoot host request snapshot registry dag schedule = some owner) :
    ∃ seeded, Seeded request snapshot seeded ∧
      owner = ⟨snapshot, registry, dag, World.empty.withStore rootStore seeded⟩ := by
  rw [admitRoot] at hroot
  split at hroot
  · simp at hroot
  rename_i root between hinit
  split at hroot
  rename_i seeded status rest hseed
  split_ifs at hroot with hfailed
  obtain rfl : status = .ok := by
    by_contra hne
    simp [hne] at hfailed
  exact ⟨seeded, ⟨root, schedule, between, rest, hinit, hseed⟩, (Option.some.inj hroot).symm⟩

theorem createDag_ok {graph : Dependencies} {schedule rest : AllocSchedule} {dag : DagState}
    (hcreate : createDag graph schedule = (.ok dag, rest)) : DagState.create graph 1 = .ok dag := by
  simp only [createDag] at hcreate
  split_ifs at hcreate
  · simp at hcreate
  · simp at hcreate
  · exact (Prod.mk.inj hcreate).1

/-- The loop is entered with every task pending and the seeded root. -/
structure Entered (request : RuntimeRequest) (admission : Admission) (owner : RuntimeOwner)
    (seeded : ValueStore) : Prop where
  taskCount_eq : admission.taskCount = owner.snapshot.taskCount
  isSeeded : Seeded request owner.snapshot seeded
  world_eq : owner.world = World.empty.withStore rootStore seeded
  dag_eq : DagState.create owner.snapshot.graph 1 = .ok owner.dag
  count_eq : owner.registry.count = owner.snapshot.taskCount
  pending : ∀ slot ∈ owner.registry.slots, slot.state = .pending ∧ slot.revision = 0

theorem Entered.root_eq {admission : Admission} {seeded : ValueStore}
    (hentered : Entered request admission owner seeded) :
    owner.world.stores rootStore = some seeded := by
  simp [hentered.world_eq, World.withStore]

theorem admitYaml_owner (hadmission : (admitYaml host request).owner = some owner) :
    ∃ seeded, Entered request (admitYaml host request) owner seeded := by
  generalize hresult : admitYaml host request = result at hadmission ⊢
  rw [admitYaml] at hresult
  split_ifs at hresult
  · simp [← hresult] at hadmission
  split at hresult
  · simp [← hresult] at hadmission
  rename_i snapshot _
  split_ifs at hresult
  · simp [← hresult] at hadmission
  split at hresult
  · simp [← hresult] at hadmission
  rename_i registry _ hregistry
  split at hresult
  · simp [← hresult] at hadmission
  rename_i dag _ hdag
  rw [admitPlans] at hresult
  split at hresult
  · simp [← hresult] at hadmission
  split at hresult
  · simp [← hresult] at hadmission
  rename_i found hroot
  subst hresult
  obtain rfl : found = owner := by simpa using hadmission
  obtain ⟨seeded, hseeded, rfl⟩ := admitRoot_some hroot
  obtain ⟨hcount, hpending⟩ := TaskRegistry.create_pending hregistry
  exact ⟨seeded, rfl, hseeded, rfl, createDag_ok hdag, hcount.trans snapshot.graph_taskCount,
    hpending⟩

/-- A run starts ongoing. -/
theorem admitYaml_ongoing (hadmission : (admitYaml host request).owner = some owner) :
    Ongoing owner.snapshot (RuntimeState.start owner) := by
  obtain ⟨seeded, hentered⟩ := admitYaml_owner hadmission
  obtain ⟨init, hinit, hconsistent, hterminal, hpending⟩ :=
    create_consistent owner.snapshot.accepted (Nat.le_refl 1)
  obtain rfl : init = owner.dag := by simpa [hentered.dag_eq] using hinit.symm
  have hactive : owner.dag.active = 0 := by
    rw [hconsistent.active_eq]
    exact countPhase_eq_zero (by simp) hpending
  have hquiet : ∀ id, owner.world.txns id = none := by
    simp [hentered.world_eq, World.withStore, World.empty]
  refine ⟨rfl, rfl, hconsistent, hterminal, hactive, hentered.count_eq, fun index slot hslot => ?_,
    hquiet, seeded, hentered.root_eq⟩
  obtain ⟨hstate, hrevision⟩ := hentered.pending slot (List.mem_of_getElem? hslot)
  obtain ⟨hlt, _⟩ := List.getElem?_eq_some_iff.mp hslot
  have hdag : index < owner.dag.tasks.length := by
    rw [hconsistent.length_eq, owner.snapshot.graph_taskCount, ← hentered.count_eq]
    exact hlt
  refine .inl ⟨?_, hstate, hrevision⟩
  show (phases owner.dag.tasks)[index]? = some .pending
  rw [DagState.getElem?_phases, List.getElem?_eq_getElem hdag, Option.map_some,
    hpending _ (List.getElem_mem hdag)]

end Entry

/-! ## Facts about a history -/

/-- A turn of a run with its reply. -/
abbrev Turn := TurnInput × TurnReply

/-- The contents of the root store once the ports of the successful turns have been
published, in the order of the turns. -/
def publishedOver (seeded : ValueStore) (history : List Turn) : CString → Option CString :=
  (history.filterMap fun turn => turn.2.completed).foldl overlay seeded.findEntry

/-- The slots in a given state are those of the tasks claimed by a turn of a given kind. -/
def Tracks (target : TaskState) (kind : Turn → Prop) (history : List Turn)
    (registry : TaskRegistry) : Prop :=
  ∀ index slot, registry.slots[index]? = some slot →
    (slot.state = target ↔ ∃ turn ∈ history, turn.2.claimed = some index ∧ kind turn)

/-- The turn published its task. -/
def Succeeded (turn : Turn) : Prop := turn.2.completed ≠ none

/-- The turn lost its task without a reason to record. -/
def LostReason (turn : Turn) : Prop := turn.2.completed = none ∧ turn.1.reasonKept = false

/-- Nothing is claimed twice, after a turn without success, or by a turn that saw the
cancel probe or the deadline. -/
structure Ordered (history : List Turn) : Prop where
  nodup : (history.filterMap fun turn => turn.2.claimed).Nodup
  halted : history.Pairwise fun earlier later => ¬ Succeeded earlier → later.2.claimed = none
  started : ∀ turn ∈ history, turn.2.started = turn.2.claimed.isSome
  observed : ∀ turn ∈ history, turn.1.cancelled = true ∨ turn.1.expired = true →
    turn.2.claimed = none

/-- The ports a turn published are those of its task, which ran on the root store that
the turns before it had left. -/
def PublishedAfter (snapshot : WorkflowSnapshot) (seeded : ValueStore) (earlier : List Turn)
    (turn : Turn) : Prop :=
  ∀ writes, turn.2.completed = some writes → ∃ index root, turn.2.claimed = some index ∧
    root.findEntry = publishedOver seeded earlier ∧ Ports snapshot index turn.1 root writes

/-- What is known after a run with this history. -/
structure RunFacts (snapshot : WorkflowSnapshot) (seeded : ValueStore) (history : List Turn)
    (state : RuntimeState) : Prop where
  ongoing : state.phase = .looping → Ongoing snapshot state
  unbroken : state.phase = .looping → ∀ turn ∈ history, Succeeded turn
  exhausted : state.phase = .marshalled → state.status = .ok →
    ∀ slot ∈ state.owner.registry.slots, slot.state = .success
  ordered : Ordered history
  count_eq : state.owner.registry.count = snapshot.taskCount
  claimed_lt : ∀ turn ∈ history, ∀ index, turn.2.claimed = some index → index < snapshot.taskCount
  success : Tracks .success Succeeded history state.owner.registry
  running : state.phase ≠ .aborted → Tracks .running LostReason history state.owner.registry
  published : ∀ earlier turn later, history = earlier ++ turn :: later →
    PublishedAfter snapshot seeded earlier turn
  root : ∃ store, state.owner.world.stores rootStore = some store ∧
    store.findEntry = publishedOver seeded history

/-! ## One turn more -/

section Append

variable {history : List Turn} {input : TurnInput} {reply : TurnReply}

theorem publishedOver_append (seeded : ValueStore) :
    publishedOver seeded (history ++ [(input, reply)]) =
      match reply.completed with
      | none => publishedOver seeded history
      | some writes => overlay (publishedOver seeded history) writes := by
  rw [publishedOver, List.filterMap_append, List.foldl_append]
  cases hcompleted : reply.completed with
  | none => simp [hcompleted, publishedOver]
  | some writes => simp [hcompleted, publishedOver]

theorem forall_mem_append {holds : Turn → Prop} (hprior : ∀ turn ∈ history, holds turn)
    (hlast : holds (input, reply)) : ∀ turn ∈ history ++ [(input, reply)], holds turn := by
  intro turn hturn
  rcases List.mem_append.mp hturn with hturn | hturn
  · exact hprior turn hturn
  · exact List.mem_singleton.mp hturn ▸ hlast

theorem Ordered.append (hordered : Ordered history)
    (hfresh : ∀ index, reply.claimed = some index → ∀ turn ∈ history,
      Succeeded turn ∧ turn.2.claimed ≠ some index)
    (hstarted : reply.started = reply.claimed.isSome)
    (hobserved : input.cancelled = true ∨ input.expired = true → reply.claimed = none) :
    Ordered (history ++ [(input, reply)]) := by
  refine ⟨?_, ?_, forall_mem_append hordered.started hstarted,
    forall_mem_append hordered.observed hobserved⟩
  · rw [List.filterMap_append, List.nodup_append']
    refine ⟨hordered.nodup, ?_, fun index hearlier hlast => ?_⟩
    · cases hclaimed : reply.claimed with
      | none => simp [hclaimed]
      | some index => simp [hclaimed]
    · obtain ⟨turn, hturn, hclaimed⟩ := List.mem_filterMap.mp hearlier
      have hreply : reply.claimed = some index := by simpa using hlast
      exact (hfresh index hreply turn hturn).2 hclaimed
  · refine List.pairwise_append.mpr ⟨hordered.halted, List.pairwise_singleton _ _, ?_⟩
    intro earlier hearlier later hlater hlost
    rw [List.mem_singleton.mp hlater]
    cases hclaimed : reply.claimed with
    | none => rfl
    | some index => exact absurd (hfresh index hclaimed earlier hearlier).1 hlost

variable {target : TaskState} {kind : Turn → Prop} {registry next : TaskRegistry}

theorem Tracks.idle (htracks : Tracks target kind history registry) (hidle : reply.claimed = none) :
    Tracks target kind (history ++ [(input, reply)]) registry := by
  intro index slot hslot
  rw [htracks index slot hslot]
  simp [hidle]

theorem Tracks.claimed (htracks : Tracks target kind history registry) {index : Nat}
    (hclaimed : reply.claimed = some index)
    (hfresh : ∀ turn ∈ history, turn.2.claimed ≠ some index)
    (hchanged : registry.ChangedAt next index fun slot =>
      slot.state = target ↔ kind (input, reply)) :
    Tracks target kind (history ++ [(input, reply)]) next := by
  intro task slot hslot
  by_cases htask : task = index
  · subst htask
    obtain ⟨found, hfound, hstate⟩ := hchanged.here
    obtain rfl : found = slot := by simpa [hfound] using hslot
    rw [hstate]
    refine ⟨fun hkind => ⟨(input, reply), by simp, hclaimed, hkind⟩, ?_⟩
    rintro ⟨turn, hturn, hturnClaimed, hkind⟩
    rcases List.mem_append.mp hturn with hturn | hturn
    · exact absurd hturnClaimed (hfresh turn hturn)
    · exact List.mem_singleton.mp hturn ▸ hkind
  · rw [hchanged.others task htask] at hslot
    rw [htracks task slot hslot]
    simp [hclaimed, Ne.symm htask]

end Append

section Facts

variable {snapshot : WorkflowSnapshot} {seeded : ValueStore} {history : List Turn}
  {before after : RuntimeState} {input : TurnInput}

/-- A turn that claims nothing and leaves the registry and the stores alone. -/
theorem RunFacts.idle (hfacts : RunFacts snapshot seeded history before)
    (hphase : after.phase ≠ .looping)
    (haborted : after.phase ≠ .aborted → before.phase ≠ .aborted)
    (hregistry : after.owner.registry = before.owner.registry)
    (hworld : after.owner.world = before.owner.world)
    (hexhausted : after.phase = .marshalled → after.status = .ok →
      ∀ slot ∈ before.owner.registry.slots, slot.state = .success) :
    RunFacts snapshot seeded (history ++ [(input, .nothing)]) after where
  ongoing h := absurd h hphase
  unbroken h := absurd h hphase
  exhausted := by rwa [hregistry]
  ordered := hfacts.ordered.append (by simp [TurnReply.nothing]) rfl fun _ => rfl
  count_eq := hregistry ▸ hfacts.count_eq
  claimed_lt := forall_mem_append hfacts.claimed_lt (by simp [TurnReply.nothing])
  success := hregistry ▸ hfacts.success.idle rfl
  running h := hregistry ▸ (hfacts.running (haborted h)).idle rfl
  published := forall_split_append _ hfacts.published (by simp [PublishedAfter, TurnReply.nothing])
  root := by
    rw [hworld, publishedOver_append]
    exact hfacts.root

/-- A pending task has not been claimed while the loop goes on. -/
theorem RunFacts.fresh (hfacts : RunFacts snapshot seeded history before)
    (hphase : before.phase = .looping) {index : Nat} {slot : TaskSlot}
    (hslot : before.owner.registry.slots[index]? = some slot) (hpending : slot.state = .pending) :
    ∀ turn ∈ history, Succeeded turn ∧ turn.2.claimed ≠ some index := by
  intro turn hturn
  have hsucceeded := hfacts.unbroken hphase turn hturn
  refine ⟨hsucceeded, fun hclaimed => ?_⟩
  have hsuccess := (hfacts.success index slot hslot).mpr ⟨turn, hturn, hclaimed, hsucceeded⟩
  simp [hpending] at hsuccess

/-- A turn that claims a task. -/
theorem RunFacts.claimed (hfacts : RunFacts snapshot seeded history before)
    (hphase : before.phase = .looping) {index : Nat} {slot : TaskSlot}
    (hslot : before.owner.registry.slots[index]? = some slot) (hpending : slot.state = .pending)
    (hclear : input.cancelled = false ∧ input.expired = false) {result : RuntimeState × TurnReply}
    (houtcome : TaskOutcome snapshot before index input result) :
    RunFacts snapshot seeded (history ++ [(input, result.2)]) result.1 := by
  have hfresh := hfacts.fresh hphase hslot hpending
  have hunclaimed := fun turn hturn => (hfresh turn hturn).2
  have hlt : index < snapshot.taskCount := by
    obtain ⟨hlt, _⟩ := List.getElem?_eq_some_iff.mp hslot
    exact Nat.lt_of_lt_of_eq hlt hfacts.count_eq
  have hordered : ∀ completed, Ordered (history ++ [(input, ⟨some index, true, completed⟩)]) := by
    refine fun completed => hfacts.ordered.append ?_ rfl (by simp [hclear])
    rintro _ ⟨rfl⟩
    exact hfresh
  have hclaimed_lt : ∀ completed, ∀ turn ∈ history ++ [(input, ⟨some index, true, completed⟩)],
      ∀ index, turn.2.claimed = some index → index < snapshot.taskCount := by
    refine fun completed => forall_mem_append hfacts.claimed_lt ?_
    rintro _ ⟨rfl⟩
    exact hlt
  have hrunning := hfacts.running (by simp [hphase])
  cases houtcome with
  | aborted after hafter hsnapshot hworld hregistry =>
      refine ⟨by simp [hafter], by simp [hafter], by simp [hafter], hordered _,
        hregistry.count_eq.trans hfacts.count_eq, hclaimed_lt _,
        hfacts.success.claimed rfl hunclaimed (hregistry.mono ?_), by simp [hafter],
        forall_split_append _ hfacts.published (by simp [PublishedAfter]), ?_⟩
      · intro slot hslot
        simp [hslot, Succeeded]
      · simpa only [hworld, publishedOver_append] using hfacts.root
  | failed after hafter hstatus hsnapshot hworld hregistry =>
      refine ⟨by simp [hafter], by simp [hafter], fun _ h => absurd h hstatus, hordered _,
        hregistry.count_eq.trans hfacts.count_eq, hclaimed_lt _,
        hfacts.success.claimed rfl hunclaimed (hregistry.mono ?_),
        fun _ => hrunning.claimed rfl hunclaimed (hregistry.mono ?_),
        forall_split_append _ hfacts.published (by simp [PublishedAfter]), ?_⟩
      · intro slot hslot
        cases hkept : input.reasonKept <;> simp [hslot, hkept, Succeeded]
      · intro slot hslot
        cases hkept : input.reasonKept <;> simp [hslot, hkept, LostReason]
      · simpa only [hworld, publishedOver_append] using hfacts.root
  | succeeded after writes root next hafter hongoing hregistry hports hroot hstores hnext =>
      obtain ⟨store, hstore, hcontent⟩ := hfacts.root
      obtain rfl : store = root := by simpa [hstore] using hroot
      refine ⟨fun _ => hongoing, fun _ => ?_, by simp [hafter], hordered _,
        hregistry.count_eq.trans hfacts.count_eq, hclaimed_lt _,
        hfacts.success.claimed rfl hunclaimed (hregistry.mono ?_),
        fun _ => hrunning.claimed rfl hunclaimed (hregistry.mono ?_),
        forall_split_append _ hfacts.published ?_, next, by simp [hstores], ?_⟩
      · exact forall_mem_append (hfacts.unbroken hphase) (by simp [Succeeded])
      · intro slot hslot
        simp [hslot, Succeeded]
      · intro slot hslot
        simp [hslot, LostReason]
      · rintro _ ⟨rfl⟩
        exact ⟨index, store, rfl, hcontent, hports⟩
      · rw [publishedOver_append, hnext, hcontent]

/-- Every turn keeps the facts. -/
theorem RunFacts.step (library : JsonLibrary) (hfacts : RunFacts snapshot seeded history before)
    (input : TurnInput) :
    RunFacts snapshot seeded (history ++ [(input, (before.step library input).2)])
      (before.step library input).1 := by
  by_cases hphase : before.phase = .looping
  · have hturn := (hfacts.ongoing hphase).turn hphase library input
    generalize before.step library input = result at hturn ⊢
    cases hturn with
    | interrupted after hafter hstatus hsnapshot hregistry hworld =>
        exact hfacts.idle (by simp [hafter]) (by simp [hphase]) hregistry hworld
          fun _ h => absurd h hstatus
    | exhausted after hafter hsnapshot hregistry hworld hsuccess =>
        exact hfacts.idle (by simp [hafter]) (by simp [hphase]) hregistry hworld
          fun _ _ => hsuccess
    | claimed index slot hcancelled hexpired hslot hpending hdependencies houtcome =>
        exact hfacts.claimed hphase hslot hpending ⟨hcancelled, hexpired⟩ houtcome
  · have hstep : before.step library input = (before, .nothing) := by
      simp [RuntimeState.step, hphase]
    rw [hstep]
    exact hfacts.idle hphase id rfl rfl hfacts.exhausted

end Facts

/-! ## Whole runs -/

/-- What a run of a workflow promises in the state it has reached.  The fields follow the
order in which a caller asks: what `OK` means, what was running when a task was started,
in which order tasks were started, what the marshalled registry shows, which tasks are
successful, and what the root store holds. -/
structure RunSemantics (library : JsonLibrary) (snapshot : WorkflowSnapshot) (seeded : ValueStore)
    (history : List Turn) (state : RuntimeState) : Prop where
  all_success : state.phase = .marshalled → state.status = .ok →
    ∀ slot ∈ state.owner.registry.slots, slot.state = .success
  starts : ∀ input index, (state.step library input).2.claimed = some index →
    (∀ slot ∈ state.owner.registry.slots, slot.state ≠ .running) ∧
      ∀ predecessor, (predecessor, index) ∈ snapshot.graph.pairs →
        ∃ slot, state.owner.registry.slots[predecessor]? = some slot ∧ slot.state = .success
  ordered : Ordered history
  not_running : state.phase = .marshalled →
    ∀ slot ∈ state.owner.registry.slots, slot.state ≠ .running
  success : Tracks .success Succeeded history state.owner.registry
  published : ∀ earlier turn later, history = earlier ++ turn :: later →
    PublishedAfter snapshot seeded earlier turn
  root : ∃ store, state.owner.world.stores rootStore = some store ∧
    store.findEntry = publishedOver seeded history
  terminates : snapshot.taskCount < history.length → state.phase ≠ .looping

section Whole

variable {snapshot : WorkflowSnapshot} {seeded : ValueStore} {history : List Turn}
  {state : RuntimeState}

/-- While the loop goes on nothing is running between two turns. -/
theorem Ongoing.not_running (hongoing : Ongoing snapshot state) :
    ∀ slot ∈ state.owner.registry.slots, slot.state ≠ .running := by
  intro slot hslot
  obtain ⟨index, hindex⟩ := List.getElem?_of_mem hslot
  rcases hongoing.agree index slot hindex with ⟨_, hstate, _⟩ | ⟨_, hstate⟩ <;> simp [hstate]

/-- What the next turn may claim. -/
theorem RunFacts.starts (hfacts : RunFacts snapshot seeded history state) (library : JsonLibrary)
    (input : TurnInput) {index : Nat}
    (hclaimed : (state.step library input).2.claimed = some index) :
    (∀ slot ∈ state.owner.registry.slots, slot.state ≠ .running) ∧
      ∀ predecessor, (predecessor, index) ∈ snapshot.graph.pairs →
        ∃ slot, state.owner.registry.slots[predecessor]? = some slot ∧ slot.state = .success := by
  by_cases hphase : state.phase = .looping
  · have hongoing := hfacts.ongoing hphase
    have hturn := hongoing.turn hphase library input
    refine ⟨hongoing.not_running, ?_⟩
    generalize state.step library input = result at hturn hclaimed
    cases hturn with
    | interrupted => simp [TurnReply.nothing] at hclaimed
    | exhausted => simp [TurnReply.nothing] at hclaimed
    | claimed found slot _ _ hslot hpending hdependencies houtcome =>
        obtain rfl : found = index := by
          cases houtcome <;> simpa using hclaimed
        exact hdependencies
  · simp [RuntimeState.step, hphase, TurnReply.nothing] at hclaimed

/-- The loop goes on for at most one turn per task. -/
theorem RunFacts.length_le (hfacts : RunFacts snapshot seeded history state)
    (hphase : state.phase = .looping) : history.length ≤ snapshot.taskCount := by
  have hall : ∀ turn ∈ history, turn.2.claimed.isSome = true := by
    intro turn hturn
    obtain ⟨earlier, later, hsplit⟩ := List.append_of_mem hturn
    obtain ⟨writes, hwrites⟩ := Option.ne_none_iff_exists'.mp (hfacts.unbroken hphase turn hturn)
    obtain ⟨index, _, hclaimed, _⟩ := hfacts.published earlier turn later hsplit writes hwrites
    simp [hclaimed]
  have hlength : (history.filterMap fun turn => turn.2.claimed).length = history.length :=
    List.filterMap_length_eq_length.mpr hall
  have hbounded : (history.filterMap fun turn => turn.2.claimed) ⊆
      List.range snapshot.taskCount := by
    intro index hindex
    obtain ⟨turn, hturn, hclaimed⟩ := List.mem_filterMap.mp hindex
    exact List.mem_range.mpr (hfacts.claimed_lt turn hturn index hclaimed)
  have hsubperm := hfacts.ordered.nodup.subperm hbounded
  simpa [hlength] using hsubperm.length_le

/-- With the reasons kept, the facts are the promised semantics. -/
theorem RunFacts.semantics (hfacts : RunFacts snapshot seeded history state)
    (library : JsonLibrary) (hkept : ∀ turn ∈ history, turn.1.reasonKept = true) :
    RunSemantics library snapshot seeded history state where
  all_success := hfacts.exhausted
  starts input _ hclaimed := hfacts.starts library input hclaimed
  ordered := hfacts.ordered
  not_running hphase slot hslot hrunning := by
    obtain ⟨index, hindex⟩ := List.getElem?_of_mem hslot
    obtain ⟨turn, hturn, _, _, hlost⟩ :=
      (hfacts.running (by simp [hphase]) index slot hindex).mp hrunning
    simp [hkept turn hturn] at hlost
  success := hfacts.success
  published := hfacts.published
  root := hfacts.root
  terminates hlength hphase := absurd (hfacts.length_le hphase) (Nat.not_le.mpr hlength)

end Whole

section Runs

variable {host : RuntimeHost} {request : RuntimeRequest} {owner : RuntimeOwner}

/-- The facts hold after every run of an admitted workflow. -/
theorem run_facts (hadmission : (admitYaml host request).owner = some owner) {seeded : ValueStore}
    (hseeded : owner.world.stores rootStore = some seeded) {library : JsonLibrary}
    {history : List Turn} {state : RuntimeState}
    (hrun : Run (RuntimeState.step library) (.start owner) history state) :
    RunFacts owner.snapshot seeded history state := by
  refine hrun.invariant (RunFacts owner.snapshot seeded) ?_ fun history state input _ hfacts =>
    hfacts.step library input
  have hongoing := admitYaml_ongoing hadmission
  obtain ⟨_, hentered⟩ := admitYaml_owner hadmission
  refine ⟨fun _ => hongoing, by simp, by simp [RuntimeState.start],
    ⟨by simp, by simp, by simp, by simp⟩, hentered.count_eq, by simp, ?_, fun _ => ?_, by simp,
    seeded, hseeded, rfl⟩
  · intro index slot hslot
    simp [(hentered.pending slot (List.mem_of_getElem? hslot)).1]
  · intro index slot hslot
    simp [(hentered.pending slot (List.mem_of_getElem? hslot)).1]

/-- Every run of an admitted workflow in which the reasons of failed tasks can be copied
has the promised semantics, whatever the sessions, the publications, the cancel probe and
the clock do. -/
theorem run_semantics (hadmission : (admitYaml host request).owner = some owner) :
    ∃ seeded, Seeded request owner.snapshot seeded ∧
      owner.world.stores rootStore = some seeded ∧
      ∀ library history state, Run (RuntimeState.step library) (.start owner) history state →
        (∀ turn ∈ history, turn.1.reasonKept = true) →
        RunSemantics library owner.snapshot seeded history state := by
  obtain ⟨seeded, hentered⟩ := admitYaml_owner hadmission
  exact ⟨seeded, hentered.isSeeded, hentered.root_eq, fun library history state hrun hkept =>
    (run_facts hadmission hentered.root_eq hrun).semantics library hkept⟩

end Runs

/-! ## A native workflow of two tasks -/

/-- The surroundings of a call in which nothing fails and one text is known to the front
end. -/
def RuntimeHost.reading (text : Bytes) (tasks : List SnapshotTask) : RuntimeHost where
  config := ⟨1024, 64, 1024, 64, 1048576⟩
  frontEnd yaml := if yaml = text then
      (WorkflowSnapshot.ofTasks (.object []) tasks).mapError DependencyError.message
    else .error []
  componentStarts := true
  retainerStarts := true
  schedule := []

theorem RuntimeHost.frontEnd_reading {text : Bytes} {tasks : List SnapshotTask}
    {snapshot : WorkflowSnapshot} :
    (reading text tasks).frontEnd text = .ok snapshot ↔
      WorkflowSnapshot.ofTasks (.object []) tasks = .ok snapshot := by
  simp only [reading, if_true]
  cases WorkflowSnapshot.ofTasks (.object []) tasks with
  | error failure => simp [Except.mapError]
  | ok found => simp [Except.mapError]

/-- A request for a text with room for four values. -/
def RuntimeRequest.plain (text : Bytes) : RuntimeRequest := ⟨text, some ⟨32, 4, 30000⟩, true⟩

/-- Two native tasks, the second of which copies what the first one sets. -/
def copyingText : Bytes :=
  ascii "tasks:\n" ++
    ascii "  - name: first\n" ++ ascii "    set_variable: answer\n" ++ ascii "    value: ready\n" ++
    ascii "  - name: second\n" ++ ascii "    depends_on: [first]\n" ++
    ascii "    set_variable: done\n" ++ ascii "    from: answer\n"

/-- The tasks of `copyingText`. -/
def copyingTasks : List SnapshotTask :=
  [.ofSetVariable (ascii "first") [] (ascii "answer") "value" (ascii "ready"),
    .ofSetVariable (ascii "second") [ascii "first"] (ascii "done") "from" (ascii "answer")]

/-- The owner with which the loop of `copyingText` is entered. -/
def copyingOwner : RuntimeOwner :=
  (admitYaml (.reading copyingText copyingTasks) (.plain copyingText)).owner.get (by decide +kernel)

theorem admitYaml_copying :
    (admitYaml (.reading copyingText copyingTasks) (.plain copyingText)).owner =
      some copyingOwner :=
  (Option.some_get _).symm

/-- A turn in which nothing fails and the session stores one text. -/
def smoothTurn (key value : CString) : TurnInput where
  cancelled := false
  expired := false
  host := match ValueStore.init ⟨4, maxKey, maxValue⟩ [] with
    | (.ok store, _) => .ok store
    | (.error _, _) => .error .enomem
  loadSchedule := []
  bind := .ok
  initSession := .ok
  executor := true
  control := true
  componentActive := true
  posted := true
  settled := true
  session scope := ⟨.ok, .success, false, false, (scope.set (some key) (some value)).1⟩
  closed := true
  drained := true
  publish := ⟨[], ⟨true, 1, 0, 0, 0, 0, true, 0, 0, 1, .idle, .ok, 0, []⟩, []⟩
  exitSchedule := []
  reasonSchedule := []

/-- The turns of a run of `copyingText` to its end. -/
def copyingTurns : List TurnInput :=
  [smoothTurn (.literal "answer") (.literal "ready"),
    smoothTurn (.literal "done") (.literal "ready"),
    smoothTurn (.literal "done") (.literal "ready")]

/-- The state after these turns. -/
def copyingEnd : RuntimeState :=
  drive (RuntimeState.step inPlace) (.start copyingOwner) copyingTurns

theorem run_semantics_copying :
    ∃ seeded, Seeded (.plain copyingText) copyingOwner.snapshot seeded ∧
      copyingEnd.phase = .marshalled ∧ copyingEnd.status = .ok ∧
      RunSemantics inPlace copyingOwner.snapshot seeded
        (copyingTurns.zip (answers (RuntimeState.step inPlace) (.start copyingOwner) copyingTurns))
        copyingEnd := by
  obtain ⟨seeded, hseeded, _, hsemantics⟩ := run_semantics admitYaml_copying
  have hend : copyingEnd.phase = .marshalled ∧ copyingEnd.status = .ok := by decide +kernel
  have hkept : ∀ input ∈ copyingTurns, input.reasonKept = true := by
    simp [copyingTurns, smoothTurn, TurnInput.reasonKept]
  exact ⟨seeded, hseeded, hend.1, hend.2, hsemantics _ _ _ (run_drive _ _ copyingTurns)
    fun turn hturn => hkept turn.1 (List.of_mem_zip hturn).1⟩

/-- A turn whose session fails while the reason cannot be copied. -/
def starvedTurn : TurnInput :=
  { smoothTurn (.literal "answer") (.literal "ready") with
    session := fun scope => ⟨.ok, .failure, false, false, scope⟩
    reasonSchedule := [none] }

/-- The failed task of a starved turn is marshalled as `RUNNING`. -/
theorem run_semantics_starved :
    (admitYaml (.reading copyingText copyingTasks) (.plain copyingText)).owner =
        some copyingOwner ∧
      ∃ history state, Run (RuntimeState.step inPlace) (.start copyingOwner) history state ∧
        ∀ seeded, ¬ RunSemantics inPlace copyingOwner.snapshot seeded history state := by
  refine ⟨admitYaml_copying, _, _, Run.single _ _ starvedTurn, fun seeded hsemantics => ?_⟩
  have hend : ((RuntimeState.start copyingOwner).step inPlace starvedTurn).1.phase = .marshalled ∧
      TaskState.running ∈ ((RuntimeState.start copyingOwner).step inPlace
        starvedTurn).1.owner.registry.slots.map TaskSlot.state := by
    decide +kernel
  obtain ⟨slot, hslot, hstate⟩ := List.mem_map.mp hend.2
  exact hsemantics.not_running hend.1 slot hslot hstate

end Praktor.Runtime
