/-
# The board of a session

What the controls of a session go by, without scratch buffers, memory and the layout of the pool:
the store, the states of the nodes, and the text of every slot.  Every step of the controls changes
the board in one place, and the board shows what the controls remember.
-/

import Praktor.Session.ControlReads

namespace Praktor.Session

open Praktor.Data Praktor.Math Stateful

variable {Store Number : Type} {count : Nat}

/-! ## Cached texts -/

/-- The text of a slot, if one is cached. -/
def CachePool.text (pool : CachePool count) (place : SlotPlace count) : Option Bytes :=
  if (pool.slots place).present then some (pool.sessionCached place) else none

theorem CachePool.sessionCached_eq (pool : CachePool count) (place : SlotPlace count) :
    pool.sessionCached place = (pool.text place).getD [] := by
  unfold text
  split
  · rfl
  next habsent =>
    unfold sessionCached
    rw [if_neg habsent]
    rfl

/-- The pool of a session that runs. -/
structure CachePool.Held (limit : Nat) (pool : CachePool count) : Prop where
  holds : ∃ entries, pool.Holds entries
  bounded : pool.Bounded limit

section Pool

variable {limit : Nat} {pool : CachePool count} {entries : List (SlotPlace count × Bytes)}

theorem CachePool.Holds.text_eq_some (hholds : pool.Holds entries) {place : SlotPlace count}
    {text : Bytes} : pool.text place = some text ↔ (place, text) ∈ entries := by
  constructor
  · intro htext
    unfold CachePool.text at htext
    split at htext
    next hpresent =>
      obtain ⟨⟨owner, stored⟩, hentry, hplace⟩ :=
        List.mem_map.mp ((hholds.present_iff place).mp hpresent)
      obtain rfl : owner = place := hplace
      rw [(hholds.cached hentry).2.1] at htext
      obtain rfl := Option.some.inj htext
      exact hentry
    · cases htext
  · intro hentry
    obtain ⟨hpresent, hcached, -⟩ := hholds.cached hentry
    unfold CachePool.text
    rw [if_pos hpresent, hcached]

/-- The texts of a pool are told by its entries. -/
theorem CachePool.Holds.text_eq (hholds : pool.Holds entries) {texts : SlotPlace count → Option Bytes}
    (htexts : ∀ place text, texts place = some text ↔ (place, text) ∈ entries) :
    pool.text = texts := by
  funext place
  apply Option.ext
  intro text
  exact hholds.text_eq_some.trans (htexts place text).symm

theorem CachePool.Held.uncache (hheld : pool.Held limit) (place : SlotPlace count) :
    (pool.sessionUncache place).Held limit ∧
      (pool.sessionUncache place).text = Function.update pool.text place none := by
  obtain ⟨⟨entries, hholds⟩, hbounded⟩ := hheld
  have hnext := hholds.step hbounded (.uncache place)
  refine ⟨⟨⟨_, hholds.uncache place⟩, hnext.2.1⟩, (hholds.uncache place).text_eq fun other text => ?_⟩
  by_cases hplace : other = place
  · subst hplace
    simp
  · simp [hplace, hholds.text_eq_some]

theorem CachePool.Held.cache (hheld : pool.Held limit) (place : SlotPlace count) (value : Bytes)
    (fresh : Fresh) :
    ((pool.sessionCache limit place value fresh).1 ≠ .ok ∧
        (pool.sessionCache limit place value fresh).2 = pool) ∨
      ((pool.sessionCache limit place value fresh).1 = .ok ∧
        (pool.sessionCache limit place value fresh).2.Held limit ∧
        (pool.sessionCache limit place value fresh).2.text =
          Function.update pool.text place (some value)) := by
  obtain ⟨⟨entries, hholds⟩, hbounded⟩ := hheld
  rcases hholds.cache hbounded place value fresh with
    ⟨hrefused, hsame⟩ | ⟨hok, hnext, hnextBounded, -, -⟩
  · exact .inl ⟨hrefused, hsame⟩
  · refine .inr ⟨hok, ⟨⟨_, hnext⟩, hnextBounded⟩, hnext.text_eq fun other text => ?_⟩
    by_cases hplace : other = place
    · subst hplace
      simp [eq_comm]
    · simp [hplace, hholds.text_eq_some]

end Pool

/-! ## Boards -/

/-- What the controls of a session go by. -/
@[ext]
structure Board (Store : Type) (count : Nat) where
  store : Store
  generation : Nat
  state : Fin count → NodeState
  text : SlotPlace count → Option Bytes

/-- The board of a session. -/
def SessionState.board (s : SessionState Store count) : Board Store count :=
  ⟨s.store, s.generation, s.state, s.pool.text⟩

namespace Board

variable (b : Board Store count)

/-- The state of a node is replaced. -/
def setState (node : Fin count) (st : NodeState) : Board Store count :=
  { b with state := Function.update b.state node st }

/-- The text of a slot is replaced. -/
def setText (place : SlotPlace count) (text : Option Bytes) : Board Store count :=
  { b with text := Function.update b.text place text }

/-- What `clear_pipeline` leaves. -/
def clearPipeline (node : Fin count) : Board Store count :=
  ((b.setState node { b.state node with pipeline := false, restoreTick := 0 }).setText
    (node, .pipeData) none).setText (node, .pipeKey) none

/-- The pipeline of a node. -/
def flow (node : Fin count) : Option Flow :=
  if (b.state node).pipeline then
    some ⟨CString.ofBuffer ((b.text (node, .pipeKey)).getD []),
      (b.text (node, .pipeData)).getD [], (b.state node).activeChild, (b.state node).restoreTick⟩
  else none

/-- The entry of a node. -/
def entry (node : Fin count) : Option Bytes :=
  if (b.state node).observed then some ((b.text (node, .entryValue)).getD []) else none

/-- The queue of a node. -/
def queue (node : Fin count) : Option Bool :=
  if (b.state node).queueActive then some (b.state node).queueMore else none

/-- What the controls remember. -/
def controls (view : Store → CString → Option Bytes) : Controls count :=
  ⟨view b.store, b.generation, b.flow, b.entry, b.queue⟩

/-- The flags of a node fit its texts. -/
structure NodeSound (session : PlannedSession Number count) (node : Fin count) : Prop where
  branch_eq : (b.state node).branch = session.branch node
  children_eq : (b.state node).childCount = (session.children node).length
  tick : (b.state node).pipeline = false → (b.state node).restoreTick = 0
  data : (b.text (node, .pipeData)).isSome = (b.state node).pipeline
  key : (b.text (node, .pipeKey)).isSome = (b.state node).pipeline
  keyText : ∀ key, b.text (node, .pipeKey) = some key → 0 ∉ key
  entry : (b.text (node, .entryValue)).isSome = (b.state node).observed

/-- The flags of every node fit its texts. -/
def Sound (session : PlannedSession Number count) : Prop := ∀ node, b.NodeSound session node

/-- Nothing has changed but the store, and one node. -/
structure OnlyAt (node : Fin count) (next : Board Store count) : Prop where
  generation_eq : next.generation = b.generation
  state_eq : ∀ other, other ≠ node → next.state other = b.state other
  text_eq : ∀ other, other ≠ node → ∀ kind, next.text (other, kind) = b.text (other, kind)

end Board

section Boards

variable {b next : Board Store count} {session : PlannedSession Number count} {node : Fin count}
  {view : Store → CString → Option Bytes}

theorem Board.Sound.onlyAt (hsound : b.Sound session) (hnext : b.OnlyAt node next)
    (hnode : next.NodeSound session node) : next.Sound session := by
  intro other
  by_cases hother : other = node
  · exact hother ▸ hnode
  · have hstate := hnext.state_eq other hother
    have htext := hnext.text_eq other hother
    obtain ⟨hbranch, hchildren, htick, hdata, hkey, hkeyText, hentry⟩ := hsound other
    constructor <;> simp only [hstate, htext] <;> assumption

/-- The controls of a board that has changed at one node. -/
theorem Board.OnlyAt.controls_eq (hnext : b.OnlyAt node next) :
    next.controls view =
      ⟨view next.store, b.generation, Function.update b.flow node (next.flow node),
        Function.update b.entry node (next.entry node),
        Function.update b.queue node (next.queue node)⟩ := by
  have hothers : ∀ {α : Type} {first second : Fin count → α},
      (∀ other, other ≠ node → second other = first other) →
      second = Function.update first node (second node) := by
    intro α first second hsame
    funext other
    by_cases hother : other = node
    · rw [hother, Function.update_self]
    · rw [Function.update_of_ne hother, hsame other hother]
  unfold controls
  rw [hnext.generation_eq]
  congr 1
  · refine hothers fun other hother => ?_
    unfold flow
    simp only [hnext.state_eq other hother, hnext.text_eq other hother]
  · refine hothers fun other hother => ?_
    unfold entry
    simp only [hnext.state_eq other hother, hnext.text_eq other hother]
  · refine hothers fun other hother => ?_
    unfold queue
    simp only [hnext.state_eq other hother]

/-- A change of a pipeline. -/
theorem Board.OnlyAt.controls_flow (hnext : b.OnlyAt node next) (hentry : next.entry node = b.entry node)
    (hqueue : next.queue node = b.queue node) :
    next.controls view =
      { (b.controls view).setFlow node (next.flow node) with values := view next.store } := by
  rw [hnext.controls_eq, hentry, hqueue, Function.update_eq_self, Function.update_eq_self]
  rfl

/-- A change of an entry. -/
theorem Board.OnlyAt.controls_entry (hnext : b.OnlyAt node next) (hflow : next.flow node = b.flow node)
    (hqueue : next.queue node = b.queue node) :
    next.controls view =
      { (b.controls view).setEntry node (next.entry node) with values := view next.store } := by
  rw [hnext.controls_eq, hflow, hqueue, Function.update_eq_self, Function.update_eq_self]
  rfl

/-- A change of a queue. -/
theorem Board.OnlyAt.controls_queue (hnext : b.OnlyAt node next) (hflow : next.flow node = b.flow node)
    (hentry : next.entry node = b.entry node) :
    next.controls view =
      { (b.controls view).setQueue node (next.queue node) with values := view next.store } := by
  rw [hnext.controls_eq, hflow, hentry, Function.update_eq_self, Function.update_eq_self]
  rfl

@[simp]
theorem Board.setText_text (place : SlotPlace count) (text : Option Bytes) :
    (b.setText place text).text place = text := Function.update_self _ _ _

theorem Board.setText_of_ne {place other : SlotPlace count} (hother : other ≠ place)
    (text : Option Bytes) : (b.setText place text).text other = b.text other :=
  Function.update_of_ne hother _ _

theorem Board.onlyAt_refl (node : Fin count) (b : Board Store count) : b.OnlyAt node b :=
  ⟨rfl, fun _ _ => rfl, fun _ _ _ => rfl⟩

theorem Board.OnlyAt.setText (hnext : b.OnlyAt node next) (kind : SlotKind) (text : Option Bytes) :
    b.OnlyAt node (next.setText (node, kind) text) := by
  refine ⟨hnext.generation_eq, hnext.state_eq, fun other hother kind' => ?_⟩
  rw [Board.setText_of_ne fun hsame => hother (Prod.mk.inj hsame).1]
  exact hnext.text_eq other hother kind'

theorem Board.OnlyAt.setState (hnext : b.OnlyAt node next) (st : NodeState) :
    b.OnlyAt node (next.setState node st) := by
  refine ⟨hnext.generation_eq, fun other hother => ?_, hnext.text_eq⟩
  exact (Function.update_of_ne hother _ _).trans (hnext.state_eq other hother)

@[simp]
theorem Board.setState_state (st : NodeState) : (b.setState node st).state node = st :=
  Function.update_self _ _ _

@[simp]
theorem Board.setState_text (st : NodeState) (place : SlotPlace count) :
    (b.setState node st).text place = b.text place := rfl

@[simp]
theorem Board.setText_state (place : SlotPlace count) (text : Option Bytes) :
    (b.setText place text).state = b.state := rfl

/-! ### Pipelines -/

theorem Board.flow_of_pipeline (hpipeline : (b.state node).pipeline = true) :
    b.flow node =
      some ⟨CString.ofBuffer ((b.text (node, .pipeKey)).getD []),
        (b.text (node, .pipeData)).getD [], (b.state node).activeChild,
        (b.state node).restoreTick⟩ := by
  unfold flow
  rw [if_pos hpipeline]

theorem Board.flow_of_idle (hpipeline : (b.state node).pipeline = false) :
    b.flow node = none := by
  unfold flow
  rw [hpipeline]
  rfl

theorem Board.clearPipeline_onlyAt (b : Board Store count) (node : Fin count) :
    b.OnlyAt node (b.clearPipeline node) :=
  (((Board.onlyAt_refl node b).setState _).setText _ _).setText _ _

theorem Board.NodeSound.cleared (hnode : b.NodeSound session node) :
    (b.clearPipeline node).NodeSound session node := by
  have hdata : (b.clearPipeline node).text (node, .pipeData) = none := by
    unfold Board.clearPipeline
    rw [Board.setText_of_ne (by simp), Board.setText_text]
  have hkey : (b.clearPipeline node).text (node, .pipeKey) = none := Board.setText_text _ _
  have hentry : (b.clearPipeline node).text (node, .entryValue) = b.text (node, .entryValue) := by
    unfold Board.clearPipeline
    rw [Board.setText_of_ne (by simp), Board.setText_of_ne (by simp)]
    rfl
  have hstate : (b.clearPipeline node).state node =
      { b.state node with pipeline := false, restoreTick := 0 } := Board.setState_state _
  constructor
  · rw [hstate]
    exact hnode.branch_eq
  · rw [hstate]
    exact hnode.children_eq
  · rw [hstate]
    exact fun _ => rfl
  · rw [hdata, hstate]
    rfl
  · rw [hkey, hstate]
    rfl
  · rw [hkey]
    exact fun key hsome => by cases hsome
  · rw [hentry, hstate]
    exact hnode.entry

theorem Board.controls_cleared (b : Board Store count) (node : Fin count) :
    (b.clearPipeline node).controls view = (b.controls view).setFlow node none := by
  have hstate : (b.clearPipeline node).state node =
      { b.state node with pipeline := false, restoreTick := 0 } := Board.setState_state _
  rw [(b.clearPipeline_onlyAt node).controls_flow]
  · rw [Board.flow_of_idle (by rw [hstate])]
    rfl
  · unfold Board.entry
    rw [hstate]
    dsimp only
    unfold Board.clearPipeline
    rw [Board.setText_of_ne (by simp), Board.setText_of_ne (by simp)]
    rfl
  · unfold Board.queue
    rw [hstate]

/-- The key of a pipeline does not outlast it. -/
theorem Board.clearPipeline_setText (b : Board Store count) (node : Fin count) (text : Option Bytes) :
    (b.setText (node, .pipeKey) text).clearPipeline node = b.clearPipeline node := by
  have hkinds : ((node, .pipeData) : SlotPlace count) ≠ (node, .pipeKey) := by simp
  refine Board.ext rfl rfl rfl ?_
  show Function.update (Function.update (Function.update b.text _ text) _ none) _ none =
    Function.update (Function.update b.text _ none) _ none
  rw [Function.update_comm hkinds, Function.update_idem, Function.update_comm hkinds.symm]

/-- The texts of a pipeline that begins. -/
def Board.begun (b : Board Store count) (node : Fin count) (key data : Bytes) : Board Store count :=
  (b.setText (node, .pipeKey) (some key)).setText (node, .pipeData) (some data)

theorem Board.controls_put {store : Store} {key : CString} {text : Bytes}
    (hstore : view store = Function.update (view b.store) key (some text)) :
    ({ b with store } : Board Store count).controls view = (b.controls view).put key text := by
  unfold controls Controls.put
  rw [hstore]
  rfl

section Begun

variable (b : Board Store count) (node : Fin count) (key data : Bytes)

theorem Board.begun_onlyAt : b.OnlyAt node (b.begun node key data) :=
  ((Board.onlyAt_refl node b).setText _ _).setText _ _

theorem Board.begun_data : (b.begun node key data).text (node, .pipeData) = some data :=
  Board.setText_text _ _

theorem Board.begun_key : (b.begun node key data).text (node, .pipeKey) = some key := by
  unfold Board.begun
  rw [Board.setText_of_ne (by simp), Board.setText_text]

theorem Board.begun_setText (text : Bytes) :
    (b.begun node key data).setText (node, .pipeData) (some text) = b.begun node key text := by
  unfold Board.begun Board.setText
  rw [Function.update_idem]

theorem Board.begun_entry :
    (b.begun node key data).text (node, .entryValue) = b.text (node, .entryValue) := by
  unfold Board.begun
  rw [Board.setText_of_ne (by simp), Board.setText_of_ne (by simp)]

end Begun

/-- The texts of a pipeline that runs. -/
theorem Board.NodeSound.begun_eq (hnode : b.NodeSound session node)
    (hpipeline : (b.state node).pipeline = true) :
    ∃ (key : CString) (data : Bytes), b.begun node key.bytes data = b ∧
      b.flow node = some ⟨key, data, (b.state node).activeChild, (b.state node).restoreTick⟩ := by
  obtain ⟨key, hkey⟩ := Option.isSome_iff_exists.mp (hnode.key.trans hpipeline)
  obtain ⟨data, hdata⟩ := Option.isSome_iff_exists.mp (hnode.data.trans hpipeline)
  have hname : CString.ofBuffer key = ⟨key, hnode.keyText key hkey⟩ :=
    CString.ext (CString.ofBuffer_bytes (hnode.keyText key hkey))
  refine ⟨⟨key, hnode.keyText key hkey⟩, data, ?_, ?_⟩
  · have hfirst : b.setText (node, .pipeKey) (some key) = b := by
      unfold Board.setText
      rw [← hkey, Function.update_eq_self]
    unfold Board.begun
    rw [hfirst]
    unfold Board.setText
    rw [← hdata, Function.update_eq_self]
  · rw [Board.flow_of_pipeline hpipeline, hkey, hdata, Option.getD_some, Option.getD_some, hname]

/-- A node whose pipeline runs. -/
structure Runs (before st : NodeState) : Prop where
  eq : st = { before with
    pipeline := true, activeChild := st.activeChild, restoreTick := st.restoreTick }

/-- A board whose pipeline runs: only its flow is new. -/
theorem Board.controls_running (view : Store → CString → Option Bytes) {st : NodeState}
    (hst : Runs (b.state node) st) (key : CString) (data : Bytes) :
    ((b.begun node key.bytes data).setState node st).controls view =
      (b.controls view).setFlow node (some ⟨key, data, st.activeChild, st.restoreTick⟩) := by
  have hstate : ((b.begun node key.bytes data).setState node st).state node = st :=
    Board.setState_state _
  have hpipeline : st.pipeline = true := by rw [hst.eq]
  rw [((b.begun_onlyAt node key.bytes data).setState st).controls_flow]
  · have hname : CString.ofBuffer key.bytes = key := CString.ext (CString.ofBuffer_bytes key.nulFree)
    rw [Board.flow_of_pipeline (by rw [hstate]; exact hpipeline), hstate, Board.setState_text,
      Board.setState_text, Board.begun_key, Board.begun_data, Option.getD_some, Option.getD_some,
      hname]
    rfl
  · unfold Board.entry
    rw [hstate, Board.setState_text, Board.begun_entry, hst.eq]
  · unfold Board.queue
    rw [hstate, hst.eq]

theorem Board.NodeSound.running (hnode : b.NodeSound session node) {st : NodeState}
    (hst : Runs (b.state node) st) (key : CString) (data : Bytes) :
    ((b.begun node key.bytes data).setState node st).NodeSound session node := by
  have hstate : ((b.begun node key.bytes data).setState node st).state node = st :=
    Board.setState_state _
  constructor
  · rw [hstate, hst.eq]
    exact hnode.branch_eq
  · rw [hstate, hst.eq]
    exact hnode.children_eq
  · rw [hstate, hst.eq]
    exact fun hidle => by cases hidle
  · rw [hstate, Board.setState_text, Board.begun_data, hst.eq]
    rfl
  · rw [hstate, Board.setState_text, Board.begun_key, hst.eq]
    rfl
  · rw [Board.setState_text, Board.begun_key]
    exact fun text htext => Option.some.inj htext ▸ key.nulFree
  · rw [hstate, Board.setState_text, Board.begun_entry, hst.eq]
    exact hnode.entry

theorem Board.Sound.running (hsound : b.Sound session) {st : NodeState} (hst : Runs (b.state node) st)
    (key : CString) (data : Bytes) :
    ((b.begun node key.bytes data).setState node st).Sound session :=
  hsound.onlyAt ((b.begun_onlyAt node key.bytes data).setState st) ((hsound node).running hst key data)

theorem Board.Sound.cleared (hsound : b.Sound session) (node : Fin count) :
    (b.clearPipeline node).Sound session :=
  hsound.onlyAt (b.clearPipeline_onlyAt node) (hsound node).cleared

/-! ### Entries and queues -/

/-- A text is observed. -/
def Board.observe (b : Board Store count) (node : Fin count) (text : Bytes) : Board Store count :=
  (b.setText (node, .entryValue) (some text)).setState node { b.state node with observed := true }

/-- The queue of a node changes. -/
def Board.enqueue (b : Board Store count) (node : Fin count) (active more : Bool) :
    Board Store count :=
  b.setState node { b.state node with queueActive := active, queueMore := more }

theorem Board.observe_onlyAt (b : Board Store count) (node : Fin count) (text : Bytes) :
    b.OnlyAt node (b.observe node text) :=
  ((Board.onlyAt_refl node b).setText _ _).setState _

theorem Board.observe_state (b : Board Store count) (node : Fin count) (text : Bytes) :
    (b.observe node text).state node = { b.state node with observed := true } :=
  Board.setState_state _

theorem Board.observe_text (b : Board Store count) (node : Fin count) (text : Bytes) :
    (b.observe node text).text (node, .entryValue) = some text := Board.setText_text _ _

theorem Board.observe_of_ne (b : Board Store count) (node : Fin count) (text : Bytes) {kind : SlotKind}
    (hkind : kind ≠ .entryValue) : (b.observe node text).text (node, kind) = b.text (node, kind) :=
  Board.setText_of_ne (fun hsame => hkind (Prod.mk.inj hsame).2) _

theorem Board.controls_observe (view : Store → CString → Option Bytes) (b : Board Store count)
    (node : Fin count) (text : Bytes) :
    (b.observe node text).controls view = (b.controls view).setEntry node (some text) := by
  rw [(b.observe_onlyAt node text).controls_entry]
  · unfold Board.entry
    rw [Board.observe_state, Board.observe_text]
    rfl
  · unfold Board.flow
    rw [Board.observe_state, Board.observe_of_ne b node text (by decide),
      Board.observe_of_ne b node text (by decide)]
  · unfold Board.queue
    rw [Board.observe_state]

theorem Board.Sound.observe (hsound : b.Sound session) (node : Fin count) (text : Bytes) :
    (b.observe node text).Sound session := by
  refine hsound.onlyAt (b.observe_onlyAt node text) ?_
  obtain ⟨hbranch, hchildren, htick, hdata, hkey, hkeyText, -⟩ := hsound node
  constructor
  · rw [Board.observe_state]
    exact hbranch
  · rw [Board.observe_state]
    exact hchildren
  · rw [Board.observe_state]
    exact htick
  · rw [Board.observe_state, Board.observe_of_ne b node text (by decide)]
    exact hdata
  · rw [Board.observe_state, Board.observe_of_ne b node text (by decide)]
    exact hkey
  · rw [Board.observe_of_ne b node text (by decide)]
    exact hkeyText
  · rw [Board.observe_state, Board.observe_text]
    rfl

/-- A text differs from the entry of a node, or it is the first. -/
theorem Board.entry_changed (b : Board Store count) (node : Fin count) (text : Bytes) :
    (!(b.state node).observed || decide (text ≠ (b.text (node, .entryValue)).getD [])) =
      decide (b.entry node ≠ some text) := by
  unfold entry
  cases (b.state node).observed with
  | false => simp
  | true => simp [eq_comm]

theorem Board.controls_enqueue (view : Store → CString → Option Bytes) (b : Board Store count)
    (node : Fin count) (active more : Bool) :
    (b.enqueue node active more).controls view =
      (b.controls view).setQueue node (if active then some more else none) := by
  have hstate : (b.enqueue node active more).state node =
      { b.state node with queueActive := active, queueMore := more } := Board.setState_state _
  have honly : b.OnlyAt node (b.enqueue node active more) := (Board.onlyAt_refl node b).setState _
  rw [honly.controls_queue]
  · unfold Board.queue
    rw [hstate]
    rfl
  · unfold Board.flow
    rw [hstate]
    rfl
  · unfold Board.entry
    rw [hstate]
    rfl

theorem Board.Sound.enqueue (hsound : b.Sound session) (node : Fin count) (active more : Bool) :
    (b.enqueue node active more).Sound session := by
  have hstate : (b.enqueue node active more).state node =
      { b.state node with queueActive := active, queueMore := more } := Board.setState_state _
  refine hsound.onlyAt ((Board.onlyAt_refl node b).setState _) ?_
  obtain ⟨hbranch, hchildren, htick, hdata, hkey, hkeyText, hentry⟩ := hsound node
  exact ⟨hstate ▸ hbranch, hstate ▸ hchildren, hstate ▸ htick, hstate ▸ hdata, hstate ▸ hkey,
    hkeyText, hstate ▸ hentry⟩

theorem Board.Sound.withStore (hsound : b.Sound session) (store : Store) :
    ({ b with store } : Board Store count).Sound session := by
  intro node
  obtain ⟨hbranch, hchildren, htick, hdata, hkey, hkeyText, hentry⟩ := hsound node
  exact ⟨hbranch, hchildren, htick, hdata, hkey, hkeyText, hentry⟩

end Boards

/-! ## Steps -/

/-- A session whose board is this one. -/
structure Stands (session : SessionImpl Number count) (b : Board Store count)
    (s : SessionState Store count) : Prop where
  board_eq : s.board = b
  held : s.pool.Held session.config.maxStateBytes

section Steps

variable {session : SessionImpl Number count} {b : Board Store count} {s next : SessionState Store count}
  {node : Fin count}

theorem Stands.scratched (hstands : Stands session b s) (hscratched : Scratched s next) :
    Stands session b next := by
  obtain ⟨scratch, fresh, queries, rfl⟩ := hscratched
  exact ⟨hstands.board_eq, hstands.held⟩

theorem Stands.used (hstands : Stands session b s) {buffer : Fin 4} (hused : Used buffer s next) :
    Stands session b next := hstands.scratched hused.scratched

theorem Stands.withStore (hstands : Stands session b s) (store : Store) :
    Stands session { b with store } { s with store } :=
  ⟨congrArg (fun board : Board Store count => { board with store }) hstands.board_eq, hstands.held⟩

theorem Stands.ofFresh (hstands : Stands session b s) (fresh : List Fresh) :
    Stands session b { s with fresh } := ⟨hstands.board_eq, hstands.held⟩

theorem Stands.state_eq (hstands : Stands session b s) : s.state = b.state :=
  congrArg Board.state hstands.board_eq

theorem Stands.generation_eq (hstands : Stands session b s) : s.generation = b.generation :=
  congrArg Board.generation hstands.board_eq

theorem Stands.store_eq (hstands : Stands session b s) : s.store = b.store :=
  congrArg Board.store hstands.board_eq

theorem Stands.cached_eq (hstands : Stands session b s) (place : SlotPlace count) :
    s.pool.sessionCached place = (b.text place).getD [] := by
  rw [CachePool.sessionCached_eq, ← hstands.board_eq]
  rfl

theorem changeNode_stands (hstands : Stands session b s) (node : Fin count)
    (change : NodeState → NodeState) :
    ∃ next, on (changeNode node change) s = (.ok ⟨⟩, next) ∧
      Stands session (b.setState node (change (b.state node))) next ∧ next.scratch = s.scratch := by
  refine ⟨_, rfl, ⟨?_, hstands.held⟩, rfl⟩
  rw [← hstands.board_eq]
  rfl

theorem uncacheText_stands (hstands : Stands session b s) (place : SlotPlace count) :
    ∃ next, on (uncacheText place) s = (.ok ⟨⟩, next) ∧ Stands session (b.setText place none) next := by
  obtain ⟨hheld, htext⟩ := hstands.held.uncache place
  refine ⟨_, rfl, ⟨?_, hheld⟩⟩
  rw [← hstands.board_eq]
  unfold SessionState.board Board.setText
  rw [htext]

theorem clearPipeline_stands (hstands : Stands session b s) (node : Fin count) :
    ∃ next, on (clearPipeline node) s = (.ok ⟨⟩, next) ∧
      Stands session (b.clearPipeline node) next := by
  obtain ⟨first, hfirst, hchanged, -⟩ :=
    changeNode_stands hstands node fun st => { st with pipeline := false, restoreTick := 0 }
  obtain ⟨second, hsecond, hdata⟩ := uncacheText_stands hchanged (node, .pipeData)
  obtain ⟨third, hthird, hkey⟩ := uncacheText_stands hdata (node, .pipeKey)
  refine ⟨third, ?_, hkey⟩
  unfold clearPipeline
  rw [on_bind_ok hfirst, on_bind_ok hsecond]
  exact hthird

theorem cacheText_leads (hstands : Stands session b s) (place : SlotPlace count) {value : SessionText}
    {text : Bytes} (hvalue : value.read s = text) :
    Leads s (cacheText session place value)
      (fun _ next => Stands session (b.setText place (some text)) next ∧ next.scratch = s.scratch)
      (fun next => Stands session b next) := by
  unfold cacheText
  refine .step (on_textOf value s) ?_
  rw [hvalue]
  refine .step (on_get _) ?_
  refine .step (on_modify _ _) ?_
  rcases hstands.held.cache place text (s.fresh.headD (some fun _ => 0)) with
    ⟨hrefused, hsame⟩ | ⟨hok, hheld, htext⟩
  · rw [if_neg hrefused]
    refine .throw ⟨?_, ?_⟩
    · rw [← hstands.board_eq, hsame]
      rfl
    · rw [hsame]
      exact hstands.held
  · rw [if_pos hok]
    refine .pure ⟨⟨?_, hheld⟩, rfl⟩
    rw [← hstands.board_eq]
    unfold SessionState.board Board.setText
    rw [htext]

theorem on_nodeState (hstands : Stands session b s) (node : Fin count) :
    on (nodeState node) s = (.ok (b.state node), s) := by
  rw [← hstands.state_eq]
  rfl

/-- What fails leaves the pipeline of a node cleared. -/
theorem orClear_leads {program : SessionM Store count PUnit} {after : PUnit → SessionState Store count → Prop}
    {failed : SessionState Store count → Prop} {node : Fin count}
    {fallen : Board Store count → Prop}
    (hprogram : Leads s program after fun next => ∃ b, fallen b ∧ Stands session b next)
    (hclear : ∀ b next, fallen b → Stands session (b.clearPipeline node) next → failed next) :
    Leads s (orClear node program) after failed := by
  refine .tryCatch hprogram fun code next hfallen => ?_
  obtain ⟨b, hb, hstands⟩ := hfallen
  obtain ⟨last, hrun, hcleared⟩ := clearPipeline_stands hstands node
  exact .step hrun (.throw (hclear b last hb hcleared))

end Steps

end Praktor.Session
