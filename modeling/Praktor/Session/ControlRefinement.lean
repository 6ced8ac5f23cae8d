/-
# The controls of a session do what they are for

Every call of a session does to its board what the model of the controls says: a call that succeeds
performs the call of the model and returns what it returns, and a call that fails leaves what a
failure may leave.  So the session runs as the model does, call after call.
-/

import Praktor.Math.Simulation
import Praktor.Session.ControlQueues
import Praktor.Session.HostValues

namespace Praktor.Session

open Praktor.Data Praktor.Math Praktor.Native Praktor.Values Stateful
open Praktor.Runtime (NodeStatus)

variable {Store Number : Type} {count : Nat}

section Refinement

variable {hooks : ValueHooks Store} {view : Store → CString → Option Bytes}
  (hlawful : hooks.Lawful view) {numbers : ControlNumbers Number}
  {session : PlannedSession Number count} {library : QueueLibrary}
  {b : Board Store count} {s : SessionState Store count} {node : Fin count}

/-! ## Conditions and switches -/

include hlawful

/-- A callback that refuses the nodes of a branch and restores the input of a pipeline. -/
theorem admit_leads {α : Type} {call : ControlCall Store count} {rest : SessionM Store count α}
    {after : α → SessionState Store count → Prop} (hstands : Stands session.toSessionImpl b s)
    (hsound : b.Sound session)
    (hrest : ∀ next b', Stands session.toSessionImpl b' next → b'.Sound session →
      b'.controls view = (b.controls view).restored session node →
      Leads next rest after (Fails numbers library view session b call)) :
    Leads s (do
      let st ← nodeState node
      if st.branch then throw Salts.enotsup
      else
        restore hooks session node
        rest) after (Fails numbers library view session b call) := by
  refine .step (on_nodeState hstands node) ?_
  refine .ite (fun _ => .throw (hstands.fails hsound call)) fun hbranch => ?_
  refine .bind ((restore_leads hlawful hstands hsound hbranch).failing
    fun next hnext => hnext.fails hsound call) ?_
  rintro ⟨⟩ next ⟨b', hnext, hsound', hcontrols⟩
  exact hrest next b' hnext hsound' hcontrols

/-- `session_condition`. -/
theorem sessionCondition_leads (hstands : Stands session.toSessionImpl b s)
    (hsound : b.Sound session) (node : Fin count) :
    Leads s (sessionCondition numbers hooks session node)
      (fun status next =>
        Serves numbers library view session b (.condition node) (.status status) next)
      (Fails numbers library view session b (.condition node)) := by
  unfold sessionCondition
  refine admit_leads hlawful hstands hsound fun first b' hfirst hsound' hcontrols => ?_
  have hfails : ∀ next, Stands session.toSessionImpl b' next →
      Fails numbers library view session b (.condition node) next :=
    fun next hnext => ⟨b', hnext, hsound', hcontrols ▸ .renewed rfl⟩
  have hserves : ∀ next truth, Stands session.toSessionImpl b' next →
      conditionTruth numbers session (b'.controls view) node = some truth →
      Serves numbers library view session b (.condition node)
        (.status (if truth then .success else .failure)) next := by
    intro next truth hnext htruth
    refine ⟨b', hnext, hsound', ?_⟩
    rw [perform, ← hcontrols, htruth]
    rfl
  unfold conditionTruth at hserves
  cases hparameter : sessionParameter session.toSessionImpl node "condition" with
  | none => exact .throw (hfails _ hfirst)
  | some value =>
      rw [hparameter] at hserves
      cases value with
      | boolean value => exact .pure (hserves _ _ hfirst rfl)
      | number value => exact .pure (hserves _ _ hfirst rfl)
      | string text =>
          refine .bind ((sessionResolve_leads hlawful session.toSessionImpl
            numbers.toSessionNumbers node _ _ (by decide)).failing
              fun next hused => hfails next (hfirst.used hused)) ?_
          rintro value second ⟨resolved, hresolved, hholds, hused⟩
          rw [hfirst.store_eq] at hresolved
          refine .step (on_textOf value second) ?_
          rw [hholds.read_eq]
          refine .pure (hserves _ _ (hfirst.used hused) ?_)
          exact congrArg (Option.map textTruth) hresolved

/-- The text of a switch. -/
theorem switchText_leads (hstands : Stands session.toSessionImpl b s) (node : Fin count)
    (own : Bytes) :
    Leads s (switchText numbers hooks session node own)
      (fun value next => switchedText numbers session (b.controls view) node own =
          some (value.read next) ∧ Stands session.toSessionImpl b next)
      (fun next => Stands session.toSessionImpl b next) := by
  unfold switchText switchedText
  refine .bind ((sessionResolve_leads hlawful session.toSessionImpl numbers.toSessionNumbers node
    _ _ (by decide)).failing fun next hused => hstands.used hused) ?_
  rintro value first ⟨text, htext, hholds, hused⟩
  have hfirst := hstands.used hused
  rw [hstands.store_eq] at htext
  have hresolved : resolvedText numbers.toSessionNumbers session.toSessionImpl
      (b.controls view).values node "variable" none = some text := htext
  refine .step (on_textOf value first) ?_
  rw [hholds.read_eq, hresolved]
  refine .ite (fun hother => .pure ⟨?_, hfirst⟩) fun hsame => ?_
  · rw [hholds.read_eq]
    exact if_neg hother
  rw [ne_eq, not_not] at hsame
  subst hsame
  refine .ite (fun _ => .throw hfirst) fun hzero => ?_
  have hname : CString.ofBytes text = some ⟨text, hzero⟩ := by
    unfold CString.ofBytes
    rw [dif_neg hzero]
  have hswitched : ((some text).bind fun text' => if text' = text then
      (CString.ofBytes text).bind fun key => some (((b.controls view).values key).getD text)
      else some text') = some ((view b.store ⟨text, hzero⟩).getD text) := by
    rw [Option.bind_some, if_pos rfl, hname]
    rfl
  have hkey : value.Holds first 0 (CString.mk text hzero).bytes := hholds
  refine .bind ((sessionHas_leads hlawful hkey).failing ?_) ?_
  · rintro _ rfl
    exact hfirst
  rintro yes _ ⟨rfl, rfl⟩
  rw [hfirst.store_eq]
  cases hstored : view b.store ⟨text, hzero⟩ with
  | none =>
      rw [hstored] at hswitched
      refine .ite (fun hpresent => by cases hpresent) fun _ => .pure ⟨?_, hfirst⟩
      rw [hholds.read_eq]
      exact hswitched
  | some named =>
      rw [hstored] at hswitched
      refine .ite (fun _ => ?_) fun habsent => absurd rfl habsent
      refine (sessionGet_leads hlawful session.toSessionImpl hkey
        (by decide)).mono ?_ fun next hread => hfirst.used hread
      rintro value next ⟨named', hnamed, hvalue, hread⟩
      rw [hfirst.store_eq, hstored] at hnamed
      obtain rfl := Option.some.inj hnamed
      refine ⟨?_, hfirst.used hread⟩
      rw [hvalue.read_eq]
      exact hswitched

/-- `session_select`. -/
theorem sessionSelect_leads (hstands : Stands session.toSessionImpl b s)
    (hsound : b.Sound session) (node : Fin count) :
    Leads s (sessionSelect numbers hooks session node)
      (fun child next => Serves numbers library view session b (.select node) (.child child) next)
      (Fails numbers library view session b (.select node)) := by
  unfold sessionSelect
  refine admit_leads hlawful hstands hsound fun first b' hfirst hsound' hcontrols => ?_
  have hfails : ∀ next, Stands session.toSessionImpl b' next →
      Fails numbers library view session b (.select node) next :=
    fun next hnext => ⟨b', hnext, hsound', hcontrols ▸ .renewed rfl⟩
  have hserves : ∀ next parsed, Stands session.toSessionImpl b' next →
      switchValue numbers session (b'.controls view) node = some parsed →
      Leads next (do
        let st ← nodeState node
        return if parsed < 0 then st.childCount else parsed.toNat)
        (fun child next => Serves numbers library view session b (.select node) (.child child) next)
        (Fails numbers library view session b (.select node)) := by
    intro next parsed hnext hparsed
    refine .step (on_nodeState hnext node) (.pure ⟨b', hnext, hsound', ?_⟩)
    rw [perform, ← hcontrols, hparsed, (hsound' node).children_eq]
    rfl
  unfold switchValue at hserves
  unfold sessionSwitch
  cases hparameter : sessionParameter session.toSessionImpl node "variable" with
  | none => exact .throw (hfails _ hfirst)
  | some value =>
      rw [hparameter] at hserves
      cases value with
      | boolean value => exact .throw (hfails _ hfirst)
      | number value =>
          refine .bind ((sessionInteger_leads session.toSessionImpl numbers.toSessionNumbers
            hparameter 0).failing ?_) ?_
          · rintro _ rfl
            exact hfails _ hfirst
          rintro parsed _ ⟨rfl, hparsed⟩
          exact hserves _ parsed hfirst hparsed
      | string own =>
          refine .bind ((switchText_leads hlawful hfirst node own).failing hfails) ?_
          rintro value second ⟨hswitched, hsecond⟩
          refine .step (on_textOf value second) ?_
          cases hparsed : praktorC11ParseInteger numbers.toSessionNumbers (value.read second) with
          | none => exact .throw (hfails _ hsecond)
          | some parsed =>
              refine hserves _ parsed hsecond ?_
              show (switchedText _ _ _ node own).bind _ = _
              rw [hswitched, Option.bind_some, hparsed]

end Refinement

/-! ## Sessions -/

section Clearing

variable {session : PlannedSession Number count} {b : Board Store count} {node : Fin count}
  {view : Store → CString → Option Bytes}

/-- What a clear leaves of a node. -/
def Board.clear (b : Board Store count) (node : Fin count) : Board Store count :=
  (((b.setState node
    { b.state node with
      pipeline := false, observed := false, queueActive := false, queueMore := false
      restoreTick := 0 }).setText (node, .pipeData) none).setText (node, .pipeKey) none).setText
        (node, .entryValue) none

/-- A node whose controls remember nothing. -/
structure Board.Idle (b : Board Store count) (node : Fin count) : Prop where
  flow : b.flow node = none
  entry : b.entry node = none
  queue : b.queue node = none

theorem Board.clear_onlyAt (b : Board Store count) (node : Fin count) : b.OnlyAt node (b.clear node) :=
  ((((Board.onlyAt_refl node b).setState _).setText _ _).setText _ _).setText _ _

theorem Board.clear_state (b : Board Store count) (node : Fin count) :
    (b.clear node).state node =
      { b.state node with
        pipeline := false, observed := false, queueActive := false, queueMore := false
        restoreTick := 0 } := Board.setState_state _

theorem Board.clear_idle (b : Board Store count) (node : Fin count) : (b.clear node).Idle node := by
  constructor
  · exact Board.flow_of_idle (by rw [Board.clear_state])
  · unfold Board.entry
    rw [Board.clear_state]
    rfl
  · unfold Board.queue
    rw [Board.clear_state]
    rfl

theorem Board.Sound.clear (hsound : b.Sound session) (node : Fin count) :
    (b.clear node).Sound session := by
  have hdata : (b.clear node).text (node, .pipeData) = none := by
    unfold Board.clear
    rw [Board.setText_of_ne (by simp), Board.setText_of_ne (by simp), Board.setText_text]
  have hkey : (b.clear node).text (node, .pipeKey) = none := by
    unfold Board.clear
    rw [Board.setText_of_ne (by simp), Board.setText_text]
  have hentry : (b.clear node).text (node, .entryValue) = none := Board.setText_text _ _
  refine hsound.onlyAt (b.clear_onlyAt node) ?_
  constructor
  · rw [Board.clear_state]
    exact (hsound node).branch_eq
  · rw [Board.clear_state]
    exact (hsound node).children_eq
  · rw [Board.clear_state]
    exact fun _ => rfl
  · rw [hdata, Board.clear_state]
    rfl
  · rw [hkey, Board.clear_state]
    rfl
  · rw [hkey]
    exact fun key hsome => by cases hsome
  · rw [hentry, Board.clear_state]
    rfl

/-- A node that is idle stays idle while others are cleared, and one that is cleared is idle. -/
theorem Board.Idle.clear {other : Fin count} (hidle : b.Idle other) : (b.clear node).Idle other := by
  by_cases hother : other = node
  · exact hother ▸ Board.clear_idle b node
  · have hstate := (b.clear_onlyAt node).state_eq other hother
    have htext := (b.clear_onlyAt node).text_eq other hother
    obtain ⟨hflow, hentry, hqueue⟩ := hidle
    unfold Board.flow at hflow
    unfold Board.entry at hentry
    unfold Board.queue at hqueue
    constructor
    · unfold Board.flow
      rw [hstate, htext, htext]
      exact hflow
    · unfold Board.entry
      rw [hstate, htext]
      exact hentry
    · unfold Board.queue
      rw [hstate]
      exact hqueue

variable {s : SessionState Store count}

theorem clearNode_stands (hstands : Stands session.toSessionImpl b s) (node : Fin count) :
    ∃ next, on (clearNode node) s = (.ok ⟨⟩, next) ∧
      Stands session.toSessionImpl (b.clear node) next := by
  obtain ⟨first, hfirst, hchanged, -⟩ := changeNode_stands hstands node fun st =>
    { st with
      pipeline := false, observed := false, queueActive := false, queueMore := false
      restoreTick := 0 }
  obtain ⟨second, hsecond, hdata⟩ := uncacheText_stands hchanged (node, .pipeData)
  obtain ⟨third, hthird, hkey⟩ := uncacheText_stands hdata (node, .pipeKey)
  obtain ⟨fourth, hfourth, hentry⟩ := uncacheText_stands hkey (node, .entryValue)
  refine ⟨fourth, ?_, hentry⟩
  unfold clearNode
  rw [on_bind_ok hfirst, on_bind_ok hsecond, on_bind_ok hthird]
  exact hfourth

/-- The loop of `clear_execution`. -/
theorem clearNodes_stands (nodes : List (Fin count)) (hstands : Stands session.toSessionImpl b s)
    (hsound : b.Sound session) :
    ∃ next b', on (clearNodes nodes) s = (.ok ⟨⟩, next) ∧ Stands session.toSessionImpl b' next ∧
      b'.Sound session ∧ b'.store = b.store ∧ b'.generation = b.generation ∧
      (∀ node, node ∈ nodes ∨ b.Idle node → b'.Idle node) := by
  induction nodes generalizing b s with
  | nil =>
      refine ⟨s, b, rfl, hstands, hsound, rfl, rfl, ?_⟩
      rintro node (hnode | hidle)
      · exact absurd hnode List.not_mem_nil
      · exact hidle
  | cons first rest ih =>
      obtain ⟨middle, hrun, hmiddle⟩ := clearNode_stands hstands first
      obtain ⟨last, b', hrest, hlast, hsound', hstore, hgeneration, hidle⟩ :=
        ih hmiddle (hsound.clear first)
      refine ⟨last, b', ?_, hlast, hsound', hstore, hgeneration, ?_⟩
      · unfold clearNodes
        rw [on_bind_ok hrun]
        exact hrest
      · rintro node (hnode | hnode)
        · rcases List.mem_cons.mp hnode with rfl | hrest
          · exact hidle node (.inr (Board.clear_idle b node))
          · exact hidle node (.inl hrest)
        · exact hidle node (.inr hnode.clear)

end Clearing

section Processes

variable {session : PlannedSession Number count} {b : Board Store count} {place : SlotPlace count}

/-- The text of a slot that no control goes by. -/
theorem Board.controls_setText (view : Store → CString → Option Bytes) (b : Board Store count)
    (hown : place.2.ofControl = false) (text : Option Bytes) :
    (b.setText place text).controls view = b.controls view := by
  have hdata : ∀ node, (node, SlotKind.pipeData) ≠ place := by
    rintro node rfl
    cases hown
  have hkey : ∀ node, (node, SlotKind.pipeKey) ≠ place := by
    rintro node rfl
    cases hown
  have hentry : ∀ node, (node, SlotKind.entryValue) ≠ place := by
    rintro node rfl
    cases hown
  unfold Board.controls
  congr 1
  · funext node
    unfold Board.flow
    rw [Board.setText_of_ne (hkey node), Board.setText_of_ne (hdata node), Board.setText_state]
  · funext node
    unfold Board.entry
    rw [Board.setText_of_ne (hentry node), Board.setText_state]

theorem Board.Sound.setText (hsound : b.Sound session) (hown : place.2.ofControl = false)
    (text : Option Bytes) : (b.setText place text).Sound session := by
  intro node
  obtain ⟨hbranch, hchildren, htick, hdata, hkey, hkeyText, hentry⟩ := hsound node
  have hothers : ∀ kind : SlotKind, kind.ofControl = true →
      (b.setText place text).text (node, kind) = b.text (node, kind) := by
    intro kind hkind
    refine Board.setText_of_ne ?_ text
    rintro rfl
    rw [hkind] at hown
    cases hown
  refine ⟨hbranch, hchildren, htick, ?_, ?_, ?_, ?_⟩
  · rw [hothers .pipeData rfl]
    exact hdata
  · rw [hothers .pipeKey rfl]
    exact hkey
  · rw [hothers .pipeKey rfl]
    exact hkeyText
  · rw [hothers .entryValue rfl]
    exact hentry

/-- A process of a leaf caches or drops a text. -/
theorem CachePool.Held.step {limit : Nat} {pool : CachePool count} (hheld : pool.Held limit)
    (request : CacheRequest count) :
    (cacheStep limit pool request).1.Held limit ∧
      ∃ text, (cacheStep limit pool request).1.text =
        Function.update pool.text request.place text := by
  cases request with
  | cache place value fresh =>
      rcases hheld.cache place value fresh with ⟨-, hsame⟩ | ⟨-, hnext, htext⟩
      · refine ⟨?_, pool.text place, ?_⟩
        · show (pool.sessionCache limit place value fresh).2.Held limit
          rw [hsame]
          exact hheld
        · show (pool.sessionCache limit place value fresh).2.text = _
          rw [hsame]
          exact (Function.update_eq_self _ _).symm
      · exact ⟨hnext, some value, htext⟩
  | uncache place => exact ⟨(hheld.uncache place).1, none, (hheld.uncache place).2⟩

end Processes

/-! ## Calls -/

/-- The answers that a call may get, and what each of them leaves. -/
def Answers (numbers : ControlNumbers Number) (session : PlannedSession Number count)
    (library : QueueLibrary) (view : Store → CString → Option Bytes) (c : Controls count)
    (call : List Fresh × ControlCall Store count) (answer : Except Salts ControlReply)
    (next : Controls count) : Prop :=
  match answer with
  | .ok reply => perform numbers session library view c call.2 = some (reply, next)
  | .error _ => Refuses numbers session library c call.2 next

/-- Nothing is remembered, and no generation has begun. -/
def Controls.start (values : CString → Option Bytes) : Controls count :=
  ⟨values, 0, fun _ => none, fun _ => none, fun _ => none⟩

/-- What the controls of a session remember. -/
def SessionState.controls (view : Store → CString → Option Bytes) (s : SessionState Store count) :
    Controls count :=
  s.board.controls view

/-- A session that runs. -/
def Running (session : PlannedSession Number count) (s : SessionState Store count) : Prop :=
  Stands session.toSessionImpl s.board s ∧ s.board.Sound session

section Calls

variable {hooks : ValueHooks Store} {view : Store → CString → Option Bytes}
  (hlawful : hooks.Lawful view) (numbers : ControlNumbers Number)
  (session : PlannedSession Number count) (library : QueueLibrary)
  {b : Board Store count} {s : SessionState Store count}

include hlawful

/-- Every call is served as the model serves it, or fails as the model allows. -/
theorem control_leads (hstands : Stands session.toSessionImpl b s) (hsound : b.Sound session)
    (call : ControlCall Store count) :
    Leads s (control numbers hooks session library call)
      (fun reply next => Serves numbers library view session b call reply next)
      (Fails numbers library view session b call) := by
  cases call with
  | tick =>
      refine .step (on_modify _ _) (.pure ⟨{ b with generation := nextGeneration b.generation },
        ⟨?_, hstands.held⟩, ?_, rfl⟩)
      · rw [← hstands.board_eq]
        rfl
      · intro node
        obtain ⟨hbranch, hchildren, htick, hdata, hkey, hkeyText, hentry⟩ := hsound node
        exact ⟨hbranch, hchildren, htick, hdata, hkey, hkeyText, hentry⟩
  | restore node =>
      refine .bind ((sessionRestorePipeline_leads hlawful hstands hsound node).failing
        fun next hnext => hnext.fails hsound _) ?_
      rintro ⟨⟩ next ⟨b', hnext, hsound', hcontrols⟩
      exact .pure ⟨b', hnext, hsound', by rw [perform, hcontrols]⟩
  | condition node =>
      exact .bind (sessionCondition_leads hlawful hstands hsound node)
        fun _ _ hserved => .pure hserved
  | select node =>
      exact .bind (sessionSelect_leads hlawful hstands hsound node)
        fun _ _ hserved => .pure hserved
  | prepare node child =>
      exact .bind (sessionPipelinePrepare_leads hlawful hstands hsound child)
        fun _ _ hserved => .pure hserved
  | complete node child succeeded =>
      exact .bind (sessionPipelineComplete_leads hlawful hstands hsound node child succeeded)
        fun _ _ hserved => .pure hserved
  | abort node =>
      obtain ⟨next, hrun, hcleared⟩ := clearPipeline_stands hstands node
      refine .step hrun (.pure ⟨_, hcleared, hsound.cleared node, ?_⟩)
      rw [perform, Board.controls_cleared]
  | entryChanged node =>
      exact .bind (sessionEntryChanged_leads hlawful hstands hsound node)
        fun _ _ hserved => .pure hserved
  | queueBegin node =>
      exact .bind (sessionQueueBegin_leads hlawful hstands hsound node)
        fun _ _ hserved => .pure hserved
  | queueFinish node =>
      exact .bind (sessionQueueFinish_leads hstands hsound node) fun _ _ hserved => .pure hserved
  | queueAbort node =>
      obtain ⟨next, b', hrun, hnext, hsound', hcontrols⟩ :=
        idleQueue_stands view hstands hsound node
      exact .step hrun (.pure ⟨b', hnext, hsound', by rw [perform, hcontrols]⟩)
  | clear =>
      obtain ⟨next, b', hrun, hnext, hsound', hstore, hgeneration, hidle⟩ :=
        clearNodes_stands (List.finRange count) hstands hsound
      have hall : ∀ node, b'.Idle node := fun node => hidle node (.inl (List.mem_finRange node))
      refine .step hrun (.pure ⟨b', hnext, hsound', ?_⟩)
      rw [perform]
      congr 2
      refine Controls.ext (congrArg view hstore.symm) hgeneration.symm ?_ ?_ ?_
      · exact (funext fun node => (hall node).flow).symm
      · exact (funext fun node => (hall node).entry).symm
      · exact (funext fun node => (hall node).queue).symm
  | process request own =>
      obtain ⟨hheld, text, htext⟩ := hstands.held.step request
      refine .step (on_modify _ _) (.pure ⟨b.setText request.place text, ⟨?_, hheld⟩,
        hsound.setText own text, ?_⟩)
      · rw [← hstands.board_eq]
        exact Board.ext rfl rfl rfl htext
      · rw [perform, Board.controls_setText view b own text]
  | change store =>
      exact .step (on_modify _ _) (.pure ⟨_, hstands.withStore store, hsound.withStore store, rfl⟩)

/-- A call with its requests for memory. -/
theorem serveControl_answers (hstands : Stands session.toSessionImpl b s) (hsound : b.Sound session)
    (call : List Fresh × ControlCall Store count) :
    ∃ b', Stands session.toSessionImpl b' (serveControl numbers hooks session library s call).1 ∧
      b'.Sound session ∧ Answers numbers session library view (b.controls view) call
        (serveControl numbers hooks session library s call).2 (b'.controls view) := by
  have hleads := control_leads hlawful numbers session library (hstands.ofFresh call.1) hsound call.2
  unfold serveControl
  unfold Leads at hleads
  generalize on (control numbers hooks session library call.2) { s with fresh := call.1 } = outcome
    at hleads ⊢
  rcases outcome with ⟨code | reply, next⟩
  · exact hleads
  · exact hleads

omit hlawful in
theorem Stands.running (hstands : Stands session.toSessionImpl b s) (hsound : b.Sound session) :
    Running session s := by
  obtain rfl := hstands.board_eq
  exact ⟨hstands, hsound⟩

theorem serveControl_running (s : SessionState Store count)
    (call : List Fresh × ControlCall Store count) (hrunning : Running session s) :
    Running session (serveControl numbers hooks session library s call).1 := by
  obtain ⟨b', hnext, hsound, -⟩ :=
    serveControl_answers hlawful numbers session library hrunning.1 hrunning.2 call
  exact hnext.running session hsound

/-- One call of a session that runs. -/
theorem serveControl_spec (s : SessionState Store count)
    (call : List Fresh × ControlCall Store count) (hrunning : Running session s) :
    Answers numbers session library view (s.controls view) call
      (serveControl numbers hooks session library s call).2
      ((serveControl numbers hooks session library s call).1.controls view) := by
  obtain ⟨b', hnext, -, hanswers⟩ :=
    serveControl_answers hlawful numbers session library hrunning.1 hrunning.2 call
  obtain rfl := hnext.board_eq
  exact hanswers

omit hlawful in
theorem startControls_running (store : Store) : Running session (startControls session store) := by
  refine ⟨⟨rfl, ⟨[], .empty count⟩, Nat.zero_le _, Nat.zero_le _⟩, fun node => ?_⟩
  · exact ⟨rfl, rfl, fun _ => rfl, rfl, rfl, fun _ hkey => (by cases hkey), rfl⟩

/-- A session that runs goes on as the model of its controls does. -/
theorem Running.trace (hrunning : Running session s)
    (calls : List (List Fresh × ControlCall Store count)) :
    Trace (Answers numbers session library view) (s.controls view)
      ((moments (serveControl numbers hooks session library) s calls).map
        (Moment.seen (SessionState.controls view)))
      ((reached (serveControl numbers hooks session library) s calls).controls view) :=
  moments_refine (serveControl_running hlawful numbers session library)
    (serveControl_spec hlawful numbers session library) hrunning calls

theorem Running.reached (hrunning : Running session s)
    (calls : List (List Fresh × ControlCall Store count)) :
    Running session (reached (serveControl numbers hooks session library) s calls) :=
  reached_holds (serveControl_running hlawful numbers session library) hrunning calls

end Calls

/-! ## A session over the native host -/

/-- Whole numbers, and no text is one. -/
def plainNumbers : ControlNumbers Nat where
  isfinite _ := true
  format _ := []
  toInt value := some value
  strtod _ := none
  isZero value := value == 0

/-- The arrays of two flags and their tails. -/
def flagLibrary : QueueLibrary where
  parse text :=
    if text = ascii "[true,false]" then some (.array [.bool true, .bool false])
    else if text = ascii "[false]" then some (.array [.bool false])
    else if text = ascii "[]" then some (.array [])
    else none
  serialize
    | .array [.bool true, .bool false] => ascii "[true,false]"
    | .array [.bool false] => ascii "[false]"
    | .array [] => ascii "[]"
    | .bool true => ascii "true"
    | .bool false => ascii "false"
    | _ => ascii "null"

/-- A pipeline over an entry, which watches the queue, and a queue. -/
def sampleSession : PlannedSession Nat 3 where
  config := ⟨⟨8, 8, 8, 64, 1000⟩, 32, 128, by decide, by decide, by decide, by decide⟩
  nodes
    | 0 => { tree := { parentIndex := none, kind := .pipelineSequence }
             action := CString.literal "PipelineSequence"
             parameters := [] }
    | 1 => { tree := { parentIndex := some 0, kind := .entryUpdated }
             action := CString.literal "EntryUpdated"
             parameters := [⟨CString.literal "watch_key", .string (ascii "task_queue")⟩] }
    | 2 => { tree := { parentIndex := some 0, kind := .consumeQueue }
             action := CString.literal "ConsumeQueue"
             parameters := [] }
  parent node := if node = 0 then none else some 0
  parent_eq := by decide
  parent_lt := by decide

/-- A host that has a queue of two flags, and the output of a child. -/
def sampleHost : NativeHost Unit where
  values := (((ValueStore.blank ⟨5, 32, 32⟩ (by decide)).set (some (CString.literal "task_queue"))
    (some (CString.literal "[true,false]"))).1.set (some (CString.literal "pipeline_output"))
      (some (CString.literal "result"))).1
  scratchCapacity := 16
  scratch _ := CString.literal ""
  pairCapacity := 1
  sleepStates := []
  regexCache := []

end Praktor.Session
