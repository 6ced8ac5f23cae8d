/-
# Pipelines of a session

A session serves a call when its board becomes what the model of the controls says, and fails it
when the board is left as a failure may leave it.  The callbacks of a pipeline do one or the other,
and so does the restoring of an input that other callbacks begin with.
-/

import Praktor.Session.ControlBoards

namespace Praktor.Session

open Praktor.Data Praktor.Math Stateful

variable {Store Number : Type} {count : Nat}

section Refinement

variable {hooks : ValueHooks Store} {view : Store → CString → Option Bytes}
  (hlawful : hooks.Lawful view) (numbers : ControlNumbers Number)
  {session : PlannedSession Number count} (library : QueueLibrary)
  {b : Board Store count} {s : SessionState Store count} {node : Fin count}

/-- A call that succeeds has done what the model says. -/
def Serves (view : Store → CString → Option Bytes) (session : PlannedSession Number count)
    (b : Board Store count) (call : ControlCall Store count) (reply : ControlReply)
    (next : SessionState Store count) : Prop :=
  ∃ b', Stands session.toSessionImpl b' next ∧ b'.Sound session ∧
    perform numbers session library view (b.controls view) call = some (reply, b'.controls view)

/-- A call that fails leaves what a failure may leave. -/
def Fails (view : Store → CString → Option Bytes) (session : PlannedSession Number count)
    (b : Board Store count) (call : ControlCall Store count) (next : SessionState Store count) :
    Prop :=
  ∃ b', Stands session.toSessionImpl b' next ∧ b'.Sound session ∧
    Refuses numbers session library (b.controls view) call (b'.controls view)

/-! ## Pipelines that are restored -/

include hlawful

theorem setInput_leads (hstands : Stands session.toSessionImpl b s) (text : Bytes) :
    Leads s (setInput session.toSessionImpl hooks text)
      (fun _ next => ∃ store, Stands session.toSessionImpl { b with store } next ∧
        view store = Function.update (view b.store) inputKey (some text))
      (fun next => Stands session.toSessionImpl b next) := by
  unfold setInput
  have hkey : (SessionText.bytes (ascii "pipeline_input")).cString s = inputKey := rfl
  refine .mono (sessionSet_leads hlawful session.toSessionImpl _ hkey) ?_ ?_
  · rintro ⟨⟩ _ ⟨store, rfl, hstore⟩
    refine ⟨store, hstands.withStore store, ?_⟩
    rw [hstore, hstands.store_eq]
    rfl
  · rintro _ rfl
    exact hstands

/-- The loop of `session_restore_pipeline`. -/
theorem restoreAlong_leads (hstands : Stands session.toSessionImpl b s) (hsound : b.Sound session)
    (path : List (Fin count × Fin count)) :
    Leads s (restoreAlong hooks session path)
      (fun _ next => ∃ b', Stands session.toSessionImpl b' next ∧ b'.Sound session ∧
        b'.controls view = (b.controls view).restoredAlong session path)
      (fun next => Stands session.toSessionImpl b next) := by
  induction path with
  | nil => exact .pure ⟨b, hstands, hsound, rfl⟩
  | cons pair rest ih =>
      obtain ⟨descendant, parent⟩ := pair
      unfold restoreAlong
      refine .step (on_get _) ?_
      dsimp only
      rw [hstands.state_eq, hstands.generation_eq]
      cases hpipeline : (b.state parent).pipeline with
      | false =>
          rw [if_neg (by simp), Controls.restoredAlong_idle rest (Board.flow_of_idle hpipeline)]
          exact ih
      | true =>
          obtain ⟨key, data, hbegun, hflow⟩ := (hsound parent).begun_eq hpipeline
          by_cases hdue : (b.state parent).restoreTick ≠ b.generation ∧
              (session.children parent)[(b.state parent).activeChild]? = some descendant
          · have hdata : b.text (parent, .pipeData) = some data := by
              rw [← hbegun, Board.begun_data]
            rw [if_pos ⟨rfl, hdue⟩, Controls.restoredAlong_due rest hflow hdue, hstands.cached_eq,
              hdata, Option.getD_some]
            refine .bind (setInput_leads hlawful hstands _) ?_
            rintro ⟨⟩ next ⟨store, hnext, hstore⟩
            obtain ⟨last, hrun, hlast, -⟩ :=
              changeNode_stands hnext parent fun st => { st with restoreTick := b.generation }
            have hruns : Runs (b.state parent) { b.state parent with restoreTick := b.generation } :=
              ⟨by rw [← hpipeline]⟩
            have hrunning := hsound.running hruns key data
            have hcontrols := Board.controls_running view hruns key data
            rw [hbegun] at hrunning hcontrols
            refine .of_ok hrun ⟨_, hlast, hrunning.withStore store, ?_⟩
            refine (Board.controls_put (b := b.setState parent _) hstore).trans ?_
            rw [hcontrols]
            rfl
          · rw [if_neg fun hall => hdue hall.2, Controls.restoredAlong_later rest hflow hdue]
            exact ih

/-- `session_restore_pipeline`. -/
theorem sessionRestorePipeline_leads (hstands : Stands session.toSessionImpl b s)
    (hsound : b.Sound session) (node : Fin count) :
    Leads s (sessionRestorePipeline hooks session node)
      (fun _ next => ∃ b', Stands session.toSessionImpl b' next ∧ b'.Sound session ∧
        b'.controls view = (b.controls view).restored session node)
      (fun next => Stands session.toSessionImpl b next) :=
  restoreAlong_leads hlawful hstands hsound _

variable {numbers library}

omit hlawful in
theorem Stands.fails (hstands : Stands session.toSessionImpl b s) (hsound : b.Sound session)
    (call : ControlCall Store count) : Fails numbers library view session b call s :=
  ⟨b, hstands, hsound, .nothing call⟩

/-- `restore` outside a branch. -/
theorem restore_leads (hstands : Stands session.toSessionImpl b s) (hsound : b.Sound session)
    (hbranch : ¬(b.state node).branch = true) :
    Leads s (restore hooks session node)
      (fun _ next => ∃ b', Stands session.toSessionImpl b' next ∧ b'.Sound session ∧
        b'.controls view = (b.controls view).restored session node)
      (fun next => Stands session.toSessionImpl b next) := by
  unfold restore
  refine .step (on_nodeState hstands node) ?_
  exact .ite (fun hyes => absurd hyes hbranch) fun _ =>
    sessionRestorePipeline_leads hlawful hstands hsound node

/-- A callback that restores the input of a pipeline and refuses the nodes of a branch. -/
theorem enter_leads {α : Type} {call : ControlCall Store count} {rest : NodeState → SessionM Store count α}
    {after : α → SessionState Store count → Prop} (hstands : Stands session.toSessionImpl b s)
    (hsound : b.Sound session)
    (hrest : ∀ next b', Stands session.toSessionImpl b' next → b'.Sound session →
      b'.controls view = (b.controls view).restored session node →
      Leads next (rest (b'.state node)) after (Fails numbers library view session b call)) :
    Leads s (do
      restore hooks session node
      let st ← nodeState node
      if st.branch then throw Salts.enotsup else rest st) after
      (Fails numbers library view session b call) := by
  by_cases hbranch : (b.state node).branch = true
  · have hrestore : on (restore hooks session node) s = (.ok ⟨⟩, s) := by
      unfold restore
      rw [on_bind_ok (on_nodeState hstands node), if_pos hbranch]
      rfl
    refine .step hrestore (.step (on_nodeState hstands node) ?_)
    rw [if_pos hbranch]
    exact .throw (hstands.fails hsound call)
  · refine .bind ((restore_leads hlawful hstands hsound hbranch).failing
      fun next hnext => hnext.fails hsound call) ?_
    rintro ⟨⟩ next ⟨b', hnext, hsound', hcontrols⟩
    refine .step (on_nodeState hnext node) ?_
    have hsame : (b'.state node).branch = (b.state node).branch :=
      (hsound' node).branch_eq.trans (hsound node).branch_eq.symm
    rw [hsame, if_neg hbranch]
    exact hrest next b' hnext hsound' hcontrols

/-! ## Pipelines -/

/-- `session_pipeline_prepare` of a pipeline that begins. -/
theorem capturePipeline_leads (hstands : Stands session.toSessionImpl b s) (node : Fin count) :
    Leads s (capturePipeline numbers.toSessionNumbers hooks session node)
      (fun _ next => ∃ (key : CString) (data : Bytes),
        (b.controls view).captured session numbers.toSessionNumbers node = some ⟨key, data, 0, 0⟩ ∧
          Stands session.toSessionImpl (b.begun node key.bytes data) next)
      (fun next => ∃ b', (∃ text, b' = b.setText (node, .pipeKey) text) ∧
        Stands session.toSessionImpl b' next) := by
  have hself : b = b.setText (node, .pipeKey) (b.text (node, .pipeKey)) := by
    unfold Board.setText
    rw [Function.update_eq_self]
  have hfails : ∀ {next : SessionState Store count}, Stands session.toSessionImpl b next →
      ∃ b', (∃ text, b' = b.setText (node, .pipeKey) text) ∧
        Stands session.toSessionImpl b' next := fun hnext => ⟨b, ⟨_, hself⟩, hnext⟩
  unfold capturePipeline
  refine .bind ((sessionKey_leads hlawful session.toSessionImpl numbers.toSessionNumbers node _ _
    (by decide)).failing fun next hused => hfails (hstands.used hused)) ?_
  rintro outKey first ⟨key, hkey, hholds, hused⟩
  have hfirst := hstands.used hused
  refine .bind ((cacheText_leads hfirst _ hholds.read_eq).failing fun next hnext => hfails hnext) ?_
  rintro ⟨⟩ second ⟨hsecond, -⟩
  have hpartial : ∀ {next : SessionState Store count},
      Stands session.toSessionImpl (b.setText (node, .pipeKey) (some key.bytes)) next →
      ∃ b', (∃ text, b' = b.setText (node, .pipeKey) text) ∧
        Stands session.toSessionImpl b' next := fun hnext => ⟨_, ⟨_, rfl⟩, hnext⟩
  refine .bind ((sessionKey_leads hlawful session.toSessionImpl numbers.toSessionNumbers node _ _
    (by decide)).failing fun next hused => hpartial (hsecond.used hused)) ?_
  rintro inKey third ⟨input, hinput, hholds', hused'⟩
  have hthird := hsecond.used hused'
  refine .bind ((getOrEmpty_leads hlawful session.toSessionImpl hholds' (by decide)).failing
    fun next hread => hpartial (hthird.used hread)) ?_
  rintro data fourth ⟨hdata, hread⟩
  refine .mono (cacheText_leads (hthird.used hread) _ hdata.read_eq) ?_ fun _ hnext => hpartial hnext
  rintro ⟨⟩ last ⟨hlast, -⟩
  rw [hstands.store_eq] at hkey
  rw [hsecond.store_eq] at hinput
  rw [hthird.store_eq] at hlast
  refine ⟨key, valueAt (view b.store) input, ?_, hlast⟩
  unfold Controls.captured
  show (namedKey _ _ (view b.store) node _ _).bind _ = _
  rw [hkey, Option.bind_some]
  show (namedKey _ _ (view b.store) node _ _).bind _ = _
  have hinput' : namedKey numbers.toSessionNumbers session.toSessionImpl (view b.store) node
      "input_key" (some "pipeline_input") = some input := hinput
  rw [hinput', Option.bind_some]
  rfl

/-- The pipeline of a node that is idle begins. -/
theorem beginPipeline_leads (hstands : Stands session.toSessionImpl b s) (hsound : b.Sound session)
    (hidle : (b.state node).pipeline = false) :
    Leads s (beginPipeline numbers.toSessionNumbers hooks session node)
      (fun _ next => ∃ b' flow, Stands session.toSessionImpl b' next ∧ b'.Sound session ∧
        (b'.state node).pipeline = true ∧
        (b.controls view).flowAt session numbers.toSessionNumbers node = some flow ∧
        ∃ child, b'.controls view = (b.controls view).setFlow node (some { flow with child }))
      (fun next => ∃ b', Stands session.toSessionImpl b' next ∧ b'.Sound session ∧
        b'.controls view = b.controls view) := by
  have hflow : (b.controls view).flow node = none := Board.flow_of_idle hidle
  unfold beginPipeline
  refine .bind (orClear_leads (capturePipeline_leads hlawful hstands node) ?_) ?_
  · rintro _ next ⟨text, rfl⟩ hnext
    rw [Board.clearPipeline_setText] at hnext
    refine ⟨_, hnext, hsound.cleared node, ?_⟩
    rw [Board.controls_cleared, Controls.setFlow_eq_self _ hflow]
  rintro ⟨⟩ next ⟨key, data, hcaptured, hnext⟩
  obtain ⟨last, hrun, hlast, -⟩ :=
    changeNode_stands hnext node fun st => { st with pipeline := true }
  have hruns : Runs (b.state node) { b.state node with pipeline := true } := ⟨rfl⟩
  refine .of_ok hrun ⟨_, ⟨key, data, 0, 0⟩, hlast, hsound.running hruns key data, ?_, ?_,
    (b.state node).activeChild, ?_⟩
  · rw [Board.setState_state]
  · unfold Controls.flowAt
    rw [hflow, hcaptured]
    rfl
  · refine (Board.controls_running view hruns key data).trans ?_
    dsimp only
    rw [(hsound node).tick hidle]

/-- The next child of a pipeline that runs is given its input. -/
theorem advance_leads {flow : Flow} (hstands : Stands session.toSessionImpl b s)
    (hsound : b.Sound session) (hpipeline : (b.state node).pipeline = true)
    (hflow : b.flow node = some flow) (child : Nat) :
    Leads s (do
      changeNode node fun st => { st with activeChild := child }
      setInput session.toSessionImpl hooks ((← get).pool.sessionCached (node, .pipeData)))
      (fun _ next => ∃ b', Stands session.toSessionImpl b' next ∧ b'.Sound session ∧
        b'.controls view =
          ((b.controls view).setFlow node (some { flow with child })).put inputKey flow.data)
      (fun next => ∃ b', Stands session.toSessionImpl b' next ∧ b'.Sound session ∧
        b'.controls view = (b.controls view).setFlow node (some { flow with child })) := by
  obtain ⟨key, data, hbegun, hflow'⟩ := (hsound node).begun_eq hpipeline
  obtain rfl := Option.some.inj (hflow.symm.trans hflow')
  have hdata : b.text (node, .pipeData) = some data := by rw [← hbegun, Board.begun_data]
  have hruns : Runs (b.state node) { b.state node with activeChild := child } :=
    ⟨by rw [← hpipeline]⟩
  have hrunning := hsound.running hruns key data
  have hcontrols := Board.controls_running view hruns key data
  rw [hbegun] at hrunning hcontrols
  obtain ⟨middle, hrun, hmiddle, -⟩ :=
    changeNode_stands hstands node fun st => { st with activeChild := child }
  refine .step hrun (.step (on_get _) ?_)
  rw [hmiddle.cached_eq, Board.setState_text, hdata, Option.getD_some]
  refine .mono (setInput_leads hlawful hmiddle data) ?_ fun next hnext =>
    ⟨_, hnext, hrunning, hcontrols⟩
  rintro ⟨⟩ next ⟨store, hnext, hstore⟩
  refine ⟨_, hnext, hrunning.withStore store, (Board.controls_put hstore).trans ?_⟩
  rw [hcontrols]

/-- `session_pipeline_prepare`. -/
theorem sessionPipelinePrepare_leads (hstands : Stands session.toSessionImpl b s)
    (hsound : b.Sound session) (child : Nat) :
    Leads s (sessionPipelinePrepare numbers.toSessionNumbers hooks session node child)
      (fun _ next => Serves numbers library view session b (.prepare node child) .done next)
      (Fails numbers library view session b (.prepare node child)) := by
  unfold sessionPipelinePrepare
  refine enter_leads hlawful hstands hsound fun next b' hnext hsound' hcontrols => ?_
  refine .ite (fun _ => .throw ⟨b', hnext, hsound', hcontrols ▸ .renewed rfl⟩) fun hchild => ?_
  rw [(hsound' node).children_eq, ge_iff_le] at hchild
  have hperform : ∀ flow,
      (b'.controls view).flowAt session numbers.toSessionNumbers node = some flow →
      perform numbers session library view (b.controls view) (.prepare node child) =
        some (.done,
          ((b'.controls view).setFlow node (some { flow with child })).put inputKey flow.data) := by
    intro flow hflow
    unfold perform
    dsimp only
    rw [← hcontrols, if_neg hchild, hflow]
    rfl
  cases hpipeline : (b'.state node).pipeline with
  | true =>
      obtain ⟨key, data, -, hflow⟩ := (hsound' node).begun_eq hpipeline
      have hat : (b'.controls view).flowAt session numbers.toSessionNumbers node = b'.flow node := by
        unfold Controls.flowAt
        show (b'.flow node).or _ = _
        rw [hflow]
        rfl
      refine .congr rfl (.mono (advance_leads hlawful hnext hsound' hpipeline hflow child) ?_ ?_)
      · rintro ⟨⟩ last ⟨b'', hlast, hsound'', hcontrols'⟩
        exact ⟨b'', hlast, hsound'', (hperform _ (hat.trans hflow)).trans (by rw [hcontrols'])⟩
      · rintro last ⟨b'', hlast, hsound'', hcontrols'⟩
        refine ⟨b'', hlast, hsound'', ?_⟩
        rw [hcontrols', hcontrols]
        rw [hcontrols] at hat
        exact .prepared (hat.trans hflow)
  | false =>
      refine .congr rfl (.bind ((beginPipeline_leads hlawful hnext hsound' hpipeline).failing ?_) ?_)
      · rintro last ⟨b'', hlast, hsound'', hcontrols'⟩
        refine ⟨b'', hlast, hsound'', ?_⟩
        rw [hcontrols', hcontrols]
        exact .renewed rfl
      rintro ⟨⟩ middle ⟨b'', flow, hmiddle, hsound'', hpipeline', hat, old, hcontrols'⟩
      have hflow : b''.flow node = some { flow with child := old } := by
        show (b''.controls view).flow node = _
        rw [hcontrols', Controls.setFlow_flow]
      refine .mono (advance_leads hlawful hmiddle hsound'' hpipeline' hflow child) ?_ ?_
      · rintro ⟨⟩ last ⟨last', hlast, hsoundLast, hcontrolsLast⟩
        refine ⟨last', hlast, hsoundLast, (hperform flow hat).trans ?_⟩
        rw [hcontrolsLast, hcontrols', Controls.setFlow_setFlow]
      · rintro last ⟨last', hlast, hsoundLast, hcontrolsLast⟩
        rw [hcontrols] at hat
        have hrefused : Refuses numbers session library (b.controls view)
          (.prepare node child : ControlCall Store count)
          (((b.controls view).restored session node).setFlow node (some { flow with child })) :=
          .prepared hat
        refine ⟨last', hlast, hsoundLast, ?_⟩
        rw [hcontrolsLast, hcontrols', Controls.setFlow_setFlow, hcontrols]
        exact hrefused

/-- The output of a child is taken over. -/
theorem takeOutput_leads {flow : Flow} (hstands : Stands session.toSessionImpl b s)
    (hsound : b.Sound session) (hpipeline : (b.state node).pipeline = true)
    (hflow : b.flow node = some flow) :
    Leads s (takeOutput hooks session node)
      (fun _ next => ∃ b', Stands session.toSessionImpl b' next ∧ b'.Sound session ∧
        (b'.state node).pipeline = true ∧ b'.controls view = (b.controls view).setFlow node
          (some { flow with data := (b.controls view).handedOn flow }))
      (fun next => Stands session.toSessionImpl b next) := by
  have hkey : (SessionText.bytes (ascii "pipeline_output")).Holds s 3 outputKey.bytes := .inl rfl
  unfold takeOutput
  refine .bind ((sessionHas_leads hlawful hkey).failing ?_) ?_
  · rintro next rfl
    exact hstands
  rintro yes next ⟨hnext, hyes⟩
  rw [hnext, hyes, hstands.store_eq]
  cases hstored : view b.store outputKey with
  | none =>
      have hhanded : (b.controls view).handedOn flow = flow.data := by
        unfold Controls.handedOn
        show (view b.store outputKey).getD _ = _
        rw [hstored]
        rfl
      refine .pure ⟨b, hstands, hsound, hpipeline, ?_⟩
      rw [hhanded]
      exact (Controls.setFlow_eq_self _ hflow).symm
  | some text =>
      have hhanded : (b.controls view).handedOn flow = text := by
        unfold Controls.handedOn
        show (view b.store outputKey).getD _ = _
        rw [hstored]
        rfl
      obtain ⟨key, data, hbegun, hflow'⟩ := (hsound node).begun_eq hpipeline
      obtain rfl := Option.some.inj (hflow.symm.trans hflow')
      refine .bind ((sessionGet_leads hlawful session.toSessionImpl hkey (by decide)).failing
        fun next hused => hstands.used hused) ?_
      rintro value middle ⟨text', htext, hholds, hused⟩
      rw [hstands.store_eq, hstored] at htext
      obtain rfl := Option.some.inj htext
      refine .mono (cacheText_leads (hstands.used hused) _ hholds.read_eq) ?_ fun _ hlast => hlast
      rintro ⟨⟩ last ⟨hlast, -⟩
      have hruns : Runs (b.state node) (b.state node) := ⟨by rw [← hpipeline]⟩
      have hboard : b.setText (node, .pipeData) (some text) =
          (b.begun node key.bytes text).setState node (b.state node) := by
        rw [← Board.begun_setText b node key.bytes data text, hbegun]
        refine Board.ext rfl rfl ?_ rfl
        exact (Function.update_eq_self _ _).symm
      rw [hboard] at hlast
      refine ⟨_, hlast, hsound.running hruns key text, ?_, ?_⟩
      · rw [Board.setState_state, hpipeline]
      · rw [hhanded]
        exact Board.controls_running view hruns key text

/-- The result of a pipeline is written, and the pipeline is over. -/
theorem writeResult_leads {flow : Flow} (hstands : Stands session.toSessionImpl b s)
    (hsound : b.Sound session) (hpipeline : (b.state node).pipeline = true)
    (hflow : b.flow node = some flow) :
    Leads s (do
      let pool := (← get).pool
      orClear node (sessionSet hooks session.toSessionImpl
        (.bytes (pool.sessionCached (node, .pipeKey)))
        (.bytes (pool.sessionCached (node, .pipeData))))
      clearPipeline node)
      (fun _ next => ∃ b', Stands session.toSessionImpl b' next ∧ b'.Sound session ∧
        b'.controls view = ((b.controls view).put flow.key flow.data).setFlow node none)
      (fun next => ∃ b', Stands session.toSessionImpl b' next ∧ b'.Sound session ∧
        b'.controls view = (b.controls view).setFlow node none) := by
  obtain ⟨key, data, hbegun, hflow'⟩ := (hsound node).begun_eq hpipeline
  obtain rfl := Option.some.inj (hflow.symm.trans hflow')
  have hdata : b.text (node, .pipeData) = some data := by rw [← hbegun, Board.begun_data]
  have hkey : b.text (node, .pipeKey) = some key.bytes := by rw [← hbegun, Board.begun_key]
  have hname : (SessionText.bytes key.bytes).cString s = key :=
    CString.ext (CString.ofBuffer_bytes key.nulFree)
  have hset : Leads s (sessionSet hooks session.toSessionImpl (.bytes key.bytes) (.bytes data))
      (fun _ next => ∃ store, Stands session.toSessionImpl { b with store } next ∧
        view store = Function.update (view b.store) key (some data))
      (fun next => ∃ b', b = b' ∧ Stands session.toSessionImpl b' next) := by
    refine (sessionSet_leads hlawful session.toSessionImpl (.bytes data) hname).mono ?_ ?_
    · rintro ⟨⟩ _ ⟨store, rfl, hstore⟩
      exact ⟨store, hstands.withStore store, hstands.store_eq ▸ hstore⟩
    · rintro _ rfl
      exact ⟨b, rfl, hstands⟩
  refine .step (on_get _) ?_
  dsimp only
  rw [hstands.cached_eq, hstands.cached_eq, hdata, hkey, Option.getD_some, Option.getD_some]
  refine .bind (orClear_leads hset ?_) ?_
  · rintro _ next rfl hcleared
    exact ⟨_, hcleared, hsound.cleared node, Board.controls_cleared b node⟩
  · rintro ⟨⟩ next ⟨store, hnext, hstore⟩
    obtain ⟨last, hrun, hcleared⟩ := clearPipeline_stands hnext node
    refine .of_ok hrun ⟨_, hcleared, (hsound.withStore store).cleared node, ?_⟩
    rw [Board.controls_cleared, Board.controls_put hstore]

/-- `session_pipeline_complete`. -/
theorem sessionPipelineComplete_leads (hstands : Stands session.toSessionImpl b s)
    (hsound : b.Sound session) (node : Fin count) (child : Nat) (succeeded : Bool) :
    Leads s (sessionPipelineComplete hooks session node child succeeded)
      (fun _ next =>
        Serves numbers library view session b (.complete node child succeeded) .done next)
      (Fails numbers library view session b (.complete node child succeeded)) := by
  unfold sessionPipelineComplete
  refine .step (on_nodeState hstands node) ?_
  refine .ite (fun _ => .throw (hstands.fails hsound _)) fun _ => ?_
  refine .ite (fun _ => .throw (hstands.fails hsound _)) fun hruns => ?_
  rw [(hsound node).children_eq] at hruns ⊢
  simp only [ge_iff_le, Bool.or_eq_true, Bool.not_eq_true', decide_eq_true_eq, not_or,
    Bool.not_eq_false] at hruns
  obtain ⟨hpipeline, hchild⟩ := hruns
  obtain ⟨key, data, -, hflow⟩ := (hsound node).begun_eq hpipeline
  have hflow' : (b.controls view).flow node = _ := hflow
  cases succeeded with
  | false =>
      obtain ⟨last, hrun, hcleared⟩ := clearPipeline_stands hstands node
      refine .of_ok hrun ⟨_, hcleared, hsound.cleared node, ?_⟩
      rw [perform, hflow', Board.controls_cleared]
      exact if_neg hchild
  | true =>
      rw [if_pos rfl]
      refine .bind ((takeOutput_leads hlawful hstands hsound hpipeline hflow).failing
        fun next hnext => hnext.fails hsound _) ?_
      rintro ⟨⟩ next ⟨b', hnext, hsound', hpipeline', hcontrols⟩
      refine .ite (fun hlast => ?_) fun hmore => ?_
      · have hkept : b'.flow node = some _ := (congrFun (congrArg Controls.flow hcontrols) node).trans
          (Controls.setFlow_flow _ _ _)
        refine (writeResult_leads hlawful hnext hsound' hpipeline' hkept).mono ?_ ?_
        · rintro ⟨⟩ last ⟨b'', hlast', hsound'', hcontrols'⟩
          refine ⟨b'', hlast', hsound'', ?_⟩
          rw [perform, hflow', hcontrols', hcontrols]
          refine (if_neg hchild).trans ((if_pos hlast).trans ?_)
          rw [Controls.setFlow_put, Controls.setFlow_setFlow]
          rfl
        · rintro last ⟨b'', hlast', hsound'', hcontrols'⟩
          refine ⟨b'', hlast', hsound'', ?_⟩
          rw [hcontrols', hcontrols, Controls.setFlow_setFlow]
          exact .completed hlast
      · refine .pure ⟨b', hnext, hsound', ?_⟩
        rw [perform, hflow', hcontrols]
        exact (if_neg hchild).trans (if_neg hmore)

end Refinement

end Praktor.Session
