/-
# Entries and queues of a session

An entry is compared with the text that was seen last, and a queue is read, cut and written back.
A queue is written before its item, so a failure in between leaves the queue without the item.
-/

import Praktor.Session.ControlPipelines

namespace Praktor.Session

open Praktor.Data Praktor.Math Stateful

variable {Store Number : Type} {count : Nat}

section Texts

variable {s next : SessionState Store count} {value : SessionText} {buffer : Fin 4} {text : Bytes}

theorem SessionText.Holds.size_eq (hholds : value.Holds s buffer text) : value.size = text.length := by
  rcases hholds with rfl | ⟨rfl, -⟩
  · rfl
  · rfl

/-- A text outlives the use of another buffer. -/
theorem SessionText.Holds.of_used (hholds : value.Holds s buffer text) {other : Fin 4}
    (hused : Used other s next) (hother : buffer ≠ other) (hkey : buffer ≠ 3) :
    value.Holds next buffer text :=
  hholds.of_same (hused.others buffer hother hkey)

end Texts

/-! ## Memory -/

section Memory

variable {s : SessionState Store count}

theorem takeMemory_leads (s : SessionState Store count) (failed : SessionState Store count → Prop) :
    Leads s (takeMemory : SessionM Store count Bool) (fun _ next => ∃ fresh, next = { s with fresh })
      failed :=
  .step (on_get _) (.step (on_modify _ _) (.pure ⟨_, rfl⟩))

theorem jsonSerialize_leads (library : QueueLibrary) (s : SessionState Store count) (value : Json) :
    Leads s (jsonSerialize library value)
      (fun text next => text = library.serialize value ∧ ∃ fresh, next = { s with fresh })
      (fun next => ∃ fresh, next = { s with fresh }) := by
  unfold jsonSerialize
  refine .bind (takeMemory_leads s _) ?_
  rintro met next hnext
  exact .ite (fun _ => .pure ⟨rfl, hnext⟩) fun _ => .throw hnext

/-- The loop of `session_queue_begin`. -/
theorem cloneItems_leads (items : List Json) (s : SessionState Store count) :
    Leads s (cloneItems items) (fun copy next => copy = items ∧ ∃ fresh, next = { s with fresh })
      (fun next => ∃ fresh, next = { s with fresh }) := by
  induction items generalizing s with
  | nil => exact .pure ⟨rfl, s.fresh, rfl⟩
  | cons item rest ih =>
      unfold cloneItems
      refine .bind (takeMemory_leads s _) ?_
      rintro copied _ ⟨fresh, rfl⟩
      refine .ite (fun _ => .throw ⟨fresh, rfl⟩) fun _ => ?_
      refine .bind (takeMemory_leads _ _) ?_
      rintro grown _ ⟨fresh, rfl⟩
      refine .ite (fun _ => .throw ⟨fresh, rfl⟩) fun _ => ?_
      refine .bind ((ih _).failing fun next hnext => hnext) ?_
      rintro copy next ⟨rfl, hnext⟩
      exact .pure ⟨rfl, hnext⟩

end Memory

section Queues

variable {hooks : ValueHooks Store} {view : Store → CString → Option Bytes}
  (hlawful : hooks.Lawful view) {numbers : ControlNumbers Number}
  {session : PlannedSession Number count} {library : QueueLibrary}
  {b : Board Store count} {s : SessionState Store count} {node : Fin count}

/-! ## Entries -/

include hlawful

/-- `session_entry_changed`. -/
theorem sessionEntryChanged_leads (hstands : Stands session.toSessionImpl b s)
    (hsound : b.Sound session) (node : Fin count) :
    Leads s (sessionEntryChanged numbers.toSessionNumbers hooks session node)
      (fun yes next => Serves numbers library view session b (.entryChanged node) (.flag yes) next)
      (Fails numbers library view session b (.entryChanged node)) := by
  unfold sessionEntryChanged
  refine enter_leads hlawful hstands hsound fun first b' hfirst hsound' hcontrols => ?_
  have hfails : ∀ next, Stands session.toSessionImpl b' next →
      Fails numbers library view session b (.entryChanged node) next :=
    fun next hnext => ⟨b', hnext, hsound', hcontrols ▸ .renewed rfl⟩
  refine .bind ((sessionKey_leads hlawful session.toSessionImpl numbers.toSessionNumbers node _ _
    (by decide)).failing fun next hused => hfails next (hfirst.used hused)) ?_
  rintro keyText second ⟨key, hkey, hholds, hused⟩
  have hsecond := hfirst.used hused
  refine .ite (fun _ => .throw (hfails _ hsecond)) fun hsome => ?_
  rw [hholds.size_eq, List.length_eq_zero_iff] at hsome
  refine .bind ((getOrEmpty_leads hlawful session.toSessionImpl hholds (by decide)).failing
    fun next hread => hfails next (hsecond.used hread)) ?_
  rintro current third ⟨hcurrent, hread⟩
  have hthird := hsecond.used hread
  rw [hsecond.store_eq] at hcurrent
  refine .step (on_get _) ?_
  dsimp only
  refine .bind ((cacheText_leads hthird (node, .entryValue) hcurrent.read_eq).failing hfails) ?_
  rintro ⟨⟩ fourth ⟨hfourth, -⟩
  obtain ⟨last, hrun, hlast, -⟩ :=
    changeNode_stands hfourth node fun st => { st with observed := true }
  refine .step hrun (.pure ⟨b'.observe node (valueAt (view b'.store) key), hlast,
    hsound'.observe node _, ?_⟩)
  rw [hfirst.store_eq] at hkey
  have hkey' : namedKey numbers.toSessionNumbers session.toSessionImpl (b'.controls view).values
      node "watch_key" none = some key := hkey
  rw [perform, ← hcontrols, hkey', Board.controls_observe, hthird.state_eq, hthird.cached_eq,
    hcurrent.read_eq, Board.entry_changed]
  exact if_neg hsome

/-! ## Queues -/

/-- An item is taken from the queue under a key. -/
theorem takeItem_leads (hstands : Stands session.toSessionImpl b s) (hsound : b.Sound session)
    {key : SessionText} {name : CString} (hkey : key.Holds s 0 name.bytes) (item : Json)
    (rest : List Json) :
    Leads s (takeItem numbers.toSessionNumbers hooks session library node key item rest)
      (fun _ next => ∃ b' itemKey, Stands session.toSessionImpl b' next ∧ b'.Sound session ∧
        namedKey numbers.toSessionNumbers session.toSessionImpl (b.controls view).values node
          "item_key" (some "current_item") = some itemKey ∧
        b'.controls view = (((b.controls view).dequeued library name rest).put itemKey
          (library.serialize item)).setQueue node (some !rest.isEmpty))
      (fun next => ∃ b', Stands session.toSessionImpl b' next ∧ b'.Sound session ∧
        (b'.controls view = b.controls view ∨
          b'.controls view = (b.controls view).dequeued library name rest)) := by
  have hfails : ∀ next, Stands session.toSessionImpl b next →
      ∃ b', Stands session.toSessionImpl b' next ∧ b'.Sound session ∧
        (b'.controls view = b.controls view ∨
          b'.controls view = (b.controls view).dequeued library name rest) :=
    fun next hnext => ⟨b, hnext, hsound, .inl rfl⟩
  unfold takeItem
  refine .bind ((jsonSerialize_leads library s item).failing ?_) ?_
  · rintro _ ⟨fresh, rfl⟩
    exact hfails _ (hstands.ofFresh fresh)
  rintro first _ ⟨rfl, fresh, rfl⟩
  refine .bind (takeMemory_leads _ _) ?_
  rintro met _ ⟨fresh, rfl⟩
  refine .ite (fun _ => .throw (hfails _ (hstands.ofFresh fresh))) fun _ => ?_
  refine .bind ((cloneItems_leads rest _).failing ?_) ?_
  · rintro _ ⟨fresh, rfl⟩
    exact hfails _ (hstands.ofFresh fresh)
  rintro tail _ ⟨rfl, fresh, rfl⟩
  refine .bind ((jsonSerialize_leads library _ (.array tail)).failing ?_) ?_
  · rintro _ ⟨fresh, rfl⟩
    exact hfails _ (hstands.ofFresh fresh)
  rintro remaining _ ⟨rfl, fresh, rfl⟩
  have hstart := hstands.ofFresh fresh
  refine .bind ((sessionKey_leads hlawful session.toSessionImpl numbers.toSessionNumbers node _ _
    (by decide)).failing fun next hused => hfails next (hstart.used hused)) ?_
  rintro itemText second ⟨itemKey, hitemKey, hitemHolds, hused⟩
  have hsecond := hstart.used hused
  have hname : key.cString second = name :=
    (hkey.of_same (hused.others 0 (by decide) (by decide))).cString_eq name.nulFree
  refine .bind ((sessionSet_leads hlawful session.toSessionImpl _ hname).failing ?_) ?_
  · rintro _ rfl
    exact hfails _ hsecond
  rintro ⟨⟩ _ ⟨cut, rfl, hcut⟩
  rw [hsecond.store_eq] at hcut
  have hdequeued : ({ b with store := cut } : Board Store count).controls view =
      (b.controls view).dequeued library name tail := Board.controls_put hcut
  have hitemName : itemText.cString { second with store := cut } = itemKey :=
    (hitemHolds.of_same rfl).cString_eq itemKey.nulFree
  refine .bind ((sessionSet_leads hlawful session.toSessionImpl _ hitemName).failing ?_) ?_
  · rintro _ rfl
    exact ⟨_, hsecond.withStore cut, hsound.withStore cut, .inr hdequeued⟩
  rintro ⟨⟩ _ ⟨store, rfl, hstore⟩
  obtain ⟨last, hrun, hlast, -⟩ := changeNode_stands (hsecond.withStore store) node fun st =>
    { st with queueActive := true, queueMore := !tail.isEmpty }
  have hput : ({ b with store } : Board Store count).controls view =
      (({ b with store := cut } : Board Store count).controls view).put itemKey
        (library.serialize item) := Board.controls_put (b := { b with store := cut }) hstore
  refine .of_ok hrun ⟨({ b with store } : Board Store count).enqueue node true !tail.isEmpty,
    itemKey, hlast, (hsound.withStore store).enqueue node _ _, ?_, ?_⟩
  · rw [hstart.store_eq] at hitemKey
    exact hitemKey
  · rw [Board.controls_enqueue, hput, hdequeued]
    rfl

/-- `session_queue_begin`. -/
theorem sessionQueueBegin_leads (hstands : Stands session.toSessionImpl b s)
    (hsound : b.Sound session) (node : Fin count) :
    Leads s (sessionQueueBegin numbers.toSessionNumbers hooks session library node)
      (fun yes next => Serves numbers library view session b (.queueBegin node) (.flag yes) next)
      (Fails numbers library view session b (.queueBegin node)) := by
  unfold sessionQueueBegin
  refine enter_leads hlawful hstands hsound fun first b' hfirst hsound' hcontrols => ?_
  obtain ⟨second, hrun, hsecond, -⟩ := changeNode_stands hfirst node fun st =>
    { st with queueActive := false, queueMore := false }
  have hidle := Board.controls_enqueue view b' node false false
  rw [hcontrols] at hidle
  have hsound'' := hsound'.enqueue node false false
  change Stands _ (b'.enqueue node false false) second at hsecond
  have hbegan : ∀ next, Stands session.toSessionImpl (b'.enqueue node false false) next →
      Fails numbers library view session b (.queueBegin node) next :=
    fun next hnext => ⟨_, hnext, hsound'', hidle ▸ .begun node⟩
  refine .step hrun ?_
  refine .bind ((sessionKey_leads hlawful session.toSessionImpl numbers.toSessionNumbers node _ _
    (by decide)).failing fun next hused => hbegan next (hsecond.used hused)) ?_
  rintro keyText third ⟨key, hkey, hholds, hused⟩
  have hthird := hsecond.used hused
  rw [hsecond.store_eq] at hkey
  have hkey' : namedKey numbers.toSessionNumbers session.toSessionImpl
      (((b.controls view).restored session node).setQueue node none).values node "queue_key"
        (some "task_queue") = some key := by
    rw [← hcontrols]
    exact hkey
  have hvalue : (((b.controls view).restored session node).setQueue node none).values key =
      view (b'.enqueue node false false).store key := by
    rw [← hcontrols]
    rfl
  have hperform : perform numbers session library view (b.controls view) (.queueBegin node) =
      (((b.controls view).restored session node).setQueue node none).takes numbers session library
        node key := by
    rw [perform]
    show (namedKey _ _ _ node _ _).bind _ = _
    rw [hkey', Option.bind_some]
  refine .bind ((sessionHas_leads hlawful hholds).failing ?_) ?_
  · rintro _ rfl
    exact hbegan _ hthird
  rintro yes _ ⟨rfl, rfl⟩
  rw [hthird.store_eq]
  cases hstored : view (b'.enqueue node false false).store key with
  | none =>
      refine .pure ⟨_, hthird, hsound'', ?_⟩
      rw [hperform, hidle]
      refine Controls.takes_none ?_
      unfold queuedItems
      rw [hvalue, hstored]
      rfl
  | some text =>
      refine .ite (fun habsent => by cases habsent) fun _ => ?_
      refine .bind ((sessionGet_leads hlawful session.toSessionImpl hholds (by decide)).failing
        fun next hread => hbegan next (hthird.used hread)) ?_
      rintro input fourth ⟨text', htext, hinput, hread⟩
      have hfourth := hthird.used hread
      rw [hthird.store_eq, hstored] at htext
      obtain rfl := Option.some.inj htext
      refine .step (on_textOf input fourth) ?_
      rw [hinput.read_eq]
      split
      next item rest hparse =>
        have hitems : queuedItems library (((b.controls view).restored session node).setQueue node
            none) key = some (item, rest) := by
          unfold queuedItems
          rw [hvalue, hstored, Option.bind_some, hparse]
        refine .bind ((takeItem_leads hlawful hfourth hsound''
          (hholds.of_used hread (by decide) (by decide)) item rest).failing ?_) ?_
        · rintro last ⟨b'', hlast, hsoundLast, hkept | hcut⟩
          · exact ⟨b'', hlast, hsoundLast, hkept.trans hidle ▸ .begun node⟩
          · refine ⟨b'', hlast, hsoundLast, ?_⟩
            rw [hcut, hidle]
            exact .dequeued hkey' hitems
        · rintro ⟨⟩ last ⟨b'', itemKey, hlast, hsoundLast, hitemKey, hcontrols'⟩
          refine .pure ⟨b'', hlast, hsoundLast, ?_⟩
          rw [hidle] at hitemKey hcontrols'
          rw [hperform, hcontrols']
          exact Controls.takes_some hitems hitemKey
      next hother =>
        have hnone : queuedItems library (((b.controls view).restored session node).setQueue node
            none) key = none := by
          unfold queuedItems
          rw [hvalue, hstored, Option.bind_some]
          split
          next item rest hparse => exact absurd hparse (hother item rest)
          next => rfl
        refine .pure ⟨_, hfourth, hsound'', ?_⟩
        rw [hperform, hidle]
        exact Controls.takes_none hnone

omit hlawful in
/-- The queue of a node is out of use. -/
theorem idleQueue_stands (view : Store → CString → Option Bytes)
    (hstands : Stands session.toSessionImpl b s) (hsound : b.Sound session) (node : Fin count) :
    ∃ next b', on (changeNode node fun st => { st with queueActive := false, queueMore := false }) s =
        (.ok ⟨⟩, next) ∧ Stands session.toSessionImpl b' next ∧ b'.Sound session ∧
      b'.controls view = (b.controls view).setQueue node none := by
  obtain ⟨next, hrun, hnext, -⟩ := changeNode_stands hstands node fun st =>
    { st with queueActive := false, queueMore := false }
  exact ⟨next, _, hrun, hnext, hsound.enqueue node false false,
    Board.controls_enqueue view b node false false⟩

omit hlawful in
/-- `session_queue_finish`. -/
theorem sessionQueueFinish_leads (hstands : Stands session.toSessionImpl b s)
    (hsound : b.Sound session) (node : Fin count) :
    Leads s (sessionQueueFinish node)
      (fun yes next => Serves numbers library view session b (.queueFinish node) (.flag yes) next)
      (Fails numbers library view session b (.queueFinish node)) := by
  unfold sessionQueueFinish
  refine .step (on_nodeState hstands node) ?_
  refine .ite (fun _ => .throw (hstands.fails hsound _)) fun _ => ?_
  refine .ite (fun _ => .throw (hstands.fails hsound _)) fun hactive => ?_
  obtain ⟨next, b', hrun, hnext, hsound', hcontrols⟩ :=
    idleQueue_stands view hstands hsound node
  refine .step hrun (.pure ⟨b', hnext, hsound', ?_⟩)
  have hqueue : (b.controls view).queue node = some (b.state node).queueMore := by
    show b.queue node = _
    unfold Board.queue
    rw [if_pos (by simpa using hactive)]
  rw [perform, hcontrols, hqueue]
  rfl

end Queues

end Praktor.Session
