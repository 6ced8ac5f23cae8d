/-
# What the commands of a service say

The commands of a profile are templates.  A template that is the marker of the arguments
stands for all arguments of the request, and in every other one each occurrence of the marker
of the name, from the left on, is replaced by the name once.

The main result: a request that is prepared has these commands in the scratch, string after
string and within its bounds, and a request that is not prepared runs nothing.
-/

import Mathlib.Algebra.Order.Ring.Nat
import Mathlib.Data.List.Forall2
import Praktor.Process.CommandArena

namespace Praktor.Process

open Praktor.Data Praktor.Math

/-! ## Templates -/

/-- The texts that a template stands for. -/
def TemplateRendered (arguments : List (Option CString)) (name : CString)
    (template : Option CString) (part : List CString) : Prop :=
  ∃ text, template = some text ∧
    (text.bytes = argumentsMarker ∧ arguments = part.map some ∨
      text.bytes ≠ argumentsMarker ∧ ∃ rendered, part = [rendered] ∧
        Substituted nameMarker name.bytes text.bytes rendered.bytes)

/-- The texts that the templates of a command stand for. -/
def VectorRendered (arguments : List (Option CString)) (name : CString)
    (templates : List (Option CString)) (vector : List CString) : Prop :=
  ∃ parts, List.Forall₂ (TemplateRendered arguments name) templates parts ∧
    vector = parts.flatten

section Templates

variable {config : ServiceConfig} {arguments : List (Option CString)} {name : CString}

theorem nameMarker_ne_nil : nameMarker ≠ [] := by
  decide

theorem map_some_injective {first second : List CString} (hsame : first.map some = second.map some) :
    first = second :=
  List.map_injective_iff.mpr (fun _ _ hequal => Option.some.inj hequal) hsame

/-- A template stands for one sequence of texts only. -/
theorem TemplateRendered.unique {template : Option CString} {first second : List CString}
    (hfirst : TemplateRendered arguments name template first)
    (hsecond : TemplateRendered arguments name template second) : first = second := by
  obtain ⟨text, rfl, hfirst⟩ := hfirst
  obtain ⟨text', htext, hsecond⟩ := hsecond
  obtain rfl := Option.some.inj htext
  rcases hfirst with ⟨hmarker, hfirst⟩ | ⟨hmarker, rendered, rfl, hfirst⟩
  · rcases hsecond with ⟨-, hsecond⟩ | ⟨hother, -⟩
    · exact map_some_injective (hfirst.symm.trans hsecond)
    · exact absurd hmarker hother
  · rcases hsecond with ⟨hother, -⟩ | ⟨-, rendered', rfl, hsecond⟩
    · exact absurd hother hmarker
    · have hbytes := ((substituted_iff nameMarker_ne_nil).mp hfirst).symm.trans
        ((substituted_iff nameMarker_ne_nil).mp hsecond)
      rw [CString.ext hbytes]

theorem VectorRendered.unique {templates : List (Option CString)} {first second : List CString}
    (hfirst : VectorRendered arguments name templates first)
    (hsecond : VectorRendered arguments name templates second) : first = second := by
  obtain ⟨parts, hparts, rfl⟩ := hfirst
  obtain ⟨parts', hparts', rfl⟩ := hsecond
  have hunique : Relator.RightUnique (TemplateRendered arguments name) :=
    fun _ _ _ hfirst hsecond => hfirst.unique hsecond
  rw [List.right_unique_forall₂' hunique hparts hparts']

theorem textSize_eq_some {text : Option CString} {result : CString × Nat}
    (hresult : textSize config text = some result) : text = some result.1 := by
  have hagrees := Scratch.textSize_agrees config text
  rw [hresult] at hagrees
  obtain ⟨_, -, found, rfl, rfl, -, -⟩ := hagrees
  rfl

theorem copy_eq_some {text : Option CString} {used : Nat} {result : CString × Nat}
    (hresult : copy config used text = some result) : text = some result.1 := by
  obtain ⟨sized, hsized, hlater⟩ := Option.bind_eq_some_iff.mp hresult
  obtain ⟨total, -, hpure⟩ := Option.bind_eq_some_iff.mp hlater
  rw [textSize_eq_some hsized, ← Option.some.inj hpure]

/-- The loop over the arguments appends all of them. -/
theorem renderArguments_eq_some {texts : List (Option CString)} {rendered : List CString}
    {used : Nat} {result : List CString × Nat}
    (hresult : renderArguments config texts rendered used = some result) :
    ∃ part, texts = part.map some ∧ result.1 = rendered ++ part := by
  induction texts generalizing rendered used with
  | nil =>
      obtain rfl := Option.some.inj hresult
      exact ⟨[], rfl, (List.append_nil _).symm⟩
  | cons text rest ih =>
      rw [renderArguments] at hresult
      split at hresult
      · cases hresult
      obtain ⟨⟨copied, next⟩, hcopy, hlater⟩ := Option.bind_eq_some_iff.mp hresult
      obtain ⟨part, rfl, hpart⟩ := ih hlater
      refine ⟨copied :: part, by rw [copy_eq_some hcopy]; rfl, ?_⟩
      rw [hpart, List.append_assoc]
      rfl

/-- The loop over the templates appends what they stand for. -/
theorem renderTemplates_eq_some {request : ServiceRequest} {templates : List (Option CString)}
    {rendered : List CString} {used : Nat} {result : List CString × Nat}
    (hresult : renderTemplates config request name templates rendered used = some result) :
    ∃ parts, List.Forall₂ (TemplateRendered request.arguments.texts name) templates parts ∧
      result.1 = rendered ++ parts.flatten := by
  induction templates generalizing rendered used with
  | nil =>
      obtain rfl := Option.some.inj hresult
      exact ⟨[], .nil, (List.append_nil _).symm⟩
  | cons template rest ih =>
      rw [renderTemplates] at hresult
      obtain ⟨sized, hsized, hlater⟩ := Option.bind_eq_some_iff.mp hresult
      have htemplate := textSize_eq_some hsized
      simp only at hlater
      split at hlater
      · rename_i hmarker
        obtain ⟨⟨middle, next⟩, harguments, hrest⟩ := Option.bind_eq_some_iff.mp hlater
        obtain ⟨part, htexts, rfl⟩ := renderArguments_eq_some harguments
        obtain ⟨parts, hparts, hfinal⟩ := ih hrest
        refine ⟨part :: parts, .cons ⟨sized.1, htemplate, .inl ⟨hmarker, htexts⟩⟩ hparts, ?_⟩
        rw [hfinal, List.flatten_cons, List.append_assoc]
      · rename_i hmarker
        split at hlater
        · cases hlater
        obtain ⟨⟨bytes, middle⟩, hsubstitute, hclosed⟩ := Option.bind_eq_some_iff.mp hlater
        obtain ⟨next, -, hrest⟩ := Option.bind_eq_some_iff.mp hclosed
        obtain ⟨parts, hparts, hfinal⟩ := ih hrest
        have hbytes := Scratch.substitute_eq_some hsubstitute
        rw [List.nil_append] at hbytes
        obtain rfl : bytes = _ := hbytes
        have hnul := @Scratch.notMem_substituteFrom name _ sized.1.nulFree 0
        have hspec : Substituted nameMarker name.bytes sized.1.bytes
            (CString.ofBuffer (substituteFrom nameMarker name.bytes 0 sized.1.bytes)).bytes := by
          rw [CString.ofBuffer_bytes hnul]
          exact substituted_spec nameMarker_ne_nil sized.1.bytes
        refine ⟨[_] :: parts, .cons ⟨sized.1, htemplate, .inr ⟨hmarker, _, rfl, hspec⟩⟩ hparts, ?_⟩
        rw [hfinal, List.flatten_cons, List.append_assoc]

/-- A command that is rendered says what its templates stand for. -/
theorem render_eq_some {request : ServiceRequest} {input : ServiceArgs} {used : Nat}
    {result : List CString × Nat} (hresult : render config request input used = some result) :
    ∃ name, request.name = some name ∧
      VectorRendered request.arguments.texts name input.texts result.1 := by
  obtain ⟨sized, hsized, hlater⟩ := Option.bind_eq_some_iff.mp hresult
  refine ⟨sized.1, textSize_eq_some hsized, ?_⟩
  simp only at hlater
  split at hlater
  · cases hlater
  obtain ⟨⟨rendered, next⟩, hrendered, hclosed⟩ := Option.bind_eq_some_iff.mp hlater
  obtain ⟨parts, hparts, hfinal⟩ := renderTemplates_eq_some hrendered
  obtain ⟨total, -, hpure⟩ := Option.bind_eq_some_iff.mp hclosed
  refine ⟨parts, hparts, ?_⟩
  rw [← Option.some.inj hpure]
  exact hfinal

/-- The templates of a command. -/
def ServiceProfile.templates (profile : ServiceProfile) : CommandSlot → ServiceArgs
  | .status => profile.status
  | .start => profile.start
  | .stop => profile.stop

theorem renderProfile_eq_some {request : ServiceRequest} {profile : ServiceProfile}
    {result : CString × (CommandSlot → List CString)}
    (hresult : renderProfile config request profile = some result) :
    profile.program = some result.1 ∧ ∀ slot, ∃ name, request.name = some name ∧
      VectorRendered request.arguments.texts name (profile.templates slot).texts (result.2 slot) := by
  rw [renderProfile] at hresult
  split at hresult
  · cases hresult
  obtain ⟨program, hprogram, hlater⟩ := Option.bind_eq_some_iff.mp hresult
  obtain ⟨status, hstatus, hlater⟩ := Option.bind_eq_some_iff.mp hlater
  obtain ⟨start, hstart, hlater⟩ := Option.bind_eq_some_iff.mp hlater
  obtain ⟨stop, hstop, hlater⟩ := Option.bind_eq_some_iff.mp hlater
  rw [← Option.some.inj hlater]
  refine ⟨copy_eq_some hprogram, ?_⟩
  rintro (_ | _ | _)
  · exact render_eq_some hstatus
  · exact render_eq_some hstart
  · exact render_eq_some hstop

/-- A request that is prepared has a profile, and its commands are those of the profile. -/
theorem prepare_eq_ok {request : ServiceRequest} {prepared : Prepared}
    (hprepared : prepare config request = .ok prepared) :
    ∃ profile, request.profile = some profile ∧ profile.program = some prepared.program ∧
      ∀ slot, ∃ name, request.name = some name ∧ VectorRendered request.arguments.texts name
        (profile.templates slot).texts (prepared.arguments slot) := by
  rw [prepare] at hprepared
  split at hprepared
  · cases hprepared
  split at hprepared
  · cases hprepared
  · cases hprepared
  rename_i profile _ hprofile
  split at hprepared
  · cases hprepared
  rename_i program arguments hrendered
  obtain rfl := Except.ok.inj hprepared
  obtain ⟨hprogram, hvectors⟩ := renderProfile_eq_some hrendered
  exact ⟨profile, hprofile, hprogram, hvectors⟩

end Templates

/-! ## The scratch and what is run -/

/-- The bytes that a program and three commands take, with the addresses of the commands. -/
def commandBytes (program : CString) (vectors : CommandSlot → List CString) : Nat :=
  ((program :: (vectors .status ++ (vectors .start ++ vectors .stop))).map
      fun text => text.length + 1).sum +
    ((vectors .status).length + 1 + ((vectors .start).length + 1) +
      ((vectors .stop).length + 1)) * 8

/-- The bounds of a configuration. -/
def WithinBounds (config : ServiceConfig) (program : CString)
    (vectors : CommandSlot → List CString) : Prop :=
  (∀ slot, (vectors slot).length ≤ config.maxArguments) ∧
    commandBytes program vectors ≤ config.maxMetadataBytes

/-- The commands that a request asks for. -/
def CommandsOf (request : ServiceRequest) (program : CString)
    (vectors : CommandSlot → List CString) : Prop :=
  ∃ profile, request.profile = some profile ∧ profile.program = some program ∧
    ∀ slot, ∃ name, request.name = some name ∧ VectorRendered request.arguments.texts name
      (profile.templates slot).texts (vectors slot)

theorem CommandsOf.unique {request : ServiceRequest} {first second : CString}
    {firsts seconds : CommandSlot → List CString} (hfirst : CommandsOf request first firsts)
    (hsecond : CommandsOf request second seconds) : first = second ∧ firsts = seconds := by
  obtain ⟨profile, hprofile, hprogram, hvectors⟩ := hfirst
  obtain ⟨profile', hprofile', hprogram', hvectors'⟩ := hsecond
  obtain rfl := Option.some.inj (hprofile.symm.trans hprofile')
  refine ⟨Option.some.inj (hprogram.symm.trans hprogram'), funext fun slot => ?_⟩
  obtain ⟨name, hname, hvector⟩ := hvectors slot
  obtain ⟨name', hname', hvector'⟩ := hvectors' slot
  obtain rfl := Option.some.inj (hname.symm.trans hname')
  exact hvector.unique hvector'

/-- The commands of a scratch are within the bounds. -/
theorem Scratch.Layout.within {config : ServiceConfig} {scratch : Scratch}
    {program : Nat × CString} {vectors : CommandSlot → List (Nat × CString)}
    (hlayout : Scratch.Layout config scratch program vectors) :
    scratch.used = commandBytes program.2 (fun slot => (vectors slot).map Prod.snd) ∧
      WithinBounds config program.2 (fun slot => (vectors slot).map Prod.snd) := by
  have hbytes : scratch.used =
      commandBytes program.2 (fun slot => (vectors slot).map Prod.snd) := by
    rw [hlayout.used_eq, commandBytes]
    simp only [Scratch.space, List.map_cons, List.map_append, List.map_map, List.length_map]
    rfl
  refine ⟨hbytes, fun slot => ?_, ?_⟩
  · rw [List.length_map]
    exact hlayout.bounded slot
  · rw [← hbytes]
    exact hlayout.holding.used_le

/-- A request that is refused runs nothing. -/
theorem execute_refused {control : ServiceControl} {request : ServiceRequest} {refusal : Refusal}
    (hrefused : prepare control.config request = .error refusal) (host : ServiceHost)
    (rounds : Nat) :
    ∀ event ∈ (praktorServiceControlExecute control request host rounds).2.trace,
      ∃ reading, event = .clock reading := by
  rw [praktorServiceControlExecute]
  split
  · intro event hmem
    cases hmem
  · have houtcome : ∃ ok last, Interaction.outcome
        (Service.execute control.config request host rounds) {} = (some ok, last) ∧
          ∃ first second, last.trace = [.clock first, .clock second] := by
      unfold Service.execute
      rw [hrefused]
      exact ⟨_, _, rfl, _, _, rfl⟩
    obtain ⟨ok, last, houtcome, first, second, htrace⟩ := houtcome
    rw [houtcome]
    intro event hmem
    rw [htrace] at hmem
    rcases List.mem_cons.mp hmem with rfl | hlast
    · exact ⟨first, rfl⟩
    · exact ⟨second, List.mem_singleton.mp hlast⟩

/-- What `prepare` makes of a request, on a scratch with any content. -/
structure CommandsPrepared (config : ServiceConfig) (request : ServiceRequest)
    (scratch : Scratch) : Prop where
  /-- No access leaves an array. -/
  inside : Scratch.prepare config request scratch ≠ none
  /-- A request that is accepted has its commands in the scratch. -/
  accepted : ∀ out budget, Scratch.prepare config request scratch = some (.ok (out, budget)) →
    ∃ program vectors, Scratch.Layout config out program vectors ∧
      CommandsOf request program.2 (fun slot => (vectors slot).map Prod.snd) ∧
      WithinBounds config program.2 (fun slot => (vectors slot).map Prod.snd) ∧
      out.used = commandBytes program.2 (fun slot => (vectors slot).map Prod.snd)
  /-- Commands that exceed a bound are refused. -/
  exceeding : ∀ program vectors, CommandsOf request program vectors →
    ¬ WithinBounds config program vectors →
    ∃ refusal, Scratch.prepare config request scratch = some (.error refusal)
  /-- A request that is refused runs nothing. -/
  undispatched : ∀ refusal, Scratch.prepare config request scratch = some (.error refusal) →
    ∀ (control : ServiceControl) (host : ServiceHost) (rounds : Nat), control.config = config →
      ∀ event ∈ (praktorServiceControlExecute control request host rounds).2.trace,
        ∃ reading, event = .clock reading

/-- The storage of a control as `praktor_service_control_init` leaves it, and whatever was
prepared on it since. -/
structure ServiceStorage where
  config : ServiceConfig
  admits : Scratch.Admits config
  scratch : Scratch
  metadata_length : scratch.metadata.length = config.maxMetadataBytes
  argv_length : scratch.argv.length = 3 * config.maxArguments

/-- The commands of a service are rendered exactly and within the bounds before anything
runs. -/
theorem commandsPrepared (storage : ServiceStorage) (request : ServiceRequest) :
    CommandsPrepared storage.config request storage.scratch := by
  obtain ⟨config, hadmits, scratch, hmetadata, hargv⟩ := storage
  simp only
  have hagrees := Scratch.prepare_agrees hadmits request scratch hmetadata hargv
  cases hmodel : prepare config request with
  | error refusal =>
      rw [hmodel] at hagrees
      simp only at hagrees
      constructor
      · rw [hagrees]
        exact Option.some_ne_none _
      · intro out budget haccepted
        rw [hagrees] at haccepted
        cases haccepted
      · exact fun _ _ _ _ => ⟨refusal, hagrees⟩
      · rintro _ - control host rounds rfl
        exact execute_refused hmodel host rounds
  | ok prepared =>
      rw [hmodel] at hagrees
      obtain ⟨out, program, vectors, hprepared, hprogram, hvectors, hlayout⟩ := hagrees
      have hcommands : CommandsOf request program.2 (fun slot => (vectors slot).map Prod.snd) := by
        obtain ⟨profile, hprofile, hnamed, hrendered⟩ := prepare_eq_ok hmodel
        refine ⟨profile, hprofile, hprogram ▸ hnamed, fun slot => ?_⟩
        simp only [hvectors slot]
        exact hrendered slot
      constructor
      · rw [hprepared]
        exact Option.some_ne_none _
      · intro other budget haccepted
        rw [hprepared] at haccepted
        obtain ⟨rfl, -⟩ := Prod.mk.inj (Except.ok.inj (Option.some.inj haccepted))
        exact ⟨program, vectors, hlayout, hcommands, hlayout.within.2, hlayout.within.1⟩
      · intro other others hother hexceeds
        obtain ⟨rfl, rfl⟩ := hother.unique hcommands
        exact absurd hlayout.within.2 hexceeds
      · intro refusal hrefused
        rw [hprepared] at hrefused
        cases hrefused

end Praktor.Process
