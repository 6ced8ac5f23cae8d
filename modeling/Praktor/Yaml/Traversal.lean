/-
# What a traversal of a document costs

The nodes of a document may be shared and may refer back to nodes above.  Three traversals
follow them: the loop over aliases, the conversion to JSON values and the orchestration
parser.  Each comes to an end, and what it builds is bounded, on every document.
-/

import Praktor.Yaml.OrchestrationMemory
import Praktor.Yaml.Value

namespace Praktor.Yaml

open Praktor.Data Praktor.Workflow

namespace YamlDocument

variable {document : YamlDocument}

/-! ## Aliases -/

variable (document) in
/-- One round of the loop of `resolve_alias` with the hops so far: the next node, or a result. -/
def aliasRound (node hops : Nat) : Nat ⊕ Option Nat :=
  match (document.cells[node]?).map YamlCell.content with
  | some (.alias (some target)) =>
      if target = node then .inr (some node)
      else if hops = maxAliasHops then .inr none
      else .inl target
  | _ => .inr (some node)

variable (document) in
/-- The loop of `resolve_alias` for so many rounds. -/
def aliasLoop : Nat → Nat → Nat → Option (Option Nat)
  | 0, _, _ => none
  | rounds + 1, node, hops =>
      match document.aliasRound node hops with
      | .inr result => some result
      | .inl target => aliasLoop rounds target (hops + 1)

/-- The loop ends with one round more than there are hops left. -/
theorem aliasLoop_eq (left more : Nat) {hops : Nat} (hhops : hops + left = maxAliasHops)
    (node : Nat) :
    document.aliasLoop (left + 1 + more) node hops = some (document.followAlias left node) := by
  induction left generalizing node hops with
  | zero =>
      rw [Nat.zero_add, Nat.add_comm, aliasLoop, followAlias, aliasRound]
      rcases (document.cells[node]?).map YamlCell.content with
        _ | (text | items | pairs | (_ | target)) <;> try rfl
      by_cases hself : target = node
      · simp only [if_pos hself]
      · simp only [if_neg hself, if_pos (show hops = maxAliasHops from hhops)]
  | succ left ih =>
      have hmore : hops ≠ maxAliasHops := by omega
      have hrounds : left + 1 + 1 + more = left + 1 + more + 1 := by omega
      rw [hrounds, aliasLoop, followAlias, aliasRound]
      rcases (document.cells[node]?).map YamlCell.content with
        _ | (text | items | pairs | (_ | target)) <;> try rfl
      by_cases hself : target = node
      · simp only [if_pos hself]
      · simp only [if_neg hself, if_neg hmore]
        exact ih (by omega) _

/-- A conversion ends with a value within the limits, or with a refusal. -/
theorem praktorYamlValue_ends (library : ValueLibrary) (node : YamlNode) :
    ∃ result : Except Bytes Json,
      (∀ calls, maxValueDepth + 1 ≤ calls →
        document.praktorYamlValue library calls node = result.mapError .refused) ∧
      ∀ value, result = .ok value →
        (jsonSize value).depth ≤ maxValueDepth ∧ (jsonSize value).nodes ≤ maxValueNodes := by
  have hbounded := @convertValue_bounded document library (maxValueDepth + 1) node 1 maxValueNodes
    (Nat.le_of_eq (Nat.add_comm _ _)) (Nat.succ_pos _)
  have hmore (calls : Nat) (hcalls : maxValueDepth + 1 ≤ calls) :
      document.praktorYamlValue library calls node =
        document.praktorYamlValue library (maxValueDepth + 1) node := by
    obtain ⟨more, rfl⟩ := Nat.exists_eq_add_of_le hcalls
    rw [praktorYamlValue, praktorYamlValue, convertValue_more (maxValueDepth + 1) more node
      maxValueNodes (Nat.le_of_eq (Nat.add_comm _ _)) (Nat.succ_pos _)]
  cases hconverted : document.convertValue library (maxValueDepth + 1) node 1 maxValueNodes with
  | error stop =>
      rw [hconverted] at hbounded
      cases stop with
      | unfinished => exact absurd hbounded id
      | refused text =>
          refine ⟨.error text, fun calls hcalls => ?_, nofun⟩
          rw [hmore calls hcalls, praktorYamlValue, hconverted]
          rfl
  | ok converted =>
      obtain ⟨value, left⟩ := converted
      rw [hconverted] at hbounded
      obtain ⟨hdepth, hnodes⟩ := hbounded
      refine ⟨.ok value, fun calls hcalls => ?_, ?_⟩
      · rw [hmore calls hcalls, praktorYamlValue, hconverted]
        rfl
      · intro other hother
        obtain rfl := Except.ok.inj hother
        exact ⟨by omega, by omega⟩

end YamlDocument

/-! ## The orchestration parser -/

/-- A parser on rows ends with the result of its function, all rows inside of their memory. -/
def EndsWithin (program : Build Unit) (result : Except Refusal NamedRows) : Prop :=
  ∃ build, NamedBuild.outcome program .start =
      ((result.map fun _ => ()).mapError .refused, build) ∧
    build.rows.length = maxOrchNodes ∧ build.count ≤ maxOrchNodes ∧
    ∀ rows, result = .ok rows → build.live = rows

theorem NamedBuild.Follows.endsWithin {program : Build Unit}
    {function : NamedRows → Except Refusal NamedRows}
    (hfollows : NamedBuild.Follows 0 program function) : EndsWithin program (function []) := by
  obtain ⟨hfits, -, hmatches⟩ := hfollows .start NamedBuild.start_fits (Nat.zero_le _)
  have hlive : NamedBuild.start.live = [] := rfl
  rw [hlive] at hmatches
  refine ⟨(NamedBuild.outcome program .start).2, ?_, hfits.rows_eq, hfits.count_le, ?_⟩
  · cases hresult : function [] with
    | error refusal =>
        rw [hresult] at hmatches
        exact Prod.ext hmatches rfl
    | ok rows =>
        rw [hresult] at hmatches
        obtain ⟨value, hvalue, -⟩ := hmatches
        exact Prod.ext hvalue rfl
  · intro rows hrows
    rw [hrows] at hmatches
    obtain ⟨value, -, hlast⟩ := hmatches
    exact hlast.symm

/-- What holds of every traversal of a document. -/
structure TraversalsBounded (document : YamlDocument) : Prop where
  /-- `resolve_alias` takes one round more than the hops it allows, at the most. -/
  alias_ends : ∀ node rounds, maxAliasHops + 1 ≤ rounds →
    document.aliasLoop rounds node 0 = some (document.resolveAlias (some node))
  /-- `praktor_yaml_value` needs one open call more than its depth, at the most. -/
  value_ends : ∀ library node, ∃ result : Except Bytes Json,
    (∀ calls, maxValueDepth + 1 ≤ calls →
      document.praktorYamlValue library calls node = result.mapError .refused) ∧
    ∀ value, result = .ok value →
      (jsonSize value).depth ≤ maxValueDepth ∧ (jsonSize value).nodes ≤ maxValueNodes
  /-- `parse` needs open calls at the depths up to the limit, and one to refuse. -/
  named_ends : ∀ node calls, namedMaxDepth + 2 ≤ calls →
    EndsWithin (NamedBuild.namedRows document calls node) (document.namedRows node)
  flat_ends : ∀ node nodeType calls, namedMaxDepth + 1 ≤ calls →
    EndsWithin (NamedBuild.flatRows document calls node nodeType) (document.flatRows node nodeType)

/-- Every traversal of every document is bounded. -/
theorem traversals_bounded (document : YamlDocument) : TraversalsBounded document where
  alias_ends := fun node rounds hrounds => by
    obtain ⟨more, rfl⟩ := Nat.exists_eq_add_of_le hrounds
    exact YamlDocument.aliasLoop_eq maxAliasHops more (Nat.zero_add _) node
  value_ends := fun library node => YamlDocument.praktorYamlValue_ends library node
  named_ends := fun node calls hcalls =>
    (NamedBuild.namedRows_follows calls hcalls node).endsWithin
  flat_ends := fun node nodeType calls hcalls =>
    (NamedBuild.flatRows_follows calls hcalls node nodeType).endsWithin

end Praktor.Yaml
