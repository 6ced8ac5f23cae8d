/-
# One spelling for three matchers

Names are compared by the constructor of trees, by the parser of named maps and by the parser of
flat maps, each with a loop of its own.  All three say that two names are the same when they are
equal without underscores and in lower case, which is an equivalence.  So the parser replaces an
alias, finds a required parameter, and the constructor writes a canonical key, for exactly the
same spellings.
-/

import Praktor.Yaml.OrchestrationRows

namespace Praktor.Yaml

open Praktor.Data Praktor.Workflow

theorem flatKeyLoop_iff (fuel : Nat) (actual expected : Bytes) (hfuel : actual.length < fuel) :
    flatKeyLoop fuel actual expected = true ↔ foldName actual = foldName expected := by
  induction fuel generalizing actual expected with
  | zero => exact absurd hfuel (Nat.not_lt_zero _)
  | succ fuel ih =>
      rw [flatKeyLoop, ← foldName_dropWhile actual, ← foldName_dropWhile expected]
      cases hactual : actual.dropWhile (· = 95) with
      | nil =>
          cases hexpected : expected.dropWhile (· = 95) with
          | nil => simp
          | cons second others =>
              rw [foldName_cons (ne_of_dropWhile_eq_cons hexpected)]
              simp [foldName]
      | cons first rest =>
          cases hexpected : expected.dropWhile (· = 95) with
          | nil =>
              rw [foldName_cons (ne_of_dropWhile_eq_cons hactual)]
              simp [foldName]
          | cons second others =>
              have hshorter : rest.length < actual.length := by
                have hlength := (List.dropWhile_sublist (l := actual) (· = 95)).length_le
                rw [hactual, List.length_cons] at hlength
                exact hlength
              rw [foldName_cons (ne_of_dropWhile_eq_cons hactual),
                foldName_cons (ne_of_dropWhile_eq_cons hexpected)]
              simp [ih rest others (by omega)]

theorem flatKeyMatches_iff (actual expected : Bytes) :
    flatKeyMatches actual expected = true ↔ foldName actual = foldName expected :=
  flatKeyLoop_iff _ actual expected (Nat.lt_succ_self _)

/-- Two names are spellings of one name. -/
def SameName (first second : CString) : Prop := foldName first.bytes = foldName second.bytes

instance (first second : CString) : Decidable (SameName first second) := by
  unfold SameName
  infer_instance

theorem sameName_equivalence : Equivalence SameName where
  refl := fun _ => rfl
  symm := Eq.symm
  trans := Eq.trans

/-- What the three matchers of names have in common, and where they are used. -/
structure MatchersAgree : Prop where
  constructor : ∀ first second : CString,
    orchNameIs first.bytes second.bytes = true ↔ SameName first second
  named : ∀ first second : CString, keyIs first.bytes second.bytes = true ↔ SameName first second
  flat : ∀ first second : CString,
    flatKeyMatches first.bytes second.bytes = true ↔ SameName first second
  equivalence : Equivalence SameName
  /-- The parameter of a row that a new one replaces. -/
  replaced : ∀ (params : List (CString × CString)) (key : CString),
    (params.findIdx? fun param => keyIs param.1.bytes key.bytes) =
      params.findIdx? fun param => SameName param.1 key
  /-- A required parameter of a row is there. -/
  required : ∀ (params : List (CString × CString)) (name : CString),
    (params.any fun param => keyIs param.1.bytes name.bytes) = true ↔
      ∃ param ∈ params, SameName param.1 name
  /-- The canonical key of a parameter, for the parser and for the constructor. -/
  canonical : ∀ (spec : OrchSpec) (key : CString),
    canonicalParam spec key.bytes =
      ((spec.required ++ spec.optional).find? fun name =>
        foldName key.bytes = foldName (ascii name)) ∧
    orchParamKey spec key.bytes = (canonicalParam spec key.bytes).map .literal

/-- The three matchers agree on all names. -/
theorem matchers_agree : MatchersAgree where
  constructor := fun _ _ => orchNameIs_iff _ _
  named := fun _ _ => keyIs_iff _ _
  flat := fun _ _ => flatKeyMatches_iff _ _
  equivalence := sameName_equivalence
  replaced := by
    intro params key
    congr 1
    funext param
    rw [Bool.eq_iff_iff, keyIs_iff, decide_eq_true_eq]
    rfl
  required := by
    intro params name
    rw [List.any_eq_true]
    simp only [keyIs_iff, SameName]
  canonical := by
    intro spec key
    refine ⟨?_, orchParamKey_eq spec key.bytes⟩
    rw [canonicalParam]
    congr 1
    funext name
    rw [Bool.eq_iff_iff, keyIs_iff, decide_eq_true_eq]

end Praktor.Yaml
