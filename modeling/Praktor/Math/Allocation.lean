/-
# Computations that ask for memory

A computation that asks for blocks is a tree: each request goes on with the block it is
given or with none.  The requests in a run without failures are its spine.  As any run
follows the spine up to its first failure, what can be said of all runs is said of the
end of the spine and of the branches that leave it.

A block is known by the number of the request that returned it, so no two blocks of a run
are the same.
-/

import Mathlib.Data.List.Nodup

namespace Praktor.Math

universe u v

/-- A computation with requests for memory, each with its purpose. -/
inductive Allocating (ι : Type u) (α : Type v)
  | done (result : α)
  | request (purpose : ι) (next : Option Nat → Allocating ι α)

/-- The requests made so far and the blocks they returned. -/
structure Heap where
  requests : Nat
  live : List Nat

namespace Heap

/-- A request that returns a block. -/
def grant (heap : Heap) : Heap := ⟨heap.requests + 1, heap.live ++ [heap.requests]⟩

/-- A request that fails. -/
def deny (heap : Heap) : Heap := ⟨heap.requests + 1, heap.live⟩

/-- Blocks are numbered by their requests. -/
def Numbered (heap : Heap) : Prop := heap.live.Nodup ∧ ∀ block ∈ heap.live, block < heap.requests

theorem Numbered.grant {heap : Heap} (hnumbered : heap.Numbered) : heap.grant.Numbered := by
  refine ⟨?_, fun block hblock => ?_⟩
  · have hnew : heap.requests ∉ heap.live := fun hmem =>
      Nat.lt_irrefl _ (hnumbered.2 _ hmem)
    rw [Heap.grant, ← List.concat_eq_append]
    exact hnumbered.1.concat hnew
  · rcases List.mem_append.mp hblock with hblock | hblock
    · exact Nat.lt_succ_of_lt (hnumbered.2 block hblock)
    · rw [List.mem_singleton.mp hblock]
      exact Nat.lt_succ_self _

theorem Numbered.deny {heap : Heap} (hnumbered : heap.Numbered) : heap.deny.Numbered :=
  ⟨hnumbered.1, fun block hblock => Nat.lt_succ_of_lt (hnumbered.2 block hblock)⟩

end Heap

namespace Allocating

variable {ι : Type u} {α : Type v} {β : Type v}

/-- One computation after another. -/
protected def bind : Allocating ι α → (α → Allocating ι β) → Allocating ι β
  | .done result, later => later result
  | .request purpose next, later => .request purpose fun block => (next block).bind later

instance : Monad (Allocating ι) where
  pure := .done
  bind := .bind

/-- Ask for one block. -/
def ask (purpose : ι) : Allocating ι (Option Nat) := .request purpose .done

/-- The run on a list of outcomes, first request first, with `none` for a failure; once the
list is used up every request succeeds. -/
def run : Allocating ι α → Heap → List (Option Nat) → (α × Heap) × List (Option Nat)
  | .done result, heap, outcomes => ((result, heap), outcomes)
  | .request _ next, heap, [] => run (next (some heap.requests)) heap.grant []
  | .request _ next, heap, some _ :: outcomes => run (next (some heap.requests)) heap.grant outcomes
  | .request _ next, heap, none :: outcomes => run (next none) heap.deny outcomes

/-- The purposes of the requests in a run without failures. -/
def purposes : Allocating ι α → Heap → List ι
  | .done _, _ => []
  | .request purpose next, heap => purpose :: purposes (next (some heap.requests)) heap.grant

/-- The request that fails first. -/
def firstFailure (outcomes : List (Option Nat)) : Option Nat := outcomes.findIdx? Option.isNone

theorem run_bind (first : Allocating ι α) (later : α → Allocating ι β) (heap : Heap)
    (outcomes : List (Option Nat)) :
    (first >>= later).run heap outcomes =
      (later (first.run heap outcomes).1.1).run (first.run heap outcomes).1.2
        (first.run heap outcomes).2 := by
  induction first generalizing heap outcomes with
  | done result => rfl
  | request purpose next ih =>
      match outcomes with
      | [] => exact ih _ _ _
      | some _ :: rest => exact ih _ _ _
      | none :: rest => exact ih _ _ _

/-- The end of the spine is right, and so is every run that leaves the spine at a request,
in the way that the purpose of the request allows. -/
def Spine (right : Heap → α → Prop) (left : ι → Heap → α → Prop) : Allocating ι α → Heap → Prop
  | .done result, heap => right heap result
  | .request purpose next, heap =>
      (∀ outcomes : List (Option Nat), left purpose ((next none).run heap.deny outcomes).1.2
        ((next none).run heap.deny outcomes).1.1) ∧
      Spine right left (next (some heap.requests)) heap.grant

variable {right : Heap → α → Prop} {left : ι → Heap → α → Prop}

/-- A run without failures ends as the spine does; any other leaves it at its first
failure. -/
theorem Spine.run {computation : Allocating ι α} {heap : Heap}
    (hspine : Spine right left computation heap) (outcomes : List (Option Nat)) :
    (∃ place purpose, firstFailure outcomes = some place ∧
        (computation.purposes heap)[place]? = some purpose ∧
        left purpose (computation.run heap outcomes).1.2 (computation.run heap outcomes).1.1) ∨
      ((∀ place, firstFailure outcomes = some place →
          (computation.purposes heap).length ≤ place) ∧
        (computation.run heap outcomes).1.2.requests =
          heap.requests + (computation.purposes heap).length ∧
        right (computation.run heap outcomes).1.2 (computation.run heap outcomes).1.1) := by
  induction computation generalizing heap outcomes with
  | done result => exact .inr ⟨fun _ _ => Nat.zero_le _, rfl, hspine⟩
  | request purpose next ih =>
      obtain ⟨hleaves, hspine⟩ := hspine
      match outcomes with
      | [] =>
          rcases ih _ hspine [] with ⟨place, _, hplace, -⟩ | ⟨-, hcount, hright⟩
          · simp [firstFailure] at hplace
          · refine .inr ⟨fun place hplace => by simp [firstFailure] at hplace, ?_, hright⟩
            exact hcount.trans (by simp only [purposes, Heap.grant, List.length_cons]; omega)
      | none :: rest => exact .inl ⟨0, purpose, rfl, rfl, hleaves rest⟩
      | some block :: rest =>
          have hshift : firstFailure (some block :: rest) = (firstFailure rest).map (· + 1) := by
            simp [firstFailure, List.findIdx?_cons]
          rcases ih _ hspine rest with
            ⟨place, found, hplace, hfound, hleft⟩ | ⟨hlater, hcount, hright⟩
          · exact .inl ⟨place + 1, found, by rw [hshift, hplace]; rfl, hfound, hleft⟩
          · refine .inr ⟨fun place hplace => ?_,
              hcount.trans (by simp only [purposes, Heap.grant, List.length_cons]; omega), hright⟩
            rw [hshift] at hplace
            obtain ⟨before, hbefore, rfl⟩ := Option.map_eq_some_iff.mp hplace
            exact Nat.succ_le_succ (hlater before hbefore)

theorem Spine.bind {first : Allocating ι α} {later : α → Allocating ι β} {heap : Heap}
    {right' : Heap → β → Prop} {left' : ι → Heap → β → Prop}
    (hfirst : Spine right left first heap)
    (hright : ∀ heap result, right heap result → Spine right' left' (later result) heap)
    (hleft : ∀ purpose heap result, left purpose heap result →
      ∃ last, later result = .done last ∧ left' purpose heap last) :
    Spine right' left' (first >>= later) heap := by
  induction first generalizing heap with
  | done result => exact hright heap result hfirst
  | request purpose next ih =>
      refine ⟨fun outcomes => ?_, ih _ hfirst.2⟩
      have hleaves := hfirst.1 outcomes
      change left' purpose (((next none) >>= later).run heap.deny outcomes).1.2
        (((next none) >>= later).run heap.deny outcomes).1.1
      rw [run_bind]
      obtain ⟨last, hlast, hleft'⟩ := hleft purpose _ _ hleaves
      rw [hlast]
      exact hleft'

end Allocating

end Praktor.Math
