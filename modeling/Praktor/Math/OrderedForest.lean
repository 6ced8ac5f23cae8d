/-
# Ordered forests

An ordered forest is its first tree, by root and children, and the trees after it.  A
table that lists the children of each place unfolds to at most one forest from given
roots.

Two tables matter.  One grows by single nodes, each the last child of a node that is
already there; from one root it unfolds to a forest that has every place once.  The
other groups the places of a list by the parent that stands at each; on the parents of
a forest in preorder it unfolds to that forest, with positions for nodes.
-/

import Mathlib.Data.List.Range
import Mathlib.Data.List.Perm.Basic

namespace Praktor.Math

/-- An ordered forest. -/
inductive Forest (α : Type*)
  | empty
  | tree (root : α) (children siblings : Forest α)

namespace Forest

variable {α β : Type*}

/-- The roots, in order. -/
def roots : Forest α → List α
  | .empty => []
  | .tree root _ siblings => root :: siblings.roots

/-- Every node, a root before its children and these before its siblings. -/
def preorder : Forest α → List α
  | .empty => []
  | .tree root children siblings => root :: (children.preorder ++ siblings.preorder)

/-- The number of nodes on a longest path. -/
def height : Forest α → Nat
  | .empty => 0
  | .tree _ children siblings => max (children.height + 1) siblings.height

/-- The same forest over other nodes. -/
def map (f : α → β) : Forest α → Forest β
  | .empty => .empty
  | .tree root children siblings => .tree (f root) (children.map f) (siblings.map f)

/-- The trees of one forest, then those of another. -/
def append : Forest α → Forest α → Forest α
  | .empty, later => later
  | .tree root children siblings, later => .tree root children (siblings.append later)

/-- The position in preorder of the parent of each node, counted from `start`; the roots
have the parent given. -/
def parents : Forest α → Option Nat → Nat → List (Option Nat)
  | .empty, _, _ => []
  | .tree _ children siblings, parent, start =>
      parent :: (children.parents (some start) (start + 1) ++
        siblings.parents parent (start + 1 + children.preorder.length))

/-- The forest with the position of each node in its place. -/
def positions : Forest α → Nat → Forest Nat
  | .empty, _ => .empty
  | .tree _ children siblings, start =>
      .tree start (children.positions (start + 1))
        (siblings.positions (start + 1 + children.preorder.length))

/-- A new leaf as the last child of every node that is `parent`. -/
def graft [DecidableEq α] (parent leaf : α) : Forest α → Forest α
  | .empty => .empty
  | .tree root children siblings =>
      .tree root
        (if root = parent then (children.graft parent leaf).append (.tree leaf .empty .empty)
          else children.graft parent leaf)
        (siblings.graft parent leaf)

theorem length_roots_le (forest : Forest α) : forest.roots.length ≤ forest.preorder.length := by
  induction forest with
  | empty => simp [roots]
  | tree root children siblings _ ih =>
      simp only [roots, preorder, List.length_cons, List.length_append]
      omega

theorem preorder_append (first second : Forest α) :
    (first.append second).preorder = first.preorder ++ second.preorder := by
  induction first with
  | empty => rfl
  | tree root children siblings _ ih => simp [append, preorder, ih]

@[simp]
theorem length_parents (forest : Forest α) (parent : Option Nat) (start : Nat) :
    (forest.parents parent start).length = forest.preorder.length := by
  induction forest generalizing parent start with
  | empty => rfl
  | tree root children siblings ihchildren ihsiblings =>
      simp [parents, preorder, ihchildren, ihsiblings]

/-- A parent inside the forest is a position of the forest before the node. -/
theorem parents_cases (forest : Forest α) {parent : Option Nat} {start index : Nat}
    {found : Option Nat} (hfound : (forest.parents parent start)[index]? = some found) :
    found = parent ∨ ∃ position, found = some position ∧ start ≤ position ∧
      position < start + index ∧ position < start + forest.preorder.length := by
  induction forest generalizing parent start index with
  | empty => simp [parents] at hfound
  | tree root children siblings ihchildren ihsiblings =>
      cases index with
      | zero => exact .inl (by simpa [parents, eq_comm] using hfound)
      | succ index =>
          rw [parents, List.getElem?_cons_succ] at hfound
          simp only [preorder, List.length_cons, List.length_append]
          by_cases hindex : index < (children.parents (some start) (start + 1)).length
          · rw [List.getElem?_append_left hindex] at hfound
            rcases ihchildren hfound with rfl | ⟨position, rfl, hstart, hlater, hsize⟩
            · exact .inr ⟨start, rfl, by omega, by omega, by omega⟩
            · exact .inr ⟨position, rfl, by omega, by omega, by omega⟩
          · rw [List.getElem?_append_right (by omega)] at hfound
            simp only [length_parents] at hfound hindex
            rcases ihsiblings hfound with rfl | ⟨position, rfl, hstart, hlater, hsize⟩
            · exact .inl rfl
            · exact .inr ⟨position, rfl, by omega, by omega, by omega⟩

theorem mem_parents (forest : Forest α) {parent : Option Nat} {start : Nat} {found : Option Nat}
    (hfound : found ∈ forest.parents parent start) :
    found = parent ∨ ∃ position, found = some position ∧ start ≤ position ∧
      position < start + forest.preorder.length := by
  obtain ⟨index, hindex⟩ := List.mem_iff_getElem?.mp hfound
  rcases forest.parents_cases hindex with hroot | ⟨position, hposition, hstart, _, hsize⟩
  · exact .inl hroot
  · exact .inr ⟨position, hposition, hstart, hsize⟩

/-- Nodes that agree in preorder give one forest. -/
theorem map_positions (forest : Forest α) (start : Nat) {f : α → β} {g : Nat → β}
    (hagree : ∀ index node, forest.preorder[index]? = some node → g (start + index) = f node) :
    (forest.positions start).map g = forest.map f := by
  induction forest generalizing start with
  | empty => rfl
  | tree root children siblings ihchildren ihsiblings =>
      simp only [positions, map]
      congr 1
      · exact hagree 0 root rfl
      · refine ihchildren (start + 1) fun index node hnode => ?_
        have hbelow := List.getElem?_eq_some_iff.mp hnode
        have hplace := hagree (index + 1) node (by
          rw [preorder, List.getElem?_cons_succ, List.getElem?_append_left hbelow.1, hnode])
        rwa [show start + 1 + index = start + (index + 1) by omega]
      · refine ihsiblings _ fun index node hnode => ?_
        have hplace := hagree (children.preorder.length + index + 1) node (by
          rw [preorder, List.getElem?_cons_succ, List.getElem?_append_right (by omega),
            Nat.add_sub_cancel_left, hnode])
        rwa [show start + 1 + children.preorder.length + index =
          start + (children.preorder.length + index + 1) by omega]

/-! ## Tables -/

/-- A table with the children at each of its places unfolds to a forest. -/
inductive Unfolds (table : Nat → Option (List Nat)) : List Nat → Forest Nat → Prop
  | nil : Unfolds table [] .empty
  | cons {place : Nat} {below rest : List Nat} {children siblings : Forest Nat} :
      table place = some below → Unfolds table below children → Unfolds table rest siblings →
        Unfolds table (place :: rest) (.tree place children siblings)

namespace Unfolds

variable {table : Nat → Option (List Nat)}

theorem unique {places : List Nat} {first second : Forest Nat} (hfirst : Unfolds table places first)
    (hsecond : Unfolds table places second) : first = second := by
  induction hfirst generalizing second with
  | nil =>
      cases hsecond
      rfl
  | cons hplace _ _ ihbelow ihrest =>
      cases hsecond with
      | cons hplace' hbelow hrest =>
          obtain rfl := Option.some.inj (hplace.symm.trans hplace')
          rw [ihbelow hbelow, ihrest hrest]

theorem roots_eq {places : List Nat} {forest : Forest Nat} (hunfolds : Unfolds table places forest) :
    forest.roots = places := by
  induction hunfolds with
  | nil => rfl
  | cons _ _ _ _ ihrest => rw [roots, ihrest]

theorem append {first second : List Nat} {forest later : Forest Nat}
    (hfirst : Unfolds table first forest) (hsecond : Unfolds table second later) :
    Unfolds table (first ++ second) (forest.append later) := by
  induction hfirst with
  | nil => exact hsecond
  | cons hplace hbelow _ _ ihrest => exact .cons hplace hbelow ihrest

/-- A place of the forest is one of the table. -/
theorem isSome_of_mem {places : List Nat} {forest : Forest Nat}
    (hunfolds : Unfolds table places forest) {place : Nat} (hplace : place ∈ forest.preorder) :
    (table place).isSome := by
  induction hunfolds with
  | nil => simp [preorder] at hplace
  | cons hrow _ _ ihbelow ihrest =>
      rcases List.mem_cons.mp hplace with rfl | hplace
      · simp [hrow]
      rcases List.mem_append.mp hplace with hplace | hplace
      · exact ihbelow hplace
      · exact ihrest hplace

/-- A new leaf in the table is a new leaf in the forest. -/
theorem graft {grown : Nat → Option (List Nat)} {parent leaf : Nat}
    (hleaf : grown leaf = some [])
    (hparent : ∀ below, table parent = some below → grown parent = some (below ++ [leaf]))
    (hother : ∀ place below, place ≠ parent → table place = some below → grown place = some below)
    {places : List Nat} {forest : Forest Nat} (hunfolds : Unfolds table places forest) :
    Unfolds grown places (forest.graft parent leaf) := by
  induction hunfolds with
  | nil => exact .nil
  | @cons place below _ _ _ hrow _ _ ihbelow ihrest =>
      rw [Forest.graft]
      split_ifs with hplace
      · subst hplace
        exact .cons (hparent below hrow) (ihbelow.append (.cons hleaf .nil .nil)) ihrest
      · exact .cons (hother place below hplace hrow) ihbelow ihrest

end Unfolds

/-- A graft adds its leaf once for each node that is the parent. -/
theorem count_graft [DecidableEq α] (parent leaf node : α) (forest : Forest α) :
    (forest.graft parent leaf).preorder.count node =
      forest.preorder.count node + if leaf = node then forest.preorder.count parent else 0 := by
  induction forest with
  | empty => simp [graft, preorder]
  | tree root children siblings ihchildren ihsiblings =>
      by_cases hroot : root = parent
      · simp only [graft, if_pos hroot, preorder, preorder_append, List.count_cons,
          List.count_append, List.count_nil, ihchildren, ihsiblings, beq_iff_eq]
        split_ifs <;> omega
      · simp only [graft, if_neg hroot, preorder, List.count_cons, List.count_append, ihchildren,
          ihsiblings, beq_iff_eq]
        split_ifs <;> omega

/-- From its first place the table unfolds to a forest with each of the first places once. -/
structure Spans (table : Nat → Option (List Nat)) (count : Nat) (forest : Forest Nat) : Prop where
  unfolds : Unfolds table [0] forest
  perm : forest.preorder.Perm (List.range count)

/-- A new place, last among the children of an earlier one. -/
theorem Spans.graft {table grown : Nat → Option (List Nat)} {count parent : Nat}
    {forest : Forest Nat} (hspans : Spans table count forest) (hbefore : parent < count)
    (hleaf : grown count = some [])
    (hparent : ∀ below, table parent = some below → grown parent = some (below ++ [count]))
    (hother : ∀ place below, place ≠ parent → table place = some below → grown place = some below) :
    Spans grown (count + 1) (forest.graft parent count) := by
  have honce : forest.preorder.count parent = 1 := by
    rw [hspans.perm.count_eq, List.count_range, if_pos hbefore]
  refine ⟨hspans.unfolds.graft hleaf hparent hother, List.perm_iff_count.mpr fun place => ?_⟩
  rw [count_graft, honce, hspans.perm.count_eq, List.range_succ, List.count_append,
    List.count_singleton]
  simp only [beq_iff_eq]

/-! ## Grouping by parent -/

/-- The places that name a parent, in order, counted from `start`. -/
def placesOf (parent : Option Nat) : List (Option Nat) → Nat → List Nat
  | [], _ => []
  | named :: rest, start =>
      if named = parent then start :: placesOf parent rest (start + 1)
      else placesOf parent rest (start + 1)

/-- The table whose children are grouped by the parents they name. -/
def grouped (named : List (Option Nat)) (place : Nat) : Option (List Nat) :=
  if place < named.length then some (placesOf (some place) named 0) else none

theorem placesOf_append (parent : Option Nat) (first second : List (Option Nat)) (start : Nat) :
    placesOf parent (first ++ second) start =
      placesOf parent first start ++ placesOf parent second (start + first.length) := by
  induction first generalizing start with
  | nil => simp [placesOf]
  | cons named rest ih =>
      have hlater : start + (rest.length + 1) = start + 1 + rest.length := by omega
      simp only [List.cons_append, placesOf, ih, List.length_cons, hlater]
      split_ifs <;> rfl

theorem placesOf_eq_nil {parent : Option Nat} {named : List (Option Nat)}
    (hparent : parent ∉ named) (start : Nat) : placesOf parent named start = [] := by
  induction named generalizing start with
  | nil => rfl
  | cons first rest ih =>
      rw [List.mem_cons, not_or] at hparent
      rw [placesOf, if_neg (Ne.symm hparent.1), ih hparent.2]

/-- A parent from outside the forest is named by the roots alone. -/
theorem placesOf_parents (forest : Forest α) {parent : Option Nat} {start : Nat}
    (hparent : ∀ position, parent = some position → position < start) :
    placesOf parent (forest.parents parent start) start = (forest.positions start).roots := by
  induction forest generalizing start with
  | empty => rfl
  | tree root children siblings _ ihsiblings =>
      have hbelow : parent ∉ children.parents (some start) (start + 1) := by
        intro hmem
        rcases mem_parents _ hmem with hstart | ⟨position, hposition, hlater, _⟩
        · exact Nat.lt_irrefl _ (hparent start hstart)
        · have := hparent position hposition
          omega
      have hlater (position : Nat) (hposition : parent = some position) :
          position < start + 1 + children.preorder.length := by
        have := hparent position hposition
        omega
      rw [parents, placesOf, if_pos rfl, placesOf_append, placesOf_eq_nil hbelow, length_parents,
        ihsiblings hlater]
      rfl

/-- Grouped by its parents, a forest within a list is found at its positions. -/
theorem unfolds_positions (forest : Forest α) {parent : Option Nat} {start : Nat}
    {before after : List (Option Nat)} (hbefore : before.length = start)
    (hparent : ∀ position, parent = some position → position < start)
    (hearlier : ∀ position, some position ∈ before → position < start)
    (hlater : ∀ position, some position ∈ after →
      position < start ∨ start + forest.preorder.length ≤ position) :
    Unfolds (grouped (before ++ forest.parents parent start ++ after))
      (forest.positions start).roots (forest.positions start) := by
  induction forest generalizing parent start before after with
  | empty => exact .nil
  | tree root children siblings ihchildren ihsiblings =>
      have hsize : (tree root children siblings).preorder.length =
          1 + children.preorder.length + siblings.preorder.length := by
        simp only [preorder, List.length_cons, List.length_append]
        omega
      have hsplit : before ++ (tree root children siblings).parents parent start ++ after =
          (before ++ [parent]) ++ children.parents (some start) (start + 1) ++
            (siblings.parents parent (start + 1 + children.preorder.length) ++ after) := by
        simp [parents]
      have hbeside : ∀ position,
          some position ∈ siblings.parents parent (start + 1 + children.preorder.length) ++ after →
            position < start ∨ start + 1 + children.preorder.length ≤ position := by
        intro position hmem
        rcases List.mem_append.mp hmem with hmem | hmem
        · rcases mem_parents _ hmem with hroot | ⟨_, hposition, hstart, _⟩
          · exact .inl (hparent position hroot.symm)
          · exact .inr (Option.some.inj hposition ▸ hstart)
        · have := hlater position hmem
          omega
      have hfirst : ∀ position, some position ∈ before ++ [parent] → position < start := by
        intro position hmem
        rcases List.mem_append.mp hmem with hmem | hmem
        · exact hearlier position hmem
        · exact hparent position (List.mem_singleton.mp hmem).symm
      -- the places that name the root are the roots of its children
      have hrow : grouped (before ++ (tree root children siblings).parents parent start ++ after)
          start = some (children.positions (start + 1)).roots := by
        have hinside : start < (before ++ (tree root children siblings).parents parent start ++
            after).length := by
          simp only [List.length_append, length_parents, hsize]
          omega
        have hnotBefore : some start ∉ before ++ [parent] := fun hmem =>
          Nat.lt_irrefl _ (hfirst start hmem)
        have hnotBeside : some start ∉
            siblings.parents parent (start + 1 + children.preorder.length) ++ after := by
          intro hmem
          have := hbeside start hmem
          omega
        rw [grouped, if_pos hinside, hsplit, placesOf_append, placesOf_append,
          placesOf_eq_nil hnotBefore, placesOf_eq_nil hnotBeside, List.nil_append,
          List.append_nil, Nat.zero_add, List.length_append, List.length_singleton, hbefore]
        exact congrArg some (placesOf_parents _ fun position hposition => by
          have := Option.some.inj hposition
          omega)
      refine .cons hrow ?_ ?_
      · rw [hsplit]
        refine ihchildren (by simp [hbefore]) (fun position hposition => ?_)
          (fun position hmem => Nat.lt_succ_of_lt (hfirst position hmem)) fun position hmem => ?_
        · have := Option.some.inj hposition
          omega
        · have := hbeside position hmem
          omega
      · have hregroup : before ++ (tree root children siblings).parents parent start ++ after =
            (before ++ parent :: children.parents (some start) (start + 1)) ++
              siblings.parents parent (start + 1 + children.preorder.length) ++ after := by
          simp [parents]
        rw [hregroup]
        refine ihsiblings (by simp [hbefore]; omega) (fun position hposition => ?_)
          (fun position hmem => ?_) fun position hmem => ?_
        · have := hparent position hposition
          omega
        · rcases List.mem_append.mp hmem with hmem | hmem
          · have := hearlier position hmem
            omega
          rcases List.mem_cons.mp hmem with hmem | hmem
          · have := hparent position hmem.symm
            omega
          rcases mem_parents _ hmem with hroot | ⟨_, hposition, _, hsize⟩
          · have := Option.some.inj hroot
            omega
          · have := Option.some.inj hposition
            omega
        · have := hlater position hmem
          omega

/-- Grouping the parents of a forest gives the forest back. -/
theorem unfolds_grouped (forest : Forest α) :
    Unfolds (grouped (forest.parents none 0)) (placesOf none (forest.parents none 0) 0)
      (forest.positions 0) := by
  rw [placesOf_parents forest (by simp)]
  have hunfolds := @unfolds_positions _ forest none 0 [] [] rfl (by simp) (by simp) (by simp)
  simpa using hunfolds

/-! ## Numbers of children -/

/-- Every node has a property that may depend on the number of its children. -/
def All (holds : α → Nat → Prop) : Forest α → Prop
  | .empty => True
  | .tree root children siblings =>
      holds root children.roots.length ∧ children.All holds ∧ siblings.All holds

theorem roots_append (first second : Forest α) :
    (first.append second).roots = first.roots ++ second.roots := by
  induction first with
  | empty => rfl
  | tree root children siblings _ ih => simp [append, roots, ih]

theorem All.append {holds : α → Nat → Prop} {first second : Forest α} (hfirst : first.All holds)
    (hsecond : second.All holds) : (first.append second).All holds := by
  induction first with
  | empty => exact hsecond
  | tree root children siblings _ ih => exact ⟨hfirst.1, hfirst.2.1, ih hfirst.2.2⟩

theorem parents_append (first second : Forest α) (parent : Option Nat) (start : Nat) :
    (first.append second).parents parent start =
      first.parents parent start ++ second.parents parent (start + first.preorder.length) := by
  induction first generalizing start with
  | empty => rfl
  | tree root children siblings _ ih =>
      simp only [append, parents, ih, preorder, List.length_cons, List.length_append,
        List.cons_append, List.append_assoc]
      rw [show start + 1 + children.preorder.length + siblings.preorder.length =
        start + (children.preorder.length + siblings.preorder.length + 1) by omega]

theorem count_parents_of_outside (forest : Forest α) {parent : Option Nat} {start position : Nat}
    (hparent : parent ≠ some position)
    (houtside : position < start ∨ start + forest.preorder.length ≤ position) :
    (forest.parents parent start).count (some position) = 0 := by
  refine List.count_eq_zero.mpr fun hmem => ?_
  rcases mem_parents _ hmem with hroot | ⟨found, hfound, hstart, hsize⟩
  · exact hparent hroot.symm
  · have := Option.some.inj hfound
    omega

/-- A parent from outside the forest is named once by each root. -/
theorem count_parents (forest : Forest α) {parent start : Nat} (hparent : parent < start) :
    (forest.parents (some parent) start).count (some parent) = forest.roots.length := by
  induction forest generalizing start with
  | empty => rfl
  | tree root children siblings _ ih =>
      have hroot : some start ≠ some parent := by
        simp only [ne_eq, Option.some.injEq]
        omega
      have hbelow : (children.parents (some start) (start + 1)).count (some parent) = 0 :=
        children.count_parents_of_outside hroot (.inl (by omega))
      simp only [parents, List.count_cons_self, List.count_append, hbelow, roots, List.length_cons,
        ih (by omega : parent < start + 1 + children.preorder.length)]
      omega

/-- In preorder the number of children of a node is how often it is named as a parent. -/
theorem All.count {holds : α → Nat → Prop} {forest : Forest α} (hall : forest.All holds)
    {parent : Option Nat} {start index : Nat} {node : α}
    (hparent : ∀ position, parent = some position → position < start)
    (hnode : forest.preorder[index]? = some node) :
    holds node ((forest.parents parent start).count (some (start + index))) := by
  have hne (position : Nat) (hposition : start ≤ position) : parent ≠ some position := by
    intro hsame
    have := hparent position hsame
    omega
  induction forest generalizing parent start index with
  | empty => simp [preorder] at hnode
  | tree root children siblings ihchildren ihsiblings =>
      obtain ⟨hroot, hchildren, hsiblings⟩ := hall
      rw [parents, List.count_cons_of_ne (hne _ (by omega)), List.count_append]
      cases index with
      | zero =>
          obtain rfl := Option.some.inj hnode
          rw [Nat.add_zero, children.count_parents (Nat.lt_succ_self start),
            siblings.count_parents_of_outside (hne start (Nat.le_refl _)) (.inl (by omega))]
          exact hroot
      | succ index =>
          rw [preorder, List.getElem?_cons_succ] at hnode
          by_cases hindex : index < children.preorder.length
          · rw [List.getElem?_append_left hindex] at hnode
            have hbelow : holds node
                ((children.parents (some start) (start + 1)).count (some (start + 1 + index))) :=
              ihchildren hchildren
                (fun position hposition => Option.some.inj hposition ▸ Nat.lt_succ_self start) hnode
                (fun position hposition => by
                  simp only [ne_eq, Option.some.injEq]
                  omega)
            rw [siblings.count_parents_of_outside (hne _ (by omega)) (.inl (by omega)),
              show start + (index + 1) = start + 1 + index by omega]
            exact hbelow
          · rw [List.getElem?_append_right (by omega)] at hnode
            have hbeside : holds node
                ((siblings.parents parent (start + 1 + children.preorder.length)).count
                  (some (start + 1 + children.preorder.length +
                    (index - children.preorder.length)))) :=
              ihsiblings hsiblings
                (fun position hposition => by
                  have := hparent position hposition
                  omega) hnode
                (fun position hposition => hne position (by omega))
            have hroot : some start ≠ some (start + (index + 1)) := by
              simp only [ne_eq, Option.some.injEq]
              omega
            rw [children.count_parents_of_outside hroot (.inr (by omega)), Nat.zero_add,
              show start + (index + 1) = start + 1 + children.preorder.length +
                (index - children.preorder.length) by omega]
            exact hbeside

end Forest

end Praktor.Math
