import Mathlib.Data.List.Nodup
import Mathlib.Data.List.Perm.Basic
import Mathlib.Data.List.Flatten

/-!
# Radix trees over an arbitrary child function

A tree of fixed depth is given by a root and a function from a node and an
index to the child there, if there is one.  The function usually reads a
memory, so a tree is not a value of its own: `nodes` lists what the child
function reaches, and the lemmas say how that list depends on the function.

A tree whose list of nodes has no repetition shares no node between two
subtrees.  `nodes_congr` is the frame rule that follows: a change to the child
function outside the listed nodes leaves the list alone.
-/

namespace Rt64.Lib.RadixTree

variable {Node : Type*} {arity : Nat}
variable {child child' : Node → Nat → Option Node}

/-- The nodes of the tree of the given depth below `root`, root first. -/
def nodes (arity : Nat) (child : Node → Nat → Option Node) :
    Nat → Node → List Node
  | 0, _ => []
  | depth + 1, root =>
      root :: (List.range arity).flatMap fun index =>
        match child root index with
        | none => []
        | some next => nodes arity child depth next

/-- The nodes below one index of `root`. -/
def branch (arity : Nat) (child : Node → Nat → Option Node)
    (depth : Nat) (root : Node) (index : Nat) : List Node :=
  match child root index with
  | none => []
  | some next => nodes arity child depth next

theorem nodes_succ (depth : Nat) (root : Node) :
    nodes arity child (depth + 1) root =
      root :: (List.range arity).flatMap
        (branch arity child depth root) :=
  rfl

@[simp]
theorem nodes_one (root : Node) : nodes arity child 1 root = [root] := by
  rw [nodes_succ]
  have empty : ∀ index ∈ List.range arity,
      branch arity child 0 root index = [] := by
    intro index _
    unfold branch
    split <;> rfl
  rw [List.flatMap_eq_nil_iff.mpr empty]

theorem branch_of_none {depth index : Nat} {root : Node}
    (absent : child root index = none) :
    branch arity child depth root index = [] := by
  simp [branch, absent]

theorem branch_of_some {depth index : Nat} {root next : Node}
    (present : child root index = some next) :
    branch arity child depth root index = nodes arity child depth next := by
  simp [branch, present]

theorem root_mem (depth : Nat) (root : Node) :
    root ∈ nodes arity child (depth + 1) root := by
  rw [nodes_succ]
  exact List.mem_cons_self

theorem branch_subset {depth index : Nat} {root node : Node}
    (bound : index < arity)
    (member : node ∈ branch arity child depth root index) :
    node ∈ nodes arity child (depth + 1) root := by
  rw [nodes_succ]
  exact List.mem_cons_of_mem root
    (List.mem_flatMap.mpr ⟨index, List.mem_range.mpr bound, member⟩)

theorem child_subset {depth index : Nat} {root next node : Node}
    (bound : index < arity) (present : child root index = some next)
    (member : node ∈ nodes arity child depth next) :
    node ∈ nodes arity child (depth + 1) root :=
  branch_subset bound (by rwa [branch_of_some present])

/-! ## Trees without sharing -/

section Distinct

variable {depth : Nat} {root : Node}

theorem root_not_mem_branch
    (distinct : (nodes arity child (depth + 1) root).Nodup)
    {index : Nat} (bound : index < arity) :
    root ∉ branch arity child depth root index := by
  intro member
  rw [nodes_succ, List.nodup_cons] at distinct
  exact distinct.1
    (List.mem_flatMap.mpr ⟨index, List.mem_range.mpr bound, member⟩)

theorem branch_nodup
    (distinct : (nodes arity child (depth + 1) root).Nodup)
    {index : Nat} (bound : index < arity) :
    (branch arity child depth root index).Nodup := by
  rw [nodes_succ, List.nodup_cons, List.nodup_flatMap] at distinct
  exact distinct.2.1 index (List.mem_range.mpr bound)

theorem branch_disjoint_of_lt
    (distinct : (nodes arity child (depth + 1) root).Nodup)
    {first second : Nat} (secondBound : second < arity)
    (ordered : first < second) :
    List.Disjoint (branch arity child depth root first)
      (branch arity child depth root second) := by
  rw [nodes_succ, List.nodup_cons, List.nodup_flatMap] at distinct
  have apart := List.pairwise_iff_getElem.mp distinct.2.2 first second
    (by simpa using Nat.lt_trans ordered secondBound) (by simpa using secondBound)
    ordered
  simpa [Function.onFun] using apart

/-- Two different subtrees have no node in common. -/
theorem branch_disjoint
    (distinct : (nodes arity child (depth + 1) root).Nodup)
    {first second : Nat} (firstBound : first < arity)
    (secondBound : second < arity) (different : first ≠ second) :
    List.Disjoint (branch arity child depth root first)
      (branch arity child depth root second) := by
  rcases Nat.lt_or_gt_of_ne different with before | after
  · exact branch_disjoint_of_lt distinct secondBound before
  · intro node inFirst inSecond
    exact branch_disjoint_of_lt distinct firstBound after inSecond inFirst

end Distinct

/-! ## Dependence on the child function -/

/-- The nodes depend only on the children of the nodes themselves. -/
theorem nodes_congr (depth : Nat) (root : Node)
    (agree : ∀ node ∈ nodes arity child depth root,
      ∀ index < arity, child' node index = child node index) :
    nodes arity child' depth root = nodes arity child depth root := by
  induction depth generalizing root with
  | zero => rfl
  | succ depth induction =>
      have sameBranch : ∀ index ∈ List.range arity,
          branch arity child' depth root index =
            branch arity child depth root index := by
        intro index member
        have bound := List.mem_range.mp member
        have sameChild :=
          agree root (root_mem depth root) index bound
        cases present : child root index with
        | none =>
            rw [branch_of_none present,
              branch_of_none (sameChild.trans present)]
        | some next =>
            rw [branch_of_some present,
              branch_of_some (sameChild.trans present)]
            apply induction next
            intro node nodeMember
            exact agree node (child_subset bound present nodeMember)
      rw [nodes_succ, nodes_succ, List.flatMap_congr sameBranch]

/-- Adding to one of the lists joined by `flatMap` adds to the result. -/
theorem perm_flatMap_of_branch {Index : Type*} {Item : Type*}
    {indices : List Index} {before after : Index → List Item}
    {extra : List Item} {changed : Index}
    (distinct : indices.Nodup) (member : changed ∈ indices)
    (others : ∀ index ∈ indices, index ≠ changed →
      after index = before index)
    (grown : (after changed).Perm (before changed ++ extra)) :
    (indices.flatMap after).Perm (indices.flatMap before ++ extra) := by
  induction indices with
  | nil => simp at member
  | cons head rest induction =>
      rw [List.nodup_cons] at distinct
      rw [List.flatMap_cons, List.flatMap_cons, List.append_assoc]
      rcases List.mem_cons.mp member with rfl | later
      · have sameRest : rest.flatMap after = rest.flatMap before := by
          apply List.flatMap_congr
          intro index inRest
          apply others index (List.mem_cons_of_mem changed inRest)
          rintro rfl
          exact distinct.1 inRest
        rw [sameRest]
        refine (grown.append_right _).trans ?_
        rw [List.append_assoc]
        exact List.perm_append_comm.append_left _
      · have sameHead : after head = before head := by
          apply others head List.mem_cons_self
          rintro rfl
          exact distinct.1 later
        rw [sameHead]
        refine (induction distinct.2 later ?_).append_left _
        intro index inRest
        exact others index (List.mem_cons_of_mem head inRest)

/-- Growth of one subtree is growth of the tree. -/
theorem nodes_grow {depth : Nat} {root : Node} {extra : List Node}
    {changed : Nat} (bound : changed < arity)
    (others : ∀ index < arity, index ≠ changed →
      branch arity child' depth root index =
        branch arity child depth root index)
    (grown : (branch arity child' depth root changed).Perm
      (branch arity child depth root changed ++ extra)) :
    (nodes arity child' (depth + 1) root).Perm
      (nodes arity child (depth + 1) root ++ extra) := by
  rw [nodes_succ, nodes_succ, List.cons_append]
  apply List.Perm.cons
  apply perm_flatMap_of_branch List.nodup_range
    (List.mem_range.mpr bound) _ grown
  intro index member
  exact others index (List.mem_range.mp member)

end Rt64.Lib.RadixTree
