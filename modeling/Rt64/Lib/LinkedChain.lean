import Mathlib.Data.List.Nodup

/-!
# Linked chains

A singly linked list is given by a successor function on its cells and a value
that ends it.  `Chain next stop start cells` says that following `next` from
`start` visits exactly `cells`, in order, and then arrives at `stop`.

The cells of a chain are determined by where it starts, and none of them can
be visited twice: a repeated cell would have two different chains.
-/

namespace Rt64.Lib.LinkedChain

variable {Cell : Type*}

/-- The cells met by following `next` from `start` until `stop`. -/
def Chain (next : Cell → Cell) (stop : Cell) : Cell → List Cell → Prop
  | start, [] => start = stop
  | start, cell :: rest =>
      start = cell ∧ start ≠ stop ∧ Chain next stop (next start) rest

variable {next next' : Cell → Cell} {stop start : Cell} {cells : List Cell}

/-- A chain that does not start at its end has a first cell. -/
theorem Chain.exists_cons
    (chain : Chain next stop start cells) (notStop : start ≠ stop) :
    ∃ rest, cells = start :: rest ∧ Chain next stop (next start) rest := by
  cases cells with
  | nil => exact (notStop chain).elim
  | cons cell rest =>
      obtain ⟨rfl, _, tail⟩ := chain
      exact ⟨rest, rfl, tail⟩

/-- A chain is unaffected by successors of cells that are not on it. -/
theorem Chain.congr
    (chain : Chain next stop start cells)
    (agree : ∀ cell ∈ cells, next' cell = next cell) :
    Chain next' stop start cells := by
  induction cells generalizing start with
  | nil => exact chain
  | cons cell rest induction =>
      obtain ⟨rfl, notStop, tail⟩ := chain
      refine ⟨rfl, notStop, ?_⟩
      rw [agree start List.mem_cons_self]
      exact induction tail fun cell member =>
        agree cell (List.mem_cons_of_mem start member)

theorem Chain.unique
    {cells' : List Cell}
    (left : Chain next stop start cells)
    (right : Chain next stop start cells') :
    cells = cells' := by
  induction cells generalizing start cells' with
  | nil =>
      cases cells' with
      | nil => rfl
      | cons cell rest => exact (right.2.1 left).elim
  | cons cell rest induction =>
      obtain ⟨rfl, notStop, tail⟩ := left
      obtain ⟨rest', rfl, tail'⟩ := right.exists_cons notStop
      exact congrArg (List.cons start) (induction tail tail')

/-- Every cell of a chain starts a chain of its own, a suffix of the whole. -/
theorem Chain.drop_at
    (chain : Chain next stop start cells) {cell : Cell}
    (member : cell ∈ cells) :
    ∃ before after,
      cells = before ++ cell :: after ∧
        Chain next stop cell (cell :: after) := by
  induction cells generalizing start with
  | nil => simp at member
  | cons head rest induction =>
      obtain ⟨rfl, notStop, tail⟩ := chain
      rcases List.mem_cons.mp member with rfl | later
      · exact ⟨[], rest, rfl, rfl, notStop, tail⟩
      · obtain ⟨before, after, rfl, suffixChain⟩ := induction tail later
        exact ⟨start :: before, after, rfl, suffixChain⟩

/-- A chain that ends visits no cell twice. -/
theorem Chain.nodup
    (chain : Chain next stop start cells) :
    cells.Nodup := by
  induction cells generalizing start with
  | nil => exact List.nodup_nil
  | cons cell rest induction =>
      obtain ⟨rfl, notStop, tail⟩ := chain
      refine List.nodup_cons.mpr ⟨?_, induction tail⟩
      intro again
      -- a second visit would give `start` a chain shorter than its own
      obtain ⟨before, after, split, suffixChain⟩ := tail.drop_at again
      have whole : Chain next stop start (start :: rest) :=
        ⟨rfl, notStop, tail⟩
      have sameTail : after = rest :=
        (List.cons.inj (suffixChain.unique whole)).2
      have lengths := congrArg List.length split
      rw [sameTail, List.length_append, List.length_cons] at lengths
      omega

end Rt64.Lib.LinkedChain
