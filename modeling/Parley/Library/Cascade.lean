/-
Losses that cause losses.

Each node has a number of free places.  Some nodes are lost at the start, every
loss takes one place of every other node, and a node without a place for a loss
is lost itself.  Whatever the order in which the losses are worked off, the nodes
lost in the end are those of the least set closed under this rule.
-/

import Mathlib.Data.Finset.Card

namespace Parley.Library

structure Cascade (Id : Type*) where
  nodes : Finset Id
  lost : Finset Id
  free : Id → Nat

namespace Cascade

variable {Id : Type*} {cascade : Cascade Id}

/-- The first losses are there, and whoever has fewer places than there are
losses is lost. -/
structure Closed (cascade : Cascade Id) (losses : Finset Id) : Prop where
  first : cascade.lost ⊆ losses
  overflow : ∀ id ∈ cascade.nodes, cascade.free id < losses.card → id ∈ losses

def Least (cascade : Cascade Id) (id : Id) : Prop :=
  ∀ losses, cascade.Closed losses → id ∈ losses

theorem Least.of_lost {id : Id} (lost : id ∈ cascade.lost) : cascade.Least id :=
  fun _ closed => closed.first lost

theorem Least.lost_nonempty {id : Id} (least : cascade.Least id) : cascade.lost.Nonempty := by
  rw [Finset.nonempty_iff_ne_empty]
  intro none
  have closed : cascade.Closed ∅ :=
    { first := Finset.subset_empty.mpr none
      overflow := fun _ _ full => absurd full (Nat.not_lt_zero _) }
  exact Finset.notMem_empty id (least ∅ closed)

variable [DecidableEq Id]

theorem Least.of_overflow {removed : List Id} (distinct : removed.Nodup)
    (within : ∀ id ∈ removed, cascade.Least id) {id : Id} (node : id ∈ cascade.nodes)
    (full : cascade.free id < removed.length) : cascade.Least id := by
  intro losses closed
  have included : removed.toFinset ⊆ losses := by
    intro other member
    exact within other (List.mem_toFinset.mp member) losses closed
  have size : removed.length ≤ losses.card := by
    rw [← List.toFinset_card_of_nodup distinct]
    exact Finset.card_le_card included
  exact closed.overflow id node (Nat.lt_of_lt_of_le full size)

theorem mem_iff_least {removed : List Id} (distinct : removed.Nodup)
    (within : ∀ id ∈ removed, cascade.Least id) (first : ∀ id ∈ cascade.lost, id ∈ removed)
    (overflow : ∀ id ∈ cascade.nodes, cascade.free id < removed.length → id ∈ removed) (id : Id) :
    id ∈ removed ↔ cascade.Least id := by
  have closed : cascade.Closed removed.toFinset :=
    { first := fun other lost => List.mem_toFinset.mpr (first other lost)
      overflow := fun other node full => by
        rw [List.toFinset_card_of_nodup distinct] at full
        exact List.mem_toFinset.mpr (overflow other node full) }
  constructor
  · exact within id
  · intro least
    exact List.mem_toFinset.mp (least removed.toFinset closed)

end Cascade

end Parley.Library
