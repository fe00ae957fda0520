/-
A running least element.

One pass over a collection keeps the best item met so far.  The pass ends with a
least item of the collection, whatever the order in which the items come.
-/

import Mathlib.Data.List.Basic

namespace Parley.Library

variable {α : Type*} (before : α → α → Prop)

/-- The item is in the list and none of the list is before it. -/
structure Least (items : List α) (least : α) : Prop where
  mem : least ∈ items
  first : ∀ item ∈ items, ¬before item least

section

variable [DecidableRel before]

/-- Keep the item if there is none yet, or if it is before the one kept. -/
def keepLeast (best : Option α) (item : α) : Option α :=
  match best with
  | none => some item
  | some least => if before item least then some item else some least

def Kept (items : List α) (best : Option α) : Prop :=
  match best with
  | none => items = []
  | some least => Least before items least

variable {before}

theorem Kept.keepLeast (irrefl : ∀ item, ¬before item item)
    (trans : ∀ a b c, before a b → before b c → before a c) {items : List α} {best : Option α}
    (kept : Kept before items best) (item : α) :
    Kept before (items ++ [item]) (keepLeast before best item) := by
  cases best with
  | none =>
      have nothing : items = [] := kept
      refine ⟨List.mem_append_right _ List.mem_cons_self, fun other member => ?_⟩
      rw [nothing] at member
      exact List.mem_singleton.mp member ▸ irrefl item
  | some least =>
      have isLeast : Least before items least := kept
      unfold Library.keepLeast
      by_cases better : before item least
      · simp only [if_pos better]
        refine ⟨List.mem_append_right _ List.mem_cons_self, fun other member => ?_⟩
        rcases List.mem_append.mp member with earlier | here
        · exact fun ahead => isLeast.first other earlier (trans _ _ _ ahead better)
        · exact List.mem_singleton.mp here ▸ irrefl item
      · simp only [if_neg better]
        refine ⟨List.mem_append_left _ isLeast.mem, fun other member => ?_⟩
        rcases List.mem_append.mp member with earlier | here
        · exact isLeast.first other earlier
        · exact List.mem_singleton.mp here ▸ better

theorem Kept.foldl (irrefl : ∀ item, ¬before item item)
    (trans : ∀ a b c, before a b → before b c → before a c) {seen : List α} {best : Option α}
    (kept : Kept before seen best) (items : List α) :
    Kept before (seen ++ items) (items.foldl (Library.keepLeast before) best) := by
  induction items generalizing seen best with
  | nil => exact (List.append_nil seen).symm ▸ kept
  | cons item rest ih =>
      have next := ih (kept.keepLeast irrefl trans item)
      rw [List.append_assoc] at next
      exact next

theorem kept_foldl (irrefl : ∀ item, ¬before item item)
    (trans : ∀ a b c, before a b → before b c → before a c) (items : List α) :
    Kept before items (items.foldl (keepLeast before) none) :=
  @Kept.foldl _ before _ irrefl trans [] none rfl items

end

end Parley.Library
