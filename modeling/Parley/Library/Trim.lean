/-
Trimming both ends of a list.

`Bare` is the normal form: neither end is one of the elements that trimming
removes.  Trimming reaches it and leaves it alone.
-/

import Mathlib.Data.List.DropRight

namespace Parley.Library

variable {α : Type*} (outer : α → Bool)

/-- Remove the elements with `outer` from both ends. -/
def trim (s : List α) : List α :=
  (s.dropWhile outer).rdropWhile outer

/-- Neither end has `outer`. -/
structure Bare (s : List α) : Prop where
  head : ∀ first ∈ s.head?, outer first = false
  last : ∀ final ∈ s.getLast?, outer final = false

variable {outer} {s : List α}

theorem head_dropWhile {first : α} (isFirst : (s.dropWhile outer).head? = some first) :
    outer first = false := by
  have kept := List.head?_dropWhile_not outer s
  rw [isFirst] at kept
  exact kept

theorem bare_trim (s : List α) : Bare outer (trim outer s) := by
  refine ⟨fun first isFirst => ?_, fun final isLast => ?_⟩
  · obtain ⟨rest, split⟩ := List.rdropWhile_prefix outer (s.dropWhile outer)
    apply head_dropWhile
    show (s.dropWhile outer).head? = some first
    rw [← split, List.head?_append]
    exact (congrArg (fun head => head.or rest.head?) isFirst).trans (Option.some_or ..)
  · apply head_dropWhile
    show ((s.dropWhile outer).reverse.dropWhile outer).head? = some final
    rw [← List.getLast?_reverse]
    exact isLast

theorem Bare.dropWhile_eq (bare : Bare outer s) : s.dropWhile outer = s := by
  cases s with
  | nil => rfl
  | cons first rest =>
      have kept : ¬outer first = true := Bool.eq_false_iff.mp (bare.head first rfl)
      exact List.dropWhile_cons_of_neg kept

theorem Bare.reverse (bare : Bare outer s) : Bare outer s.reverse := by
  refine ⟨fun first isFirst => bare.last first ?_, fun final isLast => bare.head final ?_⟩
  · rw [List.head?_reverse] at isFirst
    exact isFirst
  · rw [List.getLast?_reverse] at isLast
    exact isLast

theorem Bare.trim_eq (bare : Bare outer s) : trim outer s = s := by
  unfold trim List.rdropWhile
  rw [bare.dropWhile_eq, bare.reverse.dropWhile_eq, List.reverse_reverse]

theorem trim_eq_self_iff : trim outer s = s ↔ Bare outer s :=
  ⟨fun same => same ▸ bare_trim s, Bare.trim_eq⟩

theorem exists_eq_trim (s : List α) : ∃ before after, s = before ++ (trim outer s ++ after) := by
  obtain ⟨before, split⟩ := List.dropWhile_suffix (l := s) outer
  obtain ⟨after, rest⟩ := List.rdropWhile_prefix outer (s.dropWhile outer)
  refine ⟨before, after, ?_⟩
  unfold trim
  rw [rest, split]

theorem trim_map {β : Type*} {outer : β → Bool} (f : α → β) (s : List α) :
    trim outer (s.map f) = (trim (fun item => outer (f item)) s).map f := by
  unfold trim List.rdropWhile
  rw [List.dropWhile_map, ← List.map_reverse, List.dropWhile_map, ← List.map_reverse]
  rfl

theorem Bare.map (bare : Bare outer s) {f : α → α}
    (keeps : ∀ item, outer item = false → outer (f item) = false) : Bare outer (s.map f) := by
  refine ⟨fun first isFirst => ?_, fun final isLast => ?_⟩
  · rw [List.head?_map] at isFirst
    obtain ⟨item, isHead, rfl⟩ := Option.map_eq_some_iff.mp isFirst
    exact keeps item (bare.head item isHead)
  · rw [List.getLast?_map] at isLast
    obtain ⟨item, isFinal, rfl⟩ := Option.map_eq_some_iff.mp isLast
    exact keeps item (bare.last item isFinal)

end Parley.Library
