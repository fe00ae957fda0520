/-
Dropping repeats with a bounded memory.

Items are told apart by a key.  A filter lets an item through unless its key is
among those of the last few items it let through.  Every item is let through
exactly once precisely when, between an item and each of its repeats, fewer others
come for the first time than the filter remembers.
-/

import Mathlib.Data.Finset.Card
import Mathlib.Data.List.Nodup

namespace Parley.Library

/-- The items remembered and, as a history variable, all that were let through. -/
structure Recent (Item : Type*) where
  window : List Item
  passed : List Item

namespace Recent

variable {Item Key : Type*} [DecidableEq Key] (key : Item → Key) (capacity : Nat)

/-- The last `capacity` items. -/
def latest (items : List Item) : List Item :=
  items.drop (items.length - capacity)

def knows (filter : Recent Item) (item : Item) : Bool :=
  filter.window.any (fun old => key old = key item)

def offer (filter : Recent Item) (item : Item) : Recent Item :=
  if filter.knows key item then filter
  else
    { window := latest capacity (filter.window ++ [item])
      passed := filter.passed ++ [item] }

def offerAll (filter : Recent Item) (items : List Item) : Recent Item :=
  items.foldl (offer key capacity) filter

/-- The filter as a call on the items remembered: those after it, and whether the
item was let through. -/
def store (window : List Item) (item : Item) : List Item × Bool :=
  if window.any (fun old => key old = key item) then (window, false)
  else
    let longer := window ++ [item]
    (if longer.length > capacity then longer.drop (longer.length - capacity) else longer, true)

/-- Calls in turn: the items remembered after them, and those let through. -/
def storeAll (window : List Item) : List Item → List Item × List Item
  | [] => (window, [])
  | item :: rest =>
      let stored := store key capacity window item
      let later := storeAll stored.1 rest
      (later.1, (if stored.2 then [item] else []) ++ later.2)

def Exact [DecidableEq Item] (filter : Recent Item) (seen : List Item) : Prop :=
  ∀ item ∈ seen, filter.passed.count item = 1

def empty : Recent Item :=
  { window := []
    passed := [] }

/-- The window is the end of what was let through, which is what was seen. -/
structure Sound (filter : Recent Item) (seen : List Item) : Prop where
  window : filter.window = latest capacity filter.passed
  passed : ∀ item, item ∈ filter.passed ↔ item ∈ seen

/-- The window is the end of what was let through, and no key is in it twice. -/
structure Trails (filter : Recent Item) : Prop where
  window : filter.window = latest capacity filter.passed
  distinct : (filter.window.map key).Nodup

variable {key capacity}

theorem length_latest (items : List Item) :
    (latest capacity items).length = min capacity items.length := by
  unfold latest
  rw [List.length_drop]
  omega

theorem latest_min_length (items : List Item) :
    latest (min capacity items.length) items = latest capacity items := by
  unfold latest
  congr 1
  omega

theorem latest_concat (items : List Item) (item : Item) :
    latest capacity (latest capacity items ++ [item]) = latest capacity (items ++ [item]) := by
  unfold latest
  by_cases short : items.length ≤ capacity
  · rw [Nat.sub_eq_zero_of_le short, List.drop_zero]
  · rw [← List.drop_append_of_le_length (Nat.sub_le _ _), List.drop_drop, List.length_drop,
      List.length_append, List.length_singleton]
    congr 1
    omega

variable {window items : List Item}

theorem mem_of_mem_latest {item : Item} (member : item ∈ latest capacity items) :
    item ∈ items :=
  List.mem_of_mem_drop member

theorem knows_iff {filter : Recent Item} {item : Item}
    (distinct : ∀ old ∈ filter.window, key old = key item → old = item) :
    filter.knows key item = true ↔ item ∈ filter.window := by
  unfold knows
  rw [List.any_eq_true]
  constructor
  · rintro ⟨old, member, same⟩
    rw [← distinct old member (of_decide_eq_true same)]
    exact member
  · intro member
    exact ⟨item, member, decide_eq_true rfl⟩

theorem knows_iff_key_mem {filter : Recent Item} {item : Item} :
    filter.knows key item = true ↔ key item ∈ filter.window.map key := by
  simp only [knows, List.any_eq_true, decide_eq_true_eq, List.mem_map]

theorem store_eq (window : List Item) (item : Item) :
    store key capacity window item =
      if window.any (fun old => key old = key item) then (window, false)
      else (latest capacity (window ++ [item]), true) := by
  unfold store latest
  split
  · rfl
  · dsimp only
    split
    · rfl
    · rename_i short
      rw [Nat.sub_eq_zero_of_le (Nat.not_lt.mp short), List.drop_zero]

theorem mem_of_mem_store {item other : Item} (member : other ∈ (store key capacity window item).1) :
    other ∈ window ∨ other = item := by
  rw [store_eq] at member
  split at member
  · exact Or.inl member
  · rcases List.mem_append.mp (mem_of_mem_latest member) with before | last
    · exact Or.inl before
    · exact Or.inr (List.mem_singleton.mp last)

theorem storeAll_append (window early late : List Item) :
    storeAll key capacity window (early ++ late) =
      ((storeAll key capacity (storeAll key capacity window early).1 late).1,
        (storeAll key capacity window early).2 ++
          (storeAll key capacity (storeAll key capacity window early).1 late).2) := by
  induction early generalizing window with
  | nil => rfl
  | cons item rest ih => simp only [List.cons_append, storeAll, ih, List.append_assoc]

theorem offer_eq_store (window passed : List Item) (item : Item) :
    offer key capacity { window := window, passed := passed } item =
      { window := (store key capacity window item).1
        passed := passed ++ if (store key capacity window item).2 then [item] else [] } := by
  rw [store_eq]
  unfold offer knows
  split
  · exact congrArg (Recent.mk window) (List.append_nil passed).symm
  · rfl

theorem offerAll_eq_storeAll (window passed items : List Item) :
    offerAll key capacity { window := window, passed := passed } items =
      { window := (storeAll key capacity window items).1
        passed := passed ++ (storeAll key capacity window items).2 } := by
  induction items generalizing window passed with
  | nil => exact congrArg (Recent.mk window) (List.append_nil passed).symm
  | cons item rest ih =>
      unfold offerAll at ih ⊢
      rw [List.foldl_cons, offer_eq_store, ih]
      simp only [storeAll, List.append_assoc]

theorem store_isNew_iff {item : Item} :
    (store key capacity window item).2 = true ↔ key item ∉ window.map key := by
  have known := @knows_iff_key_mem Item Key _ key { window := window, passed := [] } item
  rw [store_eq, ← known]
  unfold knows
  split
  · rename_i found
    constructor
    · intro isNew
      cases isNew
    · intro unknown
      exact absurd found unknown
  · rename_i unknown
    exact ⟨fun _ => unknown, fun _ => rfl⟩

theorem offer_window {filter : Recent Item} (trails : filter.window = latest capacity filter.passed)
    (item : Item) :
    (filter.offer key capacity item).window =
      latest capacity (filter.offer key capacity item).passed := by
  unfold offer
  split
  · exact trails
  · rw [trails, latest_concat]

namespace Trails

variable {filter : Recent Item}

theorem offer (trails : filter.Trails key capacity) (item : Item) :
    (filter.offer key capacity item).Trails key capacity := by
  refine
    { window := offer_window trails.window item
      distinct := ?_ }
  unfold Recent.offer
  split
  · exact trails.distinct
  · rename_i unknown
    have fresh : key item ∉ filter.window.map key :=
      fun member => unknown (knows_iff_key_mem.mpr member)
    have longer : ((filter.window ++ [item]).map key).Nodup := by
      rw [List.map_append, List.nodup_append]
      refine ⟨trails.distinct, List.nodup_singleton _, fun old before new last same => ?_⟩
      rw [same, List.mem_singleton.mp last] at before
      exact fresh before
    exact longer.sublist ((List.drop_sublist _ _).map key)

theorem offerAll (trails : filter.Trails key capacity) (items : List Item) :
    (filter.offerAll key capacity items).Trails key capacity := by
  induction items generalizing filter with
  | nil => exact trails
  | cons item rest ih => exact ih (trails.offer item)

end Trails

theorem storeAll_trails (items : List Item) :
    Trails key capacity
      { window := (storeAll key capacity [] items).1
        passed := (storeAll key capacity [] items).2 } := by
  have empty : Trails key capacity { window := ([] : List Item), passed := [] } :=
    { window := List.drop_nil.symm
      distinct := List.nodup_nil }
  have trails := empty.offerAll items
  rw [offerAll_eq_storeAll, List.nil_append] at trails
  exact trails

namespace Sound

variable {filter : Recent Item} {seen : List Item} {item : Item}

theorem mem_seen (sound : filter.Sound capacity seen) (member : item ∈ filter.window) :
    item ∈ seen := by
  rw [sound.window] at member
  exact (sound.passed item).mp (mem_of_mem_latest member)

theorem knows_iff (sound : filter.Sound capacity seen)
    (distinct : ∀ old ∈ seen, key old = key item → old = item) :
    filter.knows key item = true ↔ item ∈ filter.window :=
  Recent.knows_iff (fun old member => distinct old (sound.mem_seen member))

theorem offer (sound : filter.Sound capacity seen)
    (distinct : ∀ old ∈ seen, key old = key item → old = item) :
    (filter.offer key capacity item).Sound capacity (seen ++ [item]) := by
  refine
    { window := offer_window sound.window item
      passed := fun other => ?_ }
  unfold Recent.offer
  split
  · rename_i known
    have earlier := sound.mem_seen ((sound.knows_iff distinct).mp known)
    rw [sound.passed other, List.mem_append, List.mem_singleton]
    constructor
    · exact Or.inl
    · rintro (member | rfl)
      · exact member
      · exact earlier
  · rw [List.mem_append, List.mem_append, sound.passed other]

theorem offerAll (sound : filter.Sound capacity seen)
    (distinct : ∀ old ∈ seen ++ items, ∀ new ∈ items, key old = key new → old = new) :
    (filter.offerAll key capacity items).Sound capacity (seen ++ items) := by
  induction items generalizing filter seen with
  | nil =>
      rw [List.append_nil]
      exact sound
  | cons item rest ih =>
      have here : ∀ old ∈ seen, key old = key item → old = item := fun old member =>
        distinct old (List.mem_append_left _ member) item List.mem_cons_self
      have split : seen ++ item :: rest = (seen ++ [item]) ++ rest := by
        rw [List.append_assoc, List.singleton_append]
      rw [split] at distinct ⊢
      exact ih (sound.offer here) (fun old member new isNew =>
        distinct old member new (List.mem_cons_of_mem _ isNew))

end Sound

theorem empty_sound : (empty : Recent Item).Sound capacity [] :=
  { window := List.drop_nil.symm
    passed := fun _ => Iff.rfl }

section

variable [DecidableEq Item] {item : Item}

theorem Exact.nodup {filter : Recent Item} {seen : List Item} (counted : filter.Exact seen)
    (sound : filter.Sound capacity seen) : filter.passed.Nodup := by
  rw [List.nodup_iff_count_le_one]
  intro item
  by_cases member : item ∈ filter.passed
  · exact (counted item ((sound.passed item).mp member)).le
  · rw [List.count_eq_zero.mpr member]
    exact Nat.zero_le 1

end

end Recent

end Parley.Library
