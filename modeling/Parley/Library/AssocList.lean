/-
Association lists with distinct keys: counting, and erasing by position.
-/

import Mathlib.Data.List.AList

namespace Parley.Library

variable {α : Type*} {β : α → Type*} [DecidableEq α] {entries second first : AList β} {key : α}
  {value : β key} {Value Key : Type*} {index : Nat}

theorem entries_perm_of_lookup (found : entries.lookup key = some value) :
    entries.entries.Perm (⟨key, value⟩ :: entries.entries.kerase key) := by
  have member : key ∈ entries.entries.keys :=
    AList.mem_keys.mp (AList.lookup_isSome.mp (by rw [found]; rfl))
  obtain ⟨other, before, after, fresh, split, erased⟩ := List.exists_of_kerase member
  have same : other = value := by
    have inSplit : (⟨key, other⟩ : Sigma β) ∈ entries.entries := by
      rw [split]
      simp
    exact entries.nodupKeys.eq_of_mk_mem inSplit (AList.mem_lookup_iff.mp found)
  subst other
  rw [erased]
  nth_rewrite 1 [split]
  exact List.perm_middle

theorem countP_insert (entries : AList β) (key : α) (old new : β key)
    (found : entries.lookup key = some old) (counted : Sigma β → Bool) :
    (entries.insert key new).entries.countP counted + (if counted ⟨key, old⟩ then 1 else 0) =
      entries.entries.countP counted + (if counted ⟨key, new⟩ then 1 else 0) := by
  rw [(entries_perm_of_lookup found).countP_eq, AList.entries_insert, List.countP_cons,
    List.countP_cons]
  omega

theorem countP_erase_le (entries : AList β) (key : α) (counted : Sigma β → Bool) :
    (entries.erase key).entries.countP counted ≤ entries.entries.countP counted :=
  (List.kerase_sublist key entries.entries).countP_le

omit [DecidableEq α] in
theorem keys_length_le (within : ∀ key, key ∈ first → key ∈ second) :
    first.keys.length ≤ second.keys.length :=
  (List.subperm_of_subset first.keys_nodup (fun key member => AList.mem_keys.mp
    (within key (AList.mem_keys.mpr member)))).length_le

theorem keys_length_insert (absent : key ∉ entries) (value : β key) :
    (entries.insert key value).keys.length = entries.keys.length + 1 := by
  simp only [AList.keys, AList.entries_insert_of_notMem absent, List.keys_cons, List.length_cons]

theorem keys_length_insert_le (entries : AList β) (key : α) (value : β key) :
    (entries.insert key value).keys.length ≤ entries.keys.length + 1 := by
  by_cases present : key ∈ entries
  · refine Nat.le_succ_of_le (keys_length_le (fun other member => ?_))
    rcases (AList.mem_insert entries).mp member with rfl | there
    · exact present
    · exact there
  · exact Nat.le_of_eq (keys_length_insert present value)

theorem keys_length_erase (found : entries.lookup key = some value) :
    (entries.erase key).keys.length + 1 = entries.keys.length := by
  have same := (entries_perm_of_lookup found).length_eq
  simp only [AList.keys, List.keys, List.length_map] at same ⊢
  exact same.symm

theorem lookup_foldl {turn : AList β → α → AList β} {key : α} {value : Option (β key)}
    (turns : ∀ kept other, (turn kept other).lookup key =
      if other = key then value.or (kept.lookup key) else kept.lookup key)
    (keys : List α) (kept : AList β) :
    (keys.foldl turn kept).lookup key =
      if key ∈ keys then value.or (kept.lookup key) else kept.lookup key := by
  induction keys generalizing kept with
  | nil => rfl
  | cons first rest ih =>
      rw [List.foldl_cons, ih, turns]
      by_cases same : first = key
      · have member : key ∈ first :: rest := List.mem_cons.mpr (Or.inl same.symm)
        rw [if_pos same, if_pos member]
        split
        · rw [← Option.or_assoc, Option.or_self]
        · rfl
      · have tail : key ∈ first :: rest ↔ key ∈ rest :=
          ⟨fun member => (List.mem_cons.mp member).resolve_left (Ne.symm same),
            List.mem_cons_of_mem first⟩
        simp only [if_neg same, tail]

theorem lookup_insert_congr (same : first.lookup key = second.lookup key) (other : α)
    (value : β other) :
    (first.insert other value).lookup key = (second.insert other value).lookup key := by
  by_cases here : key = other
  · subst here
    rw [AList.lookup_insert, AList.lookup_insert]
  · rw [AList.lookup_insert_ne here, AList.lookup_insert_ne here, same]

theorem lookup_erase_congr (same : first.lookup key = second.lookup key) (other : α) :
    (first.erase other).lookup key = (second.erase other).lookup key := by
  by_cases here : key = other
  · subst here
    rw [AList.lookup_erase, AList.lookup_erase]
  · rw [AList.lookup_erase_ne here, AList.lookup_erase_ne here, same]

theorem mem_of_lookup (found : entries.lookup key = some value) : key ∈ entries :=
  AList.lookup_isSome.mp (by rw [found]; rfl)

theorem fst_notMem_eraseIdx {pairs : List (Key × Value)} {pair : Key × Value}
    (distinct : (pairs.map Prod.fst).Nodup) (found : pairs[index]? = some pair) :
    pair.1 ∉ (pairs.eraseIdx index).map Prod.fst := by
  intro member
  obtain ⟨other, present, same⟩ := List.mem_map.mp member
  obtain ⟨position, differ, there⟩ := List.mem_eraseIdx_iff_getElem?.mp present
  have inRange : index < (pairs.map Prod.fst).length := by
    rw [List.length_map]
    exact (List.getElem?_eq_some_iff.mp found).1
  refine differ ((List.getElem?_inj inRange distinct).mp ?_).symm
  rw [List.getElem?_map, List.getElem?_map, found, there]
  exact congrArg some same.symm

theorem fst_mem_eraseIdx_of_ne {pairs : List (Key × Value)} {pair : Key × Value}
    (found : pairs[index]? = some pair) {key : Key} (differ : key ≠ pair.1) :
    key ∈ (pairs.eraseIdx index).map Prod.fst ↔ key ∈ pairs.map Prod.fst := by
  constructor
  · exact fun member => ((List.eraseIdx_sublist pairs index).map Prod.fst).subset member
  · intro member
    obtain ⟨other, present, same⟩ := List.mem_map.mp member
    obtain ⟨position, there⟩ := List.mem_iff_getElem?.mp present
    refine List.mem_map.mpr ⟨other, List.mem_eraseIdx_iff_getElem?.mpr ⟨position, ?_, there⟩, same⟩
    intro samePosition
    rw [samePosition, found] at there
    cases there
    exact differ same.symm

end Parley.Library
