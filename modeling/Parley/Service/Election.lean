/-
The election of a successor.

Every survivor elects on its own, from its copy of the roster, in one pass over a
map whose order is not the same twice.  The ends agree because what the pass
finds depends on the roster only.
-/

import Parley.Library.RunningLeast
import Parley.Service.Ctl

namespace Parley.Service

open Library Session
open Wire (Bytes ParticipantID)

abbrev Candidate : Type := (_ : ParticipantID) × Role

def preferred (candidate : Candidate) : Bool :=
  candidate.2 = roleHost ∨ candidate.2 = roleMember

/-- The survivor with the least id among the preferred ones; without any, the one
with the least id; without survivors, 0. -/
inductive Elects (candidates : GoMap ParticipantID Role) : ParticipantID → Prop
  | preferred {id : ParticipantID} {role : Role} (found : candidates.lookup id = some role)
      (prefers : preferred ⟨id, role⟩ = true)
      (least : ∀ other otherRole, candidates.lookup other = some otherRole →
        preferred ⟨other, otherRole⟩ = true → id ≤ other) : Elects candidates id
  | anybody {id : ParticipantID} (found : id ∈ candidates)
      (others : ∀ other otherRole, candidates.lookup other = some otherRole →
        preferred ⟨other, otherRole⟩ = false)
      (least : ∀ other ∈ candidates, id ≤ other) : Elects candidates id
  | nobody (empty : ∀ other, other ∉ candidates) : Elects candidates 0

variable {candidates other : GoMap ParticipantID Role} {best : Option Candidate}
  {id : ParticipantID}

theorem Elects.unique {other : ParticipantID} (elects : Elects candidates id)
    (electsOther : Elects candidates other) : id = other := by
  cases elects with
  | preferred found prefers least =>
      cases electsOther with
      | preferred foundOther prefersOther leastOther =>
          exact UInt32.le_antisymm (least _ _ foundOther prefersOther)
            (leastOther _ _ found prefers)
      | anybody _ others _ => simp [others _ _ found] at prefers
      | nobody empty =>
          exact absurd (AList.lookup_isSome.mp (Option.isSome_of_eq_some found)) (empty _)
  | anybody found others least =>
      cases electsOther with
      | preferred foundOther prefersOther _ => simp [others _ _ foundOther] at prefersOther
      | anybody foundOther _ leastOther =>
          exact UInt32.le_antisymm (least _ foundOther) (leastOther _ found)
      | nobody empty => exact absurd found (empty _)
  | nobody empty =>
      cases electsOther with
      | preferred foundOther _ _ =>
          exact absurd (AList.lookup_isSome.mp (Option.isSome_of_eq_some foundOther)) (empty _)
      | anybody foundOther _ _ => exact absurd foundOther (empty _)
      | nobody _ => rfl

theorem Elects.perm
    (elects : Elects candidates id) (order : candidates.entries.Perm other.entries) :
    Elects other id := by
  have lookups : ∀ key, other.lookup key = candidates.lookup key := fun key =>
    (AList.perm_lookup order).symm
  have members : ∀ key, key ∈ other ↔ key ∈ candidates := fun key => (AList.mem_of_perm order).symm
  cases elects with
  | preferred found prefers least =>
      refine .preferred ((lookups _).trans found) prefers (fun key role present => ?_)
      exact least key role ((lookups key).symm.trans present)
  | anybody found others least =>
      refine .anybody ((members _).mpr found) (fun key role present => ?_) (fun key present => ?_)
      · exact others key role ((lookups key).symm.trans present)
      · exact least key ((members key).mp present)
  | nobody empty => exact .nobody (fun key present => empty key ((members key).mp present))

def bestID (best : Option Candidate) : ParticipantID :=
  (best.map Sigma.fst).getD 0

def lowerID (candidate other : Candidate) : Prop :=
  candidate.1 < other.1

instance : DecidableRel lowerID := fun candidate other =>
  inferInstanceAs (Decidable (candidate.1 < other.1))

theorem bestID_keepLeast (positive : ∀ kept ∈ best, kept.1 ≠ 0) (candidate : Candidate) :
    bestID (keepLeast lowerID best candidate) =
      if bestID best = 0 ∨ candidate.1 < bestID best then candidate.1 else bestID best := by
  cases best with
  | none => rfl
  | some kept =>
      have notZero : ¬bestID (some kept) = 0 := positive kept rfl
      by_cases lower : candidate.1 < kept.1
      · have less : lowerID candidate kept := lower
        simp only [keepLeast, if_pos less]
        exact (if_pos (Or.inr lower)).symm
      · have notLess : ¬lowerID candidate kept := lower
        simp only [keepLeast, if_neg notLess]
        exact (if_neg (not_or.mpr ⟨notZero, lower⟩)).symm

theorem positive_keepLeast (positive : ∀ kept ∈ best, kept.1 ≠ 0) {candidate : Candidate}
    (notZero : candidate.1 ≠ 0) :
    ∀ kept ∈ keepLeast lowerID best candidate, kept.1 ≠ 0 := by
  intro kept member
  cases best with
  | none => exact Option.some.inj member ▸ notZero
  | some least =>
      simp only [keepLeast] at member
      split at member
      · exact Option.some.inj member ▸ notZero
      · exact Option.some.inj member ▸ positive least rfl

theorem foldl_considerCandidate {candidates : List Candidate}
    (positive : ∀ candidate ∈ candidates, candidate.1 ≠ 0) (member anybody : Option Candidate)
    (memberPositive : ∀ kept ∈ member, kept.1 ≠ 0)
    (anybodyPositive : ∀ kept ∈ anybody, kept.1 ≠ 0) :
    candidates.foldl considerCandidate (bestID member, bestID anybody) =
      (bestID ((candidates.filter preferred).foldl (keepLeast lowerID) member),
        bestID (candidates.foldl (keepLeast lowerID) anybody)) := by
  induction candidates generalizing member anybody with
  | nil => rfl
  | cons candidate rest ih =>
      have restPositive := fun other present => positive other (List.mem_cons_of_mem _ present)
      have notZero := positive candidate List.mem_cons_self
      have anybodyNext := positive_keepLeast anybodyPositive notZero
      rw [List.foldl_cons, List.foldl_cons]
      by_cases prefers : preferred candidate = true
      · have roles : candidate.2 = roleHost ∨ candidate.2 = roleMember := of_decide_eq_true prefers
        rw [List.filter_cons_of_pos prefers, List.foldl_cons,
          ← ih restPositive _ _ (positive_keepLeast memberPositive notZero) anybodyNext,
          bestID_keepLeast memberPositive, bestID_keepLeast anybodyPositive]
        simp only [considerCandidate, roles, true_and]
      · have roles : ¬(candidate.2 = roleHost ∨ candidate.2 = roleMember) := fun roles =>
          prefers (decide_eq_true roles)
        rw [List.filter_cons_of_neg prefers, ← ih restPositive _ _ memberPositive anybodyNext,
          bestID_keepLeast anybodyPositive]
        simp only [considerCandidate, roles, false_and, if_false]

theorem bestID_foldl (candidates : List Candidate) :
    candidates = [] ∧ bestID (candidates.foldl (keepLeast lowerID) none) = 0 ∨
      ∃ least ∈ candidates, bestID (candidates.foldl (keepLeast lowerID) none) = least.1 ∧
        ∀ other ∈ candidates, least.1 ≤ other.1 := by
  have irrefl : ∀ candidate : Candidate, ¬lowerID candidate candidate := fun candidate =>
    UInt32.lt_irrefl candidate.1
  have trans : ∀ a b c : Candidate, lowerID a b → lowerID b c → lowerID a c :=
    fun _ _ _ lower higher => UInt32.lt_trans lower higher
  have kept := kept_foldl irrefl trans candidates
  cases best : candidates.foldl (keepLeast lowerID) none with
  | none =>
      rw [best] at kept
      exact Or.inl ⟨kept, rfl⟩
  | some least =>
      rw [best] at kept
      have isLeast : Least lowerID candidates least := kept
      refine Or.inr ⟨least, isLeast.mem, rfl, fun other present => ?_⟩
      exact UInt32.not_lt.mp (isLeast.first other present)

theorem defaultSuccessorPolicy_elects (positive : ∀ id ∈ candidates, 1 ≤ id) :
    Elects candidates (defaultSuccessorPolicy candidates) := by
  have notZero : ∀ candidate ∈ candidates.entries, candidate.1 ≠ 0 := by
    intro candidate present zero
    have atLeast := positive candidate.1 (List.mem_map_of_mem present)
    rw [zero] at atLeast
    exact absurd atLeast (by decide)
  have entry : ∀ id role, candidates.lookup id = some role ↔ ⟨id, role⟩ ∈ candidates.entries :=
    fun id role => AList.mem_lookup_iff
  have pass := foldl_considerCandidate notZero none none (fun _ none_ => by cases none_)
    (fun _ none_ => by cases none_)
  have result : defaultSuccessorPolicy candidates =
      if bestID ((candidates.entries.filter preferred).foldl (keepLeast lowerID) none) ≠ 0 then
        bestID ((candidates.entries.filter preferred).foldl (keepLeast lowerID) none)
      else bestID (candidates.entries.foldl (keepLeast lowerID) none) :=
    congrArg (fun best : ParticipantID × ParticipantID => if best.1 ≠ 0 then best.1 else best.2) pass
  rcases bestID_foldl (candidates.entries.filter preferred) with ⟨none_, best⟩ |
    ⟨least, present, best, first⟩
  · have others : ∀ other role, candidates.lookup other = some role →
        preferred ⟨other, role⟩ = false := by
      intro other role found
      have dropped := List.filter_eq_nil_iff.mp none_ _ ((entry other role).mp found)
      exact Bool.eq_false_iff.mpr dropped
    rw [best, if_neg (fun differ => differ rfl)] at result
    rw [result]
    rcases bestID_foldl candidates.entries with ⟨empty, anybody⟩ | ⟨least, present, anybody, first⟩
    · rw [anybody]
      refine .nobody (fun other member => ?_)
      obtain ⟨candidate, inEntries, _⟩ := List.mem_map.mp member
      exact List.not_mem_nil (empty ▸ inEntries)
    · rw [anybody]
      refine .anybody (List.mem_map_of_mem present) others (fun other member => ?_)
      obtain ⟨candidate, inEntries, rfl⟩ := List.mem_map.mp member
      exact first candidate inEntries
  · obtain ⟨inEntries, prefers⟩ := List.mem_filter.mp present
    rw [best, if_pos (notZero least inEntries)] at result
    rw [result]
    refine .preferred ((entry least.1 least.2).mpr inEntries) prefers
      (fun other role found otherPrefers => ?_)
    exact first ⟨other, role⟩ (List.mem_filter.mpr ⟨(entry other role).mp found, otherPrefers⟩)

theorem defaultSuccessorPolicy_perm (positive : ∀ id ∈ candidates, 1 ≤ id)
    (order : candidates.entries.Perm other.entries) :
    defaultSuccessorPolicy candidates = defaultSuccessorPolicy other := by
  have positiveOther : ∀ id ∈ other, 1 ≤ id := fun id present =>
    positive id ((AList.mem_of_perm order).mpr present)
  exact ((defaultSuccessorPolicy_elects positive).perm order).unique
    (defaultSuccessorPolicy_elects positiveOther)

theorem electSuccessor_perm {c other : Ctl} {leaver : ParticipantID}
    (positive : ∀ id ∈ c.roster, id ≠ leaver → 1 ≤ id)
    (order : c.roster.entries.Perm other.roster.entries) :
    c.electSuccessor defaultSuccessorPolicy leaver =
      other.electSuccessor defaultSuccessorPolicy leaver := by
  have survivors : (c.roster.erase leaver).entries.Perm (other.roster.erase leaver).entries :=
    AList.perm_erase order
  have choice := defaultSuccessorPolicy_perm (fun id present =>
    positive id (AList.mem_erase.mp present).2 (AList.mem_erase.mp present).1) survivors
  unfold Ctl.electSuccessor
  simp only [choice, AList.mem_of_perm survivors]

/-- The default policy follows the rule; whatever the policy, who is elected is a
survivor or 0, and under the default policy the ends agree. -/
theorem successor_election :
    (∀ candidates : GoMap ParticipantID Role, (∀ id ∈ candidates, 1 ≤ id) →
      Elects candidates (defaultSuccessorPolicy candidates)) ∧
    (∀ (policy : SuccessorPolicy) (c : Ctl) (leaver : ParticipantID),
      c.electSuccessor policy leaver = 0 ∨
        c.electSuccessor policy leaver ∈ c.roster ∧ c.electSuccessor policy leaver ≠ leaver) ∧
    ∀ (c other : Ctl) (leaver : ParticipantID), (∀ id ∈ c.roster, id ≠ leaver → 1 ≤ id) →
      c.roster.entries.Perm other.roster.entries →
        c.electSuccessor defaultSuccessorPolicy leaver =
          other.electSuccessor defaultSuccessorPolicy leaver := by
  refine ⟨fun candidates positive => defaultSuccessorPolicy_elects positive, ?_,
    fun c other leaver positive order => electSuccessor_perm positive order⟩
  intro policy c leaver
  by_cases elected : c.electSuccessor policy leaver = 0
  · exact Or.inl elected
  · exact Or.inr (Ctl.electSuccessor_mem elected)

/-- The only member is elected before an observer with a lower id. -/
theorem successor_election_prefers_member :
    Elects (AList.insert 2 roleObserver (AList.insert 3 roleMember ∅)) 3 ∧
      defaultSuccessorPolicy (AList.insert 2 roleObserver (AList.insert 3 roleMember ∅)) = 3 := by
  have positive : ∀ id ∈ (AList.insert 2 roleObserver (AList.insert 3 roleMember ∅) :
      GoMap ParticipantID Role), 1 ≤ id := by
    intro id present
    have listed : id ∈ ([2, 3] : List ParticipantID) := present
    rcases List.mem_cons.mp listed with rfl | last
    · decide
    · exact List.mem_singleton.mp last ▸ by decide
  have chosen : defaultSuccessorPolicy
      (AList.insert 2 roleObserver (AList.insert 3 roleMember ∅)) = 3 := by decide
  exact ⟨chosen ▸ successor_election.1 _ positive, chosen⟩

/-- A leaver 0 is returned, as the sign that there is no successor. -/
theorem zero_leaver_returned :
    ¬∀ (policy : SuccessorPolicy) (c : Ctl) (leaver : ParticipantID),
      c.electSuccessor policy leaver ≠ leaver := by
  intro claimed
  exact claimed defaultSuccessorPolicy Ctl.new 0 rfl

end Parley.Service
