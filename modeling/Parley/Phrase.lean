/-
Code phrases, and the inputs of the hash functions.

A phrase is trimmed and lowercased before it is used.  `dial` does that once for
the secret of the key exchange and once more, inside `SessionID`, for the id.
The label of the protocol stands at the front of both hash inputs; what follows it
can be told from it.
-/

import Parley.Library.Sha256
import Parley.Library.Utf8
import Parley.Session.Client

namespace Parley.Phrase

open Crypto Library Library.Utf8
open Session (Client RolePolicy defaultRolePolicy)
open Wire (Bytes ParticipantID SessionID)

/-- What the source uses of the package `unicode`. -/
structure Unicode where
  isSpace : Char → Bool
  toLower : Char → Char

/-- Lowercasing is done after one pass and does not turn a rune into white
space. -/
structure Unicode.Regular (u : Unicode) : Prop where
  idempotent : ∀ r, u.toLower (u.toLower r) = u.toLower r
  notSpace : ∀ r, u.isSpace r = false → u.isSpace (u.toLower r) = false

variable (u : Unicode)

/-- `strings.ToLower`. -/
def toLower (s : Bytes) : Bytes :=
  mapRunes (fun r => some (u.toLower r)) s

def canonical (phrase : Bytes) : Bytes :=
  toLower u (trimSpace u.isSpace phrase)

/-- What `SessionID` hashes. -/
def sessionIDInput (protocol phrase : Bytes) : Bytes :=
  protocol ++ ascii "/session-id" ++ 0 :: canonical u phrase

def sessionID (protocol phrase : Bytes) : SessionID :=
  Vector.ofFn (fun index => (Sha256.digest (sessionIDInput u protocol phrase)).getD index.val 0)

/-- `dial` on the text of a phrase. -/
def dial (protocol phraseText : Bytes) (rolePolicy : RolePolicy) (observer : Bool) : Client :=
  let phraseC := canonical u phraseText
  Session.dial protocol (sessionID u protocol phraseC) phraseC rolePolicy observer

/-- What `dial` hashes for its session id. -/
def dialInput (protocol phraseText : Bytes) : Bytes :=
  sessionIDInput u protocol (canonical u phraseText)

variable {u}

theorem canonical_eq (phrase : Bytes) :
    canonical u phrase = encode ((trim u.isSpace (runes phrase)).map u.toLower) := by
  unfold canonical toLower mapRunes
  rw [runes_trimSpace, ← List.filterMap_eq_map]
  rfl

theorem Unicode.Regular.canonical_canonical (regular : u.Regular) (phrase : Bytes) :
    canonical u (canonical u phrase) = canonical u phrase := by
  have bare : Bare u.isSpace ((trim u.isSpace (runes phrase)).map u.toLower) :=
    (bare_trim (runes phrase)).map regular.notSpace
  rw [canonical_eq (canonical u phrase), canonical_eq phrase, runes_encode, bare.trim_eq,
    List.map_map]
  exact congrArg encode (List.map_congr_left fun r _ => regular.idempotent r)

theorem zero_notMem_sessionLabel : (0 : UInt8) ∉ ascii "/session-id" := by decide

theorem slash_notMem_formatNat (number : Nat) : (47 : UInt8) ∉ formatNat number := by
  intro member
  have range := digitBytes_range _ _ _ member
  revert range
  decide

theorem sessionIDInput_inj {protocol other phrase text : Bytes} (plain : 0 ∉ protocol)
    (plainOther : 0 ∉ other)
    (same : sessionIDInput u protocol phrase = sessionIDInput u other text) :
    protocol = other ∧ canonical u phrase = canonical u text := by
  have absent : ∀ label : Bytes, 0 ∉ label → (0 : UInt8) ∉ label ++ ascii "/session-id" :=
    fun label without member => (List.mem_append.mp member).elim without zero_notMem_sessionLabel
  obtain ⟨labels, phrases⟩ :=
    append_separator_inj (absent protocol plain) (absent other plainOther) same
  exact ⟨List.append_cancel_right labels, phrases⟩

theorem pairwiseInfo_eq (protocol : Bytes) (a b : ParticipantID) : ∃ lo hi,
    pairwiseInfo protocol a b =
        ((protocol ++ ascii "/pairwise") ++ 47 :: formatNat lo.toNat) ++ 47 :: formatNat hi.toNat ∧
      (lo = a ∧ hi = b ∨ lo = b ∧ hi = a) := by
  have labels : ascii "/pairwise/" = ascii "/pairwise" ++ [47] := by decide
  have slash : ascii "/" = [47] := by decide
  have shape : ∀ lo hi : ParticipantID,
      protocol ++ (ascii "/pairwise/" ++ formatNat lo.toNat ++ ascii "/" ++ formatNat hi.toNat) =
        ((protocol ++ ascii "/pairwise") ++ 47 :: formatNat lo.toNat) ++
          47 :: formatNat hi.toNat := by
    intro lo hi
    rw [labels, slash]
    simp only [List.append_assoc, List.cons_append, List.nil_append]
  unfold pairwiseInfo
  by_cases swapped : b < a
  · simp only [if_pos swapped]
    exact ⟨b, a, shape b a, Or.inr ⟨rfl, rfl⟩⟩
  · simp only [if_neg swapped]
    exact ⟨a, b, shape a b, Or.inl ⟨rfl, rfl⟩⟩

theorem pairwiseInfo_comm (protocol : Bytes) (a b : ParticipantID) :
    pairwiseInfo protocol a b = pairwiseInfo protocol b a := by
  unfold pairwiseInfo
  by_cases less : a < b
  · simp only [if_pos less, if_neg (UInt32.lt_asymm less)]
  · by_cases greater : b < a
    · simp only [if_pos greater, if_neg less]
    · have same : a = b := UInt32.le_antisymm (UInt32.not_lt.mp greater) (UInt32.not_lt.mp less)
      rw [same]

/-- The label and the two ids, in either order, are determined: the digits hold no
slash, so the text can be read from its end. -/
theorem pairwiseInfo_inj {protocol other : Bytes} {a b c d : ParticipantID}
    (same : pairwiseInfo protocol a b = pairwiseInfo other c d) :
    protocol = other ∧ (a = c ∧ b = d ∨ a = d ∧ b = c) := by
  obtain ⟨lo, hi, shape, ids⟩ := pairwiseInfo_eq protocol a b
  obtain ⟨lo', hi', shape', ids'⟩ := pairwiseInfo_eq other c d
  rw [shape, shape'] at same
  obtain ⟨front, high⟩ :=
    append_last_separator_inj (slash_notMem_formatNat _) (slash_notMem_formatNat _) same
  obtain ⟨labels, low⟩ :=
    append_last_separator_inj (slash_notMem_formatNat _) (slash_notMem_formatNat _) front
  have sameHi : hi = hi' := UInt32.toNat_inj.mp (formatNat_injective high)
  have sameLo : lo = lo' := UInt32.toNat_inj.mp (formatNat_injective low)
  refine ⟨List.append_cancel_right labels, ?_⟩
  rcases ids with ⟨rfl, rfl⟩ | ⟨rfl, rfl⟩ <;> rcases ids' with ⟨rfl, rfl⟩ | ⟨rfl, rfl⟩
  · exact Or.inl ⟨sameLo, sameHi⟩
  · exact Or.inr ⟨sameLo, sameHi⟩
  · exact Or.inr ⟨sameHi, sameLo⟩
  · exact Or.inl ⟨sameHi, sameLo⟩

/-- The inputs of the two hash functions separate the labels, the pairs of ids and
the secrets. -/
theorem hash_inputs_separate :
    (∀ (protocol other : Bytes) (a b c d : ParticipantID),
      pairwiseInfo protocol a b = pairwiseInfo other c d ↔
        protocol = other ∧ (a = c ∧ b = d ∨ a = d ∧ b = c)) ∧
    ∀ u : Unicode, u.Regular → ∀ (protocol other phraseText text : Bytes) (policy : RolePolicy)
      (observer : Bool), 0 ∉ protocol → 0 ∉ other →
      (dialInput u protocol phraseText = dialInput u other text ↔
        protocol = other ∧ (dial u protocol phraseText policy observer).phraseC =
          (dial u other text policy observer).phraseC) ∧
      (dial u protocol phraseText policy observer).sid =
        Vector.ofFn (fun index =>
          (Sha256.digest (dialInput u protocol phraseText)).getD index.val 0) := by
  refine ⟨fun protocol other a b c d => ⟨pairwiseInfo_inj, ?_⟩, ?_⟩
  · rintro ⟨rfl, ⟨rfl, rfl⟩ | ⟨rfl, rfl⟩⟩
    · rfl
    · exact pairwiseInfo_comm protocol a b
  · intro u regular protocol other phraseText text policy observer plain plainOther
    refine ⟨⟨fun same => ?_, ?_⟩, rfl⟩
    · obtain ⟨labels, phrases⟩ := sessionIDInput_inj plain plainOther same
      rw [regular.canonical_canonical, regular.canonical_canonical] at phrases
      exact ⟨labels, phrases⟩
    · rintro ⟨rfl, secrets⟩
      have phrases : canonical u phraseText = canonical u text := secrets
      unfold dialInput
      rw [phrases]

/-- The classes of the package `unicode`, on ASCII. -/
def asciiUnicode : Unicode :=
  { isSpace := fun r => r.toNat = 32 ∨ 9 ≤ r.toNat ∧ r.toNat ≤ 13
    toLower := fun r => if 65 ≤ r.toNat ∧ r.toNat ≤ 90 then Char.ofNat (r.toNat + 32) else r }

theorem asciiUnicode_regular : asciiUnicode.Regular := by
  have lowered : ∀ r : Char, 65 ≤ r.toNat ∧ r.toNat ≤ 90 →
      (Char.ofNat (r.toNat + 32)).toNat = r.toNat + 32 := by
    intro r upper
    have table : ∀ code < 91, 65 ≤ code → (Char.ofNat (code + 32)).toNat = code + 32 := by decide
    exact table r.toNat (by omega) upper.1
  refine ⟨fun r => ?_, fun r notSpace => ?_⟩
  · by_cases upper : 65 ≤ r.toNat ∧ r.toNat ≤ 90
    · simp only [asciiUnicode, if_pos upper, lowered r upper]
      exact if_neg (by omega)
    · simp only [asciiUnicode, if_neg upper]
  · by_cases upper : 65 ≤ r.toNat ∧ r.toNat ≤ 90
    · simp only [asciiUnicode, if_pos upper, lowered r upper]
      exact decide_eq_false (by omega)
    · simp only [asciiUnicode, if_neg upper]
      exact notSpace

/-- Two spellings of one phrase have one session id. -/
theorem hash_inputs_separate_spellings :
    asciiUnicode.Regular ∧ dialInput asciiUnicode (ascii "app/v1") (ascii "Lion-42 ") =
      dialInput asciiUnicode (ascii "app/v1") (ascii "lion-42") := by
  have secrets : canonical asciiUnicode (ascii "Lion-42 ") =
      canonical asciiUnicode (ascii "lion-42") := by decide +kernel
  refine ⟨asciiUnicode_regular, ?_⟩
  exact (hash_inputs_separate.2 asciiUnicode asciiUnicode_regular (ascii "app/v1")
    (ascii "app/v1") (ascii "Lion-42 ") (ascii "lion-42") defaultRolePolicy false (by decide)
    (by decide)).1.mpr ⟨rfl, secrets⟩

end Parley.Phrase
