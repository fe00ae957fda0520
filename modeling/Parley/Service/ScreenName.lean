/-
Screen names.

A name is normalised where it is set and once more where the host receives it.
Trimming comes before stripping and cutting, so the first pass can leave white
space at an end, and the second pass then changes the name.
-/

import Parley.Library.Trim
import Parley.Service.Ctl

namespace Parley.Service

open Library Session
open Wire (Bytes ParticipantID)

section

variable {Rune : Type} (isSpace isControl : Rune → Bool) (limit : Nat)

def visible (s : List Rune) : List Rune :=
  (trim isSpace s).filter (fun r => !isControl r)

def sanitize (s : List Rune) : List Rune :=
  let kept := visible isSpace isControl s
  if kept.length > limit then kept.take limit else kept

/-- Stripping and cutting uncover no white space: of the trimmed text, neither the
first rune that is not a control character nor the last one kept is white space. -/
structure Tidy (s : List Rune) : Prop where
  begins : ∀ r ∈ (trim isSpace s).find? (fun r => !isControl r), isSpace r = false
  ends : ∀ r ∈ ((visible isSpace isControl s).take limit).getLast?, isSpace r = false

instance (s : List Rune) : Decidable (Tidy isSpace isControl limit s) :=
  decidable_of_iff
    ((∀ r ∈ (trim isSpace s).find? (fun r => !isControl r), isSpace r = false) ∧
      ∀ r ∈ ((visible isSpace isControl s).take limit).getLast?, isSpace r = false)
    ⟨fun both => ⟨both.1, both.2⟩, fun tidy => ⟨tidy.begins, tidy.ends⟩⟩

variable {isSpace isControl limit}

theorem sanitize_eq_take (s : List Rune) :
    sanitize isSpace isControl limit s = (visible isSpace isControl s).take limit := by
  unfold sanitize
  simp only
  split
  · rfl
  · rename_i short
    exact (List.take_of_length_le (Nat.le_of_not_gt short)).symm

theorem length_sanitize_le (s : List Rune) :
    (sanitize isSpace isControl limit s).length ≤ limit := by
  rw [sanitize_eq_take]
  exact List.length_take_le ..

variable {s : List Rune}

theorem not_control_of_mem_sanitize {r : Rune} (member : r ∈ sanitize isSpace isControl limit s) :
    isControl r = false := by
  rw [sanitize_eq_take] at member
  have kept := (List.mem_filter.mp (List.mem_of_mem_take member)).2
  exact Bool.not_eq_true' _ ▸ kept

/-- After the first pass there is nothing left to strip or to cut. -/
theorem sanitize_sanitize (s : List Rune) :
    sanitize isSpace isControl limit (sanitize isSpace isControl limit s) =
      trim isSpace (sanitize isSpace isControl limit s) := by
  obtain ⟨before, after, split⟩ :=
    @exists_eq_trim Rune isSpace (sanitize isSpace isControl limit s)
  have stripped : visible isSpace isControl (sanitize isSpace isControl limit s) =
      trim isSpace (sanitize isSpace isControl limit s) := by
    refine List.filter_eq_self.mpr (fun r member => ?_)
    have inside : r ∈ sanitize isSpace isControl limit s := by
      rw [split]
      exact List.mem_append_right _ (List.mem_append_left _ member)
    rw [not_control_of_mem_sanitize inside]
    rfl
  rw [sanitize_eq_take, stripped]
  have short := @length_sanitize_le Rune isSpace isControl limit s
  rw [split, List.length_append, List.length_append] at short
  exact List.take_of_length_le (by omega)

theorem sanitize_sanitize_iff_bare :
    sanitize isSpace isControl limit (sanitize isSpace isControl limit s) =
        sanitize isSpace isControl limit s ↔
      Bare isSpace (sanitize isSpace isControl limit s) := by
  rw [sanitize_sanitize]
  exact trim_eq_self_iff

theorem bare_sanitize_iff (positive : limit ≠ 0) :
    Bare isSpace (sanitize isSpace isControl limit s) ↔ Tidy isSpace isControl limit s := by
  have begins : (sanitize isSpace isControl limit s).head? =
      (trim isSpace s).find? (fun r => !isControl r) := by
    rw [sanitize_eq_take, List.head?_take, if_neg positive]
    exact List.head?_filter
  rw [sanitize_eq_take] at begins ⊢
  exact ⟨fun bare => ⟨begins ▸ bare.head, bare.last⟩, fun tidy => ⟨begins ▸ tidy.begins, tidy.ends⟩⟩

end

theorem sanitizeName_eq (s : Name) :
    sanitizeName s = sanitize isSpace isControl maxNameLen s := rfl

theorem setName_of_joiner {c : Ctl} (joiner : c.ctx.host = false) (services : List ServiceInfo)
    {name : Name} (shown : sanitizeName name ≠ []) :
    (c.setName services name).1.names.lookup c.ctx.self = some (sanitizeName name) ∧
      (c.setName services name).2 =
        [.sendTo c.ctx.hostID (.identity (sanitizeName name) [])] := by
  unfold Ctl.setName
  simp only [if_neg shown, joiner, Bool.false_eq_true, if_false]
  exact ⟨AList.lookup_insert _, trivial⟩

theorem handleIdentity_names {c : Ctl} (host : c.ctx.host = true) (services : List ServiceInfo)
    (fromID : ParticipantID) {name : Name} (shown : name ≠ []) (endpoint : Bytes) :
    (c.handleIdentity services fromID name endpoint).1.names.lookup fromID =
      some (sanitizeName name) := by
  unfold Ctl.handleIdentity
  simp only [if_pos host, if_neg shown]
  exact AList.lookup_insert _

/-- A normalised name has no control character and is not too long.  It has no white
space at its ends, a second pass leaves it alone, and the host stores the name the
joiner stores, each exactly when the text is tidy. -/
theorem screen_name_normal_form {Rune : Type} (space control : Rune → Bool) (s : List Rune)
    (joiner host : Ctl) (services hostServices : List ServiceInfo) (name : Name) :
    ((∀ r ∈ sanitize space control maxNameLen s, control r = false) ∧
      (sanitize space control maxNameLen s).length ≤ maxNameLen ∧
      (Bare space (sanitize space control maxNameLen s) ↔ Tidy space control maxNameLen s) ∧
      (sanitize space control maxNameLen (sanitize space control maxNameLen s) =
          sanitize space control maxNameLen s ↔ Tidy space control maxNameLen s)) ∧
    sanitizeName name = sanitize isSpace isControl maxNameLen name ∧
    (joiner.ctx.host = false → host.ctx.host = true → sanitizeName name ≠ [] →
      ∃ stored reported held,
        (joiner.setName services name).1.names.lookup joiner.ctx.self = some stored ∧
          (joiner.setName services name).2 =
            [.sendTo joiner.ctx.hostID (.identity reported [])] ∧
          (host.handleIdentity hostServices joiner.ctx.self reported []).1.names.lookup
            joiner.ctx.self = some held ∧ stored ≠ [] ∧
          (held = stored ∧ held ≠ [] ↔ Tidy isSpace isControl maxNameLen name)) := by
  have positive : maxNameLen ≠ 0 := by decide
  refine ⟨⟨fun r => not_control_of_mem_sanitize, length_sanitize_le s,
    bare_sanitize_iff positive, sanitize_sanitize_iff_bare.trans (bare_sanitize_iff positive)⟩,
    sanitizeName_eq name, ?_⟩
  intro isJoiner isHost shown
  obtain ⟨stores, reports⟩ := setName_of_joiner isJoiner services shown
  refine ⟨sanitizeName name, sanitizeName name, sanitizeName (sanitizeName name), stores, reports,
    handleIdentity_names isHost hostServices joiner.ctx.self shown [], shown, ?_⟩
  rw [← bare_sanitize_iff positive, ← sanitize_sanitize_iff_bare]
  exact ⟨fun both => both.1, fun same => ⟨same, fun blank => shown (same.symm.trans blank)⟩⟩

def sampleJoiner : Ctl :=
  { Ctl.new with ctx := { self := 2, hostID := 1, host := false } }

def sampleCtlHost : Ctl :=
  { Ctl.new with ctx := { self := 1, hostID := 1, host := true } }

/-- A control character at each end hides no white space, and one inside is dropped. -/
def spacedName : Name := [' ', '\x01', 'a', '\t', 'd', ' ', 'a', '\x01']

theorem screen_name_normal_form_spaced :
    Tidy isSpace isControl maxNameLen spacedName ∧
      sanitizeName (sanitizeName spacedName) = ['a', 'd', ' ', 'a'] ∧
      ∃ held, (sampleCtlHost.handleIdentity [] 2 (sanitizeName spacedName) []).1.names.lookup 2 =
        some held ∧ (sampleJoiner.setName [] spacedName).1.names.lookup 2 = some held := by
  have tidy : Tidy isSpace isControl maxNameLen spacedName := by decide
  obtain ⟨⟨_, _, _, second⟩, _, both⟩ := screen_name_normal_form isSpace isControl
    spacedName sampleJoiner sampleCtlHost [] [] spacedName
  obtain ⟨stored, reported, held, stores, reports, holds, _, same⟩ := both rfl rfl (by decide)
  obtain ⟨rfl, _⟩ := same.mpr tidy
  cases reports
  exact ⟨tidy, (second.mpr tidy).trans (by decide), held, holds, stores⟩

def hiddenSpace : Name := ['\x01', ' ', '\x01']

/-- One space between control characters: the first pass uncovers it, the joiner
keeps it as its name, and the host stores an empty name. -/
theorem uncovered_space_is_trimmed_later :
    (¬∀ s : Name, Bare isSpace (sanitizeName s)) ∧
    (¬∀ s : Name, sanitizeName (sanitizeName s) = sanitizeName s) ∧
    ¬∀ (joiner host : Ctl) (services hostServices : List ServiceInfo)
      (name reported stored held : Name),
      joiner.ctx.host = false → host.ctx.host = true →
      (joiner.setName services name).2 =
          [.sendTo joiner.ctx.hostID (.identity reported [])] →
      (joiner.setName services name).1.names.lookup joiner.ctx.self = some stored →
      (host.handleIdentity hostServices joiner.ctx.self reported []).1.names.lookup
          joiner.ctx.self = some held →
      stored = held ∧ (stored ≠ [] → held ≠ []) := by
  have first : sanitizeName hiddenSpace = [' '] := by decide
  refine ⟨fun claimed => ?_, fun claimed => ?_, fun claimed => ?_⟩
  · have bare := claimed hiddenSpace
    rw [first] at bare
    exact absurd (bare.head ' ' rfl) (by decide)
  · exact absurd (claimed hiddenSpace) (by decide)
  · have shown : sanitizeName hiddenSpace ≠ [] := by decide
    obtain ⟨stores, reports⟩ :=
      @setName_of_joiner sampleJoiner rfl [] hiddenSpace shown
    have held := @handleIdentity_names sampleCtlHost rfl [] 2 _ shown []
    have both := claimed sampleJoiner sampleCtlHost [] [] hiddenSpace _ _ _ rfl rfl
      reports stores held
    exact both.2 shown (by decide)

end Parley.Service
