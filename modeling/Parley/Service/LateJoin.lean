/-
A late joiner of the chat.

It meets the host's history in a snapshot and other messages, or the same ones, in
live frames.  The memory of the service is bounded, so a message can be met again
after it was forgotten; this depends only on the order in which the messages reach
the joiner.
-/

import Parley.Library.Run
import Parley.Service.Chat

namespace Parley.Service.Chat

open Library
open Wire (Bytes ParticipantID)

def memory (history emitted : List StoredMsg) : Recent StoredMsg :=
  { window := history
    passed := emitted }

theorem record_eq_offer (history emitted : List StoredMsg) (m : StoredMsg) :
    (memory history emitted).offer StoredMsg.id historyCap m =
      memory (record history m).1 (emitted ++ if (record history m).2 then [m] else []) :=
  Recent.offer_eq_store history emitted m

theorem restoreAll_eq_offerAll (history emitted messages : List StoredMsg) :
    (memory history emitted).offerAll StoredMsg.id historyCap messages =
      memory (restoreAll history messages).1 (emitted ++ (restoreAll history messages).2) := by
  rw [restoreAll_eq_storeAll]
  exact Recent.offerAll_eq_storeAll history emitted messages

/-- The host's chat, a late joiner's chat, the host's snapshot once it is taken,
and histories: the live frames, the joiner's own messages, everything recorded
at the joiner in order, and everything it emitted. -/
structure LateJoin where
  host : List StoredMsg
  joiner : List StoredMsg
  taken : Bool
  blob : Option (List StoredMsg)
  restored : Bool
  live : List StoredMsg
  own : List StoredMsg
  arrived : List StoredMsg
  emitted : List StoredMsg

def LateJoin.start : LateJoin :=
  { host := []
    joiner := []
    taken := false
    blob := none
    restored := false
    live := []
    own := []
    arrived := []
    emitted := [] }

inductive LateAction where
  /-- The host says the message or is delivered it. -/
  | recorded (m : StoredMsg)
  | snapshots
  | delivered (m : StoredMsg)
  | restores
  /-- The joiner says a message of its own. -/
  | said (m : StoredMsg)

def LateAction.message : LateAction → Option StoredMsg
  | .recorded m => some m
  | .delivered m => some m
  | .said m => some m
  | .snapshots => none
  | .restores => none

/-- A live frame is delivered once and within the limit that `Say` keeps; the
snapshot is taken once and restored once. -/
def LateJoin.step (s : LateJoin) (action : LateAction) : Option LateJoin :=
  match action with
  | .recorded m => some { s with host := (record s.host m).1 }
  | .snapshots =>
      if s.taken then none
      else
        some { s with
          taken := true
          blob := snapshot s.host }
  | .delivered m =>
      if m ∈ s.live ∨ m.text.length > maxText then none
      else
        let outcome := handleFrame s.joiner m.fromID (some { id := m.id, text := m.text })
        some { s with
          joiner := outcome.history
          live := s.live ++ [m]
          arrived := s.arrived ++ [m]
          emitted := s.emitted ++ outcome.emitted }
  | .restores =>
      match s.blob with
      | none => none
      | some messages =>
          if s.restored then none
          else
            let outcome := restore s.joiner (some messages)
            some { s with
              joiner := outcome.history
              restored := true
              arrived := s.arrived ++ messages
              emitted := s.emitted ++ outcome.emitted }
  | .said m =>
      if m ∈ s.arrived then none
      else
        let outcome := say s.joiner m.fromID m.text (some m.id) true
        if outcome.emitted = [m] then
          some { s with
            joiner := outcome.history
            own := s.own ++ [m]
            arrived := s.arrived ++ [m]
            emitted := s.emitted ++ outcome.emitted }
        else none

/-- The joiner has met the message: live, as its own, or in the snapshot. -/
def LateJoin.Met (s : LateJoin) (m : StoredMsg) : Prop :=
  m ∈ s.live ∨ m ∈ s.own ∨ (s.restored = true ∧ ∃ messages, s.blob = some messages ∧ m ∈ messages)

def LateJoin.arrivals (s : LateJoin) : LateAction → List StoredMsg
  | .delivered m => [m]
  | .said m => [m]
  | .restores => s.blob.getD []
  | .recorded _ => []
  | .snapshots => []

variable {known : StoredMsg → Prop} {s next : LateJoin} {action : LateAction} {m : StoredMsg}
  {history : List StoredMsg}

theorem say_emits {self : ParticipantID} {text : Bytes} {id : UInt64}
    (emits : (say history self text (some id) true).emitted = [m]) :
    (say history self text (some id) true).history = (record history m).1 := by
  unfold say at emits ⊢
  dsimp only at emits ⊢
  split at emits
  · cases emits
  · rename_i nonempty
    rw [if_neg nonempty]
    split at emits
    · cases emits
    · rename_i within
      rw [if_neg within]
      rw [if_pos rfl] at emits ⊢
      cases emits
      rfl

theorem LateJoin.step_cases (stepped : s.step action = some next) :
    (∃ m, action = .recorded m ∧ next = { s with host := (record s.host m).1 }) ∨
    (action = .snapshots ∧ s.taken = false ∧
      next = { s with taken := true, blob := snapshot s.host }) ∨
    (∃ m, action = .delivered m ∧ next = { s with
      joiner := (record s.joiner m).1
      live := s.live ++ [m]
      arrived := s.arrived ++ [m]
      emitted := s.emitted ++ if (record s.joiner m).2 then [m] else [] }) ∨
    (∃ messages, action = .restores ∧ s.blob = some messages ∧ s.restored = false ∧
      next = { s with
        joiner := (restoreAll s.joiner messages).1
        restored := true
        arrived := s.arrived ++ messages
        emitted := s.emitted ++ (restoreAll s.joiner messages).2 }) ∨
    (∃ m, action = .said m ∧ m ∉ s.arrived ∧ next = { s with
      joiner := (record s.joiner m).1
      own := s.own ++ [m]
      arrived := s.arrived ++ [m]
      emitted := s.emitted ++ [m] }) := by
  cases action with
  | recorded m =>
      cases stepped
      exact Or.inl ⟨m, rfl, rfl⟩
  | snapshots =>
      obtain ⟨first, isNext⟩ := Option.ite_none_left_eq_some.mp stepped
      cases isNext
      exact Or.inr (Or.inl ⟨rfl, Bool.eq_false_iff.mpr first, rfl⟩)
  | delivered m =>
      obtain ⟨allowed, isNext⟩ := Option.ite_none_left_eq_some.mp stepped
      have within : ¬ m.text.length > maxText := fun large => allowed (Or.inr large)
      simp only [handleFrame, if_neg within] at isNext
      cases isNext
      exact Or.inr (Or.inr (Or.inl ⟨m, rfl, rfl⟩))
  | restores =>
      unfold LateJoin.step at stepped
      dsimp only at stepped
      split at stepped
      · cases stepped
      · rename_i messages blob
        obtain ⟨first, isNext⟩ := Option.ite_none_left_eq_some.mp stepped
        cases isNext
        exact Or.inr (Or.inr (Or.inr (Or.inl
          ⟨messages, rfl, blob, Bool.eq_false_iff.mpr first, rfl⟩)))
  | said m =>
      obtain ⟨fresh, more⟩ := Option.ite_none_left_eq_some.mp stepped
      obtain ⟨emits, isNext⟩ := Option.ite_none_right_eq_some.mp more
      rw [say_emits emits, emits] at isNext
      cases isNext
      exact Or.inr (Or.inr (Or.inr (Or.inr ⟨m, rfl, fresh, rfl⟩)))

/-- The messages come from `known`, and the joiner's history and what it emitted are
what recording the arrivals in turn leads to. -/
structure LateJoin.Sound (known : StoredMsg → Prop) (s : LateJoin) : Prop where
  memory : memory s.joiner s.emitted = Recent.empty.offerAll StoredMsg.id historyCap s.arrived
  host : ∀ m ∈ s.host, known m
  blob : ∀ messages, s.blob = some messages → ∀ m ∈ messages, known m
  arrived : ∀ m ∈ s.arrived, known m
  untaken : s.taken = false → s.blob = none
  pending : s.restored = true → s.taken = true
  met : ∀ m, m ∈ s.arrived ↔ s.Met m

def Distinct (known : StoredMsg → Prop) : Prop :=
  ∀ a b, known a → known b → a.id = b.id → a = b

namespace LateJoin.Sound

theorem distinguished (sound : s.Sound known) (distinct : Distinct known) :
    ∀ old ∈ s.arrived, ∀ new ∈ s.arrived, old.id = new.id → old = new :=
  fun old member new isNew => distinct old new (sound.arrived old member) (sound.arrived new isNew)

theorem record_new (sound : s.Sound known) (distinct : Distinct known) (isKnown : known m)
    (fresh : m ∉ s.arrived) : (record s.joiner m).2 = true := by
  have filter : (Chat.memory s.joiner s.emitted).Sound historyCap s.arrived := by
    rw [sound.memory]
    exact Recent.empty_sound.offerAll (sound.distinguished distinct)
  have unknown : ¬ s.joiner.any (fun old => decide (old.id = m.id)) = true := by
    intro found
    obtain ⟨old, member, same⟩ := List.any_eq_true.mp found
    have earlier := filter.mem_seen member
    rw [distinct old m (sound.arrived old earlier) isKnown (of_decide_eq_true same)] at earlier
    exact fresh earlier
  rw [record, if_neg unknown]

theorem offered (sound : s.Sound known) (distinct : Distinct known)
    (named : ∀ m, action.message = some m → known m) (stepped : s.step action = some next) :
    Chat.memory next.joiner next.emitted =
        (Chat.memory s.joiner s.emitted).offerAll StoredMsg.id historyCap (s.arrivals action) ∧
      next.arrived = s.arrived ++ s.arrivals action := by
  rcases LateJoin.step_cases stepped with
    ⟨m, rfl, rfl⟩ | ⟨rfl, -, rfl⟩ | ⟨m, rfl, rfl⟩ | ⟨messages, rfl, blob, -, rfl⟩ |
      ⟨m, rfl, fresh, rfl⟩
  · exact ⟨rfl, (List.append_nil _).symm⟩
  · exact ⟨rfl, (List.append_nil _).symm⟩
  · exact ⟨(record_eq_offer s.joiner s.emitted m).symm, rfl⟩
  · simp only [LateJoin.arrivals, blob, Option.getD_some]
    exact ⟨(restoreAll_eq_offerAll s.joiner s.emitted messages).symm, trivial⟩
  · have one := record_eq_offer s.joiner s.emitted m
    rw [sound.record_new distinct (named m rfl) fresh, if_pos rfl] at one
    exact ⟨one.symm, rfl⟩

theorem arrivals_known (sound : s.Sound known)
    (named : ∀ m, action.message = some m → known m) : ∀ m ∈ s.arrivals action, known m := by
  cases action with
  | recorded m => exact fun other member => by cases member
  | snapshots => exact fun other member => by cases member
  | delivered m | said m => exact fun other member => List.mem_singleton.mp member ▸ named m rfl
  | restores =>
      intro other member
      unfold LateJoin.arrivals at member
      cases blob : s.blob with
      | none =>
          rw [blob] at member
          cases member
      | some messages =>
          rw [blob] at member
          exact sound.blob messages blob other member

theorem untaken_step (sound : s.Sound known) (stepped : s.step action = some next) :
    next.taken = false → next.blob = none := by
  rcases LateJoin.step_cases stepped with
    ⟨m, rfl, rfl⟩ | ⟨rfl, -, rfl⟩ | ⟨m, rfl, rfl⟩ | ⟨messages, rfl, -, -, rfl⟩ |
      ⟨m, rfl, -, rfl⟩
  · exact sound.untaken
  · exact fun never => by cases never
  · exact sound.untaken
  · exact sound.untaken
  · exact sound.untaken

theorem host_known (sound : s.Sound known)
    (named : ∀ m, action.message = some m → known m) (stepped : s.step action = some next) :
    (∀ m ∈ next.host, known m) ∧
      ∀ messages, next.blob = some messages → ∀ m ∈ messages, known m := by
  rcases LateJoin.step_cases stepped with
    ⟨m, rfl, rfl⟩ | ⟨rfl, -, rfl⟩ | ⟨m, rfl, rfl⟩ | ⟨messages, rfl, -, -, rfl⟩ |
      ⟨m, rfl, -, rfl⟩
  · refine ⟨fun other member => ?_, sound.blob⟩
    rcases mem_of_mem_record member with early | rfl
    · exact sound.host other early
    · exact named other rfl
  · refine ⟨sound.host, fun messages taken => ?_⟩
    obtain ⟨-, isHost⟩ := Option.ite_none_left_eq_some.mp taken
    cases isHost
    exact sound.host
  · exact ⟨sound.host, sound.blob⟩
  · exact ⟨sound.host, sound.blob⟩
  · exact ⟨sound.host, sound.blob⟩

theorem met_step (sound : s.Sound known) (stepped : s.step action = some next) :
    (next.restored = true → next.taken = true) ∧ ∀ m, m ∈ next.arrived ↔ next.Met m := by
  rcases LateJoin.step_cases stepped with
    ⟨m, rfl, rfl⟩ | ⟨rfl, first, rfl⟩ | ⟨m, rfl, rfl⟩ | ⟨messages, rfl, blob, first, rfl⟩ |
      ⟨m, rfl, -, rfl⟩
  · exact ⟨sound.pending, sound.met⟩
  · have unrestored : s.restored ≠ true := by
      intro restored
      rw [sound.pending restored] at first
      cases first
    refine ⟨fun _ => rfl, fun m => ?_⟩
    rw [sound.met m]
    simp only [LateJoin.Met, Bool.eq_false_iff.mpr unrestored, Bool.false_eq_true, false_and]
  · refine ⟨sound.pending, fun other => ?_⟩
    simp only [LateJoin.Met, List.mem_append, sound.met other]
    exact or_right_comm
  · have taken : s.taken = true := by
      cases isTaken : s.taken with
      | true => rfl
      | false =>
          rw [sound.untaken isTaken] at blob
          cases blob
    refine ⟨fun _ => taken, fun other => ?_⟩
    simp only [LateJoin.Met, List.mem_append, sound.met other, first, blob, Bool.false_eq_true,
      false_and, or_false, true_and, Option.some.injEq, exists_eq_left', or_assoc]
  · refine ⟨sound.pending, fun other => ?_⟩
    simp only [LateJoin.Met, List.mem_append, sound.met other]
    rw [or_assoc]
    exact or_congr_right or_right_comm

theorem step (sound : s.Sound known) (distinct : Distinct known)
    (named : ∀ m, action.message = some m → known m) (stepped : s.step action = some next) :
    next.Sound known := by
  obtain ⟨isMemory, isArrived⟩ := sound.offered distinct named stepped
  obtain ⟨host, blob⟩ := sound.host_known named stepped
  obtain ⟨pending, met⟩ := sound.met_step stepped
  refine
    { memory := ?_
      host := host
      blob := blob
      arrived := fun m member => ?_
      untaken := sound.untaken_step stepped
      pending := pending
      met := met }
  · rw [isMemory, isArrived, sound.memory]
    exact List.foldl_append.symm
  · rw [isArrived] at member
    rcases List.mem_append.mp member with early | late
    · exact sound.arrived m early
    · exact sound.arrivals_known named m late

theorem run {final : LateJoin} {actions : List LateAction} (sound : s.Sound known)
    (distinct : Distinct known)
    (named : ∀ action ∈ actions, ∀ m, action.message = some m → known m)
    (reached : Library.run LateJoin.step s actions = some final) : final.Sound known := by
  induction actions generalizing s with
  | nil =>
      cases reached
      exact sound
  | cons action rest ih =>
      obtain ⟨next, stepped, tail⟩ := (run_cons_eq_some s final action rest).mp reached
      exact ih (sound.step distinct (named action List.mem_cons_self) stepped)
        (fun other member => named other (List.mem_cons_of_mem _ member)) tail

end LateJoin.Sound

def word (id : UInt64) : StoredMsg :=
  { id := id
    fromID := 2
    text := [119] }

def words (count : Nat) : List StoredMsg :=
  (List.range count).map (fun index => word (UInt64.ofNat index))

end Parley.Service.Chat
