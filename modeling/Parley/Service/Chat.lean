/-
The chat service.

A message carries a random id; a message is recorded, and emitted, unless its id
is in the history, which keeps the last two hundred.  A text is any string, so any
list of bytes; the service looks at it only to trim it and to count its bytes.
-/

import Parley.Library.Recent
import Parley.Library.Utf8
import Parley.Service.Ctl

namespace Parley.Service.Chat

open Library
open Wire (Bytes ParticipantID)

def chatID : String := "chat"

def historyCap : Nat := 200

def maxText : Nat := 4096

structure Msg where
  id : UInt64
  text : Bytes
  deriving DecidableEq, Repr

structure StoredMsg where
  id : UInt64
  fromID : ParticipantID
  text : Bytes
  deriving DecidableEq, Repr

inductive ChatError where
  | undecodable
  /-- A text beyond the limit, from the sender named. -/
  | oversized (fromID : ParticipantID)
  /-- One's own text beyond the limit. -/
  | exceeds
  | random
  | broadcast
  deriving DecidableEq, Repr

/-- Stores a message unless its id is in the history; reports whether it was
new. -/
def record (history : List StoredMsg) (m : StoredMsg) : List StoredMsg × Bool :=
  if history.any (fun old => old.id = m.id) then (history, false)
  else
    let longer := history ++ [m]
    (if longer.length > historyCap then longer.drop (longer.length - historyCap) else longer, true)

/-- What a call does: the history after it, the messages emitted, its error. -/
structure Outcome where
  history : List StoredMsg
  emitted : List StoredMsg
  err : Option ChatError
  deriving DecidableEq, Repr

def say (history : List StoredMsg) (self : ParticipantID) (text : Bytes) (id : Option UInt64)
    (sent : Bool) : Outcome :=
  let text := Utf8.trimSpace isSpace text
  if text = [] then { history := history, emitted := [], err := none }
  else if text.length > maxText then { history := history, emitted := [], err := some .exceeds }
  else
    match id with
    | none => { history := history, emitted := [], err := some .random }
    | some id =>
        if sent then
          let m : StoredMsg := { id := id, fromID := self, text := text }
          { history := (record history m).1, emitted := [m], err := none }
        else { history := history, emitted := [], err := some .broadcast }

def handleFrame (history : List StoredMsg) (fromID : ParticipantID) (body : Option Msg) : Outcome :=
  match body with
  | none => { history := history, emitted := [], err := some .undecodable }
  | some msg =>
      if msg.text.length > maxText then
        { history := history, emitted := [], err := some (.oversized fromID) }
      else
        let m : StoredMsg := { id := msg.id, fromID := fromID, text := msg.text }
        let recorded := record history m
        { history := recorded.1
          emitted := if recorded.2 then [m] else []
          err := none }

def snapshot (history : List StoredMsg) : Option (List StoredMsg) :=
  if history.length = 0 then none else some history

/-- The loop of `Restore`. -/
def restoreAll (history : List StoredMsg) : List StoredMsg → List StoredMsg × List StoredMsg
  | [] => (history, [])
  | m :: rest =>
      let recorded := record history m
      let later := restoreAll recorded.1 rest
      (later.1, (if recorded.2 then [m] else []) ++ later.2)

def restore (history : List StoredMsg) (blob : Option (List StoredMsg)) : Outcome :=
  match blob with
  | none => { history := history, emitted := [], err := some .undecodable }
  | some messages =>
      let restored := restoreAll history messages
      { history := restored.1, emitted := restored.2, err := none }

section

variable {history : List StoredMsg} {m : StoredMsg}

theorem record_eq_store (history : List StoredMsg) (m : StoredMsg) :
    record history m = Recent.store StoredMsg.id historyCap history m :=
  rfl

theorem restoreAll_eq_storeAll (history messages : List StoredMsg) :
    restoreAll history messages = Recent.storeAll StoredMsg.id historyCap history messages := by
  induction messages generalizing history with
  | nil => rfl
  | cons m rest ih => rw [restoreAll, Recent.storeAll, record_eq_store, ih]

theorem mem_of_mem_record {old : StoredMsg} (member : old ∈ (record history m).1) :
    old ∈ history ∨ old = m :=
  Recent.mem_of_mem_store member

theorem mem_of_mem_restoreAll {messages : List StoredMsg} {old : StoredMsg}
    (member : old ∈ (restoreAll history messages).1) : old ∈ history ∨ old ∈ messages := by
  induction messages generalizing history with
  | nil => exact Or.inl member
  | cons first rest ih =>
      rcases ih member with recorded | later
      · rcases mem_of_mem_record recorded with before | rfl
        · exact Or.inl before
        · exact Or.inr List.mem_cons_self
      · exact Or.inr (List.mem_cons_of_mem first later)

end

/-- The message that `Say` makes of a text, if it accepts it. -/
def spoken (self : ParticipantID) (text : Bytes) (id : Option UInt64) : Option StoredMsg :=
  let text := Utf8.trimSpace isSpace text
  if text = [] ∨ text.length > maxText then none
  else id.map (fun id => { id := id, fromID := self, text := text })

theorem say_history (history : List StoredMsg) (self : ParticipantID) (text : Bytes)
    (id : Option UInt64) (sent : Bool) :
    (say history self text id sent).history = history ∨
      ∃ m, spoken self text id = some m ∧
        (say history self text id sent).history = (record history m).1 := by
  unfold say spoken
  simp only
  split
  · exact Or.inl rfl
  · rename_i some_
    split
    · exact Or.inl rfl
    · rename_i short
      cases id with
      | none => exact Or.inl rfl
      | some id =>
          cases sent with
          | false => exact Or.inl rfl
          | true => exact Or.inr ⟨_, if_neg (not_or.mpr ⟨some_, short⟩), rfl⟩

theorem handleFrame_history (history : List StoredMsg) (fromID : ParticipantID)
    (body : Option Msg) :
    (handleFrame history fromID body).history = history ∨
      ∃ msg, body = some msg ∧ msg.text.length ≤ maxText ∧
        (handleFrame history fromID body).history =
          (record history { id := msg.id, fromID := fromID, text := msg.text }).1 := by
  cases body with
  | none => exact Or.inl rfl
  | some msg =>
      simp only [handleFrame]
      split
      · exact Or.inl rfl
      · rename_i short
        exact Or.inr ⟨msg, rfl, Nat.le_of_not_gt short, rfl⟩

theorem trimSpace_encode (text : Name) :
    Utf8.trimSpace isSpace (Utf8.encode text) = Utf8.encode (trimSpace text) := by
  have read : Utf8.pieces (Utf8.trimSpace isSpace (Utf8.encode text)) =
      Utf8.pieces (Utf8.encode (trimSpace text)) := by
    rw [Utf8.pieces_trimSpace, Utf8.pieces_encode, Utf8.pieces_encode]
    exact trim_map _ _
  rw [← Utf8.join_pieces (Utf8.trimSpace isSpace (Utf8.encode text)), read, Utf8.join_pieces]

theorem encode_eq_nil_iff (text : Name) : Utf8.encode text = [] ↔ text = [] := by
  constructor
  · intro empty
    rw [← Utf8.runes_encode text, empty]
    rfl
  · rintro rfl
    rfl

end Parley.Service.Chat
