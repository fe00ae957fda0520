/-
The history of a chat service over its calls.

`Say`, `HandleFrame` and `Restore` reach the history through `record` alone, which
holds the lock for one message.  So the history is that of a sequence of `record`
calls, however the goroutines that make them interleave.
-/

import Mathlib.Data.List.DropRight
import Parley.Service.Chat

namespace Parley.Service

open Library Service.Chat
open Wire (Bytes ParticipantID)

/-- The history after `record` calls with these messages, from the empty history. -/
def recorded (messages : List StoredMsg) : List StoredMsg :=
  (restoreAll [] messages).1

def accepted (messages : List StoredMsg) : List StoredMsg :=
  (restoreAll [] messages).2

theorem recorded_trails (messages : List StoredMsg) :
    Recent.Trails StoredMsg.id historyCap
      { window := recorded messages
        passed := accepted messages } := by
  unfold recorded accepted
  rw [restoreAll_eq_storeAll]
  exact Recent.storeAll_trails messages

theorem recorded_length_le (messages : List StoredMsg) :
    (recorded messages).length ≤ historyCap := by
  have window := (recorded_trails messages).window
  dsimp only at window
  rw [window, Recent.length_latest]
  exact Nat.min_le_left _ _

/-- The history is the end of what was accepted, as long as the cap allows, with
no id twice; a message is accepted unless its id is among the last accepted. -/
theorem history_is_window_of_accepted (messages : List StoredMsg) :
    ((recorded messages).map StoredMsg.id).Nodup ∧
      (recorded messages).length ≤ historyCap ∧
      recorded messages =
        (accepted messages).rtake (min historyCap (accepted messages).length) ∧
      ∀ m, (record (recorded messages) m).2 = true ↔
        m.id ∉ ((accepted messages).rtake historyCap).map StoredMsg.id := by
  have trails := recorded_trails messages
  have window : recorded messages = (accepted messages).rtake historyCap := trails.window
  refine ⟨trails.distinct, recorded_length_le messages, ?_, fun m => ?_⟩
  · exact trails.window.trans (Recent.latest_min_length _).symm
  · rw [← window, record_eq_store]
    exact Recent.store_isNew_iff

/-- A call of the chat service; a body or a blob that does not decode is absent. -/
inductive ChatCall where
  | say (self : ParticipantID) (text : Bytes) (id : Option UInt64) (sent : Bool)
  | handleFrame (fromID : ParticipantID) (body : Option Msg)
  | restore (blob : Option (List StoredMsg))

def ChatCall.after (history : List StoredMsg) : ChatCall → List StoredMsg
  | .say self text id sent => (Chat.say history self text id sent).history
  | .handleFrame fromID body => (Chat.handleFrame history fromID body).history
  | .restore blob => (Chat.restore history blob).history

def reached (calls : List ChatCall) : List StoredMsg :=
  calls.foldl ChatCall.after []

/-- The messages that the call hands to `record`. -/
def ChatCall.records : ChatCall → List StoredMsg
  | .say self text id sent => if sent then (spoken self text id).toList else []
  | .handleFrame _ none => []
  | .handleFrame fromID (some msg) =>
      if msg.text.length > maxText then []
      else [{ id := msg.id, fromID := fromID, text := msg.text }]
  | .restore blob => blob.getD []

theorem ChatCall.after_eq_restoreAll (history : List StoredMsg) (call : ChatCall) :
    call.after history = (restoreAll history call.records).1 := by
  cases call with
  | say self text id sent =>
      simp only [after, records, Chat.say, spoken]
      by_cases empty : Utf8.trimSpace isSpace text = []
      · rw [if_pos empty, if_pos (Or.inl empty)]
        cases sent <;> rfl
      · by_cases large : (Utf8.trimSpace isSpace text).length > maxText
        · rw [if_neg empty, if_pos large, if_pos (Or.inr large)]
          cases sent <;> rfl
        · rw [if_neg empty, if_neg large, if_neg (not_or.mpr ⟨empty, large⟩)]
          cases id with
          | none => cases sent <;> rfl
          | some id => cases sent <;> rfl
  | handleFrame fromID body =>
      cases body with
      | none => rfl
      | some msg =>
          simp only [after, records, Chat.handleFrame]
          split <;> rfl
  | restore blob =>
      cases blob with
      | none => rfl
      | some messages => rfl

theorem reached_eq_recorded (calls : List ChatCall) :
    reached calls = recorded (calls.flatMap ChatCall.records) := by
  have general : ∀ history, calls.foldl ChatCall.after history =
      (restoreAll history (calls.flatMap ChatCall.records)).1 := by
    induction calls with
    | nil => exact fun _ => rfl
    | cons call rest ih =>
        intro history
        rw [List.foldl_cons, ih, call.after_eq_restoreAll, List.flatMap_cons,
          restoreAll_eq_storeAll, restoreAll_eq_storeAll, restoreAll_eq_storeAll,
          Recent.storeAll_append]
  exact general []

/-- The history is within its bound and no id is in it twice. -/
structure WellKept (history : List StoredMsg) : Prop where
  few : history.length ≤ Chat.historyCap
  distinct : (history.map StoredMsg.id).Nodup

theorem WellKept.reached (calls : List ChatCall) : WellKept (reached calls) := by
  rw [reached_eq_recorded]
  exact
    { few := recorded_length_le _
      distinct := (recorded_trails _).distinct }

end Parley.Service
