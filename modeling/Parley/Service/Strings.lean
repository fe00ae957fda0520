/-
Strings on the wire.

The encoder writes any string as a text string and the decoder refuses one that is
not valid UTF-8.  A screen name is made valid before it is kept; a chat text, an
endpoint and a push key are kept as they are given, and go out again in every
snapshot or announce.  What is received was decoded, so it is valid.
-/

import Mathlib.Logic.Equiv.List
import Parley.Service.Chat
import Parley.Service.Layered

namespace Parley.Service

open Library Library.Utf8 Service.Chat Session
open Wire (Bytes ParticipantID)

/-- `wire.Marshal` and `wire.Body` for the values of one type. -/
structure BodyCodec (α Raw : Type) where
  marshal : α → Raw
  body : Raw → Option α

/-- The decoder refuses text strings that are not valid, and only those; what it reads
is the value up to `same`. -/
structure BodyCodec.Strict {α Raw : Type} (codec : BodyCodec α Raw) (texts : α → List Bytes)
    (same : α → α → Prop) : Prop where
  roundTrip : ∀ value, (∀ text ∈ texts value, Valid text) →
    ∃ read, codec.body (codec.marshal value) = some read ∧ same read value
  refuses : ∀ raw value, codec.body raw = some value → ∀ text ∈ texts value, Valid text

def CtlMsg.texts : CtlMsg → List Bytes
  | .announce a =>
      a.names.entries.map (fun entry => encode entry.2) ++
        (a.endpoints.entries.map (fun entry => entry.2) ++
          (a.pushKey :: a.services.map (fun info => encode info.id.toList)))
  | .identity name endpoint => [encode name, endpoint]
  | .snapshot blobs => blobs.keys.map (fun id => encode id.toList)
  | .snapshotReq => []
  | .other => []

/-- The same message, with maps that may list their entries in another order. -/
def CtlMsg.Same : CtlMsg → CtlMsg → Prop
  | .announce a, .announce b =>
      (∀ id, a.roster.lookup id = b.roster.lookup id) ∧ (∀ id, a.names.lookup id = b.names.lookup id) ∧
        (∀ id, a.endpoints.lookup id = b.endpoints.lookup id) ∧ a.pushKey = b.pushKey ∧
        a.services = b.services
  | .snapshot blobs, .snapshot others => ∀ id, blobs.lookup id = others.lookup id
  | msg, written => msg = written

theorem CtlMsg.Same.refl (msg : CtlMsg) : msg.Same msg := by
  cases msg with
  | announce a => exact ⟨fun _ => rfl, fun _ => rfl, fun _ => rfl, rfl, rfl⟩
  | snapshot blobs => exact fun _ => rfl
  | _ => exact rfl

def msgTexts (m : Msg) : List Bytes := [m.text]

def snapshotTexts (history : List StoredMsg) : List Bytes := history.map StoredMsg.text

/-- The codecs of the bodies, for any form in which they travel; a snapshot is
bytes in a ctl body. -/
structure Codecs (RawMsg RawCtl : Type) where
  msg : BodyCodec Msg RawMsg
  snapshot : BodyCodec (List StoredMsg) Bytes
  ctl : BodyCodec CtlMsg RawCtl

structure Codecs.Strict {RawMsg RawCtl : Type} (codecs : Codecs RawMsg RawCtl) : Prop where
  msg : codecs.msg.Strict msgTexts Eq
  snapshot : codecs.snapshot.Strict snapshotTexts Eq
  ctl : codecs.ctl.Strict CtlMsg.texts CtlMsg.Same

/-- `sanitizeName` on the bytes of a string. -/
def sanitizeString (s : Bytes) : Bytes :=
  let s := mapRunes (fun r => if isControl r then none else some r) (Utf8.trimSpace isSpace s)
  if (runes s).length > maxNameLen then encode ((runes s).take maxNameLen) else s

theorem sanitizeString_eq (s : Bytes) : sanitizeString s = encode (sanitizeName (runes s)) := by
  have kept : (trim isSpace (runes s)).filterMap (fun r => if isControl r then none else some r) =
      (trimSpace (runes s)).filter (fun r => !isControl r) := by
    rw [← List.filterMap_eq_filter]
    refine List.filterMap_congr (fun r _ => ?_)
    cases control : isControl r <;> simp only [Option.guard, control] <;> rfl
  unfold sanitizeString sanitizeName mapRunes
  simp only [runes_trimSpace, kept, runes_encode]
  split <;> rfl

/-- `setName` on a string; the name is kept as its runes. -/
def Ctl.setNameString (c : Ctl) (services : List ServiceInfo) (s : Bytes) :
    Ctl × List Outgoing :=
  let name := sanitizeString s
  if name = [] then (c, [])
  else
    let c' := { c with
      selfName := runes name
      names := c.names.insert c.ctx.self (runes name) }
    if c.ctx.host then (c', [c'.announce services])
    else (c', [.sendTo c.ctx.hostID (.identity (runes name) [])])

theorem Ctl.setNameString_eq (c : Ctl) (services : List ServiceInfo) (s : Bytes) :
    c.setNameString services s = c.setName services (runes s) := by
  unfold setNameString setName
  simp only [sanitizeString_eq, runes_encode, encode_eq_nil_iff]

def decodeError : String := "wire: decode body"

def chatOps (codec : BodyCodec (List StoredMsg) Bytes) : ServiceOps (List StoredMsg) :=
  { version := 1
    snapshot := fun history => .ok (if history.length = 0 then [] else codec.marshal history)
    restore := fun history blob =>
      let outcome := restore history (codec.body blob)
      (outcome.history, outcome.err.map (fun _ => s!"chat: restore: {decodeError}")) }

def chatRegistry (codec : BodyCodec (List StoredMsg) Bytes) :
    Registry (fun _ => List StoredMsg) :=
  { ops := fun id => if id = chatID then some (chatOps codec) else none }

theorem chatRegistry_chat (codec : BodyCodec (List StoredMsg) Bytes) :
    (chatRegistry codec).ops chatID = some (chatOps codec) := by
  simp only [chatRegistry, if_true]

theorem chatRegistry_other (codec : BodyCodec (List StoredMsg) Bytes) {id : String}
    (other : id ≠ chatID) : (chatRegistry codec).ops id = none := by
  simp only [chatRegistry, if_neg other]

abbrev ChatEnd : Type := Layered (fun _ => List StoredMsg)

def ChatEnd.new : ChatEnd :=
  { ctl := Ctl.new
    state := fun _ => [] }

/-- A body that was built; a snapshot with the history it is of. -/
inductive Built where
  | chatMsg (m : Msg)
  | chatSnapshot (history : List StoredMsg) (blob : Bytes)
  | ctl (msg : CtlMsg)

/-- What happens at an end: calls of the application, frames, events of the
session. -/
inductive Call (RawMsg RawCtl : Type) where
  | say (text : Bytes) (id : Option UInt64) (sent : Bool)
  | setName (name : Bytes)
  | setEndpoint (endpoint : Bytes)
  | setPushKey (key : Bytes)
  | chatFrame (fromID : ParticipantID) (raw : RawMsg)
  | ctlFrame (fromID : ParticipantID) (raw : RawCtl) (pruned : List ParticipantID)
  | keyed (id : ParticipantID) (role : Role)
  | left (id : ParticipantID)
  | attach (ctx : Context)
  | assumeHost (leaver : ParticipantID)
  | requestSnapshot

/-- The bodies of a ctl message: its own, and the chat snapshot inside. -/
def Outgoing.built (history : List StoredMsg) (out : Outgoing) : List Built :=
  match out.msg with
  | .snapshot blobs =>
      .ctl (.snapshot blobs) :: ((blobs.lookup chatID).map (Built.chatSnapshot history)).toList
  | msg => [.ctl msg]

section

variable {RawMsg RawCtl : Type}

def ctlBody (codecs : Codecs RawMsg RawCtl) (raw : RawCtl) (pruned : List ParticipantID) :
    CtlBody :=
  match codecs.ctl.body raw with
  | none => .error decodeError
  | some msg => .ok (msg, pruned)

def ChatEnd.withCtl (e : ChatEnd) (result : Ctl × List Outgoing) : ChatEnd × List Built :=
  ({ e with ctl := result.1 }, result.2.flatMap (Outgoing.built (e.state chatID)))

def ChatEnd.call (codecs : Codecs RawMsg RawCtl) (order : List String) (e : ChatEnd) :
    Call RawMsg RawCtl → ChatEnd × List Built
  | .say text id sent =>
      let outcome := say (e.state chatID) e.ctl.ctx.self text id sent
      ({ e with state := Function.update e.state chatID outcome.history },
        ((spoken e.ctl.ctx.self text id).map (fun m =>
          Built.chatMsg { id := m.id, text := m.text })).toList)
  | .setName name =>
      e.withCtl (e.ctl.setNameString ((chatRegistry codecs.snapshot).infos order) name)
  | .setEndpoint endpoint =>
      e.withCtl (e.ctl.setEndpoint ((chatRegistry codecs.snapshot).infos order) endpoint)
  | .setPushKey key =>
      e.withCtl (e.ctl.setPushKey ((chatRegistry codecs.snapshot).infos order) key)
  | .chatFrame fromID raw =>
      let outcome := Chat.handleFrame (e.state chatID) fromID (codecs.msg.body raw)
      ({ e with state := Function.update e.state chatID outcome.history }, [])
  | .ctlFrame fromID raw pruned =>
      let result := Layered.handleFrame (chatRegistry codecs.snapshot) order e fromID
        (ctlBody codecs raw pruned)
      (result.1, result.2.1.flatMap (Outgoing.built (e.state chatID)))
  | .keyed id role =>
      e.withCtl (e.ctl.memberKeyed ((chatRegistry codecs.snapshot).infos order) id role)
  | .left id => e.withCtl (e.ctl.memberLeft ((chatRegistry codecs.snapshot).infos order) id)
  | .attach ctx => ({ e with ctl := e.ctl.attach ctx }, [])
  | .assumeHost leaver =>
      e.withCtl (e.ctl.assumeHost ((chatRegistry codecs.snapshot).infos order) leaver)
  | .requestSnapshot => (e, e.ctl.requestSnapshot.built (e.state chatID))

def ChatEnd.calls (codecs : Codecs RawMsg RawCtl) (order : List String) (e : ChatEnd) :
    List (Call RawMsg RawCtl) → ChatEnd × List Built
  | [] => (e, [])
  | call :: rest =>
      let first := e.call codecs order call
      let later := calls codecs order first.1 rest
      (later.1, first.2 ++ later.2)

/-- The receiver's `wire.Body` gives back the value, maps up to their order. -/
def Built.Decodes (codecs : Codecs RawMsg RawCtl) : Built → Prop
  | .chatMsg m => codecs.msg.body (codecs.msg.marshal m) = some m
  | .chatSnapshot history blob => codecs.snapshot.body blob = some history
  | .ctl msg => ∃ read, codecs.ctl.body (codecs.ctl.marshal msg) = some read ∧ read.Same msg

end

/-- `Say` takes the text. -/
def Accepted (text : Bytes) : Prop :=
  Utf8.trimSpace isSpace text ≠ [] ∧ (Utf8.trimSpace isSpace text).length ≤ Chat.maxText

def Call.Clean {RawMsg RawCtl : Type} : Call RawMsg RawCtl → Prop
  | .say text _ _ => Accepted text → Valid text
  | .setEndpoint endpoint => Valid endpoint
  | .setPushKey key => Valid key
  | _ => True

structure Ctl.Clean (c : Ctl) : Prop where
  endpoints : ∀ id endpoint, c.endpoints.lookup id = some endpoint → Valid endpoint
  pushKey : Valid c.pushKey

def CtlMsg.Clean (msg : CtlMsg) : Prop := ∀ text ∈ msg.texts, Valid text

/-- A change of ctl that keeps its strings valid, with what it sends; no snapshot
is among that. -/
structure Ctl.Keeps (result : Ctl × List Outgoing) : Prop where
  clean : result.1.Clean
  sent : ∀ out ∈ result.2, out.msg.Clean
  plain : ∀ out ∈ result.2, ∀ blobs, out.msg ≠ .snapshot blobs

variable {endpoint : Bytes} {a : Announce}

theorem CtlMsg.clean_identity (name : Name) (valid : Valid endpoint) :
    (CtlMsg.identity name endpoint).Clean := by
  intro text member
  rcases List.mem_cons.mp member with rfl | last
  · exact valid_encode name
  · rw [List.mem_singleton.mp last]
    exact valid

theorem CtlMsg.clean_snapshot (blobs : GoMap String Bytes) : (CtlMsg.snapshot blobs).Clean := by
  intro text member
  obtain ⟨id, -, rfl⟩ := List.mem_map.mp member
  exact valid_encode id.toList

theorem CtlMsg.clean_snapshotReq : CtlMsg.snapshotReq.Clean :=
  List.forall_mem_nil _

theorem CtlMsg.clean_announce
    (endpoints : ∀ id endpoint, a.endpoints.lookup id = some endpoint → Valid endpoint)
    (pushKey : Valid a.pushKey) : (CtlMsg.announce a).Clean := by
  intro text member
  rcases List.mem_append.mp member with inNames | member
  · obtain ⟨entry, -, rfl⟩ := List.mem_map.mp inNames
    exact valid_encode entry.2
  · rcases List.mem_append.mp member with inEndpoints | member
    · obtain ⟨entry, present, rfl⟩ := List.mem_map.mp inEndpoints
      exact endpoints entry.1 entry.2 (AList.mem_lookup_iff.mpr present)
    · rcases List.mem_cons.mp member with rfl | inServices
      · exact pushKey
      · obtain ⟨info, -, rfl⟩ := List.mem_map.mp inServices
        exact valid_encode info.id.toList

theorem CtlMsg.Clean.announce (clean : (CtlMsg.announce a).Clean) :
    (∀ id endpoint, a.endpoints.lookup id = some endpoint → Valid endpoint) ∧ Valid a.pushKey := by
  refine ⟨fun id endpoint found => clean endpoint ?_, clean a.pushKey ?_⟩
  · refine List.mem_append_right _ (List.mem_append_left _ ?_)
    exact List.mem_map.mpr ⟨⟨id, endpoint⟩, AList.mem_lookup_iff.mp found, rfl⟩
  · exact List.mem_append_right _ (List.mem_append_right _ List.mem_cons_self)

theorem CtlMsg.Clean.identity {name : Name} (clean : (CtlMsg.identity name endpoint).Clean) :
    Valid endpoint :=
  clean endpoint (List.mem_cons_of_mem _ List.mem_cons_self)

theorem valid_nil : Valid [] := valid_encode []

namespace Ctl

variable {c : Ctl} (services : List ServiceInfo)

theorem clean_new : Ctl.new.Clean := by
  refine ⟨fun id endpoint found => ?_, valid_nil⟩
  rw [new, AList.lookup_empty] at found
  cases found

namespace Clean

theorem announce (clean : c.Clean) : (c.announce services).msg.Clean := by
  refine CtlMsg.clean_announce (fun id endpoint found => ?_) clean.pushKey
  rw [lookup_currentOnly] at found
  split at found
  · exact clean.endpoints id endpoint (Option.filter_eq_some_iff.mp found).1
  · cases found

theorem keeps_announce (clean : c.Clean) : Keeps (c, [c.announce services]) :=
  ⟨clean, List.forall_mem_singleton.mpr (clean.announce services),
    List.forall_mem_singleton.mpr (fun _ => CtlMsg.noConfusion)⟩

theorem keeps_nothing (clean : c.Clean) : Keeps (c, []) :=
  ⟨clean, List.forall_mem_nil _, List.forall_mem_nil _⟩

theorem keeps_identity (clean : c.Clean) (toID : ParticipantID) (name : Name)
    (valid : Valid endpoint) : Keeps (c, [.sendTo toID (.identity name endpoint)]) :=
  ⟨clean, List.forall_mem_singleton.mpr (CtlMsg.clean_identity name valid),
    List.forall_mem_singleton.mpr (fun _ => CtlMsg.noConfusion)⟩

theorem insert_endpoint (clean : c.Clean) (id : ParticipantID) (valid : Valid endpoint)
    (other : ParticipantID) (value : Bytes)
    (found : (c.endpoints.insert id endpoint).lookup other = some value) : Valid value := by
  by_cases same : other = id
  · subst same
    rw [AList.lookup_insert] at found
    exact Option.some.inj found ▸ valid
  · rw [AList.lookup_insert_ne same] at found
    exact clean.endpoints other value found

theorem setName (clean : c.Clean) (name : Name) : Keeps (c.setName services name) := by
  unfold Ctl.setName
  simp only
  split
  · exact clean.keeps_nothing
  · have renamed : ({ c with
        selfName := sanitizeName name
        names := c.names.insert c.ctx.self (sanitizeName name) } : Ctl).Clean :=
      ⟨clean.endpoints, clean.pushKey⟩
    split
    · exact renamed.keeps_announce services
    · exact renamed.keeps_identity _ _ valid_nil

theorem setEndpoint (clean : c.Clean) (valid : Valid endpoint) :
    Keeps (c.setEndpoint services endpoint) := by
  have changed : ({ c with
      selfEndpoint := endpoint
      endpoints := c.endpoints.insert c.ctx.self endpoint } : Ctl).Clean :=
    ⟨clean.insert_endpoint c.ctx.self valid, clean.pushKey⟩
  unfold Ctl.setEndpoint
  simp only
  split
  · exact changed.keeps_announce services
  · exact changed.keeps_identity _ _ valid

theorem setPushKey (clean : c.Clean) {key : Bytes} (valid : Valid key) :
    Keeps (c.setPushKey services key) := by
  have changed : ({ c with pushKey := key } : Ctl).Clean := ⟨clean.endpoints, valid⟩
  unfold Ctl.setPushKey
  split
  · exact changed.keeps_announce services
  · exact clean.keeps_nothing

theorem handleIdentity (clean : c.Clean) (fromID : ParticipantID) (name : Name)
    (valid : Valid endpoint) : Keeps (c.handleIdentity services fromID name endpoint) := by
  unfold Ctl.handleIdentity
  split
  · refine Clean.keeps_announce services ⟨fun id value found => ?_, clean.pushKey⟩
    simp only at found
    split at found
    · exact clean.endpoints id value found
    · exact clean.insert_endpoint fromID valid id value found
  · exact clean.keeps_nothing

theorem memberKeyed (clean : c.Clean) (id : ParticipantID) (role : Role) :
    Keeps (c.memberKeyed services id role) := by
  unfold Ctl.memberKeyed
  split
  · exact Clean.keeps_announce services ⟨clean.endpoints, clean.pushKey⟩
  · exact clean.keeps_nothing

theorem remove (clean : c.Clean) (id : ParticipantID) : (c.remove id).Clean := by
  refine ⟨fun other value found => ?_, clean.pushKey⟩
  by_cases same : other = id
  · subst same
    rw [Ctl.remove, AList.lookup_erase] at found
    cases found
  · exact clean.endpoints other value ((AList.lookup_erase_ne same).symm.trans found)

theorem memberLeft (clean : c.Clean) (id : ParticipantID) : Keeps (c.memberLeft services id) := by
  unfold Ctl.memberLeft
  split
  · exact (clean.remove id).keeps_announce services
  · exact clean.keeps_nothing

theorem assumeHost (clean : c.Clean) (leaver : ParticipantID) :
    Keeps (c.assumeHost services leaver) := by
  have removed := clean.remove leaver
  exact Clean.keeps_announce services ⟨removed.endpoints, removed.pushKey⟩

theorem attach (clean : c.Clean) (ctx : Context) : (c.attach ctx).Clean :=
  ⟨clean.endpoints, clean.pushKey⟩

end Clean

end Ctl

/-- Every string that an end holds and sends as it is. -/
structure ChatEnd.Clean (e : ChatEnd) : Prop where
  ctl : e.ctl.Clean
  texts : ∀ m ∈ e.state chatID, Valid m.text

theorem collect_chat (codec : BodyCodec (List StoredMsg) Bytes)
    (state : String → List StoredMsg) (order : List String) {blobs : GoMap String Bytes}
    (before : ∀ blob, blobs.lookup chatID = some blob → blob = codec.marshal (state chatID))
    {collected : GoMap String Bytes}
    (done : (chatRegistry codec).collect state order blobs = .ok collected) :
    ∀ blob, collected.lookup chatID = some blob → blob = codec.marshal (state chatID) := by
  induction order generalizing blobs with
  | nil =>
      cases done
      exact before
  | cons id rest ih =>
      unfold Registry.collect at done
      split at done
      · exact ih before done
      · by_cases isChat : id = chatID
        · subst isChat
          simp only [chatRegistry_chat, chatOps] at done
          refine ih (fun blob found => ?_) done
          by_cases empty : (state chatID).length = 0
          · rw [if_pos empty, if_pos rfl] at found
            exact before blob found
          · rw [if_neg empty] at found
            split at found
            · exact before blob found
            · rw [AList.lookup_insert] at found
              exact (Option.some.inj found).symm
        · simp only [chatRegistry_other codec isChat] at done
          exact ih before done

section

variable {RawMsg RawCtl : Type} {codecs : Codecs RawMsg RawCtl} (strict : codecs.Strict)
  (order : List String) {e : ChatEnd}

/-- A call that keeps every string valid, with bodies that decode. -/
structure ChatEnd.Keeps (codecs : Codecs RawMsg RawCtl) (result : ChatEnd × List Built) :
    Prop where
  clean : result.1.Clean
  decodes : ∀ built ∈ result.2, built.Decodes codecs

include strict

theorem Outgoing.built_decodes (history : List StoredMsg) (out : Outgoing) (clean : out.msg.Clean)
    (blobs : ∀ map, out.msg = .snapshot map →
      ∀ blob, map.lookup chatID = some blob → codecs.snapshot.body blob = some history) :
    ∀ built ∈ out.built history, built.Decodes codecs := by
  have itself : (Built.ctl out.msg).Decodes codecs := strict.ctl.roundTrip out.msg clean
  intro built member
  unfold Outgoing.built at member
  split at member
  · rename_i map isSnapshot
    rcases List.mem_cons.mp member with rfl | inside
    · rw [← isSnapshot]
      exact itself
    · obtain ⟨blob, found, rfl⟩ := Option.map_eq_some_iff.mp (Option.mem_toList.mp inside)
      exact blobs map isSnapshot blob found
  · rw [List.mem_singleton.mp member]
    exact itself

namespace ChatEnd

theorem keeps_withCtl (clean : e.Clean) {result : Ctl × List Outgoing}
    (keeps : Ctl.Keeps result) : Keeps codecs (e.withCtl result) := by
  refine ⟨⟨keeps.clean, clean.texts⟩, fun built member => ?_⟩
  obtain ⟨out, sent, inside⟩ := List.mem_flatMap.mp member
  exact Outgoing.built_decodes strict (e.state chatID) out (keeps.sent out sent)
    (fun blobs isSnapshot => absurd isSnapshot (keeps.plain out sent blobs)) built inside

theorem keeps_say (clean : e.Clean) {text : Bytes} (valid : Accepted text → Valid text)
    (id : Option UInt64) (sent : Bool) : Keeps codecs (e.call codecs order (.say text id sent)) := by
  have trimmed : ∀ m, spoken e.ctl.ctx.self text id = some m → Valid m.text := by
    intro m isSpoken
    unfold spoken at isSpoken
    simp only at isSpoken
    split at isSpoken
    · cases isSpoken
    · rename_i accepted
      obtain ⟨some_, short⟩ := not_or.mp accepted
      obtain ⟨number, -, rfl⟩ := Option.map_eq_some_iff.mp isSpoken
      exact valid_trimSpace isSpace (valid ⟨some_, Nat.le_of_not_gt short⟩)
  refine ⟨⟨clean.ctl, fun m member => ?_⟩, fun built member => ?_⟩
  · simp only [call, Function.update_self] at member
    rcases say_history (e.state chatID) e.ctl.ctx.self text id sent with same | ⟨said, isSaid, same⟩
    · rw [same] at member
      exact clean.texts m member
    · rw [same] at member
      rcases mem_of_mem_record member with before | rfl
      · exact clean.texts m before
      · exact trimmed m isSaid
  · obtain ⟨m, isSpoken, rfl⟩ := Option.map_eq_some_iff.mp (Option.mem_toList.mp member)
    obtain ⟨read, decoded, rfl⟩ := strict.msg.roundTrip { id := m.id, text := m.text }
      (List.forall_mem_singleton.mpr (trimmed m isSpoken))
    exact decoded

theorem keeps_chatFrame (clean : e.Clean) (fromID : ParticipantID) (raw : RawMsg) :
    Keeps codecs (e.call codecs order (.chatFrame fromID raw)) := by
  refine ⟨⟨clean.ctl, fun m member => ?_⟩, List.forall_mem_nil _⟩
  simp only [call, Function.update_self] at member
  rcases handleFrame_history (e.state chatID) fromID (codecs.msg.body raw) with
    same | ⟨msg, decoded, -, same⟩
  · rw [same] at member
    exact clean.texts m member
  · rw [same] at member
    rcases mem_of_mem_record member with before | rfl
    · exact clean.texts m before
    · exact strict.msg.refuses raw msg decoded msg.text List.mem_cons_self

theorem restoreAll_valid {state : String → List StoredMsg}
    (before : ∀ m ∈ state chatID, Valid m.text) (entries : List ((_ : String) × Bytes)) :
    ∀ m ∈ ((chatRegistry codecs.snapshot).restoreAll state entries).1 chatID, Valid m.text := by
  induction entries generalizing state with
  | nil => exact before
  | cons entry rest ih =>
      obtain ⟨id, blob⟩ := entry
      have after : ∀ m ∈ Function.update state id
          ((chatRegistry codecs.snapshot).restoreOne id (state id) blob).1 chatID,
          Valid m.text := by
        by_cases isChat : chatID = id
        · subst isChat
          have restoring : ((chatRegistry codecs.snapshot).restoreOne chatID (state chatID) blob).1 =
              (restore (state chatID) (codecs.snapshot.body blob)).history := by
            have notCtl : chatID ≠ ctlID := by decide
            simp only [Registry.restoreOne, if_neg notCtl, chatRegistry_chat, chatOps]
          rw [Function.update_self, restoring]
          cases decoded : codecs.snapshot.body blob with
          | none => exact before
          | some messages =>
              intro m member
              rcases mem_of_mem_restoreAll member with old | new
              · exact before m old
              · exact strict.snapshot.refuses blob messages decoded m.text
                  (List.mem_map_of_mem new)
        · rw [Function.update_of_ne isChat]
          exact before
      unfold Registry.restoreAll
      simp only
      split
      · exact after
      · exact ih after

theorem keeps_snapshotReq (clean : e.Clean) (fromID : ParticipantID) {sent : List Outgoing}
    (answered : Layered.handleSnapshotReq (chatRegistry codecs.snapshot) order e fromID =
      .ok sent) :
    Keeps codecs (e, sent.flatMap (Outgoing.built (e.state chatID))) := by
  refine ⟨clean, fun built member => ?_⟩
  obtain ⟨out, isSent, inside⟩ := List.mem_flatMap.mp member
  unfold Layered.handleSnapshotReq at answered
  split at answered
  · cases collected : (chatRegistry codecs.snapshot).collect e.state order ∅ with
    | error err =>
        rw [collected] at answered
        cases answered
    | ok blobs =>
        rw [collected] at answered
        have chatBlob := collect_chat codecs.snapshot e.state order
          (fun blob found => by rw [AList.lookup_empty] at found; cases found) collected
        rename_i host
        have outs : [Outgoing.sendTo fromID (.snapshot blobs)] = sent :=
          (if_pos host).symm.trans (Except.ok.inj answered)
        rw [← outs] at isSent
        cases List.mem_singleton.mp isSent
        refine Outgoing.built_decodes strict (e.state chatID) (.sendTo fromID (.snapshot blobs))
          (CtlMsg.clean_snapshot blobs) (fun map isMap blob found => ?_) built inside
        cases isMap
        rw [chatBlob blob found]
        obtain ⟨read, decoded, rfl⟩ := strict.snapshot.roundTrip (e.state chatID)
          (List.forall_mem_map.mpr clean.texts)
        exact decoded
  · cases answered
    cases isSent

theorem keeps_ctlFrame (clean : e.Clean) (fromID : ParticipantID) (raw : RawCtl)
    (pruned : List ParticipantID) :
    Keeps codecs (e.call codecs order (.ctlFrame fromID raw pruned)) := by
  have unchanged : Keeps codecs (e, []) := ⟨clean, List.forall_mem_nil _⟩
  simp only [call, ctlBody]
  cases decoded : codecs.ctl.body raw with
  | none => exact unchanged
  | some msg =>
      have received : msg.Clean := strict.ctl.refuses raw msg decoded
      cases msg with
      | announce a =>
          simp only [Layered.handleFrame, Ctl.handleAnnounce]
          by_cases fromHost : fromID = e.ctl.ctx.hostID
          · simp only [if_pos fromHost]
            obtain ⟨endpoints, pushKey⟩ := received.announce
            exact ⟨⟨⟨endpoints, pushKey⟩, clean.texts⟩, List.forall_mem_nil _⟩
          · simp only [if_neg fromHost]
            exact unchanged
      | identity name endpoint =>
          exact keeps_withCtl strict clean
            (clean.ctl.handleIdentity _ fromID name received.identity)
      | snapshotReq =>
          simp only [Layered.handleFrame]
          cases answered : Layered.handleSnapshotReq (chatRegistry codecs.snapshot) order e fromID with
          | error err => exact unchanged
          | ok sent => exact keeps_snapshotReq strict order clean fromID answered
      | snapshot blobs =>
          simp only [Layered.handleFrame, Layered.handleSnapshot]
          cases e.ctl.handleSnapshot fromID with
          | error err => exact unchanged
          | ok accepted =>
              exact ⟨⟨clean.ctl, restoreAll_valid strict clean.texts blobs.entries⟩,
                List.forall_mem_nil _⟩
      | other => exact unchanged

theorem Clean.call (clean : e.Clean) {call : Call RawMsg RawCtl} (given : call.Clean) :
    Keeps codecs (e.call codecs order call) := by
  cases call with
  | say text id sent => exact keeps_say strict order clean given id sent
  | setName name =>
      rw [ChatEnd.call, Ctl.setNameString_eq]
      exact keeps_withCtl strict clean (clean.ctl.setName _ (runes name))
  | setEndpoint endpoint => exact keeps_withCtl strict clean (clean.ctl.setEndpoint _ given)
  | setPushKey key => exact keeps_withCtl strict clean (clean.ctl.setPushKey _ given)
  | chatFrame fromID raw => exact keeps_chatFrame strict order clean fromID raw
  | ctlFrame fromID raw pruned => exact keeps_ctlFrame strict order clean fromID raw pruned
  | keyed id role => exact keeps_withCtl strict clean (clean.ctl.memberKeyed _ id role)
  | left id => exact keeps_withCtl strict clean (clean.ctl.memberLeft _ id)
  | attach ctx => exact ⟨⟨clean.ctl.attach ctx, clean.texts⟩, List.forall_mem_nil _⟩
  | assumeHost leaver => exact keeps_withCtl strict clean (clean.ctl.assumeHost _ leaver)
  | requestSnapshot =>
      exact ⟨clean, Outgoing.built_decodes strict (e.state chatID) e.ctl.requestSnapshot
        CtlMsg.clean_snapshotReq (fun _ isMap => by cases isMap)⟩

theorem Clean.calls (clean : e.Clean) {calls : List (Call RawMsg RawCtl)}
    (given : ∀ call ∈ calls, call.Clean) : Keeps codecs (e.calls codecs order calls) := by
  induction calls generalizing e with
  | nil => exact ⟨clean, List.forall_mem_nil _⟩
  | cons call rest ih =>
      have first := clean.call strict order (given call List.mem_cons_self)
      have later := ih first.clean (fun other member => given other (List.mem_cons_of_mem _ member))
      exact ⟨later.clean, fun built member =>
        (List.mem_append.mp member).elim (first.decodes built) (later.decodes built)⟩

end ChatEnd

end

theorem ChatEnd.clean_new : ChatEnd.new.Clean :=
  ⟨Ctl.clean_new, List.forall_mem_nil _⟩

/-- If the texts that `Say` accepts, the endpoints and the push keys are valid UTF-8,
then every body that an end builds, in any run and whatever it receives, is decoded
to the value it was built from, maps up to the order of their entries.  Screen names may be any strings. -/
theorem accepted_strings_decode {RawMsg RawCtl : Type} (codecs : Codecs RawMsg RawCtl)
    (strict : codecs.Strict) (order : List String) (calls : List (Call RawMsg RawCtl))
    (given : ∀ call ∈ calls, call.Clean) :
    ∀ built ∈ (ChatEnd.new.calls codecs order calls).2, built.Decodes codecs :=
  (ChatEnd.clean_new.calls strict order given).decodes

/-! ### A codec -/

def checking {α Raw : Type} (texts : α → List Bytes) (write : α → Raw) (read : Raw → Option α) :
    BodyCodec α Raw :=
  { marshal := write
    body := fun raw => (read raw).filter (fun value => ∀ text ∈ texts value, Valid text) }

theorem checking_strict {α Raw : Type} {texts : α → List Bytes} {same : α → α → Prop}
    {write : α → Raw} {read : Raw → Option α} (refl : ∀ value, same value value)
    (inverse : ∀ value, read (write value) = some value) :
    (checking texts write read).Strict texts same := by
  refine ⟨fun value valid => ⟨value, ?_, refl value⟩, fun raw value decoded => ?_⟩
  · simp only [checking, inverse]
    exact Option.filter_eq_some_iff.mpr ⟨rfl, decide_eq_true valid⟩
  · exact of_decide_eq_true (Option.filter_eq_some_iff.mp decoded).2

def pack (m : StoredMsg) : Nat × Nat × List Nat :=
  (m.id.toNat, m.fromID.toNat, m.text.map UInt8.toNat)

def unpack (numbers : Nat × Nat × List Nat) : StoredMsg :=
  { id := UInt64.ofNat numbers.1
    fromID := UInt32.ofNat numbers.2.1
    text := numbers.2.2.map UInt8.ofNat }

theorem unpack_pack (m : StoredMsg) : unpack (pack m) = m := by
  have text : (m.text.map UInt8.toNat).map UInt8.ofNat = m.text := by
    rw [List.map_map]
    refine (List.map_congr_left fun byte _ => ?_).trans (List.map_id m.text)
    exact UInt8.ofNat_toNat
  simp only [unpack, pack, UInt64.ofNat_toNat, UInt32.ofNat_toNat, text]

/-- Bodies travel as they are, and a snapshot as a number in unary. -/
def sampleCodecs : Codecs Msg CtlMsg :=
  { msg := checking msgTexts id some
    snapshot := checking snapshotTexts
      (fun history => List.replicate (Encodable.encode (history.map pack)) 0)
      (fun raw => (Encodable.decode raw.length).map (List.map unpack))
    ctl := checking CtlMsg.texts id some }

theorem sampleCodecs_strict : sampleCodecs.Strict := by
  refine ⟨checking_strict (fun _ => rfl) fun _ => rfl,
    checking_strict (fun _ => rfl) fun history => ?_,
    checking_strict CtlMsg.Same.refl fun _ => rfl⟩
  have unpacked : (history.map pack).map unpack = history := by
    rw [List.map_map]
    exact (List.map_congr_left fun m _ => unpack_pack m).trans (List.map_id history)
  rw [List.length_replicate, Encodable.encodek, Option.map_some, unpacked]

/-- A host with a name that is not valid and other strings that are. -/
def tidyHost : List (Call Msg CtlMsg) :=
  [.attach { self := 1, hostID := 1, host := true },
    .setName [0xff],
    .setEndpoint (ascii "e"),
    .say (ascii "hi") (some 7) true]

theorem accepted_strings_decode_named :
    (ChatEnd.new.calls sampleCodecs [ctlID, chatID] tidyHost).2.length = 3 ∧
      ∀ built ∈ (ChatEnd.new.calls sampleCodecs [ctlID, chatID] tidyHost).2,
        built.Decodes sampleCodecs := by
  refine ⟨by decide +kernel, accepted_strings_decode sampleCodecs sampleCodecs_strict
    [ctlID, chatID] tidyHost (fun call member => ?_)⟩
  have hi : Valid (ascii "hi") := by decide
  have endpoint : Valid (ascii "e") := by decide
  simp only [tidyHost, List.mem_cons, List.not_mem_nil, or_false] at member
  rcases member with rfl | rfl | rfl | rfl
  · trivial
  · trivial
  · exact endpoint
  · exact fun _ => hi

/-- A byte that begins no rune is said, and the message cannot be decoded. -/
theorem stray_byte_said :
    ¬∀ (RawMsg RawCtl : Type) (codecs : Codecs RawMsg RawCtl), codecs.Strict →
      ∀ (order : List String) (calls : List (Call RawMsg RawCtl)),
        ∀ built ∈ (ChatEnd.new.calls codecs order calls).2, built.Decodes codecs := by
  intro claimed
  have isSpoken : spoken 0 [0xff] (some 7) = some { id := 7, fromID := 0, text := [0xff] } := by
    decide +kernel
  have built : Built.chatMsg { id := 7, text := [0xff] } ∈
      (ChatEnd.new.calls sampleCodecs [ctlID, chatID] [.say [0xff] (some 7) true]).2 := by
    have self : ChatEnd.new.ctl.ctx.self = 0 := rfl
    simp only [ChatEnd.calls, ChatEnd.call, self, isSpoken]
    exact List.mem_cons_self
  have decoded := claimed Msg CtlMsg sampleCodecs sampleCodecs_strict [ctlID, chatID] _ _ built
  have valid := sampleCodecs_strict.msg.refuses _ _ decoded [0xff] List.mem_cons_self
  exact absurd valid (by decide +kernel)

end Parley.Service
