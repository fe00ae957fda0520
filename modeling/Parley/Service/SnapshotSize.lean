/-
The size of a chat snapshot.

The host answers a snapshot request with one `Direct` frame.  The limits on a text
and on the history bound each message alone; the limit on a frame is met by the sum
of all layers, and the relay's copy with the sender's id is longer than the host's
own.  The sizes of the layers give the exact length of both.
-/

import Parley.Service.ChatHistory
import Parley.Service.FrameCodecs

namespace Parley.Service

open Crypto Library Service.Chat
open Library.Cbor (headSize stringSize)
open Session (Envelope callBody)
open Wire (Bytes ParticipantID SessionID maxElements)

/-- The AEAD on byte strings: key, nonce, associated data and text. -/
structure Aead where
  sealBytes : Key → Nonce → Bytes → Bytes → Bytes
  openBytes : Key → Nonce → Bytes → Bytes → Option Bytes

/-- XChaCha20-Poly1305 adds a tag of sixteen bytes. -/
structure Aead.Documented (aead : Aead) : Prop where
  overhead : ∀ key nonce ad plain, (aead.sealBytes key nonce ad plain).length = plain.length + 16
  opens : ∀ key nonce ad plain,
    aead.openBytes key nonce ad (aead.sealBytes key nonce ad plain) = some plain

def kindSealed : UInt8 := 4

/-- What `SendTo` takes from the client, and the random nonce. -/
structure Sender where
  key : Key
  sid : SessionID
  self : ParticipantID
  seq : UInt64
  nonce : Nonce

section

variable (codecs : FrameCodecs) (aead : Aead)

def Sender.sealPayload (s : Sender) (serviceID : String) (body : Bytes) : Bytes :=
  let plain := codecs.envelope.marshal { serviceID := serviceID, seq := s.seq, body := body }
  kindSealed :: codecs.sealedFrame.marshal
    (s.nonce, aead.sealBytes s.key s.nonce (frameAD s.sid s.self) plain)

/-- The frame of `SendTo`; one that exceeds the limit is absent. -/
def Sender.sendTo (s : Sender) (toID : ParticipantID) (serviceID : String) (body : Bytes) :
    Option Bytes :=
  Wire.encode codecs.wire (callBody (some toID) (s.sealPayload codecs aead serviceID body))

/-- `sendSnapshot` with chat as the only layered service. -/
def sendSnapshot (s : Sender) (order : List String) (e : ChatEnd) (toID : ParticipantID) :
    Except String Bytes :=
  match (chatRegistry codecs.snapshot).collect e.state order ∅ with
  | .error err => .error err
  | .ok blobs =>
      match s.sendTo codecs aead toID ctlID (codecs.ctl.marshal blobs) with
      | none => .error s!"wire: frame exceeds {Wire.maxFrame} bytes"
      | some frame => .ok frame

/-- The relay forwards a `Direct` with its sender stamped. -/
def relayed (sender : ParticipantID) (frame : Bytes) : Option Bytes :=
  (Wire.decode frame).bind (fun found =>
    if found.1 = Wire.MsgType.direct.code then
      (Relay.forwarded codecs.wire sender .direct found.2).bind (Wire.encode codecs.wire)
    else none)

def openPayload (key : Key) (sid : SessionID) (sender : ParticipantID) (payload : Bytes) :
    Option (Envelope Bytes) :=
  match payload with
  | [] => none
  | kind :: raw =>
      if kind = kindSealed then do
        let box ← codecs.sealedFrame.body raw
        let plain ← aead.openBytes key box.1 (frameAD sid sender) box.2
        codecs.envelope.body plain
      else none

/-- The sender of a `Direct` with a ctl snapshot, and the blobs. -/
def openSnapshot (key : Key) (sid : SessionID) (frame : Bytes) :
    Option (ParticipantID × GoMap String Bytes) := do
  let found ← Wire.decode frame
  if found.1 = Wire.MsgType.direct.code then do
    let direct ← codecs.wire.bodyDirect found.2
    let env ← openPayload codecs aead key sid direct.fromID direct.payload
    if env.serviceID = ctlID then
      (codecs.ctl.body env.body).map (fun blobs => (direct.fromID, blobs))
    else none
  else none

def chatBlobs (history : List StoredMsg) : GoMap String Bytes :=
  if history.length = 0 then ∅ else AList.singleton chatID (codecs.snapshot.marshal history)

end

/-! ### Sizes -/

def ctlBodySize (history : List StoredMsg) : Nat :=
  if history.length = 0 then 3 else 10 + stringSize (snapshotSize history)

/-- Kind, nonce and the ciphertext of the envelope with its tag. -/
def payloadSize (seq : UInt64) (history : List StoredMsg) : Nat :=
  1 + sealedSize (8 + headSize seq.toNat + stringSize (ctlBodySize history) + 16)

/-- The length of the frame with the snapshot of a history; in the host's own frame
the sender is 0. -/
def snapshotFrameSize (seq : UInt64) (toID sender : ParticipantID) (history : List StoredMsg) :
    Nat :=
  6 + headSize toID.toNat + headSize sender.toNat + stringSize (payloadSize seq history)

section

variable {codecs : FrameCodecs} {aead : Aead} {history : List StoredMsg}

theorem FrameCodecs.Sized.length_ctlBody (sized : codecs.Sized) (history : List StoredMsg) :
    (codecs.ctl.marshal (chatBlobs codecs history)).length = ctlBodySize history := by
  rw [sized.ctl, chatBlobs, ctlBodySize]
  split
  · rfl
  · have name : stringSize (Utf8.encode chatID.toList).length = 5 := by decide
    have one : headSize 1 = 1 := by decide
    rw [← sized.snapshot history]
    simp only [ctlSize, AList.singleton_entries, List.cons_ne_nil, if_false, List.length_cons,
      List.length_nil, List.map_cons, List.map_nil, List.sum_cons, List.sum_nil, name, one]
    omega

def Sender.snapshotEnvelope (codecs : FrameCodecs) (s : Sender) (history : List StoredMsg) :
    Envelope Bytes :=
  { serviceID := ctlID
    seq := s.seq
    body := codecs.ctl.marshal (chatBlobs codecs history) }

/-- The payload in which the history travels. -/
def Sender.snapshotPayload (codecs : FrameCodecs) (aead : Aead) (s : Sender)
    (history : List StoredMsg) : Bytes :=
  s.sealPayload codecs aead ctlID (codecs.ctl.marshal (chatBlobs codecs history))

theorem length_snapshotEnvelope (sized : codecs.Sized) (s : Sender) (history : List StoredMsg) :
    (codecs.envelope.marshal (s.snapshotEnvelope codecs history)).length =
      8 + headSize s.seq.toNat + stringSize (ctlBodySize history) := by
  have name : stringSize (Utf8.encode ctlID.toList).length = 4 := by decide
  rw [sized.envelope, envelopeSize, Sender.snapshotEnvelope, sized.length_ctlBody, name]

theorem length_snapshotPayload (sized : codecs.Sized) (documented : aead.Documented) (s : Sender)
    (history : List StoredMsg) :
    (s.snapshotPayload codecs aead history).length = payloadSize s.seq history := by
  have plain := length_snapshotEnvelope sized s history
  rw [Sender.snapshotEnvelope] at plain
  rw [Sender.snapshotPayload, Sender.sealPayload, List.length_cons, sized.sealedFrame,
    documented.overhead, plain, payloadSize, Nat.add_comm]

theorem frameSize_snapshotPayload (sized : codecs.Sized) (documented : aead.Documented)
    (s : Sender) (toID sender : ParticipantID) (history : List StoredMsg) :
    Wire.Direct.frameSize
        { toID := toID, fromID := sender, payload := s.snapshotPayload codecs aead history } =
      snapshotFrameSize s.seq toID sender history := by
  simp only [Wire.Direct.frameSize, length_snapshotPayload sized documented, snapshotFrameSize,
    stringSize]
  omega

theorem encode_snapshotPayload (sized : codecs.Sized) (documented : aead.Documented) (s : Sender)
    (toID sender : ParticipantID) (history : List StoredMsg) :
    (∃ frame, Wire.encode codecs.wire (.direct
        { toID := toID, fromID := sender, payload := s.snapshotPayload codecs aead history }) =
      some frame) ↔ snapshotFrameSize s.seq toID sender history ≤ Wire.maxFrame := by
  rw [← Option.ne_none_iff_exists', sized.wire.encode_direct,
    frameSize_snapshotPayload sized documented]

/-- Every layer is shorter than the frame. -/
theorem layers_within {seq : UInt64} {toID sender : ParticipantID} {limit : Nat}
    (fits : snapshotFrameSize seq toID sender history ≤ limit) :
    payloadSize seq history ≤ limit ∧
      8 + headSize seq.toNat + stringSize (ctlBodySize history) ≤ limit ∧
      ctlBodySize history ≤ limit ∧ (history.length ≠ 0 → snapshotSize history ≤ limit) := by
  have payload := Cbor.le_stringSize (payloadSize seq history)
  have cipher := Cbor.le_stringSize (8 + headSize seq.toNat + stringSize (ctlBodySize history) + 16)
  have body := Cbor.le_stringSize (ctlBodySize history)
  have blob := Cbor.le_stringSize (snapshotSize history)
  have sealing : payloadSize seq history = 1 + (29 +
    stringSize (8 + headSize seq.toNat + stringSize (ctlBodySize history) + 16)) := rfl
  unfold snapshotFrameSize at fits
  refine ⟨by omega, by omega, by omega, fun some_ => ?_⟩
  have whole : ctlBodySize history = 10 + stringSize (snapshotSize history) := if_neg some_
  omega

/-! ### The host -/

theorem FrameCodecs.Sized.marshal_ne_nil (sized : codecs.Sized) (history : List StoredMsg) :
    codecs.snapshot.marshal history ≠ [] := by
  intro nothing
  have size := sized.snapshot history
  rw [nothing, List.length_nil, snapshotSize] at size
  omega

theorem insert_chatBlobs (some_ : history.length ≠ 0) {blobs : GoMap String Bytes}
    (before : blobs = ∅ ∨ blobs = chatBlobs codecs history) :
    blobs.insert chatID (codecs.snapshot.marshal history) = chatBlobs codecs history := by
  rcases before with rfl | rfl
  · rw [chatBlobs, if_neg some_]
    rfl
  · rw [chatBlobs, if_neg some_]
    exact AList.insert_singleton_eq

theorem collect_chatBlobs (sized : codecs.Sized) {state : String → List StoredMsg}
    {order : List String} {blobs : GoMap String Bytes}
    (before : blobs = ∅ ∨ blobs = chatBlobs codecs (state chatID))
    (listed : chatID ∈ order ∨ blobs = chatBlobs codecs (state chatID)) :
    (chatRegistry codecs.snapshot).collect state order blobs =
      .ok (chatBlobs codecs (state chatID)) := by
  induction order generalizing blobs with
  | nil =>
      rcases listed with member | done
      · cases member
      · rw [done]
        rfl
  | cons id rest ih =>
      have passed : id ≠ chatID → chatID ∈ rest ∨ blobs = chatBlobs codecs (state chatID) := by
        intro other
        rcases listed with member | done
        · exact Or.inl ((List.mem_cons.mp member).resolve_left other.symm)
        · exact Or.inr done
      unfold Registry.collect
      split
      · rename_i isCtl
        exact ih before (passed (by rw [isCtl]; decide))
      · by_cases isChat : id = chatID
        · subst isChat
          simp only [chatRegistry_chat, chatOps]
          by_cases empty : (state chatID).length = 0
          · have none_ : chatBlobs codecs (state chatID) = ∅ := if_pos empty
            rw [if_pos empty, if_pos rfl]
            refine ih before (Or.inr ?_)
            rw [none_] at before ⊢
            exact before.elim id id
          · rw [if_neg empty, if_neg (sized.marshal_ne_nil _), insert_chatBlobs empty before]
            exact ih (Or.inr rfl) (Or.inr rfl)
        · simp only [chatRegistry_other codecs.snapshot isChat]
          exact ih before (passed isChat)

theorem sendSnapshot_eq_ok_iff (sized : codecs.Sized) (s : Sender) {order : List String}
    (listed : chatID ∈ order) {host : ChatEnd} (toID : ParticipantID) {frame : Bytes} :
    sendSnapshot codecs aead s order host toID = .ok frame ↔
      Wire.encode codecs.wire (.direct
        { toID := toID, fromID := 0,
          payload := s.snapshotPayload codecs aead (host.state chatID) }) = some frame := by
  have collected := @collect_chatBlobs codecs sized host.state order ∅ (Or.inl rfl)
    (Or.inl listed)
  have sent : s.sendTo codecs aead toID ctlID (codecs.ctl.marshal
      (chatBlobs codecs (host.state chatID))) = Wire.encode codecs.wire (.direct
        { toID := toID, fromID := 0,
          payload := s.snapshotPayload codecs aead (host.state chatID) }) := rfl
  simp only [sendSnapshot, collected, sent]
  split
  · rename_i refused
    simp [refused]
  · rename_i result encoded
    simp [encoded]

/-! ### The relay and the joiner -/

theorem length_le_of_encode {codec : Wire.Codec} {body : Wire.Body} {frame : Bytes}
    (encoded : Wire.encode codec body = some frame) : frame.length ≤ Wire.maxFrame := by
  obtain ⟨raw, -, framed⟩ := Option.bind_eq_some_iff.mp encoded
  dsimp only at framed
  split at framed
  · cases framed
  · rename_i fits
    cases framed
    exact Nat.le_of_not_lt fits

theorem decode_direct (inverts : codecs.Inverts) {message : Wire.Direct} {frame : Bytes}
    (encoded : Wire.encode codecs.wire (.direct message) = some frame) :
    ∃ raw, Wire.decode frame = some (Wire.MsgType.direct.code, raw) ∧
      codecs.wire.bodyDirect raw = some message := by
  obtain ⟨raw, marshalled, decoded⟩ := Wire.decode_encode encoded
  exact ⟨raw, decoded, inverts.wire.direct message raw marshalled⟩

theorem relayed_direct (inverts : codecs.Inverts) {message : Wire.Direct} {frame : Bytes}
    (encoded : Wire.encode codecs.wire (.direct message) = some frame) (sender : ParticipantID) :
    relayed codecs sender frame =
      Wire.encode codecs.wire (.direct { message with fromID := sender }) := by
  obtain ⟨raw, decoded, body⟩ := decode_direct inverts encoded
  simp only [relayed, decoded, Option.bind_some, if_true, Relay.forwarded, body, Option.map_some]

theorem openPayload_snapshotPayload (inverts : codecs.Inverts) (documented : aead.Documented)
    (s : Sender) (short : (s.snapshotPayload codecs aead history).length ≤ Wire.maxFrame)
    (plain : (codecs.envelope.marshal (s.snapshotEnvelope codecs history)).length ≤ Wire.maxFrame) :
    openPayload codecs aead s.key s.sid s.self (s.snapshotPayload codecs aead history) =
      some (s.snapshotEnvelope codecs history) := by
  have boxed := inverts.sealedFrame (s.nonce, aead.sealBytes s.key s.nonce (frameAD s.sid s.self)
    (codecs.envelope.marshal (s.snapshotEnvelope codecs history))) (Nat.le_of_succ_le short)
  have payload : s.snapshotPayload codecs aead history = kindSealed :: codecs.sealedFrame.marshal
    (s.nonce, aead.sealBytes s.key s.nonce (frameAD s.sid s.self)
      (codecs.envelope.marshal (s.snapshotEnvelope codecs history))) := rfl
  simp only [openPayload, payload, if_true, boxed, Option.bind_eq_bind, Option.bind_some,
    documented.opens, inverts.envelope _ plain]

theorem eq_of_lookup {read blobs : GoMap String Bytes} (few : blobs.entries.length ≤ 1)
    (same : ∀ id, read.lookup id = blobs.lookup id) : read = blobs := by
  have perm : read.entries.Perm blobs.entries := by
    refine List.lookup_ext read.nodupKeys blobs.nodupKeys (fun id blob => ?_)
    rw [show read.entries.dlookup id = blobs.entries.dlookup id from same id]
  refine AList.ext ?_
  match isEntries : blobs.entries, few with
  | [], _ =>
      rw [isEntries] at perm
      exact List.perm_nil.mp perm
  | [entry], _ =>
      rw [isEntries] at perm
      exact List.perm_singleton.mp perm

theorem openSnapshot_stamped (sized : codecs.Sized) (inverts : codecs.Inverts)
    (documented : aead.Documented) (s : Sender) {toID : ParticipantID} {stamped : Bytes}
    (encoded : Wire.encode codecs.wire (.direct
      { toID := toID, fromID := s.self, payload := s.snapshotPayload codecs aead history }) =
        some stamped) :
    openSnapshot codecs aead s.key s.sid stamped = some (s.self, chatBlobs codecs history) := by
  have fits := (encode_snapshotPayload sized documented s toID s.self history).mp ⟨_, encoded⟩
  obtain ⟨payload, plain, body, -⟩ := layers_within fits
  rw [← length_snapshotPayload sized documented] at payload
  rw [← length_snapshotEnvelope sized] at plain
  rw [← sized.length_ctlBody] at body
  obtain ⟨raw, decoded, direct⟩ := decode_direct inverts encoded
  have opened := openPayload_snapshotPayload inverts documented s payload plain
  have single : (chatBlobs codecs history).entries.length ≤ 1 := by
    unfold chatBlobs
    split
    · exact Nat.zero_le 1
    · exact Nat.le_refl 1
  obtain ⟨read, isRead, same⟩ := inverts.ctl _ (single.trans (by decide)) body
  cases eq_of_lookup single same
  simp only [openSnapshot, decoded, Option.bind_eq_bind, Option.bind_some, if_true, direct, opened,
    Sender.snapshotEnvelope, isRead, Option.map_some]

theorem restoreAll_append {early late : List StoredMsg} (wellKept : WellKept (early ++ late)) :
    (restoreAll early late).1 = early ++ late := by
  induction late generalizing early with
  | nil => exact (List.append_nil early).symm
  | cons m rest ih =>
      have split : early ++ m :: rest = (early ++ [m]) ++ rest := by simp
      have unknown : early.any (fun old => decide (old.id = m.id)) = false := by
        refine List.any_eq_false.mpr (fun old present same => ?_)
        have distinct := wellKept.distinct
        rw [List.map_append, List.map_cons] at distinct
        exact (List.nodup_append.mp distinct).2.2 old.id (List.mem_map_of_mem present) m.id
          List.mem_cons_self (of_decide_eq_true same)
      have room : ¬(early ++ [m]).length > Chat.historyCap := by
        have few := wellKept.few
        rw [split, List.length_append] at few
        omega
      have recorded : Chat.record early m = (early ++ [m], true) := by
        simp only [Chat.record, unknown, Bool.false_eq_true, if_false, if_neg room]
      simp only [Chat.restoreAll, recorded]
      rw [split] at wellKept ⊢
      exact ih wellKept

theorem handleSnapshot_chatBlobs (inverts : codecs.Inverts) (wellKept : WellKept history)
    (valid : ∀ m ∈ history, Utf8.Valid m.text)
    (short : history.length ≠ 0 → (codecs.snapshot.marshal history).length ≤ Wire.maxFrame)
    {joiner : ChatEnd}
    {host : ParticipantID} (attached : joiner.ctl.ctx.hostID = host)
    (fresh : joiner.state chatID = []) :
    (joiner.handleSnapshot (chatRegistry codecs.snapshot) host (chatBlobs codecs history)).1.state
        chatID = history ∧
      (joiner.handleSnapshot (chatRegistry codecs.snapshot) host (chatBlobs codecs history)).2 =
        none := by
  have accepted : joiner.ctl.handleSnapshot host = .ok joiner.ctl := if_pos attached.symm
  simp only [Layered.handleSnapshot, accepted]
  unfold chatBlobs
  split
  · rename_i empty
    rw [List.length_eq_zero_iff.mp empty]
    exact ⟨fresh, rfl⟩
  · rename_i some_
    have decoded := inverts.snapshot history (wellKept.few.trans (by decide)) valid (short some_)
    have restoring : (chatRegistry codecs.snapshot).restoreOne chatID (joiner.state chatID)
        (codecs.snapshot.marshal history) = (history, none) := by
      have notCtl : chatID ≠ ctlID := by decide
      have whole : (restoreAll [] history).1 = history := restoreAll_append wellKept
      simp only [Registry.restoreOne, if_neg notCtl, chatRegistry_chat, chatOps, fresh, decoded,
        Chat.restore, whole, Option.map_none]
    have entries : (AList.singleton chatID (codecs.snapshot.marshal history) :
        GoMap String Bytes).entries = [⟨chatID, codecs.snapshot.marshal history⟩] := rfl
    simp only [entries, Registry.restoreAll, restoring, Function.update_self]
    exact ⟨trivial, trivial⟩

end

/-- The joiner that opens the relay's copy restores the host's history. -/
def Restores (codecs : FrameCodecs) (aead : Aead) (s : Sender) (history : List StoredMsg)
    (stamped : Bytes) : Prop :=
  ∃ blobs, openSnapshot codecs aead s.key s.sid stamped = some (s.self, blobs) ∧
    ∀ joiner : ChatEnd, joiner.ctl.ctx.hostID = s.self → joiner.state chatID = [] →
      (joiner.handleSnapshot (chatRegistry codecs.snapshot) s.self blobs).1.state chatID =
          history ∧
        (joiner.handleSnapshot (chatRegistry codecs.snapshot) s.self blobs).2 = none

/-- For any history that the calls can reach, `sendSnapshot` succeeds exactly when its
frame is within the limit and the relay forwards that frame exactly when its stamped
copy is; a joiner then restores the history, if the texts are valid UTF-8. -/
theorem snapshot_delivered_within_frame (codecs : FrameCodecs) (sized : codecs.Sized)
    (inverts : codecs.Inverts) {aead : Aead} (documented : aead.Documented)
    (calls : List ChatCall) (s : Sender) (order : List String) (host : ChatEnd)
    (joinerID : ParticipantID) (listed : chatID ∈ order)
    (holds : host.state chatID = reached calls) :
    ((∃ frame, sendSnapshot codecs aead s order host joinerID = .ok frame) ↔
        snapshotFrameSize s.seq joinerID 0 (reached calls) ≤ Wire.maxFrame) ∧
      ((∃ frame stamped, sendSnapshot codecs aead s order host joinerID = .ok frame ∧
          relayed codecs s.self frame = some stamped) ↔
        snapshotFrameSize s.seq joinerID s.self (reached calls) ≤ Wire.maxFrame) ∧
      ∀ frame, sendSnapshot codecs aead s order host joinerID = .ok frame →
        frame.length ≤ Wire.maxFrame ∧
          ∀ stamped, relayed codecs s.self frame = some stamped →
            (∀ m ∈ reached calls, Utf8.Valid m.text) →
              Restores codecs aead s (reached calls) stamped := by
  have sends := fun frame =>
    @sendSnapshot_eq_ok_iff codecs aead sized s order listed host joinerID frame
  rw [holds] at sends
  have own := encode_snapshotPayload sized documented s joinerID 0 (reached calls)
  have copied := encode_snapshotPayload sized documented s joinerID s.self (reached calls)
  refine ⟨?_, ?_, ?_⟩
  · simp only [sends]
    exact own
  · constructor
    · rintro ⟨frame, stamped, sent, forwarded⟩
      rw [relayed_direct inverts ((sends frame).mp sent)] at forwarded
      exact copied.mp ⟨stamped, forwarded⟩
    · intro fits
      obtain ⟨stamped, encoded⟩ := copied.mpr fits
      -- the host's own frame is not longer, as its sender 0 takes one byte
      have zero : headSize (0 : ParticipantID).toNat = 1 := by decide
      have least := Cbor.headSize_pos s.self.toNat
      obtain ⟨frame, sent⟩ := own.mpr (by
        unfold snapshotFrameSize at fits ⊢
        omega)
      refine ⟨frame, stamped, (sends frame).mpr sent, ?_⟩
      rw [relayed_direct inverts sent]
      exact encoded
  · intro frame sent
    have encoded := (sends frame).mp sent
    refine ⟨length_le_of_encode encoded, fun stamped forwarded valid => ?_⟩
    rw [relayed_direct inverts encoded] at forwarded
    refine ⟨chatBlobs codecs (reached calls),
      openSnapshot_stamped sized inverts documented s forwarded, fun joiner attached fresh => ?_⟩
    obtain ⟨-, -, -, blob⟩ := layers_within (copied.mp ⟨stamped, forwarded⟩)
    rw [← sized.snapshot] at blob
    exact handleSnapshot_chatBlobs inverts (WellKept.reached calls) valid blob attached fresh

/-! ### Histories that are too long -/

def sampleAead : Aead :=
  { sealBytes := fun _ _ _ plain => plain ++ List.replicate 16 0
    openBytes := fun _ _ _ box => some (box.take (box.length - 16)) }

theorem sampleAead_documented : sampleAead.Documented := by
  refine ⟨fun _ _ _ plain => ?_, fun _ _ _ plain => ?_⟩
  · simp only [sampleAead, List.length_append, List.length_replicate]
  · simp only [sampleAead, List.length_append, List.length_replicate, Nat.add_sub_cancel,
      List.take_left]

def sampleSender : Sender :=
  { key := Vector.replicate keySize 1
    sid := Vector.replicate 16 2
    self := 1
    seq := 1
    nonce := Vector.replicate 24 3 }

def hostWith (history : List StoredMsg) : ChatEnd :=
  { ctl := Ctl.new
    state := fun _ => history }

/-- A greeting reaches a joiner. -/
theorem greeting_delivered :
    ∃ frame stamped, sendSnapshot cborFrames sampleAead sampleSender [ctlID, chatID]
        (hostWith (reached [.say 1 (ascii "hi") (some 7) true])) 2 = .ok frame ∧
      relayed cborFrames 1 frame = some stamped ∧
      Restores cborFrames sampleAead sampleSender (reached [.say 1 (ascii "hi") (some 7) true])
        stamped := by
  have delivered := snapshot_delivered_within_frame cborFrames cborFrames_sized cborFrames_inverts
    sampleAead_documented [.say 1 (ascii "hi") (some 7) true] sampleSender [ctlID, chatID]
    (hostWith (reached [.say 1 (ascii "hi") (some 7) true])) 2 (by decide) rfl
  obtain ⟨frame, stamped, sent, forwarded⟩ := delivered.2.1.mpr (by decide +kernel)
  exact ⟨frame, stamped, sent, forwarded,
    (delivered.2.2 frame sent).2 stamped forwarded (by decide +kernel)⟩

def longText (size : Nat) : Bytes := List.replicate size 65

theorem longText_eq (size : Nat) : longText size = Utf8.encode (List.replicate size 'A') := by
  induction size with
  | zero => rfl
  | succ size ih =>
      unfold longText at ih ⊢
      rw [List.replicate_succ, List.replicate_succ, ih]
      rfl

theorem trimSpace_longText (size : Nat) :
    Utf8.trimSpace isSpace (longText size) = longText size := by
  have bare : Bare isSpace (List.replicate size 'A') := by
    refine ⟨fun first isFirst => ?_, fun final isLast => ?_⟩
    · rw [List.eq_of_mem_replicate (List.mem_of_mem_head? isFirst)]
      rfl
    · rw [List.eq_of_mem_replicate (List.mem_of_mem_getLast? isLast)]
      rfl
  rw [longText_eq, trimSpace_encode]
  exact congrArg Utf8.encode bare.trim_eq

def longMsg (size number : Nat) : StoredMsg :=
  { id := UInt64.ofNat number
    fromID := 1
    text := longText size }

def longTalk (size count : Nat) : List ChatCall :=
  (List.range count).map (fun number => .say 1 (longText size) (some (UInt64.ofNat number)) true)

section

variable {size : Nat}

theorem say_longText (positive : 0 < size) (within : size ≤ Chat.maxText)
    {number : Nat}
    (new : ∀ old ∈ history, old.id ≠ UInt64.ofNat number)
    (room : history.length < Chat.historyCap) :
    (Chat.say history 1 (longText size) (some (UInt64.ofNat number)) true).history =
      history ++ [longMsg size number] := by
  have length : (longText size).length = size := List.length_replicate
  have some_ : longText size ≠ [] := List.ne_nil_of_length_pos (by omega)
  have short : ¬(longText size).length > Chat.maxText := by omega
  have unknown : history.any (fun old => decide (old.id = UInt64.ofNat number)) = false :=
    List.any_eq_false.mpr (fun old present same => new old present (of_decide_eq_true same))
  have fits : ¬(history ++ [longMsg size number]).length > Chat.historyCap := by
    rw [List.length_append, List.length_singleton]
    omega
  simp only [Chat.say, trimSpace_longText, if_neg some_, if_neg short, if_true,
    Chat.record, unknown, Bool.false_eq_true, if_false]
  exact if_neg fits

theorem reached_longTalk (positive : 0 < size) (within : size ≤ Chat.maxText) {count : Nat}
    (few : count ≤ Chat.historyCap) :
    reached (longTalk size count) = (List.range count).map (longMsg size) := by
  have cap : Chat.historyCap = 200 := rfl
  induction count with
  | zero => rfl
  | succ count ih =>
      have before := ih (by omega)
      have split : longTalk size (count + 1) =
          longTalk size count ++ [.say 1 (longText size) (some (UInt64.ofNat count)) true] := by
        rw [longTalk, List.range_succ, List.map_append]
        rfl
      rw [split, reached, List.foldl_append, ← reached, before, List.range_succ, List.map_append]
      refine say_longText positive within (fun old present same => ?_) ?_
      · obtain ⟨number, below, rfl⟩ := List.mem_map.mp present
        have numbers := congrArg UInt64.toNat same
        have less := List.mem_range.mp below
        rw [longMsg, UInt64.toNat_ofNat', UInt64.toNat_ofNat'] at numbers
        omega
      · rw [List.length_map, List.length_range]
        omega

end

theorem snapshotSize_gt_texts (size count : Nat) :
    count * size < snapshotSize ((List.range count).map (longMsg size)) := by
  have length : (longText size).length = size := List.length_replicate
  have total : count * size ≤ (((List.range count).map (longMsg size)).map storedSize).sum := by
    induction count with
    | zero => exact (Nat.zero_mul size).le
    | succ count ih =>
        have text := Cbor.le_stringSize (longText size).length
        rw [List.range_succ, List.map_append, List.map_append, List.sum_append, Nat.succ_mul]
        simp only [List.map_cons, List.map_nil, List.sum_cons, List.sum_nil, storedSize, longMsg,
          length] at text ⊢
        omega
  unfold snapshotSize
  omega

/-- Sixteen messages of 4096 bytes. -/
theorem long_history_undelivered :
    ¬∀ (codecs : FrameCodecs) (aead : Aead), codecs.Sized → codecs.Inverts → aead.Documented →
      ∀ (calls : List ChatCall) (s : Sender) (order : List String) (host : ChatEnd)
        (joinerID : ParticipantID), chatID ∈ order → host.state chatID = reached calls →
      ∃ frame, sendSnapshot codecs aead s order host joinerID = .ok frame ∧
        frame.length ≤ Wire.maxFrame := by
  intro claimed
  obtain ⟨size, isSize⟩ : ∃ size, size = Chat.maxText := ⟨_, rfl⟩
  have longest : size = 4096 := isSize
  have talk := @reached_longTalk size (by omega) isSize.le 16 (by decide)
  obtain ⟨frame, sent, -⟩ := claimed cborFrames sampleAead cborFrames_sized cborFrames_inverts
    sampleAead_documented (longTalk size 16) sampleSender [ctlID, chatID]
    (hostWith (reached (longTalk size 16))) 2 (by decide) rfl
  have encoded := (sendSnapshot_eq_ok_iff cborFrames_sized sampleSender (by decide) 2).mp sent
  have fits := (encode_snapshotPayload cborFrames_sized sampleAead_documented sampleSender 2 0
    (reached (longTalk size 16))).mp ⟨frame, encoded⟩
  have some_ : (reached (longTalk size 16)).length ≠ 0 := by
    rw [talk, List.length_map, List.length_range]
    decide
  obtain ⟨-, -, -, blob⟩ := layers_within fits
  have short := blob some_
  have full := snapshotSize_gt_texts size 16
  have limit : Wire.maxFrame = 65536 := by decide
  rw [← talk] at full
  omega

end Parley.Service
