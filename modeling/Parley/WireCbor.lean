/-
The relay's bodies in CBOR.

A body is a map whose keys are the integers of its struct's tags.  A field marked
`omitempty` is left out when it is empty, every number takes its shortest form,
and a reader takes a missing field for its zero value.
-/

import Parley.Library.CborItem
import Parley.Wire

namespace Parley.Wire

open Library
open Library.Cbor (Item Fits omitEmpty)

/-- `MaxArrayElements` and `MaxMapPairs`. -/
def maxElements : Nat := 4096

/-- The library's default for `MaxNestedLevels`. -/
def maxNested : Nat := 32

def idItem (id : ParticipantID) : Item := .number id.toNat

def textItem (text : String) : Item := .text (Utf8.encode text.toList)

def Body.fields : Body → List Item
  | .sessionCreated participantID resumeToken =>
      .number 1 :: idItem participantID ::
        omitEmpty 2 resumeToken.isEmpty (.bytes resumeToken) []
  | .joinResult result =>
      .number 1 :: .bool result.ok ::
        (omitEmpty 2 (result.err = "") (textItem result.err) <|
          .number 3 :: idItem result.participantID ::
            (omitEmpty 4 result.peers.isEmpty (.array (result.peers.map idItem)) <|
              .number 5 :: idItem result.hostID ::
                omitEmpty 6 result.resumeToken.isEmpty (.bytes result.resumeToken) []))
  | .participantJoined participantID => [.number 1, idItem participantID]
  | .participantLeft participantID => [.number 1, idItem participantID]
  | .direct message =>
      [.number 1, idItem message.toID, .number 2, idItem message.fromID, .number 3,
        .bytes message.payload]
  | .broadcast message => [.number 1, idItem message.fromID, .number 2, .bytes message.payload]
  | .pong nonce => [.number 1, .number nonce.toNat]
  | .error code msg => .number 1 :: .number code.toNat :: omitEmpty 2 (msg = "") (textItem msg) []
  | .sessionClosed reason => omitEmpty 1 (reason = "") (textItem reason) []

def Body.cbor (body : Body) : Bytes := (Item.map body.fields).encode

def idOfItem : Item → Option ParticipantID
  | .number value => if value < 2 ^ 32 then some (UInt32.ofNat value) else none
  | _ => none

def idField (key : Nat) (flat : List Item) : Option ParticipantID :=
  match Cbor.field key flat with
  | none => some 0
  | some item => idOfItem item

def idsField (key : Nat) (flat : List Item) : Option (List ParticipantID) :=
  match Cbor.field key flat with
  | none => some []
  | some (.array items) => items.mapM idOfItem
  | some _ => none

def Direct.ofItem : Item → Option Direct :=
  Cbor.ofMap (fun flat => do
    let toID ← idField 1 flat
    let fromID ← idField 2 flat
    let payload ← Cbor.bytesField 3 flat
    return { toID := toID, fromID := fromID, payload := payload })

def Broadcast.ofItem : Item → Option Broadcast :=
  Cbor.ofMap (fun flat => do
    let fromID ← idField 1 flat
    let payload ← Cbor.bytesField 2 flat
    return { fromID := fromID, payload := payload })

def JoinResult.ofItem : Item → Option JoinResult :=
  Cbor.ofMap (fun flat => do
    let ok ← Cbor.boolField 1 flat
    let err ← Cbor.textField 2 flat
    let participantID ← idField 3 flat
    let peers ← idsField 4 flat
    let hostID ← idField 5 flat
    let resumeToken ← Cbor.bytesField 6 flat
    let result : JoinResult :=
      { ok := ok
        err := String.ofList (Utf8.runes err)
        participantID := participantID
        peers := peers
        hostID := hostID
        resumeToken := resumeToken }
    return result)

/-- The length of a Go slice is below `2 ^ 64`. -/
def cborCodec : Codec :=
  { marshal := fun body => if body.cbor.length < 2 ^ 64 then some body.cbor else none
    bodyDirect := fun raw => (Cbor.readBody maxElements maxNested raw).bind Direct.ofItem
    bodyBroadcast := fun raw => (Cbor.readBody maxElements maxNested raw).bind Broadcast.ofItem }

variable {body : Body} {id : ParticipantID} {raw : Bytes} {key : Nat} {flat : List Item}

theorem marshal_cborCodec (marshalled : cborCodec.marshal body = some raw) :
    raw = body.cbor ∧ body.cbor.length < 2 ^ 64 := by
  obtain ⟨short, isRaw⟩ := Option.ite_none_right_eq_some.mp marshalled
  exact ⟨(Option.some.inj isRaw).symm, short⟩

theorem encode_cborCodec_isSome (short : body.cbor.length + 2 ≤ maxFrame) :
    (encode cborCodec body).isSome = true := by
  have small : body.cbor.length < 2 ^ 64 := by
    unfold maxFrame at short
    omega
  have marshalled : cborCodec.marshal body = some body.cbor := if_pos small
  have fits : ¬maxFrame < (version :: body.msgType.code :: body.cbor).length :=
    Nat.not_lt.mpr short
  simp only [encode, marshalled, Option.bind_some, if_neg fits, Option.isSome_some]

theorem length_noticeFields (id : ParticipantID) :
    (Item.map [.number 1, idItem id]).encode.length ≤ 7 := by
  have size := Cbor.headSize_le_five id.toNat_lt
  have head : Cbor.headSize 1 = 1 := by decide
  simp only [idItem, Cbor.length_encode_map, List.length_cons, List.length_nil, Nat.reduceAdd,
    Nat.reduceDiv, Cbor.length_encodeAll_cons, Cbor.length_encodeAll_nil,
    Cbor.length_encode_number, head]
  omega

theorem encode_participantJoined_isSome (id : ParticipantID) :
    (encode cborCodec (.participantJoined id)).isSome = true :=
  encode_cborCodec_isSome ((Nat.add_le_add_right (length_noticeFields id) 2).trans (by decide))

theorem encode_participantLeft_isSome (id : ParticipantID) :
    (encode cborCodec (.participantLeft id)).isSome = true :=
  encode_cborCodec_isSome ((Nat.add_le_add_right (length_noticeFields id) 2).trans (by decide))

theorem toNat_lt_argument (id : ParticipantID) : id.toNat < 2 ^ 64 :=
  Nat.lt_trans id.toNat_lt (by decide)

theorem idOfItem_idItem (id : ParticipantID) : idOfItem (idItem id) = some id := by
  simp only [idItem, idOfItem, if_pos id.toNat_lt, UInt32.ofNat_toNat]

theorem idField_eq_some (found : Cbor.field key flat = some (idItem id)) :
    idField key flat = some id := by
  simp only [idField, found, idOfItem_idItem]

theorem mapM_idOfItem (ids : List ParticipantID) : (ids.map idItem).mapM idOfItem = some ids := by
  induction ids with
  | nil => rfl
  | cons id rest ih =>
      rw [List.map_cons, List.mapM_cons, idOfItem_idItem, ih]
      rfl

theorem fits_idItem (limit depth : Nat) (id : ParticipantID) :
    Fits limit (depth + 1) (idItem id) :=
  toNat_lt_argument id

theorem fits_bytes {limit depth : Nat} {content : Bytes} (member : .bytes content ∈ body.fields)
    (short : body.cbor.length < 2 ^ 64) : Fits limit (depth + 1) (.bytes content) := by
  have within := Cbor.length_encode_le_of_mem member
  rw [Cbor.length_encode_bytes] at within
  exact Nat.lt_of_le_of_lt (Nat.le_trans (Cbor.le_stringSize _) within) short

theorem cborCodec_invertsForwarded : cborCodec.InvertsForwarded := by
  have limit : maxElements < 2 ^ 64 := by decide
  refine
    { direct := ?_
      broadcast := ?_ }
  · intro message raw marshalled
    obtain ⟨rfl, short⟩ := marshal_cborCodec marshalled
    have payload : Fits maxElements (30 + 1) (.bytes message.payload) :=
      fits_bytes (by simp [Body.fields]) short
    have fits : Fits maxElements maxNested (.map (Body.direct message).fields) := by
      refine ⟨⟨3, rfl, by decide⟩, ?_⟩
      simp only [Body.fields, List.forall_mem_cons]
      exact ⟨show 1 < 2 ^ 64 by decide, fits_idItem _ _ _, show 2 < 2 ^ 64 by decide,
        fits_idItem _ _ _, show 3 < 2 ^ 64 by decide, payload, List.forall_mem_nil _⟩
    have toID : idField 1 (Body.direct message).fields = some message.toID := idField_eq_some rfl
    have fromID : idField 2 (Body.direct message).fields = some message.fromID :=
      idField_eq_some rfl
    have content : Cbor.bytesField 3 (Body.direct message).fields = some message.payload :=
      Cbor.bytesField_eq_some rfl
    simp only [cborCodec, Body.cbor, Cbor.readBody_encode limit fits, Option.bind_some,
      Direct.ofItem, Cbor.ofMap, toID, fromID, content, Option.bind_eq_bind]
    rfl
  · intro message raw marshalled
    obtain ⟨rfl, short⟩ := marshal_cborCodec marshalled
    have payload : Fits maxElements (30 + 1) (.bytes message.payload) :=
      fits_bytes (by simp [Body.fields]) short
    have fits : Fits maxElements maxNested (.map (Body.broadcast message).fields) := by
      refine ⟨⟨2, rfl, by decide⟩, ?_⟩
      simp only [Body.fields, List.forall_mem_cons]
      exact ⟨show 1 < 2 ^ 64 by decide, fits_idItem _ _ _, show 2 < 2 ^ 64 by decide, payload,
        List.forall_mem_nil _⟩
    have fromID : idField 1 (Body.broadcast message).fields = some message.fromID :=
      idField_eq_some rfl
    have content : Cbor.bytesField 2 (Body.broadcast message).fields = some message.payload :=
      Cbor.bytesField_eq_some rfl
    simp only [cborCodec, Body.cbor, Cbor.readBody_encode limit fits, Option.bind_some,
      Broadcast.ofItem, Cbor.ofMap, fromID, content, Option.bind_eq_bind]
    rfl

/-- A list of peers is read whatever its length. -/
def maxPeers : Nat := 2 ^ 64 - 1

theorem JoinResult.ofItem_fields (result : JoinResult) :
    JoinResult.ofItem (.map (Body.joinResult result).fields) = some result := by
  have ok : Cbor.boolField 1 (Body.joinResult result).fields = some result.ok := rfl
  have err : Cbor.textField 2 (Body.joinResult result).fields =
      some (Utf8.encode result.err.toList) := by
    by_cases empty : result.err = ""
    · simp [Cbor.textField, Body.fields, empty, Cbor.field_cons_ne, Cbor.field_omitEmpty_self,
        Cbor.field_omitEmpty_ne, Cbor.field, Utf8.encode]
    · simp [Cbor.textField, Body.fields, empty, Cbor.field_cons_ne, Cbor.field_omitEmpty_self,
        textItem]
  have participantID : idField 3 (Body.joinResult result).fields = some result.participantID := by
    apply idField_eq_some
    simp [Body.fields, Cbor.field_cons_ne, Cbor.field_omitEmpty_ne, Cbor.field_cons_self]
  have peers : idsField 4 (Body.joinResult result).fields = some result.peers := by
    cases isPeers : result.peers with
    | nil =>
        simp [idsField, Body.fields, isPeers, Cbor.field_cons_ne, Cbor.field_omitEmpty_self,
          Cbor.field_omitEmpty_ne, Cbor.field]
    | cons first rest =>
        simpa [idsField, Body.fields, isPeers, Cbor.field_cons_ne, Cbor.field_omitEmpty_self,
          Cbor.field_omitEmpty_ne] using mapM_idOfItem (first :: rest)
  have hostID : idField 5 (Body.joinResult result).fields = some result.hostID := by
    apply idField_eq_some
    simp [Body.fields, Cbor.field_cons_ne, Cbor.field_omitEmpty_ne, Cbor.field_cons_self]
  have resumeToken : Cbor.bytesField 6 (Body.joinResult result).fields =
      some result.resumeToken := by
    cases isToken : result.resumeToken with
    | nil =>
        simp [Cbor.bytesField, Body.fields, isToken, Cbor.field_cons_ne, Cbor.field_omitEmpty_self,
          Cbor.field_omitEmpty_ne, Cbor.field]
    | cons first rest =>
        simp [Cbor.bytesField, Body.fields, isToken, Cbor.field_cons_ne, Cbor.field_omitEmpty_self,
          Cbor.field_omitEmpty_ne]
  simp only [JoinResult.ofItem, Cbor.ofMap, ok, err, participantID, peers, hostID, resumeToken,
    Option.bind_eq_bind, Option.bind_some, Utf8.runes_encode, String.ofList_toList]
  rfl

theorem fits_joinResult {result : JoinResult}
    (short : (Body.joinResult result).cbor.length < 2 ^ 64) :
    Fits maxPeers maxNested (.map (Body.joinResult result).fields) := by
  have number : ∀ {depth value}, value < 24 → Fits maxPeers (depth + 1) (.number value) :=
    fun small => Nat.lt_trans small (by decide)
  have each : ∀ item ∈ (Body.joinResult result).fields, item.encode.length < 2 ^ 64 :=
    fun item member => Nat.lt_of_le_of_lt (Cbor.length_encode_le_of_mem member) short
  refine ⟨⟨3 + (!decide (result.err = "")).toNat + (!result.peers.isEmpty).toNat +
    (!result.resumeToken.isEmpty).toNat, ?_, ?_⟩, ?_⟩
  · simp only [Body.fields, List.length_cons, Cbor.length_omitEmpty, List.length_nil]
    omega
  · have err := Bool.toNat_le (!decide (result.err = ""))
    have peers := Bool.toNat_le (!result.peers.isEmpty)
    have token := Bool.toNat_le (!result.resumeToken.isEmpty)
    unfold maxPeers
    omega
  · simp only [Body.fields, List.forall_mem_cons, Cbor.forall_mem_omitEmpty] at each ⊢
    obtain ⟨_, _, err, _, _, peers, _, _, token, _⟩ := each
    refine ⟨number (by decide), trivial, fun some_ => ⟨number (by decide), ?_, Utf8.valid_encode _⟩,
      number (by decide), fits_idItem _ _ _, fun some_ => ⟨number (by decide), ?_, ?_⟩,
      number (by decide), fits_idItem _ _ _, fun some_ => ⟨number (by decide), ?_⟩,
      List.forall_mem_nil _⟩
    · have size := (err some_).2
      rw [textItem, Cbor.length_encode_text] at size
      exact Nat.lt_of_le_of_lt (Cbor.le_stringSize _) size
    · have size := (peers some_).2
      have count := Cbor.length_le_length_encodeAll (result.peers.map idItem)
      rw [Cbor.length_encode_array] at size
      unfold maxPeers
      omega
    · intro item member
      obtain ⟨id, _, rfl⟩ := List.mem_map.mp member
      exact fits_idItem _ _ _
    · have size := (token some_).2
      rw [Cbor.length_encode_bytes] at size
      exact Nat.lt_of_le_of_lt (Cbor.le_stringSize _) size

end Parley.Wire
