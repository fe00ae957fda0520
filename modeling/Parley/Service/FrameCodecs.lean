/-
The layers of a snapshot's frame.

A history travels in a snapshot, the snapshot in a ctl body, that in an envelope,
and the envelope sealed in the payload of a `Direct`.  Two things are used of the
CBOR library: how long each layer is, and that a layer short enough for a frame is
read back, a map up to the order of its entries.  An encoding that has both follows.
-/

import Mathlib.Algebra.Order.BigOperators.Group.List
import Parley.Relay.Forwarding
import Parley.Service.Strings
import Parley.Session.Sending

namespace Parley.Service

open Crypto Library Service.Chat
open Library.Cbor (Item Fits headSize stringSize omitEmpty)
open Session (Envelope)
open Wire (Bytes ParticipantID maxElements maxNested)

/-- `wire.Marshal` and `wire.Body` for each layer; `ctl` is for a `ctlMsg` with
snapshots. -/
structure FrameCodecs where
  snapshot : BodyCodec (List StoredMsg) Bytes
  ctl : BodyCodec (GoMap String Bytes) Bytes
  envelope : BodyCodec (Envelope Bytes) Bytes
  sealedFrame : BodyCodec (Nonce × Bytes) Bytes
  wire : Wire.Codec

def storedSize (m : StoredMsg) : Nat :=
  4 + headSize m.id.toNat + headSize m.fromID.toNat + stringSize m.text.length

def snapshotSize (history : List StoredMsg) : Nat :=
  2 + headSize history.length + (history.map storedSize).sum

/-- An empty map is left out. -/
def ctlSize (blobs : GoMap String Bytes) : Nat :=
  3 + if blobs.entries = [] then 0
    else
      1 + headSize blobs.entries.length + (blobs.entries.map (fun entry =>
        stringSize (Utf8.encode entry.1.toList).length + stringSize entry.2.length)).sum

def envelopeSize (env : Envelope Bytes) : Nat :=
  4 + stringSize (Utf8.encode env.serviceID.toList).length + headSize env.seq.toNat +
    stringSize env.body.length

/-- A nonce of 24 bytes and a ciphertext. -/
def sealedSize (ciphertext : Nat) : Nat := 29 + stringSize ciphertext

/-- Core-deterministic encoding: the shortest form of every number and no field but
the empty ones left out. -/
structure FrameCodecs.Sized (codecs : FrameCodecs) : Prop where
  snapshot : ∀ history, (codecs.snapshot.marshal history).length = snapshotSize history
  ctl : ∀ blobs, (codecs.ctl.marshal blobs).length = ctlSize blobs
  envelope : ∀ env, (codecs.envelope.marshal env).length = envelopeSize env
  sealedFrame : ∀ nonce ciphertext,
    (codecs.sealedFrame.marshal (nonce, ciphertext)).length = sealedSize ciphertext.length
  wire : codecs.wire.Deterministic

/-- What a frame has room for is read back, within the decoder's limit on elements
and with valid texts. -/
structure FrameCodecs.Inverts (codecs : FrameCodecs) : Prop where
  snapshot : ∀ history, history.length ≤ maxElements → (∀ m ∈ history, Utf8.Valid m.text) →
    (codecs.snapshot.marshal history).length ≤ Wire.maxFrame →
    codecs.snapshot.body (codecs.snapshot.marshal history) = some history
  ctl : ∀ blobs, blobs.entries.length ≤ maxElements →
    (codecs.ctl.marshal blobs).length ≤ Wire.maxFrame →
    ∃ read, codecs.ctl.body (codecs.ctl.marshal blobs) = some read ∧
      ∀ id, read.lookup id = blobs.lookup id
  envelope : ∀ env, (codecs.envelope.marshal env).length ≤ Wire.maxFrame →
    codecs.envelope.body (codecs.envelope.marshal env) = some env
  sealedFrame : ∀ box, (codecs.sealedFrame.marshal box).length ≤ Wire.maxFrame →
    codecs.sealedFrame.body (codecs.sealedFrame.marshal box) = some box
  wire : codecs.wire.InvertsForwarded

/-! ### An encoding -/

def readBody (raw : Bytes) : Option Item := Cbor.readBody maxElements maxNested raw

def storedFields (m : StoredMsg) : List Item :=
  [.number 1, .number m.id.toNat, .number 2, .number m.fromID.toNat, .number 3, .text m.text]

def storedItem (m : StoredMsg) : Item := .map (storedFields m)

def storedOfItem : Item → Option StoredMsg :=
  Cbor.ofMap (fun flat => do
    let id ← Cbor.numberField 1 (2 ^ 64) flat
    let fromID ← Cbor.numberField 2 (2 ^ 32) flat
    let text ← Cbor.textField 3 flat
    return { id := UInt64.ofNat id, fromID := UInt32.ofNat fromID, text := text })

def snapshotItem (history : List StoredMsg) : Item :=
  .map [.number 1, .array (history.map storedItem)]

def snapshotOfItem : Item → Option (List StoredMsg) :=
  Cbor.ofMap (fun flat =>
    match Cbor.field 1 flat with
    | none => some []
    | some (.array items) => items.mapM storedOfItem
    | some _ => none)

def ctlKindSnapshot : Nat := 3

def blobItems (entries : List ((_ : String) × Bytes)) : List Item :=
  entries.flatMap (fun entry => [Wire.textItem entry.1, .bytes entry.2])

def ctlSnapshotItem (blobs : GoMap String Bytes) : Item :=
  .map (.number 1 :: .number ctlKindSnapshot ::
    omitEmpty 4 (blobs.entries = []) (.map (blobItems blobs.entries)) [])

def blobsOfItems : List Item → Option (GoMap String Bytes)
  | [] => some ∅
  | .text name :: .bytes blob :: rest =>
      (blobsOfItems rest).bind (fun later =>
        let id := String.ofList (Utf8.runes name)
        if id ∈ later then none else some (later.insert id blob))
  | _ => none

def ctlSnapshotOfItem : Item → Option (GoMap String Bytes) :=
  Cbor.ofMap (fun flat => do
    let kind ← Cbor.numberField 1 (2 ^ 8) flat
    if kind = ctlKindSnapshot then
      match Cbor.field 4 flat with
      | none => some ∅
      | some (.map blobs) => blobsOfItems blobs
      | some _ => none
    else none)

def envelopeFields (env : Envelope Bytes) : List Item :=
  [.number 1, Wire.textItem env.serviceID, .number 2, .number env.seq.toNat, .number 3,
    .bytes env.body]

def envelopeItem (env : Envelope Bytes) : Item := .map (envelopeFields env)

def envelopeOfItem : Item → Option (Envelope Bytes) :=
  Cbor.ofMap (fun flat => do
    let serviceID ← Cbor.textField 1 flat
    let seq ← Cbor.numberField 2 (2 ^ 64) flat
    let body ← Cbor.bytesField 3 flat
    let id := String.ofList (Utf8.runes serviceID)
    return { serviceID := id, seq := UInt64.ofNat seq, body := body })

def sealedItem (nonce : Nonce) (ciphertext : Bytes) : Item :=
  .map [.number 1, .bytes nonce.toList, .number 2, .bytes ciphertext]

def sealedOfItem : Item → Option (Nonce × Bytes) :=
  Cbor.ofMap (fun flat => do
    let nonce ← Cbor.bytesField 1 flat
    let ciphertext ← Cbor.bytesField 2 flat
    return (Vector.ofFn (fun index => nonce.getD index.val 0), ciphertext))

def cborFrames : FrameCodecs :=
  { snapshot :=
      { marshal := fun history => (snapshotItem history).encode
        body := fun raw => (readBody raw).bind snapshotOfItem }
    ctl :=
      { marshal := fun blobs => (ctlSnapshotItem blobs).encode
        body := fun raw => (readBody raw).bind ctlSnapshotOfItem }
    envelope :=
      { marshal := fun env => (envelopeItem env).encode
        body := fun raw => (readBody raw).bind envelopeOfItem }
    sealedFrame :=
      { marshal := fun box => (sealedItem box.1 box.2).encode
        body := fun raw => (readBody raw).bind sealedOfItem }
    wire := Wire.cborCodec }

section

variable {history : List StoredMsg} {m : StoredMsg} {blobs : GoMap String Bytes}

theorem heads_small : headSize 1 = 1 ∧ headSize 2 = 1 ∧ headSize 3 = 1 ∧ headSize 4 = 1 := by
  decide

theorem length_storedItem (m : StoredMsg) : (storedItem m).encode.length = storedSize m := by
  simp only [storedItem, storedFields, Cbor.length_encode_map, List.length_cons, List.length_nil,
    Nat.reduceAdd, Nat.reduceDiv, Cbor.length_encodeAll_cons, Cbor.length_encodeAll_nil,
    Cbor.length_encode_number, Cbor.length_encode_text, heads_small, storedSize]
  omega

theorem length_encodeAll_stored (history : List StoredMsg) :
    (Cbor.encodeAll (history.map storedItem)).length = (history.map storedSize).sum := by
  induction history with
  | nil => rfl
  | cons m rest ih =>
      rw [List.map_cons, Cbor.length_encodeAll_cons, ih, length_storedItem, List.map_cons,
        List.sum_cons]

theorem length_snapshotItem (history : List StoredMsg) :
    (snapshotItem history).encode.length = snapshotSize history := by
  simp only [snapshotItem, Cbor.length_encode_map, List.length_cons, List.length_nil,
    Nat.reduceAdd, Nat.reduceDiv, Cbor.length_encodeAll_cons, Cbor.length_encodeAll_nil,
    Cbor.length_encode_number, Cbor.length_encode_array, heads_small, List.length_map,
    length_encodeAll_stored, snapshotSize]
  omega

theorem length_blobItems (entries : List ((_ : String) × Bytes)) :
    (blobItems entries).length = 2 * entries.length ∧
      (Cbor.encodeAll (blobItems entries)).length = (entries.map (fun entry =>
        stringSize (Utf8.encode entry.1.toList).length + stringSize entry.2.length)).sum := by
  induction entries with
  | nil => exact ⟨rfl, rfl⟩
  | cons entry rest ih =>
      have items : blobItems (entry :: rest) =
          Wire.textItem entry.1 :: .bytes entry.2 :: blobItems rest := rfl
      obtain ⟨count, size⟩ := ih
      refine ⟨?_, ?_⟩
      · rw [items, List.length_cons, List.length_cons, count, List.length_cons]
        omega
      · rw [items, Cbor.length_encodeAll_cons, Cbor.length_encodeAll_cons, size, List.map_cons,
          List.sum_cons, Wire.textItem, Cbor.length_encode_text, Cbor.length_encode_bytes]
        omega

theorem length_ctlSnapshotItem (blobs : GoMap String Bytes) :
    (ctlSnapshotItem blobs).encode.length = ctlSize blobs := by
  obtain ⟨count, size⟩ := length_blobItems blobs.entries
  unfold ctlSize ctlSnapshotItem omitEmpty
  by_cases empty : blobs.entries = []
  · simp only [if_pos empty, decide_eq_true empty, if_true]
    decide
  · simp only [if_neg empty, decide_eq_false empty, Bool.false_eq_true, if_false,
      Cbor.length_encode_map, List.length_cons, List.length_nil, Nat.reduceAdd, Nat.reduceDiv,
      Cbor.length_encodeAll_cons, Cbor.length_encodeAll_nil, Cbor.length_encode_number, count, size,
      ctlKindSnapshot, heads_small, Nat.mul_div_cancel_left _ (show 0 < 2 by omega)]
    omega

theorem length_envelopeItem (env : Envelope Bytes) :
    (envelopeItem env).encode.length = envelopeSize env := by
  simp only [envelopeItem, envelopeFields, Wire.textItem, Cbor.length_encode_map,
    List.length_cons, List.length_nil, Nat.reduceAdd, Nat.reduceDiv, Cbor.length_encodeAll_cons,
    Cbor.length_encodeAll_nil, Cbor.length_encode_number, Cbor.length_encode_text,
    Cbor.length_encode_bytes, heads_small, envelopeSize]
  omega

theorem length_sealedItem (nonce : Nonce) (ciphertext : Bytes) :
    (sealedItem nonce ciphertext).encode.length = sealedSize ciphertext.length := by
  have nonceSize : stringSize 24 = 26 := by decide
  simp only [sealedItem, Cbor.length_encode_map, List.length_cons, List.length_nil,
    Nat.reduceAdd, Nat.reduceDiv, Cbor.length_encodeAll_cons, Cbor.length_encodeAll_nil,
    Cbor.length_encode_number, Cbor.length_encode_bytes, Vector.length_toList, heads_small,
    nonceSize, sealedSize]
  omega

theorem cborFrames_sized : cborFrames.Sized :=
  { snapshot := length_snapshotItem
    ctl := length_ctlSnapshotItem
    envelope := length_envelopeItem
    sealedFrame := length_sealedItem
    wire := Wire.cborCodec_deterministic }

theorem storedOfItem_storedItem (m : StoredMsg) : storedOfItem (storedItem m) = some m := by
  have id : Cbor.numberField 1 (2 ^ 64) (storedFields m) = some m.id.toNat :=
    Cbor.numberField_eq_some rfl m.id.toNat_lt
  have fromID : Cbor.numberField 2 (2 ^ 32) (storedFields m) = some m.fromID.toNat :=
    Cbor.numberField_eq_some rfl m.fromID.toNat_lt
  have text : Cbor.textField 3 (storedFields m) = some m.text := Cbor.textField_eq_some rfl
  simp only [storedOfItem, storedItem, Cbor.ofMap, id, fromID, text, Option.bind_eq_bind,
    Option.bind_some, UInt64.ofNat_toNat, UInt32.ofNat_toNat]
  rfl

theorem snapshotOfItem_snapshotItem (history : List StoredMsg) :
    snapshotOfItem (snapshotItem history) = some history := by
  have read : (history.map storedItem).mapM storedOfItem = some history := by
    induction history with
    | nil => rfl
    | cons m rest ih =>
        rw [List.map_cons, List.mapM_cons, storedOfItem_storedItem, ih]
        rfl
  simpa [snapshotOfItem, snapshotItem, Cbor.ofMap, Cbor.field] using read

theorem envelopeOfItem_envelopeItem (env : Envelope Bytes) :
    envelopeOfItem (envelopeItem env) = some env := by
  have serviceID : Cbor.textField 1 (envelopeFields env) =
      some (Utf8.encode env.serviceID.toList) := Cbor.textField_eq_some rfl
  have seq : Cbor.numberField 2 (2 ^ 64) (envelopeFields env) = some env.seq.toNat :=
    Cbor.numberField_eq_some rfl env.seq.toNat_lt
  have body : Cbor.bytesField 3 (envelopeFields env) = some env.body := Cbor.bytesField_eq_some rfl
  simp only [envelopeOfItem, envelopeItem, Cbor.ofMap, serviceID, seq, body, Option.bind_eq_bind,
    Option.bind_some, Utf8.runes_encode, String.ofList_toList, UInt64.ofNat_toNat]
  rfl

theorem sealedOfItem_sealedItem (nonce : Nonce) (ciphertext : Bytes) :
    sealedOfItem (sealedItem nonce ciphertext) = some (nonce, ciphertext) := by
  simp [sealedOfItem, sealedItem, Cbor.ofMap, Cbor.bytesField, Cbor.field]

theorem blobsOfItems_blobItems (blobs : GoMap String Bytes) :
    blobsOfItems (blobItems blobs.entries) = some blobs := by
  obtain ⟨entries, nodup⟩ := blobs
  induction entries with
  | nil => rfl
  | cons entry rest ih =>
      obtain ⟨id, blob⟩ := entry
      have distinct := List.nodupKeys_cons.mp nodup
      have later := ih distinct.2
      have items : blobItems (⟨id, blob⟩ :: rest) =
          .text (Utf8.encode id.toList) :: .bytes blob :: blobItems rest := rfl
      have absent : id ∉ (⟨rest, distinct.2⟩ : GoMap String Bytes) := distinct.1
      simp only [items, blobsOfItems, later, Option.bind_some, Utf8.runes_encode,
        String.ofList_toList, if_neg absent]
      exact congrArg some (AList.ext (AList.entries_insert_of_notMem absent))

theorem ctlSnapshotOfItem_ctlSnapshotItem (blobs : GoMap String Bytes) :
    ctlSnapshotOfItem (ctlSnapshotItem blobs) = some blobs := by
  by_cases empty : blobs.entries = []
  · have none_ : blobs = ∅ := AList.ext empty
    subst none_
    rfl
  · simpa [ctlSnapshotOfItem, ctlSnapshotItem, omitEmpty, empty, Cbor.ofMap, Cbor.numberField,
      Cbor.field, ctlKindSnapshot] using blobsOfItems_blobItems blobs

theorem readBody_encode {item : Item} (fits : Fits maxElements maxNested item) :
    readBody item.encode = some item :=
  Cbor.readBody_encode (by decide) fits

theorem lt_argument {size length : Nat} (within : stringSize length ≤ size)
    (short : size ≤ Wire.maxFrame) : length < 2 ^ 64 := by
  have below := Cbor.le_stringSize length
  unfold Wire.maxFrame at short
  omega

theorem fits_storedItem (depth : Nat) (valid : Utf8.Valid m.text)
    (short : storedSize m ≤ Wire.maxFrame) : Fits maxElements (depth + 2) (storedItem m) := by
  have text : m.text.length < 2 ^ 64 := by
    refine lt_argument ?_ short
    unfold storedSize
    omega
  refine ⟨⟨3, rfl, by decide⟩, ?_⟩
  simp only [storedFields, List.forall_mem_cons]
  exact ⟨show 1 < 2 ^ 64 by decide, m.id.toNat_lt, show 2 < 2 ^ 64 by decide,
    Wire.toNat_lt_argument m.fromID, show 3 < 2 ^ 64 by decide, ⟨text, valid⟩,
    List.forall_mem_nil _⟩

theorem fits_snapshotItem (few : history.length ≤ maxElements)
    (valid : ∀ m ∈ history, Utf8.Valid m.text) (short : snapshotSize history ≤ Wire.maxFrame) :
    Fits maxElements maxNested (snapshotItem history) := by
  have each : ∀ m ∈ history, storedSize m ≤ Wire.maxFrame := by
    intro m member
    have within : storedSize m ≤ (history.map storedSize).sum :=
      List.le_sum_of_mem (List.mem_map_of_mem member)
    unfold snapshotSize at short
    omega
  have stored : Fits maxElements (28 + 3) (.array (history.map storedItem)) := by
    refine ⟨?_, fun item member => ?_⟩
    · rw [List.length_map]
      exact few
    · obtain ⟨m, present, rfl⟩ := List.mem_map.mp member
      exact fits_storedItem 28 (valid m present) (each m present)
  refine ⟨⟨1, rfl, by decide⟩, ?_⟩
  simp only [List.forall_mem_cons]
  exact ⟨show 1 < 2 ^ 64 by decide, stored, List.forall_mem_nil _⟩

theorem fits_ctlSnapshotItem (few : blobs.entries.length ≤ maxElements)
    (short : ctlSize blobs ≤ Wire.maxFrame) :
    Fits maxElements maxNested (ctlSnapshotItem blobs) := by
  by_cases empty : blobs.entries = []
  · have none_ : blobs = ∅ := AList.ext empty
    subst none_
    refine ⟨⟨1, rfl, by decide⟩, ?_⟩
    show ∀ item ∈ [Item.number 1, .number ctlKindSnapshot], _
    simp only [List.forall_mem_cons]
    exact ⟨show 1 < 2 ^ 64 by decide, show 3 < 2 ^ 64 by decide, List.forall_mem_nil _⟩
  · have inner : Fits maxElements (30 + 1) (.map (blobItems blobs.entries)) := by
      refine ⟨⟨blobs.entries.length, (length_blobItems blobs.entries).1, few⟩, ?_⟩
      intro item member
      obtain ⟨entry, listed, inside⟩ := List.mem_flatMap.mp member
      have within : stringSize (Utf8.encode entry.1.toList).length + stringSize entry.2.length ≤
          (blobs.entries.map (fun entry =>
            stringSize (Utf8.encode entry.1.toList).length + stringSize entry.2.length)).sum :=
        List.le_sum_of_mem (List.mem_map.mpr ⟨entry, listed, rfl⟩)
      unfold ctlSize at short
      rw [if_neg empty] at short
      simp only [List.mem_cons, List.not_mem_nil, or_false] at inside
      rcases inside with rfl | rfl
      · exact ⟨lt_argument (Nat.le_refl _) (by omega), Utf8.valid_encode _⟩
      · exact lt_argument (Nat.le_refl _) (by omega)
    have items : ctlSnapshotItem blobs = .map [.number 1, .number ctlKindSnapshot, .number 4,
        .map (blobItems blobs.entries)] := by
      simp only [ctlSnapshotItem, omitEmpty, decide_eq_false empty, Bool.false_eq_true, if_false]
    rw [items]
    refine ⟨⟨2, rfl, by decide⟩, ?_⟩
    simp only [List.forall_mem_cons]
    exact ⟨show 1 < 2 ^ 64 by decide, show 3 < 2 ^ 64 by decide, show 4 < 2 ^ 64 by decide, inner,
      List.forall_mem_nil _⟩

theorem fits_envelopeItem {env : Envelope Bytes} (short : envelopeSize env ≤ Wire.maxFrame) :
    Fits maxElements maxNested (envelopeItem env) := by
  unfold envelopeSize at short
  refine ⟨⟨3, rfl, by decide⟩, ?_⟩
  simp only [envelopeFields, List.forall_mem_cons]
  exact ⟨show 1 < 2 ^ 64 by decide, ⟨lt_argument (Nat.le_refl _) (by omega), Utf8.valid_encode _⟩,
    show 2 < 2 ^ 64 by decide, env.seq.toNat_lt, show 3 < 2 ^ 64 by decide,
    lt_argument (Nat.le_refl _) (show stringSize env.body.length ≤ Wire.maxFrame by omega),
    List.forall_mem_nil _⟩

theorem fits_sealedItem {nonce : Nonce} {ciphertext : Bytes}
    (short : sealedSize ciphertext.length ≤ Wire.maxFrame) :
    Fits maxElements maxNested (sealedItem nonce ciphertext) := by
  have size : nonce.toList.length < 2 ^ 64 := by
    rw [Vector.length_toList]
    decide
  unfold sealedSize at short
  refine ⟨⟨2, rfl, by decide⟩, ?_⟩
  simp only [List.forall_mem_cons]
  exact ⟨show 1 < 2 ^ 64 by decide, size, show 2 < 2 ^ 64 by decide,
    lt_argument (Nat.le_refl _) (show stringSize ciphertext.length ≤ Wire.maxFrame by omega),
    List.forall_mem_nil _⟩

theorem cborFrames_inverts : cborFrames.Inverts := by
  refine
    { snapshot := ?_
      ctl := ?_
      envelope := ?_
      sealedFrame := ?_
      wire := Wire.cborCodec_invertsForwarded }
  · intro history few valid short
    rw [cborFrames_sized.snapshot] at short
    simp only [cborFrames, readBody_encode (fits_snapshotItem few valid short), Option.bind_some,
      snapshotOfItem_snapshotItem]
  · intro blobs few short
    rw [cborFrames_sized.ctl] at short
    refine ⟨blobs, ?_, fun _ => rfl⟩
    simp only [cborFrames, readBody_encode (fits_ctlSnapshotItem few short), Option.bind_some,
      ctlSnapshotOfItem_ctlSnapshotItem]
  · intro env short
    rw [cborFrames_sized.envelope] at short
    simp only [cborFrames, readBody_encode (fits_envelopeItem short), Option.bind_some,
      envelopeOfItem_envelopeItem]
  · rintro ⟨nonce, ciphertext⟩ short
    rw [cborFrames_sized.sealedFrame] at short
    simp only [cborFrames, readBody_encode (fits_sealedItem short), Option.bind_some,
      sealedOfItem_sealedItem]

end

end Parley.Service
