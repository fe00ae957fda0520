/-
What becomes of a frame the hub accepts.

`route` encodes the frame again with the sender it stamps, under the limit the
client's own frame met.  With deterministic CBOR the size of the new frame is a
function of the ids and of the payload, so it can be compared with the limit.
-/

import Parley.Relay.Slots
import Parley.WireCbor

namespace Parley

open Library

variable {body : Body} {id : ParticipantID}

namespace Wire

/-- The size of a frame of a `Direct`: header, map head, three keys, the two ids
and the payload with its head. -/
def Direct.frameSize (message : Direct) : Nat :=
  2 + (4 + Cbor.headSize message.toID.toNat + Cbor.headSize message.fromID.toNat +
    Cbor.headSize message.payload.length + message.payload.length)

def Broadcast.frameSize (message : Broadcast) : Nat :=
  2 + (3 + Cbor.headSize message.fromID.toNat +
    Cbor.headSize message.payload.length + message.payload.length)

/-- Core-deterministic encoding of the two forwarded bodies: no field is left
out, every integer takes its shortest form, and marshalling does not fail. -/
structure Codec.Deterministic (codec : Codec) : Prop where
  directSize : ∀ message raw, codec.marshal (.direct message) = some raw →
    2 + raw.length = message.frameSize
  broadcastSize : ∀ message raw, codec.marshal (.broadcast message) = some raw →
    2 + raw.length = message.frameSize
  direct : ∀ message : Direct, message.payload.length ≤ maxFrame →
    codec.marshal (.direct message) ≠ none
  broadcast : ∀ message : Broadcast, message.payload.length ≤ maxFrame →
    codec.marshal (.broadcast message) ≠ none

theorem encode_ne_none_iff {codec : Codec} {size : Nat}
    (sized : ∀ raw, codec.marshal body = some raw → 2 + raw.length = size)
    (marshals : size ≤ maxFrame → codec.marshal body ≠ none) :
    encode codec body ≠ none ↔ size ≤ maxFrame := by
  unfold encode
  cases marshalled : codec.marshal body with
  | none =>
      refine iff_of_false (fun encoded => encoded rfl) (fun fits => ?_)
      exact marshals fits marshalled
  | some raw =>
      have length := sized raw marshalled
      have total : (version :: body.msgType.code :: raw).length = size := by
        rw [← length, List.length_cons, List.length_cons]
        omega
      rw [Option.bind_some]
      simp only [total]
      split
      · rename_i tooLong
        exact iff_of_false (fun encoded => encoded rfl) (Nat.not_le.mpr tooLong)
      · rename_i fits
        exact iff_of_true (Option.some_ne_none _) (Nat.not_lt.mp fits)

namespace Codec.Deterministic

variable {codec : Codec} (deterministic : codec.Deterministic)

include deterministic

theorem encode_direct (message : Direct) :
    encode codec (.direct message) ≠ none ↔ message.frameSize ≤ maxFrame := by
  refine encode_ne_none_iff (deterministic.directSize message) (fun fits => ?_)
  apply deterministic.direct message
  unfold Direct.frameSize at fits
  omega

theorem encode_broadcast (message : Broadcast) :
    encode codec (.broadcast message) ≠ none ↔ message.frameSize ≤ maxFrame := by
  refine encode_ne_none_iff (deterministic.broadcastSize message) (fun fits => ?_)
  apply deterministic.broadcast message
  unfold Broadcast.frameSize at fits
  omega

end Codec.Deterministic

theorem length_direct (message : Direct) :
    2 + (Body.direct message).cbor.length = message.frameSize := by
  have heads : Cbor.headSize 1 = 1 ∧ Cbor.headSize 2 = 1 ∧ Cbor.headSize 3 = 1 := by decide
  simp only [Body.cbor, Body.fields, idItem, Cbor.length_encode_map, List.length_cons,
    List.length_nil, Nat.reduceAdd, Nat.reduceDiv, Cbor.length_encodeAll_cons,
    Cbor.length_encodeAll_nil, Cbor.length_encode_number, Cbor.length_encode_bytes, heads,
    Cbor.stringSize, Direct.frameSize]
  omega

theorem length_broadcast (message : Broadcast) :
    2 + (Body.broadcast message).cbor.length = message.frameSize := by
  have heads : Cbor.headSize 1 = 1 ∧ Cbor.headSize 2 = 1 := by decide
  simp only [Body.cbor, Body.fields, idItem, Cbor.length_encode_map, List.length_cons,
    List.length_nil, Nat.reduceAdd, Nat.reduceDiv, Cbor.length_encodeAll_cons,
    Cbor.length_encodeAll_nil, Cbor.length_encode_number, Cbor.length_encode_bytes, heads,
    Cbor.stringSize, Broadcast.frameSize]
  omega

theorem marshal_cborCodec_ne_none (short : body.cbor.length < 2 ^ 64) :
    cborCodec.marshal body ≠ none :=
  fun missing => Option.some_ne_none _ ((if_pos short).symm.trans missing)

theorem cborCodec_deterministic : cborCodec.Deterministic := by
  refine
    { directSize := ?_
      broadcastSize := ?_
      direct := ?_
      broadcast := ?_ }
  · intro message raw marshalled
    obtain ⟨rfl, -⟩ := marshal_cborCodec marshalled
    exact length_direct message
  · intro message raw marshalled
    obtain ⟨rfl, -⟩ := marshal_cborCodec marshalled
    exact length_broadcast message
  · intro message small
    have size := length_direct message
    have toID := Cbor.headSize_le_nine message.toID.toNat
    have fromID := Cbor.headSize_le_nine message.fromID.toNat
    have payload := Cbor.headSize_le_nine message.payload.length
    unfold Direct.frameSize at size
    unfold maxFrame at small
    exact marshal_cborCodec_ne_none (by omega)
  · intro message small
    have size := length_broadcast message
    have fromID := Cbor.headSize_le_nine message.fromID.toNat
    have payload := Cbor.headSize_le_nine message.payload.length
    unfold Broadcast.frameSize at size
    unfold maxFrame at small
    exact marshal_cborCodec_ne_none (by omega)

end Wire

/-! ### Frames that are accounted for -/

namespace Relay

open Wire

/-- The body that `route` forwards for a client's frame. -/
def forwarded (codec : Codec) (sender : ParticipantID) (typ : MsgType) (raw : Bytes) :
    Option Body :=
  match typ with
  | .direct => (codec.bodyDirect raw).map (fun d => .direct { d with fromID := sender })
  | .broadcast => (codec.bodyBroadcast raw).map (fun b => .broadcast { b with fromID := sender })
  | _ => none

def addressed (sender : ParticipantID) : Body → ParticipantID → Prop
  | .direct message, q => q = message.toID
  | .broadcast _, q => q ≠ sender
  | _, _ => False

def forwardedSize : Body → Nat
  | .direct message => message.frameSize
  | .broadcast message => message.frameSize
  | _ => 0

/-- The slot of `id` has one frame more, that of `body`. -/
def HasQueued (codec : Codec) (before after : Hub) (id : ParticipantID) (body : Body) : Prop :=
  ∃ c next frame, before.clients.lookup id = some c ∧ after.clients.lookup id = some next ∧
    encode codec body = some frame ∧ next.out = c.out ++ [frame]

def Marked (h : Hub) (id : ParticipantID) : Prop :=
  ∃ c, h.clients.lookup id = some c ∧ c.evicting = true

/-- Each addressed participant has the frame queued or is marked for eviction,
or else the sender has an error queued. -/
def Accounted (codec : Codec) (before after : Hub) (sender : ParticipantID) (body : Body) : Prop :=
  (∀ q, q ∈ before.clients → addressed sender body q →
      HasQueued codec before after q body ∨ Marked after q) ∨
    ∃ code msg, HasQueued codec before after sender (.error code msg)

theorem not_hasQueued_self {codec : Codec} {h : Hub} :
    ¬ HasQueued codec h h id body := by
  rintro ⟨c, next, frame, found, foundNext, -, grown⟩
  rw [found] at foundNext
  cases foundNext
  have lengths := congrArg List.length grown
  rw [List.length_append, List.length_singleton] at lengths
  omega

variable {targets : ParticipantID → Prop} {effects : List Effect} {before after : Hub}

theorem Offers.hasQueued_or_marked {codec : Codec} {frame : Bytes}
    (encoded : encode codec body = some frame)
    (offers : Offers body frame targets before after effects) {q : ParticipantID}
    (target : targets q) (member : q ∈ before.clients) :
    HasQueued codec before after q body ∨ Marked after q := by
  obtain ⟨c, found⟩ := Option.isSome_iff_exists.mp (AList.lookup_isSome.mpr member)
  have offered := offers.offered q target
  rw [found, Option.map_some] at offered
  cases marked : (offer frame c).evicting with
  | true => exact Or.inr ⟨offer frame c, offered, marked⟩
  | false =>
      refine Or.inl ⟨c, offer frame c, frame, found, offered, encoded, ?_⟩
      rw [offer_of_accepts (accepts_of_offer marked)]

/-- A body spread to its addressees is accounted for exactly when it has a frame
or all of them were marked before. -/
theorem Spread.accounted_iff {codec : Codec} {sender : ParticipantID}
    (spread : Spread codec body targets before after effects)
    (reaches : ∀ q, addressed sender body q → targets q) :
    Accounted codec before after sender body ↔
      encode codec body ≠ none ∨
        ∀ q, q ∈ before.clients → addressed sender body q → Marked before q := by
  cases spread with
  | offered encoded offers =>
      refine iff_of_true (Or.inl fun q member isAddressed => ?_) (Or.inl ?_)
      · exact offers.hasQueued_or_marked encoded (reaches q isAddressed) member
      · rw [encoded]
        exact Option.some_ne_none _
  | unencodable refused =>
      constructor
      · intro accounted
        cases accounted with
        | inl served =>
            refine Or.inr (fun q member isAddressed => ?_)
            exact (served q member isAddressed).resolve_left not_hasQueued_self
        | inr reported =>
            obtain ⟨code, msg, queued⟩ := reported
            exact absurd queued not_hasQueued_self
      · intro marked
        cases marked with
        | inl encoded => exact absurd refused encoded
        | inr all => exact Or.inl (fun q member isAddressed => Or.inr (all q member isAddressed))

/-- A frame that `route` accepts is forwarded, evicts or is refused exactly when
the frame with the stamped sender is within the limit, or everybody it is
addressed to was marked before. -/
theorem accepted_frame_accounted_iff {codec : Codec} (deterministic : codec.Deterministic)
    (order : Order) (h : Hub) (sender : ParticipantID) (typ : MsgType) (raw : Bytes) (body : Body)
    (accepted : forwarded codec sender typ raw = some body) :
    Accounted codec h (route codec order h sender typ raw).1 sender body ↔
      forwardedSize body ≤ maxFrame ∨
        ∀ q, q ∈ h.clients → addressed sender body q → Marked h q := by
  cases typ with
  | direct =>
      obtain ⟨d, decoded, rfl⟩ := Option.map_eq_some_iff.mp accepted
      simp only [route, decoded]
      cases found : h.clients.lookup d.toID with
      | none =>
          have nobody : ∀ q, q ∈ h.clients → q ≠ d.toID := by
            rintro q member rfl
            exact absurd member (AList.lookup_eq_none.mp found)
          refine iff_of_true (Or.inl fun q member isAddressed => ?_)
            (Or.inr fun q member isAddressed => ?_)
          · exact absurd isAddressed (nobody q member)
          · exact absurd isAddressed (nobody q member)
      | some c =>
          have size := deterministic.encode_direct { d with fromID := sender }
          have spread := sendTo_spread codec h d.toID (.direct { d with fromID := sender })
          rw [spread.accounted_iff (fun q isAddressed => isAddressed), size]
          rfl
  | broadcast =>
      obtain ⟨b, decoded, rfl⟩ := Option.map_eq_some_iff.mp accepted
      simp only [route, decoded]
      have size := deterministic.encode_broadcast { b with fromID := sender }
      have spread := broadcastFrame_spread codec (order.perm 0) h
        (.broadcast { b with fromID := sender }) sender
      rw [spread.accounted_iff (fun q isAddressed => isAddressed), size]
      rfl
  | _ => cases accepted

def emptySlot (id : ParticipantID) : Client :=
  { id := id
    out := []
    kick := id.toNat
    token := []
    held := false
    gen := 1
    timer := false
    evicting := false }

def lateHub : Hub :=
  { newHub 16 0 with
    clients := (AList.insert 24 (emptySlot 24) ∅).insert 1 (emptySlot 1)
    nextID := 25 }

theorem smallBroadcast_accounted :
    forwarded cborCodec 24 .broadcast [0xa2, 0x01, 0x00, 0x02, 0x41, 0x07] =
        some (.broadcast { fromID := 24, payload := [0x07] }) ∧
      Accounted cborCodec lateHub
        (route cborCodec Order.stored lateHub 24 .broadcast [0xa2, 0x01, 0x00, 0x02, 0x41, 0x07]).1
        24 (.broadcast { fromID := 24, payload := [0x07] }) :=
  ⟨by decide +kernel, (accepted_frame_accounted_iff cborCodec_deterministic Order.stored lateHub 24
    .broadcast [0xa2, 0x01, 0x00, 0x02, 0x41, 0x07]
    (.broadcast { fromID := 24, payload := [0x07] }) (by decide +kernel)).mpr
      (Or.inl (by decide))⟩

/-- A payload whose frame is as long as a frame may be when the sender's id takes
one byte. -/
def longPayload : Bytes := List.replicate 65527 0

theorem longPayload_frameSize (fromID : ParticipantID) :
    ({ fromID := fromID, payload := longPayload } : Broadcast).frameSize =
      65535 + Cbor.headSize fromID.toNat := by
  have size : longPayload.length = 65527 := List.length_replicate
  have head : Cbor.headSize 65527 = 3 := by decide
  simp only [Broadcast.frameSize, size, head]
  omega

/-- A frame of the client's can be accepted and dropped without a word: the id
the relay stamps takes one byte more than the zero it replaces. -/
theorem long_broadcast_dropped :
    ¬ ∀ (codec : Codec), codec.InvertsForwarded → codec.Deterministic →
        ∀ (order : Order) (h : Hub) (sender : ParticipantID) (typ : MsgType) (frame raw : Bytes)
          (body : Body),
          sender ∈ h.clients → decode frame = some (typ.code, raw) →
          forwarded codec sender typ raw = some body →
          Accounted codec h (route codec order h sender typ raw).1 sender body := by
  intro claimed
  let own : Broadcast := { fromID := 0, payload := longPayload }
  let stamped : Broadcast := { fromID := 24, payload := longPayload }
  have fits : encode cborCodec (.broadcast own) ≠ none := by
    rw [cborCodec_deterministic.encode_broadcast, longPayload_frameSize]
    decide
  have refused : encode cborCodec (.broadcast stamped) = none := by
    have large : ¬ stamped.frameSize ≤ maxFrame := by
      rw [longPayload_frameSize]
      decide
    rw [← cborCodec_deterministic.encode_broadcast] at large
    exact Classical.not_not.mp large
  obtain ⟨frame, encoded⟩ := Option.ne_none_iff_exists'.mp fits
  obtain ⟨raw, marshalled, decoded⟩ := decode_encode encoded
  have read := cborCodec_invertsForwarded.broadcast own raw marshalled
  have accepted : forwarded cborCodec 24 .broadcast raw = some (.broadcast stamped) := by
    rw [forwarded, read, Option.map_some]
  have accounted := claimed cborCodec cborCodec_invertsForwarded cborCodec_deterministic
    Order.stored lateHub 24 .broadcast frame raw (.broadcast stamped) (by decide) decoded accepted
  simp only [route, read] at accounted
  have spread := broadcastFrame_spread cborCodec (Order.stored.perm 0) lateHub
    (.broadcast stamped) 24
  rw [spread.accounted_iff (fun q isAddressed => isAddressed)] at accounted
  cases accounted with
  | inl encodable => exact encodable refused
  | inr allMarked =>
      obtain ⟨c, found, marked⟩ := allMarked 1 (by decide) (by simp [addressed])
      have fresh : lateHub.clients.lookup 1 = some (emptySlot 1) := by decide
      rw [fresh] at found
      cases found
      cases marked

end Relay

end Parley
