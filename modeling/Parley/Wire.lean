/-
The relay protocol: message types, frame bodies, frame header and size limit.

A frame is a version byte, a type byte and a CBOR body.  The CBOR codec is a
third-party library, so it is a parameter (`Codec`) of everything that builds
or reads a frame; the header and the size limit are modelled as written.
-/

import Mathlib.Algebra.Group.Nat.Defs
import Mathlib.Data.List.AList

namespace Parley

/-- A Go map: the entries are an implementation detail, keys are distinct. -/
abbrev GoMap (Key Value : Type) : Type := AList (fun _ : Key => Value)

namespace Wire

abbrev Bytes : Type := List UInt8

abbrev ParticipantID : Type := UInt32

abbrev SessionID : Type := Vector UInt8 16

def version : UInt8 := 0x01

def maxFrame : Nat := 64 * 1024

inductive MsgType where
  | createSession
  | sessionCreated
  | joinSession
  | joinResult
  | participantJoined
  | participantLeft
  | direct
  | broadcast
  | ping
  | pong
  | error
  | sessionClosed
  | resumeSession
  | claimHost
  deriving DecidableEq, Repr

def MsgType.code : MsgType → UInt8
  | .createSession => 1
  | .sessionCreated => 2
  | .joinSession => 3
  | .joinResult => 4
  | .participantJoined => 5
  | .participantLeft => 6
  | .direct => 7
  | .broadcast => 8
  | .ping => 9
  | .pong => 10
  | .error => 11
  | .sessionClosed => 12
  | .resumeSession => 13
  | .claimHost => 14

def errCodeUnsupportedVersion : UInt16 := 1
def errCodeSessionNotFound : UInt16 := 2
def errCodeSessionExists : UInt16 := 3
def errCodeSessionFull : UInt16 := 4
def errCodeRateLimited : UInt16 := 5
def errCodeBadFrame : UInt16 := 6
def errCodeUnknownPeer : UInt16 := 7
def errCodeResumeRejected : UInt16 := 8

structure JoinResult where
  ok : Bool
  err : String
  participantID : ParticipantID
  peers : List ParticipantID
  hostID : ParticipantID
  resumeToken : Bytes
  deriving DecidableEq, Repr

/-- A 64-bit counter goes up until it comes round. -/
theorem lt_next_of_below {counter : UInt64} (below : counter.toNat + 1 < 2 ^ 64) :
    counter < counter + 1 := by
  apply UInt64.lt_iff_toNat_lt.mpr
  rw [UInt64.toNat_add]
  have one : (1 : UInt64).toNat = 1 := rfl
  omega

/-- Relayed to exactly one peer; the relay stamps `fromID` on forwarding. -/
structure Direct where
  toID : ParticipantID
  fromID : ParticipantID
  payload : Bytes
  deriving DecidableEq, Repr

structure Broadcast where
  fromID : ParticipantID
  payload : Bytes
  deriving DecidableEq, Repr

/-- The bodies the relay itself encodes, each under the type byte it carries. -/
inductive Body where
  | sessionCreated (participantID : ParticipantID) (resumeToken : Bytes)
  | joinResult (result : JoinResult)
  | participantJoined (participantID : ParticipantID)
  | participantLeft (participantID : ParticipantID)
  | direct (message : Direct)
  | broadcast (message : Broadcast)
  | pong (nonce : UInt32)
  | error (code : UInt16) (msg : String)
  | sessionClosed (reason : String)
  deriving DecidableEq, Repr

def Body.msgType : Body → MsgType
  | .sessionCreated _ _ => .sessionCreated
  | .joinResult _ => .joinResult
  | .participantJoined _ => .participantJoined
  | .participantLeft _ => .participantLeft
  | .direct _ => .direct
  | .broadcast _ => .broadcast
  | .pong _ => .pong
  | .error _ _ => .error
  | .sessionClosed _ => .sessionClosed

/-- What the relay uses of the CBOR library: deterministic marshalling of its
own bodies and unmarshalling of the two bodies it forwards. -/
structure Codec where
  marshal : Body → Option Bytes
  bodyDirect : Bytes → Option Direct
  bodyBroadcast : Bytes → Option Broadcast

structure HelloCodec where
  createSession : Bytes → Option (SessionID × UInt8)
  joinSession : Bytes → Option SessionID
  resumeSession : Bytes → Option (SessionID × ParticipantID × Bytes)

def encode (codec : Codec) (body : Body) : Option Bytes :=
  (codec.marshal body).bind (fun marshalled =>
    let frame := version :: body.msgType.code :: marshalled
    if maxFrame < frame.length then none else some frame)

def decode (frame : Bytes) : Option (UInt8 × Bytes) :=
  if maxFrame < frame.length then none
  else
    match frame with
    | first :: code :: raw => if first = version then some (code, raw) else none
    | _ => none

theorem decode_encode {codec : Codec} {body : Body} {frame : Bytes}
    (encoded : encode codec body = some frame) :
    ∃ raw, codec.marshal body = some raw ∧ decode frame = some (body.msgType.code, raw) := by
  obtain ⟨raw, marshalled, framed⟩ := Option.bind_eq_some_iff.mp encoded
  refine ⟨raw, marshalled, ?_⟩
  dsimp only at framed
  split at framed
  · cases framed
  · rename_i fits
    cases framed
    simp only [decode, if_neg fits, if_true]

/-- Unmarshalling a forwarded body gives back what was marshalled. -/
structure Codec.InvertsForwarded (codec : Codec) : Prop where
  direct : ∀ message raw, codec.marshal (.direct message) = some raw →
    codec.bodyDirect raw = some message
  broadcast : ∀ message raw, codec.marshal (.broadcast message) = some raw →
    codec.bodyBroadcast raw = some message

def idBytes (id : ParticipantID) : Bytes :=
  [UInt8.ofNat (id.toNat / 2 ^ 24), UInt8.ofNat (id.toNat / 2 ^ 16),
    UInt8.ofNat (id.toNat / 2 ^ 8), UInt8.ofNat id.toNat]

def readID (first second third fourth : UInt8) : ParticipantID :=
  UInt32.ofNat (first.toNat * 2 ^ 24 + second.toNat * 2 ^ 16 + third.toNat * 2 ^ 8 + fourth.toNat)

def takeID : Bytes → Option (ParticipantID × Bytes)
  | first :: second :: third :: fourth :: rest => some (readID first second third fourth, rest)
  | _ => none

theorem takeID_idBytes (id : ParticipantID) (rest : Bytes) :
    takeID (idBytes id ++ rest) = some (id, rest) := by
  have bound := id.toNat_lt
  have value : id.toNat / 2 ^ 24 % 2 ^ 8 * 2 ^ 24 + id.toNat / 2 ^ 16 % 2 ^ 8 * 2 ^ 16 +
      id.toNat / 2 ^ 8 % 2 ^ 8 * 2 ^ 8 + id.toNat % 2 ^ 8 = id.toNat := by
    omega
  simp only [idBytes, List.cons_append, List.nil_append, takeID, readID, UInt8.toNat_ofNat', value,
    UInt32.ofNat_toNat]

end Wire

end Parley
