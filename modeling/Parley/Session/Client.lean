/-
One end of a session: its state and the sections of code that run under its
lock.

The state is that of the source without the connection and the channels.  Each
function is one critical section, or the pure computation between two of them;
the order in which goroutines run them is the subject of the endpoint model.
Random values are arguments, and an absent one is a failed call.
-/

import Parley.Crypto

namespace Parley.Session

open Crypto
open Wire (Bytes ParticipantID SessionID)

/-- The role byte; values from 2 on belong to the application. -/
abbrev Role : Type := UInt8

def roleNone : Role := 0
def roleHost : Role := 1
def roleMember : Role := 2
def roleObserver : Role := 3

abbrev RolePolicy : Type := ParticipantID → Bool → GoMap ParticipantID Role → Role

def defaultRolePolicy : RolePolicy :=
  fun _ observer _ => if observer then roleObserver else roleMember

structure Envelope (β : Type) where
  serviceID : String
  seq : UInt64
  body : β
  deriving DecidableEq, Repr

structure Pake where
  data : Bytes
  spectate : Bool
  deriving DecidableEq, Repr

inductive PayloadKind where
  | pake1
  | pake2
  | groupKey
  | sealed
  | rekey
  | rekeyPake1
  | rekeyPake2
  deriving DecidableEq, Repr

variable (prim : Primitives) (β : Type)

/-- A decoded inner payload.  `undecodable` has no known kind, or a known kind
and a malformed body. -/
inductive Payload where
  | pake1 (p : Pake)
  | pake2 (p : Pake)
  | groupKey (gk : GroupKey prim)
  | sealed (sf : SealedFrame prim (Envelope β))
  | rekey (gk : GroupKey prim)
  | rekeyPake1 (p : Pake)
  | rekeyPake2 (p : Pake)
  | undecodable (kind : Option PayloadKind)

/-- What the relay delivers, with the sender it stamped.  `other` stands for the
frames the read loop skips. -/
inductive Received where
  | participantJoined (id : ParticipantID)
  | participantLeft (id : ParticipantID)
  | sessionClosed (reason : String)
  | direct (fromID : ParticipantID) (payload : Payload prim β)
  | broadcast (fromID : ParticipantID) (payload : Payload prim β)
  | other

inductive Sent where
  | direct (toID : ParticipantID) (payload : Payload prim β)
  | broadcast (payload : Payload prim β)
  | claimHost

inductive Event where
  | memberJoined (id : ParticipantID)
  | memberKeyed (id : ParticipantID) (role : Role)
  | memberLeft (id : ParticipantID)
  | frame (fromID : ParticipantID) (envelope : Envelope β)
  | closed (reason : String)

structure Client where
  proto : Bytes
  sid : SessionID
  phraseC : Bytes
  self : ParticipantID
  hostID : ParticipantID
  role : Role
  observer : Bool
  rolePolicy : RolePolicy
  groupKey : Key
  keyed : Bool
  prevKeys : List Key
  pairwise : GoMap ParticipantID Key
  hostPairwise : Key
  haveHostPairwise : Bool
  rekeyJoiner : Option Joiner
  seqs : GoMap String UInt64
  joiners : GoMap ParticipantID Role

def prevKeyRing : Nat := 8

def zeroKey : Key := Vector.replicate keySize 0

/-- The client before its hello; `sid` is derived from the label and the
phrase. -/
def dial (proto : Bytes) (sid : SessionID) (phraseC : Bytes) (rolePolicy : RolePolicy)
    (observer : Bool) : Client :=
  { proto := proto
    sid := sid
    phraseC := phraseC
    self := 0
    hostID := 0
    role := roleNone
    observer := observer
    rolePolicy := rolePolicy
    groupKey := zeroKey
    keyed := false
    prevKeys := []
    pairwise := ∅
    hostPairwise := zeroKey
    haveHostPairwise := false
    rekeyJoiner := none
    seqs := ∅
    joiners := ∅ }

namespace Client

def hostHello (c : Client) (id : ParticipantID) (key : Key) : Client :=
  { c with
    self := id
    hostID := id
    groupKey := key
    keyed := true
    role := roleHost }

def joinRequest (c : Client) (id hostID : ParticipantID) : Client :=
  { c with
    self := id
    hostID := hostID }

def becomeHost (c : Client) : Client :=
  { c with
    role := roleHost
    hostID := c.self }

def setHostID (c : Client) (id : ParticipantID) : Client :=
  { c with hostID := id }

def isHost (c : Client) : Bool :=
  c.role = roleHost ∧ c.hostID = c.self

/-- A superseded key goes to the front of the ring; the oldest drops out. -/
def pushPrevKeyLocked (c : Client) (old : Key) : Client :=
  { c with prevKeys := (old :: c.prevKeys).take prevKeyRing }

def swapKey (c : Client) (key : Key) : Client :=
  { c.pushPrevKeyLocked c.groupKey with groupKey := key }

def rotateForMigration (c : Client) (fresh : Option Key) : Client :=
  match fresh with
  | none => c
  | some newKey =>
      if c.isHost then { c.swapKey newKey with pairwise := ∅ } else c

/-- The survivor's first flight to the promoted host; `none` when there is
nothing to do. -/
def rekeyWithNewHost (c : Client) (seed : Bytes) : Option (Client × Sent prim β) :=
  if c.role = roleHost ∨ c.hostID = c.self ∨ c.keyed = false then none
  else
    let j := newJoiner prim c.proto c.phraseC seed
    some ({ c with rekeyJoiner := some j },
      .direct c.hostID (.rekeyPake1 { data := j.flight1, spectate := false }))

variable {prim β}

def sealEnvelope (c : Client) (serviceID : String) (body : β) (nonce : Option Nonce) :
    Client × Option (Payload prim β) :=
  if c.keyed = false then (c, none)
  else
    let seq := (c.seqs.lookup serviceID).getD 0 + 1
    let env : Envelope β := { serviceID := serviceID, seq := seq, body := body }
    ({ c with seqs := c.seqs.insert serviceID seq },
      nonce.map (fun n => .sealed (sealFrame prim c.groupKey env c.sid c.self n)))

theorem sealEnvelope_fields (c : Client) (serviceID : String) (body : β) (nonce : Option Nonce) :
    ∃ seqs, (@sealEnvelope prim β c serviceID body nonce).1 = { c with seqs := seqs } := by
  unfold sealEnvelope
  split
  · exact ⟨c.seqs, rfl⟩
  · exact ⟨_, rfl⟩

def openFrame (c : Client) (sf : SealedFrame prim (Envelope β)) (sender : ParticipantID) :
    Option (Envelope β) :=
  if c.keyed = false then none
  else (c.groupKey :: c.prevKeys).findSome? (fun key => openSealed prim key sf c.sid sender)

/-- The first section of a `ParticipantLeft`. -/
def forget (c : Client) (id : ParticipantID) : Client :=
  { c with
    joiners := c.joiners.erase id
    pairwise := c.pairwise.erase id }

variable (prim) in
/-- A fresh key wrapped to every member with a pairwise key; the role is kept. -/
def rekeyWraps (c : Client) (newKey : Key) (nonce : ParticipantID → Nonce) :
    List (ParticipantID × GroupKey prim) :=
  c.pairwise.entries.map (fun entry =>
    (entry.1, wrapGroupKey prim entry.2 newKey roleNone c.sid entry.1 (nonce entry.1)))

variable (prim) in
/-- The section of `rekeyAfterLeave` that mints a key and wraps it to every
member with a pairwise key; `none` when it returns early. -/
def rekeyAfterLeave (c : Client) (fresh : Option Key)
    (nonces : Option (ParticipantID → Nonce)) :
    Option (Key × List (ParticipantID × GroupKey prim)) :=
  if c.isHost = false ∨ c.pairwise.entries = [] then none
  else
    fresh.bind (fun newKey =>
      nonces.map (fun nonce => (newKey, c.rekeyWraps prim newKey nonce)))

theorem rekeyAfterLeave_of_alone {c : Client} (alone : c.pairwise.entries = [])
    (fresh : Option Key) (nonces : Option (ParticipantID → Nonce)) :
    c.rekeyAfterLeave prim fresh nonces = none :=
  if_pos (Or.inr alone)

theorem rekeyAfterLeave_of_not_host {c : Client} (notHost : c.isHost = false)
    (fresh : Option Key) (nonces : Option (ParticipantID → Nonce)) :
    c.rekeyAfterLeave prim fresh nonces = none :=
  if_pos (Or.inl notHost)

theorem rekeyAfterLeave_of_members {c : Client} (host : c.isHost = true)
    (members : c.pairwise.entries ≠ []) (newKey : Key) (nonce : ParticipantID → Nonce) :
    c.rekeyAfterLeave prim (some newKey) (some nonce) =
      some (newKey, c.rekeyWraps prim newKey nonce) := by
  unfold rekeyAfterLeave
  rw [if_neg]
  · rfl
  · rw [host]
    simp [members]

theorem mem_pairwise_of_mem_rekeyWraps {c : Client} {newKey : Key}
    {nonce : ParticipantID → Nonce} {out : ParticipantID × GroupKey prim}
    (member : out ∈ c.rekeyWraps prim newKey nonce) : out.1 ∈ c.pairwise := by
  obtain ⟨entry, present, same⟩ := List.mem_map.mp member
  rw [← same]
  exact AList.mem_keys.mpr (List.mem_keys_of_mem present)

/-- The checks of `handleRekey` and the unwrapping. -/
def handleRekey (c : Client) (fromID : ParticipantID) (gk : GroupKey prim) : Option (Key × Role) :=
  if c.haveHostPairwise ∧ fromID = c.hostID then unwrapGroupKey prim c.hostPairwise gk c.sid c.self
  else none

/-- The installing section of `handleRekey`; a rekey usually keeps the role. -/
def install (c : Client) (key : Key) (role : Role) : Client :=
  let swapped := c.swapKey key
  if role = roleNone then swapped else { swapped with role := role }

/-- The role for a joiner; the reserved values become `roleMember`. -/
def assignRole (c : Client) (fromID : ParticipantID) (spectate : Bool) : Role :=
  let role := c.rolePolicy fromID spectate c.joiners
  if role = roleNone ∨ role = roleHost then roleMember else role

/-- The store of `handleHandshakeDirect`. -/
def enrol (c : Client) (fromID : ParticipantID) (role : Role) (pairwise : Key) : Client :=
  { c with
    joiners := c.joiners.insert fromID role
    pairwise := c.pairwise.insert fromID pairwise }

/-- The store of `handleRekeyPake1`. -/
def readmit (c : Client) (fromID : ParticipantID) (pairwise : Key) : Client :=
  { c with pairwise := c.pairwise.insert fromID pairwise }

variable (prim) in
def hostExchange (c : Client) (fromID : ParticipantID) (p : Pake) (seed : Bytes) :
    Option (Key × Bytes) :=
  Crypto.hostExchange prim c.proto c.phraseC seed p.data c.sid fromID c.self

def keyedBy (c : Client) (key : Key) (role : Role) (pairwise : Key) : Client :=
  { c with
    groupKey := key
    role := role
    keyed := true
    hostPairwise := pairwise
    haveHostPairwise := true }

variable (prim) in
def finish (c : Client) (j : Joiner) (data : Bytes) : Option Key :=
  j.finish prim data c.sid c.self c.hostID

/-- The store of `handleRekeyPake2`. -/
def adoptHostPairwise (c : Client) (pairwise : Key) : Client :=
  { c with
    hostPairwise := pairwise
    haveHostPairwise := true
    rekeyJoiner := none }

end Client

end Parley.Session
