/-
The cryptographic layer: pairwise PAKE handshake, wrapped group keys and sealed
frames.

The AEAD, the PAKE and the key derivation are third-party code and enter as a
parameter (`Primitives`); `Primitives.Ideal` states what their documentation
promises.  Associated data, key wrapping and the order of the exchange are
modelled as written.  A sealed plaintext keeps its type, so the encoding of an
envelope into bytes is not modelled here; a wrapped key is the byte string the
source builds.
-/

import Mathlib.Data.List.Basic
import Parley.Library.Text
import Parley.Wire

namespace Parley.Crypto

open Library
open Wire (Bytes ParticipantID SessionID)

def keySize : Nat := 32

abbrev Key : Type := Vector UInt8 keySize

abbrev Nonce : Type := Vector UInt8 24

/-- The third-party primitives.  A PAKE object is determined by its secret and
its random seed, so its state is not a type of its own. -/
structure Primitives where
  Box : Type → Type
  aeadSeal : {α : Type} → Key → Nonce → Bytes → α → Box α
  aeadOpen : {α : Type} → Key → Nonce → Bytes → Box α → Option α
  /-- The flight of the side that starts. -/
  pakeStart : Bytes → Bytes → Bytes
  /-- The other side: the shared secret and its own flight, from the first one. -/
  pakeReply : Bytes → Bytes → Bytes → Option (Bytes × Bytes)
  /-- The starting side's shared secret, from the reply. -/
  pakeFinish : Bytes → Bytes → Bytes → Option Bytes
  hkdf : Bytes → Bytes → Bytes → Key

/-- A box opens exactly under the key and the associated data it was sealed
with, and two sides with one secret agree. -/
structure Primitives.Ideal (prim : Primitives) : Prop where
  open_seal : ∀ {α : Type} (key other : Key) (nonce : Nonce) (ad otherAD : Bytes) (plain : α),
    prim.aeadOpen other nonce otherAD (prim.aeadSeal key nonce ad plain) =
      if other = key ∧ otherAD = ad then some plain else none
  pake_agrees : ∀ secret seed replySeed : Bytes, ∃ shared reply,
    prim.pakeReply secret replySeed (prim.pakeStart secret seed) = some (shared, reply) ∧
      prim.pakeFinish secret seed reply = some shared

variable (prim : Primitives)

structure Joiner where
  phrase : Bytes
  seed : Bytes
  protocol : Bytes
  flight1 : Bytes
  deriving DecidableEq, Repr

def newJoiner (protocol phrase seed : Bytes) : Joiner :=
  { phrase := phrase
    seed := seed
    protocol := protocol
    flight1 := prim.pakeStart phrase seed }

def pairwiseInfo (protocol : Bytes) (a b : ParticipantID) : Bytes :=
  let lo := if b < a then b else a
  let hi := if b < a then a else b
  protocol ++ (ascii "/pairwise/" ++ formatNat lo.toNat ++ ascii "/" ++ formatNat hi.toNat)

def derivePairwise (protocol raw : Bytes) (sid : SessionID) (a b : ParticipantID) : Key :=
  prim.hkdf raw sid.toList (pairwiseInfo protocol a b)

def Joiner.finish (j : Joiner) (flight2 : Bytes) (sid : SessionID)
    (joinerID hostID : ParticipantID) : Option Key :=
  (prim.pakeFinish j.phrase j.seed flight2).map (fun raw =>
    derivePairwise prim j.protocol raw sid joinerID hostID)

/-- The host's whole handshake: the pairwise key and the reply flight. -/
def hostExchange (protocol phrase seed flight1 : Bytes) (sid : SessionID)
    (joinerID hostID : ParticipantID) : Option (Key × Bytes) :=
  (prim.pakeReply phrase seed flight1).map (fun reply =>
    (derivePairwise prim protocol reply.1 sid joinerID hostID, reply.2))

structure GroupKey where
  nonce : Nonce
  ciphertext : prim.Box Bytes

def bigEndian32 (value : UInt32) : Bytes :=
  [UInt8.ofNat (value.toNat / 2 ^ 24), UInt8.ofNat (value.toNat / 2 ^ 16),
    UInt8.ofNat (value.toNat / 2 ^ 8), UInt8.ofNat value.toNat]

/-- Session, protocol version and one participant; the recipient of a wrapped
key, the sender of a frame. -/
def associatedData (sid : SessionID) (id : ParticipantID) : Bytes :=
  sid.toList ++ Wire.version :: bigEndian32 id

def wrapAD (sid : SessionID) (joinerID : ParticipantID) : Bytes :=
  associatedData sid joinerID

def keyOfBytes (bytes : Bytes) : Key :=
  Vector.ofFn (fun index => bytes.getD index.val 0)

def wrapGroupKey (pairwise groupKey : Key) (role : UInt8) (sid : SessionID)
    (joinerID : ParticipantID) (nonce : Nonce) : GroupKey prim :=
  { nonce := nonce
    ciphertext := prim.aeadSeal pairwise nonce (wrapAD sid joinerID) (groupKey.toList ++ [role]) }

def unwrapGroupKey (pairwise : Key) (gk : GroupKey prim) (sid : SessionID)
    (joinerID : ParticipantID) : Option (Key × UInt8) :=
  (prim.aeadOpen pairwise gk.nonce (wrapAD sid joinerID) gk.ciphertext).bind (fun plaintext =>
    if plaintext.length ≠ keySize + 1 then none
    else some (keyOfBytes plaintext, plaintext.getD keySize 0))

structure SealedFrame (α : Type) where
  nonce : Nonce
  ciphertext : prim.Box α

def frameAD (sid : SessionID) (sender : ParticipantID) : Bytes :=
  associatedData sid sender

/-- `Seal` of the source. -/
def sealFrame {α : Type} (groupKey : Key) (plaintext : α) (sid : SessionID) (sender : ParticipantID)
    (nonce : Nonce) : SealedFrame prim α :=
  { nonce := nonce
    ciphertext := prim.aeadSeal groupKey nonce (frameAD sid sender) plaintext }

/-- `Open` of the source. -/
def openSealed {α : Type} (groupKey : Key) (sf : SealedFrame prim α) (sid : SessionID)
    (sender : ParticipantID) : Option α :=
  prim.aeadOpen groupKey sf.nonce (frameAD sid sender) sf.ciphertext

theorem keyOfBytes_toList_append (key : Key) (role : UInt8) :
    keyOfBytes (key.toList ++ [role]) = key := by
  ext index bound
  have inside : index < key.toList.length := by
    rw [Vector.length_toList]
    exact bound
  rw [keyOfBytes, Vector.getElem_ofFn, List.getD_eq_getElem?_getD,
    List.getElem?_append_left inside, List.getElem?_eq_getElem inside, Option.getD_some,
    Vector.getElem_toList]

theorem getD_toList_append (key : Key) (role : UInt8) :
    (key.toList ++ [role]).getD keySize 0 = role := by
  have after : key.toList.length ≤ keySize := by rw [Vector.length_toList]
  rw [List.getD_eq_getElem?_getD, List.getElem?_append_right after, Vector.length_toList]
  simp

theorem unwrapGroupKey_wrapGroupKey {prim : Primitives} (ideal : prim.Ideal)
    (pairwise other groupKey : Key) (role : UInt8) (sid : SessionID) (id : ParticipantID)
    (nonce : Nonce) :
    unwrapGroupKey prim other (wrapGroupKey prim pairwise groupKey role sid id nonce) sid id =
      if other = pairwise then some (groupKey, role) else none := by
  unfold unwrapGroupKey wrapGroupKey
  simp only [ideal.open_seal, and_true]
  by_cases same : other = pairwise
  · have size : (groupKey.toList ++ [role]).length = keySize + 1 := by
      rw [List.length_append, Vector.length_toList]
      rfl
    rw [if_pos same, if_pos same, Option.bind_some, if_neg (fun differs => differs size),
      keyOfBytes_toList_append, getD_toList_append]
  · rw [if_neg same, if_neg same, Option.bind_none]

theorem openSealed_sealFrame {prim : Primitives} (ideal : prim.Ideal) {α : Type} (key other : Key)
    (plaintext : α) (sid : SessionID) (sender : ParticipantID) (nonce : Nonce) :
    openSealed prim other (sealFrame prim key plaintext sid sender nonce) sid sender =
      if other = key then some plaintext else none := by
  unfold openSealed sealFrame
  simp only [ideal.open_seal, and_true]

theorem associatedData_inj {sid other : SessionID} {id stamped : ParticipantID}
    (same : associatedData sid id = associatedData other stamped) : sid = other ∧ id = stamped := by
  obtain ⟨sids, rest⟩ := List.append_inj same (by rw [Vector.length_toList, Vector.length_toList])
  have ids : Wire.idBytes id ++ [] = Wire.idBytes stamped ++ [] := by
    rw [List.append_nil, List.append_nil]
    exact List.tail_eq_of_cons_eq rest
  have taken := congrArg Wire.takeID ids
  rw [Wire.takeID_idBytes, Wire.takeID_idBytes] at taken
  exact ⟨Vector.toList_inj.mp sids, congrArg Prod.fst (Option.some.inj taken)⟩

theorem hostExchange_agrees {prim : Primitives} (ideal : prim.Ideal)
    (protocol phrase seed replySeed : Bytes) (sid : SessionID) (joinerID hostID : ParticipantID) :
    ∃ pairwise flight2,
      hostExchange prim protocol phrase replySeed (newJoiner prim protocol phrase seed).flight1
          sid joinerID hostID = some (pairwise, flight2) ∧
        (newJoiner prim protocol phrase seed).finish prim flight2 sid joinerID hostID =
          some pairwise := by
  obtain ⟨shared, reply, replied, finished⟩ := ideal.pake_agrees phrase seed replySeed
  refine ⟨derivePairwise prim protocol shared sid joinerID hostID, reply, ?_, ?_⟩
  · simp only [hostExchange, newJoiner, replied, Option.map_some]
  · simp only [Joiner.finish, newJoiner, finished, Option.map_some]

/-- Boxes that remember how they were sealed, and an exchange whose secret is
the phrase and the two seeds. -/
def symbolic : Primitives where
  Box α := Key × Bytes × α
  aeadSeal key _ ad plain := (key, ad, plain)
  aeadOpen key _ ad box := if key = box.1 ∧ ad = box.2.1 then some box.2.2 else none
  pakeStart _ seed := seed
  pakeReply secret seed flight := some (secret ++ flight ++ seed, seed)
  pakeFinish secret seed reply := some (secret ++ seed ++ reply)
  hkdf raw salt info := keyOfBytes (raw ++ salt ++ info)

theorem symbolic_ideal : symbolic.Ideal where
  open_seal _ _ _ _ _ _ := rfl
  pake_agrees secret seed replySeed :=
    ⟨secret ++ seed ++ replySeed, replySeed, rfl, rfl⟩

def sampleKey (value : UInt8) : Key := Vector.replicate keySize value

def sampleNonce : Nonce := Vector.replicate 24 0

end Parley.Crypto
