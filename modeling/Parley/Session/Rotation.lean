/-
A session with one fixed host.

Any number of members join and leave; the host never does.  Every end runs the
endpoint model, and the ends are joined by a relayed network.  Each receiver
takes the messages of one sender in the order they were sent, but those of
different senders in any order, so that the relay's own order is one of the
possible ones.  Two histories are kept: the ids that were ever given out, and
for each end the group keys it has had.
-/

import Parley.Library.Network
import Parley.Library.Run
import Parley.Session.Endpoint

namespace Parley.Session

open Crypto Library
open Wire (Bytes ParticipantID SessionID)

variable (prim : Primitives) (β : Type)

structure World where
  host : ParticipantID
  sid : SessionID
  net : Network ParticipantID (Sent prim β) (Received prim β)
  ends : ParticipantID → Endpoint prim β
  used : List ParticipantID
  installed : ParticipantID → List Key

inductive WorldAction where
  /-- The relay accepts a joiner under a new id. -/
  | join (id : ParticipantID) (proto phraseC : Bytes) (policy : RolePolicy) (observer : Bool)
      (seed : Bytes)
  | leave (id : ParticipantID)
  /-- The relay takes the next frame a participant wrote. -/
  | route (sender : ParticipantID)
  /-- A read goroutine takes the next frame of one sender. -/
  | deliver (receiver sender : ParticipantID) (seed : Bytes)
  /-- Any other step of a participant's goroutines. -/
  | act (id : ParticipantID) (action : Action prim β)

variable {prim β}

/-- What a written frame is to a receiver; the relay stamps the sender. -/
def carry (sender : ParticipantID) (sent : Sent prim β) (receiver : ParticipantID) :
    Option (Received prim β) :=
  match sent with
  | .direct toID payload => if toID = receiver then some (.direct sender payload) else none
  | .broadcast payload => if receiver = sender then none else some (.broadcast sender payload)
  | .claimHost => none

namespace World

abbrev stream (w : World prim β) (sender receiver : ParticipantID) : List (Received prim β) :=
  w.net.stream carry sender receiver

def start (proto phraseC : Bytes) (sid : SessionID) (policy : RolePolicy) (observer : Bool)
    (host : ParticipantID) (key : Key) : World prim β :=
  { host := host
    sid := sid
    net := Network.single host
    ends := fun _ => Endpoint.hosting (dial proto sid phraseC policy observer) host key
    used := [host]
    installed := fun id => if id = host then [key] else [] }

/-- One end changes its state, writes frames and takes new keys into use. -/
def settle (w : World prim β) (id : ParticipantID) (endpoint : Endpoint prim β)
    (outputs : List (Output prim β)) (keys : List Key) : World prim β :=
  { w with
    net := w.net.post id (outputs.filterMap Output.written)
    ends := Function.update w.ends id endpoint
    installed := Function.update w.installed id (w.installed id ++ keys) }

def keysOf (e : Endpoint prim β) : Action prim β → List Key
  | .advance _ => e.reader.installs
  | _ => []

def step (w : World prim β) : WorldAction prim β → Option (World prim β)
  | .join id proto phraseC policy observer seed =>
      if id ∈ w.used then none
      else
        some
          { w with
            net := w.net.join id (.participantJoined id)
            ends := Function.update w.ends id
              (Endpoint.joiningAs prim (dial proto w.sid phraseC policy observer) id w.host seed)
            used := w.used ++ [id] }
  | .leave id =>
      if id ∈ w.net.members ∧ id ≠ w.host then
        (w.net.leave id (.participantLeft id)).map (fun net => { w with net := net })
      else none
  | .route sender => (w.net.route carry sender).map (fun net => { w with net := net })
  | .deliver receiver sender seed =>
      if receiver ∈ w.net.members then do
        let (frame, net) ← w.net.take receiver sender
        let (next, outputs) ← (w.ends receiver).receive frame seed
        some (settle { w with net := net } receiver next outputs
          (firstKey (w.ends receiver) next))
      else none
  | .act id action =>
      match action with
      | .receive _ _ => none
      | _ =>
          if id ∈ w.net.members then do
            let (next, outputs) ← (w.ends id).step action
            some (w.settle id next outputs (keysOf (w.ends id) action))
          else none

def Dependable (_ : World prim β) : WorldAction prim β → Prop
  | .act _ (.advance outcome) => outcome.nonce.isSome = true ∧ outcome.written = true
  | _ => True

def HubOrdered (w : World prim β) : WorldAction prim β → Prop
  | .deliver receiver sender _ => w.net.oldest receiver = some sender
  | _ => True

instance (w : World prim β) (action : WorldAction prim β) : Decidable (w.Dependable action) := by
  dsimp only [Dependable]
  split <;> infer_instance

instance (w : World prim β) (action : WorldAction prim β) : Decidable (w.HubOrdered action) := by
  dsimp only [HubOrdered]
  split <;> infer_instance

def keys (w : World prim β) : List Key :=
  match (w.ends w.host).reader with
  | .distributing newKey _ => w.installed w.host ++ [newKey]
  | _ => w.installed w.host

end World

end Parley.Session
