/-
A whole session: ends with their muxes over one relay.

Participants join and leave at any time, the host included.  The relay points a
joiner at the last participant that claimed to be the host.  As in the session
with a fixed host, a receiver takes the messages of one sender in order and those
of different senders in any order; the hub's own order is one of these.
-/

import Parley.Library.Run
import Parley.Service.Node
import Parley.Session.Rotation

namespace Parley.Service

open Crypto Library Session
open Wire (Bytes ParticipantID SessionID)

variable (prim : Primitives)

structure World where
  sid : SessionID
  /-- The policy every end runs. -/
  successor : SuccessorPolicy
  net : Network ParticipantID (Sent prim Body) (Received prim Body)
  /-- The hub's host field. -/
  hubHost : ParticipantID
  nodes : ParticipantID → Node prim
  used : List ParticipantID

inductive WorldAction where
  | join (id : ParticipantID) (proto phraseC : Bytes) (policy : RolePolicy) (observer : Bool)
      (seed : Bytes)
  | leave (id : ParticipantID)
  | route (sender : ParticipantID)
  | deliver (receiver sender : ParticipantID) (seed : Bytes)
  | act (id : ParticipantID) (action : NodeAction)

variable {prim}

namespace World

abbrev stream (w : World prim) (sender receiver : ParticipantID) : List (Received prim Body) :=
  w.net.stream carry sender receiver

def start (proto phraseC : Bytes) (sid : SessionID) (policy : RolePolicy) (observer : Bool)
    (successor : SuccessorPolicy) (host : ParticipantID) (key : Key) : World prim :=
  { sid := sid
    successor := successor
    net := Network.single host
    hubHost := host
    nodes := fun _ => Node.fresh
      (Endpoint.hosting (dial proto sid phraseC policy observer) host key) successor
    used := [host] }

def settle (w : World prim) (id : ParticipantID) (node : Node prim)
    (posts : List (Sent prim Body)) : World prim :=
  { w with
    net := w.net.post id posts
    nodes := Function.update w.nodes id node }

/-- `handleClaimHost` when the relay comes to a claim; the sender is connected
when its frame is routed. -/
def claimed (w : World prim) (sender : ParticipantID) : ParticipantID :=
  match w.net.outbox sender with
  | .claimHost :: _ => if sender ∈ w.net.members then sender else w.hubHost
  | _ => w.hubHost

def step (w : World prim) : WorldAction → Option (World prim)
  | .join id proto phraseC policy observer seed =>
      -- ids count up from 1
      if id ∈ w.used ∨ id = 0 then none
      else
        some
          { w with
            net := w.net.join id (.participantJoined id)
            nodes := Function.update w.nodes id (Node.fresh
              (Endpoint.joiningAs prim (dial proto w.sid phraseC policy observer) id w.hubHost seed)
              w.successor)
            used := w.used ++ [id] }
  | .leave id =>
      if id ∈ w.net.members then
        (w.net.leave id (.participantLeft id)).map (fun net => { w with net := net })
      else none
  | .route sender =>
      (w.net.route carry sender).map (fun net =>
        { w with
          net := net
          hubHost := w.claimed sender })
  | .deliver receiver sender seed =>
      if receiver ∈ w.net.members then do
        let (frame, net) ← w.net.take receiver sender
        let node ← (w.nodes receiver).receive frame seed
        some (settle { w with net := net } receiver node [])
      else none
  | .act id action =>
      if id ∈ w.net.members then do
        let (node, posts) ← (w.nodes id).step action
        some (w.settle id node posts)
      else none

/-- Nothing fails that an end does for the protocol: fresh keys and nonces are
there, and writes succeed. -/
def Dependable (_ : World prim) : WorldAction → Prop
  | .act _ (.advance outcome) =>
      outcome.key.isSome = true ∧ outcome.nonce.isSome = true ∧ outcome.written = true
  | .act _ (.task outcome) =>
      outcome.key.isSome = true ∧ outcome.nonce.isSome = true ∧ outcome.written = true
  | _ => True

instance (w : World prim) (action : WorldAction) : Decidable (w.Dependable action) := by
  dsimp only [Dependable]
  split <;> infer_instance

def HubOrdered (w : World prim) : WorldAction → Prop
  | .deliver receiver sender _ => w.net.oldest receiver = some sender
  | _ => True

instance (w : World prim) (action : WorldAction) : Decidable (w.HubOrdered action) := by
  dsimp only [HubOrdered]
  split <;> infer_instance

variable {w next : World prim} {sender id receiver : ParticipantID} {seed : Bytes}

theorem deliver_cases (stepped : w.step (.deliver receiver sender seed) = some next) :
    receiver ∈ w.net.members ∧ ∃ frame net endpoint outputs,
      w.net.take receiver sender = some (frame, net) ∧
      (w.nodes receiver).endpoint.receive frame seed = some (endpoint, outputs) ∧
      next = settle { w with net := net } receiver ((w.nodes receiver).settle endpoint outputs)
        [] := by
  simp only [step] at stepped
  split at stepped
  · rename_i member
    obtain ⟨⟨frame, net⟩, taken, stepped⟩ := Option.bind_eq_some_iff.mp stepped
    obtain ⟨node, received, same⟩ := Option.bind_eq_some_iff.mp stepped
    obtain ⟨⟨endpoint, outputs⟩, endpointReceived, rfl⟩ := Option.map_eq_some_iff.mp received
    exact ⟨member, frame, net, endpoint, outputs, taken, endpointReceived,
      (Option.some.inj same).symm⟩
  · cases stepped

theorem act_cases {action : NodeAction} (stepped : w.step (.act id action) = some next) :
    id ∈ w.net.members ∧ ∃ node posts, (w.nodes id).step action = some (node, posts) ∧
      next = w.settle id node posts := by
  simp only [step] at stepped
  split at stepped
  · rename_i member
    obtain ⟨⟨node, posts⟩, acted, same⟩ := Option.bind_eq_some_iff.mp stepped
    exact ⟨member, node, posts, acted, (Option.some.inj same).symm⟩
  · cases stepped

theorem join_cases {proto phraseC : Bytes} {policy : RolePolicy} {observer : Bool}
    (stepped : w.step (.join id proto phraseC policy observer seed) = some next) :
    id ∉ w.used ∧ id ≠ 0 ∧ next =
      { w with
        net := w.net.join id (.participantJoined id)
        nodes := Function.update w.nodes id (Node.fresh
          (Endpoint.joiningAs prim (dial proto w.sid phraseC policy observer) id w.hubHost seed)
          w.successor)
        used := w.used ++ [id] } := by
  simp only [step] at stepped
  split at stepped
  · cases stepped
  · rename_i new
    exact ⟨fun known => new (Or.inl known), fun zero => new (Or.inr zero),
      (Option.some.inj stepped).symm⟩

theorem leave_cases (stepped : w.step (.leave id) = some next) :
    id ∈ w.net.members ∧ ∃ net, w.net.leave id (.participantLeft id) = some net ∧
      next = { w with net := net } := by
  simp only [step] at stepped
  split at stepped
  · rename_i member
    obtain ⟨net, left, same⟩ := Option.map_eq_some_iff.mp stepped
    exact ⟨member, net, left, same.symm⟩
  · cases stepped

theorem route_cases (stepped : w.step (.route sender) = some next) :
    ∃ net, w.net.route carry sender = some net ∧
      next =
        { w with
          net := net
          hubHost := w.claimed sender } := by
  obtain ⟨net, routed, same⟩ := Option.map_eq_some_iff.mp stepped
  exact ⟨net, routed, same.symm⟩

structure Acted (w next : World prim) (x : ParticipantID) (node : Node prim)
    (posts : List (Sent prim Body)) : Prop where
  node : next.nodes x = node
  others : ∀ y, y ≠ x → next.nodes y = w.nodes y
  net : next.net = w.net.post x posts
  used : next.used = w.used
  sid : next.sid = w.sid
  streamSelf : ∀ y, next.stream x y =
    w.stream x y ++ posts.filterMap (fun posted => carry x posted y)
  streamOther : ∀ j, j ≠ x → ∀ y, next.stream j y = w.stream j y

theorem acted_of_settle {x : ParticipantID} {node : Node prim}
    {posts : List (Sent prim Body)} : w.Acted (w.settle x node posts) x node posts :=
  { node := by simp only [settle, Function.update_self]
    others := fun _ differ => by simp only [settle, Function.update_of_ne differ]
    net := rfl
    used := rfl
    sid := rfl
    streamSelf := fun y => Network.stream_post_self w.net x y posts
    streamOther := fun _ differ y => Network.stream_post_of_ne w.net differ y posts }

structure Took (w next : World prim) (receiver sender : ParticipantID)
    (frame : Received prim Body) (E : Endpoint prim Body) (outputs : List (Output prim Body)) :
    Prop where
  node : next.nodes receiver = (w.nodes receiver).settle E outputs
  others : ∀ y, y ≠ receiver → next.nodes y = w.nodes y
  used : next.used = w.used
  sid : next.sid = w.sid
  members : next.net.members = w.net.members
  inbox : w.net.oldest receiver = some sender →
    w.net.inbox receiver = (sender, frame) :: next.net.inbox receiver
  stream : w.stream sender receiver = frame :: next.stream sender receiver
  streamOther : ∀ p y, y ≠ receiver ∨ p ≠ sender → next.stream p y = w.stream p y
  filed : ∀ {postOk msgOk}, w.net.Filed w.used postOk msgOk → next.net.Filed w.used postOk msgOk

theorem took_of_deliver (stepped : w.step (.deliver receiver sender seed) = some next) :
    receiver ∈ w.net.members ∧ ∃ frame E outputs,
      (w.nodes receiver).endpoint.receive frame seed = some (E, outputs) ∧
        w.Took next receiver sender frame E outputs := by
  obtain ⟨member, frame, net, E, outputs, taken, received, rfl⟩ := deliver_cases stepped
  refine ⟨member, frame, E, outputs, received, ?_⟩
  have sameMembers : net.members = w.net.members := Network.members_take taken
  have inbox := fun oldest => Network.inbox_of_take_oldest taken oldest
  have streams : ∀ p y, (settle { w with net := net } receiver
      ((w.nodes receiver).settle E outputs) []).stream p y = net.stream carry p y := by
    intro p y
    by_cases here : p = receiver
    · subst here
      refine (Network.stream_post_self net p y []).trans ?_
      rw [List.filterMap_nil, List.append_nil]
    · exact Network.stream_post_of_ne net here y []
  exact
    { node := by simp only [settle, Function.update_self]
      others := fun _ differ => by simp only [settle, Function.update_of_ne differ]
      used := rfl
      sid := rfl
      members := sameMembers
      inbox := inbox
      stream := by rw [streams]; exact Network.stream_take taken
      streamOther := fun p y differ => by
        rw [streams]
        exact Network.stream_take_of_ne taken differ
      filed := fun filed => (filed.take taken).post (sameMembers.symm ▸ member)
        (fun post absent => by cases absent) }

end World

/-- A task outcome in which everything succeeds and the offered key is `value`. -/
def taskDone (value : UInt8) : TaskOutcome :=
  { key := some (sampleKey value)
    nonce := some sampleNonce
    seed := []
    written := true }

def sampleWorld : World symbolic :=
  World.start [] [] (Vector.replicate 16 0) defaultRolePolicy false defaultSuccessorPolicy 1
    (sampleKey 0)

/-- A participant joins, the handshake with host 1 runs to its end, and the new
end's mux asks for a snapshot. -/
def joinOf (id : ParticipantID) : List WorldAction :=
  [.join id [] [] defaultRolePolicy false [], .act id (.advance (success 0)), .route id,
    .deliver 1 id [], .deliver 1 id [], .act 1 (.advance (success 0)),
    .act 1 (.advance (success 0)), .act 1 (.advance (success 0)), .act 1 (.advance (success 0)),
    .route 1, .route 1, .deliver id 1 [], .deliver id 1 [], .act id .start,
    .act id (.task (taskDone 0)), .act id (.task (taskDone 0)), .route id, .deliver 1 id []]

/-- The host's mux hears of the joiner, announces it and answers its request. -/
def hostAnswers : List WorldAction :=
  [.act 1 .event, .act 1 .event, .act 1 (.task (taskDone 0)), .act 1 (.task (taskDone 0)),
    .act 1 .event, .act 1 (.task (taskDone 0)), .act 1 (.task (taskDone 0)), .route 1, .route 1]

end Parley.Service
