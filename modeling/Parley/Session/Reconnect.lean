/-
Connections that drop and are resumed.

A session with one fixed host, with the two parts of the pipe from the hub to a
participant told apart: the slot's out channel, and what the connection's writer
has put on the wire.  A connection may be lost at any time.  The hub notices it
and holds the slot, which gets a fresh out channel, or a resume finds the slot
still live and supersedes it; in both cases the frames of the old channel are not
seen.  A resume of a held slot passes on what was buffered, as far as the channel
has room.
-/

import Parley.Relay.Hub
import Parley.Session.HeldKeys

namespace Parley.Session

open Crypto Library
open Wire (Bytes ParticipantID SessionID)

variable {prim : Primitives} {β : Type}

def resumedQueue {Frame : Type} (held : Bool) (out : List Frame) : List Frame :=
  if held then out.take (Relay.sendBuffer - 1) else []

theorem resumedQueue_append {Frame : Type} (held : Bool) (out : List Frame) :
    resumedQueue held out ++ (if held then out.drop (Relay.sendBuffer - 1) else out) = out := by
  cases held with
  | false => rfl
  | true => exact List.take_append_drop _ _

theorem handleResume_queue {codec : Wire.Codec} {order : Relay.Order} {h : Relay.Hub}
    {id : ParticipantID} {token frame : Bytes} {conn : Relay.ConnID} {c : Relay.Client}
    (found : h.clients.lookup id = some c) (authentic : c.token = token)
    (encoded : Wire.encode codec (Relay.helloReply h (order.visit 0) false id c.token) =
      some frame) :
    ((Relay.handleResume codec order h id token conn).1.clients.lookup id).map Relay.Client.out =
      some (frame :: resumedQueue c.held c.out) := by
  unfold Relay.handleResume
  simp only [found, authentic, ne_eq, not_true_eq_false, if_false]
  rw [authentic] at encoded
  simp only [encoded, AList.lookup_insert, Option.map_some, Relay.refill, resumedQueue]
  cases c.held <;> rfl

theorem holdSlot_queue (h : Relay.Hub) (id : ParticipantID) (c : Relay.Client) :
    ((Relay.holdSlot h id c).clients.lookup id).map Relay.Client.out = some [] := by
  simp only [Relay.holdSlot, AList.lookup_insert, Option.map_some]

/-- A participant's connection as the two sides see it. -/
structure Link where
  /-- The client's read loop has not ended. -/
  up : Bool
  /-- The hub holds the slot. -/
  held : Bool
  /-- How many frames of the inbox are on the wire; the rest is the slot's out
  channel. -/
  wired : Nat
  deriving DecidableEq, Repr

def Link.fresh : Link :=
  { up := true
    held := false
    wired := 0 }

section

variable (prim β)

structure Relayed where
  world : World prim β
  links : ParticipantID → Link

inductive RelayedAction where
  /-- A step of the session that no connection stands in the way of. -/
  | session (action : WorldAction prim β)
  /-- The connection's writer takes the next frame of the out channel. -/
  | transmit (id : ParticipantID)
  /-- The read loop takes the next frame of its connection. -/
  | read (id : ParticipantID) (seed : Bytes)
  /-- The client loses its connection. -/
  | drop (id : ParticipantID)
  /-- The hub notices that the connection has ended. -/
  | hold (id : ParticipantID)
  /-- `Reconnect` succeeds; of a connection that the hub believed live, the hub
  may still take `late` frames. -/
  | resume (id : ParticipantID) (late : Nat)

end

namespace World

def reboxed (w : World prim β) (id : ParticipantID)
    (inbox : List (ParticipantID × Received prim β)) (outbox : List (Sent prim β)) :
    World prim β :=
  { w with
    net := { w.net with
      inbox := Function.update w.net.inbox id inbox
      outbox := Function.update w.net.outbox id outbox } }

end World

namespace Relayed

def start (proto phraseC : Bytes) (sid : SessionID) (policy : RolePolicy) (observer : Bool)
    (host : ParticipantID) (key : Key) : Relayed prim β :=
  { world := World.start proto phraseC sid policy observer host key
    links := fun _ => Link.fresh }

def relink (s : Relayed prim β) (id : ParticipantID) (link : Link) (world : World prim β) :
    Relayed prim β :=
  { world := world
    links := Function.update s.links id link }

/-- Whose connection may drop: a member that `Join` has returned a client to. -/
def Resumable (s : Relayed prim β) (id : ParticipantID) : Prop :=
  id ∈ s.world.net.members ∧ id ≠ s.world.host ∧ (s.world.ends id).client.keyed = true

instance (s : Relayed prim β) (id : ParticipantID) : Decidable (s.Resumable id) :=
  inferInstanceAs (Decidable (_ ∧ _ ∧ _))

def step (s : Relayed prim β) : RelayedAction prim β → Option (Relayed prim β)
  | .session action =>
      match action with
      | .deliver _ _ _ => none
      | .route sender =>
          -- the hub reads nothing from a connection it knows to have ended
          if (s.links sender).held then none
          else (s.world.step (.route sender)).map (fun world => { s with world := world })
      | .join id proto phraseC policy observer seed =>
          (s.world.step (.join id proto phraseC policy observer seed)).map
            (s.relink id Link.fresh)
      | .leave id => (s.world.step (.leave id)).map (fun world => { s with world := world })
      | .act id action =>
          (s.world.step (.act id action)).map (fun world => { s with world := world })
  | .transmit id =>
      let link := s.links id
      if link.up ∧ link.held = false ∧ link.wired < (s.world.net.inbox id).length then
        some (s.relink id { link with wired := link.wired + 1 } s.world)
      else none
  | .read id seed =>
      let link := s.links id
      if link.up ∧ 0 < link.wired then
        (s.world.net.oldest id).bind (fun sender =>
          (s.world.step (.deliver id sender seed)).map
            (s.relink id { link with wired := link.wired - 1 }))
      else none
  | .drop id =>
      let link := s.links id
      if s.Resumable id ∧ link.up then
        some (s.relink id { link with up := false, wired := 0 }
          (s.world.reboxed id ((s.world.net.inbox id).drop link.wired) (s.world.net.outbox id)))
      else none
  | .hold id =>
      let link := s.links id
      if s.Resumable id ∧ link.held = false then
        some (s.relink id { link with held := true }
          (s.world.reboxed id ((s.world.net.inbox id).take link.wired) []))
      else none
  | .resume id late =>
      let link := s.links id
      -- the previous read loop has ended
      if s.Resumable id ∧ link.up = false ∧ (s.world.ends id).reader.isIdle then
        some (s.relink id Link.fresh
          (s.world.reboxed id (resumedQueue link.held (s.world.net.inbox id))
            (if link.held then [] else (s.world.net.outbox id).take late)))
      else none

def lost (s : Relayed prim β) : RelayedAction prim β → List (ParticipantID × Received prim β)
  | .drop id => (s.world.net.inbox id).take (s.links id).wired
  | .hold id => (s.world.net.inbox id).drop (s.links id).wired
  | .resume id _ =>
      if (s.links id).held then (s.world.net.inbox id).drop (Relay.sendBuffer - 1)
      else s.world.net.inbox id
  | _ => []

end Relayed

def Reader.isDistributing : Reader prim → Bool
  | .distributing _ _ => true
  | _ => false

def Received.isRekey : Received prim β → Bool
  | .direct _ (.rekey _) => true
  | _ => false

namespace Relayed

def Dependable (s : Relayed prim β) : RelayedAction prim β → Prop
  | .session action => s.world.Dependable action
  | _ => True

instance (s : Relayed prim β) (action : RelayedAction prim β) : Decidable (s.Dependable action) := by
  dsimp only [Dependable]
  split <;> infer_instance

def KeepsRekeys (s : Relayed prim β) (action : RelayedAction prim β) : Prop :=
  ∀ entry ∈ s.lost action, entry.2.isRekey = false

instance (s : Relayed prim β) (action : RelayedAction prim β) :
    Decidable (s.KeepsRekeys action) :=
  inferInstanceAs (Decidable (∀ entry ∈ s.lost action, entry.2.isRekey = false))

end Relayed

variable {inbox : List (ParticipantID × Received prim β)} {host : ParticipantID} {sid : SessionID}
  {held : List Key} {pairwise : Key}

theorem Reads.of_not_rekey {id : ParticipantID} {frame : Received prim β} {next : Option (List Key)}
    (read : Reads sid host id pairwise (some held) frame next) (other : frame.isRekey = false) :
    next = some held := by
  cases read with
  | next _ key nonce => cases other
  | sealed _ key sf carries made known => rfl

theorem path_lose {id : ParticipantID} {final : Option (List Key)}
    {before lost after : List (Received prim β)}
    (path : Path (Reads sid host id pairwise) (some held) (before ++ (lost ++ after)) final)
    (noRekey : ∀ frame ∈ lost, frame.isRekey = false) :
    Path (Reads sid host id pairwise) (some held) (before ++ after) final := by
  induction before generalizing held with
  | nil =>
      induction lost with
      | nil => exact path
      | cons frame rest ih =>
          obtain ⟨next, read, tail⟩ := path
          rw [read.of_not_rekey (noRekey frame List.mem_cons_self)] at tail
          exact ih (fun later member => noRekey later (List.mem_cons_of_mem frame member)) tail
  | cons frame rest ih =>
      obtain ⟨next, read, tail⟩ := path
      obtain ⟨held', same⟩ := Option.isSome_iff_exists.mp (read.isSome rfl)
      rw [same] at read tail
      exact ⟨some held', read, ih tail⟩

theorem Follows.lose {id : ParticipantID} {H E : Endpoint prim β} {minted installed : List Key}
    {before lost after up up' : List (Received prim β)}
    (follows : Follows sid host H minted id E installed (before ++ (lost ++ after)) up)
    (keyed : E.client.keyed = true) (noRekey : ∀ frame ∈ lost, frame.isRekey = false)
    (fewer : up'.Sublist up) :
    Follows sid host H minted id E installed (before ++ after) up' := by
  refine
    { follows with
      token := ?_
      link := follows.link.imp_right (fun ⟨older, path⟩ => ⟨older, ?_⟩) }
  · have flights := fewer.countP_le (p := Received.isFlight)
    have token := follows.token
    unfold tokens at token ⊢
    omega
  · unfold memberState at path ⊢
    rw [if_pos keyed] at path ⊢
    exact path_lose path noRekey

namespace World

variable {w : World prim β} {id : ParticipantID}
  {before lost after : List (ParticipantID × Received prim β)} {outbox : List (Sent prim β)}

theorem NetSane.reboxed (net : NetSane w.sid w.host w.used w.net) (member : id ∈ w.net.members)
    (notHost : id ≠ w.host) (fewer : inbox.Sublist (w.net.inbox id))
    (fewerPosts : outbox.Sublist (w.net.outbox id)) :
    NetSane w.sid w.host w.used (w.reboxed id inbox outbox).net := by
  have entry : ∀ {receiver entry}, entry ∈ (w.reboxed id inbox outbox).net.inbox receiver →
      entry ∈ w.net.inbox receiver := by
    intro receiver entry present
    by_cases here : receiver = id
    · subst here
      simp only [World.reboxed, Function.update_self] at present
      exact fewer.subset present
    · simpa only [World.reboxed, Function.update_of_ne here] using present
  have post : ∀ {sender sent}, sent ∈ (w.reboxed id inbox outbox).net.outbox sender →
      sent ∈ w.net.outbox sender := by
    intro sender sent present
    by_cases here : sender = id
    · subst here
      simp only [World.reboxed, Function.update_self] at present
      exact fewerPosts.subset present
    · simpa only [World.reboxed, Function.update_of_ne here] using present
  exact
    { net with
      fresh := fun other unused => by
        have differ : other ≠ id := fun same => unused (same ▸ net.known id member)
        simp only [World.reboxed, Function.update_of_ne differ]
        exact net.fresh other unused
      posts := fun sender sent present => net.posts sender sent (post present)
      senders := fun receiver found present => net.senders receiver found (entry present)
      entries := fun receiver found present => net.entries receiver found (entry present)
      toSelf := fun found present => net.toSelf found (entry present)
      departed := fun receiver found present => net.departed receiver found (entry present) }

theorem stream_reboxed (boxed : w.net.inbox id = before ++ (lost ++ after))
    (notHost : id ≠ w.host) :
    w.stream w.host id = Network.fromSender w.host before ++ (Network.fromSender w.host lost ++
        (Network.fromSender w.host after ++
          (w.net.outbox w.host).filterMap (fun posted => carry w.host posted id))) ∧
      (w.reboxed id (before ++ after) outbox).stream w.host id =
        Network.fromSender w.host before ++ (Network.fromSender w.host after ++
          (w.net.outbox w.host).filterMap (fun posted => carry w.host posted id)) := by
  constructor
  · simp only [World.stream, Network.stream, boxed, Network.fromSender_append, List.append_assoc]
  · simp only [World.stream, World.reboxed, Network.stream, Function.update_self,
      Function.update_of_ne (Ne.symm notHost), Network.fromSender_append, List.append_assoc]

theorem stream_up_reboxed (fewerPosts : outbox.Sublist (w.net.outbox id)) (notHost : id ≠ w.host) :
    ((w.reboxed id inbox outbox).stream id w.host).Sublist (w.stream id w.host) := by
  simp only [World.stream, World.reboxed, Network.stream, Function.update_self,
    Function.update_of_ne (Ne.symm notHost)]
  exact (List.Sublist.refl _).append (fewerPosts.filterMap _)

theorem stream_reboxed_of_ne {sender receiver : ParticipantID} (notSender : sender ≠ id)
    (notReceiver : receiver ≠ id) :
    (w.reboxed id inbox outbox).stream sender receiver = w.stream sender receiver := by
  simp only [World.stream, World.reboxed, Network.stream, Function.update_of_ne notSender,
    Function.update_of_ne notReceiver]

theorem Sane.reboxed (sane : w.Sane) (member : id ∈ w.net.members) (notHost : id ≠ w.host)
    (keyed : (w.ends id).client.keyed = true) (boxed : w.net.inbox id = before ++ (lost ++ after))
    (noRekey : ∀ entry ∈ lost, entry.2.isRekey = false)
    (fewerPosts : outbox.Sublist (w.net.outbox id)) :
    (w.reboxed id (before ++ after) outbox).Sane := by
  have fewer : (before ++ after).Sublist (w.net.inbox id) := by
    rw [boxed]
    exact (List.Sublist.refl before).append (List.sublist_append_right lost after)
  refine
    { sane with
      net := NetSane.reboxed sane.net member notHost fewer fewerPosts
      members := fun other otherMember otherNotHost => ?_ }
  have old := sane.members other otherMember otherNotHost
  refine
    { old with follows := ?_ }
  have follows := old.follows
  change Follows w.sid w.host w.hostEnd w.minted other (w.ends other) (w.installed other)
    ((w.reboxed id (before ++ after) outbox).stream w.host other)
    ((w.reboxed id (before ++ after) outbox).stream other w.host)
  by_cases here : other = id
  · subst here
    obtain ⟨downBefore, downAfter⟩ := @stream_reboxed prim β w other before lost after outbox boxed
      notHost
    have lostFrames : ∀ frame ∈ Network.fromSender w.host lost, frame.isRekey = false := by
      intro frame present
      obtain ⟨entry, isEntry, same⟩ := List.mem_filterMap.mp present
      obtain ⟨_, same⟩ := Option.ite_none_right_eq_some.mp same
      exact Option.some.inj same ▸ noRekey entry isEntry
    rw [downBefore] at follows
    rw [downAfter]
    exact follows.lose keyed lostFrames (stream_up_reboxed fewerPosts notHost)
  · rw [stream_reboxed_of_ne (Ne.symm notHost) here, stream_reboxed_of_ne here (Ne.symm notHost)]
    exact follows

end World

namespace Relayed

variable {s next : Relayed prim β}

def Sane (s : Relayed prim β) : Prop :=
  s.world.Sane

theorem Sane.steps (ideal : prim.Ideal) (sane : s.Sane) {action : RelayedAction prim β}
    (dependable : s.Dependable action) (noRekey : s.KeepsRekeys action)
    (stepped : s.step action = some next) : next.Sane := by
  have sane : s.world.Sane := sane
  cases action with
  | session inner =>
      have permitted : s.world.Dependable inner := dependable
      cases inner with
      | deliver _ _ _ => cases stepped
      | route sender =>
          obtain ⟨_, stepped⟩ := Option.ite_none_left_eq_some.mp stepped
          obtain ⟨world, inWorld, rfl⟩ := Option.map_eq_some_iff.mp stepped
          exact sane.steps ideal permitted inWorld
      | join id proto phraseC policy observer seed | leave id | act id action =>
          obtain ⟨world, inWorld, rfl⟩ := Option.map_eq_some_iff.mp stepped
          exact sane.steps ideal permitted inWorld
  | transmit id =>
      obtain ⟨_, ⟨⟩⟩ := Option.ite_none_right_eq_some.mp stepped
      exact sane
  | read id seed =>
      obtain ⟨_, stepped⟩ := Option.ite_none_right_eq_some.mp stepped
      obtain ⟨sender, _, stepped⟩ := Option.bind_eq_some_iff.mp stepped
      obtain ⟨world, inWorld, rfl⟩ := Option.map_eq_some_iff.mp stepped
      exact sane.steps ideal (show s.world.Dependable (.deliver id sender seed) from trivial) inWorld
  | drop id =>
      obtain ⟨⟨⟨member, notHost, keyed⟩, _⟩, ⟨⟩⟩ := Option.ite_none_right_eq_some.mp stepped
      have boxed : s.world.net.inbox id = [] ++ ((s.world.net.inbox id).take (s.links id).wired ++
          (s.world.net.inbox id).drop (s.links id).wired) :=
        (List.take_append_drop _ _).symm
      exact sane.reboxed member notHost keyed boxed noRekey (List.Sublist.refl _)
  | hold id =>
      obtain ⟨⟨⟨member, notHost, keyed⟩, _⟩, ⟨⟩⟩ := Option.ite_none_right_eq_some.mp stepped
      have boxed : s.world.net.inbox id = (s.world.net.inbox id).take (s.links id).wired ++
          ((s.world.net.inbox id).drop (s.links id).wired ++ []) := by
        rw [List.append_nil, List.take_append_drop]
      have after := sane.reboxed member notHost keyed boxed noRekey
        (List.nil_sublist (s.world.net.outbox id))
      rw [List.append_nil] at after
      exact after
  | resume id late =>
      obtain ⟨⟨⟨member, notHost, keyed⟩, _⟩, ⟨⟩⟩ := Option.ite_none_right_eq_some.mp stepped
      have fewerPosts : (if (s.links id).held then [] else
          (s.world.net.outbox id).take late).Sublist (s.world.net.outbox id) := by
        split
        · exact List.nil_sublist _
        · exact List.take_sublist late _
      have boxed : s.world.net.inbox id = resumedQueue (s.links id).held (s.world.net.inbox id) ++
          (s.lost (.resume id late) ++ []) := by
        rw [List.append_nil]
        exact (resumedQueue_append _ _).symm
      have after := sane.reboxed member notHost keyed boxed noRekey fewerPosts
      rw [List.append_nil] at after
      exact after

/-- Nothing is under way from the host to the member, and neither is in the
middle of a rotation. -/
def Settled (s : Relayed prim β) (id : ParticipantID) : Prop :=
  s.world.stream s.world.host id = [] ∧ (s.world.ends id).reader.installs = [] ∧
    s.world.hostEnd.reader.isDistributing = false

instance (s : Relayed prim β) (id : ParticipantID) : Decidable (s.Settled id) :=
  inferInstanceAs (Decidable (_ ∧ _ ∧ _))

end Relayed

/-- In every run in which no rekey is among the frames that connections and slots
lose, a member that has handled everything has the host's key. -/
theorem key_agreement_survives_reconnects (ideal : prim.Ideal) (proto phraseC : Bytes)
    (sid : SessionID) (policy : RolePolicy) (observer : Bool) (host : ParticipantID) (key : Key)
    (actions : List (RelayedAction prim β)) (s : Relayed prim β)
    (reached : run Relayed.step (Relayed.start proto phraseC sid policy observer host key)
      actions = some s)
    (dependable : Along Relayed.step Relayed.Dependable
      (Relayed.start proto phraseC sid policy observer host key) actions)
    (keepsRekeys : Along Relayed.step Relayed.KeepsRekeys
      (Relayed.start proto phraseC sid policy observer host key) actions)
    (id : ParticipantID) (resumable : s.Resumable id) (settled : s.Settled id) :
    (s.world.ends id).client.groupKey = s.world.hostEnd.client.groupKey := by
  have initial : (Relayed.start proto phraseC sid policy observer host key :
      Relayed prim β).Sane := World.start_sane proto phraseC sid policy observer host key
  have sane : s.Sane :=
    run_invariant
      (fun _ _ _ before permitted stepped => before.steps ideal permitted.1 permitted.2 stepped)
      initial (dependable.and keepsRekeys) reached
  obtain ⟨member, notHost, keyed⟩ := resumable
  obtain ⟨older, inOrder⟩ := World.Sane.inOrder ideal sane member notHost keyed
  obtain ⟨nothing, notInstalling, notDistributing⟩ := settled
  refine inOrder.settled nothing notInstalling (fun newKey outs there => ?_)
  rw [there] at notDistributing
  cases notDistributing

/-! ### A slot that is held around a rotation -/

def sampleRelayed : Relayed symbolic Unit :=
  Relayed.start [] [] (Vector.replicate 16 0) defaultRolePolicy false 1 (sampleKey 0)

def takes (id : ParticipantID) : List (RelayedAction symbolic Unit) :=
  [.transmit id, .read id []]

def advances (id : ParticipantID) (value : UInt8) : RelayedAction symbolic Unit :=
  .session (.act id (.advance (success value)))

def relayedJoin (id : ParticipantID) : List (RelayedAction symbolic Unit) :=
  [.session (.join id [] [] defaultRolePolicy false []), advances id 0, .session (.route id)] ++
    takes 1 ++ takes 1 ++
    [advances 1 0, advances 1 0, advances 1 0, advances 1 0, .session (.route 1),
      .session (.route 1)] ++ takes id ++ takes id

def rotatesFor3 : List (RelayedAction symbolic Unit) :=
  [.session (.leave 3)] ++ takes 1 ++
    [advances 1 1, advances 1 1, advances 1 1, .session (.route 1)]

def catchesUp : List (RelayedAction symbolic Unit) :=
  takes 2 ++ [advances 2 0] ++ takes 2 ++ [advances 2 0]

/-- The slot of 2 is held before the rotation, so the rekey waits in the new
channel. -/
def heldBeforeRotation : List (RelayedAction symbolic Unit) :=
  relayedJoin 2 ++ relayedJoin 3 ++ [.drop 2, .hold 2] ++ rotatesFor3 ++ [.resume 2 0] ++ catchesUp

theorem heldBeforeRotation_agrees :
    ∃ s, run Relayed.step sampleRelayed heldBeforeRotation = some s ∧
      s.world.hostEnd.client.groupKey = sampleKey 1 ∧
      (s.world.ends 2).client.groupKey = s.world.hostEnd.client.groupKey := by
  have finished : (run Relayed.step sampleRelayed heldBeforeRotation).any (fun s =>
      decide (s.Resumable 2 ∧ s.Settled 2 ∧
        s.world.hostEnd.client.groupKey = sampleKey 1)) = true := by
    decide +kernel
  obtain ⟨s, reached, facts⟩ := (Option.any_eq_true _ _).mp finished
  obtain ⟨resumable, settled, rotated⟩ := of_decide_eq_true facts
  refine ⟨s, reached, rotated, ?_⟩
  exact key_agreement_survives_reconnects symbolic_ideal [] [] (Vector.replicate 16 0)
    defaultRolePolicy false 1 (sampleKey 0) heldBeforeRotation s reached (by decide +kernel)
    (by decide +kernel) 2 resumable settled

/-- The rekey is in the old channel when the slot is held; after the resume
nothing is left to read and 2 keeps the key from before the rotation. -/
theorem rekey_lost_with_old_channel :
    ∃ s, run Relayed.step sampleRelayed (relayedJoin 2 ++ relayedJoin 3 ++ rotatesFor3 ++
        [.drop 2, .hold 2, .resume 2 0]) = some s ∧
      Along Relayed.step Relayed.Dependable sampleRelayed (relayedJoin 2 ++ relayedJoin 3 ++
        rotatesFor3 ++ [.drop 2, .hold 2, .resume 2 0]) ∧
      s.Resumable 2 ∧ s.Settled 2 ∧ (s.links 2).up = true ∧
      (s.world.ends 2).client.groupKey = sampleKey 0 ∧
      s.world.hostEnd.client.groupKey = sampleKey 1 := by
  have finished : (run Relayed.step sampleRelayed (relayedJoin 2 ++ relayedJoin 3 ++ rotatesFor3 ++
      [.drop 2, .hold 2, .resume 2 0])).any (fun s =>
      decide (s.Resumable 2 ∧ s.Settled 2 ∧ (s.links 2).up = true ∧
        (s.world.ends 2).client.groupKey = sampleKey 0 ∧
        s.world.hostEnd.client.groupKey = sampleKey 1)) = true := by
    decide +kernel
  obtain ⟨s, reached, facts⟩ := (Option.any_eq_true _ _).mp finished
  exact ⟨s, reached, by decide +kernel, of_decide_eq_true facts⟩

end Parley.Session
