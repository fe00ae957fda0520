/-
The hub: one session's slots, the commands of its inbox and the frames it queues.

All hub state is confined to the goroutine that runs the inbox, so a command is
a function from the hub to the next hub.  Besides the hub each function returns
the list of what it did to the outside in order: frames placed in out channels,
connections kicked, replies sent.  Iteration over the clients map follows an
arbitrary order supplied with the command.  The relay-wide counters are written
here and never read, and are left out.
-/

import Parley.Wire

namespace Parley.Relay

open Wire

/-- Handlers and timers are told apart by slot and generation. -/
instance : LawfulBEq (ParticipantID × UInt64) := inferInstance

/-- Identity of a connection; stands for its `kick` function. -/
abbrev ConnID : Type := Nat

/-- The hub's view of one participant.  `out` is the content of the slot's
current out channel, oldest frame first. -/
structure Client where
  id : ParticipantID
  out : List Bytes
  kick : ConnID
  token : Bytes
  held : Bool
  gen : UInt64
  timer : Bool
  evicting : Bool
  deriving DecidableEq, Repr

def sendBuffer : Nat := 64

def hostID : ParticipantID := 1

structure Hub where
  max : Nat
  grace : Nat
  clients : GoMap ParticipantID Client
  nextID : ParticipantID
  host : ParticipantID
  evict : List ParticipantID

def newHub (maxParticipants grace : Nat) : Hub :=
  { max := maxParticipants
    grace := grace
    clients := ∅
    nextID := hostID
    host := hostID
    evict := [] }

structure JoinReply where
  ok : Bool
  errC : UInt16
  errS : String
  id : ParticipantID
  gen : UInt64
  deriving DecidableEq, Repr

structure ResumeReply where
  ok : Bool
  errC : UInt16
  errS : String
  gen : UInt64
  deriving DecidableEq, Repr

structure HubStats where
  participants : Nat
  host : ParticipantID
  nextID : ParticipantID
  clients : List (ParticipantID × Bool × UInt64)
  deriving DecidableEq, Repr

inductive Cmd where
  | join (conn : ConnID) (isCreate : Bool) (token : Bytes)
  | leave (id : ParticipantID) (gen : UInt64) (unexpected : Bool)
  | resume (id : ParticipantID) (token : Bytes) (conn : ConnID)
  | graceExpired (id : ParticipantID) (gen : UInt64)
  | claimHost (id : ParticipantID)
  | frame (fromID : ParticipantID) (typ : MsgType) (raw : Bytes)
  | stats
  | close (reason : String)
  deriving DecidableEq, Repr

inductive Effect where
  | queued (toID : ParticipantID) (body : Body)
  | kicked (conn : ConnID)
  | joinReply (conn : ConnID) (reply : JoinReply)
  | resumeReply (conn : ConnID) (reply : ResumeReply)
  | statsReply (reply : HubStats)
  deriving DecidableEq, Repr

/-- Go leaves the iteration order of a map open.  The `n`-th loop over the
clients made by one command visits the keys in the order `visit n` gives. -/
structure Order where
  visit : Nat → List ParticipantID → List ParticipantID
  perm : ∀ loop keys, (visit loop keys).Perm keys

def Order.stored : Order :=
  { visit := fun _ keys => keys
    perm := fun _ keys => List.Perm.refl keys }

/-- Enqueue a frame for one client, or mark the client for removal when its
buffer is full.  A client already marked is skipped. -/
def queue (h : Hub) (id : ParticipantID) (body : Body) (frame : Bytes) : Hub × List Effect :=
  match h.clients.lookup id with
  | none => (h, [])
  | some c =>
      if c.evicting then (h, [])
      else if c.out.length < sendBuffer then
        ({ h with clients := h.clients.insert id { c with out := c.out ++ [frame] } },
          [.queued id body])
      else
        ({ h with
            clients := h.clients.insert id { c with evicting := true }
            evict := h.evict ++ [c.id] },
          if c.held then [] else [.kicked c.kick])

/-- The loop of `broadcastFrame` over the keys in the order visited. -/
def fanOut (body : Body) (frame : Bytes) (except : ParticipantID) :
    List ParticipantID → Hub → Hub × List Effect
  | [], h => (h, [])
  | id :: rest, h =>
      if id = except then fanOut body frame except rest h
      else
        let first := queue h id body frame
        let later := fanOut body frame except rest first.1
        (later.1, first.2 ++ later.2)

def broadcastFrame (codec : Codec) (visit : List ParticipantID → List ParticipantID)
    (h : Hub) (body : Body) (except : ParticipantID) : Hub × List Effect :=
  match encode codec body with
  | none => (h, [])
  | some frame => fanOut body frame except (visit h.clients.keys) h

def sendTo (codec : Codec) (h : Hub) (id : ParticipantID) (body : Body) : Hub × List Effect :=
  match h.clients.lookup id with
  | none => (h, [])
  | some _ =>
      match encode codec body with
      | none => (h, [])
      | some frame => queue h id body frame

def peersExcept (h : Hub) (visit : List ParticipantID → List ParticipantID)
    (id : ParticipantID) : List ParticipantID :=
  (visit h.clients.keys).filter (fun pid => pid ≠ id)

/-- The reply that leads a slot's out channel: `SessionCreated` for the creator,
`JoinResult` for a joiner and for a resumed slot. -/
def helloReply (h : Hub) (visit : List ParticipantID → List ParticipantID) (isCreate : Bool)
    (id : ParticipantID) (token : Bytes) : Body :=
  if isCreate then .sessionCreated id token
  else
    .joinResult
      { ok := true
        err := ""
        participantID := id
        peers := peersExcept h visit id
        hostID := h.host
        resumeToken := token }

/-- Teardown of one participant; the last component reports that the session
is empty. -/
def removeParticipant (codec : Codec) (visit : List ParticipantID → List ParticipantID)
    (h : Hub) (id : ParticipantID) : Hub × List Effect × Bool :=
  match h.clients.lookup id with
  | none => (h, [], false)
  | some c =>
      let removed : Hub := { h with clients := h.clients.erase id }
      if removed.clients.keys = [] then (removed, [.kicked c.kick], true)
      else
        let notice := broadcastFrame codec visit removed (.participantLeft id) 0
        (notice.1, .kicked c.kick :: notice.2, false)

/-- The eviction loop.  The `n`-th removal iterates in the order `visit n`; the
loop is undefined only when the fuel runs out before the list is empty. -/
def drainEvictions (codec : Codec) (order : Order) :
    Nat → Nat → Hub → Option (Hub × List Effect × Bool)
  | fuel, loop, h =>
      match h.evict with
      | [] => some (h, [], false)
      | id :: rest =>
          match fuel with
          | 0 => none
          | fuel + 1 =>
              let removed := removeParticipant codec (order.visit loop) { h with evict := rest } id
              if removed.2.2 then some removed
              else
                (drainEvictions codec order fuel (loop + 1) removed.1).map
                  (fun later => (later.1, removed.2.1 ++ later.2.1, later.2.2))

/-- Enough fuel for the eviction loop: a removal takes one entry off the list
and adds at most one entry for each client it marks, and a client is marked once. -/
def drainFuel (h : Hub) : Nat :=
  h.evict.length + 2 * h.clients.keys.length

def handleClaimHost (h : Hub) (id : ParticipantID) : Hub :=
  match h.clients.lookup id with
  | none => h
  | some _ => { h with host := id }

def handleJoin (codec : Codec) (order : Order) (h : Hub) (conn : ConnID) (isCreate : Bool)
    (token : Bytes) : Hub × List Effect :=
  if h.max ≤ h.clients.keys.length then
    (h, [.joinReply conn
      { ok := false, errC := errCodeSessionFull, errS := "session full", id := 0, gen := 0 }])
  else
    let id := h.nextID
    let issued : Hub := { h with nextID := h.nextID + 1 }
    let hello := helloReply h (order.visit 0) isCreate id token
    match encode codec hello with
    | none =>
        (issued, [.joinReply conn
          { ok := false, errC := errCodeBadFrame, errS := "encode reply", id := 0, gen := 0 }])
    | some frame =>
        let client : Client :=
          { id := id
            out := [frame]
            kick := conn
            token := token
            held := false
            gen := 1
            timer := false
            evicting := false }
        let registered : Hub := { issued with clients := issued.clients.insert id client }
        let notice := broadcastFrame codec (order.visit 1) registered (.participantJoined id) id
        (notice.1,
          .queued id hello ::
            .joinReply conn { ok := true, errC := 0, errS := "", id := id, gen := 1 } ::
              notice.2)

def holdSlot (h : Hub) (id : ParticipantID) (c : Client) : Hub :=
  { h with
    clients := h.clients.insert id
      { c with held := true, gen := c.gen + 1, out := [], timer := true } }

def handleLeave (codec : Codec) (order : Order) (h : Hub) (id : ParticipantID) (gen : UInt64)
    (unexpected : Bool) : Hub × List Effect × Bool :=
  match h.clients.lookup id with
  | none => (h, [], false)
  | some c =>
      if c.held ∨ c.gen ≠ gen then (h, [], false)
      else if unexpected ∧ 0 < h.grace then (holdSlot h id c, [], false)
      else removeParticipant codec (order.visit 0) h id

def handleGraceExpired (codec : Codec) (order : Order) (h : Hub) (id : ParticipantID)
    (gen : UInt64) : Hub × List Effect × Bool :=
  match h.clients.lookup id with
  | none => (h, [], false)
  | some c =>
      if ¬c.held ∨ c.gen ≠ gen then (h, [], false)
      else removeParticipant codec (order.visit 0) h id

/-- The frames of a resumed slot: the reply leads, buffered frames follow as
far as the channel has room. -/
def refill (hello : Bytes) (buffered : List Bytes) : List Bytes :=
  (hello :: buffered).take sendBuffer

def handleResume (codec : Codec) (order : Order) (h : Hub) (id : ParticipantID) (token : Bytes)
    (conn : ConnID) : Hub × List Effect :=
  let rejected : Hub × List Effect :=
    (h, [.resumeReply conn
      { ok := false, errC := errCodeResumeRejected, errS := "cannot resume session", gen := 0 }])
  match h.clients.lookup id with
  | none => rejected
  | some c =>
      if c.token ≠ token then rejected
      else
        let hello := helloReply h (order.visit 0) false id c.token
        match encode codec hello with
        | none =>
            (h, [.resumeReply conn
              { ok := false, errC := errCodeBadFrame, errS := "encode reply", gen := 0 }])
        | some frame =>
            -- A held slot keeps what it buffered; a live one loses its connection
            -- and starts an empty channel.
            let buffered := if c.held then c.out else []
            let resumed : Client :=
              { c with
                out := refill frame buffered
                kick := conn
                held := false
                gen := c.gen + 1
                timer := false }
            ({ h with clients := h.clients.insert id resumed },
              (if c.held then [] else [.kicked c.kick]) ++
                [.queued id hello,
                  .resumeReply conn { ok := true, errC := 0, errS := "", gen := c.gen + 1 }])

/-- Forward a Direct or Broadcast frame with the sender stamped by the relay. -/
def route (codec : Codec) (order : Order) (h : Hub) (fromID : ParticipantID) (typ : MsgType)
    (raw : Bytes) : Hub × List Effect :=
  match typ with
  | .direct =>
      match codec.bodyDirect raw with
      | none => sendTo codec h fromID (.error errCodeBadFrame "bad direct frame")
      | some d =>
          match h.clients.lookup d.toID with
          | none => sendTo codec h fromID (.error errCodeUnknownPeer "unknown peer")
          | some _ => sendTo codec h d.toID (.direct { d with fromID := fromID })
  | .broadcast =>
      match codec.bodyBroadcast raw with
      | none => sendTo codec h fromID (.error errCodeBadFrame "bad broadcast frame")
      | some b => broadcastFrame codec (order.visit 0) h (.broadcast { b with fromID := fromID }) fromID
  | _ => (h, [])

def handleStats (order : Order) (h : Hub) : HubStats :=
  { participants := h.clients.keys.length
    host := h.host
    nextID := h.nextID
    clients := (order.visit 0 h.clients.keys).filterMap (fun id =>
      (h.clients.lookup id).map (fun c => (c.id, c.held, c.gen))) }

/-- One command's own effect, before evictions; the last component is the
handler's request that `run` return. -/
def dispatch (codec : Codec) (order : Order) (h : Hub) : Cmd → Hub × List Effect × Bool
  | .join conn isCreate token =>
      let done := handleJoin codec order h conn isCreate token
      (done.1, done.2, false)
  | .leave id gen unexpected => handleLeave codec order h id gen unexpected
  | .resume id token conn =>
      let done := handleResume codec order h id token conn
      (done.1, done.2, false)
  | .graceExpired id gen => handleGraceExpired codec order h id gen
  | .claimHost id => (handleClaimHost h id, [], false)
  | .frame fromID typ raw =>
      let done := route codec order h fromID typ raw
      (done.1, done.2, false)
  | .stats => (h, [.statsReply (handleStats order h)], false)
  | .close reason =>
      let done := broadcastFrame codec (order.visit 0) h (.sessionClosed reason) 0
      (done.1, done.2, true)

/-- The teardown deferred by `run`: every remaining connection is kicked. -/
def shutdown (h : Hub) : List Effect :=
  h.clients.entries.map (fun entry => .kicked entry.2.kick)

/-- One iteration of `run`: the command, then the evictions it caused.  The
last component reports that `run` returned. -/
def handle (codec : Codec) (order : Order) (h : Hub) (cmd : Cmd) :
    Option (Hub × List Effect × Bool) :=
  let own := dispatch codec order h cmd
  if own.2.2 then some (own.1, own.2.1 ++ shutdown own.1, true)
  else
    (drainEvictions codec order (drainFuel own.1) 2 own.1).map (fun drained =>
      (drained.1,
        own.2.1 ++ drained.2.1 ++ (if drained.2.2 then shutdown drained.1 else []),
        drained.2.2))

def Hub.withClient (h : Hub) (id : ParticipantID) (c : Client) : Hub :=
  { h with clients := h.clients.insert id c }

end Parley.Relay
