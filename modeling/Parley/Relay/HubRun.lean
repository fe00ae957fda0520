/-
A hub together with the connection handlers that feed its inbox.

A handler is attached by the hub's reply to its hello.  It sends commands for
its id until its read loop ends, then one leave that carries the generation it
was given.  A held slot arms a timer that may fire at any later time.  The log
records what the hub did, oldest first.
-/

import Parley.Library.Run
import Parley.Relay.Hub

namespace Parley.Relay

open Wire

structure Handler where
  conn : ConnID
  id : ParticipantID
  gen : UInt64
  deriving DecidableEq, Repr

structure Server where
  hub : Hub
  log : List Effect
  stopped : Bool
  handlers : List Handler
  timers : List (ParticipantID × UInt64)
  conns : List ConnID

def Server.start (maxParticipants grace : Nat) : Server :=
  { hub := newHub maxParticipants grace
    log := []
    stopped := false
    handlers := []
    timers := []
    conns := [] }

inductive Action where
  | command (cmd : Cmd) (order : Order)
  | written (id : ParticipantID)
  | answered (id : ParticipantID) (body : Body)

def Action.isVisit : Action → Bool
  | .command (.join ..) _ => true
  | .command (.resume ..) _ => true
  | _ => false

/-- A condition on joins and resumes is decided on them. -/
@[reducible] def Action.decidableOnVisits {holds : Action → Prop}
    (join : ∀ conn isCreate token order,
      Decidable (holds (.command (.join conn isCreate token) order)))
    (resume : ∀ id token conn order, Decidable (holds (.command (.resume id token conn) order)))
    (free : ∀ action, action.isVisit = false → holds action) : DecidablePred holds
  | .command (.join ..) _ => join ..
  | .command (.resume ..) _ => resume ..
  | .command (.leave ..) _ | .command (.graceExpired ..) _ | .command (.claimHost _) _
  | .command (.frame ..) _ | .command .stats _ | .command (.close _) _ | .written _ | .answered .. =>
      isTrue (free _ rfl)

/-- The commands that a connection handler, a timer or the relay can have put
into the inbox. -/
def Server.canSend (s : Server) : Cmd → Bool
  | .join conn _ _ => conn ∉ s.conns
  | .resume _ _ conn => conn ∉ s.conns
  | .leave id gen _ => s.handlers.any (fun handler => handler.id = id ∧ handler.gen = gen)
  | .claimHost id => s.handlers.any (fun handler => handler.id = id)
  | .frame fromID typ _ =>
      (typ = .direct ∨ typ = .broadcast) ∧ s.handlers.any (fun handler => handler.id = fromID)
  | .graceExpired id gen => (id, gen) ∈ s.timers
  | .stats => true
  | .close _ => true

def attached (cmd : Cmd) (effects : List Effect) : List Handler :=
  match cmd with
  | .join conn _ _ =>
      effects.filterMap (fun effect =>
        match effect with
        | .joinReply _ reply => if reply.ok then some ⟨conn, reply.id, reply.gen⟩ else none
        | _ => none)
  | .resume id _ conn =>
      effects.filterMap (fun effect =>
        match effect with
        | .resumeReply _ reply => if reply.ok then some ⟨conn, id, reply.gen⟩ else none
        | _ => none)
  | _ => []

def detached (cmd : Cmd) (handlers : List Handler) : List Handler :=
  match cmd with
  | .leave id gen _ => handlers.eraseP (fun handler => handler.id = id ∧ handler.gen = gen)
  | _ => handlers

/-- The timer that `holdSlot` starts: only a leave that puts a live slot on hold
starts one. -/
def armed (cmd : Cmd) (before after : Hub) : List (ParticipantID × UInt64) :=
  match cmd with
  | .leave id _ _ =>
      match before.clients.lookup id, after.clients.lookup id with
      | some old, some c => if c.held ∧ ¬old.held then [(id, c.gen)] else []
      | _, _ => []
  | _ => []

def fired (cmd : Cmd) (timers : List (ParticipantID × UInt64)) : List (ParticipantID × UInt64) :=
  match cmd with
  | .graceExpired id gen => timers.erase (id, gen)
  | _ => timers

def Server.opened (s : Server) : Cmd → List ConnID
  | .join conn _ _ => conn :: s.conns
  | .resume _ _ conn => conn :: s.conns
  | _ => s.conns

/-- The writer takes the oldest frame of a live slot's channel. -/
def Hub.written (h : Hub) (id : ParticipantID) : Option Hub :=
  match h.clients.lookup id with
  | none => none
  | some c => if c.held then none else some (h.withClient id { c with out := c.out.drop 1 })

/-- The read loop answers pings and bad types on its own connection's channel. -/
def Hub.answered (codec : Codec) (h : Hub) (id : ParticipantID) (body : Body) : Option Hub :=
  match h.clients.lookup id, encode codec body with
  | some c, some frame =>
      if c.held ∨ sendBuffer ≤ c.out.length then none
      else some (h.withClient id { c with out := c.out ++ [frame] })
  | _, _ => none

def Server.step (codec : Codec) (s : Server) : Action → Option Server
  | .command cmd order =>
      if s.stopped ∨ ¬s.canSend cmd then none
      else
        (handle codec order s.hub cmd).map (fun done =>
          { hub := done.1
            log := s.log ++ done.2.1
            stopped := done.2.2
            handlers := detached cmd s.handlers ++ attached cmd done.2.1
            timers := armed cmd s.hub done.1 ++ fired cmd s.timers
            conns := s.opened cmd })
  | .written id => (s.hub.written id).map (fun hub => { s with hub := hub })
  | .answered id body => (s.hub.answered codec id body).map (fun hub => { s with hub := hub })

theorem Hub.written_eq_some {h after : Hub} {id : ParticipantID}
    (wrote : h.written id = some after) :
    ∃ c, h.clients.lookup id = some c ∧ c.held = false ∧
      after = h.withClient id { c with out := c.out.drop 1 } := by
  unfold Hub.written at wrote
  split at wrote
  · cases wrote
  · rename_i c found
    obtain ⟨live, becomes⟩ := Option.ite_none_left_eq_some.mp wrote
    exact ⟨c, found, Bool.eq_false_iff.mpr live, (Option.some.inj becomes).symm⟩

theorem Hub.answered_eq_some {codec : Codec} {h after : Hub} {id : ParticipantID} {body : Body}
    (answers : h.answered codec id body = some after) :
    ∃ c frame, h.clients.lookup id = some c ∧ encode codec body = some frame ∧ c.held = false ∧
      c.out.length < sendBuffer ∧ after = h.withClient id { c with out := c.out ++ [frame] } := by
  unfold Hub.answered at answers
  split at answers
  · rename_i c frame found encoded
    obtain ⟨live, becomes⟩ := Option.ite_none_left_eq_some.mp answers
    simp only [not_or, Bool.not_eq_true, Nat.not_le] at live
    exact ⟨c, frame, found, encoded, live.1, live.2, (Option.some.inj becomes).symm⟩
  · cases answers

end Parley.Relay
