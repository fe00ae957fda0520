/-
The registry of sessions, the hubs it starts and the connections that say hello.

Every goroutine of the relay takes part: connection handlers on their way through
`hello`, the run loops of the hubs behind their buffered inboxes, the sweeper and
the grace timers.  A step is one section under the registry's mutex, one channel
operation or one command handled by a run loop.  `create` starts the goroutine of
the new hub before it stores the entry, so it is two steps between which the
mutex stays taken.
-/

import Mathlib.Logic.Relation
import Parley.Relay.Representation

namespace Parley.Relay

open Wire Library

/-- A hub by the order of creation; stands for the pointer to it. -/
abbrev HubID : Type := Nat

structure Registry where
  sessions : GoMap SessionID HubID
  maxCount : Nat
  maxAge : Nat
  grace : Nat

/-- The checks of `create`: why no hub is made for the id, if so. -/
def Registry.refusal (r : Registry) (sid : SessionID) : Option (UInt16 × String) :=
  if sid ∈ r.sessions then some (errCodeSessionExists, "session already exists")
  else if r.maxCount ≤ r.sessions.keys.length then
    some (errCodeRateLimited, "relay at session capacity")
  else none

def Registry.store (r : Registry) (sid : SessionID) (hub : HubID) : Registry :=
  { r with sessions := r.sessions.insert sid hub }

def Registry.get (r : Registry) (sid : SessionID) : Option HubID := r.sessions.lookup sid

def Registry.remove (r : Registry) (sid : SessionID) : Registry :=
  { r with sessions := r.sessions.erase sid }

/-- What `readFrame` gives `hello`. -/
inductive FirstFrame where
  | unreadable
  | unsupported
  | frame (typ : MsgType) (raw : Bytes)
  deriving DecidableEq, Repr

inductive Request where
  | create (sid : SessionID) (maxParticipants : Nat)
  | join (sid : SessionID)
  | resume (sid : SessionID) (id : ParticipantID) (token : Bytes)
  | refuse (code : UInt16) (msg : String)
  | hangUp
  deriving DecidableEq, Repr

/-- The cap of a new session: the client's wish if the relay allows it. -/
def clampParticipants (maxParticipants : Nat) (wish : UInt8) : Nat :=
  if wish.toNat = 0 ∨ maxParticipants < wish.toNat then maxParticipants else wish.toNat

/-- The part of `hello` before it turns to the registry. -/
def readHello (codec : HelloCodec) (maxParticipants : Nat) : FirstFrame → Request
  | .unreadable => .hangUp
  | .unsupported => .refuse errCodeUnsupportedVersion "unsupported protocol version"
  | .frame .resumeSession raw =>
      match codec.resumeSession raw with
      | none => .refuse errCodeBadFrame "bad resume frame"
      | some (sid, id, token) => .resume sid id token
  | .frame .createSession raw =>
      match codec.createSession raw with
      | none => .refuse errCodeBadFrame "bad create frame"
      | some (sid, wish) => .create sid (clampParticipants maxParticipants wish)
  | .frame .joinSession raw =>
      match codec.joinSession raw with
      | none => .refuse errCodeBadFrame "bad join frame"
      | some sid => .join sid
  | .frame _ _ => .refuse errCodeBadFrame "expected create or join"

/-- How far the goroutine of a hub is: in its loop, returned from it, past
closing `done`, past `onEmpty`. -/
inductive Phase where
  | running
  | leaving
  | closed
  | ended
  deriving DecidableEq, Repr

/-- A hub with its inbox.  `history` lists the commands its run loop took, each
with what it did. -/
structure Proc where
  sid : SessionID
  created : Nat
  creator : ConnID
  hub : Hub
  inbox : List Cmd
  phase : Phase
  timers : List (ParticipantID × UInt64)
  history : List (Cmd × List Effect)

def inboxSize : Nat := 16

/-- `done` is closed. -/
def Proc.isDone (p : Proc) : Bool := p.phase = .closed ∨ p.phase = .ended

/-- The case of its `select` that a send takes. -/
inductive Branch where
  | inbox
  | done
  deriving DecidableEq, Repr

def Proc.put (p : Proc) (cmd : Cmd) : Proc := { p with inbox := p.inbox ++ [cmd] }

/-- `hub.send`: the hub afterwards and the result.  A closed `done` does not keep
a command out of an inbox with room. -/
def Proc.send (p : Proc) (cmd : Cmd) : Branch → Option (Proc × Bool)
  | .inbox => if p.inbox.length < inboxSize then some (p.put cmd, true) else none
  | .done => if p.isDone then some (p, false) else none

inductive Stage where
  | fresh
  | greeting (request : Request)
  | registering
  | sending (hub : HubID) (cmd : Cmd)
  | waiting (hub : HubID) (cmd : Cmd)
  | serving (hub : HubID) (id : ParticipantID) (gen : UInt64)
  | refused (code : UInt16) (msg : String)
  | gone
  deriving DecidableEq, Repr

inductive Answer where
  | join (reply : JoinReply)
  | resume (reply : ResumeReply)
  deriving DecidableEq, Repr

def Cmd.asker : Cmd → Option ConnID
  | .join conn _ _ => some conn
  | .resume _ _ conn => some conn
  | _ => none

def Effect.answer : Effect → Option (ConnID × Answer)
  | .joinReply conn reply => some (conn, .join reply)
  | .resumeReply conn reply => some (conn, .resume reply)
  | _ => none

def Stage.onAnswer (hub : HubID) : Cmd → Answer → Stage
  | .resume id _ _, .resume reply =>
      if reply.ok then .serving hub id reply.gen else .refused reply.errC reply.errS
  | _, .join reply =>
      if reply.ok then .serving hub reply.id reply.gen else .refused reply.errC reply.errS
  | _, .resume reply => .refused reply.errC reply.errS

structure System where
  registry : Registry
  maxParticipants : Nat
  /-- The handler inside `create`, holding the mutex, and its new hub. -/
  creating : Option (ConnID × HubID)
  hubs : List Proc
  stages : ConnID → Stage
  replies : ConnID → List Answer
  /-- The connections that were sent a reply, oldest first. -/
  answered : List ConnID
  /-- The hubs the sweeper still has to close. -/
  expired : List HubID
  now : Nat

def System.start (maxSessions maxAge grace maxParticipants : Nat) : System :=
  { registry :=
      { sessions := ∅
        maxCount := maxSessions
        maxAge := maxAge
        grace := grace }
    maxParticipants := maxParticipants
    creating := none
    hubs := []
    stages := fun _ => .fresh
    replies := fun _ => []
    answered := []
    expired := []
    now := 0 }

def System.turn (s : System) (conn : ConnID) (stage : Stage) : System :=
  { s with stages := Function.update s.stages conn stage }

def System.putHub (s : System) (i : HubID) (p : Proc) : System :=
  { s with hubs := s.hubs.set i p }

def System.overdue (s : System) : List HubID :=
  s.registry.sessions.keys.filterMap (fun sid =>
    (s.registry.get sid).bind (fun i =>
      (s.hubs[i]?).bind (fun p =>
        if s.registry.maxAge < s.now - p.created then some i else none)))

inductive Event where
  | opened (conn : ConnID) (first : FirstFrame)
  | greet (conn : ConnID) (token : Bytes)
  | store (conn : ConnID) (token : Bytes)
  | send (conn : ConnID) (branch : Branch)
  | hear (conn : ConnID)
  | speak (conn : ConnID) (cmd : Cmd) (branch : Branch)
  | serve (hub : HubID) (order : Order)
  | written (hub : HubID) (id : ParticipantID)
  | replied (hub : HubID) (id : ParticipantID) (body : Body)
  | closeDone (hub : HubID)
  | onEmpty (hub : HubID)
  | expire (hub : HubID) (id : ParticipantID) (gen : UInt64) (branch : Branch)
  | stats (hub : HubID) (branch : Branch)
  | sweep (picked : List HubID)
  | sweepSend (branch : Branch)
  | tick

def Stage.onRequest : Request → Stage
  | .refuse code msg => .refused code msg
  | .hangUp => .gone
  | request => .greeting request

def Proc.started (sid : SessionID) (now : Nat) (conn : ConnID) (hub : Hub) : Proc :=
  { sid := sid
    created := now
    creator := conn
    hub := hub
    inbox := []
    phase := .running
    timers := []
    history := [] }

/-- `create` up to the start of the hub; the mutex stays taken. -/
def System.begin (s : System) (conn : ConnID) (sid : SessionID) (maxParticipants : Nat) : System :=
  { s.turn conn .registering with
    creating := some (conn, s.hubs.length)
    hubs := s.hubs ++ [.started sid s.now conn (newHub maxParticipants s.registry.grace)] }

/-- What the hello sends to the hub that `get` found. -/
def System.lookUp (s : System) (conn : ConnID) (sid : SessionID) (cmd : Cmd) : System :=
  match s.registry.get sid with
  | none => s.turn conn (.refused errCodeSessionNotFound "session not found")
  | some i => s.turn conn (.sending i cmd)

/-- The registry's part of a hello: `create` up to the start of the hub, or `get`. -/
def System.greet (s : System) (conn : ConnID) (token : Bytes) : Option System :=
  if s.creating.isSome then none
  else
    match s.stages conn with
    | .greeting (.create sid maxParticipants) =>
        match s.registry.refusal sid with
        | some (code, msg) => some (s.turn conn (.refused code msg))
        | none => some (s.begin conn sid maxParticipants)
    | .greeting (.join sid) => some (s.lookUp conn sid (.join conn false token))
    | .greeting (.resume sid id claimed) => some (s.lookUp conn sid (.resume id claimed conn))
    | _ => none

def System.enter (s : System) (conn : ConnID) (i : HubID) (sid : SessionID) (token : Bytes) :
    System :=
  { s.turn conn (.sending i (.join conn true token)) with
    registry := s.registry.store sid i
    creating := none }

/-- The end of `create`. -/
def System.store (s : System) (conn : ConnID) (token : Bytes) : Option System :=
  match s.creating with
  | none => none
  | some (holder, i) =>
      if holder ≠ conn then none
      else
        (s.hubs[i]?).map (fun p => s.enter conn i p.sid token)

def System.send (s : System) (conn : ConnID) (branch : Branch) : Option System :=
  match s.stages conn with
  | .sending i cmd =>
      (s.hubs[i]?).bind (fun p =>
        (p.send cmd branch).map (fun result =>
          (s.putHub i result.1).turn conn
            (if result.2 then .waiting i cmd
              else .refused errCodeSessionNotFound "session closed")))
  | _ => none

def System.hear (s : System) (conn : ConnID) : Option System :=
  match s.stages conn, s.replies conn with
  | .waiting i cmd, answer :: rest =>
      some { s.turn conn (.onAnswer i cmd answer) with
        replies := Function.update s.replies conn rest }
  | _, _ => none

def Stage.onCommand (hub : HubID) (id : ParticipantID) (gen : UInt64) : Cmd → Option Stage
  | .frame fromID typ _ =>
      if fromID = id ∧ (typ = .direct ∨ typ = .broadcast) then some (.serving hub id gen) else none
  | .claimHost claimant => if claimant = id then some (.serving hub id gen) else none
  | .leave leaver left _ => if leaver = id ∧ left = gen then some .gone else none
  | _ => none

def System.speak (s : System) (conn : ConnID) (cmd : Cmd) (branch : Branch) : Option System :=
  match s.stages conn with
  | .serving i id gen =>
      (Stage.onCommand i id gen cmd).bind (fun stage =>
        (s.hubs[i]?).bind (fun p =>
          (p.send cmd branch).map (fun result => (s.putHub i result.1).turn conn stage)))
  | _ => none

def Proc.took (p : Proc) (cmd : Cmd) (rest : List Cmd) (hub : Hub) (effects : List Effect)
    (returned : Bool) : Proc :=
  { p with
    hub := hub
    inbox := rest
    phase := if returned then .leaving else .running
    timers := armed cmd p.hub hub ++ p.timers
    history := p.history ++ [(cmd, effects)] }

def System.deliver (s : System) (answers : List (ConnID × Answer)) : System :=
  { s with
    replies := fun conn => s.replies conn ++ answers.filterMap (fun sent =>
      if sent.1 = conn then some sent.2 else none)
    answered := s.answered ++ answers.map Prod.fst }

def System.serve (codec : Codec) (s : System) (i : HubID) (order : Order) : Option System :=
  (s.hubs[i]?).bind (fun p =>
    if p.phase ≠ .running then none
    else
      match p.inbox with
      | [] => none
      | cmd :: rest =>
          (handle codec order p.hub cmd).map (fun done =>
            (s.putHub i (p.took cmd rest done.1 done.2.1 done.2.2)).deliver
              (done.2.1.filterMap Effect.answer)))

def System.touch (s : System) (i : HubID) (change : Proc → Option Proc) : Option System :=
  (s.hubs[i]?).bind (fun p => (change p).map (s.putHub i))

def Proc.written (p : Proc) (id : ParticipantID) : Option Proc :=
  (p.hub.written id).map (fun hub => { p with hub := hub })

def Proc.replied (codec : Codec) (p : Proc) (id : ParticipantID) (body : Body) : Option Proc :=
  if isAnswer body then (p.hub.answered codec id body).map (fun hub => { p with hub := hub })
  else none

def Proc.expire (p : Proc) (id : ParticipantID) (gen : UInt64) (branch : Branch) : Option Proc :=
  if (id, gen) ∈ p.timers then
    (p.send (.graceExpired id gen) branch).map (fun result =>
      { result.1 with timers := p.timers.erase (id, gen) })
  else none

def Proc.stats (p : Proc) (branch : Branch) : Option Proc := (p.send .stats branch).map Prod.fst

def Proc.closeDone (p : Proc) : Option Proc :=
  if p.phase = .leaving then some { p with phase := .closed } else none

/-- `onEmpty` takes the entry of the hub's id out of the registry. -/
def System.retire (s : System) (i : HubID) (p : Proc) : System :=
  { s.putHub i { p with phase := .ended } with
    registry := s.registry.remove p.sid }

def System.onEmpty (s : System) (i : HubID) : Option System :=
  if s.creating.isSome then none
  else
    (s.hubs[i]?).bind (fun p =>
      if p.phase ≠ .closed then none
      else
        some (s.retire i p))

/-- `sweep` under the mutex: the overdue hubs in the order of the map. -/
def System.sweep (s : System) (picked : List HubID) : Option System :=
  if s.creating.isSome ∨ s.expired ≠ [] ∨ ¬picked.Perm s.overdue then none
  else some { s with expired := picked }

def System.sweepSend (s : System) (branch : Branch) : Option System :=
  match s.expired with
  | [] => none
  | i :: rest =>
      (s.touch i (fun p => (p.send (.close "session expired") branch).map Prod.fst)).map
        (fun next => { next with expired := rest })

def System.step (codec : Codec) (helloCodec : HelloCodec) (s : System) : Event → Option System
  | .opened conn first =>
      if s.stages conn = .fresh then
        some (s.turn conn (.onRequest (readHello helloCodec s.maxParticipants first)))
      else none
  | .greet conn token => s.greet conn token
  | .store conn token => s.store conn token
  | .send conn branch => s.send conn branch
  | .hear conn => s.hear conn
  | .speak conn cmd branch => s.speak conn cmd branch
  | .serve i order => s.serve codec i order
  | .written i id => s.touch i (fun p => p.written id)
  | .replied i id body => s.touch i (fun p => p.replied codec id body)
  | .closeDone i => s.touch i Proc.closeDone
  | .onEmpty i => s.onEmpty i
  | .expire i id gen branch => s.touch i (fun p => p.expire id gen branch)
  | .stats i branch => s.touch i (fun p => p.stats branch)
  | .sweep picked => s.sweep picked
  | .sweepSend branch => s.sweepSend branch
  | .tick => some { s with now := s.now + 1 }

inductive Stage.Turns (r : Registry) (conn : ConnID) : Stage → Stage → Prop where
  | read (request : Request) : Turns r conn .fresh (.onRequest request)
  | denied {request : Request} (code : UInt16) (msg : String) :
      Turns r conn (.greeting request) (.refused code msg)
  | found {request : Request} {sid : SessionID} {i : HubID} {cmd : Cmd}
      (entry : r.get sid = some i) (asks : cmd.asker = some conn)
      (joins : ∀ token, cmd ≠ .join conn true token) :
      Turns r conn (.greeting request) (.sending i cmd)
  | missed {i : HubID} {cmd : Cmd} :
      Turns r conn (.sending i cmd) (.refused errCodeSessionNotFound "session closed")
  | spoke {i : HubID} {id : ParticipantID} {gen : UInt64} :
      Turns r conn (.serving i id gen) (.serving i id gen)
  | left {i : HubID} {id : ParticipantID} {gen : UInt64} : Turns r conn (.serving i id gen) .gone

/-- What others than its own goroutine do to a hub: they write its clients'
frames and append commands that nobody waits for. -/
structure Proc.Apart (p after : Proc) : Prop where
  sid : after.sid = p.sid
  creator : after.creator = p.creator
  phase : after.phase = p.phase
  history : after.history = p.history
  counter : after.hub.nextID = p.hub.nextID ∧ after.hub.host = p.hub.host
  appended : ∃ new, after.inbox = p.inbox ++ new ∧ ∀ cmd ∈ new, cmd.asker = none

/-- The parts of the steps that neither accept a hello's command nor handle one. -/
inductive System.Quiet (s : System) : System → Prop where
  | turned {conn : ConnID} {stage : Stage} (turns : Stage.Turns s.registry conn (s.stages conn) stage) :
      Quiet s (s.turn conn stage)
  | began {conn : ConnID} {sid : SessionID} {maxParticipants : Nat} (free : s.creating = none)
      (asks : s.stages conn = .greeting (.create sid maxParticipants))
      (vacant : s.registry.refusal sid = none) : Quiet s (s.begin conn sid maxParticipants)
  | stored {conn : ConnID} {i : HubID} {p : Proc} (token : Bytes)
      (holds : s.creating = some (conn, i)) (found : s.hubs[i]? = some p) :
      Quiet s (s.enter conn i p.sid token)
  | heard {conn : ConnID} {i : HubID} {cmd : Cmd} {answer : Answer} {rest : List Answer}
      (waits : s.stages conn = .waiting i cmd) (channel : s.replies conn = answer :: rest) :
      Quiet s { s.turn conn (.onAnswer i cmd answer) with
        replies := Function.update s.replies conn rest }
  | touched {i : HubID} {p after : Proc} (found : s.hubs[i]? = some p) (apart : p.Apart after) :
      Quiet s (s.putHub i after)
  | closed {i : HubID} {p : Proc} (found : s.hubs[i]? = some p) (leaving : p.phase = .leaving) :
      Quiet s (s.putHub i { p with phase := .closed })
  | emptied {i : HubID} {p : Proc} (free : s.creating = none) (found : s.hubs[i]? = some p)
      (closed : p.phase = .closed) : Quiet s (s.retire i p)
  | swept (expired : List HubID) (now : Nat) : Quiet s { s with expired := expired, now := now }

open Relation (ReflTransGen)

variable {s next : System} {conn : ConnID} {branch : Branch} {id : ParticipantID}
  {after p q : Proc} {i j : HubID} {cmd : Cmd} {codec : Codec}

theorem System.quiet_invariant {invariant : System → Prop}
    (preserved : ∀ s next, invariant s → System.Quiet s next → invariant next)
    (moved : ReflTransGen System.Quiet s next) (holds : invariant s) : invariant next := by
  induction moved with
  | refl => exact holds
  | tail _ last ih => exact preserved _ _ ih last

theorem Proc.Apart.refl (p : Proc) : p.Apart p :=
  { sid := rfl
    creator := rfl
    phase := rfl
    history := rfl
    counter := ⟨rfl, rfl⟩
    appended := ⟨[], (List.append_nil _).symm, fun _ member => by cases member⟩ }

theorem Proc.Apart.put (p : Proc) (plain : cmd.asker = none) : p.Apart (p.put cmd) :=
  { sid := rfl
    creator := rfl
    phase := rfl
    history := rfl
    counter := ⟨rfl, rfl⟩
    appended := ⟨[cmd], rfl, fun other member => by rw [List.mem_singleton.mp member, plain]⟩ }

theorem Proc.send_apart {result : Proc × Bool} (sent : p.send cmd branch = some result)
    (plain : cmd.asker = none) : p.Apart result.1 := by
  cases branch with
  | inbox =>
      obtain ⟨_, ⟨⟩⟩ := Option.ite_none_right_eq_some.mp sent
      exact .put p plain
  | done =>
      obtain ⟨_, ⟨⟩⟩ := Option.ite_none_right_eq_some.mp sent
      exact .refl p

theorem Proc.written_apart (written : p.written id = some after) : p.Apart after := by
  obtain ⟨hub, wrote, rfl⟩ := Option.map_eq_some_iff.mp written
  obtain ⟨_, _, _, rfl⟩ := Hub.written_eq_some wrote
  exact { Proc.Apart.refl p with }

theorem Proc.replied_apart {body : Body} (replied : p.replied codec id body = some after) :
    p.Apart after := by
  obtain ⟨_, answered⟩ := Option.ite_none_right_eq_some.mp replied
  obtain ⟨hub, wrote, rfl⟩ := Option.map_eq_some_iff.mp answered
  obtain ⟨_, _, _, _, _, _, rfl⟩ := Hub.answered_eq_some wrote
  exact { Proc.Apart.refl p with }

theorem Proc.expire_apart {gen : UInt64} (fired : p.expire id gen branch = some after) :
    p.Apart after := by
  obtain ⟨_, sent⟩ := Option.ite_none_right_eq_some.mp fired
  obtain ⟨result, accepted, rfl⟩ := Option.map_eq_some_iff.mp sent
  exact { Proc.send_apart accepted rfl with }

theorem System.touch_quiet {change : Proc → Option Proc}
    (apart : ∀ p after, change p = some after → p.Apart after)
    (touched : s.touch i change = some next) : s.Quiet next := by
  obtain ⟨p, found, changed⟩ := Option.bind_eq_some_iff.mp touched
  obtain ⟨after, becomes, rfl⟩ := Option.map_eq_some_iff.mp changed
  exact .touched found (apart p after becomes)

theorem System.lookUp_quiet {request : Request} (sid : SessionID)
    (asks : s.stages conn = .greeting request) (own : cmd.asker = some conn)
    (joins : ∀ token, cmd ≠ .join conn true token) : s.Quiet (s.lookUp conn sid cmd) := by
  cases entry : s.registry.get sid with
  | none =>
      have turns := @Stage.Turns.denied s.registry conn request errCodeSessionNotFound
        "session not found"
      rw [← asks] at turns
      simp only [System.lookUp, entry]
      exact .turned turns
  | some i =>
      have turns := @Stage.Turns.found s.registry conn request sid i cmd entry own joins
      rw [← asks] at turns
      simp only [System.lookUp, entry]
      exact .turned turns

variable {hubs : List Proc} {token : Bytes}

theorem System.greet_quiet (greeted : s.greet conn token = some next) :
    s.Quiet next := by
  obtain ⟨free, greeted⟩ := Option.ite_none_left_eq_some.mp greeted
  simp only [Option.not_isSome_iff_eq_none] at free
  split at greeted
  · rename_i sid maxParticipants asks
    split at greeted
    · cases greeted
      rename_i code msg refused
      have turns := @Stage.Turns.denied s.registry conn (.create sid maxParticipants) code msg
      rw [← asks] at turns
      exact .turned turns
    · cases greeted
      rename_i vacant
      exact .began free asks vacant
  · rename_i sid asks
    cases greeted
    exact System.lookUp_quiet sid asks rfl (fun other same => by cases same)
  · rename_i sid id claimed asks
    cases greeted
    exact System.lookUp_quiet sid asks rfl (fun other same => by cases same)
  · cases greeted

theorem System.store_quiet (stored : s.store conn token = some next) :
    s.Quiet next := by
  unfold System.store at stored
  split at stored
  · cases stored
  · rename_i holder i holds
    obtain ⟨same, entered⟩ := Option.ite_none_left_eq_some.mp stored
    obtain ⟨p, found, rfl⟩ := Option.map_eq_some_iff.mp entered
    have holder : holder = conn := Decidable.not_not.mp same
    subst holder
    exact .stored token holds found

theorem System.hear_quiet (heard : s.hear conn = some next) :
    s.Quiet next := by
  unfold System.hear at heard
  split at heard
  · rename_i i cmd answer rest waits channel
    cases heard
    exact .heard waits channel
  · cases heard

theorem Stage.onCommand_plain {gen : UInt64} {stage : Stage}
    (said : Stage.onCommand i id gen cmd = some stage) :
    cmd.asker = none ∧ (stage = .serving i id gen ∨ stage = .gone) := by
  cases cmd with
  | frame fromID typ raw | claimHost claimant =>
      obtain ⟨_, ⟨⟩⟩ := Option.ite_none_right_eq_some.mp said
      exact ⟨rfl, Or.inl rfl⟩
  | leave leaver left unexpected =>
      obtain ⟨_, ⟨⟩⟩ := Option.ite_none_right_eq_some.mp said
      exact ⟨rfl, Or.inr rfl⟩
  | _ => cases said

theorem System.speak_quiet (spoke : s.speak conn cmd branch = some next) :
    ReflTransGen System.Quiet s next := by
  unfold System.speak at spoke
  split at spoke
  · rename_i i id gen serves
    obtain ⟨stage, said, spoke⟩ := Option.bind_eq_some_iff.mp spoke
    obtain ⟨p, found, spoke⟩ := Option.bind_eq_some_iff.mp spoke
    obtain ⟨result, sent, rfl⟩ := Option.map_eq_some_iff.mp spoke
    obtain ⟨plain, turned⟩ := Stage.onCommand_plain said
    refine (ReflTransGen.single (.touched found (Proc.send_apart sent plain))).tail (.turned ?_)
    have same : (s.putHub i result.1).stages conn = .serving i id gen := serves
    rw [same]
    rcases turned with rfl | rfl
    · exact .spoke
    · exact .left
  · cases spoke

theorem System.sweepSend_quiet (sent : s.sweepSend branch = some next) :
    ReflTransGen System.Quiet s next := by
  unfold System.sweepSend at sent
  split at sent
  · cases sent
  · obtain ⟨middle, touched, rfl⟩ := Option.map_eq_some_iff.mp sent
    refine (ReflTransGen.single (System.touch_quiet ?_ touched)).tail (.swept _ middle.now)
    intro p after changed
    obtain ⟨result, accepted, rfl⟩ := Option.map_eq_some_iff.mp changed
    exact Proc.send_apart accepted rfl

structure System.Accepts (s : System) (conn : ConnID) (i : HubID) (cmd : Cmd) (p : Proc)
    (next : System) : Prop where
  sends : s.stages conn = .sending i cmd
  found : s.hubs[i]? = some p
  room : p.inbox.length < inboxSize
  result : next = (s.putHub i (p.put cmd)).turn conn (.waiting i cmd)

structure System.Serves (codec : Codec) (s : System) (i : HubID) (order : Order) (p : Proc)
    (cmd : Cmd) (rest : List Cmd) (hub : Hub) (effects : List Effect) (returned : Bool)
    (next : System) : Prop where
  found : s.hubs[i]? = some p
  running : p.phase = .running
  inbox : p.inbox = cmd :: rest
  handled : handle codec order p.hub cmd = some (hub, effects, returned)
  result : next = (s.putHub i (p.took cmd rest hub effects returned)).deliver
    (effects.filterMap Effect.answer)

theorem System.send_cases (sent : s.send conn branch = some next) :
    (branch = .inbox ∧ ∃ i cmd p, s.Accepts conn i cmd p next) ∨
      ReflTransGen System.Quiet s next := by
  unfold System.send at sent
  split at sent
  · rename_i i cmd sends
    obtain ⟨p, found, sent⟩ := Option.bind_eq_some_iff.mp sent
    obtain ⟨result, accepted, rfl⟩ := Option.map_eq_some_iff.mp sent
    cases branch with
    | inbox =>
        obtain ⟨room, ⟨⟩⟩ := Option.ite_none_right_eq_some.mp accepted
        exact Or.inl ⟨rfl, i, cmd, p, sends, found, room, rfl⟩
    | done =>
        obtain ⟨_, ⟨⟩⟩ := Option.ite_none_right_eq_some.mp accepted
        refine Or.inr ((ReflTransGen.single (.touched found (.refl p))).tail (.turned ?_))
        have same : (s.putHub i p).stages conn = .sending i cmd := sends
        rw [same]
        exact .missed
  · cases sent

theorem System.serve_cases {order : Order} (served : s.serve codec i order = some next) :
    ∃ p cmd rest hub effects returned,
      System.Serves codec s i order p cmd rest hub effects returned next := by
  obtain ⟨p, found, served⟩ := Option.bind_eq_some_iff.mp served
  obtain ⟨running, served⟩ := Option.ite_none_left_eq_some.mp served
  split at served
  · cases served
  · rename_i cmd rest inbox
    obtain ⟨⟨hub, effects, returned⟩, handled, rfl⟩ := Option.map_eq_some_iff.mp served
    exact ⟨p, cmd, rest, hub, effects, returned, found, Decidable.not_not.mp running, inbox, handled,
      rfl⟩

theorem System.step_cases {helloCodec : HelloCodec} {event : Event}
    (stepped : System.step codec helloCodec s event = some next) :
    (∃ conn i cmd p, event = .send conn .inbox ∧ s.Accepts conn i cmd p next) ∨
      (∃ i order p cmd rest hub effects returned, event = .serve i order ∧
        System.Serves codec s i order p cmd rest hub effects returned next) ∨
      ReflTransGen System.Quiet s next := by
  have quiet : s.Quiet next → (∃ conn i cmd p, event = .send conn .inbox ∧
      s.Accepts conn i cmd p next) ∨ (∃ i order p cmd rest hub effects returned,
        event = .serve i order ∧
        System.Serves codec s i order p cmd rest hub effects returned next) ∨
      ReflTransGen System.Quiet s next :=
    fun moved => Or.inr (Or.inr (.single moved))
  cases event with
  | opened conn first =>
      obtain ⟨fresh, ⟨⟩⟩ := Option.ite_none_right_eq_some.mp stepped
      have turns := @Stage.Turns.read s.registry conn (readHello helloCodec s.maxParticipants first)
      rw [← fresh] at turns
      exact quiet (.turned turns)
  | greet conn token => exact quiet (System.greet_quiet stepped)
  | store conn token => exact quiet (System.store_quiet stepped)
  | send conn branch =>
      rcases System.send_cases stepped with ⟨rfl, i, cmd, p, accepts⟩ | moved
      · exact Or.inl ⟨conn, i, cmd, p, rfl, accepts⟩
      · exact Or.inr (Or.inr moved)
  | hear conn => exact quiet (System.hear_quiet stepped)
  | speak conn cmd branch => exact Or.inr (Or.inr (System.speak_quiet stepped))
  | serve i order =>
      obtain ⟨p, cmd, rest, hub, effects, returned, serves⟩ := System.serve_cases stepped
      exact Or.inr (Or.inl ⟨i, order, p, cmd, rest, hub, effects, returned, rfl, serves⟩)
  | written i id =>
      exact quiet (System.touch_quiet (fun p after => Proc.written_apart) stepped)
  | replied i id body =>
      exact quiet (System.touch_quiet (fun p after => Proc.replied_apart) stepped)
  | closeDone i =>
      obtain ⟨p, found, changed⟩ := Option.bind_eq_some_iff.mp stepped
      obtain ⟨after, becomes, rfl⟩ := Option.map_eq_some_iff.mp changed
      obtain ⟨leaving, ⟨⟩⟩ := Option.ite_none_right_eq_some.mp becomes
      exact quiet (.closed found leaving)
  | onEmpty i =>
      obtain ⟨free, emptied⟩ := Option.ite_none_left_eq_some.mp stepped
      obtain ⟨p, found, emptied⟩ := Option.bind_eq_some_iff.mp emptied
      obtain ⟨closed, retired⟩ := Option.ite_none_left_eq_some.mp emptied
      cases retired
      exact quiet (.emptied (Option.not_isSome_iff_eq_none.mp free) found
        (Decidable.not_not.mp closed))
  | expire i id gen branch =>
      exact quiet (System.touch_quiet (fun p after => Proc.expire_apart) stepped)
  | stats i branch =>
      refine quiet (System.touch_quiet (fun p after sent => ?_) stepped)
      obtain ⟨result, accepted, rfl⟩ := Option.map_eq_some_iff.mp sent
      exact Proc.send_apart accepted rfl
  | sweep picked =>
      obtain ⟨_, ⟨⟩⟩ := Option.ite_none_left_eq_some.mp stepped
      exact quiet (.swept picked s.now)
  | sweepSend branch => exact Or.inr (Or.inr (System.sweepSend_quiet stepped))
  | tick =>
      cases stepped
      exact quiet (.swept s.expired (s.now + 1))

/-! ### One hub of a system -/

theorem System.lookup_putHub (found : s.hubs[i]? = some p)
    (there : (s.putHub i after).hubs[j]? = some q) :
    (j = i ∧ q = after) ∨ (j ≠ i ∧ s.hubs[j]? = some q) := by
  obtain ⟨within, _⟩ := List.getElem?_eq_some_iff.mp found
  simp only [System.putHub, List.getElem?_set, within, if_true] at there
  split at there
  · rename_i same
    exact Or.inl ⟨same.symm, (Option.some.inj there).symm⟩
  · rename_i differs
    exact Or.inr ⟨fun same => differs same.symm, there⟩

theorem System.lookup_putHub_self (found : s.hubs[i]? = some p) :
    (s.putHub i after).hubs[i]? = some after := by
  obtain ⟨within, _⟩ := List.getElem?_eq_some_iff.mp found
  simp only [System.putHub, List.getElem?_set_self within]

theorem System.lookup_putHub_ne (after : Proc) (differs : j ≠ i) :
    (s.putHub i after).hubs[j]? = s.hubs[j]? := by
  simp only [System.putHub, List.getElem?_set_ne (Ne.symm differs)]

theorem lookup_started {started : Proc} (there : (hubs ++ [started])[j]? = some q) :
    hubs[j]? = some q ∨ (j = hubs.length ∧ q = started) := by
  by_cases within : j < hubs.length
  · exact Or.inl ((List.getElem?_append_left within).symm.trans there)
  · rw [List.getElem?_append_right (Nat.le_of_not_lt within)] at there
    obtain ⟨last, same⟩ := List.getElem?_eq_some_iff.mp there
    have first : j - hubs.length = 0 := Nat.lt_one_iff.mp last
    refine Or.inr ⟨Nat.le_antisymm (Nat.sub_eq_zero_iff_le.mp first) (Nat.le_of_not_lt within), ?_⟩
    simp only [List.getElem_singleton] at same
    exact same.symm

theorem lookup_before_started (started : Proc) (there : hubs[j]? = some q) :
    (hubs ++ [started])[j]? = some q := by
  obtain ⟨within, _⟩ := List.getElem?_eq_some_iff.mp there
  exact (List.getElem?_append_left within).trans there

end Parley.Relay
