/-
A session end with its mux.

Two goroutines work on one client: the read goroutine of the endpoint model and
the mux goroutine, which takes the client's events one at a time.  Handling an
event changes the mux's own state at once and leaves a list of tasks, the calls
into the client that the handler makes one after another; each task is one
critical section or one write, so the read goroutine may run between any two of
them.  No layered services are attached besides ctl.
-/

import Parley.Service.Ctl
import Parley.Session.Endpoint

namespace Parley.Service

open Crypto Session
open Wire (Bytes ParticipantID SessionID)

structure Roster where
  members : GoMap ParticipantID Role
  names : GoMap ParticipantID Name
  endpoints : GoMap ParticipantID Bytes
  pushKey : Bytes
  services : List ServiceInfo

inductive MuxEvent where
  | session (event : Event Body)
  | desync (fromID : ParticipantID) (service : String) (want got : UInt64)
  | serviceError (fromID : ParticipantID) (service : String) (err : String)
  | roster (r : Roster)
  | promoted (self : ParticipantID)

structure Mux where
  successor : SuccessorPolicy
  ctl : Ctl
  lastSeq : GoMap (ParticipantID × String) UInt64
  merged : List MuxEvent

variable (prim : Primitives)

/-- A call into the client that the mux goroutine has still to make. -/
inductive Task where
  /-- `Broadcast` or `SendTo` of a ctl message up to the write. -/
  | sealing (out : Outgoing) (pruned : List ParticipantID)
  | write (sent : Sent prim Body)
  | becomeHost
  | rotateForMigration
  /-- Re-attach as the host and assume the roster. -/
  | promote (left : ParticipantID)
  | promoted
  | setHostID (id : ParticipantID)
  | reattach
  /-- `RekeyWithNewHost` up to the write. -/
  | rekeyWithNewHost

variable {prim}

def ctlServices : List ServiceInfo := [{ id := ctlID, version := 1 }]

namespace Mux

def new (successor : SuccessorPolicy) : Mux :=
  { successor := successor
    ctl := Ctl.new
    lastSeq := ∅
    merged := [] }

def emit (m : Mux) (event : MuxEvent) : Mux :=
  { m with merged := m.merged ++ [event] }

/-- `roster3`. -/
def rosterEvent (c : Ctl) (infos : List ServiceInfo) : MuxEvent :=
  .roster
    { members := c.roster
      names := c.names
      endpoints := c.endpoints
      pushKey := c.pushKey
      services := infos }

variable (prim) in
/-- The messages of a handler, to be sealed and written; an announce is also an
event for the local end. -/
def sending (m : Mux) (result : Ctl × List Outgoing) : Mux × List (Task prim) :=
  let announced := result.2.filter (fun out =>
    match out with
    | .broadcast _ => true
    | .sendTo _ _ => false)
  ({ m with
      ctl := result.1
      merged := m.merged ++ announced.map (fun _ => rosterEvent result.1 ctlServices) },
    result.2.map (fun out => .sealing out result.1.pruned))

variable (prim) in
/-- `ctlService.HandleFrame`. -/
def handleCtl (m : Mux) (fromID : ParticipantID) (msg : CtlMsg) (pruned : List ParticipantID) :
    Mux × List (Task prim) :=
  match msg with
  | .announce a =>
      match m.ctl.handleAnnounce fromID a pruned with
      | .ok ctl => (({ m with ctl := ctl }).emit (rosterEvent ctl a.services), [])
      | .error err => (m.emit (.serviceError fromID ctlID err), [])
  | .identity name endpoint =>
      m.sending prim (m.ctl.handleIdentity ctlServices fromID name endpoint)
  | .snapshotReq => m.sending prim (m.ctl, m.ctl.handleSnapshotReq fromID ∅)
  | .snapshot _ =>
      match m.ctl.handleSnapshot fromID with
      | .ok ctl => ({ m with ctl := ctl }, [])
      | .error err => (m.emit (.serviceError fromID ctlID err), [])
  | .other => (m, [])

variable (prim) in
def handleFrame (m : Mux) (fromID : ParticipantID) (env : Envelope Body) :
    Mux × List (Task prim) :=
  if env.serviceID ≠ ctlID then (m, [])
  else
    let last := (m.lastSeq.lookup (fromID, env.serviceID)).getD 0
    let watched :=
      if env.seq ≠ last + 1 then m.emit (.desync fromID env.serviceID (last + 1) env.seq) else m
    let counted := { watched with
      lastSeq := watched.lastSeq.insert (fromID, env.serviceID) env.seq }
    match env.body with
    | .ctl msg pruned => counted.handleCtl prim fromID msg pruned
    | .app _ => (counted.emit (.serviceError fromID env.serviceID "ctl: bad body"), [])

variable (prim) in
/-- The calls of `maybeMigrate`; the host id is written by this goroutine alone. -/
def maybeMigrate (m : Mux) (c : Client) (left : ParticipantID) : List (Task prim) :=
  if left ≠ c.hostID then []
  else
    let successor := m.ctl.electSuccessor m.successor left
    if successor = 0 then []
    else if successor = c.self then [.becomeHost, .rotateForMigration, .promote left]
    else [.setHostID successor, .reattach, .rekeyWithNewHost]

variable (prim) in
def dispatch (m : Mux) (c : Client) (event : Event Body) : Mux × List (Task prim) :=
  match event with
  | .frame fromID env => m.handleFrame prim fromID env
  | .memberKeyed id role =>
      let result := m.sending prim (m.ctl.memberKeyed ctlServices id role)
      (result.1.emit (.session event), result.2)
  | .memberLeft id =>
      let result := m.sending prim (m.ctl.memberLeft ctlServices id)
      let noted := result.1.emit (.session event)
      (noted, result.2 ++ noted.maybeMigrate prim c id)
  | .closed _ => (m.emit (.session event), [])
  | .memberJoined _ => (m.emit (.session event), [])

end Mux

inductive Command where
  | setName (name : Name)
  | setEndpoint (endpoint : Bytes)
  | setPushKey (key : Bytes)
  deriving DecidableEq

/-- The mux goroutine is not started, takes events, or has returned. -/
inductive Phase where
  | fresh
  | running
  | stopped
  deriving DecidableEq

variable (prim) in
structure Node where
  endpoint : Endpoint prim Body
  /-- The client's event channel. -/
  events : List (Event Body)
  mux : Mux
  phase : Phase
  /-- What is left of the handler the mux goroutine is in. -/
  todo : List (Task prim)
  /-- History: the departures this mux has handled. -/
  departed : List ParticipantID

/-- What a task gets from outside: a fresh key, a nonce, a seed for a first
flight, and whether a write succeeds. -/
structure TaskOutcome where
  key : Option Key
  nonce : Option Nonce
  seed : Bytes
  written : Bool

inductive NodeAction where
  /-- The read goroutine goes on. -/
  | advance (outcome : Outcome)
  /-- An application goroutine sends on a service of its own. -/
  | call (toID : Option ParticipantID) (serviceID : String) (body : Bytes) (nonce : Option Nonce)
  | write (index : Nat) (written : Bool)
  /-- `NewMux`. -/
  | start
  /-- The mux goroutine takes an event, a command, or its next task. -/
  | event
  | command (cmd : Command)
  | task (outcome : TaskOutcome)

def Client.context (c : Client) : Context :=
  { self := c.self
    hostID := c.hostID
    host := c.role = roleHost }

/-- `Host` or `Join` has returned a client, and the read loop runs. -/
def Reader.inLoop : Reader prim → Bool
  | .greeting _ => false
  | .joining _ _ => false
  | .failed => false
  | _ => true

namespace Node

def settle (n : Node prim) (endpoint : Endpoint prim Body) (outputs : List (Output prim Body)) :
    Node prim :=
  { n with
    endpoint := endpoint
    events := n.events ++ outputs.filterMap (fun output =>
      match output with
      | .emitted event => some event
      | .wrote _ => none) }

/-- `NewMux`: attach, and ask for what was missed. -/
def start (n : Node prim) : Node prim :=
  let ctl := n.mux.ctl.attach (Client.context n.endpoint.client)
  let snapshot : List (Task prim) :=
    if n.endpoint.client.role = roleHost then [] else [.sealing ctl.requestSnapshot ctl.pruned]
  { n with
    mux := { n.mux with ctl := ctl }
    phase := .running
    todo := snapshot }

def event (n : Node prim) (event : Event Body) (rest : List (Event Body)) : Node prim :=
  let result := n.mux.dispatch prim n.endpoint.client event
  { n with
    events := rest
    mux := result.1
    phase :=
      match event with
      | .closed _ => .stopped
      | _ => n.phase
    todo := result.2
    departed :=
      match event with
      | .memberLeft id => id :: n.departed
      | _ => n.departed }

def command (n : Node prim) (cmd : Command) : Node prim :=
  let result := n.mux.sending prim
    (match cmd with
    | .setName name => n.mux.ctl.setName ctlServices name
    | .setEndpoint endpoint => n.mux.ctl.setEndpoint ctlServices endpoint
    | .setPushKey key => n.mux.ctl.setPushKey ctlServices key)
  { n with
    mux := result.1
    todo := result.2 }

def withClient (n : Node prim) (c : Client) (todo : List (Task prim)) : Node prim :=
  { n with
    endpoint := { n.endpoint with client := c }
    todo := todo }

def perform (n : Node prim) (task : Task prim) (rest : List (Task prim)) (outcome : TaskOutcome) :
    Node prim × List (Sent prim Body) :=
  match task with
  | .sealing out pruned =>
      let (toID, msg) : Option ParticipantID × CtlMsg :=
        match out with
        | .broadcast msg => (none, msg)
        | .sendTo id msg => (some id, msg)
      let result : Client × Option (Payload prim Body) :=
        n.endpoint.client.sealEnvelope ctlID (.ctl msg pruned) outcome.nonce
      let frame := result.2.map (fun payload =>
        match toID with
        | none => Sent.broadcast payload
        | some id => Sent.direct id payload)
      (n.withClient result.1 (frame.toList.map .write ++ rest), [])
  | .write sent => ({ n with todo := rest }, if outcome.written then [sent] else [])
  | .becomeHost => (n.withClient n.endpoint.client.becomeHost rest, [])
  | .rotateForMigration =>
      (n.withClient (n.endpoint.client.rotateForMigration outcome.key) rest, [])
  | .promote left =>
      let attached := n.mux.ctl.attach (Client.context n.endpoint.client)
      let result := n.mux.sending prim (attached.assumeHost ctlServices left)
      ({ n with
          mux := result.1
          todo := result.2 ++ .write .claimHost :: .promoted :: rest }, [])
  | .promoted =>
      ({ n with
          mux := n.mux.emit (.promoted n.endpoint.client.self)
          todo := rest }, [])
  | .setHostID id => (n.withClient (n.endpoint.client.setHostID id) rest, [])
  | .reattach =>
      ({ n with
          mux := { n.mux with ctl := n.mux.ctl.attach (Client.context n.endpoint.client) }
          todo := rest }, [])
  | .rekeyWithNewHost =>
      match n.endpoint.client.rekeyWithNewHost prim Body outcome.seed with
      | none => ({ n with todo := rest }, [])
      | some (c, sent) => (n.withClient c (.write sent :: rest), [])

def step (n : Node prim) : NodeAction → Option (Node prim × List (Sent prim Body))
  | .advance outcome =>
      (n.endpoint.advance outcome).map (fun result =>
        (n.settle result.1 result.2, result.2.filterMap Output.written))
  | .call toID serviceID body nonce =>
      -- the ctl id is reserved
      if serviceID = ctlID then none
      else some ({ n with endpoint := n.endpoint.call toID serviceID (.app body) nonce }, [])
  | .write index written =>
      (n.endpoint.write index written).map (fun result =>
        (n.settle result.1 result.2, result.2.filterMap Output.written))
  | .start => if n.phase = .fresh ∧ Reader.inLoop n.endpoint.reader then some (n.start, []) else none
  | .event =>
      match n.phase, n.todo, n.events with
      | .running, [], event :: rest => some (n.event event rest, [])
      | _, _, _ => none
  | .command cmd =>
      match n.phase, n.todo with
      | .running, [] => some (n.command cmd, [])
      | _, _ => none
  | .task outcome =>
      match n.todo with
      | task :: rest => some (n.perform task rest outcome)
      | [] => none

def receive (n : Node prim) (frame : Received prim Body) (seed : Bytes) : Option (Node prim) :=
  (n.endpoint.receive frame seed).map (fun result => n.settle result.1 result.2)

def fresh (endpoint : Endpoint prim Body) (successor : SuccessorPolicy) : Node prim :=
  { endpoint := endpoint
    events := []
    mux := Mux.new successor
    phase := .fresh
    todo := []
    departed := [] }

variable {n : Node prim} {result : Node prim × List (Sent prim Body)}

theorem call_cases {toID : Option ParticipantID} {serviceID : String} {body : Bytes}
    {nonce : Option Nonce} (stepped : n.step (.call toID serviceID body nonce) = some result) :
    serviceID ≠ ctlID ∧
      result = ({ n with endpoint := n.endpoint.call toID serviceID (.app body) nonce }, []) := by
  simp only [step] at stepped
  split at stepped
  · cases stepped
  · rename_i allowed
    exact ⟨allowed, (Option.some.inj stepped).symm⟩

theorem start_cases (stepped : n.step .start = some result) :
    n.phase = .fresh ∧ Reader.inLoop n.endpoint.reader = true ∧ result = (n.start, []) := by
  simp only [step] at stepped
  split at stepped
  · rename_i ready
    exact ⟨ready.1, ready.2, (Option.some.inj stepped).symm⟩
  · cases stepped

theorem event_cases (stepped : n.step .event = some result) :
    n.phase = .running ∧ n.todo = [] ∧ ∃ event rest, n.events = event :: rest ∧
      result = (n.event event rest, []) := by
  simp only [step] at stepped
  split at stepped
  · rename_i event rest running idle isEvents
    exact ⟨running, idle, event, rest, isEvents, (Option.some.inj stepped).symm⟩
  · cases stepped

theorem command_cases {cmd : Command} (stepped : n.step (.command cmd) = some result) :
    n.phase = .running ∧ n.todo = [] ∧ result = (n.command cmd, []) := by
  simp only [step] at stepped
  split at stepped
  · rename_i running idle
    exact ⟨running, idle, (Option.some.inj stepped).symm⟩
  · cases stepped

theorem task_cases {outcome : TaskOutcome} (stepped : n.step (.task outcome) = some result) :
    ∃ task rest, n.todo = task :: rest ∧ result = n.perform task rest outcome := by
  simp only [step] at stepped
  split at stepped
  · rename_i task rest isTodo
    exact ⟨task, rest, isTodo, (Option.some.inj stepped).symm⟩
  · cases stepped

end Node

end Parley.Service
