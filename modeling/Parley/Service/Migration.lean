/-
What of a session end matters for its keys.

Most of what an end does is plain: it seals and writes messages, keeps its roster
and hands events on.  `view` forgets all of that.  A step of an end either is
plain, and then the view stays and only plain frames are written, or it is one of
four kinds: the read goroutine goes on, or takes a frame that is not plain, or
the mux takes an event or performs a task that is not plain.
-/

import Parley.Service.Reactions
import Parley.Service.World

namespace Parley.Service.Migration

open Crypto Library Session
open Wire (Bytes ParticipantID SessionID)

variable {prim : Primitives}

def plainPayload : Payload prim Body → Bool
  | .sealed _ => true
  | _ => false

def plainSent : Sent prim Body → Bool
  | .direct _ payload => plainPayload payload
  | .broadcast payload => plainPayload payload
  | .claimHost => true

def plainFrame : Received prim Body → Bool
  | .direct _ payload => plainPayload payload
  | .broadcast _ payload => plainPayload payload
  | .participantJoined _ => true
  | .other => true
  | .participantLeft _ => false
  | .sessionClosed _ => false

def plainEvent : Event Body → Bool
  | .frame _ _ => true
  | .memberJoined _ => true
  | _ => false

def plainTask : Task prim → Bool
  | .sealing _ _ => true
  | .write sent => plainSent sent
  | .promoted => true
  | _ => false

def weighty {α : Type} (plain : α → Bool) (items : List α) : List α :=
  items.filter (fun item => !plain item)

section Weighty

variable {α : Type} {plain : α → Bool}

theorem weighty_append (first second : List α) :
    weighty plain (first ++ second) = weighty plain first ++ weighty plain second :=
  List.filter_append first second

theorem weighty_eq_nil {items : List α} (all : ∀ item ∈ items, plain item = true) :
    weighty plain items = [] := by
  refine List.filter_eq_nil_iff.mpr (fun item member => ?_)
  simp [all item member]

theorem weighty_cons_of_plain {item : α} (isPlain : plain item = true) (items : List α) :
    weighty plain (item :: items) = weighty plain items :=
  List.filter_cons_of_neg (by simp [isPlain])

theorem weighty_cons {item : α} (notPlain : plain item = false) (items : List α) :
    weighty plain (item :: items) = item :: weighty plain items :=
  List.filter_cons_of_pos (by simp [notPlain])

theorem plain_of_weighty_eq_nil {items : List α} (none : weighty plain items = [])
    {item : α} (member : item ∈ items) : plain item = true := by
  have dropped := List.filter_eq_nil_iff.mp none item member
  simpa using dropped

theorem weighty_eraseIdx {items : List α} {index : Nat} (none : weighty plain items = []) :
    weighty plain (items.eraseIdx index) = [] :=
  weighty_eq_nil (fun _ member =>
    plain_of_weighty_eq_nil none (List.mem_of_mem_eraseIdx member))

end Weighty

variable {frame : Received prim Body} {n : Node prim} {outputs : List (Output prim Body)}
  {posts : List (Sent prim Body)} {payload : Payload prim Body} {E : Endpoint prim Body}
  {seed : Bytes}

theorem plainFrame_carry {sender receiver : ParticipantID} {sent : Sent prim Body}
    (plain : plainSent sent = true) (carried : carry sender sent receiver = some frame) :
    plainFrame frame = true := by
  cases sent with
  | direct toID payload =>
      simp only [carry] at carried
      split at carried
      · cases carried
        exact plain
      · cases carried
  | broadcast payload =>
      simp only [carry] at carried
      split at carried
      · cases carried
      · cases carried
        exact plain
  | claimHost => cases carried

theorem weighty_carry_of_plain (sender receiver : ParticipantID)
    (plain : ∀ sent ∈ posts, plainSent sent = true) :
    weighty plainFrame (posts.filterMap (fun posted => carry sender posted receiver)) = [] := by
  refine weighty_eq_nil (fun frame member => ?_)
  obtain ⟨sent, present, carried⟩ := List.mem_filterMap.mp member
  exact plainFrame_carry (plain sent present) carried

theorem weighty_carry_direct (sender toID receiver : ParticipantID)
    (weighs : plainPayload payload = false) :
    weighty plainFrame ([Sent.direct toID payload].filterMap
        (fun posted => carry sender posted receiver)) =
      if toID = receiver then [.direct sender payload] else [] := by
  by_cases here : toID = receiver
  · simp [carry, here, weighty, plainFrame, weighs]
  · simp [carry, here, weighty]

def core (c : Client) : Client :=
  { c with seqs := ∅ }

theorem sealEnvelope_plain (c : Client) (serviceID : String) (body : Body) (nonce : Option Nonce) :
    core (@Client.sealEnvelope prim Body c serviceID body nonce).1 = core c ∧
      ∀ payload, (@Client.sealEnvelope prim Body c serviceID body nonce).2 = some payload →
        plainPayload payload = true := by
  unfold Client.sealEnvelope
  split
  · exact ⟨rfl, fun payload made => by cases made⟩
  · refine ⟨rfl, fun payload made => ?_⟩
    obtain ⟨drawn, _, rfl⟩ := Option.map_eq_some_iff.mp made
    rfl

variable (prim) in
/-- An end without the plain part of what it has to do and without its send
sequences. -/
structure View where
  client : Client
  reader : Reader prim
  calls : List (Sent prim Body)
  events : List (Event Body)
  todo : List (Task prim)
  phase : Phase
  /-- The host id that ctl was attached with. -/
  attached : ParticipantID
  policy : SuccessorPolicy

def view (n : Node prim) : View prim :=
  { client := core n.endpoint.client
    reader := n.endpoint.reader
    calls := weighty plainSent n.endpoint.calls
    events := weighty plainEvent n.events
    todo := weighty plainTask n.todo
    phase := n.phase
    attached := n.mux.ctl.ctx.hostID
    policy := n.mux.successor }

def line (w : World prim) (sender receiver : ParticipantID) : List (Received prim Body) :=
  weighty plainFrame (w.stream sender receiver)

/-- A step that changes nothing of the view and writes plain frames only. -/
structure Plain (n n' : Node prim) (posts : List (Sent prim Body)) : Prop where
  view : view n' = view n
  posts : ∀ sent ∈ posts, plainSent sent = true

theorem weighty_sealing (outs : List Outgoing) (pruned : List ParticipantID) :
    weighty plainTask (outs.map (fun out => (.sealing out pruned : Task prim))) = [] := by
  refine weighty_eq_nil (fun task member => ?_)
  obtain ⟨out, _, rfl⟩ := List.mem_map.mp member
  rfl

theorem handleCtl_successor (m : Mux) (fromID : ParticipantID) (msg : CtlMsg)
    (pruned : List ParticipantID) :
    (m.handleCtl prim fromID msg pruned).1.successor = m.successor := by
  cases msg with
  | announce a =>
      simp only [Mux.handleCtl]
      split <;> rfl
  | snapshot blobs =>
      simp only [Mux.handleCtl]
      split <;> rfl
  | identity name endpoint => rfl
  | snapshotReq => rfl
  | other => rfl

theorem handleFrame_plain (m : Mux) (fromID : ParticipantID) (env : Envelope Body) :
    weighty plainTask (m.handleFrame prim fromID env).2 = [] ∧
      (m.handleFrame prim fromID env).1.ctl.ctx = m.ctl.ctx ∧
      (m.handleFrame prim fromID env).1.successor = m.successor := by
  unfold Mux.handleFrame
  split
  · exact ⟨rfl, rfl, rfl⟩
  · have watched : ∀ event : MuxEvent, ∀ counted : Mux,
        counted = (if env.seq ≠ (m.lastSeq.lookup (fromID, env.serviceID)).getD 0 + 1 then
          m.emit event else m) → counted.ctl = m.ctl ∧ counted.successor = m.successor := by
      rintro event counted rfl
      split <;> exact ⟨rfl, rfl⟩
    obtain ⟨sameCtl, sameSuccessor⟩ := watched _ _ rfl
    cases env.body with
    | ctl msg pruned =>
        dsimp only
        obtain ⟨ctl, todo⟩ := @Mux.handleCtl_eq prim _ fromID msg pruned
        rw [todo, ctl, Ctl.ctx_handleFrame, handleCtl_successor]
        exact ⟨weighty_sealing _ _, congrArg Ctl.ctx sameCtl, sameSuccessor⟩
    | app bytes => exact ⟨rfl, congrArg Ctl.ctx sameCtl, sameSuccessor⟩

theorem event_plain {event : Event Body} {rest : List (Event Body)} (idle : n.todo = [])
    (isEvents : n.events = event :: rest) (plain : plainEvent event = true) :
    Plain n (n.event event rest) [] := by
  have events : weighty plainEvent n.events = weighty plainEvent rest := by
    rw [isEvents, weighty_cons_of_plain plain]
  have todo : weighty plainTask n.todo = [] := by rw [idle]; rfl
  refine ⟨?_, fun sent member => by cases member⟩
  cases event with
  | frame fromID env =>
      obtain ⟨sealing, ctx, successor⟩ := @handleFrame_plain prim n.mux fromID env
      simp only [view, Node.event, Mux.dispatch, events, todo, sealing, ctx, successor]
  | memberJoined id =>
      simp only [view, Node.event, Mux.dispatch, events, todo]
      rfl
  | memberKeyed id role => cases plain
  | memberLeft id => cases plain
  | closed reason => cases plain

theorem command_plain (idle : n.todo = []) (cmd : Command) :
    Plain n (n.command cmd) [] := by
  obtain ⟨ctl, todo⟩ := n.command_eq cmd
  have quiet : weighty plainTask (n.command cmd).todo = weighty plainTask n.todo := by
    rw [todo, weighty_sealing, idle]
    rfl
  have ctx : (n.command cmd).mux.ctl.ctx = n.mux.ctl.ctx := by rw [ctl, Ctl.ctx_execute]
  refine ⟨?_, fun sent member => by cases member⟩
  simp only [view, quiet, ctx]
  rfl

theorem weighty_sealed (c : Client) (serviceID : String) (body : Body) (nonce : Option Nonce)
    {toSent : Payload prim Body → Sent prim Body}
    (keeps : ∀ payload, plainSent (toSent payload) = plainPayload payload) :
    weighty plainSent ((c.sealEnvelope serviceID body nonce).2.map toSent).toList = [] := by
  refine weighty_eq_nil (fun sent member => ?_)
  obtain ⟨payload, isPayload, rfl⟩ := Option.map_eq_some_iff.mp (Option.mem_toList.mp member)
  rw [keeps]
  exact (sealEnvelope_plain c serviceID body nonce).2 payload isPayload

theorem task_plain {task : Task prim} {rest : List (Task prim)} (isTodo : n.todo = task :: rest)
    (plain : plainTask task = true) (outcome : TaskOutcome) :
    Plain n (n.perform task rest outcome).1 (n.perform task rest outcome).2 := by
  have todo : weighty plainTask n.todo = weighty plainTask rest := by
    rw [isTodo, weighty_cons_of_plain plain]
  cases task with
  | sealing out pruned =>
      refine ⟨?_, fun sent member => by cases member⟩
      have written : ∀ (msg : CtlMsg) (toSent : Payload prim Body → Sent prim Body),
          (∀ payload, plainSent (toSent payload) = plainPayload payload) →
          weighty plainTask (((n.endpoint.client.sealEnvelope ctlID (.ctl msg pruned)
            outcome.nonce).2.map toSent).toList.map .write ++ rest) = weighty plainTask rest := by
        intro msg toSent keeps
        rw [weighty_append, weighty_eq_nil, List.nil_append]
        intro task member
        obtain ⟨sent, made, rfl⟩ := List.mem_map.mp member
        exact plain_of_weighty_eq_nil (weighty_sealed _ ctlID _ outcome.nonce keeps) made
      have client := fun msg : CtlMsg => (@sealEnvelope_plain prim n.endpoint.client ctlID
        (.ctl msg pruned) outcome.nonce).1
      cases out with
      | broadcast msg | sendTo id msg =>
          simp only [view, Node.perform, Node.withClient, client, todo]
          rw [written msg _ (fun _ => rfl)]
  | write sent =>
      refine ⟨by simp only [view, Node.perform, todo], ?_⟩
      intro other member
      simp only [Node.perform] at member
      split at member
      · rw [List.mem_singleton.mp member]
        exact plain
      · cases member
  | promoted =>
      refine ⟨?_, fun sent member => by cases member⟩
      simp only [view, Node.perform, todo]
      rfl
  | becomeHost | rotateForMigration | promote left | setHostID id | reattach
  | rekeyWithNewHost => cases plain

/-- A step of an end that runs and has written all that is not plain. -/
inductive Moved (n : Node prim) (action : NodeAction) :
    Node prim → List (Sent prim Body) → Prop where
  | plain {n' : Node prim} {posts : List (Sent prim Body)} (same : Plain n n' posts) :
      Moved n action n' posts
  | advanced {outcome : Outcome} {E : Endpoint prim Body} {outputs : List (Output prim Body)}
      (isAdvance : action = .advance outcome)
      (advanced : n.endpoint.advance outcome = some (E, outputs)) :
      Moved n action (n.settle E outputs) (outputs.filterMap Output.written)
  | noticed {event : Event Body} {rest : List (Event Body)} (isEvent : action = .event)
      (idle : n.todo = []) (isEvents : n.events = event :: rest)
      (weighs : plainEvent event = false) : Moved n action (n.event event rest) []
  | performed {outcome : TaskOutcome} {task : Task prim} {rest : List (Task prim)}
      {n' : Node prim} {posts : List (Sent prim Body)} (isTask : action = .task outcome)
      (isTodo : n.todo = task :: rest) (weighs : plainTask task = false)
      (done : n.perform task rest outcome = (n', posts)) : Moved n action n' posts

theorem moved_of_step {n' : Node prim} {action : NodeAction} (running : n.phase = .running)
    (calls : (view n).calls = []) (stepped : n.step action = some (n', posts)) :
    Moved n action n' posts := by
  cases action with
  | advance outcome =>
      obtain ⟨⟨E, outputs⟩, advanced, same⟩ := Option.map_eq_some_iff.mp stepped
      cases same
      exact .advanced rfl advanced
  | call toID serviceID body nonce =>
      obtain ⟨_, same⟩ := Node.call_cases stepped
      cases same
      refine .plain ⟨?_, fun sent member => by cases member⟩
      have client := (@sealEnvelope_plain prim n.endpoint.client serviceID (.app body) nonce).1
      have written := fun toSent keeps =>
        @weighty_sealed prim n.endpoint.client serviceID (.app body) nonce toSent keeps
      cases toID with
      | none =>
          have posted := written .broadcast (fun _ => rfl)
          simp only [view, Endpoint.call, client, weighty_append, posted, List.append_nil]
      | some id =>
          have posted := written (.direct id) (fun _ => rfl)
          simp only [view, Endpoint.call, client, weighty_append, posted, List.append_nil]
  | write index written =>
      obtain ⟨⟨E, outputs⟩, wrote, same⟩ := Option.map_eq_some_iff.mp stepped
      cases same
      obtain ⟨sent, found, same⟩ := Option.map_eq_some_iff.mp wrote
      cases same
      have plain := plain_of_weighty_eq_nil calls (List.mem_of_getElem? found)
      have left : weighty plainSent (n.endpoint.calls.eraseIdx index) =
          weighty plainSent n.endpoint.calls := (weighty_eraseIdx calls).trans calls.symm
      refine .plain ⟨?_, ?_⟩
      · cases written <;> simp [view, Node.settle, left]
      · intro other member
        cases written with
        | false => cases member
        | true =>
            rw [List.mem_singleton.mp member]
            exact plain
  | start =>
      obtain ⟨fresh, _⟩ := Node.start_cases stepped
      rw [running] at fresh
      cases fresh
  | event =>
      obtain ⟨_, idle, event, rest, isEvents, same⟩ := Node.event_cases stepped
      cases same
      cases plain : plainEvent event with
      | true => exact .plain (event_plain idle isEvents plain)
      | false => exact .noticed rfl idle isEvents plain
  | command cmd =>
      obtain ⟨_, idle, same⟩ := Node.command_cases stepped
      cases same
      exact .plain (command_plain idle cmd)
  | task outcome =>
      obtain ⟨task, rest, isTodo, same⟩ := Node.task_cases stepped
      cases plain : plainTask task with
      | true =>
          have unchanged := task_plain isTodo plain outcome
          rw [← same] at unchanged
          exact .plain unchanged
      | false => exact .performed rfl isTodo plain same.symm

theorem events_settle_emitted (n : Node prim) (E : Endpoint prim Body)
    (events : List (Event Body)) :
    (n.settle E (events.map .emitted)).events = n.events ++ events := by
  simp only [Node.settle, List.filterMap_map]
  exact congrArg (n.events ++ ·) (List.filterMap_some (l := events))

theorem view_of_receive (idle : n.endpoint.reader = .idle)
    (received : n.endpoint.receive frame seed = some (E, outputs)) :
    view (n.settle E outputs) =
      { view n with
        client := core (n.endpoint.client.dispatchFrame frame seed).1
        reader := (n.endpoint.client.dispatchFrame frame seed).2.1
        events := (view n).events ++
          weighty plainEvent (n.endpoint.client.dispatchFrame frame seed).2.2 } := by
  obtain ⟨client, reader, calls, rfl⟩ := Endpoint.receive_idle idle received
  have events := events_settle_emitted n E (n.endpoint.client.dispatchFrame frame seed).2.2
  simp only [view, events, weighty_append]
  simp only [Node.settle, client, reader, calls]

theorem handlePayload_plain (c : Client) (fromID : ParticipantID)
    (plain : plainPayload payload = true) (seed : Bytes) :
    (c.handlePayload fromID payload seed).1 = .idle ∧
      weighty plainEvent (c.handlePayload fromID payload seed).2 = [] := by
  cases payload with
  | «sealed» sf =>
      simp only [Client.handlePayload]
      split <;> exact ⟨rfl, rfl⟩
  | _ => cases plain

theorem dispatchFrame_plain (c : Client) (plain : plainFrame frame = true) (seed : Bytes) :
    (c.dispatchFrame frame seed).1 = c ∧ (c.dispatchFrame frame seed).2.1 = .idle ∧
      weighty plainEvent (c.dispatchFrame frame seed).2.2 = [] := by
  cases frame with
  | direct fromID payload | broadcast fromID payload =>
      exact ⟨rfl, handlePayload_plain c fromID plain seed⟩
  | participantJoined id => exact ⟨rfl, rfl, rfl⟩
  | other => exact ⟨rfl, rfl, rfl⟩
  | participantLeft id => cases plain
  | sessionClosed reason => cases plain

theorem view_of_plainFrame
    (idle : n.endpoint.reader = .idle)
    (received : n.endpoint.receive frame seed = some (E, outputs))
    (plain : plainFrame frame = true) : view (n.settle E outputs) = view n := by
  obtain ⟨client, reader, events⟩ := dispatchFrame_plain n.endpoint.client plain seed
  rw [view_of_receive idle received, client, reader, events, List.append_nil]
  simp only [view, idle]

end Parley.Service.Migration
