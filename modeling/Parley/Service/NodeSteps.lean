/-
What one node keeps to, step by step.

`NodeOk` collects what holds of a node relative to the growing facts, and
`Evolves` what a step may change: events are appended or the first one is taken,
a handshake is never taken up by the mux goroutine, and a participant counts as
removed from the roster copy only after its departure was handled, by a promotion
under way, or at an end that is not a host.
-/

import Parley.Service.Lineage

namespace Parley.Service

open Crypto Library Session
open Wire (Bytes ParticipantID SessionID)

variable {prim : Primitives}

def KeyedFirst (earlier later : Event Body) : Prop :=
  ∀ id role, earlier = .memberLeft id → later ≠ .memberKeyed id role

structure NodeOk (f : Facts) (x : ParticipantID) (n : Node prim) : Prop where
  endpoint : EndpointOk f x n.endpoint
  events : ∀ event ∈ n.events, EventOk f x event
  keyed : ∀ id role, .memberKeyed id role ∈ n.events → n.endpoint.client.role = roleHost
  fresh : n.phase = .fresh → n.todo = []
  returned : n.phase ≠ .fresh → Reader.inLoop n.endpoint.reader = true
  ctxHost : n.phase ≠ .fresh → n.endpoint.client.role = roleHost →
    (∃ left, .promote left ∈ n.todo) ∨ n.mux.ctl.ctx.hostID = x
  todo : TodoOk f x (n.endpoint.client.role = roleHost) n.todo
  ctl : CtlOk f n.mux.ctl

def Node.HandledLeave (n n' : Node prim) (id : ParticipantID) : Prop :=
  n.events = .memberLeft id :: n'.events

structure Evolves (n n' : Node prim) : Prop where
  role : n.endpoint.client.role = roleHost → n'.endpoint.client.role = roleHost
  handles : ∀ id, Reader.handles n'.endpoint.reader id = true →
    Reader.handles n.endpoint.reader id = true
  events : (∃ event, n.events = event :: n'.events) ∨
    ∃ added, n'.events = n.events ++ added ∧ ∀ event ∈ added, ∃ id role,
      event = .memberKeyed id role ∧ Reader.handles n.endpoint.reader id = true
  promote : ∀ id, .promote id ∈ n'.todo → .promote id ∈ n.todo ∨ n.HandledLeave n' id
  pruned : ∀ id ∈ n'.mux.ctl.pruned, id ∈ n.mux.ctl.pruned ∨ .promote id ∈ n.todo ∨
    n.HandledLeave n' id ∨ n.endpoint.client.role ≠ roleHost

section

variable {f : Facts} {x : ParticipantID} {n n' : Node prim}

theorem NodeOk.mono {f' : Facts} (grow : f.Grow f') (ok : NodeOk f x n) : NodeOk f' x n :=
  { ok with
    endpoint := ok.endpoint.mono grow
    events := fun event member => (ok.events event member).mono grow
    todo := ok.todo.mono grow
    ctl := ok.ctl.mono grow }

variable {E : Endpoint prim Body} {outputs : List (Output prim Body)}

theorem NodeOk.of_new {successor : SuccessorPolicy} (endpoint : EndpointOk f x E) :
    NodeOk f x (Node.fresh E successor) :=
  { endpoint := endpoint
    events := List.forall_mem_nil _
    keyed := fun _ _ absent => absurd absent List.not_mem_nil
    fresh := fun _ => rfl
    returned := fun started => absurd rfl started
    ctxHost := fun started => absurd rfl started
    todo := trivial
    ctl := List.forall_mem_nil _ }

theorem Evolves.of_same (role : n.endpoint.client.role = roleHost →
      n'.endpoint.client.role = roleHost)
    (sameReader : n'.endpoint.reader = n.endpoint.reader) (sameEvents : n'.events = n.events)
    (samePruned : n'.mux.ctl.pruned = n.mux.ctl.pruned)
    (promote : ∀ id, .promote id ∈ n'.todo → .promote id ∈ n.todo) : Evolves n n' :=
  { role := role
    handles := fun id handled => sameReader ▸ handled
    events := Or.inr ⟨[], by rw [sameEvents, List.append_nil],
      List.forall_mem_nil _⟩
    promote := fun id member => Or.inl (promote id member)
    pruned := fun id member => Or.inl (samePruned ▸ member) }

theorem mem_events_settle {event : Event Body} (member : event ∈ (n.settle E outputs).events) :
    event ∈ n.events ∨ .emitted event ∈ outputs := by
  rcases List.mem_append.mp member with old | new
  · exact Or.inl old
  · obtain ⟨output, present, same⟩ := List.mem_filterMap.mp new
    cases output with
    | wrote sent => cases same
    | emitted other =>
        cases same
        exact Or.inr present

theorem NodeOk.settles (ok : NodeOk f x n) (proceeds : Proceeds f x n.endpoint E outputs) :
    NodeOk f x (n.settle E outputs) ∧ Evolves n (n.settle E outputs) := by
  constructor
  · exact
      { ok with
        endpoint := proceeds.ok
        events := fun event member => by
          rcases mem_events_settle member with old | new
          · exact ok.events event old
          · obtain ⟨id, role, rfl, _⟩ := proceeds.emits event new
            trivial
        keyed := fun id role member => by
          rcases mem_events_settle member with old | new
          · exact proceeds.sameRole.trans (ok.keyed id role old)
          · obtain ⟨_, _, _, _, isHost⟩ := proceeds.emits _ new
            exact proceeds.sameRole.trans isHost
        returned := fun running => proceeds.inLoop (ok.returned running)
        ctxHost := fun running isHost => ok.ctxHost running (proceeds.sameRole.symm.trans isHost)
        todo := ok.todo.congr (by rw [Node.settle, proceeds.sameRole]) }
  · refine
      { role := fun isHost => proceeds.sameRole.trans isHost
        handles := proceeds.handles
        events := Or.inr ⟨_, rfl, fun event member => ?_⟩
        promote := fun id member => Or.inl member
        pruned := fun id member => Or.inl member }
    obtain ⟨output, present, same⟩ := List.mem_filterMap.mp member
    cases output with
    | wrote sent => cases same
    | emitted other =>
        cases same
        obtain ⟨id, role, isKeyed, handles, _⟩ := proceeds.emits event present
        exact ⟨id, role, isKeyed, handles⟩

theorem NodeOk.takes {sender : ParticipantID} {frame : Received prim Body} (ok : NodeOk f x n)
    (takes : Takes f x sender frame n.endpoint E outputs) : NodeOk f x (n.settle E outputs) :=
  { ok with
    endpoint := takes.ok
    events := fun event member => by
      rcases mem_events_settle member with old | new
      · exact ok.events event old
      · exact (takes.emits event new).1
    keyed := fun id role member => by
      rcases mem_events_settle member with old | new
      · exact takes.role.mpr (ok.keyed id role old)
      · exact absurd rfl ((takes.emits _ new).2.1 id role)
    returned := fun running => takes.inLoop (ok.returned running)
    ctxHost := fun running isHost => ok.ctxHost running (takes.role.mp isHost)
    todo := ok.todo.congr takes.role.symm }

theorem NodeOk.withClient (ok : NodeOk f x n) (running : n.phase ≠ .fresh) {c : Client}
    {todo : List (Task prim)} (self : c.self = n.endpoint.client.self)
    (role : n.endpoint.client.role = roleHost → c.role = roleHost)
    (hostSelf : c.role = roleHost → c.hostID = x)
    (ctxHost : c.role = roleHost →
      (∃ left, .promote left ∈ todo) ∨ n.mux.ctl.ctx.hostID = x)
    (todoOk : TodoOk f x (c.role = roleHost) todo) : NodeOk f x (n.withClient c todo) :=
  { endpoint :=
      { self := self.trans ok.endpoint.self
        hostSelf := hostSelf
        reader := ok.endpoint.reader.of_inLoop (ok.returned running) role
        calls := ok.endpoint.calls }
    events := ok.events
    keyed := fun id assigned member => role (ok.keyed id assigned member)
    fresh := fun isFresh => absurd isFresh running
    returned := ok.returned
    ctxHost := fun _ => ctxHost
    todo := todoOk
    ctl := ok.ctl }

theorem NodeOk.running (ok : NodeOk f x n) {task : Task prim} {rest : List (Task prim)}
    (isTodo : n.todo = task :: rest) : n.phase ≠ .fresh := by
  intro isFresh
  rw [ok.fresh isFresh] at isTodo
  cases isTodo

theorem NodeOk.withClient_of_same (ok : NodeOk f x n) {task : Task prim}
    {rest added : List (Task prim)} (isTodo : n.todo = task :: rest)
    (other : task ≠ .becomeHost) (notPromote : ∀ left, task ≠ .promote left) {c : Client}
    (self : c.self = n.endpoint.client.self) (hostID : c.hostID = n.endpoint.client.hostID)
    (role : c.role = n.endpoint.client.role)
    (addedOk : TodoOk f x (n.endpoint.client.role = roleHost) rest →
      TodoOk f x (n.endpoint.client.role = roleHost) (added ++ rest)) :
    NodeOk f x (n.withClient c (added ++ rest)) := by
  have running := ok.running isTodo
  have todo := ok.todo
  rw [isTodo] at todo
  refine ok.withClient running self (fun isHost => role.trans isHost)
    (fun isHost => hostID.trans (ok.endpoint.hostSelf (role.symm.trans isHost)))
    (fun isHost => ?_) ?_
  · refine (ok.ctxHost running (role.symm.trans isHost)).imp_left ?_
    rintro ⟨left, member⟩
    rw [isTodo] at member
    have later := (List.mem_cons.mp member).resolve_left (Ne.symm (notPromote left))
    exact ⟨left, List.mem_append_right added later⟩
  · rw [role]
    exact addedOk (todo.rest other)

theorem TaskOk.writes {out : Outgoing} {pruned : List ParticipantID}
    (ok : OutgoingOk f pruned out) {c : Client} {nonce : Option Nonce} {toID : Option ParticipantID}
    {msg : CtlMsg} (isOut : out = (match toID with
      | none => .broadcast msg
      | some id => .sendTo id msg)) {frame : Sent prim Body}
    (made : (c.sealEnvelope ctlID (.ctl msg pruned) nonce).2.map (fun payload =>
      match toID with
      | none => Sent.broadcast payload
      | some id => Sent.direct id payload) = some frame) : SentOk f x frame := by
  obtain ⟨payload, isPayload, rfl⟩ := Option.map_eq_some_iff.mp made
  subst isOut
  cases toID with
  | none =>
      obtain ⟨sf, rfl, sealedAs⟩ := sealEnvelope_sealedAs (BodyOk f.gone) isPayload ok
      exact sealedAs
  | some id =>
      obtain ⟨sf, rfl, sealedAs⟩ :=
        sealEnvelope_sealedAs (fun body => body.isAnnounce = false) isPayload ok
      exact sealedAs

theorem TodoOk.write_cons {isHost : Prop} {rest : List (Task prim)} {frame : Option (Sent prim Body)}
    (frameOk : ∀ sent, frame = some sent → SentOk f x sent) (restOk : TodoOk f x isHost rest) :
    TodoOk f x isHost (frame.toList.map Task.write ++ rest) := by
  cases frame with
  | none => exact restOk
  | some sent => exact TodoOk.cons (frameOk sent rfl) (by simp) restOk

structure NodeStep (f : Facts) (x : ParticipantID) (n : Node prim)
    (result : Node prim × List (Sent prim Body)) : Prop where
  ok : NodeOk f x result.1
  posts : ∀ sent ∈ result.2, SentOk f x sent
  evolves : Evolves n result.1

theorem NodeStep.of_silent (ok : NodeOk f x n') (evolves : Evolves n n') :
    NodeStep f x n (n', []) :=
  { ok := ok
    posts := List.forall_mem_nil _
    evolves := evolves }

section

variable {task : Task prim} {rest : List (Task prim)}

theorem promote_mem_of_rest (isTodo : n.todo = task :: rest) {id : ParticipantID}
    (member : .promote id ∈ rest) : .promote id ∈ n.todo := by
  rw [isTodo]
  exact List.mem_cons_of_mem task member

theorem NodeOk.passes (ok : NodeOk f x n) (isTodo : n.todo = task :: rest)
    (other : task ≠ .becomeHost) (notPromote : ∀ left, task ≠ .promote left) {mux : Mux}
    (sameCtl : mux.ctl = n.mux.ctl) :
    NodeOk f x { n with mux := mux, todo := rest } ∧
      Evolves n { n with mux := mux, todo := rest } := by
  have kept : NodeOk f x (n.withClient n.endpoint.client ([] ++ rest)) :=
    ok.withClient_of_same isTodo other notPromote rfl rfl rfl id
  refine ⟨?_, Evolves.of_same id rfl rfl (congrArg Ctl.pruned sameCtl)
    (fun id => promote_mem_of_rest isTodo)⟩
  exact
    { kept with
      ctxHost := by
        rw [sameCtl]
        exact kept.ctxHost
      ctl := by
        rw [sameCtl]
        exact kept.ctl }

theorem NodeOk.seals {out : Outgoing} {pruned : List ParticipantID} (ok : NodeOk f x n)
    (isTodo : n.todo = .sealing out pruned :: rest) (outcome : TaskOutcome) :
    NodeStep f x n (n.perform (.sealing out pruned) rest outcome) := by
  have todo := ok.todo
  rw [isTodo] at todo
  obtain ⟨toID, msg, isOut⟩ : ∃ (toID : Option ParticipantID) (msg : CtlMsg), out =
      (match toID with
      | none => .broadcast msg
      | some id => .sendTo id msg) := by
    cases out with
    | broadcast msg => exact ⟨none, msg, rfl⟩
    | sendTo id msg => exact ⟨some id, msg, rfl⟩
  obtain ⟨seqs, same⟩ :=
    @Client.sealEnvelope_fields prim Body n.endpoint.client ctlID (.ctl msg pruned) outcome.nonce
  have frameOk := fun sent made => @TaskOk.writes prim f x out pruned todo.1
    n.endpoint.client outcome.nonce toID msg isOut sent made
  have result : n.perform (.sealing out pruned) rest outcome =
      (n.withClient { n.endpoint.client with seqs := seqs }
        ((((n.endpoint.client.sealEnvelope ctlID (.ctl msg pruned) outcome.nonce).2.map
          (fun payload => match toID with
            | none => Sent.broadcast payload
            | some id => Sent.direct id payload)).toList.map .write) ++ rest), []) := by
    subst isOut
    rw [← same]
    cases toID <;> rfl
  rw [result]
  refine NodeStep.of_silent (ok.withClient_of_same isTodo (by simp) (by simp) rfl rfl rfl
    (TodoOk.write_cons frameOk)) (Evolves.of_same id rfl rfl rfl ?_)
  intro id member
  rcases List.mem_append.mp member with new | old
  · simp at new
  · exact promote_mem_of_rest isTodo old

theorem NodeOk.promotes {left : ParticipantID} (ok : NodeOk f x n) (present : ¬f.gone x)
    (hosting : n.endpoint.client.role = roleHost → f.hosts x)
    (isTodo : n.todo = .promote left :: rest) (outcome : TaskOutcome) :
    NodeStep f x n (n.perform (.promote left) rest outcome) := by
  have todo := ok.todo
  rw [isTodo] at todo
  obtain ⟨isHost, gone⟩ := todo.1
  have self : (Client.context n.endpoint.client).self = x := ok.endpoint.self
  have there : ¬f.gone (Client.context n.endpoint.client).self := self ▸ present
  have handler := (ok.ctl.attach there).assumeHost ctlServices gone there
  have claims : TodoOk f x (n.endpoint.client.role = roleHost)
      (.write .claimHost :: .promoted :: rest) :=
    TodoOk.cons (hosting isHost) (by simp) (TodoOk.cons trivial (by simp) (todo.rest (by simp)))
  refine NodeStep.of_silent ?_ ?_
  · exact
      { ok with
        fresh := fun isFresh => absurd isFresh (ok.running isTodo)
        ctxHost := fun _ _ => Or.inr (ok.endpoint.hostSelf isHost)
        todo := TodoOk.sending handler n.mux claims
        ctl := handler.ctl }
  · refine
      { role := id
        handles := fun _ handled => handled
        events := Or.inr ⟨[], (List.append_nil _).symm,
          List.forall_mem_nil _⟩
        promote := fun id member => Or.inl ?_
        pruned := fun id member => ?_ }
    · rcases List.mem_append.mp member with sent | later
      · exact absurd sent (promote_notMem_sending n.mux _ id)
      · have old : .promote id ∈ rest := by simpa using later
        exact promote_mem_of_rest isTodo old
    · rcases List.mem_cons.mp member with rfl | old
      · rw [isTodo]
        exact Or.inr (Or.inl List.mem_cons_self)
      · exact Or.inl old

theorem NodeOk.reattaches (ok : NodeOk f x n) (present : ¬f.gone x)
    (isTodo : n.todo = .reattach :: rest) (outcome : TaskOutcome) :
    NodeStep f x n (n.perform .reattach rest outcome) := by
  have todo := ok.todo
  rw [isTodo] at todo
  have self : (Client.context n.endpoint.client).self = x := ok.endpoint.self
  refine NodeStep.of_silent ?_ (Evolves.of_same id rfl rfl rfl
    (fun id => promote_mem_of_rest isTodo))
  exact
    { ok with
      fresh := fun isFresh => absurd isFresh (ok.running isTodo)
      ctxHost := fun _ isHost => Or.inr (ok.endpoint.hostSelf isHost)
      todo := todo.rest (by simp)
      ctl := ok.ctl.attach (self ▸ present) }

theorem rotateForMigration_fields (c : Client) (fresh : Option Key) :
    ∃ key prevKeys pairwise, c.rotateForMigration fresh =
      { c with
        groupKey := key
        prevKeys := prevKeys
        pairwise := pairwise } := by
  unfold Client.rotateForMigration
  split
  · exact ⟨_, _, _, rfl⟩
  · split <;> exact ⟨_, _, _, rfl⟩

theorem NodeOk.performs (ok : NodeOk f x n) (present : ¬f.gone x)
    (hosting : n.endpoint.client.role = roleHost → f.hosts x) (isTodo : n.todo = task :: rest)
    (outcome : TaskOutcome) : NodeStep f x n (n.perform task rest outcome) := by
  have todo := ok.todo
  rw [isTodo] at todo
  have later : ∀ id, .promote id ∈ rest → .promote id ∈ n.todo :=
    fun id => promote_mem_of_rest isTodo
  cases task with
  | sealing out pruned => exact ok.seals isTodo outcome
  | write sent =>
      obtain ⟨kept, evolves⟩ :=
        ok.passes isTodo (by simp) (by simp) (show n.mux.ctl = n.mux.ctl from rfl)
      refine
        { ok := kept
          posts := fun other member => ?_
          evolves := evolves }
      simp only [Node.perform] at member
      split at member
      · exact List.mem_singleton.mp member ▸ todo.1
      · cases member
  | becomeHost =>
      obtain ⟨left, follows⟩ := todo.2.1 rfl
      refine NodeStep.of_silent ?_ (Evolves.of_same (fun _ => rfl) rfl rfl rfl later)
      exact ok.withClient (ok.running isTodo) rfl (fun _ => rfl) (fun _ => ok.endpoint.self)
        (fun _ => Or.inl ⟨left, follows⟩) (todo.2.2.congr (iff_of_true (Or.inr rfl) rfl))
  | rotateForMigration =>
      obtain ⟨key, prevKeys, pairwise, same⟩ :=
        rotateForMigration_fields n.endpoint.client outcome.key
      have kept : NodeOk f x (n.withClient (n.endpoint.client.rotateForMigration outcome.key)
          ([] ++ rest)) := by
        rw [same]
        exact ok.withClient_of_same isTodo (by simp) (by simp) rfl rfl rfl id
      refine NodeStep.of_silent kept (Evolves.of_same (fun isHost => ?_) rfl rfl rfl later)
      simp only [Node.withClient, same]
      exact isHost
  | promote left => exact ok.promotes present hosting isTodo outcome
  | promoted =>
      obtain ⟨kept, evolves⟩ := ok.passes isTodo (by simp) (by simp)
        (show (n.mux.emit (.promoted n.endpoint.client.self)).ctl = n.mux.ctl from rfl)
      exact NodeStep.of_silent kept evolves
  | setHostID id =>
      have notHost : n.endpoint.client.role ≠ roleHost := todo.1
      refine NodeStep.of_silent ?_ (Evolves.of_same (fun isHost => isHost) rfl rfl rfl later)
      exact ok.withClient (ok.running isTodo) rfl (fun isHost => isHost)
        (fun isHost => absurd isHost notHost) (fun isHost => absurd isHost notHost)
        (todo.rest (by simp))
  | reattach => exact ok.reattaches present isTodo outcome
  | rekeyWithNewHost =>
      simp only [Node.perform]
      split
      · obtain ⟨kept, evolves⟩ :=
          ok.passes isTodo (by simp) (by simp) (show n.mux.ctl = n.mux.ctl from rfl)
        exact NodeStep.of_silent kept evolves
      · rename_i c sent greets
        unfold Client.rekeyWithNewHost at greets
        split at greets
        · cases greets
        · cases greets
          refine NodeStep.of_silent ?_ (Evolves.of_same id rfl rfl rfl (fun id member => ?_))
          · refine @NodeOk.withClient_of_same prim f x n ok _ rest [.write _] isTodo (by simp)
              (by simp) _ rfl rfl rfl ?_
            exact fun restOk => TodoOk.cons trivial (by simp) restOk
          · have old : .promote id ∈ rest := by simpa [Node.withClient] using member
            exact later id old

end

/-! ### The mux goroutine -/

theorem NodeOk.starts (ok : NodeOk f x n) (present : ¬f.gone x)
    (inLoop : Reader.inLoop n.endpoint.reader = true) : NodeStep f x n (n.start, []) := by
  have self : (Client.context n.endpoint.client).self = x := ok.endpoint.self
  have asks : TodoOk f x (n.endpoint.client.role = roleHost) n.start.todo ∧
      ∀ id, .promote id ∉ n.start.todo := by
    simp only [Node.start]
    split
    · exact ⟨trivial, by simp⟩
    · exact ⟨TodoOk.cons rfl (by simp) trivial, by simp⟩
  refine NodeStep.of_silent ?_ (Evolves.of_same id rfl rfl rfl
    (fun id member => absurd member (asks.2 id)))
  exact
    { ok with
      fresh := fun isFresh => by cases isFresh
      returned := fun _ => inLoop
      ctxHost := fun _ isHost => Or.inr (ok.endpoint.hostSelf isHost)
      todo := asks.1
      ctl := ok.ctl.attach (self ▸ present) }

theorem NodeOk.commands (ok : NodeOk f x n) (running : n.phase = .running) (idle : n.todo = [])
    (cmd : Command) : NodeStep f x n (n.command cmd, []) := by
  have handler : ∀ result : Ctl × List Outgoing, HandlerOk f n.mux.ctl result →
      result.1.pruned = n.mux.ctl.pruned →
      NodeStep f x n
        ({ n with
            mux := (n.mux.sending prim result).1
            todo := (n.mux.sending prim result).2 }, []) := by
    intro result handlerOk samePruned
    refine NodeStep.of_silent ?_ (Evolves.of_same id rfl rfl samePruned
      (fun id member => absurd member (promote_notMem_sending n.mux result id)))
    exact
      { ok with
        fresh := fun isFresh => by cases running.symm.trans isFresh
        ctxHost := fun begun isHost => by
          refine Or.inr ((congrArg Context.hostID handlerOk.sameCtx).trans ?_)
          refine (ok.ctxHost begun isHost).resolve_left ?_
          rw [idle]
          simp
        todo := by
          have todo : TodoOk f x (n.endpoint.client.role = roleHost)
              ((n.mux.sending prim result).2 ++ []) := TodoOk.sending handlerOk n.mux trivial
          rwa [List.append_nil] at todo
        ctl := handlerOk.ctl }
  cases cmd with
  | setName name => exact handler _ (ok.ctl.setName ctlServices name) (pruned_setName _ _ _)
  | setEndpoint endpoint =>
      exact handler _ (ok.ctl.setEndpoint ctlServices endpoint) (pruned_setEndpoint _ _ _)
  | setPushKey key => exact handler _ (ok.ctl.setPushKey ctlServices key) (pruned_setPushKey _ _ _)

theorem NodeOk.handles (ok : NodeOk f x n) (present : ¬f.gone x) (running : n.phase = .running)
    (idle : n.todo = []) {event : Event Body} {rest : List (Event Body)}
    (isEvents : n.events = event :: rest)
    (unpruned : ∀ id role, event = .memberKeyed id role → id ∉ n.mux.ctl.pruned) :
    NodeStep f x n (n.event event rest, []) := by
  have begun : n.phase ≠ .fresh := fun isFresh => by cases running.symm.trans isFresh
  have ownHost : n.endpoint.client.role = roleHost → n.mux.ctl.ctx.hostID = x := by
    intro isHost
    refine (ok.ctxHost begun isHost).resolve_left ?_
    rw [idle]
    simp
  have eventOk : EventOk f x event := ok.events event (by rw [isEvents]; exact List.mem_cons_self)
  have handled : Handles f x (n.endpoint.client.role = roleHost) n.mux event
      (n.mux.dispatch prim n.endpoint.client event) :=
    Handles.dispatch ok.ctl present ok.endpoint.hostSelf ownHost eventOk unpruned
  have isRest : ∀ other ∈ rest, other ∈ n.events := by
    intro other member
    rw [isEvents]
    exact List.mem_cons_of_mem event member
  have stays : (n.event event rest).phase ≠ .fresh := by
    simp only [Node.event]
    split
    · exact fun isFresh => by cases isFresh
    · exact begun
  refine NodeStep.of_silent ?_ ?_
  · exact
      { handled with
        endpoint := ok.endpoint
        events := fun other member => ok.events other (isRest other member)
        keyed := fun id role member => ok.keyed id role (isRest _ member)
        fresh := fun isFresh => absurd isFresh stays
        returned := fun _ => ok.returned begun
        ctxHost := fun _ isHost =>
          Or.inr ((congrArg Context.hostID handled.sameCtx).trans (ownHost isHost)) }
  · refine
      { role := id
        handles := fun _ handles => handles
        events := Or.inl ⟨event, isEvents⟩
        promote := fun id member => Or.inr ?_
        pruned := fun id member => ?_ }
    · have isLeave := handled.promote id member
      subst isLeave
      exact isEvents
    · rcases handled.pruned id member with old | isLeave | notHost
      · exact Or.inl old
      · subst isLeave
        exact Or.inr (Or.inr (Or.inl isEvents))
      · exact Or.inr (Or.inr (Or.inr notHost))

theorem NodeOk.steps (ok : NodeOk f x n) (present : ¬f.gone x)
    (hosting : n.endpoint.client.role = roleHost → f.hosts x)
    (unpruned : ∀ id role, .memberKeyed id role ∈ n.events → id ∉ n.mux.ctl.pruned)
    {action : NodeAction} {posts : List (Sent prim Body)}
    (stepped : n.step action = some (n', posts)) : NodeStep f x n (n', posts) := by
  cases action with
  | advance outcome =>
      obtain ⟨⟨E, outputs⟩, advanced, same⟩ := Option.map_eq_some_iff.mp stepped
      have proceeds := ok.endpoint.advance advanced
      cases same
      exact
        { ok := (ok.settles proceeds).1
          posts := proceeds.posts
          evolves := (ok.settles proceeds).2 }
  | call toID serviceID body nonce =>
      obtain ⟨_, same⟩ := Node.call_cases stepped
      have settled := ok.settles (ok.endpoint.call toID serviceID body nonce)
      simp only [Node.settle, List.filterMap_nil, List.append_nil] at settled
      rw [same]
      exact NodeStep.of_silent settled.1 settled.2
  | write index written =>
      obtain ⟨⟨E, outputs⟩, wrote, same⟩ := Option.map_eq_some_iff.mp stepped
      have proceeds := ok.endpoint.write wrote
      cases same
      exact
        { ok := (ok.settles proceeds).1
          posts := proceeds.posts
          evolves := (ok.settles proceeds).2 }
  | start =>
      obtain ⟨_, inLoop, same⟩ := Node.start_cases stepped
      rw [same]
      exact ok.starts present inLoop
  | event =>
      obtain ⟨running, idle, event, rest, isEvents, same⟩ := Node.event_cases stepped
      rw [same]
      refine ok.handles present running idle isEvents (fun id role isKeyed => ?_)
      refine unpruned id role ?_
      rw [isEvents, isKeyed]
      exact List.mem_cons_self
  | command cmd =>
      obtain ⟨running, idle, same⟩ := Node.command_cases stepped
      rw [same]
      exact ok.commands running idle cmd
  | task outcome =>
      obtain ⟨task, rest, isTodo, same⟩ := Node.task_cases stepped
      rw [same]
      exact ok.performs present hosting isTodo outcome

end

end Parley.Service
