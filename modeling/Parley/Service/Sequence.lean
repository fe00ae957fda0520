/-
Sequence numbers of a session's messages.

A client numbers what it sends on a service, whoever the message is for; a mux
expects the numbers it sees from a sender on a service to go up by one.  The
model is the traffic of a session: every end makes its calls one after another,
every call succeeds, and the relay neither loses, repeats nor reorders frames.
The key layer may put any keys in place at any time, since the numbers do not
depend on them.
-/

import Parley.Library.Run
import Parley.Service.Node
import Parley.Session.Rotation

namespace Parley.Service

open Crypto Library Session
open Wire (Bytes ParticipantID SessionID)

structure Desync where
  fromID : ParticipantID
  service : String
  want : UInt64
  got : UInt64
  deriving DecidableEq, Repr

/-- The part of a mux that looks at sequence numbers. -/
structure Watch where
  services : List String
  lastSeq : GoMap (ParticipantID × String) UInt64
  desyncs : List Desync

namespace Watch

def new (services : List String) : Watch :=
  { services := services
    lastSeq := ∅
    desyncs := [] }

def last (m : Watch) (fromID : ParticipantID) (service : String) : UInt64 :=
  (m.lastSeq.lookup (fromID, service)).getD 0

/-- `handleFrame` up to the service's own handler. -/
def handleFrame {β : Type} (m : Watch) (fromID : ParticipantID) (env : Envelope β) : Watch :=
  -- a service that is not registered is one of a newer peer
  if env.serviceID ∉ m.services then m
  else
    let want := m.last fromID env.serviceID + 1
    let noted :=
      if env.seq ≠ want then
        m.desyncs ++
          [{ fromID := fromID
             service := env.serviceID
             want := want
             got := env.seq }]
      else m.desyncs
    { m with
      lastSeq := m.lastSeq.insert (fromID, env.serviceID) env.seq
      desyncs := noted }

theorem handleFrame_of_unregistered {β : Type} {m : Watch} {env : Envelope β}
    (unknown : env.serviceID ∉ m.services) (fromID : ParticipantID) :
    m.handleFrame fromID env = m :=
  if_pos unknown

theorem handleFrame_of_expected {β : Type} {m : Watch} {fromID : ParticipantID} {env : Envelope β}
    (known : env.serviceID ∈ m.services) (expected : env.seq = m.last fromID env.serviceID + 1) :
    m.handleFrame fromID env =
      { m with lastSeq := m.lastSeq.insert (fromID, env.serviceID) env.seq } := by
  rw [handleFrame, if_neg (fun unknown => unknown known)]
  simp only [ne_eq, expected, not_true_eq_false, if_false]

theorem last_insert (m : Watch) (fromID other : ParticipantID) (service service' : String)
    (seq : UInt64) :
    ({ m with lastSeq := m.lastSeq.insert (fromID, service) seq } : Watch).last other service' =
      if fromID = other ∧ service = service' then seq else m.last other service' := by
  unfold last
  split
  · rename_i same
    rw [same.1, same.2, AList.lookup_insert]
    rfl
  · rename_i differ
    rw [AList.lookup_insert_ne (fun same => differ ⟨(Prod.mk.inj same).1.symm,
      (Prod.mk.inj same).2.symm⟩)]

end Watch

def MuxEvent.asDesync : MuxEvent → Option Desync
  | .desync fromID service want got =>
      some
        { fromID := fromID
          service := service
          want := want
          got := got }
  | _ => none

def Mux.watch (m : Mux) : Watch :=
  { services := [ctlID]
    lastSeq := m.lastSeq
    desyncs := m.merged.filterMap MuxEvent.asDesync }

theorem Mux.watch_emit (m : Mux) (event : MuxEvent) :
    (m.emit event).watch =
      { m.watch with desyncs := m.watch.desyncs ++ event.asDesync.toList } := by
  simp only [Mux.emit, Mux.watch, List.filterMap_append]
  cases found : event.asDesync <;> simp [found]

theorem Mux.watch_sending (prim : Primitives) (m : Mux) (result : Ctl × List Outgoing) :
    (m.sending prim result).1.watch = m.watch := by
  have quiet : ∀ outs : List Outgoing,
      (outs.map (fun _ => Mux.rosterEvent result.1 ctlServices)).filterMap MuxEvent.asDesync = [] := by
    intro outs
    rw [List.filterMap_map]
    exact List.filterMap_eq_nil_iff.mpr (fun _ _ => rfl)
  simp only [Mux.sending, Mux.watch, List.filterMap_append, quiet, List.append_nil]

theorem Mux.watch_handleCtl (prim : Primitives) (m : Mux) (fromID : ParticipantID) (msg : CtlMsg)
    (pruned : List ParticipantID) : (m.handleCtl prim fromID msg pruned).1.watch = m.watch := by
  have quiet : ∀ (ctl : Ctl) (event : MuxEvent), event.asDesync = none →
      (({ m with ctl := ctl } : Mux).emit event).watch = m.watch := by
    intro ctl event silent
    rw [Mux.watch_emit, silent, Option.toList_none, List.append_nil]
    rfl
  cases msg with
  | announce a =>
      simp only [Mux.handleCtl]
      split
      · exact quiet _ _ rfl
      · exact quiet m.ctl _ rfl
  | identity name endpoint => exact m.watch_sending prim _
  | snapshotReq => exact m.watch_sending prim _
  | snapshot _ =>
      simp only [Mux.handleCtl]
      split
      · rfl
      · exact quiet m.ctl _ rfl
  | other => rfl

theorem Mux.watch_handleFrame (prim : Primitives) (m : Mux) (fromID : ParticipantID)
    (env : Envelope Body) :
    (m.handleFrame prim fromID env).1.watch = m.watch.handleFrame fromID env := by
  unfold Mux.handleFrame
  by_cases known : env.serviceID = ctlID
  · have registered : ¬ env.serviceID ∉ m.watch.services := by simp [Mux.watch, known]
    rw [if_neg (fun other => other known)]
    -- the state after the check, whatever the body is
    have counted : ∀ want, m.watch.last fromID env.serviceID + 1 = want →
        ∀ noted : Mux, noted =
          (if env.seq ≠ want then m.emit (.desync fromID env.serviceID want env.seq) else m) →
        ({ noted with
          lastSeq := noted.lastSeq.insert (fromID, env.serviceID) env.seq } : Mux).watch =
          m.watch.handleFrame fromID env := by
      rintro _ rfl noted rfl
      unfold Watch.handleFrame
      rw [if_neg registered]
      by_cases expected : env.seq = m.watch.last fromID env.serviceID + 1
      · simp only [expected, ne_eq, not_true_eq_false, if_false]
        rfl
      · simp only [ne_eq, expected, not_false_eq_true, if_true]
        simp only [Mux.emit, Mux.watch, List.filterMap_append]
        rfl
    cases body : env.body with
    | ctl msg pruned => exact (Mux.watch_handleCtl prim _ fromID msg pruned).trans (counted _ rfl _ rfl)
    | app _ =>
        refine Eq.trans ?_ (counted _ rfl _ rfl)
        rw [Mux.watch_emit]
        exact congrArg _ (List.append_nil _)
  · have unknown : env.serviceID ∉ m.watch.services := by simp [Mux.watch, known]
    rw [if_pos known, Watch.handleFrame, if_pos unknown]

section

variable (prim : Primitives) (β : Type)

/-- A frame of a call, with the envelope sealed in it, which the relay does not
see. -/
structure Parcel where
  sent : Sent prim β
  inside : Envelope β

/-- A frame in an inbox; the relay's own notices have no envelope. -/
structure Arrival where
  frame : Received prim β
  inside : Option (Envelope β)

/-- One end: its client, the call it is in, the frames its read loop has passed
on, and its mux. -/
structure Peer where
  client : Client
  call : Option (Parcel prim β)
  events : List (ParticipantID × Envelope β)
  mux : Watch

structure Routed where
  sender : ParticipantID
  service : String
  seq : UInt64
  receivers : List ParticipantID
  deriving DecidableEq, Repr

structure Traffic where
  sid : SessionID
  net : Network ParticipantID (Parcel prim β) (Arrival prim β)
  peers : ParticipantID → Peer prim β
  used : List ParticipantID
  /-- History: the frames the relay has passed on, oldest first. -/
  routed : List Routed

inductive TrafficAction where
  | join (id : ParticipantID) (client : Client) (services : List String)
  | leave (id : ParticipantID)
  /-- The key layer changes what an end can open and seals with. -/
  | keys (id : ParticipantID) (groupKey : Key) (prevKeys : List Key) (keyed : Bool)
  /-- `Broadcast` or `SendTo` up to the write. -/
  | send (id : ParticipantID) (toID : Option ParticipantID) (service : String) (body : β)
      (nonce : Nonce)
  | write (id : ParticipantID)
  | route (sender : ParticipantID)
  | deliver (receiver sender : ParticipantID)
  /-- The mux takes the next frame. -/
  | handle (id : ParticipantID)

end

variable {prim : Primitives} {β : Type}

def Parcel.carry (sender : ParticipantID) (parcel : Parcel prim β) (receiver : ParticipantID) :
    Option (Arrival prim β) :=
  (Session.carry sender parcel.sent receiver).map (fun frame =>
    { frame := frame
      inside := some parcel.inside })

def Arrival.notice (frame : Received prim β) : Arrival prim β :=
  { frame := frame
    inside := none }

def opened (c : Client) : Received prim β → Option (ParticipantID × Envelope β)
  | .direct fromID (.sealed sf) => (c.openFrame sf fromID).map (fun env => (fromID, env))
  | .broadcast fromID (.sealed sf) => (c.openFrame sf fromID).map (fun env => (fromID, env))
  | _ => none

namespace Peer

def fresh (sid : SessionID) (id : ParticipantID) (client : Client) (services : List String) :
    Peer prim β :=
  { client := { client with
      sid := sid
      self := id
      seqs := ∅ }
    call := none
    events := []
    mux := Watch.new services }

def counter (p : Peer prim β) (service : String) : UInt64 :=
  (p.client.seqs.lookup service).getD 0

def withKeys (p : Peer prim β) (groupKey : Key) (prevKeys : List Key) (keyed : Bool) :
    Peer prim β :=
  { p with
    client := { p.client with
      groupKey := groupKey
      prevKeys := prevKeys
      keyed := keyed } }

/-- A call is made when the one before it has returned, and succeeds. -/
def send (p : Peer prim β) (toID : Option ParticipantID) (service : String) (body : β)
    (nonce : Nonce) : Option (Peer prim β) :=
  if p.call.isSome then none
  else
    let result : Client × Option (Payload prim β) :=
      p.client.sealEnvelope service body (some nonce)
    result.2.map (fun payload =>
      { p with
        client := result.1
        call := some
          { sent :=
              match toID with
              | none => .broadcast payload
              | some id => .direct id payload
            inside :=
              { serviceID := service
                seq := p.counter service + 1
                body := body } } })

def receive (p : Peer prim β) (frame : Received prim β) : Peer prim β :=
  { p with events := p.events ++ (opened p.client frame).toList }

def handle (p : Peer prim β) : Option (Peer prim β) :=
  match p.events with
  | [] => none
  | (fromID, env) :: rest =>
      some
        { p with
          events := rest
          mux := p.mux.handleFrame fromID env }

end Peer

namespace Traffic

def start (sid : SessionID) (host : ParticipantID) (client : Client) (services : List String) :
    Traffic prim β :=
  { sid := sid
    net := Network.single host
    peers := fun id => Peer.fresh sid id client services
    used := [host]
    routed := [] }

def put (t : Traffic prim β) (id : ParticipantID) (peer : Peer prim β) : Traffic prim β :=
  { t with peers := Function.update t.peers id peer }

def receivers (t : Traffic prim β) (sender : ParticipantID) (parcel : Parcel prim β) :
    List ParticipantID :=
  t.net.members.filter (fun receiver => (parcel.carry sender receiver).isSome)

def record (t : Traffic prim β) (sender : ParticipantID) (parcel : Parcel prim β) : Routed :=
  { sender := sender
    service := parcel.inside.serviceID
    seq := parcel.inside.seq
    receivers := t.receivers sender parcel }

def step (t : Traffic prim β) : TrafficAction β → Option (Traffic prim β)
  | .join id client services =>
      -- ids count up from 1
      if id ∈ t.used ∨ id = 0 then none
      else
        some
          { t with
            net := t.net.join id (.notice (.participantJoined id))
            peers := Function.update t.peers id (Peer.fresh t.sid id client services)
            used := t.used ++ [id] }
  | .leave id =>
      if id ∈ t.net.members then
        (t.net.leave id (.notice (.participantLeft id))).map (fun net => { t with net := net })
      else none
  | .keys id groupKey prevKeys keyed =>
      some (t.put id ((t.peers id).withKeys groupKey prevKeys keyed))
  | .send id toID service body nonce =>
      if id ∈ t.net.members then
        ((t.peers id).send toID service body nonce).map (t.put id)
      else none
  | .write id =>
      if id ∈ t.net.members then
        (t.peers id).call.map (fun parcel =>
          { t.put id { t.peers id with call := none } with net := t.net.post id [parcel] })
      else none
  | .route sender =>
      (t.net.outbox sender).head?.bind (fun parcel =>
        (t.net.route (fun sender parcel => parcel.carry sender) sender).map (fun net =>
          { t with
            net := net
            routed := t.routed ++ [t.record sender parcel] }))
  | .deliver receiver sender =>
      if receiver ∈ t.net.members then
        (t.net.take receiver sender).map (fun taken =>
          { t.put receiver ((t.peers receiver).receive taken.1.frame) with net := taken.2 })
      else none
  | .handle id => (t.peers id).handle.map (t.put id)

/-- Nothing goes past a receiver: whoever gets a frame was passed every earlier
one of its sender on the service, and opens it. -/
def complete (t : Traffic prim β) : TrafficAction β → Bool
  | .route sender =>
      (t.net.outbox sender).head?.all (fun parcel =>
        (t.receivers sender parcel).all (fun receiver =>
          t.routed.all (fun earlier =>
            decide (earlier.sender = sender → earlier.service = parcel.inside.serviceID →
              receiver ∈ earlier.receivers))))
  | .deliver receiver sender =>
      (t.net.take receiver sender).all (fun taken =>
        taken.1.inside.isNone || (opened (t.peers receiver).client taken.1.frame).isSome)
  | _ => true

end Traffic

/-- From `first` the numbers go up by one each and end at `final`. -/
def Counts (first : UInt64) : List UInt64 → UInt64 → Prop
  | [], final => final = first
  | seq :: rest, final => seq = first + 1 ∧ Counts seq rest final

theorem Counts.concat {first final : UInt64} {seqs : List UInt64} (counts : Counts first seqs final) :
    Counts first (seqs ++ [final + 1]) (final + 1) := by
  induction seqs generalizing first with
  | nil =>
      obtain rfl : final = first := counts
      exact ⟨rfl, rfl⟩
  | cons seq rest ih => exact ⟨counts.1, ih counts.2⟩

def Envelope.seqOn (service : String) (env : Envelope β) : Option UInt64 :=
  if env.serviceID = service then some env.seq else none

def seqsOn (service : String) (envs : List (Envelope β)) : List UInt64 :=
  envs.filterMap (Envelope.seqOn service)

theorem seqsOn_append (service : String) (first second : List (Envelope β)) :
    seqsOn service (first ++ second) = seqsOn service first ++ seqsOn service second :=
  List.filterMap_append

theorem seqsOn_singleton (service : String) (env : Envelope β) :
    seqsOn service [env] = if env.serviceID = service then [env.seq] else [] := by
  unfold seqsOn Envelope.seqOn
  split <;> simp [*]

def lastOf (kind : Routed → Prop) [DecidablePred kind] (log : List Routed) : UInt64 :=
  ((log.filter (fun entry => kind entry)).getLast?.map Routed.seq).getD 0

theorem lastOf_concat (kind : Routed → Prop) [DecidablePred kind] (log : List Routed)
    (entry : Routed) :
    lastOf kind (log ++ [entry]) = if kind entry then entry.seq else lastOf kind log := by
  unfold lastOf
  rw [List.filter_append]
  by_cases here : kind entry <;> simp [here]

variable {kind : Routed → Prop} {nonce : Nonce}

theorem lastOf_congr {kind' : Routed → Prop} [DecidablePred kind] [DecidablePred kind']
    {log : List Routed} (same : ∀ entry ∈ log, kind entry ↔ kind' entry) :
    lastOf kind log = lastOf kind' log := by
  unfold lastOf
  rw [List.filter_congr (fun entry member => decide_eq_decide.mpr (same entry member))]

theorem lastOf_eq_zero [DecidablePred kind] {log : List Routed}
    (none : ∀ entry ∈ log, ¬ kind entry) : lastOf kind log = 0 := by
  unfold lastOf
  rw [List.filter_eq_nil_iff.mpr (fun entry member => by simpa using none entry member)]
  rfl

namespace Routed

def On (sender : ParticipantID) (service : String) (entry : Routed) : Prop :=
  entry.sender = sender ∧ entry.service = service

def To (receiver sender : ParticipantID) (service : String) (entry : Routed) : Prop :=
  entry.On sender service ∧ receiver ∈ entry.receivers

instance (sender : ParticipantID) (service : String) : DecidablePred (On sender service) :=
  fun _ => inferInstanceAs (Decidable (_ ∧ _))

instance (receiver sender : ParticipantID) (service : String) :
    DecidablePred (To receiver sender service) :=
  fun _ => inferInstanceAs (Decidable (_ ∧ _))

end Routed

def Parcel.Made (sid : SessionID) (sender : ParticipantID) (parcel : Parcel prim β) : Prop :=
  ∃ key nonce,
    parcel.sent = .broadcast (.sealed (sealFrame prim key parcel.inside sid sender nonce)) ∨
      ∃ toID, parcel.sent =
        .direct toID (.sealed (sealFrame prim key parcel.inside sid sender nonce))

/-- An opened frame gives its sender and the envelope in it; a notice is not
opened. -/
def Arrival.Made (sid : SessionID) (sender _receiver : ParticipantID) (arrival : Arrival prim β) :
    Prop :=
  ∀ (c : Client), c.sid = sid → ∀ found, opened c arrival.frame = some found →
    ∃ env, arrival.inside = some env ∧ found = (sender, env)

theorem Arrival.made_notice (sid : SessionID) (id receiver : ParticipantID)
    {frame : Received prim β} (unopened : ∀ c, opened c frame = none) :
    Arrival.Made sid id receiver (.notice frame) := by
  intro c _ found isFound
  rw [show (Arrival.notice frame).frame = frame from rfl, unopened c] at isFound
  cases isFound

variable {sender : ParticipantID} {parcel : Parcel prim β} {rest : List (Parcel prim β)}
  {arrival : Arrival prim β} {service : String}

theorem openFrame_sealFrame (ideal : prim.Ideal) {c : Client} {key : Key} {env found : Envelope β}
    (isFound : c.openFrame (sealFrame prim key env c.sid sender nonce) sender = some found) :
    found = env := by
  unfold Client.openFrame at isFound
  split at isFound
  · cases isFound
  · obtain ⟨other, _, opens⟩ := List.exists_of_findSome?_eq_some isFound
    rw [openSealed_sealFrame ideal] at opens
    split at opens
    · exact (Option.some.inj opens).symm
    · cases opens

theorem Parcel.Made.carry (ideal : prim.Ideal) {sid : SessionID} (sender receiver : ParticipantID)
    (parcel : Parcel prim β) (arrival : Arrival prim β) (made : parcel.Made sid sender)
    (carried : parcel.carry sender receiver = some arrival) :
    Arrival.Made sid sender receiver arrival := by
  obtain ⟨frame, isCarried, rfl⟩ := Option.map_eq_some_iff.mp carried
  obtain ⟨key, nonce, sent⟩ := made
  rintro c rfl found isOpened
  refine ⟨parcel.inside, rfl, ?_⟩
  have opens : ∀ env, c.openFrame (sealFrame prim key parcel.inside c.sid sender nonce) sender =
      some env → (sender, env) = (sender, parcel.inside) := fun env isFound =>
    congrArg (Prod.mk sender) (openFrame_sealFrame ideal isFound)
  rcases sent with isBroadcast | ⟨toID, isDirect⟩
  · rw [isBroadcast] at isCarried
    obtain ⟨_, ⟨⟩⟩ := Option.ite_none_left_eq_some.mp isCarried
    obtain ⟨env, isFound, rfl⟩ := Option.map_eq_some_iff.mp isOpened
    exact opens env isFound
  · rw [isDirect] at isCarried
    obtain ⟨_, ⟨⟩⟩ := Option.ite_none_right_eq_some.mp isCarried
    obtain ⟨env, isFound, rfl⟩ := Option.map_eq_some_iff.mp isOpened
    exact opens env isFound

namespace Peer

/-- What an end has numbered on a service and the relay has not taken. -/
def unsent (p : Peer prim β) (outbox : List (Parcel prim β)) (service : String) : List UInt64 :=
  seqsOn service ((outbox ++ p.call.toList).map Parcel.inside)

/-- What an end was passed from a sender on a service and its mux has not looked
at. -/
def unread (p : Peer prim β) (inbox : List (ParticipantID × Arrival prim β))
    (fromID : ParticipantID) (service : String) : List UInt64 :=
  seqsOn service (Network.fromSender fromID p.events ++
    (Network.fromSender fromID inbox).filterMap Arrival.inside)

/-- On the way to the relay an end's numbers go on from the last one routed; on
the way to its mux a sender's go on from the last one the mux saw, up to the last
one the end was passed. -/
structure Paced (sid : SessionID) (id : ParticipantID) (outbox : List (Parcel prim β))
    (inbox : List (ParticipantID × Arrival prim β)) (log : List Routed) (p : Peer prim β) :
    Prop where
  session : p.client.sid = sid
  self : p.client.self = id
  call : ∀ parcel ∈ p.call, Parcel.Made sid id parcel
  sent : ∀ service, Counts (lastOf (Routed.On id service) log) (p.unsent outbox service)
    (p.counter service)
  received : ∀ fromID, ∀ service ∈ p.mux.services,
    Counts (p.mux.last fromID service) (p.unread inbox fromID service)
      (lastOf (Routed.To id fromID service) log)
  quiet : p.mux.desyncs = []

section

variable {sid : SessionID} {id : ParticipantID} {outbox : List (Parcel prim β)}
  {inbox : List (ParticipantID × Arrival prim β)} {log : List Routed} {p : Peer prim β}

theorem fresh_paced (client : Client) (services : List String)
    (absent : ∀ entry ∈ log, entry.sender ≠ id ∧ id ∉ entry.receivers) :
    (fresh sid id client services : Peer prim β).Paced sid id [] [] log :=
  { session := rfl
    self := rfl
    call := fun _ member => by cases member
    sent := fun service =>
      (lastOf_eq_zero (fun entry member on => (absent entry member).1 on.1)).symm
    received := fun fromID service _ =>
      lastOf_eq_zero (fun entry member passed => (absent entry member).2 passed.2)
    quiet := rfl }

theorem Paced.withKeys (paced : p.Paced sid id outbox inbox log) (groupKey : Key)
    (prevKeys : List Key) (keyed : Bool) :
    (p.withKeys groupKey prevKeys keyed).Paced sid id outbox inbox log :=
  { paced with }

variable {after : Peer prim β}

theorem Paced.send (paced : p.Paced sid id outbox inbox log) {toID : Option ParticipantID}
    {body : β} (sent : p.send toID service body nonce = some after) :
    after.Paced sid id outbox inbox log := by
  obtain ⟨idle, sent⟩ := Option.ite_none_left_eq_some.mp sent
  obtain ⟨payload, sealed, rfl⟩ := Option.map_eq_some_iff.mp sent
  have free : p.call = none := by simpa using idle
  have keyed : ¬ p.client.keyed = false := by
    intro unkeyed
    rw [Client.sealEnvelope, if_pos unkeyed] at sealed
    cases sealed
  rw [Client.sealEnvelope, if_neg keyed] at sealed ⊢
  refine
    { paced with
      session := paced.session
      self := paced.self
      call := ?_
      sent := fun other => ?_ }
  · rintro parcel ⟨⟩
    refine ⟨p.client.groupKey, nonce, ?_⟩
    rw [← paced.session, ← paced.self]
    cases sealed
    cases toID with
    | none => exact Or.inl rfl
    | some target => exact Or.inr ⟨target, rfl⟩
  · have before := paced.sent other
    simp only [unsent, free, Option.toList_none, List.append_nil] at before
    simp only [unsent, counter, Option.toList_some, List.map_append, List.map_cons, List.map_nil,
      seqsOn_append, seqsOn_singleton]
    by_cases here : service = other
    · subst here
      rw [if_pos rfl, AList.lookup_insert]
      exact before.concat
    · rw [if_neg here, AList.lookup_insert_ne (Ne.symm here), List.append_nil]
      exact before

theorem Paced.write (paced : p.Paced sid id outbox inbox log) (called : p.call = some parcel) :
    ({ p with call := none } : Peer prim β).Paced sid id (outbox ++ [parcel]) inbox log := by
  refine
    { paced with
      call := fun _ member => by cases member
      sent := fun service => ?_ }
  have before := paced.sent service
  simp only [unsent, called, Option.toList_some] at before
  rw [unsent, Option.toList_none, List.append_nil]
  exact before

theorem Paced.taken (paced : p.Paced sid id (parcel :: rest) inbox log) (service : String) :
    Counts (if parcel.inside.serviceID = service then parcel.inside.seq
        else lastOf (Routed.On id service) log)
      (p.unsent rest service) (p.counter service) := by
  have before := paced.sent service
  simp only [unsent, List.cons_append, List.map_cons, seqsOn, List.filterMap_cons,
    Envelope.seqOn] at before
  by_cases here : parcel.inside.serviceID = service
  · rw [if_pos here] at before ⊢
    exact before.2
  · rw [if_neg here] at before ⊢
    exact before

theorem Paced.next (paced : p.Paced sid id (parcel :: rest) inbox log) :
    parcel.inside.seq = lastOf (Routed.On id parcel.inside.serviceID) log + 1 := by
  have before := paced.sent parcel.inside.serviceID
  simp only [unsent, List.cons_append, List.map_cons, seqsOn, List.filterMap_cons,
    Envelope.seqOn, if_true] at before
  exact before.1

theorem Paced.receive (paced : p.Paced sid id outbox inbox log)
    {inbox' : List (ParticipantID × Arrival prim β)} (made : Arrival.Made sid sender id arrival)
    (opens : arrival.inside.isNone ∨ (opened p.client arrival.frame).isSome)
    (first : Network.fromSender sender inbox = arrival :: Network.fromSender sender inbox')
    (others : ∀ other ≠ sender, Network.fromSender other inbox' = Network.fromSender other inbox) :
    (p.receive arrival.frame).Paced sid id outbox inbox' log := by
  -- the arrival moves from the inbox to the events
  have moved : ∀ fromID, Network.fromSender fromID (p.receive arrival.frame).events ++
        (Network.fromSender fromID inbox').filterMap Arrival.inside =
      Network.fromSender fromID p.events ++
        (Network.fromSender fromID inbox).filterMap Arrival.inside := by
    intro fromID
    unfold Peer.receive
    cases found : opened p.client arrival.frame with
    | none =>
        have notice : arrival.inside = none := by simpa [found] using opens
        rw [Option.toList_none, List.append_nil]
        by_cases here : fromID = sender
        · rw [here, first, List.filterMap_cons, notice]
        · rw [others fromID here]
    | some result =>
        obtain ⟨env, inside, rfl⟩ := made p.client paced.session result found
        rw [Option.toList_some, Network.fromSender_append, Network.fromSender_singleton,
          List.append_assoc]
        by_cases here : fromID = sender
        · rw [here, if_pos rfl, first, List.filterMap_cons, inside]
          rfl
        · rw [if_neg (Ne.symm here), others fromID here, List.nil_append]
  exact
    { paced with
      received := fun fromID service registered => by
        have before := paced.received fromID service registered
        unfold unread at before ⊢
        rw [moved fromID]
        exact before }

theorem Paced.handle (paced : p.Paced sid id outbox inbox log) (handled : p.handle = some after) :
    after.Paced sid id outbox inbox log := by
  unfold Peer.handle at handled
  split at handled
  · cases handled
  · rename_i sender env rest waiting
    cases handled
    have unreadBefore : ∀ fromID service, p.unread inbox fromID service =
        (if sender = fromID ∧ env.serviceID = service then [env.seq] else []) ++
          ({ p with events := rest } : Peer prim β).unread inbox fromID service := by
      intro fromID service
      have split : Network.fromSender fromID p.events =
          (if sender = fromID then [env] else []) ++ Network.fromSender fromID rest := by
        rw [waiting, ← List.singleton_append, Network.fromSender_append,
          Network.fromSender_singleton]
      unfold unread
      rw [split, List.append_assoc, seqsOn_append]
      congr 1
      by_cases here : sender = fromID
      · rw [if_pos here, seqsOn_singleton]
        simp only [here, true_and]
      · rw [if_neg here, if_neg (fun both => here both.1)]
        rfl
    by_cases registered : env.serviceID ∈ p.mux.services
    · have head := paced.received sender env.serviceID registered
      rw [unreadBefore, if_pos ⟨rfl, rfl⟩] at head
      rw [Watch.handleFrame_of_expected registered head.1]
      refine
        { paced with
          received := fun fromID service known => ?_ }
      have before := paced.received fromID service known
      rw [unreadBefore] at before
      rw [Watch.last_insert]
      by_cases here : sender = fromID ∧ env.serviceID = service
      · rw [if_pos here] at before ⊢
        exact before.2
      · rw [if_neg here] at before ⊢
        exact before
    · rw [Watch.handleFrame_of_unregistered registered]
      refine
        { paced with
          received := fun fromID service known => ?_ }
      have before := paced.received fromID service known
      rw [unreadBefore, if_neg (fun (same : sender = fromID ∧ env.serviceID = service) =>
        registered (same.2 ▸ known))] at before
      exact before

theorem Paced.noticed (paced : p.Paced sid id outbox inbox log) (about : ParticipantID)
    (frame : Received prim β) :
    p.Paced sid id outbox (inbox ++ [(about, .notice frame)]) log := by
  refine
    { paced with
      received := fun fromID service known => ?_ }
  have before := paced.received fromID service known
  have same : (Network.fromSender fromID (inbox ++ [(about, Arrival.notice frame)])).filterMap
      Arrival.inside = (Network.fromSender fromID inbox).filterMap Arrival.inside := by
    rw [Network.fromSender_append, Network.fromSender_singleton, List.filterMap_append]
    split
    · exact List.append_nil _
    · exact List.append_nil _
  unfold unread at before ⊢
  rw [same]
  exact before

theorem Paced.passed (paced : p.Paced sid id outbox inbox log)
    {entry : Routed}
    (carried : arrival.inside = some parcel.inside)
    (ofParcel : entry.sender = sender ∧ entry.service = parcel.inside.serviceID ∧
      entry.seq = parcel.inside.seq)
    (here : id ∈ entry.receivers)
    (next : parcel.inside.seq =
      lastOf (Routed.To id sender parcel.inside.serviceID) log + 1) (fromID : ParticipantID)
    (known : service ∈ p.mux.services) :
    Counts (p.mux.last fromID service)
      (p.unread (inbox ++ [(sender, arrival)]) fromID service)
      (lastOf (Routed.To id fromID service) (log ++ [entry])) := by
  have before := paced.received fromID service known
  have grown : p.unread (inbox ++ [(sender, arrival)]) fromID service =
      p.unread inbox fromID service ++
        (if sender = fromID ∧ parcel.inside.serviceID = service then [parcel.inside.seq] else []) := by
    unfold unread
    rw [Network.fromSender_append, Network.fromSender_singleton, List.filterMap_append,
      ← List.append_assoc, seqsOn_append]
    congr 1
    by_cases same : sender = fromID
    · rw [if_pos same, List.filterMap_cons, carried, List.filterMap_nil, seqsOn_singleton]
      simp only [same, true_and]
    · rw [if_neg same, if_neg (fun both => same both.1)]
      rfl
  rw [grown, lastOf_concat]
  by_cases same : sender = fromID ∧ parcel.inside.serviceID = service
  · obtain ⟨rfl, rfl⟩ := same
    rw [if_pos ⟨rfl, rfl⟩, if_pos ⟨⟨ofParcel.1, ofParcel.2.1⟩, here⟩, ofParcel.2.2, next]
    exact before.concat
  · rw [if_neg same, List.append_nil, if_neg]
    · exact before
    · rintro ⟨⟨isSender, isService⟩, _⟩
      exact same ⟨ofParcel.1.symm.trans isSender, ofParcel.2.1.symm.trans isService⟩

end

end Peer

namespace Traffic

structure Paced (t : Traffic prim β) : Prop where
  filed : t.net.Filed t.used (Parcel.Made t.sid) (Arrival.Made t.sid)
  log : ∀ entry ∈ t.routed, entry.sender ∈ t.used ∧ ∀ id ∈ entry.receivers, id ∈ t.used
  peers : ∀ id, (t.peers id).Paced t.sid id (t.net.outbox id) (t.net.inbox id) t.routed

theorem start_paced (sid : SessionID) (host : ParticipantID) (client : Client)
    (services : List String) : (start sid host client services : Traffic prim β).Paced :=
  { filed := Network.single_filed host
    log := fun _ member => by cases member
    peers := fun _ => Peer.fresh_paced client services (fun _ member => by cases member) }

section

variable {t next : Traffic prim β} {id : ParticipantID}

theorem Paced.put (paced : t.Paced) {peer : Peer prim β}
    (changed : peer.Paced t.sid id (t.net.outbox id) (t.net.inbox id) t.routed) :
    (t.put id peer).Paced :=
  { paced with
    peers := fun other => by
      by_cases here : other = id
      · subst here
        simpa only [Traffic.put, Function.update_self] using changed
      · simpa only [Traffic.put, Function.update_of_ne here] using paced.peers other }

theorem Paced.announced (paced : t.Paced) {members : List ParticipantID} (about : ParticipantID)
    (frame : Received prim β) (id : ParticipantID) :
    (t.peers id).Paced t.sid id (t.net.outbox id)
      (({ t.net with members := members }.announce about (.notice frame)).inbox id) t.routed := by
  simp only [Network.announce]
  split
  · exact (paced.peers id).noticed about frame
  · exact paced.peers id

theorem Paced.join (paced : t.Paced) {client : Client} {services : List String}
    (stepped : t.step (.join id client services) = some next) :
    next.Paced := by
  obtain ⟨new, ⟨⟩⟩ := Option.ite_none_left_eq_some.mp stepped
  have unused : id ∉ t.used := fun known => new (Or.inl known)
  have notMember : id ∉ t.net.members := fun member => unused (paced.filed.known id member)
  refine
    { filed := paced.filed.join (fun receiver _ => Arrival.made_notice _ _ _ (fun _ => rfl))
      log := fun entry member =>
        ⟨List.mem_append_left _ (paced.log entry member).1, fun other passed =>
          List.mem_append_left _ ((paced.log entry member).2 other passed)⟩
      peers := fun other => ?_ }
  by_cases here : other = id
  · subst here
    have empty : (t.net.join other (Arrival.notice (.participantJoined other))).inbox other = [] := by
      simp only [Network.join, Network.announce, if_neg notMember]
      exact paced.filed.fresh other unused
    have drained : (t.net.join other (Arrival.notice (.participantJoined other))).outbox other = [] :=
      paced.filed.drained other notMember
    simp only [Function.update_self, empty, drained]
    refine Peer.fresh_paced client services (fun entry member => ⟨fun same => ?_, fun passed => ?_⟩)
    · exact unused (same ▸ (paced.log entry member).1)
    · exact unused ((paced.log entry member).2 other passed)
  · simp only [Function.update_of_ne here]
    exact @Paced.announced prim β t paced t.net.members id (.participantJoined id) other

theorem Paced.leave (paced : t.Paced) (stepped : t.step (.leave id) = some next) : next.Paced := by
  obtain ⟨member, stepped⟩ := Option.ite_none_right_eq_some.mp stepped
  obtain ⟨net, left, rfl⟩ := Option.map_eq_some_iff.mp stepped
  refine
    { filed := paced.filed.leave left member
        (fun receiver _ => Arrival.made_notice _ _ _ (fun _ => rfl))
      log := paced.log
      peers := fun other => ?_ }
  obtain ⟨_, ⟨⟩⟩ := Option.ite_none_right_eq_some.mp left
  exact paced.announced id (.participantLeft id) other

theorem Paced.write (paced : t.Paced) (stepped : t.step (.write id) = some next) : next.Paced := by
  obtain ⟨member, stepped⟩ := Option.ite_none_right_eq_some.mp stepped
  obtain ⟨parcel, called, rfl⟩ := Option.map_eq_some_iff.mp stepped
  refine
    { filed := paced.filed.post member (fun post present => ?_)
      log := paced.log
      peers := fun other => ?_ }
  · rw [List.mem_singleton.mp present]
    exact (paced.peers id).call parcel called
  · by_cases here : other = id
    · subst here
      simp only [Traffic.put, Network.post, Function.update_self]
      exact (paced.peers other).write called
    · simp only [Traffic.put, Network.post, Function.update_of_ne here]
      exact paced.peers other

theorem Paced.deliver (paced : t.Paced) {receiver : ParticipantID}
    (stepped : t.step (.deliver receiver sender) = some next)
    (complete : t.complete (.deliver receiver sender) = true) : next.Paced := by
  obtain ⟨_, stepped⟩ := Option.ite_none_right_eq_some.mp stepped
  obtain ⟨⟨arrival, net⟩, taken, rfl⟩ := Option.map_eq_some_iff.mp stepped
  have opens : arrival.inside.isNone ∨ (opened (t.peers receiver).client arrival.frame).isSome := by
    simpa [Traffic.complete, taken] using complete
  have made : Arrival.Made t.sid sender receiver arrival :=
    paced.filed.entries receiver (sender, arrival) (Network.entry_of_take taken)
  refine
    { filed := paced.filed.take taken
      log := paced.log
      peers := fun other => ?_ }
  obtain ⟨entry, found, same⟩ := Option.map_eq_some_iff.mp taken
  cases same
  by_cases here : other = receiver
  · subst here
    simp only [Traffic.put, Function.update_self]
    exact (paced.peers other).receive made opens (Network.fromSender_of_find? sender _ entry found)
      (fun fromID differ => Network.fromSender_eraseP_of_ne differ _)
  · simp only [Traffic.put, Function.update_of_ne here]
    exact paced.peers other

theorem mem_receivers :
    id ∈ t.receivers sender parcel ↔
      id ∈ t.net.members ∧ (parcel.carry sender id).isSome = true :=
  List.mem_filter

theorem lastOf_to_eq_on (waiting : t.net.outbox sender = parcel :: rest)
    (complete : t.complete (.route sender) = true) (passed : id ∈ t.receivers sender parcel) :
    lastOf (Routed.To id sender parcel.inside.serviceID) t.routed =
      lastOf (Routed.On sender parcel.inside.serviceID) t.routed := by
  simp only [Traffic.complete, waiting, List.head?_cons, Option.all_some, List.all_eq_true,
    decide_eq_true_eq] at complete
  refine lastOf_congr (fun entry member => ⟨fun both => both.1, fun on => ⟨on, ?_⟩⟩)
  exact complete id passed entry member on.1 on.2

theorem Paced.sent_route (paced : t.Paced) (waiting : t.net.outbox sender = parcel :: rest)
    (id : ParticipantID) (service : String) :
    Counts (lastOf (Routed.On id service) (t.routed ++ [t.record sender parcel]))
      ((t.peers id).unsent (Function.update t.net.outbox sender rest id) service)
      ((t.peers id).counter service) := by
  rw [lastOf_concat]
  by_cases here : id = sender
  · subst here
    have before := paced.peers id
    rw [waiting] at before
    have after := before.taken service
    rw [Function.update_self]
    by_cases onService : parcel.inside.serviceID = service
    · rw [if_pos onService] at after
      rw [if_pos ⟨rfl, onService⟩]
      exact after
    · rw [if_neg onService] at after
      rw [if_neg (fun on => onService on.2)]
      exact after
  · rw [Function.update_of_ne here, if_neg (fun on => here on.1.symm)]
    exact (paced.peers id).sent service

theorem Paced.received_route (paced : t.Paced) (waiting : t.net.outbox sender = parcel :: rest)
    (complete : t.complete (.route sender) = true) (passed : id ∈ t.receivers sender parcel)
    (carried : parcel.carry sender id = some arrival) (fromID : ParticipantID)
    (known : service ∈ (t.peers id).mux.services) :
    Counts ((t.peers id).mux.last fromID service)
      ((t.peers id).unread (t.net.inbox id ++ [(sender, arrival)]) fromID service)
      (lastOf (Routed.To id fromID service) (t.routed ++ [t.record sender parcel])) := by
  have inside : arrival.inside = some parcel.inside := by
    obtain ⟨frame, _, rfl⟩ := Option.map_eq_some_iff.mp carried
    rfl
  have senderPaced := paced.peers sender
  rw [waiting] at senderPaced
  have next := senderPaced.next
  rw [← lastOf_to_eq_on waiting complete passed] at next
  have ofParcel : (t.record sender parcel).sender = sender ∧
      (t.record sender parcel).service = parcel.inside.serviceID ∧
      (t.record sender parcel).seq = parcel.inside.seq := ⟨rfl, rfl, rfl⟩
  exact (paced.peers id).passed inside ofParcel passed next fromID known

theorem Paced.route (ideal : prim.Ideal) (paced : t.Paced)
    (stepped : t.step (.route sender) = some next) (complete : t.complete (.route sender) = true) :
    next.Paced := by
  obtain ⟨parcel, first, stepped⟩ := Option.bind_eq_some_iff.mp stepped
  obtain ⟨net, routed, rfl⟩ := Option.map_eq_some_iff.mp stepped
  obtain ⟨rest, waiting⟩ := List.head?_eq_some_iff.mp first
  have isMember : sender ∈ t.net.members :=
    paced.filed.member_of_post (waiting ▸ List.mem_cons_self)
  refine
    { filed := paced.filed.route (fun sender receiver parcel arrival made carried =>
        made.carry ideal sender receiver parcel arrival carried) routed
      log := fun entry member => ?_
      peers := fun id => ?_ }
  · rcases List.mem_append.mp member with old | new
    · exact paced.log entry old
    · rw [List.mem_singleton.mp new]
      exact ⟨paced.filed.known sender isMember, fun id passed =>
        paced.filed.known id (mem_receivers.mp passed).1⟩
  simp only [Network.route, waiting] at routed
  cases routed
  by_cases passed : id ∈ t.receivers sender parcel
  · obtain ⟨member, isSome⟩ := mem_receivers.mp passed
    obtain ⟨arrival, carried⟩ := Option.isSome_iff_exists.mp isSome
    simp only [if_pos member, carried, Option.map_some, Option.toList_some]
    exact
      { paced.peers id with
        sent := paced.sent_route waiting id
        received := fun fromID _ known =>
          paced.received_route waiting complete passed carried fromID known }
  · have same : (if id ∈ t.net.members then t.net.inbox id ++
        ((parcel.carry sender id).map (fun msg => (sender, msg))).toList
        else t.net.inbox id) = t.net.inbox id := by
      split
      · rename_i member
        have notCarried : parcel.carry sender id = none :=
          Option.not_isSome_iff_eq_none.mp (fun isSome => passed (mem_receivers.mpr ⟨member, isSome⟩))
        rw [notCarried]
        exact List.append_nil _
      · rfl
    simp only [same]
    refine
      { paced.peers id with
        sent := paced.sent_route waiting id
        received := fun fromID service known => ?_ }
    rw [lastOf_concat, if_neg (fun both => passed both.2)]
    exact (paced.peers id).received fromID service known

theorem Paced.step (ideal : prim.Ideal) (paced : t.Paced) {action : TrafficAction β}
    (stepped : t.step action = some next) (complete : t.complete action = true) : next.Paced := by
  cases action with
  | join id client services => exact paced.join stepped
  | leave id => exact paced.leave stepped
  | keys id groupKey prevKeys keyed =>
      cases stepped
      exact paced.put ((paced.peers id).withKeys groupKey prevKeys keyed)
  | send id toID service body nonce =>
      obtain ⟨_, stepped⟩ := Option.ite_none_right_eq_some.mp stepped
      obtain ⟨after, sent, rfl⟩ := Option.map_eq_some_iff.mp stepped
      exact paced.put ((paced.peers id).send sent)
  | write id => exact paced.write stepped
  | route sender => exact paced.route ideal stepped complete
  | deliver receiver sender => exact paced.deliver stepped complete
  | handle id =>
      obtain ⟨after, handled, rfl⟩ := Option.map_eq_some_iff.mp stepped
      exact paced.put ((paced.peers id).handle handled)

end

end Traffic

/-- In a run in which nothing goes past a receiver no mux reports a gap. -/
theorem complete_streams_raise_no_desync (ideal : prim.Ideal) (sid : SessionID)
    (host : ParticipantID) (client : Client) (services : List String)
    (actions : List (TrafficAction β)) (final : Traffic prim β)
    (reached : run Traffic.step (Traffic.start sid host client services) actions = some final)
    (complete : Along Traffic.step (fun t action => Traffic.complete t action = true)
      (Traffic.start sid host client services : Traffic prim β) actions) (id : ParticipantID) :
    (final.peers id).mux.desyncs = [] := by
  have paced : final.Paced :=
    run_invariant (fun _ _ _ before permitted stepped => before.step ideal stepped permitted)
      (Traffic.start_paced sid host client services) complete reached
  exact (paced.peers id).quiet

/-! ### Sample traffic -/

def sampleClient : Client :=
  dial [] (Vector.replicate 16 0) [] defaultRolePolicy false

def sampleTraffic : Traffic symbolic Nat :=
  Traffic.start (Vector.replicate 16 0) 1 sampleClient ["board"]

def threeKeyed : List (TrafficAction Nat) :=
  [.join 2 sampleClient ["board"], .join 3 sampleClient ["board"], .keys 1 (sampleKey 0) [] true,
    .keys 2 (sampleKey 0) [] true, .keys 3 (sampleKey 0) [] true, .deliver 2 3]

def sending (id : ParticipantID) (toID : Option ParticipantID) (body : Nat) :
    List (TrafficAction Nat) :=
  [.send id toID "board" body sampleNonce, .write id, .route id]

/-- Host 1 rotates its key between two broadcasts; 2 answers 1 alone. -/
def boardGame : List (TrafficAction Nat) :=
  threeKeyed ++ sending 1 none 10 ++ [.deliver 2 1, .handle 2] ++ sending 2 (some 1) 20 ++
    [.keys 1 (sampleKey 1) [sampleKey 0] true] ++ sending 1 none 11 ++
    [.keys 2 (sampleKey 1) [sampleKey 0] true, .keys 3 (sampleKey 1) [sampleKey 0] true,
      .deliver 3 1, .deliver 3 1, .handle 3, .handle 3, .deliver 2 1, .handle 2, .deliver 1 2,
      .deliver 1 3, .deliver 1 2, .handle 1]

theorem boardGame_raises_no_desync :
    ∃ final, run Traffic.step sampleTraffic boardGame = some final ∧
      (final.peers 3).mux.last 1 "board" = 2 ∧ (final.peers 3).mux.desyncs = [] := by
  have checked : ((run Traffic.step sampleTraffic boardGame).any (fun final =>
      decide ((final.peers 3).mux.last 1 "board" = 2))) = true := by
    decide +kernel
  obtain ⟨final, reached, seen⟩ := (Option.any_eq_true _ _).mp checked
  refine ⟨final, reached, of_decide_eq_true seen, ?_⟩
  exact complete_streams_raise_no_desync symbolic_ideal (Vector.replicate 16 0) 1 sampleClient
    ["board"] boardGame final reached (by decide +kernel) 3

/-- The number of a message for 3 alone is missing from what 2 sees; every frame
is delivered, in order, and opened. -/
theorem message_for_another_raises_desync :
    ∃ final, run Traffic.step sampleTraffic (threeKeyed ++ sending 1 (some 3) 10 ++
        sending 1 none 11 ++ [.deliver 3 1, .handle 3, .deliver 3 1, .handle 3, .deliver 2 1,
          .handle 2]) = some final ∧
      (final.peers 3).mux.desyncs = [] ∧
      (final.peers 2).mux.desyncs =
        [{ fromID := 1
           service := "board"
           want := 1
           got := 2 }] := by
  have checked : ((run Traffic.step sampleTraffic (threeKeyed ++ sending 1 (some 3) 10 ++
      sending 1 none 11 ++ [.deliver 3 1, .handle 3, .deliver 3 1, .handle 3, .deliver 2 1,
        .handle 2])).any (fun final =>
      decide ((final.peers 3).mux.desyncs = [] ∧
        (final.peers 2).mux.desyncs =
          [{ fromID := 1
             service := "board"
             want := 1
             got := 2 }]))) = true := by
    decide +kernel
  obtain ⟨final, reached, seen⟩ := (Option.any_eq_true _ _).mp checked
  exact ⟨final, reached, of_decide_eq_true seen⟩

end Parley.Service
