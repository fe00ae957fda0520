/-
The exchange of keys after a host has left.

The elected end becomes the host, rotates the group key and answers the first
flights of the others; each of them adopts the pairwise key and then the group
key.  What the elected end has promised to a survivor and not delivered yet is
either on the line between them or left to its read goroutine: `Following` says
that the survivor waits for just that.
-/

import Parley.Service.Migration

namespace Parley.Service.Migration

open Crypto Library Session
open Wire (Bytes ParticipantID SessionID)

variable {prim : Primitives}

/-- The host that leaves, who is elected, and what the session's ends share. -/
structure Departure where
  host : ParticipantID
  successor : ParticipantID
  proto : Bytes
  phraseC : Bytes
  sid : SessionID
  elected : successor ≠ 0
  stays : successor ≠ host

namespace Departure

variable (prim) in
def joiner (d : Departure) (seed : Bytes) : Joiner :=
  newJoiner prim d.proto d.phraseC seed

variable (prim) in
def flight (d : Departure) (seed : Bytes) : Pake :=
  { data := (d.joiner prim seed).flight1
    spectate := false }

end Departure

structure Steady (d : Departure) (p : ParticipantID) (v : View prim) : Prop where
  self : v.client.self = p
  sid : v.client.sid = d.sid
  proto : v.client.proto = d.proto
  phraseC : v.client.phraseC = d.phraseC
  keyed : v.client.keyed = true
  phase : v.phase = .running
  calls : v.calls = []

/-- The read goroutine waits for a frame, or is about to after a departure. -/
def Resting (reader : Reader prim) : Prop :=
  reader = .idle ∨ reader = .departed

def OldKey (d : Departure) (p : ParticipantID) (frame : Received prim Body) : Prop :=
  ∃ gk, frame = .direct d.host (.rekey gk) ∧
    ∀ pairwise key role, unwrapGroupKey prim pairwise gk d.sid p = some (key, role) →
      role = roleNone

structure Guest (d : Departure) (v : View prim) : Prop where
  hostID : v.client.hostID = d.host
  role : v.client.role ≠ roleHost
  pairwise : v.client.pairwise = ∅
  todo : v.todo = []

/-- An end whose mux has not handled the departure, with what is under way from
the departed host. -/
inductive Led (d : Departure) (p : ParticipantID) (v : View prim) :
    List (Received prim Body) → Prop where
  | unheard {early : List (Received prim Body)} (guest : Guest d v) (events : v.events = [])
      (old : ∀ frame ∈ early, OldKey d p frame)
      (reader : v.reader = .idle ∨ ∃ key, v.reader = .installing key roleNone) :
      Led d p v (early ++ [.participantLeft d.host])
  | heard (guest : Guest d v) (events : v.events = [.memberLeft d.host])
      (reader : Resting v.reader) : Led d p v []

/-- A survivor on its way to the first flight, with the tasks it has left. -/
inductive Turning (d : Departure) (v : View prim) : List (Task prim) → Prop where
  | electing (hostID : v.client.hostID = d.host) :
      Turning d v [.setHostID d.successor, .reattach, .rekeyWithNewHost]
  | turned (hostID : v.client.hostID = d.successor) : Turning d v [.reattach, .rekeyWithNewHost]
  | attached (hostID : v.client.hostID = d.successor) (attached : v.attached = d.successor) :
      Turning d v [.rekeyWithNewHost]
  | greeting (seed : Bytes) (hostID : v.client.hostID = d.successor)
      (attached : v.attached = d.successor)
      (joiner : v.client.rekeyJoiner = some (d.joiner prim seed)) :
      Turning d v [.write (.direct d.successor (.rekeyPake1 (d.flight prim seed)))]

structure Turned (d : Departure) (v : View prim) : Prop where
  hostID : v.client.hostID = d.successor
  attached : v.attached = d.successor
  events : v.events = []
  todo : v.todo = []

/-- What the elected end has still to deliver: the second flight, and the group
key wrapped under a pairwise key. -/
inductive Promise where
  | reply (flight2 : Bytes)
  | key (pairwise : Key)

variable (prim) in
inductive Fulfils (d : Departure) (x : ParticipantID) (groupKey : Key) :
    Received prim Body → Promise → Prop where
  | reply (p : Pake) : Fulfils d x groupKey (.direct d.successor (.rekeyPake2 p)) (.reply p.data)
  | key {gk : GroupKey prim} {pairwise : Key}
      (wraps : unwrapGroupKey prim pairwise gk d.sid x = some (groupKey, roleNone)) :
      Fulfils d x groupKey (.direct d.successor (.rekey gk)) (.key pairwise)

/-- What the read goroutine of the elected end has still to write for a survivor. -/
def owed (x : ParticipantID) : Reader prim → List Promise
  | .readmitting y pairwise flight2 => if y = x then [.reply flight2, .key pairwise] else []
  | .readmitReply y pairwise flight2 _ => if y = x then [.reply flight2, .key pairwise] else []
  | .readmitKey y pairwise _ => if y = x then [.key pairwise] else []
  | _ => []

/-- A survivor that comes to the group key when the promises are delivered. -/
inductive Awaits (d : Departure) (x : ParticipantID) (groupKey : Key) (v : View prim) :
    List Promise → Prop where
  | asked {j : Joiner} {flight2 : Bytes} {pairwise : Key} (reader : Resting v.reader)
      (joiner : v.client.rekeyJoiner = some j)
      (agrees : j.finish prim flight2 d.sid x d.successor = some pairwise) :
      Awaits d x groupKey v [.reply flight2, .key pairwise]
  | finishing {j : Joiner} {flight2 : Bytes} {pairwise : Key}
      (reader : v.reader = .finishing j flight2)
      (agrees : j.finish prim flight2 d.sid x d.successor = some pairwise) :
      Awaits d x groupKey v [.key pairwise]
  | finished {pairwise : Key} (reader : v.reader = .finished pairwise) :
      Awaits d x groupKey v [.key pairwise]
  | paired {pairwise : Key} (reader : v.reader = .idle)
      (have_ : v.client.haveHostPairwise = true) (same : v.client.hostPairwise = pairwise) :
      Awaits d x groupKey v [.key pairwise]
  | installing (reader : v.reader = .installing groupKey roleNone) : Awaits d x groupKey v []
  | keyed (reader : v.reader = .idle) (same : v.client.groupKey = groupKey) :
      Awaits d x groupKey v []

def Rotated (d : Departure) (v : View prim) : Prop :=
  v.client.isHost = true ∧ (v.todo = [.promote d.host] ∨ v.todo = [])

def Served (d : Departure) (x : ParticipantID) (v : View prim) : Prop :=
  (∃ pairwise flight2, v.reader = .readmitting x pairwise flight2) ∨
    Rotated d v ∧ x ∈ v.client.pairwise

/-- A survivor `x` beside the elected end: their views, what is under way from the
departed host, and what is under way between the two. -/
inductive Following (d : Departure) (x : ParticipantID) (v successor : View prim) :
    (fromHost up down : List (Received prim Body)) → Prop where
  | led {fromHost : List (Received prim Body)} (led : Led d x v fromHost)
      (nothing : owed x successor.reader = []) : Following d x v successor fromHost [] []
  | turning (turning : Turning d v v.todo) (events : v.events = []) (reader : Resting v.reader)
      (nothing : owed x successor.reader = []) : Following d x v successor [] [] []
  | asked (seed : Bytes) (turned : Turned d v) (reader : Resting v.reader)
      (joiner : v.client.rekeyJoiner = some (d.joiner prim seed))
      (nothing : owed x successor.reader = []) :
      Following d x v successor [] [.direct x (.rekeyPake1 (d.flight prim seed))] []
  | answered {down : List (Received prim Body)} {promises : List Promise} (turned : Turned d v)
      (delivered : List.Forall₂ (Fulfils prim d x successor.client.groupKey) down promises)
      (awaits : Awaits d x successor.client.groupKey v (promises ++ owed x successor.reader))
      (served : Served d x successor) : Following d x v successor [] [] down

/-- Where the read goroutine of the new host is once the key is rotated. -/
inductive AtWork (d : Departure) (v : View prim) : Prop where
  | idle (reader : v.reader = .idle)
  | departed (reader : v.reader = .departed) (alone : v.client.pairwise = ∅)
  | readmitting {y : ParticipantID} {pairwise : Key} {flight2 : Bytes} (other : y ≠ d.successor)
      (reader : v.reader = .readmitting y pairwise flight2)
  | replying {y : ParticipantID} {pairwise : Key} {flight2 : Bytes} (other : y ≠ d.successor)
      (reader : v.reader = .readmitReply y pairwise flight2 v.client.groupKey)
  | keying {y : ParticipantID} {pairwise : Key} (other : y ≠ d.successor)
      (reader : v.reader = .readmitKey y pairwise v.client.groupKey)

/-- The elected end, with what is under way from the departed host. -/
inductive Leading (d : Departure) (v : View prim) : List (Received prim Body) → Prop where
  | led {fromHost : List (Received prim Body)} (led : Led d d.successor v fromHost) :
      Leading d v fromHost
  | electing (todo : v.todo = [.becomeHost, .rotateForMigration, .promote d.host])
      (events : v.events = []) (role : v.client.role ≠ roleHost) (alone : v.client.pairwise = ∅)
      (reader : Resting v.reader) : Leading d v []
  | hosting (todo : v.todo = [.rotateForMigration, .promote d.host]) (events : v.events = [])
      (host : v.client.isHost = true) (alone : v.client.pairwise = ∅)
      (reader : Resting v.reader ∨ ∃ y pairwise flight2, y ≠ d.successor ∧
        v.reader = .readmitting y pairwise flight2) : Leading d v []
  | rotated (rotated : Rotated d v) (events : v.events = []) (work : AtWork d v) : Leading d v []

section

variable {d : Departure} {p x : ParticipantID} {v v' successor : View prim} {n : Node prim}
  {E : Endpoint prim Body} {outputs : List (Output prim Body)} {outcome : Outcome}
  {post fromHost up down : List (Received prim Body)} {frame : Received prim Body}
  {rest : List (Received prim Body)} {seed : Bytes}

/-- What `Steady` is about. -/
def fixed (v : View prim) :
    (ParticipantID × SessionID × Bytes × Bytes × Bool) × Phase × List (Sent prim Body) :=
  ((v.client.self, v.client.sid, v.client.proto, v.client.phraseC, v.client.keyed), v.phase, v.calls)

theorem Steady.move (steady : Steady d p v) (same : fixed v' = fixed v) : Steady d p v' := by
  simp only [fixed, Prod.mk.injEq] at same
  obtain ⟨⟨self, sid, proto, phraseC, keyed⟩, phase, calls⟩ := same
  exact ⟨self.trans steady.self, sid.trans steady.sid, proto.trans steady.proto,
    phraseC.trans steady.phraseC, keyed.trans steady.keyed, phase.trans steady.phase,
    calls.trans steady.calls⟩

variable {reader : Reader prim} {posts : List (Sent prim Body)} {later : List (Event Body)}
  {c : Client} {due : List Promise} {event : Event Body} {promise : Promise} {y : ParticipantID}
  {task : Task prim} {groupKey : Key} {n' : Node prim}

theorem isHost_eq_false (notHost : c.role ≠ roleHost) : c.isHost = false := by
  simp [Client.isHost, notHost]

theorem role_of_isHost (host : c.isHost = true) : c.role = roleHost := by
  simp only [Client.isHost, Bool.decide_and, Bool.and_eq_true, decide_eq_true_eq] at host
  exact host.1

theorem view_settle_silent (n : Node prim) (c : Client) (reader : Reader prim) :
    view (n.settle { n.endpoint with client := c, reader := reader } []) =
      { view n with client := core c, reader := reader } := by
  simp [view, Node.settle]

theorem view_withClient (n : Node prim) (c : Client) (todo : List (Task prim)) :
    view (n.withClient c todo) =
      { view n with client := core c, todo := weighty plainTask todo } := rfl

theorem view_of_departed (isDeparted : n.endpoint.reader = .departed)
    (nobody : n.endpoint.client.isHost = false ∨ n.endpoint.client.pairwise = ∅)
    (advanced : n.endpoint.advance outcome = some (E, outputs)) :
    outputs = [] ∧ view (n.settle E outputs) = { view n with reader := .idle } := by
  have none : n.endpoint.client.rekeyAfterLeave prim outcome.key outcome.nonce = none := by
    rcases nobody with notHost | alone
    · exact Client.rekeyAfterLeave_of_not_host notHost outcome.key outcome.nonce
    · exact Client.rekeyAfterLeave_of_alone (by rw [alone]; rfl) outcome.key outcome.nonce
  simp only [Endpoint.advance, isDeparted, none] at advanced
  cases advanced
  exact ⟨rfl, view_settle_silent n n.endpoint.client .idle⟩

theorem view_of_installing {key : Key} (isInstalling : n.endpoint.reader = .installing key roleNone)
    (advanced : n.endpoint.advance outcome = some (E, outputs)) :
    outputs = [] ∧ view (n.settle E outputs) =
      { view n with client := core (n.endpoint.client.swapKey key), reader := .idle } := by
  simp only [Endpoint.advance, isInstalling, Client.install, if_true] at advanced
  cases advanced
  exact ⟨rfl, view_settle_silent n _ .idle⟩

theorem advance_of_idle (idle : n.endpoint.reader = .idle) : n.endpoint.advance outcome = none := by
  simp only [Endpoint.advance, idle]

theorem handleRekey_role (sid : c.sid = d.sid) (self : c.self = p)
    {fromID : ParticipantID} {gk : GroupKey prim} {key : Key} {role : Role}
    (old : ∀ pairwise key role, unwrapGroupKey prim pairwise gk d.sid p = some (key, role) →
      role = roleNone)
    (handled : c.handleRekey fromID gk = some (key, role)) : role = roleNone := by
  unfold Client.handleRekey at handled
  split at handled
  · rw [sid, self] at handled
    exact old _ _ _ handled
  · cases handled

theorem Led.takes (steady : Steady d p (view n)) (led : Led d p (view n) post)
    (isPost : post = frame :: rest) (idle : n.endpoint.reader = .idle)
    (received : n.endpoint.receive frame seed = some (E, outputs)) :
    Led d p (view (n.settle E outputs)) rest ∧ Steady d p (view (n.settle E outputs)) := by
  have viewed := view_of_receive idle received
  cases led with
  | heard guest events reader => cases isPost
  | @unheard early guest events old reader =>
      cases early with
      | nil =>
          obtain ⟨rfl, rfl⟩ := List.cons.inj isPost
          rw [viewed, events]
          refine ⟨.heard ⟨guest.hostID, guest.role, ?_, guest.todo⟩ rfl (Or.inr rfl),
            steady.move rfl⟩
          have alone : n.endpoint.client.pairwise = ∅ := guest.pairwise
          change n.endpoint.client.pairwise.erase d.host = ∅
          rw [alone]
          rfl
      | cons first early =>
          obtain ⟨rfl, rfl⟩ := List.cons.inj isPost
          obtain ⟨gk, rfl, keeps⟩ := old first (List.mem_cons_self ..)
          have older : ∀ frame ∈ early, OldKey d p frame :=
            fun frame member => old frame (List.mem_cons_of_mem _ member)
          rw [viewed, events]
          simp only [Client.dispatchFrame, Client.handlePayload]
          split
          · rename_i key role handled
            have same := handleRekey_role steady.sid steady.self keeps handled
            subst same
            exact ⟨.unheard ⟨guest.hostID, guest.role, guest.pairwise, guest.todo⟩ rfl older
              (Or.inr ⟨key, rfl⟩), steady.move rfl⟩
          · exact ⟨.unheard ⟨guest.hostID, guest.role, guest.pairwise, guest.todo⟩ rfl older
              (Or.inl rfl), steady.move rfl⟩

theorem Led.advances (steady : Steady d p (view n)) (led : Led d p (view n) post)
    (advanced : n.endpoint.advance outcome = some (E, outputs)) :
    outputs = [] ∧ Led d p (view (n.settle E outputs)) post ∧
      Steady d p (view (n.settle E outputs)) := by
  cases led with
  | unheard guest events old reader =>
      rcases reader with idle | ⟨key, installing⟩
      · rw [advance_of_idle idle] at advanced
        cases advanced
      · obtain ⟨silent, viewed⟩ := view_of_installing installing advanced
        rw [viewed]
        exact ⟨silent, .unheard ⟨guest.hostID, guest.role, guest.pairwise, guest.todo⟩ events old
          (Or.inl rfl), steady.move rfl⟩
  | heard guest events reader =>
      rcases reader with idle | departed
      · rw [advance_of_idle idle] at advanced
        cases advanced
      · obtain ⟨silent, viewed⟩ :=
          view_of_departed departed (Or.inl (isHost_eq_false guest.role)) advanced
        rw [viewed]
        exact ⟨silent, .heard ⟨guest.hostID, guest.role, guest.pairwise, guest.todo⟩ events
          (Or.inl rfl), steady.move rfl⟩

theorem view_of_hostLeft (rest : List (Event Body)) (hostID : n.endpoint.client.hostID = d.host)
    (elects : (n.mux.ctl.memberLeft ctlServices d.host).1.electSuccessor n.mux.successor d.host =
      d.successor) :
    view (n.event (.memberLeft d.host) rest) =
      { view n with
        events := weighty plainEvent rest
        todo :=
          if d.successor = n.endpoint.client.self then
            [.becomeHost, .rotateForMigration, .promote d.host]
          else [.setHostID d.successor, .reattach, .rekeyWithNewHost] } := by
  have ctx := Ctl.ctx_memberLeft n.mux.ctl d.host
  simp only [view, Node.event, Mux.dispatch, Mux.sending, Mux.maybeMigrate, Mux.emit, elects,
    hostID, ne_eq, not_true_eq_false, if_false, d.elected, weighty_append, weighty_sealing,
    List.nil_append, ctx]
  split <;> rfl

structure Survivor (d : Departure) (x : ParticipantID) (v successor : View prim)
    (fromHost up down : List (Received prim Body)) : Prop where
  steady : Steady d x v
  role : v.client.role ≠ roleHost
  following : Following d x v successor fromHost up down

theorem Led.role (led : Led d p v post) : v.client.role ≠ roleHost := by
  cases led with
  | unheard guest => exact guest.role
  | heard guest => exact guest.role

theorem Survivor.takes_host (s : Survivor d x (view n) successor (frame :: rest) up down)
    (idle : n.endpoint.reader = .idle)
    (received : n.endpoint.receive frame seed = some (E, outputs)) :
    Survivor d x (view (n.settle E outputs)) successor rest up down := by
  generalize isPost : frame :: rest = post at s
  obtain ⟨steady, role, following⟩ := s
  cases following with
  | led led nothing =>
      obtain ⟨led, steady⟩ := led.takes steady isPost.symm idle received
      exact ⟨steady, led.role, .led led nothing⟩
  | turning => cases isPost
  | asked => cases isPost
  | answered => cases isPost

theorem Awaits.takes {later : List Promise} (steady : Steady d x (view n))
    (hostID : n.endpoint.client.hostID = d.successor) (awaits : Awaits d x groupKey (view n) due)
    (isDue : due = promise :: later) (fulfils : Fulfils prim d x groupKey frame promise)
    (idle : n.endpoint.reader = .idle)
    (received : n.endpoint.receive frame seed = some (E, outputs)) :
    ∃ reader, view (n.settle E outputs) = { view n with reader := reader } ∧
      Awaits d x groupKey { view n with reader := reader } later := by
  have viewed := view_of_receive idle received
  have isIdle : (view n).reader = .idle := idle
  cases awaits with
  | @asked j flight2 pairwise resting joiner agrees =>
      obtain ⟨rfl, rfl⟩ := List.cons.inj isDue
      cases fulfils with
      | reply flight =>
          have isJoiner : n.endpoint.client.rekeyJoiner = some j := joiner
          simp only [Client.dispatchFrame, Client.handlePayload, isJoiner, if_pos hostID.symm]
            at viewed
          refine ⟨.finishing j flight.data, viewed.trans ?_, .finishing rfl agrees⟩
          simp only [weighty, List.filter_nil, List.append_nil]
          rfl
  | finishing reader =>
      rw [isIdle] at reader
      cases reader
  | finished reader =>
      rw [isIdle] at reader
      cases reader
  | @paired pairwise reader known same =>
      obtain ⟨rfl, rfl⟩ := List.cons.inj isDue
      cases fulfils with
      | @key gk _ wraps =>
          have handled : n.endpoint.client.handleRekey d.successor gk = some (groupKey, roleNone) := by
            have allowed : n.endpoint.client.haveHostPairwise = true ∧
                d.successor = n.endpoint.client.hostID := ⟨known, hostID.symm⟩
            have sid : n.endpoint.client.sid = d.sid := steady.sid
            have self : n.endpoint.client.self = x := steady.self
            have isPairwise : n.endpoint.client.hostPairwise = pairwise := same
            rw [Client.handleRekey, if_pos allowed, sid, self, isPairwise]
            exact wraps
          simp only [Client.dispatchFrame, Client.handlePayload, handled] at viewed
          refine ⟨.installing groupKey roleNone, viewed.trans ?_, .installing rfl⟩
          simp only [weighty, List.filter_nil, List.append_nil]
          rfl
  | installing => cases isDue
  | keyed => cases isDue

theorem Survivor.takes_successor (s : Survivor d x (view n) successor fromHost up (frame :: rest))
    (idle : n.endpoint.reader = .idle)
    (received : n.endpoint.receive frame seed = some (E, outputs)) :
    Survivor d x (view (n.settle E outputs)) successor fromHost up rest := by
  generalize isDown : frame :: rest = down at s
  obtain ⟨steady, role, following⟩ := s
  cases following with
  | led => cases isDown
  | turning => cases isDown
  | asked => cases isDown
  | answered turned delivered awaits served =>
      subst isDown
      obtain ⟨promise, left, fulfils, remaining, rfl⟩ := List.forall₂_cons_left_iff.mp delivered
      obtain ⟨reader, viewed, awaits⟩ :=
        awaits.takes steady turned.hostID rfl fulfils idle received
      rw [viewed]
      exact ⟨steady.move rfl, role,
        .answered ⟨turned.hostID, turned.attached, turned.events, turned.todo⟩ remaining awaits
          served⟩

theorem Awaits.advances {groupKey : Key} {due : List Promise} (steady : Steady d x (view n))
    (role : n.endpoint.client.role ≠ roleHost) (hostID : n.endpoint.client.hostID = d.successor)
    (awaits : Awaits d x groupKey (view n) due)
    (advanced : n.endpoint.advance outcome = some (E, outputs)) :
    outputs = [] ∧ ∃ c reader, view (n.settle E outputs) =
        { view n with client := core c, reader := reader } ∧
      fixed { view n with client := core c, reader := reader } = fixed (view n) ∧
      c.role = n.endpoint.client.role ∧ c.hostID = n.endpoint.client.hostID ∧
      Awaits d x groupKey { view n with client := core c, reader := reader } due := by
  have stuck : n.endpoint.reader ≠ .idle := by
    intro idle
    rw [advance_of_idle idle] at advanced
    cases advanced
  cases awaits with
  | asked reader joiner agrees =>
      have departed := reader.resolve_left stuck
      obtain ⟨silent, viewed⟩ := view_of_departed departed (Or.inl (isHost_eq_false role)) advanced
      exact ⟨silent, n.endpoint.client, .idle, viewed, rfl, rfl, rfl,
        .asked (Or.inl rfl) joiner agrees⟩
  | @finishing j flight2 pairwise reader agrees =>
      have isFinishing : n.endpoint.reader = .finishing j flight2 := reader
      have sid : n.endpoint.client.sid = d.sid := steady.sid
      have self : n.endpoint.client.self = x := steady.self
      have finished : n.endpoint.client.finish prim j flight2 = some pairwise := by
        rw [Client.finish, sid, self, hostID]
        exact agrees
      simp only [Endpoint.advance, isFinishing, finished] at advanced
      cases advanced
      exact ⟨rfl, n.endpoint.client, .finished pairwise, view_settle_silent n _ _, rfl, rfl, rfl,
        .finished rfl⟩
  | @finished pairwise reader =>
      have isFinished : n.endpoint.reader = .finished pairwise := reader
      simp only [Endpoint.advance, isFinished] at advanced
      cases advanced
      exact ⟨rfl, n.endpoint.client.adoptHostPairwise pairwise, .idle, view_settle_silent n _ _,
        rfl, rfl, rfl, .paired rfl rfl rfl⟩
  | paired reader => exact absurd reader stuck
  | installing reader =>
      obtain ⟨silent, viewed⟩ := view_of_installing reader advanced
      exact ⟨silent, n.endpoint.client.swapKey groupKey, .idle, viewed, rfl, rfl, rfl,
        .keyed rfl rfl⟩
  | keyed reader => exact absurd reader stuck

theorem Survivor.advances (s : Survivor d x (view n) successor fromHost up down)
    (advanced : n.endpoint.advance outcome = some (E, outputs)) :
    outputs = [] ∧ Survivor d x (view (n.settle E outputs)) successor fromHost up down := by
  obtain ⟨steady, role, following⟩ := s
  have departs : ∀ reader, Resting reader → n.endpoint.reader = reader →
      outputs = [] ∧ view (n.settle E outputs) = { view n with reader := .idle } := by
    rintro reader (rfl | rfl) isReader
    · rw [advance_of_idle isReader] at advanced
      cases advanced
    · exact view_of_departed isReader (Or.inl (isHost_eq_false role)) advanced
  cases following with
  | led led nothing =>
      obtain ⟨silent, led, steady⟩ := led.advances steady advanced
      exact ⟨silent, steady, led.role, .led led nothing⟩
  | turning turning events reader nothing =>
      obtain ⟨silent, viewed⟩ := departs _ reader rfl
      rw [viewed]
      refine ⟨silent, steady.move rfl, role,
        .turning ?_ events (Or.inl rfl) nothing⟩
      generalize (view n).todo = todo at turning
      cases turning with
      | electing hostID => exact .electing hostID
      | turned hostID => exact .turned hostID
      | attached hostID attached => exact .attached hostID attached
      | greeting seed hostID attached joiner => exact .greeting seed hostID attached joiner
  | asked seed turned reader joiner nothing =>
      obtain ⟨silent, viewed⟩ := departs _ reader rfl
      rw [viewed]
      exact ⟨silent, steady.move rfl, role,
        .asked seed ⟨turned.hostID, turned.attached, turned.events, turned.todo⟩ (Or.inl rfl)
          joiner nothing⟩
  | answered turned delivered awaits served =>
      obtain ⟨silent, c, reader, viewed, same, sameRole, hostID, awaits⟩ :=
        awaits.advances steady role turned.hostID advanced
      rw [viewed]
      exact ⟨silent, steady.move same, fun host => role (sameRole.symm.trans host),
        .answered ⟨hostID.trans turned.hostID, turned.attached, turned.events, turned.todo⟩
          delivered awaits served⟩

theorem Survivor.notices
    (s : Survivor d x (view n) successor fromHost up down) (other : d.successor ≠ x)
    (isEvents : n.events = event :: later) (weighs : plainEvent event = false)
    (elects : event = .memberLeft d.host →
      (n.mux.ctl.memberLeft ctlServices d.host).1.electSuccessor n.mux.successor d.host =
        d.successor) :
    Survivor d x (view (n.event event later)) successor fromHost up down := by
  obtain ⟨steady, role, following⟩ := s
  have pending : (view n).events = event :: weighty plainEvent later := by
    simp only [view, isEvents, weighty_cons weighs]
  cases following with
  | led led nothing =>
      cases led with
      | unheard guest events =>
          rw [pending] at events
          cases events
      | heard guest events reader =>
          rw [pending] at events
          obtain ⟨rfl, none⟩ := List.cons.inj events
          have self : n.endpoint.client.self = x := steady.self
          have viewed := view_of_hostLeft later guest.hostID (elects rfl)
          rw [none, self, if_neg other] at viewed
          rw [viewed]
          exact ⟨steady.move rfl, role,
            .turning (.electing guest.hostID) rfl reader nothing⟩
  | turning _ events =>
      rw [pending] at events
      cases events
  | asked _ turned | answered turned =>
      have events := turned.events
      rw [pending] at events
      cases events

theorem rekeyWithNewHost_of_survivor (steady : Steady d x (view n))
    (role : n.endpoint.client.role ≠ roleHost) (hostID : n.endpoint.client.hostID = d.successor)
    (other : d.successor ≠ x) (seed : Bytes) :
    n.endpoint.client.rekeyWithNewHost prim Body seed =
      some ({ n.endpoint.client with rekeyJoiner := some (d.joiner prim seed) },
        .direct d.successor (.rekeyPake1 (d.flight prim seed))) := by
  have self : n.endpoint.client.self = x := steady.self
  have keyed : n.endpoint.client.keyed = true := steady.keyed
  have proto : n.endpoint.client.proto = d.proto := steady.proto
  have phraseC : n.endpoint.client.phraseC = d.phraseC := steady.phraseC
  simp only [Departure.joiner, Departure.flight, ← proto, ← phraseC, ← hostID]
  rw [Client.rekeyWithNewHost, if_neg (by simp [role, hostID, self, other, keyed])]

theorem Survivor.performs {later : List (Task prim)} {outcome : TaskOutcome}
    (s : Survivor d x (view n) successor fromHost up down) (other : d.successor ≠ x)
    (isTodo : n.todo = task :: later) (weighs : plainTask task = false)
    (written : outcome.written = true) (done : n.perform task later outcome = (n', posts)) :
    Survivor d x (view n') successor fromHost
        (up ++ weighty plainFrame (posts.filterMap (fun posted => carry x posted d.successor)))
        down ∧
      ∀ y, y ≠ d.successor →
        weighty plainFrame (posts.filterMap (fun posted => carry x posted y)) = [] := by
  obtain ⟨steady, role, following⟩ := s
  have pending : (view n).todo = task :: weighty plainTask later := by
    simp only [view, isTodo, weighty_cons weighs]
  have busy : (view n).todo ≠ [] := by rw [pending]; exact List.cons_ne_nil _ _
  cases following with
  | led led =>
      cases led with
      | unheard guest => exact absurd guest.todo busy
      | heard guest => exact absurd guest.todo busy
  | asked _ turned => exact absurd turned.todo busy
  | answered turned => exact absurd turned.todo busy
  | turning turning events reader nothing =>
      generalize isLeft : (view n).todo = todo at turning
      rw [pending] at isLeft
      cases turning with
      | electing hostID =>
          obtain ⟨rfl, left⟩ := List.cons.inj isLeft
          cases done
          rw [view_withClient, left]
          exact ⟨⟨steady.move rfl, role,
            .turning (.turned rfl) events reader nothing⟩, fun y _ => rfl⟩
      | turned hostID =>
          obtain ⟨rfl, left⟩ := List.cons.inj isLeft
          cases done
          refine ⟨⟨steady.move rfl, role,
            .turning ?_ events reader nothing⟩, fun y _ => rfl⟩
          change Turning d _ (weighty plainTask later)
          rw [left]
          exact .attached hostID hostID
      | attached hostID attached =>
          obtain ⟨rfl, left⟩ := List.cons.inj isLeft
          have asks := rekeyWithNewHost_of_survivor steady role hostID other outcome.seed
          simp only [Node.perform, asks] at done
          cases done
          rw [view_withClient, weighty_cons rfl, left]
          exact ⟨⟨steady.move rfl, role,
            .turning (.greeting outcome.seed hostID attached rfl) events reader nothing⟩,
            fun y _ => rfl⟩
      | greeting seed hostID attached joiner =>
          obtain ⟨rfl, left⟩ := List.cons.inj isLeft
          simp only [Node.perform, written, if_true] at done
          cases done
          refine ⟨?_, fun y differ => ?_⟩
          · rw [weighty_carry_direct x d.successor d.successor rfl, if_pos rfl]
            exact ⟨steady.move rfl, role,
              .asked seed ⟨hostID, attached, events, left⟩ reader joiner nothing⟩
          · rw [weighty_carry_direct x d.successor y rfl, if_neg (Ne.symm differ)]

variable {successor' : View prim}

theorem Following.of_served (following : Following d x v successor fromHost up down)
    (owes : owed x successor'.reader = owed x successor.reader)
    (sameKey : successor'.client.groupKey = successor.client.groupKey)
    (stays : Served d x successor → Served d x successor') :
    Following d x v successor' fromHost up down := by
  cases following with
  | led led nothing => exact .led led (owes.trans nothing)
  | turning turning events reader nothing =>
      exact .turning turning events reader (owes.trans nothing)
  | asked seed turned reader joiner nothing =>
      exact .asked seed turned reader joiner (owes.trans nothing)
  | answered turned delivered awaits served =>
      rw [← sameKey] at delivered awaits
      rw [← owes] at awaits
      exact .answered turned delivered awaits (stays served)

theorem Following.of_unserved (following : Following d x v successor fromHost up down)
    (unserved : ¬Served d x successor) (owes : owed x successor'.reader = []) :
    Following d x v successor' fromHost up down := by
  cases following with
  | led led => exact .led led owes
  | turning turning events reader => exact .turning turning events reader owes
  | asked seed turned reader joiner => exact .asked seed turned reader joiner owes
  | answered turned delivered awaits served => exact absurd served unserved

theorem Following.of_delivery (following : Following d x v successor fromHost up down)
    (owes : owed x successor.reader = promise :: owed x successor'.reader)
    (sameKey : successor'.client.groupKey = successor.client.groupKey)
    (fulfils : Fulfils prim d x successor.client.groupKey frame promise)
    (stays : Served d x successor → Served d x successor') :
    Following d x v successor' fromHost up (down ++ [frame]) := by
  have busy : owed x successor.reader ≠ [] := by rw [owes]; exact List.cons_ne_nil _ _
  cases following with
  | led led nothing | turning turning events reader nothing
  | asked seed turned reader joiner nothing => exact absurd nothing busy
  | @answered down promises turned delivered awaits served =>
      have both : List.Forall₂ (Fulfils prim d x successor'.client.groupKey) (down ++ [frame])
          (promises ++ [promise]) := by
        rw [sameKey]
        exact List.rel_append delivered (.cons fulfils .nil)
      rw [owes, ← List.singleton_append, ← List.append_assoc, ← sameKey] at awaits
      exact .answered turned both awaits (stays served)

/-- A step of the elected end, with what it writes to each survivor. -/
def Conveys (d : Departure) (v v' : View prim)
    (posted : ParticipantID → List (Received prim Body)) : Prop :=
  ∀ x, x ≠ d.successor → ∀ {survivor : View prim} {fromHost up down : List (Received prim Body)},
    Following d x survivor v fromHost up down →
      Following d x survivor v' fromHost up (down ++ posted x)

theorem Conveys.silent
    (follows : ∀ x, x ≠ d.successor → ∀ {survivor : View prim}
      {fromHost up down : List (Received prim Body)},
      Following d x survivor v fromHost up down → Following d x survivor v' fromHost up down) :
    Conveys d v v' (fun _ => []) := by
  intro x other survivor fromHost up down following
  rw [List.append_nil]
  exact follows x other following

theorem Led.unserved (led : Led d p v post) (x : ParticipantID) :
    owed x v.reader = [] ∧ ¬Served d x v := by
  have notRotated : ¬Rotated d v := by
    rintro ⟨host, _⟩
    exact led.role (role_of_isHost host)
  have calm : v.reader = .idle ∨ v.reader = .departed ∨ ∃ key, v.reader = .installing key roleNone := by
    cases led with
    | unheard guest events old reader => exact reader.imp_right Or.inr
    | heard guest events reader => exact reader.imp_right Or.inl
  rcases calm with isReader | isReader | ⟨key, isReader⟩
  all_goals
    refine ⟨by rw [isReader]; rfl, ?_⟩
    rintro (⟨pairwise, flight2, serving⟩ | ⟨rotated, _⟩)
    · rw [isReader] at serving
      cases serving
    · exact notRotated rotated

theorem Conveys.of_led (before : Led d p v post) {post' : List (Received prim Body)}
    (after : Led d p v' post') : Conveys d v v' (fun _ => []) :=
  .silent (fun x _ => fun following =>
    following.of_unserved (before.unserved x).2 (after.unserved x).1)

theorem owed_of_resting (resting : Resting reader) (x : ParticipantID) :
    owed x reader = [] := by
  rcases resting with rfl | rfl <;> rfl

theorem unserved_of_resting (resting : Resting v.reader) (notRotated : ¬Rotated d v)
    (x : ParticipantID) : ¬Served d x v := by
  rintro (⟨pairwise, flight2, serving⟩ | ⟨rotated, _⟩)
  · rcases resting with isReader | isReader <;> · rw [isReader] at serving; cases serving
  · exact notRotated rotated

theorem Leading.takes_host (steady : Steady d d.successor (view n))
    (leading : Leading d (view n) (frame :: rest)) (idle : n.endpoint.reader = .idle)
    (received : n.endpoint.receive frame seed = some (E, outputs)) :
    Leading d (view (n.settle E outputs)) rest ∧
      Steady d d.successor (view (n.settle E outputs)) ∧
      Conveys d (view n) (view (n.settle E outputs)) (fun _ => []) := by
  generalize isPost : frame :: rest = post at leading
  cases leading with
  | led led =>
      obtain ⟨after, steady⟩ := led.takes steady isPost.symm idle received
      exact ⟨.led after, steady, .of_led led after⟩
  | electing => cases isPost
  | hosting => cases isPost
  | rotated => cases isPost

theorem Following.flight (following : Following d x v successor fromHost (frame :: rest) down) :
    ∃ seed, frame = .direct x (.rekeyPake1 (d.flight prim seed)) ∧ rest = [] ∧ Turned d v ∧
      Resting v.reader ∧ v.client.rekeyJoiner = some (d.joiner prim seed) ∧ fromHost = [] ∧
      down = [] ∧ owed x successor.reader = [] := by
  cases following with
  | asked seed turned reader joiner nothing =>
      exact ⟨seed, rfl, rfl, turned, reader, joiner, rfl, rfl, nothing⟩

theorem Leading.takes_flight (ideal : prim.Ideal) (steady : Steady d d.successor (view n))
    (leading : Leading d (view n) post) (host : n.endpoint.client.isHost = true)
    (other : x ≠ d.successor) (first : Bytes) (idle : n.endpoint.reader = .idle)
    (received : n.endpoint.receive (.direct x (.rekeyPake1 (d.flight prim first))) seed =
      some (E, outputs)) :
    ∃ pairwise flight2,
      (d.joiner prim first).finish prim flight2 d.sid x d.successor = some pairwise ∧
      view (n.settle E outputs) = { view n with reader := .readmitting x pairwise flight2 } ∧
      Leading d (view (n.settle E outputs)) post := by
  have viewed := view_of_receive idle received
  obtain ⟨pairwise, flight2, exchanged, agrees⟩ :=
    hostExchange_agrees ideal d.proto d.phraseC first seed d.sid x d.successor
  have self : n.endpoint.client.self = d.successor := steady.self
  have sid : n.endpoint.client.sid = d.sid := steady.sid
  have proto : n.endpoint.client.proto = d.proto := steady.proto
  have phraseC : n.endpoint.client.phraseC = d.phraseC := steady.phraseC
  have exchanges : n.endpoint.client.hostExchange prim x (d.flight prim first) seed =
      some (pairwise, flight2) := by
    rw [Client.hostExchange, self, sid, proto, phraseC]
    exact exchanged
  simp only [Client.dispatchFrame, Client.handlePayload, host, if_true, exchanges] at viewed
  have shown : view (n.settle E outputs) =
      { view n with reader := .readmitting x pairwise flight2 } := by
    refine viewed.trans ?_
    simp only [weighty, List.filter_nil, List.append_nil]
    rfl
  refine ⟨pairwise, flight2, agrees, shown, ?_⟩
  rw [shown]
  cases leading with
  | led led => exact absurd (role_of_isHost host) led.role
  | electing todo events role => exact absurd (role_of_isHost host) role
  | hosting todo events host alone reader =>
      exact .hosting todo events host alone (Or.inr ⟨x, pairwise, flight2, other, rfl⟩)
  | rotated rotated events work => exact .rotated rotated events (.readmitting other rfl)

theorem view_settle_wrote (n : Node prim) (sent : Sent prim Body) (reader : Reader prim) :
    view (n.settle { n.endpoint with reader := reader } [.wrote sent]) =
      { view n with reader := reader } := by
  simp [view, Node.settle]

theorem Served.of_reader (served : Served d x v) (rotated : Rotated d v)
    (away : ∀ pairwise flight2, v.reader ≠ .readmitting x pairwise flight2)
    (sameClient : v'.client = v.client) (sameTodo : v'.todo = v.todo) : Served d x v' := by
  rcases served with ⟨pairwise, flight2, serving⟩ | ⟨_, member⟩
  · exact absurd serving (away pairwise flight2)
  · refine Or.inr ⟨⟨?_, ?_⟩, ?_⟩
    · rw [sameClient]
      exact rotated.1
    · rw [sameTodo]
      exact rotated.2
    · rw [sameClient]
      exact member

theorem Conveys.of_write {payload : Payload prim Body} (promise : Promise) (rotated : Rotated d v)
    (away : ∀ x pairwise flight2, v.reader ≠ .readmitting x pairwise flight2)
    (weighs : plainPayload payload = false) (owes : owed y v.reader = promise :: owed y reader)
    (others : ∀ x, x ≠ y → owed x reader = owed x v.reader)
    (fulfils : Fulfils prim d y v.client.groupKey (.direct d.successor payload) promise) :
    Conveys d v { v with reader := reader } (fun x => weighty plainFrame
      ([Sent.direct y payload].filterMap (fun posted => carry d.successor posted x))) := by
  intro x other survivor fromHost up down following
  have stays : Served d x v → Served d x { v with reader := reader } :=
    fun served => served.of_reader rotated (away x) rfl rfl
  dsimp only
  rw [weighty_carry_direct d.successor y x weighs]
  by_cases here : y = x
  · subst here
    rw [if_pos rfl]
    exact following.of_delivery owes rfl fulfils stays
  · rw [if_neg here, List.append_nil]
    exact following.of_served (others x (Ne.symm here)) rfl stays

theorem Conveys.of_departed (resting : Resting v.reader)
    (same : ∀ x, Served d x v → Served d x { v with reader := .idle }) :
    Conveys d v { v with reader := .idle } (fun _ => []) :=
  .silent (fun x _ => fun following =>
    following.of_served (owed_of_resting resting x).symm rfl (same x))

theorem Leading.advances (ideal : prim.Ideal) (steady : Steady d d.successor (view n))
    (leading : Leading d (view n) post) (nonce : outcome.nonce.isSome = true)
    (written : outcome.written = true)
    (timely : ∀ y pairwise flight2, n.endpoint.reader = .readmitting y pairwise flight2 →
      .rotateForMigration ∉ (view n).todo)
    (advanced : n.endpoint.advance outcome = some (E, outputs)) :
    Leading d (view (n.settle E outputs)) post ∧
      Steady d d.successor (view (n.settle E outputs)) ∧
      Conveys d (view n) (view (n.settle E outputs)) (fun x => weighty plainFrame
        ((outputs.filterMap Output.written).filterMap (fun posted =>
          carry d.successor posted x))) ∧
      weighty plainFrame ((outputs.filterMap Output.written).filterMap (fun posted =>
        carry d.successor posted d.successor)) = [] := by
  have stuck : n.endpoint.reader ≠ .idle := by
    intro idle
    rw [advance_of_idle idle] at advanced
    cases advanced
  cases leading with
  | led led =>
      obtain ⟨rfl, after, steady⟩ := led.advances steady advanced
      exact ⟨.led after, steady, .of_led led after, rfl⟩
  | electing todo events role alone reader =>
      have departed := reader.resolve_left stuck
      obtain ⟨rfl, viewed⟩ := view_of_departed departed (Or.inl (isHost_eq_false role)) advanced
      rw [viewed]
      have unserved := unserved_of_resting (d := d) reader (fun rotated => role (role_of_isHost rotated.1))
      exact ⟨.electing todo events role alone (Or.inl rfl),
        steady.move rfl,
        .of_departed reader (fun x served => absurd served (unserved x)), rfl⟩
  | hosting todo events host alone reader =>
      rcases reader with resting | ⟨y, pairwise, flight2, other, serving⟩
      · have departed := resting.resolve_left stuck
        obtain ⟨rfl, viewed⟩ := view_of_departed departed (Or.inr alone) advanced
        have unserved := unserved_of_resting (d := d) resting (by
          rintro ⟨_, isTodo | isTodo⟩ <;> · rw [todo] at isTodo; cases isTodo)
        rw [viewed]
        exact ⟨.hosting todo events host alone (Or.inl (Or.inl rfl)),
          steady.move rfl,
          .of_departed resting (fun x served => absurd served (unserved x)), rfl⟩
      · refine absurd ?_ (timely y pairwise flight2 serving)
        rw [todo]
        exact List.mem_cons_self ..
  | rotated rotated events work =>
      cases work with
      | idle reader => exact absurd reader stuck
      | departed reader alone =>
          obtain ⟨rfl, viewed⟩ := view_of_departed reader (Or.inr alone) advanced
          rw [viewed]
          refine ⟨.rotated rotated events (.idle rfl),
            steady.move rfl,
            .of_departed (Or.inr reader) (fun x served => ?_), rfl⟩
          refine served.of_reader rotated (fun pairwise flight2 serving => ?_) rfl rfl
          rw [reader] at serving
          cases serving
      | @readmitting y pairwise flight2 other reader =>
          have isReader : n.endpoint.reader = .readmitting y pairwise flight2 := reader
          simp only [Endpoint.advance, isReader] at advanced
          cases advanced
          have viewed := view_settle_silent n (n.endpoint.client.readmit y pairwise)
            (.readmitReply y pairwise flight2 n.endpoint.client.groupKey)
          rw [viewed]
          refine ⟨.rotated ⟨rotated.1, rotated.2⟩ events (.replying other rfl),
            steady.move rfl, .silent ?_, rfl⟩
          intro x _ survivor fromHost up down following
          refine following.of_served (by rw [reader]; rfl) rfl (fun served => ?_)
          refine Or.inr ⟨⟨rotated.1, rotated.2⟩, (AList.mem_insert _).mpr ?_⟩
          rcases served with ⟨pairwise', flight2', serving⟩ | ⟨_, member⟩
          · rw [reader] at serving
            cases serving
            exact Or.inl rfl
          · exact Or.inr member
      | @replying y pairwise flight2 other reader =>
          have isReader : n.endpoint.reader =
            .readmitReply y pairwise flight2 n.endpoint.client.groupKey := reader
          simp only [Endpoint.advance, isReader, Endpoint.writeThen, written, if_true] at advanced
          cases advanced
          rw [view_settle_wrote]
          refine ⟨.rotated ⟨rotated.1, rotated.2⟩ events (.keying other rfl),
            steady.move rfl, ?_, ?_⟩
          · refine .of_write (.reply flight2) rotated ?_ rfl ?_ ?_ (.reply _)
            · intro x pairwise' flight2' serving
              rw [reader] at serving
              cases serving
            · rw [reader, owed, owed, if_pos rfl, if_pos rfl]
            · intro x differ
              rw [reader, owed, owed, if_neg (Ne.symm differ), if_neg (Ne.symm differ)]
          · exact (weighty_carry_direct d.successor y d.successor rfl).trans (if_neg other)
      | @keying y pairwise other reader =>
          have isReader : n.endpoint.reader =
            .readmitKey y pairwise n.endpoint.client.groupKey := reader
          have sid : n.endpoint.client.sid = d.sid := steady.sid
          obtain ⟨nonces, isNonce⟩ := Option.isSome_iff_exists.mp nonce
          simp only [Endpoint.advance, isReader, Endpoint.wrapThen, isNonce, Endpoint.writeThen,
            written, if_true, sid] at advanced
          cases advanced
          rw [view_settle_wrote]
          refine ⟨.rotated ⟨rotated.1, rotated.2⟩ events (.idle rfl),
            steady.move rfl, ?_, ?_⟩
          · refine .of_write (.key pairwise) rotated ?_ rfl ?_ ?_ (.key ?_)
            · intro x pairwise' flight2' serving
              rw [reader] at serving
              cases serving
            · rw [reader, owed, if_pos rfl]
              rfl
            · intro x differ
              rw [reader]
              exact (if_neg (Ne.symm differ)).symm
            · rw [unwrapGroupKey_wrapGroupKey ideal, if_pos rfl]
              rfl
          · exact (weighty_carry_direct d.successor y d.successor rfl).trans (if_neg other)

theorem Leading.notices
    (steady : Steady d d.successor (view n)) (leading : Leading d (view n) post)
    (isEvents : n.events = event :: later) (weighs : plainEvent event = false)
    (elects : event = .memberLeft d.host →
      (n.mux.ctl.memberLeft ctlServices d.host).1.electSuccessor n.mux.successor d.host =
        d.successor) :
    Leading d (view (n.event event later)) post ∧
      Steady d d.successor (view (n.event event later)) ∧
      Conveys d (view n) (view (n.event event later)) (fun _ => []) := by
  have pending : (view n).events = event :: weighty plainEvent later := by
    simp only [view, isEvents, weighty_cons weighs]
  have waiting : (view n).events ≠ [] := by rw [pending]; exact List.cons_ne_nil _ _
  cases leading with
  | led led =>
      have unserved := led.unserved
      cases led with
      | unheard guest events => exact absurd events waiting
      | heard guest events reader =>
          rw [pending] at events
          obtain ⟨rfl, none⟩ := List.cons.inj events
          have self : n.endpoint.client.self = d.successor := steady.self
          have viewed := view_of_hostLeft later guest.hostID (elects rfl)
          rw [none, self, if_pos rfl] at viewed
          rw [viewed]
          exact ⟨.electing rfl rfl guest.role guest.pairwise reader,
            steady.move rfl,
            .silent (fun x _ => fun following =>
              following.of_unserved (unserved x).2 (owed_of_resting reader x))⟩
  | electing _ events | hosting _ events | rotated _ events => exact absurd events waiting

theorem Following.rotates {pairwise : Key} {flight2 : Bytes}
    (following : Following d x v successor fromHost up down)
    (isReader : successor.reader = .readmitting y pairwise flight2)
    (sameReader : successor'.reader = successor.reader) (notRotated : ¬Rotated d successor) :
    Following d x v successor' fromHost up down := by
  cases following with
  | led led nothing => exact .led led (by rw [sameReader]; exact nothing)
  | turning turning events reader nothing =>
      exact .turning turning events reader (by rw [sameReader]; exact nothing)
  | asked seed turned reader joiner nothing =>
      exact .asked seed turned reader joiner (by rw [sameReader]; exact nothing)
  | @answered _ promises turned delivered awaits served =>
      have serving := served.resolve_right (fun both => notRotated both.1)
      obtain ⟨pairwise', flight2', isServing⟩ := serving
      rw [isReader] at isServing
      cases isServing
      have owes : owed x successor.reader = [.reply flight2, .key pairwise] := by
        rw [isReader]
        exact if_pos rfl
      generalize due : promises ++ owed x successor.reader = promised at awaits
      rw [owes] at due
      have short : promised.length = promises.length + 2 := by rw [← due]; simp
      cases awaits with
      | asked reader joiner agrees =>
          have none : promises = [] := List.eq_nil_of_length_eq_zero (by simpa using short)
          subst none
          cases delivered
          cases due
          refine .answered turned .nil ?_ (Or.inl ⟨pairwise, flight2, sameReader.trans isReader⟩)
          rw [sameReader, owes]
          exact .asked reader joiner agrees
      | finishing | finished | paired | installing | keyed => simp at short

theorem view_promote (n : Node prim) (left : ParticipantID) (later : List (Task prim))
    (outcome : TaskOutcome) :
    view (n.perform (.promote left) later outcome).1 =
      { view n with
        todo := weighty plainTask later
        attached := n.endpoint.client.hostID } := by
  simp only [view, Node.perform, Mux.sending, weighty_append, weighty_sealing, List.nil_append]
  rw [weighty_cons_of_plain rfl, weighty_cons_of_plain rfl]
  rfl

theorem Leading.performs {later : List (Task prim)} {outcome : TaskOutcome}
    (steady : Steady d d.successor (view n)) (leading : Leading d (view n) post)
    (isTodo : n.todo = task :: later) (weighs : plainTask task = false)
    (fresh : outcome.key.isSome = true) (done : n.perform task later outcome = (n', posts)) :
    posts = [] ∧ Leading d (view n') post ∧ Steady d d.successor (view n') ∧
      Conveys d (view n) (view n') (fun _ => []) := by
  have pending : (view n).todo = task :: weighty plainTask later := by
    simp only [view, isTodo, weighty_cons weighs]
  have busy : (view n).todo ≠ [] := by rw [pending]; exact List.cons_ne_nil _ _
  cases leading with
  | led led =>
      cases led with
      | unheard guest => exact absurd guest.todo busy
      | heard guest => exact absurd guest.todo busy
  | electing todo events role alone reader =>
      rw [pending] at todo
      obtain ⟨rfl, left⟩ := List.cons.inj todo
      cases done
      have self : n.endpoint.client.self = d.successor := steady.self
      have unserved := unserved_of_resting (d := d) reader
        (fun rotated => role (role_of_isHost rotated.1))
      rw [view_withClient, left]
      refine ⟨rfl, .hosting rfl events ?_ alone (Or.inl reader),
        steady.move rfl, .silent (fun x _ => fun following =>
          following.of_unserved (unserved x) (owed_of_resting reader x))⟩
      simp [core, Client.becomeHost, Client.isHost]
  | hosting todo events host alone reader =>
      have notRotated : ¬Rotated d (view n) := by
        rintro ⟨_, isLeft | isLeft⟩ <;> · rw [todo] at isLeft; cases isLeft
      rw [pending] at todo
      obtain ⟨rfl, left⟩ := List.cons.inj todo
      obtain ⟨key, isKey⟩ := Option.isSome_iff_exists.mp fresh
      have isHost : n.endpoint.client.isHost = true := host
      simp only [Node.perform, isKey, Client.rotateForMigration, isHost, if_true] at done
      cases done
      rw [view_withClient, left]
      refine ⟨rfl, .rotated ⟨host, Or.inl rfl⟩ events ?_,
        steady.move rfl, .silent ?_⟩
      · rcases reader with (idle | departed) | ⟨y, pairwise, flight2, other, serving⟩
        · exact .idle idle
        · exact .departed departed rfl
        · exact .readmitting other serving
      · intro x _ survivor fromHost up down following
        rcases reader with resting | ⟨y, pairwise, flight2, other, serving⟩
        · exact following.of_unserved (unserved_of_resting resting notRotated x)
            (owed_of_resting resting x)
        · exact following.rotates serving rfl notRotated
  | rotated rotated events work =>
      rcases rotated.2 with todo | todo
      · rw [pending] at todo
        obtain ⟨rfl, left⟩ := List.cons.inj todo
        have viewed := view_promote n d.host later outcome
        rw [done] at viewed
        cases done
        rw [viewed, left]
        refine ⟨rfl, .rotated ⟨rotated.1, Or.inr rfl⟩ events ?_,
          steady.move rfl, .silent ?_⟩
        · cases work with
          | idle reader => exact .idle reader
          | departed reader alone => exact .departed reader alone
          | readmitting other reader => exact .readmitting other reader
          | replying other reader => exact .replying other reader
          | keying other reader => exact .keying other reader
        · intro x _ survivor fromHost up down following
          refine following.of_served rfl rfl (fun served => ?_)
          exact served.imp_right (fun both => ⟨⟨rotated.1, Or.inr rfl⟩, both.2⟩)
      · exact absurd todo busy

/-! ### All ends are in their read loops -/

theorem Resting.inLoop (resting : Resting reader) :
    Reader.inLoop reader = true := by
  rcases resting with rfl | rfl <;> rfl

theorem Led.inLoop (led : Led d p v post) : Reader.inLoop v.reader = true := by
  cases led with
  | unheard guest events old reader =>
      rcases reader with isReader | ⟨key, isReader⟩ <;> rw [isReader] <;> rfl
  | heard guest events reader => exact reader.inLoop

theorem Awaits.inLoop (awaits : Awaits d x groupKey v due) :
    Reader.inLoop v.reader = true := by
  cases awaits with
  | asked reader => exact reader.inLoop
  | finishing reader | finished reader | paired reader | installing reader | keyed reader =>
      rw [reader]; rfl

theorem Following.inLoop (following : Following d x v successor fromHost up down) :
    Reader.inLoop v.reader = true := by
  cases following with
  | led led => exact led.inLoop
  | turning _ _ reader => exact reader.inLoop
  | asked _ _ reader => exact reader.inLoop
  | answered _ _ awaits => exact awaits.inLoop

theorem Leading.inLoop (leading : Leading d v post) : Reader.inLoop v.reader = true := by
  cases leading with
  | led led => exact led.inLoop
  | electing _ _ _ _ reader => exact reader.inLoop
  | hosting _ _ _ _ reader =>
      rcases reader with resting | ⟨_, _, _, _, isReader⟩
      · exact resting.inLoop
      · rw [isReader]
        rfl
  | rotated _ _ work =>
      cases work with
      | idle reader | departed reader | readmitting _ reader | replying _ reader
      | keying _ reader => rw [reader]; rfl

theorem idle_of_receive (loop : Reader.inLoop n.endpoint.reader = true)
    (received : n.endpoint.receive frame seed = some (E, outputs)) :
    n.endpoint.reader = .idle := by
  unfold Endpoint.receive at received
  split at received
  · rename_i isReader
    rw [isReader] at loop
    cases loop
  · assumption
  · cases received

theorem Following.settled (following : Following d x v successor [] [] [])
    (still : v.reader = .idle ∧ v.todo = [] ∧ v.events = []) (idle : successor.reader = .idle) :
    v.client.groupKey = successor.client.groupKey ∧ x ∈ successor.client.pairwise := by
  obtain ⟨isIdle, todo, events⟩ := still
  generalize nothing : ([] : List (Received prim Body)) = fromHost at following
  cases following with
  | led led =>
      generalize nothing : ([] : List (Received prim Body)) = fromHost at led
      cases led with
      | unheard => simp at nothing
      | heard _ pending =>
          rw [events] at pending
          cases pending
  | turning turning =>
      rw [todo] at turning
      cases turning
  | @answered _ promises turned delivered awaits served =>
      cases delivered
      rw [idle] at awaits
      generalize due : ([] ++ owed x .idle : List Promise) = promised at awaits
      have member : x ∈ successor.client.pairwise := by
        rcases served with ⟨pairwise, flight2, serving⟩ | ⟨_, member⟩
        · rw [idle] at serving
          cases serving
        · exact member
      cases awaits with
      | installing reader =>
          rw [isIdle] at reader
          cases reader
      | keyed reader same => exact ⟨same, member⟩
      | asked => cases due
      | finishing => cases due
      | finished => cases due
      | paired => cases due

end

end Parley.Service.Migration
