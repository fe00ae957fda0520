/-
The goroutines of one session end, at the granularity of its lock.

The read goroutine first drives the join handshake and then the read loop.  Its
program counter (`Reader`) says which critical section or write comes next.
Application goroutines seal a message in one section and write it later, in any
order.  Connection writes and event sends are single steps; the event channel
and the connection never lose what is put into them.
-/

import Parley.Session.Client

namespace Parley.Session

open Crypto
open Wire (Bytes ParticipantID)

variable (prim : Primitives) (β : Type)

inductive Reader where
  /-- The join was accepted; the first flight is not written yet. -/
  | greeting (j : Joiner)
  /-- `joinDriveHandshake`, with the pairwise key once the reply arrived. -/
  | joining (j : Joiner) (pairwise : Option Key)
  /-- `Join` returned an error. -/
  | failed
  /-- The read loop waits for a frame. -/
  | idle
  /-- A leaver is forgotten; `rekeyAfterLeave` is next. -/
  | departed
  /-- `rekeyAfterLeave` between its two sections, with the wraps to write. -/
  | distributing (newKey : Key) (outs : List (ParticipantID × GroupKey prim))
  /-- `handleHandshakeDirect` before its store. -/
  | admitting (fromID : ParticipantID) (spectate : Bool) (pairwise : Key) (flight2 : Bytes)
  | admitReply (fromID : ParticipantID) (role : Role) (pairwise : Key) (flight2 : Bytes) (key : Key)
  | admitKey (fromID : ParticipantID) (role : Role) (pairwise key : Key)
  | admitted (fromID : ParticipantID) (role : Role)
  /-- `handleRekeyPake1` before its store. -/
  | readmitting (fromID : ParticipantID) (pairwise : Key) (flight2 : Bytes)
  | readmitReply (fromID : ParticipantID) (pairwise : Key) (flight2 : Bytes) (key : Key)
  | readmitKey (fromID : ParticipantID) (pairwise key : Key)
  /-- `handleRekey` before it installs. -/
  | installing (key : Key) (role : Role)
  /-- `handleRekeyPake2` after its check, and before its store. -/
  | finishing (j : Joiner) (data : Bytes)
  | finished (pairwise : Key)
  /-- The session was closed. -/
  | stopped

variable {prim} in
def Reader.isIdle : Reader prim → Bool
  | .idle => true
  | _ => false

variable {prim} in
theorem Reader.eq_idle_of_isIdle {reader : Reader prim} (idle : reader.isIdle = true) :
    reader = .idle := by
  cases reader <;> first | rfl | cases idle

variable {prim} in
def Reader.installs : Reader prim → List Key
  | .installing key _ => [key]
  | .distributing newKey [] => [newKey]
  | _ => []

structure Endpoint where
  client : Client
  reader : Reader prim
  /-- Frames sealed by application goroutines and not written yet. -/
  calls : List (Sent prim β)

inductive Output where
  | wrote (sent : Sent prim β)
  | emitted (event : Event β)

/-- What a step of the read goroutine gets from outside: a fresh key, nonces for
its wraps, which of several wraps it writes next, and whether the write
succeeds. -/
structure Outcome where
  key : Option Key
  nonce : Option (ParticipantID → Nonce)
  pick : Nat
  written : Bool

inductive Action where
  /-- The read goroutine takes a frame; the seed is for a PAKE reply. -/
  | receive (frame : Received prim β) (seed : Bytes)
  /-- The read goroutine performs its next section or write. -/
  | advance (outcome : Outcome)
  /-- An application goroutine seals a broadcast or a direct message. -/
  | call (toID : Option ParticipantID) (serviceID : String) (body : β) (nonce : Option Nonce)
  /-- An application goroutine writes what it sealed. -/
  | write (index : Nat) (written : Bool)

variable {prim β}

def Output.written : Output prim β → Option (Sent prim β)
  | .wrote sent => some sent
  | .emitted _ => none

@[simp] theorem filterMap_written_emitted (events : List (Event β)) :
    (events.map (Output.emitted : Event β → Output prim β)).filterMap Output.written = [] := by
  induction events with
  | nil => rfl
  | cons event rest ih => exact ih

def firstKey (e next : Endpoint prim β) : List Key :=
  if e.client.keyed = false ∧ next.client.keyed = true then [next.client.groupKey] else []

/-- `handlePayload` up to its first section. -/
def Client.handlePayload (c : Client) (fromID : ParticipantID) (payload : Payload prim β)
    (seed : Bytes) : Reader prim × List (Event β) :=
  match payload with
  | .sealed sf =>
      match c.openFrame sf fromID with
      | some env => (.idle, [.frame fromID env])
      | none => (.idle, [])
  | .rekey gk =>
      match c.handleRekey fromID gk with
      | some (key, role) => (.installing key role, [])
      | none => (.idle, [])
  | .rekeyPake1 p =>
      if c.isHost then
        match c.hostExchange prim fromID p seed with
        | some (pairwise, flight2) => (.readmitting fromID pairwise flight2, [])
        | none => (.idle, [])
      else (.idle, [])
  | .rekeyPake2 p =>
      match c.rekeyJoiner with
      | some j => if fromID = c.hostID then (.finishing j p.data, []) else (.idle, [])
      | none => (.idle, [])
  | .pake1 p =>
      -- only the role is checked here, not the host id
      if c.role = roleHost then
        match c.hostExchange prim fromID p seed with
        | some (pairwise, flight2) => (.admitting fromID p.spectate pairwise flight2, [])
        | none => (.idle, [])
      else (.idle, [])
  | .pake2 _ => (.idle, [])
  | .groupKey _ => (.idle, [])
  | .undecodable _ => (.idle, [])

def Client.dispatchFrame (c : Client) (frame : Received prim β) (seed : Bytes) :
    Client × Reader prim × List (Event β) :=
  match frame with
  | .participantJoined id => (c, .idle, [.memberJoined id])
  | .participantLeft id => (c.forget id, .departed, [.memberLeft id])
  | .sessionClosed reason => (c, .stopped, [.closed reason])
  | .direct fromID payload => (c, c.handlePayload fromID payload seed)
  | .broadcast fromID payload => (c, c.handlePayload fromID payload seed)
  | .other => (c, .idle, [])

def Client.joinHandleDirect (c : Client) (j : Joiner) (pairwise : Option Key)
    (payload : Payload prim β) : Client × Reader prim :=
  match payload with
  | .pake2 p =>
      match c.finish prim j p.data with
      | some pw => (c, .joining j (some pw))
      | none => (c, .failed)
  | .groupKey gk =>
      match pairwise with
      | none => (c, .failed)
      | some pw =>
          match unwrapGroupKey prim pw gk c.sid c.self with
          | some (key, role) => (c.keyedBy key role pw, .idle)
          | none => (c, .failed)
  | .undecodable (some .pake2) => (c, .failed)
  | .undecodable (some .groupKey) => (c, .failed)
  | _ => (c, .joining j pairwise)

/-- One turn of `joinDriveHandshake`: what is not from the host is skipped. -/
def Client.joinDriveHandshake (c : Client) (j : Joiner) (pairwise : Option Key)
    (frame : Received prim β) : Client × Reader prim :=
  match frame with
  | .sessionClosed _ => (c, .failed)
  | .direct fromID payload =>
      if fromID = c.hostID then c.joinHandleDirect j pairwise payload
      else (c, .joining j pairwise)
  | _ => (c, .joining j pairwise)

namespace Endpoint

def receive (e : Endpoint prim β) (frame : Received prim β) (seed : Bytes) :
    Option (Endpoint prim β × List (Output prim β)) :=
  match e.reader with
  | .joining j pairwise =>
      let next := e.client.joinDriveHandshake j pairwise frame
      some ({ e with
        client := next.1
        reader := next.2 }, [])
  | .idle =>
      let next := e.client.dispatchFrame frame seed
      some ({ e with
        client := next.1
        reader := next.2.1 }, next.2.2.map .emitted)
  | _ => none

variable {outputs : List (Output prim β)} {e' e : Endpoint prim β}

theorem receive_idle {frame : Received prim β} {seed : Bytes} (idle : e.reader = .idle)
    (received : e.receive frame seed = some (e', outputs)) :
    e'.client = (e.client.dispatchFrame frame seed).1 ∧
      e'.reader = (e.client.dispatchFrame frame seed).2.1 ∧ e'.calls = e.calls ∧
      outputs = (e.client.dispatchFrame frame seed).2.2.map .emitted := by
  simp only [receive, idle] at received
  cases received
  exact ⟨rfl, rfl, rfl, rfl⟩

def writeThen (e : Endpoint prim β) (sent : Sent prim β) (written : Bool)
    (next otherwise : Reader prim) : Endpoint prim β × List (Output prim β) :=
  if written then ({ e with reader := next }, [.wrote sent])
  else ({ e with reader := otherwise }, [])

/-- A wrap under the pairwise key, written and followed by `next`. -/
def wrapThen (e : Endpoint prim β) (toID : ParticipantID) (pairwise key : Key) (role : Role)
    (outcome : Outcome) (kind : GroupKey prim → Payload prim β) (next : Reader prim) :
    Endpoint prim β × List (Output prim β) :=
  match outcome.nonce with
  | none => ({ e with reader := .idle }, [])
  | some nonce =>
      let wrapped := wrapGroupKey prim pairwise key role e.client.sid toID (nonce toID)
      e.writeThen (.direct toID (kind wrapped)) outcome.written next .idle

/-- The next wrap of a rotation, or the swap when all are written.  A failed
write is ignored. -/
def distribute (e : Endpoint prim β) (newKey : Key) (outs : List (ParticipantID × GroupKey prim))
    (outcome : Outcome) : Option (Endpoint prim β × List (Output prim β)) :=
  if outs = [] then
    some ({ e with
      client := e.client.swapKey newKey
      reader := .idle }, [])
  else
    outs[outcome.pick]?.map (fun out =>
      let next : Reader prim := .distributing newKey (outs.eraseIdx outcome.pick)
      e.writeThen (.direct out.1 (.rekey out.2)) outcome.written next next)

def advance (e : Endpoint prim β) (outcome : Outcome) :
    Option (Endpoint prim β × List (Output prim β)) :=
  match e.reader with
  | .greeting j =>
      let flight : Pake := { data := j.flight1, spectate := e.client.observer }
      some (e.writeThen (.direct e.client.hostID (.pake1 flight)) outcome.written
        (.joining j none) .failed)
  | .departed =>
      match e.client.rekeyAfterLeave prim outcome.key outcome.nonce with
      | none => some ({ e with reader := .idle }, [])
      | some (newKey, outs) => some ({ e with reader := .distributing newKey outs }, [])
  | .distributing newKey outs => e.distribute newKey outs outcome
  | .admitting fromID spectate pairwise flight2 =>
      let role := e.client.assignRole fromID spectate
      some ({ e with
        client := e.client.enrol fromID role pairwise
        reader := .admitReply fromID role pairwise flight2 e.client.groupKey }, [])
  | .admitReply fromID role pairwise flight2 key =>
      let flight : Pake := { data := flight2, spectate := false }
      some (e.writeThen (.direct fromID (.pake2 flight)) outcome.written
        (.admitKey fromID role pairwise key) .idle)
  | .admitKey fromID role pairwise key =>
      some (e.wrapThen fromID pairwise key role outcome .groupKey (.admitted fromID role))
  | .admitted fromID role =>
      some ({ e with reader := .idle }, [.emitted (.memberKeyed fromID role)])
  | .readmitting fromID pairwise flight2 =>
      some ({ e with
        client := e.client.readmit fromID pairwise
        reader := .readmitReply fromID pairwise flight2 e.client.groupKey }, [])
  | .readmitReply fromID pairwise flight2 key =>
      let flight : Pake := { data := flight2, spectate := false }
      some (e.writeThen (.direct fromID (.rekeyPake2 flight)) outcome.written
        (.readmitKey fromID pairwise key) .idle)
  | .readmitKey fromID pairwise key =>
      some (e.wrapThen fromID pairwise key roleNone outcome .rekey .idle)
  | .installing key role =>
      some ({ e with
        client := e.client.install key role
        reader := .idle }, [])
  | .finishing j data =>
      -- the host id is read here without the lock
      match e.client.finish prim j data with
      | some pairwise => some ({ e with reader := .finished pairwise }, [])
      | none => some ({ e with reader := .idle }, [])
  | .finished pairwise =>
      some ({ e with
        client := e.client.adoptHostPairwise pairwise
        reader := .idle }, [])
  | .joining _ _ => none
  | .failed => none
  | .idle => none
  | .stopped => none

variable {next : Reader prim} {outcome : Outcome} {written : Bool}

theorem writeThen_fields {sent : Sent prim β} {otherwise : Reader prim}
    (wrote : e.writeThen sent written next otherwise = (e', outputs)) :
    e'.client = e.client ∧ e'.calls = e.calls := by
  unfold writeThen at wrote
  split at wrote <;> cases wrote <;> exact ⟨rfl, rfl⟩

theorem wrapThen_fields {toID : ParticipantID} {pairwise key : Key} {role : Role}
    {kind : GroupKey prim → Payload prim β}
    (wrote : e.wrapThen toID pairwise key role outcome kind next = (e', outputs)) :
    e'.client = e.client ∧ e'.calls = e.calls := by
  unfold wrapThen at wrote
  split at wrote
  · cases wrote
    exact ⟨rfl, rfl⟩
  · exact writeThen_fields wrote

/-- Only the role, the keys and what belongs to the joiners differ. -/
def Rekeyed (before after : Client) : Prop :=
  ∃ role groupKey prevKeys pairwise hostPairwise haveHostPairwise rekeyJoiner joiners,
    after =
      { before with
        role := role
        groupKey := groupKey
        prevKeys := prevKeys
        pairwise := pairwise
        hostPairwise := hostPairwise
        haveHostPairwise := haveHostPairwise
        rekeyJoiner := rekeyJoiner
        joiners := joiners }

theorem advance_fields (advanced : e.advance outcome = some (e', outputs)) :
    Rekeyed e.client e'.client ∧ e'.calls = e.calls := by
  have unchanged : e'.client = e.client ∧ e'.calls = e.calls →
      Rekeyed e.client e'.client ∧ e'.calls = e.calls := by
    rintro ⟨same, calls⟩
    exact ⟨⟨_, _, _, _, _, _, _, _, same⟩, calls⟩
  unfold advance at advanced
  generalize there : e.reader = reader at advanced
  cases reader with
  | greeting j =>
      exact unchanged (writeThen_fields (Option.some.inj advanced))
  | departed =>
      dsimp only at advanced
      split at advanced <;> cases advanced <;> exact unchanged ⟨rfl, rfl⟩
  | distributing newKey outs =>
      simp only [distribute] at advanced
      split at advanced
      · cases advanced
        exact ⟨⟨_, _, _, _, _, _, _, _, rfl⟩, rfl⟩
      · obtain ⟨out, _, wrote⟩ := Option.map_eq_some_iff.mp advanced
        exact unchanged (writeThen_fields wrote)
  | admitting fromID spectate pairwise flight2 =>
      cases advanced
      exact ⟨⟨_, _, _, _, _, _, _, _, rfl⟩, rfl⟩
  | admitReply fromID role pairwise flight2 key =>
      exact unchanged (writeThen_fields (Option.some.inj advanced))
  | admitKey fromID role pairwise key =>
      exact unchanged (wrapThen_fields (Option.some.inj advanced))
  | admitted fromID role =>
      cases advanced
      exact unchanged ⟨rfl, rfl⟩
  | readmitting fromID pairwise flight2 =>
      cases advanced
      exact ⟨⟨_, _, _, _, _, _, _, _, rfl⟩, rfl⟩
  | readmitReply fromID pairwise flight2 key =>
      exact unchanged (writeThen_fields (Option.some.inj advanced))
  | readmitKey fromID pairwise key =>
      exact unchanged (wrapThen_fields (Option.some.inj advanced))
  | installing key role =>
      cases advanced
      refine ⟨?_, rfl⟩
      simp only [Client.install]
      split <;> exact ⟨_, _, _, _, _, _, _, _, rfl⟩
  | finishing j data =>
      dsimp only at advanced
      split at advanced <;> cases advanced <;> exact unchanged ⟨rfl, rfl⟩
  | finished pairwise =>
      cases advanced
      exact ⟨⟨_, _, _, _, _, _, _, _, rfl⟩, rfl⟩
  | joining j pairwise | failed | idle | stopped => cases advanced

/-- `Broadcast` or `SendTo` up to the write. -/
def call (e : Endpoint prim β) (toID : Option ParticipantID) (serviceID : String) (body : β)
    (nonce : Option Nonce) : Endpoint prim β :=
  let result : Client × Option (Payload prim β) := e.client.sealEnvelope serviceID body nonce
  let frame := result.2.map (fun payload =>
    match toID with
    | none => Sent.broadcast payload
    | some id => Sent.direct id payload)
  { e with
    client := result.1
    calls := e.calls ++ frame.toList }

def write (e : Endpoint prim β) (index : Nat) (written : Bool) :
    Option (Endpoint prim β × List (Output prim β)) :=
  e.calls[index]?.map (fun sent =>
    ({ e with calls := e.calls.eraseIdx index }, if written then [.wrote sent] else []))

theorem write_eq {E E' : Endpoint prim β} {index : Nat}
    (wrote : E.write index written = some (E', outputs)) :
    ∃ calls, E' = { E with calls := calls } ∧ (∀ sent ∈ calls, sent ∈ E.calls) ∧
      (outputs.filterMap Output.written = [] ∨
        ∃ sent ∈ E.calls, outputs.filterMap Output.written = [sent]) := by
  obtain ⟨sent, found, same⟩ := Option.map_eq_some_iff.mp wrote
  cases same
  refine ⟨E.calls.eraseIdx index, rfl, fun other member => List.mem_of_mem_eraseIdx member, ?_⟩
  cases written with
  | false => exact Or.inl rfl
  | true => exact Or.inr ⟨sent, List.mem_of_getElem? found, rfl⟩

def step (e : Endpoint prim β) : Action prim β → Option (Endpoint prim β × List (Output prim β))
  | .receive frame seed => e.receive frame seed
  | .advance outcome => e.advance outcome
  | .call toID serviceID body nonce => some (e.call toID serviceID body nonce, [])
  | .write index written => e.write index written

def hosting (c : Client) (id : ParticipantID) (key : Key) : Endpoint prim β :=
  { client := c.hostHello id key
    reader := .idle
    calls := [] }

variable (prim) in
def joiningAs (c : Client) (id hostID : ParticipantID) (seed : Bytes) : Endpoint prim β :=
  { client := c.joinRequest id hostID
    reader := .greeting (newJoiner prim c.proto c.phraseC seed)
    calls := [] }

end Endpoint

/-- An outcome in which everything succeeds and the offered key is `value`. -/
def success (value : UInt8) : Outcome :=
  { key := some (sampleKey value)
    nonce := some (fun _ => sampleNonce)
    pick := 0
    written := true }

end Parley.Session
