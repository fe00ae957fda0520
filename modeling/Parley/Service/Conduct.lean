/-
What the ends of a session write, read and have still to do.

Two kinds of facts only grow along a run: who is gone, and who has become a host.
Relative to them every frame under way is in order: first flights go to hosts, an
announce is broadcast and its roster is free of the participants it claims to be
rid of, and wrapped keys never make anybody a host.  The lemmas say that every
step of an endpoint keeps to that.
-/

import Parley.Service.World

namespace Parley.Service

open Crypto Library Session
open Wire (Bytes ParticipantID SessionID)

variable {prim : Primitives}

def SealedAs (holds : Body → Prop) (sf : SealedFrame prim (Envelope Body)) : Prop :=
  ∃ key env sid sender nonce, sf = sealFrame prim key env sid sender nonce ∧ holds env.body

def WrapsAs (holds : Role → Prop) (gk : GroupKey prim) : Prop :=
  ∃ pairwise key role sid id nonce,
    gk = wrapGroupKey prim pairwise key role sid id nonce ∧ holds role

variable {reader : Reader prim} {sf : SealedFrame prim (Envelope Body)} {holds : Body → Prop}
  {sent : Sent prim Body} {id : ParticipantID} {pairwise : Key} {role : Role} {body : Body}

theorem SealedAs.mono {holds' : Body → Prop} (made : SealedAs holds sf)
    (weaker : ∀ body, holds body → holds' body) :
    SealedAs holds' sf := by
  obtain ⟨key, env, sid, sender, nonce, same, ok⟩ := made
  exact ⟨key, env, sid, sender, nonce, same, weaker _ ok⟩

variable {sender receiver : ParticipantID} {frame : Received prim Body} {c : Client}

theorem SealedAs.opened (ideal : prim.Ideal) (made : SealedAs holds sf) {env : Envelope Body}
    (opened : c.openFrame sf sender = some env) :
    holds env.body := by
  obtain ⟨key, sealedEnv, sid, sealer, nonce, rfl, ok⟩ := made
  unfold Client.openFrame at opened
  split at opened
  · cases opened
  · obtain ⟨other, _, found⟩ := List.exists_of_findSome?_eq_some opened
    unfold openSealed sealFrame at found
    simp only [ideal.open_seal] at found
    split at found
    · cases found
      exact ok
    · cases found

theorem WrapsAs.unwrapped (ideal : prim.Ideal) {holds : Role → Prop} {gk : GroupKey prim}
    (made : WrapsAs holds gk) {key : Key} {sid : SessionID}
    (unwrapped : unwrapGroupKey prim pairwise gk sid id = some (key, role)) :
    holds role := by
  obtain ⟨other, wrapped, wrappedRole, wrapSid, wrapID, nonce, rfl, ok⟩ := made
  unfold unwrapGroupKey wrapGroupKey at unwrapped
  simp only [ideal.open_seal] at unwrapped
  split at unwrapped
  · simp only [Option.bind_some] at unwrapped
    split at unwrapped
    · cases unwrapped
    · have same := (Prod.mk.inj (Option.some.inj unwrapped)).2
      rw [getD_toList_append] at same
      exact same ▸ ok
  · cases unwrapped

structure Facts where
  gone : ParticipantID → Prop
  hosts : ParticipantID → Prop

structure Facts.Grow (f f' : Facts) : Prop where
  gone : ∀ id, f.gone id → f'.gone id
  hosts : ∀ id, f.hosts id → f'.hosts id

def Body.isAnnounce : Body → Bool
  | .ctl (.announce _) _ => true
  | _ => false

def BodyOk (gone : ParticipantID → Prop) : Body → Prop
  | .ctl (.announce a) pruned => ∀ id ∈ pruned, gone id ∧ id ∉ a.roster
  | _ => True

def SentOk (f : Facts) (sender : ParticipantID) : Sent prim Body → Prop
  | .direct toID (.pake1 _) => f.hosts toID
  | .direct _ (.sealed sf) => SealedAs (fun body => body.isAnnounce = false) sf
  | .direct _ (.groupKey gk) => WrapsAs (fun role => role ≠ roleHost) gk
  | .direct _ (.rekey gk) => WrapsAs (fun role => role = roleNone) gk
  | .direct _ (.undecodable _) => False
  | .direct _ _ => True
  | .broadcast (.sealed sf) => SealedAs (BodyOk f.gone) sf
  | .broadcast _ => False
  | .claimHost => f.hosts sender

def ReceivedOk (f : Facts) (sender receiver : ParticipantID) : Received prim Body → Prop
  | .participantJoined id => id = sender
  | .participantLeft id => id = sender ∧ f.gone sender
  | .sessionClosed _ => False
  | .direct fromID payload => fromID = sender ∧ SentOk f sender (.direct receiver payload)
  | .broadcast fromID payload =>
      fromID = sender ∧ receiver ≠ sender ∧ SentOk f sender (.broadcast payload)
  | .other => False

theorem BodyOk.mono {gone gone' : ParticipantID → Prop} (more : ∀ id, gone id → gone' id)
    (ok : BodyOk gone body) : BodyOk gone' body := by
  unfold BodyOk at ok ⊢
  split
  · exact fun id member => ⟨more id (ok id member).1, (ok id member).2⟩
  · trivial

variable {f' : Facts}

theorem SentOk.mono {f : Facts} (grow : f.Grow f') (ok : SentOk f sender sent) :
    SentOk f' sender sent := by
  cases sent with
  | direct toID payload =>
      cases payload with
      | pake1 p => exact grow.hosts toID ok
      | _ => exact ok
  | broadcast payload =>
      cases payload with
      | sealed sf => exact SealedAs.mono ok (fun _ before => before.mono grow.gone)
      | _ => exact ok
  | claimHost => exact grow.hosts sender ok

theorem ReceivedOk.mono {f : Facts} (grow : f.Grow f') (ok : ReceivedOk f sender receiver frame) :
    ReceivedOk f' sender receiver frame := by
  cases frame with
  | participantLeft id => exact ⟨ok.1, grow.gone sender ok.2⟩
  | direct fromID payload => exact ⟨ok.1, ok.2.mono grow⟩
  | broadcast fromID payload => exact ⟨ok.1, ok.2.1, ok.2.2.mono grow⟩
  | _ => exact ok

theorem SentOk.carried {f : Facts} (ok : SentOk f sender sent)
    (carried : carry sender sent receiver = some frame) : ReceivedOk f sender receiver frame := by
  cases sent with
  | direct toID payload =>
      simp only [carry] at carried
      split at carried
      · rename_i same
        cases carried
        subst same
        exact ⟨rfl, ok⟩
      · cases carried
  | broadcast payload =>
      simp only [carry] at carried
      split at carried
      · cases carried
      · rename_i differ
        cases carried
        exact ⟨rfl, differ, ok⟩
  | claimHost => cases carried

def Received.isPake1 : Received prim Body → Bool
  | .direct _ (.pake1 _) => true
  | .broadcast _ (.pake1 _) => true
  | _ => false

theorem ReceivedOk.host_of_pake1 {f : Facts} (ok : ReceivedOk f sender receiver frame)
    (starts : Received.isPake1 frame = true) : f.hosts receiver := by
  unfold Received.isPake1 at starts
  split at starts
  · exact ok.2
  · exact absurd ok.2.2 id
  · cases starts

def Reader.handles (reader : Reader prim) (id : ParticipantID) : Bool :=
  match reader with
  | .admitting fromID _ _ _ => fromID = id
  | .admitReply fromID _ _ _ _ => fromID = id
  | .admitKey fromID _ _ _ => fromID = id
  | .admitted fromID _ => fromID = id
  | _ => false

def ReaderOk (f : Facts) (c : Client) : Reader prim → Prop
  | .greeting _ => c.role ≠ roleHost ∧ f.hosts c.hostID
  | .joining _ _ => c.role ≠ roleHost
  | .failed => c.role ≠ roleHost
  | .distributing _ outs => ∀ out ∈ outs, WrapsAs (fun role => role = roleNone) out.2
  | .admitting _ _ _ _ => c.role = roleHost
  | .admitReply _ role _ _ _ => c.role = roleHost ∧ role ≠ roleHost
  | .admitKey _ role _ _ => c.role = roleHost ∧ role ≠ roleHost
  | .admitted _ role => c.role = roleHost ∧ role ≠ roleHost
  | .installing _ role => role = roleNone
  | _ => True

structure EndpointOk (f : Facts) (x : ParticipantID) (E : Endpoint prim Body) : Prop where
  self : E.client.self = x
  hostSelf : E.client.role = roleHost → E.client.hostID = x
  reader : ReaderOk f E.client E.reader
  calls : ∀ sent ∈ E.calls, SentOk f x sent

theorem EndpointOk.mono {f : Facts} (grow : f.Grow f') {x : ParticipantID} {E : Endpoint prim Body}
    (ok : EndpointOk f x E) : EndpointOk f' x E := by
  refine
    { ok with
      reader := ?_
      calls := fun sent member => (ok.calls sent member).mono grow }
  have before := ok.reader
  cases reader : E.reader with
  | greeting j =>
      rw [reader] at before
      exact ⟨before.1, grow.hosts _ before.2⟩
  | _ =>
      rw [reader] at before
      exact before

theorem ReaderOk.of_inLoop {f : Facts} {c' : Client} (ok : ReaderOk f c reader)
    (inLoop : Reader.inLoop reader = true) (role : c.role = roleHost → c'.role = roleHost) :
    ReaderOk f c' reader := by
  cases reader with
  | greeting j => cases inLoop
  | joining j pairwise => cases inLoop
  | failed => cases inLoop
  | admitting fromID spectate pairwise flight2 => exact role ok
  | admitReply fromID assigned pairwise flight2 key | admitKey fromID assigned pairwise key
  | admitted fromID assigned => exact ⟨role ok.1, ok.2⟩
  | _ => exact ok

theorem ReaderOk.host_of_handles {f : Facts} (ok : ReaderOk f c reader)
    (handles : Reader.handles reader id = true) :
    c.role = roleHost := by
  unfold Reader.handles at handles
  split at handles
  · exact ok
  · exact ok.1
  · exact ok.1
  · exact ok.1
  · cases handles

/-- What a step of an endpoint other than taking a frame guarantees. -/
structure Proceeds (f : Facts) (x : ParticipantID) (E E' : Endpoint prim Body)
    (outputs : List (Output prim Body)) : Prop where
  ok : EndpointOk f x E'
  posts : ∀ sent ∈ outputs.filterMap Output.written, SentOk f x sent
  sameHost : E'.client.hostID = E.client.hostID
  sameRole : E'.client.role = E.client.role
  inLoop : Reader.inLoop E.reader = true → Reader.inLoop E'.reader = true
  handles : ∀ id, Reader.handles E'.reader id = true → Reader.handles E.reader id = true
  emits : ∀ event, .emitted event ∈ outputs → ∃ id role, event = .memberKeyed id role ∧
    Reader.handles E.reader id = true ∧ E.client.role = roleHost

section

variable {f : Facts} {x : ParticipantID} {E E' : Endpoint prim Body}
  {outputs : List (Output prim Body)}

theorem EndpointOk.moves (ok : EndpointOk f x E) {reader : Reader prim}
    (place : ReaderOk f E.client reader)
    (inLoop : Reader.inLoop E.reader = true → Reader.inLoop reader = true)
    (handles : ∀ id, Reader.handles reader id = true → Reader.handles E.reader id = true)
    {posts : List (Sent prim Body)} (posted : ∀ sent ∈ posts, SentOk f x sent) :
    Proceeds f x E { E with reader := reader } (posts.map .wrote) := by
  refine
    { ok := ⟨ok.self, ok.hostSelf, place, ok.calls⟩
      posts := ?_
      sameHost := rfl
      sameRole := rfl
      inLoop := inLoop
      handles := handles
      emits := fun event emitted => by simp at emitted }
  intro sent member
  rw [List.filterMap_map] at member
  obtain ⟨other, present, same⟩ := List.mem_filterMap.mp member
  exact Option.some.inj same ▸ posted other present

theorem EndpointOk.turns (ok : EndpointOk f x E) {client : Client}
    (self : client.self = E.client.self) (sameHost : client.hostID = E.client.hostID)
    (sameRole : client.role = E.client.role) (place : ReaderOk f client reader)
    (inLoop : Reader.inLoop reader = true)
    (handles : ∀ id, Reader.handles reader id = true → Reader.handles E.reader id = true) :
    Proceeds f x E { E with client := client, reader := reader } [] := by
  refine
    { ok := ⟨self.trans ok.self, fun host => ?_, place, ok.calls⟩
      posts := List.forall_mem_nil _
      sameHost := sameHost
      sameRole := sameRole
      inLoop := fun _ => inLoop
      handles := handles
      emits := fun event emitted => absurd emitted List.not_mem_nil }
  exact sameHost.trans (ok.hostSelf (sameRole.symm.trans host))

theorem EndpointOk.writes (ok : EndpointOk f x E) {sent : Sent prim Body}
    {next otherwise : Reader prim} {written : Bool}
    (wrote : E.writeThen sent written next otherwise = (E', outputs)) (sentOk : SentOk f x sent)
    (nextOk : ReaderOk f E.client next) (otherwiseOk : ReaderOk f E.client otherwise)
    (inLoop : Reader.inLoop E.reader = true →
      Reader.inLoop next = true ∧ Reader.inLoop otherwise = true)
    (nextHandles : ∀ id, Reader.handles next id = true → Reader.handles E.reader id = true)
    (otherwiseHandles : ∀ id, Reader.handles otherwise id = true →
      Reader.handles E.reader id = true) :
    Proceeds f x E E' outputs := by
  cases written with
  | true =>
      cases wrote
      exact @EndpointOk.moves prim f x E ok next nextOk (fun inside => (inLoop inside).1) nextHandles [sent]
        (fun other member => List.mem_singleton.mp member ▸ sentOk)
  | false =>
      cases wrote
      exact @EndpointOk.moves prim f x E ok otherwise otherwiseOk (fun inside => (inLoop inside).2)
        otherwiseHandles []
        (List.forall_mem_nil _)

variable {outcome : Outcome}

theorem EndpointOk.wraps (ok : EndpointOk f x E) {toID : ParticipantID} {key : Key}
    {kind : GroupKey prim → Payload prim Body}
    {next : Reader prim} (wrote : E.wrapThen toID pairwise key role outcome kind next = (E', outputs))
    (kindOk : ∀ nonce, SentOk f x
      (.direct toID (kind (wrapGroupKey prim pairwise key role E.client.sid toID nonce))))
    (nextOk : ReaderOk f E.client next) (inLoop : Reader.inLoop next = true)
    (nextHandles : ∀ id, Reader.handles next id = true → Reader.handles E.reader id = true) :
    Proceeds f x E E' outputs := by
  unfold Endpoint.wrapThen at wrote
  split at wrote
  · cases wrote
    exact @EndpointOk.moves prim f x E ok .idle trivial (fun _ => rfl)
      (fun _ impossible => by cases impossible) [] (List.forall_mem_nil _)
  · exact ok.writes wrote (kindOk _) nextOk trivial (fun _ => ⟨inLoop, rfl⟩) nextHandles
      (fun _ impossible => by cases impossible)

theorem rekeyWraps_wrapsAs (c : Client) (newKey : Key) (nonce : ParticipantID → Nonce) :
    ∀ out ∈ c.rekeyWraps prim newKey nonce, WrapsAs (fun role => role = roleNone) out.2 := by
  intro out member
  obtain ⟨entry, _, rfl⟩ := List.mem_map.mp member
  exact ⟨_, _, _, _, _, _, rfl, rfl⟩

theorem assignRole_ne_host (c : Client) (fromID : ParticipantID) (spectate : Bool) :
    c.assignRole fromID spectate ≠ roleHost := by
  unfold Client.assignRole
  simp only
  split
  · decide
  · rename_i reserved
    exact fun same => reserved (Or.inr same)

theorem EndpointOk.advance (ok : EndpointOk f x E)
    (advanced : E.advance outcome = some (E', outputs)) : Proceeds f x E E' outputs := by
  have place := ok.reader
  have quiet : ∀ reader : Reader prim, ReaderOk f E.client reader → Reader.inLoop reader = true →
      (∀ id, Reader.handles reader id = true → Reader.handles E.reader id = true) →
      Proceeds f x E { E with reader := reader } [] := by
    intro reader readerOk inLoop handles
    exact @EndpointOk.moves prim f x E ok reader readerOk (fun _ => inLoop) handles []
      (List.forall_mem_nil _)
  have idleHandles : ∀ id, Reader.handles (Reader.idle : Reader prim) id = true →
      Reader.handles E.reader id = true := fun _ impossible => by cases impossible
  unfold Endpoint.advance at advanced
  generalize there : E.reader = reader at advanced place
  cases reader with
  | greeting j =>
      refine ok.writes (Option.some.inj advanced) place.2 place.1 place.1 (fun inside => ?_)
        (fun _ impossible => by cases impossible) (fun _ impossible => by cases impossible)
      rw [there] at inside
      cases inside
  | departed =>
      dsimp only at advanced
      split at advanced
      · cases advanced
        exact quiet .idle trivial rfl idleHandles
      · rename_i newKey outs minting
        cases advanced
        unfold Client.rekeyAfterLeave at minting
        split at minting
        · cases minting
        · obtain ⟨_, _, wrapping⟩ := Option.bind_eq_some_iff.mp minting
          obtain ⟨nonce, _, same⟩ := Option.map_eq_some_iff.mp wrapping
          cases same
          exact quiet _ (rekeyWraps_wrapsAs E.client newKey nonce) rfl
            (fun _ impossible => by cases impossible)
  | distributing newKey outs =>
      simp only [Endpoint.distribute] at advanced
      split at advanced
      · cases advanced
        exact ok.turns rfl rfl rfl trivial rfl idleHandles
      · obtain ⟨out, found, wrote⟩ := Option.map_eq_some_iff.mp advanced
        have remaining : ReaderOk f E.client
            (.distributing newKey (outs.eraseIdx outcome.pick) : Reader prim) :=
          fun other member => place other (List.mem_of_mem_eraseIdx member)
        exact ok.writes wrote (place out (List.mem_of_getElem? found)) remaining remaining
          (fun _ => ⟨rfl, rfl⟩) (fun _ impossible => by cases impossible)
          (fun _ impossible => by cases impossible)
  | admitting fromID spectate pairwise flight2 =>
      cases advanced
      refine ok.turns rfl rfl rfl ⟨place, assignRole_ne_host E.client fromID spectate⟩ rfl
        (fun id handled => ?_)
      rw [there]
      exact handled
  | admitReply fromID role pairwise flight2 key =>
      have still : ∀ id, Reader.handles (.admitKey fromID role pairwise key : Reader prim) id =
          true → Reader.handles E.reader id = true := by
        intro id handled
        rw [there]
        exact handled
      exact ok.writes (Option.some.inj advanced) trivial place trivial (fun _ => ⟨rfl, rfl⟩) still
        idleHandles
  | admitKey fromID role pairwise key =>
      have still : ∀ id, Reader.handles (.admitted fromID role : Reader prim) id = true →
          Reader.handles E.reader id = true := by
        intro id handled
        rw [there]
        exact handled
      exact ok.wraps (Option.some.inj advanced) (fun nonce => ⟨_, _, _, _, _, _, rfl, place.2⟩)
        place rfl still
  | admitted fromID role =>
      cases advanced
      refine
        { ok := ⟨ok.self, ok.hostSelf, trivial, ok.calls⟩
          posts := List.forall_mem_nil _
          sameHost := rfl
          sameRole := rfl
          inLoop := fun _ => rfl
          handles := idleHandles
          emits := fun event emitted => ?_ }
      cases List.mem_singleton.mp emitted
      refine ⟨fromID, role, rfl, ?_, place.1⟩
      rw [there]
      exact decide_eq_true rfl
  | readmitting fromID pairwise flight2 =>
      cases advanced
      exact ok.turns rfl rfl rfl trivial rfl (fun _ impossible => by cases impossible)
  | readmitReply fromID pairwise flight2 key =>
      exact ok.writes (Option.some.inj advanced) trivial trivial trivial (fun _ => ⟨rfl, rfl⟩)
        (fun _ impossible => by cases impossible) idleHandles
  | readmitKey fromID pairwise key =>
      exact ok.wraps (Option.some.inj advanced) (fun nonce => ⟨_, _, _, _, _, _, rfl, rfl⟩)
        trivial rfl idleHandles
  | installing key role =>
      have kept : role = roleNone := place
      subst kept
      cases advanced
      exact ok.turns rfl rfl rfl trivial rfl idleHandles
  | finishing j data =>
      dsimp only at advanced
      split at advanced
      · cases advanced
        exact quiet _ trivial rfl (fun _ impossible => by cases impossible)
      · cases advanced
        exact quiet _ trivial rfl idleHandles
  | finished pairwise =>
      cases advanced
      exact ok.turns rfl rfl rfl trivial rfl idleHandles
  | joining j pairwise | failed | idle | stopped => cases advanced

theorem sealEnvelope_sealedAs (holds : Body → Prop) {serviceID : String} {nonce : Option Nonce}
    {payload : Payload prim Body} (made : (c.sealEnvelope serviceID body nonce).2 = some payload)
    (ok : holds body) :
    ∃ sf, payload = .sealed sf ∧ SealedAs holds sf := by
  unfold Client.sealEnvelope at made
  split at made
  · cases made
  · obtain ⟨drawn, _, rfl⟩ := Option.map_eq_some_iff.mp made
    exact ⟨_, rfl, _, _, _, _, _, rfl, ok⟩

theorem EndpointOk.call (ok : EndpointOk f x E) (toID : Option ParticipantID) (serviceID : String)
    (body : Bytes) (nonce : Option Nonce) :
    Proceeds f x E (E.call toID serviceID (.app body) nonce) [] := by
  obtain ⟨seqs, same⟩ :=
    @Client.sealEnvelope_fields prim Body E.client serviceID (.app body) nonce
  refine
    { ok :=
        { self := ?_
          hostSelf := ?_
          reader := ?_
          calls := fun sent member => ?_ }
      posts := List.forall_mem_nil _
      sameHost := ?_
      sameRole := ?_
      inLoop := fun inside => inside
      handles := fun _ handled => handled
      emits := fun event emitted => absurd emitted List.not_mem_nil }
  · simp only [Endpoint.call, same]
    exact ok.self
  · simp only [Endpoint.call, same]
    exact ok.hostSelf
  · simp only [Endpoint.call, same]
    have place := ok.reader
    cases reader : E.reader <;> rw [reader] at place <;> exact place
  · simp only [Endpoint.call, List.mem_append, Option.mem_toList, Option.map_eq_some_iff] at member
    rcases member with old | ⟨payload, made, rfl⟩
    · exact ok.calls sent old
    · cases toID with
      | none =>
          obtain ⟨sf, rfl, sealedAs⟩ := sealEnvelope_sealedAs (BodyOk f.gone) made trivial
          exact sealedAs
      | some id =>
          obtain ⟨sf, rfl, sealedAs⟩ :=
            sealEnvelope_sealedAs (fun body => body.isAnnounce = false) made rfl
          exact sealedAs
  · simp only [Endpoint.call, same]
  · simp only [Endpoint.call, same]

theorem EndpointOk.write (ok : EndpointOk f x E) {index : Nat} {written : Bool}
    (wrote : E.write index written = some (E', outputs)) : Proceeds f x E E' outputs := by
  obtain ⟨sent, found, same⟩ := Option.map_eq_some_iff.mp wrote
  have known := ok.calls sent (List.mem_of_getElem? found)
  cases same
  refine
    { ok := ⟨ok.self, ok.hostSelf, ok.reader,
        fun other member => ok.calls other (List.mem_of_mem_eraseIdx member)⟩
      posts := fun other member => ?_
      sameHost := rfl
      sameRole := rfl
      inLoop := fun inside => inside
      handles := fun _ handled => handled
      emits := fun event emitted => ?_ }
  · cases written with
    | false => cases member
    | true => exact List.mem_singleton.mp member ▸ known
  · cases written with
    | false => cases emitted
    | true => cases List.mem_singleton.mp emitted

/-! ### The read goroutine taking a frame -/

def EventOk (f : Facts) (x : ParticipantID) : Event Body → Prop
  | .frame fromID env => BodyOk f.gone env.body ∧ (env.body.isAnnounce = true → fromID ≠ x)
  | .memberLeft id => f.gone id
  | _ => True

theorem EventOk.mono (grow : f.Grow f') {event : Event Body} (ok : EventOk f x event) :
    EventOk f' x event := by
  cases event with
  | frame fromID env => exact ⟨ok.1.mono grow.gone, ok.2⟩
  | memberLeft id => exact grow.gone id ok
  | _ => trivial

structure Takes (f : Facts) (x sender : ParticipantID) (frame : Received prim Body)
    (E E' : Endpoint prim Body) (outputs : List (Output prim Body)) : Prop where
  ok : EndpointOk f x E'
  silent : outputs.filterMap Output.written = []
  sameHost : E'.client.hostID = E.client.hostID
  role : E'.client.role = roleHost ↔ E.client.role = roleHost
  inLoop : Reader.inLoop E.reader = true → Reader.inLoop E'.reader = true
  before : ∀ id, Reader.handles E.reader id = false
  handles : ∀ id, Reader.handles E'.reader id = true →
    id = sender ∧ Received.isPake1 frame = true
  emits : ∀ event, .emitted event ∈ outputs → EventOk f x event ∧
    (∀ id role, event ≠ .memberKeyed id role) ∧
    ∀ id, event = .memberLeft id → frame = .participantLeft id

theorem joinDriveHandshake_ok (ideal : prim.Ideal) (notHost : c.role ≠ roleHost) (j : Joiner)
    (pairwise : Option Key) (frameOk : ReceivedOk f sender x frame) :
    (c.joinDriveHandshake j pairwise frame).1.self = c.self ∧
      (c.joinDriveHandshake j pairwise frame).1.hostID = c.hostID ∧
      (c.joinDriveHandshake j pairwise frame).1.role ≠ roleHost ∧
      ((c.joinDriveHandshake j pairwise frame).2 = .idle ∨
        (c.joinDriveHandshake j pairwise frame).2 = .failed ∨
        ∃ pairwise', (c.joinDriveHandshake j pairwise frame).2 = .joining j pairwise') := by
  unfold Client.joinDriveHandshake
  split
  · exact ⟨rfl, rfl, notHost, Or.inr (Or.inl rfl)⟩
  · rename_i fromID payload
    split
    · unfold Client.joinHandleDirect
      split
      · split
        · exact ⟨rfl, rfl, notHost, Or.inr (Or.inr ⟨_, rfl⟩)⟩
        · exact ⟨rfl, rfl, notHost, Or.inr (Or.inl rfl)⟩
      · split
        · exact ⟨rfl, rfl, notHost, Or.inr (Or.inl rfl)⟩
        · split
          · rename_i unwrapped
            have wraps : WrapsAs (fun role => role ≠ roleHost) _ := frameOk.2
            exact ⟨rfl, rfl, wraps.unwrapped ideal unwrapped, Or.inl rfl⟩
          · exact ⟨rfl, rfl, notHost, Or.inr (Or.inl rfl)⟩
      · exact ⟨rfl, rfl, notHost, Or.inr (Or.inl rfl)⟩
      · exact ⟨rfl, rfl, notHost, Or.inr (Or.inl rfl)⟩
      · exact ⟨rfl, rfl, notHost, Or.inr (Or.inr ⟨_, rfl⟩)⟩
    · exact ⟨rfl, rfl, notHost, Or.inr (Or.inr ⟨_, rfl⟩)⟩
  · exact ⟨rfl, rfl, notHost, Or.inr (Or.inr ⟨_, rfl⟩)⟩

theorem handlePayload_ok (ideal : prim.Ideal) (c : Client) {sender : ParticipantID}
    {frame : Received prim Body} {payload : Payload prim Body} {seed : Bytes}
    (isFrame : frame = .direct sender payload ∧ SentOk f sender (.direct x payload) ∨
      frame = .broadcast sender payload ∧ x ≠ sender ∧ SentOk f sender (.broadcast payload)) :
    ReaderOk f c (c.handlePayload sender payload seed).1 ∧
      Reader.inLoop (c.handlePayload sender payload seed).1 = true ∧
      (∀ id, Reader.handles (c.handlePayload sender payload seed).1 id = true →
        id = sender ∧ Received.isPake1 frame = true) ∧
      ∀ event ∈ (c.handlePayload sender payload seed).2,
        ∃ env, event = .frame sender env ∧ EventOk f x event := by
  have nothing : ∀ id, Reader.handles (Reader.idle : Reader prim) id = true →
      id = sender ∧ Received.isPake1 frame = true := fun _ impossible => by cases impossible
  have noEvents : ∀ event ∈ ([] : List (Event Body)),
      ∃ env, event = .frame sender env ∧ EventOk f x event :=
    List.forall_mem_nil _
  cases payload with
  | sealed sf =>
      simp only [Client.handlePayload]
      split
      · rename_i env opened
        refine ⟨trivial, rfl, nothing, fun event member => ?_⟩
        cases List.mem_singleton.mp member
        refine ⟨env, rfl, ?_⟩
        rcases isFrame with ⟨_, direct⟩ | ⟨_, differ, broadcast⟩
        · have made : SealedAs (fun body => body.isAnnounce = false) sf := direct
          have plain := made.opened ideal opened
          refine ⟨?_, fun announce => ?_⟩
          · unfold BodyOk
            split
            · rename_i isBody
              rw [isBody] at plain
              cases plain
            · trivial
          · rw [plain] at announce
            cases announce
        · have made : SealedAs (BodyOk f.gone) sf := broadcast
          exact ⟨made.opened ideal opened, fun _ => Ne.symm differ⟩
      · exact ⟨trivial, rfl, nothing, noEvents⟩
  | rekey gk =>
      simp only [Client.handlePayload]
      split
      · rename_i key role installed
        refine ⟨?_, rfl, (fun _ impossible => by cases impossible), noEvents⟩
        unfold Client.handleRekey at installed
        split at installed
        · rcases isFrame with ⟨_, direct⟩ | ⟨_, _, broadcast⟩
          · have made : WrapsAs (fun role => role = roleNone) gk := direct
            exact made.unwrapped ideal installed
          · exact absurd broadcast id
        · cases installed
      · exact ⟨trivial, rfl, nothing, noEvents⟩
  | rekeyPake1 p | rekeyPake2 p =>
      simp only [Client.handlePayload]
      split
      · split
        · exact ⟨trivial, rfl, (fun _ impossible => by cases impossible), noEvents⟩
        · exact ⟨trivial, rfl, nothing, noEvents⟩
      · exact ⟨trivial, rfl, nothing, noEvents⟩
  | pake1 p =>
      have starts : Received.isPake1 frame = true := by
        rcases isFrame with ⟨rfl, _⟩ | ⟨rfl, _⟩ <;> rfl
      simp only [Client.handlePayload]
      split
      · rename_i isHost
        split
        · exact ⟨isHost, rfl, fun id handled => ⟨(of_decide_eq_true handled).symm, starts⟩, noEvents⟩
        · exact ⟨trivial, rfl, nothing, noEvents⟩
      · exact ⟨trivial, rfl, nothing, noEvents⟩
  | pake2 p | groupKey gk | undecodable kind => exact ⟨trivial, rfl, nothing, noEvents⟩

theorem EndpointOk.receive (ideal : prim.Ideal) (ok : EndpointOk f x E) {seed : Bytes}
    (frameOk : ReceivedOk f sender x frame) (received : E.receive frame seed = some (E', outputs)) :
    Takes f x sender frame E E' outputs := by
  have place := ok.reader
  cases there : E.reader with
  | joining j pairwise =>
      rw [there] at place
      have notHost : E.client.role ≠ roleHost := place
      obtain ⟨sameSelf, sameHost, role, result⟩ :=
        joinDriveHandshake_ok ideal notHost j pairwise frameOk
      simp only [Endpoint.receive, there] at received
      cases received
      refine
        { ok :=
            { self := sameSelf.trans ok.self
              hostSelf := fun isHost => absurd isHost role
              reader := ?_
              calls := ok.calls }
          silent := rfl
          sameHost := sameHost
          role := iff_of_false role notHost
          inLoop := fun inside => by rw [there] at inside; cases inside
          before := fun id => by rw [there]; rfl
          handles := ?_
          emits := fun event emitted => absurd emitted List.not_mem_nil }
      · rcases result with same | same | ⟨_, same⟩ <;> rw [same]
        · trivial
        · exact role
        · exact role
      · intro id handled
        rcases result with same | same | ⟨_, same⟩ <;> rw [same] at handled <;> cases handled
  | idle =>
      simp only [Endpoint.receive, there] at received
      cases received
      have idleBefore : ∀ id, Reader.handles E.reader id = false := by
        intro id
        rw [there]
        rfl
      have payloads : ∀ payload, (frame = .direct sender payload ∧
            SentOk f sender (.direct x payload) ∨ frame = .broadcast sender payload ∧ x ≠ sender ∧
            SentOk f sender (.broadcast payload)) →
          E.client.dispatchFrame frame seed =
            (E.client, E.client.handlePayload sender payload seed) →
          Takes f x sender frame E
            { E with
              client := (E.client.dispatchFrame frame seed).1
              reader := (E.client.dispatchFrame frame seed).2.1 }
            ((E.client.dispatchFrame frame seed).2.2.map .emitted) := by
        intro payload isFrame dispatched
        obtain ⟨readerOk, inLoop, handles, events⟩ :=
          @handlePayload_ok prim f x ideal E.client sender frame payload seed isFrame
        rw [dispatched]
        refine
          { ok := ⟨ok.self, ok.hostSelf, readerOk, ok.calls⟩
            silent := filterMap_written_emitted _
            sameHost := rfl
            role := Iff.rfl
            inLoop := fun _ => inLoop
            before := idleBefore
            handles := handles
            emits := fun event emitted => ?_ }
        obtain ⟨other, member, same⟩ := List.mem_map.mp emitted
        obtain ⟨env, rfl, eventOk⟩ := events event (Output.emitted.inj same ▸ member)
        exact ⟨eventOk, by simp, by simp⟩
      cases frame with
      | participantJoined id =>
          refine
            { ok := ⟨ok.self, ok.hostSelf, trivial, ok.calls⟩
              silent := rfl
              sameHost := rfl
              role := Iff.rfl
              inLoop := fun _ => rfl
              before := idleBefore
              handles := fun _ impossible => by cases impossible
              emits := fun event emitted => ?_ }
          cases List.mem_singleton.mp emitted
          exact ⟨trivial, by simp, by simp⟩
      | participantLeft id =>
          obtain ⟨rfl, gone⟩ := frameOk
          refine
            { ok := ⟨ok.self, ok.hostSelf, trivial, ok.calls⟩
              silent := rfl
              sameHost := rfl
              role := Iff.rfl
              inLoop := fun _ => rfl
              before := idleBefore
              handles := fun _ impossible => by cases impossible
              emits := fun event emitted => ?_ }
          cases List.mem_singleton.mp emitted
          exact ⟨gone, by simp, by simp⟩
      | sessionClosed reason => exact absurd frameOk id
      | direct fromID payload =>
          obtain ⟨rfl, sentOk⟩ := frameOk
          exact payloads payload (Or.inl ⟨rfl, sentOk⟩) rfl
      | broadcast fromID payload =>
          obtain ⟨rfl, differ, sentOk⟩ := frameOk
          exact payloads payload (Or.inr ⟨rfl, differ, sentOk⟩) rfl
      | other => exact absurd frameOk id
  | _ => simp [Endpoint.receive, there] at received

end

end Parley.Service
