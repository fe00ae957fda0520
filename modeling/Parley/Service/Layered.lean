/-
Ctl above the layered services.

A snapshot request reads the state of every layered service and a snapshot
restores it; the other ctl messages do not reach them.  The services are any
functions; a map is passed over in the order of its entries, so what holds for
every map of a kind holds for every order of one map.
-/

import Parley.Service.Attributes

namespace Parley.Service

open Library Session
open Wire (Bytes ParticipantID)

/-- A layered service as ctl uses it.  A snapshot only reads; a restore that fails
may still have changed the state. -/
structure ServiceOps (σ : Type) where
  version : Nat
  snapshot : σ → Except String Bytes
  restore : σ → Bytes → σ × Option String

structure Registry (State : String → Type) where
  ops : (id : String) → Option (ServiceOps (State id))

structure Layered (State : String → Type) where
  ctl : Ctl
  state : (id : String) → State id

/-- A decoded ctl body with the sender's history variable, or the decoder's
error. -/
abbrev CtlBody : Type := Except String (CtlMsg × List ParticipantID)

namespace Registry

variable {State : String → Type} (reg : Registry State)

/-- The services named in an announce, in an order of the mux's map. -/
def infos (order : List String) : List ServiceInfo :=
  order.filterMap (fun id =>
    if id = ctlID then some { id := ctlID, version := 1 }
    else (reg.ops id).map (fun svc => { id := id, version := svc.version }))

/-- One entry of a snapshot: ctl and unknown services are passed over. -/
def restoreOne (id : String) (state : State id) (blob : Bytes) : State id × Option String :=
  if id = ctlID then (state, none)
  else
    match reg.ops id with
    | none => (state, none)
    | some svc => svc.restore state blob

/-- The loop of `handleSnapshot`; the first service that fails ends it. -/
def restoreAll (state : (id : String) → State id) :
    List ((_ : String) × Bytes) → ((id : String) → State id) × Option String
  | [] => (state, none)
  | ⟨id, blob⟩ :: rest =>
      let result := reg.restoreOne id (state id) blob
      let next := Function.update state id result.1
      match result.2 with
      | some err => (next, some s!"ctl: restore {id}: {err}")
      | none => restoreAll next rest

/-- The loop of `sendSnapshot`; empty blobs are left out. -/
def collect (state : (id : String) → State id) :
    List String → GoMap String Bytes → Except String (GoMap String Bytes)
  | [], blobs => .ok blobs
  | id :: rest, blobs =>
      if id = ctlID then collect state rest blobs
      else
        match reg.ops id with
        | none => collect state rest blobs
        | some svc =>
            match svc.snapshot (state id) with
            | .error err => .error s!"ctl: snapshot {id}: {err}"
            | .ok blob => collect state rest (if blob = [] then blobs else blobs.insert id blob)

end Registry

namespace Layered

variable {State : String → Type} (reg : Registry State) (order : List String)

def handleSnapshotReq (e : Layered State) (fromID : ParticipantID) :
    Except String (List Outgoing) :=
  if e.ctl.ctx.host then
    (reg.collect e.state order ∅).map (fun blobs => e.ctl.handleSnapshotReq fromID blobs)
  else .ok []

def handleSnapshot (e : Layered State) (fromID : ParticipantID) (blobs : GoMap String Bytes) :
    Layered State × Option String :=
  match e.ctl.handleSnapshot fromID with
  | .error err => (e, some err)
  | .ok _ =>
      let restored := reg.restoreAll e.state blobs.entries
      ({ e with state := restored.1 }, restored.2)

/-- `ctlService.HandleFrame`: the end after it, what it sends and its error. -/
def handleFrame (e : Layered State) (fromID : ParticipantID) (body : CtlBody) :
    Layered State × List Outgoing × Option String :=
  match body with
  | .error err => (e, [], some s!"ctl: {err}")
  | .ok (.announce a, pruned) =>
      match e.ctl.handleAnnounce fromID a pruned with
      | .ok accepted => ({ e with ctl := accepted }, [], none)
      | .error err => (e, [], some err)
  | .ok (.identity name endpoint, _) =>
      let result := e.ctl.handleIdentity (reg.infos order) fromID name endpoint
      ({ e with ctl := result.1 }, result.2, none)
  | .ok (.snapshotReq, _) =>
      match e.handleSnapshotReq reg order fromID with
      | .ok sent => (e, sent, none)
      | .error err => (e, [], some err)
  | .ok (.snapshot blobs, _) =>
      let result := e.handleSnapshot reg fromID blobs
      (result.1, [], result.2)
  | .ok (.other, _) => (e, [], none)

end Layered

def Registry.ctlOnly : Registry (fun _ => Unit) :=
  { ops := fun _ => none }

theorem Layered.handleFrame_ctlOnly (e : Layered (fun _ => Unit)) (fromID : ParticipantID)
    (msg : CtlMsg) (pruned : List ParticipantID) :
    (e.handleFrame Registry.ctlOnly [ctlID] fromID (.ok (msg, pruned))).1.ctl =
        (e.ctl.handleFrame fromID msg pruned).1 ∧
      (e.handleFrame Registry.ctlOnly [ctlID] fromID (.ok (msg, pruned))).2.1 =
        (e.ctl.handleFrame fromID msg pruned).2 := by
  cases msg with
  | announce a =>
      simp only [handleFrame, Ctl.handleFrame]
      cases e.ctl.handleAnnounce fromID a pruned <;> exact ⟨rfl, rfl⟩
  | identity name endpoint => exact ⟨rfl, rfl⟩
  | snapshotReq =>
      simp only [handleFrame, handleSnapshotReq, Ctl.handleFrame, Ctl.handleSnapshotReq]
      by_cases host : e.ctl.ctx.host = true
      · simp only [if_pos host]
        exact ⟨rfl, rfl⟩
      · simp only [if_neg host]
        exact ⟨trivial, trivial⟩
  | snapshot blobs =>
      simp only [handleFrame, handleSnapshot, Ctl.handleFrame]
      cases accepted : e.ctl.handleSnapshot fromID with
      | error err => exact ⟨rfl, rfl⟩
      | ok c =>
          unfold Ctl.handleSnapshot at accepted
          split at accepted
          · cases accepted
            exact ⟨rfl, rfl⟩
          · cases accepted
  | other => exact ⟨rfl, rfl⟩

/-- The frame leaves alone what only the host decides, and at a host everything
about others than the sender. -/
structure Layered.Spares {State : String → Type} (fromID : ParticipantID)
    (e e' : Layered State) : Prop where
  ctx : e'.ctl.ctx = e.ctl.ctx
  roster : e'.ctl.roster = e.ctl.roster
  pushKey : e'.ctl.pushKey = e.ctl.pushKey
  state : e'.state = e.state
  joiner : e.ctl.ctx.host = false →
    e'.ctl.names = e.ctl.names ∧ e'.ctl.endpoints = e.ctl.endpoints
  others : ∀ other ≠ fromID, e'.ctl.names.lookup other = e.ctl.names.lookup other ∧
    e'.ctl.endpoints.lookup other = e.ctl.endpoints.lookup other

section

variable {State : String → Type}

theorem Layered.Spares.refl (fromID : ParticipantID) (e : Layered State) :
    Layered.Spares fromID e e :=
  { ctx := rfl
    roster := rfl
    pushKey := rfl
    state := rfl
    joiner := fun _ => ⟨rfl, rfl⟩
    others := fun _ _ => ⟨rfl, rfl⟩ }

theorem Layered.handleIdentity_spares (e : Layered State) (infos : List ServiceInfo)
    (fromID : ParticipantID) (name : Name) (endpoint : Bytes) :
    Layered.Spares fromID e
      { e with ctl := (e.ctl.handleIdentity infos fromID name endpoint).1 } := by
  unfold Ctl.handleIdentity
  split
  · rename_i host
    refine
      { ctx := rfl
        roster := rfl
        pushKey := rfl
        state := rfl
        joiner := fun notHost => absurd host (by rw [notHost]; decide)
        others := fun other differ => ⟨?_, ?_⟩ }
    · show (if name = [] then e.ctl.names else _).lookup other = _
      split
      · rfl
      · exact AList.lookup_insert_ne differ
    · show (if endpoint = [] then e.ctl.endpoints else _).lookup other = _
      split
      · rfl
      · exact AList.lookup_insert_ne differ
  · exact Layered.Spares.refl fromID e

variable {fromID : ParticipantID}

/-- Each kind of message has its own guard: an announce and a snapshot have to
come from the host, and what others report is about themselves. -/
theorem Layered.handleFrame_spares (reg : Registry State) (order : List String) (e : Layered State)
    (notHost : fromID ≠ e.ctl.ctx.hostID) (body : CtlBody) :
    Layered.Spares fromID e (e.handleFrame reg order fromID body).1 := by
  cases body with
  | error err => exact Layered.Spares.refl fromID e
  | ok decoded =>
      obtain ⟨msg, pruned⟩ := decoded
      cases msg with
      | announce a =>
          simp only [handleFrame, Ctl.handleAnnounce, if_neg notHost]
          exact Layered.Spares.refl fromID e
      | identity name endpoint =>
          exact e.handleIdentity_spares (reg.infos order) fromID name endpoint
      | snapshotReq =>
          simp only [handleFrame]
          cases e.handleSnapshotReq reg order fromID <;> exact Layered.Spares.refl fromID e
      | snapshot blobs =>
          simp only [handleFrame, handleSnapshot, Ctl.handleSnapshot, if_neg notHost]
          exact Layered.Spares.refl fromID e
      | other => exact Layered.Spares.refl fromID e

/-- What a host's mux does while it stays the host. -/
inductive HostTurn where
  | frame (fromID : ParticipantID) (body : CtlBody)
  | keyed (id : ParticipantID) (role : Role)
  | left (id : ParticipantID)
  | command (cmd : Command)

def Ctl.obey (infos : List ServiceInfo) (c : Ctl) : Command → Ctl × List Outgoing
  | .setName name => c.setName infos name
  | .setEndpoint endpoint => c.setEndpoint infos endpoint
  | .setPushKey key => c.setPushKey infos key

def Layered.turn (reg : Registry State) (order : List String) (e : Layered State) :
    HostTurn → Layered State
  | .frame fromID body => (e.handleFrame reg order fromID body).1
  | .keyed id role => { e with ctl := (e.ctl.memberKeyed (reg.infos order) id role).1 }
  | .left id => { e with ctl := (e.ctl.memberLeft (reg.infos order) id).1 }
  | .command cmd => { e with ctl := (e.ctl.obey (reg.infos order) cmd).1 }

def HostTurn.isOthers (member host : ParticipantID) : HostTurn → Bool
  | .frame fromID _ => fromID ≠ member ∧ fromID ≠ host
  | _ => false

def Layered.run (reg : Registry State) (order : List String) (e : Layered State)
    (turns : List HostTurn) : Layered State :=
  turns.foldl (Layered.turn reg order) e

def HostTurn.withoutOthers (member host : ParticipantID) (turns : List HostTurn) : List HostTurn :=
  turns.filter (fun taken => !taken.isOthers member host)

/-- The ends agree on what the host decides and on one member. -/
structure Layered.Agree (member : ParticipantID) (e e' : Layered State) : Prop where
  ctx : e'.ctl.ctx = e.ctl.ctx
  roster : e'.ctl.roster = e.ctl.roster
  pushKey : e'.ctl.pushKey = e.ctl.pushKey
  state : e'.state = e.state
  name : e'.ctl.names.lookup member = e.ctl.names.lookup member
  endpoint : e'.ctl.endpoints.lookup member = e.ctl.endpoints.lookup member

namespace Layered.Agree

variable {member : ParticipantID} {e e' : Layered State} (agree : Agree member e e')
  (reg : Registry State) (order : List String)

include agree

theorem spares {next : Layered State} (spared : Spares fromID e next) (differ : member ≠ fromID) :
    Agree member next e' :=
  { ctx := agree.ctx.trans spared.ctx.symm
    roster := agree.roster.trans spared.roster.symm
    pushKey := agree.pushKey.trans spared.pushKey.symm
    state := agree.state.trans spared.state.symm
    name := agree.name.trans (spared.others member differ).1.symm
    endpoint := agree.endpoint.trans (spared.others member differ).2.symm }

theorem handleFrame (fromID : ParticipantID) (body : CtlBody) :
    Agree member (e.handleFrame reg order fromID body).1
      (e'.handleFrame reg order fromID body).1 := by
  cases body with
  | error err => exact agree
  | ok decoded =>
      obtain ⟨msg, pruned⟩ := decoded
      cases msg with
      | announce a =>
          simp only [Layered.handleFrame, Ctl.handleAnnounce, agree.ctx]
          by_cases fromHost : fromID = e.ctl.ctx.hostID
          · simp only [if_pos fromHost]
            exact ⟨rfl, rfl, rfl, agree.state, rfl, rfl⟩
          · simp only [if_neg fromHost]
            exact agree
      | identity name endpoint =>
          simp only [Layered.handleFrame, Ctl.handleIdentity, agree.ctx]
          split
          · refine ⟨rfl, agree.roster, agree.pushKey, agree.state, ?_, ?_⟩
            · show (if name = [] then _ else _ : GoMap _ _).lookup member =
                (if name = [] then _ else _ : GoMap _ _).lookup member
              split
              · exact agree.name
              · exact lookup_insert_congr agree.name fromID (sanitizeName name)
            · show (if endpoint = [] then _ else _ : GoMap _ _).lookup member =
                (if endpoint = [] then _ else _ : GoMap _ _).lookup member
              split
              · exact agree.endpoint
              · exact lookup_insert_congr agree.endpoint fromID endpoint
          · exact agree
      | snapshotReq =>
          simp only [Layered.handleFrame]
          cases e.handleSnapshotReq reg order fromID <;>
            cases e'.handleSnapshotReq reg order fromID <;> exact agree
      | snapshot blobs =>
          simp only [Layered.handleFrame, handleSnapshot, Ctl.handleSnapshot, agree.ctx, agree.state]
          by_cases fromHost : fromID = e.ctl.ctx.hostID
          · simp only [if_pos fromHost]
            exact ⟨agree.ctx, agree.roster, agree.pushKey, rfl, agree.name, agree.endpoint⟩
          · simp only [if_neg fromHost]
            exact agree
      | other => exact agree

theorem obey (infos : List ServiceInfo) (cmd : Command) :
    Agree member { e with ctl := (e.ctl.obey infos cmd).1 }
      { e' with ctl := (e'.ctl.obey infos cmd).1 } := by
  cases cmd with
  | setName name =>
      simp only [Ctl.obey, Ctl.setName, agree.ctx]
      split
      · exact agree
      · have named := lookup_insert_congr agree.name e.ctl.ctx.self (sanitizeName name)
        split <;>
          exact ⟨rfl, agree.roster, agree.pushKey, agree.state, named, agree.endpoint⟩
  | setEndpoint endpoint =>
      simp only [Ctl.obey, Ctl.setEndpoint, agree.ctx]
      have reached := lookup_insert_congr agree.endpoint e.ctl.ctx.self endpoint
      split <;>
        exact ⟨rfl, agree.roster, agree.pushKey, agree.state, agree.name, reached⟩
  | setPushKey key =>
      simp only [Ctl.obey, Ctl.setPushKey, agree.ctx]
      split
      · exact ⟨rfl, agree.roster, rfl, agree.state, agree.name, agree.endpoint⟩
      · exact agree

theorem turn (taken : HostTurn) : Agree member (e.turn reg order taken) (e'.turn reg order taken) := by
  cases taken with
  | frame fromID body => exact agree.handleFrame reg order fromID body
  | keyed id role =>
      simp only [Layered.turn, Ctl.memberKeyed, agree.ctx, agree.roster]
      split
      · exact ⟨rfl, rfl, agree.pushKey, agree.state, agree.name, agree.endpoint⟩
      · exact agree
  | left id =>
      simp only [Layered.turn, Ctl.memberLeft, agree.ctx]
      split
      · exact
          { agree with
            roster := congrArg (AList.erase id) agree.roster
            name := lookup_erase_congr agree.name id
            endpoint := lookup_erase_congr agree.endpoint id }
      · exact agree
  | command cmd => exact agree.obey (reg.infos order) cmd

theorem announce (infos : List ServiceInfo) : ∃ a a',
    e.ctl.announce infos = .broadcast (.announce a) ∧
      e'.ctl.announce infos = .broadcast (.announce a') ∧
      a'.names.lookup member = a.names.lookup member ∧
      a'.endpoints.lookup member = a.endpoints.lookup member := by
  refine ⟨_, _, rfl, rfl, ?_, ?_⟩
  · simp only [Ctl.lookup_currentOnly, agree.roster, agree.name]
  · simp only [Ctl.lookup_currentOnly, agree.roster, agree.endpoint]

end Layered.Agree

theorem Layered.Agree.refl (member : ParticipantID) (e : Layered State) :
    Layered.Agree member e e :=
  ⟨rfl, rfl, rfl, rfl, rfl, rfl⟩

theorem Layered.ctx_turn (reg : Registry State) (order : List String) (e : Layered State)
    (taken : HostTurn) : (e.turn reg order taken).ctl.ctx = e.ctl.ctx := by
  cases taken with
  | frame fromID body =>
      by_cases fromHost : fromID = e.ctl.ctx.hostID
      · simp only [turn]
        cases body with
        | error err => rfl
        | ok decoded =>
            obtain ⟨msg, pruned⟩ := decoded
            cases msg with
            | announce a =>
                simp only [handleFrame, Ctl.handleAnnounce, if_pos fromHost]
            | identity name endpoint =>
                exact (e.handleIdentity_spares (reg.infos order) fromID name endpoint).ctx
            | snapshotReq =>
                simp only [handleFrame]
                cases e.handleSnapshotReq reg order fromID <;> rfl
            | snapshot blobs =>
                simp only [handleFrame, handleSnapshot, Ctl.handleSnapshot, if_pos fromHost]
            | other => rfl
      · exact (e.handleFrame_spares reg order fromHost body).ctx
  | keyed id role =>
      simp only [turn, Ctl.memberKeyed]
      split <;> rfl
  | left id =>
      simp only [turn, Ctl.memberLeft]
      split <;> rfl
  | command cmd =>
      cases cmd with
      | setName name =>
          simp only [turn, Ctl.obey, Ctl.setName]
          split
          · rfl
          · split <;> rfl
      | setEndpoint endpoint =>
          simp only [turn, Ctl.obey, Ctl.setEndpoint]
          split <;> rfl
      | setPushKey key =>
          simp only [turn, Ctl.obey, Ctl.setPushKey]
          split <;> rfl

/-- Dropping the frames of the others from a run changes nothing the host decides
and nothing about the member. -/
theorem Layered.Agree.run {member : ParticipantID} (reg : Registry State) (order : List String)
    (turns : List HostTurn) {e e' : Layered State} (agree : Layered.Agree member e e') :
    Layered.Agree member (e.run reg order turns)
      (e'.run reg order (HostTurn.withoutOthers member e.ctl.ctx.hostID turns)) := by
  unfold Layered.run HostTurn.withoutOthers
  induction turns generalizing e e' with
  | nil => exact agree
  | cons taken rest ih =>
      have sameHost : (e.turn reg order taken).ctl.ctx.hostID = e.ctl.ctx.hostID :=
        congrArg Context.hostID (e.ctx_turn reg order taken)
      by_cases others : taken.isOthers member e.ctl.ctx.hostID = true
      · rw [List.filter_cons_of_neg (by rw [others]; decide), List.foldl_cons, ← sameHost]
        apply ih
        cases taken with
        | frame fromID body =>
            obtain ⟨notMember, notHost⟩ := of_decide_eq_true others
            exact agree.spares (e.handleFrame_spares reg order notHost body) (Ne.symm notMember)
        | keyed id role => cases others
        | left id => cases others
        | command cmd => cases others
      · rw [Bool.not_eq_true] at others
        rw [List.filter_cons_of_pos (by rw [others]; decide), List.foldl_cons, List.foldl_cons,
          ← sameHost]
        exact ih (agree.turn reg order taken)

end

/-- A frame from another than the host spares what the host decides, at a host all
but the sender's own values; and in any run of a host, the values of a member that
the host holds and announces are those of the run without the others' frames. -/
theorem only_host_decides :
    (∀ (State : String → Type) (reg : Registry State) (order : List String) (e : Layered State)
      (fromID : ParticipantID) (body : CtlBody), fromID ≠ e.ctl.ctx.hostID →
        Layered.Spares fromID e (e.handleFrame reg order fromID body).1) ∧
    ∀ (State : String → Type) (reg : Registry State) (order : List String) (e : Layered State)
      (member : ParticipantID) (turns : List HostTurn),
      Layered.Agree member (e.run reg order turns)
          (e.run reg order (HostTurn.withoutOthers member e.ctl.ctx.hostID turns)) ∧
        ∀ infos, ∃ a a', (e.run reg order turns).ctl.announce infos = .broadcast (.announce a) ∧
          (e.run reg order (HostTurn.withoutOthers member e.ctl.ctx.hostID turns)).ctl.announce
            infos = .broadcast (.announce a') ∧
          a'.names.lookup member = a.names.lookup member ∧
          a'.endpoints.lookup member = a.endpoints.lookup member := by
  refine ⟨fun State reg order e fromID body notHost =>
    e.handleFrame_spares reg order notHost body, ?_⟩
  intro State reg order e member turns
  have agree := (Layered.Agree.refl member e).run reg order turns
  exact ⟨agree, agree.announce⟩

def sampleEnd : Layered (fun _ => Unit) :=
  { ctl := { Ctl.new with ctx := { self := 3, hostID := 1, host := false } }
    state := fun _ => () }

/-- Another member's announce. -/
theorem only_host_decides_announce :
    (2 : ParticipantID) ≠ sampleEnd.ctl.ctx.hostID ∧
      Layered.Spares 2 sampleEnd (sampleEnd.handleFrame Registry.ctlOnly [ctlID] 2
        (.ok (.announce
          { roster := ∅, names := ∅, endpoints := ∅, pushKey := [7], services := [] }, []))).1 :=
  ⟨by decide, only_host_decides.1 _ _ _ _ 2 _ (by decide)⟩

/-! ### The order of a snapshot -/

section

variable {State : String → Type}

/-- A service that fails is harmless: its failure keeps nothing from the others,
since restoring them would leave their states as they are. -/
def Registry.Harmless (reg : Registry State) (state : (id : String) → State id)
    (entries : List ((_ : String) × Bytes)) : Prop :=
  ∀ failing ∈ entries, (reg.restoreOne failing.1 (state failing.1) failing.2).2.isSome = true →
    ∀ other ∈ entries, other.1 ≠ failing.1 →
      (reg.restoreOne other.1 (state other.1) other.2).1 = state other.1

variable {state : (id : String) → State id} {entries : List ((_ : String) × Bytes)}
  {reg : Registry State} {rest : List ((_ : String) × Bytes)}

theorem Registry.harmless_of_accepted
    (accepted : ∀ entry ∈ entries, (reg.restoreOne entry.1 (state entry.1) entry.2).2 = none) :
    reg.Harmless state entries := by
  intro failing present fails
  rw [accepted failing present] at fails
  cases fails

def Registry.restoredState (reg : Registry State) (state : (id : String) → State id)
    (entries : List ((_ : String) × Bytes)) (id : String) : State id :=
  match entries.dlookup id with
  | none => state id
  | some blob => (reg.restoreOne id (state id) blob).1

theorem Registry.restoredState_cons (reg : Registry State) (state : (id : String) → State id)
    (key : String) (blob : Bytes) (fresh : key ∉ rest.keys) :
    reg.restoredState state (⟨key, blob⟩ :: rest) =
      reg.restoredState (Function.update state key (reg.restoreOne key (state key) blob).1) rest := by
  funext id
  unfold restoredState
  by_cases here : id = key
  · subst here
    rw [List.dlookup_cons_eq, List.dlookup_eq_none.mpr fresh, Function.update_self]
  · rw [List.dlookup_cons_ne _ _ here, Function.update_of_ne here]

theorem Registry.Harmless.update {key : String} (fresh : key ∉ rest.keys)
    (harmless : reg.Harmless state rest) (value : State key) :
    reg.Harmless (Function.update state key value) rest := by
  have apart : ∀ entry ∈ rest, Function.update state key value entry.1 = state entry.1 := by
    intro entry present
    exact Function.update_of_ne (fun same => fresh (List.mem_map.mpr ⟨_, present, same⟩)) ..
  intro failing failingIn fails other otherIn differ
  rw [apart failing failingIn] at fails
  rw [apart other otherIn]
  exact harmless failing failingIn fails other otherIn differ

theorem Registry.restoreAll_state (distinct : entries.NodupKeys)
    (harmless : reg.Harmless state entries) :
    (reg.restoreAll state entries).1 = reg.restoredState state entries := by
  induction entries generalizing state with
  | nil => rfl
  | cons entry rest ih =>
      obtain ⟨key, blob⟩ := entry
      obtain ⟨fresh, restDistinct⟩ := List.nodupKeys_cons.mp distinct
      have restHarmless : reg.Harmless state rest := fun failing failingIn fails other otherIn =>
        harmless failing (List.mem_cons_of_mem _ failingIn) fails other
          (List.mem_cons_of_mem _ otherIn)
      rw [reg.restoredState_cons state key blob fresh]
      cases result : (reg.restoreOne key (state key) blob).2 with
      | none =>
          simp only [restoreAll, result]
          exact ih restDistinct (restHarmless.update fresh _)
      | some err =>
          -- nothing after it is restored, and nothing after it would change
          simp only [restoreAll, result]
          have fails : (reg.restoreOne key (state key) blob).2.isSome = true := by
            rw [result]
            rfl
          funext id
          unfold restoredState
          cases found : rest.dlookup id with
          | none => rfl
          | some later =>
              have present := List.of_mem_dlookup found
              have differ : id ≠ key := fun same =>
                fresh (List.mem_map.mpr ⟨_, present, same⟩)
              have spared := harmless ⟨key, blob⟩ List.mem_cons_self fails ⟨id, later⟩
                (List.mem_cons_of_mem _ present) differ
              simp only [Function.update_of_ne differ]
              exact spared.symm

theorem Registry.Harmless.perm {other : List ((_ : String) × Bytes)}
    (harmless : reg.Harmless state entries) (order : entries.Perm other) :
    reg.Harmless state other :=
  fun failing failingIn fails entry entryIn =>
    harmless failing (order.mem_iff.mpr failingIn) fails entry (order.mem_iff.mpr entryIn)

theorem Registry.restoreAll_other {id : String} (absent : id ∉ entries.keys) :
    (reg.restoreAll state entries).1 id = state id := by
  induction entries generalizing state with
  | nil => rfl
  | cons entry rest ih =>
      obtain ⟨key, blob⟩ := entry
      rw [List.keys_cons, List.mem_cons, not_or] at absent
      have untouched : Function.update state key (reg.restoreOne key (state key) blob).1 id =
          state id := Function.update_of_ne absent.1 ..
      simp only [restoreAll]
      split
      · exact untouched
      · exact (ih absent.2).trans untouched

/-- The service that comes first is restored, whatever the others do. -/
theorem Registry.restoreAll_first {entry : (_ : String) × Bytes} (fresh : entry.1 ∉ rest.keys) :
    (reg.restoreAll state (entry :: rest)).1 entry.1 =
      (reg.restoreOne entry.1 (state entry.1) entry.2).1 := by
  simp only [restoreAll]
  split
  · exact Function.update_self ..
  · rw [restoreAll_other fresh]
    exact Function.update_self ..

/-- No other service is restored after one that fails. -/
theorem Registry.restoreAll_failed {entry : (_ : String) × Bytes}
    (fails : (reg.restoreOne entry.1 (state entry.1) entry.2).2.isSome = true) {id : String}
    (differ : id ≠ entry.1) : (reg.restoreAll state (entry :: rest)).1 id = state id := by
  obtain ⟨err, failed⟩ := Option.isSome_iff_exists.mp fails
  simp only [restoreAll, failed]
  exact Function.update_of_ne differ ..

end

/-- Every order of a snapshot that an end accepts leaves every service in the same
state, exactly when no service fails that could keep another from being changed. -/
theorem snapshot_order_irrelevant {State : String → Type} (reg : Registry State)
    (e : Layered State) (fromID : ParticipantID) (blobs : GoMap String Bytes) :
    (∀ one other : GoMap String Bytes,
        blobs.entries.Perm one.entries → blobs.entries.Perm other.entries →
          (e.handleSnapshot reg fromID one).1 = (e.handleSnapshot reg fromID other).1) ↔
      fromID ≠ e.ctl.ctx.hostID ∨ reg.Harmless e.state blobs.entries := by
  by_cases fromHost : fromID = e.ctl.ctx.hostID
  · simp only [Layered.handleSnapshot, Ctl.handleSnapshot, fromHost, if_true, ne_eq,
      not_true_eq_false, false_or]
    constructor
    · intro agree failing failingIn fails other otherIn differ
      -- the failing service comes first in one order, and the other service in another
      have failingFirst := List.perm_cons_erase failingIn
      have otherFirst := List.perm_cons_erase otherIn
      have otherKeys := (List.perm_nodupKeys otherFirst).mp blobs.nodupKeys
      have same := congrArg (fun left => left.state other.1) (agree
        ⟨_, (List.perm_nodupKeys failingFirst).mp blobs.nodupKeys⟩ ⟨_, otherKeys⟩
        failingFirst otherFirst)
      simp only [Registry.restoreAll_failed fails differ,
        Registry.restoreAll_first (List.nodupKeys_cons.mp otherKeys).1] at same
      exact same.symm
    · intro harmless one other first second
      rw [Registry.restoreAll_state one.nodupKeys (harmless.perm first),
        Registry.restoreAll_state other.nodupKeys (harmless.perm second)]
      congr 1
      funext id
      unfold Registry.restoredState
      rw [← List.perm_dlookup id blobs.nodupKeys first,
        ← List.perm_dlookup id blobs.nodupKeys second]
  · refine iff_of_true (fun one other _ _ => ?_) (Or.inl fromHost)
    simp only [Layered.handleSnapshot, Ctl.handleSnapshot, if_neg fromHost]

def keeping : ServiceOps Bytes :=
  { version := 1
    snapshot := fun state => .ok state
    restore := fun _ blob => (blob, none) }

def refusing : ServiceOps Bytes :=
  { version := 1
    snapshot := fun state => .ok state
    restore := fun state _ => (state, some "bad blob") }

def sampleRegistry : Registry (fun _ => Bytes) :=
  { ops := fun id =>
      if id = "board" then some keeping
      else if id = "chat" then some keeping
      else if id = "score" then some refusing
      else none }

def restoring : Layered (fun _ => Bytes) :=
  { ctl := { Ctl.new with ctx := { self := 2, hostID := 1, host := false } }
    state := fun _ => [] }

theorem snapshot_order_irrelevant_accepted :
    (restoring.handleSnapshot sampleRegistry 1
        (AList.insert "board" [1] (AList.insert "chat" [2] ∅))).1.state "board" = [1] ∧
      (restoring.handleSnapshot sampleRegistry 1
          (AList.insert "board" [1] (AList.insert "chat" [2] ∅))).1 =
        (restoring.handleSnapshot sampleRegistry 1
          (AList.insert "chat" [2] (AList.insert "board" [1] ∅))).1 := by
  refine ⟨by decide, (snapshot_order_irrelevant sampleRegistry restoring 1 _).mpr (Or.inr ?_) _ _
    (List.Perm.refl _) (List.Perm.swap ..)⟩
  · refine Registry.harmless_of_accepted (fun entry present => ?_)
    rcases List.mem_cons.mp present with rfl | last
    · rfl
    · rcases List.mem_singleton.mp last with rfl
      rfl

/-- Whether a service is restored depends on whether a failing one comes first. -/
theorem failing_service_hides_others :
    ¬∀ (State : String → Type) (reg : Registry State) (e : Layered State) (fromID : ParticipantID)
      (blobs other : GoMap String Bytes), fromID = e.ctl.ctx.hostID →
      blobs.entries.Perm other.entries →
        (e.handleSnapshot reg fromID blobs).1.state = (e.handleSnapshot reg fromID other).1.state := by
  intro claimed
  have same := congrFun (claimed (fun _ => Bytes) sampleRegistry restoring 1
    (AList.insert "board" [1] (AList.insert "score" [2] ∅))
    (AList.insert "score" [2] (AList.insert "board" [1] ∅)) rfl (List.Perm.swap ..)) "board"
  revert same
  decide

end Parley.Service
