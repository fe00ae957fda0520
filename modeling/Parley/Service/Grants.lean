/-
What a step of an end does to the handshakes of joiners.

A joiner writes one first flight.  The host that takes it asks its policy, stores
the role, wraps it to the joiner and reports it, in this order, and all of that
happens in the read goroutine.  Taking a frame changes a role only if a joiner
unwraps its first key.
-/

import Parley.Service.NodeSteps

namespace Parley.Service

open Crypto Library Session
open Wire (Bytes ParticipantID SessionID)

variable {prim : Primitives}

structure Grant where
  host : ParticipantID
  joiner : ParticipantID
  role : Role
  deriving DecidableEq, Repr

def Reader.greets : Reader prim → Bool
  | .greeting _ => true
  | _ => false

def Reader.admits (reader : Reader prim) (joiner : ParticipantID) : Bool :=
  match reader with
  | .admitting fromID _ _ _ => fromID = joiner
  | _ => false

def Reader.grants (host : ParticipantID) : Reader prim → List Grant
  | .admitReply fromID role _ _ _ => [{ host := host, joiner := fromID, role := role }]
  | .admitKey fromID role _ _ => [{ host := host, joiner := fromID, role := role }]
  | .admitted fromID role => [{ host := host, joiner := fromID, role := role }]
  | _ => []

def Sent.isPake1 : Sent prim Body → Bool
  | .direct _ (.pake1 _) => true
  | .broadcast (.pake1 _) => true
  | _ => false

def Sent.opening : Sent prim Body → Bool
  | .direct _ (.groupKey _) => true
  | sent => Sent.isPake1 sent

/-- What a step of the read goroutine stores in `joiners`. -/
def Endpoint.stores (host : ParticipantID) (E E' : Endpoint prim Body) : List Grant :=
  match E.reader with
  | .admitting fromID _ _ _ =>
      (E'.client.joiners.lookup fromID).toList.map (fun role =>
        { host := host, joiner := fromID, role := role })
  | _ => []

/-- The roles of the `MemberKeyed` events among some outputs. -/
def reportsIn (host : ParticipantID) (outputs : List (Output prim Body)) : List Grant :=
  outputs.filterMap (fun output =>
    match output with
    | .emitted (.memberKeyed id role) => some { host := host, joiner := id, role := role }
    | _ => none)

/-- What a step of an end does to the handshakes of joiners. -/
structure GrantStep (x : ParticipantID) (E E' : Endpoint prim Body) (posts : List (Sent prim Body))
    (stored reported : List Grant) : Prop where
  pointed : Reader.greets E'.reader = true → E'.client.hostID = E.client.hostID
  flights : (Reader.greets E'.reader).toNat + posts.countP Sent.isPake1 ≤
    (Reader.greets E.reader).toNat
  toHost : ∀ sent ∈ posts, Sent.isPake1 sent = true →
    ∃ p, sent = .direct E.client.hostID (.pake1 p)
  keys : ∀ toID gk, .direct toID (.groupKey gk) ∈ posts →
    WrapsAs (fun role => ⟨x, toID, role⟩ ∈ Reader.grants x E.reader) gk
  grants : ∀ g ∈ Reader.grants x E'.reader, g ∈ Reader.grants x E.reader ∨ g ∈ stored
  admits : ∀ j, (Reader.admits E'.reader j).toNat + stored.countP (fun g => g.joiner = j) ≤
    (Reader.admits E.reader j).toNat
  stores : ∀ g ∈ stored, g.host = x ∧ E'.client.joiners.lookup g.joiner = some g.role ∧
    g.role ≠ roleNone ∧ g.role ≠ roleHost
  joiners : ∀ j, (∀ g ∈ stored, g.joiner ≠ j) →
    E'.client.joiners.lookup j = E.client.joiners.lookup j
  reports : ∀ g ∈ reported, g ∈ Reader.grants x E.reader
  sameKeyed : E'.client.keyed = E.client.keyed
  inLoop : Reader.inLoop E.reader = true → Reader.inLoop E'.reader = true

section

variable {f : Facts} {x : ParticipantID} {E E' : Endpoint prim Body}
  {outputs : List (Output prim Body)}

theorem toNat_le_toNat {a b : Bool} (implies : a = true → b = true) : a.toNat ≤ b.toNat := by
  cases a with
  | false => exact Nat.zero_le _
  | true =>
      rw [implies rfl]

variable {posts : List (Sent prim Body)} {reported stored : List Grant} {fromID : ParticipantID}
  {written : Bool} {pairwise : Key}

theorem GrantStep.admits_of_store (step : GrantStep x E E' posts stored reported) {g : Grant}
    (new : g ∈ stored) :
    Reader.admits E.reader g.joiner = true := by
  have counted : 0 < stored.countP (fun other => other.joiner = g.joiner) :=
    List.countP_pos_iff.mpr ⟨g, new, decide_eq_true rfl⟩
  have bound := step.admits g.joiner
  cases asked : Reader.admits E.reader g.joiner with
  | true => rfl
  | false =>
      rw [asked, Bool.toNat_false] at bound
      omega

theorem GrantStep.admits_of_admits (step : GrantStep x E E' posts stored reported)
    {j : ParticipantID} (asked : Reader.admits E'.reader j = true) :
    Reader.admits E.reader j = true := by
  have bound := step.admits j
  cases before : Reader.admits E.reader j with
  | true => rfl
  | false =>
      rw [asked, before, Bool.toNat_false, Bool.toNat_true] at bound
      omega

theorem GrantStep.greets_of_flight (step : GrantStep x E E' posts stored reported)
    (flies : Reader.greets E'.reader = true ∨ ∃ sent ∈ posts, Sent.isPake1 sent = true) :
    Reader.greets E.reader = true := by
  have bound := step.flights
  have flight : 1 ≤ (Reader.greets E'.reader).toNat + posts.countP Sent.isPake1 := by
    rcases flies with greets | written
    · rw [greets, Bool.toNat_true]
      exact Nat.le_add_right 1 _
    · exact Nat.le_add_left_of_le (List.countP_pos_iff.mpr written)
  cases before : Reader.greets E.reader with
  | true => rfl
  | false =>
      rw [before, Bool.toNat_false] at bound
      omega

theorem GrantStep.of_silent
    (unopened : ∀ sent ∈ posts, Sent.opening sent = false)
    (greets : Reader.greets E'.reader = true →
      Reader.greets E.reader = true ∧ E'.client.hostID = E.client.hostID)
    (admits : ∀ j, Reader.admits E'.reader j = true → Reader.admits E.reader j = true)
    (grants : ∀ g ∈ Reader.grants x E'.reader, g ∈ Reader.grants x E.reader)
    (joiners : E'.client.joiners = E.client.joiners) (keyed : E'.client.keyed = E.client.keyed)
    (inLoop : Reader.inLoop E.reader = true → Reader.inLoop E'.reader = true) :
    GrantStep x E E' posts [] [] := by
  have noFlight : ∀ sent ∈ posts, Sent.isPake1 sent ≠ true := by
    intro sent member starts
    have closed := unopened sent member
    unfold Sent.opening at closed
    split at closed
    · cases closed
    · rw [closed] at starts
      cases starts
  refine
    { pointed := fun starts => (greets starts).2
      flights := ?_
      toHost := fun sent member starts => absurd starts (noFlight sent member)
      keys := fun toID gk member => by cases unopened _ member
      grants := fun g member => Or.inl (grants g member)
      admits := fun j => toNat_le_toNat (admits j)
      stores := List.forall_mem_nil _
      joiners := fun j _ => by rw [joiners]
      reports := List.forall_mem_nil _
      sameKeyed := keyed
      inLoop := inLoop }
  rw [List.countP_eq_zero.mpr noFlight]
  exact toNat_le_toNat (fun starts => (greets starts).1)

theorem GrantStep.of_same (unopened : ∀ sent ∈ posts, Sent.opening sent = false)
    (reader : E'.reader = E.reader)
    (pointed : Reader.greets E.reader = true → E'.client.hostID = E.client.hostID)
    (joiners : E'.client.joiners = E.client.joiners) (keyed : E'.client.keyed = E.client.keyed) :
    GrantStep x E E' posts [] [] := by
  refine .of_silent unopened (fun starts => ?_) (fun j asked => reader ▸ asked)
    (fun g member => reader ▸ member) joiners keyed (fun inside => reader ▸ inside)
  rw [reader] at starts
  exact ⟨starts, pointed starts⟩

/-- A place of the read goroutine in which it has no flight to write and no policy
to ask. -/
structure Reader.Past (x : ParticipantID) (before reader : Reader prim) : Prop where
  greets : Reader.greets reader = false
  admits : ∀ j, Reader.admits reader j = false
  grants : ∀ g ∈ Reader.grants x reader, g ∈ Reader.grants x before
  inLoop : Reader.inLoop before = true → Reader.inLoop reader = true

theorem Reader.Past.of_idle (before : Reader prim) : Reader.Past x before .idle :=
  { greets := rfl
    admits := fun _ => rfl
    grants := List.forall_mem_nil _
    inLoop := fun _ => rfl }

theorem GrantStep.of_past {reader : Reader prim} (isReader : E'.reader = reader)
    (past : Reader.Past x E.reader reader) (joiners : E'.client.joiners = E.client.joiners)
    (keyed : E'.client.keyed = E.client.keyed)
    (unopened : ∀ sent ∈ posts, Sent.opening sent = false) : GrantStep x E E' posts [] [] := by
  subst isReader
  exact .of_silent unopened (fun starts => by rw [past.greets] at starts; cases starts)
    (fun j asked => by rw [past.admits j] at asked; cases asked) past.grants joiners keyed
    past.inLoop

theorem GrantStep.of_writeThen {sent : Sent prim Body} {next otherwise : Reader prim}
    (wrote : E.writeThen sent written next otherwise = (E', outputs))
    (unopened : Sent.opening sent = false) (pastNext : Reader.Past x E.reader next)
    (pastOtherwise : Reader.Past x E.reader otherwise) :
    GrantStep x E E' (outputs.filterMap Output.written) [] (reportsIn x outputs) := by
  cases written with
  | true =>
      cases wrote
      refine .of_past rfl pastNext rfl rfl (fun other member => ?_)
      rw [List.mem_singleton.mp member]
      exact unopened
  | false =>
      cases wrote
      exact .of_past rfl pastOtherwise rfl rfl (List.forall_mem_nil _)

theorem assignRole_ne_none (c : Client) (fromID : ParticipantID) (spectate : Bool) :
    c.assignRole fromID spectate ≠ roleNone := by
  unfold Client.assignRole
  simp only
  split
  · decide
  · rename_i reserved
    exact fun same => reserved (Or.inl same)

theorem stores_of_not_admitting (other : ∀ j, Reader.admits E.reader j = false) :
    Endpoint.stores x E E' = [] := by
  unfold Endpoint.stores
  split
  · rename_i fromID spectate pairwise flight2 there
    have asked := other fromID
    rw [there] at asked
    exact absurd rfl (of_decide_eq_false asked)
  · rfl

theorem GrantStep.greets {j : Joiner} {flight : Pake}
    (there : E.reader = .greeting j)
    (wrote : E.writeThen (.direct E.client.hostID (.pake1 flight)) written (.joining j none)
      .failed = (E', outputs)) :
    GrantStep x E E' (outputs.filterMap Output.written) [] (reportsIn x outputs) := by
  cases written with
  | true =>
      cases wrote
      refine
        { pointed := fun starts => by cases starts
          flights := by rw [there]; exact Nat.le_refl 1
          toHost := fun sent member _ => ⟨flight, List.mem_singleton.mp member⟩
          keys := fun toID gk member => by cases List.mem_singleton.mp member
          grants := List.forall_mem_nil _
          admits := fun j => Nat.zero_le _
          stores := List.forall_mem_nil _
          joiners := fun _ _ => rfl
          reports := List.forall_mem_nil _
          sameKeyed := rfl
          inLoop := fun inside => by rw [there] at inside; cases inside }
  | false =>
      cases wrote
      refine .of_past rfl ?_ rfl rfl (List.forall_mem_nil _)
      exact
        { greets := rfl
          admits := fun _ => rfl
          grants := List.forall_mem_nil _
          inLoop := fun inside => by rw [there] at inside; cases inside }

theorem GrantStep.admitting {spectate : Bool} {key : Key}
    {flight2 : Bytes} (there : E.reader = .admitting fromID spectate pairwise flight2)
    (isNext : E' = { E with
      client := E.client.enrol fromID (E.client.assignRole fromID spectate) pairwise
      reader := .admitReply fromID (E.client.assignRole fromID spectate) pairwise flight2 key }) :
    GrantStep x E E' [] (Endpoint.stores x E E') [] := by
  have isStored : Endpoint.stores x E E' =
      [⟨x, fromID, E.client.assignRole fromID spectate⟩] := by
    subst isNext
    simp only [Endpoint.stores, there, Client.enrol, AList.lookup_insert, Option.toList_some,
      List.map_cons, List.map_nil]
  rw [isStored]
  subst isNext
  refine
    { pointed := fun starts => by cases starts
      flights := Nat.zero_le _
      toHost := List.forall_mem_nil _
      keys := fun _ _ absent => absurd absent List.not_mem_nil
      grants := fun g member => Or.inr member
      admits := fun j => ?_
      stores := fun g member => ?_
      joiners := fun j others => ?_
      reports := List.forall_mem_nil _
      sameKeyed := rfl
      inLoop := fun _ => rfl }
  · rw [there, List.countP_singleton]
    by_cases same : fromID = j
    · simp [Reader.admits, same]
    · simp [Reader.admits, same]
  · cases List.mem_singleton.mp member
    exact ⟨rfl, AList.lookup_insert _, assignRole_ne_none _ _ _, assignRole_ne_host _ _ _⟩
  · exact AList.lookup_insert_ne (fun same => others _ List.mem_cons_self same.symm)

theorem GrantStep.wraps {role : Role} {key : Key}
    {outcome : Outcome} (there : E.reader = .admitKey fromID role pairwise key)
    (wrote : E.wrapThen fromID pairwise key role outcome .groupKey (.admitted fromID role) =
      (E', outputs)) :
    GrantStep x E E' (outputs.filterMap Output.written) [] (reportsIn x outputs) := by
  have nothing : ∀ sent ∈ ([] : List (Sent prim Body)), Sent.opening sent = false :=
    List.forall_mem_nil _
  unfold Endpoint.wrapThen at wrote
  split at wrote
  · cases wrote
    exact .of_past rfl (.of_idle _) rfl rfl nothing
  · rename_i nonce _
    cases isWritten : outcome.written with
    | false =>
        simp only [isWritten] at wrote
        cases wrote
        exact .of_past rfl (.of_idle _) rfl rfl nothing
    | true =>
        simp only [isWritten] at wrote
        cases wrote
        refine
          { pointed := fun starts => by cases starts
            flights := Nat.zero_le _
            toHost := fun sent member starts => ?_
            keys := fun toID gk member => ?_
            grants := fun g member => Or.inl (by rw [there]; exact member)
            admits := fun j => Nat.zero_le _
            stores := List.forall_mem_nil _
            joiners := fun _ _ => rfl
            reports := List.forall_mem_nil _
            sameKeyed := rfl
            inLoop := fun _ => rfl }
        · cases List.mem_singleton.mp member
          cases starts
        · cases List.mem_singleton.mp member
          rw [there]
          exact ⟨_, _, _, _, _, _, rfl, List.mem_singleton_self _⟩

theorem GrantStep.advances {outcome : Outcome}
    (advanced : E.advance outcome = some (E', outputs)) :
    GrantStep x E E' (outputs.filterMap Output.written) (Endpoint.stores x E E')
      (reportsIn x outputs) := by
  have nothing : ∀ sent ∈ ([] : List (Sent prim Body)), Sent.opening sent = false :=
    List.forall_mem_nil _
  -- a place without grants in the loop
  have loop : ∀ {reader : Reader prim}, Reader.greets reader = false →
      (∀ j, Reader.admits reader j = false) → Reader.grants x reader = [] →
      Reader.inLoop reader = true → Reader.Past x E.reader reader :=
    fun greets admits grants inLoop =>
      { greets := greets
        admits := admits
        grants := fun g member => by rw [grants] at member; cases member
        inLoop := fun _ => inLoop }
  have unstored : (∀ j, Reader.admits E.reader j = false) →
      GrantStep x E E' (outputs.filterMap Output.written) [] (reportsIn x outputs) →
      GrantStep x E E' (outputs.filterMap Output.written) (Endpoint.stores x E E')
        (reportsIn x outputs) := by
    intro other step
    rw [stores_of_not_admitting other]
    exact step
  unfold Endpoint.advance at advanced
  generalize there : E.reader = reader at advanced
  cases reader with
  | admitting fromID spectate pairwise flight2 =>
      cases advanced
      exact .admitting there rfl
  | greeting j =>
      refine unstored (fun _ => by rw [there]; rfl) ?_
      exact .greets there (Option.some.inj advanced)
  | departed =>
      refine unstored (fun _ => by rw [there]; rfl) ?_
      dsimp only at advanced
      split at advanced
      · cases advanced
        exact .of_past rfl (.of_idle _) rfl rfl nothing
      · cases advanced
        exact .of_past rfl (loop rfl (fun _ => rfl) rfl rfl) rfl rfl nothing
  | distributing newKey outs =>
      refine unstored (fun _ => by rw [there]; rfl) ?_
      simp only [Endpoint.distribute] at advanced
      split at advanced
      · cases advanced
        exact .of_past rfl (.of_idle _) rfl rfl nothing
      · obtain ⟨out, _, wrote⟩ := Option.map_eq_some_iff.mp advanced
        exact .of_writeThen wrote rfl (loop rfl (fun _ => rfl) rfl rfl)
          (loop rfl (fun _ => rfl) rfl rfl)
  | admitReply fromID role pairwise flight2 key =>
      refine unstored (fun _ => by rw [there]; rfl) ?_
      refine .of_writeThen (Option.some.inj advanced) rfl ?_ (.of_idle _)
      exact
        { greets := rfl
          admits := fun _ => rfl
          grants := fun g member => by rw [there]; exact member
          inLoop := fun _ => rfl }
  | admitKey fromID role pairwise key =>
      refine unstored (fun _ => by rw [there]; rfl) ?_
      exact .wraps there (Option.some.inj advanced)
  | admitted fromID role =>
      refine unstored (fun _ => by rw [there]; rfl) ?_
      cases advanced
      have silent : GrantStep x E { E with reader := .idle } [] [] [] :=
        .of_past rfl (.of_idle _) rfl rfl nothing
      exact { silent with
        reports := fun g member => by
          rw [there]
          exact member }
  | readmitting fromID pairwise flight2 =>
      refine unstored (fun _ => by rw [there]; rfl) ?_
      cases advanced
      exact .of_past rfl (loop rfl (fun _ => rfl) rfl rfl) rfl rfl nothing
  | readmitReply fromID pairwise flight2 key =>
      refine unstored (fun _ => by rw [there]; rfl) ?_
      exact .of_writeThen (Option.some.inj advanced) rfl (loop rfl (fun _ => rfl) rfl rfl)
        (.of_idle _)
  | readmitKey fromID pairwise key =>
      refine unstored (fun _ => by rw [there]; rfl) ?_
      simp only [Option.some.injEq, Endpoint.wrapThen] at advanced
      split at advanced
      · cases advanced
        exact .of_past rfl (.of_idle _) rfl rfl nothing
      · exact .of_writeThen advanced rfl (.of_idle _) (.of_idle _)
  | installing key role =>
      refine unstored (fun _ => by rw [there]; rfl) ?_
      cases advanced
      refine .of_past rfl (.of_idle _) ?_ ?_ nothing
      · simp only [Client.install]
        split <;> rfl
      · simp only [Client.install]
        split <;> rfl
  | finishing j data =>
      refine unstored (fun _ => by rw [there]; rfl) ?_
      dsimp only at advanced
      split at advanced
      · cases advanced
        exact .of_past rfl (loop rfl (fun _ => rfl) rfl rfl) rfl rfl nothing
      · cases advanced
        exact .of_past rfl (.of_idle _) rfl rfl nothing
  | finished pairwise =>
      refine unstored (fun _ => by rw [there]; rfl) ?_
      cases advanced
      exact .of_past rfl (.of_idle _) rfl rfl nothing
  | joining j pairwise | failed | idle | stopped => cases advanced

end

/-- Nothing of a join is left to be written outside the read goroutine. -/
structure Node.Unopened (n : Node prim) : Prop where
  calls : ∀ sent ∈ n.endpoint.calls, Sent.opening sent = false
  tasks : ∀ sent, .write sent ∈ n.todo → Sent.opening sent = false

section

variable {f : Facts} {x : ParticipantID} {n n' : Node prim} {posts : List (Sent prim Body)}

theorem sealEnvelope_unopened {c : Client} {serviceID : String} {body : Body}
    {nonce : Option Nonce} {payload : Payload prim Body}
    (made : (c.sealEnvelope serviceID body nonce).2 = some payload) (toID : Option ParticipantID) :
    Sent.opening (match toID with
      | none => Sent.broadcast payload
      | some id => Sent.direct id payload) = false := by
  unfold Client.sealEnvelope at made
  split at made
  · cases made
  · obtain ⟨drawn, _, rfl⟩ := Option.map_eq_some_iff.mp made
    cases toID <;> rfl

theorem write_notMem_sending (m : Mux) (result : Ctl × List Outgoing) (sent : Sent prim Body) :
    .write sent ∉ (m.sending prim result).2 := by
  intro member
  obtain ⟨out, _, same⟩ := List.mem_map.mp member
  cases same

theorem write_notMem_dispatch (m : Mux) (c : Client) (event : Event Body) (sent : Sent prim Body) :
    .write sent ∉ (m.dispatch prim c event).2 := by
  cases event with
  | frame fromID env =>
      simp only [Mux.dispatch, Mux.handleFrame]
      split
      · exact List.not_mem_nil
      · split
        · unfold Mux.handleCtl
          split
          · split <;> exact List.not_mem_nil
          · exact write_notMem_sending _ _ sent
          · exact write_notMem_sending _ _ sent
          · split <;> exact List.not_mem_nil
          · exact List.not_mem_nil
        · exact List.not_mem_nil
  | memberKeyed id role =>
      exact write_notMem_sending m (m.ctl.memberKeyed ctlServices id role) sent
  | memberLeft id =>
      simp only [Mux.dispatch, List.mem_append, not_or]
      refine ⟨write_notMem_sending _ _ sent, ?_⟩
      unfold Mux.maybeMigrate
      split
      · exact List.not_mem_nil
      · simp only
        split
        · exact List.not_mem_nil
        · split <;> simp
  | closed reason => exact List.not_mem_nil
  | memberJoined id => exact List.not_mem_nil

/-- A task leaves the read goroutine and the roles of joiners alone; only
`BecomeHost` changes the role. -/
theorem Node.perform_keeps (n : Node prim) (task : Task prim) (rest : List (Task prim))
    (outcome : TaskOutcome) :
    (n.perform task rest outcome).1.endpoint.reader = n.endpoint.reader ∧
      (n.perform task rest outcome).1.endpoint.calls = n.endpoint.calls ∧
      (n.perform task rest outcome).1.endpoint.client.joiners = n.endpoint.client.joiners ∧
      (n.perform task rest outcome).1.endpoint.client.keyed = n.endpoint.client.keyed ∧
      (task ≠ .becomeHost →
        (n.perform task rest outcome).1.endpoint.client.role = n.endpoint.client.role) := by
  cases task with
  | sealing out pruned =>
      cases out with
      | broadcast msg | sendTo id msg =>
          obtain ⟨seqs, same⟩ := @Client.sealEnvelope_fields prim Body n.endpoint.client ctlID
            (.ctl msg pruned) outcome.nonce
          simp only [Node.perform, Node.withClient, same, and_self, implies_true]
  | rotateForMigration =>
      obtain ⟨key, prevKeys, pairwise, same⟩ :=
        rotateForMigration_fields n.endpoint.client outcome.key
      simp only [Node.perform, Node.withClient, same, and_self, implies_true]
  | rekeyWithNewHost =>
      simp only [Node.perform]
      split
      · exact ⟨rfl, rfl, rfl, rfl, fun _ => rfl⟩
      · rename_i c sent greets
        unfold Client.rekeyWithNewHost at greets
        split at greets
        · cases greets
        · cases greets
          exact ⟨rfl, rfl, rfl, rfl, fun _ => rfl⟩
  | becomeHost => exact ⟨rfl, rfl, rfl, rfl, fun other => absurd rfl other⟩
  | write sent | promote left | promoted | setHostID id | reattach =>
      exact ⟨rfl, rfl, rfl, rfl, fun _ => rfl⟩

theorem Node.perform_unopened {task : Task prim} {rest : List (Task prim)}
    (unopened : ∀ sent, .write sent ∈ task :: rest → Sent.opening sent = false)
    (outcome : TaskOutcome) :
    (∀ sent, .write sent ∈ (n.perform task rest outcome).1.todo → Sent.opening sent = false) ∧
      ∀ sent ∈ (n.perform task rest outcome).2, Sent.opening sent = false := by
  have later : ∀ sent, .write sent ∈ rest → Sent.opening sent = false :=
    fun sent member => unopened sent (List.mem_cons_of_mem task member)
  have nothing : ∀ sent ∈ ([] : List (Sent prim Body)), Sent.opening sent = false :=
    List.forall_mem_nil _
  cases task with
  | sealing out pruned =>
      refine ⟨fun sent member => ?_, nothing⟩
      simp only [Node.perform, Node.withClient, List.mem_append, List.mem_map, Option.mem_toList,
        Option.map_eq_some_iff] at member
      rcases member with ⟨frame, ⟨payload, made, isFrame⟩, same⟩ | old
      · cases same
        rw [← isFrame]
        exact sealEnvelope_unopened made _
      · exact later sent old
  | write sent =>
      refine ⟨later, fun other member => ?_⟩
      simp only [Node.perform] at member
      split at member
      · rw [List.mem_singleton.mp member]
        exact unopened sent List.mem_cons_self
      · cases member
  | becomeHost => exact ⟨later, nothing⟩
  | rotateForMigration => exact ⟨later, nothing⟩
  | promote left =>
      refine ⟨fun sent member => ?_, nothing⟩
      simp only [Node.perform, List.mem_append, List.mem_cons] at member
      rcases member with absent | same | same | old
      · exact absurd absent (write_notMem_sending _ _ sent)
      · cases same
        rfl
      · cases same
      · exact later sent old
  | promoted | setHostID id | reattach => exact ⟨later, nothing⟩
  | rekeyWithNewHost =>
      simp only [Node.perform]
      split
      · exact ⟨later, nothing⟩
      · rename_i c sent greets
        unfold Client.rekeyWithNewHost at greets
        split at greets
        · cases greets
        · cases greets
          refine ⟨fun other member => ?_, nothing⟩
          rcases List.mem_cons.mp member with same | old
          · cases same
            rfl
          · exact later other old

/-- What a step of the node stores in `joiners`. -/
def Node.stores (host : ParticipantID) (n n' : Node prim) : NodeAction → List Grant
  | .advance _ => Endpoint.stores host n.endpoint n'.endpoint
  | _ => []

/-- The roles of the `MemberKeyed` events of a step. -/
def Node.reports (host : ParticipantID) (n : Node prim) : NodeAction → List Grant
  | .advance outcome =>
      ((n.endpoint.advance outcome).map (fun result => reportsIn host result.2)).getD []
  | _ => []

variable {action : NodeAction}

theorem Node.step_grants (ok : NodeOk f x n) (unopened : n.Unopened)
    (stepped : n.step action = some (n', posts)) :
    n'.Unopened ∧
      GrantStep x n.endpoint n'.endpoint posts (n.stores x n' action) (n.reports x action) := by
  have nothing : ∀ sent ∈ ([] : List (Sent prim Body)), Sent.opening sent = false :=
    List.forall_mem_nil _
  cases action with
  | advance outcome =>
      obtain ⟨⟨E, outputs⟩, advanced, same⟩ := Option.map_eq_some_iff.mp stepped
      have calls := (Endpoint.advance_fields advanced).2
      cases same
      refine ⟨⟨fun sent member => unopened.calls sent (calls ▸ member), unopened.tasks⟩, ?_⟩
      have step := @GrantStep.advances prim x n.endpoint E outputs outcome advanced
      simp only [Node.reports, advanced, Option.map_some, Option.getD_some]
      exact step
  | call toID serviceID body nonce =>
      obtain ⟨_, same⟩ := Node.call_cases stepped
      cases same
      obtain ⟨seqs, fields⟩ :=
        @Client.sealEnvelope_fields prim Body n.endpoint.client serviceID (.app body) nonce
      refine ⟨⟨fun sent member => ?_, unopened.tasks⟩, .of_same nothing rfl (fun _ => ?_) ?_ ?_⟩
      · rcases List.mem_append.mp member with old | new
        · exact unopened.calls sent old
        · obtain ⟨payload, made, isFrame⟩ := Option.map_eq_some_iff.mp (Option.mem_toList.mp new)
          rw [← isFrame]
          exact sealEnvelope_unopened made toID
      · simp only [Endpoint.call, fields]
      · simp only [Endpoint.call, fields]
      · simp only [Endpoint.call, fields]
  | write index written =>
      obtain ⟨⟨E, outputs⟩, wrote, same⟩ := Option.map_eq_some_iff.mp stepped
      obtain ⟨calls, rfl, kept, posted⟩ := Endpoint.write_eq wrote
      cases same
      refine ⟨⟨fun sent member => unopened.calls sent (kept sent member), unopened.tasks⟩,
        .of_same (fun sent member => ?_) rfl (fun _ => rfl) rfl rfl⟩
      rcases posted with none | ⟨other, present, isPost⟩
      · rw [none] at member
        cases member
      · rw [isPost] at member
        rw [List.mem_singleton.mp member]
        exact unopened.calls other present
  | start =>
      obtain ⟨_, _, same⟩ := Node.start_cases stepped
      cases same
      refine ⟨⟨unopened.calls, fun sent member => ?_⟩, .of_same nothing rfl (fun _ => rfl) rfl rfl⟩
      simp only [Node.start] at member
      split at member
      · cases member
      · cases List.mem_singleton.mp member
  | event =>
      obtain ⟨_, _, event, rest, _, same⟩ := Node.event_cases stepped
      cases same
      exact ⟨⟨unopened.calls, fun sent member => absurd member (write_notMem_dispatch _ _ _ sent)⟩,
        .of_same nothing rfl (fun _ => rfl) rfl rfl⟩
  | command cmd =>
      obtain ⟨_, _, same⟩ := Node.command_cases stepped
      cases same
      exact ⟨⟨unopened.calls, fun sent member => absurd member (write_notMem_sending n.mux _ sent)⟩,
        .of_same nothing rfl (fun _ => rfl) rfl rfl⟩
  | task outcome =>
      obtain ⟨task, rest, isTodo, same⟩ := Node.task_cases stepped
      obtain ⟨reader, calls, joiners, keyed, _⟩ := n.perform_keeps task rest outcome
      obtain ⟨tasks, posted⟩ :=
        @Node.perform_unopened prim n task rest (isTodo ▸ unopened.tasks) outcome
      have inLoop := ok.returned (ok.running isTodo)
      obtain rfl : n' = (n.perform task rest outcome).1 := congrArg Prod.fst same
      obtain rfl : posts = (n.perform task rest outcome).2 := congrArg Prod.snd same
      refine ⟨⟨fun sent member => unopened.calls sent (calls ▸ member), tasks⟩,
        .of_same posted reader (fun starts => ?_) joiners keyed⟩
      -- no task runs before the join is over
      cases there : n.endpoint.reader with
      | greeting j =>
          rw [there] at inLoop
          cases inLoop
      | _ =>
          rw [there] at starts
          cases starts

theorem Node.step_role (ok : NodeOk f x n) (stepped : n.step action = some (n', posts)) :
    n'.endpoint.client.role = n.endpoint.client.role ∨
      (∃ outcome rest, action = .task outcome ∧ n.todo = .becomeHost :: rest) ∧
        n'.endpoint.client.role = roleHost := by
  cases action with
  | advance outcome =>
      obtain ⟨⟨E, outputs⟩, advanced, same⟩ := Option.map_eq_some_iff.mp stepped
      cases same
      exact Or.inl (ok.endpoint.advance advanced).sameRole
  | call toID serviceID body nonce =>
      obtain ⟨_, same⟩ := Node.call_cases stepped
      cases same
      exact Or.inl (ok.endpoint.call toID serviceID body nonce).sameRole
  | write index written =>
      obtain ⟨⟨E, outputs⟩, wrote, same⟩ := Option.map_eq_some_iff.mp stepped
      cases same
      exact Or.inl (ok.endpoint.write wrote).sameRole
  | start =>
      obtain ⟨_, _, same⟩ := Node.start_cases stepped
      cases same
      exact Or.inl rfl
  | event =>
      obtain ⟨_, _, event, rest, _, same⟩ := Node.event_cases stepped
      cases same
      exact Or.inl rfl
  | command cmd =>
      obtain ⟨_, _, same⟩ := Node.command_cases stepped
      cases same
      exact Or.inl rfl
  | task outcome =>
      obtain ⟨task, rest, isTodo, same⟩ := Node.task_cases stepped
      obtain ⟨-, -, -, -, role⟩ := n.perform_keeps task rest outcome
      obtain rfl : n' = (n.perform task rest outcome).1 := congrArg Prod.fst same
      by_cases becomes : task = .becomeHost
      · subst becomes
        exact Or.inr ⟨⟨outcome, rest, rfl, isTodo⟩, rfl⟩
      · exact Or.inl (role becomes)

end

/-! ### The read goroutine taking a frame -/

/-- What taking a frame does to the handshakes of joiners.  A joiner's role is
what it unwraps. -/
structure GrantTakes (x sender : ParticipantID) (frame : Received prim Body)
    (E E' : Endpoint prim Body) : Prop where
  greets : Reader.greets E'.reader = false
  grants : Reader.grants x E'.reader = []
  admits : ∀ j, Reader.admits E'.reader j = true → j = sender ∧ Received.isPake1 frame = true
  joiners : ∀ j, frame ≠ .participantLeft j →
    E'.client.joiners.lookup j = E.client.joiners.lookup j
  calls : E'.calls = E.calls
  inLoop : Reader.inLoop E.reader = true → Reader.inLoop E'.reader = true
  role : E'.client.keyed = E.client.keyed ∧ E'.client.role = E.client.role ∨
    Reader.inLoop E.reader = false ∧ Reader.inLoop E'.reader = true ∧ E'.client.keyed = true ∧
      ∃ gk pairwise key, frame = .direct sender (.groupKey gk) ∧
        unwrapGroupKey prim pairwise gk E.client.sid E.client.self = some (key, E'.client.role)

section

variable {f : Facts} {x sender : ParticipantID} {frame : Received prim Body}
  {E E' : Endpoint prim Body} {outputs : List (Output prim Body)}

theorem handlePayload_grants (c : Client) (fromID : ParticipantID) (payload : Payload prim Body)
    (seed : Bytes) :
    Reader.greets (c.handlePayload fromID payload seed).1 = false ∧
      Reader.grants x (c.handlePayload fromID payload seed).1 = [] := by
  cases payload with
  | sealed sf | rekey gk =>
      simp only [Client.handlePayload]
      split <;> exact ⟨rfl, rfl⟩
  | rekeyPake1 p | rekeyPake2 p | pake1 p =>
      simp only [Client.handlePayload]
      split
      · split <;> exact ⟨rfl, rfl⟩
      · exact ⟨rfl, rfl⟩
  | pake2 p => exact ⟨rfl, rfl⟩
  | groupKey gk => exact ⟨rfl, rfl⟩
  | undecodable kind => exact ⟨rfl, rfl⟩

theorem dispatchFrame_grants (c : Client) (frame : Received prim Body) (seed : Bytes) :
    Reader.greets (c.dispatchFrame frame seed).2.1 = false ∧
      Reader.grants x (c.dispatchFrame frame seed).2.1 = [] ∧
      (c.dispatchFrame frame seed).1.keyed = c.keyed ∧
      (c.dispatchFrame frame seed).1.role = c.role ∧
      ∀ j, frame ≠ .participantLeft j →
        (c.dispatchFrame frame seed).1.joiners.lookup j = c.joiners.lookup j := by
  cases frame with
  | participantJoined id => exact ⟨rfl, rfl, rfl, rfl, fun _ _ => rfl⟩
  | participantLeft id =>
      refine ⟨rfl, rfl, rfl, rfl, fun j other => ?_⟩
      exact AList.lookup_erase_ne (fun same => other (same ▸ rfl))
  | sessionClosed reason => exact ⟨rfl, rfl, rfl, rfl, fun _ _ => rfl⟩
  | direct fromID payload | broadcast fromID payload =>
      obtain ⟨greets, grants⟩ := @handlePayload_grants prim x c fromID payload seed
      exact ⟨greets, grants, rfl, rfl, fun _ _ => rfl⟩
  | other => exact ⟨rfl, rfl, rfl, rfl, fun _ _ => rfl⟩

theorem joinDriveHandshake_grants (c : Client) (j : Joiner) (pairwise : Option Key)
    (frame : Received prim Body) :
    (c.joinDriveHandshake j pairwise frame).1 = c ∧
        ((c.joinDriveHandshake j pairwise frame).2 = .failed ∨
          ∃ pairwise', (c.joinDriveHandshake j pairwise frame).2 = .joining j pairwise') ∨
      ∃ gk pw key role, frame = .direct c.hostID (.groupKey gk) ∧
        unwrapGroupKey prim pw gk c.sid c.self = some (key, role) ∧
        c.joinDriveHandshake j pairwise frame = (c.keyedBy key role pw, .idle) := by
  unfold Client.joinDriveHandshake
  split
  · exact Or.inl ⟨rfl, Or.inl rfl⟩
  · rename_i fromID payload
    split
    · rename_i fromHost
      unfold Client.joinHandleDirect
      split
      · split
        · exact Or.inl ⟨rfl, Or.inr ⟨_, rfl⟩⟩
        · exact Or.inl ⟨rfl, Or.inl rfl⟩
      · split
        · exact Or.inl ⟨rfl, Or.inl rfl⟩
        · split
          · rename_i unwrapped
            exact Or.inr ⟨_, _, _, _, by rw [fromHost], unwrapped, rfl⟩
          · exact Or.inl ⟨rfl, Or.inl rfl⟩
      · exact Or.inl ⟨rfl, Or.inl rfl⟩
      · exact Or.inl ⟨rfl, Or.inl rfl⟩
      · exact Or.inl ⟨rfl, Or.inr ⟨_, rfl⟩⟩
    · exact Or.inl ⟨rfl, Or.inr ⟨_, rfl⟩⟩
  · exact Or.inl ⟨rfl, Or.inr ⟨_, rfl⟩⟩

theorem GrantTakes.receives (ideal : prim.Ideal) (ok : EndpointOk f x E) {seed : Bytes}
    (frameOk : ReceivedOk f sender x frame) (received : E.receive frame seed = some (E', outputs)) :
    GrantTakes x sender frame E E' := by
  have takes := ok.receive ideal frameOk received
  have admits : ∀ j, Reader.admits E'.reader j = true →
      j = sender ∧ Received.isPake1 frame = true := by
    intro j asked
    refine takes.handles j ?_
    unfold Reader.admits at asked
    split at asked
    · rename_i there
      rw [there]
      exact asked
    · cases asked
  cases there : E.reader with
  | joining j pairwise =>
      simp only [Endpoint.receive, there] at received
      cases received
      rcases joinDriveHandshake_grants E.client j pairwise frame with
        ⟨same, place⟩ | ⟨gk, pw, key, role, rfl, unwrapped, keyed⟩
      · refine
          { greets := ?_
            grants := ?_
            admits := admits
            joiners := fun _ _ => by rw [same]
            calls := rfl
            inLoop := fun inside => by rw [there] at inside; cases inside
            role := Or.inl (by rw [same]; exact ⟨rfl, rfl⟩) }
        · rcases place with isPlace | ⟨_, isPlace⟩ <;> rw [isPlace] <;> rfl
        · rcases place with isPlace | ⟨_, isPlace⟩ <;> rw [isPlace] <;> rfl
      · obtain ⟨isHost, _⟩ := frameOk
        simp only [keyed] at admits ⊢
        refine
          { greets := rfl
            grants := rfl
            admits := admits
            joiners := fun _ _ => rfl
            calls := rfl
            inLoop := fun _ => rfl
            role := Or.inr ⟨by rw [there]; rfl, rfl, rfl, gk, pw, key, by rw [isHost], unwrapped⟩ }
  | idle =>
      obtain ⟨isClient, isReader, isCalls, _⟩ := Endpoint.receive_idle there received
      obtain ⟨greets, grants, keyed, role, joiners⟩ :=
        @dispatchFrame_grants prim x E.client frame seed
      exact
        { greets := by rw [isReader]; exact greets
          grants := by rw [isReader]; exact grants
          admits := admits
          joiners := by rw [isClient]; exact joiners
          calls := isCalls
          inLoop := takes.inLoop
          role := Or.inl (by rw [isClient]; exact ⟨keyed, role⟩) }
  | _ => simp [Endpoint.receive, there] at received

end

end Parley.Service
