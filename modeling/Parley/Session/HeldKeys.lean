/-
The keys a member holds under a fixed host.

Every step of the session keeps `World.Sane`.  For a keyed member it follows that
its current key and the rekeys on their way to it are the last keys of the host's
sequence, and that a sealed frame of the host never overtakes its key.
-/

import Parley.Session.RotationSteps

namespace Parley.Session

open Crypto Library
open Wire (Bytes ParticipantID SessionID)

variable {prim : Primitives} {β : Type}

namespace World

variable {w next : World prim β}

theorem settle_ends_self (w : World prim β) (id : ParticipantID) (E : Endpoint prim β)
    (outputs : List (Output prim β)) (keys : List Key) :
    (w.settle id E outputs keys).ends id = E := Function.update_self ..

variable {id sender other : ParticipantID} {seed : Bytes}

theorem settle_ends_of_ne (w : World prim β) (differ : other ≠ id) (E : Endpoint prim β)
    (outputs : List (Output prim β)) (keys : List Key) :
    (w.settle id E outputs keys).ends other = w.ends other := Function.update_of_ne differ ..

theorem settle_installed_self (w : World prim β) (id : ParticipantID) (E : Endpoint prim β)
    (outputs : List (Output prim β)) (keys : List Key) :
    (w.settle id E outputs keys).installed id = w.installed id ++ keys := Function.update_self ..

theorem settle_installed_of_ne (w : World prim β) (differ : other ≠ id) (E : Endpoint prim β)
    (outputs : List (Output prim β)) (keys : List Key) :
    (w.settle id E outputs keys).installed other = w.installed other :=
  Function.update_of_ne differ ..

theorem settle_stream_self (w : World prim β) (id receiver : ParticipantID) (E : Endpoint prim β)
    (outputs : List (Output prim β)) (keys : List Key) :
    (w.settle id E outputs keys).stream id receiver = w.stream id receiver ++
      (outputs.filterMap Output.written).filterMap (fun sent => carry id sent receiver) :=
  Network.stream_post_self ..

theorem settle_stream_of_ne (w : World prim β) (differ : other ≠ id) (receiver : ParticipantID)
    (E : Endpoint prim β) (outputs : List (Output prim β)) (keys : List Key) :
    (w.settle id E outputs keys).stream other receiver = w.stream other receiver :=
  Network.stream_post_of_ne _ differ ..

theorem settle_fresh (netSane : NetSane w.sid w.host w.used w.net)
    (fresh : ∀ id ∉ w.used, w.installed id = []) (member : id ∈ w.net.members) (E : Endpoint prim β)
    (outputs : List (Output prim β)) (keys : List Key) :
    ∀ other ∉ w.used, (w.settle id E outputs keys).installed other = [] := by
  intro other unused
  have differ : other ≠ id := by
    rintro rfl
    exact unused (netSane.known other member)
  rw [settle_installed_of_ne w differ]
  exact fresh other unused

theorem Sane.settle_host (netSane : NetSane w.sid w.host w.used w.net)
    (fresh : ∀ id ∉ w.used, w.installed id = []) {H : Endpoint prim β}
    {outputs : List (Output prim β)} {keys : List Key}
    (ok : HostOk w.sid w.host w.used H (w.minted ++ keys))
    (posted : ∀ sent ∈ outputs.filterMap Output.written,
      Posted w.sid w.host w.used w.host sent)
    (members : ∀ id ∈ w.net.members, id ≠ w.host → MemberOk w.sid w.host id (w.ends id) ∧
      CallsSealed w.sid id (w.ends id).calls ∧
      Follows w.sid w.host H (w.minted ++ keys) id (w.ends id) (w.installed id)
        (w.stream w.host id ++ (outputs.filterMap Output.written).filterMap
          (fun sent => carry w.host sent id)) (w.stream id w.host)) :
    (w.settle w.host H outputs keys).Sane := by
  have sameEnd : (w.settle w.host H outputs keys).hostEnd = H := settle_ends_self ..
  have sameMinted : (w.settle w.host H outputs keys).minted = w.minted ++ keys :=
    settle_installed_self ..
  have sameHost : (w.settle w.host H outputs keys).host = w.host := rfl
  refine
    { net := netSane.post netSane.hostIn posted
      host := ?_
      fresh := settle_fresh netSane fresh netSane.hostIn H outputs keys
      members := fun id member notHost => ?_ }
  · rw [sameEnd, sameMinted]
    exact ok
  · have differ : id ≠ w.host := notHost
    obtain ⟨memberOk, calls, follows⟩ := members id member differ
    refine
      { ok := ?_
        calls := ?_
        follows := ?_ }
    · rw [settle_ends_of_ne w differ]
      exact memberOk
    · rw [settle_ends_of_ne w differ]
      exact calls
    · rw [sameEnd, sameMinted, settle_ends_of_ne w differ, settle_installed_of_ne w differ, sameHost,
        settle_stream_self, settle_stream_of_ne w differ]
      exact follows

theorem Sane.settle_member (netSane : NetSane w.sid w.host w.used w.net)
    (fresh : ∀ id ∉ w.used, w.installed id = [])
    (host : HostOk w.sid w.host w.used w.hostEnd w.minted) {id : ParticipantID}
    (member : id ∈ w.net.members) (notHost : id ≠ w.host)
    (others : ∀ other ∈ w.net.members, other ≠ w.host → other ≠ id → w.MemberSane other)
    {E : Endpoint prim β} {outputs : List (Output prim β)} {keys : List Key}
    (ok : MemberOk w.sid w.host id E) (calls : CallsSealed w.sid id E.calls)
    (posted : ∀ sent ∈ outputs.filterMap Output.written, Posted w.sid w.host w.used id sent)
    (follows : Follows w.sid w.host w.hostEnd w.minted id E (w.installed id ++ keys)
      (w.stream w.host id) (w.stream id w.host ++
        (outputs.filterMap Output.written).filterMap (fun sent => carry id sent w.host))) :
    (w.settle id E outputs keys).Sane := by
  have sameEnd : (w.settle id E outputs keys).hostEnd = w.hostEnd :=
    settle_ends_of_ne w notHost.symm E outputs keys
  have sameMinted : (w.settle id E outputs keys).minted = w.minted :=
    settle_installed_of_ne w notHost.symm E outputs keys
  have sameHost : (w.settle id E outputs keys).host = w.host := rfl
  refine
    { net := netSane.post member posted
      host := ?_
      fresh := settle_fresh netSane fresh member E outputs keys
      members := fun other present otherNotHost => ?_ }
  · rw [sameEnd, sameMinted]
    exact host
  · by_cases same : other = id
    · subst same
      refine
        { ok := ?_
          calls := ?_
          follows := ?_ }
      · rw [settle_ends_self]
        exact ok
      · rw [settle_ends_self]
        exact calls
      · rw [sameEnd, sameMinted, settle_ends_self, settle_installed_self, settle_stream_self,
          sameHost, settle_stream_of_ne w notHost.symm]
        exact follows
    · have sane := others other present otherNotHost same
      refine
        { ok := ?_
          calls := ?_
          follows := ?_ }
      · rw [settle_ends_of_ne w same]
        exact sane.ok
      · rw [settle_ends_of_ne w same]
        exact sane.calls
      · rw [sameEnd, sameMinted, settle_ends_of_ne w same, settle_installed_of_ne w same, sameHost,
          settle_stream_of_ne w same, settle_stream_of_ne w notHost.symm]
        exact sane.follows

variable {receiver : ParticipantID} {action : Action prim β}

theorem act_cases (stepped : w.step (.act id action) = some next) :
    id ∈ w.net.members ∧ ∃ E outputs, (w.ends id).step action = some (E, outputs) ∧
      next = w.settle id E outputs (keysOf (w.ends id) action) ∧
      ∀ frame seed, action ≠ .receive frame seed := by
  cases action with
  | receive frame seed => cases stepped
  | _ =>
      simp only [step] at stepped
      split at stepped
      · rename_i member
        obtain ⟨⟨E, outputs⟩, acted, same⟩ := Option.bind_eq_some_iff.mp stepped
        exact ⟨member, E, outputs, acted, (Option.some.inj same).symm, by simp⟩
      · cases stepped

theorem deliver_cases (stepped : w.step (.deliver receiver sender seed) = some next) :
    receiver ∈ w.net.members ∧ ∃ frame net E outputs,
      w.net.take receiver sender = some (frame, net) ∧
      (w.ends receiver).receive frame seed = some (E, outputs) ∧
      next = settle { w with net := net } receiver E outputs (firstKey (w.ends receiver) E) := by
  simp only [step] at stepped
  split at stepped
  · rename_i member
    obtain ⟨⟨frame, net⟩, taken, stepped⟩ := Option.bind_eq_some_iff.mp stepped
    obtain ⟨⟨E, outputs⟩, received, same⟩ := Option.bind_eq_some_iff.mp stepped
    exact ⟨member, frame, net, E, outputs, taken, received, (Option.some.inj same).symm⟩
  · cases stepped

theorem Sane.acts (sane : w.Sane) (dependable : w.Dependable (.act id action))
    (stepped : w.step (.act id action) = some next) :
    next.Sane := by
  obtain ⟨member, E, outputs, acted, rfl, notReceive⟩ := act_cases stepped
  by_cases isHost : id = w.host
  · subst isHost
    have hostStep : HostStep w.sid w.host w.used w.hostEnd w.minted E
        (w.minted ++ keysOf w.hostEnd action) (outputs.filterMap Output.written) := by
      cases action with
      | receive frame seed => exact absurd rfl (notReceive frame seed)
      | advance outcome => exact sane.host.advances dependable.1 dependable.2 acted
      | call toID serviceID body nonce =>
          cases acted
          simp only [keysOf, List.append_nil]
          exact sane.host.seals toID serviceID body nonce
      | write index written =>
          simp only [keysOf, List.append_nil]
          exact sane.host.writes acted
    refine Sane.settle_host sane.net sane.fresh hostStep.ok hostStep.posted
      (fun id present notHost => ?_)
    have before := sane.members id present notHost
    exact ⟨before.ok, before.calls, hostStep.follows id notHost _ _ _ _ before.follows⟩
  · have before := sane.members id member isHost
    have memberStep : MemberStep w.sid w.host w.used id (w.ends id) E
        (keysOf (w.ends id) action) (outputs.filterMap Output.written) := by
      cases action with
      | receive frame seed => exact absurd rfl (notReceive frame seed)
      | advance outcome => exact before.ok.advances before.calls isHost dependable.2 acted
      | call toID serviceID body nonce =>
          cases acted
          exact before.ok.seals before.calls toID serviceID body nonce
      | write index written => exact before.ok.writes before.calls acted
    exact Sane.settle_member sane.net sane.fresh sane.host member isHost
      (fun other present notHost _ => sane.members other present notHost) memberStep.ok
      memberStep.calls memberStep.posted (memberStep.follows _ _ _ _ _ before.follows)

theorem Sane.delivers (ideal : prim.Ideal) (sane : w.Sane)
    (stepped : w.step (.deliver receiver sender seed) = some next) :
    next.Sane := by
  obtain ⟨member, frame, net, E, outputs, taken, received, rfl⟩ := deliver_cases stepped
  have entry := Network.entry_of_take taken
  have known := sane.net.senders receiver _ entry
  have netSane := sane.net.take taken
  have sameMembers := Network.members_take taken
  by_cases isHost : receiver = w.host
  · subst isHost
    obtain ⟨takes, silent⟩ := sane.host.receives known
      (fun notHost => sane.net.entries _ _ entry notHost)
      (fun fromHost => sane.net.toSelf _ entry fromHost) received
    rw [firstKey_of_keyed sane.host.keyed]
    refine @Sane.settle_host prim β { w with net := net } netSane sane.fresh E outputs [] ?_ ?_
      (fun id present notHost => ?_)
    · rw [List.append_nil]
      exact takes.ok
    · rw [silent]
      exact List.forall_mem_nil _
    · have present' : id ∈ w.net.members := sameMembers ▸ present
      have before := sane.members id present' notHost
      refine ⟨before.ok, before.calls, ?_⟩
      rw [silent, List.filterMap_nil, List.append_nil, List.append_nil]
      have sameDown : net.stream carry w.host id = w.stream w.host id :=
        Network.stream_take_of_ne taken (Or.inl notHost)
      simp only [stream, sameDown]
      by_cases isSender : id = sender
      · subst isSender
        have notLeft : frame ≠ .participantLeft id := by
          intro left
          exact sane.net.departed _ _ entry left present'
        refine takes.sender notLeft _ _ _ _ ?_
        rw [← Network.stream_take taken]
        exact before.follows
      · rw [Network.stream_take_of_ne taken (Or.inr isSender)]
        exact takes.others id isSender _ _ _ _ before.follows
  · have before := sane.members receiver member isHost
    have others : ∀ other ∈ net.members, other ≠ w.host → other ≠ receiver →
        MemberSane { w with net := net } other := by
      intro other present notHost notReceiver
      have still := sane.members other (sameMembers ▸ present) notHost
      refine
        { still with follows := ?_ }
      simp only [stream, Network.stream_take_of_ne taken (Or.inl notReceiver),
        Network.stream_take_of_ne taken (Or.inl (Ne.symm isHost))]
      exact still.follows
    have follows : Follows w.sid w.host w.hostEnd w.minted receiver E
        (w.installed receiver ++ firstKey (w.ends receiver) E) (net.stream carry w.host receiver)
        (net.stream carry receiver w.host) ∧ MemberOk w.sid w.host receiver E ∧
        outputs.filterMap Output.written = [] ∧ E.calls = (w.ends receiver).calls := by
      have sameUp : net.stream carry receiver w.host = w.stream receiver w.host :=
        Network.stream_take_of_ne taken (Or.inl (Ne.symm isHost))
      rw [sameUp]
      by_cases fromHost : sender = w.host
      · subst fromHost
        have earlier := before.follows
        rw [stream, Network.stream_take taken] at earlier
        exact earlier.member_receives ideal before.ok received
      · have sameDown : net.stream carry w.host receiver = w.stream w.host receiver :=
          Network.stream_take_of_ne taken (Or.inr (Ne.symm fromHost))
        rw [sameDown]
        exact before.follows.member_receives_peer fromHost isHost
          (sane.net.entries _ _ entry fromHost) before.ok received
    obtain ⟨follows, ok, silent, sameCalls⟩ := follows
    refine @Sane.settle_member prim β { w with net := net } netSane sane.fresh sane.host receiver
      (sameMembers ▸ member) isHost others E outputs _ ok ?_ ?_ ?_
    · rw [sameCalls]
      exact before.calls
    · rw [silent]
      exact List.forall_mem_nil _
    · rw [silent, List.filterMap_nil, List.append_nil]
      exact follows

theorem Sane.routes (sane : w.Sane) (stepped : w.step (.route sender) = some next) : next.Sane := by
  obtain ⟨net, routed, rfl⟩ := Option.map_eq_some_iff.mp stepped
  have sameMembers := Network.members_route routed
  refine
    { sane with
      net := sane.net.route routed
      members := fun id present notHost => ?_ }
  have present' : id ∈ w.net.members := sameMembers ▸ present
  have before := sane.members id present' notHost
  refine
    { before with follows := ?_ }
  simp only [stream, Network.stream_route routed _ present',
    Network.stream_route routed _ sane.net.hostIn]
  exact before.follows

theorem follows_of_joining (sane : w.Sane) (unused : id ∉ w.used) (proto phraseC : Bytes)
    (policy : RolePolicy) (observer : Bool) (seed : Bytes) :
    Follows w.sid w.host w.hostEnd w.minted id
      (Endpoint.joiningAs prim (dial proto w.sid phraseC policy observer) id w.host seed)
      (w.installed id) (w.stream w.host id) [.participantJoined id] := by
  have notStored : id ∉ w.hostEnd.client.pairwise :=
    fun stored => unused (sane.host.pairs id stored).1
  have notAdmitting : w.hostEnd.reader.isAdmitting id = false := by
    have place := sane.host.place
    unfold HostPlace at place
    unfold Reader.isAdmitting
    split
    · rename_i there
      rw [there] at place
      refine decide_eq_false (fun same => unused ?_)
      rw [← same]
      exact place.1
    · rfl
  refine
    { token := ?_
      unkeyed := fun _ => sane.fresh id unused
      failed := fun impossible => by cases impossible
      current := fun impossible => by cases impossible
      pair := fun impossible => by cases impossible
      link := Or.inr ⟨[], ?_⟩ }
  · unfold tokens
    rw [notAdmitting, decide_eq_false notStored]
    exact le_refl 1
  · have nothing : hostState w.hostEnd w.minted id = none :=
      if_neg (fun both => notStored both.1)
    rw [nothing]
    refine Path.of_stays (fun frame underWay => ?_)
    obtain ⟨key, sf, carries, made⟩ := sane.net.stream_to_unused unused underWay
    exact Reads.early key sf carries made

theorem Sane.joins (sane : w.Sane) {proto phraseC : Bytes} {policy : RolePolicy} {observer : Bool}
    (stepped : w.step (.join id proto phraseC policy observer seed) = some next) :
    next.Sane := by
  simp only [step] at stepped
  split at stepped
  · cases stepped
  rename_i unused
  cases stepped
  have hostKnown : w.host ∈ w.used := sane.net.known w.host sane.net.hostIn
  have notHost : w.host ≠ id := by
    intro same
    exact unused (same ▸ hostKnown)
  have sameDown : ∀ receiver, (w.net.join id (.participantJoined id)).stream carry w.host receiver =
      w.stream w.host receiver :=
    fun receiver => Network.stream_announce_of_ne w.net notHost _ receiver
  refine
    { net := sane.net.join unused
      host := ?_
      fresh := fun other unknown => ?_
      members := fun other present differ => ?_ }
  · simp only [hostEnd, Function.update_of_ne notHost]
    exact sane.host.grow id
  · exact sane.fresh other (fun known => unknown (List.mem_append_left [id] known))
  · by_cases same : other = id
    · subst same
      have up : (w.net.join other (.participantJoined other)).stream carry other w.host =
          [.participantJoined other] := by
        have announced : (w.net.announce other (.participantJoined other)).stream carry other
            w.host = w.stream other w.host ++ [.participantJoined other] :=
          Network.stream_announce_self (sane.net.fresh other unused).1 _ sane.net.hostIn
        rw [stream, sane.net.stream_of_unused unused] at announced
        exact announced
      refine
        { ok := ?_
          calls := ?_
          follows := ?_ }
      · simp only [Function.update_self]
        exact ⟨rfl, rfl, rfl, rfl⟩
      · simp only [Function.update_self]
        exact List.forall_mem_nil _
      · simp only [hostEnd, minted, stream, Function.update_self, Function.update_of_ne notHost,
          sameDown, up]
        exact follows_of_joining sane unused proto phraseC policy observer seed
    · have present' : other ∈ w.net.members :=
        (List.mem_append.mp present).resolve_right (fun new => same (List.mem_singleton.mp new))
      have before := sane.members other present' differ
      have sameUp : (w.net.join id (.participantJoined id)).stream carry other w.host =
          w.stream other w.host := Network.stream_announce_of_ne w.net same _ w.host
      refine
        { ok := ?_
          calls := ?_
          follows := ?_ }
      · simp only [Function.update_of_ne same]
        exact before.ok
      · simp only [Function.update_of_ne same]
        exact before.calls
      · simp only [hostEnd, minted, stream, Function.update_of_ne same,
          Function.update_of_ne notHost, sameDown, sameUp]
        exact before.follows

theorem Sane.leaves (sane : w.Sane) (stepped : w.step (.leave id) = some next) : next.Sane := by
  simp only [step] at stepped
  split at stepped
  case isFalse => cases stepped
  rename_i leaver
  obtain ⟨member, notHost⟩ := leaver
  obtain ⟨net, left, rfl⟩ := Option.map_eq_some_iff.mp stepped
  refine
    { sane with
      net := sane.net.leave member notHost left
      members := fun other present differ => ?_ }
  obtain ⟨present', stays⟩ := (Network.mem_leave left).mp present
  have before := sane.members other present' differ
  refine
    { before with follows := ?_ }
  simp only [stream, Network.stream_leave_of_ne left (Ne.symm notHost) other,
    Network.stream_leave_of_ne left stays w.host]
  exact before.follows

theorem Sane.steps (ideal : prim.Ideal) (sane : w.Sane) {action : WorldAction prim β}
    (dependable : w.Dependable action) (stepped : w.step action = some next) : next.Sane := by
  cases action with
  | join id proto phraseC policy observer seed => exact sane.joins stepped
  | leave id => exact sane.leaves stepped
  | route sender => exact sane.routes stepped
  | deliver receiver sender seed => exact sane.delivers ideal stepped
  | act id action => exact sane.acts dependable stepped

def rekeysIn (w : World prim β) (id : ParticipantID) (frames : List (Received prim β)) :
    List Key :=
  frames.filterMap (Received.rekeyedTo w.sid id (w.ends id).client.hostPairwise)

/-- The member's current key, the one it is installing, and those of the rekeys
under way to it. -/
def heldBy (w : World prim β) (id : ParticipantID) : List Key :=
  (w.ends id).client.groupKey ::
    ((w.ends id).reader.installs ++ w.rekeysIn id (w.stream w.host id))

def Current (w : World prim β) (key : Key) : Prop :=
  key = w.hostEnd.client.groupKey ∨ ∃ outs, w.hostEnd.reader = .distributing key outs

/-- How a member's keys stand to the host's sequence; `older` are the keys from
before the member's first one. -/
structure InOrder (w : World prim β) (id : ParticipantID) (older : List Key) : Prop where
  history : older ++ w.installed id <+: w.keys
  segment : w.heldBy id <:+: w.keys
  last : ∃ key, (w.heldBy id).getLast? = some key ∧ w.Current key
  settled : w.stream w.host id = [] → (w.ends id).reader.installs = [] →
    (∀ newKey outs, w.hostEnd.reader ≠ .distributing newKey outs) →
    (w.ends id).client.groupKey = w.hostEnd.client.groupKey
  arrives : ∀ before frame after sf, w.stream w.host id = before ++ frame :: after →
    Carries w.host sf frame → ∃ key, SealedUnder prim w.sid w.host key sf ∧
      (key ∈ older ∨
        key ∈ w.installed id ++ (w.ends id).reader.installs ++ w.rekeysIn id before)

theorem sequenceFor_prefix (w : World prim β) (id : ParticipantID) :
    sequenceFor w.hostEnd.reader w.minted id <+: w.keys := by
  unfold sequenceFor keys minted hostEnd
  cases (w.ends w.host).reader with
  | distributing newKey outs =>
      dsimp only
      split
      · exact List.prefix_append _ _
      · exact List.prefix_refl _
  | _ => exact List.prefix_refl _

theorem sequenceFor_current (sane : w.Sane) (id : ParticipantID) :
    ∃ key, (sequenceFor w.hostEnd.reader w.minted id).getLast? = some key ∧ w.Current key := by
  have current := sane.host.current
  unfold sequenceFor
  split
  · rename_i newKey outs there
    split
    · exact ⟨_, current, Or.inl rfl⟩
    · exact ⟨newKey, List.getLast?_concat, Or.inr ⟨outs, there⟩⟩
  · exact ⟨_, current, Or.inl rfl⟩

theorem Sane.inOrder (ideal : prim.Ideal) (sane : w.Sane) (member : id ∈ w.net.members)
    (notHost : id ≠ w.host) (keyed : (w.ends id).client.keyed = true) :
    ∃ older, w.InOrder id older := by
  have follows := (sane.members id member notHost).follows
  obtain ⟨_, samePairwise⟩ := follows.pair keyed
  have alive : (w.ends id).reader.isFailed ≠ true := by
    intro failed
    rw [follows.failed failed] at keyed
    cases keyed
  obtain ⟨older, path⟩ := follows.link.resolve_left alive
  unfold memberState at path
  rw [keyed, if_pos rfl, ← samePairwise] at path
  -- the end of the path is what the host has written to the member
  have state : hostState w.hostEnd w.minted id =
      some (sequenceFor w.hostEnd.reader w.minted id) := by
    have has := path_isSome path rfl
    unfold hostState at has ⊢
    split at has
    · rename_i both
      exact if_pos both
    · cases has
  rw [state] at path
  have sequence := path_final_eq ideal path
  obtain ⟨front, current⟩ := List.getLast?_eq_some_iff.mp (follows.current keyed)
  have held : sequenceFor w.hostEnd.reader w.minted id = older ++ front ++ w.heldBy id := by
    rw [sequence, current]
    simp [heldBy, rekeysIn]
  have sameLast : (w.heldBy id).getLast? =
      (sequenceFor w.hostEnd.reader w.minted id).getLast? := by
    rw [held]
    exact (List.getLast?_append_of_ne_nil _ (List.cons_ne_nil _ _)).symm
  refine ⟨older, ?_, ?_, ?_, ?_, ?_⟩
  · refine List.IsPrefix.trans ?_ (w.sequenceFor_prefix id)
    rw [sequence, List.append_assoc (older ++ w.installed id)]
    exact List.prefix_append _ _
  · refine List.IsInfix.trans ?_ (w.sequenceFor_prefix id).isInfix
    rw [held]
    exact (List.suffix_append _ _).isInfix
  · rw [sameLast]
    exact sequenceFor_current sane id
  · intro nothing notInstalling notDistributing
    obtain ⟨key, isLast, isCurrent⟩ := sequenceFor_current sane id
    rw [← sameLast, heldBy, nothing, notInstalling] at isLast
    have same : (w.ends id).client.groupKey = key := by simpa [rekeysIn] using isLast
    rw [same]
    rcases isCurrent with isKey | ⟨outs, there⟩
    · exact isKey
    · exact absurd there (notDistributing key outs)
  · intro before frame after sf split carries
    rw [split] at path
    obtain ⟨key, made, known⟩ := path_sealed_known ideal carries path
    refine ⟨key, made, ?_⟩
    simpa [rekeysIn, or_assoc] using known

end World

/-- In every run without failing wraps and writes, the keys of every keyed member
stand in order with the host's sequence. -/
theorem rotation_in_order (ideal : prim.Ideal) (proto phraseC : Bytes) (sid : SessionID)
    (policy : RolePolicy) (observer : Bool) (host : ParticipantID) (key : Key)
    (actions : List (WorldAction prim β)) (w : World prim β)
    (dependable : Along World.step World.Dependable
      (World.start proto phraseC sid policy observer host key) actions)
    (reached : run World.step (World.start proto phraseC sid policy observer host key) actions =
      some w)
    (id : ParticipantID) (member : id ∈ w.net.members) (notHost : id ≠ w.host)
    (keyed : (w.ends id).client.keyed = true) : ∃ older, w.InOrder id older := by
  have sane : w.Sane := by
    refine run_invariant ?_ (World.start_sane proto phraseC sid policy observer host key)
      dependable reached
    exact fun _ _ _ before permitted stepped => before.steps ideal permitted stepped
  exact sane.inOrder ideal member notHost keyed

/-! ### A rotation under way -/

def sampleWorld : World symbolic Unit :=
  World.start [] [] (Vector.replicate 16 0) defaultRolePolicy false 1 (sampleKey 0)

def joinOf (id : ParticipantID) : List (WorldAction symbolic Unit) :=
  [.join id [] [] defaultRolePolicy false [], .act id (.advance (success 0)), .route id,
    .deliver 1 id [], .deliver 1 id [], .act 1 (.advance (success 0)),
    .act 1 (.advance (success 0)), .act 1 (.advance (success 0)), .act 1 (.advance (success 0)),
    .route 1, .route 1, .deliver id 1 [], .deliver id 1 []]

/-- Participants 2 and 3 join and 3 leaves.  The host seals a message, writes the
rekey for 2, and only then writes the message. -/
def rotationUnderWay : List (WorldAction symbolic Unit) :=
  joinOf 2 ++ joinOf 3 ++
    [.leave 3, .act 1 (.call none "chat" () (some (Vector.replicate 24 0))), .deliver 1 3 [],
      .act 1 (.advance (success 1)), .act 1 (.advance (success 1)), .act 1 (.write 0 true)]

theorem rotationUnderWay_in_order :
    ∃ w, run World.step sampleWorld rotationUnderWay = some w ∧
      w.heldBy 2 = [sampleKey 0, sampleKey 1] ∧ w.keys = [sampleKey 0, sampleKey 1] ∧
      ∃ older, w.InOrder 2 older := by
  have finished : (run World.step sampleWorld rotationUnderWay).any
      (fun w => decide ((2 ∈ w.net.members ∧ 2 ≠ w.host ∧ (w.ends 2).client.keyed = true) ∧
        w.heldBy 2 = [sampleKey 0, sampleKey 1] ∧ w.keys = [sampleKey 0, sampleKey 1])) = true := by
    decide +kernel
  have dependable : Along World.step World.Dependable sampleWorld rotationUnderWay := by
    decide +kernel
  obtain ⟨w, reached, facts⟩ := (Option.any_eq_true _ _).mp finished
  obtain ⟨⟨member, notHost, keyed⟩, held, keys⟩ := of_decide_eq_true facts
  exact ⟨w, reached, held, keys, rotation_in_order symbolic_ideal [] [] (Vector.replicate 16 0)
    defaultRolePolicy false 1 (sampleKey 0) rotationUnderWay w dependable reached 2 member notHost
    keyed⟩

end Parley.Session
