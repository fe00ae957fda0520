/-
The rotation protocol under a fixed host.

`World.Sane` is the invariant of every run without failing wraps and writes: what
the outboxes and inboxes may hold, where the host can be, and for each member
that it follows the host (`Follows`).  One lemma per kind of step shows that it
is kept.
-/

import Parley.Session.KeyStream
import Parley.Session.Rotation

namespace Parley.Session

open Crypto Library
open Wire (Bytes ParticipantID SessionID)

variable {prim : Primitives} {β : Type}

def SendsSealed (sf : SealedFrame prim (Envelope β)) (sent : Sent prim β) : Prop :=
  (∃ toID, sent = .direct toID (.sealed sf)) ∨ sent = .broadcast (.sealed sf)

/-- What the application goroutines of a participant have sealed and not written. -/
def CallsSealed (sid : SessionID) (id : ParticipantID) (calls : List (Sent prim β)) : Prop :=
  ∀ sent ∈ calls, ∃ sf key, SendsSealed sf sent ∧ SealedUnder prim sid id key sf

def Payload.fromHost : Payload prim β → Bool
  | .pake2 _ => true
  | .groupKey _ => true
  | .rekey _ => true
  | _ => false

inductive Posted (sid : SessionID) (host : ParticipantID) (used : List ParticipantID)
    (sender : ParticipantID) : Sent prim β → Prop where
  | sealed {sent : Sent prim β} (key : Key) (sf : SealedFrame prim (Envelope β))
      (sends : SendsSealed sf sent) (made : SealedUnder prim sid sender key sf) :
      Posted sid host used sender sent
  | flight (p : Pake) (fromMember : sender ≠ host) :
      Posted sid host used sender (.direct host (.pake1 p))
  | key (toID : ParticipantID) (payload : Payload prim β) (fromHost : sender = host)
      (kind : payload.fromHost = true) (known : toID ∈ used) (toMember : toID ≠ host) :
      Posted sid host used sender (.direct toID payload)

def HostPlace (sid : SessionID) (host : ParticipantID) (used : List ParticipantID)
    (H : Endpoint prim β) : Prop :=
  match H.reader with
  | .idle => True
  | .departed => True
  | .admitted _ _ => True
  | .distributing newKey outs =>
      (outs.map Prod.fst).Nodup ∧
        ∀ out ∈ outs, ∃ pairwise nonce, H.client.pairwise.lookup out.1 = some pairwise ∧
          out.2 = wrapGroupKey prim pairwise newKey roleNone sid out.1 nonce
  | .admitting id _ _ _ => id ∈ used ∧ id ≠ host
  | .admitReply id _ pairwise _ key =>
      H.client.pairwise.lookup id = some pairwise ∧ key = H.client.groupKey
  | .admitKey id _ pairwise key =>
      H.client.pairwise.lookup id = some pairwise ∧ key = H.client.groupKey
  | _ => False

structure HostOk (sid : SessionID) (host : ParticipantID) (used : List ParticipantID)
    (H : Endpoint prim β) (minted : List Key) : Prop where
  isHost : H.client.isHost = true
  self : H.client.self = host
  sameSid : H.client.sid = sid
  keyed : H.client.keyed = true
  noHostPairwise : H.client.haveHostPairwise = false
  noJoiner : H.client.rekeyJoiner = none
  current : minted.getLast? = some H.client.groupKey
  pairs : ∀ id ∈ H.client.pairwise, id ∈ used ∧ id ≠ host
  place : HostPlace sid host used H
  calls : ∀ sent ∈ H.calls, ∃ sf key, SendsSealed sf sent ∧ key ∈ minted ∧
    SealedUnder prim sid host key sf

/-- What outboxes and inboxes hold, and who has ever been given an id. -/
structure NetSane (sid : SessionID) (host : ParticipantID) (used : List ParticipantID)
    (net : Network ParticipantID (Sent prim β) (Received prim β)) : Prop where
  hostIn : host ∈ net.members
  known : ∀ id ∈ net.members, id ∈ used
  fresh : ∀ id ∉ used, net.outbox id = [] ∧ net.inbox id = []
  posts : ∀ sender, ∀ sent ∈ net.outbox sender, Posted sid host used sender sent
  senders : ∀ receiver, ∀ entry ∈ net.inbox receiver, entry.1 ∈ used
  entries : ∀ receiver, ∀ entry ∈ net.inbox receiver, entry.1 ≠ host →
    Ordinary sid host entry.1 receiver entry.2
  toSelf : ∀ entry ∈ net.inbox host, entry.1 = host →
    ∃ sf key, Carries host sf entry.2 ∧ SealedUnder prim sid host key sf
  departed : ∀ receiver, ∀ entry ∈ net.inbox receiver, entry.2 = .participantLeft entry.1 →
    entry.1 ∉ net.members

namespace World

abbrev hostEnd (w : World prim β) : Endpoint prim β := w.ends w.host

abbrev minted (w : World prim β) : List Key := w.installed w.host

structure MemberSane (w : World prim β) (id : ParticipantID) : Prop where
  ok : MemberOk w.sid w.host id (w.ends id)
  calls : CallsSealed w.sid id (w.ends id).calls
  follows : Follows w.sid w.host w.hostEnd w.minted id (w.ends id) (w.installed id)
    (w.stream w.host id) (w.stream id w.host)

structure Sane (w : World prim β) : Prop where
  net : NetSane w.sid w.host w.used w.net
  host : HostOk w.sid w.host w.used w.hostEnd w.minted
  fresh : ∀ id ∉ w.used, w.installed id = []
  members : ∀ id ∈ w.net.members, id ≠ w.host → w.MemberSane id

theorem start_sane (proto phraseC : Bytes) (sid : SessionID) (policy : RolePolicy)
    (observer : Bool) (host : ParticipantID) (key : Key) :
    (World.start proto phraseC sid policy observer host key : World prim β).Sane := by
  have only : ∀ id ∈ (World.start proto phraseC sid policy observer host key :
      World prim β).net.members, id = host := fun id member => List.mem_singleton.mp member
  refine
    { net :=
        { hostIn := List.mem_singleton_self host
          known := fun id member => member
          fresh := fun _ _ => ⟨rfl, rfl⟩
          posts := fun _ _ member => absurd member List.not_mem_nil
          senders := fun _ _ member => absurd member List.not_mem_nil
          entries := fun _ _ member => absurd member List.not_mem_nil
          toSelf := List.forall_mem_nil _
          departed := fun _ _ member => absurd member List.not_mem_nil }
      host := ?_
      fresh := fun id unused => if_neg (fun same => unused (List.mem_singleton.mpr same))
      members := fun id member notHost => absurd (only id member) notHost }
  refine
    { isHost := by simp [start, Endpoint.hosting, Client.isHost, Client.hostHello]
      self := rfl
      sameSid := rfl
      keyed := rfl
      noHostPairwise := rfl
      noJoiner := rfl
      current := ?_
      pairs := fun id member => absurd member (AList.notMem_empty id)
      place := trivial
      calls := List.forall_mem_nil _ }
  simp [minted, start, Endpoint.hosting, Client.hostHello]

end World

section

variable {sid : SessionID} {host sender receiver : ParticipantID} {used : List ParticipantID}
  {net next : Network ParticipantID (Sent prim β) (Received prim β)} {sent : Sent prim β}
  {frame : Received prim β}

theorem carry_sendsSealed {sf : SealedFrame prim (Envelope β)} (sends : SendsSealed sf sent)
    (carried : carry sender sent receiver = some frame) : Carries sender sf frame := by
  rcases sends with ⟨toID, rfl⟩ | rfl
  · simp only [carry] at carried
    split at carried
    · exact Or.inl (Option.some.inj carried).symm
    · cases carried
  · simp only [carry] at carried
    split at carried
    · cases carried
    · exact Or.inr (Option.some.inj carried).symm

theorem carry_direct {toID : ParticipantID} {payload : Payload prim β}
    (carried : carry sender (.direct toID payload) receiver = some frame) :
    toID = receiver ∧ frame = .direct sender payload := by
  simp only [carry] at carried
  split at carried
  · rename_i same
    exact ⟨same, (Option.some.inj carried).symm⟩
  · cases carried

theorem carry_ne_left (carried : carry sender sent receiver = some frame) (id : ParticipantID) :
    frame ≠ .participantLeft id := by
  intro same
  cases sent with
  | direct toID payload =>
      have made := (carry_direct carried).2
      rw [same] at made
      cases made
  | broadcast payload =>
      simp only [carry] at carried
      split at carried
      · cases carried
      · rw [same] at carried
        cases carried
  | claimHost => cases carried

theorem Posted.ordinary (posted : Posted sid host used sender sent) (notHost : sender ≠ host)
    (carried : carry sender sent receiver = some frame) :
    Ordinary sid host sender receiver frame := by
  cases posted with
  | sealed key sf sends made =>
      exact Ordinary.sealed key sf (carry_sendsSealed sends carried) made
  | flight p fromMember =>
      obtain ⟨toHost, rfl⟩ := carry_direct carried
      exact Ordinary.flight p toHost.symm
  | key toID payload fromHost kind known toMember => exact absurd fromHost notHost

theorem Posted.toSelf (posted : Posted sid host used host sent)
    (carried : carry host sent host = some frame) :
    ∃ sf key, Carries host sf frame ∧ SealedUnder prim sid host key sf := by
  cases posted with
  | sealed key sf sends made => exact ⟨sf, key, carry_sendsSealed sends carried, made⟩
  | flight p fromMember => exact absurd rfl fromMember
  | key toID payload fromHost kind known toMember =>
      exact absurd (carry_direct carried).1 toMember

theorem Posted.mono {used' : List ParticipantID} (more : ∀ id ∈ used, id ∈ used')
    (posted : Posted sid host used sender sent) : Posted sid host used' sender sent := by
  cases posted with
  | sealed key sf sends made => exact Posted.sealed key sf sends made
  | flight p fromMember => exact Posted.flight p fromMember
  | key toID payload fromHost kind known toMember =>
      exact Posted.key toID payload fromHost kind (more toID known) toMember

theorem NetSane.used_of_post (sane : NetSane sid host used net) (posted : sent ∈ net.outbox sender) :
    sender ∈ used := by
  by_contra unused
  rw [(sane.fresh sender unused).1] at posted
  cases posted

theorem NetSane.route (sane : NetSane sid host used net)
    (routed : net.route carry sender = some next) : NetSane sid host used next := by
  obtain ⟨first, present, aside, outbox, added⟩ := Network.route_contents routed
  have members := Network.members_route routed
  have posted := sane.posts sender first present
  refine
    { hostIn := members ▸ sane.hostIn
      known := fun id member => sane.known id (members ▸ member)
      fresh := fun id unused => ⟨?_, ?_⟩
      posts := fun other sent member => sane.posts other sent (outbox other sent member)
      senders := fun receiver entry member => ?_
      entries := fun receiver entry member notHost => ?_
      toSelf := fun entry member fromHost => ?_
      departed := fun receiver entry member left => ?_ }
  · refine List.eq_nil_iff_forall_not_mem.mpr (fun sent member => ?_)
    exact unused (sane.used_of_post (outbox id sent member))
  · rw [aside id (fun member => unused (sane.known id member))]
    exact (sane.fresh id unused).2
  · rcases added receiver entry member with old | ⟨same, _⟩
    · exact sane.senders receiver entry old
    · exact same ▸ sane.used_of_post present
  · rcases added receiver entry member with old | ⟨same, carried⟩
    · exact sane.entries receiver entry old notHost
    · rw [same] at notHost ⊢
      exact posted.ordinary notHost carried
  · rcases added host entry member with old | ⟨same, carried⟩
    · exact sane.toSelf entry old fromHost
    · have isHost : sender = host := same.symm.trans fromHost
      subst isHost
      exact posted.toSelf carried
  · rcases added receiver entry member with old | ⟨same, carried⟩
    · exact members ▸ sane.departed receiver entry old left
    · exact absurd left (carry_ne_left carried entry.1)

theorem NetSane.take (sane : NetSane sid host used net)
    (taken : net.take receiver sender = some (frame, next)) : NetSane sid host used next := by
  have sameMembers := Network.members_take taken
  have sameOutbox := Network.outbox_take taken
  refine
    { hostIn := sameMembers ▸ sane.hostIn
      known := fun id member => sane.known id (sameMembers ▸ member)
      fresh := fun id unused => ⟨sameOutbox ▸ (sane.fresh id unused).1, ?_⟩
      posts := fun other sent member => sane.posts other sent (sameOutbox ▸ member)
      senders := fun other entry member =>
        sane.senders other entry (Network.mem_inbox_of_take taken member)
      entries := fun other entry member =>
        sane.entries other entry (Network.mem_inbox_of_take taken member)
      toSelf := fun entry member => sane.toSelf entry (Network.mem_inbox_of_take taken member)
      departed := fun other entry member left => ?_ }
  · refine List.eq_nil_iff_forall_not_mem.mpr (fun entry member => ?_)
    have old := Network.mem_inbox_of_take taken member
    rw [(sane.fresh id unused).2] at old
    cases old
  · rw [sameMembers]
    exact sane.departed other entry (Network.mem_inbox_of_take taken member) left

theorem NetSane.post (sane : NetSane sid host used net) (member : sender ∈ net.members)
    {posts : List (Sent prim β)} (posted : ∀ sent ∈ posts, Posted sid host used sender sent) :
    NetSane sid host used (net.post sender posts) := by
  refine
    { sane with
      fresh := fun id unused => ⟨?_, (sane.fresh id unused).2⟩
      posts := fun other sent present => ?_ }
  · have notSender : id ≠ sender := by
      intro same
      exact unused (same ▸ sane.known sender member)
    simp only [Network.post, Function.update_of_ne notSender]
    exact (sane.fresh id unused).1
  · rcases Network.mem_outbox_post present with old | ⟨rfl, new⟩
    · exact sane.posts other sent old
    · exact posted sent new

variable {id : ParticipantID}

theorem NetSane.join (sane : NetSane sid host used net) (unused : id ∉ used) :
    NetSane sid host (used ++ [id]) (net.join id (.participantJoined id)) := by
  have more : ∀ other ∈ used, other ∈ used ++ [id] :=
    fun other known => List.mem_append_left [id] known
  have notMember : id ∉ net.members := fun member => unused (sane.known id member)
  refine
    { hostIn := List.mem_append_left [id] sane.hostIn
      known := fun other member => ?_
      fresh := fun other unknown => ?_
      posts := fun other sent member => (sane.posts other sent member).mono more
      senders := fun other entry member => ?_
      entries := fun other entry member notHost => ?_
      toSelf := fun entry member fromHost => ?_
      departed := fun other entry member left => ?_ }
  · exact (List.mem_append.mp member).elim
      (fun old => more other (sane.known other old)) (List.mem_append_right used)
  · have before : other ∉ used := fun known => unknown (more other known)
    have outside : other ∉ net.members := fun inside => before (sane.known other inside)
    simp only [Network.join, Network.announce, if_neg outside]
    exact sane.fresh other before
  · rcases Network.mem_inbox_announce member with old | ⟨_, rfl⟩
    · exact more _ (sane.senders other entry old)
    · exact List.mem_append_right used (List.mem_singleton_self id)
  · rcases Network.mem_inbox_announce member with old | ⟨_, rfl⟩
    · exact sane.entries other entry old notHost
    · exact Ordinary.joined
  · rcases Network.mem_inbox_announce member with old | ⟨_, rfl⟩
    · exact sane.toSelf entry old fromHost
    · have same : id = host := fromHost
      exact absurd (same ▸ sane.hostIn) notMember
  · rcases Network.mem_inbox_announce member with old | ⟨_, rfl⟩
    · intro present
      rcases List.mem_append.mp present with inside | new
      · exact sane.departed other entry old left inside
      · exact unused (List.mem_singleton.mp new ▸ sane.senders other entry old)
    · cases left

theorem NetSane.leave (sane : NetSane sid host used net) (idMember : id ∈ net.members)
    (notHost : id ≠ host) (left : net.leave id (.participantLeft id) = some next) :
    NetSane sid host used next := by
  unfold Network.leave at left
  split at left
  · cases left
    have staying : ∀ other, other ∈ net.members.filter (fun other => other ≠ id) →
        other ∈ net.members ∧ other ≠ id := by
      intro other member
      simpa using List.mem_filter.mp member
    refine
      { hostIn := List.mem_filter.mpr ⟨sane.hostIn, by simpa using Ne.symm notHost⟩
        known := fun other member => sane.known other (staying other member).1
        fresh := fun other unused => ?_
        posts := sane.posts
        senders := fun other entry member => ?_
        entries := fun other entry member notFromHost => ?_
        toSelf := fun entry member fromHost => ?_
        departed := fun other entry member isLeft present => ?_ }
    · have outside : other ∉ net.members.filter (fun other => other ≠ id) :=
        fun inside => unused (sane.known other (staying other inside).1)
      simp only [Network.announce, if_neg outside]
      exact sane.fresh other unused
    · rcases Network.mem_inbox_announce member with old | ⟨_, rfl⟩
      · exact sane.senders other entry old
      · exact sane.known id idMember
    · rcases Network.mem_inbox_announce member with old | ⟨_, rfl⟩
      · exact sane.entries other entry old notFromHost
      · exact Ordinary.left
    · rcases Network.mem_inbox_announce member with old | ⟨_, rfl⟩
      · exact sane.toSelf entry old fromHost
      · exact absurd fromHost notHost
    · rcases Network.mem_inbox_announce member with old | ⟨_, rfl⟩
      · exact sane.departed other entry old isLeft (staying _ present).1
      · exact (staying id present).2 rfl
  · cases left

theorem NetSane.stream_of_unused (sane : NetSane sid host used net) (unused : id ∉ used)
    (receiver : ParticipantID) :
    net.stream carry id receiver = [] := by
  unfold Network.stream Network.fromSender
  rw [(sane.fresh id unused).1, List.filterMap_nil, List.append_nil, List.filterMap_eq_nil_iff]
  intro entry member
  refine if_neg (fun same => unused ?_)
  rw [← same]
  exact sane.senders receiver entry member

theorem NetSane.stream_to_unused (sane : NetSane sid host used net) (unused : id ∉ used)
    (underWay : frame ∈ net.stream carry host id) :
    ∃ key sf, Carries host sf frame ∧ SealedUnder prim sid host key sf := by
  unfold Network.stream at underWay
  rw [(sane.fresh id unused).2] at underWay
  obtain ⟨sent, posted, carried⟩ := List.mem_filterMap.mp underWay
  cases sane.posts host sent posted with
  | sealed key sf sends made => exact ⟨key, sf, carry_sendsSealed sends carried, made⟩
  | flight p fromMember => exact absurd rfl fromMember
  | key toID payload fromHost kind known toMember =>
      exact absurd ((carry_direct carried).1 ▸ known) unused

theorem HostOk.grow {H : Endpoint prim β} {minted : List Key} (ok : HostOk sid host used H minted)
    (id : ParticipantID) : HostOk sid host (used ++ [id]) H minted := by
  refine
    { ok with
      pairs := fun other stored => ?_
      place := ?_ }
  · exact ⟨List.mem_append_left [id] (ok.pairs other stored).1, (ok.pairs other stored).2⟩
  · have place := ok.place
    unfold HostPlace at place ⊢
    split at place
    all_goals first | exact place | skip
    rename_i there
    exact ⟨List.mem_append_left [id] place.1, place.2⟩

end

end Parley.Session
