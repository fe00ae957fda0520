/-
Which roles joiners end up with.

A joiner's one flight goes to the host the relay pointed it at, which grants one
role for it.  Rekeys carry no role.  The history variables say what hosts stored
and reported and what joiners unwrapped; the invariant follows the flight of every
joiner and bounds by it how often a role is granted.
-/

import Parley.Service.Departed
import Parley.Service.Grants

namespace Parley.Service

open Crypto Library Session
open Wire (Bytes ParticipantID SessionID)

variable {prim : Primitives}

variable (prim) in
/-- A session with the roles that hosts stored in `joiners`, the roles of the
`MemberKeyed` events, and the roles that joiners unwrapped from a `KindGroupKey`. -/
structure RoleWatch where
  world : World prim
  stored : List Grant
  reported : List Grant
  unwrapped : List Grant

namespace World

def stores (w next : World prim) : WorldAction → List Grant
  | .act x action => (w.nodes x).stores x (next.nodes x) action
  | _ => []

def reports (w : World prim) : WorldAction → List Grant
  | .act x action => (w.nodes x).reports x action
  | _ => []

/-- The joiner that is keyed in this step, with the sender of the key. -/
def unwraps (w next : World prim) : WorldAction → List Grant
  | .deliver receiver sender _ =>
      if (w.nodes receiver).endpoint.client.keyed = false ∧
          (next.nodes receiver).endpoint.client.keyed = true then
        [{ host := sender
           joiner := receiver
           role := (next.nodes receiver).endpoint.client.role }]
      else []
  | _ => []

/-- The first flights of a joiner to one host that are not granted yet: to be
written, under way, or taken. -/
def flights (w : World prim) (joiner host : ParticipantID) : Nat :=
  (Reader.greets (w.nodes joiner).endpoint.reader).toNat +
    (w.stream joiner host).countP Received.isPake1 +
    (Reader.admits (w.nodes host).endpoint.reader joiner).toNat

end World

namespace RoleWatch

def start (proto phraseC : Bytes) (sid : SessionID) (policy : RolePolicy) (observer : Bool)
    (successor : SuccessorPolicy) (host : ParticipantID) (key : Key) : RoleWatch prim :=
  { world := World.start proto phraseC sid policy observer successor host key
    stored := []
    reported := []
    unwrapped := [] }

/-- The session has moved to `next`. -/
def after (s : RoleWatch prim) (next : World prim) (action : WorldAction) : RoleWatch prim :=
  { world := next
    stored := s.stored ++ s.world.stores next action
    reported := s.reported ++ s.world.reports action
    unwrapped := s.unwrapped ++ s.world.unwraps next action }

def step (s : RoleWatch prim) (action : WorldAction) : Option (RoleWatch prim) :=
  (s.world.step action).map (fun next => s.after next action)

def granted (s : RoleWatch prim) (joiner : ParticipantID) : Nat :=
  s.stored.countP (fun g => g.joiner = joiner)

/-- The joiner is the concern of one host, and has at most one flight, granted or
not. -/
structure Single (s : RoleWatch prim) (joiner host : ParticipantID) : Prop where
  pointed : Reader.greets (s.world.nodes joiner).endpoint.reader = true →
    (s.world.nodes joiner).endpoint.client.hostID = host
  streams : ∀ x, x ≠ host → (s.world.stream joiner x).countP Received.isPake1 = 0
  admits : ∀ x, x ≠ host → Reader.admits (s.world.nodes x).endpoint.reader joiner = false
  stored : ∀ g ∈ s.stored, g.joiner = joiner → g.host = host
  once : s.world.flights joiner host + s.granted joiner ≤ if joiner ∈ s.world.used then 1 else 0

end RoleWatch

def SentGranted (stored : List Grant) (sender : ParticipantID) : Sent prim Body → Prop
  | .direct toID (.groupKey gk) => WrapsAs (fun role => ⟨sender, toID, role⟩ ∈ stored) gk
  | _ => True

def ReceivedGranted (stored : List Grant) (sender receiver : ParticipantID) :
    Received prim Body → Prop
  | .direct _ (.groupKey gk) => WrapsAs (fun role => ⟨sender, receiver, role⟩ ∈ stored) gk
  | _ => True

structure RoleWatch.Sound (s : RoleWatch prim) : Prop where
  orderly : s.world.Orderly
  unopened : ∀ x ∈ s.world.net.members, (s.world.nodes x).Unopened
  unkeyed : ∀ x ∈ s.world.net.members,
    Reader.inLoop (s.world.nodes x).endpoint.reader = false →
      (s.world.nodes x).endpoint.client.keyed = false
  net : s.world.net.Filed s.world.used (SentGranted s.stored) (ReceivedGranted s.stored)
  readers : ∀ x ∈ s.world.net.members,
    ∀ g ∈ Reader.grants x (s.world.nodes x).endpoint.reader, g ∈ s.stored
  hosts : ∀ g ∈ s.stored, g.host ∈ s.world.used
  reserved : ∀ g ∈ s.stored, g.role ≠ roleNone ∧ g.role ≠ roleHost
  kept : ∀ g ∈ s.stored, g.joiner ∈ s.world.net.members →
    (s.world.nodes g.host).endpoint.client.joiners.lookup g.joiner = some g.role
  reported : ∀ g ∈ s.reported, g ∈ s.stored
  unwrapped : ∀ g ∈ s.unwrapped, g ∈ s.stored
  single : ∀ joiner, ∃ host, s.Single joiner host

section

variable {s s' : RoleWatch prim} {w next : World prim} {joiner host : ParticipantID}

theorem WrapsAs.mono {holds holds' : Role → Prop} {gk : GroupKey prim} (made : WrapsAs holds gk)
    (weaker : ∀ role, holds role → holds' role) : WrapsAs holds' gk := by
  obtain ⟨pairwise, key, role, sid, id, nonce, same, ok⟩ := made
  exact ⟨pairwise, key, role, sid, id, nonce, same, weaker _ ok⟩

variable {sender receiver x : ParticipantID} {frame : Received prim Body} {seed : Bytes}
  {sent : Sent prim Body} {stored' stored : List Grant} {action : WorldAction}
  {id : ParticipantID}

theorem SentGranted.mono (more : ∀ g ∈ stored, g ∈ stored') (ok : SentGranted stored sender sent) :
    SentGranted stored' sender sent := by
  unfold SentGranted at ok ⊢
  split
  · exact WrapsAs.mono ok (fun role member => more _ member)
  · trivial

theorem ReceivedGranted.mono (more : ∀ g ∈ stored, g ∈ stored')
    (ok : ReceivedGranted stored sender receiver frame) :
    ReceivedGranted stored' sender receiver frame := by
  unfold ReceivedGranted at ok ⊢
  split
  · exact WrapsAs.mono ok (fun role member => more _ member)
  · trivial

theorem SentGranted.carried (stored : List Grant) (sender receiver : ParticipantID)
    (posted : Sent prim Body) (frame : Received prim Body) (ok : SentGranted stored sender posted)
    (carried : carry sender posted receiver = some frame) :
    ReceivedGranted stored sender receiver frame := by
  unfold ReceivedGranted
  split
  · cases posted with
    | direct toID payload =>
        obtain ⟨same, isFrame⟩ := Option.ite_none_right_eq_some.mp carried
        cases isFrame
        subst same
        exact ok
    | broadcast payload =>
        obtain ⟨_, isFrame⟩ := Option.ite_none_left_eq_some.mp carried
        cases isFrame
    | claimHost => cases carried
  · trivial

theorem isPake1_of_carried (carried : carry sender sent receiver = some frame) :
    Received.isPake1 frame = Sent.isPake1 sent := by
  cases sent with
  | direct toID payload =>
      obtain ⟨_, isFrame⟩ := Option.ite_none_right_eq_some.mp carried
      cases isFrame
      cases payload <;> rfl
  | broadcast payload =>
      obtain ⟨_, isFrame⟩ := Option.ite_none_left_eq_some.mp carried
      cases isFrame
      cases payload <;> rfl
  | claimHost => cases carried

theorem countP_carried_le (sender receiver : ParticipantID) (posts : List (Sent prim Body)) :
    (posts.filterMap (fun posted => carry sender posted receiver)).countP Received.isPake1 ≤
      posts.countP Sent.isPake1 := by
  induction posts with
  | nil => exact Nat.le_refl 0
  | cons sent rest ih =>
      rw [List.filterMap_cons]
      cases carried : carry sender sent receiver with
      | none => exact Nat.le_trans ih (List.Sublist.countP_le (List.sublist_cons_self sent rest))
      | some frame =>
          rw [List.countP_cons, List.countP_cons]
          rw [isPake1_of_carried carried]
          exact Nat.add_le_add_right ih _

theorem RoleWatch.Single.of_le (single : s.Single joiner host)
    (pointed : Reader.greets (s'.world.nodes joiner).endpoint.reader = true →
      Reader.greets (s.world.nodes joiner).endpoint.reader = true ∧
        (s'.world.nodes joiner).endpoint.client.hostID =
          (s.world.nodes joiner).endpoint.client.hostID)
    (streams : ∀ x, x ≠ host → (s'.world.stream joiner x).countP Received.isPake1 ≤
      (s.world.stream joiner x).countP Received.isPake1)
    (admits : ∀ x, x ≠ host → Reader.admits (s'.world.nodes x).endpoint.reader joiner = true →
      Reader.admits (s.world.nodes x).endpoint.reader joiner = true)
    (stored : ∀ g ∈ s'.stored, g.joiner = joiner → g ∈ s.stored ∨ g.host = host)
    (fewer : s'.world.flights joiner host + s'.granted joiner ≤
      s.world.flights joiner host + s.granted joiner)
    (used : joiner ∈ s.world.used → joiner ∈ s'.world.used) : s'.Single joiner host := by
  refine
    { pointed := fun starts => (pointed starts).2.trans (single.pointed (pointed starts).1)
      streams := fun x other => Nat.le_zero.mp (single.streams x other ▸ streams x other)
      admits := fun x other => ?_
      stored := fun g member isJoiner => ?_
      once := ?_ }
  · refine Bool.eq_false_iff.mpr (fun asked => ?_)
    have before := admits x other asked
    rw [single.admits x other] at before
    cases before
  · rcases stored g member isJoiner with old | here
    · exact single.stored g old isJoiner
    · exact here
  · refine Nat.le_trans (Nat.le_trans fewer single.once) ?_
    by_cases known : joiner ∈ s.world.used
    · rw [if_pos known, if_pos (used known)]
    · rw [if_neg known]
      exact Nat.zero_le _

theorem RoleWatch.Single.fresh (single : s.Single joiner host)
    (asked : Reader.admits (s.world.nodes x).endpoint.reader joiner = true) :
    x = host ∧ ∀ g ∈ s.stored, g.joiner ≠ joiner := by
  have here : x = host := by
    by_contra other
    rw [single.admits x other] at asked
    cases asked
  subst here
  refine ⟨rfl, fun g member isJoiner => ?_⟩
  have counted : 0 < s.granted joiner :=
    List.countP_pos_iff.mpr ⟨g, member, decide_eq_true isJoiner⟩
  have flying : 1 ≤ s.world.flights joiner x := by
    unfold World.flights
    rw [asked]
    exact Nat.le_add_left _ _
  have once := single.once
  split at once <;> omega

theorem RoleWatch.Single.acts (single : s.Single joiner host)
    {action : NodeAction} {node : Node prim} {posts : List (Sent prim Body)}
    (acted : s.world.Acted next x node posts)
    (grants : GrantStep x (s.world.nodes x).endpoint node.endpoint posts
      ((s.world.nodes x).stores x node action) ((s.world.nodes x).reports x action)) :
    (s.after next (.act x action)).Single joiner host := by
  have isStored : (s.after next (.act x action)).stored =
      s.stored ++ (s.world.nodes x).stores x node action := by
    rw [← acted.node]
    rfl
  have isGranted : (s.after next (.act x action)).granted joiner = s.granted joiner +
      ((s.world.nodes x).stores x node action).countP (fun g => g.joiner = joiner) := by
    unfold RoleWatch.granted
    rw [isStored, List.countP_append]
  -- what the end writes to a host that is not the joiner's is no flight
  have elsewhere : ∀ y, joiner = x → y ≠ host →
      (posts.filterMap (fun posted => carry x posted y)).countP Received.isPake1 = 0 := by
    intro y here other
    subst here
    refine List.countP_eq_zero.mpr (fun frame carried starts => ?_)
    obtain ⟨sent, isPost, isFrame⟩ := List.mem_filterMap.mp carried
    have isFlight : Sent.isPake1 sent = true := isPake1_of_carried isFrame ▸ starts
    obtain ⟨p, rfl⟩ := grants.toHost sent isPost isFlight
    have pointed := single.pointed (grants.greets_of_flight (Or.inr ⟨_, isPost, isFlight⟩))
    obtain ⟨isReceiver, _⟩ := Option.ite_none_right_eq_some.mp isFrame
    exact other (isReceiver.symm.trans pointed)
  refine single.of_le ?_ ?_ ?_ ?_ ?_ ?_
  · by_cases here : joiner = x
    · subst here
      intro starts
      simp only [RoleWatch.after, acted.node] at starts ⊢
      refine ⟨grants.greets_of_flight (Or.inl starts), grants.pointed starts⟩
    · simp only [RoleWatch.after, acted.others joiner here]
      exact fun starts => ⟨starts, trivial⟩
  · intro y other
    by_cases here : joiner = x
    · subst here
      simp only [RoleWatch.after, acted.streamSelf y, List.countP_append, elsewhere y rfl other]
      exact Nat.le_refl _
    · simp only [RoleWatch.after, acted.streamOther joiner here y]
      exact Nat.le_refl _
  · intro y _
    by_cases here : y = x
    · subst here
      simp only [RoleWatch.after, acted.node]
      exact grants.admits_of_admits
    · simp only [RoleWatch.after, acted.others y here]
      exact id
  · intro g member isJoiner
    rw [isStored] at member
    rcases List.mem_append.mp member with old | new
    · exact Or.inl old
    · refine Or.inr ?_
      rw [(grants.stores g new).1]
      exact (single.fresh (isJoiner ▸ grants.admits_of_store new)).1
  · have written : (Reader.greets (next.nodes joiner).endpoint.reader).toNat +
        (next.stream joiner host).countP Received.isPake1 ≤
        (Reader.greets (s.world.nodes joiner).endpoint.reader).toNat +
          (s.world.stream joiner host).countP Received.isPake1 := by
      by_cases here : joiner = x
      · subst here
        have carried := countP_carried_le joiner host posts
        have bound := grants.flights
        rw [acted.node, acted.streamSelf host, List.countP_append]
        omega
      · rw [acted.others joiner here, acted.streamOther joiner here host]
    have asked : (Reader.admits (next.nodes host).endpoint.reader joiner).toNat +
        ((s.world.nodes x).stores x node action).countP (fun g => g.joiner = joiner) ≤
        (Reader.admits (s.world.nodes host).endpoint.reader joiner).toNat := by
      by_cases here : host = x
      · subst here
        rw [acted.node]
        exact grants.admits joiner
      · have nothing : ((s.world.nodes x).stores x node action).countP
            (fun g => g.joiner = joiner) = 0 := by
          refine List.countP_eq_zero.mpr (fun g new isJoiner => ?_)
          have taken := grants.admits_of_store new
          rw [of_decide_eq_true isJoiner] at taken
          exact here (single.fresh taken).1.symm
        rw [acted.others host here, nothing, Nat.add_zero]
    rw [isGranted]
    simp only [RoleWatch.after, World.flights]
    omega
  · exact fun known => acted.used ▸ known

theorem RoleWatch.Sound.acts (sound : s.Sound) {action : NodeAction}
    (stepped : s.world.step (.act x action) = some next) :
    (s.after next (.act x action)).Sound := by
  obtain ⟨member, node, posts, performed, same⟩ := World.act_cases stepped
  have acted : s.world.Acted next x node posts := same ▸ World.acted_of_settle
  obtain ⟨unopened, grants⟩ :=
    Node.step_grants (sound.orderly.nodes x member) (sound.unopened x member) performed
  have sameMembers : next.net.members = s.world.net.members := by rw [acted.net]; rfl
  have isStored : (s.after next (.act x action)).stored =
      s.stored ++ (s.world.nodes x).stores x node action := by
    rw [← acted.node]
    rfl
  have more : ∀ g ∈ s.stored, g ∈ (s.after next (.act x action)).stored :=
    fun g old => List.mem_append_left _ old
  have unwrapped : (s.after next (.act x action)).unwrapped = s.unwrapped := List.append_nil _
  have posted : ∀ sent ∈ posts, SentGranted (s.after next (.act x action)).stored x sent := by
    intro sent isPost
    unfold SentGranted
    split
    · rename_i toID gk
      exact (grants.keys toID gk isPost).mono (fun role granted =>
        more _ (sound.readers x member _ granted))
    · trivial
  refine
    { orderly := sound.orderly.acts stepped
      unopened := fun y present => ?_
      unkeyed := fun y present => ?_
      net := ?_
      readers := fun y present g granted => ?_
      hosts := fun g granted => ?_
      reserved := fun g granted => ?_
      kept := fun g granted present => ?_
      reported := fun g reported => ?_
      unwrapped := fun g isUnwrapped => more g (sound.unwrapped g (unwrapped ▸ isUnwrapped))
      single := fun j => ?_ }
  · by_cases here : y = x
    · subst here
      exact acted.node ▸ unopened
    · exact acted.others y here ▸ sound.unopened y (sameMembers ▸ present)
  · by_cases here : y = x
    · subst here
      intro outside
      have before := sound.unkeyed y member
      simp only [RoleWatch.after, acted.node] at outside ⊢
      rw [grants.sameKeyed]
      refine before (Bool.eq_false_iff.mpr (fun inside => ?_))
      rw [grants.inLoop inside] at outside
      cases outside
    · exact acted.others y here ▸ sound.unkeyed y (sameMembers ▸ present)
  · have filed := (sound.net.mono (fun _ _ ok => SentGranted.mono more ok)
      (fun _ _ _ ok => ReceivedGranted.mono more ok)).post member posted
    simp only [RoleWatch.after, acted.net, acted.used]
    exact filed
  · by_cases here : y = x
    · subst here
      simp only [RoleWatch.after, acted.node] at granted
      rw [isStored]
      rcases grants.grants g granted with old | new
      · exact List.mem_append_left _ (sound.readers y member g old)
      · exact List.mem_append_right _ new
    · simp only [RoleWatch.after, acted.others y here] at granted
      exact more g (sound.readers y (sameMembers ▸ present) g granted)
  · rw [isStored] at granted
    refine acted.used ▸ ?_
    rcases List.mem_append.mp granted with old | new
    · exact sound.hosts g old
    · rw [(grants.stores g new).1]
      exact sound.net.known x member
  · rw [isStored] at granted
    rcases List.mem_append.mp granted with old | new
    · exact sound.reserved g old
    · exact (grants.stores g new).2.2
  · rw [isStored] at granted
    rcases List.mem_append.mp granted with old | new
    · have before := sound.kept g old (sameMembers ▸ present)
      by_cases here : g.host = x
      · -- the host has no flight of this joiner any more
        obtain ⟨h, single⟩ := sound.single g.joiner
        have unchanged : ∀ other ∈ (s.world.nodes x).stores x node action,
            other.joiner ≠ g.joiner := by
          intro other new isJoiner
          exact (single.fresh (isJoiner ▸ grants.admits_of_store new)).2 g old rfl
        simp only [RoleWatch.after, here, acted.node]
        rw [grants.joiners g.joiner unchanged]
        exact here ▸ before
      · simp only [RoleWatch.after, acted.others g.host here]
        exact before
    · obtain ⟨here, stored, _⟩ := grants.stores g new
      simp only [RoleWatch.after, here, acted.node]
      exact stored
  · rcases List.mem_append.mp reported with old | new
    · exact more g (sound.reported g old)
    · exact more g (sound.readers x member g (grants.reports g new))
  · obtain ⟨h, single⟩ := sound.single j
    exact ⟨h, single.acts acted grants⟩

theorem RoleWatch.Single.delivers (single : s.Single joiner host) {E : Endpoint prim Body}
    {outputs : List (Output prim Body)} (took : s.world.Took next receiver sender frame E outputs)
    (takes : GrantTakes receiver sender frame (s.world.nodes receiver).endpoint E) :
    (s.after next (.deliver receiver sender seed)).Single joiner host := by
  have isEndpoint : (next.nodes receiver).endpoint = E := by
    rw [took.node]
    rfl
  have isStored : (s.after next (.deliver receiver sender seed)).stored = s.stored :=
    List.append_nil _
  have greets : Reader.greets (next.nodes joiner).endpoint.reader = true →
      Reader.greets (s.world.nodes joiner).endpoint.reader = true ∧
        (next.nodes joiner).endpoint.client.hostID =
          (s.world.nodes joiner).endpoint.client.hostID := by
    by_cases here : joiner = receiver
    · subst here
      rw [isEndpoint, takes.greets]
      exact fun starts => by cases starts
    · rw [took.others joiner here]
      exact fun starts => ⟨starts, rfl⟩
  have streams : ∀ y, (next.stream joiner y).countP Received.isPake1 +
      (Reader.admits (next.nodes y).endpoint.reader joiner).toNat ≤
      (s.world.stream joiner y).countP Received.isPake1 +
        (Reader.admits (s.world.nodes y).endpoint.reader joiner).toNat := by
    intro y
    by_cases here : y = receiver
    · subst here
      rw [isEndpoint]
      by_cases isSender : joiner = sender
      · subst isSender
        have asked : (Reader.admits E.reader joiner).toNat ≤ (Received.isPake1 frame).toNat :=
          toNat_le_toNat (fun asked => (takes.admits joiner asked).2)
        rw [took.stream, List.countP_cons]
        cases starts : Received.isPake1 frame with
        | true =>
            rw [starts, Bool.toNat_true] at asked
            simp only [if_true]
            omega
        | false =>
            rw [starts, Bool.toNat_false] at asked
            omega
      · have none : Reader.admits E.reader joiner = false :=
          Bool.eq_false_iff.mpr (fun asked => isSender (takes.admits joiner asked).1)
        rw [none, took.streamOther joiner y (Or.inr isSender)]
        exact Nat.le_add_right _ _
    · rw [took.others y here, took.streamOther joiner y (Or.inl here)]
  refine single.of_le greets ?_ ?_ ?_ ?_ ?_
  · intro y other
    have bound := streams y
    rw [single.admits y other, Bool.toNat_false] at bound
    simp only [RoleWatch.after]
    omega
  · intro y other asked
    have bound := streams y
    simp only [RoleWatch.after] at asked
    rw [asked, single.streams y other, Bool.toNat_true] at bound
    cases before : Reader.admits (s.world.nodes y).endpoint.reader joiner with
    | true => rfl
    | false =>
        rw [before, Bool.toNat_false] at bound
        omega
  · exact fun g member _ => Or.inl (isStored ▸ member)
  · have bound := streams host
    have fewer := toNat_le_toNat (fun starts => (greets starts).1)
    simp only [RoleWatch.granted, isStored]
    simp only [RoleWatch.after, World.flights]
    omega
  · exact fun known => took.used ▸ known

theorem RoleWatch.Sound.delivers (ideal : prim.Ideal) (sound : s.Sound)
    (stepped : s.world.step (.deliver receiver sender seed) = some next) :
    (s.after next (.deliver receiver sender seed)).Sound := by
  obtain ⟨member, frame, E, outputs, received, took⟩ := World.took_of_deliver stepped
  have underWay : frame ∈ s.world.stream sender receiver := took.stream ▸ List.mem_cons_self
  have frameOk := sound.orderly.frames frame underWay
  have takes := GrantTakes.receives ideal (sound.orderly.nodes receiver member).endpoint frameOk
    received
  have isEndpoint : (next.nodes receiver).endpoint = E := by
    rw [took.node]
    rfl
  have isStored : (s.after next (.deliver receiver sender seed)).stored = s.stored :=
    List.append_nil _
  have isReported : (s.after next (.deliver receiver sender seed)).reported = s.reported :=
    List.append_nil _
  have present : ∀ {y}, y ∈ next.net.members → y ∈ s.world.net.members :=
    fun inNext => took.members ▸ inNext
  refine
    { orderly := sound.orderly.delivers ideal stepped
      unopened := fun y inNext => ?_
      unkeyed := fun y inNext => ?_
      net := ?_
      readers := fun y inNext g granted => ?_
      hosts := fun g granted => took.used ▸ sound.hosts g (isStored ▸ granted)
      reserved := fun g granted => sound.reserved g (isStored ▸ granted)
      kept := fun g granted inNext => ?_
      reported := fun g reported => isStored ▸ sound.reported g (isReported ▸ reported)
      unwrapped := fun g isUnwrapped => ?_
      single := fun j => ?_ }
  · by_cases here : y = receiver
    · subst here
      have before := sound.unopened y member
      simp only [RoleWatch.after, took.node]
      exact ⟨fun sent call => before.calls sent (takes.calls ▸ call), before.tasks⟩
    · exact took.others y here ▸ sound.unopened y (present inNext)
  · by_cases here : y = receiver
    · subst here
      intro outside
      have before := sound.unkeyed y member
      simp only [RoleWatch.after, isEndpoint] at outside ⊢
      rcases takes.role with ⟨sameKeyed, _⟩ | ⟨_, inside, _⟩
      · rw [sameKeyed]
        refine before (Bool.eq_false_iff.mpr (fun inside => ?_))
        rw [takes.inLoop inside] at outside
        cases outside
      · rw [inside] at outside
        cases outside
    · exact took.others y here ▸ sound.unkeyed y (present inNext)
  · simp only [isStored]
    simp only [RoleWatch.after, took.used]
    exact took.filed sound.net
  · by_cases here : y = receiver
    · subst here
      simp only [RoleWatch.after, isEndpoint, takes.grants] at granted
      cases granted
    · simp only [RoleWatch.after, took.others y here] at granted
      exact isStored ▸ sound.readers y (present inNext) g granted
  · have before := sound.kept g (isStored ▸ granted) (present inNext)
    by_cases here : g.host = receiver
    · have notLeft : frame ≠ .participantLeft g.joiner := by
        rintro rfl
        obtain ⟨isSender, gone⟩ := frameOk
        exact gone.2 (isSender ▸ present inNext)
      simp only [RoleWatch.after, here, isEndpoint]
      rw [takes.joiners g.joiner notLeft]
      exact here ▸ before
    · simp only [RoleWatch.after, took.others g.host here]
      exact before
  · rw [isStored]
    rcases List.mem_append.mp isUnwrapped with old | new
    · exact sound.unwrapped g old
    · simp only [World.unwraps] at new
      split at new
      · rename_i flips
        rw [isEndpoint] at flips new
        cases List.mem_singleton.mp new
        rcases takes.role with ⟨sameKeyed, _⟩ | ⟨_, _, _, gk, pairwise, key, rfl, unwraps⟩
        · rw [sameKeyed, flips.1] at flips
          cases flips.2
        · have wraps : WrapsAs (fun role => ⟨sender, receiver, role⟩ ∈ s.stored) gk :=
            sound.net.of_stream (SentGranted.carried s.stored) underWay
          exact wraps.unwrapped ideal unwraps
      · cases new
  · obtain ⟨h, single⟩ := sound.single j
    exact ⟨h, single.delivers took takes⟩

theorem RoleWatch.Sound.relays (sound : s.Sound)
    (orderly : next.Orderly) (sameNodes : next.nodes = s.world.nodes)
    (sameUsed : next.used = s.world.used)
    (members : ∀ y, y ∈ next.net.members → y ∈ s.world.net.members)
    (streams : ∀ p y, (next.stream p y).countP Received.isPake1 ≤
      (s.world.stream p y).countP Received.isPake1)
    (filed : next.net.Filed s.world.used (SentGranted s.stored) (ReceivedGranted s.stored))
    (silent : (s.after next action).stored = s.stored ∧
      (s.after next action).reported = s.reported ∧
      (s.after next action).unwrapped = s.unwrapped) :
    (s.after next action).Sound := by
  obtain ⟨isStored, isReported, isUnwrapped⟩ := silent
  refine
    { orderly := orderly
      unopened := fun y inNext => sameNodes ▸ sound.unopened y (members y inNext)
      unkeyed := fun y inNext => sameNodes ▸ sound.unkeyed y (members y inNext)
      net := ?_
      readers := fun y inNext => isStored ▸ sameNodes ▸ sound.readers y (members y inNext)
      hosts := isStored ▸ sameUsed ▸ sound.hosts
      reserved := isStored ▸ sound.reserved
      kept := fun g granted inNext =>
        sameNodes ▸ sound.kept g (isStored ▸ granted) (members g.joiner inNext)
      reported := isReported ▸ isStored ▸ sound.reported
      unwrapped := isUnwrapped ▸ isStored ▸ sound.unwrapped
      single := fun j => ?_ }
  · rw [isStored]
    simp only [RoleWatch.after, sameUsed]
    exact filed
  · obtain ⟨h, single⟩ := sound.single j
    refine ⟨h, single.of_le ?_ (fun y _ => streams j y) ?_ ?_ ?_ (fun known => sameUsed ▸ known)⟩
    · simp only [RoleWatch.after, sameNodes]
      exact fun starts => ⟨starts, trivial⟩
    · simp only [RoleWatch.after, sameNodes]
      exact fun _ _ asked => asked
    · exact fun g member _ => Or.inl (isStored ▸ member)
    · have bound := streams j h
      simp only [RoleWatch.granted, isStored]
      simp only [RoleWatch.after, World.flights, sameNodes]
      omega

theorem RoleWatch.Sound.routes (sound : s.Sound)
    (stepped : s.world.step (.route sender) = some next) :
    (s.after next (.route sender)).Sound := by
  have orderly := sound.orderly.routes stepped
  obtain ⟨net, routed, rfl⟩ := World.route_cases stepped
  exact sound.relays orderly rfl rfl (fun y inNext => Network.members_route routed ▸ inNext)
    (Network.countP_stream_route_le routed Received.isPake1)
    (sound.net.route (SentGranted.carried s.stored) routed)
    ⟨List.append_nil _, List.append_nil _, List.append_nil _⟩

theorem RoleWatch.Sound.leaves (sound : s.Sound) (stepped : s.world.step (.leave id) = some next) :
    (s.after next (.leave id)).Sound := by
  have orderly := sound.orderly.leaves stepped
  obtain ⟨member, net, left, rfl⟩ := World.leave_cases stepped
  exact sound.relays orderly rfl rfl (fun y inNext => ((Network.mem_leave left).mp inNext).1)
    (fun p y => Nat.le_of_eq (Network.countP_stream_leave left rfl p y))
    (sound.net.leave left member (fun _ _ => trivial))
    ⟨List.append_nil _, List.append_nil _, List.append_nil _⟩

theorem RoleWatch.Single.unused (single : s.Single joiner host) (unused : joiner ∉ s.world.used) :
    s.granted joiner = 0 ∧ ∀ x, (s.world.stream joiner x).countP Received.isPake1 = 0 ∧
      Reader.admits (s.world.nodes x).endpoint.reader joiner = false := by
  have none := single.once
  rw [if_neg unused] at none
  unfold World.flights at none
  refine ⟨by omega, fun x => ?_⟩
  by_cases here : x = host
  · subst here
    refine ⟨by omega, Bool.eq_false_iff.mpr (fun asked => ?_)⟩
    rw [asked, Bool.toNat_true] at none
    omega
  · exact ⟨single.streams x here, single.admits x here⟩

theorem RoleWatch.Sound.joins (sound : s.Sound) {proto phraseC : Bytes} {policy : RolePolicy}
    {observer : Bool}
    (stepped : s.world.step (.join id proto phraseC policy observer seed) = some next) :
    (s.after next (.join id proto phraseC policy observer seed)).Sound := by
  have orderly := sound.orderly.joins stepped
  obtain ⟨unused, _, same⟩ := World.join_cases stepped
  have isNode : next.nodes id = Node.fresh (Endpoint.joiningAs prim
      (dial proto s.world.sid phraseC policy observer) id s.world.hubHost seed)
      s.world.successor := by
    rw [same]
    simp only [Function.update_self]
  have others : ∀ y, y ≠ id → next.nodes y = s.world.nodes y := by
    intro y differ
    rw [same]
    simp only [Function.update_of_ne differ]
  have isUsed : next.used = s.world.used ++ [id] := by rw [same]
  have streams : ∀ p y, (next.stream p y).countP Received.isPake1 =
      (s.world.stream p y).countP Received.isPake1 := by
    rw [same]
    exact Network.countP_stream_announce s.world.net rfl id
  have admits : ∀ {j} (y), Reader.admits (next.nodes y).endpoint.reader j = true →
      Reader.admits (s.world.nodes y).endpoint.reader j = true := by
    intro j y
    by_cases here : y = id
    · subst here
      rw [isNode]
      exact fun asked => by cases asked
    · rw [others y here]
      exact fun asked => asked
  have cases : ∀ {y}, y ∈ next.net.members → y = id ∨ y ∈ s.world.net.members ∧ y ≠ id := by
    intro y present
    rw [same] at present
    rcases List.mem_append.mp present with old | new
    · exact Or.inr ⟨old, fun isNew => unused (isNew ▸ sound.net.known y old)⟩
    · exact Or.inl (List.mem_singleton.mp new)
  obtain ⟨h₀, single₀⟩ := sound.single id
  obtain ⟨ungranted, nowhere⟩ := single₀.unused unused
  have stranger : ∀ g ∈ s.stored, g.joiner ≠ id := by
    intro g granted isNew
    exact List.countP_eq_zero.mp ungranted g granted (decide_eq_true isNew)
  have isStored : (s.after next (.join id proto phraseC policy observer seed)).stored = s.stored :=
    List.append_nil _
  refine
    { orderly := orderly
      unopened := fun y present => ?_
      unkeyed := fun y present => ?_
      net := ?_
      readers := fun y present g granted => ?_
      hosts := fun g granted => ?_
      reserved := isStored ▸ sound.reserved
      kept := fun g granted present => ?_
      reported := fun g reported => ?_
      unwrapped := fun g isUnwrapped => ?_
      single := fun j => ?_ }
  · rcases cases present with rfl | ⟨member, differ⟩
    · simp only [RoleWatch.after, isNode]
      exact ⟨fun _ absent => absurd absent List.not_mem_nil,
        fun _ absent => absurd absent List.not_mem_nil⟩
    · exact others y differ ▸ sound.unopened y member
  · rcases cases present with rfl | ⟨member, differ⟩
    · simp only [RoleWatch.after, isNode]
      exact fun _ => rfl
    · exact others y differ ▸ sound.unkeyed y member
  · rw [isStored]
    simp only [RoleWatch.after, isUsed]
    rw [same]
    exact sound.net.join (fun _ _ => trivial)
  · rw [isStored]
    rcases cases present with rfl | ⟨member, differ⟩
    · simp only [RoleWatch.after, isNode] at granted
      cases granted
    · simp only [RoleWatch.after, others y differ] at granted
      exact sound.readers y member g granted
  · simp only [RoleWatch.after, isUsed]
    exact List.mem_append_left [id] (sound.hosts g (isStored ▸ granted))
  · have old : g ∈ s.stored := isStored ▸ granted
    have differ : g.host ≠ id := fun isNew => unused (isNew ▸ sound.hosts g old)
    rcases cases present with isNew | ⟨member, _⟩
    · exact absurd isNew (stranger g old)
    · simp only [RoleWatch.after, others g.host differ]
      exact sound.kept g old member
  · rw [isStored]
    exact sound.reported g ((List.append_nil s.reported).subst reported)
  · rw [isStored]
    exact sound.unwrapped g ((List.append_nil s.unwrapped).subst isUnwrapped)
  · by_cases isNew : j = id
    · subst isNew
      have unasked : ∀ x, Reader.admits (next.nodes x).endpoint.reader j = false :=
        fun x => Bool.eq_false_iff.mpr (fun asked => by
          have before := admits x asked
          rw [(nowhere x).2] at before
          cases before)
      refine ⟨s.world.hubHost,
        { pointed := fun _ => by
            simp only [RoleWatch.after, isNode]
            rfl
          streams := fun x _ => (streams j x).trans (nowhere x).1
          admits := fun x _ => unasked x
          stored := fun g member isJoiner => absurd isJoiner (stranger g (isStored ▸ member))
          once := ?_ }⟩
      have known : j ∈ (s.after next (.join j proto phraseC policy observer seed)).world.used :=
        isUsed ▸ List.mem_append_right _ (List.mem_singleton_self j)
      rw [if_pos known]
      simp only [RoleWatch.granted, isStored]
      simp only [RoleWatch.after, World.flights, streams, (nowhere _).1, unasked, isNode]
      exact Nat.le_of_eq (congrArg (1 + ·) ungranted)
    · obtain ⟨h, single⟩ := sound.single j
      refine ⟨h, single.of_le ?_ (fun y _ => Nat.le_of_eq (streams j y)) ?_ ?_ ?_ ?_⟩
      · simp only [RoleWatch.after, others j isNew]
        exact fun starts => ⟨starts, trivial⟩
      · exact fun y _ => admits y
      · exact fun g member _ => Or.inl (isStored ▸ member)
      · have asked := toNat_le_toNat (admits h (j := j))
        simp only [RoleWatch.granted, isStored]
        simp only [RoleWatch.after, World.flights, streams, others j isNew]
        omega
      · intro known
        simp only [RoleWatch.after, isUsed]
        exact List.mem_append_left [id] known

theorem RoleWatch.Sound.steps (ideal : prim.Ideal) (sound : s.Sound)
    (stepped : s.step action = some s') : s'.Sound := by
  obtain ⟨next, moved, rfl⟩ := Option.map_eq_some_iff.mp stepped
  cases action with
  | join id proto phraseC policy observer seed => exact sound.joins moved
  | leave id => exact sound.leaves moved
  | route sender => exact sound.routes moved
  | deliver receiver sender seed => exact sound.delivers ideal moved
  | act x action => exact sound.acts moved

theorem RoleWatch.start_sound (proto phraseC : Bytes) (sid : SessionID) (policy : RolePolicy)
    (observer : Bool) (successor : SuccessorPolicy) (host : ParticipantID) (key : Key) :
    (RoleWatch.start proto phraseC sid policy observer successor host key :
      RoleWatch prim).Sound := by
  refine
    { orderly := World.start_orderly proto phraseC sid policy observer successor host key
      unopened := fun _ _ => ⟨fun _ absent => absurd absent List.not_mem_nil,
        fun _ absent => absurd absent List.not_mem_nil⟩
      unkeyed := fun _ _ outside => by cases outside
      net := Network.single_filed host
      readers := fun _ _ _ absent => absurd absent List.not_mem_nil
      hosts := fun _ absent => absurd absent List.not_mem_nil
      reserved := fun _ absent => absurd absent List.not_mem_nil
      kept := fun _ absent => absurd absent List.not_mem_nil
      reported := List.forall_mem_nil _
      unwrapped := List.forall_mem_nil _
      single := fun joiner => ⟨host, ?_⟩ }
  exact
    { pointed := fun starts => by cases starts
      streams := fun _ _ => rfl
      admits := fun _ _ => rfl
      stored := List.forall_mem_nil _
      once := Nat.zero_le _ }

end

/-! ### Agreement -/

namespace RoleWatch

/-- Whatever a joiner unwrapped is what its host stored, and the only thing any
host stored or reported for it. -/
def Agreed (s : RoleWatch prim) : Prop :=
  ∀ g ∈ s.unwrapped,
    g.role ≠ roleNone ∧ g.role ≠ roleHost ∧
      g ∈ s.stored ∧ (∀ other ∈ s.stored, other.joiner = g.joiner → other = g) ∧
      (∀ other ∈ s.reported, other.joiner = g.joiner → other = g) ∧
      (g.joiner ∈ s.world.net.members →
        (s.world.nodes g.host).endpoint.client.joiners.lookup g.joiner = some g.role)

/-- The role of an end changes when it unwraps a `KindGroupKey`, when its mux
performs `BecomeHost`, or when it joins; only `BecomeHost` makes it a host. -/
def KeepsRoles (s : RoleWatch prim) (action : WorldAction) : Prop :=
  ∀ next, s.world.step action = some next → ∀ id,
    (next.nodes id).endpoint.client.role = (s.world.nodes id).endpoint.client.role ∨
    (∃ sender seed gk, action = .deliver id sender seed ∧
      (s.world.stream sender id).head? = some (.direct sender (.groupKey gk)) ∧
      { host := sender
        joiner := id
        role := (next.nodes id).endpoint.client.role } ∈ s.world.unwraps next action ∧
      (next.nodes id).endpoint.client.role ≠ roleHost) ∨
    ((∃ outcome rest, action = .act id (.task outcome) ∧
        (s.world.nodes id).todo = .becomeHost :: rest) ∧
      (next.nodes id).endpoint.client.role = roleHost) ∨
    ((∃ proto phraseC policy observer seed,
        action = .join id proto phraseC policy observer seed) ∧
      (next.nodes id).endpoint.client.role = roleNone)

variable {s : RoleWatch prim}

theorem Sound.unique (sound : s.Sound) {g other : Grant} (granted : g ∈ s.stored)
    (also : other ∈ s.stored) (sameJoiner : other.joiner = g.joiner) : other = g := by
  obtain ⟨host, single⟩ := sound.single g.joiner
  have few : s.granted g.joiner ≤ 1 := by
    have once := single.once
    split at once <;> omega
  have first : g ∈ s.stored.filter (fun each => each.joiner = g.joiner) :=
    List.mem_filter.mpr ⟨granted, decide_eq_true rfl⟩
  have second : other ∈ s.stored.filter (fun each => each.joiner = g.joiner) :=
    List.mem_filter.mpr ⟨also, decide_eq_true sameJoiner⟩
  unfold RoleWatch.granted at few
  rw [List.countP_eq_length_filter] at few
  obtain ⟨only, isOnly⟩ := List.length_eq_one_iff.mp
    (Nat.le_antisymm few (List.length_pos_of_mem first))
  rw [isOnly] at first second
  rw [List.mem_singleton.mp first, List.mem_singleton.mp second]

theorem Sound.agreed (sound : s.Sound) : s.Agreed := by
  intro g isUnwrapped
  have granted := sound.unwrapped g isUnwrapped
  obtain ⟨notNone, notHost⟩ := sound.reserved g granted
  refine ⟨notNone, notHost, granted, fun other also => sound.unique granted also,
    fun other reported => sound.unique granted (sound.reported other reported),
    sound.kept g granted⟩

theorem Sound.keepsRoles (ideal : prim.Ideal) (sound : s.Sound) (action : WorldAction) :
    s.KeepsRoles action := by
  intro next stepped id
  cases action with
  | join other proto phraseC policy observer seed =>
      obtain ⟨_, _, rfl⟩ := World.join_cases stepped
      by_cases here : id = other
      · subst here
        simp only [Function.update_self]
        exact Or.inr (Or.inr (Or.inr ⟨⟨_, _, _, _, _, rfl⟩, rfl⟩))
      · exact Or.inl (by simp only [Function.update_of_ne here])
  | leave other =>
      obtain ⟨_, _, _, rfl⟩ := World.leave_cases stepped
      exact Or.inl rfl
  | route sender =>
      obtain ⟨_, _, rfl⟩ := World.route_cases stepped
      exact Or.inl rfl
  | deliver receiver sender seed =>
      have later := sound.delivers ideal stepped
      obtain ⟨member, frame, E, outputs, received, took⟩ := World.took_of_deliver stepped
      by_cases here : id = receiver
      · subst here
        have frameOk := sound.orderly.frames frame (took.stream ▸ List.mem_cons_self)
        have takes := GrantTakes.receives ideal (sound.orderly.nodes id member).endpoint frameOk
          received
        have isEndpoint : (next.nodes id).endpoint = E := by
          rw [took.node]
          rfl
        rcases takes.role with ⟨_, sameRole⟩ | ⟨outside, _, keyed, gk, _, _, isFrame, _⟩
        · exact Or.inl (isEndpoint ▸ sameRole)
        · have logged : ⟨sender, id, (next.nodes id).endpoint.client.role⟩ ∈
              s.world.unwraps next (.deliver id sender seed) := by
            simp only [World.unwraps]
            rw [if_pos ⟨sound.unkeyed id member outside, isEndpoint ▸ keyed⟩]
            exact List.mem_singleton_self _
          refine Or.inr (Or.inl ⟨sender, seed, gk, rfl, ?_, logged, ?_⟩)
          · rw [took.stream, isFrame]
            rfl
          · have granted := later.unwrapped _ (List.mem_append_right s.unwrapped logged)
            exact (later.reserved _ granted).2
      · exact Or.inl (by rw [took.others id here])
  | act x action =>
      obtain ⟨member, node, posts, performed, rfl⟩ := World.act_cases stepped
      by_cases here : id = x
      · subst here
        simp only [World.settle, Function.update_self]
        rcases Node.step_role (sound.orderly.nodes id member) performed with
          same | ⟨⟨outcome, rest, rfl, isTodo⟩, isHost⟩
        · exact Or.inl same
        · exact Or.inr (Or.inr (Or.inl ⟨⟨outcome, rest, rfl, isTodo⟩, isHost⟩))
      · exact Or.inl (by simp only [World.settle, Function.update_of_ne here])

end RoleWatch

/-- In every run of a session, joiners unwrap the roles their hosts stored and
reported, and neither rekeys nor anything else but `BecomeHost` changes a role
afterwards. -/
theorem joiners_unwrap_stored_roles (ideal : prim.Ideal) (proto phraseC : Bytes) (sid : SessionID)
    (policy : RolePolicy) (observer : Bool) (successor : SuccessorPolicy) (host : ParticipantID)
    (key : Key) (actions : List WorldAction) (s : RoleWatch prim)
    (reached : run RoleWatch.step
      (RoleWatch.start proto phraseC sid policy observer successor host key) actions = some s) :
    s.Agreed ∧ ∀ action, s.KeepsRoles action := by
  have sound : s.Sound := by
    refine run_invariant' ?_
      (RoleWatch.start_sound proto phraseC sid policy observer successor host key) reached
    exact fun _ _ _ before stepped => before.steps ideal stepped
  exact ⟨sound.agreed, sound.keepsRoles ideal⟩

/-- A policy with a role of its own for the first joiner and a reserved one for
everybody after it. -/
def greedyPolicy : RolePolicy :=
  fun _ _ assigned => if assigned.entries = [] then 7 else roleHost

def greedySession : RoleWatch symbolic :=
  RoleWatch.start [] [] (Vector.replicate 16 0) greedyPolicy false defaultSuccessorPolicy 1
    (sampleKey 0)

theorem greedySession_agreed :
    (∃ s, run RoleWatch.step greedySession threeTogether = some s ∧
      s.unwrapped = [⟨1, 2, 7⟩, ⟨1, 3, roleMember⟩] ∧ s.reported = s.unwrapped) ∧
    ∀ s, run RoleWatch.step greedySession threeTogether = some s →
      s.Agreed ∧ ∀ action, s.KeepsRoles action := by
  have finished : (run RoleWatch.step greedySession threeTogether).any (fun s =>
      decide (s.unwrapped = [⟨1, 2, 7⟩, ⟨1, 3, roleMember⟩] ∧ s.reported = s.unwrapped)) = true := by
    decide +kernel
  obtain ⟨s, reached, facts⟩ := (Option.any_eq_true _ _).mp finished
  exact ⟨⟨s, reached, of_decide_eq_true facts⟩, fun _ reached =>
    joiners_unwrap_stored_roles symbolic_ideal [] [] (Vector.replicate 16 0) greedyPolicy false
      defaultSuccessorPolicy 1 (sampleKey 0) threeTogether _ reached⟩

end Parley.Service
