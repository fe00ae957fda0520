/-
The keyed ends over one relay.

One handler of one end at a time: an end takes the next notice of its inbox, a
command, or the report that its read loop has keyed a member, and writes what the
handler sends.  Frames that do not fit are dropped by the client and their error by
ctl.  The relay loses nothing, and an inbox is in the order of the hub.
-/

import Parley.Library.Network
import Parley.Library.Run
import Parley.Service.Reactions

namespace Parley.Service

open Library Session
open Wire (Bytes ParticipantID)

structure Memo where
  out : Outgoing
  pruned : List ParticipantID

def Memo.carry (sender : ParticipantID) (memo : Memo) (receiver : ParticipantID) :
    Option Notice :=
  match memo.out with
  | .broadcast msg => if receiver = sender then none else some (.memo msg memo.pruned)
  | .sendTo toID msg => if toID = receiver then some (.memo msg memo.pruned) else none

structure Replicas where
  successor : SuccessorPolicy
  net : Network ParticipantID Memo Notice
  ctls : ParticipantID → Ctl
  used : List ParticipantID

inductive ReplicaAction where
  /-- A joiner is keyed by a host, and its mux starts. -/
  | enter (id host : ParticipantID)
  /-- The mux of an end handles `MemberKeyed`. -/
  | keyed (host id : ParticipantID) (role : Role)
  | leave (id : ParticipantID)
  | route (sender : ParticipantID)
  /-- The mux of an end handles what comes next. -/
  | handle (receiver : ParticipantID)
  | command (id : ParticipantID) (cmd : Command)
  deriving DecidableEq

def Notice.isLeft (id : ParticipantID) : Notice → Bool
  | .left other => other = id
  | _ => false

namespace Replicas

abbrev stream (s : Replicas) (sender receiver : ParticipantID) : List Notice :=
  s.net.stream Memo.carry sender receiver

def start (successor : SuccessorPolicy) (host : ParticipantID) : Replicas :=
  { successor := successor
    net := Network.single host
    ctls := fun _ => Ctl.new.attach { self := host, hostID := host, host := true }
    used := [host] }

def newcomer (id host : ParticipantID) : Ctl :=
  Ctl.new.attach { self := id, hostID := host, host := false }

def welcome (s : Replicas) (id : ParticipantID) : Replicas :=
  { s with
    net := s.net.join id (.joined id)
    used := s.used ++ [id] }

def write (s : Replicas) (id : ParticipantID) (result : Ctl × List Outgoing) : Replicas :=
  { s with
    net := s.net.post id (result.2.map (fun out => { out := out, pruned := result.1.pruned }))
    ctls := Function.update s.ctls id result.1 }

/-- Which frames fit is a parameter: the size of a frame is up to the codec. -/
def settle (fits : CtlMsg → Bool) (s : Replicas) (id : ParticipantID)
    (result : Ctl × List Outgoing) : Replicas :=
  s.write id (result.1, result.2.filter (fun out => fits out.msg))

/-- Nobody's `MemberLeft` comes before its `MemberKeyed`. -/
def unheard (s : Replicas) (host id : ParticipantID) : Bool :=
  id ∈ s.net.members || (s.net.inbox host).any (fun entry => entry.2.isLeft id)

def step (fits : CtlMsg → Bool) (s : Replicas) : ReplicaAction → Option Replicas
  | .enter id host =>
      if id ∈ s.used ∨ id = 0 ∨ host ∉ s.net.members ∨ (s.ctls host).ctx.host = false then none
      else
        some ((s.welcome id).settle fits id
          (newcomer id host, [(newcomer id host).requestSnapshot]))
  | .keyed host id role =>
      if host ∈ s.net.members ∧ id ∈ s.used ∧ s.unheard host id = true then
        some (s.settle fits host ((s.ctls host).memberKeyed ctlServices id role))
      else none
  | .leave id =>
      if id ∈ s.net.members then
        (s.net.leave id (.left id)).map (fun net => { s with net := net })
      else none
  | .route sender => (s.net.route Memo.carry sender).map (fun net => { s with net := net })
  | .handle receiver =>
      if receiver ∈ s.net.members then
        (s.net.shift receiver).map (fun shifted =>
          settle fits { s with net := shifted.2 } receiver
            ((s.ctls receiver).handleNotice s.successor shifted.1.1 shifted.1.2))
      else none
  | .command id cmd =>
      if id ∈ s.net.members then some (s.settle fits id ((s.ctls id).execute cmd)) else none

def Quiet (s : Replicas) : Prop :=
  ∀ id ∈ s.net.members, (s.net.outbox id).isEmpty = true ∧ (s.net.inbox id).isEmpty = true

instance Quiet.decidable (s : Replicas) : Decidable s.Quiet :=
  List.decidableBAll _ _

def handler (s : Replicas) : ReplicaAction → Option (ParticipantID × Ctl × List Outgoing)
  | .enter id host => some (id, newcomer id host, [(newcomer id host).requestSnapshot])
  | .keyed host id role => some (host, (s.ctls host).memberKeyed ctlServices id role)
  | .handle receiver =>
      (s.net.shift receiver).map (fun shifted =>
        (receiver, (s.ctls receiver).handleNotice s.successor shifted.1.1 shifted.1.2))
  | .command id cmd => some (id, (s.ctls id).execute cmd)
  | .leave _ => none
  | .route _ => none

def Fitting (fits : CtlMsg → Bool) (who : ParticipantID → Bool) (s : Replicas)
    (action : ReplicaAction) : Prop :=
  ∀ performed ∈ s.handler action, who performed.1 = true →
    ∀ out ∈ performed.2.2, fits out.msg = true

instance Fitting.decidable (fits : CtlMsg → Bool) (who : ParticipantID → Bool) (s : Replicas)
    (action : ReplicaAction) : Decidable (Fitting fits who s action) :=
  Option.decidableForallMem _

/-- What a step does when everything that is sent fits. -/
inductive Moves (s : Replicas) : ReplicaAction → Replicas → Prop
  | enter (id host : ParticipantID) (unused : id ∉ s.used) (present : host ∈ s.net.members)
      (isHost : (s.ctls host).ctx.host = true) :
      Moves s (.enter id host)
        ((s.welcome id).write id (newcomer id host, [(newcomer id host).requestSnapshot]))
  | keyed (host id : ParticipantID) (role : Role) (present : host ∈ s.net.members)
      (known : id ∈ s.used) (unheard : s.unheard host id = true) :
      Moves s (.keyed host id role) (s.write host ((s.ctls host).memberKeyed ctlServices id role))
  | leave (id : ParticipantID) (present : id ∈ s.net.members)
      (net : Network ParticipantID Memo Notice) (left : s.net.leave id (.left id) = some net) :
      Moves s (.leave id) { s with net := net }
  | route (sender : ParticipantID) (net : Network ParticipantID Memo Notice)
      (routed : s.net.route Memo.carry sender = some net) :
      Moves s (.route sender) { s with net := net }
  | handle (receiver : ParticipantID) (present : receiver ∈ s.net.members)
      (entry : ParticipantID × Notice) (net : Network ParticipantID Memo Notice)
      (shifted : s.net.shift receiver = some (entry, net)) :
      Moves s (.handle receiver)
        (write { s with net := net } receiver
          ((s.ctls receiver).handleNotice s.successor entry.1 entry.2))
  | command (id : ParticipantID) (cmd : Command) (present : id ∈ s.net.members) :
      Moves s (.command id cmd) (s.write id ((s.ctls id).execute cmd))

variable {fits : CtlMsg → Bool} {s next : Replicas} {receiver sender id : ParticipantID}
  {net : Network ParticipantID Memo Notice} {result : Ctl × List Outgoing} {memo : Memo}
  {notice : Notice}

end Replicas

/-! ### What is under way -/

/-- Nobody writes to itself, only broadcasts announce, and nobody is announced who
is not known. -/
def Memo.Known (used : List ParticipantID) (sender : ParticipantID) (memo : Memo) : Prop :=
  match memo.out with
  | .broadcast msg => ∀ copy, msg.announced = some copy → ∀ id ∈ copy.roster, id ∈ used
  | .sendTo toID msg => toID ≠ sender ∧ msg.announced = none

structure Notice.Known (used : List ParticipantID) (sender receiver : ParticipantID)
    (notice : Notice) : Prop where
  other : sender ≠ receiver
  about : ∀ id, notice = .left id → id = sender
  announced : ∀ copy, notice.announced = some copy → ∀ id ∈ copy.roster, id ∈ used

section

variable {used : List ParticipantID} {receiver sender : ParticipantID} {memo : Memo}
  {notice : Notice}

theorem Memo.carry_eq_memo (carried : memo.carry sender receiver = some notice) :
    notice = .memo memo.out.msg memo.pruned := by
  cases out : memo.out with
  | broadcast msg =>
      simp only [Memo.carry, out] at carried
      obtain ⟨_, same⟩ := Option.ite_none_left_eq_some.mp carried
      exact (Option.some.inj same).symm
  | sendTo toID msg =>
      simp only [Memo.carry, out] at carried
      obtain ⟨_, same⟩ := Option.ite_none_right_eq_some.mp carried
      exact (Option.some.inj same).symm

theorem Memo.Known.carried (known : memo.Known used sender)
    (carried : memo.carry sender receiver = some notice) :
    notice.Known used sender receiver := by
  have isMemo := Memo.carry_eq_memo carried
  cases out : memo.out with
  | broadcast msg =>
      simp only [Memo.carry, out] at carried
      simp only [Memo.Known, out] at known
      obtain ⟨differ, _⟩ := Option.ite_none_left_eq_some.mp carried
      refine ⟨fun same => differ same.symm, fun id isLeft => ?_, fun copy isCopy => ?_⟩
      · rw [isMemo] at isLeft
        cases isLeft
      · rw [isMemo, out] at isCopy
        exact known copy isCopy
  | sendTo toID msg =>
      simp only [Memo.carry, out] at carried
      simp only [Memo.Known, out] at known
      obtain ⟨isReceiver, _⟩ := Option.ite_none_right_eq_some.mp carried
      refine ⟨fun same => known.1 (isReceiver.trans same.symm), fun id isLeft => ?_,
        fun copy isCopy => ?_⟩
      · rw [isMemo] at isLeft
        cases isLeft
      · rw [isMemo, out] at isCopy
        exact absurd (known.2.symm.trans isCopy) (fun none_eq => by cases none_eq)

theorem Memo.Known.reaches (known : memo.Known used sender) (differ : receiver ≠ sender) :
    memo.out.msg.announced = none ∨
      memo.carry sender receiver = some (.memo memo.out.msg memo.pruned) := by
  cases out : memo.out with
  | broadcast msg =>
      right
      simp only [Memo.carry, out, if_neg differ, Outgoing.msg]
  | sendTo toID msg =>
      simp only [Memo.Known, out] at known
      exact Or.inl known.2

variable {used' : List ParticipantID}

theorem Memo.Known.mono (more : ∀ id ∈ used, id ∈ used') (known : memo.Known used sender) :
    memo.Known used' sender := by
  cases out : memo.out with
  | broadcast msg =>
      simp only [Memo.Known, out] at known ⊢
      exact fun copy isCopy id member => more id (known copy isCopy id member)
  | sendTo toID msg =>
      simp only [Memo.Known, out] at known ⊢
      exact known

theorem Notice.Known.mono (more : ∀ id ∈ used, id ∈ used')
    (known : notice.Known used sender receiver) : notice.Known used' sender receiver :=
  { known with
    announced := fun copy isCopy id member => more id (known.announced copy isCopy id member) }

end

namespace Replicas

variable {s next : Replicas} {receiver sender id : ParticipantID}
  {net : Network ParticipantID Memo Notice} {result : Ctl × List Outgoing} {memo : Memo}
  {notice : Notice}

structure Tidy (s : Replicas) : Prop where
  filed : s.net.Filed s.used (fun sender memo => memo.Known s.used sender)
    (fun sender receiver notice => notice.Known s.used sender receiver)
  gone : ∀ receiver ∈ s.net.members, ∀ entry ∈ s.net.inbox receiver, ∀ id,
    entry.2 = .left id → id ∉ s.net.members
  self : ∀ id ∈ s.net.members, (s.ctls id).ctx.self = id
  proper : ∀ id ∈ s.net.members, (s.ctls id).Proper
  requests : ∀ id ∈ s.net.members, (s.ctls id).ctx.host = false →
    ∀ memo ∈ s.net.outbox id, memo.out.isRequest = true
  rosters : ∀ id ∈ s.net.members, (s.ctls id).RosterIn s.used

theorem Tidy.posted (tidy : s.Tidy) (present : id ∈ s.net.members)
    (reacts : (s.ctls id).Reacts result) (within : result.1.RosterIn s.used) :
    ∀ memo ∈ result.2.map (fun out => (⟨out, result.1.pruned⟩ : Memo)), memo.Known s.used id := by
  intro memo member
  obtain ⟨out, sent, rfl⟩ := List.mem_map.mp member
  have self := tidy.self id present
  cases reacts with
  | announces host same =>
      cases List.mem_singleton.mp sent
      intro copy isCopy
      cases isCopy
      exact within
  | answers host answer =>
      obtain ⟨toID, msg, rfl, other, unannounced⟩ := answer out sent
      exact ⟨self ▸ other, unannounced⟩
  | hears notHost still => cases sent
  | reports name endpoint notHost same =>
      cases List.mem_singleton.mp sent
      refine ⟨fun ofHost => ?_, rfl⟩
      have host := (tidy.proper id present).mpr (ofHost.trans self.symm)
      exact Bool.false_ne_true (notHost.symm.trans host)
  | takesOver notHost isHost =>
      cases List.mem_singleton.mp sent
      intro copy isCopy
      cases isCopy
      exact within

theorem Tidy.write (tidy : s.Tidy) (present : id ∈ s.net.members)
    (reacts : (s.ctls id).Reacts result) (self : result.1.ctx.self = id) (proper : result.1.Proper)
    (within : result.1.RosterIn s.used) : (s.write id result).Tidy := by
  -- a property of every end holds when it holds of this one
  have ends : ∀ {P : ParticipantID → Ctl → Prop},
      (∀ other ∈ s.net.members, P other (s.ctls other)) → P id result.1 →
      ∀ other ∈ s.net.members, P other ((s.write id result).ctls other) := by
    intro P old new other member
    simp only [Replicas.write]
    by_cases same : other = id
    · rw [same, Function.update_self]
      exact new
    · rw [Function.update_of_ne same]
      exact old other member
  refine
    { filed := tidy.filed.post present (tidy.posted present reacts within)
      gone := tidy.gone
      self := ends (P := fun other c => c.ctx.self = other) tidy.self self
      proper := ends (P := fun _ c => c.Proper) tidy.proper proper
      requests := fun other member => ?_
      rosters := ends (P := fun _ c => c.RosterIn s.used) tidy.rosters within }
  intro isMember memo sent
  by_cases same : other = id
  · subst same
    simp only [Replicas.write, Function.update_self] at isMember
    obtain ⟨was, requests⟩ := reacts.of_member isMember
    rcases Network.mem_outbox_post sent with old | ⟨_, new⟩
    · exact tidy.requests other member was memo old
    · obtain ⟨out, there, rfl⟩ := List.mem_map.mp new
      exact requests out there
  · simp only [Replicas.write, Network.post, Function.update_of_ne same] at isMember sent
    exact tidy.requests other member isMember memo sent

theorem Tidy.notLeft (tidy : s.Tidy) (present : id ∈ s.net.members) :
    ∀ entry ∈ s.net.inbox id, entry.2 ≠ .left id :=
  fun entry member isLeft => tidy.gone id present entry member id isLeft present

variable {entry : ParticipantID × Notice}

theorem Tidy.shift (tidy : s.Tidy) (shifted : s.net.shift receiver = some (entry, net)) :
    Tidy { s with net := net } := by
  have taken := Network.take_of_shift shifted
  have members := Network.members_take taken
  have outbox := Network.outbox_take taken
  refine
    { filed := tidy.filed.take taken
      gone := fun other present item member id isLeft => ?_
      self := fun id present => tidy.self id (members ▸ present)
      proper := fun id present => tidy.proper id (members ▸ present)
      requests := fun id present isMember memo sent => ?_
      rosters := fun id present => tidy.rosters id (members ▸ present) }
  · simp only [members] at present ⊢
    exact tidy.gone other present item (Network.mem_inbox_of_take taken member) id isLeft
  · simp only [members, outbox] at present sent
    exact tidy.requests id present isMember memo sent

theorem Tidy.known_of_shift (tidy : s.Tidy) (shifted : s.net.shift receiver = some (entry, net)) :
    entry.2.Known s.used entry.1 receiver := by
  obtain ⟨rest, pending, _⟩ := Network.shift_cases shifted
  exact tidy.filed.entries receiver entry (pending ▸ List.mem_cons_self)

theorem Tidy.route (tidy : s.Tidy) (routed : s.net.route Memo.carry sender = some net) :
    Tidy { s with net := net } := by
  have members := Network.members_route routed
  obtain ⟨first, _, _, outbox, added⟩ := Network.route_contents routed
  refine
    { filed := tidy.filed.route (fun _ _ _ _ known carried => known.carried carried) routed
      gone := fun receiver present entry member id isLeft => ?_
      self := fun id present => tidy.self id (members ▸ present)
      proper := fun id present => tidy.proper id (members ▸ present)
      requests := fun id present isMember memo sent => ?_
      rosters := fun id present => tidy.rosters id (members ▸ present) }
  · simp only [members] at present ⊢
    rcases added receiver entry member with old | ⟨_, carried⟩
    · exact tidy.gone receiver present entry old id isLeft
    · rw [Memo.carry_eq_memo carried] at isLeft
      cases isLeft
  · exact tidy.requests id (members ▸ present) isMember memo (outbox id memo sent)

theorem Tidy.leave (tidy : s.Tidy) (present : id ∈ s.net.members)
    (left : s.net.leave id (.left id) = some net) :
    Tidy { s with net := net } := by
  have stays : ∀ {other}, other ∈ net.members ↔ other ∈ s.net.members ∧ other ≠ id :=
    Network.mem_leave left
  have filed := tidy.filed.leave left present (fun receiver differ =>
    { other := Ne.symm differ
      about := fun _ isLeft => (Notice.left.inj isLeft).symm
      announced := fun _ isCopy => by cases isCopy })
  refine
    { filed := filed
      gone := fun receiver member entry there other isLeft stillThere => ?_
      self := fun other member => tidy.self other (stays.mp member).1
      proper := fun other member => tidy.proper other (stays.mp member).1
      requests := fun other member => ?_
      rosters := fun other member => tidy.rosters other (stays.mp member).1 }
  · obtain ⟨_, ⟨⟩⟩ := Option.ite_none_right_eq_some.mp left
    rcases Network.mem_inbox_announce there with old | ⟨_, rfl⟩
    · exact tidy.gone receiver (stays.mp member).1 entry old other isLeft (stays.mp stillThere).1
    · exact (stays.mp stillThere).2 (Notice.left.inj isLeft).symm
  · rw [(Network.outbox_leave left).1]
    exact tidy.requests other (stays.mp member).1

theorem Tidy.enter (tidy : s.Tidy) {host : ParticipantID} (unused : id ∉ s.used)
    (present : host ∈ s.net.members) :
    ((s.welcome id).write id
      (newcomer id host, [(newcomer id host).requestSnapshot])).Tidy := by
  have more : ∀ other ∈ s.used, other ∈ s.used ++ [id] := fun other => List.mem_append_left [id]
  have absent : id ∉ s.net.members := fun member => unused (tidy.filed.known id member)
  have notHost : host ≠ id := fun same => absent (same ▸ present)
  have joined : (s.net.join id (.joined id)).Filed (s.used ++ [id])
      (fun sender memo => memo.Known (s.used ++ [id]) sender)
      (fun sender receiver notice => notice.Known (s.used ++ [id]) sender receiver) :=
    (tidy.filed.mono (fun _ _ known => known.mono more)
      (fun _ _ _ known => known.mono more)).join (fun receiver member =>
        { other := fun same => absent (same ▸ member)
          about := fun _ isLeft => by cases isLeft
          announced := fun _ isCopy => by cases isCopy })
  have isMember : id ∈ (s.net.join id (.joined id)).members :=
    List.mem_append_right s.net.members (List.mem_singleton_self id)
  have ends : ∀ {P : ParticipantID → Ctl → Prop},
      (∀ other ∈ s.net.members, P other (s.ctls other)) → P id (newcomer id host) →
      ∀ other ∈ s.net.members ++ [id],
        P other (Function.update s.ctls id (newcomer id host) other) := by
    intro P old new other member
    by_cases same : other = id
    · rw [same, Function.update_self]
      exact new
    · rw [Function.update_of_ne same]
      refine old other ((List.mem_append.mp member).resolve_right (fun isNew => ?_))
      exact same (List.mem_singleton.mp isNew)
  refine
    { filed := joined.post isMember (fun memo sent => ?_)
      gone := fun receiver inside entry there other isLeft stillThere => ?_
      self := ends (P := fun other c => c.ctx.self = other) tidy.self rfl
      proper := ends (P := fun _ c => c.Proper) tidy.proper
        (iff_of_false Bool.false_ne_true notHost)
      requests := fun other member isFalse memo sent => ?_
      rosters := ends (P := fun _ c => c.RosterIn (s.used ++ [id]))
        (fun other member known there => more known (tidy.rosters other member known there))
        (fun other there => absurd there (AList.notMem_empty other)) }
  · cases List.mem_singleton.mp sent
    exact ⟨notHost, rfl⟩
  · rcases Network.mem_inbox_announce there with old | ⟨_, rfl⟩
    · have wasThere : receiver ∈ s.net.members := by
        refine (List.mem_append.mp inside).resolve_right (fun isNew => ?_)
        rw [List.mem_singleton.mp isNew, tidy.filed.fresh id unused] at old
        cases old
      rcases List.mem_append.mp stillThere with oldMember | isNew
      · exact tidy.gone receiver wasThere entry old other isLeft oldMember
      · have isSubject := (tidy.filed.entries receiver entry old).about other isLeft
        rw [List.mem_singleton.mp isNew] at isSubject
        exact unused (isSubject ▸ tidy.filed.senders receiver entry old)
    · cases isLeft
  · rcases Network.mem_outbox_post sent with old | ⟨_, new⟩
    · have isOther : other ≠ id := by
        rintro rfl
        have drained : (s.welcome other).net.outbox other = [] := tidy.filed.drained other absent
        rw [drained] at old
        cases old
      have wasThere : other ∈ s.net.members := by
        refine (List.mem_append.mp member).resolve_right (fun isNew => ?_)
        exact isOther (List.mem_singleton.mp isNew)
      simp only [Replicas.write, Function.update_of_ne isOther] at isFalse
      exact tidy.requests other wasThere isFalse memo old
    · cases List.mem_singleton.mp new
      rfl

theorem Tidy.moves (tidy : s.Tidy) {action : ReplicaAction} (moves : s.Moves action next) :
    next.Tidy := by
  cases moves with
  | enter id host unused present isHost => exact tidy.enter unused present
  | keyed host id role present known unheard =>
      have same := Ctl.ctx_memberKeyed (s.ctls host) id role
      refine tidy.write present (Ctl.reacts_memberKeyed _ id role) ?_ ?_
        ((tidy.rosters host present).memberKeyed known role)
      · rw [same]
        exact tidy.self host present
      · rw [Ctl.Proper, same]
        exact tidy.proper host present
  | leave id present net left => exact tidy.leave present left
  | route sender net routed => exact tidy.route routed
  | handle receiver present entry net shifted =>
      have known := tidy.known_of_shift shifted
      have self := tidy.self receiver present
      have proper := tidy.proper receiver present
      have member : entry ∈ s.net.inbox receiver :=
        Network.entry_of_take (Network.take_of_shift shifted)
      have stays : entry.2 ≠ .left (s.ctls receiver).ctx.self :=
        self.symm ▸ tidy.notLeft present entry member
      have members := Network.members_take (Network.take_of_shift shifted)
      obtain ⟨stillProper, sameSelf⟩ := Ctl.proper_handleNotice s.successor proper entry.1 stays
      refine (tidy.shift shifted).write (members.symm ▸ present)
        (Ctl.reacts_handleNotice s.successor proper ?_ known.about) (sameSelf.trans self)
        stillProper
        ((tidy.rosters receiver present).handleNotice s.successor ?_ proper stays known.announced)
      · rw [self]
        exact known.other
      · rw [self]
        exact tidy.filed.known receiver present
  | command id cmd present =>
      have same := Ctl.ctx_execute (s.ctls id) cmd
      refine tidy.write present (Ctl.reacts_execute _ cmd) ?_ ?_ ?_
      · rw [same]
        exact tidy.self id present
      · rw [Ctl.Proper, same]
        exact tidy.proper id present
      · rw [Ctl.RosterIn, Ctl.roster_execute]
        exact tidy.rosters id present

end Replicas

end Parley.Service
