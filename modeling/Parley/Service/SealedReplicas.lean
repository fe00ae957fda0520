/-
Names and endpoints when frames are sealed.

An end drops a ctl message that no key of its ring opens, and nobody sends it again.
After a migration this is to be expected: the new host changes the group key before
it announces, and a survivor that is not keyed yet cannot open that.  Here every
message may be one that its receiver has no key for.  Who misses an announce of its
host is behind until it opens a later one.  Where nothing else is missed, the run is
followed by one of the replicas that opens everything, so every end that is not
behind holds the last values of everybody.
-/

import Parley.Service.LastWrite

namespace Parley.Service

open Library Session
open Wire (ParticipantID)

structure SealedReplicas where
  replicas : Replicas
  /-- History: the end did not open the last announce of its host. -/
  missed : ParticipantID → Bool

inductive SealedAction where
  | opened (action : ReplicaAction)
  /-- An end takes a message that was sealed under a key it does not have. -/
  | unopened (receiver : ParticipantID)
  deriving DecidableEq

/-- What the replicas do that open everything. -/
def SealedAction.seen : SealedAction → ReplicaAction
  | .opened action => action
  | .unopened receiver => .handle receiver

namespace Notice

def isMemo : Notice → Bool
  | .memo _ _ => true
  | _ => false

def isAnnounce : Notice → Bool
  | .memo (.announce _) _ => true
  | _ => false

end Notice

/-- `handlePayload` drops the frame; only the history variable goes on. -/
def Ctl.drop (policy : SuccessorPolicy) (c : Ctl) (sender : ParticipantID) (notice : Notice) : Ctl :=
  { c with pruned := (c.handleNotice policy sender notice).1.pruned }

namespace SealedReplicas

def start (successor : SuccessorPolicy) (host : ParticipantID) : SealedReplicas :=
  { replicas := Replicas.start successor host
    missed := fun _ => false }

def noted (s : SealedReplicas) (lost : Bool) : ReplicaAction → ParticipantID → Bool
  | .enter id _ => Function.update s.missed id false
  | .handle receiver =>
      Function.update s.missed receiver
        (if (s.replicas.net.shift receiver).any (fun shifted => shifted.1.2.isAnnounce &&
            decide (shifted.1.1 = (s.replicas.ctls receiver).ctx.hostID)) then lost
        else s.missed receiver)
  | _ => s.missed

def step (fits : CtlMsg → Bool) (s : SealedReplicas) (action : SealedAction) :
    Option SealedReplicas :=
  match action with
  | .opened action =>
      (s.replicas.step fits action).map (fun next =>
        { replicas := next
          missed := s.noted false action })
  | .unopened receiver =>
      if receiver ∈ s.replicas.net.members then
        ((s.replicas.net.shift receiver).filter (fun shifted => shifted.1.2.isMemo)).map
          (fun shifted =>
            { replicas := Replicas.settle fits { s.replicas with net := shifted.2 } receiver
                ((s.replicas.ctls receiver).drop s.replicas.successor shifted.1.1 shifted.1.2, [])
              missed := s.noted true (.handle receiver) })
      else none

/-- Only announces are missed, and not by a host.  An end that is behind does not take
the departure of its host, and does not leave while that is in its inbox. -/
def Followed (s : SealedReplicas) (action : SealedAction) : Prop :=
  match action with
  | .opened (.leave id) =>
      (∃ entry ∈ s.replicas.net.inbox id,
        entry.2.isLeft (s.replicas.ctls id).ctx.hostID = true) → s.missed id = false
  | .opened (.handle receiver) =>
      ∀ shifted ∈ s.replicas.net.shift receiver,
        shifted.1.2.isLeft (s.replicas.ctls receiver).ctx.hostID = true → s.missed receiver = false
  | .opened _ => True
  | .unopened receiver =>
      (s.replicas.ctls receiver).ctx.host = false ∧
        ∀ shifted ∈ s.replicas.net.shift receiver, shifted.1.2.isAnnounce = true

instance Followed.decidable (s : SealedReplicas) (action : SealedAction) :
    Decidable (s.Followed action) := by
  dsimp only [Followed]
  split <;> infer_instance

def Careful (fits : CtlMsg → Bool) (s : SealedReplicas) (action : SealedAction) : Prop :=
  s.replicas.Careful fits action.seen ∧ s.Followed action

instance Careful.decidable (fits : CtlMsg → Bool) (s : SealedReplicas) (action : SealedAction) :
    Decidable (s.Careful fits action) :=
  inferInstanceAs (Decidable (_ ∧ _))

end SealedReplicas

/-! ### Copies that are behind -/

namespace Ctl

/-- What a member that missed announces still has in common with one that did not. -/
structure Behind (held full : Ctl) : Prop where
  ctx : held.ctx = full.ctx
  member : full.ctx.host = false
  selfName : held.selfName = full.selfName
  selfEndpoint : held.selfEndpoint = full.selfEndpoint
  pruned : held.pruned = full.pruned

def Follows (missed : Bool) (held full : Ctl) : Prop :=
  held = full ∨ missed = true ∧ held.Behind full

variable {c held full : Ctl} {missed : Bool} {notice : Notice} {sender : ParticipantID}

theorem Follows.common (follows : Follows missed held full) :
    held.ctx = full.ctx ∧ held.selfEndpoint = full.selfEndpoint ∧ held.pruned = full.pruned := by
  rcases follows with rfl | ⟨_, behind⟩
  · exact ⟨rfl, rfl, rfl⟩
  · exact ⟨behind.ctx, behind.selfEndpoint, behind.pruned⟩

theorem Follows.eq_of_heard (follows : Follows missed held full) (heard : missed = false) :
    held = full :=
  follows.resolve_right (fun behind => Bool.false_ne_true (heard.symm.trans behind.1))

theorem Follows.reportable (follows : Follows missed held full) {cmd : Command}
    (reportable : held.Reportable cmd) : full.Reportable cmd := by
  cases cmd with
  | setName name => exact reportable
  | setEndpoint endpoint =>
      rw [Reportable, ← follows.common.2.1]
      exact reportable
  | setPushKey key => trivial

theorem Follows.memberKeyed (follows : Follows missed held full) (id : ParticipantID)
    (role : Role) :
    (held.memberKeyed ctlServices id role).2 = (full.memberKeyed ctlServices id role).2 ∧
      Follows missed (held.memberKeyed ctlServices id role).1
        (full.memberKeyed ctlServices id role).1 := by
  rcases follows with rfl | ⟨isMissed, behind⟩
  · exact ⟨rfl, Or.inl rfl⟩
  · rw [memberKeyed_of_member (behind.ctx ▸ behind.member), memberKeyed_of_member behind.member]
    exact ⟨rfl, Or.inr ⟨isMissed, behind⟩⟩

theorem Follows.execute (follows : Follows missed held full) (cmd : Command) :
    (held.execute cmd).2 = (full.execute cmd).2 ∧
      Follows missed (held.execute cmd).1 (full.execute cmd).1 := by
  rcases follows with rfl | ⟨isMissed, behind⟩
  · exact ⟨rfl, Or.inl rfl⟩
  · have member := behind.member
    cases cmd with
    | setName name =>
        simp only [Ctl.execute, setName, behind.ctx, member, Bool.false_eq_true, if_false]
        split
        · exact ⟨rfl, Or.inr ⟨isMissed, behind⟩⟩
        · exact ⟨rfl, Or.inr ⟨isMissed, { behind with ctx := rfl, selfName := rfl }⟩⟩
    | setEndpoint endpoint =>
        simp only [Ctl.execute, setEndpoint, behind.ctx, member, Bool.false_eq_true, if_false]
        exact ⟨trivial, Or.inr ⟨isMissed, { behind with ctx := rfl, selfEndpoint := rfl }⟩⟩
    | setPushKey key =>
        simp only [Ctl.execute, setPushKey, behind.ctx, member, Bool.false_eq_true, if_false]
        exact ⟨trivial, Or.inr ⟨isMissed, behind⟩⟩

theorem handleNotice_of_idle (policy : SuccessorPolicy) (member : c.ctx.host = false)
    (idle : notice.isAnnounce = false) (stays : notice.isLeft c.ctx.hostID = false) :
    c.handleNotice policy sender notice = (c, []) := by
  cases notice with
  | joined id => rfl
  | left id =>
      have differ : id ≠ c.ctx.hostID := of_decide_eq_false stays
      rw [handleNotice, handleLeft_of_stays policy differ, memberLeft_of_member member]
  | memo msg pruned =>
      cases msg with
      | announce a => cases idle
      | identity name endpoint =>
          simp only [handleNotice, handleFrame, handleIdentity, member, Bool.false_eq_true, if_false]
      | snapshotReq =>
          simp only [handleNotice, handleFrame, handleSnapshotReq, member, Bool.false_eq_true,
            if_false]
      | snapshot blobs =>
          simp only [handleNotice, handleFrame, handleSnapshot]
          by_cases fromHost : sender = c.ctx.hostID
          · rw [if_pos fromHost]
          · rw [if_neg fromHost]
      | other => rfl

theorem Follows.handleNotice (follows : Follows missed held full) (policy : SuccessorPolicy)
    (sender : ParticipantID) (notice : Notice)
    (stays : notice.isLeft held.ctx.hostID = true → missed = false) :
    (held.handleNotice policy sender notice).2 = (full.handleNotice policy sender notice).2 ∧
      Follows (if notice.isAnnounce && decide (sender = held.ctx.hostID) then false else missed)
        (held.handleNotice policy sender notice).1 (full.handleNotice policy sender notice).1 := by
  rcases follows with rfl | ⟨isMissed, behind⟩
  · exact ⟨rfl, Or.inl rfl⟩
  · have still : Follows missed held full := Or.inr ⟨isMissed, behind⟩
    cases announced : notice.isAnnounce with
    | false =>
        have there : notice.isLeft held.ctx.hostID = false := by
          by_contra leaves
          have heard := stays ((Bool.not_eq_false _).mp leaves)
          exact Bool.false_ne_true (heard.symm.trans isMissed)
        rw [handleNotice_of_idle policy (behind.ctx ▸ behind.member) announced there,
          handleNotice_of_idle policy behind.member announced (behind.ctx ▸ there)]
        exact ⟨rfl, still⟩
    | true =>
        match notice, announced with
        | .memo (.announce a) pruned, _ =>
            by_cases fromHost : sender = full.ctx.hostID
            · simp only [Ctl.handleNotice, handleFrame, handleAnnounce, behind.ctx, if_pos fromHost]
              refine ⟨trivial, Or.inl ?_⟩
              -- An accepted announce replaces all that was missed.
              rw [behind.selfName, behind.selfEndpoint]
            · simp only [Ctl.handleNotice, handleFrame, handleAnnounce, behind.ctx, fromHost,
                decide_false, Bool.and_false, Bool.false_eq_true, if_false]
              exact ⟨trivial, still⟩

theorem Follows.drop (follows : Follows missed held full) (policy : SuccessorPolicy)
    (sender : ParticipantID) (member : held.ctx.host = false)
    (announced : notice.isAnnounce = true) :
    [] = (full.handleNotice policy sender notice).2 ∧
      Follows (if notice.isAnnounce && decide (sender = held.ctx.hostID) then true else missed)
        (held.drop policy sender notice) (full.handleNotice policy sender notice).1 := by
  match notice, announced with
  | .memo (.announce a) pruned, _ =>
      have same := follows.common.1
      by_cases fromHost : sender = full.ctx.hostID
      · simp only [Ctl.drop, Ctl.handleNotice, handleFrame, handleAnnounce, same, if_pos fromHost]
        refine ⟨trivial, Or.inr ⟨if_pos (decide_eq_true fromHost), ?_⟩⟩
        rcases follows with rfl | ⟨_, behind⟩
        · exact ⟨rfl, member, rfl, rfl, rfl⟩
        · exact { behind with ctx := rfl, pruned := rfl }
      · simp only [Ctl.drop, Ctl.handleNotice, handleFrame, handleAnnounce, same, fromHost,
          decide_false, Bool.and_false, Bool.false_eq_true, if_false]
        rw [← same]
        exact ⟨trivial, follows⟩

end Ctl

/-! ### The run that opens everything -/

namespace SealedReplicas

variable {s next : SealedReplicas} {fits : CtlMsg → Bool} {ctls : ParticipantID → Ctl}
  {id : ParticipantID} {held result : Ctl × List Outgoing} {r : Replicas}

def Shadowed (s : SealedReplicas) (ctls : ParticipantID → Ctl) : Prop :=
  ∀ id, Ctl.Follows (s.missed id) (s.replicas.ctls id) (ctls id)

/-- The replicas are the same, but for copies that are behind. -/
def Shadows (s : SealedReplicas) (full : Replicas) : Prop :=
  ∃ ctls, full = { s.replicas with ctls := ctls } ∧ s.Shadowed ctls

theorem shadows_settle (fits : CtlMsg → Bool) (id : ParticipantID) {missed : ParticipantID → Bool}
    {flag : Bool} (same : held.2 = result.2)
    (others : ∀ other, other ≠ id → Ctl.Follows (missed other) (r.ctls other) (ctls other))
    (follows : Ctl.Follows flag held.1 result.1) :
    Shadows { replicas := r.settle fits id held, missed := Function.update missed id flag }
      (Replicas.settle fits { r with ctls := ctls } id result) := by
  refine ⟨Function.update ctls id result.1, ?_, fun other => ?_⟩
  · simp only [Replicas.settle, Replicas.write, same, follows.common.2.2]
  · by_cases here : other = id
    · subst here
      simp only [Replicas.settle, Replicas.write, Function.update_self]
      exact follows
    · simp only [Replicas.settle, Replicas.write, Function.update_of_ne here]
      exact others other here

theorem Shadowed.careful (shadowed : s.Shadowed ctls) {action : SealedAction}
    (careful : s.Careful fits action) :
    Replicas.Careful fits { s.replicas with ctls := ctls } action.seen := by
  obtain ⟨⟨fitting, sane⟩, followed⟩ := careful
  cases action with
  | unopened receiver =>
      refine ⟨fun performed isHandler _ => ?_, trivial⟩
      obtain ⟨shifted, isShifted, rfl⟩ := Option.map_eq_some_iff.mp isHandler
      rw [← ((shadowed receiver).drop _ _ followed.1 (followed.2 shifted isShifted)).1]
      exact List.forall_mem_nil _
  | opened action =>
      cases action with
      | enter id host | route sender => exact ⟨fitting, sane⟩
      | leave id =>
          refine ⟨fitting, fun leads => ?_⟩
          rcases shadowed id with same | ⟨isMissed, behind⟩
          · simp only [SealedAction.seen, Replicas.Relieved, Replicas.foreseen, same] at sane
            exact sane leads
          · have stays : ∀ entry ∈ s.replicas.net.inbox id,
                entry.2 ≠ .left (ctls id).ctx.hostID := by
              intro entry waits departs
              have heard := followed ⟨entry, waits, by simp [departs, behind.ctx, Notice.isLeft]⟩
              exact Bool.false_ne_true (heard.symm.trans isMissed)
            rw [Replicas.foreseen, Ctl.ctx_foresee _ stays] at leads
            exact absurd (behind.member.symm.trans leads) Bool.false_ne_true
      | keyed host id role =>
          refine ⟨fun performed isHandler _ => ?_, trivial⟩
          cases isHandler
          simp only [← ((shadowed host).memberKeyed id role).1]
          exact fitting _ rfl rfl
      | command id cmd =>
          refine ⟨fun performed isHandler _ => ?_, ?_⟩
          · cases isHandler
            simp only [← ((shadowed id).execute cmd).1]
            exact fitting _ rfl rfl
          · simp only [SealedAction.seen, ← (shadowed id).common.1]
            exact ⟨sane.1, fun member => (shadowed id).reportable (sane.2 member)⟩
      | handle receiver =>
          refine ⟨fun performed isHandler _ => ?_, trivial⟩
          obtain ⟨shifted, isShifted, rfl⟩ := Option.map_eq_some_iff.mp isHandler
          simp only [← ((shadowed receiver).handleNotice _ _ _ (followed shifted isShifted)).1]
          exact fitting _ (Option.map_eq_some_iff.mpr ⟨_, isShifted, rfl⟩) rfl

theorem Shadowed.step (shadowed : s.Shadowed ctls) {action : SealedAction}
    (followed : s.Followed action) (stepped : s.step fits action = some next) :
    ∃ full, Replicas.step fits { s.replicas with ctls := ctls } action.seen = some full ∧
      next.Shadows full := by
  cases action with
  | unopened receiver =>
      obtain ⟨present, taken⟩ := Option.ite_none_right_eq_some.mp stepped
      obtain ⟨shifted, isSealed, rfl⟩ := Option.map_eq_some_iff.mp taken
      have isShifted := (Option.filter_eq_some_iff.mp isSealed).1
      have both := (shadowed receiver).drop s.replicas.successor shifted.1.1 followed.1
        (followed.2 shifted isShifted)
      refine ⟨_, (if_pos present).trans (congrArg (Option.map _) isShifted), ?_⟩
      simp only [noted, isShifted, Option.any_some]
      exact shadows_settle fits receiver both.1 (fun other _ => shadowed other) both.2
  | opened action =>
      obtain ⟨after, moved, rfl⟩ := Option.map_eq_some_iff.mp stepped
      cases action with
      | enter id host =>
          obtain ⟨guard, same⟩ := Option.ite_none_left_eq_some.mp moved
          cases same
          rw [(shadowed host).common.1] at guard
          exact ⟨_, if_neg guard, shadows_settle fits id rfl (fun other _ => shadowed other)
            (Or.inl rfl)⟩
      | keyed host id role =>
          obtain ⟨guard, same⟩ := Option.ite_none_right_eq_some.mp moved
          cases same
          have both := (shadowed host).memberKeyed id role
          have settled := shadows_settle fits host both.1 (fun other _ => shadowed other) both.2
          rw [Function.update_eq_self] at settled
          exact ⟨_, if_pos guard, settled⟩
      | leave id =>
          obtain ⟨present, departs⟩ := Option.ite_none_right_eq_some.mp moved
          obtain ⟨net, left, rfl⟩ := Option.map_eq_some_iff.mp departs
          exact ⟨_, (if_pos present).trans (congrArg (Option.map _) left), ctls, rfl, shadowed⟩
      | route sender =>
          obtain ⟨net, routed, rfl⟩ := Option.map_eq_some_iff.mp moved
          exact ⟨_, congrArg (Option.map _) routed, ctls, rfl, shadowed⟩
      | handle receiver =>
          obtain ⟨present, taken⟩ := Option.ite_none_right_eq_some.mp moved
          obtain ⟨shifted, isShifted, rfl⟩ := Option.map_eq_some_iff.mp taken
          have both := (shadowed receiver).handleNotice s.replicas.successor shifted.1.1 _
            (followed shifted isShifted)
          refine ⟨_, (if_pos present).trans (congrArg (Option.map _) isShifted), ?_⟩
          simp only [noted, isShifted, Option.any_some]
          exact shadows_settle fits receiver both.1 (fun other _ => shadowed other) both.2
      | command id cmd =>
          obtain ⟨present, same⟩ := Option.ite_none_right_eq_some.mp moved
          cases same
          have both := (shadowed id).execute cmd
          have settled := shadows_settle fits id both.1 (fun other _ => shadowed other) both.2
          rw [Function.update_eq_self] at settled
          exact ⟨_, if_pos present, settled⟩

/-- There, and in the roster of an end that is not behind. -/
def Current (s : SealedReplicas) (id : ParticipantID) : Prop :=
  id ∈ s.replicas.net.members ∧
    ∃ other ∈ s.replicas.net.members, s.missed other = false ∧ id ∈ (s.replicas.ctls other).roster

theorem Shadowed.current (shadowed : s.Shadowed ctls) (current : s.Current id) :
    Replicas.Current { s.replicas with ctls := ctls } id := by
  obtain ⟨present, other, otherPresent, heard, inRoster⟩ := current
  rw [(shadowed other).eq_of_heard heard] at inRoster
  exact ⟨present, other, otherPresent, inRoster⟩

instance Current.decidable (s : SealedReplicas) (id : ParticipantID) : Decidable (s.Current id) :=
  have : Decidable (∃ other ∈ s.replicas.net.members,
    s.missed other = false ∧ id ∈ (s.replicas.ctls other).roster) := List.decidableBEx _ _
  inferInstanceAs (Decidable (_ ∧ _))

end SealedReplicas

end Parley.Service
