/-
What a ctl service does with a notice or a command.

The mux calls one handler at a time.  A host announces what it holds after every
change.  Another end sends nothing but reports about itself, and takes from its
host the copy that is announced, until the departure of the host makes it the next
one.  `foresee` is the service when it has handled a list of notices.
-/

import Parley.Service.Node

namespace Parley.Service

open Session
open Wire (Bytes ParticipantID)

def Outgoing.msg : Outgoing → CtlMsg
  | .broadcast msg => msg
  | .sendTo _ msg => msg

/-- What a mux finds: notices of the relay, and ctl frames with the sender's
history variable. -/
inductive Notice where
  | joined (id : ParticipantID)
  | left (id : ParticipantID)
  | memo (msg : CtlMsg) (pruned : List ParticipantID)

namespace Ctl

/-- `ctlService.HandleFrame`; an error is an event of the mux. -/
def handleFrame (c : Ctl) (fromID : ParticipantID) (msg : CtlMsg) (pruned : List ParticipantID) :
    Ctl × List Outgoing :=
  match msg with
  | .announce a =>
      match c.handleAnnounce fromID a pruned with
      | .ok accepted => (accepted, [])
      | .error _ => (c, [])
  | .identity name endpoint => c.handleIdentity ctlServices fromID name endpoint
  | .snapshotReq => (c, c.handleSnapshotReq fromID ∅)
  | .snapshot _ =>
      match c.handleSnapshot fromID with
      | .ok accepted => (accepted, [])
      | .error _ => (c, [])
  | .other => (c, [])

/-- `MemberLeft`, and `maybeMigrate` as far as ctl is concerned. -/
def handleLeft (policy : SuccessorPolicy) (c : Ctl) (left : ParticipantID) :
    Ctl × List Outgoing :=
  let handled := c.memberLeft ctlServices left
  if left ≠ handled.1.ctx.hostID then handled
  else
    let successor := handled.1.electSuccessor policy left
    if successor = 0 then handled
    else if successor = handled.1.ctx.self then
      let attached := handled.1.attach { self := successor, hostID := successor, host := true }
      let assumed := attached.assumeHost ctlServices left
      (assumed.1, handled.2 ++ assumed.2)
    else (handled.1.attach { handled.1.ctx with hostID := successor }, handled.2)

def handleNotice (policy : SuccessorPolicy) (c : Ctl) (sender : ParticipantID) :
    Notice → Ctl × List Outgoing
  | .joined _ => (c, [])
  | .left id => c.handleLeft policy id
  | .memo msg pruned => c.handleFrame sender msg pruned

def execute (c : Ctl) : Command → Ctl × List Outgoing
  | .setName name => c.setName ctlServices name
  | .setEndpoint endpoint => c.setEndpoint ctlServices endpoint
  | .setPushKey key => c.setPushKey ctlServices key

end Ctl

section

variable {prim : Crypto.Primitives}

theorem Mux.handleCtl_eq (m : Mux) (fromID : ParticipantID) (msg : CtlMsg)
    (pruned : List ParticipantID) :
    (m.handleCtl prim fromID msg pruned).1.ctl = (m.ctl.handleFrame fromID msg pruned).1 ∧
      (m.handleCtl prim fromID msg pruned).2 =
        (m.ctl.handleFrame fromID msg pruned).2.map (fun out =>
          .sealing out (m.ctl.handleFrame fromID msg pruned).1.pruned) := by
  cases msg with
  | announce a =>
      simp only [Mux.handleCtl, Ctl.handleFrame]
      cases m.ctl.handleAnnounce fromID a pruned <;> exact ⟨rfl, rfl⟩
  | snapshot blobs =>
      simp only [Mux.handleCtl, Ctl.handleFrame]
      cases m.ctl.handleSnapshot fromID <;> exact ⟨rfl, rfl⟩
  | identity name endpoint => exact ⟨rfl, rfl⟩
  | snapshotReq => exact ⟨rfl, rfl⟩
  | other => exact ⟨rfl, rfl⟩

theorem Node.command_eq (n : Node prim) (cmd : Command) :
    (n.command cmd).mux.ctl = (n.mux.ctl.execute cmd).1 ∧
      (n.command cmd).todo = (n.mux.ctl.execute cmd).2.map (fun out =>
        .sealing out (n.mux.ctl.execute cmd).1.pruned) := by
  cases cmd <;> exact ⟨rfl, rfl⟩

theorem Ctl.ctx_memberLeft (c : Ctl) (left : ParticipantID) :
    (c.memberLeft ctlServices left).1.ctx = c.ctx := by
  unfold Ctl.memberLeft
  split <;> rfl

theorem Ctl.handleLeft_of_stays (policy : SuccessorPolicy) {c : Ctl} {left : ParticipantID}
    (stays : left ≠ c.ctx.hostID) : c.handleLeft policy left = c.memberLeft ctlServices left := by
  simp only [Ctl.handleLeft, Ctl.ctx_memberLeft, if_pos stays]

end

structure Copy where
  roster : GoMap ParticipantID Role
  names : GoMap ParticipantID Name
  endpoints : GoMap ParticipantID Bytes
  pushKey : Bytes

namespace Ctl

def copy (c : Ctl) : Copy :=
  { roster := c.roster
    names := c.names
    endpoints := c.endpoints
    pushKey := c.pushKey }

/-- What an announce says: of names and endpoints, those of current members that
are not empty. -/
def published (c : Ctl) : Copy :=
  { roster := c.roster
    names := currentOnly c.roster c.names []
    endpoints := currentOnly c.roster c.endpoints []
    pushKey := c.pushKey }

end Ctl

def CtlMsg.announced : CtlMsg → Option Copy
  | .announce a =>
      some
        { roster := a.roster
          names := a.names
          endpoints := a.endpoints
          pushKey := a.pushKey }
  | _ => none

def Notice.announced : Notice → Option Copy
  | .memo msg _ => msg.announced
  | _ => none

def Notice.isIdentity : Notice → Bool
  | .memo (.identity _ _) _ => true
  | _ => false

def Outgoing.isRequest : Outgoing → Bool
  | .sendTo _ (.identity _ _) => true
  | .sendTo _ .snapshotReq => true
  | _ => false

def latest (announced : List (Option Copy)) : Option Copy :=
  (announced.filterMap id).getLast?

theorem latest_cons (first : Option Copy) (rest : List (Option Copy)) (copy : Copy) :
    (latest (first :: rest)).getD copy = (latest rest).getD (first.getD copy) := by
  cases first with
  | none => rfl
  | some announced =>
      simp only [latest, List.filterMap_cons, id, List.getLast?_cons, Option.getD_some]

theorem latest_of_none {announced : List (Option Copy)}
    (nothing : ∀ copy ∈ announced, copy = none) : latest announced = none := by
  have empty : announced.filterMap id = [] := List.filterMap_eq_nil_iff.mpr nothing
  rw [latest, empty, List.getLast?_nil]

theorem latest_append_of_none {before after : List (Option Copy)}
    (nothing : ∀ copy ∈ after, copy = none) : latest (before ++ after) = latest before := by
  have empty : after.filterMap id = [] := List.filterMap_eq_nil_iff.mpr nothing
  rw [latest, List.filterMap_append, empty, List.append_nil, latest]

theorem latest_of_tail {first : Option Copy} {rest : List (Option Copy)} {copy : Copy}
    (isLatest : latest rest = some copy) : latest (first :: rest) = some copy := by
  cases first with
  | none => exact isLatest
  | some announced =>
      have later : (rest.filterMap id).getLast? = some copy := isLatest
      change (announced :: rest.filterMap id).getLast? = some copy
      rw [List.getLast?_cons, later, Option.getD_some]

theorem latest_cons_congr (first : Option Copy) {rest rest' : List (Option Copy)}
    (same : latest rest = latest rest') : latest (first :: rest) = latest (first :: rest') := by
  cases first with
  | none => exact same
  | some announced =>
      have later : (rest.filterMap id).getLast? = (rest'.filterMap id).getLast? := same
      change (announced :: rest.filterMap id).getLast? = (announced :: rest'.filterMap id).getLast?
      rw [List.getLast?_cons, List.getLast?_cons, later]

theorem latest_concat (before : List (Option Copy)) (copy : Copy) :
    latest (before ++ [some copy]) = some copy := by
  simp only [latest, List.filterMap_append, List.filterMap_cons, List.filterMap_nil, id,
    List.getLast?_concat]

namespace Ctl

variable {c : Ctl}

def Proper (c : Ctl) : Prop := c.ctx.host = true ↔ c.ctx.hostID = c.ctx.self

/-- A host announces what it holds then, or changes nothing.  Another end sends
nothing but reports, until it takes over. -/
inductive Reacts (c : Ctl) : Ctl × List Outgoing → Prop
  | announces {next : Ctl} (host : c.ctx.host = true) (same : next.ctx = c.ctx) :
      Reacts c (next, [next.announce ctlServices])
  | answers {outs : List Outgoing} (host : c.ctx.host = true)
      (answer : ∀ out ∈ outs, ∃ toID msg, out = .sendTo toID msg ∧ toID ≠ c.ctx.self ∧
        msg.announced = none) :
      Reacts c (c, outs)
  | hears {next : Ctl} (member : c.ctx.host = false) (still : next.ctx.host = false) :
      Reacts c (next, [])
  | reports {next : Ctl} (name : Name) (endpoint : Bytes) (member : c.ctx.host = false)
      (same : next.ctx = c.ctx) :
      Reacts c (next, [.sendTo c.ctx.hostID (.identity name endpoint)])
  | takesOver {next : Ctl} (member : c.ctx.host = false) (isHost : next.ctx.host = true) :
      Reacts c (next, [next.announce ctlServices])

theorem Reacts.silent (c : Ctl) : c.Reacts (c, []) := by
  cases host : c.ctx.host with
  | true => exact .answers host (List.forall_mem_nil _)
  | false => exact .hears host host

theorem Reacts.of_member {result : Ctl × List Outgoing} (reacts : c.Reacts result)
    (still : result.1.ctx.host = false) :
    c.ctx.host = false ∧ ∀ out ∈ result.2, out.isRequest = true := by
  cases reacts with
  | announces host same =>
      rw [same] at still
      exact absurd (still.symm.trans host) Bool.false_ne_true
  | answers host answer => exact absurd (still.symm.trans host) Bool.false_ne_true
  | hears member _ => exact ⟨member, List.forall_mem_nil _⟩
  | reports name endpoint member same =>
      refine ⟨member, fun out sent => ?_⟩
      rw [List.mem_singleton.mp sent]
      rfl
  | takesOver member isHost => exact absurd (still.symm.trans isHost) Bool.false_ne_true

theorem memberKeyed_of_member (member : c.ctx.host = false) (id : ParticipantID) (role : Role) :
    c.memberKeyed ctlServices id role = (c, []) := by
  simp only [memberKeyed, member, Bool.false_eq_true, if_false]

theorem memberLeft_of_member (member : c.ctx.host = false) (id : ParticipantID) :
    c.memberLeft ctlServices id = (c, []) := by
  simp only [memberLeft, member, Bool.false_eq_true, if_false]

theorem reacts_memberKeyed (c : Ctl) (id : ParticipantID) (role : Role) :
    c.Reacts (c.memberKeyed ctlServices id role) := by
  cases host : c.ctx.host with
  | true =>
      rw [memberKeyed, if_pos host]
      exact .announces host rfl
  | false =>
      rw [memberKeyed_of_member host]
      exact .silent c

theorem reacts_execute (c : Ctl) (cmd : Command) : c.Reacts (c.execute cmd) := by
  cases host : c.ctx.host with
  | true =>
      cases cmd with
      | setName name =>
          simp only [execute, setName, host, if_true]
          split
          · exact .silent c
          · exact .announces host rfl
      | setEndpoint endpoint =>
          simp only [execute, setEndpoint, host, if_true]
          exact .announces host rfl
      | setPushKey key =>
          simp only [execute, setPushKey, host, if_true]
          exact .announces host rfl
  | false =>
      cases cmd with
      | setName name =>
          simp only [execute, setName, host, Bool.false_eq_true, if_false]
          split
          · exact .silent c
          · exact .reports _ _ host rfl
      | setEndpoint endpoint =>
          simp only [execute, setEndpoint, host, Bool.false_eq_true, if_false]
          exact .reports _ _ host rfl
      | setPushKey key =>
          simp only [execute, setPushKey, host, Bool.false_eq_true, if_false]
          exact .silent c

theorem execute_of_member (member : c.ctx.host = false) (cmd : Command) :
    c.execute cmd = (c, []) ∨
      ∃ name endpoint, (c.execute cmd).2 = [.sendTo c.ctx.hostID (.identity name endpoint)] := by
  cases cmd with
  | setName name =>
      simp only [execute, setName, member, Bool.false_eq_true, if_false]
      split
      · exact Or.inl rfl
      · exact Or.inr ⟨_, _, rfl⟩
  | setEndpoint endpoint =>
      simp only [execute, setEndpoint, member, Bool.false_eq_true, if_false]
      exact Or.inr ⟨_, _, rfl⟩
  | setPushKey key =>
      simp only [execute, setPushKey, member, Bool.false_eq_true, if_false]
      exact Or.inl trivial

theorem ctx_execute (c : Ctl) (cmd : Command) : (c.execute cmd).1.ctx = c.ctx := by
  cases cmd with
  | setName name =>
      simp only [execute, setName]
      split
      · rfl
      · split <;> rfl
  | setEndpoint endpoint =>
      simp only [execute, setEndpoint]
      split <;> rfl
  | setPushKey key =>
      simp only [execute, setPushKey]
      split <;> rfl

theorem ctx_memberKeyed (c : Ctl) (id : ParticipantID) (role : Role) :
    (c.memberKeyed ctlServices id role).1.ctx = c.ctx := by
  unfold memberKeyed
  split <;> rfl

theorem ctx_handleFrame (c : Ctl) (fromID : ParticipantID) (msg : CtlMsg)
    (pruned : List ParticipantID) : (c.handleFrame fromID msg pruned).1.ctx = c.ctx := by
  cases msg with
  | announce a =>
      simp only [handleFrame, handleAnnounce]
      by_cases fromHost : fromID = c.ctx.hostID
      · simp only [if_pos fromHost]
      · simp only [if_neg fromHost]
  | identity name endpoint =>
      simp only [handleFrame, handleIdentity]
      split <;> rfl
  | snapshotReq => rfl
  | snapshot blobs =>
      simp only [handleFrame, handleSnapshot]
      by_cases fromHost : fromID = c.ctx.hostID
      · simp only [if_pos fromHost]
      · simp only [if_neg fromHost]
  | other => rfl

theorem silent_handleFrame (member : c.ctx.host = false) (fromID : ParticipantID) (msg : CtlMsg)
    (pruned : List ParticipantID) : (c.handleFrame fromID msg pruned).2 = [] := by
  cases msg with
  | announce a =>
      simp only [handleFrame]
      cases c.handleAnnounce fromID a pruned <;> rfl
  | identity name endpoint =>
      simp only [handleFrame, handleIdentity, member, Bool.false_eq_true, if_false]
  | snapshotReq => simp only [handleFrame, handleSnapshotReq, member, Bool.false_eq_true, if_false]
  | snapshot blobs =>
      simp only [handleFrame]
      cases c.handleSnapshot fromID <;> rfl
  | other => rfl

theorem reacts_handleFrame (proper : c.Proper) {fromID : ParticipantID}
    (notSelf : fromID ≠ c.ctx.self) (msg : CtlMsg) (pruned : List ParticipantID) :
    c.Reacts (c.handleFrame fromID msg pruned) := by
  cases host : c.ctx.host with
  | false =>
      have still : (c.handleFrame fromID msg pruned).1.ctx.host = false := by
        rw [ctx_handleFrame, host]
      rw [show c.handleFrame fromID msg pruned = ((c.handleFrame fromID msg pruned).1, []) from
        Prod.ext rfl (silent_handleFrame host fromID msg pruned)]
      exact .hears host still
  | true =>
      have notHost : fromID ≠ c.ctx.hostID := fun same => notSelf (same.trans (proper.mp host))
      cases msg with
      | announce a =>
          simp only [handleFrame, handleAnnounce, if_neg notHost]
          exact .silent c
      | identity name endpoint =>
          simp only [handleFrame, handleIdentity, host, if_true]
          exact .announces host rfl
      | snapshotReq =>
          simp only [handleFrame, handleSnapshotReq, host, if_true]
          refine .answers host (fun out member => ?_)
          exact ⟨fromID, _, List.mem_singleton.mp member, notSelf, rfl⟩
      | snapshot blobs =>
          simp only [handleFrame, handleSnapshot, if_neg notHost]
          exact .silent c
      | other => exact .silent c

theorem handleLeft_of_host (policy : SuccessorPolicy) (member : c.ctx.host = false) :
    c.handleLeft policy c.ctx.hostID =
      let successor := c.electSuccessor policy c.ctx.hostID
      if successor = 0 then (c, [])
      else if successor = c.ctx.self then
        (c.attach { self := successor, hostID := successor, host := true }).assumeHost ctlServices
          c.ctx.hostID
      else ({ c with ctx := { c.ctx with hostID := successor } }, []) := by
  have unchanged : ∀ successor, c.attach { c.ctx with hostID := successor } =
      { c with ctx := { c.ctx with hostID := successor } } := by
    intro successor
    simp only [attach, member, Bool.false_eq_true, if_false]
  simp only [handleLeft, memberLeft_of_member member, ne_eq, not_true_eq_false, if_false,
    List.nil_append, unchanged]

variable {entries : List (ParticipantID × Notice)} {notice : Notice} {sender id : ParticipantID}

theorem reacts_handleNotice (policy : SuccessorPolicy) (proper : c.Proper)
    (notSelf : sender ≠ c.ctx.self) (about : ∀ id, notice = .left id → id = sender) :
    c.Reacts (c.handleNotice policy sender notice) := by
  cases notice with
  | joined id => exact .silent c
  | memo msg pruned => exact reacts_handleFrame proper notSelf msg pruned
  | left id =>
      have subject := about id rfl
      subst subject
      simp only [handleNotice]
      cases host : c.ctx.host with
      | true =>
          have stays : id ≠ c.ctx.hostID := fun same => notSelf (same.trans (proper.mp host))
          rw [handleLeft_of_stays policy stays, memberLeft, if_pos host]
          exact .announces host rfl
      | false =>
          by_cases stays : id = c.ctx.hostID
          · rw [stays, handleLeft_of_host policy host]
            simp only
            split
            · exact .silent c
            · split
              · exact .takesOver host rfl
              · exact .hears host host
          · rw [handleLeft_of_stays policy stays, memberLeft_of_member host]
            exact .silent c

theorem handleNotice_identity (policy : SuccessorPolicy) (host : c.ctx.host = true)
    (sender : ParticipantID) {notice : Notice} (isIdentity : notice.isIdentity = true) :
    (c.handleNotice policy sender notice).2 =
      [(c.handleNotice policy sender notice).1.announce ctlServices] := by
  cases notice with
  | joined id => cases isIdentity
  | left id => cases isIdentity
  | memo msg pruned =>
      cases msg with
      | identity name endpoint =>
          simp only [handleNotice, handleFrame, handleIdentity, host, if_true]
      | announce a | snapshotReq | snapshot blobs | other => cases isIdentity

theorem ctx_handleNotice (policy : SuccessorPolicy) (sender : ParticipantID)
    (stays : notice ≠ .left c.ctx.hostID) :
    (c.handleNotice policy sender notice).1.ctx = c.ctx := by
  cases notice with
  | joined id => rfl
  | memo msg pruned => exact ctx_handleFrame c sender msg pruned
  | left id =>
      have other : id ≠ c.ctx.hostID := fun same => stays (congrArg Notice.left same)
      simp only [handleNotice, handleLeft_of_stays policy other, ctx_memberLeft]

theorem proper_handleNotice (policy : SuccessorPolicy) (proper : c.Proper) (sender : ParticipantID)
    (stays : notice ≠ .left c.ctx.self) :
    (c.handleNotice policy sender notice).1.Proper ∧
      (c.handleNotice policy sender notice).1.ctx.self = c.ctx.self := by
  by_cases ofHost : notice = .left c.ctx.hostID
  · have member : c.ctx.host = false := by
      cases host : c.ctx.host with
      | false => rfl
      | true => exact absurd (proper.mp host ▸ ofHost) stays
    subst ofHost
    simp only [handleNotice, handleLeft_of_host policy member]
    split
    · exact ⟨proper, rfl⟩
    · split
      · rename_i elected
        exact ⟨iff_of_true rfl rfl, elected⟩
      · rename_i notElected
        exact ⟨iff_of_false (by rw [member]; exact Bool.false_ne_true) notElected, rfl⟩
  · have same := ctx_handleNotice policy sender ofHost
    simp only [Proper, same]
    exact ⟨proper, trivial⟩

theorem roster_handleNotice_of_host (policy : SuccessorPolicy) (proper : c.Proper)
    (host : c.ctx.host = true) (notSelf : sender ≠ c.ctx.self)
    (about : ∀ id, notice = .left id → id = sender)
    (member : id ∈ (c.handleNotice policy sender notice).1.roster) :
    id ∈ c.roster ∧ notice ≠ .left id := by
  have notHost : sender ≠ c.ctx.hostID := fun same => notSelf (same.trans (proper.mp host))
  cases notice with
  | joined other => exact ⟨member, fun isLeft => by cases isLeft⟩
  | left other =>
      have stays : other ≠ c.ctx.hostID := by
        rw [about other rfl]
        exact notHost
      simp only [handleNotice, handleLeft_of_stays policy stays, memberLeft, if_pos host, remove]
        at member
      obtain ⟨differ, old⟩ := AList.mem_erase.mp member
      exact ⟨old, fun isLeft => differ (Notice.left.inj isLeft).symm⟩
  | memo msg pruned =>
      refine ⟨?_, fun isLeft => by cases isLeft⟩
      cases msg with
      | announce a =>
          simpa only [handleNotice, handleFrame, handleAnnounce, if_neg notHost] using member
      | identity name endpoint =>
          simpa only [handleNotice, handleFrame, handleIdentity, host, if_true] using member
      | snapshotReq => exact member
      | snapshot blobs =>
          simpa only [handleNotice, handleFrame, handleSnapshot, if_neg notHost] using member
      | other => exact member

theorem handleNotice_of_other (policy : SuccessorPolicy) (member : c.ctx.host = false)
    (other : sender ≠ c.ctx.hostID) (about : ∀ id, notice = .left id → id = sender) :
    (c.handleNotice policy sender notice).1 = c := by
  cases notice with
  | joined id => rfl
  | left id =>
      have stays : id ≠ c.ctx.hostID := by
        rw [about id rfl]
        exact other
      simp only [handleNotice, handleLeft_of_stays policy stays, memberLeft_of_member member]
  | memo msg pruned =>
      cases msg with
      | announce a => simp only [handleNotice, handleFrame, handleAnnounce, if_neg other]
      | identity name endpoint =>
          simp only [handleNotice, handleFrame, handleIdentity, member, Bool.false_eq_true,
            if_false]
      | snapshotReq => rfl
      | snapshot blobs => simp only [handleNotice, handleFrame, handleSnapshot, if_neg other]
      | other => rfl

theorem copy_handleFrame_of_host (member : c.ctx.host = false) (msg : CtlMsg)
    (pruned : List ParticipantID) :
    (c.handleFrame c.ctx.hostID msg pruned).1.copy = msg.announced.getD c.copy := by
  cases msg with
  | announce a =>
      simp only [handleFrame, handleAnnounce, if_true]
      rfl
  | identity name endpoint =>
      simp only [handleFrame, handleIdentity, member, Bool.false_eq_true, if_false]
      rfl
  | snapshotReq => rfl
  | snapshot blobs =>
      simp only [handleFrame, handleSnapshot, if_true]
      rfl
  | other => rfl

def RosterIn (used : List ParticipantID) (c : Ctl) : Prop := ∀ id ∈ c.roster, id ∈ used

section

variable {used : List ParticipantID}

theorem RosterIn.insert (within : c.RosterIn used) (known : id ∈ used) (role : Role) :
    ∀ other ∈ c.roster.insert id role, other ∈ used := by
  intro other member
  rcases (AList.mem_insert c.roster).mp member with rfl | old
  · exact known
  · exact within other old

theorem RosterIn.remove (within : c.RosterIn used) (id : ParticipantID) :
    (c.remove id).RosterIn used :=
  fun other member => within other (AList.mem_erase.mp member).2

theorem RosterIn.attach (within : c.RosterIn used) {ctx : Context} (known : ctx.self ∈ used) :
    (c.attach ctx).RosterIn used := by
  simp only [Ctl.attach, RosterIn]
  split
  · exact within.insert known roleHost
  · exact within

theorem RosterIn.assumeHost (within : c.RosterIn used) (leaver : ParticipantID)
    (known : c.ctx.self ∈ used) : (c.assumeHost ctlServices leaver).1.RosterIn used :=
  (within.remove leaver).insert known roleHost

theorem RosterIn.memberKeyed (within : c.RosterIn used) (known : id ∈ used) (role : Role) :
    (c.memberKeyed ctlServices id role).1.RosterIn used := by
  unfold Ctl.memberKeyed
  split
  · exact within.insert known role
  · exact within

theorem roster_execute (c : Ctl) (cmd : Command) : (c.execute cmd).1.roster = c.roster := by
  cases cmd with
  | setName name =>
      simp only [execute, setName]
      split
      · rfl
      · split <;> rfl
  | setEndpoint endpoint =>
      simp only [execute, setEndpoint]
      split <;> rfl
  | setPushKey key =>
      simp only [execute, setPushKey]
      split <;> rfl

theorem RosterIn.handleFrame (within : c.RosterIn used) (fromID : ParticipantID) {msg : CtlMsg}
    (known : ∀ copy, msg.announced = some copy → ∀ id ∈ copy.roster, id ∈ used)
    (pruned : List ParticipantID) : (c.handleFrame fromID msg pruned).1.RosterIn used := by
  cases msg with
  | announce a =>
      simp only [Ctl.handleFrame, Ctl.handleAnnounce]
      by_cases fromHost : fromID = c.ctx.hostID
      · simp only [if_pos fromHost]
        exact known _ rfl
      · simp only [if_neg fromHost]
        exact within
  | identity name endpoint =>
      simp only [Ctl.handleFrame, Ctl.handleIdentity]
      split <;> exact within
  | snapshotReq => exact within
  | snapshot blobs =>
      simp only [Ctl.handleFrame, Ctl.handleSnapshot]
      by_cases fromHost : fromID = c.ctx.hostID
      · simp only [if_pos fromHost]
        exact within
      · simp only [if_neg fromHost]
        exact within
  | other => exact within

theorem RosterIn.memberLeft (within : c.RosterIn used) (id : ParticipantID) :
    (c.memberLeft ctlServices id).1.RosterIn used := by
  unfold Ctl.memberLeft
  split
  · exact within.remove id
  · exact within

theorem RosterIn.handleNotice (within : c.RosterIn used) (policy : SuccessorPolicy)
    (known : c.ctx.self ∈ used) (proper : c.Proper) (stays : notice ≠ .left c.ctx.self)
    (announced : ∀ copy, notice.announced = some copy → ∀ id ∈ copy.roster, id ∈ used) :
    (c.handleNotice policy sender notice).1.RosterIn used := by
  cases notice with
  | joined id => exact within
  | memo msg pruned => exact within.handleFrame sender announced pruned
  | left id =>
      by_cases ofHost : id = c.ctx.hostID
      · have member : c.ctx.host = false := by
          cases host : c.ctx.host with
          | false => rfl
          | true => exact absurd (congrArg Notice.left (ofHost.trans (proper.mp host))) stays
        rw [ofHost, Ctl.handleNotice, handleLeft_of_host policy member]
        simp only
        split
        · exact within
        · split
          · rename_i elected
            exact (within.attach (elected ▸ known)).assumeHost c.ctx.hostID (elected ▸ known)
          · exact within
      · simp only [Ctl.handleNotice, handleLeft_of_stays policy ofHost]
        exact within.memberLeft id

end

/-! ### What an end will hold -/

/-- The end when it has handled these notices, from whom each came. -/
def foresee (policy : SuccessorPolicy) (c : Ctl) (entries : List (ParticipantID × Notice)) : Ctl :=
  entries.foldl (fun held entry => (held.handleNotice policy entry.1 entry.2).1) c

theorem foresee_append (policy : SuccessorPolicy) (c : Ctl)
    (first second : List (ParticipantID × Notice)) :
    c.foresee policy (first ++ second) = (c.foresee policy first).foresee policy second :=
  List.foldl_append

theorem ctx_foresee (policy : SuccessorPolicy)
    (stays : ∀ entry ∈ entries, entry.2 ≠ .left c.ctx.hostID) :
    (c.foresee policy entries).ctx = c.ctx := by
  induction entries generalizing c with
  | nil => rfl
  | cons entry rest ih =>
      have same := ctx_handleNotice policy entry.1 (stays entry List.mem_cons_self)
      refine (ih (fun other member => ?_)).trans same
      rw [same]
      exact stays other (List.mem_cons_of_mem entry member)

theorem proper_foresee (policy : SuccessorPolicy) (proper : c.Proper)
    (stays : ∀ entry ∈ entries, entry.2 ≠ .left c.ctx.self) :
    (c.foresee policy entries).Proper ∧ (c.foresee policy entries).ctx.self = c.ctx.self := by
  induction entries generalizing c with
  | nil => exact ⟨proper, rfl⟩
  | cons entry rest ih =>
      obtain ⟨still, same⟩ :=
        proper_handleNotice policy proper entry.1 (stays entry List.mem_cons_self)
      have later := ih still (fun other member => by
        rw [same]
        exact stays other (List.mem_cons_of_mem entry member))
      exact ⟨later.1, later.2.trans same⟩

theorem ctx_foresee_of_host (policy : SuccessorPolicy) (proper : c.Proper)
    (host : c.ctx.host = true) (stays : ∀ entry ∈ entries, entry.2 ≠ .left c.ctx.self) :
    (c.foresee policy entries).ctx = c.ctx :=
  ctx_foresee policy (fun entry member => proper.mp host ▸ stays entry member)

theorem foresee_memos (policy : SuccessorPolicy) (member : c.ctx.host = false)
    (memos : ∀ entry ∈ entries, entry.1 = c.ctx.hostID ∧ ∃ msg pruned, entry.2 = .memo msg pruned) :
    (c.foresee policy entries).ctx = c.ctx ∧
      (c.foresee policy entries).copy =
        (latest (entries.map (fun entry => entry.2.announced))).getD c.copy := by
  induction entries generalizing c with
  | nil => exact ⟨rfl, rfl⟩
  | cons entry rest ih =>
      obtain ⟨sender, msg, pruned, isMemo⟩ := memos entry List.mem_cons_self
      have same : (c.handleNotice policy entry.1 entry.2).1.ctx = c.ctx := by
        rw [isMemo]
        exact ctx_handleFrame c entry.1 msg pruned
      have held : (c.handleNotice policy entry.1 entry.2).1.copy =
          entry.2.announced.getD c.copy := by
        rw [isMemo, sender]
        exact copy_handleFrame_of_host member msg pruned
      obtain ⟨laterCtx, laterCopy⟩ := ih (by rw [same]; exact member)
        (fun other present => same ▸ memos other (List.mem_cons_of_mem entry present))
      refine ⟨laterCtx.trans same, laterCopy.trans ?_⟩
      rw [held, List.map_cons, latest_cons]

end Ctl

end Parley.Service
