/-
Rosters and the departures they reflect.

A copy of the roster is free of everybody its history variable names: an
authoritative end removes a participant after its departure and nobody puts it
back, and a copy that is handed on keeps what it is rid of.  The lemmas go through
the handlers of ctl and the tasks of the mux.
-/

import Parley.Service.Conduct

namespace Parley.Service

open Crypto Library Session
open Wire (Bytes ParticipantID SessionID)

variable {prim : Primitives}

def CtlOk (f : Facts) (c : Ctl) : Prop :=
  ∀ id ∈ c.pruned, f.gone id ∧ id ∉ c.roster

def OutgoingOk (f : Facts) (pruned : List ParticipantID) : Outgoing → Prop
  | .broadcast msg => BodyOk f.gone (.ctl msg pruned)
  | .sendTo _ msg => (Body.ctl msg pruned).isAnnounce = false

/-- What a handler guarantees about the service and what it sends. -/
structure HandlerOk (f : Facts) (c : Ctl) (result : Ctl × List Outgoing) : Prop where
  ctl : CtlOk f result.1
  sends : ∀ out ∈ result.2, OutgoingOk f result.1.pruned out
  sameCtx : result.1.ctx = c.ctx

section

variable {f : Facts} {c : Ctl}

theorem CtlOk.mono {f' : Facts} (ok : CtlOk f c) (grow : f.Grow f') : CtlOk f' c :=
  fun id member => ⟨grow.gone id (ok id member).1, (ok id member).2⟩

theorem CtlOk.silent (ok : CtlOk f c) : HandlerOk f c (c, []) :=
  { ctl := ok
    sends := List.forall_mem_nil _
    sameCtx := rfl }

theorem HandlerOk.announces {c' : Ctl} {services : List ServiceInfo} (sameCtx : c'.ctx = c.ctx)
    (ok : CtlOk f c') : HandlerOk f c (c', [c'.announce services]) := by
  refine
    { ctl := ok
      sends := fun out member => ?_
      sameCtx := sameCtx }
  rw [List.mem_singleton.mp member]
  exact ok

theorem HandlerOk.reports {c' : Ctl} {toID : ParticipantID} {name : Name} {endpoint : Bytes}
    (sameCtx : c'.ctx = c.ctx) (ok : CtlOk f c') :
    HandlerOk f c (c', [.sendTo toID (.identity name endpoint)]) := by
  refine
    { ctl := ok
      sends := fun out member => ?_
      sameCtx := sameCtx }
  rw [List.mem_singleton.mp member]
  rfl

theorem CtlOk.setName (ok : CtlOk f c) (services : List ServiceInfo) (name : Name) :
    HandlerOk f c (c.setName services name) := by
  unfold Ctl.setName
  simp only
  split
  · exact ok.silent
  · split
    · exact HandlerOk.announces (by rfl) ok
    · exact HandlerOk.reports (by rfl) ok

theorem CtlOk.setEndpoint (ok : CtlOk f c) (services : List ServiceInfo) (endpoint : Bytes) :
    HandlerOk f c (c.setEndpoint services endpoint) := by
  unfold Ctl.setEndpoint
  simp only
  split
  · exact HandlerOk.announces (by rfl) ok
  · exact HandlerOk.reports (by rfl) ok

theorem CtlOk.setPushKey (ok : CtlOk f c) (services : List ServiceInfo) (key : Bytes) :
    HandlerOk f c (c.setPushKey services key) := by
  unfold Ctl.setPushKey
  split
  · exact HandlerOk.announces (by rfl) ok
  · exact ok.silent

theorem CtlOk.handleIdentity (ok : CtlOk f c) (services : List ServiceInfo)
    (fromID : ParticipantID) (name : Name) (endpoint : Bytes) :
    HandlerOk f c (c.handleIdentity services fromID name endpoint) := by
  unfold Ctl.handleIdentity
  split
  · exact HandlerOk.announces (by rfl) ok
  · exact ok.silent

theorem CtlOk.handleSnapshotReq (ok : CtlOk f c) (fromID : ParticipantID)
    (blobs : GoMap String Bytes) : HandlerOk f c (c, c.handleSnapshotReq fromID blobs) := by
  unfold Ctl.handleSnapshotReq
  split
  · refine
      { ctl := ok
        sends := fun out member => ?_
        sameCtx := rfl }
    rw [List.mem_singleton.mp member]
    rfl
  · exact ok.silent

variable {id : ParticipantID}

theorem CtlOk.memberKeyed (ok : CtlOk f c) (services : List ServiceInfo) (role : Role)
    (there : id ∉ c.pruned) : HandlerOk f c (c.memberKeyed services id role) := by
  unfold Ctl.memberKeyed
  split
  · refine HandlerOk.announces (by rfl) (fun other member => ⟨(ok other member).1, ?_⟩)
    intro present
    rcases (AList.mem_insert c.roster).mp present with rfl | old
    · exact there member
    · exact (ok other member).2 old
  · exact ok.silent

theorem CtlOk.remove (ok : CtlOk f c) (gone : f.gone id) :
    CtlOk f (c.remove id) := by
  intro other member
  rcases List.mem_cons.mp member with rfl | old
  · exact ⟨gone, fun present => (AList.mem_erase.mp present).1 rfl⟩
  · exact ⟨(ok other old).1, fun present => (ok other old).2 (AList.mem_erase.mp present).2⟩

theorem CtlOk.memberLeft (ok : CtlOk f c) (services : List ServiceInfo) (gone : f.gone id) :
    HandlerOk f c (c.memberLeft services id) := by
  unfold Ctl.memberLeft
  split
  · exact HandlerOk.announces (by rfl) (ok.remove gone)
  · exact ok.silent

theorem CtlOk.insert (ok : CtlOk f c) (there : ¬f.gone id) (role : Role) :
    CtlOk f { c with roster := c.roster.insert id role } := by
  intro other member
  refine ⟨(ok other member).1, fun present => ?_⟩
  rcases (AList.mem_insert c.roster).mp present with rfl | old
  · exact there (ok other member).1
  · exact (ok other member).2 old

theorem CtlOk.attach (ok : CtlOk f c) {ctx : Context} (there : ¬f.gone ctx.self) :
    CtlOk f (c.attach ctx) := by
  unfold Ctl.attach
  split
  · exact ok.insert there roleHost
  · exact ok

theorem CtlOk.assumeHost (ok : CtlOk f c) (services : List ServiceInfo) {leaver : ParticipantID}
    (gone : f.gone leaver) (there : ¬f.gone c.ctx.self) :
    HandlerOk f c (c.assumeHost services leaver) :=
  HandlerOk.announces (by rfl) ((ok.remove gone).insert there roleHost)

end

def TaskOk (f : Facts) (x : ParticipantID) (isHost : Prop) : Task prim → Prop
  | .sealing out pruned => OutgoingOk f pruned out
  | .write sent => SentOk f x sent
  | .promote left => isHost ∧ f.gone left
  | .setHostID _ => ¬isHost
  | _ => True

/-- The tasks in order: a promotion comes after `BecomeHost` and follows it. -/
def TodoOk (f : Facts) (x : ParticipantID) : Prop → List (Task prim) → Prop
  | _, [] => True
  | isHost, task :: rest =>
      TaskOk f x isHost task ∧ (task = .becomeHost → ∃ left, .promote left ∈ rest) ∧
        TodoOk f x (isHost ∨ task = .becomeHost) rest

variable {todo : List (Task prim)} {result : Ctl × List Outgoing} {task : Task prim}

theorem TodoOk.mono {f f' : Facts} (grow : f.Grow f') {x : ParticipantID} {isHost : Prop}
    (ok : TodoOk f x isHost todo) : TodoOk f' x isHost todo := by
  induction todo generalizing isHost with
  | nil => trivial
  | cons task rest ih =>
      obtain ⟨taskOk, follows, restOk⟩ := ok
      refine ⟨?_, follows, ih restOk⟩
      cases task with
      | sealing out pruned =>
          cases out with
          | broadcast msg => exact BodyOk.mono grow.gone taskOk
          | sendTo toID msg => exact taskOk
      | write sent => exact SentOk.mono grow taskOk
      | promote left => exact ⟨taskOk.1, grow.gone left taskOk.2⟩
      | setHostID id => exact taskOk
      | _ => trivial

theorem TodoOk.congr {f : Facts} {x : ParticipantID} {isHost isHost' : Prop}
    (same : isHost ↔ isHost') (ok : TodoOk f x isHost todo) :
    TodoOk f x isHost' todo := by
  have equal : isHost = isHost' := propext same
  rwa [equal] at ok

theorem TodoOk.cons {f : Facts} {x : ParticipantID} {isHost : Prop}
    {rest : List (Task prim)} (taskOk : TaskOk f x isHost task) (other : task ≠ .becomeHost)
    (restOk : TodoOk f x isHost rest) : TodoOk f x isHost (task :: rest) := by
  refine ⟨taskOk, fun same => absurd same other, restOk.congr ?_⟩
  exact ⟨Or.inl, fun either => either.resolve_right other⟩

theorem TodoOk.rest {f : Facts} {x : ParticipantID} {isHost : Prop} {rest : List (Task prim)}
    (ok : TodoOk f x isHost (task :: rest)) (other : task ≠ .becomeHost) :
    TodoOk f x isHost rest :=
  ok.2.2.congr ⟨fun either => either.resolve_right other, Or.inl⟩

theorem TodoOk.gone_of_promote {f : Facts} {x : ParticipantID} {isHost : Prop}
    (ok : TodoOk f x isHost todo) {left : ParticipantID} (member : .promote left ∈ todo) :
    f.gone left := by
  induction todo generalizing isHost with
  | nil => cases member
  | cons task rest ih =>
      rcases List.mem_cons.mp member with rfl | later
      · exact ok.1.2
      · exact ih ok.2.2 later

theorem TodoOk.sending {f : Facts} {x : ParticipantID} {isHost : Prop} {c : Ctl}
    (ok : HandlerOk f c result) (m : Mux) {rest : List (Task prim)}
    (restOk : TodoOk f x isHost rest) :
    TodoOk f x isHost ((m.sending prim result).2 ++ rest) := by
  have sends := ok.sends
  simp only [Mux.sending]
  generalize result.2 = outs at sends
  induction outs with
  | nil => exact restOk
  | cons out outs ih =>
      refine TodoOk.cons (sends out List.mem_cons_self) (by simp) (ih ?_)
      exact fun other member => sends other (List.mem_cons_of_mem out member)

/-- What handling an event guarantees.  A copy of the roster is replaced only at an
end that is not a host. -/
structure Handles (f : Facts) (x : ParticipantID) (isHost : Prop) (m : Mux) (event : Event Body)
    (result : Mux × List (Task prim)) : Prop where
  ctl : CtlOk f result.1.ctl
  sameCtx : result.1.ctl.ctx = m.ctl.ctx
  todo : TodoOk f x isHost result.2
  pruned : ∀ id ∈ result.1.ctl.pruned,
    id ∈ m.ctl.pruned ∨ event = .memberLeft id ∨ ¬isHost
  promote : ∀ left, .promote left ∈ result.2 → event = .memberLeft left

section

variable {f : Facts} {x : ParticipantID} {isHost : Prop} {m m' : Mux} {event : Event Body}

theorem promote_notMem_sending (m : Mux) (result : Ctl × List Outgoing) (left : ParticipantID) :
    .promote left ∉ (m.sending prim result).2 := by
  simp [Mux.sending]

theorem Handles.of_same (same : m'.ctl = m.ctl) (ok : CtlOk f m.ctl) :
    Handles f x isHost m event (m', ([] : List (Task prim))) := by
  refine
    { ctl := ?_
      sameCtx := congrArg Ctl.ctx same
      todo := trivial
      pruned := fun id member => Or.inl ?_
      promote := fun left member => absurd member List.not_mem_nil }
  · rw [same]
    exact ok
  · rw [same] at member
    exact member

theorem Handles.of_handler (ok : HandlerOk f m.ctl result)
    (samePruned : ∀ id ∈ result.1.pruned, id ∈ m.ctl.pruned ∨ event = .memberLeft id) {last : Mux}
    (sameLast : last.ctl = (m'.sending prim result).1.ctl) :
    Handles f x isHost m event (last, (m'.sending prim result).2) := by
  have isResult : last.ctl = result.1 := sameLast
  refine
    { ctl := ?_
      sameCtx := ?_
      todo := ?_
      pruned := fun id member => ?_
      promote := fun left member => absurd member (promote_notMem_sending m' result left) }
  · rw [isResult]
    exact ok.ctl
  · rw [isResult]
    exact ok.sameCtx
  · have todo : TodoOk f x isHost ((m'.sending prim result).2 ++ []) :=
      TodoOk.sending ok m' trivial
    rwa [List.append_nil] at todo
  · rw [isResult] at member
    exact (samePruned id member).imp_right Or.inl

theorem pruned_setName (c : Ctl) (services : List ServiceInfo) (name : Name) :
    (c.setName services name).1.pruned = c.pruned := by
  unfold Ctl.setName
  simp only
  split
  · rfl
  · split <;> rfl

theorem pruned_setEndpoint (c : Ctl) (services : List ServiceInfo) (endpoint : Bytes) :
    (c.setEndpoint services endpoint).1.pruned = c.pruned := by
  unfold Ctl.setEndpoint
  simp only
  split <;> rfl

theorem pruned_setPushKey (c : Ctl) (services : List ServiceInfo) (key : Bytes) :
    (c.setPushKey services key).1.pruned = c.pruned := by
  unfold Ctl.setPushKey
  split <;> rfl

theorem pruned_handleIdentity (c : Ctl) (services : List ServiceInfo) (fromID : ParticipantID)
    (name : Name) (endpoint : Bytes) :
    (c.handleIdentity services fromID name endpoint).1.pruned = c.pruned := by
  unfold Ctl.handleIdentity
  split <;> rfl

theorem pruned_memberKeyed (c : Ctl) (services : List ServiceInfo) (id : ParticipantID)
    (role : Role) : (c.memberKeyed services id role).1.pruned = c.pruned := by
  unfold Ctl.memberKeyed
  split <;> rfl

variable {fromID : ParticipantID}

theorem Handles.handleCtl (ok : CtlOk f m.ctl) {msg : CtlMsg} {pruned : List ParticipantID}
    (bodyOk : BodyOk f.gone (.ctl msg pruned))
    (fromOther : (Body.ctl msg pruned).isAnnounce = true → fromID ≠ x)
    (ownHost : isHost → m.ctl.ctx.hostID = x) :
    Handles f x isHost m event (m.handleCtl prim fromID msg pruned) := by
  cases msg with
  | announce a =>
      simp only [Mux.handleCtl, Ctl.handleAnnounce]
      by_cases isHostID : fromID = m.ctl.ctx.hostID
      · rw [if_pos isHostID]
        have notHost : ¬isHost := fun host => fromOther rfl (isHostID.trans (ownHost host))
        exact
          { ctl := bodyOk
            sameCtx := rfl
            todo := trivial
            pruned := fun _ _ => Or.inr (Or.inr notHost)
            promote := fun left member => absurd member List.not_mem_nil }
      · rw [if_neg isHostID]
        exact Handles.of_same rfl ok
  | identity name endpoint =>
      refine Handles.of_handler (ok.handleIdentity ctlServices fromID name endpoint)
        (fun id member => Or.inl ?_) rfl
      rwa [pruned_handleIdentity] at member
  | snapshotReq =>
      exact Handles.of_handler (ok.handleSnapshotReq fromID ∅) (fun _ member => Or.inl member) rfl
  | snapshot blobs =>
      simp only [Mux.handleCtl, Ctl.handleSnapshot]
      by_cases isHostID : fromID = m.ctl.ctx.hostID
      · rw [if_pos isHostID]
        exact Handles.of_same rfl ok
      · rw [if_neg isHostID]
        exact Handles.of_same rfl ok
  | other => exact Handles.of_same rfl ok

theorem Handles.handleFrame (ok : CtlOk f m.ctl) {env : Envelope Body}
    (eventOk : EventOk f x (.frame fromID env)) (ownHost : isHost → m.ctl.ctx.hostID = x) :
    Handles f x isHost m event (m.handleFrame prim fromID env) := by
  unfold Mux.handleFrame
  split
  · exact Handles.of_same rfl ok
  · simp only
    -- the sequence watch does not touch ctl
    have watched : ∀ counted : Mux, counted.ctl = m.ctl → ∀ msg pruned,
        env.body = .ctl msg pruned →
        Handles f x isHost m event (counted.handleCtl prim fromID msg pruned) := by
      intro counted same msg pruned body
      obtain ⟨bodyOk, fromOther⟩ := eventOk
      rw [body] at bodyOk fromOther
      have handled : Handles f x isHost counted event
          (counted.handleCtl prim fromID msg pruned) :=
        Handles.handleCtl (same ▸ ok) bodyOk fromOther (same ▸ ownHost)
      exact
        { handled with
          sameCtx := handled.sameCtx.trans (congrArg Ctl.ctx same)
          pruned := fun id member => same ▸ handled.pruned id member }
    cases body : env.body with
    | ctl msg pruned =>
        refine watched _ ?_ msg pruned body
        split <;> rfl
    | app bytes =>
        refine Handles.of_same ?_ ok
        split <;> rfl

theorem TodoOk.maybeMigrate (m : Mux) {c : Client} (present : ¬f.gone x)
    (hostSelf : c.role = roleHost → c.hostID = x) {left : ParticipantID} (gone : f.gone left) :
    TodoOk f x (c.role = roleHost) (m.maybeMigrate prim c left) ∧
      ∀ other, .promote other ∈ m.maybeMigrate prim c left → other = left := by
  unfold Mux.maybeMigrate
  split
  · exact ⟨trivial, fun other member => absurd member List.not_mem_nil⟩
  · rename_i isHostID
    have wasHost : left = c.hostID := not_not.mp isHostID
    simp only
    split
    · exact ⟨trivial, fun other member => absurd member List.not_mem_nil⟩
    · split
      · refine ⟨⟨trivial, fun _ => ⟨left, by simp⟩, ?_⟩, by simp⟩
        refine TodoOk.cons trivial (by simp) (TodoOk.cons ⟨Or.inr rfl, gone⟩ (by simp) trivial)
      · refine ⟨TodoOk.cons (fun isHost => ?_) (by simp)
          (TodoOk.cons trivial (by simp) (TodoOk.cons trivial (by simp) trivial)), by simp⟩
        -- a host would have to leave itself
        rw [wasHost, hostSelf isHost] at gone
        exact present gone

theorem Handles.dispatch (ok : CtlOk f m.ctl) {c : Client} (present : ¬f.gone x)
    (hostSelf : c.role = roleHost → c.hostID = x)
    (ownHost : c.role = roleHost → m.ctl.ctx.hostID = x) (eventOk : EventOk f x event)
    (fresh : ∀ id role, event = .memberKeyed id role → id ∉ m.ctl.pruned) :
    Handles f x (c.role = roleHost) m event (m.dispatch prim c event) := by
  cases event with
  | frame fromID env => exact Handles.handleFrame ok eventOk ownHost
  | memberKeyed id role =>
      refine Handles.of_handler (ok.memberKeyed ctlServices role (fresh id role rfl))
        (fun other member => Or.inl ?_) rfl
      rwa [pruned_memberKeyed] at member
  | memberLeft id =>
      have gone : f.gone id := eventOk
      have handler := ok.memberLeft ctlServices gone
      obtain ⟨migrates, promotes⟩ := @TodoOk.maybeMigrate prim f x
        ((m.sending prim (m.ctl.memberLeft ctlServices id)).1.emit (.session (.memberLeft id)))
        c present hostSelf id gone
      refine
        { handler with
          todo := TodoOk.sending handler m migrates
          pruned := fun other member => ?_
          promote := fun other member => ?_ }
      · change other ∈ (m.ctl.memberLeft ctlServices id).1.pruned at member
        unfold Ctl.memberLeft at member
        split at member
        · rcases List.mem_cons.mp member with rfl | old
          · exact Or.inr (Or.inl rfl)
          · exact Or.inl old
        · exact Or.inl member
      · rcases List.mem_append.mp member with sent | migrating
        · exact absurd sent (promote_notMem_sending m _ other)
        · rw [promotes other migrating]
  | closed reason => exact Handles.of_same rfl ok
  | memberJoined id => exact Handles.of_same rfl ok

end

end Parley.Service
