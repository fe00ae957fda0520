/-
Names and endpoints are what each participant last set.

A value goes from the participant to whoever is the host and back in announces.
The host of a session can leave, and the end that everybody elects goes on from the
copy it holds.  Values are lost where a report cannot say them, or is under way to
a host that leaves; without that every end holds the last values of everybody.
-/

import Parley.Service.Attributes
import Parley.Service.Leadership

namespace Parley.Service

open Library Session
open Wire (Bytes ParticipantID)

namespace Replicas

variable {s next : Replicas} {host : ParticipantID} {past : List ReplicaAction}

def reportsTo (s : Replicas) (host id : ParticipantID) : List Notice :=
  (s.net.outbox id).filterMap (fun memo => memo.carry id host)

/-- The host will hold what everybody last set when it has everybody's reports.
Reports are addressed to it, or to somebody who has left. -/
structure Valued (past : List ReplicaAction) (host : ParticipantID) (s : Replicas) : Prop where
  led : s.Led host
  values : ∀ id ∈ s.net.members,
    ((s.foreseen host).copy.attributes id).reports (s.reportsTo host id) = lastValues past id
  addressed : ∀ id ∈ s.net.members, ∀ memo ∈ s.net.outbox id, ∀ toID name endpoint,
    memo.out = .sendTo toID (.identity name endpoint) →
      toID = host ∨ toID ∈ s.used ∧ toID ∉ s.net.members
  own : ∀ id ∈ s.net.members, (s.ctls id).selfEndpoint = (lastValues past id).endpoint
  fresh : ∀ id ∉ s.used,
    lastValues past id = .blank ∧ (s.foreseen host).copy.attributes id = .blank

theorem reportsTo_self (tidy : s.Tidy) (id : ParticipantID) : s.reportsTo id id = [] := by
  refine List.filterMap_eq_nil_iff.mpr (fun memo sent => ?_)
  by_contra carried
  obtain ⟨notice, isCarried⟩ := Option.ne_none_iff_exists'.mp carried
  exact ((tidy.filed.posts id memo sent).carried isCarried).other rfl

variable {id sender : ParticipantID} {past' : List ReplicaAction}

theorem reportsTo_write_of_ne (s : Replicas) {writer : ParticipantID} (differ : id ≠ writer)
    (host : ParticipantID) (result : Ctl × List Outgoing) :
    (s.write writer result).reportsTo host id = s.reportsTo host id := by
  simp only [reportsTo, write, Network.post, Function.update_of_ne differ]

theorem reportsTo_write_self (s : Replicas) (writer host : ParticipantID)
    (result : Ctl × List Outgoing) :
    (s.write writer result).reportsTo host writer =
      s.reportsTo host writer ++
        (result.2.map (fun out => (⟨out, result.1.pruned⟩ : Memo))).filterMap (fun memo =>
          memo.carry writer host) := by
  simp only [reportsTo, write, Network.post, Function.update_self, List.filterMap_append]

theorem Tidy.stays (tidy : s.Tidy) (present : host ∈ s.net.members)
    (there : id ∈ s.net.members ∨ id ∉ s.used) :
    ∀ entry ∈ s.net.inbox host, entry.2 ≠ .left id := by
  intro entry member isLeft
  rcases there with isMember | unused
  · exact tidy.gone host present entry member id isLeft isMember
  · have isSender := (tidy.filed.entries host entry member).about id isLeft
    exact unused (isSender ▸ tidy.filed.senders host entry member)

theorem Tidy.attributes_foreseen (tidy : s.Tidy) (present : host ∈ s.net.members)
    (flag : (s.ctls host).ctx.host = true) (there : id ∈ s.net.members ∨ id ∉ s.used) :
    (s.foreseen host).copy.attributes id =
      ((s.ctls host).copy.attributes id).reports
        (Network.fromSender id (s.net.inbox host)) := by
  refine Ctl.attributes_foresee s.successor (tidy.proper host present) flag
    (fun entry member => ?_) (tidy.stays present there)
  have known := tidy.filed.entries host entry member
  rw [tidy.self host present]
  exact ⟨known.other, known.about⟩

theorem Led.attributes_foresee (led : s.Led host) {notice : Notice}
    (known : notice.Known s.used sender host) (stays : notice ≠ .left id) :
    ((s.foreseen host).foresee s.successor [(sender, notice)]).copy.attributes id =
      if sender = id then ((s.foreseen host).copy.attributes id).report notice
      else (s.foreseen host).copy.attributes id := by
  obtain ⟨proper, self⟩ := led.tidy.foreseen_proper led.present
  exact Ctl.attributes_handleNotice s.successor proper led.leads (self.symm ▸ known.other)
    known.about stays

theorem Valued.own_values (valued : s.Valued past host) (flag : (s.ctls host).ctx.host = true) :
    (s.ctls host).copy.attributes host = lastValues past host := by
  have tidy := valued.led.tidy
  have present := valued.led.present
  have nothing : Network.fromSender host (s.net.inbox host) = [] := by
    refine List.filterMap_eq_nil_iff.mpr (fun entry member => if_neg ?_)
    exact (tidy.filed.entries host entry member).other
  have value := valued.values host present
  rw [tidy.attributes_foreseen present flag (Or.inl present), nothing,
    reportsTo_self tidy host] at value
  exact value

theorem Valued.write_of_host (valued : s.Valued past host)
    (flag : (s.ctls host).ctx.host = true) {result : Ctl × List Outgoing}
    (led : (s.write host result).Led host) (stillHost : result.1.ctx.host = true)
    (others : ∀ id, id ≠ host →
      result.1.copy.attributes id = (s.ctls host).copy.attributes id ∧
        lastValues past' id = lastValues past id)
    (itself : result.1.copy.attributes host = lastValues past' host)
    (own : result.1.selfEndpoint = (lastValues past' host).endpoint)
    (unreported : ∀ out ∈ result.2, ∀ name endpoint, out.msg ≠ .identity name endpoint) :
    (s.write host result).Valued past' host := by
  have present := valued.led.present
  have holds : (s.write host result).ctls host = result.1 := Function.update_self ..
  have unchanged : ∀ id, id ≠ host → id ∈ s.net.members ∨ id ∉ s.used →
      ((s.write host result).foreseen host).copy.attributes id =
        (s.foreseen host).copy.attributes id := by
    intro id differ there
    rw [led.tidy.attributes_foreseen present (holds.symm ▸ stillHost) there, holds,
      (others id differ).1]
    exact (valued.led.tidy.attributes_foreseen present flag there).symm
  refine
    { led := led
      values := fun id member => ?_
      addressed := fun id member memo sent toID name endpoint isReport => ?_
      own := fun id member => ?_
      fresh := fun id unused => ?_ }
  · by_cases same : id = host
    · subst same
      have nothing : Network.fromSender id ((s.write id result).net.inbox id) = [] := by
        refine List.filterMap_eq_nil_iff.mpr (fun entry there => if_neg ?_)
        exact (led.tidy.filed.entries id entry there).other
      rw [led.tidy.attributes_foreseen present (holds.symm ▸ stillHost) (Or.inl present), holds,
        nothing, reportsTo_self led.tidy id, itself]
      rfl
    · rw [unchanged id same (Or.inl member), reportsTo_write_of_ne s same, (others id same).2]
      exact valued.values id member
  · rcases Network.mem_outbox_post sent with old | ⟨_, new⟩
    · exact valued.addressed id member memo old toID name endpoint isReport
    · obtain ⟨out, there, rfl⟩ := List.mem_map.mp new
      exact absurd (congrArg Outgoing.msg isReport) (unreported out there name endpoint)
  · by_cases same : id = host
    · rw [same, holds]
      exact own
    · simp only [write, Function.update_of_ne same]
      rw [(others id same).2]
      exact valued.own id member
  · have differ : id ≠ host := fun same =>
      unused (same ▸ valued.led.tidy.filed.known host present)
    rw [unchanged id differ (Or.inr unused), (others id differ).2]
    exact valued.fresh id unused

theorem Valued.congr (valued : s.Valued past host)
    (same : ∀ id, lastValues past' id = lastValues past id) : s.Valued past' host :=
  { valued with
    values := fun id member => (valued.values id member).trans (same id).symm
    own := fun id member => (same id).symm ▸ valued.own id member
    fresh := fun id unused => (same id).symm ▸ valued.fresh id unused }

theorem Valued.enter (valued : s.Valued past host) (unused : id ∉ s.used)
    (led : ((s.welcome id).write id
      (newcomer id host, [(newcomer id host).requestSnapshot])).Led host) :
    ((s.welcome id).write id
      (newcomer id host, [(newcomer id host).requestSnapshot])).Valued past host := by
  have tidy := valued.led.tidy
  have present := valued.led.present
  have absent : id ∉ s.net.members := fun member => unused (tidy.filed.known id member)
  have notHost : host ≠ id := fun same => absent (same ▸ present)
  have old : ∀ {other}, other ∈ (s.welcome id).net.members → other ≠ id → other ∈ s.net.members :=
    fun member differ => (List.mem_append.mp member).resolve_right (fun isNew =>
      differ (List.mem_singleton.mp isNew))
  have drained : (s.welcome id).net.outbox id = [] := tidy.filed.drained id absent
  have sameHost : ((s.welcome id).write id
      (newcomer id host, [(newcomer id host).requestSnapshot])).foreseen host = s.foreseen host := by
    rw [foreseen_write_of_ne _ notHost, foreseen_welcome s id present]
  refine
    { led := led
      values := fun other member => ?_
      addressed := fun other member memo sent toID name endpoint isReport => ?_
      own := fun other member => ?_
      fresh := fun other unknown => ?_ }
  · rw [sameHost]
    by_cases isNew : other = id
    · subst isNew
      have nothing : (s.welcome other).reportsTo host other = [] := by
        rw [reportsTo, drained, List.filterMap_nil]
      rw [reportsTo_write_self, nothing, List.nil_append, (valued.fresh other unused).1,
        (valued.fresh other unused).2]
      simp only [Ctl.requestSnapshot, newcomer, Ctl.attach, List.map_cons, List.map_nil,
        List.filterMap_cons, List.filterMap_nil, Memo.carry, if_true]
      rfl
    · rw [reportsTo_write_of_ne _ isNew]
      exact valued.values other (old member isNew)
  · rcases Network.mem_outbox_post sent with before | ⟨_, new⟩
    · have isOld : other ≠ id := by
        rintro rfl
        rw [drained] at before
        cases before
      refine (valued.addressed other (old member isOld) memo before toID name endpoint
        isReport).imp_right (fun both => ⟨List.mem_append_left [id] both.1, fun there => ?_⟩)
      rcases List.mem_append.mp there with wasThere | isNew
      · exact both.2 wasThere
      · exact unused (List.mem_singleton.mp isNew ▸ both.1)
    · cases List.mem_singleton.mp new
      cases isReport
  · by_cases isNew : other = id
    · subst isNew
      simp only [write, Function.update_self]
      rw [(valued.fresh other unused).1]
      rfl
    · simp only [write, Function.update_of_ne isNew]
      exact valued.own other (old member isNew)
  · rw [sameHost]
    exact valued.fresh other (fun known => unknown (List.mem_append_left [id] known))

theorem Valued.keyed (valued : s.Valued past host) {keyer : ParticipantID} {role : Role}
    (present : keyer ∈ s.net.members)
    (led : (s.write keyer ((s.ctls keyer).memberKeyed ctlServices id role)).Led host) :
    (s.write keyer ((s.ctls keyer).memberKeyed ctlServices id role)).Valued past host := by
  cases flag : (s.ctls keyer).ctx.host with
  | false =>
      rw [Ctl.memberKeyed_of_member flag, write_idle]
      exact valued
  | true =>
      have same := valued.led.host_of_flag present flag
      subst same
      have keyed : (s.ctls keyer).memberKeyed ctlServices id role =
          ({ s.ctls keyer with roster := (s.ctls keyer).roster.insert id role },
            [Ctl.announce { s.ctls keyer with roster := (s.ctls keyer).roster.insert id role }
              ctlServices]) := if_pos flag
      rw [keyed] at led ⊢
      refine valued.write_of_host flag led flag (fun other differ => ⟨rfl, rfl⟩)
        (valued.own_values flag) (valued.own keyer present) (fun out sent name endpoint => ?_)
      rw [List.mem_singleton.mp sent]
      exact fun isReport => by cases isReport

theorem Valued.leave (valued : s.Valued past host) (differ : id ≠ host)
    (present : id ∈ s.net.members) {net : Network ParticipantID Memo Notice}
    (left : s.net.leave id (.left id) = some net) (led : Led host { s with net := net }) :
    Valued past host { s with net := net } := by
  have stays : ∀ {other}, other ∈ net.members ↔ other ∈ s.net.members ∧ other ≠ id :=
    Network.mem_leave left
  have hostStays : host ∈ net.members := led.present
  have outbox := (Network.outbox_leave left).1
  have known : (Notice.left id).Known s.used id host :=
    { other := differ
      about := fun _ isLeft => (Notice.left.inj isLeft).symm
      announced := fun _ isCopy => by cases isCopy }
  have unchanged : ∀ other, other ≠ id →
      (foreseen { s with net := net } host).copy.attributes other =
        (s.foreseen host).copy.attributes other := by
    intro other isOther
    have appended := valued.led.attributes_foresee known
      (fun isLeft => isOther (Notice.left.inj isLeft).symm)
    rw [if_neg (Ne.symm isOther)] at appended
    rw [foreseen, Network.inbox_leave left hostStays, Ctl.foresee_append]
    exact appended
  refine
    { led := led
      values := fun other member => ?_
      addressed := fun other member memo sent toID name endpoint isReport => ?_
      own := fun other member => valued.own other (stays.mp member).1
      fresh := fun other unknown => ⟨(valued.fresh other unknown).1, ?_⟩ }
  · rw [unchanged other (stays.mp member).2]
    simp only [reportsTo, outbox]
    exact valued.values other (stays.mp member).1
  · refine (valued.addressed other (stays.mp member).1 memo (outbox ▸ sent) toID name endpoint
      isReport).imp_right (fun both => ⟨both.1, fun there => both.2 (stays.mp there).1⟩)
  · have isOther : other ≠ id := fun same =>
      unknown (same ▸ valued.led.tidy.filed.known id present)
    rw [unchanged other isOther]
    exact (valued.fresh other unknown).2

theorem Valued.route (valued : s.Valued past host) {net : Network ParticipantID Memo Notice}
    (routed : s.net.route Memo.carry sender = some net) (led : Led host { s with net := net }) :
    Valued past host { s with net := net } := by
  have tidy := valued.led.tidy
  have present := valued.led.present
  have members : net.members = s.net.members := Network.members_route routed
  obtain ⟨first, rest, pending, outbox, inbox⟩ := Network.route_cases routed
  have posted : first ∈ s.net.outbox sender := pending ▸ List.mem_cons_self
  -- the host takes what is for it into account
  have appended : ∀ id, (foreseen { s with net := net } host).copy.attributes id =
      if sender = id then
        ((s.foreseen host).copy.attributes id).reports (first.carry sender host).toList
      else (s.foreseen host).copy.attributes id := by
    intro id
    rw [foreseen, inbox host present, Ctl.foresee_append]
    cases carried : first.carry sender host with
    | none => exact (ite_self _).symm
    | some notice =>
        refine valued.led.attributes_foresee ((tidy.filed.posts sender first posted).carried carried)
          (fun isLeft => ?_)
        rw [Memo.carry_eq_memo carried] at isLeft
        cases isLeft
  refine
    { led := led
      values := fun id member => ?_
      addressed := fun id member memo sent toID name endpoint isReport => ?_
      own := fun id member => valued.own id (members ▸ member)
      fresh := fun id unknown => ⟨(valued.fresh id unknown).1, ?_⟩ }
  · simp only [members] at member
    rw [appended id, ← valued.values id member]
    by_cases same : sender = id
    · subst same
      rw [if_pos rfl, ← Attributes.reports_append]
      simp only [reportsTo, outbox, Function.update_self, pending, List.filterMap_cons]
      cases first.carry sender host <;> rfl
    · simp only [if_neg same, reportsTo, outbox, Function.update_of_ne (Ne.symm same)]
  · obtain ⟨_, _, _, kept, _⟩ := Network.route_contents routed
    simp only [members] at member ⊢
    exact valued.addressed id member memo (kept id memo sent) toID name endpoint isReport
  · have isOther : sender ≠ id := by
      rintro rfl
      exact unknown (tidy.filed.known _ (tidy.filed.member_of_post posted))
    rw [appended id, if_neg isOther]
    exact (valued.fresh id unknown).2

theorem no_identity_of_unreported {outs : List Outgoing} {pruned : List ParticipantID}
    (unreported : ∀ out ∈ outs, ∀ name endpoint, out.msg ≠ .identity name endpoint)
    (sender receiver : ParticipantID) :
    ∀ notice ∈ (outs.map (fun out => (⟨out, pruned⟩ : Memo))).filterMap (fun memo =>
      memo.carry sender receiver), notice.isIdentity = false := by
  intro notice member
  obtain ⟨memo, isMemo, carried⟩ := List.mem_filterMap.mp member
  obtain ⟨out, sent, rfl⟩ := List.mem_map.mp isMemo
  rw [Memo.carry_eq_memo carried]
  cases said : out.msg with
  | identity name endpoint => exact absurd said (unreported out sent name endpoint)
  | announce a => rfl
  | snapshotReq => rfl
  | snapshot blobs => rfl
  | other => rfl

theorem Valued.handle (valued : s.Valued past host) {receiver : ParticipantID}
    {entry : ParticipantID × Notice}
    {net : Network ParticipantID Memo Notice} (shifted : s.net.shift receiver = some (entry, net))
    (led : (write { s with net := net } receiver
      ((s.ctls receiver).handleNotice s.successor entry.1 entry.2)).Led host) :
    (write { s with net := net } receiver
      ((s.ctls receiver).handleNotice s.successor entry.1 entry.2)).Valued past host := by
  have taken := Network.take_of_shift shifted
  have members : net.members = s.net.members := Network.members_take taken
  have outbox : net.outbox = s.net.outbox := Network.outbox_take taken
  have unreported := Ctl.unreported_handleNotice s.successor (s.ctls receiver) entry.1 entry.2
  refine
    { led := led
      values := fun id member => ?_
      addressed := fun id member memo sent toID name endpoint isReport => ?_
      own := fun id member => ?_
      fresh := fun id unknown => ?_ }
  · rw [foreseen_handle shifted host, ← valued.values id (members ▸ member)]
    by_cases same : id = receiver
    · subst same
      rw [reportsTo_write_self, Attributes.reports_append]
      have before : reportsTo { s with net := net } host id = s.reportsTo host id := by
        simp only [reportsTo, outbox]
      rw [before]
      exact Attributes.reports_of_no_identity _ (no_identity_of_unreported unreported id host)
    · rw [reportsTo_write_of_ne _ same]
      simp only [reportsTo, outbox]
  · simp only [write, Network.post, members] at member ⊢
    rcases Network.mem_outbox_post sent with old | ⟨_, new⟩
    · exact valued.addressed id member memo (outbox ▸ old) toID name endpoint isReport
    · obtain ⟨out, there, rfl⟩ := List.mem_map.mp new
      exact absurd (congrArg Outgoing.msg isReport) (unreported out there name endpoint)
  · have wasMember : id ∈ s.net.members := members ▸ member
    by_cases same : id = receiver
    · subst same
      simp only [write, Function.update_self, Ctl.selfEndpoint_handleNotice]
      exact valued.own id wasMember
    · simp only [write, Function.update_of_ne same]
      exact valued.own id wasMember
  · rw [foreseen_handle shifted host]
    exact valued.fresh id unknown

theorem Valued.command (valued : s.Valued past host) (present : id ∈ s.net.members) {cmd : Command}
    (aware : (s.ctls id).ctx.hostID ∈ s.net.members)
    (reportable : (s.ctls id).ctx.host = false → (s.ctls id).Reportable cmd)
    (led : (s.write id ((s.ctls id).execute cmd)).Led host) :
    (s.write id ((s.ctls id).execute cmd)).Valued (past ++ [.command id cmd]) host := by
  have tidy := valued.led.tidy
  have self := tidy.self id present
  have sameCtx := tidy.aware present aware
  have sets : ∀ other, other ≠ id →
      lastValues (past ++ [.command id cmd]) other = lastValues past other := by
    intro other differ
    rw [lastValues_append]
    exact sets_of_other (Ne.symm differ) _ cmd
  have own : ((s.ctls id).execute cmd).1.selfEndpoint =
      (lastValues (past ++ [.command id cmd]) id).endpoint := by
    rw [lastValues_append]
    exact Ctl.selfEndpoint_execute (s.ctls id) cmd id (valued.own id present)
  by_cases same : id = host
  · subst same
    have flag : (s.ctls id).ctx.host = true := sameCtx ▸ valued.led.leads
    refine valued.write_of_host flag led ?_ (fun other differ => ⟨?_, sets other differ⟩) ?_ own
      (Ctl.unreported_execute flag cmd)
    · rw [Ctl.ctx_execute]
      exact flag
    · exact Ctl.attributes_execute_of_ne (s.ctls id) cmd (self.symm ▸ differ)
    · have written := Ctl.attributes_execute_self (s.ctls id) cmd
      rw [self, valued.own_values flag] at written
      rw [lastValues_append]
      exact written
  · obtain ⟨notHost, hostID⟩ := valued.led.follows id present same
    rw [sameCtx] at notHost hostID
    have sameHost : (s.write id ((s.ctls id).execute cmd)).foreseen host = s.foreseen host :=
      foreseen_write_of_ne s (Ne.symm same) _
    refine
      { led := led
        values := fun other member => ?_
        addressed := fun other member memo sent toID name endpoint isReport => ?_
        own := fun other member => ?_
        fresh := fun other unknown => ?_ }
    · rw [sameHost]
      by_cases itself : other = id
      · subst itself
        have reported := Ctl.reports_execute notHost (reportable notHost) other
          (valued.own other present) ((s.ctls other).execute cmd).1.pruned
        rw [hostID] at reported
        rw [reportsTo_write_self, Attributes.reports_append, valued.values other present,
          lastValues_append]
        exact reported
      · rw [reportsTo_write_of_ne s itself, sets other itself]
        exact valued.values other member
    · rcases Network.mem_outbox_post sent with old | ⟨rfl, new⟩
      · exact valued.addressed other member memo old toID name endpoint isReport
      · obtain ⟨out, there, rfl⟩ := List.mem_map.mp new
        rcases Ctl.execute_of_member notHost cmd with idle | ⟨_, _, reported⟩
        · rw [idle] at there
          cases there
        · rw [reported] at there
          cases (List.mem_singleton.mp there).symm.trans isReport
          exact Or.inl hostID
    · by_cases itself : other = id
      · subst itself
        simp only [write, Function.update_self]
        exact own
      · simp only [write, Function.update_of_ne itself, sets other itself]
        exact valued.own other member
    · have itself : other ≠ id := fun same => unknown (same ▸ tidy.filed.known id present)
      rw [sameHost, sets other itself]
      exact valued.fresh other unknown

/-- A host that leaves has everybody in its roster and has taken all reports to it.
The end that is to be the next one does not leave before it is. -/
def Relieved (s : Replicas) (id : ParticipantID) : Prop :=
  (s.foreseen id).ctx.host = true →
    (s.ctls id).ctx.host = true ∧
      ∀ other ∈ s.net.members, other ∈ (s.ctls id).roster ∧ ¬ s.Pending other id

/-- Nobody is the host any more, or will be.  Every end keeps the values it has. -/
structure Orphaned (past : List ReplicaAction) (s : Replicas) : Prop where
  tidy : s.Tidy
  lost : ∀ id ∈ s.net.members,
    (s.foreseen id).ctx.host = false ∧ (s.foreseen id).ctx.hostID ∉ s.net.members
  values : ∀ id ∈ s.net.members, ∀ other ∈ s.net.members,
    (s.foreseen id).copy.attributes other = lastValues past other

section

variable {net : Network ParticipantID Memo Notice}

theorem Valued.published_values (valued : s.Valued past host) (flag : (s.ctls host).ctx.host = true)
    (present : id ∈ s.net.members) (current : id ∈ (s.ctls host).roster)
    (heard : ¬ s.Pending id host) :
    (s.ctls host).published.attributes id = lastValues past id := by
  have held : (s.ctls host).copy.attributes id = lastValues past id := by
    have value := valued.values id present
    rw [valued.led.tidy.attributes_foreseen valued.led.present flag (Or.inl present),
      ← Attributes.reports_append] at value
    rw [← value]
    refine (Attributes.reports_of_no_identity _ (fun notice there => ?_)).symm
    by_contra isIdentity
    exact heard ⟨notice, there, (Bool.not_eq_false _).mp isIdentity⟩
  rw [Ctl.attributes_published current (held ▸ lastValues_name past id)]
  exact held

theorem Led.copy_of_relieved (led : s.Led host) (flag : (s.ctls host).ctx.host = true)
    (relieved : ∀ other ∈ s.net.members, other ∈ (s.ctls host).roster ∧ ¬ s.Pending other host)
    (left : s.net.leave host (.left host) = some net) (stays : id ∈ net.members) :
    (s.foreseen id).copy = (s.ctls host).published := by
  obtain ⟨present, differ⟩ := (Network.mem_leave left).mp stays
  obtain ⟨current, heard⟩ := relieved id present
  have drained := (Network.outbox_leave left).2
  have same : s.expected host id = s.foreseen id := by
    simp only [expected, Network.ahead, drained, List.filterMap_nil, List.append_nil, foreseen]
  have held := (led.copies flag id present differ).resolve_left heard
  rw [Held, same] at held
  exact held.resolve_right (fun unknown => unknown.1 current)

theorem Led.foreseen_departure (led : s.Led host) (left : s.net.leave host (.left host) = some net)
    (stays : id ∈ net.members) (copied : (s.foreseen id).copy = (s.ctls host).published) :
    foreseen { s with net := net } id =
      (let successor := (s.ctls host).electSuccessor s.successor host
      if successor = 0 then (s.foreseen id, [])
      else if successor = id then
        ((s.foreseen id).attach { self := successor, hostID := successor, host := true }).assumeHost
          ctlServices host
      else
        ({ s.foreseen id with ctx := { (s.foreseen id).ctx with hostID := successor } }, [])).1 := by
  obtain ⟨present, differ⟩ := (Network.mem_leave left).mp stays
  obtain ⟨notHost, hostID⟩ := led.follows id present differ
  have self := (led.tidy.foreseen_proper present).2
  have sameRoster : (s.foreseen id).roster = (s.ctls host).roster := congrArg Copy.roster copied
  have elects : (s.foreseen id).electSuccessor s.successor host =
      (s.ctls host).electSuccessor s.successor host := by
    simp only [Ctl.electSuccessor, sameRoster]
  have handled := Ctl.handleLeft_of_host s.successor notHost
  rw [hostID, elects, self] at handled
  rw [foreseen, Network.inbox_leave left stays, Ctl.foresee_append]
  exact congrArg Prod.fst handled

theorem Valued.succeed (valued : s.Valued past host) (flag : (s.ctls host).ctx.host = true)
    (relieved : ∀ other ∈ s.net.members, other ∈ (s.ctls host).roster ∧ ¬ s.Pending other host)
    (left : s.net.leave host (.left host) = some net)
    (elected : (s.ctls host).electSuccessor s.successor host ≠ 0)
    (there : (s.ctls host).electSuccessor s.successor host ∈ net.members) :
    Valued past ((s.ctls host).electSuccessor s.successor host) { s with net := net } := by
  have tidy := valued.led.tidy.leave valued.led.present left
  obtain ⟨outbox, drained⟩ := Network.outbox_leave left
  have stays : ∀ {other}, other ∈ net.members ↔ other ∈ s.net.members ∧ other ≠ host :=
    Network.mem_leave left
  have copied : ∀ id ∈ net.members, (s.foreseen id).copy = (s.ctls host).published :=
    fun _ member => valued.led.copy_of_relieved flag relieved left member
  have departure := fun id member =>
    valued.led.foreseen_departure left member (copied id member)
  generalize (s.ctls host).electSuccessor s.successor host = successor at *
  -- it is not the host yet
  have notYet : (s.ctls successor).ctx.host = false := by
    by_contra isHost
    exact (stays.mp there).2
      (valued.led.host_of_flag (stays.mp there).1 ((Bool.not_eq_false _).mp isHost))
  have assumed := departure successor there
  simp only [if_neg elected, if_true] at assumed
  -- of the others it will hold what the host has announced
  have attributes : ∀ id, id ≠ host →
      (foreseen { s with net := net } successor).copy.attributes id =
        (s.ctls host).published.attributes id := by
    intro id differ
    rw [assumed, ← copied successor there]
    simp only [Copy.attributes, Ctl.copy, Ctl.assumeHost, Ctl.attach, Ctl.remove,
      AList.lookup_erase_ne differ]
  refine
    { led :=
        { tidy := tidy
          present := there
          leads := by
            rw [assumed]
            rfl
          follows := fun id member differ => ?_
          current := fun isHost => absurd (notYet.symm.trans isHost) Bool.false_ne_true
          copies := fun isHost => absurd (notYet.symm.trans isHost) Bool.false_ne_true }
      values := fun id member => ?_
      addressed := fun id member memo sent toID name endpoint isReport => ?_
      own := fun id member => valued.own id (stays.mp member).1
      fresh := fun id unknown => ⟨(valued.fresh id unknown).1, ?_⟩ }
  · have after := departure id member
    simp only [if_neg elected, if_neg (Ne.symm differ)] at after
    rw [after]
    exact ⟨(valued.led.follows id (stays.mp member).1 (stays.mp member).2).1, rfl⟩
  · obtain ⟨present, differ⟩ := stays.mp member
    rw [attributes id differ, valued.published_values flag present (relieved id present).1
      (relieved id present).2]
    -- no report was under way to it
    refine Attributes.reports_of_no_identity _ (fun notice reported => ?_)
    obtain ⟨memo, sent, carried⟩ := List.mem_filterMap.mp reported
    have wasSent : memo ∈ s.net.outbox id := outbox ▸ sent
    have notHost : (s.ctls id).ctx.host = false := by
      by_contra isHost
      exact differ (valued.led.host_of_flag present ((Bool.not_eq_false _).mp isHost))
    have request := valued.led.tidy.requests id present notHost memo wasSent
    rw [Memo.carry_eq_memo carried]
    cases out : memo.out with
    | broadcast msg =>
        rw [out] at request
        cases request
    | sendTo toID msg =>
        cases msg with
        | identity name endpoint =>
            exfalso
            simp only [Memo.carry, out] at carried
            have isReceiver := (Option.ite_none_right_eq_some.mp carried).1
            rcases valued.addressed id present memo wasSent toID name endpoint out with
              ofHost | ⟨_, absent⟩
            · exact (stays.mp there).2 (isReceiver.symm.trans ofHost)
            · exact absent (isReceiver ▸ (stays.mp there).1)
        | snapshotReq => rfl
        | announce a | snapshot blobs | other =>
            rw [out] at request
            cases request
  · refine Or.inr ?_
    rcases valued.addressed id (stays.mp member).1 memo (outbox ▸ sent) toID name endpoint
      isReport with rfl | ⟨used, absent⟩
    · exact ⟨valued.led.tidy.filed.known _ valued.led.present, fun member =>
        (stays.mp member).2 rfl⟩
    · exact ⟨used, fun member => absent (stays.mp member).1⟩
  · have notHost : id ≠ host := fun same =>
      unknown (same ▸ valued.led.tidy.filed.known host valued.led.present)
    rw [attributes id notHost]
    exact Ctl.attributes_published_of_other (fun current =>
      unknown (valued.led.tidy.rosters host valued.led.present id current))

theorem Valued.orphan (valued : s.Valued past host) (flag : (s.ctls host).ctx.host = true)
    (relieved : ∀ other ∈ s.net.members, other ∈ (s.ctls host).roster ∧ ¬ s.Pending other host)
    (left : s.net.leave host (.left host) = some net)
    (nobody : (s.ctls host).electSuccessor s.successor host = 0 ∨
      (s.ctls host).electSuccessor s.successor host ∉ net.members) :
    Orphaned past { s with net := net } := by
  have stays : ∀ {other}, other ∈ net.members ↔ other ∈ s.net.members ∧ other ≠ host :=
    Network.mem_leave left
  have copied : ∀ id ∈ net.members, (s.foreseen id).copy = (s.ctls host).published :=
    fun _ member => valued.led.copy_of_relieved flag relieved left member
  have departure := fun id member =>
    valued.led.foreseen_departure left member (copied id member)
  generalize (s.ctls host).electSuccessor s.successor host = successor at *
  have after : ∀ id ∈ net.members,
      (foreseen { s with net := net } id).ctx.host = false ∧
        (foreseen { s with net := net } id).ctx.hostID ∉ net.members ∧
        (foreseen { s with net := net } id).copy = (s.ctls host).published := by
    intro id member
    obtain ⟨present, differ⟩ := stays.mp member
    obtain ⟨notHost, hostID⟩ := valued.led.follows id present differ
    rw [departure id member]
    by_cases none : successor = 0
    · rw [if_pos none]
      exact ⟨notHost, fun hostStays => (stays.mp hostStays).2 hostID, copied id member⟩
    · have absent := nobody.resolve_left none
      have other : successor ≠ id := fun same => absent (same ▸ member)
      rw [if_neg none, if_neg other]
      exact ⟨notHost, absent, copied id member⟩
  refine
    { tidy := valued.led.tidy.leave valued.led.present left
      lost := fun id member => ⟨(after id member).1, (after id member).2.1⟩
      values := fun id member other otherMember => ?_ }
  have present := (stays.mp otherMember).1
  rw [(after id member).2.2]
  exact valued.published_values flag present (relieved other present).1 (relieved other present).2

end

theorem Orphaned.congr (orphaned : s.Orphaned past)
    (same : ∀ id, lastValues past' id = lastValues past id) : s.Orphaned past' :=
  { orphaned with
    values := fun id member other otherMember =>
      (orphaned.values id member other otherMember).trans (same other).symm }

theorem Orphaned.not_host (orphaned : s.Orphaned past) (present : id ∈ s.net.members) :
    (s.ctls id).ctx.host = false := by
  by_contra isHost
  have flag := (Bool.not_eq_false _).mp isHost
  have notHost := (orphaned.lost id present).1
  rw [orphaned.tidy.host_of_flag present flag, flag] at notHost
  cases notHost

theorem Orphaned.foresee_other (orphaned : s.Orphaned past) (present : id ∈ s.net.members)
    (senderPresent : sender ∈ s.net.members) (notice : Notice)
    (about : ∀ id, notice = .left id → id = sender) :
    (s.foreseen id).foresee s.successor [(sender, notice)] = s.foreseen id := by
  obtain ⟨notHost, absent⟩ := orphaned.lost id present
  exact Ctl.handleNotice_of_other s.successor notHost (fun same => absent (same ▸ senderPresent))
    about

theorem Orphaned.of_foreseen (orphaned : s.Orphaned past) (tidy : next.Tidy)
    (members : ∀ id ∈ next.net.members, id ∈ s.net.members)
    (foreseen : ∀ id ∈ next.net.members, next.foreseen id = s.foreseen id) :
    next.Orphaned past :=
  { tidy := tidy
    lost := fun id member => by
      rw [foreseen id member]
      obtain ⟨notHost, absent⟩ := orphaned.lost id (members id member)
      exact ⟨notHost, fun hostMember => absent (members _ hostMember)⟩
    values := fun id member other otherMember => by
      rw [foreseen id member]
      exact orphaned.values id (members id member) other (members other otherMember) }

theorem Orphaned.moves (orphaned : s.Orphaned past) {action : ReplicaAction}
    (moves : s.Moves action next)
    (aware : ∀ id cmd, action = .command id cmd → (s.ctls id).ctx.hostID ∈ s.net.members) :
    next.Orphaned (past ++ [action]) := by
  have tidy := orphaned.tidy.moves moves
  cases moves with
  | enter id keyer unused present isHost =>
      exact absurd ((orphaned.not_host present).symm.trans isHost) Bool.false_ne_true
  | keyed keyer id role present known unheard =>
      rw [Ctl.memberKeyed_of_member (orphaned.not_host present), write_idle]
      exact orphaned.congr (lastValues_of_no_command past rfl)
  | leave id present net left =>
      refine (orphaned.of_foreseen tidy
        (fun other member => ((Network.mem_leave left).mp member).1)
        (fun other member => ?_)).congr (lastValues_of_no_command past rfl)
      have wasThere := ((Network.mem_leave left).mp member).1
      rw [foreseen, Network.inbox_leave left member, Ctl.foresee_append]
      exact orphaned.foresee_other wasThere present (.left id)
        (fun _ isLeft => (Notice.left.inj isLeft).symm)
  | route sender net routed =>
      have members := Network.members_route routed
      obtain ⟨first, rest, pending, _, inbox⟩ := Network.route_cases routed
      have posted : first ∈ s.net.outbox sender := pending ▸ List.mem_cons_self
      refine (orphaned.of_foreseen tidy (fun other member => members ▸ member)
        (fun other member => ?_)).congr (lastValues_of_no_command past rfl)
      simp only [members] at member
      rw [foreseen, inbox other member, Ctl.foresee_append]
      cases carried : first.carry sender other with
      | none => rfl
      | some notice =>
          refine orphaned.foresee_other member (orphaned.tidy.filed.member_of_post posted) notice
            (fun _ isLeft => ?_)
          rw [Memo.carry_eq_memo carried] at isLeft
          cases isLeft
  | handle receiver present entry net shifted =>
      have members := Network.members_take (Network.take_of_shift shifted)
      exact (orphaned.of_foreseen tidy (fun other member => members ▸ member)
        (fun other _ => foreseen_handle shifted other)).congr (lastValues_of_no_command past rfl)
  | command id cmd present =>
      have hostPresent := aware id cmd rfl
      have absent := (orphaned.lost id present).2
      rw [orphaned.tidy.aware present hostPresent] at absent
      exact absurd hostPresent absent

/-! ### Last write wins -/

/-- Everything that is sent fits in a frame.  An end runs a command while its host
is there, and one that it can report.  A host leaves only when it is relieved. -/
def Careful (fits : CtlMsg → Bool) (s : Replicas) (action : ReplicaAction) : Prop :=
  s.Fitting fits (fun _ => true) action ∧
    match action with
    | .command id cmd =>
        (s.ctls id).ctx.hostID ∈ s.net.members ∧
          ((s.ctls id).ctx.host = false → (s.ctls id).Reportable cmd)
    | .leave id => s.Relieved id
    | _ => True

instance Pending.decidable (s : Replicas) (id host : ParticipantID) :
    Decidable (s.Pending id host) :=
  List.decidableBEx _ _

instance Relieved.decidable (s : Replicas) (id : ParticipantID) : Decidable (s.Relieved id) :=
  have : Decidable (∀ other ∈ s.net.members, other ∈ (s.ctls id).roster ∧ ¬ s.Pending other id) :=
    List.decidableBAll _ _
  inferInstanceAs (Decidable ((s.foreseen id).ctx.host = true →
    (s.ctls id).ctx.host = true ∧
      ∀ other ∈ s.net.members, other ∈ (s.ctls id).roster ∧ ¬ s.Pending other id))

instance Careful.decidable (fits : CtlMsg → Bool) (s : Replicas) (action : ReplicaAction) :
    Decidable (s.Careful fits action) := by
  dsimp only [Careful]
  split <;> infer_instance

/-- There is a host that will hold the last values, or there is none and everybody
holds them. -/
def Settled (past : List ReplicaAction) (s : Replicas) : Prop :=
  (∃ host, s.Valued past host) ∨ s.Orphaned past

theorem Valued.moves {fits : CtlMsg → Bool} (valued : s.Valued past host) {action : ReplicaAction}
    (careful : s.Careful fits action) (moves : s.Moves action next) :
    next.Settled (past ++ [action]) := by
  by_cases departs : action = .leave host
  · subst departs
    have same : ∀ id, lastValues (past ++ [.leave host]) id = lastValues past id :=
      lastValues_of_no_command past rfl
    obtain ⟨flag, relieved⟩ := careful.2 valued.led.leads
    cases moves with
    | leave _ present net left =>
        by_cases nobody : (s.ctls host).electSuccessor s.successor host = 0 ∨
            (s.ctls host).electSuccessor s.successor host ∉ net.members
        · exact Or.inr ((valued.orphan flag relieved left nobody).congr same)
        · obtain ⟨elected, there⟩ := not_or.mp nobody
          exact Or.inl ⟨_, (valued.succeed flag relieved left elected (not_not.mp there)).congr
            same⟩
  · have led := valued.led.moves moves departs (fun id cmd isCommand => by
      subst isCommand
      exact careful.2.1)
    refine Or.inl ⟨host, ?_⟩
    cases moves with
    | enter id keyer unused present isHost =>
        have same := valued.led.host_of_flag present isHost
        subst same
        exact (valued.enter unused led).congr (lastValues_of_no_command past rfl)
    | keyed keyer id role present known unheard =>
        exact (valued.keyed present led).congr (lastValues_of_no_command past rfl)
    | leave id present net left =>
        exact (valued.leave (fun same => departs (same ▸ rfl)) present left led).congr
          (lastValues_of_no_command past rfl)
    | route sender net routed =>
        exact (valued.route routed led).congr (lastValues_of_no_command past rfl)
    | handle receiver present entry net shifted =>
        exact (valued.handle shifted led).congr (lastValues_of_no_command past rfl)
    | command id cmd present => exact valued.command present careful.2.1 careful.2.2 led

def Current (s : Replicas) (id : ParticipantID) : Prop :=
  id ∈ s.net.members ∧ ∃ other ∈ s.net.members, id ∈ (s.ctls other).roster

end Replicas

end Parley.Service
