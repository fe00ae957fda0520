/-
Copies of the roster under one host.

One end is the host, or will be when it has handled what is in its inbox, and it is
the host of all others when they have handled theirs.  Then the copy an end will
hold is the one the host last announced, unless a report of that end is under way.
-/

import Parley.Service.Replicas

namespace Parley.Service

open Library Session
open Wire (Bytes ParticipantID)

namespace Replicas

variable {s next : Replicas}

def foreseen (s : Replicas) (id : ParticipantID) : Ctl :=
  (s.ctls id).foresee s.successor (s.net.inbox id)

def expected (s : Replicas) (host id : ParticipantID) : Ctl :=
  (s.ctls id).foresee s.successor (s.net.ahead Memo.carry host id)

def Pending (s : Replicas) (id host : ParticipantID) : Prop :=
  ∃ notice ∈ s.stream id host, notice.isIdentity = true

/-- The end will hold what the host announces, or nothing when the host does not
have it in its roster. -/
def Held (s : Replicas) (host id : ParticipantID) : Prop :=
  (s.expected host id).copy = (s.ctls host).published ∨
    id ∉ (s.ctls host).roster ∧ (s.expected host id).roster = ∅

/-- One end is the host, or will be when it has handled its inbox, and it is the
host of all others.  The last announce in its outbox is up to date. -/
structure Led (host : ParticipantID) (s : Replicas) : Prop where
  tidy : s.Tidy
  present : host ∈ s.net.members
  leads : (s.foreseen host).ctx.host = true
  follows : ∀ id ∈ s.net.members, id ≠ host →
    (s.foreseen id).ctx.host = false ∧ (s.foreseen id).ctx.hostID = host
  current : (s.ctls host).ctx.host = true → ∀ copy,
    latest ((s.net.outbox host).map (fun memo => memo.out.msg.announced)) = some copy →
      copy = (s.ctls host).published
  copies : (s.ctls host).ctx.host = true → ∀ id ∈ s.net.members, id ≠ host →
    s.Pending id host ∨ s.Held host id

def posted (s : Replicas) (host id : ParticipantID) : List (ParticipantID × Notice) :=
  (s.net.outbox host).filterMap (fun memo =>
    (memo.carry host id).map (fun notice => (host, notice)))

theorem expected_eq (s : Replicas) (host id : ParticipantID) :
    s.expected host id = (s.foreseen id).foresee s.successor (s.posted host id) :=
  Ctl.foresee_append s.successor (s.ctls id) (s.net.inbox id) (s.posted host id)

variable {id sender : ParticipantID} {memos : List Memo}

theorem memo_of_carried {host : ParticipantID} :
    ∀ entry ∈ memos.filterMap (fun memo => (memo.carry host id).map (fun notice => (host, notice))),
      entry.1 = host ∧ ∃ msg pruned, entry.2 = .memo msg pruned := by
  intro entry member
  obtain ⟨memo, _, carried⟩ := List.mem_filterMap.mp member
  obtain ⟨notice, isCarried, rfl⟩ := Option.map_eq_some_iff.mp carried
  exact ⟨rfl, _, _, Memo.carry_eq_memo isCarried⟩

theorem announced_of_carried {used : List ParticipantID} {host : ParticipantID} (differ : id ≠ host)
    (known : ∀ memo ∈ memos, memo.Known used host) :
    latest ((memos.filterMap (fun memo =>
        (memo.carry host id).map (fun notice => (host, notice)))).map (fun entry =>
          entry.2.announced)) =
      latest (memos.map (fun memo => memo.out.msg.announced)) := by
  induction memos with
  | nil => rfl
  | cons memo rest ih =>
      have later := ih (fun other member => known other (List.mem_cons_of_mem memo member))
      rcases (known memo List.mem_cons_self).reaches differ with unannounced | carried
      · rw [List.map_cons, unannounced]
        cases carried : memo.carry host id with
        | none =>
            rw [List.filterMap_cons_none (by rw [carried]; rfl)]
            exact later
        | some notice =>
            rw [List.filterMap_cons_some (by rw [carried]; rfl), List.map_cons,
              Memo.carry_eq_memo carried]
            simp only [Notice.announced, unannounced]
            exact later
      · rw [List.filterMap_cons_some (by rw [carried]; rfl), List.map_cons, List.map_cons]
        exact latest_cons_congr memo.out.msg.announced later

theorem write_idle (s : Replicas) (id : ParticipantID) : s.write id (s.ctls id, []) = s := by
  simp only [write, Network.post, List.map_nil, List.append_nil, Function.update_eq_self]

section

variable {host : ParticipantID}

theorem Tidy.host_of_flag (tidy : s.Tidy) (present : id ∈ s.net.members)
    (flag : (s.ctls id).ctx.host = true) : (s.foreseen id).ctx = (s.ctls id).ctx := by
  refine Ctl.ctx_foresee_of_host s.successor (tidy.proper id present) flag ?_
  rw [tidy.self id present]
  exact tidy.notLeft present

theorem Tidy.foreseen_proper (tidy : s.Tidy) (present : id ∈ s.net.members) :
    (s.foreseen id).Proper ∧ (s.foreseen id).ctx.self = id := by
  have self := tidy.self id present
  have stays : ∀ entry ∈ s.net.inbox id, entry.2 ≠ .left (s.ctls id).ctx.self := by
    rw [self]
    exact tidy.notLeft present
  obtain ⟨proper, same⟩ := Ctl.proper_foresee s.successor (tidy.proper id present) stays
  exact ⟨proper, same.trans self⟩

theorem Led.host_of_flag (led : s.Led host) (present : id ∈ s.net.members)
    (flag : (s.ctls id).ctx.host = true) : id = host := by
  by_contra differ
  have notHost := (led.follows id present differ).1
  rw [led.tidy.host_of_flag present flag, flag] at notHost
  cases notHost

theorem Tidy.aware (tidy : s.Tidy) (present : id ∈ s.net.members)
    (hostPresent : (s.ctls id).ctx.hostID ∈ s.net.members) :
    (s.foreseen id).ctx = (s.ctls id).ctx :=
  Ctl.ctx_foresee s.successor (fun entry member isLeft =>
    tidy.gone id present entry member _ isLeft hostPresent)

theorem Led.expected_of (led : s.Led host) (present : id ∈ s.net.members) (differ : id ≠ host) :
    (s.expected host id).ctx = (s.foreseen id).ctx := by
  obtain ⟨notHost, isHost⟩ := led.follows id present differ
  rw [expected_eq]
  exact (Ctl.foresee_memos s.successor notHost (isHost.symm ▸ memo_of_carried)).1

variable {writer : ParticipantID}

theorem foreseen_write_of_ne (s : Replicas) (differ : id ≠ writer) (result : Ctl × List Outgoing) :
    (s.write writer result).foreseen id = s.foreseen id := by
  simp only [foreseen, write, Function.update_of_ne differ, Network.post]

theorem foreseen_write_self (s : Replicas) (writer : ParticipantID)
    (result : Ctl × List Outgoing) :
    (s.write writer result).foreseen writer =
      result.1.foresee s.successor (s.net.inbox writer) := by
  simp only [foreseen, write, Function.update_self, Network.post]

theorem expected_write_of_ne (s : Replicas) (differ : id ≠ writer) (notHost : host ≠ writer)
    (result : Ctl × List Outgoing) :
    (s.write writer result).expected host id = s.expected host id := by
  simp only [expected, write, Function.update_of_ne differ, Network.ahead_post_of_ne _ notHost]

theorem expected_write_host (s : Replicas) (differ : id ≠ host) (result : Ctl × List Outgoing) :
    (s.write host result).expected host id =
      (s.expected host id).foresee s.successor
        ((result.2.map (fun out => (⟨out, result.1.pruned⟩ : Memo))).filterMap (fun memo =>
          (memo.carry host id).map (fun notice => (host, notice)))) := by
  simp only [expected, write, Function.update_of_ne differ, Network.ahead_post_self,
    Ctl.foresee_append]

theorem Pending.write (pending : s.Pending id host) (writer : ParticipantID)
    (result : Ctl × List Outgoing) : (s.write writer result).Pending id host := by
  obtain ⟨notice, member, isIdentity⟩ := pending
  refine ⟨notice, ?_, isIdentity⟩
  by_cases same : id = writer
  · subst same
    simp only [stream, Replicas.write, Network.stream_post_self]
    exact List.mem_append_left _ member
  · simp only [stream, Replicas.write, Network.stream_post_of_ne _ same]
    exact member

theorem Led.of_announce {c : Ctl}
    (tidy : (s.write host (c, [c.announce ctlServices])).Tidy) (present : host ∈ s.net.members)
    (isHost : c.ctx.host = true)
    (follows : ∀ id ∈ s.net.members, id ≠ host →
      (s.foreseen id).ctx.host = false ∧ (s.foreseen id).ctx.hostID = host) :
    (s.write host (c, [c.announce ctlServices])).Led host := by
  have holds : (s.write host (c, [c.announce ctlServices])).ctls host = c := Function.update_self ..
  refine
    { tidy := tidy
      present := present
      leads := ?_
      follows := fun id member differ => ?_
      current := fun _ copy isLatest => ?_
      copies := fun _ id member differ => Or.inr (Or.inl ?_) }
  · rw [tidy.host_of_flag present (holds.symm ▸ isHost), holds]
    exact isHost
  · rw [foreseen_write_of_ne s differ]
    exact follows id member differ
  · rw [holds]
    simp only [Replicas.write, Network.post, Function.update_self, List.map_append, List.map_cons,
      List.map_nil] at isLatest
    rw [show (c.announce ctlServices).msg.announced = some c.published from rfl,
      latest_concat] at isLatest
    exact (Option.some.inj isLatest).symm
  · obtain ⟨notHost, hostID⟩ := follows id member differ
    -- its context is that of its inbox: what the host posts does not change it
    have expectedCtx : (s.expected host id).ctx = (s.foreseen id).ctx := by
      rw [expected_eq]
      exact (Ctl.foresee_memos s.successor notHost (hostID.symm ▸ memo_of_carried)).1
    rw [expected_write_host s differ, holds]
    refine (Ctl.foresee_memos s.successor (expectedCtx ▸ notHost) ?_).2.trans ?_
    · rw [expectedCtx, hostID]
      exact memo_of_carried
    · simp only [List.map_cons, List.map_nil, List.filterMap_cons, List.filterMap_nil, Memo.carry,
        Ctl.announce, if_neg differ, Option.map_some]
      rfl

theorem Led.of_answers (led : s.Led host) (isHost : (s.ctls host).ctx.host = true)
    {outs : List Outgoing}
    (answer : ∀ out ∈ outs, ∃ toID msg, out = .sendTo toID msg ∧ msg.announced = none)
    (tidy : (s.write host (s.ctls host, outs)).Tidy) :
    (s.write host (s.ctls host, outs)).Led host := by
  have holds : (s.write host (s.ctls host, outs)).ctls host = s.ctls host :=
    Function.update_self ..
  refine
    { tidy := tidy
      present := led.present
      leads := ?_
      follows := fun id member differ => ?_
      current := fun _ copy isLatest => ?_
      copies := fun _ id member differ => ?_ }
  · rw [foreseen_write_self]
    exact led.leads
  · rw [foreseen_write_of_ne s differ]
    exact led.follows id member differ
  · rw [holds]
    refine led.current isHost copy ?_
    simp only [Replicas.write, Network.post, Function.update_self, List.map_append] at isLatest
    rwa [latest_append_of_none] at isLatest
    intro announced member
    obtain ⟨memo, isMemo, rfl⟩ := List.mem_map.mp member
    obtain ⟨out, sent, rfl⟩ := List.mem_map.mp isMemo
    obtain ⟨toID, msg, rfl, unannounced⟩ := answer out sent
    exact unannounced
  · refine (led.copies isHost id member differ).imp (fun pending => pending.write host _)
      (fun held => ?_)
    obtain ⟨notHost, hostID⟩ := led.follows id member differ
    have expectedCtx := led.expected_of member differ
    have unchanged : ((s.write host (s.ctls host, outs)).expected host id).copy =
        (s.expected host id).copy := by
      rw [expected_write_host s differ]
      refine (Ctl.foresee_memos s.successor (expectedCtx ▸ notHost) ?_).2.trans ?_
      · rw [expectedCtx, hostID]
        exact memo_of_carried
      · rw [latest_of_none, Option.getD_none]
        intro announced member
        obtain ⟨entry, there, rfl⟩ := List.mem_map.mp member
        obtain ⟨memo, isMemo, carried⟩ := List.mem_filterMap.mp there
        obtain ⟨out, sent, rfl⟩ := List.mem_map.mp isMemo
        obtain ⟨notice, isCarried, rfl⟩ := Option.map_eq_some_iff.mp carried
        obtain ⟨toID, msg, rfl, unannounced⟩ := answer out sent
        rw [Memo.carry_eq_memo isCarried]
        exact unannounced
    have sameRoster := congrArg Copy.roster unchanged
    simp only [Held, holds]
    exact held.imp (fun same => unchanged.trans same)
      (fun both => ⟨both.1, sameRoster.trans both.2⟩)

section

variable {receiver : ParticipantID} {entry : ParticipantID × Notice}
  {net : Network ParticipantID Memo Notice}

theorem foreseen_handle (shifted : s.net.shift receiver = some (entry, net)) (id : ParticipantID) :
    (write { s with net := net } receiver
      ((s.ctls receiver).handleNotice s.successor entry.1 entry.2)).foreseen id =
        s.foreseen id := by
  obtain ⟨rest, pending, rfl⟩ := Network.shift_cases shifted
  by_cases same : id = receiver
  · subst same
    rw [foreseen_write_self]
    simp only [foreseen, pending, Function.update_self]
    rfl
  · rw [foreseen_write_of_ne _ same]
    simp only [foreseen, Function.update_of_ne same]

theorem expected_handle (shifted : s.net.shift receiver = some (entry, net))
    (notHost : host ≠ receiver) (id : ParticipantID) :
    (write { s with net := net } receiver
      ((s.ctls receiver).handleNotice s.successor entry.1 entry.2)).expected host id =
        s.expected host id := by
  obtain ⟨rest, pending, rfl⟩ := Network.shift_cases shifted
  simp only [expected, write, Network.ahead_post_of_ne _ notHost]
  by_cases same : id = receiver
  · subst same
    simp only [Network.ahead, pending, Function.update_self]
    rfl
  · simp only [Network.ahead, Function.update_of_ne same]

theorem Led.handle_of_member (led : s.Led host)
    (shifted : s.net.shift receiver = some (entry, net))
    (notHost : ((s.ctls receiver).handleNotice s.successor entry.1 entry.2).1.ctx.host = false)
    (tidy : (write { s with net := net } receiver
      ((s.ctls receiver).handleNotice s.successor entry.1 entry.2)).Tidy) :
    (write { s with net := net } receiver
      ((s.ctls receiver).handleNotice s.successor entry.1 entry.2)).Led host := by
  have taken := Network.take_of_shift shifted
  have members : net.members = s.net.members := Network.members_take taken
  refine
    { tidy := tidy
      present := members.symm ▸ led.present
      leads := (foreseen_handle shifted host).symm ▸ led.leads
      follows := fun id member differ => ?_
      current := fun isHost copy isLatest => ?_
      copies := fun isHost id member differ => ?_ }
  · rw [foreseen_handle shifted id]
    exact led.follows id (members ▸ member) differ
  · by_cases same : host = receiver
    · subst same
      simp only [write, Function.update_self, notHost, Bool.false_eq_true] at isHost
    · simp only [write, Network.post, Function.update_of_ne same,
        Network.outbox_take taken] at isHost isLatest ⊢
      exact led.current isHost copy isLatest
  · by_cases same : host = receiver
    · subst same
      simp only [write, Function.update_self, notHost, Bool.false_eq_true] at isHost
    · have unchanged : ∀ result, (write { s with net := net } receiver result).ctls host =
          s.ctls host := fun result => by
        simp only [write, Function.update_of_ne same]
      rw [unchanged] at isHost
      rcases led.copies isHost id (members ▸ member) differ with pending | held
      · refine Or.inl (Pending.write ?_ receiver _)
        obtain ⟨notice, there, isIdentity⟩ := pending
        refine ⟨notice, ?_, isIdentity⟩
        simp only [stream, Network.stream_take_of_ne taken (Or.inl same)]
        exact there
      · refine Or.inr ?_
        simp only [Held, expected_handle shifted same id, unchanged]
        exact held

theorem Led.shift_of_host (led : s.Led host) (shifted : s.net.shift host = some (entry, net))
    (isHost : (s.ctls host).ctx.host = true) (notIdentity : entry.2.isIdentity = false) :
    Led host { s with net := net } := by
  have taken := Network.take_of_shift shifted
  have members : net.members = s.net.members := Network.members_take taken
  have tidy := led.tidy.shift shifted
  have present : host ∈ net.members := members.symm ▸ led.present
  obtain ⟨rest, pending, isNet⟩ := Network.shift_cases shifted
  refine
    { tidy := tidy
      present := present
      leads := by
        rw [tidy.host_of_flag present isHost]
        exact isHost
      follows := fun id member differ => ?_
      current := fun _ copy isLatest =>
        led.current isHost copy (Network.outbox_take taken ▸ isLatest)
      copies := fun _ id member differ => ?_ }
  · have same : foreseen { s with net := net } id = s.foreseen id := by
      simp only [foreseen, isNet, Function.update_of_ne differ]
    rw [same]
    exact led.follows id (members ▸ member) differ
  · rcases led.copies isHost id (members ▸ member) differ with ⟨notice, there, isIdentity⟩ | held
    · refine Or.inl ⟨notice, ?_, isIdentity⟩
      by_cases same : id = entry.1
      · subst same
        simp only [stream, Network.stream_take taken] at there
        refine (List.mem_cons.mp there).resolve_left (fun isEntry => ?_)
        rw [isEntry, notIdentity] at isIdentity
        cases isIdentity
      · simp only [stream, Network.stream_take_of_ne taken (Or.inr same)]
        exact there
    · refine Or.inr ?_
      have same : expected { s with net := net } host id = s.expected host id := by
        simp only [expected, Network.ahead, isNet, Function.update_of_ne differ]
      rw [Held, same]
      exact held

theorem Led.handle (led : s.Led host) (present : receiver ∈ s.net.members)
    (shifted : s.net.shift receiver = some (entry, net))
    (tidy : (write { s with net := net } receiver
      ((s.ctls receiver).handleNotice s.successor entry.1 entry.2)).Tidy) :
    (write { s with net := net } receiver
      ((s.ctls receiver).handleNotice s.successor entry.1 entry.2)).Led host := by
  have members : net.members = s.net.members :=
    Network.members_take (Network.take_of_shift shifted)
  by_cases notHost : ((s.ctls receiver).handleNotice s.successor entry.1 entry.2).1.ctx.host = false
  · exact led.handle_of_member shifted notHost tidy
  · have isHost : ((s.ctls receiver).handleNotice s.successor entry.1 entry.2).1.ctx.host = true :=
      (Bool.not_eq_false _).mp notHost
    have holds : (write { s with net := net } receiver
        ((s.ctls receiver).handleNotice s.successor entry.1 entry.2)).ctls receiver =
        ((s.ctls receiver).handleNotice s.successor entry.1 entry.2).1 := Function.update_self ..
    have inNext : receiver ∈ net.members := members.symm ▸ present
    -- only the host is the host afterwards
    have same : receiver = host := by
      by_contra differ
      have flag := tidy.host_of_flag inNext (holds.symm ▸ isHost)
      rw [foreseen_handle shifted receiver, holds] at flag
      exact absurd ((led.follows receiver present differ).1) (by rw [flag, isHost]; decide)
    subst same
    have follows : ∀ id ∈ net.members, id ≠ receiver →
        (foreseen { s with net := net } id).ctx.host = false ∧
          (foreseen { s with net := net } id).ctx.hostID = receiver := by
      intro id member differ
      have unchanged := foreseen_handle shifted id
      rw [foreseen_write_of_ne _ differ] at unchanged
      rw [unchanged]
      exact led.follows id (members ▸ member) differ
    have known := led.tidy.known_of_shift shifted
    have self := led.tidy.self receiver present
    have reacts := Ctl.reacts_handleNotice s.successor (led.tidy.proper receiver present)
      (self.symm ▸ known.other) known.about
    have identity := fun flag => @Ctl.handleNotice_identity (s.ctls receiver) s.successor flag
      entry.1 entry.2
    generalize (s.ctls receiver).handleNotice s.successor entry.1 entry.2 = result at *
    cases reacts with
    | announces host _ => exact Led.of_announce tidy inNext isHost follows
    | takesOver wasMember _ => exact Led.of_announce tidy inNext isHost follows
    | hears _ still => exact absurd (still.symm.trans isHost) Bool.false_ne_true
    | reports name endpoint wasMember same =>
        rw [same, wasMember] at isHost
        cases isHost
    | answers flag answer =>
        have notIdentity : entry.2.isIdentity = false := by
          by_contra isIdentity
          have sent := identity flag ((Bool.not_eq_false _).mp isIdentity)
          obtain ⟨toID, msg, isSendTo, _⟩ := answer _ (sent ▸ List.mem_singleton_self _)
          cases isSendTo
        exact (led.shift_of_host shifted flag notIdentity).of_answers flag
          (fun out sent => by
            obtain ⟨toID, msg, isSendTo, _, unannounced⟩ := answer out sent
            exact ⟨toID, msg, isSendTo, unannounced⟩) tidy

end

theorem Led.foresee_other (led : s.Led host) (present : id ∈ s.net.members) (differ : id ≠ host)
    (other : sender ≠ host) (notice : Notice) (about : ∀ id, notice = .left id → id = sender) :
    (s.foreseen id).foresee s.successor [(sender, notice)] = s.foreseen id := by
  obtain ⟨notHost, hostID⟩ := led.follows id present differ
  exact Ctl.handleNotice_of_other s.successor notHost (hostID.symm ▸ other) about

theorem Led.expected_other (led : s.Led host) (present : id ∈ s.net.members) (differ : id ≠ host)
    (other : sender ≠ host) (notice : Notice) (about : ∀ id, notice = .left id → id = sender) :
    (s.ctls id).foresee s.successor (s.net.inbox id ++ [(sender, notice)] ++ s.posted host id) =
      s.expected host id := by
  rw [Ctl.foresee_append, Ctl.foresee_append, expected_eq]
  exact congrArg (fun c => Ctl.foresee s.successor c (s.posted host id))
    (led.foresee_other present differ other notice about)

theorem Led.leave (led : s.Led host) (present : id ∈ s.net.members) (differ : id ≠ host)
    {net : Network ParticipantID Memo Notice} (left : s.net.leave id (.left id) = some net) :
    Led host { s with net := net } := by
  have stays : ∀ {other}, other ∈ net.members ↔ other ∈ s.net.members ∧ other ≠ id :=
    Network.mem_leave left
  have hostStays : host ∈ net.members := stays.mpr ⟨led.present, Ne.symm differ⟩
  have about : ∀ other, Notice.left id = .left other → other = id :=
    fun _ isLeft => (Notice.left.inj isLeft).symm
  have tidy := led.tidy.leave present left
  have inbox : ∀ other ∈ net.members,
      net.inbox other = s.net.inbox other ++ [(id, .left id)] :=
    fun other member => Network.inbox_leave left member
  have outbox := (Network.outbox_leave left).1
  refine
    { tidy := tidy
      present := hostStays
      leads := ?_
      follows := fun other member notHost => ?_
      current := fun isHost copy isLatest => led.current isHost copy (outbox ▸ isLatest)
      copies := fun isHost other member notHost => ?_ }
  · obtain ⟨proper, self⟩ := led.tidy.foreseen_proper led.present
    have hostID : (s.foreseen host).ctx.hostID = host := (proper.mp led.leads).trans self
    have unchanged : ((s.foreseen host).handleNotice s.successor id (.left id)).1.ctx =
        (s.foreseen host).ctx := by
      refine Ctl.ctx_handleNotice s.successor id (fun isLeft => differ ?_)
      exact (Notice.left.inj isLeft).trans hostID
    rw [foreseen, inbox host hostStays, Ctl.foresee_append]
    exact (congrArg Context.host unchanged).trans led.leads
  · rw [foreseen, inbox other member, Ctl.foresee_append]
    have unchanged := led.foresee_other (stays.mp member).1 notHost differ (.left id) about
    rw [show (s.ctls other).foresee s.successor (s.net.inbox other) = s.foreseen other from rfl,
      unchanged]
    exact led.follows other (stays.mp member).1 notHost
  · refine (led.copies isHost other (stays.mp member).1 notHost).imp (fun pending => ?_)
      (fun held => ?_)
    · obtain ⟨notice, there, isIdentity⟩ := pending
      refine ⟨notice, ?_, isIdentity⟩
      simp only [stream, Network.stream_leave_of_ne left (stays.mp member).2]
      exact there
    · have same : expected { s with net := net } host other = s.expected host other := by
        rw [← led.expected_other (stays.mp member).1 notHost differ (.left id) about]
        simp only [expected, Network.ahead, inbox other member, outbox, posted]
      rw [Held, same]
      exact held

theorem Led.route (led : s.Led host) {net : Network ParticipantID Memo Notice}
    (routed : s.net.route Memo.carry sender = some net) :
    Led host { s with net := net } := by
  have members : net.members = s.net.members := Network.members_route routed
  have tidy := led.tidy.route routed
  obtain ⟨first, rest, pending, outbox, inbox⟩ := Network.route_cases routed
  -- a ctl frame does not change what an end is
  have sameCtx : ∀ id ∈ s.net.members,
      (foreseen { s with net := net } id).ctx = (s.foreseen id).ctx := by
    intro id member
    rw [foreseen, inbox id member, Ctl.foresee_append]
    refine Ctl.ctx_foresee s.successor (fun entry there => ?_)
    obtain ⟨notice, carried, rfl⟩ := Option.map_eq_some_iff.mp (Option.mem_toList.mp there)
    rw [Memo.carry_eq_memo carried]
    exact fun isLeft => by cases isLeft
  refine
    { tidy := tidy
      present := members.symm ▸ led.present
      leads := (congrArg Context.host (sameCtx host led.present)).trans led.leads
      follows := fun id member differ => ?_
      current := fun isHost copy isLatest => ?_
      copies := fun isHost id member differ => ?_ }
  · simp only [members] at member
    rw [sameCtx id member]
    exact led.follows id member differ
  · refine led.current isHost copy ?_
    by_cases same : host = sender
    · subst same
      simp only [outbox, Function.update_self] at isLatest
      rw [pending, List.map_cons]
      exact latest_of_tail isLatest
    · simpa only [outbox, Function.update_of_ne same] using isLatest
  · simp only [members] at member
    refine (led.copies isHost id member differ).imp (fun waiting => ?_) (fun held => ?_)
    · obtain ⟨notice, there, isIdentity⟩ := waiting
      refine ⟨notice, ?_, isIdentity⟩
      simp only [stream, Network.stream_route routed id led.present]
      exact there
    · have same : expected { s with net := net } host id = s.expected host id := by
        by_cases ofHost : host = sender
        · subst ofHost
          simp only [expected, Network.ahead_route_self routed member]
        · cases carried : first.carry sender id with
          | none =>
              simp only [expected, Network.ahead, inbox id member, outbox, carried,
                Function.update_of_ne ofHost, Option.map_none, Option.toList_none, List.append_nil]
          | some notice =>
              have isMemo := Memo.carry_eq_memo carried
              rw [← led.expected_other member differ (Ne.symm ofHost) notice
                (fun _ isLeft => by rw [isMemo] at isLeft; cases isLeft)]
              simp only [expected, Network.ahead, inbox id member, outbox, carried, posted,
                Function.update_of_ne ofHost, Option.map_some, Option.toList_some]
      rw [Held, same]
      exact held

theorem foreseen_welcome (s : Replicas) (id : ParticipantID) {other : ParticipantID}
    (member : other ∈ s.net.members) : (s.welcome id).foreseen other = s.foreseen other := by
  have inbox : (s.welcome id).net.inbox other = s.net.inbox other ++ [(id, .joined id)] :=
    if_pos member
  rw [foreseen, inbox]
  exact Ctl.foresee_append s.successor (s.ctls other) (s.net.inbox other) [(id, .joined id)]

theorem Led.enter (led : s.Led host) (unused : id ∉ s.used)
    (isHost : (s.ctls host).ctx.host = true) :
    ((s.welcome id).write id
      (newcomer id host, [(newcomer id host).requestSnapshot])).Led host := by
  have absent : id ∉ s.net.members := fun member => unused (led.tidy.filed.known id member)
  have notHost : host ≠ id := fun same => absent (same ▸ led.present)
  have ownInbox : (s.welcome id).net.inbox id = [] :=
    (if_neg absent).trans (led.tidy.filed.fresh id unused)
  have old : ∀ {other}, other ∈ (s.welcome id).net.members → other ≠ id → other ∈ s.net.members :=
    fun member differ => (List.mem_append.mp member).resolve_right (fun isNew =>
      differ (List.mem_singleton.mp isNew))
  have tidy := led.tidy.enter unused led.present
  have expected_old : ∀ other ∈ s.net.members,
      (s.welcome id).expected host other = s.expected host other := by
    intro other member
    rw [expected_eq, foreseen_welcome s id member, expected_eq]
    rfl
  refine
    { tidy := tidy
      present := List.mem_append_left [id] led.present
      leads := ?_
      follows := fun other member differ => ?_
      current := fun _ copy isLatest => ?_
      copies := fun _ other member differ => ?_ }
  · rw [foreseen_write_of_ne _ notHost, foreseen_welcome s id led.present]
    exact led.leads
  · by_cases isNew : other = id
    · subst isNew
      rw [foreseen_write_self, ownInbox]
      exact ⟨rfl, rfl⟩
    · rw [foreseen_write_of_ne _ isNew, foreseen_welcome s id (old member isNew)]
      exact led.follows other (old member isNew) differ
  · simp only [write, Network.post, Function.update_of_ne notHost] at isLatest ⊢
    exact led.current isHost copy isLatest
  · have holds : ((s.welcome id).write id
        (newcomer id host, [(newcomer id host).requestSnapshot])).ctls host = s.ctls host :=
      Function.update_of_ne notHost _ _
    by_cases isNew : other = id
    · -- a newcomer has only the host's outbox to expect
      subst isNew
      right
      have after : ((s.welcome other).write other
          (newcomer other host, [(newcomer other host).requestSnapshot])).expected host other =
          (newcomer other host).foresee s.successor (s.posted host other) := by
        simp only [expected, write, Network.ahead_post_of_ne _ notHost, Function.update_self]
        rw [Network.ahead, ownInbox, List.nil_append]
        rfl
      have copy : ((newcomer other host).foresee s.successor (s.posted host other)).copy =
          (latest ((s.net.outbox host).map (fun memo => memo.out.msg.announced))).getD
            (newcomer other host).copy := by
        rw [← announced_of_carried differ (led.tidy.filed.posts host)]
        exact (Ctl.foresee_memos s.successor rfl memo_of_carried).2
      rw [Held, holds, after]
      cases isLatest : latest ((s.net.outbox host).map (fun memo => memo.out.msg.announced)) with
      | some announced =>
          left
          rw [isLatest, Option.getD_some, led.current isHost announced isLatest] at copy
          exact copy
      | none =>
          right
          rw [isLatest, Option.getD_none] at copy
          exact ⟨fun inRoster => unused (led.tidy.rosters host led.present other inRoster),
            congrArg Copy.roster copy⟩
    · refine (led.copies isHost other (old member isNew) differ).imp (fun pending => ?_)
        (fun held => ?_)
      · refine Pending.write ?_ id _
        obtain ⟨notice, there, isIdentity⟩ := pending
        refine ⟨notice, ?_, isIdentity⟩
        have sameStream : (s.welcome id).stream other host = s.stream other host :=
          Network.stream_announce_of_ne s.net isNew (.joined id) host
        exact sameStream ▸ there
      · rw [Held, holds, expected_write_of_ne _ isNew notHost,
          expected_old other (old member isNew)]
        exact held

theorem Led.write_of_host (led : s.Led host) (isHost : (s.ctls host).ctx.host = true)
    {result : Ctl × List Outgoing} (reacts : (s.ctls host).Reacts result)
    (tidy : (s.write host result).Tidy) : (s.write host result).Led host := by
  cases reacts with
  | announces flag same =>
      exact Led.of_announce tidy led.present (same ▸ flag) led.follows
  | answers flag answer =>
      refine led.of_answers flag (fun out sent => ?_) tidy
      obtain ⟨toID, msg, isSendTo, _, unannounced⟩ := answer out sent
      exact ⟨toID, msg, isSendTo, unannounced⟩
  | hears notHost _ | reports name endpoint notHost _ | takesOver notHost _ =>
      exact absurd (notHost.symm.trans isHost) Bool.false_ne_true

theorem Led.keyed (led : s.Led host) {keyer : ParticipantID} {role : Role}
    (present : keyer ∈ s.net.members)
    (tidy : (s.write keyer ((s.ctls keyer).memberKeyed ctlServices id role)).Tidy) :
    (s.write keyer ((s.ctls keyer).memberKeyed ctlServices id role)).Led host := by
  cases flag : (s.ctls keyer).ctx.host with
  | true =>
      have same := led.host_of_flag present flag
      subst same
      exact led.write_of_host flag (Ctl.reacts_memberKeyed _ id role) tidy
  | false =>
      rw [Ctl.memberKeyed_of_member flag, write_idle]
      exact led

theorem Led.command (led : s.Led host) (present : id ∈ s.net.members) (cmd : Command)
    (aware : (s.ctls id).ctx.hostID ∈ s.net.members)
    (tidy : (s.write id ((s.ctls id).execute cmd)).Tidy) :
    (s.write id ((s.ctls id).execute cmd)).Led host := by
  have sameCtx := led.tidy.aware present aware
  by_cases same : id = host
  · subst same
    exact led.write_of_host (sameCtx ▸ led.leads) (Ctl.reacts_execute _ cmd) tidy
  · obtain ⟨notHost, hostID⟩ := led.follows id present same
    rw [sameCtx] at notHost hostID
    rcases Ctl.execute_of_member notHost cmd with idle | ⟨name, endpoint, reported⟩
    · rw [idle, write_idle]
      exact led
    · have differ : host ≠ id := Ne.symm same
      have holds : (s.write id ((s.ctls id).execute cmd)).ctls host = s.ctls host :=
        Function.update_of_ne differ _ _
      refine
        { tidy := tidy
          present := led.present
          leads := (foreseen_write_of_ne s differ _).symm ▸ led.leads
          follows := fun other member notHostID => ?_
          current := fun isHost copy isLatest => ?_
          copies := fun isHost other member notHostID => ?_ }
      · by_cases itself : other = id
        · subst itself
          have stillAware := tidy.aware present (by
            simp only [write, Function.update_self, Ctl.ctx_execute]
            exact aware)
          rw [stillAware]
          simp only [write, Function.update_self, Ctl.ctx_execute]
          exact ⟨notHost, hostID⟩
        · rw [foreseen_write_of_ne s itself]
          exact led.follows other member notHostID
      · rw [holds] at isHost ⊢
        simp only [write, Network.post, Function.update_of_ne differ] at isLatest
        exact led.current isHost copy isLatest
      · rw [holds] at isHost
        by_cases itself : other = id
        · subst itself
          left
          refine ⟨.memo (.identity name endpoint) ((s.ctls other).execute cmd).1.pruned, ?_, rfl⟩
          simp only [stream, write, Network.stream_post_self, reported, hostID, List.map_cons,
            List.map_nil, List.filterMap_cons, List.filterMap_nil, Memo.carry, if_true]
          exact List.mem_append_right _ (List.mem_singleton_self _)
        · refine (led.copies isHost other member notHostID).imp (fun pending => pending.write id _)
            (fun held => ?_)
          rw [Held, holds, expected_write_of_ne s itself differ]
          exact held

theorem Led.moves (led : s.Led host) {action : ReplicaAction} (moves : s.Moves action next)
    (stays : action ≠ .leave host)
    (aware : ∀ id cmd, action = .command id cmd → (s.ctls id).ctx.hostID ∈ s.net.members) :
    next.Led host := by
  have tidy := led.tidy.moves moves
  cases moves with
  | enter id keyer unused present isHost =>
      have same := led.host_of_flag present isHost
      subst same
      exact led.enter unused isHost
  | keyed keyer id role present known unheard => exact led.keyed present tidy
  | leave id present net left => exact led.leave present (fun same => stays (same ▸ rfl)) left
  | route sender net routed => exact led.route routed
  | handle receiver present entry net shifted => exact led.handle present shifted tidy
  | command id cmd present => exact led.command present cmd (aware id cmd rfl) tidy

/-! ### Nothing under way -/

end

end Replicas

end Parley.Service
