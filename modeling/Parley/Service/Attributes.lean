/-
The name and the endpoint of one participant.

`lastValues` is what a participant last set in a list of actions.  A host takes a
participant's values from its reports only, in their order, and announces those of
its roster.  A command at another end writes them to its own copy and reports them,
if a report can say them.
-/

import Parley.Library.AssocList
import Parley.Service.Replicas

namespace Parley.Service

open Library Session
open Wire (Bytes ParticipantID)

/-- What a copy says about one participant.  A missing endpoint counts as the empty
one. -/
structure Attributes where
  name : Option Name
  endpoint : Bytes
  deriving DecidableEq

def Copy.attributes (copy : Copy) (id : ParticipantID) : Attributes :=
  { name := copy.names.lookup id
    endpoint := (copy.endpoints.lookup id).getD [] }

namespace Attributes

def blank : Attributes :=
  { name := none
    endpoint := [] }

def report (held : Attributes) : Notice → Attributes
  | .memo (.identity name endpoint) _ =>
      { name := if name = [] then held.name else some (sanitizeName name)
        endpoint := if endpoint = [] then held.endpoint else endpoint }
  | _ => held

def reports (held : Attributes) (notices : List Notice) : Attributes :=
  notices.foldl report held

theorem reports_append (held : Attributes) (first second : List Notice) :
    held.reports (first ++ second) = (held.reports first).reports second :=
  List.foldl_append

theorem reports_of_no_identity (held : Attributes) {notices : List Notice}
    (none : ∀ notice ∈ notices, notice.isIdentity = false) : held.reports notices = held := by
  induction notices with
  | nil => rfl
  | cons notice rest ih =>
      have unchanged : held.report notice = held := by
        cases notice with
        | joined id => rfl
        | left id => rfl
        | memo msg pruned =>
            cases msg with
            | identity name endpoint => exact absurd (none _ List.mem_cons_self) Bool.noConfusion
            | announce a => rfl
            | snapshotReq => rfl
            | snapshot blobs => rfl
            | other => rfl
      rw [reports, List.foldl_cons, unchanged]
      exact ih (fun other member => none other (List.mem_cons_of_mem notice member))

end Attributes

/-- What a participant has set after an action: the sanitized form of a name that
is not blank then, or an endpoint. -/
def ReplicaAction.sets (id : ParticipantID) (held : Attributes) : ReplicaAction → Attributes
  | .command other (.setName name) =>
      if other = id ∧ sanitizeName name ≠ [] then { held with name := some (sanitizeName name) }
      else held
  | .command other (.setEndpoint endpoint) =>
      if other = id then { held with endpoint := endpoint } else held
  | _ => held

def ReplicaAction.isCommand : ReplicaAction → Bool
  | .command _ _ => true
  | _ => false

def lastValues (actions : List ReplicaAction) (id : ParticipantID) : Attributes :=
  actions.foldl (fun held action => action.sets id held) Attributes.blank

theorem lastValues_append (past : List ReplicaAction) (action : ReplicaAction)
    (id : ParticipantID) :
    lastValues (past ++ [action]) id = action.sets id (lastValues past id) :=
  List.foldl_append

variable {id : ParticipantID} {name : Name}

theorem sets_of_blank (id : ParticipantID) (held : Attributes) (blank : sanitizeName name = []) :
    (ReplicaAction.command id (.setName name)).sets id held = held :=
  if_neg (fun both => both.2 blank)

theorem sets_of_named (id : ParticipantID) (held : Attributes) (named : sanitizeName name ≠ []) :
    (ReplicaAction.command id (.setName name)).sets id held =
      { held with name := some (sanitizeName name) } :=
  if_pos ⟨rfl, named⟩

theorem sets_of_other {other : ParticipantID} (differ : other ≠ id) (held : Attributes)
    (cmd : Command) : (ReplicaAction.command other cmd).sets id held = held := by
  cases cmd with
  | setName name => exact if_neg (fun both => differ both.1)
  | setEndpoint endpoint => exact if_neg differ
  | setPushKey key => rfl

theorem lastValues_of_no_command (past : List ReplicaAction) {action : ReplicaAction}
    (none : action.isCommand = false) (id : ParticipantID) :
    lastValues (past ++ [action]) id = lastValues past id := by
  rw [lastValues_append]
  cases action with
  | command other cmd => cases none
  | enter _ _ => rfl
  | keyed _ _ _ => rfl
  | leave _ => rfl
  | route _ => rfl
  | handle _ => rfl

theorem lastValues_name (actions : List ReplicaAction) (id : ParticipantID) :
    (lastValues actions id).name ≠ some [] := by
  have general : ∀ held : Attributes, held.name ≠ some [] →
      (actions.foldl (fun held action => action.sets id held) held).name ≠ some [] := by
    induction actions with
    | nil => exact fun held notEmpty => notEmpty
    | cons action rest ih =>
        refine fun held notEmpty => ih (action.sets id held) ?_
        cases action with
        | command other cmd =>
            cases cmd with
            | setName name =>
                simp only [ReplicaAction.sets]
                split
                · rename_i both
                  exact fun isEmpty => both.2 (Option.some.inj isEmpty)
                · exact notEmpty
            | setEndpoint endpoint =>
                simp only [ReplicaAction.sets]
                split <;> exact notEmpty
            | setPushKey key => exact notEmpty
        | enter _ _ | keyed _ _ _ | leave _ | route _ | handle _ => exact notEmpty
  exact general .blank (fun isEmpty => by cases isEmpty)

namespace Ctl

theorem lookup_currentOnly {α : Type} [BEq α] (roster : GoMap ParticipantID Role)
    (values : GoMap ParticipantID α) (empty : α) (id : ParticipantID) :
    (currentOnly roster values empty).lookup id =
      if id ∈ roster then (values.lookup id).filter (fun value => !(value == empty)) else none := by
  refine (@lookup_foldl ParticipantID (fun _ => α) _ _ id
    ((values.lookup id).filter (fun value => !(value == empty))) (fun kept other => ?_) roster.keys
    ∅).trans ?_
  · by_cases same : other = id
    · subst same
      rw [if_pos rfl]
      split
      · rename_i value found
        by_cases isEmpty : (value == empty) = true
        · simp only [found, isEmpty, if_true, Option.filter_some, Bool.not_true, Bool.false_eq_true,
            if_false, Option.none_or]
        · rw [Bool.not_eq_true] at isEmpty
          simp only [found, isEmpty, Bool.false_eq_true, if_false, Option.filter_some,
            Bool.not_false, if_true, Option.some_or, AList.lookup_insert]
      · rename_i missing
        simp only [missing, Option.filter_none, Option.none_or]
    · rw [if_neg same]
      split
      · split
        · rfl
        · exact AList.lookup_insert_ne (Ne.symm same)
      · rfl
  · simp only [AList.lookup_empty, Option.or_none, AList.mem_keys]

theorem attributes_published {c : Ctl} (current : id ∈ c.roster)
    (named : (c.copy.attributes id).name ≠ some []) :
    c.published.attributes id = c.copy.attributes id := by
  simp only [Copy.attributes, published, copy, lookup_currentOnly, if_pos current,
    Attributes.mk.injEq]
  refine ⟨?_, ?_⟩
  · cases found : c.names.lookup id with
    | none => rfl
    | some name =>
        have notEmpty : (name == []) = false := by
          refine beq_eq_false_iff_ne.mpr (fun isEmpty => named ?_)
          simp only [Copy.attributes, copy, found, isEmpty]
        simp only [Option.filter, notEmpty, Bool.not_false, if_true]
  · cases found : c.endpoints.lookup id with
    | none => rfl
    | some endpoint =>
        by_cases isEmpty : (endpoint == []) = true
        · simp only [Option.filter, isEmpty, Bool.not_true, Bool.false_eq_true, if_false,
            Option.getD_none, Option.getD_some]
          exact (beq_iff_eq.mp isEmpty).symm
        · simp only [Option.filter, Bool.not_eq_true] at isEmpty ⊢
          simp only [isEmpty, Bool.not_false, if_true]

theorem attributes_published_of_other {c : Ctl} (other : id ∉ c.roster) :
    c.published.attributes id = .blank := by
  simp only [Copy.attributes, published, lookup_currentOnly, if_neg other, Option.getD_none]
  rfl

variable {c : Ctl}

theorem attributes_handleNotice (policy : SuccessorPolicy) (proper : c.Proper)
    (host : c.ctx.host = true) {sender : ParticipantID} (notSelf : sender ≠ c.ctx.self)
    {notice : Notice} (about : ∀ id, notice = .left id → id = sender) (stays : notice ≠ .left id) :
    (c.handleNotice policy sender notice).1.copy.attributes id =
      if sender = id then (c.copy.attributes id).report notice else c.copy.attributes id := by
  have notHost : sender ≠ c.ctx.hostID := fun same => notSelf (same.trans (proper.mp host))
  cases notice with
  | joined other => exact (ite_self _).symm
  | left other =>
      have isSender := about other rfl
      have differ : id ≠ other := fun same => stays (congrArg Notice.left same.symm)
      simp only [handleNotice, handleLeft_of_stays policy (isSender.symm ▸ notHost), memberLeft,
        if_pos host, Attributes.report, ite_self]
      simp only [Copy.attributes, copy, remove, AList.lookup_erase_ne differ]
  | memo msg pruned =>
      cases msg with
      | announce a =>
          simp only [handleNotice, handleFrame, handleAnnounce, if_neg notHost, Attributes.report,
            ite_self]
      | identity name endpoint =>
          simp only [handleNotice, handleFrame, handleIdentity, host, if_true]
          by_cases same : sender = id
          · subst same
            simp only [if_true, Copy.attributes, copy, Attributes.report, Attributes.mk.injEq]
            refine ⟨?_, ?_⟩
            · split
              · rfl
              · exact AList.lookup_insert _
            · split
              · rfl
              · rw [AList.lookup_insert, Option.getD_some]
          · simp only [if_neg same, Copy.attributes, copy, Attributes.mk.injEq]
            refine ⟨?_, ?_⟩
            · split
              · rfl
              · exact AList.lookup_insert_ne (Ne.symm same)
            · split
              · rfl
              · rw [AList.lookup_insert_ne (Ne.symm same)]
      | snapshotReq => exact (ite_self _).symm
      | snapshot blobs =>
          simp only [handleNotice, handleFrame, handleSnapshot, if_neg notHost, Attributes.report,
            ite_self]
      | other => exact (ite_self _).symm

theorem attributes_foresee (policy : SuccessorPolicy) (proper : c.Proper) (host : c.ctx.host = true)
    {entries : List (ParticipantID × Notice)}
    (known : ∀ entry ∈ entries, entry.1 ≠ c.ctx.self ∧ ∀ id, entry.2 = .left id → id = entry.1)
    (stays : ∀ entry ∈ entries, entry.2 ≠ .left id) :
    (c.foresee policy entries).copy.attributes id =
      (c.copy.attributes id).reports (Network.fromSender id entries) := by
  induction entries generalizing c with
  | nil => rfl
  | cons entry rest ih =>
      obtain ⟨notSelf, about⟩ := known entry List.mem_cons_self
      have first := attributes_handleNotice policy proper host notSelf about
        (stays entry List.mem_cons_self)
      have sameCtx : (c.handleNotice policy entry.1 entry.2).1.ctx = c.ctx := by
        refine ctx_handleNotice policy entry.1 (fun isLeft => notSelf ?_)
        exact (about _ isLeft).symm.trans (proper.mp host)
      have later := @ih (c.handleNotice policy entry.1 entry.2).1
        (by rw [Proper, sameCtx]; exact proper) (by rw [sameCtx]; exact host)
        (fun other member => sameCtx ▸ known other (List.mem_cons_of_mem entry member))
        (fun other member => stays other (List.mem_cons_of_mem entry member))
      refine later.trans ?_
      rw [first]
      by_cases same : entry.1 = id
      · rw [if_pos same, show Network.fromSender id (entry :: rest) =
          entry.2 :: Network.fromSender id rest from List.filterMap_cons_some (if_pos same)]
        rfl
      · rw [if_neg same, show Network.fromSender id (entry :: rest) =
          Network.fromSender id rest from List.filterMap_cons_none (if_neg same)]

theorem unreported_handleNotice (policy : SuccessorPolicy) (c : Ctl) (sender : ParticipantID)
    (notice : Notice) : ∀ out ∈ (c.handleNotice policy sender notice).2, ∀ name endpoint,
      out.msg ≠ .identity name endpoint := by
  have unannounced : ∀ {c : Ctl} {out : Outgoing}, out ∈ [c.announce ctlServices] →
      ∀ name endpoint, out.msg ≠ .identity name endpoint := by
    intro c out sent name endpoint isReport
    rw [List.mem_singleton.mp sent] at isReport
    cases isReport
  cases notice with
  | joined id => exact List.forall_mem_nil _
  | left id =>
      intro out sent
      have handled : ∀ out ∈ (c.memberLeft ctlServices id).2, ∀ name endpoint,
          out.msg ≠ .identity name endpoint := by
        unfold memberLeft
        split
        · exact fun _ => unannounced
        · exact List.forall_mem_nil _
      simp only [handleNotice, handleLeft] at sent
      split at sent
      · exact handled out sent
      · split at sent
        · exact handled out sent
        · split at sent
          · exact (List.mem_append.mp sent).elim (handled out) unannounced
          · exact handled out sent
  | memo msg pruned =>
      intro out sent
      cases msg with
      | announce a =>
          simp only [handleNotice, handleFrame] at sent
          split at sent <;> cases sent
      | identity name endpoint =>
          simp only [handleNotice, handleFrame, handleIdentity] at sent
          split at sent
          · exact unannounced sent
          · cases sent
      | snapshotReq =>
          simp only [handleNotice, handleFrame, handleSnapshotReq] at sent
          split at sent
          · rw [List.mem_singleton.mp sent]
            exact fun _ _ isReport => by cases isReport
          · cases sent
      | snapshot blobs =>
          simp only [handleNotice, handleFrame] at sent
          split at sent <;> cases sent
      | other => cases sent

theorem selfEndpoint_handleNotice (policy : SuccessorPolicy) (c : Ctl) (sender : ParticipantID)
    (notice : Notice) :
    (c.handleNotice policy sender notice).1.selfEndpoint = c.selfEndpoint := by
  cases notice with
  | joined id => rfl
  | left id =>
      have handled : (c.memberLeft ctlServices id).1.selfEndpoint = c.selfEndpoint := by
        unfold memberLeft
        split <;> rfl
      simp only [handleNotice, handleLeft]
      split
      · exact handled
      · split
        · exact handled
        · split <;> exact handled
  | memo msg pruned =>
      cases msg with
      | announce a =>
          simp only [handleNotice, handleFrame, handleAnnounce]
          by_cases fromHost : sender = c.ctx.hostID
          · simp only [if_pos fromHost]
          · simp only [if_neg fromHost]
      | identity name endpoint =>
          simp only [handleNotice, handleFrame, handleIdentity]
          split <;> rfl
      | snapshotReq => rfl
      | snapshot blobs =>
          simp only [handleNotice, handleFrame, handleSnapshot]
          by_cases fromHost : sender = c.ctx.hostID
          · simp only [if_pos fromHost]
          · simp only [if_neg fromHost]
      | other => rfl

/-! ### What a command does to the values -/

variable {held : Attributes}

theorem selfEndpoint_execute (c : Ctl) (cmd : Command) (id : ParticipantID)
    (own : c.selfEndpoint = held.endpoint) :
    (c.execute cmd).1.selfEndpoint = ((ReplicaAction.command id cmd).sets id held).endpoint := by
  cases cmd with
  | setName name =>
      simp only [execute, setName]
      split
      · rename_i blank
        rw [sets_of_blank id held blank]
        exact own
      · rename_i named
        rw [sets_of_named id held named]
        split <;> exact own
  | setEndpoint endpoint =>
      simp only [execute, setEndpoint, ReplicaAction.sets, if_true]
      split <;> rfl
  | setPushKey key =>
      simp only [execute, setPushKey, ReplicaAction.sets]
      split <;> exact own

theorem attributes_execute_self (c : Ctl) (cmd : Command) :
    (c.execute cmd).1.copy.attributes c.ctx.self =
      (ReplicaAction.command c.ctx.self cmd).sets c.ctx.self (c.copy.attributes c.ctx.self) := by
  cases cmd with
  | setName name =>
      simp only [execute, setName]
      split
      · rename_i blank
        rw [sets_of_blank _ _ blank]
      · rename_i named
        rw [sets_of_named _ _ named]
        split <;> simp only [Copy.attributes, copy, AList.lookup_insert]
  | setEndpoint endpoint =>
      simp only [execute, setEndpoint, ReplicaAction.sets, if_true]
      split <;> simp only [Copy.attributes, copy, AList.lookup_insert, Option.getD_some]
  | setPushKey key =>
      simp only [execute, setPushKey, ReplicaAction.sets]
      split <;> rfl

theorem attributes_execute_of_ne (c : Ctl) (cmd : Command) (differ : id ≠ c.ctx.self) :
    (c.execute cmd).1.copy.attributes id = c.copy.attributes id := by
  cases cmd with
  | setName name =>
      simp only [execute, setName]
      split
      · rfl
      · split <;> simp only [Copy.attributes, copy, AList.lookup_insert_ne differ]
  | setEndpoint endpoint =>
      simp only [execute, setEndpoint]
      split <;> simp only [Copy.attributes, copy, AList.lookup_insert_ne differ]
  | setPushKey key =>
      simp only [execute, setPushKey]
      split <;> rfl

/-- What a report can say: the host sanitizes a name once more, and takes an empty
endpoint for none at all. -/
def Reportable (c : Ctl) : Command → Prop
  | .setName name => sanitizeName (sanitizeName name) = sanitizeName name
  | .setEndpoint endpoint => endpoint ≠ [] ∨ c.selfEndpoint = []
  | .setPushKey _ => True

instance Reportable.decidable (c : Ctl) : (cmd : Command) → Decidable (c.Reportable cmd)
  | .setName name =>
      inferInstanceAs (Decidable (sanitizeName (sanitizeName name) = sanitizeName name))
  | .setEndpoint endpoint => inferInstanceAs (Decidable (endpoint ≠ [] ∨ c.selfEndpoint = []))
  | .setPushKey _ => isTrue trivial

theorem reports_execute (member : c.ctx.host = false) {cmd : Command}
    (reportable : c.Reportable cmd) (id : ParticipantID) (own : c.selfEndpoint = held.endpoint)
    (pruned : List ParticipantID) :
    held.reports (((c.execute cmd).2.map (fun out => (⟨out, pruned⟩ : Memo))).filterMap
        (fun memo => memo.carry id c.ctx.hostID)) =
      (ReplicaAction.command id cmd).sets id held := by
  cases cmd with
  | setName name =>
      simp only [execute, setName, member, Bool.false_eq_true, if_false]
      by_cases blank : sanitizeName name = []
      · rw [if_pos blank, sets_of_blank id held blank]
        rfl
      · rw [if_neg blank, sets_of_named id held blank]
        simp only [List.map_cons, List.map_nil, List.filterMap_cons, List.filterMap_nil, Memo.carry,
          if_true, Attributes.reports, List.foldl_cons, List.foldl_nil, Attributes.report,
          if_neg blank]
        rw [show sanitizeName (sanitizeName name) = sanitizeName name from reportable]
  | setEndpoint endpoint =>
      simp only [execute, setEndpoint, member, Bool.false_eq_true, if_false, ReplicaAction.sets,
        List.map_cons, List.map_nil, List.filterMap_cons, List.filterMap_nil, Memo.carry, if_true,
        Attributes.reports, List.foldl_cons, List.foldl_nil, Attributes.report]
      by_cases cleared : endpoint = []
      · have wasEmpty : held.endpoint = [] :=
          own.symm.trans (reportable.resolve_left (fun notEmpty => notEmpty cleared))
        rw [if_pos cleared, cleared, wasEmpty]
      · rw [if_neg cleared]
  | setPushKey key =>
      simp only [execute, setPushKey, member, Bool.false_eq_true, if_false]
      rfl

theorem unreported_execute (host : c.ctx.host = true) (cmd : Command) :
    ∀ out ∈ (c.execute cmd).2, ∀ name endpoint, out.msg ≠ .identity name endpoint := by
  intro out sent name endpoint isReport
  have announces : ∀ c' : Ctl, out ∈ [c'.announce ctlServices] → False := by
    intro c' isAnnounce
    rw [List.mem_singleton.mp isAnnounce] at isReport
    cases isReport
  cases cmd with
  | setName name =>
      simp only [execute, setName, host, if_true] at sent
      split at sent
      · cases sent
      · exact announces _ sent
  | setEndpoint endpoint =>
      simp only [execute, setEndpoint, host, if_true] at sent
      exact announces _ sent
  | setPushKey key =>
      simp only [execute, setPushKey, host, if_true] at sent
      exact announces _ sent

end Ctl

end Parley.Service
