/-
Whom the ends take for the host after a departure.

A client's host id is written by its mux goroutine alone, by the tasks of a
migration.  So an end has a course: its host id and those it is about to write.
A step of any end or of the relay goes on along the course, except that handling
the departure of the host elects the next one.  Ends that elect from copies of
one roster take the same course.
-/

import Parley.Service.Election
import Parley.Service.Handover

namespace Parley.Service

open Crypto Library Session Service.Migration
open Wire (Bytes ParticipantID SessionID)

variable {prim : Primitives} {f : Facts} {x host : ParticipantID} {n n' : Node prim}
  {action : NodeAction} {posts : List (Sent prim Body)}

def Task.follows (self : ParticipantID) : Task prim → Option ParticipantID
  | .becomeHost => some self
  | .setHostID id => some id
  | _ => none

def Node.course (x : ParticipantID) (n : Node prim) : List ParticipantID :=
  n.endpoint.client.hostID :: n.todo.filterMap (Task.follows x)

theorem Node.course_eq (n : Node prim) :
    n.course x = (view n).client.hostID :: (view n).todo.filterMap (Task.follows x) := by
  refine congrArg (_ :: ·) ?_
  simp only [view, weighty]
  induction n.todo with
  | nil => rfl
  | cons task rest ih =>
      cases plain : plainTask task with
      | false => rw [List.filter_cons_of_pos (by simp [plain]), List.filterMap_cons,
          List.filterMap_cons, ih]
      | true =>
          have silent : task.follows x = none := by
            cases task <;> first | rfl | cases plain
          rw [List.filter_cons_of_neg (by simp [plain]), List.filterMap_cons, silent, ih]

theorem follows_sending (m : Mux) (result : Ctl × List Outgoing) :
    (m.sending prim result).2.filterMap (Task.follows x) = [] := by
  refine List.filterMap_eq_nil_iff.mpr (fun task member => ?_)
  obtain ⟨out, _, rfl⟩ := List.mem_map.mp member
  rfl

theorem follows_memberLeft (m : Mux) {c : Client} (self : c.self = x) (left : ParticipantID)
    {successor : ParticipantID}
    (elects : (m.ctl.memberLeft ctlServices left).1.electSuccessor m.successor left = successor) :
    (m.dispatch prim c (.memberLeft left)).2.filterMap (Task.follows x) =
      if left ≠ c.hostID ∨ successor = 0 then [] else [successor] := by
  have plan : (m.dispatch prim c (.memberLeft left)).2 =
      (m.sending prim (m.ctl.memberLeft ctlServices left)).2 ++
        if left ≠ c.hostID then []
        else if successor = 0 then []
        else if successor = c.self then [.becomeHost, .rotateForMigration, .promote left]
        else [.setHostID successor, .reattach, .rekeyWithNewHost] := by
    rw [← elects]
    rfl
  rw [plan, List.filterMap_append, follows_sending, List.nil_append]
  by_cases other : left ≠ c.hostID
  · rw [if_pos other, if_pos (Or.inl other)]
    rfl
  · by_cases nobody : successor = 0
    · rw [if_neg other, if_pos nobody, if_pos (Or.inr nobody)]
      rfl
    · rw [if_neg other, if_neg nobody, if_neg (not_or.mpr ⟨other, nobody⟩)]
      split
      · rename_i isSelf
        rw [isSelf, self]
        rfl
      · rfl

/-- What a step can do to the course of an end; it turns only where the end elects. -/
structure Node.Steers (x : ParticipantID) (n n' : Node prim) (electing : Prop) : Prop where
  policy : n'.mux.successor = n.mux.successor
  keyed : n'.endpoint.client.keyed = n.endpoint.client.keyed ∨
    Reader.inLoop n'.endpoint.reader = true
  inLoop : Reader.inLoop n.endpoint.reader = true → Reader.inLoop n'.endpoint.reader = true
  turn : (n'.course x = n.course x ∨ ∃ first, n.course x = first :: n'.course x) ∧
      (.memberLeft n.endpoint.client.hostID ∈ n.events →
        .memberLeft n.endpoint.client.hostID ∈ n'.events) ∨
    electing ∧ ∃ successor, n.elects = some (n.endpoint.client.hostID, successor) ∧
      n.course x = [n.endpoint.client.hostID] ∧
      n'.course x = n.course x ++ if successor = 0 then [] else [successor]

variable {electing : Prop}

theorem Node.Steers.refl (n : Node prim) : n.Steers x n electing :=
  ⟨rfl, Or.inl rfl, id, Or.inl ⟨Or.inl rfl, id⟩⟩

variable {outputs : List (Output prim Body)} {E : Endpoint prim Body}

theorem Node.Steers.of_settle (sameHost : E.client.hostID = n.endpoint.client.hostID)
    (inLoop : Reader.inLoop n.endpoint.reader = true → Reader.inLoop E.reader = true)
    (keyed : E.client.keyed = n.endpoint.client.keyed ∨ Reader.inLoop E.reader = true) :
    n.Steers x (n.settle E outputs) electing :=
  ⟨rfl, keyed, inLoop, Or.inl ⟨Or.inl (congrArg (· :: _) sameHost), List.mem_append_left _⟩⟩

theorem Node.Steers.of_plain (plain : Plain n n' posts) : n.Steers x n' electing := by
  have same := plain.view
  refine
    { policy := congrArg View.policy same
      keyed := Or.inl (congrArg (fun v => v.client.keyed) same)
      inLoop := fun inLoop => ?_
      turn := Or.inl ⟨Or.inl ?_, fun due => ?_⟩ }
  · rw [show n'.endpoint.reader = n.endpoint.reader from congrArg View.reader same]
    exact inLoop
  · rw [Node.course_eq, Node.course_eq, same]
  · have weighs : .memberLeft n.endpoint.client.hostID ∈ (view n').events := by
      rw [same]
      exact List.mem_filter.mpr ⟨due, rfl⟩
    exact (List.mem_filter.mp weighs).1

theorem Node.Steers.of_same (policy : n'.mux.successor = n.mux.successor)
    (events : n'.events = n.events)
    (keyed : n'.endpoint.client.keyed = n.endpoint.client.keyed)
    (reader : n'.endpoint.reader = n.endpoint.reader)
    (goes : n'.course x = n.course x ∨ ∃ first, n.course x = first :: n'.course x) :
    n.Steers x n' electing :=
  ⟨policy, Or.inl keyed, fun inLoop => reader ▸ inLoop, Or.inl ⟨goes, fun due => events ▸ due⟩⟩

theorem Node.Steers.performs (self : n.endpoint.client.self = x) {task : Task prim}
    {rest : List (Task prim)} (isTodo : n.todo = task :: rest) (weighs : plainTask task = false)
    (outcome : TaskOutcome) : n.Steers x (n.perform task rest outcome).1 electing := by
  have course : n.course x =
      n.endpoint.client.hostID :: (task :: rest).filterMap (Task.follows x) := by
    rw [Node.course, isTodo]
  cases task with
  | sealing out pruned => cases weighs
  | promoted => cases weighs
  | rotateForMigration =>
      obtain ⟨key, prevKeys, pairwise, same⟩ :=
        rotateForMigration_fields n.endpoint.client outcome.key
      simp only [Node.perform, Node.withClient, same]
      exact .of_same rfl rfl rfl rfl (Or.inl course.symm)
  | promote left =>
      refine .of_same rfl rfl rfl rfl (Or.inl ?_)
      rw [course]
      simp only [Node.perform, Node.course, List.filterMap_append, follows_sending]
      rfl
  | rekeyWithNewHost =>
      simp only [Node.perform]
      split
      · exact .of_same rfl rfl rfl rfl (Or.inl course.symm)
      · rename_i c sent greets
        unfold Client.rekeyWithNewHost at greets
        split at greets <;> cases greets
        exact .of_same rfl rfl rfl rfl (Or.inl course.symm)
  | becomeHost =>
      exact .of_same rfl rfl rfl rfl (Or.inr ⟨_, course.trans (congrArg (_ :: · :: _) self.symm)⟩)
  | setHostID id => exact .of_same rfl rfl rfl rfl (Or.inr ⟨_, course⟩)
  | write sent => exact .of_same rfl rfl rfl rfl (Or.inl course.symm)
  | reattach => exact .of_same rfl rfl rfl rfl (Or.inl course.symm)

theorem Node.step_steers (ok : NodeOk f x n) (stepped : n.step action = some (n', posts)) :
    n.Steers x n' (action = .event) := by
  cases action with
  | advance outcome =>
      obtain ⟨⟨E, outputs⟩, advanced, same⟩ := Option.map_eq_some_iff.mp stepped
      cases same
      obtain ⟨⟨_, _, _, _, _, _, _, _, client⟩, _⟩ := Endpoint.advance_fields advanced
      have proceeds := ok.endpoint.advance advanced
      exact .of_settle proceeds.sameHost proceeds.inLoop (Or.inl (by rw [client]))
  | call toID serviceID body nonce =>
      obtain ⟨_, same⟩ := Node.call_cases stepped
      cases same
      obtain ⟨seqs, client⟩ := @Client.sealEnvelope_fields prim Body n.endpoint.client serviceID
        (.app body) nonce
      have sealed : (n.endpoint.call toID serviceID (.app body) nonce).client =
          { n.endpoint.client with seqs := seqs } := client
      refine .of_same rfl rfl ?_ rfl (Or.inl ?_)
      · simp only [sealed]
      · simp only [Node.course, sealed]
  | write index written =>
      obtain ⟨⟨E, outputs⟩, wrote, same⟩ := Option.map_eq_some_iff.mp stepped
      cases same
      obtain ⟨sent, _, same⟩ := Option.map_eq_some_iff.mp wrote
      cases same
      exact .of_settle rfl id (Or.inl rfl)
  | start =>
      obtain ⟨fresh, _, same⟩ := Node.start_cases stepped
      cases same
      refine ⟨rfl, Or.inl rfl, id, Or.inl ⟨Or.inl ?_, id⟩⟩
      simp only [Node.course, Node.start, ok.fresh fresh]
      split <;> rfl
  | event =>
      obtain ⟨running, idle, event, rest, isEvents, same⟩ := Node.event_cases stepped
      cases same
      have alone : n.course x = [n.endpoint.client.hostID] := by
        rw [Node.course, idle]
        rfl
      have later : event ≠ .memberLeft n.endpoint.client.hostID →
          .memberLeft n.endpoint.client.hostID ∈ n.events →
          .memberLeft n.endpoint.client.hostID ∈ rest := by
        intro other due
        rw [isEvents] at due
        exact (List.mem_cons.mp due).resolve_left (fun same => other same.symm)
      cases event with
      | frame fromID env => exact .of_plain (event_plain idle isEvents rfl)
      | memberJoined id => exact .of_plain (event_plain idle isEvents rfl)
      | memberKeyed id role =>
          refine ⟨rfl, Or.inl rfl, fun same => same, Or.inl ⟨Or.inl ?_, later (by simp)⟩⟩
          rw [alone]
          exact congrArg (_ :: ·) (follows_sending n.mux _)
      | closed reason =>
          exact ⟨rfl, Or.inl rfl, id, Or.inl ⟨Or.inl alone.symm, later (by simp)⟩⟩
      | memberLeft left =>
          have follows := @follows_memberLeft prim x n.mux _ ok.endpoint.self left _ rfl
          refine ⟨rfl, Or.inl rfl, id, ?_⟩
          by_cases ofHost : left = n.endpoint.client.hostID
          · subst ofHost
            refine Or.inr ⟨rfl, _, by simp only [Node.elects, running, idle, isEvents, if_true]; rfl,
              alone, ?_⟩
            simp only [ne_eq, not_true_eq_false, false_or] at follows
            rw [alone]
            exact congrArg (_ :: ·) follows
          · refine Or.inl ⟨Or.inl ?_, later (by simpa using ofHost)⟩
            rw [alone]
            rw [if_pos (Or.inl ofHost)] at follows
            exact congrArg (_ :: ·) follows
  | command cmd =>
      obtain ⟨_, idle, same⟩ := Node.command_cases stepped
      cases same
      exact .of_plain (command_plain idle cmd)
  | task outcome =>
      obtain ⟨task, rest, isTodo, same⟩ := Node.task_cases stepped
      obtain rfl : n' = (n.perform task rest outcome).1 := congrArg Prod.fst same
      cases plain : plainTask task with
      | true => exact .of_plain (task_plain isTodo plain outcome)
      | false => exact .performs ok.endpoint.self isTodo plain outcome

theorem receive_settles {frame : Received prim Body} {seed : Bytes}
    (received : n.endpoint.receive frame seed = some (E, outputs)) :
    (E.client.keyed = n.endpoint.client.keyed ∨ Reader.inLoop E.reader = true) ∧
      (Reader.inLoop n.endpoint.reader = true → ∀ id, frame = .participantLeft id →
        .memberLeft id ∈ (n.settle E outputs).events) := by
  unfold Endpoint.receive at received
  split at received
  · rename_i j pairwise joining
    cases received
    refine ⟨?_, fun inLoop => by rw [joining] at inLoop; cases inLoop⟩
    unfold Client.joinDriveHandshake Client.joinHandleDirect
    repeat' split
    all_goals first | exact Or.inl rfl | exact Or.inr rfl
  · cases received
    refine ⟨Or.inl (by cases frame <;> rfl), ?_⟩
    rintro - id rfl
    exact List.mem_append_right _ List.mem_cons_self
  · cases received

theorem elects_cases (ok : NodeOk f x n) {left successor : ParticipantID}
    (elects : n.elects = some (left, successor)) :
    f.gone left ∧
      successor = (n.mux.ctl.memberLeft ctlServices left).1.electSuccessor n.mux.successor left := by
  unfold Node.elects at elects
  split at elects
  · rename_i events
    split at elects <;> cases elects
    exact ⟨ok.events (.memberLeft left) (by rw [events]; exact List.mem_cons_self), rfl⟩
  · cases elects

/-! ### The course of every end -/

namespace World

variable {w next origin : World prim} {move : WorldAction} {target : ParticipantID}

/-- The notice of the departure is under way to the end, or in its events. -/
def Due (host : ParticipantID) (w : World prim) (x : ParticipantID) : Prop :=
  .participantLeft host ∈ w.stream host x ∨ .memberLeft host ∈ (w.nodes x).events

/-- A member was one before, or joins under a number never used; only a claim
moves the host that the relay points at. -/
theorem step_members (stepped : w.step move = some next) :
    (∀ id ∈ w.used, id ∈ next.used) ∧ next.successor = w.successor ∧
      (∀ id ∈ next.net.members, id ∈ w.net.members ∨ id ∉ w.used ∧
        ∃ c seed, c.keyed = false ∧ next.nodes id =
          Node.fresh (Endpoint.joiningAs prim c id w.hubHost seed) w.successor) ∧
      (next.hubHost = w.hubHost ∨
        next.hubHost ∈ w.net.members ∧ .claimHost ∈ w.net.outbox next.hubHost) := by
  cases move with
  | join id proto phraseC policy observer seed =>
      obtain ⟨unused, _, rfl⟩ := join_cases stepped
      refine ⟨fun _ => List.mem_append_left _, rfl, fun other present => ?_, Or.inl rfl⟩
      rcases List.mem_append.mp present with old | new
      · exact Or.inl old
      · rw [List.mem_singleton.mp new]
        exact Or.inr ⟨unused, dial proto w.sid phraseC policy observer, seed, rfl,
          Function.update_self ..⟩
  | leave id =>
      obtain ⟨_, net, left, rfl⟩ := leave_cases stepped
      exact ⟨fun _ used => used, rfl,
        fun _ present => Or.inl ((Network.mem_leave left).mp present).1, Or.inl rfl⟩
  | route sender =>
      obtain ⟨net, routed, rfl⟩ := route_cases stepped
      refine ⟨fun _ => id, rfl, fun _ present => Or.inl (Network.members_route routed ▸ present), ?_⟩
      simp only [claimed]
      split
      · rename_i claims
        split
        · rename_i member
          exact Or.inr ⟨member, claims ▸ List.mem_cons_self⟩
        · exact Or.inl rfl
      · exact Or.inl rfl
  | deliver receiver sender seed =>
      obtain ⟨_, frame, net, E, outputs, taken, _, rfl⟩ := deliver_cases stepped
      exact ⟨fun _ => id, rfl, fun _ present => Or.inl (Network.members_take taken ▸ present),
        Or.inl rfl⟩
  | act id action =>
      obtain ⟨_, node, posts, _, rfl⟩ := act_cases stepped
      exact ⟨fun _ used => used, rfl, fun _ present => Or.inl present, Or.inl rfl⟩

theorem gone_of_step {id : ParticipantID} (stepped : w.step move = some next)
    (gone : w.facts.gone id) : next.facts.gone id := by
  obtain ⟨used, _, members, _⟩ := step_members stepped
  refine ⟨used id gone.1, fun present => ?_⟩
  rcases members id present with old | ⟨new, _⟩
  · exact gone.2 old
  · exact new gone.1

/-- Every end steers by its own steps, and the notice of the departure is not lost
on its way to an end that is in its read loop. -/
theorem Orderly.steers (ideal : prim.Ideal) (orderly : w.Orderly) (known : host ∈ w.used)
    (member : x ∈ w.net.members) (stays : x ∈ next.net.members)
    (stepped : w.step move = some next) :
    (w.nodes x).Steers x (next.nodes x) (move = .act x .event) ∧
      (Reader.inLoop (w.nodes x).endpoint.reader = true →
        .participantLeft host ∈ w.stream host x → next.Due host x) := by
  have ok := orderly.nodes x member
  have grown : ∀ {late}, next.stream host x = w.stream host x ++ late →
      .participantLeft host ∈ w.stream host x → next.Due host x := fun isStream due =>
    Or.inl (isStream ▸ List.mem_append_left _ due)
  have aside : ∀ {late}, next.nodes x = w.nodes x →
      next.stream host x = w.stream host x ++ late →
      (w.nodes x).Steers x (next.nodes x) (move = .act x .event) ∧
        (Reader.inLoop (w.nodes x).endpoint.reader = true →
          .participantLeft host ∈ w.stream host x → next.Due host x) := fun node isStream =>
    ⟨node ▸ Node.Steers.refl _, fun _ => grown isStream⟩
  cases move with
  | join id proto phraseC policy observer seed =>
      obtain ⟨unused, _, rfl⟩ := join_cases stepped
      have old : ∀ {other}, other ∈ w.used → other ≠ id := fun used same => unused (same ▸ used)
      exact aside (Function.update_of_ne (old (orderly.net.known x member)) _ _)
        ((Network.stream_announce_of_ne w.net (old known) _ x).trans (List.append_nil _).symm)
  | leave id =>
      obtain ⟨_, net, left, rfl⟩ := leave_cases stepped
      by_cases isHost : host = id
      · subst isHost
        exact aside rfl (Network.stream_leave_self left stays)
      · exact aside rfl
          ((Network.stream_leave_of_ne left isHost x).trans (List.append_nil _).symm)
  | route sender =>
      obtain ⟨net, routed, rfl⟩ := route_cases stepped
      exact aside rfl ((Network.stream_route routed host member).trans (List.append_nil _).symm)
  | deliver receiver sender seed =>
      obtain ⟨_, frame, E, outputs, received, took⟩ := took_of_deliver stepped
      by_cases here : x = receiver
      · subst here
        have takes := ok.endpoint.receive ideal
          (orderly.frames frame (took.stream ▸ List.mem_cons_self)) received
        obtain ⟨keyed, notices⟩ := receive_settles received
        rw [← took.node] at notices
        refine ⟨took.node ▸ .of_settle takes.sameHost takes.inLoop keyed, fun inLoop due => ?_⟩
        by_cases ofHost : host = sender
        · subst ofHost
          rw [took.stream] at due
          rcases List.mem_cons.mp due with now | later
          · exact Or.inr (notices inLoop host now.symm)
          · exact Or.inl later
        · exact Or.inl ((took.streamOther host x (Or.inr ofHost)).symm ▸ due)
      · exact aside (took.others x here)
          ((took.streamOther host x (Or.inl here)).trans (List.append_nil _).symm)
  | act id action =>
      obtain ⟨_, node, posts, acted, rfl⟩ := act_cases stepped
      have moved := @acted_of_settle prim w id node posts
      have stream : ∃ late, (w.settle id node posts).stream host x = w.stream host x ++ late := by
        by_cases isHost : host = id
        · subst isHost
          exact ⟨_, moved.streamSelf x⟩
        · exact ⟨[], (moved.streamOther host isHost x).trans (List.append_nil _).symm⟩
      obtain ⟨late, isStream⟩ := stream
      by_cases here : x = id
      · subst here
        have steers := Node.step_steers ok acted
        rw [← moved.node] at steers
        refine ⟨{ steers with turn := steers.turn.imp_right (And.imp_left ?_) },
          fun _ => grown isStream⟩
        rintro rfl
        rfl
      · exact aside (moved.others x here) isStream

/-- Before the host leaves, every end follows it and the relay points at it. -/
structure Follows (host : ParticipantID) (w : World prim) : Prop where
  known : host ∈ w.used
  hub : w.hubHost = host
  policy : w.successor = defaultSuccessorPolicy
  ends : ∀ x ∈ w.net.members, (w.nodes x).course x = [host] ∧
    (w.nodes x).mux.successor = defaultSuccessorPolicy ∧
    ((w.nodes x).endpoint.client.keyed = true →
      Reader.inLoop (w.nodes x).endpoint.reader = true)

theorem Follows.steps (ideal : prim.Ideal) (orderly : w.Orderly) (follows : w.Follows host)
    (there : ¬w.facts.gone host) (stepped : w.step move = some next) : next.Follows host := by
  obtain ⟨used, policy, members, hub⟩ := step_members stepped
  refine
    { known := used host follows.known
      hub := ?_
      policy := policy.trans follows.policy
      ends := fun x present => ?_ }
  · rcases hub with same | ⟨member, claims⟩
    · exact same.trans follows.hub
    · -- only a host claims, and a host follows itself
      have own := (orderly.nodes _ member).endpoint.hostSelf (orderly.net.posts _ _ claims).2
      exact own.symm.trans (List.cons.inj (follows.ends _ member).1).1
  · rcases members x present with member | ⟨_, c, seed, unkeyed, isNode⟩
    · obtain ⟨course, isDefault, returned⟩ := follows.ends x member
      have steers := (orderly.steers ideal follows.known member present stepped).1
      refine ⟨?_, steers.policy.trans isDefault, fun keyed => ?_⟩
      · rcases steers.turn with ⟨same | ⟨first, goes⟩, _⟩ | ⟨_, successor, elects, _, _⟩
        · exact same.trans course
        · rw [course] at goes
          cases goes
        · rw [(List.cons.inj course).1] at elects
          exact absurd (elects_cases (orderly.nodes x member) elects).1 there
      · rcases steers.keyed with same | inLoop
        · exact steers.inLoop (returned (same.symm.trans keyed))
        · exact inLoop
    · rw [isNode]
      refine ⟨congrArg ([·]) follows.hub, follows.policy, fun keyed => ?_⟩
      cases unkeyed.symm.trans keyed

variable {moves : List WorldAction}

theorem follows_of_run (ideal : prim.Ideal) {proto phraseC : Bytes} {sid : SessionID}
    {policy : RolePolicy} {observer : Bool} {key : Key}
    (reached : run World.step (World.start proto phraseC sid policy observer
      defaultSuccessorPolicy host key) moves = some w) :
    w.Orderly ∧ (w.facts.gone host ∨ w.Follows host) := by
  have preserved : ∀ (state : World prim) move next,
      state.Orderly ∧ (state.facts.gone host ∨ state.Follows host) →
      state.step move = some next → next.Orderly ∧ (next.facts.gone host ∨ next.Follows host) := by
    rintro state move next ⟨orderly, follows⟩ stepped
    refine ⟨orderly.steps ideal stepped, ?_⟩
    by_cases gone : state.facts.gone host
    · exact Or.inl (gone_of_step stepped gone)
    · exact Or.inr ((follows.resolve_left gone).steps ideal orderly gone stepped)
  refine run_invariant' preserved ⟨start_orderly .., Or.inr ?_⟩ reached
  exact ⟨List.mem_singleton_self host, rfl, rfl, fun x _ => ⟨rfl, rfl, fun _ => rfl⟩⟩

def Keyed (w : World prim) (x : ParticipantID) : Prop :=
  x ∈ w.net.members ∧ (w.nodes x).endpoint.client.keyed = true

instance (w : World prim) (x : ParticipantID) : Decidable (w.Keyed x) :=
  inferInstanceAs (Decidable (_ ∧ _))

/-- Those keyed in `origin` that handle the host's departure elect from copies of
one roster. -/
def copiesOf (copy : GoMap ParticipantID Role) (origin : World prim) (host : ParticipantID)
    (w : World prim) : WorldAction → Bool
  | .act x .event =>
      origin.Keyed x → (w.nodes x).elects.map Prod.fst = some host →
        ((w.nodes x).mux.ctl.memberLeft ctlServices host).1.roster.entries.Perm copy.entries
  | _ => true

/-- Who is followed after the departure: the successor elected from the roster, or
the host still if there is none. -/
def heir (copy : GoMap ParticipantID Role) (host : ParticipantID) : ParticipantID :=
  let successor := { Ctl.new with roster := copy }.electSuccessor defaultSuccessorPolicy host
  if successor = 0 then host else successor

inductive Course (host target : ParticipantID) (due : Prop) : List ParticipantID → Prop
  | awaits (pending : due) : Course host target due [host]
  | turning : Course host target due [host, target]
  | turned : Course host target due [target]

theorem Course.goes {due due' : Prop} {now later : List ParticipantID}
    (course : Course host target due now) (later_ne : later ≠ [])
    (goes : later = now ∨ ∃ first, now = first :: later) (keeps : now = [host] → due → due') :
    Course host target due' later := by
  rcases goes with rfl | ⟨first, rfl⟩
  · cases course with
    | awaits pending => exact .awaits (keeps rfl pending)
    | turning => exact .turning
    | turned => exact .turned
  · cases course with
    | awaits pending => exact absurd rfl later_ne
    | turning => exact .turned
    | turned => exact absurd rfl later_ne

theorem Course.single {due : Prop} {current : ParticipantID}
    (course : Course host target due [current]) : current = host ∨ current = target := by
  generalize isNow : [current] = now at course
  cases course with
  | awaits pending => exact Or.inl (List.cons.inj isNow).1
  | turning => cases isNow
  | turned => exact Or.inr (List.cons.inj isNow).1

structure Turns (origin : World prim) (host target : ParticipantID) (w : World prim) : Prop where
  known : host ∈ w.used
  ends : ∀ x, origin.Keyed x → x ∈ w.used ∧ (x ∈ w.net.members →
    Reader.inLoop (w.nodes x).endpoint.reader = true ∧
      (w.nodes x).mux.successor = defaultSuccessorPolicy ∧
      Course host target (w.Due host x) ((w.nodes x).course x))

variable {copy : GoMap ParticipantID Role}

theorem Turns.steps (ideal : prim.Ideal) (orderly : w.Orderly)
    (turns : Turns origin host (heir copy host) w) (positive : ∀ id ∈ copy, id ≠ host → 1 ≤ id)
    (there : heir copy host = host ∨ ¬w.facts.gone (heir copy host))
    (copies : copiesOf copy origin host w move = true) (stepped : w.step move = some next) :
    Turns origin host (heir copy host) next := by
  obtain ⟨used, _, members, _⟩ := step_members stepped
  refine ⟨used host turns.known, fun x keyed => ?_⟩
  obtain ⟨known, ends⟩ := turns.ends x keyed
  refine ⟨used x known, fun present => ?_⟩
  have member : x ∈ w.net.members := (members x present).resolve_right (fun new => new.1 known)
  obtain ⟨inLoop, isDefault, course⟩ := ends member
  obtain ⟨steers, notice⟩ := orderly.steers ideal turns.known member present stepped
  refine ⟨steers.inLoop inLoop, steers.policy.trans isDefault, ?_⟩
  rcases steers.turn with ⟨goes, kept⟩ | ⟨rfl, successor, elects, alone, turned⟩
  · refine course.goes (List.cons_ne_nil _ _) goes (fun now due => due.elim (notice inLoop) ?_)
    exact fun event => Or.inr ((List.cons.inj now).1 ▸ kept ((List.cons.inj now).1.symm ▸ event))
  · obtain ⟨gone, isElected⟩ := elects_cases (orderly.nodes x member) elects
    rw [alone] at course turned
    rw [turned]
    by_cases ofHost : (w.nodes x).endpoint.client.hostID = host
    · rw [ofHost] at elects isElected ⊢
      have order := of_decide_eq_true copies keyed (by rw [elects]; rfl)
      have same : successor =
          { Ctl.new with roster := copy }.electSuccessor defaultSuccessorPolicy host := by
        rw [isElected, isDefault]
        exact (electSuccessor_perm positive order.symm).symm
      rw [heir, ← same]
      split
      · exact .turned
      · exact .turning
    · rw [course.single.resolve_left ofHost] at gone ofHost
      exact absurd gone (there.resolve_left ofHost)

theorem Turns.of_run {final : World prim} (ideal : prim.Ideal) (orderly : w.Orderly)
    (turns : Turns origin host (heir copy host) w) (positive : ∀ id ∈ copy, id ≠ host → 1 ≤ id)
    (copies : Along World.step (fun w move => copiesOf copy origin host w move = true) w moves)
    (reached : run World.step w moves = some final)
    (stays : heir copy host = host ∨ heir copy host ∈ final.net.members) :
    Turns origin host (heir copy host) final := by
  have preserved : ∀ (state : World prim) move next,
      state.Orderly ∧ (heir copy host ≠ host ∧ state.facts.gone (heir copy host) ∨
        Turns origin host (heir copy host) state) →
      copiesOf copy origin host state move = true → state.step move = some next →
      next.Orderly ∧ (heir copy host ≠ host ∧ next.facts.gone (heir copy host) ∨
        Turns origin host (heir copy host) next) := by
    rintro state move next ⟨orderly, turns⟩ copies stepped
    refine ⟨orderly.steps ideal stepped, ?_⟩
    by_cases gone : heir copy host ≠ host ∧ state.facts.gone (heir copy host)
    · exact Or.inl ⟨gone.1, gone_of_step stepped gone.2⟩
    · refine Or.inr ((turns.resolve_left gone).steps ideal orderly positive ?_ copies stepped)
      exact (not_and_or.mp gone).imp_left not_not.mp
  refine (run_invariant preserved ⟨orderly, Or.inr turns⟩ copies reached).2.resolve_left ?_
  exact fun gone => not_gone_of_member (stays.resolve_left gone.1) gone.2

theorem Turns.reports (turns : Turns origin host target w) (handled : Handled host w)
    (present : x ∈ w.net.members) (keyed : origin.Keyed x) :
    (w.nodes x).endpoint.client.hostID = target := by
  obtain ⟨drained, _, todo, events⟩ := handled x present
  have course := ((turns.ends x keyed).2 present).2.2
  rw [Node.course, List.isEmpty_iff.mp todo, List.filterMap_nil] at course
  generalize isNow : [(w.nodes x).endpoint.client.hostID] = now at course
  cases course with
  | awaits pending =>
      rw [Due, List.isEmpty_iff.mp (drained host List.mem_cons_self),
        List.isEmpty_iff.mp events] at pending
      exact absurd pending (by simp)
  | turning => cases isNow
  | turned => exact (List.cons.inj isNow).1

end World

/-- In every session whose host leaves, with any joins and departures before and
after: if the ends keyed at the departure elect from copies of one roster and who
is elected stays, they report one host id when everything is handled. -/
theorem survivors_report_one_host (ideal : prim.Ideal) (proto phraseC : Bytes) (sid : SessionID)
    (policy : RolePolicy) (observer : Bool) (host : ParticipantID) (key : Key)
    (before after : List WorldAction) (w final : World prim)
    (left : run World.step (World.start proto phraseC sid policy observer defaultSuccessorPolicy
      host key) (before ++ [.leave host]) = some w)
    (copy : GoMap ParticipantID Role) (positive : ∀ id ∈ copy, id ≠ host → 1 ≤ id)
    (copies : Along World.step (fun s move => World.copiesOf copy w host s move = true) w after)
    (reached : run World.step w after = some final)
    (stays : World.heir copy host = host ∨ World.heir copy host ∈ final.net.members)
    (handled : Handled host final) :
    ∀ x ∈ final.net.members, ∀ y ∈ final.net.members, w.Keyed x → w.Keyed y →
      (final.nodes x).endpoint.client.hostID = (final.nodes y).endpoint.client.hostID := by
  obtain ⟨earlier, led, departs⟩ := (run_append_eq_some _ _ _ _).mp left
  obtain ⟨departed, stepped, same⟩ := (run_cons_eq_some _ _ _ _).mp departs
  cases same
  obtain ⟨orderly, follows⟩ := World.follows_of_run ideal led
  obtain ⟨member, net, isLeft, isNext⟩ := World.leave_cases stepped
  have there : ¬earlier.facts.gone host := World.not_gone_of_member member
  have follows := (follows.resolve_left there).steps ideal orderly there stepped
  have begun : World.Turns w host (World.heir copy host) w := by
    refine ⟨follows.known, fun x keyed => ?_⟩
    obtain ⟨course, isDefault, returned⟩ := follows.ends x keyed.1
    refine ⟨(orderly.steps ideal stepped).net.known x keyed.1, fun present => ?_⟩
    refine ⟨returned keyed.2, isDefault, ?_⟩
    have noticed : w.stream host x = earlier.stream host x ++ [.participantLeft host] := by
      subst isNext
      exact Network.stream_leave_self isLeft present
    rw [course]
    refine .awaits (Or.inl ?_)
    rw [noticed]
    exact List.mem_append_right _ List.mem_cons_self
  have turns := begun.of_run ideal (orderly.steps ideal stepped) positive copies reached stays
  exact fun x atX y atY keyedX keyedY =>
    (turns.reports handled atX keyedX).trans (turns.reports handled atY keyedY).symm

def sampleRoster : GoMap ParticipantID Role :=
  ((AList.singleton 1 roleHost).insert 2 roleMember).insert 3 roleMember

/-- The theorem applies to a run in which 2 takes over and 3 follows it. -/
theorem survivors_report_one_host_sample :
    ∃ final, run World.step sampleWorld (hostLeaves ++ readsEarly) = some final ∧
      (final.nodes 2).endpoint.client.hostID = 2 ∧
      (final.nodes 2).endpoint.client.hostID = (final.nodes 3).endpoint.client.hostID := by
  have positive : sampleRoster.keys.all (1 ≤ ·) = true := by
    decide +kernel
  have left : (run World.step sampleWorld hostLeaves).any (fun w => decide (
      w.Keyed 2 ∧ w.Keyed 3 ∧
        Along World.step (fun s move => World.copiesOf sampleRoster w 1 s move = true) w
          readsEarly ∧
        (run World.step w readsEarly).any (fun final => decide (Handled 1 final ∧
          World.heir sampleRoster 1 ∈ final.net.members ∧ 2 ∈ final.net.members ∧
          3 ∈ final.net.members ∧ (final.nodes 2).endpoint.client.hostID = 2)) = true)) = true := by
    decide +kernel
  obtain ⟨w, reached, facts⟩ := (Option.any_eq_true _ _).mp left
  obtain ⟨keyed2, keyed3, copies, finished⟩ := of_decide_eq_true facts
  obtain ⟨final, ended, facts⟩ := (Option.any_eq_true _ _).mp finished
  obtain ⟨handled, stays, member2, member3, isHost⟩ := of_decide_eq_true facts
  exact ⟨final, (run_append_eq_some _ _ _ _).mpr ⟨w, reached, ended⟩, isHost,
    survivors_report_one_host symbolic_ideal [] [] (Vector.replicate 16 0) defaultRolePolicy false
      1 (sampleKey 0) hostLeaves.dropLast readsEarly w final reached sampleRoster
      (fun id known _ => of_decide_eq_true (List.all_eq_true.mp positive id known)) copies ended
      (Or.inr stays) handled 2 member2 3 member3 keyed2 keyed3⟩

/-- Participant 3 is keyed, and the host leaves before its mux announces it. -/
def leavesUnannounced : List WorldAction :=
  .act 1 .start :: joinOf 2 ++ hostAnswers ++ joinOf 3 ++
    [.deliver 2 1 [], .deliver 2 1 [], .deliver 2 3 [], .act 2 .event, .act 2 .event,
      .act 2 .event]

/-- Then 2 elects itself, and 3, which has no roster yet, elects nobody. -/
def partsWays : List WorldAction :=
  hearsOf 2 ++ takesOver 2 ++ hearsOf 3 ++ [.act 3 .event, .deliver 3 2 []]

/-- In the relay's own order and with nothing failing, a participant that was keyed
but not announced goes on reporting the host that left. -/
theorem unannounced_participant_keeps_host :
    ¬∀ (prim : Primitives), prim.Ideal → ∀ (proto phraseC : Bytes) (sid : SessionID)
      (policy : RolePolicy) (observer : Bool) (host : ParticipantID) (key : Key)
      (before after : List WorldAction) (w final : World prim),
      Along World.step (fun w action => w.Dependable action ∧ w.HubOrdered action)
          (World.start proto phraseC sid policy observer defaultSuccessorPolicy host key :
            World prim) (before ++ [.leave host] ++ after) →
        run World.step (World.start proto phraseC sid policy observer defaultSuccessorPolicy host
          key) (before ++ [.leave host]) = some w →
        run World.step w after = some final → Handled host final →
        (∀ p ∈ final.net.members, (final.nodes p).phase = .running) →
        ∀ x ∈ final.net.members, ∀ y ∈ final.net.members, w.Keyed x → w.Keyed y →
          (final.nodes x).endpoint.client.hostID = (final.nodes y).endpoint.client.hostID := by
  intro claimed
  have permitted : Along World.step (fun w action => w.Dependable action ∧ w.HubOrdered action)
      sampleWorld (leavesUnannounced ++ [.leave 1] ++ partsWays) := by
    decide +kernel
  have left : (run World.step sampleWorld (leavesUnannounced ++ [.leave 1])).any (fun w =>
      decide (w.Keyed 2 ∧ w.Keyed 3 ∧
        (run World.step w partsWays).any (fun final => decide (Handled 1 final ∧
          final.net.members = [2, 3] ∧ (final.nodes 2).phase = .running ∧
          (final.nodes 3).phase = .running ∧ (final.nodes 2).endpoint.client.hostID = 2 ∧
          (final.nodes 3).endpoint.client.hostID = 1)) = true)) = true := by
    decide +kernel
  obtain ⟨w, reached, facts⟩ := (Option.any_eq_true _ _).mp left
  obtain ⟨keyed2, keyed3, finished⟩ := of_decide_eq_true facts
  obtain ⟨final, ended, facts⟩ := (Option.any_eq_true _ _).mp finished
  obtain ⟨handled, members, running2, running3, host2, host3⟩ := of_decide_eq_true facts
  have agreed := claimed symbolic symbolic_ideal [] [] (Vector.replicate 16 0) defaultRolePolicy
    false 1 (sampleKey 0) leavesUnannounced partsWays w final permitted reached ended handled
    (by rw [members]; simp [running2, running3]) 2 (by simp [members]) 3 (by simp [members])
    keyed2 keyed3
  rw [host2, host3] at agreed
  exact absurd agreed (by decide)

end Parley.Service
