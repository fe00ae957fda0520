/-
Who can be elected.

An end elects from its own copy of the roster.  A joiner does not touch the copy
when somebody leaves: it waits for the host's next announce.  So a participant
whose departure an end has handled is out of the running only if the copy
reflects that departure, and a host that leaves right after a member takes its
announce with it.  `Orderly` is what every run keeps to; the election result
follows from it under the condition, and a run without it ends with a departed
participant elected.
-/

import Parley.Service.NodeSteps

namespace Parley.Service

open Crypto Library Session
open Wire (Bytes ParticipantID SessionID)

variable {prim : Primitives}

def NotLeft (earlier _later : Received prim Body) : Prop :=
  ∀ id, earlier ≠ .participantLeft id

/-- Nothing is going to put the participant into the roster again. -/
structure Quiet (p : ParticipantID) (stream : List (Received prim Body)) (n : Node prim) :
    Prop where
  noFlight : ∀ frame ∈ stream, Received.isPake1 frame = false
  notHandled : Reader.handles n.endpoint.reader p = false
  notKeyed : ∀ role, .memberKeyed p role ∉ n.events

/-- The notice of its departure is the last that comes from somebody. -/
structure Heard (p : ParticipantID) (stream : List (Received prim Body)) (n : Node prim) :
    Prop where
  last : stream.Pairwise NotLeft
  left : .memberLeft p ∈ n.events → stream = [] ∧ Reader.handles n.endpoint.reader p = false
  quiet : p ∈ n.mux.ctl.pruned ∨ .promote p ∈ n.todo → Quiet p stream n

section

variable {f : Facts} {x p sender : ParticipantID} {n n' : Node prim}
  {stream : List (Received prim Body)} {frame : Received prim Body}

theorem Quiet.of_handledLeave (heard : Heard p stream n) (ordered : n.events.Pairwise KeyedFirst)
    (evolves : Evolves n n') (handled : n.HandledLeave n' p) : Quiet p stream n' := by
  unfold Node.HandledLeave at handled
  obtain ⟨empty, notHandled⟩ := heard.left (by rw [handled]; exact List.mem_cons_self)
  refine
    { noFlight := fun frame member => ?_
      notHandled := ?_
      notKeyed := fun role member => ?_ }
  · rw [empty] at member
    cases member
  · rw [Bool.eq_false_iff] at notHandled ⊢
    exact fun handles => notHandled (evolves.handles p handles)
  · rw [handled] at ordered
    exact (List.pairwise_cons.mp ordered).1 _ member p role rfl rfl

theorem Quiet.of_not_host (ok : NodeOk f x n) (hosting : f.hosts x → n.endpoint.client.role = roleHost)
    (frames : ∀ frame ∈ stream, ReceivedOk f p x frame)
    (notHost : n.endpoint.client.role ≠ roleHost) : Quiet p stream n := by
  refine
    { noFlight := fun frame member => ?_
      notHandled := ?_
      notKeyed := fun role member => notHost (ok.keyed p role member) }
  · rw [Bool.eq_false_iff]
    exact fun starts => notHost (hosting ((frames frame member).host_of_pake1 starts))
  · rw [Bool.eq_false_iff]
    exact fun handles => notHost (ok.endpoint.reader.host_of_handles handles)

theorem Quiet.evolves (quiet : Quiet p stream n) (evolves : Evolves n n') : Quiet p stream n' := by
  have notHandled := Bool.eq_false_iff.mp quiet.notHandled
  refine
    { noFlight := quiet.noFlight
      notHandled := Bool.eq_false_iff.mpr (fun handles => notHandled (evolves.handles p handles))
      notKeyed := fun role member => ?_ }
  rcases evolves.events with ⟨event, taken⟩ | ⟨added, appended, keyed⟩
  · refine quiet.notKeyed role ?_
    rw [taken]
    exact List.mem_cons_of_mem event member
  · rw [appended] at member
    rcases List.mem_append.mp member with old | new
    · exact quiet.notKeyed role old
    · obtain ⟨id, other, same, handles⟩ := keyed _ new
      cases same
      exact notHandled handles

theorem Heard.evolves (heard : Heard p stream n) (ok : NodeOk f x n)
    (hosting : f.hosts x → n.endpoint.client.role = roleHost)
    (frames : ∀ frame ∈ stream, ReceivedOk f p x frame)
    (ordered : n.events.Pairwise KeyedFirst) (evolves : Evolves n n') : Heard p stream n' := by
  refine
    { last := heard.last
      left := fun member => ?_
      quiet := fun removed => ?_ }
  · have old : .memberLeft p ∈ n.events := by
      rcases evolves.events with ⟨event, taken⟩ | ⟨added, appended, keyed⟩
      · rw [taken]
        exact List.mem_cons_of_mem event member
      · rw [appended] at member
        rcases List.mem_append.mp member with old | new
        · exact old
        · obtain ⟨_, _, same, _⟩ := keyed _ new
          cases same
    obtain ⟨empty, notHandled⟩ := heard.left old
    rw [Bool.eq_false_iff] at notHandled ⊢
    exact ⟨empty, fun handles => notHandled (evolves.handles p handles)⟩
  · have promoting : .promote p ∈ n.todo → Quiet p stream n' := fun member =>
      (heard.quiet (Or.inr member)).evolves evolves
    rcases removed with pruned | promote
    · rcases evolves.pruned p pruned with old | promote | handled | notHost
      · exact (heard.quiet (Or.inl old)).evolves evolves
      · exact promoting promote
      · exact Quiet.of_handledLeave heard ordered evolves handled
      · exact (Quiet.of_not_host ok hosting frames notHost).evolves evolves
    · rcases evolves.promote p promote with old | handled
      · exact promoting old
      · exact Quiet.of_handledLeave heard ordered evolves handled

theorem KeyedFirst.evolves (ok : NodeOk f x n) (evolves : Evolves n n')
    (heard : ∀ p, f.gone p → ∃ stream, Heard p stream n)
    (ordered : n.events.Pairwise KeyedFirst) : n'.events.Pairwise KeyedFirst := by
  rcases evolves.events with ⟨event, taken⟩ | ⟨added, appended, keyed⟩
  · rw [taken] at ordered
    exact (List.pairwise_cons.mp ordered).2
  · rw [appended]
    refine List.pairwise_append.mpr ⟨ordered, ?_, ?_⟩
    · refine List.pairwise_of_forall_mem_list (fun earlier member later _ id role same => ?_)
      obtain ⟨_, _, isKeyed, _⟩ := keyed earlier member
      rw [same] at isKeyed
      cases isKeyed
    · intro earlier member later new id role same isKeyed
      subst same
      obtain ⟨_, _, same, handles⟩ := keyed later new
      rw [isKeyed] at same
      cases same
      obtain ⟨stream, heard⟩ := heard id (ok.events _ member)
      rw [(heard.left member).2] at handles
      cases handles

variable {outputs : List (Output prim Body)} {E : Endpoint prim Body}

theorem Heard.takes {stream' : List (Received prim Body)} (heard : Heard p stream n)
    (takes : Takes f x sender frame n.endpoint E outputs) (frameOk : ReceivedOk f sender x frame)
    (streams : p = sender ∧ stream = frame :: stream' ∨ p ≠ sender ∧ stream' = stream) :
    Heard p stream' (n.settle E outputs) := by
  have sublist : stream'.Sublist stream := by
    rcases streams with ⟨_, same⟩ | ⟨_, same⟩
    · exact same ▸ List.sublist_cons_self frame stream'
    · exact same ▸ List.Sublist.refl stream'
  -- a handshake the reader takes up is the sender's
  have handles : Reader.handles E.reader p = true →
      Received.isPake1 frame = true ∧ frame ∈ stream := by
    intro handled
    obtain ⟨isSender, starts⟩ := takes.handles p handled
    obtain ⟨_, same⟩ := streams.resolve_right (fun other => other.1 isSender)
    exact ⟨starts, same ▸ List.mem_cons_self⟩
  refine
    { last := heard.last.sublist sublist
      left := fun member => ?_
      quiet := fun removed => ?_ }
  · rcases mem_events_settle member with old | new
    · obtain ⟨empty, _⟩ := heard.left old
      refine ⟨List.sublist_nil.mp (empty ▸ sublist), Bool.eq_false_iff.mpr (fun handled => ?_)⟩
      have present := (handles handled).2
      rw [empty] at present
      cases present
    · have isLeft := (takes.emits _ new).2.2 p rfl
      subst isLeft
      obtain ⟨_, same⟩ := streams.resolve_right (fun other => other.1 frameOk.1)
      have last := heard.last
      rw [same, List.pairwise_cons] at last
      constructor
      · refine List.eq_nil_iff_forall_not_mem.mpr (fun later present => ?_)
        exact last.1 later present p rfl
      · exact Bool.eq_false_iff.mpr (fun handled => nomatch (handles handled).1)
  · have quiet := heard.quiet removed
    refine
      { noFlight := fun later member => quiet.noFlight later (sublist.subset member)
        notHandled := Bool.eq_false_iff.mpr (fun handled => ?_)
        notKeyed := fun role member => ?_ }
    · obtain ⟨starts, present⟩ := handles handled
      rw [quiet.noFlight frame present] at starts
      cases starts
    · rcases mem_events_settle member with old | new
      · exact quiet.notKeyed role old
      · exact (takes.emits _ new).2.1 p role rfl

theorem KeyedFirst.takes (takes : Takes f x sender frame n.endpoint E outputs)
    (ordered : n.events.Pairwise KeyedFirst) : (n.settle E outputs).events.Pairwise KeyedFirst := by
  have added : ∃ new, (n.settle E outputs).events = n.events ++ new ∧
      ∀ event ∈ new, .emitted event ∈ outputs := by
    refine ⟨_, rfl, fun event member => ?_⟩
    obtain ⟨output, present, same⟩ := List.mem_filterMap.mp member
    cases output with
    | wrote sent => cases same
    | emitted other =>
        cases same
        exact present
  obtain ⟨new, events, emitted⟩ := added
  have notKeyed : ∀ event ∈ new, ∀ id role, event ≠ .memberKeyed id role :=
    fun event member => (takes.emits event (emitted event member)).2.1
  rw [events]
  refine List.pairwise_append.mpr ⟨ordered, ?_, ?_⟩
  · exact List.pairwise_of_forall_mem_list (fun _ _ later member id role _ =>
      notKeyed later member id role)
  · exact fun _ _ later member id role _ => notKeyed later member id role

end

variable {action : WorldAction}

namespace World

def facts (w : World prim) : Facts :=
  { gone := fun id => id ∈ w.used ∧ id ∉ w.net.members
    hosts := fun id => id ∈ w.used ∧ (w.nodes id).endpoint.client.role = roleHost }

structure Orderly (w : World prim) : Prop where
  net : w.net.Filed w.used (SentOk w.facts) (ReceivedOk w.facts)
  hub : w.facts.hosts w.hubHost
  nodes : ∀ x ∈ w.net.members, NodeOk w.facts x (w.nodes x)
  ordered : ∀ x ∈ w.net.members, (w.nodes x).events.Pairwise KeyedFirst
  heard : ∀ p, w.facts.gone p → ∀ x ∈ w.net.members, Heard p (w.stream p x) (w.nodes x)

variable {w next : World prim}

theorem sentOk_carried (f : Facts) (sender receiver : ParticipantID) (posted : Sent prim Body)
    (frame : Received prim Body) (ok : SentOk f sender posted)
    (carried : carry sender posted receiver = some frame) : ReceivedOk f sender receiver frame :=
  ok.carried carried

variable {sender receiver id x : ParticipantID} {seed : Bytes}

theorem Orderly.frames (orderly : w.Orderly) (frame : Received prim Body)
    (member : frame ∈ w.stream sender receiver) :
    ReceivedOk w.facts sender receiver frame :=
  orderly.net.of_stream (sentOk_carried w.facts) member

theorem not_gone_of_member (member : x ∈ w.net.members) : ¬w.facts.gone x :=
  fun gone => gone.2 member

theorem Orderly.acts (orderly : w.Orderly) {action : NodeAction}
    (stepped : w.step (.act x action) = some next) : next.Orderly := by
  obtain ⟨member, node, posts, acted, same⟩ := act_cases stepped
  have ok := orderly.nodes x member
  have unpruned : ∀ id role, .memberKeyed id role ∈ (w.nodes x).events →
      id ∉ (w.nodes x).mux.ctl.pruned := fun id role keyed pruned =>
    (((orderly.heard id (ok.ctl id pruned).1 x member).quiet (Or.inl pruned)).notKeyed role) keyed
  have result := ok.steps (not_gone_of_member member)
    (fun isHost => ⟨orderly.net.known x member, isHost⟩) unpruned acted
  have grow : w.facts.Grow next.facts := by
    subst same
    refine
      { gone := fun id gone => gone
        hosts := fun id hosts => ⟨hosts.1, ?_⟩ }
    by_cases here : id = x
    · subst here
      simp only [settle, Function.update_self]
      exact result.evolves.role hosts.2
    · simp only [settle, Function.update_of_ne here]
      exact hosts.2
  have goneBack : ∀ p, next.facts.gone p → w.facts.gone p := by
    subst same
    exact fun p gone => gone
  have heardAt : ∀ p, w.facts.gone p → Heard p (w.stream p x) node := fun p gone =>
    (orderly.heard p gone x member).evolves ok (fun hosts => hosts.2)
      (fun frame => orderly.frames frame) (orderly.ordered x member) result.evolves
  refine
    { net := ?_
      hub := ?_
      nodes := fun y present => ?_
      ordered := fun y present => ?_
      heard := fun p gone y present => ?_ }
  · have posted := orderly.net.post member result.posts
    subst same
    exact posted.mono (fun _ _ ok => ok.mono grow) (fun _ _ _ ok => ok.mono grow)
  · subst same
    exact grow.hosts _ orderly.hub
  · subst same
    by_cases here : y = x
    · subst here
      simp only [settle, Function.update_self]
      exact result.ok.mono grow
    · simp only [settle, Function.update_of_ne here]
      exact (orderly.nodes y present).mono grow
  · subst same
    by_cases here : y = x
    · subst here
      simp only [settle, Function.update_self]
      exact KeyedFirst.evolves ok result.evolves
        (fun p gone => ⟨_, orderly.heard p gone y member⟩) (orderly.ordered y member)
    · simp only [settle, Function.update_of_ne here]
      exact orderly.ordered y present
  · have before := goneBack p gone
    subst same
    have differ : p ≠ x := fun same => not_gone_of_member member (same ▸ before)
    rw [stream]
    simp only [settle, Network.stream_post_of_ne _ differ]
    by_cases here : y = x
    · subst here
      simp only [Function.update_self]
      exact heardAt p before
    · simp only [Function.update_of_ne here]
      exact orderly.heard p before y present

theorem Orderly.delivers (ideal : prim.Ideal) (orderly : w.Orderly)
    (stepped : w.step (.deliver receiver sender seed) = some next) : next.Orderly := by
  obtain ⟨member, frame, net, E, outputs, taken, received, same⟩ := deliver_cases stepped
  have sameMembers : net.members = w.net.members := Network.members_take taken
  have ok := orderly.nodes receiver member
  have isStream : w.stream sender receiver = frame :: net.stream carry sender receiver :=
    Network.stream_take taken
  have frameOk : ReceivedOk w.facts sender receiver frame :=
    orderly.frames frame (isStream ▸ List.mem_cons_self)
  have takes := ok.endpoint.receive ideal frameOk received
  have sameGone : ∀ id, next.facts.gone id ↔ w.facts.gone id := by
    subst same
    intro id
    simp only [facts, settle, Network.post, sameMembers]
  have grow : w.facts.Grow next.facts := by
    refine
      { gone := fun id => (sameGone id).mpr
        hosts := fun id hosts => ?_ }
    subst same
    refine ⟨hosts.1, ?_⟩
    by_cases here : id = receiver
    · subst here
      simp only [settle, Function.update_self]
      exact takes.role.mpr hosts.2
    · simp only [settle, Function.update_of_ne here]
      exact hosts.2
  have streams : ∀ p y, next.stream p y = net.stream carry p y := by
    subst same
    intro p y
    by_cases here : p = receiver
    · subst here
      rw [stream]
      simp only [settle, Network.stream_post_self, List.filterMap_nil, List.append_nil]
    · rw [stream]
      simp only [settle, Network.stream_post_of_ne _ here]
  have present : ∀ {y}, y ∈ next.net.members → y ∈ w.net.members := by
    subst same
    intro y inNext
    exact sameMembers ▸ inNext
  refine
    { net := ?_
      hub := ?_
      nodes := fun y inNext => ?_
      ordered := fun y inNext => ?_
      heard := fun p gone y inNext => ?_ }
  · have posted := (orderly.net.take taken).post (sameMembers.symm ▸ member)
      (fun post absent => absurd absent (List.not_mem_nil (a := post)))
    have filed := posted.mono (fun _ _ ok => SentOk.mono grow ok)
      (fun _ _ _ ok => ReceivedOk.mono grow ok)
    subst same
    exact filed
  · have hub := grow.hosts _ orderly.hub
    subst same
    exact hub
  · have old := present inNext
    have nodeOk : NodeOk next.facts receiver ((w.nodes receiver).settle E outputs) :=
      (ok.takes takes).mono grow
    have others : NodeOk next.facts y (w.nodes y) := (orderly.nodes y old).mono grow
    subst same
    by_cases here : y = receiver
    · subst here
      simp only [settle, Function.update_self]
      exact nodeOk
    · simp only [settle, Function.update_of_ne here]
      exact others
  · have old := present inNext
    subst same
    by_cases here : y = receiver
    · subst here
      simp only [settle, Function.update_self]
      exact KeyedFirst.takes takes (orderly.ordered y member)
    · simp only [settle, Function.update_of_ne here]
      exact orderly.ordered y old
  · have before := orderly.heard p ((sameGone p).mp gone) y (present inNext)
    rw [streams]
    subst same
    by_cases here : y = receiver
    · subst here
      simp only [settle, Function.update_self]
      refine before.takes takes frameOk ?_
      by_cases isSender : p = sender
      · subst isSender
        exact Or.inl ⟨rfl, isStream⟩
      · exact Or.inr ⟨isSender, Network.stream_take_of_ne taken (Or.inr isSender)⟩
    · simp only [settle, Function.update_of_ne here]
      rw [Network.stream_take_of_ne taken (Or.inl here)]
      exact before

theorem Orderly.routes (orderly : w.Orderly) (stepped : w.step (.route sender) = some next) :
    next.Orderly := by
  obtain ⟨net, routed, same⟩ := route_cases stepped
  have sameMembers : net.members = w.net.members := Network.members_route routed
  have sameFacts : next.facts = w.facts := by
    subst same
    simp only [facts, sameMembers]
  have filed := orderly.net.route (sentOk_carried w.facts) routed
  have claimed : w.facts.hosts (w.claimed sender) := by
    unfold World.claimed
    split
    · rename_i claims
      split
      · exact orderly.net.posts sender .claimHost (claims ▸ List.mem_cons_self)
      · exact orderly.hub
    · exact orderly.hub
  rw [← sameFacts] at filed claimed
  subst same
  exact
    { net := filed
      hub := claimed
      nodes := fun y present => sameFacts ▸ orderly.nodes y (sameMembers ▸ present)
      ordered := fun y present => orderly.ordered y (sameMembers ▸ present)
      heard := fun p gone y present => by
        have member : y ∈ w.net.members := sameMembers ▸ present
        rw [stream]
        simp only [Network.stream_route routed p member]
        exact orderly.heard p (sameFacts ▸ gone) y member }

theorem Orderly.leaves (orderly : w.Orderly) (stepped : w.step (.leave id) = some next) :
    next.Orderly := by
  obtain ⟨member, net, left, same⟩ := leave_cases stepped
  have stays : ∀ {y}, y ∈ next.net.members ↔ y ∈ w.net.members ∧ y ≠ id := by
    subst same
    exact Network.mem_leave left
  have grow : w.facts.Grow next.facts := by
    refine
      { gone := fun other gone => ⟨?_, fun present => gone.2 (stays.mp present).1⟩
        hosts := fun other hosts => ?_ }
    · subst same
      exact gone.1
    · subst same
      exact hosts
  have idGone : next.facts.gone id := by
    refine ⟨?_, fun present => (stays.mp present).2 rfl⟩
    subst same
    exact orderly.net.known id member
  have filed : next.net.Filed w.used (SentOk next.facts) (ReceivedOk next.facts) := by
    have before := orderly.net.mono (fun _ _ ok => SentOk.mono grow ok)
      (fun _ _ _ ok => ReceivedOk.mono grow ok)
    have after := before.leave left member (fun receiver _ => ⟨rfl, idGone⟩)
    subst same
    exact after
  refine
    { net := ?_
      hub := ?_
      nodes := fun y present => ?_
      ordered := fun y present => ?_
      heard := fun p gone y present => ?_ }
  · subst same
    exact filed
  · have hub := grow.hosts _ orderly.hub
    subst same
    exact hub
  · have old := (orderly.nodes y (stays.mp present).1).mono grow
    subst same
    exact old
  · have old := orderly.ordered y (stays.mp present).1
    subst same
    exact old
  · have before := (stays.mp present).1
    by_cases isLeaver : p = id
    · subst isLeaver
      -- nobody has heard of a departure that has just happened
      have notGone : ¬w.facts.gone p := not_gone_of_member member
      have isStream : next.stream p y = w.stream p y ++ [.participantLeft p] := by
        subst same
        exact Network.stream_leave_self left present
      have ok := orderly.nodes y before
      have sameNode : next.nodes y = w.nodes y := by
        subst same
        rfl
      rw [isStream, sameNode]
      refine
        { last := List.pairwise_append.mpr ⟨?_, List.pairwise_singleton _ _, ?_⟩
          left := fun event => absurd (ok.events _ event) notGone
          quiet := fun removed => absurd (removed.elim (fun pruned => (ok.ctl p pruned).1)
            (fun promote => ok.todo.gone_of_promote promote)) notGone }
      · refine List.pairwise_of_forall_mem_list (fun earlier underWay _ _ id same => ?_)
        subst same
        exact notGone (orderly.frames _ underWay).2
      · intro earlier underWay _ _ id same
        subst same
        exact notGone (orderly.frames _ underWay).2
    · have old : w.facts.gone p := by
        subst same
        exact ⟨gone.1, fun there => gone.2 (stays.mpr ⟨there, isLeaver⟩)⟩
      have heard := orderly.heard p old y before
      subst same
      rw [stream, Network.stream_leave_of_ne left isLeaver y]
      exact heard

theorem Orderly.joins (orderly : w.Orderly) {proto phraseC : Bytes} {policy : RolePolicy}
    {observer : Bool} (stepped : w.step (.join id proto phraseC policy observer seed) = some next) :
    next.Orderly := by
  obtain ⟨unused, _, same⟩ := join_cases stepped
  have differs : ∀ {other}, other ∈ w.used → other ≠ id := fun known isNew => unused (isNew ▸ known)
  have grow : w.facts.Grow next.facts := by
    subst same
    refine
      { gone := fun other gone => ⟨List.mem_append_left [id] gone.1, fun present => ?_⟩
        hosts := fun other hosts => ⟨List.mem_append_left [id] hosts.1, ?_⟩ }
    · rcases List.mem_append.mp present with old | new
      · exact gone.2 old
      · exact differs gone.1 (List.mem_singleton.mp new)
    · simp only [Function.update_of_ne (differs hosts.1)]
      exact hosts.2
  have filed := (orderly.net.mono (fun _ _ ok => SentOk.mono grow ok)
    (fun _ _ _ ok => ReceivedOk.mono grow ok)).join
    (show ∀ receiver ∈ w.net.members, ReceivedOk next.facts id receiver (.participantJoined id) from
      fun _ _ => rfl)
  have goneBack : ∀ p, next.facts.gone p → w.facts.gone p := by
    subst same
    intro p gone
    rcases List.mem_append.mp gone.1 with old | new
    · exact ⟨old, fun present => gone.2 (List.mem_append_left [id] present)⟩
    · exact absurd (List.mem_append_right w.net.members new) gone.2
  have hub := grow.hosts _ orderly.hub
  -- a member is an old one or the new one
  have cases : ∀ {y}, y ∈ next.net.members → y = id ∨ y ∈ w.net.members ∧ y ≠ id := by
    subst same
    intro y present
    rcases List.mem_append.mp present with old | new
    · exact Or.inr ⟨old, differs (orderly.net.known y old)⟩
    · exact Or.inl (List.mem_singleton.mp new)
  refine
    { net := ?_
      hub := ?_
      nodes := fun y present => ?_
      ordered := fun y present => ?_
      heard := fun p gone y present => ?_ }
  · subst same
    exact filed
  · subst same
    exact hub
  · rcases cases present with rfl | ⟨member, differ⟩
    · subst same
      simp only [Function.update_self]
      exact NodeOk.of_new
        { self := rfl
          hostSelf := fun isHost => by cases isHost
          reader := ⟨show roleNone ≠ roleHost by decide, hub⟩
          calls := List.forall_mem_nil _ }
    · have old := (orderly.nodes y member).mono grow
      subst same
      simp only [Function.update_of_ne differ]
      exact old
  · rcases cases present with rfl | ⟨member, differ⟩
    · subst same
      simp only [Function.update_self]
      exact List.Pairwise.nil
    · have old := orderly.ordered y member
      subst same
      simp only [Function.update_of_ne differ]
      exact old
  · have before := goneBack p gone
    have notNew : p ≠ id := differs before.1
    have isStream : next.stream p y = w.stream p y := by
      subst same
      exact Network.stream_announce_of_ne w.net notNew _ y
    rw [isStream]
    rcases cases present with rfl | ⟨member, differ⟩
    · have nothing : w.stream p y = [] := by
        rw [stream, orderly.net.stream_to_unused unused, orderly.net.drained p before.2]
        rfl
      rw [nothing]
      subst same
      simp only [Function.update_self]
      exact
        { last := List.Pairwise.nil
          left := fun absent => absurd absent List.not_mem_nil
          quiet := fun removed => removed.elim (fun absent => absurd absent List.not_mem_nil)
            (fun absent => absurd absent List.not_mem_nil) }
    · have old := orderly.heard p before y member
      subst same
      simp only [Function.update_of_ne differ]
      exact old

theorem Orderly.steps (ideal : prim.Ideal) (orderly : w.Orderly)
    (stepped : w.step action = some next) : next.Orderly := by
  cases action with
  | join id proto phraseC policy observer seed => exact orderly.joins stepped
  | leave id => exact orderly.leaves stepped
  | route sender => exact orderly.routes stepped
  | deliver receiver sender seed => exact orderly.delivers ideal stepped
  | act id action => exact orderly.acts stepped

theorem start_orderly (proto phraseC : Bytes) (sid : SessionID) (policy : RolePolicy)
    (observer : Bool) (successor : SuccessorPolicy) (host : ParticipantID) (key : Key) :
    (World.start proto phraseC sid policy observer successor host key : World prim).Orderly := by
  have only : ∀ {x}, x ∈ (World.start proto phraseC sid policy observer successor host key :
      World prim).net.members → x = host := fun member => List.mem_singleton.mp member
  refine
    { net := Network.single_filed host
      hub := ⟨List.mem_singleton_self host, rfl⟩
      nodes := fun x member => ?_
      ordered := fun _ _ => List.Pairwise.nil
      heard := fun p gone => absurd gone.1 gone.2 }
  rw [only member]
  exact NodeOk.of_new
    { self := rfl
      hostSelf := fun _ => rfl
      reader := trivial
      calls := List.forall_mem_nil _ }

end World

/-! ### The election -/

/-- The leaver and the successor that `maybeMigrate` elects, if this is what the
mux goroutine does next. -/
def Node.elects (n : Node prim) : Option (ParticipantID × ParticipantID) :=
  match n.phase, n.todo, n.events with
  | .running, [], .memberLeft left :: _ =>
      if left = n.endpoint.client.hostID then
        some (left, (n.mux.ctl.memberLeft ctlServices left).1.electSuccessor n.mux.successor left)
      else none
  | _, _, _ => none

namespace World

/-- Who is elected, if anybody, has not left as far as this end knows. -/
def ElectsLiving (w : World prim) : WorldAction → Prop
  | .act x .event =>
      match (w.nodes x).elects with
      | some (left, successor) =>
          x ∈ w.net.members → successor = 0 ∨ successor ∉ left :: (w.nodes x).departed
      | none => True
  | _ => True

/-- An end that elects has a copy of the roster from which every departure it has
handled has been removed: by itself as a host, or by the host that announced the
copy. -/
def LeaveReflected (w : World prim) : WorldAction → Prop
  | .act x .event =>
      match (w.nodes x).elects with
      | some _ => x ∈ w.net.members → ∀ p ∈ (w.nodes x).departed, p ∈ (w.nodes x).mux.ctl.pruned
      | none => True
  | _ => True

instance (w : World prim) (action : WorldAction) : Decidable (w.LeaveReflected action) := by
  dsimp only [LeaveReflected]
  split
  · split
    · exact @instDecidableForall _ _ inferInstance (List.decidableBAll _ _)
    · infer_instance
  · infer_instance

theorem mem_pruned_memberLeft {c : Ctl} {left p : ParticipantID} (pruned : p ∈ c.pruned) :
    p ∈ (c.memberLeft ctlServices left).1.pruned := by
  unfold Ctl.memberLeft
  split
  · exact List.mem_cons_of_mem left pruned
  · exact pruned

theorem Orderly.electsLiving {w : World prim} (orderly : w.Orderly)
    (reflected : w.LeaveReflected action) : w.ElectsLiving action := by
  unfold ElectsLiving
  split
  · rename_i x
    split
    · rename_i left successor elected
      intro member
      simp only [LeaveReflected, elected] at reflected
      have ok := orderly.nodes x member
      unfold Node.elects at elected
      split at elected
      · rename_i leaver _ _ _ events
        split at elected
        · obtain ⟨isLeft, isElected⟩ := Prod.mk.inj (Option.some.inj elected)
          subst isLeft
          have gone : EventOk w.facts x (.memberLeft leaver) :=
            ok.events _ (by rw [events]; exact List.mem_cons_self)
          have handler := ok.ctl.memberLeft ctlServices gone
          by_cases none : successor = 0
          · exact Or.inl none
          · rw [← isElected] at none ⊢
            obtain ⟨candidate, notLeft⟩ := Ctl.electSuccessor_mem none
            refine Or.inr (fun departed => ?_)
            rcases List.mem_cons.mp departed with isLeaver | before
            · exact notLeft isLeaver
            · have pruned := reflected member _ before
              exact (handler.ctl _ (mem_pruned_memberLeft pruned)).2 candidate
        · cases elected
      · cases elected
    · trivial
  · trivial

end World

/-- In every run in which the copies of electing ends reflect the departures they
have handled, nobody elects a departed participant. -/
theorem departed_never_elected (ideal : prim.Ideal) (proto phraseC : Bytes) (sid : SessionID)
    (policy : RolePolicy) (observer : Bool) (successor : SuccessorPolicy) (host : ParticipantID)
    (key : Key) (actions : List WorldAction)
    (reflected : Along World.step World.LeaveReflected
      (World.start proto phraseC sid policy observer successor host key : World prim) actions) :
    Along World.step World.ElectsLiving
      (World.start proto phraseC sid policy observer successor host key : World prim) actions := by
  refine Along.of_invariant ?_ ?_
    (World.start_orderly proto phraseC sid policy observer successor host key) reflected
  · exact fun _ _ _ orderly _ stepped => orderly.steps ideal stepped
  · exact fun _ _ orderly now => orderly.electsLiving now

def threeTogether : List WorldAction :=
  .act 1 .start :: joinOf 2 ++ hostAnswers ++ joinOf 3 ++ hostAnswers ++
    [.deliver 3 1 [], .deliver 3 1 [], .act 3 .event, .act 3 .event]

/-- Participant 2 leaves, 3 adopts the host's next announce, and the host leaves. -/
def announcedDeparture : List WorldAction :=
  threeTogether ++
    [.leave 2, .deliver 1 2 [], .act 1 (.advance (success 1)), .act 1 (.advance (success 1)),
      .act 1 (.advance (success 1)), .act 1 .event, .act 1 (.task (taskDone 0)),
      .act 1 (.task (taskDone 0)), .route 1, .route 1, .deliver 3 2 [],
      .act 3 (.advance (success 1)), .deliver 3 1 [], .act 3 (.advance (success 1)),
      .deliver 3 1 [], .act 3 .event, .act 3 .event, .leave 1, .deliver 3 1 [],
      .act 3 (.advance (success 1))]

/-- It elects itself, and the theorem applies to the whole run. -/
theorem announcedDeparture_not_elected :
    (∃ w, run World.step sampleWorld announcedDeparture = some w ∧
      (w.nodes 3).elects = some (1, 3) ∧ (w.nodes 3).departed = [2]) ∧
    Along World.step World.ElectsLiving sampleWorld (announcedDeparture ++ [.act 3 .event]) := by
  have finished : (run World.step sampleWorld announcedDeparture).any (fun w =>
      decide ((w.nodes 3).elects = some (1, 3) ∧ (w.nodes 3).departed = [2])) = true := by
    decide +kernel
  have reflected : Along World.step World.LeaveReflected sampleWorld
      (announcedDeparture ++ [.act 3 .event]) := by
    decide +kernel
  obtain ⟨w, reached, facts⟩ := (Option.any_eq_true _ _).mp finished
  exact ⟨⟨w, reached, of_decide_eq_true facts⟩,
    departed_never_elected symbolic_ideal [] [] (Vector.replicate 16 0) defaultRolePolicy false
      defaultSuccessorPolicy 1 (sampleKey 0) _ reflected⟩

/-- Participant 2 leaves and right after it the host, whose mux never gets to
announce the departure; 3 handles both. -/
def unannouncedDeparture : List WorldAction :=
  threeTogether ++
    [.leave 2, .leave 1, .deliver 3 2 [], .act 3 (.advance (success 1)), .act 3 .event,
      .deliver 3 1 [], .act 3 (.advance (success 1))]

/-- In the relay's own order and with nothing failing, an end elects a participant
whose departure it has handled. -/
theorem departed_elected :
    ¬∀ (prim : Primitives), prim.Ideal → ∀ (proto phraseC : Bytes) (sid : SessionID)
      (policy : RolePolicy) (observer : Bool) (host : ParticipantID) (key : Key)
      (actions : List WorldAction),
      Along World.step (fun w action => w.Dependable action ∧ w.HubOrdered action)
          (World.start proto phraseC sid policy observer defaultSuccessorPolicy host key :
            World prim) actions →
        Along World.step World.ElectsLiving
          (World.start proto phraseC sid policy observer defaultSuccessorPolicy host key :
            World prim) actions := by
  intro claimed
  have finished : (run World.step sampleWorld unannouncedDeparture).any (fun w =>
      decide ((w.nodes 3).elects = some (1, 2) ∧ 2 ∈ (w.nodes 3).departed ∧
        3 ∈ w.net.members)) = true := by
    decide +kernel
  have permitted : Along World.step (fun w action => w.Dependable action ∧ w.HubOrdered action)
      sampleWorld (unannouncedDeparture ++ [.act 3 .event]) := by
    decide +kernel
  obtain ⟨w, reached, facts⟩ := (Option.any_eq_true _ _).mp finished
  obtain ⟨elected, departed, member⟩ := of_decide_eq_true facts
  have living := (claimed symbolic symbolic_ideal [] [] (Vector.replicate 16 0) defaultRolePolicy
    false 1 (sampleKey 0) _ permitted).append_right reached
  have last := living.1
  simp only [World.ElectsLiving, elected] at last
  rcases last member with zero | notDeparted
  · exact absurd zero (by decide)
  · exact notDeparted (List.mem_cons_of_mem 1 departed)

end Parley.Service
