/-
The host that joiners are pointed at.

The hub's host field moves when a participant claims the role and at no other
time.  When the host is removed the field keeps its id until a survivor's claim
arrives, and a join or a resume that is handled in between is told the id of a
participant that is gone.
-/

import Parley.Relay.Founding

namespace Parley.Relay

open Wire Library

/-- The run loop, and whether the participant that was last made host has been
removed since. -/
structure HostWatch where
  loop : Loop
  orphaned : Bool

def HostWatch.start (maxParticipants grace : Nat) : HostWatch :=
  { loop := Loop.start maxParticipants grace
    orphaned := false }

def hostRemoved (before after : Hub) : Bool :=
  decide (before.host ∈ before.clients) && decide (before.host ∉ after.clients)

def HostWatch.orphanedBy (w : HostWatch) (action : Action) (after : Hub) : Bool :=
  match action with
  | .command (.claimHost id) _ => if id ∈ w.loop.hub.clients then false else w.orphaned
  | _ => w.orphaned || hostRemoved w.loop.hub after

def HostWatch.step (codec : Codec) (w : HostWatch) (action : Action) : Option HostWatch :=
  (Loop.step codec w.loop action).map (fun next =>
    { loop := next
      orphaned := w.orphanedBy action next.hub })

variable {codec : Codec} {effects : List Effect} {w : HostWatch} {after h : Hub} {order : Order}
  {cmd : Cmd}

theorem HostWatch.exists_run {actions : List Action} {final : Loop}
    (reached : run (Loop.step codec) w.loop actions = some final) :
    ∃ last, run (HostWatch.step codec) w actions = some last ∧ last.loop = final := by
  induction actions generalizing w with
  | nil =>
      cases reached
      exact ⟨w, rfl, rfl⟩
  | cons action rest ih =>
      obtain ⟨next, stepped, tail⟩ := (run_cons_eq_some w.loop final action rest).mp reached
      let watched : HostWatch := { loop := next, orphaned := w.orphanedBy action next.hub }
      have moved : w.step codec action = some watched := by
        rw [HostWatch.step, stepped, Option.map_some]
      obtain ⟨last, finished, same⟩ := ih (w := watched) tail
      exact ⟨last, (run_cons_eq_some w last action rest).mpr ⟨watched, moved, finished⟩, same⟩

/-- Joins and resumes are handled while the host has not been removed since it
was made host, and the reply to a join has a frame. -/
def Guided (codec : Codec) (w : HostWatch) : Action → Prop
  | .command (.join _ isCreate token) order =>
      w.orphaned = false ∧
        encode codec (helloReply w.loop.hub (order.visit 0) isCreate w.loop.hub.nextID token) ≠ none
  | .command (.resume _ _ _) _ => w.orphaned = false
  | _ => True

instance (codec : Codec) (w : HostWatch) : DecidablePred (Guided codec w) :=
  Action.decidableOnVisits (fun _ _ _ _ => inferInstanceAs (Decidable (_ ∧ _)))
    (fun _ _ _ _ => inferInstanceAs (Decidable (_ = false)))
    (fun action other => by unfold Guided; split <;> simp_all [Action.isVisit])

def Hub.Unfounded (h : Hub) : Prop :=
  (∀ q, q ∉ h.clients) ∧ h.host = h.nextID

structure HostWatch.Sound (w : HostWatch) : Prop where
  settled : w.loop.hub.evict = []
  present : w.orphaned = false → w.loop.hub.host ∈ w.loop.hub.clients ∨ w.loop.hub.Unfounded

theorem HostWatch.start_sound (maxParticipants grace : Nat) :
    (HostWatch.start maxParticipants grace).Sound :=
  { settled := rfl
    present := fun _ => Or.inr ⟨AList.notMem_empty, rfl⟩ }

variable {targets : ParticipantID → Prop} {id : ParticipantID} {before : Hub} {body : Body}

theorem Spread.nobody (spread : Spread codec body targets before after effects)
    (empty : ∀ q, q ∉ before.clients) :
    ∀ q, q ∉ after.clients := by
  intro q member
  obtain ⟨c, found⟩ := Option.isSome_iff_exists.mp (AList.lookup_isSome.mpr member)
  obtain ⟨old, there, -⟩ := spread.owner found
  exact empty q (mem_of_lookup there)

theorem Spread.unaddressed (spread : Spread codec body targets before after effects)
    (absent : ∀ q c, targets q → before.clients.lookup q ≠ some c) (settled : before.evict = []) :
    after.evict = [] ∧ ∀ q, ¬targets q → after.clients.lookup q = before.clients.lookup q := by
  cases spread with
  | offered encoded offers =>
      refine ⟨List.eq_nil_iff_forall_not_mem.mpr (fun id pending => ?_), offers.kept⟩
      rcases (offers.evicts id).mp pending with earlier | ⟨q, c, target, found, -, -⟩
      · rw [settled] at earlier
        cases earlier
      · exact absent q c target found
  | unencodable refused => exact ⟨settled, fun q _ => rfl⟩

theorem handleJoin_founds (conn : ConnID) {isCreate : Bool} {token : Bytes}
    (unfounded : h.Unfounded) (settled : h.evict = [])
    (encodes : encode codec (helloReply h (order.visit 0) isCreate h.nextID token) ≠ none) :
    (handleJoin codec order h conn isCreate token).1 = h ∨
      h.nextID ∈ (handleJoin codec order h conn isCreate token).1.clients ∧
        (handleJoin codec order h conn isCreate token).1.evict = [] := by
  obtain ⟨frame, encoded⟩ := Option.ne_none_iff_exists'.mp encodes
  unfold handleJoin
  split
  · exact Or.inl rfl
  · right
    simp only [encoded]
    have notice := broadcastFrame_spread codec (order.perm 1)
      (h.issued.withClient h.nextID (newClient h.nextID frame conn token))
      (.participantJoined h.nextID) h.nextID
    have alone : ∀ q c, q ≠ h.nextID →
        (h.issued.withClient h.nextID (newClient h.nextID frame conn token)).clients.lookup q ≠
          some c := by
      intro q c other found
      rcases lookup_withClient found with ⟨same, -⟩ | ⟨-, earlier⟩
      · exact other same
      · exact unfounded.1 q (mem_of_lookup earlier)
    obtain ⟨empty, kept⟩ := notice.unaddressed alone settled
    have own := (kept h.nextID (fun differs => differs rfl)).trans (AList.lookup_insert _)
    exact ⟨mem_of_lookup own, empty⟩

theorem Served.unfounded {returned : Bool} (served : Served codec h cmd after effects returned)
    (unfounded : h.Unfounded) (other : ∀ conn isCreate token, cmd ≠ .join conn isCreate token) :
    after.Unfounded := by
  obtain ⟨empty, isNext⟩ := unfounded
  have nobody : ∀ {q : ParticipantID} {c : Client}, h.clients.lookup q ≠ some c :=
    fun found => empty _ (mem_of_lookup found)
  have quiet : ∀ {body : Body} {targets : ParticipantID → Prop} {after : Hub}
      {effects : List Effect}, Spread codec body targets h after effects → after.Unfounded := by
    intro body targets after effects spread
    refine ⟨spread.nobody empty, ?_⟩
    rw [Hub.host_of_header spread.header, Hub.nextID_of_header spread.header]
    exact isNext
  cases served with
  | ignored idle => exact ⟨empty, isNext⟩
  | unencoded refused => exact absurd rfl (other _ _ _)
  | admitted perm room encoded notice => exact absurd rfl (other _ _ _)
  | held found live current graced | left found live current final removal
  | expired found waiting current removal | resumed perm found authentic encoded
  | claimed found => exact absurd found nobody
  | complained answer => exact quiet answer
  | directed decoded sent => exact quiet sent
  | broadcast decoded sent => exact quiet sent
  | closing notice => exact quiet notice

theorem handle_drained (handled : handle codec order h cmd = some (after, effects, false)) :
    ∃ late, Drained codec (dispatch codec order h cmd).1 after late false := by
  unfold handle at handled
  generalize dispatch codec order h cmd = own at handled
  obtain ⟨middle, early, finished⟩ := own
  cases finished with
  | true => cases handled
  | false =>
      obtain ⟨drained, finished, same⟩ := Option.map_eq_some_iff.mp handled
      obtain ⟨last, late, emptied⟩ := drained
      cases same
      exact ⟨late, drainEvictions_drained codec order _ _ middle _ finished⟩

theorem handle_present
    (handled : handle codec order h cmd = some (after, effects, false))
    (settled : h.evict = []) (unfounded : h.Unfounded)
    (encodes : ∀ conn isCreate token, cmd = .join conn isCreate token →
      encode codec (helloReply h (order.visit 0) isCreate h.nextID token) ≠ none) :
    after.host ∈ after.clients ∨ after.Unfounded := by
  obtain ⟨late, drained⟩ := handle_drained handled
  by_cases isJoin : ∃ conn isCreate token, cmd = .join conn isCreate token
  · obtain ⟨conn, isCreate, token, rfl⟩ := isJoin
    have joined := handleJoin_founds conn unfounded settled
      (encodes conn isCreate token rfl)
    rw [show handleJoin codec order h conn isCreate token =
      ((dispatch codec order h (.join conn isCreate token)).1,
        (dispatch codec order h (.join conn isCreate token)).2.1) from rfl] at joined
    rcases joined with same | ⟨present, empty⟩
    · simp only at same
      rw [same] at drained
      rw [drained.of_settled settled]
      exact Or.inr unfounded
    · rw [handle_host handled (fun id claim => by cases claim), unfounded.2,
        drained.of_settled empty]
      exact Or.inl present
  · have middle := (dispatch_served codec order h cmd).unfounded unfounded
      (fun conn isCreate token same => isJoin ⟨conn, isCreate, token, same⟩)
    refine Or.inr ⟨fun q member => middle.1 q (drained.mem_before member), ?_⟩
    rw [Hub.host_of_header drained.header, Hub.nextID_of_header drained.header]
    exact middle.2

theorem HostWatch.Sound.claim {hub : Hub} (sound : w.Sound)
    (handled : handle codec order w.loop.hub (.claimHost id) = some (hub, effects, false)) :
    (w.orphanedBy (.command (.claimHost id) order) hub = false →
      hub.host ∈ hub.clients ∨ hub.Unfounded) := by
  obtain ⟨late, drained⟩ := handle_drained handled
  intro cared
  simp only [HostWatch.orphanedBy] at cared
  cases found : w.loop.hub.clients.lookup id with
  | none =>
      have still : (dispatch codec order w.loop.hub (.claimHost id)).1 = w.loop.hub := by
        simp only [dispatch, handleClaimHost, found]
      rw [still] at drained
      rw [drained.of_settled sound.settled]
      rw [if_neg (AList.lookup_eq_none.mp found)] at cared
      exact sound.present cared
  | some c =>
      have moved : (dispatch codec order w.loop.hub (.claimHost id)).1 =
          { w.loop.hub with host := id } := by
        simp only [dispatch, handleClaimHost, found]
      rw [moved] at drained
      rw [drained.of_settled sound.settled]
      exact Or.inl (mem_of_lookup found)

theorem HostWatch.Sound.keep (sound : w.Sound) (still : after.host = w.loop.hub.host)
    (cared : (w.orphaned || hostRemoved w.loop.hub after) = false)
    (founded : w.loop.hub.Unfounded → after.host ∈ after.clients ∨ after.Unfounded) :
    after.host ∈ after.clients ∨ after.Unfounded := by
  obtain ⟨attended, kept⟩ := Bool.or_eq_false_iff.mp cared
  rcases sound.present attended with present | unfounded
  · simp only [hostRemoved, present, decide_true, Bool.true_and, decide_eq_false_iff_not,
      Classical.not_not] at kept
    rw [still]
    exact Or.inl kept
  · exact founded unfounded

theorem HostWatch.Sound.update {c : Client} (sound : w.Sound)
    (found : w.loop.hub.clients.lookup id = some c) (updated : Client)
    (cared : (w.orphaned || hostRemoved w.loop.hub (w.loop.hub.withClient id updated)) = false) :
    (w.loop.hub.withClient id updated).host ∈ (w.loop.hub.withClient id updated).clients ∨
      (w.loop.hub.withClient id updated).Unfounded :=
  sound.keep rfl cared (fun unfounded => absurd (mem_of_lookup found) (unfounded.1 id))

theorem HostWatch.Sound.command {hub : Hub} (sound : w.Sound)
    (guided : Guided codec w (.command cmd order))
    (handled : handle codec order w.loop.hub cmd = some (hub, effects, false))
    (cared : w.orphanedBy (.command cmd order) hub = false) :
    hub.host ∈ hub.clients ∨ hub.Unfounded := by
  have encodes : ∀ conn isCreate token, cmd = .join conn isCreate token →
      encode codec (helloReply w.loop.hub (order.visit 0) isCreate w.loop.hub.nextID token) ≠
        none := by
    rintro conn isCreate token rfl
    exact guided.2
  have other : (∀ id, cmd ≠ .claimHost id) →
      (w.orphaned || hostRemoved w.loop.hub hub) = false →
      hub.host ∈ hub.clients ∨ hub.Unfounded := fun unclaimed kept =>
    sound.keep (handle_host handled unclaimed) kept
      (fun unfounded => handle_present handled sound.settled unfounded encodes)
  cases cmd with
  | claimHost id => exact sound.claim handled cared
  | _ => exact other (fun id claim => by cases claim) cared

theorem HostWatch.Sound.step {next : HostWatch} {action : Action} (sound : w.Sound)
    (guided : Guided codec w action) (stepped : w.step codec action = some next) : next.Sound := by
  obtain ⟨loop, moved, rfl⟩ := Option.map_eq_some_iff.mp stepped
  rcases Loop.step_cases moved with
    ⟨cmd, order, _, _, _, rfl, _⟩ | ⟨id, c, found, _, rfl, rfl⟩ |
      ⟨id, c, body, frame, found, _, _, _, _, rfl, rfl⟩
  · obtain ⟨hub, effects, handled, rfl⟩ := Loop.step_command.mp moved
    obtain ⟨late, drained⟩ := handle_drained handled
    exact
      { settled := drained.settles rfl
        present := sound.command guided handled }
  · exact
      { settled := sound.settled
        present := sound.update found { c with out := c.out.drop 1 } }
  · exact
      { settled := sound.settled
        present := sound.update found { c with out := c.out ++ [frame] } }

/-- Joiners are pointed at a live host: in every run, by any commands, in which
joins and resumes are handled while the host is not missing. -/
theorem joiners_pointed_at_live_host (codec : Codec) (maxParticipants grace : Nat)
    (actions : List Action) (w : HostWatch)
    (along : Along (HostWatch.step codec) (Guided codec) (HostWatch.start maxParticipants grace)
      actions)
    (reached : run (HostWatch.step codec) (HostWatch.start maxParticipants grace) actions = some w)
    (cmd : Cmd) (order : Order) (after : Hub) (effects : List Effect) (returned : Bool)
    (guided : Guided codec w (.command cmd order))
    (handled : handle codec order w.loop.hub cmd = some (after, effects, returned))
    (q : ParticipantID) (result : JoinResult) (queued : .queued q (.joinResult result) ∈ effects) :
    result.hostID ∈ w.loop.hub.clients ∨ result.hostID = q := by
  have sound : w.Sound :=
    run_invariant (fun _ _ _ sound guided stepped => HostWatch.Sound.step sound guided stepped)
      (HostWatch.start_sound maxParticipants grace) along reached
  rw [handle_joinResult handled queued]
  have attended : w.orphaned = false := by
    rcases handle_greets handled queued (fun never => by cases never) with
      ⟨conn, isCreate, token, visit, rfl, _, _⟩ | ⟨token, conn, visit, rfl, _, _⟩
    · exact guided.1
    · exact guided
  rcases sound.present attended with present | unfounded
  · exact Or.inl present
  · right
    rcases handle_greets handled queued (fun never => by cases never) with
      ⟨_, _, _, _, _, isNext, _⟩ | ⟨_, _, _, _, member, _⟩
    · rw [isNext]
      exact unfounded.2
    · exact absurd member (unfounded.1 q)

def claimBeforeJoin : List Action :=
  [.command (.join 0 true [1]) .stored,
    .command (.join 1 false [2]) .stored,
    .command (.leave 1 1 false) .stored,
    .command (.claimHost 2) .stored]

def hostGone : List Action :=
  [.command (.join 0 true [1]) .stored,
    .command (.join 1 false [2]) .stored,
    .command (.leave 1 1 false) .stored]

def thirdResult (host : ParticipantID) : JoinResult :=
  { ok := true
    err := ""
    participantID := 3
    peers := [2]
    hostID := host
    resumeToken := [3] }

theorem claimBeforeJoin_pointed :
    ∃ w after effects,
      run (HostWatch.step cborCodec) (HostWatch.start 16 30) claimBeforeJoin = some w ∧
      handle cborCodec .stored w.loop.hub (.join 2 false [3]) = some (after, effects, false) ∧
      .queued 3 (.joinResult (thirdResult 2)) ∈ effects ∧
      ((thirdResult 2).hostID ∈ w.loop.hub.clients ∨ (thirdResult 2).hostID = 3) := by
  have finished : (run (HostWatch.step cborCodec) (HostWatch.start 16 30) claimBeforeJoin).any
      (fun w => decide (Guided cborCodec w (.command (.join 2 false [3]) .stored)) &&
        (handle cborCodec .stored w.loop.hub (.join 2 false [3])).any (fun done =>
          decide (.queued 3 (.joinResult (thirdResult 2)) ∈ done.2.1 ∧ done.2.2 = false))) =
        true := by
    decide +kernel
  obtain ⟨w, reached, there⟩ := (Option.any_eq_true _ _).mp finished
  obtain ⟨guided, joined⟩ := Bool.and_eq_true_iff.mp there
  obtain ⟨⟨after, effects, returned⟩, handled, queued⟩ := (Option.any_eq_true _ _).mp joined
  obtain ⟨sent, continues⟩ := of_decide_eq_true queued
  cases continues
  exact ⟨w, after, effects, reached, handled, sent,
    joiners_pointed_at_live_host cborCodec 16 30 claimBeforeJoin w (by decide +kernel) reached
      (.join 2 false [3]) .stored after effects false (of_decide_eq_true guided) handled 3
      (thirdResult 2) sent⟩

/-- A joiner can be pointed at a participant that has left. -/
theorem joiner_pointed_at_departed_host :
    ¬ ∀ (codec : Codec) (maxParticipants grace : Nat) (actions : List Action) (s : Loop)
        (cmd : Cmd) (order : Order) (after : Hub) (effects : List Effect) (returned : Bool)
        (q : ParticipantID) (result : JoinResult),
        run (Loop.step codec) (Loop.start maxParticipants grace) actions = some s →
        handle codec order s.hub cmd = some (after, effects, returned) →
        .queued q (.joinResult result) ∈ effects →
        result.hostID ∈ s.hub.clients ∨ result.hostID = q := by
  intro claimed
  have finished : (run (Loop.step cborCodec) (Loop.start 16 30) hostGone).any
      (fun s => decide (1 ∉ s.hub.clients) &&
        (handle cborCodec .stored s.hub (.join 2 false [3])).any (fun done =>
          decide (.queued 3 (.joinResult (thirdResult 1)) ∈ done.2.1))) = true := by
    decide +kernel
  obtain ⟨s, reached, there⟩ := (Option.any_eq_true _ _).mp finished
  obtain ⟨gone, joined⟩ := Bool.and_eq_true_iff.mp there
  obtain ⟨⟨after, effects, returned⟩, handled, queued⟩ := (Option.any_eq_true _ _).mp joined
  rcases claimed cborCodec 16 30 hostGone s (.join 2 false [3]) .stored after effects returned 3
    (thirdResult 1) reached handled (of_decide_eq_true queued) with present | own
  · exact of_decide_eq_true gone present
  · exact absurd own (by decide)

end Parley.Relay
