/-
What a participant is sent after it was told that another one left.

The hub forwards a frame for the id its handler was given and does not ask
whether that id still has a slot.  A superseded handler, or one whose slot was
evicted, can therefore still speak after its departure was announced.  As long
as every routed frame comes from a current participant, and the id counter does
not wrap, nobody hears from a participant it saw leave.
-/

import Parley.Relay.HubRun
import Parley.Relay.Slots
import Parley.WireCbor

namespace Parley.Relay

open Wire Library

/-- The stamped sender of a forwarded frame; other bodies have none. -/
def sender : Body → Option ParticipantID
  | .direct d => some d.fromID
  | .broadcast b => some b.fromID
  | _ => none

theorem sender_helloReply (h : Hub) (visit : List ParticipantID → List ParticipantID)
    (isCreate : Bool) (id : ParticipantID) (token : Bytes) :
    sender (helloReply h visit isCreate id token) = none := by
  cases isCreate <;> rfl

theorem helloReply_ne_participantLeft (h : Hub)
    (visit : List ParticipantID → List ParticipantID) (isCreate : Bool)
    (id p : ParticipantID) (token : Bytes) :
    helloReply h visit isCreate id token ≠ .participantLeft p := by
  cases isCreate <;> simp [helloReply]

variable {codec : Codec} {before after : Hub} {effects : List Effect} {cmd : Cmd}
  {targets : ParticipantID → Prop} {id : ParticipantID} {h second first third : Hub}
  {s next : Server} {body : Body} {early late : List Effect} {returned emptied : Bool}
  {order : Order}

theorem Spread.mem_iff
    (spread : Spread codec body targets before after effects) (p : ParticipantID) :
    p ∈ after.clients ↔ p ∈ before.clients := by
  cases spread with
  | offered _ offers => exact offers.mem_iff p
  | unencodable _ => exact Iff.rfl

theorem Spread.queued_eq {other : Body} (spread : Spread codec body targets before after effects)
    {q : ParticipantID} (member : .queued q other ∈ effects) : other = body := by
  cases spread with
  | offered _ offers => exact ((offers.queued q other).mp member).1
  | unencodable _ => cases member

/-- A step that neither admits anybody nor forwards traffic, and announces the
departure only of participants it removed. -/
structure Announces (before after : Hub) (effects : List Effect) : Prop where
  nextID : after.nextID = before.nextID
  kept : ∀ p, p ∈ after.clients → p ∈ before.clients
  silent : ∀ q body, .queued q body ∈ effects → sender body = none
  left : ∀ q p, .queued q (.participantLeft p) ∈ effects →
    p ∈ before.clients ∧ p ∉ after.clients

theorem Announces.refl (h : Hub) : Announces h h [] :=
  { nextID := rfl
    kept := fun _ member => member
    silent := fun _ _ member => by cases member
    left := fun _ _ member => by cases member }

theorem Announces.trans (before : Announces first second early)
    (after : Announces second third late) :
    Announces first third (early ++ late) :=
  { nextID := after.nextID.trans before.nextID
    kept := fun p member => before.kept p (after.kept p member)
    silent := by
      intro q body member
      rcases List.mem_append.mp member with earlier | later
      · exact before.silent q body earlier
      · exact after.silent q body later
    left := by
      intro q p member
      rcases List.mem_append.mp member with earlier | later
      · obtain ⟨present, absent⟩ := before.left q p earlier
        exact ⟨present, fun again => absent (after.kept p again)⟩
      · obtain ⟨present, absent⟩ := after.left q p later
        exact ⟨before.kept p present, absent⟩ }

theorem Announces.extend {more : List Effect} (step : Announces before after effects)
    (nothing : ∀ q body, .queued q body ∉ more) :
    Announces before after (effects ++ more) :=
  { step with
    silent := by
      intro q body member
      rcases List.mem_append.mp member with earlier | later
      · exact step.silent q body earlier
      · exact absurd later (nothing q body)
    left := by
      intro q p member
      rcases List.mem_append.mp member with earlier | later
      · exact step.left q p earlier
      · exact absurd later (nothing q _) }

theorem Announces.of_pending {rest : List ParticipantID}
    (step : Announces { h with evict := rest } after effects) :
    Announces h after effects := { step with }

theorem Removal.announcing (removal : Removal codec id before after effects emptied) :
    Announces before after effects := by
  have erased : ∀ p, p ∈ (before.without id).clients → p ∈ before.clients := fun p member =>
    (AList.mem_erase.mp member).2
  cases removal with
  | emptied found alone =>
      exact
        { nextID := rfl
          kept := erased
          silent := fun q body member => by simp at member
          left := fun q p member => by simp at member }
  | announced found others notice =>
      -- The notice goes out from the hub without the leaver, so it names
      -- somebody who was there before and is not there after.
      refine
        { nextID := Hub.nextID_of_header notice.header
          kept := fun p member => erased p ((notice.mem_iff p).mp member)
          silent := ?_
          left := ?_ }
      · intro q body member
        simp only [List.mem_cons, reduceCtorEq, false_or] at member
        rw [notice.queued_eq member]
        rfl
      · intro q p member
        simp only [List.mem_cons, reduceCtorEq, false_or] at member
        obtain rfl := Body.participantLeft.inj (notice.queued_eq member)
        refine ⟨mem_of_lookup found, fun again => ?_⟩
        exact (AList.mem_erase.mp ((notice.mem_iff p).mp again)).1 rfl

theorem Drained.announcing (drained : Drained codec before after effects emptied) :
    Announces before after effects := by
  induction drained with
  | done empty => exact Announces.refl _
  | skipped pending absent later ih => exact ih.of_pending
  | emptied pending removal => exact removal.announcing.of_pending
  | evicted pending removal later ih => exact removal.announcing.of_pending.trans ih

theorem shutdown_queues_nothing (h : Hub) (q : ParticipantID) (body : Body) :
    .queued q body ∉ shutdown h := by
  simp [shutdown]

/-- Nothing that `p` sent is queued to `q` after `q` was told that `p` left. -/
def NoDepartedTraffic (log : List Effect) : Prop :=
  log.Pairwise (fun earlier later => ∀ q p body,
    earlier = .queued q (.participantLeft p) → later = .queued q body → sender body ≠ some p)

theorem noDepartedTraffic_of_silent
    (silent : ∀ q body, .queued q body ∈ effects → sender body = none) :
    NoDepartedTraffic effects := by
  refine List.pairwise_iff_forall_sublist.mpr ?_
  intro earlier later together q p body _notice traffic
  subst later
  have member : Effect.queued q body ∈ effects :=
    together.subset (List.mem_cons_of_mem earlier (List.mem_singleton_self _))
  rw [silent q body member]
  exact Option.some_ne_none p |>.symm

theorem noDepartedTraffic_of_noNotice (stays : ∀ q p, .queued q (.participantLeft p) ∉ effects) :
    NoDepartedTraffic effects := by
  refine List.pairwise_iff_forall_sublist.mpr ?_
  intro earlier later together q p body notice _traffic
  subst earlier
  exact absurd (together.subset List.mem_cons_self) (stays q p)

def Cmd.speaker : Cmd → Option ParticipantID
  | .frame fromID _ _ => some fromID
  | _ => none

def Cmd.admits : Cmd → Bool
  | .join _ _ _ => true
  | _ => false

/-- A command that forwards frames of its speaker only and admits at most the
next id. -/
structure Serves (cmd : Cmd) (before after : Hub) (effects : List Effect) : Prop where
  nextID : after.nextID = before.nextID ∨ (cmd.admits ∧ after.nextID = before.nextID + 1)
  grown : ∀ p, p ∈ after.clients →
    p ∈ before.clients ∨ (p = before.nextID ∧ cmd.admits ∧ after.nextID = before.nextID + 1)
  spoken : ∀ q body p, .queued q body ∈ effects → sender body = some p → cmd.speaker = some p
  left : ∀ q p, .queued q (.participantLeft p) ∈ effects →
    (p ∈ before.clients ∨
      (p = before.nextID ∧ cmd.admits ∧ after.nextID = before.nextID + 1)) ∧
      p ∉ after.clients
  ordered : NoDepartedTraffic effects

theorem Announces.serves (step : Announces before after effects) (cmd : Cmd) :
    Serves cmd before after effects :=
  { nextID := Or.inl step.nextID
    grown := fun p member => Or.inl (step.kept p member)
    spoken := by
      intro q body p member sent
      rw [step.silent q body member] at sent
      cases sent
    left := by
      intro q p member
      obtain ⟨present, absent⟩ := step.left q p member
      exact ⟨Or.inl present, absent⟩
    ordered := noDepartedTraffic_of_silent step.silent }

theorem Serves.andThen (own : Serves cmd first second early)
    (drained : Announces second third late) : Serves cmd first third (early ++ late) := by
  refine
    { nextID := ?_
      grown := ?_
      spoken := ?_
      left := ?_
      ordered := ?_ }
  · rw [drained.nextID]
    exact own.nextID
  · intro p member
    rw [drained.nextID]
    exact own.grown p (drained.kept p member)
  · intro q body p member sent
    rcases List.mem_append.mp member with earlier | later
    · exact own.spoken q body p earlier sent
    · rw [drained.silent q body later] at sent
      cases sent
  · intro q p member
    rw [drained.nextID]
    rcases List.mem_append.mp member with earlier | later
    · obtain ⟨present, absent⟩ := own.left q p earlier
      exact ⟨present, fun again => absent (drained.kept p again)⟩
    · obtain ⟨present, absent⟩ := drained.left q p later
      exact ⟨own.grown p present, absent⟩
  · refine List.pairwise_append.mpr
      ⟨own.ordered, noDepartedTraffic_of_silent drained.silent, ?_⟩
    intro earlier _early later member q p body _notice traffic
    subst later
    rw [drained.silent q body member]
    exact Option.some_ne_none p |>.symm

theorem Spread.serves (spread : Spread codec body targets before after effects)
    (spoken : ∀ p, sender body = some p → cmd.speaker = some p)
    (stays : ∀ p, body ≠ .participantLeft p) : Serves cmd before after effects := by
  have unannounced : ∀ q p, .queued q (.participantLeft p) ∉ effects := fun q p member =>
    stays p (spread.queued_eq member).symm
  exact
    { nextID := Or.inl (Hub.nextID_of_header spread.header)
      grown := fun p member => Or.inl ((spread.mem_iff p).mp member)
      spoken := by
        intro q other p member sent
        rw [spread.queued_eq member] at sent
        exact spoken p sent
      left := fun q p member => absurd member (unannounced q p)
      ordered := noDepartedTraffic_of_noNotice unannounced }

theorem announces_of_update {c : Client} (updated : Client) (found : h.clients.lookup id = some c)
    (silent : ∀ q body, .queued q body ∈ effects → sender body = none)
    (stays : ∀ q p, .queued q (.participantLeft p) ∉ effects) :
    Announces h (h.withClient id updated) effects :=
  { nextID := rfl
    kept := by
      intro p member
      rcases (AList.mem_insert _).mp member with same | earlier
      · rw [same]
        exact mem_of_lookup found
      · exact earlier
    silent := silent
    left := fun q p member => absurd member (stays q p) }

/-- A joiner is admitted under the next id; the reply and the notice of its
arrival forward nothing. -/
theorem Spread.serves_admission {conn : ConnID} {isCreate : Bool}
    {token frame : Bytes} {visit : List ParticipantID → List ParticipantID}
    {reply : JoinReply}
    (notice : Spread codec (.participantJoined h.nextID) (fun q => q ≠ h.nextID)
      (h.issued.withClient h.nextID (newClient h.nextID frame conn token)) after effects) :
    Serves (.join conn isCreate token) h after
      (.queued h.nextID (helloReply h visit isCreate h.nextID token) ::
        .joinReply conn reply :: effects) := by
  have quiet : ∀ q body, Effect.queued q body ∈
      .queued h.nextID (helloReply h visit isCreate h.nextID token) ::
        .joinReply conn reply :: effects →
      sender body = none ∧ ∀ p, body ≠ .participantLeft p := by
    intro q body member
    simp only [List.mem_cons, Effect.queued.injEq, reduceCtorEq, false_or] at member
    rcases member with ⟨_, rfl⟩ | announced
    · exact ⟨sender_helloReply .., fun p => helloReply_ne_participantLeft _ _ _ _ _ _⟩
    · rw [notice.queued_eq announced]
      exact ⟨rfl, fun p => by simp⟩
  have issued : after.nextID = h.nextID + 1 := Hub.nextID_of_header notice.header
  refine
    { nextID := Or.inr ⟨rfl, issued⟩
      grown := ?_
      spoken := ?_
      left := fun q p member => absurd rfl ((quiet q _ member).2 p)
      ordered := noDepartedTraffic_of_silent (fun q body member => (quiet q body member).1) }
  · intro p member
    rcases (AList.mem_insert _).mp ((notice.mem_iff p).mp member) with same | earlier
    · exact Or.inr ⟨same, rfl, issued⟩
    · exact Or.inl earlier
  · intro q body p member sent
    rw [(quiet q body member).1] at sent
    cases sent

theorem Served.serves (served : Served codec h cmd after effects returned) :
    Serves cmd h after effects := by
  cases served with
  | ignored idle =>
      refine ((Announces.refl _).extend (fun q body member => ?_)).serves _
      exact absurd (idle _ member) (by simp [Effect.isIdle])
  | unencoded refused =>
      exact
        { nextID := Or.inr ⟨rfl, rfl⟩
          grown := fun p member => Or.inl member
          spoken := by simp
          left := by simp
          ordered := noDepartedTraffic_of_silent (by simp) }
  | admitted perm room encoded notice => exact notice.serves_admission
  | held found live current graced =>
      exact (announces_of_update _ found (by simp) (by simp)).serves _
  | left found live current final removal => exact removal.announcing.serves _
  | expired found waiting current removal => exact removal.announcing.serves _
  | @resumed id token conn c visit frame perm found authentic encoded =>
      have replied : ∀ q body, Effect.queued q body ∈
          (if c.held then [] else [.kicked c.kick]) ++
            [.queued id (helloReply h visit false id c.token),
              .resumeReply conn { ok := true, errC := 0, errS := "", gen := c.gen + 1 }] →
          body = helloReply h visit false id c.token := by
        intro q body member
        simp only [List.mem_append, List.mem_cons, Effect.queued.injEq, reduceCtorEq,
          List.not_mem_nil, or_false] at member
        rcases member with kicked | ⟨_, same⟩
        · split at kicked <;> simp at kicked
        · exact same
      refine (announces_of_update _ found (fun q body member => ?_) (fun q p member => ?_)).serves _
      · rw [replied q body member]
        exact sender_helloReply ..
      · exact helloReply_ne_participantLeft _ _ _ _ _ _ (replied q _ member).symm
  | claimed found =>
      exact
        { nextID := Or.inl rfl
          grown := fun p member => Or.inl member
          spoken := by simp
          left := by simp
          ordered := noDepartedTraffic_of_silent (by simp) }
  | complained answer => exact answer.serves (by simp [sender]) (by simp)
  | directed decoded sent | broadcast decoded sent =>
      exact sent.serves (by simp [sender, Cmd.speaker]) (by simp)
  | closing notice => exact notice.serves (by simp [sender]) (by simp)

theorem handle_serves {done : Hub × List Effect × Bool}
    (handled : handle codec order h cmd = some done) : Serves cmd h done.1 done.2.1 := by
  obtain ⟨after, effects, returned⟩ := done
  rcases handle_served handled with ⟨early, served, rfl, _⟩ | ⟨middle, early, late, served, drained, rfl⟩
  · exact served.serves.andThen ((Announces.refl _).extend (shutdown_queues_nothing _))
  · have closing : ∀ q body, .queued q body ∉ (if returned then shutdown after else []) := by
      intro q body member
      split at member
      · exact shutdown_queues_nothing _ q body member
      · cases member
    rw [List.append_assoc]
    exact served.serves.andThen (drained.announcing.extend closing)

/-! ### Runs -/

def Server.served (s : Server) (cmd : Cmd) (after : Hub) (effects : List Effect)
    (returned : Bool) : Server :=
  { hub := after
    log := s.log ++ effects
    stopped := returned
    handlers := detached cmd s.handlers ++ attached cmd effects
    timers := armed cmd s.hub after ++ fired cmd s.timers
    conns := s.opened cmd }

theorem Server.step_command (going : s.stopped = false) (sendable : s.canSend cmd = true)
    (handled : handle codec order s.hub cmd = some (after, effects, returned)) :
    Server.step codec s (.command cmd order) = some (s.served cmd after effects returned) := by
  have enabled : ¬(s.stopped = true ∨ ¬s.canSend cmd = true) := by
    simp [going, sendable]
  simp only [Server.step, if_neg enabled, handled, Option.map_some]
  rfl

theorem Server.step_cases {action : Action} (stepped : Server.step codec s action = some next) :
    (∃ cmd order after effects returned, action = .command cmd order ∧ s.stopped = false ∧
      s.canSend cmd = true ∧ handle codec order s.hub cmd = some (after, effects, returned) ∧
      next = s.served cmd after effects returned) ∨
    (∃ id c out, (action = .written id ∨ ∃ body, action = .answered id body) ∧
      s.hub.clients.lookup id = some c ∧
      (c.out.length ≤ sendBuffer → out.length ≤ sendBuffer) ∧
      next = { s with hub := s.hub.withClient id { c with out := out } }) := by
  cases action with
  | command cmd order =>
      simp only [Server.step] at stepped
      split at stepped
      · cases stepped
      · rename_i sendable
        simp only [not_or, Bool.not_eq_true, Bool.not_eq_false] at sendable
        obtain ⟨⟨after, effects, returned⟩, handled, rfl⟩ := Option.map_eq_some_iff.mp stepped
        exact Or.inl ⟨cmd, order, after, effects, returned, rfl, sendable.1, sendable.2, handled, rfl⟩
  | written id =>
      obtain ⟨hub, wrote, rfl⟩ := Option.map_eq_some_iff.mp stepped
      obtain ⟨c, found, _, rfl⟩ := Hub.written_eq_some wrote
      refine Or.inr ⟨id, c, c.out.drop 1, Or.inl rfl, found, fun fits => ?_, rfl⟩
      rw [List.length_drop]
      omega
  | answered id body =>
      obtain ⟨hub, answers, rfl⟩ := Option.map_eq_some_iff.mp stepped
      obtain ⟨c, frame, found, _, _, room, rfl⟩ := Hub.answered_eq_some answers
      refine Or.inr ⟨id, c, c.out ++ [frame], Or.inr ⟨body, rfl⟩, found, fun fits => ?_, rfl⟩
      simp only [List.length_append, List.length_singleton]
      omega

/-- The next id can be issued without wrapping the 32-bit counter, and a routed
frame comes from a participant that still has its slot. -/
def Server.Attended (s : Server) : Action → Prop
  | .command (.join _ _ _) _ => s.hub.nextID.toNat + 1 < 2 ^ 32
  | .command (.frame fromID _ _) _ => fromID ∈ s.hub.clients
  | _ => True

instance (s : Server) (action : Action) : Decidable (s.Attended action) := by
  dsimp only [Server.Attended]
  split <;> infer_instance

/-- Whoever was announced as departed has no slot and an id that will not be
issued again. -/
structure Departed (s : Server) : Prop where
  below : ∀ p, p ∈ s.hub.clients → p.toNat < s.hub.nextID.toNat
  gone : ∀ q p, .queued q (.participantLeft p) ∈ s.log →
    p ∉ s.hub.clients ∧ p.toNat < s.hub.nextID.toNat
  quiet : NoDepartedTraffic s.log

theorem departed_start (maxParticipants grace : Nat) :
    Departed (Server.start maxParticipants grace) :=
  { below := fun p member => absurd member (AList.notMem_empty p)
    gone := fun q p member => by cases member
    quiet := List.Pairwise.nil }

theorem departed_of_serves (before : Departed s) (served : Serves cmd s.hub next.hub effects)
    (logged : next.log = s.log ++ effects) (present : ∀ p, cmd.speaker = some p → p ∈ s.hub.clients)
    (room : cmd.admits → s.hub.nextID.toNat + 1 < 2 ^ 32) :
    Departed next := by
  have advance : cmd.admits → next.hub.nextID = s.hub.nextID + 1 →
      next.hub.nextID.toNat = s.hub.nextID.toNat + 1 := by
    intro admits issued
    rw [issued, UInt32.toNat_add]
    exact Nat.mod_eq_of_lt (room admits)
  have monotone : s.hub.nextID.toNat ≤ next.hub.nextID.toNat := by
    rcases served.nextID with same | ⟨admits, issued⟩
    · rw [same]
    · have := advance admits issued
      omega
  have admitted : ∀ p, (p ∈ s.hub.clients ∨
      (p = s.hub.nextID ∧ cmd.admits ∧ next.hub.nextID = s.hub.nextID + 1)) →
        p.toNat < next.hub.nextID.toNat := by
    rintro p (earlier | ⟨rfl, admits, issued⟩)
    · exact Nat.lt_of_lt_of_le (before.below p earlier) monotone
    · have := advance admits issued
      omega
  refine
    { below := fun p member => admitted p (served.grown p member)
      gone := ?_
      quiet := ?_ }
  · intro q p member
    rw [logged] at member
    rcases List.mem_append.mp member with earlier | later
    · obtain ⟨absent, old⟩ := before.gone q p earlier
      refine ⟨fun again => ?_, Nat.lt_of_lt_of_le old monotone⟩
      rcases served.grown p again with known | ⟨fresh, _⟩
      · exact absent known
      · rw [fresh] at old
        exact Nat.lt_irrefl _ old
    · obtain ⟨known, absent⟩ := served.left q p later
      exact ⟨absent, admitted p known⟩
  · rw [logged]
    refine List.pairwise_append.mpr ⟨before.quiet, served.ordered, ?_⟩
    intro earlier early later late q p body notice traffic sent
    subst earlier later
    have speaks := served.spoken q body p late sent
    exact (before.gone q p early).1 (present p speaks)

theorem departed_of_update {c : Client} (before : Departed s)
    (found : s.hub.clients.lookup id = some c) (updated : Client) :
    Departed { s with hub := s.hub.withClient id updated } := by
  have step : Announces s.hub (s.hub.withClient id updated) [] :=
    announces_of_update updated found (by simp) (by simp)
  exact departed_of_serves before (step.serves .stats) (List.append_nil s.log).symm
    (by simp [Cmd.speaker]) (by simp [Cmd.admits])

theorem departed_step (codec : Codec) (s : Server) (action : Action) (next : Server)
    (before : Departed s) (attended : s.Attended action)
    (stepped : Server.step codec s action = some next) : Departed next := by
  rcases Server.step_cases stepped with
    ⟨cmd, order, after, effects, returned, rfl, _, _, handled, rfl⟩ | ⟨id, c, out, _, found, _, rfl⟩
  · refine departed_of_serves before (handle_serves handled) rfl ?_ ?_
    · intro p speaks
      cases cmd with
      | frame fromID typ raw =>
          cases speaks
          exact attended
      | _ => cases speaks
    · intro admits
      cases cmd with
      | join conn isCreate token => exact attended
      | _ => cases admits
  · exact departed_of_update before found _

/-- In every run in which each routed frame comes from a current participant
and the id counter does not wrap, the hub queues to nobody a frame of a
participant whose departure it has queued to them before. -/
theorem departed_silent_of_attended (codec : Codec) (maxParticipants grace : Nat)
    (actions : List Action) (s : Server)
    (attended : Along (Server.step codec) Server.Attended
      (Server.start maxParticipants grace) actions)
    (reached : run (Server.step codec) (Server.start maxParticipants grace) actions = some s) :
    NoDepartedTraffic s.log :=
  (run_invariant (departed_step codec) (departed_start maxParticipants grace)
    attended reached).quiet

/-- What a client sends to have a payload broadcast. -/
def outgoing (payload : Bytes) : Bytes :=
  Body.cbor (.broadcast { fromID := 0, payload := payload })

/-- The creator, then participant 2, whose connection 1 is superseded by a
resume on connection 2. -/
def supersededPrefix : List Action :=
  [.command (.join 0 true [1]) .stored,
    .command (.join 1 false [2]) .stored,
    .command (.resume 2 [2] 2) .stored]

def attendedRun : List Action :=
  supersededPrefix ++
    [.command (.frame 2 .broadcast (outgoing [7])) .stored,
      .command (.leave 2 1 true) .stored,
      .command (.frame 2 .broadcast (outgoing [8])) .stored,
      .command (.leave 2 2 false) .stored]

theorem attendedRun_departed_silent :
    ∃ s, run (Server.step cborCodec) (Server.start 16 30) attendedRun = some s ∧
      Effect.queued 1 (.participantLeft 2) ∈ s.log ∧ NoDepartedTraffic s.log := by
  have finished : (run (Server.step cborCodec) (Server.start 16 30) attendedRun).any
      (fun s => decide (Effect.queued 1 (.participantLeft 2) ∈ s.log)) = true := by
    decide +kernel
  obtain ⟨s, reached, told⟩ := (Option.any_eq_true _ _).mp finished
  have attended : Along (Server.step cborCodec) Server.Attended (Server.start 16 30)
      attendedRun := by
    decide +kernel
  exact ⟨s, reached, of_decide_eq_true told,
    departed_silent_of_attended cborCodec 16 30 attendedRun s attended reached⟩

/-- The new connection of participant 2 leaves cleanly; the superseded one
still has a frame in the inbox. -/
def supersededRun : List Action :=
  supersededPrefix ++
    [.command (.leave 2 2 false) .stored,
      .command (.frame 2 .broadcast (outgoing [7])) .stored]

theorem superseded_handler_speaks :
    ¬∀ (codec : Codec) (maxParticipants grace : Nat) (actions : List Action) (s : Server),
      run (Server.step codec) (Server.start maxParticipants grace) actions = some s →
        NoDepartedTraffic s.log := by
  intro claimed
  have finished : (run (Server.step cborCodec) (Server.start 16 30) supersededRun).any
      (fun s => decide ([Effect.queued 1 (.participantLeft 2),
        Effect.queued 1 (.broadcast { fromID := 2, payload := [7] })].Sublist s.log)) = true := by
    decide +kernel
  obtain ⟨s, reached, spoken⟩ := (Option.any_eq_true _ _).mp finished
  have quiet := claimed cborCodec 16 30 supersededRun s reached
  exact List.pairwise_iff_forall_sublist.mp quiet (of_decide_eq_true spoken) 1 2 _ rfl rfl rfl

end Parley.Relay
