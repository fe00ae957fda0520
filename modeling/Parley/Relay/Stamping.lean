/-
Who a forwarded frame says it is from.

A frame that the hub forwards carries the id of the connection whose command
caused it, whatever the client wrote there.  A Direct goes to its addressee only
and a Broadcast not to its sender.  The invariant is about the bytes in the out
channels, so it covers what a held slot buffers and a resume replays.
-/

import Parley.Relay.Representation

namespace Parley.Relay

open Wire Library

/-- `raw`, sent to `q` as a Direct, is what the sender of `cmd` asked for. -/
def DirectStamp (codec : Codec) (cmd : Cmd) (q : ParticipantID) (raw : Bytes) : Prop :=
  ∃ sender sent message, cmd = .frame sender .direct sent ∧
    codec.bodyDirect sent = some message ∧
    codec.bodyDirect raw = some { message with fromID := sender } ∧ q = message.toID

/-- `raw`, sent to `q` as a Broadcast, is what the sender of `cmd` asked for. -/
def BroadcastStamp (codec : Codec) (cmd : Cmd) (q : ParticipantID) (raw : Bytes) : Prop :=
  ∃ sender sent message, cmd = .frame sender .broadcast sent ∧
    codec.bodyBroadcast sent = some message ∧
    codec.bodyBroadcast raw = some { message with fromID := sender } ∧ q ≠ sender

/-- If the frame is forwarded traffic, it is stamped by a command for which
`caused` holds. -/
structure Stamped (codec : Codec) (caused : Cmd → Prop) (q : ParticipantID) (frame : Bytes) :
    Prop where
  direct : ∀ raw, decode frame = some (MsgType.direct.code, raw) →
    ∃ cmd, caused cmd ∧ DirectStamp codec cmd q raw
  broadcast : ∀ raw, decode frame = some (MsgType.broadcast.code, raw) →
    ∃ cmd, caused cmd ∧ BroadcastStamp codec cmd q raw

/-- The effect forwards a client's frame to `q`. -/
def Effect.forwards (q : ParticipantID) : Effect → Bool
  | .queued toID (.direct _) => toID = q
  | .queued toID (.broadcast _) => toID = q
  | _ => false

variable {codec : Codec} {effects : List Effect} {caused : Cmd → Prop} {after before h : Hub}
  {emptied returned : Bool} {frame : Bytes} {id : ParticipantID} {body : Body} {cmd : Cmd}
  {targets : ParticipantID → Prop} {sender q : ParticipantID} {sent : Bytes}

theorem Stamped.mono {wider : Cmd → Prop} (stamped : Stamped codec caused q frame)
    (within : ∀ cmd, caused cmd → wider cmd) :
    Stamped codec wider q frame := by
  refine
    { direct := ?_
      broadcast := ?_ }
  · intro raw decoded
    obtain ⟨cmd, cause, stamp⟩ := stamped.direct raw decoded
    exact ⟨cmd, within cmd cause, stamp⟩
  · intro raw decoded
    obtain ⟨cmd, cause, stamp⟩ := stamped.broadcast raw decoded
    exact ⟨cmd, within cmd cause, stamp⟩

def isOwn : Body → Bool
  | .direct _ => false
  | .broadcast _ => false
  | _ => true

theorem Stamped.of_own (encoded : encode codec body = some frame) (own : isOwn body = true)
    (caused : Cmd → Prop) (q : ParticipantID) : Stamped codec caused q frame := by
  obtain ⟨marshalled, _, typed⟩ := decode_encode encoded
  refine
    { direct := ?_
      broadcast := ?_ }
  · intro raw decoded
    rw [typed] at decoded
    cases body with
    | direct message => cases own
    | _ => simp [Body.msgType, MsgType.code] at decoded
  · intro raw decoded
    rw [typed] at decoded
    cases body with
    | broadcast message => cases own
    | _ => simp [Body.msgType, MsgType.code] at decoded

theorem Stamped.of_direct (inverts : codec.InvertsForwarded) {message : Direct}
    (read : codec.bodyDirect sent = some message)
    (encoded : encode codec (.direct { message with fromID := sender }) = some frame)
    (cause : caused (.frame sender .direct sent)) :
    Stamped codec caused message.toID frame := by
  obtain ⟨marshalled, marshals, typed⟩ := decode_encode encoded
  refine
    { direct := ?_
      broadcast := ?_ }
  · intro raw decoded
    rw [typed] at decoded
    cases decoded
    exact ⟨_, cause, sender, sent, message, rfl, read, inverts.direct _ _ marshals, rfl⟩
  · intro raw decoded
    rw [typed] at decoded
    simp [Body.msgType, MsgType.code] at decoded

theorem Stamped.of_broadcast (inverts : codec.InvertsForwarded) {message : Broadcast}
    (read : codec.bodyBroadcast sent = some message)
    (encoded : encode codec (.broadcast { message with fromID := sender }) = some frame)
    (other : q ≠ sender) (cause : caused (.frame sender .broadcast sent)) :
    Stamped codec caused q frame := by
  obtain ⟨marshalled, marshals, typed⟩ := decode_encode encoded
  refine
    { direct := ?_
      broadcast := ?_ }
  · intro raw decoded
    rw [typed] at decoded
    simp [Body.msgType, MsgType.code] at decoded
  · intro raw decoded
    rw [typed] at decoded
    cases decoded
    exact ⟨_, cause, sender, sent, message, rfl, read, inverts.broadcast _ _ marshals, other⟩

def Stocked (codec : Codec) (caused : Cmd → Prop) (h : Hub) : Prop :=
  ∀ q c frame, h.clients.lookup q = some c → frame ∈ c.out → Stamped codec caused q frame

/-- What a part of a command's work does: channels stay stamped, and so is every
frame it places. -/
structure Stamps (codec : Codec) (caused : Cmd → Prop) (before after : Hub)
    (effects : List Effect) : Prop where
  stocked : Stocked codec caused before → Stocked codec caused after
  placed : ∀ q body, .queued q body ∈ effects →
    ∃ frame, encode codec body = some frame ∧ Stamped codec caused q frame

theorem Stamps.quiet (stocked : Stocked codec caused before → Stocked codec caused after)
    (silent : ∀ q body, .queued q body ∉ effects) : Stamps codec caused before after effects :=
  { stocked := stocked
    placed := fun q body member => absurd member (silent q body) }

theorem Stamps.trans {first second third : Hub} {early late : List Effect}
    (before : Stamps codec caused first second early)
    (after : Stamps codec caused second third late) :
    Stamps codec caused first third (early ++ late) := by
  refine
    { stocked := fun start => after.stocked (before.stocked start)
      placed := ?_ }
  intro q body member
  rcases List.mem_append.mp member with earlier | later
  · exact before.placed q body earlier
  · exact after.placed q body later

theorem Spread.stamps
    (spread : Spread codec body targets before after effects) (caused : Cmd → Prop)
    (stamped : ∀ frame, encode codec body = some frame →
      ∀ q, targets q → Stamped codec caused q frame) :
    Stamps codec caused before after effects := by
  cases spread with
  | unencodable _ => exact .quiet id (fun q body member => by cases member)
  | @offered frame _ _ encoded offers =>
      refine
        { stocked := ?_
          placed := ?_ }
      · intro stocked q c other found member
        obtain ⟨old, there, rfl | ⟨target, rfl⟩⟩ := offers.source found
        · exact stocked q c other there member
        · unfold offer at member
          split at member
          · exact stocked q old other there member
          · split at member
            · rcases List.mem_append.mp member with earlier | new
              · exact stocked q old other there earlier
              · rw [List.mem_singleton.mp new]
                exact stamped frame encoded q target
            · exact stocked q old other there member
      · intro q sent member
        obtain ⟨rfl, target, _⟩ := (offers.queued q sent).mp member
        exact ⟨frame, encoded, stamped frame encoded q target⟩

theorem Stocked.withClient {c : Client} (stocked : Stocked codec caused h)
    (own : ∀ frame ∈ c.out, Stamped codec caused id frame) :
    Stocked codec caused (h.withClient id c) := by
  intro q d frame found member
  rcases lookup_withClient found with ⟨rfl, rfl⟩ | ⟨_, known⟩
  · exact own frame member
  · exact stocked q d frame known member

theorem Removal.stamps (removal : Removal codec id before after effects emptied)
    (caused : Cmd → Prop) :
    Stamps codec caused before after effects := by
  have erased : Stocked codec caused before → Stocked codec caused (before.without id) :=
    fun stocked q c frame found member => stocked q c frame (lookup_without found).2 member
  cases removal with
  | emptied found alone =>
      exact .quiet erased (fun q body member => by simp at member)
  | @announced c _ _ found others notice =>
      have told := notice.stamps caused
        (fun frame encoded q _ => .of_own encoded rfl caused q)
      have kicked : Stamps codec caused before (before.without id) [.kicked c.kick] :=
        .quiet erased (fun q body member => by simp at member)
      exact kicked.trans told

theorem Drained.stamps
    (drained : Drained codec before after effects emptied)
    (caused : Cmd → Prop) : Stamps codec caused before after effects := by
  induction drained with
  | done empty => exact .quiet id (fun q body member => by cases member)
  | skipped pending absent later ih =>
      exact
        { stocked := fun stocked => ih.stocked stocked
          placed := ih.placed }
  | emptied pending removal =>
      have removed := removal.stamps caused
      exact
        { stocked := fun stocked => removed.stocked stocked
          placed := removed.placed }
  | evicted pending removal later ih =>
      have removed := removal.stamps caused
      have both := removed.trans ih
      exact
        { stocked := fun stocked => both.stocked stocked
          placed := both.placed }

theorem isOwn_helloReply (h : Hub) (visit : List ParticipantID → List ParticipantID)
    (isCreate : Bool) (id : ParticipantID) (token : Bytes) :
    isOwn (helloReply h visit isCreate id token) = true := by
  unfold helloReply
  split
  · rfl
  · rfl

theorem Served.stamps (inverts : codec.InvertsForwarded)
    (served : Served codec h cmd after effects returned) (cause : caused cmd) :
    Stamps codec caused h after effects := by
  cases served with
  | ignored idle =>
      exact .quiet id (fun q body member => by cases idle _ member)
  | unencoded refused => exact .quiet id (fun q body member => by simp at member)
  | @admitted conn isCreate token visit frame after effects perm room encoded notice =>
      have own := isOwn_helloReply h visit isCreate h.nextID token
      have registered : Stamps codec caused h
          (h.issued.withClient h.nextID (newClient h.nextID frame conn token))
          [.queued h.nextID (helloReply h visit isCreate h.nextID token),
            .joinReply conn { ok := true, errC := 0, errS := "", id := h.nextID, gen := 1 }] := by
        refine
          { stocked := ?_
            placed := ?_ }
        · intro stocked
          have issued : Stocked codec caused h.issued := stocked
          refine issued.withClient (fun other member => ?_)
          rw [List.mem_singleton.mp member]
          exact .of_own encoded own caused h.nextID
        · intro q body member
          simp only [List.mem_cons, Effect.queued.injEq, reduceCtorEq, List.not_mem_nil, or_false]
            at member
          obtain ⟨rfl, rfl⟩ := member
          exact ⟨frame, encoded, .of_own encoded own caused _⟩
      exact registered.trans (notice.stamps caused (fun frame encoded q _ => .of_own encoded rfl caused q))
  | held found live current graced =>
      refine .quiet (fun stocked => ?_) (fun q body member => by cases member)
      exact stocked.withClient (fun frame member => by cases member)
  | left found live current final removal => exact removal.stamps caused
  | expired found waiting current removal => exact removal.stamps caused
  | @resumed id token conn c visit frame perm found authentic encoded =>
      have own := isOwn_helloReply h visit false id c.token
      refine
        { stocked := ?_
          placed := ?_ }
      · intro stocked
        refine stocked.withClient (fun other member => ?_)
        -- The hello leads; what follows was in the held slot's channel before.
        rcases List.mem_cons.mp (List.mem_of_mem_take member) with rfl | buffered
        · exact .of_own encoded own caused id
        · split at buffered
          · exact stocked id c other found buffered
          · cases buffered
      · intro q body member
        have only : Effect.queued q body = .queued id (helloReply h visit false id c.token) := by
          cases waiting : c.held with
          | true => simpa [waiting] using member
          | false => simpa [waiting] using member
        cases only
        exact ⟨frame, encoded, .of_own encoded own caused id⟩
  | claimed found => exact .quiet id (fun q body member => by cases member)
  | complained answer =>
      exact answer.stamps caused (fun frame encoded q _ => .of_own encoded rfl caused q)
  | directed decoded sent =>
      refine sent.stamps caused (fun frame encoded q target => ?_)
      rw [target]
      exact .of_direct inverts decoded encoded cause
  | broadcast decoded sent =>
      exact sent.stamps caused (fun frame encoded q other => .of_broadcast inverts decoded encoded other cause)
  | closing notice =>
      exact notice.stamps caused (fun frame encoded q _ => .of_own encoded rfl caused q)

theorem Spread.forwards_le (spread : Spread codec body targets before after effects)
    (q : ParticipantID) :
    effects.countP (Effect.forwards q) ≤ if isOwn body then 0 else 1 := by
  cases spread with
  | unencodable _ => exact Nat.zero_le _
  | offered _ offers =>
      split
      · rename_i own
        rw [List.countP_eq_zero.mpr]
        intro effect member forwards
        rcases offers.silent effect member with ⟨r, rfl⟩ | ⟨conn, rfl⟩
        · cases body with
          | direct message => cases own
          | broadcast message => cases own
          | _ => cases forwards
        · cases forwards
      · refine Nat.le_trans (List.countP_mono_left (fun effect member forwards => ?_))
          (offers.once q)
        rcases offers.silent effect member with ⟨r, rfl⟩ | ⟨conn, rfl⟩
        · cases body with
          | direct message | broadcast message =>
              have same : r = q := of_decide_eq_true forwards
              rw [same]
              exact decide_eq_true rfl
          | _ => cases forwards
        · cases forwards

theorem Removal.forwards_none (removal : Removal codec id before after effects emptied)
    (q : ParticipantID) : effects.countP (Effect.forwards q) = 0 :=
  List.countP_eq_zero.mpr (removal.effects_all (fun _ => Bool.false_ne_true)
    (fun _ => Bool.false_ne_true))

theorem Drained.forwards_none (drained : Drained codec before after effects emptied)
    (q : ParticipantID) : effects.countP (Effect.forwards q) = 0 :=
  List.countP_eq_zero.mpr (drained.effects_all (fun _ _ => Bool.false_ne_true)
    (fun _ => Bool.false_ne_true))

theorem shutdown_forwards_none (h : Hub) (q : ParticipantID) :
    (shutdown h).countP (Effect.forwards q) = 0 := by
  refine List.countP_eq_zero.mpr (fun effect member forwards => ?_)
  obtain ⟨entry, _, rfl⟩ := List.mem_map.mp member
  cases forwards

theorem Served.forwards_le
    (served : Served codec h cmd after effects returned) (q : ParticipantID) :
    effects.countP (Effect.forwards q) ≤ 1 := by
  have few : ∀ {body : Body} {targets : ParticipantID → Prop} {before : Hub}
      {effects : List Effect}, Spread codec body targets before after effects →
      effects.countP (Effect.forwards q) ≤ 1 := by
    intro body targets before effects spread
    refine Nat.le_trans (spread.forwards_le q) ?_
    split
    · exact Nat.zero_le 1
    · exact Nat.le_refl 1
  cases served with
  | ignored idle =>
      rw [List.countP_eq_zero.mpr]
      · exact Nat.zero_le 1
      · intro effect member forwards
        have silent := idle effect member
        cases effect with
        | queued toID body => cases silent
        | _ => cases forwards
  | unencoded refused => exact Nat.zero_le 1
  | @admitted conn isCreate token visit frame after effects perm room encoded notice =>
      rw [List.countP_cons_of_neg, List.countP_cons_of_neg Bool.false_ne_true]
      · exact few notice
      · unfold helloReply
        split
        · exact Bool.false_ne_true
        · exact Bool.false_ne_true
  | held found live current graced => exact Nat.zero_le 1
  | left found live current final removal | expired found waiting current removal =>
      rw [removal.forwards_none q]
      exact Nat.zero_le 1
  | @resumed id token conn c visit frame perm found authentic encoded =>
      have kicks : (if c.held = true then [] else [Effect.kicked c.kick]).countP
          (Effect.forwards q) = 0 := by
        split
        · rfl
        · rfl
      rw [List.countP_append, kicks]
      exact Nat.zero_le 1
  | claimed found => exact Nat.zero_le 1
  | complained answer => exact few answer
  | directed decoded sent => exact few sent
  | broadcast decoded sent => exact few sent
  | closing notice => exact few notice

theorem handle_stamps (inverts : codec.InvertsForwarded) {order : Order}
    (handled : handle codec order h cmd = some (after, effects, returned)) (cause : caused cmd) :
    Stamps codec caused h after effects ∧ ∀ q, effects.countP (Effect.forwards q) ≤ 1 := by
  have kicks : ∀ hub : Hub, Stamps codec caused hub hub (shutdown hub) := by
    intro hub
    refine .quiet id (fun q body member => ?_)
    obtain ⟨entry, _, same⟩ := List.mem_map.mp member
    cases same
  rcases handle_served handled with
    ⟨early, served, rfl, _⟩ | ⟨middle, early, late, served, drained, rfl⟩
  · refine ⟨(served.stamps inverts cause).trans (kicks after), fun q => ?_⟩
    rw [List.countP_append, shutdown_forwards_none after q]
    exact served.forwards_le q
  · have work := (served.stamps inverts cause).trans (drained.stamps caused)
    cases returned with
    | true =>
        refine ⟨work.trans (kicks after), fun q => ?_⟩
        rw [if_pos rfl, List.countP_append, List.countP_append, shutdown_forwards_none after q,
          drained.forwards_none q]
        exact served.forwards_le q
    | false =>
        have quiet : Stamps codec caused after after [] :=
          .quiet id (fun q body member => by cases member)
        refine ⟨work.trans quiet, fun q => ?_⟩
        rw [if_neg Bool.false_ne_true, List.append_nil, List.countP_append, drained.forwards_none q]
        exact served.forwards_le q

/-! ### Whole runs -/

def Taken (actions : List Action) (cmd : Cmd) : Prop :=
  ∃ order, .command cmd order ∈ actions

theorem Loop.stocked_step (codec : Codec) (inverts : codec.InvertsForwarded)
    (past : List Action) (s : Loop) (action : Action) (next : Loop)
    (stocked : Stocked codec (Taken past) s.hub)
    (stepped : Loop.step codec s action = some next) :
    Stocked codec (Taken (past ++ [action])) next.hub := by
  have earlier : Stocked codec (Taken (past ++ [action])) s.hub := by
    intro q c frame found member
    refine (stocked q c frame found member).mono (fun cmd => ?_)
    rintro ⟨order, before⟩
    exact ⟨order, List.mem_append_left _ before⟩
  rcases Loop.step_cases stepped with
    ⟨cmd, order, middle, early, late, rfl, served, drained, _, _⟩ |
      ⟨id, c, found, _, _, rfl⟩ | ⟨id, c, body, frame, found, _, _, answers, encoded, _, rfl⟩
  · have cause : Taken (past ++ [.command cmd order]) cmd :=
      ⟨order, List.mem_append_right _ List.mem_cons_self⟩
    exact (drained.stamps _).stocked ((served.stamps inverts cause).stocked earlier)
  · exact earlier.withClient (fun other member =>
      earlier id c other found (List.mem_of_mem_drop member))
  · refine earlier.withClient (fun other member => ?_)
    rcases List.mem_append.mp member with old | new
    · exact earlier id c other found old
    · rw [List.mem_singleton.mp new]
      refine .of_own encoded ?_ _ id
      cases body with
      | direct message => cases answers
      | broadcast message => cases answers
      | _ => rfl

/-- Sender stamping and confinement: in every run, whatever command comes next,
each frame it places is stamped by that command and it forwards at most one copy
to each recipient; and each forwarded frame still in a channel is stamped by a
command of the run. -/
theorem forwarded_frames_stamped (codec : Codec) (inverts : codec.InvertsForwarded)
    (maxParticipants grace : Nat) (actions : List Action) (s : Loop)
    (reached : run (Loop.step codec) (Loop.start maxParticipants grace) actions = some s) :
    (∀ cmd order after effects returned,
      handle codec order s.hub cmd = some (after, effects, returned) →
      (∀ q body, .queued q body ∈ effects →
        ∃ frame, encode codec body = some frame ∧ Stamped codec (· = cmd) q frame) ∧
      ∀ q, effects.countP (Effect.forwards q) ≤ 1) ∧
    ∀ q c frame, s.hub.clients.lookup q = some c → frame ∈ c.out →
      Stamped codec (Taken actions) q frame := by
  refine ⟨?_, ?_⟩
  · intro cmd order after effects returned handled
    have both : Stamps codec (· = cmd) s.hub after effects ∧
        ∀ q, effects.countP (Effect.forwards q) ≤ 1 := handle_stamps inverts handled rfl
    exact ⟨both.1.placed, both.2⟩
  · have start : Stocked codec (Taken []) (Loop.start maxParticipants grace).hub := by
      intro q c frame found
      exact absurd (mem_of_lookup found) (AList.notMem_empty q)
    exact run_history (Loop.stocked_step codec inverts) start reached

/-- Participant 1 sends a Direct in the name of 9 while 2 is away; 2 resumes. -/
def spoofedWhileHeld : List Action :=
  [.command (.join 0 true [1]) .stored,
    .command (.join 1 false [2]) .stored,
    .command (.leave 2 1 true) .stored,
    .command (.frame 1 .direct (Body.cbor (.direct { toID := 2, fromID := 9, payload := [7] })))
      .stored,
    .command (.resume 2 [2] 2) .stored]

theorem spoofedWhileHeld_stamped :
    ∃ s c, run (Loop.step cborCodec) (Loop.start 16 30) spoofedWhileHeld = some s ∧
      s.hub.clients.lookup 2 = some c ∧
      version :: MsgType.direct.code :: (Body.cbor (.direct { toID := 2, fromID := 1, payload := [7] })) ∈ c.out ∧
      ∃ cmd, Taken spoofedWhileHeld cmd ∧
        DirectStamp cborCodec cmd 2 (Body.cbor (.direct { toID := 2, fromID := 1, payload := [7] })) := by
  have finished : (run (Loop.step cborCodec) (Loop.start 16 30) spoofedWhileHeld).any
      (fun s => (s.hub.clients.lookup 2).any (fun c =>
        decide (version :: MsgType.direct.code :: (Body.cbor (.direct { toID := 2, fromID := 1, payload := [7] })) ∈ c.out))) =
        true := by
    decide +kernel
  obtain ⟨s, reached, there⟩ := (Option.any_eq_true _ _).mp finished
  obtain ⟨c, found, queued⟩ := (Option.any_eq_true _ _).mp there
  have member := of_decide_eq_true queued
  have stamped := (forwarded_frames_stamped cborCodec cborCodec_invertsForwarded 16 30
    spoofedWhileHeld s reached).2 2 c _ found member
  exact ⟨s, c, reached, found, member, stamped.direct _ (by decide)⟩

end Parley.Relay
