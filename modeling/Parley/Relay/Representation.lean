/-
The representation invariant of the hub.

Between two commands the slots fit the limit, carry the id they are stored
under, are unmarked and have a timer exactly while they are held.  While a
command is handled some slots may be marked; each of these waits in the list of
evictions, which is empty again when the command is done.  The commands are
arbitrary here: their ids, generations, tokens and bodies need not come from a
connection the hub has seen.
-/

import Parley.Library.Run
import Parley.Relay.Departure
import Parley.Relay.SlotLife

namespace Parley.Relay

open Wire Library

/-- The goroutine of `run` between two commands: the hub, what it did so far and
the number of joins it took from its inbox. -/
structure Loop where
  hub : Hub
  log : List Effect
  joins : Nat

def Loop.start (maxParticipants grace : Nat) : Loop :=
  { hub := newHub maxParticipants grace
    log := []
    joins := 0 }

def isAnswer : Body → Bool
  | .pong _ => true
  | .error code msg => code = errCodeBadFrame ∧ msg = "unexpected message type"
  | _ => false

/-- A command that makes `run` return has no state after it. -/
def Loop.step (codec : Codec) (s : Loop) : Action → Option Loop
  | .command cmd order =>
      match handle codec order s.hub cmd with
      | some (hub, effects, false) =>
          some
            { hub := hub
              log := s.log ++ effects
              joins := s.joins + cmd.joinCount }
      | _ => none
  | .written id => (s.hub.written id).map (fun hub => { s with hub := hub })
  | .answered id body =>
      if isAnswer body then (s.hub.answered codec id body).map (fun hub => { s with hub := hub })
      else none

variable {id : ParticipantID} {s next : Loop} {cmd : Cmd}

theorem Loop.step_command {codec : Codec} {order : Order} :
    Loop.step codec s (.command cmd order) = some next ↔
      ∃ hub effects, handle codec order s.hub cmd = some (hub, effects, false) ∧
        next = { hub := hub
                 log := s.log ++ effects
                 joins := s.joins + cmd.joinCount } := by
  constructor
  · intro stepped
    simp only [Loop.step] at stepped
    split at stepped
    · rename_i hub effects handled
      cases stepped
      exact ⟨hub, effects, handled, rfl⟩
    · cases stepped
  · rintro ⟨hub, effects, handled, rfl⟩
    simp only [Loop.step, handled]

variable {action : Action} {returned : Bool}

theorem Loop.step_cases {codec : Codec} (stepped : Loop.step codec s action = some next) :
    (∃ cmd order middle early late, action = .command cmd order ∧
      Served codec s.hub cmd middle early false ∧ Drained codec middle next.hub late false ∧
      next.log = s.log ++ (early ++ late) ∧ next.joins = s.joins + cmd.joinCount) ∨
    (∃ id c, s.hub.clients.lookup id = some c ∧ c.held = false ∧ action = .written id ∧
      next = { s with hub := s.hub.withClient id { c with out := c.out.drop 1 } }) ∨
    (∃ id c body frame, s.hub.clients.lookup id = some c ∧ c.held = false ∧
      c.out.length < sendBuffer ∧ isAnswer body = true ∧ encode codec body = some frame ∧
      action = .answered id body ∧
      next = { s with hub := s.hub.withClient id { c with out := c.out ++ [frame] } }) := by
  cases action with
  | command cmd order =>
      obtain ⟨hub, effects, handled, rfl⟩ := Loop.step_command.mp stepped
      obtain ⟨middle, early, late, served, drained, rfl⟩ := handle_continues handled
      exact Or.inl ⟨cmd, order, middle, early, late, rfl, served, drained, rfl, rfl⟩
  | written id =>
      obtain ⟨hub, wrote, rfl⟩ := Option.map_eq_some_iff.mp stepped
      obtain ⟨c, found, live, rfl⟩ := Hub.written_eq_some wrote
      exact Or.inr (Or.inl ⟨id, c, found, live, rfl, rfl⟩)
  | answered id body =>
      obtain ⟨answers, wrote⟩ := Option.ite_none_right_eq_some.mp stepped
      obtain ⟨hub, queued, rfl⟩ := Option.map_eq_some_iff.mp wrote
      obtain ⟨c, frame, found, encoded, live, room, rfl⟩ := Hub.answered_eq_some queued
      exact Or.inr (Or.inr ⟨id, c, body, frame, found, live, room, answers, encoded, rfl, rfl⟩)

/-- `ch <- value` on a channel of the given capacity; undefined when the sender
would have to wait. -/
def sendOn {Value : Type} (capacity : Nat) (channel : List Value) (value : Value) :
    Option (List Value) :=
  if channel.length < capacity then some (channel ++ [value]) else none

/-- A send in a `select` with a default. -/
def trySend (channel : List Bytes) (frame : Bytes) : List Bytes :=
  if channel.length < sendBuffer then channel ++ [frame] else channel

/-- The frames received until the channel is empty, and the channel then. -/
def drainChan : List Bytes → List Bytes × List Bytes
  | [] => ([], [])
  | frame :: rest => (frame :: (drainChan rest).1, (drainChan rest).2)

/-- `handleJoin` on the channels of the command, every send explicit. -/
def handleJoinOn (codec : Codec) (order : Order) (h : Hub) (out : List Bytes)
    (reply : List JoinReply) (conn : ConnID) (isCreate : Bool) (token : Bytes) :
    Option (Hub × List Effect) :=
  if h.max ≤ h.clients.keys.length then do
    let answer : JoinReply :=
      { ok := false, errC := errCodeSessionFull, errS := "session full", id := 0, gen := 0 }
    let _ ← sendOn 1 reply answer
    return (h, [.joinReply conn answer])
  else
    let id := h.nextID
    let issued : Hub := { h with nextID := h.nextID + 1 }
    let hello := helloReply h (order.visit 0) isCreate id token
    match encode codec hello with
    | none => do
        let answer : JoinReply :=
          { ok := false, errC := errCodeBadFrame, errS := "encode reply", id := 0, gen := 0 }
        let _ ← sendOn 1 reply answer
        return (issued, [.joinReply conn answer])
    | some frame => do
        let queued ← sendOn sendBuffer out frame
        let client : Client :=
          { id := id
            out := queued
            kick := conn
            token := token
            held := false
            gen := 1
            timer := false
            evicting := false }
        let registered : Hub := { issued with clients := issued.clients.insert id client }
        let answer : JoinReply := { ok := true, errC := 0, errS := "", id := id, gen := 1 }
        let _ ← sendOn 1 reply answer
        let notice := broadcastFrame codec (order.visit 1) registered (.participantJoined id) id
        return (notice.1, .queued id hello :: .joinReply conn answer :: notice.2)

/-- `handleResume` on the channels of the slot, every send explicit. -/
def handleResumeOn (codec : Codec) (order : Order) (h : Hub) (reply : List ResumeReply)
    (id : ParticipantID) (token : Bytes) (conn : ConnID) : Option (Hub × List Effect) :=
  let refuse (answer : ResumeReply) : Option (Hub × List Effect) := do
    let _ ← sendOn 1 reply answer
    return (h, [.resumeReply conn answer])
  let rejection : ResumeReply :=
    { ok := false, errC := errCodeResumeRejected, errS := "cannot resume session", gen := 0 }
  match h.clients.lookup id with
  | none => refuse rejection
  | some c =>
      if c.token ≠ token then refuse rejection
      else
        let hello := helloReply h (order.visit 0) false id c.token
        match encode codec hello with
        | none =>
            refuse { ok := false, errC := errCodeBadFrame, errS := "encode reply", gen := 0 }
        | some frame => do
            let drained := if c.held then drainChan c.out else ([], [])
            let led ← sendOn sendBuffer drained.2 frame
            let resumed : Client :=
              { c with
                out := drained.1.foldl trySend led
                kick := conn
                held := false
                gen := c.gen + 1
                timer := false }
            let answer : ResumeReply := { ok := true, errC := 0, errS := "", gen := c.gen + 1 }
            let _ ← sendOn 1 reply answer
            return ({ h with clients := h.clients.insert id resumed },
              (if c.held then [] else [.kicked c.kick]) ++
                [.queued id hello, .resumeReply conn answer])

theorem drainChan_eq (channel : List Bytes) : drainChan channel = (channel, []) := by
  induction channel with
  | nil => rfl
  | cons frame rest ih => simp only [drainChan, ih]

theorem foldl_trySend (frames channel : List Bytes) (fits : channel.length ≤ sendBuffer) :
    frames.foldl trySend channel = (channel ++ frames).take sendBuffer := by
  induction frames generalizing channel with
  | nil => rw [List.foldl_nil, List.append_nil, List.take_of_length_le fits]
  | cons frame rest ih =>
      rw [List.foldl_cons]
      by_cases room : channel.length < sendBuffer
      · have pushed : trySend channel frame = channel ++ [frame] := if_pos room
        have still : (channel ++ [frame]).length ≤ sendBuffer := by
          simp only [List.length_append, List.length_singleton]
          omega
        rw [pushed, ih _ still, List.append_assoc]
        rfl
      · have same : trySend channel frame = channel := if_neg room
        have full : channel.length = sendBuffer := by omega
        rw [same, ih _ fits, ← full, List.take_left, List.take_left]

theorem handleJoinOn_fresh (codec : Codec) (order : Order) (h : Hub) (conn : ConnID)
    (isCreate : Bool) (token : Bytes) :
    handleJoinOn codec order h [] [] conn isCreate token =
      some (handleJoin codec order h conn isCreate token) := by
  unfold handleJoinOn handleJoin
  split
  · rfl
  · cases encoded : encode codec (helloReply h (order.visit 0) isCreate h.nextID token) with
    | none =>
        simp only [encoded]
        rfl
    | some frame =>
        simp only [encoded]
        rfl

theorem handleResumeOn_fresh (codec : Codec) (order : Order) (h : Hub) (id : ParticipantID)
    (token : Bytes) (conn : ConnID) :
    handleResumeOn codec order h [] id token conn =
      some (handleResume codec order h id token conn) := by
  cases found : h.clients.lookup id with
  | none =>
      simp only [handleResumeOn, handleResume, found]
      rfl
  | some c =>
      by_cases authentic : c.token = token
      · cases encoded : encode codec (helloReply h (order.visit 0) false id c.token) with
        | none =>
            simp only [handleResumeOn, handleResume, found, authentic, ne_eq, not_true_eq_false,
              if_false]
            rw [authentic] at encoded
            rw [encoded]
            rfl
        | some frame =>
            have buffered : (if c.held = true then drainChan c.out else ([], [])) =
                (if c.held = true then c.out else [], []) := by
              split
              · exact drainChan_eq c.out
              · rfl
            have filled := foldl_trySend (if c.held = true then c.out else []) ([] ++ [frame])
              (by simp [sendBuffer])
            rw [authentic] at encoded
            simp only [handleResumeOn, handleResume, found, authentic, ne_eq, not_true_eq_false,
              if_false, encoded, buffered]
            change some _ = some _
            rw [filled]
            rfl
      · simp only [handleResumeOn, handleResume, found, ne_eq, authentic, not_false_eq_true,
          if_true]
        rfl

/-- The number of slots, their ids and their timers. -/
structure Hub.Fits (h : Hub) : Prop where
  size : h.clients.keys.length ≤ h.max
  first : 1 ≤ h.nextID.toNat
  ranged : ∀ q, q ∈ h.clients → 1 ≤ q.toNat ∧ q.toNat < h.nextID.toNat
  timed : ∀ q c, h.clients.lookup q = some c → (c.held = true ↔ c.timer = true)

structure Hub.Sound (h : Hub) : Prop where
  size : h.clients.keys.length ≤ h.max
  keyed : ∀ q c, h.clients.lookup q = some c → c.id = q
  ranged : ∀ q, q ∈ h.clients → 1 ≤ q.toNat ∧ q.toNat < h.nextID.toNat
  settled : h.evict = []
  unmarked : ∀ q c, h.clients.lookup q = some c → c.evicting = false
  timed : ∀ q c, h.clients.lookup q = some c → (c.held = true ↔ c.timer = true)

theorem Hub.Fits.sound {h : Hub} (fits : h.Fits) (tracked : h.Tracked) (settled : h.evict = []) :
    h.Sound :=
  { fits with
    keyed := tracked.keyed
    settled := settled
    unmarked := tracked.unmarked settled }

namespace Hub.Fits

variable {codec : Codec} {h after : Hub} {effects : List Effect} {targets : ParticipantID → Prop}
  {emptied : Bool} {body : Body}

theorem offers {frame : Bytes} (fits : h.Fits)
    (spread : Offers body frame targets h after effects) : after.Fits := by
  refine
    { size := ?_
      first := by rw [spread.nextID]; exact fits.first
      ranged := ?_
      timed := ?_ }
  · rw [spread.max]
    exact Nat.le_trans (keys_length_le (fun q => (spread.mem_iff q).mp)) fits.size
  · intro q member
    rw [spread.nextID]
    exact fits.ranged q ((spread.mem_iff q).mp member)
  · intro q c found
    obtain ⟨old, there, same⟩ := spread.owner found
    rw [same.held, same.timer]
    exact fits.timed q old there

theorem spread (fits : h.Fits) (sent : Spread codec body targets h after effects) : after.Fits := by
  cases sent with
  | offered _ offers => exact fits.offers offers
  | unencodable _ => exact fits

theorem update {c updated : Client} (fits : h.Fits) (found : h.clients.lookup id = some c)
    (timed : updated.held = true ↔ updated.timer = true) :
    (h.withClient id updated).Fits := by
  have within : ∀ q, q ∈ (h.withClient id updated).clients → q ∈ h.clients := by
    intro q member
    rcases (AList.mem_insert _).mp member with rfl | known
    · exact mem_of_lookup found
    · exact known
  refine
    { size := Nat.le_trans (keys_length_le within) fits.size
      first := fits.first
      ranged := fun q member => fits.ranged q (within q member)
      timed := ?_ }
  intro q d there
  rcases lookup_withClient there with ⟨rfl, rfl⟩ | ⟨_, known⟩
  · exact timed
  · exact fits.timed q d known

theorem removal (fits : h.Fits) (removed : Removal codec id h after effects emptied) :
    after.Fits := by
  have within : ∀ q, q ∈ h.clients.erase id → q ∈ h.clients :=
    fun q member => (AList.mem_erase.mp member).2
  have erased : (h.without id).Fits :=
    { size := Nat.le_trans (keys_length_le within) fits.size
      first := fits.first
      ranged := fun q member => fits.ranged q (within q member)
      timed := fun q c found => fits.timed q c (lookup_without found).2 }
  cases removed with
  | emptied found alone => exact erased
  | announced found others notice => exact erased.spread notice

theorem drained (finished : Drained codec h after effects emptied) (fits : h.Fits) :
    after.Fits := by
  induction finished with
  | done empty => exact fits
  | skipped pending absent later ih => exact ih { fits with }
  | @emptied h after effects id rest pending removal =>
      have remaining : ({ h with evict := rest } : Hub).Fits := { fits with }
      exact remaining.removal removal
  | @evicted h middle after early late emptied id rest pending removal later ih =>
      have remaining : ({ h with evict := rest } : Hub).Fits := { fits with }
      exact ih (remaining.removal removal)

end Hub.Fits

theorem nextID_issued {h : Hub} (unwrapped : h.nextID.toNat + 1 < 2 ^ 32) :
    h.issued.nextID.toNat = h.nextID.toNat + 1 := by
  change (h.nextID + 1).toNat = _
  rw [UInt32.toNat_add]
  exact Nat.mod_eq_of_lt unwrapped

theorem Served.fits {codec : Codec} {h after : Hub} {effects : List Effect}
    (served : Served codec h cmd after effects returned) (fits : h.Fits)
    (unwrapped : 1 ≤ cmd.joinCount → h.nextID.toNat + 1 < 2 ^ 32) : after.Fits := by
  cases served with
  | ignored idle => exact fits
  | unencoded refused =>
      have advanced := nextID_issued (unwrapped (Nat.le_refl 1))
      exact
        { fits with
          first := by rw [advanced]; omega
          ranged := fun q member => by
            have range := fits.ranged q member
            rw [advanced]
            omega }
  | @admitted conn isCreate token visit frame after effects perm room encoded notice =>
      refine Hub.Fits.spread ?_ notice
      have advanced := nextID_issued (unwrapped (Nat.le_refl 1))
      have fresh : h.nextID ∉ h.clients :=
        fun member => Nat.lt_irrefl _ (fits.ranged h.nextID member).2
      refine
        { size := ?_
          first := ?_
          ranged := ?_
          timed := ?_ }
      · change (h.clients.insert h.nextID _).keys.length ≤ h.max
        rw [AList.keys_insert, List.length_cons, List.erase_of_not_mem
          (fun member => fresh (AList.mem_keys.mpr member))]
        exact room
      · change 1 ≤ (h.issued).nextID.toNat
        rw [advanced]
        omega
      · intro q member
        change 1 ≤ q.toNat ∧ q.toNat < (h.issued).nextID.toNat
        rw [advanced]
        rcases (AList.mem_insert _).mp member with rfl | known
        · exact ⟨fits.first, Nat.lt_succ_self _⟩
        · have range := fits.ranged q known
          omega
      · intro q c found
        rcases lookup_withClient found with ⟨rfl, rfl⟩ | ⟨_, known⟩
        · simp [newClient]
        · exact fits.timed q c known
  | held found live current graced => exact fits.update found (by simp [Client.onHold])
  | left found live current final removal => exact fits.removal removal
  | expired found waiting current removal => exact fits.removal removal
  | resumed perm found authentic encoded => exact fits.update found (by simp [Client.resumed])
  | claimed found => exact { fits with }
  | complained answer => exact fits.spread answer
  | directed decoded sent => exact fits.spread sent
  | broadcast decoded sent => exact fits.spread sent
  | closing notice => exact fits.spread notice

def issuedIDs (log : List Effect) : List ParticipantID :=
  log.filterMap (fun effect =>
    match effect with
    | .joinReply _ reply => if reply.ok then some reply.id else none
    | _ => none)

theorem issuedIDs_append (early late : List Effect) :
    issuedIDs (early ++ late) = issuedIDs early ++ issuedIDs late :=
  List.filterMap_append

theorem issuedIDs_of_traffic {effects : List Effect}
    (traffic : ∀ effect ∈ effects, effect.isTraffic = true) : issuedIDs effects = [] := by
  refine List.filterMap_eq_nil_iff.mpr (fun effect member => ?_)
  have silent := traffic effect member
  cases effect with
  | queued toID body => rfl
  | kicked conn => rfl
  | joinReply conn reply => cases silent
  | resumeReply conn reply => cases silent
  | statsReply reply => cases silent

theorem issuedIDs_of_idle {effects : List Effect}
    (idle : ∀ effect ∈ effects, effect.isIdle = true) : issuedIDs effects = [] := by
  refine List.filterMap_eq_nil_iff.mpr (fun effect member => ?_)
  have silent := idle effect member
  cases effect with
  | joinReply conn reply =>
      simp only [Effect.isIdle, Bool.not_eq_true'] at silent
      simp [silent]
  | queued toID body => rfl
  | kicked conn => rfl
  | resumeReply conn reply => rfl
  | statsReply reply => rfl

theorem Served.issues {codec : Codec} {h after : Hub} {effects : List Effect}
    (served : Served codec h cmd after effects returned) :
    (issuedIDs effects = [] ∧ after.nextID = h.nextID) ∨
      (cmd.joinCount = 1 ∧ after.nextID = h.nextID + 1 ∧
        (issuedIDs effects = [] ∨ issuedIDs effects = [h.nextID])) := by
  have quiet : ∀ {effects : List Effect} {after : Hub},
      (∀ effect ∈ effects, effect.isTraffic = true) → after.header = h.header →
        (issuedIDs effects = [] ∧ after.nextID = h.nextID) ∨
          (cmd.joinCount = 1 ∧ after.nextID = h.nextID + 1 ∧
            (issuedIDs effects = [] ∨ issuedIDs effects = [h.nextID])) :=
    fun traffic same => Or.inl ⟨issuedIDs_of_traffic traffic, Hub.nextID_of_header same⟩
  cases served with
  | ignored idle => exact Or.inl ⟨issuedIDs_of_idle idle, rfl⟩
  | unencoded refused =>
      refine Or.inr ⟨rfl, rfl, Or.inl ?_⟩
      simp [issuedIDs, refused]
  | admitted perm room encoded notice =>
      have counted := Hub.nextID_of_header notice.header
      refine Or.inr ⟨rfl, counted, Or.inr ?_⟩
      have quiet := issuedIDs_of_traffic notice.traffic
      simpa [issuedIDs] using quiet
  | held found live current graced => exact Or.inl ⟨rfl, rfl⟩
  | left found live current final removal => exact quiet removal.traffic removal.header
  | expired found waiting current removal => exact quiet removal.traffic removal.header
  | resumed perm found authentic encoded =>
      refine Or.inl ⟨?_, rfl⟩
      rw [issuedIDs_append]
      split
      · rfl
      · rfl
  | claimed found => exact Or.inl ⟨rfl, rfl⟩
  | complained answer => exact quiet answer.traffic answer.header
  | directed decoded sent => exact quiet sent.traffic sent.header
  | broadcast decoded sent => exact quiet sent.traffic sent.header
  | closing notice => exact quiet notice.traffic notice.header

/-- The run loop between two commands while the id counter has not wrapped. -/
structure Loop.Regular (s : Loop) : Prop where
  tracked : s.hub.Tracked
  fits : s.hub.Fits
  settled : s.hub.evict = []
  counted : s.hub.nextID.toNat ≤ 1 + s.joins
  below : ∀ id ∈ issuedIDs s.log, id.toNat < s.hub.nextID.toNat
  increasing : (issuedIDs s.log).Pairwise (fun earlier later => earlier < later)

theorem Loop.start_regular (maxParticipants grace : Nat) :
    (Loop.start maxParticipants grace).Regular := by
  have absent : ∀ q (c : Client), (∅ : GoMap ParticipantID Client).lookup q ≠ some c := by
    intro q c found
    exact AList.notMem_empty q (mem_of_lookup found)
  exact
    { tracked :=
        { keyed := fun q c found => absurd found (absent q c)
          pending := fun q c found => absurd found (absent q c) }
      fits :=
        { size := Nat.zero_le _
          first := Nat.le_refl 1
          ranged := fun q member => absurd member (AList.notMem_empty q)
          timed := fun q c found => absurd found (absent q c) }
      settled := rfl
      counted := Nat.le_refl 1
      below := fun id member => by cases member
      increasing := List.Pairwise.nil }

theorem Loop.Regular.update {c : Client} (regular : s.Regular)
    (found : s.hub.clients.lookup id = some c) (out : List Bytes) :
    Loop.Regular { s with hub := s.hub.withClient id { c with out := out } } :=
  { regular with
    tracked := regular.tracked.update (regular.tracked.keyed id c found)
      (regular.tracked.pending id c found)
    fits := regular.fits.update found (regular.fits.timed id c found) }

theorem Loop.joins_le {codec : Codec} (stepped : Loop.step codec s action = some next) :
    s.joins ≤ next.joins := by
  rcases Loop.step_cases stepped with
    ⟨cmd, order, middle, early, late, _, _, _, _, joins⟩ | ⟨id, c, _, _, _, rfl⟩ |
      ⟨id, c, body, frame, _, _, _, _, _, _, rfl⟩
  · rw [joins]
    exact Nat.le_add_right _ _
  · exact Nat.le_refl _
  · exact Nat.le_refl _

theorem Loop.regular_step (codec : Codec) (s : Loop) (action : Action) (next : Loop)
    (invariant : s.joins < 2 ^ 32 - 1 → s.Regular)
    (stepped : Loop.step codec s action = some next) :
    next.joins < 2 ^ 32 - 1 → next.Regular := by
  intro few
  have regular := invariant (Nat.lt_of_le_of_lt (Loop.joins_le stepped) few)
  rcases Loop.step_cases stepped with
    ⟨cmd, order, middle, early, late, rfl, served, drained, logged, joins⟩ |
      ⟨id, c, found, _, _, rfl⟩ | ⟨id, c, body, frame, found, _, _, _, _, _, rfl⟩
  · have unwrapped : 1 ≤ cmd.joinCount → s.hub.nextID.toNat + 1 < 2 ^ 32 := by
      intro join
      have counted := regular.counted
      omega
    have fits := Hub.Fits.drained drained (served.fits regular.fits unwrapped)
    obtain ⟨tracked, settled⟩ := Hub.Tracked.drained drained (served.tracked regular.tracked)
    have issued : issuedIDs next.log = issuedIDs s.log ++ issuedIDs early := by
      rw [logged, issuedIDs_append, issuedIDs_append, issuedIDs_of_traffic drained.traffic,
        List.append_nil]
    have following : next.hub.nextID = middle.nextID := Hub.nextID_of_header drained.header
    rcases served.issues with ⟨quiet, same⟩ | ⟨join, advanced, new⟩
    · refine
        { tracked := tracked
          fits := fits
          settled := settled rfl
          counted := ?_
          below := ?_
          increasing := ?_ }
      · have counted := regular.counted
        rw [following, same]
        omega
      · rw [issued, quiet, List.append_nil, following, same]
        exact regular.below
      · rw [issued, quiet, List.append_nil]
        exact regular.increasing
    · have successor : next.hub.nextID.toNat = s.hub.nextID.toNat + 1 := by
        rw [following, advanced]
        exact nextID_issued (unwrapped (Nat.le_of_eq join.symm))
      have newest : ∀ id ∈ issuedIDs early, id = s.hub.nextID := by
        intro id member
        rcases new with none | one
        · rw [none] at member
          cases member
        · rw [one] at member
          exact List.mem_singleton.mp member
      refine
        { tracked := tracked
          fits := fits
          settled := settled rfl
          counted := ?_
          below := ?_
          increasing := ?_ }
      · have counted := regular.counted
        omega
      · intro id member
        rw [issued] at member
        rcases List.mem_append.mp member with earlier | later
        · have below := regular.below id earlier
          omega
        · rw [newest id later]
          omega
      · rw [issued]
        refine List.pairwise_append.mpr ⟨regular.increasing, ?_, ?_⟩
        · rcases new with none | one
          · rw [none]
            exact List.Pairwise.nil
          · rw [one]
            exact List.pairwise_singleton _ _
        · intro earlier old later recent
          rw [newest later recent]
          exact UInt32.lt_iff_toNat_lt.mpr (regular.below earlier old)
  · exact regular.update found _
  · exact regular.update found _

theorem Loop.limits_step (codec : Codec) (limits : Nat × Nat) (s : Loop) (action : Action)
    (next : Loop) (same : s.hub.limits = limits)
    (stepped : Loop.step codec s action = some next) : next.hub.limits = limits := by
  rcases Loop.step_cases stepped with
    ⟨cmd, order, middle, early, late, _, served, drained, _, _⟩ | ⟨id, c, _, _, _, rfl⟩ |
      ⟨id, c, body, frame, _, _, _, _, _, _, rfl⟩
  · exact ((Hub.limits_of_header drained.header).trans served.kept.1).trans same
  · exact same
  · exact same

/-- The representation invariant: in every run with fewer than `2 ^ 32 - 1`
joins the hub between two commands is sound, ids were issued in increasing order,
and the next join or resume will find room in every channel it sends on. -/
theorem hub_sound_between_commands (codec : Codec) (maxParticipants grace : Nat)
    (actions : List Action) (s : Loop)
    (reached : run (Loop.step codec) (Loop.start maxParticipants grace) actions = some s)
    (few : s.joins < 2 ^ 32 - 1) :
    s.hub.clients.keys.length ≤ maxParticipants ∧
      s.hub.Sound ∧
      (issuedIDs s.log).Pairwise (fun earlier later => earlier < later) ∧
      (∀ order conn isCreate token,
        handleJoinOn codec order s.hub [] [] conn isCreate token =
          some (handleJoin codec order s.hub conn isCreate token)) ∧
      (∀ order id token conn,
        handleResumeOn codec order s.hub [] id token conn =
          some (handleResume codec order s.hub id token conn)) := by
  have regular := run_invariant' (Loop.regular_step codec)
    (fun _ => Loop.start_regular maxParticipants grace) reached few
  have limits : s.hub.limits = (maxParticipants, grace) :=
    run_invariant' (Loop.limits_step codec (maxParticipants, grace)) rfl reached
  refine ⟨?_, regular.fits.sound regular.tracked regular.settled, regular.increasing, ?_, ?_⟩
  · have size := regular.fits.size
    rwa [show s.hub.max = maxParticipants from congrArg Prod.fst limits] at size
  · exact fun order conn isCreate token => handleJoinOn_fresh codec order s.hub conn isCreate token
  · exact fun order id token conn => handleResumeOn_fresh codec order s.hub id token conn

/-- A join, a drop, traffic for the held slot, and a resume that takes it up. -/
def heldAndResumed : List Action :=
  [.command (.join 0 true [1]) .stored,
    .command (.join 1 false [2]) .stored,
    .command (.leave 2 1 true) .stored,
    .command (.frame 1 .broadcast [7]) .stored,
    .written 1,
    .command (.resume 2 [2] 2) .stored]

theorem heldAndResumed_sound :
    ∃ s, run (Loop.step cborCodec) (Loop.start 16 30) heldAndResumed = some s ∧
      s.joins = 2 ∧ s.hub.Sound := by
  have finished : (run (Loop.step cborCodec) (Loop.start 16 30) heldAndResumed).any
      (fun s => decide (s.joins = 2)) = true := by
    decide +kernel
  obtain ⟨s, reached, joins⟩ := (Option.any_eq_true _ _).mp finished
  have two : s.joins = 2 := of_decide_eq_true joins
  exact ⟨s, reached, two,
    (hub_sound_between_commands cborCodec 16 30 heldAndResumed s reached (by omega)).2.1⟩

/-! ### Empty sessions -/

def Hub.Occupied (h : Hub) : Prop := ∃ q, q ∈ h.clients

theorem Hub.occupied_withClient (h : Hub) (q : ParticipantID) (c : Client) :
    (h.withClient q c).Occupied :=
  ⟨q, (AList.mem_insert _).mpr (Or.inl rfl)⟩

variable {codec : Codec} {h after : Hub} {effects : List Effect}

theorem Spread.occupied {body : Body} {targets : ParticipantID → Prop}
    (sent : Spread codec body targets h after effects) (occupied : h.Occupied) :
    after.Occupied :=
  occupied.imp (fun q => (sent.mem_iff q).mpr)

theorem Removal.occupied (removal : Removal codec id h after effects false) : after.Occupied := by
  cases removal with
  | announced found others notice =>
      exact notice.occupied (List.exists_mem_of_ne_nil _ others)

theorem Drained.occupied {emptied : Bool} (drained : Drained codec h after effects emptied)
    (going : emptied = false) (occupied : h.Occupied) : after.Occupied := by
  induction drained with
  | done empty => exact occupied
  | skipped pending absent later ih => exact ih going occupied
  | emptied pending removal => cases going
  | evicted pending removal later ih => exact ih going removal.occupied

theorem Served.occupied (served : Served codec h cmd after effects false)
    (occupied : issuedIDs effects = [] → h.Occupied) : after.Occupied := by
  cases served with
  | ignored idle => exact occupied (issuedIDs_of_idle idle)
  | unencoded refused => exact occupied (by simp [issuedIDs, refused])
  | admitted perm room encoded notice =>
      exact notice.occupied (h.issued.occupied_withClient _ _)
  | held found live current graced => exact h.occupied_withClient _ _
  | left found live current final removal => exact removal.occupied
  | expired found waiting current removal => exact removal.occupied
  | resumed perm found authentic encoded => exact h.occupied_withClient _ _
  | claimed found => exact occupied rfl
  | complained answer => exact answer.occupied (occupied (issuedIDs_of_traffic answer.traffic))
  | directed decoded sent | broadcast decoded sent =>
      exact sent.occupied (occupied (issuedIDs_of_traffic sent.traffic))

theorem Loop.occupied_step (codec : Codec) (s : Loop) (action : Action) (next : Loop)
    (occupied : issuedIDs s.log ≠ [] → s.hub.Occupied)
    (stepped : Loop.step codec s action = some next) (issued : issuedIDs next.log ≠ []) :
    next.hub.Occupied := by
  rcases Loop.step_cases stepped with
    ⟨cmd, order, middle, early, late, _, served, drained, log, _⟩ | ⟨id, c, _, _, _, rfl⟩ |
      ⟨id, c, body, frame, _, _, _, _, _, _, rfl⟩
  · refine drained.occupied rfl (served.occupied (fun none => occupied ?_))
    simpa [log, issuedIDs_append, none, issuedIDs_of_traffic drained.traffic] using issued
  · exact s.hub.occupied_withClient id _
  · exact s.hub.occupied_withClient id _

/-- No session outlives its participants: a hub that has admitted somebody and
still runs has one, live or held. -/
theorem running_hub_occupied (codec : Codec) (maxParticipants grace : Nat)
    (actions : List Action) (s : Loop)
    (reached : run (Loop.step codec) (Loop.start maxParticipants grace) actions = some s)
    (admitted : issuedIDs s.log ≠ []) : s.hub.Occupied :=
  run_invariant' (Loop.occupied_step codec) (fun none => absurd rfl none) reached admitted

theorem heldAndResumed_occupied :
    ∃ s, run (Loop.step cborCodec) (Loop.start 16 30) heldAndResumed = some s ∧
      s.hub.Occupied :=
  ⟨_, rfl, running_hub_occupied cborCodec 16 30 heldAndResumed _ rfl (by decide)⟩

end Parley.Relay
