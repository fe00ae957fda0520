/-
The hellos of a relay: who gets an answer, and who comes first.

Each connection sends at most one command that it waits for, and a run loop
answers each such command it takes once.  A command is left unanswered only if
it stands in the inbox when `run` returns or is put there afterwards; its handler
then waits for ever, since it listens to the reply alone.  The entry of a new
session is visible before its creator's own command is sent, so another
connection can be first.
-/

import Parley.Relay.Eviction
import Parley.Relay.Ownership
import Parley.Relay.Lifetimes

namespace Parley.Relay

open Wire Library
open Relation (ReflTransGen)

variable {conn : ConnID} {s next : System} {cmd : Cmd} {p after : Proc} {i : HubID}
  {effects : List Effect} {codec : Codec} {returned : Bool} {rest : List Cmd} {order : Order}
  {h : Hub}

theorem answers_of_traffic (traffic : ∀ effect ∈ effects, effect.isTraffic = true) :
    effects.filterMap Effect.answer = [] := by
  refine List.filterMap_eq_nil_iff.mpr (fun effect member => ?_)
  have frame := traffic effect member
  cases effect with
  | queued toID body => rfl
  | kicked conn => rfl
  | joinReply conn reply => cases frame
  | resumeReply conn reply => cases frame
  | statsReply reply => rfl

theorem handleJoin_answers (codec : Codec) (order : Order) (h : Hub) (conn : ConnID)
    (isCreate : Bool) (token : Bytes) :
    ∃ reply, (handleJoin codec order h conn isCreate token).2.filterMap Effect.answer =
      [(conn, .join reply)] := by
  unfold handleJoin
  split
  · exact ⟨_, rfl⟩
  · dsimp only
    split
    · exact ⟨_, rfl⟩
    · rename_i frame encoded
      have quiet := answers_of_traffic
        (broadcastFrame_spread codec (order.perm 1) (h.issued.withClient h.nextID
          (newClient h.nextID frame conn token)) (.participantJoined h.nextID) h.nextID).traffic
      have reply : List.filterMap Effect.answer
          (.queued h.nextID (helloReply h (order.visit 0) isCreate h.nextID token) ::
            .joinReply conn { ok := true, errC := 0, errS := "", id := h.nextID, gen := 1 } ::
              (broadcastFrame codec (order.visit 1) (h.issued.withClient h.nextID
                (newClient h.nextID frame conn token)) (.participantJoined h.nextID)
                h.nextID).2) = [(conn, .join _)] :=
        congrArg (List.cons _) quiet
      exact ⟨_, reply⟩

theorem handleResume_answers (codec : Codec) (order : Order) (h : Hub) (id : ParticipantID)
    (token : Bytes) (conn : ConnID) :
    ∃ reply, (handleResume codec order h id token conn).2.filterMap Effect.answer =
      [(conn, .resume reply)] := by
  unfold handleResume
  split
  · exact ⟨_, rfl⟩
  · rename_i c found
    split
    · exact ⟨_, rfl⟩
    · dsimp only
      split
      · exact ⟨_, rfl⟩
      · cases c.held with
        | true => exact ⟨_, rfl⟩
        | false => exact ⟨_, rfl⟩

theorem removal_answers (codec : Codec) {visit : List ParticipantID → List ParticipantID}
    (perm : ∀ keys, (visit keys).Perm keys) {id : ParticipantID} {c : Client}
    (found : h.clients.lookup id = some c) :
    (removeParticipant codec visit h id).2.1.filterMap Effect.answer = [] :=
  answers_of_traffic (removeParticipant_removal codec perm found).traffic

theorem route_answers (codec : Codec) (order : Order) (h : Hub) (fromID : ParticipantID)
    (typ : MsgType) (raw : Bytes) :
    (route codec order h fromID typ raw).2.filterMap Effect.answer = [] := by
  have told : ∀ id body, (sendTo codec h id body).2.filterMap Effect.answer = [] :=
    fun id body => answers_of_traffic (sendTo_spread codec h id body).traffic
  unfold route
  split
  · split
    · exact told _ _
    · split
      · exact told _ _
      · exact told _ _
  · split
    · exact told _ _
    · exact answers_of_traffic (broadcastFrame_spread codec (order.perm 0) h _ fromID).traffic
  · rfl

theorem dispatch_unanswered (codec : Codec) (order : Order) (h : Hub) (plain : cmd.asker = none) :
    (dispatch codec order h cmd).2.1.filterMap Effect.answer = [] := by
  cases cmd with
  | join conn isCreate token => cases plain
  | resume id token conn => cases plain
  | leave id gen unexpected =>
      simp only [dispatch, handleLeave]
      split
      · rfl
      · rename_i c found
        split
        · rfl
        · split
          · rfl
          · exact removal_answers codec (order.perm 0) found
  | graceExpired id gen =>
      simp only [dispatch, handleGraceExpired]
      split
      · rfl
      · rename_i c found
        split
        · rfl
        · exact removal_answers codec (order.perm 0) found
  | claimHost id => rfl
  | frame fromID typ raw => exact route_answers codec order h fromID typ raw
  | stats => rfl
  | close reason =>
      exact answers_of_traffic (broadcastFrame_spread codec (order.perm 0) h _ 0).traffic

theorem shutdown_answers (h : Hub) : (shutdown h).filterMap Effect.answer = [] := by
  refine answers_of_traffic (fun effect member => ?_)
  obtain ⟨entry, _, rfl⟩ := List.mem_map.mp member
  rfl

theorem handle_answers_eq {after : Hub}
    (handled : handle codec order h cmd = some (after, effects, returned)) :
    effects.filterMap Effect.answer = (dispatch codec order h cmd).2.1.filterMap Effect.answer := by
  unfold handle at handled
  dsimp only at handled
  split at handled
  · cases handled
    rw [List.filterMap_append, shutdown_answers, List.append_nil]
  · obtain ⟨⟨last, late, emptied⟩, drained, same⟩ := Option.map_eq_some_iff.mp handled
    cases same
    have quiet := answers_of_traffic (drainEvictions_drained codec order _ _ _ _ drained).traffic
    rw [List.filterMap_append, List.filterMap_append, quiet, List.append_nil]
    split
    · rw [shutdown_answers, List.append_nil]
    · exact List.append_nil _

theorem handle_answers {after : Hub}
    (handled : handle codec order h cmd = some (after, effects, returned)) :
    effects.filterMap Effect.answer = [] ∧ cmd.asker = none ∨
      ∃ conn answer, cmd.asker = some conn ∧
        effects.filterMap Effect.answer = [(conn, answer)] := by
  rw [handle_answers_eq handled]
  cases cmd with
  | join conn isCreate token =>
      obtain ⟨reply, one⟩ := handleJoin_answers codec order h conn isCreate token
      exact Or.inr ⟨conn, .join reply, rfl, one⟩
  | resume id token conn =>
      obtain ⟨reply, one⟩ := handleResume_answers codec order h id token conn
      exact Or.inr ⟨conn, .resume reply, rfl, one⟩
  | _ => exact Or.inl ⟨dispatch_unanswered codec order h rfl, rfl⟩

def Proc.received (p : Proc) : List Cmd := p.history.map Prod.fst ++ p.inbox

def Proc.requests (p : Proc) (conn : ConnID) : List Cmd :=
  p.received.filter (fun cmd => decide (cmd.asker = some conn))

/-- The handler's command has been accepted by some inbox, or answered. -/
def Stage.isAsked : Stage → Bool
  | .waiting _ _ => true
  | .serving _ _ _ => true
  | _ => false

def Stage.isOver : Stage → Bool
  | .serving _ _ _ => true
  | .refused _ _ => true
  | .gone => true
  | _ => false

/-- What became of the one command of a connection's hello: no inbox accepted it;
it stands in an inbox; it was handled and answered. -/
inductive System.Ledger (s : System) (conn : ConnID) : Prop where
  | unasked (nowhere : ∀ (i : HubID) (p : Proc), s.hubs[i]? = some p → p.requests conn = [])
      (silent : s.replies conn = []) (never : s.answered.count conn = 0)
      (stage : (s.stages conn).isAsked = false) : Ledger s conn
  | pending {i : HubID} {p : Proc} {cmd : Cmd} (waits : s.stages conn = .waiting i cmd)
      (found : s.hubs[i]? = some p) (only : p.requests conn = [cmd]) (stands : cmd ∈ p.inbox)
      (elsewhere : ∀ (j : HubID) (q : Proc), j ≠ i → s.hubs[j]? = some q → q.requests conn = [])
      (silent : s.replies conn = []) (never : s.answered.count conn = 0) : Ledger s conn
  | handled {i : HubID} {p : Proc} {cmd : Cmd} (found : s.hubs[i]? = some p)
      (only : p.requests conn = [cmd]) (taken : ∀ other ∈ p.inbox, other.asker ≠ some conn)
      (elsewhere : ∀ (j : HubID) (q : Proc), j ≠ i → s.hubs[j]? = some q → q.requests conn = [])
      (once : s.answered.count conn = 1)
      (stage : (∃ answer, s.replies conn = [answer] ∧ s.stages conn = .waiting i cmd) ∨
        s.replies conn = [] ∧ (s.stages conn).isOver = true) : Ledger s conn

theorem System.Ledger.congr (ledger : s.Ledger conn) (hubs : next.hubs = s.hubs)
    (stage : next.stages conn = s.stages conn) (replies : next.replies conn = s.replies conn)
    (count : next.answered.count conn = s.answered.count conn) : next.Ledger conn := by
  cases ledger with
  | unasked nowhere silent never early =>
      refine .unasked ?_ (replies.trans silent) (count.trans never) ?_
      · rwa [hubs]
      · rwa [stage]
  | pending waits found only stands elsewhere silent never =>
      refine .pending (stage.trans waits) ?_ only stands ?_ (replies.trans silent)
        (count.trans never)
      · rwa [hubs]
      · rwa [hubs]
  | @handled i p cmd found only taken elsewhere once ended =>
      have here : next.hubs[i]? = some p := by
        rw [hubs]
        exact found
      refine .handled here only taken ?_ (count.trans once) ?_
      · rwa [hubs]
      · rwa [replies, stage]

theorem System.Ledger.put (ledger : s.Ledger conn) (found : s.hubs[i]? = some p)
    (requests : after.requests conn = p.requests conn)
    (inbox : ∀ cmd, cmd.asker = some conn → (cmd ∈ after.inbox ↔ cmd ∈ p.inbox)) :
    (s.putHub i after).Ledger conn := by
  have nowhere : ∀ {j : HubID} {q : Proc}, (s.putHub i after).hubs[j]? = some q →
      ∃ old : Proc, s.hubs[j]? = some old ∧ q.requests conn = old.requests conn := by
    intro j q there
    rcases System.lookup_putHub found there with ⟨rfl, rfl⟩ | ⟨_, before⟩
    · exact ⟨p, found, requests⟩
    · exact ⟨q, before, rfl⟩
  have moved : ∀ {j : HubID} {q : Proc}, s.hubs[j]? = some q →
      ∃ new : Proc, (s.putHub i after).hubs[j]? = some new ∧ new.requests conn = q.requests conn ∧
        ∀ cmd, cmd.asker = some conn → (cmd ∈ new.inbox ↔ cmd ∈ q.inbox) := by
    intro j q there
    by_cases same : j = i
    · subst same
      cases found.symm.trans there
      exact ⟨after, System.lookup_putHub_self found, requests, inbox⟩
    · exact ⟨q, (System.lookup_putHub_ne after same).trans there, rfl, fun _ _ => Iff.rfl⟩
  have elsewhere : ∀ {k : HubID},
      (∀ (j : HubID) (q : Proc), j ≠ k → s.hubs[j]? = some q → q.requests conn = []) →
      ∀ (j : HubID) (q : Proc), j ≠ k → (s.putHub i after).hubs[j]? = some q → q.requests conn = [] := by
    intro k none j q differs there
    obtain ⟨old, before, same⟩ := nowhere there
    exact same.trans (none j old differs before)
  cases ledger with
  | unasked none silent never early =>
      refine .unasked (fun j q there => ?_) silent never early
      obtain ⟨old, before, same⟩ := nowhere there
      exact same.trans (none j old before)
  | @pending k q cmd waits there only stands others silent never =>
      obtain ⟨new, here, same, kept⟩ := moved there
      have asks : cmd.asker = some conn := by
        have member : cmd ∈ q.requests conn := by rw [only]; exact List.mem_singleton.mpr rfl
        exact of_decide_eq_true (List.mem_filter.mp member).2
      exact .pending waits here (same.trans only) ((kept cmd asks).mpr stands) (elsewhere others)
        silent never
  | @handled k q cmd there only taken others once ended =>
      obtain ⟨new, here, same, kept⟩ := moved there
      refine .handled here (same.trans only) ?_ (elsewhere others) once ended
      intro other member asks
      exact taken other ((kept other asks).mp member) asks

theorem System.Ledger.requests_le (ledger : s.Ledger conn) (found : s.hubs[i]? = some p) :
    (p.requests conn).length ≤ 1 := by
  cases ledger with
  | unasked nowhere _ _ _ =>
      rw [nowhere i p found]
      exact Nat.zero_le 1
  | @pending j q cmd _ there only _ elsewhere _ _
  | @handled j q cmd there only _ elsewhere _ _ =>
      by_cases same : i = j
      · subst same
        cases found.symm.trans there
        rw [only]
        exact Nat.le_refl 1
      · rw [elsewhere i p same found]
        exact Nat.zero_le 1

/-- The handlers' commands are their own, and the creator of a session waits. -/
structure System.Accounted (s : System) : Prop where
  ledger : ∀ conn, s.Ledger conn
  own : ∀ conn i cmd, s.stages conn = .sending i cmd → cmd.asker = some conn
  holder : ∀ conn i, s.creating = some (conn, i) → s.stages conn = .registering

theorem System.turn_same (s : System) (conn : ConnID) (stage : Stage) :
    (s.turn conn stage).stages conn = stage := by
  simp only [System.turn, Function.update_self]

variable {helloCodec : HelloCodec} {other : ConnID}

theorem System.turn_ne (s : System) (stage : Stage) (differs : other ≠ conn) :
    (s.turn conn stage).stages other = s.stages other := by
  simp only [System.turn, Function.update_of_ne differs]

theorem System.Ledger.turned {s next : System} {conn : ConnID} (ledger : s.Ledger conn)
    (hubs : next.hubs = s.hubs) (replies : next.replies conn = s.replies conn)
    (count : next.answered.count conn = s.answered.count conn)
    (waits : ∀ i cmd, s.stages conn ≠ .waiting i cmd)
    (asked : (s.stages conn).isAsked = false → (next.stages conn).isAsked = false)
    (ended : (s.stages conn).isOver = true → (next.stages conn).isOver = true) :
    next.Ledger conn := by
  cases ledger with
  | unasked nowhere silent never early =>
      refine .unasked ?_ (replies.trans silent) (count.trans never) (asked early)
      rwa [hubs]
  | pending waiting _ _ _ _ _ _ => exact absurd waiting (waits _ _)
  | @handled i p cmd found only taken elsewhere once stage =>
      have here : next.hubs[i]? = some p := by
        rw [hubs]
        exact found
      refine .handled here only taken ?_ (count.trans once) ?_
      · rwa [hubs]
      · rcases stage with ⟨_, _, waiting⟩ | ⟨silent, past⟩
        · exact absurd waiting (waits _ _)
        · exact Or.inr ⟨replies.trans silent, ended past⟩

theorem Stage.Turns.class {r : Registry} {before after : Stage}
    (turns : Stage.Turns r conn before after) :
    (∀ i cmd, before ≠ .waiting i cmd) ∧ (before.isAsked = false → after.isAsked = false) ∧
      (before.isOver = true → after.isOver = true) ∧ before ≠ .registering ∧
        ∀ i cmd, after = .sending i cmd → cmd.asker = some conn := by
  cases turns with
  | read request =>
      refine ⟨by simp, fun _ => ?_, fun ended => (by cases ended), by simp, ?_⟩
      · cases request with
        | _ => rfl
      · intro i cmd same
        cases request with
        | _ => cases same
  | denied code msg => exact ⟨by simp, fun _ => rfl, fun _ => rfl, by simp, by simp⟩
  | found entry asks joins =>
      refine ⟨by simp, fun _ => rfl, fun ended => (by cases ended), by simp, ?_⟩
      intro i cmd same
      cases same
      exact asks
  | missed => exact ⟨by simp, fun _ => rfl, fun _ => rfl, by simp, by simp⟩
  | spoke => exact ⟨by simp, id, fun _ => rfl, by simp, by simp⟩
  | left => exact ⟨by simp, fun _ => rfl, fun _ => rfl, by simp, by simp⟩

theorem Stage.onAnswer_isOver (i : HubID) (cmd : Cmd) (answer : Answer) :
    (Stage.onAnswer i cmd answer).isOver = true ∧
      (∀ j other, Stage.onAnswer i cmd answer ≠ .sending j other) := by
  unfold Stage.onAnswer
  split
  · split
    · exact ⟨rfl, by simp⟩
    · exact ⟨rfl, by simp⟩
  · split
    · exact ⟨rfl, by simp⟩
    · exact ⟨rfl, by simp⟩
  · exact ⟨rfl, by simp⟩

theorem Proc.Apart.requests (apart : p.Apart after) (conn : ConnID) :
    after.requests conn = p.requests conn := by
  obtain ⟨new, inbox, plain⟩ := apart.appended
  have nothing : new.filter (fun cmd => decide (cmd.asker = some conn)) = [] := by
    refine List.filter_eq_nil_iff.mpr (fun cmd member => ?_)
    rw [plain cmd member]
    simp
  simp only [Proc.requests, Proc.received, apart.history, inbox, List.filter_append, nothing,
    List.append_nil]

theorem Proc.Apart.mem_inbox (apart : p.Apart after) (asks : cmd.asker = some conn) :
    cmd ∈ after.inbox ↔ cmd ∈ p.inbox := by
  obtain ⟨new, inbox, plain⟩ := apart.appended
  rw [inbox, List.mem_append]
  refine ⟨fun member => member.resolve_right (fun late => ?_), Or.inl⟩
  rw [plain cmd late] at asks
  cases asks

theorem System.Ledger.add (ledger : s.Ledger conn) {started : Proc}
    (nothing : started.requests conn = []) :
    System.Ledger { s with hubs := s.hubs ++ [started] } conn := by
  have new : ∀ {j : HubID} {q : Proc}, (s.hubs ++ [started])[j]? = some q →
      s.hubs[j]? = some q ∨ q.requests conn = [] := by
    intro j q there
    rcases lookup_started there with before | ⟨_, rfl⟩
    · exact Or.inl before
    · exact Or.inr nothing
  have elsewhere : ∀ {k : HubID},
      (∀ (j : HubID) (q : Proc), j ≠ k → s.hubs[j]? = some q → q.requests conn = []) →
      ∀ (j : HubID) (q : Proc), j ≠ k → (s.hubs ++ [started])[j]? = some q →
        q.requests conn = [] := by
    intro k none j q differs there
    rcases new there with before | empty
    · exact none j q differs before
    · exact empty
  cases ledger with
  | unasked nowhere silent never early =>
      refine .unasked (fun j q there => ?_) silent never early
      rcases new there with before | empty
      · exact nowhere j q before
      · exact empty
  | pending waits found only stands others silent never =>
      exact .pending waits (lookup_before_started started found) only stands (elsewhere others) silent never
  | handled found only taken others once settled =>
      exact .handled (lookup_before_started started found) only taken (elsewhere others) once settled

theorem System.Accounted.turn (accounted : s.Accounted)
    {stage : Stage} (hubs : next.hubs = s.hubs) (stages : next.stages = (s.turn conn stage).stages)
    (replies : next.replies = s.replies) (answered : next.answered = s.answered)
    (waits : ∀ i cmd, s.stages conn ≠ .waiting i cmd)
    (asked : (s.stages conn).isAsked = false → stage.isAsked = false)
    (ended : (s.stages conn).isOver = true → stage.isOver = true)
    (own : ∀ i cmd, stage = .sending i cmd → cmd.asker = some conn)
    (holder : ∀ other i, next.creating = some (other, i) →
      (s.turn conn stage).stages other = .registering) : next.Accounted := by
  refine
    { ledger := ?_
      own := ?_
      holder := ?_ }
  · intro other
    by_cases same : other = conn
    · subst same
      have turned : next.stages other = stage := by
        rw [stages]
        exact System.turn_same s other stage
      refine (accounted.ledger other).turned hubs (by rw [replies]) (by rw [answered]) waits ?_ ?_
      · rw [turned]
        exact asked
      · rw [turned]
        exact ended
    · refine (accounted.ledger other).congr hubs ?_ (by rw [replies]) (by rw [answered])
      rw [stages]
      exact System.turn_ne s stage same
  · intro other i cmd sends
    rw [stages] at sends
    by_cases same : other = conn
    · subst same
      rw [System.turn_same] at sends
      exact own i cmd sends
    · rw [System.turn_ne s stage same] at sends
      exact accounted.own other i cmd sends
  · intro other i holds
    rw [stages]
    exact holder other i holds

theorem System.Accounted.put (accounted : s.Accounted) (found : s.hubs[i]? = some p)
    (requests : ∀ conn, after.requests conn = p.requests conn)
    (inbox : ∀ cmd conn, cmd.asker = some conn → (cmd ∈ after.inbox ↔ cmd ∈ p.inbox)) :
    (s.putHub i after).Accounted :=
  { accounted with
    ledger := fun conn =>
      (accounted.ledger conn).put found (requests conn) (fun cmd asks => inbox cmd conn asks) }

theorem System.Ledger.hear (ledger : s.Ledger conn)
    {answer : Answer} {rest : List Answer} (waits : s.stages conn = .waiting i cmd)
    (channel : s.replies conn = answer :: rest) (hubs : next.hubs = s.hubs)
    (stage : next.stages conn = .onAnswer i cmd answer) (replies : next.replies conn = rest)
    (count : next.answered.count conn = s.answered.count conn) : next.Ledger conn := by
  cases ledger with
  | unasked _ _ _ early =>
      rw [waits] at early
      cases early
  | pending _ _ _ _ _ silent _ =>
      rw [channel] at silent
      cases silent
  | @handled j p other found only taken elsewhere once settled =>
      have here : next.hubs[j]? = some p := by
        rw [hubs]
        exact found
      refine .handled here only taken ?_ (count.trans once) (Or.inr ⟨?_, ?_⟩)
      · rwa [hubs]
      · rcases settled with ⟨_, single, _⟩ | ⟨silent, _⟩
        · cases channel.symm.trans single
          exact replies
        · rw [channel] at silent
          cases silent
      · rw [stage]
        exact (Stage.onAnswer_isOver i cmd answer).1

theorem System.Accounted.hear (accounted : s.Accounted) {answer : Answer} {rest : List Answer}
    (waits : s.stages conn = .waiting i cmd) (channel : s.replies conn = answer :: rest) :
    System.Accounted { s.turn conn (.onAnswer i cmd answer) with
      replies := Function.update s.replies conn rest } := by
  refine
    { ledger := ?_
      own := ?_
      holder := ?_ }
  · intro other
    by_cases same : other = conn
    · subst same
      exact (accounted.ledger other).hear waits channel rfl (System.turn_same s other _)
        (Function.update_self other rest s.replies) rfl
    · exact (accounted.ledger other).congr rfl (System.turn_ne s _ same)
        (Function.update_of_ne same rest s.replies) rfl
  · intro other j sent sends
    by_cases same : other = conn
    · subst same
      exact absurd ((System.turn_same s other _).symm.trans sends)
        ((Stage.onAnswer_isOver i cmd answer).2 j sent)
    · exact accounted.own other j sent ((System.turn_ne s _ same).symm.trans sends)
  · intro other j holds
    have registering := accounted.holder other j holds
    have differs : other ≠ conn := by
      rintro rfl
      cases waits.symm.trans registering
    exact (System.turn_ne s _ differs).trans registering

theorem System.Accounted.quiet (s next : System) (accounted : s.Accounted)
    (moved : s.Quiet next) : next.Accounted := by
  cases moved with
  | @turned conn stage turns =>
      obtain ⟨waits, asked, ended, idle, own⟩ := turns.class
      refine accounted.turn rfl rfl rfl rfl waits asked ended own ?_
      intro other i holds
      have registering := accounted.holder other i holds
      have differs : other ≠ conn := by
        rintro rfl
        exact idle registering
      exact (System.turn_ne s stage differs).trans registering
  | @began conn sid maxParticipants free asks vacant =>
      have added : System.Accounted { s with hubs := s.hubs ++
          [.started sid s.now conn (newHub maxParticipants s.registry.grace)] } :=
        { accounted with ledger := fun other => (accounted.ledger other).add rfl }
      refine added.turn rfl rfl rfl rfl ?_ (fun _ => rfl) ?_ (fun i cmd same => by cases same) ?_
      · intro i cmd waits
        cases asks.symm.trans waits
      · intro ended
        simp only [asks] at ended
        cases ended
      · intro other i holds
        cases holds
        exact System.turn_same _ conn .registering
  | @stored conn i p token holds found =>
      have registering := accounted.holder conn i holds
      refine accounted.turn rfl rfl rfl rfl ?_ (fun _ => rfl) ?_ ?_ (fun other j later => by cases later)
      · intro j cmd waits
        rw [registering] at waits
        cases waits
      · intro ended
        rw [registering] at ended
        cases ended
      · rintro j cmd same
        cases same
        rfl
  | @heard conn i cmd answer rest waits channel => exact accounted.hear waits channel
  | touched found apart =>
      exact accounted.put found apart.requests (fun cmd conn => apart.mem_inbox)
  | closed found leaving =>
      exact accounted.put found (fun conn => rfl) (fun cmd conn _ => Iff.rfl)
  | @emptied i p free found closed =>
      have put : (s.putHub i { p with phase := .ended }).Accounted :=
        accounted.put found (fun conn => rfl) (fun cmd conn _ => Iff.rfl)
      exact
        { put with ledger := fun conn => (put.ledger conn).congr rfl rfl rfl rfl }
  | swept expired now =>
      exact
        { accounted with ledger := fun conn => (accounted.ledger conn).congr rfl rfl rfl rfl }

theorem Proc.mem_requests (stands : cmd ∈ p.inbox) (asks : cmd.asker = some conn) :
    cmd ∈ p.requests conn :=
  List.mem_filter.mpr ⟨List.mem_append_right _ stands, decide_eq_true asks⟩

theorem Proc.requests_put (p : Proc) (asks : cmd.asker = some conn) :
    (p.put cmd).requests other =
      p.requests other ++ (if other = conn then [cmd] else []) := by
  have last : (p.put cmd).received = p.received ++ [cmd] := (List.append_assoc _ _ _).symm
  rw [Proc.requests, last, List.filter_append]
  refine congrArg (List.append _) ?_
  by_cases same : other = conn
  · simp [same, asks]
  · simp [same, asks, Ne.symm same]

theorem Proc.received_took (inbox : p.inbox = cmd :: rest) (hub : Hub) (effects : List Effect)
    (returned : Bool) :
    (p.took cmd rest hub effects returned).received = p.received := by
  simp only [Proc.received, Proc.took, inbox, List.map_append, List.map_cons, List.map_nil,
    List.append_assoc, List.cons_append, List.nil_append]

theorem System.Accounted.accept (accounted : s.Accounted) (accepts : s.Accepts conn i cmd p next) :
    next.Accounted := by
  have asks := accounted.own conn i cmd accepts.sends
  have found : (s.putHub i (p.put cmd)).hubs[i]? = some (p.put cmd) :=
    System.lookup_putHub_self accepts.found
  rw [accepts.result]
  refine
    { ledger := ?_
      own := ?_
      holder := ?_ }
  · intro other
    by_cases same : other = conn
    · subst same
      cases accounted.ledger other with
      | unasked nowhere silent never early =>
          refine .pending (System.turn_same _ other _) found ?_
            (List.mem_append_right _ (List.mem_singleton.mpr rfl)) ?_ silent never
          · rw [Proc.requests_put p asks, nowhere i p accepts.found, if_pos rfl, List.nil_append]
          · intro j q differs there
            exact nowhere j q ((System.lookup_putHub_ne _ differs).symm.trans there)
      | pending waits _ _ _ _ _ _ => cases accepts.sends.symm.trans waits
      | handled _ _ _ _ _ settled =>
          rcases settled with ⟨_, _, waits⟩ | ⟨_, ended⟩
          · cases accepts.sends.symm.trans waits
          · rw [accepts.sends] at ended
            cases ended
    · have put : (s.putHub i (p.put cmd)).Ledger other := by
        refine (accounted.ledger other).put accepts.found ?_ ?_
        · rw [Proc.requests_put p asks, if_neg same, List.append_nil]
        · intro sent own
          refine ⟨fun member => ?_, List.mem_append_left _⟩
          rcases List.mem_append.mp member with before | new
          · exact before
          · rw [List.mem_singleton.mp new, asks] at own
            exact absurd (Option.some.inj own).symm same
      exact put.congr rfl (System.turn_ne _ _ same) rfl rfl
  · intro other j sent sends
    by_cases same : other = conn
    · subst same
      cases (System.turn_same _ other _).symm.trans sends
    · exact accounted.own other j sent ((System.turn_ne _ _ same).symm.trans sends)
  · intro other j holds
    have registering := accounted.holder other j holds
    have differs : other ≠ conn := by
      rintro rfl
      cases accepts.sends.symm.trans registering
    exact (System.turn_ne _ _ differs).trans registering

theorem filter_tail_of_singleton {Value : Type} {keep : Value → Bool} {early late : List Value}
    {value only : Value} (single : (early ++ value :: late).filter keep = [only])
    (kept : keep value = true) : ∀ later ∈ late, keep later = false := by
  rw [List.filter_append, List.filter_cons_of_pos kept] at single
  have lengths := congrArg List.length single
  simp only [List.length_append, List.length_cons, List.length_nil] at lengths
  have none : (late.filter keep).length = 0 := by omega
  intro later member
  have dropped := List.filter_eq_nil_iff.mp (List.length_eq_zero_iff.mp none) later member
  exact Bool.eq_false_iff.mpr dropped

theorem System.Ledger.answer (ledger : s.Ledger conn) (found : s.hubs[i]? = some p)
    (inbox : p.inbox = cmd :: rest) (asks : cmd.asker = some conn) (hub : Hub)
    (effects : List Effect) (returned : Bool) (answer : Answer) :
    System.Ledger ((s.putHub i (p.took cmd rest hub effects returned)).deliver [(conn, answer)])
      conn := by
  have stands : cmd ∈ p.inbox := by
    rw [inbox]
    exact List.mem_cons_self
  have request := Proc.mem_requests stands asks
  cases ledger with
  | unasked nowhere _ _ _ =>
      rw [nowhere i p found] at request
      cases request
  | @handled j q other there only taken elsewhere _ _ =>
      by_cases same : i = j
      · subst same
        cases found.symm.trans there
        exact absurd asks (taken cmd stands)
      · rw [elsewhere i p same found] at request
        cases request
  | @pending j q other waits there only _ elsewhere silent never =>
      by_cases same : i = j
      · subst same
        cases found.symm.trans there
        rw [only] at request
        cases List.mem_singleton.mp request
        have requests : (p.took cmd rest hub effects returned).requests conn = [cmd] := by
          rw [Proc.requests, Proc.received_took inbox]
          exact only
        refine .handled (System.lookup_putHub_self found) requests ?_ ?_ ?_ (Or.inl ⟨answer, ?_, waits⟩)
        · intro later member own
          rw [Proc.requests, Proc.received, inbox] at only
          have other := filter_tail_of_singleton only (decide_eq_true asks) later member
          exact of_decide_eq_false other own
        · intro k r differs here
          exact elsewhere k r differs ((System.lookup_putHub_ne _ differs).symm.trans here)
        · simp only [System.deliver, System.putHub, List.map_cons, List.map_nil, List.count_append,
            never, List.count_singleton_self]
        · simp [System.deliver, System.putHub, silent]
      · rw [elsewhere i p same found] at request
        cases request

theorem System.Accounted.serve (accounted : s.Accounted) {hub : Hub}
    (serves : System.Serves codec s i order p cmd rest hub effects returned next) :
    next.Accounted := by
  have requests : ∀ conn, (p.took cmd rest hub effects returned).requests conn = p.requests conn := by
    intro conn
    rw [Proc.requests, Proc.received_took serves.inbox]
    rfl
  have inbox : ∀ conn, cmd.asker ≠ some conn → ∀ other : Cmd, other.asker = some conn →
      (other ∈ (p.took cmd rest hub effects returned).inbox ↔ other ∈ p.inbox) := by
    intro conn differs other asks
    rw [serves.inbox, List.mem_cons]
    refine ⟨Or.inr, fun member => member.resolve_left ?_⟩
    rintro rfl
    exact differs asks
  rw [serves.result]
  refine
    { accounted with ledger := ?_ }
  intro conn
  rcases handle_answers serves.handled with ⟨none, plain⟩ | ⟨asker, answer, asks, one⟩
  · have put := (accounted.ledger conn).put serves.found (requests conn)
      (inbox conn (by rw [plain]; intro never; cases never))
    rw [none]
    exact put.congr rfl rfl (List.append_nil _) (by simp [System.deliver])
  · rw [one]
    by_cases same : asker = conn
    · subst same
      exact (accounted.ledger asker).answer serves.found serves.inbox asks hub effects returned answer
    · have differs : cmd.asker ≠ some conn := by
        rw [asks]
        exact fun equal => same (Option.some.inj equal)
      have put := (accounted.ledger conn).put serves.found (requests conn) (inbox conn differs)
      refine put.congr rfl rfl ?_ ?_
      · simp [System.deliver, same]
      · simp [System.deliver, List.count_append, same]

theorem System.accounted_step (codec : Codec) (helloCodec : HelloCodec) (s : System)
    (event : Event) (next : System) (accounted : s.Accounted)
    (stepped : System.step codec helloCodec s event = some next) : next.Accounted := by
  rcases System.step_cases stepped with
    ⟨conn, i, cmd, p, rfl, accepts⟩ |
      ⟨i, order, p, cmd, rest, hub, effects, returned, rfl, serves⟩ | moved
  · exact accounted.accept accepts
  · exact accounted.serve serves
  · exact System.quiet_invariant System.Accounted.quiet moved accounted

theorem System.start_accounted (maxSessions maxAge grace maxParticipants : Nat) :
    (System.start maxSessions maxAge grace maxParticipants).Accounted :=
  { ledger := fun conn => .unasked (fun i p found => by cases found) rfl rfl rfl
    own := fun conn i cmd sends => by cases sends
    holder := fun conn i holds => by cases holds }

/-! ### Nobody waits for ever -/

/-- A hello's command is accepted only while the run loop goes on, and when the
loop returns none is left behind in the inbox. -/
def System.prompt (codec : Codec) (s : System) : Event → Bool
  | .send conn .inbox =>
      match s.stages conn with
      | .sending i _ => (s.hubs[i]?).all (fun p => decide (p.phase = .running))
      | _ => true
  | .serve i order =>
      (s.hubs[i]?).all (fun p =>
        match p.inbox with
        | [] => true
        | cmd :: rest =>
            (handle codec order p.hub cmd).all (fun done =>
              !done.2.2 || rest.all (fun other => other.asker.isNone)))
  | _ => true

/-- No command that somebody waits for is in the inbox of a loop that returned. -/
def System.Attended (s : System) : Prop :=
  ∀ (i : HubID) (p : Proc), s.hubs[i]? = some p → p.phase ≠ .running →
    ∀ cmd ∈ p.inbox, cmd.asker = none

theorem System.Attended.put (attended : s.Attended) (found : s.hubs[i]? = some p)
    (still : after.phase ≠ .running → ∀ cmd ∈ after.inbox, cmd.asker = none) :
    (s.putHub i after).Attended := by
  intro j q there
  rcases System.lookup_putHub found there with ⟨rfl, rfl⟩ | ⟨_, before⟩
  · exact still
  · exact attended j q before

theorem System.Attended.quiet (s next : System) (attended : s.Attended)
    (moved : s.Quiet next) : next.Attended := by
  cases moved with
  | turned turns => exact attended
  | began free asks vacant =>
      intro j q there stopped
      rcases lookup_started there with before | ⟨_, rfl⟩
      · exact attended j q before stopped
      · exact absurd rfl stopped
  | stored token holds found => exact attended
  | heard waits channel => exact attended
  | touched found apart =>
      refine attended.put found (fun stopped cmd member => ?_)
      obtain ⟨new, inbox, plain⟩ := apart.appended
      rw [inbox] at member
      rw [apart.phase] at stopped
      rcases List.mem_append.mp member with before | late
      · exact attended _ _ found stopped cmd before
      · exact plain cmd late
  | @closed i p found leaving =>
      have stopped : p.phase ≠ .running := by
        rw [leaving]
        exact fun never => by cases never
      exact attended.put found (fun _ => attended i p found stopped)
  | @emptied i p free found closed =>
      have stopped : p.phase ≠ .running := by
        rw [closed]
        exact fun never => by cases never
      exact attended.put found (fun _ => attended i p found stopped)
  | swept expired now => exact attended

theorem System.attended_step (s : System) (event : Event) (next : System) (attended : s.Attended)
    (prompt : s.prompt codec event = true)
    (stepped : System.step codec helloCodec s event = some next) : next.Attended := by
  rcases System.step_cases stepped with
    ⟨conn, i, cmd, p, rfl, accepts⟩ |
      ⟨i, order, p, cmd, rest, hub, effects, returned, rfl, serves⟩ | moved
  · simp only [System.prompt, accepts.sends, accepts.found, Option.all_some, decide_eq_true_eq]
      at prompt
    rw [accepts.result]
    exact attended.put accepts.found (fun stopped => absurd prompt stopped)
  · simp only [System.prompt, serves.found, serves.inbox, serves.handled, Option.all_some,
      Bool.or_eq_true, Bool.not_eq_true', List.all_eq_true, Option.isNone_iff_eq_none] at prompt
    rw [serves.result]
    refine attended.put serves.found (fun stopped => ?_)
    rcases prompt with going | clear
    · rw [going] at stopped
      exact absurd rfl stopped
    · exact clear
  · exact System.quiet_invariant System.Attended.quiet moved attended

/-- No handler waits on a hub whose run loop has returned unless its reply is
there.  Each accepted command has its one reply or stands in the inbox of a run
loop that can take a step. -/
structure System.Responsive (codec : Codec) (helloCodec : HelloCodec) (s : System) : Prop where
  unstuck : ∀ conn i cmd p, s.stages conn = .waiting i cmd → s.hubs[i]? = some p →
    p.phase ≠ .running → s.replies conn ≠ []
  waiting : ∀ conn i cmd, s.stages conn = .waiting i cmd →
    (∃ answer, s.replies conn = [answer] ∧ s.answered.count conn = 1) ∨
      (s.replies conn = [] ∧ s.answered.count conn = 0 ∧
        ∃ p, s.hubs[i]? = some p ∧ p.phase = .running ∧ cmd ∈ p.inbox ∧
          ∀ order, (System.step codec helloCodec s (.serve i order)).isSome = true)
  served : ∀ conn i id gen, s.stages conn = .serving i id gen → s.answered.count conn = 1
  single : ∀ conn, s.answered.count conn ≤ 1

theorem System.serve_isSome (codec : Codec) (found : s.hubs[i]? = some p)
    (running : p.phase = .running) (stands : cmd ∈ p.inbox) (order : Order) :
    (s.serve codec i order).isSome = true := by
  cases inbox : p.inbox with
  | nil =>
      rw [inbox] at stands
      cases stands
  | cons first rest =>
      simp only [System.serve, found, Option.bind_some, running, ne_eq, not_true_eq_false, if_false,
        inbox, Option.isSome_map]
      exact handle_isSome codec order p.hub first

theorem System.Accounted.responsive (accounted : s.Accounted) (attended : s.Attended) :
    System.Responsive codec helloCodec s := by
  have waiting : ∀ conn i cmd, s.stages conn = .waiting i cmd →
      (∃ answer, s.replies conn = [answer] ∧ s.answered.count conn = 1) ∨
        (s.replies conn = [] ∧ s.answered.count conn = 0 ∧
          ∃ p, s.hubs[i]? = some p ∧ p.phase = .running ∧ cmd ∈ p.inbox ∧
            ∀ order, (System.step codec helloCodec s (.serve i order)).isSome = true) := by
    intro conn i cmd waits
    cases accounted.ledger conn with
    | unasked _ _ _ early =>
        rw [waits] at early
        cases early
    | @pending j p other waited found only stands _ silent never =>
        cases waits.symm.trans waited
        have asks : cmd.asker = some conn := by
          have member : cmd ∈ p.requests conn := by
            rw [only]
            exact List.mem_singleton.mpr rfl
          exact of_decide_eq_true (List.mem_filter.mp member).2
        have running : p.phase = .running := by
          by_contra stopped
          have unasked := attended i p found stopped cmd stands
          rw [asks] at unasked
          cases unasked
        exact Or.inr ⟨silent, never, p, found, running, stands,
          System.serve_isSome codec found running stands⟩
    | handled _ _ _ _ once settled =>
        rcases settled with ⟨answer, single, _⟩ | ⟨_, ended⟩
        · exact Or.inl ⟨answer, single, once⟩
        · rw [waits] at ended
          cases ended
  refine
    { unstuck := ?_
      waiting := waiting
      served := ?_
      single := ?_ }
  · intro conn i cmd p waits found stopped silent
    rcases waiting conn i cmd waits with ⟨answer, single, _⟩ | ⟨_, _, q, there, running, _⟩
    · rw [silent] at single
      cases single
    · cases found.symm.trans there
      exact stopped running
  · intro conn i id gen serving
    cases accounted.ledger conn with
    | unasked _ _ _ early =>
        rw [serving] at early
        cases early
    | pending waits _ _ _ _ _ _ => cases serving.symm.trans waits
    | handled _ _ _ _ once _ => exact once
  · intro conn
    cases accounted.ledger conn with
    | unasked _ _ never _ | pending _ _ _ _ _ _ never =>
        exact Nat.le_trans (Nat.le_of_eq never) (Nat.zero_le 1)
    | handled _ _ _ _ once _ => exact Nat.le_of_eq once

/-- In every interleaving in which no command of a hello is accepted by a loop
that has returned or left behind by one that returns, each of them is answered. -/
theorem accepted_hellos_answered (codec : Codec) (helloCodec : HelloCodec)
    (maxSessions maxAge grace maxParticipants : Nat) (events : List Event) (s : System)
    (prompt : Along (System.step codec helloCodec) (fun s event => s.prompt codec event = true)
      (System.start maxSessions maxAge grace maxParticipants) events)
    (reached : run (System.step codec helloCodec)
      (System.start maxSessions maxAge grace maxParticipants) events = some s) :
    System.Responsive codec helloCodec s := by
  have accounted := run_invariant' (System.accounted_step codec helloCodec)
    (System.start_accounted maxSessions maxAge grace maxParticipants) reached
  have initial : (System.start maxSessions maxAge grace maxParticipants).Attended :=
    fun i p found => by cases found
  exact accounted.responsive (run_invariant System.attended_step initial prompt reached)

/-- A visitor has its reply in the channel when the sweeper's command ends the
hub. -/
def sweptWhileWaiting : List Event :=
  [.opened 0 (.frame .createSession [7]), .greet 0 [1], .store 0 [1], .send 0 .inbox,
    .serve 0 .stored, .hear 0, .opened 1 (.frame .joinSession [7]), .greet 1 [2], .send 1 .inbox,
    .tick, .sweep [0], .serve 0 .stored, .sweepSend .inbox, .serve 0 .stored, .closeDone 0]

theorem sweptWhileWaiting_answered :
    ∃ s p cmd, run (System.step cborCodec shortHello) (System.start 2 0 30 16)
        sweptWhileWaiting = some s ∧ s.stages 1 = .waiting 0 cmd ∧ s.hubs[0]? = some p ∧
      p.isDone = true ∧ s.replies 1 ≠ [] := by
  have finished : (run (System.step cborCodec shortHello) (System.start 2 0 30 16)
      sweptWhileWaiting).any (fun s =>
        decide (s.stages 1 = .waiting 0 (.join 1 false [2])) &&
          (s.hubs[0]?).any (fun p => decide (p.phase = .closed))) = true := by
    decide +kernel
  have prompt : Along (System.step cborCodec shortHello)
      (fun s event => s.prompt cborCodec event = true) (System.start 2 0 30 16)
      sweptWhileWaiting := by
    decide +kernel
  obtain ⟨s, reached, state⟩ := (Option.any_eq_true _ _).mp finished
  obtain ⟨waits, hub⟩ := Bool.and_eq_true_iff.mp state
  obtain ⟨p, found, closed⟩ := (Option.any_eq_true _ _).mp hub
  have closed : p.phase = .closed := of_decide_eq_true closed
  have responsive := accepted_hellos_answered cborCodec shortHello 2 0 30 16 sweptWhileWaiting s
    prompt reached
  refine ⟨s, p, _, reached, of_decide_eq_true waits, found, by simp [Proc.isDone, closed], ?_⟩
  exact responsive.unstuck 1 0 _ p (of_decide_eq_true waits) found (by simp [closed])

/-- A join is accepted behind the last leave: its handler waits on a terminated
hub for a reply that nobody will send. -/
theorem join_behind_last_leave_unanswered :
    ¬∀ (codec : Codec) (helloCodec : HelloCodec) (maxSessions maxAge grace maxParticipants : Nat)
      (events : List Event) (s : System),
      run (System.step codec helloCodec) (System.start maxSessions maxAge grace maxParticipants)
          events = some s →
        ∀ (conn : ConnID) (i : HubID) (cmd : Cmd) (p : Proc), s.stages conn = .waiting i cmd →
          s.hubs[i]? = some p → p.isDone = true → s.replies conn ≠ [] := by
  intro claimed
  have finished : (run (System.step cborCodec shortHello) (System.start 2 100 30 16)
      [.opened 0 (.frame .createSession [7]), .greet 0 [1], .store 0 [1], .send 0 .inbox,
        .serve 0 .stored, .hear 0, .opened 1 (.frame .joinSession [7]), .greet 1 [2],
        .speak 0 (.leave 1 1 false) .inbox, .send 1 .inbox, .serve 0 .stored, .closeDone 0,
        .onEmpty 0]).any (fun s =>
        decide (s.stages 1 = .waiting 0 (.join 1 false [2]) ∧ s.replies 1 = []) &&
          (s.hubs[0]?).any (fun p => p.isDone)) = true := by
    decide +kernel
  obtain ⟨s, reached, state⟩ := (Option.any_eq_true _ _).mp finished
  obtain ⟨stuck, hub⟩ := Bool.and_eq_true_iff.mp state
  obtain ⟨p, found, terminated⟩ := (Option.any_eq_true _ _).mp hub
  obtain ⟨waits, silent⟩ := of_decide_eq_true stuck
  exact claimed cborCodec shortHello 2 100 30 16 _ s reached 1 0 _ p waits found terminated silent

end Parley.Relay
