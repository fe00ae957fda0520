/-
The creator of a session is its first participant and its host.

The hub gives out ids from 1 in the order in which the joins reach it and takes 1
to be the host until somebody claims the role.  So the creator is the host exactly
if its join is the first one to be accepted, which the registry does not ensure:
the entry is there before the creator's join is sent.
-/

import Parley.Relay.Admission

namespace Parley.Relay

open Wire Library
open Relation (ReflTransGen)

variable {effects : List Effect} {codec : Codec} {returned : Bool} {cmd : Cmd} {order : Order}
  {after h : Hub} {q : ParticipantID} {p : Proc} {body : Body}

theorem hello_notMem (hello : helloToken body ≠ none)
    (nothing : ∀ effect ∈ effects, effect.grantsNothing = true) :
    .queued q body ∉ effects := by
  intro member
  have silent := nothing _ member
  simp only [Effect.grantsNothing, Option.isNone_iff_eq_none] at silent
  exact hello silent

theorem Served.greets (served : Served codec h cmd after effects returned)
    (sent : .queued q body ∈ effects) (hello : helloToken body ≠ none) :
    (∃ conn isCreate token visit, cmd = .join conn isCreate token ∧ q = h.nextID ∧
      body = helloReply h visit isCreate h.nextID token) ∨
      ∃ token conn visit, cmd = .resume q token conn ∧ q ∈ h.clients ∧
        body = helloReply h visit false q token := by
  have plain : ∀ {effects : List Effect}, (∀ effect ∈ effects, effect.grantsNothing = true) →
      .queued q body ∉ effects := hello_notMem hello
  cases served with
  | ignored idle =>
      exact absurd sent (plain (fun effect member =>
        Effect.grantsNothing_of_isIdle (idle effect member)))
  | unencoded refused =>
      cases List.mem_singleton.mp sent
  | @admitted conn isCreate token visit frame after effects perm room encoded notice =>
      rcases List.mem_cons.mp sent with first | later
      · cases first
        exact Or.inl ⟨conn, isCreate, token, visit, rfl, rfl, rfl⟩
      · rcases List.mem_cons.mp later with reply | rest
        · cases reply
        · exact absurd rest (plain (notice.grantsNothing rfl))
  | held found live current graced => cases sent
  | left found live current final removal => exact absurd sent (plain removal.grantsNothing)
  | expired found waiting current removal => exact absurd sent (plain removal.grantsNothing)
  | @resumed id token conn c visit frame perm found authentic encoded =>
      rcases List.mem_append.mp sent with kick | own
      · refine absurd kick (plain (fun effect member => ?_))
        split at member
        · cases member
        · rw [List.mem_singleton.mp member]
          rfl
      · rcases List.mem_cons.mp own with first | reply
        · cases first
          exact Or.inr ⟨token, conn, visit, rfl, mem_of_lookup found, by rw [authentic]⟩
        · cases List.mem_singleton.mp reply
  | claimed found => cases sent
  | complained answer => exact absurd sent (plain (answer.grantsNothing rfl))
  | directed decoded forwarded | broadcast decoded forwarded =>
      exact absurd sent (plain (forwarded.grantsNothing rfl))
  | closing notice => exact absurd sent (plain (notice.grantsNothing rfl))

theorem handle_greets (handled : handle codec order h cmd = some (after, effects, returned))
    (sent : .queued q body ∈ effects) (hello : helloToken body ≠ none) :
    (∃ conn isCreate token visit, cmd = .join conn isCreate token ∧ q = h.nextID ∧
      body = helloReply h visit isCreate h.nextID token) ∨
      ∃ token conn visit, cmd = .resume q token conn ∧ q ∈ h.clients ∧
        body = helloReply h visit false q token := by
  have plain : ∀ {effects : List Effect}, (∀ effect ∈ effects, effect.grantsNothing = true) →
      .queued q body ∉ effects := hello_notMem hello
  rcases handle_served handled with
    ⟨early, served, rfl, _⟩ | ⟨middle, early, late, served, drained, rfl⟩
  · rcases List.mem_append.mp sent with own | last
    · exact served.greets own hello
    · exact absurd last (plain (shutdown_grantsNothing after))
  · rcases List.mem_append.mp sent with before | last
    · rcases List.mem_append.mp before with own | evicted
      · exact served.greets own hello
      · exact absurd evicted (plain drained.grantsNothing)
    · split at last
      · exact absurd last (plain (shutdown_grantsNothing after))
      · cases last

theorem handle_created (handled : handle codec order h cmd = some (after, effects, returned))
    {id : ParticipantID} {token : Bytes} (sent : .queued q (.sessionCreated id token) ∈ effects) :
    (∃ conn, cmd = .join conn true token) ∧ id = h.nextID := by
  rcases handle_greets handled sent (fun never => by cases never) with
    ⟨conn, isCreate, given, visit, rfl, _, same⟩ | ⟨given, conn, visit, rfl, _, same⟩
  · cases isCreate with
    | true =>
        simp only [helloReply, if_true, Body.sessionCreated.injEq] at same
        obtain ⟨rfl, rfl⟩ := same
        exact ⟨⟨conn, rfl⟩, rfl⟩
    | false => cases same
  · cases same

theorem handle_joinResult (handled : handle codec order h cmd = some (after, effects, returned))
    {result : JoinResult} (sent : .queued q (.joinResult result) ∈ effects) :
    result.hostID = h.host := by
  rcases handle_greets handled sent (fun never => by cases never) with
    ⟨conn, isCreate, given, visit, rfl, _, same⟩ | ⟨given, conn, visit, rfl, _, same⟩
  · cases isCreate with
    | true => cases same
    | false =>
        cases same
        rfl
  · cases same
    rfl

variable {rest : List Cmd} {conn : ConnID}

theorem handle_joinReply (handled : handle codec order h cmd = some (after, effects, returned))
    {reply : JoinReply} (sent : .joinReply conn reply ∈ effects) (ok : reply.ok = true) :
    reply.id = h.nextID := by
  have issued : reply.id ∈ issuedIDs effects :=
    List.mem_filterMap.mpr ⟨_, sent, by simp [ok]⟩
  obtain ⟨base, outcome, _⟩ := handle_outcome handled
  cases outcome with
  | kept nothing =>
      rw [nothing.issues] at issued
      cases issued
  | joined issues _ _ =>
      rw [issues] at issued
      exact List.mem_singleton.mp issued
  | held _ nothing =>
      rw [nothing.issues] at issued
      cases issued
  | resumed _ _ issues _ _ _ =>
      rw [issues] at issued
      cases issued

theorem handle_host (handled : handle codec order h cmd = some (after, effects, returned))
    (unclaimed : ∀ id, cmd ≠ .claimHost id) : after.host = h.host := by
  rcases handle_served handled with
    ⟨early, served, rfl, _⟩ | ⟨middle, early, late, served, drained, rfl⟩
  · exact served.kept.2 unclaimed
  · exact (Hub.host_of_header drained.header).trans (served.kept.2 unclaimed)

theorem handle_counter (handled : handle codec order h cmd = some (after, effects, returned))
    (still : cmd.joinCount = 0) : after.nextID = h.nextID := by
  have counted : ∀ {middle : Hub} {early : List Effect} {finished : Bool},
      Served codec h cmd middle early finished → middle.nextID = h.nextID := by
    intro middle early finished served
    rcases served.issues with ⟨_, same⟩ | ⟨join, _⟩
    · exact same
    · rw [still] at join
      cases join
  rcases handle_served handled with
    ⟨early, served, rfl, _⟩ | ⟨middle, early, late, served, drained, rfl⟩
  · exact counted served
  · exact (Hub.nextID_of_header drained.header).trans (counted served)

/-- The creator is participant 1, and until the first claim every newcomer is told
that 1 is the host. -/
structure Proc.Founded (p : Proc) : Prop where
  created : ∀ entry ∈ p.history, ∀ q id token,
    .queued q (.sessionCreated id token) ∈ entry.2 → id = 1
  creator : ∀ entry ∈ p.history, ∀ conn token other reply, entry.1 = .join conn true token →
    .joinReply other reply ∈ entry.2 → reply.ok = true → reply.id = 1
  host : ∀ before entry after, p.history = before ++ entry :: after →
    (∀ earlier ∈ before, ∀ id, earlier.1 ≠ .claimHost id) →
      ∀ q result, .queued q (.joinResult result) ∈ entry.2 → result.hostID = 1

def Cmd.isCreate : Cmd → Bool
  | .join _ isCreate _ => isCreate
  | _ => false

/-- What the commands of a hub received so far say about its creator. -/
structure Proc.Led (p : Proc) : Prop where
  creates : ∀ cmd ∈ p.received, cmd.isCreate = true → cmd.asker = some p.creator
  first : ∀ cmd, p.received.find? (fun other => decide (other.joinCount = 1)) = some cmd →
    cmd.isCreate = true
  host : (∀ entry ∈ p.history, ∀ id, entry.1 ≠ .claimHost id) → p.hub.host = 1
  counter : (∀ entry ∈ p.history, entry.1.joinCount = 0) → p.hub.nextID = 1
  founded : p.Founded

theorem Cmd.joinCount_eq (cmd : Cmd) : cmd.joinCount = 0 ∨ cmd.joinCount = 1 := by
  cases cmd with
  | join conn isCreate token => exact Or.inr rfl
  | _ => exact Or.inl rfl

theorem Proc.Led.unjoined (led : p.Led) (inbox : p.inbox = cmd :: rest)
    (create : cmd.isCreate = true) (once : (p.requests p.creator).length ≤ 1) :
    ∀ entry ∈ p.history, entry.1.joinCount = 0 := by
  intro entry member
  rcases Cmd.joinCount_eq entry.1 with none | join
  · exact none
  · exfalso
    have taken : entry.1 ∈ p.history.map Prod.fst := List.mem_map.mpr ⟨entry, member, rfl⟩
    -- The first join of all is among the handled ones, and it is the creator's.
    have joined : ((p.history.map Prod.fst).find?
        (fun other => decide (other.joinCount = 1))).isSome = true :=
      List.find?_isSome.mpr ⟨entry.1, taken, decide_eq_true join⟩
    obtain ⟨opening, found⟩ := Option.isSome_iff_exists.mp joined
    have earlier : opening ∈ p.history.map Prod.fst := List.mem_of_find?_eq_some found
    have own : opening.isCreate = true := by
      refine led.first opening ?_
      rw [Proc.received, List.find?_append, found]
      rfl
    have asks : ∀ other ∈ p.received, other.isCreate = true →
        decide (other.asker = some p.creator) = true :=
      fun other received creates => decide_eq_true (led.creates other received creates)
    have handled : opening ∈ (p.history.map Prod.fst).filter
        (fun other => decide (other.asker = some p.creator)) :=
      List.mem_filter.mpr ⟨earlier, asks opening (List.mem_append_left _ earlier) own⟩
    have waiting : cmd ∈ p.inbox.filter
        (fun other => decide (other.asker = some p.creator)) := by
      have stands : cmd ∈ p.inbox := by
        rw [inbox]
        exact List.mem_cons_self
      exact List.mem_filter.mpr ⟨stands, asks cmd (List.mem_append_right _ stands) create⟩
    rw [Proc.requests, Proc.received, List.filter_append, List.length_append] at once
    have one := List.length_pos_of_mem handled
    have two := List.length_pos_of_mem waiting
    omega

theorem Proc.started_led (sid : SessionID) (now : Nat) (conn : ConnID)
    (maxParticipants grace : Nat) :
    (Proc.started sid now conn (newHub maxParticipants grace)).Led :=
  { creates := fun cmd member => by cases member
    first := fun cmd found => by cases found
    host := fun _ => rfl
    counter := fun _ => rfl
    founded :=
      { created := fun entry member => by cases member
        creator := fun entry member => by cases member
        host := fun before entry after split => by
          cases before with
          | nil => cases split
          | cons first rest => cases split } }

theorem Proc.Led.receive {after : Proc} (led : p.Led) {new : List Cmd}
    (received : after.received = p.received ++ new) (creator : after.creator = p.creator)
    (history : after.history = p.history)
    (hub : after.hub.nextID = p.hub.nextID ∧ after.hub.host = p.hub.host)
    (creates : ∀ cmd ∈ new, cmd.isCreate = true → cmd.asker = some p.creator)
    (first : p.received.find? (fun other => decide (other.joinCount = 1)) = none →
      ∀ cmd, new.find? (fun other => decide (other.joinCount = 1)) = some cmd →
        cmd.isCreate = true) : after.Led := by
  have founded := led.founded
  refine
    { creates := ?_
      first := ?_
      host := ?_
      counter := ?_
      founded :=
        { created := by rw [history]; exact founded.created
          creator := by rw [history]; exact founded.creator
          host := by rw [history]; exact founded.host } }
  · intro cmd member create
    rw [received] at member
    rw [creator]
    rcases List.mem_append.mp member with before | late
    · exact led.creates cmd before create
    · exact creates cmd late create
  · intro cmd found
    rw [received, List.find?_append] at found
    cases earlier : p.received.find? (fun other => decide (other.joinCount = 1)) with
    | none =>
        rw [earlier, Option.none_or] at found
        exact first earlier cmd found
    | some opening =>
        rw [earlier, Option.some_or] at found
        cases found
        exact led.first _ earlier
  · rw [history, hub.2]
    exact led.host
  · rw [history, hub.1]
    exact led.counter

theorem Cmd.plain_of_asker (plain : cmd.asker = none) :
    cmd.isCreate = false ∧ cmd.joinCount = 0 := by
  cases cmd with
  | join conn isCreate token => cases plain
  | _ => exact ⟨rfl, rfl⟩

theorem Proc.Led.apart {after : Proc} (led : p.Led) (apart : p.Apart after) : after.Led := by
  obtain ⟨new, inbox, plain⟩ := apart.appended
  have received : after.received = p.received ++ new := by
    simp only [Proc.received, apart.history, inbox, List.append_assoc]
  refine led.receive received apart.creator apart.history apart.counter ?_ ?_
  · intro cmd member create
    rw [(Cmd.plain_of_asker (plain cmd member)).1] at create
    cases create
  · intro _ cmd found
    have join : cmd.joinCount = 1 := by simpa using List.find?_some found
    rw [(Cmd.plain_of_asker (plain cmd (List.mem_of_find?_eq_some found))).2] at join
    cases join

theorem Proc.Led.moveOn (led : p.Led) (phase : Phase) :
    Proc.Led { p with phase := phase } :=
  led.receive (List.append_nil _).symm rfl rfl ⟨rfl, rfl⟩ (fun cmd member => by cases member)
    (fun _ cmd found => by cases found)

theorem Proc.Led.serve (led : p.Led) {hub : Hub} (inbox : p.inbox = cmd :: rest)
    (handled : handle codec order p.hub cmd = some (hub, effects, returned))
    (once : (p.requests p.creator).length ≤ 1) :
    (p.took cmd rest hub effects returned).Led := by
  have received := Proc.received_took inbox hub effects returned
  have founded := led.founded
  have member : ∀ {entry : Cmd × List Effect},
      entry ∈ (p.took cmd rest hub effects returned).history →
      entry ∈ p.history ∨ entry = (cmd, effects) := by
    intro entry there
    rcases List.mem_append.mp there with before | last
    · exact Or.inl before
    · exact Or.inr (List.mem_singleton.mp last)
  have own : (cmd, effects) ∈ (p.took cmd rest hub effects returned).history :=
    List.mem_append_right _ (List.mem_singleton.mpr rfl)
  have old : ∀ {entry : Cmd × List Effect}, entry ∈ p.history →
      entry ∈ (p.took cmd rest hub effects returned).history := List.mem_append_left _
  have opening : cmd.isCreate = true → p.hub.nextID = 1 :=
    fun create => led.counter (led.unjoined inbox create once)
  refine
    { creates := by rw [received]; exact led.creates
      first := by rw [received]; exact led.first
      host := ?_
      counter := ?_
      founded :=
        { created := ?_
          creator := ?_
          host := ?_ } }
  · intro unclaimed
    exact (handle_host handled (unclaimed _ own)).trans
      (led.host (fun entry there => unclaimed entry (old there)))
  · intro unjoined
    exact (handle_counter handled (unjoined _ own)).trans
      (led.counter (fun entry there => unjoined entry (old there)))
  · intro entry there q id token sent
    rcases member there with before | rfl
    · exact founded.created entry before q id token sent
    · obtain ⟨⟨conn, rfl⟩, same⟩ := handle_created handled sent
      exact same.trans (opening rfl)
  · intro entry there conn token other reply create sent ok
    rcases member there with before | rfl
    · exact founded.creator entry before conn token other reply create sent ok
    · have create : cmd.isCreate = true := by
        rw [show cmd = .join conn true token from create]
        rfl
      exact (handle_joinReply handled sent ok).trans (opening create)
  · intro before entry after split unclaimed q result sent
    rcases List.append_eq_append_iff.mp split with ⟨more, first, last⟩ | ⟨more, first, last⟩
    · cases more with
      | nil =>
          rw [List.append_nil] at first
          subst first
          cases last
          exact (handle_joinResult handled sent).trans (led.host unclaimed)
      | cons extra others =>
          have impossible := congrArg List.length last
          simp only [List.length_cons, List.length_append, List.length_nil] at impossible
          omega
    · cases more with
      | nil =>
          rw [List.append_nil] at first
          subst first
          cases last
          exact (handle_joinResult handled sent).trans (led.host unclaimed)
      | cons extra others =>
          cases last
          exact founded.host before entry others first unclaimed q result sent

/-! ### The creator's join comes first -/

def System.creatorFirst (s : System) : Event → Bool
  | .send conn .inbox =>
      match s.stages conn with
      | .sending i (.join _ false _) =>
          (s.hubs[i]?).all (fun p => p.received.any Cmd.isCreate)
      | _ => true
  | _ => true

structure System.Founding (s : System) : Prop where
  holder : ∀ conn i, s.creating = some (conn, i) →
    ∃ p : Proc, s.hubs[i]? = some p ∧ p.creator = conn
  sender : ∀ conn i cmd, s.stages conn = .sending i cmd → cmd.isCreate = true →
    ∃ p : Proc, s.hubs[i]? = some p ∧ p.creator = conn
  led : ∀ (i : HubID) (p : Proc), s.hubs[i]? = some p → p.Led

theorem System.Founding.put {s : System} (founding : s.Founding) {i : HubID} {after : Proc}
    (found : s.hubs[i]? = some p) (creator : after.creator = p.creator) (led : after.Led) :
    (s.putHub i after).Founding := by
  have kept : ∀ {j : HubID} {conn : ConnID},
      (∃ q : Proc, s.hubs[j]? = some q ∧ q.creator = conn) →
      ∃ q : Proc, (s.putHub i after).hubs[j]? = some q ∧ q.creator = conn := by
    rintro j conn ⟨q, there, same⟩
    by_cases own : j = i
    · subst own
      cases found.symm.trans there
      exact ⟨after, System.lookup_putHub_self found, creator.trans same⟩
    · exact ⟨q, (System.lookup_putHub_ne after own).trans there, same⟩
  refine
    { holder := fun conn j holds => kept (founding.holder conn j holds)
      sender := fun conn j cmd sends create => kept (founding.sender conn j cmd sends create)
      led := ?_ }
  intro j q there
  rcases System.lookup_putHub found there with ⟨rfl, rfl⟩ | ⟨_, before⟩
  · exact led
  · exact founding.led j q before

theorem System.Founding.turn {s next : System} (founding : s.Founding)
    {stage : Stage} (hubs : next.hubs = s.hubs) (stages : next.stages = (s.turn conn stage).stages)
    (creating : ∀ other i, next.creating = some (other, i) → s.creating = some (other, i))
    (own : ∀ i cmd, stage = .sending i cmd → cmd.isCreate = true →
      ∃ p : Proc, s.hubs[i]? = some p ∧ p.creator = conn) : next.Founding := by
  refine
    { holder := ?_
      sender := ?_
      led := ?_ }
  · intro other i holds
    rw [hubs]
    exact founding.holder other i (creating other i holds)
  · intro other i cmd sends create
    rw [hubs]
    rw [stages] at sends
    by_cases same : other = conn
    · subst same
      rw [System.turn_same] at sends
      exact own i cmd sends create
    · rw [System.turn_ne s stage same] at sends
      exact founding.sender other i cmd sends create
  · intro i p found
    rw [hubs] at found
    exact founding.led i p found

theorem System.Founding.quiet (s next : System) (founding : s.Founding) (moved : s.Quiet next) :
    next.Founding := by
  cases moved with
  | @turned conn stage turns =>
      refine founding.turn rfl rfl (fun other i holds => holds) ?_
      intro i cmd same create
      generalize s.stages conn = before at turns
      cases turns with
      | read request =>
          cases request with
          | _ => cases same
      | denied code msg => cases same
      | found entry asks joins =>
          cases same
          cases cmd with
          | join asker isCreate token =>
              cases asks
              subst create
              exact absurd rfl (joins token)
          | _ => cases create
      | missed => cases same
      | spoke => cases same
      | left => cases same
  | @began conn sid maxParticipants free asks vacant =>
      have fresh := Proc.started_led sid s.now conn maxParticipants s.registry.grace
      refine
        { holder := ?_
          sender := ?_
          led := ?_ }
      · intro other i holds
        cases holds
        exact ⟨_, List.getElem?_concat_length, rfl⟩
      · intro other i cmd sends create
        have differs : other ≠ conn := by
          rintro rfl
          cases (System.turn_same s other .registering).symm.trans sends
        obtain ⟨p, found, same⟩ := founding.sender other i cmd
          ((System.turn_ne s _ differs).symm.trans sends) create
        exact ⟨p, lookup_before_started _ found, same⟩
      · intro i p found
        rcases lookup_started found with before | ⟨_, rfl⟩
        · exact founding.led i p before
        · exact fresh
  | @stored conn i p token holds found =>
      refine founding.turn rfl rfl (fun other j later => by cases later) ?_
      intro j cmd same create
      cases same
      exact founding.holder conn i holds
  | @heard conn i cmd answer rest waits channel =>
      refine founding.turn rfl rfl (fun other j later => later) ?_
      intro j other same create
      exact absurd same ((Stage.onAnswer_isOver i cmd answer).2 j other)
  | touched found apart =>
      exact founding.put found apart.creator ((founding.led _ _ found).apart apart)
  | closed found leaving => exact founding.put found rfl ((founding.led _ _ found).moveOn .closed)
  | @emptied i p free found closed =>
      have put : (s.putHub i { p with phase := .ended }).Founding :=
        founding.put found rfl ((founding.led i p found).moveOn .ended)
      exact { put with }
  | swept expired now => exact { founding with }

theorem Proc.Led.accept (led : p.Led) (creates : cmd.isCreate = true → cmd.asker = some p.creator)
    (after : cmd.joinCount = 1 → cmd.isCreate = false → p.received.any Cmd.isCreate = true) :
    (p.put cmd).Led := by
  refine led.receive (List.append_assoc _ _ _).symm rfl rfl ⟨rfl, rfl⟩ ?_ ?_
  · intro other member create
    cases List.mem_singleton.mp member
    exact creates create
  · intro none other found
    cases List.mem_singleton.mp (List.mem_of_find?_eq_some found)
    have join : cmd.joinCount = 1 := by simpa using List.find?_some found
    cases create : cmd.isCreate with
    | true => rfl
    | false =>
        obtain ⟨opening, received, own⟩ := List.any_eq_true.mp (after join create)
        have counted : opening.joinCount = 1 := by
          cases opening with
          | join conn isCreate token => rfl
          | _ => cases own
        exact absurd (decide_eq_true counted) (List.find?_eq_none.mp none opening received)

theorem System.founding_step {helloCodec : HelloCodec} (s : System) (event : Event) (next : System)
    (invariant : s.Founding ∧ s.Accounted) (first : s.creatorFirst event = true)
    (stepped : System.step codec helloCodec s event = some next) :
    next.Founding ∧ next.Accounted := by
  obtain ⟨founding, accounted⟩ := invariant
  refine ⟨?_, System.accounted_step codec helloCodec s event next accounted stepped⟩
  rcases System.step_cases stepped with
    ⟨conn, i, cmd, p, rfl, accepts⟩ |
      ⟨i, order, p, cmd, rest, hub, effects, returned, rfl, serves⟩ | moved
  · have led : (p.put cmd).Led := by
      refine (founding.led i p accepts.found).accept ?_ ?_
      · intro create
        obtain ⟨q, there, same⟩ := founding.sender conn i cmd accepts.sends create
        cases accepts.found.symm.trans there
        rw [accounted.own conn i cmd accepts.sends, same]
      · intro join other
        cases cmd with
        | join asker isCreate token =>
            cases other
            simpa only [System.creatorFirst, accepts.sends, accepts.found, Option.all_some]
              using first
        | _ => cases join
    have put : (s.putHub i (p.put cmd)).Founding := founding.put accepts.found rfl led
    rw [accepts.result]
    refine put.turn rfl rfl (fun other j holds => holds) ?_
    intro j other same
    cases same
  · have led := (founding.led i p serves.found).serve serves.inbox serves.handled
      ((accounted.ledger p.creator).requests_le serves.found)
    have put : (s.putHub i (p.took cmd rest hub effects returned)).Founding :=
      founding.put serves.found rfl led
    rw [serves.result]
    exact { put with }
  · exact System.quiet_invariant System.Founding.quiet moved founding

/-- In every interleaving in which the creator's join is accepted before the
others, the creator is participant 1 and the host until the first claim. -/
theorem creator_is_one_and_host (codec : Codec) (helloCodec : HelloCodec)
    (maxSessions maxAge grace maxParticipants : Nat) (events : List Event) (s : System)
    (first : Along (System.step codec helloCodec) (fun s event => s.creatorFirst event = true)
      (System.start maxSessions maxAge grace maxParticipants) events)
    (reached : run (System.step codec helloCodec)
      (System.start maxSessions maxAge grace maxParticipants) events = some s)
    (i : HubID) (p : Proc) (found : s.hubs[i]? = some p) : p.Founded := by
  have initial : (System.start maxSessions maxAge grace maxParticipants).Founding :=
    { holder := fun conn i holds => by cases holds
      sender := fun conn i cmd sends => by cases sends
      led := fun i p found => by cases found }
  have founding := run_invariant System.founding_step
    ⟨initial, System.start_accounted maxSessions maxAge grace maxParticipants⟩ first reached
  exact (founding.1.led i p found).founded

/-- The creator is admitted, then a visitor that found the entry early. -/
def creatorThenVisitor : List Event :=
  [.opened 0 (.frame .createSession [7]), .opened 1 (.frame .joinSession [7]), .greet 0 [1],
    .store 0 [1], .greet 1 [2], .send 0 .inbox, .send 1 .inbox, .serve 0 .stored,
    .serve 0 .stored]

theorem creatorThenVisitor_founded :
    ∃ s p, run (System.step cborCodec shortHello) (System.start 2 100 30 16)
        creatorThenVisitor = some s ∧ s.hubs[0]? = some p ∧ p.history.length = 2 ∧ p.Founded := by
  have finished : (run (System.step cborCodec shortHello) (System.start 2 100 30 16)
      creatorThenVisitor).any (fun s =>
        (s.hubs[0]?).any (fun p => decide (p.history.length = 2))) = true := by
    decide +kernel
  have first : Along (System.step cborCodec shortHello)
      (fun s event => s.creatorFirst event = true) (System.start 2 100 30 16)
      creatorThenVisitor := by
    decide +kernel
  obtain ⟨s, reached, hub⟩ := (Option.any_eq_true _ _).mp finished
  obtain ⟨p, found, handled⟩ := (Option.any_eq_true _ _).mp hub
  exact ⟨s, p, reached, found, of_decide_eq_true handled,
    creator_is_one_and_host cborCodec shortHello 2 100 30 16 creatorThenVisitor s first reached 0 p
      found⟩

/-- A visitor finds the entry and sends its join before the creator does: it is
participant 1, and the creator's `SessionCreated` says 2. -/
theorem visitor_overtakes_creator :
    ¬∀ (codec : Codec) (helloCodec : HelloCodec) (maxSessions maxAge grace maxParticipants : Nat)
      (events : List Event) (s : System),
      run (System.step codec helloCodec) (System.start maxSessions maxAge grace maxParticipants)
          events = some s →
        ∀ (i : HubID) (p : Proc), s.hubs[i]? = some p → p.Founded := by
  intro claimed
  have finished : (run (System.step cborCodec shortHello) (System.start 2 100 30 16)
      [.opened 0 (.frame .createSession [7]), .greet 0 [1], .store 0 [1],
        .opened 1 (.frame .joinSession [7]), .greet 1 [2], .send 1 .inbox, .send 0 .inbox,
        .serve 0 .stored, .serve 0 .stored]).any (fun s =>
          (s.hubs[0]?).any (fun p => p.history.any (fun entry =>
            decide (.queued 2 (.sessionCreated 2 [1]) ∈ entry.2)))) = true := by
    decide +kernel
  obtain ⟨s, reached, hub⟩ := (Option.any_eq_true _ _).mp finished
  obtain ⟨p, found, handled⟩ := (Option.any_eq_true _ _).mp hub
  obtain ⟨entry, member, created⟩ := List.any_eq_true.mp handled
  have founded := claimed cborCodec shortHello 2 100 30 16 _ s reached 0 p found
  exact absurd (founded.created entry member 2 2 [1] (of_decide_eq_true created)) (by decide)

end Parley.Relay
