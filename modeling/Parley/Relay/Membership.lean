/-
What the frames of a connection say about who is there.

The reply that leads a connection lists the peers, and every later join and
departure is announced to every other slot in the same command that makes it.
Folding the notices over the first list therefore gives the hub's clients without
the participant itself.  A held slot has no reply to start from; what it buffers
must agree with any list that is right now, so that a resume can put a fresh list
in front of it.  Departures are announced to everybody but participant 0, an id
the counter reaches only when it wraps.
-/

import Parley.Relay.Ownership

namespace Parley.Relay

open Wire Library

/-- What a client uses of the CBOR library to follow the membership, and that the
library reads back what it wrote. -/
structure MemberCodec (codec : Codec) where
  joinResult : Bytes → Option JoinResult
  participantJoined : Bytes → Option ParticipantID
  participantLeft : Bytes → Option ParticipantID
  readsResult : ∀ result raw, codec.marshal (.joinResult result) = some raw →
    joinResult raw = some result
  readsJoined : ∀ id raw, codec.marshal (.participantJoined id) = some raw →
    participantJoined raw = some id
  readsLeft : ∀ id raw, codec.marshal (.participantLeft id) = some raw →
    participantLeft raw = some id
  carriesJoined : ∀ id, (encode codec (.participantJoined id)).isSome = true
  carriesLeft : ∀ id, (encode codec (.participantLeft id)).isSome = true

/-- A set of participants by its characteristic function. -/
abbrev Members : Type := ParticipantID → Bool

variable {sent : ParticipantID → List Bytes} {effects : List Effect} {frame : Bytes}
  {after h : Hub} {id p next : ParticipantID} {body : Body} {c : Client} {cmd : Cmd}
  {present : Bool} {order : Order}

section

variable {codec : Codec} (member : MemberCodec codec)

/-- The change a frame announces: who, and whether it is there from now on. -/
def noticeOf (frame : Bytes) : Option (ParticipantID × Bool) :=
  match decode frame with
  | none => none
  | some (code, raw) =>
      if code = MsgType.participantJoined.code then
        (member.participantJoined raw).map (fun id => (id, true))
      else if code = MsgType.participantLeft.code then
        (member.participantLeft raw).map (fun id => (id, false))
      else none

def follow (seen : Members) (frame : Bytes) : Members :=
  match noticeOf member frame with
  | none => seen
  | some (id, present) => fun q => if q = id then present else seen q

def firstSeen (frame : Bytes) : Option Members :=
  match decode frame with
  | none => none
  | some (code, raw) =>
      if code = MsgType.joinResult.code then
        (member.joinResult raw).map (fun result q => decide (q ∈ result.peers))
      else if code = MsgType.sessionCreated.code then some (fun _ => false)
      else none

/-- The participants a connection was told of, in the order of its frames. -/
def membershipView : List Bytes → Option Members
  | [] => none
  | hello :: rest => (firstSeen member hello).map (fun seen => rest.foldl (follow member) seen)

end

variable {q : ParticipantID}

section

variable {codec : Codec} {member : MemberCodec codec}

theorem noticeOf_joined (encoded : encode codec (.participantJoined id) = some frame) :
    noticeOf member frame = some (id, true) := by
  obtain ⟨raw, marshalled, decoded⟩ := decode_encode encoded
  simp only [noticeOf, decoded, Body.msgType, if_true, member.readsJoined id raw marshalled,
    Option.map_some]

theorem noticeOf_left (encoded : encode codec (.participantLeft id) = some frame) :
    noticeOf member frame = some (id, false) := by
  obtain ⟨raw, marshalled, decoded⟩ := decode_encode encoded
  have differs : MsgType.participantLeft.code ≠ MsgType.participantJoined.code := by decide
  simp only [noticeOf, decoded, Body.msgType, if_neg differs, if_true,
    member.readsLeft id raw marshalled, Option.map_some]

def isUnannounced : Body → Bool
  | .participantJoined _ => false
  | .participantLeft _ => false
  | _ => true

theorem follow_unannounced (encoded : encode codec body = some frame)
    (silent : isUnannounced body = true) (seen : Members) : follow member seen frame = seen := by
  obtain ⟨raw, marshalled, decoded⟩ := decode_encode encoded
  have nothing : noticeOf member frame = none := by
    cases body with
    | participantJoined id => cases silent
    | participantLeft id => cases silent
    | _ => simp [noticeOf, decoded, Body.msgType, MsgType.code]
  simp only [follow, nothing]

theorem follow_notice (notice : noticeOf member frame = some (id, present)) (seen : Members)
    (q : ParticipantID) :
    follow member seen frame q = if q = id then present else seen q := by
  simp only [follow, notice]

theorem foldl_follow_congr (frames : List Bytes) {first second : Members}
    (same : first q = second q) :
    frames.foldl (follow member) first q = frames.foldl (follow member) second q := by
  induction frames generalizing first second with
  | nil => exact same
  | cons frame rest ih =>
      refine ih ?_
      cases notice : noticeOf member frame with
      | none => simpa only [follow, notice] using same
      | some change =>
          rw [follow_notice notice, follow_notice notice, same]

variable {visit : List ParticipantID → List ParticipantID} {targets : ParticipantID → Prop}
  {changed : ParticipantID} {isCreate emptied : Bool} {seen : Members} {token : Bytes}

theorem membershipView_append {stream : List Bytes}
    (view : membershipView member stream = some seen) (frames : List Bytes) :
    membershipView member (stream ++ frames) = some (frames.foldl (follow member) seen) := by
  cases stream with
  | nil => cases view
  | cons hello rest =>
      obtain ⟨first, started, rfl⟩ := Option.map_eq_some_iff.mp view
      simp only [List.cons_append, membershipView, started, Option.map_some, List.foldl_append]

/-- The hub's clients other than `p`. -/
def Current (h : Hub) (p : ParticipantID) (seen : Members) : Prop :=
  ∀ q, seen q = true ↔ q ∈ h.clients ∧ q ≠ p

theorem firstSeen_helloReply (perm : ∀ keys, (visit keys).Perm keys)
    (alone : isCreate = true → ∀ q, q ∉ h.clients)
    (encoded : encode codec (helloReply h visit isCreate id token) = some frame) :
    ∃ seen, membershipView member [frame] = some seen ∧ Current h id seen := by
  obtain ⟨raw, marshalled, decoded⟩ := decode_encode encoded
  cases isCreate with
  | true =>
      refine ⟨fun _ => false, ?_, fun q => ?_⟩
      · have differs : MsgType.sessionCreated.code ≠ MsgType.joinResult.code := by decide
        simp only [helloReply, if_true, Body.msgType] at decoded
        simp only [membershipView, firstSeen, decoded, if_neg differs, if_true, Option.map_some,
          List.foldl_nil]
      · constructor
        · intro never
          cases never
        · intro there
          exact absurd there.1 (alone rfl q)
  | false =>
      simp only [helloReply, Bool.false_eq_true, if_false] at marshalled decoded
      refine ⟨fun q => decide (q ∈ peersExcept h visit id), ?_, fun q => ?_⟩
      · simp only [membershipView, firstSeen, decoded, Body.msgType, if_true,
          member.readsResult _ raw marshalled, Option.map_some, List.foldl_nil]
      · simp only [peersExcept, decide_eq_true_eq, List.mem_filter, ne_eq, decide_not,
          Bool.not_eq_true', decide_eq_false_iff_not]
        rw [(perm h.clients.keys).mem_iff, AList.mem_keys]

theorem Current.congr (same : ∀ q, q ∈ after.clients ↔ q ∈ h.clients) :
    Current after p seen ↔ Current h p seen := by
  refine forall_congr' (fun q => ?_)
  rw [same q]

variable (member) in
/-- The frames of a live connection show the hub's clients; what a held slot
buffers keeps a list that is right. -/
structure Informed (h : Hub) (p : ParticipantID) (sent : List Bytes) (c : Client) : Prop where
  live : c.held = false →
    ∃ seen, membershipView member (sent ++ c.out) = some seen ∧ Current h p seen
  away : c.held = true → ∀ seen, Current h p seen →
    Current h p (c.out.foldl (follow member) seen)

variable (member) in
/-- Every slot not marked for eviction is well informed, and nobody is number 0. -/
structure WellInformed (sent : ParticipantID → List Bytes) (h : Hub) : Prop where
  slots : ∀ p c, h.clients.lookup p = some c → c.evicting = false →
    Informed member h p (sent p) c
  positive : ∀ p, p ∈ h.clients → p ≠ 0

theorem Informed.congr {sent : List Bytes} (informed : Informed member h p sent c)
    (same : ∀ q, q ∈ after.clients ↔ q ∈ h.clients) : Informed member after p sent c := by
  refine
    { live := ?_
      away := ?_ }
  · intro live
    obtain ⟨seen, view, current⟩ := informed.live live
    exact ⟨seen, view, (Current.congr same).mpr current⟩
  · intro away seen current
    exact (Current.congr same).mpr (informed.away away seen ((Current.congr same).mp current))

theorem Informed.unannounced {sent : List Bytes} (informed : Informed member h p sent c)
    (encoded : encode codec body = some frame) (silent : isUnannounced body = true) :
    Informed member h p sent { c with out := c.out ++ [frame] } := by
  have step : ∀ seen, [frame].foldl (follow member) seen = seen :=
    fun seen => follow_unannounced encoded silent seen
  refine
    { live := ?_
      away := ?_ }
  · intro live
    obtain ⟨seen, view, current⟩ := informed.live live
    refine ⟨seen, ?_, current⟩
    rw [← List.append_assoc, membershipView_append view, step]
  · intro away seen current
    rw [List.foldl_append, step]
    exact informed.away away seen current

theorem Informed.notice {sent : List Bytes} (informed : Informed member h p sent c)
    (told : noticeOf member frame = some (changed, present)) (other : p ≠ changed)
    (others : ∀ q, q ≠ changed → (q ∈ after.clients ↔ q ∈ h.clients))
    (outcome : changed ∈ after.clients ↔ present = true) :
    Informed member after p sent { c with out := c.out ++ [frame] } := by
  have step : ∀ seen : Members, (∀ q, q ≠ changed → (seen q = true ↔ q ∈ h.clients ∧ q ≠ p)) →
      Current after p (follow member seen frame) := by
    intro seen right q
    rw [follow_notice told]
    by_cases same : q = changed
    · rw [if_pos same, same]
      exact ⟨fun there => ⟨outcome.mpr there, Ne.symm other⟩, fun both => outcome.mp both.1⟩
    · rw [if_neg same, others q same]
      exact right q same
  refine
    { live := ?_
      away := ?_ }
  · intro live
    obtain ⟨seen, view, current⟩ := informed.live live
    refine ⟨follow member seen frame, ?_, step seen (fun q _ => current q)⟩
    rw [← List.append_assoc, membershipView_append view]
    rfl
  · intro away seen current
    rw [List.foldl_append]
    refine step _ (fun q differs => ?_)
    -- The list before the change differs from `seen` in the changed entry only.
    let before : Members := fun r => if r = changed then decide (changed ∈ h.clients) else seen r
    have beforeCurrent : Current h p before := by
      intro r
      by_cases same : r = changed
      · simp only [before, if_pos same, decide_eq_true_eq]
        rw [same]
        exact ⟨fun there => ⟨there, Ne.symm other⟩, fun both => both.1⟩
      · simp only [before, if_neg same]
        rw [← others r same]
        exact current r
    have same : seen q = before q := (if_neg differs).symm
    rw [foldl_follow_congr c.out same]
    exact informed.away away before beforeCurrent q

theorem WellInformed.silent (informed : WellInformed member sent h)
    (quiet : isUnannounced body = true) (spread : Spread codec body targets h after effects) :
    WellInformed member sent after := by
  cases spread with
  | unencodable _ => exact informed
  | offered encoded offers =>
      refine
        { slots := ?_
          positive := fun p there => informed.positive p ((offers.mem_iff p).mp there) }
      intro p c found fresh
      obtain ⟨old, there, rfl | ⟨_, rfl⟩⟩ := offers.source found
      · exact (informed.slots p c there fresh).congr offers.mem_iff
      · have room := accepts_of_offer fresh
        rw [offer_of_accepts room] at fresh ⊢
        exact ((informed.slots p old there fresh).unannounced encoded quiet).congr offers.mem_iff

theorem WellInformed.announce {base : Hub} (informed : WellInformed member sent h)
    (told : noticeOf member frame = some (changed, present))
    (offers : Offers body frame targets base after effects)
    (kept : ∀ p, p ≠ changed → base.clients.lookup p = h.clients.lookup p)
    (outcome : changed ∈ base.clients ↔ present = true)
    (reached : ∀ p, p ≠ changed → p ∈ base.clients → targets p) :
    ∀ p c, p ≠ changed → after.clients.lookup p = some c → c.evicting = false →
      Informed member after p (sent p) c := by
  have others : ∀ q, q ≠ changed → (q ∈ after.clients ↔ q ∈ h.clients) := by
    intro q differs
    rw [offers.mem_iff q, ← AList.lookup_isSome, kept q differs, AList.lookup_isSome]
  intro p c differs found fresh
  have there : p ∈ base.clients := (offers.mem_iff p).mp (mem_of_lookup found)
  rw [offers.offered p (reached p differs there), kept p differs] at found
  obtain ⟨old, before, rfl⟩ := Option.map_eq_some_iff.mp found
  have room := accepts_of_offer fresh
  rw [offer_of_accepts room] at fresh ⊢
  exact (informed.slots p old before fresh).notice told differs others
    ((offers.mem_iff changed).trans outcome)

theorem WellInformed.removal (informed : WellInformed member sent h)
    (removal : Removal codec id h after effects emptied) : WellInformed member sent after := by
  cases removal with
  | emptied found alone =>
      have nobody : ∀ q, q ∉ (h.without id).clients := by
        intro q there
        rw [AList.mem_keys, alone] at there
        cases there
      exact
        { slots := fun p c there => absurd (mem_of_lookup there) (nobody p)
          positive := fun p there => absurd there (nobody p) }
  | announced found others notice =>
      cases notice with
      | unencodable refused =>
          have carried := member.carriesLeft id
          rw [refused] at carried
          cases carried
      | offered encoded offers =>
          have absent : id ∉ (h.without id).clients :=
            fun there => (AList.mem_erase.mp there).1 rfl
          have positive : ∀ p, p ∈ (h.without id).clients → p ≠ 0 :=
            fun p there => informed.positive p (AList.mem_erase.mp there).2
          have rest := informed.announce (noticeOf_left encoded) offers
            (fun p differs => AList.lookup_erase_ne differs)
            (iff_of_false absent Bool.false_ne_true) (fun p _ there => positive p there)
          refine
            { slots := fun p c there fresh => rest p c ?_ there fresh
              positive := fun p there => positive p ((offers.mem_iff p).mp there) }
          rintro rfl
          exact absent ((offers.mem_iff p).mp (mem_of_lookup there))

theorem WellInformed.pending {sent : ParticipantID → List Bytes} {h : Hub}
    (informed : WellInformed member sent h) (rest : List ParticipantID) :
    WellInformed member sent { h with evict := rest } :=
  { slots := fun p c found fresh => (informed.slots p c found fresh).congr (fun _ => Iff.rfl)
    positive := informed.positive }

theorem WellInformed.drained (drained : Drained codec h after effects emptied)
    (informed : WellInformed member sent h) :
    WellInformed member sent after := by
  induction drained with
  | done empty => exact informed
  | skipped pending absent later ih => exact ih (informed.pending _)
  | emptied pending removal => exact (informed.pending _).removal removal
  | evicted pending removal later ih => exact ih ((informed.pending _).removal removal)

/-- The frames written to each slot's present connection, after a command that
attached the handlers. -/
def retap (handlers : List Handler) (sent : ParticipantID → List Bytes) :
    ParticipantID → List Bytes :=
  fun q => if handlers.any (fun handler => decide (handler.id = q)) then [] else sent q

theorem retap_nil (sent : ParticipantID → List Bytes) : retap [] sent = sent := rfl

theorem retap_same (handler : Handler) (sent : ParticipantID → List Bytes) :
    retap [handler] sent handler.id = [] := by
  simp [retap]

theorem retap_ne {handler : Handler} {q : ParticipantID} (other : q ≠ handler.id)
    (sent : ParticipantID → List Bytes) : retap [handler] sent q = sent q := by
  simp [retap, Ne.symm other]

theorem mem_withClient {h : Hub} {id : ParticipantID} {c updated : Client}
    (found : h.clients.lookup id = some c) (q : ParticipantID) :
    q ∈ (h.withClient id updated).clients ↔ q ∈ h.clients := by
  constructor
  · intro there
    rcases (AList.mem_insert _).mp there with rfl | known
    · exact mem_of_lookup found
    · exact known
  · intro there
    exact (AList.mem_insert _).mpr (Or.inr there)

theorem WellInformed.update {later : ParticipantID → List Bytes} {updated : Client}
    (informed : WellInformed member sent h) (found : h.clients.lookup id = some c)
    (others : ∀ q, q ≠ id → later q = sent q) (own : Informed member h id (later id) updated) :
    WellInformed member later (h.withClient id updated) := by
  have same := @mem_withClient h id c updated found
  refine
    { slots := ?_
      positive := fun p there => informed.positive p ((same p).mp there) }
  intro p d there fresh
  rcases lookup_withClient there with ⟨rfl, rfl⟩ | ⟨differs, known⟩
  · exact own.congr same
  · rw [others p differs]
    exact (informed.slots p d known fresh).congr same

theorem WellInformed.enters {conn : ConnID}
    (informed : WellInformed member sent h)
    (perm : ∀ keys, (visit keys).Perm keys) (alone : isCreate = true → ∀ q, q ∉ h.clients)
    (positive : h.nextID ≠ 0)
    (encoded : encode codec (helloReply h visit isCreate h.nextID token) = some frame)
    (notice : Spread codec (.participantJoined h.nextID) (fun q => q ≠ h.nextID)
      (h.issued.withClient h.nextID (newClient h.nextID frame conn token)) after effects) :
    WellInformed member (retap [⟨conn, h.nextID, 1⟩] sent) after := by
  cases notice with
  | unencodable refused =>
      have carried := member.carriesJoined h.nextID
      rw [refused] at carried
      cases carried
  | offered encodedNotice offers =>
      have before : ∀ q, q ≠ h.nextID →
          (h.issued.withClient h.nextID (newClient h.nextID frame conn token)).clients.lookup q =
            h.clients.lookup q :=
        fun q differs => AList.lookup_insert_ne differs
      have rest := informed.announce (noticeOf_joined encodedNotice) offers before
        (iff_of_true ((AList.mem_insert _).mpr (Or.inl rfl)) rfl) (fun p differs _ => differs)
      refine
        { slots := ?_
          positive := ?_ }
      · intro p c found fresh
        by_cases newcomer : p = h.nextID
        · subst newcomer
          rw [offers.kept h.nextID (fun differs => differs rfl)] at found
          cases (AList.lookup_insert _).symm.trans found
          rw [retap_same ⟨conn, h.nextID, 1⟩]
          obtain ⟨seen, view, current⟩ := firstSeen_helloReply perm alone encoded
          refine
            { live := fun _ => ⟨seen, view, fun q => ?_⟩
              away := fun held => by cases held }
          rw [current q]
          by_cases self : q = h.nextID
          · simp [self]
          · rw [offers.mem_iff q, ← AList.lookup_isSome, ← AList.lookup_isSome, before q self]
        · rw [@retap_ne ⟨conn, h.nextID, 1⟩ p newcomer]
          exact rest p c newcomer found fresh
      · intro p there
        rcases (AList.mem_insert _).mp ((offers.mem_iff p).mp there) with rfl | known
        · exact positive
        · exact informed.positive p known

theorem Informed.resumed {h : Hub} {id : ParticipantID} {sent : List Bytes} {c : Client}
    {visit : List ParticipantID → List ParticipantID} {frame : Bytes} (conn : ConnID)
    (informed : Informed member h id sent c) (perm : ∀ keys, (visit keys).Perm keys)
    (room : c.held = true → c.out.length < sendBuffer)
    (encoded : encode codec (helloReply h visit false id c.token) = some frame) :
    Informed member h id [] (c.resumed frame conn) := by
  have first : ∃ seen, membershipView member [frame] = some seen ∧ Current h id seen :=
    firstSeen_helloReply perm (fun never => by cases never) encoded
  obtain ⟨seen, view, current⟩ := first
  refine
    { live := fun _ => ?_
      away := fun held => by cases held }
  cases held : c.held with
  | false =>
      have whole : (c.resumed frame conn).out = [frame] := by
        simp only [Client.resumed, held]
        rfl
      refine ⟨seen, ?_, current⟩
      rw [whole, List.nil_append, view]
  | true =>
      refine ⟨c.out.foldl (follow member) seen, ?_, informed.away held seen current⟩
      have whole : (c.resumed frame conn).out = [frame] ++ c.out := by
        simp only [Client.resumed, held, if_true, refill]
        exact List.take_of_length_le (room held)
      rw [whole, List.nil_append, membershipView_append view]

theorem Informed.onHold (h : Hub) (id : ParticipantID) (sent : List Bytes) (c : Client) :
    Informed member h id sent c.onHold :=
  { live := fun live => by cases live
    away := fun _ _ current => current }

/-- The creator finds nobody, no newcomer is number 0, and a granted resume has
room for every buffered frame. -/
structure Accommodates (h : Hub) (cmd : Cmd) (effects : List Effect) : Prop where
  creator : ∀ conn token, cmd = .join conn true token → ∀ q, q ∉ h.clients
  counter : 1 ≤ cmd.joinCount → h.nextID ≠ 0
  room : ∀ id token conn c, cmd = .resume id token conn → attached cmd effects ≠ [] →
    h.clients.lookup id = some c → c.held = true → c.out.length < sendBuffer

theorem Served.wellInformed {returned : Bool} (informed : WellInformed member sent h)
    (calm : h.Calm) (fit : Accommodates h cmd effects)
    (served : Served codec h cmd after effects returned) :
    WellInformed member (retap (attached cmd effects) sent) after := by
  have quiet : ∀ {cmd : Cmd} {effects : List Effect} {after : Hub},
      (∀ effect ∈ effects, effect.grantsNothing = true) → WellInformed member sent after →
        WellInformed member (retap (attached cmd effects) sent) after := by
    intro cmd effects after nothing still
    rw [(NoGrant.of_effects cmd nothing).attaches, retap_nil]
    exact still
  cases served with
  | ignored idle =>
      exact quiet (fun effect there => Effect.grantsNothing_of_isIdle (idle effect there)) informed
  | unencoded refused =>
      refine quiet (fun effect there => ?_)
        { slots := fun p c found fresh => (informed.slots p c found fresh).congr (fun _ => Iff.rfl)
          positive := informed.positive }
      rw [List.mem_singleton.mp there]
      simp [Effect.grantsNothing, refused]
  | @admitted conn isCreate token visit frame after effects perm room encoded notice =>
      have later := attached_of_traffic (.join conn isCreate token) notice.traffic
      have attaches : attached (.join conn isCreate token)
          (.queued h.nextID (helloReply h visit isCreate h.nextID token) ::
            .joinReply conn { ok := true, errC := 0, errS := "", id := h.nextID, gen := 1 } ::
              effects) = [⟨conn, h.nextID, 1⟩] := by
        simp only [attached] at later
        simp [attached, later]
      rw [attaches]
      refine informed.enters perm ?_ (fit.counter (Nat.le_refl 1)) encoded notice
      rintro rfl
      exact fit.creator conn token rfl
  | held found live current graced =>
      exact quiet (fun effect there => by cases there)
        (informed.update found (fun _ _ => rfl) (.onHold h _ _ _))
  | left found live current final removal | expired found waiting current removal =>
      exact quiet removal.grantsNothing (informed.removal removal)
  | @resumed id token conn c visit frame perm found authentic encoded =>
      have attaches : attached (.resume id token conn)
          ((if c.held then [] else [.kicked c.kick]) ++
            [.queued id (helloReply h visit false id c.token),
              .resumeReply conn { ok := true, errC := 0, errS := "", gen := c.gen + 1 }]) =
            [⟨conn, id, c.gen + 1⟩] := by
        cases c.held with
        | true => rfl
        | false => rfl
      have room := fit.room id token conn c rfl (by rw [attaches]; exact List.cons_ne_nil _ _) found
      rw [attaches]
      refine informed.update found (fun q differs => retap_ne differs sent) ?_
      rw [retap_same ⟨conn, id, c.gen + 1⟩]
      exact (informed.slots id c found (calm.unmarked id c found)).resumed conn perm room encoded
  | claimed found =>
      exact quiet (fun effect there => by cases there)
        { slots := fun p c found fresh => (informed.slots p c found fresh).congr (fun _ => Iff.rfl)
          positive := informed.positive }
  | complained answer =>
      exact quiet (answer.grantsNothing rfl) (informed.silent rfl answer)
  | directed decoded sent | broadcast decoded sent =>
      exact quiet (sent.grantsNothing rfl) (informed.silent rfl sent)
  | closing notice =>
      exact quiet (notice.grantsNothing rfl) (informed.silent rfl notice)

end

/-- The run loop with what has been written to the connection that each slot has
now. -/
structure Watched where
  loop : Loop
  sent : ParticipantID → List Bytes

def Watched.start (maxParticipants grace : Nat) : Watched :=
  { loop := Loop.start maxParticipants grace
    sent := fun _ => [] }

/-- A new connection starts with nothing; a writer adds the frame it takes. -/
def Watched.tap (s : Watched) (action : Action) (next : Loop) : ParticipantID → List Bytes :=
  match action with
  | .command cmd _ => retap (attached cmd (next.log.drop s.loop.log.length)) s.sent
  | .written id => fun q =>
      if q = id then s.sent q ++ (s.loop.hub.clients.lookup q).elim [] (fun c => c.out.take 1)
      else s.sent q
  | .answered _ _ => s.sent

def Watched.step (codec : Codec) (s : Watched) (action : Action) : Option Watched :=
  (Loop.step codec s.loop action).map (fun next =>
    { loop := next
      sent := s.tap action next })

/-- A granted resume of a held slot whose channel is full drops a frame. -/
def Hub.discards (codec : Codec) (order : Order) (h : Hub) (id : ParticipantID) (token : Bytes)
    (conn : ConnID) : Bool :=
  match h.clients.lookup id, handle codec order h (.resume id token conn) with
  | some c, some (_, effects, _) =>
      c.held && !(attached (.resume id token conn) effects).isEmpty &&
        decide (sendBuffer ≤ c.out.length)
  | _, _ => false

/-- The creator's join is the first one and no resume discards a buffered frame. -/
def Watched.Ordinary (codec : Codec) (s : Watched) : Action → Prop
  | .command (.join _ isCreate _) _ => isCreate = decide (s.loop.joins = 0)
  | .command (.resume id token conn) order =>
      s.loop.hub.discards codec order id token conn = false
  | _ => True

def Watched.Unwrapped (s : Watched) : Action → Prop
  | .command (.join _ _ _) _ => s.loop.hub.nextID ≠ 0
  | _ => True

def Watched.ShowsMembers {codec : Codec} (member : MemberCodec codec) (s : Watched) : Prop :=
  ∀ p c, s.loop.hub.clients.lookup p = some c → c.held = false →
    ∃ seen, membershipView member (s.sent p ++ c.out) = some seen ∧ Current s.loop.hub p seen

variable {s : Watched}

section

variable {codec : Codec} {member : MemberCodec codec}

variable (member) in
structure Watched.Good (s : Watched) : Prop where
  calm : s.loop.hub.Calm
  informed : WellInformed member s.sent s.loop.hub
  creator : s.loop.joins = 0 → ∀ q, q ∉ s.loop.hub.clients

theorem Watched.start_good (maxParticipants grace : Nat) :
    (Watched.start maxParticipants grace).Good member := by
  have nobody : ∀ q, (newHub maxParticipants grace).clients.lookup q = none :=
    fun _ => rfl
  have vacant : ∀ {q : ParticipantID} {c : Client} {property : Prop},
      (newHub maxParticipants grace).clients.lookup q = some c → property := by
    intro q c property found
    rw [nobody q] at found
    cases found
  exact
    { calm :=
        { keyed := fun _ _ => vacant
          settled := rfl
          unmarked := fun _ _ => vacant
          bounded := fun _ _ => vacant }
      informed :=
        { slots := fun _ _ => vacant
          positive := fun p there => absurd there (AList.lookup_eq_none.mp (nobody p)) }
      creator := fun _ q => AList.lookup_eq_none.mp (nobody q) }

theorem mem_of_handle (handled : handle codec order h cmd = some (after, effects, false))
    (still : cmd.joinCount = 0) (there : q ∈ after.clients) :
    q ∈ h.clients := by
  obtain ⟨middle, early, late, served, drained, rfl⟩ := handle_continues handled
  obtain ⟨c, found⟩ := Option.isSome_iff_exists.mp (AList.lookup_isSome.mpr there)
  obtain ⟨base, outcome, descends⟩ := handle_outcome handled
  obtain ⟨old, known, _⟩ := descends q c found
  rcases outcome.slot_issued known with before | issued
  · exact before
  · rcases served.issues with ⟨quiet, _⟩ | ⟨join, _, _⟩
    · rw [issuedIDs_append, quiet, issuedIDs_of_traffic drained.traffic] at issued
      cases issued
    · rw [still] at join
      cases join

theorem Watched.accommodates {early late : List Effect} (good : s.Good member)
    (ordinary : s.Ordinary codec (.command cmd order))
    (unwrapped : s.Unwrapped (.command cmd order))
    (handled : handle codec order s.loop.hub cmd = some (after, early ++ late, false))
    (quiet : attached cmd late = []) : Accommodates s.loop.hub cmd early := by
  refine
    { creator := ?_
      counter := ?_
      room := ?_ }
  · rintro conn token rfl
    exact good.creator (of_decide_eq_true ordinary.symm)
  · intro joins
    cases cmd with
    | join conn isCreate token => exact unwrapped
    | _ => cases joins
  · rintro id token conn c rfl granted found held
    simp only [Watched.Ordinary, Hub.discards, found, handled, attached_append, quiet,
      List.append_nil, held, Bool.true_and, Bool.and_eq_false_iff, Bool.not_eq_false',
      List.isEmpty_iff, decide_eq_false_iff_not] at ordinary
    rcases ordinary with refused | room
    · exact absurd refused granted
    · exact Nat.lt_of_not_le room

theorem Watched.good_step (s : Watched) (action : Action) (next : Watched)
    (good : s.Good member) (permitted : s.Ordinary codec action ∧ s.Unwrapped action)
    (stepped : Watched.step codec s action = some next) : next.Good member := by
  obtain ⟨loop, moved, rfl⟩ := Option.map_eq_some_iff.mp stepped
  rcases Loop.step_cases moved with
    ⟨cmd, order, _, _, _, rfl, _, _, _, _⟩ | ⟨id, c, found, live, rfl, rfl⟩ |
      ⟨id, c, body, frame, found, live, room, answer, encoded, rfl, rfl⟩
  · obtain ⟨hub, effects, handled, rfl⟩ := Loop.step_command.mp moved
    obtain ⟨middle, early, late, served, drained, rfl⟩ := handle_continues handled
    have quiet : attached cmd late = [] := attached_of_traffic cmd drained.traffic
    have fit := Watched.accommodates good permitted.1 permitted.2 handled quiet
    refine
      { calm := handle_calm handled good.calm
        informed := ?_
        creator := ?_ }
    · have after := WellInformed.drained drained (served.wellInformed good.informed good.calm fit)
      simp only [Watched.tap, List.drop_left, attached_append, quiet, List.append_nil]
      exact after
    · intro fresh q there
      have counts : s.loop.joins = 0 ∧ cmd.joinCount = 0 := Nat.add_eq_zero_iff.mp fresh
      exact good.creator counts.1 q (mem_of_handle handled counts.2 there)
  · have before := good.informed.slots id c found (good.calm.unmarked id c found)
    refine
      { calm := good.calm.update (good.calm.keyed id c found) (good.calm.unmarked id c found) ?_
        informed := good.informed.update found ?_ ?_
        creator := fun fresh q there =>
          good.creator fresh q ((mem_withClient found q).mp there) }
    · refine Nat.le_trans ?_ (good.calm.bounded id c found)
      simp
    · intro q differs
      simp [Watched.tap, differs]
    · refine
        { live := fun _ => ?_
          away := fun held => absurd held (by simp [live]) }
      have whole : s.sent id ++ c.out.take 1 ++ c.out.drop 1 = s.sent id ++ c.out := by
        rw [List.append_assoc, List.take_append_drop]
      simp only [Watched.tap, found, if_true, Option.elim_some, whole]
      exact before.live live
  · have before := good.informed.slots id c found (good.calm.unmarked id c found)
    refine
      { calm := good.calm.update (good.calm.keyed id c found) (good.calm.unmarked id c found) ?_
        informed := good.informed.update found (fun _ _ => rfl) (before.unannounced encoded ?_)
        creator := fun fresh q there =>
          good.creator fresh q ((mem_withClient found q).mp there) }
    · simpa using Nat.succ_le_of_lt room
    · cases body with
      | participantJoined other => cases answer
      | participantLeft other => cases answer
      | _ => rfl

end

/-- In every run in which the creator joins first, no resume discards a buffered
frame and no participant is given the number 0, the frames queued to each live
connection lead to the hub's clients without the participant itself. -/
theorem live_connections_show_members (codec : Codec) (member : MemberCodec codec)
    (maxParticipants grace : Nat) (actions : List Action) (s : Watched)
    (ordinary : Along (Watched.step codec) (Watched.Ordinary codec)
      (Watched.start maxParticipants grace) actions)
    (unwrapped : Along (Watched.step codec) Watched.Unwrapped
      (Watched.start maxParticipants grace) actions)
    (reached : run (Watched.step codec) (Watched.start maxParticipants grace) actions = some s) :
    s.ShowsMembers member := by
  have good : s.Good member :=
    run_invariant Watched.good_step (Watched.start_good maxParticipants grace)
      (ordinary.and unwrapped) reached
  intro p c found live
  exact (good.informed.slots p c found (good.calm.unmarked p c found)).live live

/-! ### A member number 0 -/

def noticeID (raw : Bytes) : Option ParticipantID :=
  (Cbor.readBody maxElements maxNested raw).bind (Cbor.ofMap (idField 1))

theorem noticeID_encode (id : ParticipantID) :
    noticeID (Cbor.Item.map [.number 1, idItem id]).encode = some id := by
  have fits : Cbor.Fits maxElements maxNested (.map [.number 1, idItem id]) := by
    refine ⟨⟨1, rfl, by decide⟩, ?_⟩
    simp only [List.forall_mem_cons]
    exact ⟨show 1 < 2 ^ 64 by decide, fits_idItem _ _ _, List.forall_mem_nil _⟩
  have found : idField 1 [.number 1, idItem id] = some id := idField_eq_some rfl
  rw [noticeID, Cbor.readBody_encode (by decide) fits]
  exact found

def cborMember : MemberCodec cborCodec :=
  { joinResult := fun raw => (Cbor.readBody maxPeers maxNested raw).bind JoinResult.ofItem
    participantJoined := noticeID
    participantLeft := noticeID
    readsResult := by
      intro result raw marshalled
      obtain ⟨rfl, short⟩ := marshal_cborCodec marshalled
      rw [Body.cbor, Cbor.readBody_encode (by decide) (fits_joinResult short)]
      exact JoinResult.ofItem_fields result
    readsJoined := by
      intro id raw marshalled
      obtain ⟨rfl, -⟩ := marshal_cborCodec marshalled
      exact noticeID_encode id
    readsLeft := by
      intro id raw marshalled
      obtain ⟨rfl, -⟩ := marshal_cborCodec marshalled
      exact noticeID_encode id
    carriesJoined := encode_participantJoined_isSome
    carriesLeft := encode_participantLeft_isSome }

instance (codec : Codec) (s : Watched) : DecidablePred (s.Ordinary codec) :=
  Action.decidableOnVisits (fun _ isCreate _ _ => inferInstanceAs (Decidable (isCreate = _)))
    (fun _ _ _ _ => inferInstanceAs (Decidable (_ = false)))
    (fun action other => by unfold Watched.Ordinary; split <;> simp_all [Action.isVisit])

instance (s : Watched) : DecidablePred s.Unwrapped :=
  Action.decidableOnVisits (fun _ _ _ _ => inferInstanceAs (Decidable (_ ≠ _)))
    (fun _ _ _ _ => inferInstanceAs (Decidable True))
    (fun action other => by unfold Watched.Unwrapped; split <;> simp_all [Action.isVisit])

/-- While 2 is away, 3 comes and goes; the resume repeats both notices behind a
list that knows of neither. -/
def visitedWhileAway : List Action :=
  [.command (.join 0 true [1]) .stored,
    .command (.join 1 false [2]) .stored,
    .written 2,
    .command (.leave 2 1 true) .stored,
    .command (.join 2 false [3]) .stored,
    .command (.leave 3 1 false) .stored,
    .command (.resume 2 [2] 3) .stored]

theorem visitedWhileAway_shows_members :
    ∃ s c, run (Watched.step cborCodec) (Watched.start 16 30) visitedWhileAway = some s ∧
      s.loop.hub.clients.lookup 2 = some c ∧ c.out.length = 3 ∧ s.ShowsMembers cborMember := by
  have finished : (run (Watched.step cborCodec) (Watched.start 16 30) visitedWhileAway).any
      (fun s => (s.loop.hub.clients.lookup 2).any (fun c => decide (c.out.length = 3))) = true := by
    decide +kernel
  have ordinary : Along (Watched.step cborCodec) (Watched.Ordinary cborCodec)
      (Watched.start 16 30) visitedWhileAway := by
    decide +kernel
  have unwrapped : Along (Watched.step cborCodec) Watched.Unwrapped (Watched.start 16 30)
      visitedWhileAway := by
    decide +kernel
  obtain ⟨s, reached, slot⟩ := (Option.any_eq_true _ _).mp finished
  obtain ⟨c, found, frames⟩ := (Option.any_eq_true _ _).mp slot
  exact ⟨s, c, reached, found, of_decide_eq_true frames,
    live_connections_show_members cborCodec cborMember 16 30 visitedWhileAway s ordinary unwrapped
      reached⟩

/-- The creator is alone and everything it was sent is written. -/
structure Watched.SoloAt (s : Watched) (next : ParticipantID) (out : List Bytes) : Prop where
  solo : s.loop.hub.Solo next out
  begun : s.loop.joins ≠ 0

def Watched.Reaches (codec : Codec) (s after : Watched) : Prop :=
  ∃ actions, Along (Watched.step codec) (Watched.Ordinary codec) s actions ∧
    run (Watched.step codec) s actions = some after

theorem Watched.Reaches.refl (codec : Codec) (s : Watched) : Watched.Reaches codec s s :=
  ⟨[], trivial, rfl⟩

theorem Watched.Reaches.trans {codec : Codec} {middle after : Watched}
    (early : Watched.Reaches codec s middle) (late : Watched.Reaches codec middle after) :
    Watched.Reaches codec s after := by
  obtain ⟨first, ordinary, reached⟩ := early
  obtain ⟨second, later, done⟩ := late
  refine ⟨first ++ second, ordinary.append ?_, (run_append_eq_some _ _ _ _).mpr ⟨middle, reached, done⟩⟩
  intro other also
  cases reached.symm.trans also
  exact later

theorem Watched.Reaches.single {codec : Codec} {after : Watched} {action : Action}
    (stepped : Watched.step codec s action = some after) (ordinary : s.Ordinary codec action) :
    Watched.Reaches codec s after :=
  ⟨[action], ⟨ordinary, fun _ _ => trivial⟩, (run_cons_eq_some _ _ _ _).mpr ⟨after, stepped, rfl⟩⟩

theorem Watched.step_command {codec : Codec} {hub : Hub}
    (handled : handle codec order s.loop.hub cmd = some (hub, effects, false)) :
    Watched.step codec s (.command cmd order) =
      some
        { loop :=
            { hub := hub
              log := s.loop.log ++ effects
              joins := s.loop.joins + cmd.joinCount }
          sent := retap (attached cmd effects) s.sent } := by
  have stepped := Loop.step_command.mpr ⟨hub, effects, handled, rfl⟩
  simp only [Watched.step, stepped, Option.map_some, Watched.tap, List.drop_left]

theorem Watched.SoloAt.written {codec : Codec} {rest : List Bytes}
    (solo : s.SoloAt next (frame :: rest)) :
    ∃ after, Watched.Reaches codec s after ∧ after.SoloAt next rest := by
  have stepped : Loop.step codec s.loop (.written 1) =
      some { s.loop with hub := s.loop.hub.withClient 1 (hostSlot rest) } := by
    simp only [Loop.step, Hub.written, solo.solo.steady]
    rfl
  have taken : Watched.step codec s (.written 1) = some _ :=
    Option.map_eq_some_iff.mpr ⟨_, stepped, rfl⟩
  refine ⟨_, .single taken trivial, ?_⟩
  exact
    { solo := solo.solo.drop rest
      begun := solo.begun }

theorem Watched.SoloAt.join {codec : Codec} (carries : CarriesVisits codec)
    (solo : s.SoloAt next []) (other : next ≠ 1) :
    ∃ during hello notice, Watched.Reaches codec s during ∧
      encode codec (visitorHello next) = some hello ∧ during.sent next = [] ∧
      during.loop.joins ≠ 0 ∧ during.loop.hub.Visited next 1 hello notice := by
  obtain ⟨middle, effects, hello, notice, joined, traffic, encoded, visited⟩ :=
    solo.solo.join carries other 1
  have stepped := Watched.step_command joined
  refine ⟨_, hello, notice, .single stepped ?_, encoded, ?_, ?_, visited⟩
  · simp [Watched.Ordinary, solo.begun]
  · simp [retap, attached]
  · exact Nat.succ_ne_zero _

theorem Watched.SoloAt.visit {codec : Codec} (carries : CarriesVisits codec)
    (solo : s.SoloAt next []) (other : next ≠ 1) :
    ∃ after, Watched.Reaches codec s after ∧ after.SoloAt (next + 1) [] := by
  obtain ⟨during, hello, notice, came, _, _, begun, visited⟩ := solo.join carries other
  obtain ⟨last, effects, farewell, left, alone⟩ := visited.solo carries other
  have went : ∃ after, Watched.Reaches codec during after ∧
      after.SoloAt (next + 1) [notice, farewell] :=
    ⟨_, .single (Watched.step_command left) trivial, alone, begun⟩
  obtain ⟨after, gone, told⟩ := went
  obtain ⟨once, firstWrite, waiting⟩ := told.written
  obtain ⟨final, secondWrite, done⟩ := waiting.written
  exact ⟨final, (came.trans gone).trans (firstWrite.trans secondWrite), done⟩

/-- Participant 0 is not told that the creator leaves. -/
theorem wrapped_member_misses_departure :
    ¬∀ (codec : Codec) (member : MemberCodec codec) (maxParticipants grace : Nat)
      (actions : List Action) (s : Watched),
      Along (Watched.step codec) (Watched.Ordinary codec)
          (Watched.start maxParticipants grace) actions →
        run (Watched.step codec) (Watched.start maxParticipants grace) actions = some s →
          s.ShowsMembers member := by
  intro claimed
  have begun : ∃ s, Watched.Reaches cborCodec (Watched.start 16 30) s ∧ s.SoloAt 2 [] := by
    have finished : (run (Watched.step cborCodec) (Watched.start 16 30)
        [.command (.join 0 true [1]) .stored, .written 1]).any (fun s =>
          decide (s.loop.hub.max = 16 ∧ s.loop.hub.nextID = 2 ∧ s.loop.hub.host = 1 ∧
            s.loop.hub.evict = [] ∧ s.loop.hub.clients.lookup 1 = some (hostSlot []) ∧
            s.loop.hub.clients.keys = [1] ∧ s.loop.joins ≠ 0)) = true := by
      decide +kernel
    obtain ⟨s, reached, checked⟩ := (Option.any_eq_true _ _).mp finished
    obtain ⟨max, nextID, host, settled, steady, keys, joins⟩ := of_decide_eq_true checked
    have ordinary : Along (Watched.step cborCodec) (Watched.Ordinary cborCodec)
        (Watched.start 16 30) [.command (.join 0 true [1]) .stored, .written 1] := by
      decide +kernel
    exact ⟨s, ⟨_, ordinary, reached⟩, .of_keys max nextID host settled steady keys, joins⟩
  obtain ⟨first, started, solo⟩ := begun
  have round : ∃ after, Watched.Reaches cborCodec first after ∧
      after.SoloAt (UInt32.ofNat (2 + (2 ^ 32 - 2))) [] :=
    @ids_come_round Watched (Watched.Reaches cborCodec) (fun next _ s => s.SoloAt next [])
      (Watched.Reaches.refl cborCodec) (fun _ _ _ => Watched.Reaches.trans)
      (fun _ _ _ other still => still.visit cborCodec_carriesVisits other) first 0 solo
      (2 ^ 32 - 2) (by decide)
  have wrapped : UInt32.ofNat (2 + (2 ^ 32 - 2)) = 0 := by decide
  rw [wrapped] at round
  obtain ⟨middle, visits, back⟩ := round
  obtain ⟨during, hello, notice, came, encoded, fresh, joins, visited⟩ :=
    back.join cborCodec_carriesVisits (by decide)
  obtain ⟨after, effects, farewell, left, offers, _⟩ :=
    visited.leave cborCodec_carriesVisits visited.steady rfl rfl (by decide)
      (mem_of_lookup visited.guest)
  have went : Watched.Reaches cborCodec during _ := .single (Watched.step_command left) trivial
  obtain ⟨actions, ordinary, reached⟩ := ((started.trans visits).trans came).trans went
  have kept : after.clients.lookup 0 = some (newClient 0 hello 1 [2]) := by
    rw [offers.kept 0 (fun differs => differs rfl)]
    exact (AList.lookup_erase_ne (by decide)).trans visited.guest
  obtain ⟨seen, view, current⟩ :=
    claimed cborCodec cborMember 16 30 actions _ ordinary reached 0 _ kept rfl
  have shown : membershipView cborMember [hello] = some (fun q => decide (q ∈ [1])) := by
    cases encoded
    rfl
  have stream : membershipView cborMember [hello] = some seen := by
    change membershipView cborMember (during.sent 0 ++ [hello]) = some seen at view
    rwa [fresh] at view
  rw [shown] at stream
  cases stream
  -- 1 is on the list of 0 but no longer in the session.
  have there : (1 : ParticipantID) ∈ after.clients := ((current 1).mp (by decide)).1
  exact (AList.mem_erase.mp ((offers.mem_iff 1).mp there)).1 rfl

end Parley.Relay
