/-
What a held slot is sent while its owner is away.

A held slot has no writer, so its channel grows by exactly what the hub queues to
it until the slot is resumed or removed.  A resume puts the reply first and the
frames after it, as far as the channel has room: the channel holds sixty-four
frames, so the last of sixty-four buffered ones is dropped.
-/

import Parley.Relay.Representation

namespace Parley.Relay

open Wire Library

def bodiesTo (q : ParticipantID) (effects : List Effect) : List Body :=
  effects.filterMap (fun effect =>
    match effect with
    | .queued id body => if id = q then some body else none
    | _ => none)

@[simp] theorem bodiesTo_append (q : ParticipantID) (early late : List Effect) :
    bodiesTo q (early ++ late) = bodiesTo q early ++ bodiesTo q late :=
  List.filterMap_append

@[simp] theorem bodiesTo_kicked (q : ParticipantID) (conn : ConnID) (rest : List Effect) :
    bodiesTo q (.kicked conn :: rest) = bodiesTo q rest := rfl

variable {effects early : List Effect} {codec : Codec} {q p id : ParticipantID} {d c : Client}
  {after before h middle : Hub} {emptied returned : Bool} {frames : List Body} {s : Loop}
  {cmd : Cmd} {body : Body}

theorem mem_bodiesTo :
    body ∈ bodiesTo q effects ↔ .queued q body ∈ effects := by
  unfold bodiesTo
  rw [List.mem_filterMap]
  constructor
  · rintro ⟨effect, member, same⟩
    cases effect with
    | queued id sent =>
        obtain ⟨isQ, isBody⟩ := Option.ite_none_right_eq_some.mp same
        cases isQ
        cases isBody
        exact member
    | _ => cases same
  · intro member
    exact ⟨_, member, if_pos rfl⟩

theorem bodiesTo_eq_nil (silent : ∀ body, .queued q body ∉ effects) : bodiesTo q effects = [] := by
  apply List.eq_nil_iff_forall_not_mem.mpr
  intro body member
  exact silent body (mem_bodiesTo.mp member)

/-- The slot of `q` has what was queued to it, after what it had. -/
def Filled (codec : Codec) (q : ParticipantID) (before after : Client) (effects : List Effect) :
    Prop :=
  after.out.map some = before.out.map some ++ (bodiesTo q effects).map (encode codec)

theorem Filled.refl (silent : ∀ body, .queued q body ∉ effects) : Filled codec q c c effects := by
  unfold Filled
  rw [bodiesTo_eq_nil silent, List.map_nil, List.append_nil]

variable {targets : ParticipantID → Prop} {late : List Effect} {action : Action} {order : Order}
  {next : Loop}

theorem Filled.trans {first second third : Client} (begun : Filled codec q first second early)
    (ended : Filled codec q second third late) :
    Filled codec q first third (early ++ late) := by
  unfold Filled at begun ended ⊢
  rw [ended, begun, bodiesTo_append, List.map_append, List.append_assoc]

theorem length_bodiesTo (q : ParticipantID) (effects : List Effect) :
    (bodiesTo q effects).length = effects.countP (Effect.reaches q) := by
  unfold bodiesTo
  rw [List.length_filterMap_eq_countP]
  refine List.countP_congr (fun effect _ => ?_)
  cases effect with
  | queued id body =>
      by_cases same : id = q
      · simp [same, Effect.reaches]
      · simp [same, Effect.reaches]
  | _ => exact Iff.rfl

theorem offer_out_of_not_accepts {frame : Bytes} (refused : ¬ c.accepts = true) :
    (offer frame c).out = c.out := by
  cases marked : c.evicting with
  | true => rw [offer_of_evicting marked]
  | false =>
      rcases accepts_or_overflows marked with ⟨room, -⟩ | ⟨-, full⟩
      · exact absurd room refused
      · rw [offer_of_overflows full]

/-- A slot that took the frame offered to it was queued the frame and nothing
else; a slot that did not was queued nothing. -/
theorem Spread.filled (spread : Spread codec body targets before after effects)
    (found : before.clients.lookup q = some c) (there : after.clients.lookup q = some d) :
    Filled codec q c d effects := by
  cases spread with
  | unencodable refused =>
      rw [found] at there
      cases there
      exact .refl (fun body member => by cases member)
  | @offered frame _ _ encoded offers =>
      have grown := offers.reaches found there
      rw [← length_bodiesTo] at grown
      unfold Filled
      by_cases took : targets q ∧ c.accepts = true
      · have isOffered : d = offer frame c := by
          rw [offers.offered q took.1, found, Option.map_some] at there
          exact (Option.some.inj there).symm
        rw [isOffered, offer_of_accepts took.2] at grown ⊢
        simp only [List.length_append, List.length_singleton] at grown
        have one : (bodiesTo q effects).length = 1 := by omega
        obtain ⟨only, isOnly⟩ := List.length_eq_one_iff.mp one
        have sent : .queued q only ∈ effects := by
          rw [← mem_bodiesTo, isOnly]
          exact List.mem_singleton_self only
        have isBody := ((offers.queued q only).mp sent).1
        rw [isOnly, isBody, List.map_append, List.map_singleton, List.map_singleton, encoded]
      · have nothing : bodiesTo q effects = [] := by
          apply bodiesTo_eq_nil
          intro sent member
          obtain ⟨-, target, e, again, accepted⟩ := (offers.queued q sent).mp member
          rw [found] at again
          cases again
          exact took ⟨target, accepted⟩
        have same : d.out = c.out := by
          obtain ⟨old, origin, state⟩ := offers.source there
          rw [found] at origin
          cases origin
          rcases state with rfl | ⟨target, rfl⟩
          · rfl
          · exact offer_out_of_not_accepts (fun room => took ⟨target, room⟩)
        rw [nothing, same, List.map_nil, List.append_nil]

theorem Removal.found_without (removal : Removal codec id before after effects emptied)
    (found : before.clients.lookup q = some c) (there : after.clients.lookup q = some d) :
    (before.without id).clients.lookup q = some c := by
  have other : q ≠ id := by
    intro same
    rw [(removal.unreached (Or.inl same)).1] at there
    cases there
  exact (AList.lookup_erase_ne other).trans found

theorem Removal.filled (removal : Removal codec id before after effects emptied)
    (found : before.clients.lookup q = some c) (there : after.clients.lookup q = some d) :
    Filled codec q c d effects := by
  have left := removal.found_without found there
  cases removal with
  | emptied _ alone =>
      rw [left] at there
      cases there
      exact .refl (fun body member => by cases List.mem_singleton.mp member)
  | announced _ others notice => exact notice.filled left there

theorem Drained.filled (drained : Drained codec before after effects emptied)
    (found : before.clients.lookup q = some c) (there : after.clients.lookup q = some d) :
    Filled codec q c d effects := by
  induction drained generalizing c with
  | done empty =>
      rw [found] at there
      cases there
      exact .refl (fun body member => by cases member)
  | skipped pending absent later ih => exact ih found there
  | emptied pending removal => exact removal.filled found there
  | evicted pending removal later ih =>
      obtain ⟨middle, between, -⟩ := later.owner there
      exact (removal.filled found between).trans (ih between there)

theorem Spread.marked (spread : Spread codec body targets before after effects)
    (found : before.clients.lookup q = some c) (marked : c.evicting = true)
    (there : after.clients.lookup q = some d) : d.evicting = true := by
  cases spread with
  | unencodable refused =>
      rw [found] at there
      cases there
      exact marked
  | offered encoded offers =>
      obtain ⟨old, origin, state⟩ := offers.source there
      rw [found] at origin
      cases origin
      rcases state with rfl | ⟨-, rfl⟩
      · exact marked
      · rw [offer_of_evicting marked]
        exact marked

theorem Removal.marked (removal : Removal codec id before after effects emptied)
    (found : before.clients.lookup q = some c) (marked : c.evicting = true)
    (there : after.clients.lookup q = some d) : d.evicting = true := by
  have left := removal.found_without found there
  cases removal with
  | emptied _ alone =>
      rw [left] at there
      cases there
      exact marked
  | announced _ others notice => exact notice.marked left marked there

theorem Drained.marked (drained : Drained codec before after effects emptied)
    (found : before.clients.lookup q = some c) (marked : c.evicting = true)
    (there : after.clients.lookup q = some d) : d.evicting = true := by
  induction drained generalizing c with
  | done empty =>
      rw [found] at there
      cases there
      exact marked
  | skipped pending absent later ih => exact ih found marked there
  | emptied pending removal => exact removal.marked found marked there
  | evicted pending removal later ih =>
      obtain ⟨middle, between, -⟩ := later.owner there
      exact ih between (removal.marked found marked between) there

theorem Drained.unmarked_before (drained : Drained codec before after effects emptied)
    (found : before.clients.lookup q = some c) (there : after.clients.lookup q = some d)
    (unmarked : d.evicting = false) :
    c.evicting = false := by
  cases marked : c.evicting with
  | false => rfl
  | true =>
      rw [drained.marked found marked there] at unmarked
      cases unmarked

theorem Removal.announces (removal : Removal codec id before after effects emptied)
    (encodes : encode codec (.participantLeft id) ≠ none) (nonzero : q ≠ 0)
    (there : after.clients.lookup q = some d) (unmarked : d.evicting = false) :
    .queued q (.participantLeft id) ∈ effects := by
  cases removal with
  | emptied _ alone =>
      have member := AList.mem_keys.mp (mem_of_lookup there)
      rw [alone] at member
      cases member
  | announced _ others notice =>
      cases notice with
      | unencodable refused => exact absurd refused encodes
      | offered encoded offers =>
          have offered := offers.offered q nonzero
          rw [there] at offered
          obtain ⟨c, found, isOffered⟩ := Option.map_eq_some_iff.mp offered.symm
          rw [← isOffered] at unmarked
          exact List.mem_cons_of_mem _
            ((offers.queued q _).mpr ⟨rfl, nonzero, c, found, accepts_of_offer unmarked⟩)

theorem Drained.announces (drained : Drained codec before after effects emptied)
    (encodes : encode codec (.participantLeft p) ≠ none) (present : p ∈ before.clients)
    (gone : after.clients.lookup p = none) (nonzero : q ≠ 0)
    (there : after.clients.lookup q = some d) (unmarked : d.evicting = false) :
    .queued q (.participantLeft p) ∈ effects := by
  induction drained with
  | done empty => exact absurd present (AList.lookup_eq_none.mp gone)
  | skipped pending absent later ih => exact ih present gone there
  | @emptied h after effects id rest pending removal =>
      have alone : ∀ {r : ParticipantID} {e : Client}, after.clients.lookup r ≠ some e := by
        intro r e found
        cases removal with
        | emptied _ alone =>
            have member := AList.mem_keys.mp (mem_of_lookup found)
            rw [alone] at member
            cases member
      exact absurd there alone
  | @evicted h middle after early late emptied id rest pending removal later ih =>
      by_cases same : p = id
      · subst same
        obtain ⟨e, between, -⟩ := later.owner there
        have fresh := later.unmarked_before between there unmarked
        exact List.mem_append_left _ (removal.announces encodes nonzero between fresh)
      · obtain ⟨c, found⟩ := Option.isSome_iff_exists.mp (AList.lookup_isSome.mpr present)
        obtain ⟨e, between, -⟩ := removal.reaches same found
        exact List.mem_append_right _ (ih (mem_of_lookup between) gone there)

/-- What a command makes of the held slot `c` of `p`. -/
inductive HeldOutcome (codec : Codec) (h : Hub) (p : ParticipantID) (c : Client) (cmd : Cmd)
    (after : Hub) (effects : List Effect) : Prop where
  /-- It stays, with everything queued to it. -/
  | waiting {d : Client} (there : after.clients.lookup p = some d) (held : d.held = true)
      (filled : Filled codec p c d effects)
  /-- It is resumed: the reply leads, and what there is room for follows. -/
  | resumed {conn : ConnID} {visit : List ParticipantID → List ParticipantID} {frame : Bytes}
      {d : Client} (isResume : cmd = .resume p c.token conn)
      (encoded : encode codec (helloReply h visit false p c.token) = some frame)
      (there : after.clients.lookup p = some d) (live : d.held = false)
      (refilled : d.out = frame :: c.out.take (sendBuffer - 1))
  /-- It is removed, and whoever stays is told. -/
  | forfeited (gone : after.clients.lookup p = none)
      (announced : encode codec (.participantLeft p) ≠ none →
        ∀ q, q ∈ after.clients → q ≠ 0 → .queued q (.participantLeft p) ∈ effects)
  /-- Its id is given out again. -/
  | reissued {conn : ConnID} {isCreate : Bool} {token : Bytes}
      (isJoin : cmd = .join conn isCreate token) (isNext : h.nextID = p)
      (live : ∀ d, after.clients.lookup p = some d → d.held = false)

inductive HeldStage (codec : Codec) (h : Hub) (p : ParticipantID) (c : Client) (cmd : Cmd)
    (middle : Hub) (early : List Effect) (returned : Bool) : Prop where
  | waiting {d : Client} (there : middle.clients.lookup p = some d) (held : d.held = true)
      (filled : Filled codec p c d early)
  | resumed {conn : ConnID} {visit : List ParticipantID → List ParticipantID} {frame : Bytes}
      (isResume : cmd = .resume p c.token conn)
      (encoded : encode codec (helloReply h visit false p c.token) = some frame)
      (settled : middle.evict = [])
      (there : middle.clients.lookup p = some (c.resumed frame conn))
  | removed (removal : Removal codec p h middle early returned)
  | reissued {conn : ConnID} {isCreate : Bool} {token : Bytes}
      (isJoin : cmd = .join conn isCreate token) (isNext : h.nextID = p)
      (live : ∀ d, middle.clients.lookup p = some d → d.held = false)

theorem Served.heldStage (served : Served codec h cmd middle early returned)
    (settled : h.evict = []) (found : h.clients.lookup p = some c) (held : c.held = true) :
    HeldStage codec h p c cmd middle early returned := by
  have spread : ∀ {body : Body} {targets : ParticipantID → Prop},
      Spread codec body targets h middle early → HeldStage codec h p c cmd middle early returned := by
    intro body targets sent
    obtain ⟨d, there, -⟩ := sent.reaches found
    obtain ⟨old, origin, same⟩ := sent.owner there
    rw [found] at origin
    cases origin
    exact .waiting there (same.held.trans held) (sent.filled found there)
  have removal : ∀ {id : ParticipantID}, Removal codec id h middle early returned →
      HeldStage codec h p c cmd middle early returned := by
    intro id removed
    by_cases same : p = id
    · subst same
      exact .removed removed
    · obtain ⟨d, there, -⟩ := removed.reaches same found
      obtain ⟨old, origin, kept⟩ := removed.owner there
      rw [found] at origin
      cases origin
      exact .waiting there (kept.held.trans held) (removed.filled found there)
  cases served with
  | ignored idle =>
      refine .waiting found held (.refl (fun body member => ?_))
      exact absurd (idle _ member) Bool.false_ne_true
  | unencoded refused =>
      exact .waiting found held (.refl (fun body member => by cases List.mem_singleton.mp member))
  | @admitted conn isCreate token visit frame _ effects perm room encoded notice =>
      by_cases isNext : h.nextID = p
      · refine .reissued rfl isNext (fun d there => ?_)
        obtain ⟨old, origin, same⟩ := notice.owner there
        rw [← isNext, show (h.issued.withClient h.nextID (newClient h.nextID frame conn
          token)).clients.lookup h.nextID = some (newClient h.nextID frame conn token) from
            AList.lookup_insert _] at origin
        cases origin
        exact same.held
      · have registered : (h.issued.withClient h.nextID
            (newClient h.nextID frame conn token)).clients.lookup p = some c :=
          (AList.lookup_insert_ne (fun same => isNext same.symm)).trans found
        obtain ⟨d, there, -⟩ := notice.reaches registered
        obtain ⟨old, origin, same⟩ := notice.owner there
        rw [registered] at origin
        cases origin
        have quiet : Filled codec p c c [.queued h.nextID (helloReply h visit isCreate h.nextID token),
            .joinReply conn { ok := true, errC := 0, errS := "", id := h.nextID, gen := 1 }] := by
          refine .refl (fun body member => ?_)
          rcases List.mem_cons.mp member with first | reply
          · cases first
            exact isNext rfl
          · cases List.mem_singleton.mp reply
        exact .waiting there (same.held.trans held) (quiet.trans (notice.filled registered there))
  | @held id gen other there live current graced =>
      have differs : p ≠ id := by
        rintro rfl
        rw [found] at there
        cases there
        rw [held] at live
        cases live
      exact .waiting ((AList.lookup_insert_ne differs).trans found) held
        (.refl (fun body member => by cases member))
  | left there live current final removed => exact removal removed
  | expired there waiting current removed => exact removal removed
  | @resumed id token conn other visit frame perm there authentic encoded =>
      by_cases same : p = id
      · subst same
        rw [found] at there
        cases there
        exact .resumed (by rw [authentic]) encoded settled (AList.lookup_insert _)
      · refine .waiting ((AList.lookup_insert_ne same).trans found) held
          (.refl (fun body member => ?_))
        rcases List.mem_append.mp member with kick | own
        · split at kick
          · cases kick
          · cases List.mem_singleton.mp kick
        · rcases List.mem_cons.mp own with first | reply
          · cases first
            exact same rfl
          · cases List.mem_singleton.mp reply
  | claimed there =>
      exact .waiting found held (.refl (fun body member => by cases member))
  | complained answer => exact spread answer
  | directed decoded sent => exact spread sent
  | broadcast decoded sent => exact spread sent
  | closing notice => exact spread notice

theorem refill_eq (hello : Bytes) (buffered : List Bytes) :
    refill hello buffered = hello :: buffered.take (sendBuffer - 1) := rfl

theorem shutdown_silent (h : Hub) (q : ParticipantID) (body : Body) :
    .queued q body ∉ shutdown h := by
  intro member
  obtain ⟨entry, -, same⟩ := List.mem_map.mp member
  cases same

theorem Drained.empties (drained : Drained codec before after effects emptied)
    (ended : emptied = true) (q : ParticipantID) : q ∉ after.clients := by
  induction drained with
  | done empty => cases ended
  | skipped pending absent later ih => exact ih ended
  | emptied pending removal =>
      intro member
      cases removal with
      | emptied _ alone =>
          have key := AList.mem_keys.mp member
          rw [alone] at key
          cases key
  | evicted pending removal later ih => exact ih ended

theorem drained_unmarked (drained : Drained codec middle after late returned)
    (tracked : middle.Tracked) (there : after.clients.lookup q = some d) : d.evicting = false := by
  cases ended : returned with
  | true => exact absurd (mem_of_lookup there) (drained.empties ended q)
  | false =>
      obtain ⟨later, settled⟩ := Hub.Tracked.drained drained tracked
      exact later.unmarked (settled ended) q d there

theorem handle_heldOutcome (handled : handle codec order h cmd = some (after, effects, returned))
    (calm : h.Calm) (found : h.clients.lookup p = some c) (held : c.held = true) :
    HeldOutcome codec h p c cmd after effects := by
  rcases handle_served handled with
    ⟨early, served, rfl, -⟩ | ⟨middle, early, late, served, drained, rfl⟩
  · cases served.heldStage calm.settled found held with
    | waiting there isHeld filled =>
        exact .waiting there isHeld (filled.trans (.refl (shutdown_silent after p)))
    | resumed isResume encoded settled there =>
        refine .resumed isResume encoded there rfl ?_
        rw [Client.resumed, if_pos held, refill_eq]
    | removed removal =>
        cases removal with
        | emptied _ alone =>
            refine .forfeited (AList.lookup_erase p h.clients) (fun _ q member => ?_)
            have key := AList.mem_keys.mp member
            rw [alone] at key
            cases key
    | reissued isJoin isNext live => exact .reissued isJoin isNext live
  · have unmarked : ∀ {q : ParticipantID} {d : Client}, after.clients.lookup q = some d →
        d.evicting = false :=
      fun there => drained_unmarked drained (served.tracked calm.tracked) there
    have last : ∀ body, .queued p body ∉ (if returned = true then shutdown after else []) := by
      intro body member
      split at member
      · exact shutdown_silent after p body member
      · cases member
    cases served.heldStage calm.settled found held with
    | @waiting d there isHeld filled =>
        cases remains : after.clients.lookup p with
        | some e =>
            obtain ⟨old, origin, same⟩ := drained.owner remains
            rw [there] at origin
            cases origin
            refine .waiting remains (same.held.trans isHeld) ?_
            exact (filled.trans (drained.filled there remains)).trans (.refl last)
        | none =>
            refine .forfeited remains (fun encodes q member nonzero => ?_)
            obtain ⟨e, stays⟩ := Option.isSome_iff_exists.mp (AList.lookup_isSome.mpr member)
            exact List.mem_append_left _ (List.mem_append_right _
              (drained.announces encodes (mem_of_lookup there) remains nonzero stays
                (unmarked stays)))
    | resumed isResume encoded settled there =>
        rw [drained.of_settled settled]
        refine .resumed isResume encoded there rfl ?_
        rw [Client.resumed, if_pos held, refill_eq]
    | removed removal =>
        have absent := (removal.unreached (Or.inl rfl)).1
        have gone : after.clients.lookup p = none := by
          refine AList.lookup_eq_none.mpr (fun member => ?_)
          exact absurd (drained.mem_before member) (AList.lookup_eq_none.mp absent)
        refine .forfeited gone (fun encodes q member nonzero => ?_)
        obtain ⟨e, stays⟩ := Option.isSome_iff_exists.mp (AList.lookup_isSome.mpr member)
        obtain ⟨d, there, -⟩ := drained.owner stays
        have fresh := drained.unmarked_before there stays (unmarked stays)
        exact List.mem_append_left _ (List.mem_append_left _
          (removal.announces encodes nonzero there fresh))
    | reissued isJoin isNext live =>
        refine .reissued isJoin isNext (fun d stays => ?_)
        obtain ⟨old, there, same⟩ := drained.owner stays
        exact same.held.trans (live old there)

/-! ### Whole runs -/

theorem Served.held_source (served : Served codec h cmd middle early returned)
    (settled : h.evict = []) (there : middle.clients.lookup p = some d) (held : d.held = true) :
    (∃ c, h.clients.lookup p = some c ∧ c.held = true) ∨ (d.out = [] ∧ middle.evict = []) := by
  have of_owner : (∃ old, h.clients.lookup p = some old ∧ SameOwner old d) →
      ∃ c, h.clients.lookup p = some c ∧ c.held = true := by
    rintro ⟨old, found, same⟩
    exact ⟨old, found, same.held.symm.trans held⟩
  cases served with
  | ignored idle => exact Or.inl ⟨d, there, held⟩
  | unencoded refused => exact Or.inl ⟨d, there, held⟩
  | admitted perm room encoded notice =>
      obtain ⟨old, origin, same⟩ := notice.owner there
      rcases lookup_withClient origin with ⟨-, rfl⟩ | ⟨-, found⟩
      · rw [same.held] at held
        cases held
      · exact Or.inl (of_owner ⟨old, found, same⟩)
  | held found live current graced =>
      rcases lookup_withClient there with ⟨-, rfl⟩ | ⟨-, known⟩
      · exact Or.inr ⟨rfl, settled⟩
      · exact Or.inl ⟨d, known, held⟩
  | left found live current final removal => exact Or.inl (of_owner (removal.owner there))
  | expired found waiting current removal => exact Or.inl (of_owner (removal.owner there))
  | resumed perm found authentic encoded =>
      rcases lookup_withClient there with ⟨-, rfl⟩ | ⟨-, known⟩
      · cases held
      · exact Or.inl ⟨d, known, held⟩
  | claimed found => exact Or.inl ⟨d, there, held⟩
  | complained answer => exact Or.inl (of_owner (answer.owner there))
  | directed decoded sent => exact Or.inl (of_owner (sent.owner there))
  | broadcast decoded sent => exact Or.inl (of_owner (sent.owner there))
  | closing notice => exact Or.inl (of_owner (notice.owner there))

def Hub.isHeld (h : Hub) (p : ParticipantID) : Bool :=
  (h.clients.lookup p).any (·.held)

theorem Hub.isHeld_iff :
    h.isHeld p = true ↔ ∃ c, h.clients.lookup p = some c ∧ c.held = true :=
  Option.any_eq_true _ _

/-- What the hub has queued to `p` since the slot was last not held, a step of
the run later. -/
def stillSince (p : ParticipantID) (s next : Loop) (frames : List Body) : List Body :=
  if s.hub.isHeld p && next.hub.isHeld p then
    frames ++ bodiesTo p (next.log.drop s.log.length)
  else []

/-- What the hub queued to `p` since its slot was last not held, at the end of a
run. -/
def sinceHold (codec : Codec) (p : ParticipantID) : Loop → List Action → List Body → List Body
  | _, [], frames => frames
  | s, action :: rest, frames =>
      match Loop.step codec s action with
      | none => frames
      | some next => sinceHold codec p next rest (stillSince p s next frames)

/-- A held slot's channel is what was queued since the hold began. -/
structure Loop.Buffers (codec : Codec) (p : ParticipantID) (s : Loop) (frames : List Body) :
    Prop where
  calm : s.hub.Calm
  buffered : ∀ c, s.hub.clients.lookup p = some c → c.held = true →
    c.out.map some = frames.map (encode codec)

theorem Loop.calm_step (calm : s.hub.Calm) (stepped : Loop.step codec s action = some next) :
    next.hub.Calm := by
  rcases Loop.step_cases stepped with
    ⟨cmd, order, _, _, _, rfl, _⟩ | ⟨id, c, found, _, rfl, rfl⟩ |
      ⟨id, c, body, frame, found, _, room, _, _, rfl, rfl⟩
  · obtain ⟨hub, effects, handled, rfl⟩ := Loop.step_command.mp stepped
    exact handle_calm handled calm
  · refine calm.update (calm.keyed id c found) (calm.unmarked id c found) ?_
    have bound := calm.bounded id c found
    rw [List.length_drop]
    omega
  · refine calm.update (calm.keyed id c found) (calm.unmarked id c found) ?_
    rw [List.length_append, List.length_singleton]
    exact room

theorem Loop.Buffers.command {hub : Hub} (buffers : s.Buffers codec p frames)
    (handled : handle codec order s.hub cmd = some (hub, effects, false))
    (there : hub.clients.lookup p = some d) (held : d.held = true) :
    d.out.map some =
      (if s.hub.isHeld p then frames ++ bodiesTo p effects else []).map (encode codec) := by
  cases earlier : s.hub.isHeld p with
  | true =>
      obtain ⟨c, found, wasHeld⟩ := Hub.isHeld_iff.mp earlier
      rw [if_pos rfl, List.map_append, ← buffers.buffered c found wasHeld]
      cases handle_heldOutcome handled buffers.calm found wasHeld with
      | waiting again _ filled =>
          rw [there] at again
          cases again
          exact filled
      | resumed _ _ again live _ =>
          rw [there] at again
          cases again
          rw [held] at live
          cases live
      | forfeited gone _ =>
          rw [there] at gone
          cases gone
      | reissued _ _ live =>
          have contrary := live d there
          rw [held] at contrary
          cases contrary
  | false =>
      obtain ⟨middle, early, late, served, drained, -⟩ := handle_continues handled
      obtain ⟨e, between, same⟩ := drained.owner there
      rw [if_neg Bool.false_ne_true, List.map_nil]
      rcases served.held_source buffers.calm.settled between (same.held.symm.trans held) with
        wasHeld | ⟨empty, settled⟩
      · rw [Hub.isHeld_iff.mpr wasHeld] at earlier
        cases earlier
      · rw [drained.of_settled settled, between] at there
        cases there
        rw [empty, List.map_nil]

theorem Loop.Buffers.other {updated : Client} (buffers : s.Buffers codec p frames)
    (live : updated.held = false) (held : d.held = true)
    (there : (s.hub.withClient id updated).clients.lookup p = some d) :
    d.out.map some = (stillSince p s { s with hub := s.hub.withClient id updated } frames).map
      (encode codec) := by
  have heldNow : (s.hub.withClient id updated).isHeld p = true := Hub.isHeld_iff.mpr ⟨d, there, held⟩
  rcases lookup_withClient there with ⟨-, rfl⟩ | ⟨-, found⟩
  · rw [held] at live
    cases live
  · have heldBefore : s.hub.isHeld p = true := Hub.isHeld_iff.mpr ⟨d, found, held⟩
    simp only [stillSince, heldBefore, heldNow, Bool.and_self, if_true, List.drop_length]
    rw [show bodiesTo p [] = [] from rfl, List.append_nil]
    exact buffers.buffered d found held

theorem Loop.Buffers.step (buffers : s.Buffers codec p frames)
    (stepped : Loop.step codec s action = some next) :
    next.Buffers codec p (stillSince p s next frames) := by
  refine
    { calm := Loop.calm_step buffers.calm stepped
      buffered := fun d there held => ?_ }
  rcases Loop.step_cases stepped with
    ⟨cmd, order, _, _, _, rfl, _⟩ | ⟨id, c, found, live, rfl, rfl⟩ |
      ⟨id, c, body, frame, found, live, _, _, _, rfl, rfl⟩
  · obtain ⟨hub, effects, handled, rfl⟩ := Loop.step_command.mp stepped
    have heldNow : hub.isHeld p = true := Hub.isHeld_iff.mpr ⟨d, there, held⟩
    simp only [stillSince, heldNow, Bool.and_true, List.drop_left]
    exact buffers.command handled there held
  · exact buffers.other live held there
  · exact buffers.other live held there

theorem Loop.Buffers.run {final : Loop} {actions : List Action} (buffers : s.Buffers codec p frames)
    (reached : Library.run (Loop.step codec) s actions = some final) :
    final.Buffers codec p (sinceHold codec p s actions frames) := by
  induction actions generalizing s frames with
  | nil =>
      cases reached
      exact buffers
  | cons action rest ih =>
      obtain ⟨next, stepped, tail⟩ := (run_cons_eq_some s final action rest).mp reached
      simp only [sinceHold, stepped]
      exact ih (buffers.step stepped) tail

theorem Loop.start_buffers (codec : Codec) (p : ParticipantID) (maxParticipants grace : Nat) :
    (Loop.start maxParticipants grace).Buffers codec p [] := by
  have nobody : ∀ q c, (Loop.start maxParticipants grace).hub.clients.lookup q ≠ some c :=
    fun q c found => AList.notMem_empty q (mem_of_lookup found)
  exact
    { calm :=
        { keyed := fun q c found => absurd found (nobody q c)
          settled := rfl
          unmarked := fun q c found => absurd found (nobody q c)
          bounded := fun q c found => absurd found (nobody q c) }
      buffered := fun c found _ => absurd found (nobody p c) }

/-- The outage buffer: in every reachable state a held slot has at most
sixty-four frames since its hold began; a resume with the right token leaves the
reply and the first sixty-three of them; and every command leaves them in the
slot, resumes it, or removes it and says so to whoever stays. -/
theorem outage_replayed_within_capacity (codec : Codec) (maxParticipants grace : Nat)
    (actions : List Action) (s : Loop)
    (reached : run (Loop.step codec) (Loop.start maxParticipants grace) actions = some s)
    (p : ParticipantID) (c : Client) (found : s.hub.clients.lookup p = some c)
    (held : c.held = true) :
    (sinceHold codec p (Loop.start maxParticipants grace) actions []).length ≤ sendBuffer ∧
      (∀ (order : Order) (conn : ConnID) (hello : Bytes),
        encode codec (helloReply s.hub (order.visit 0) false p c.token) = some hello →
        ∃ d, (handleResume codec order s.hub p c.token conn).1.clients.lookup p = some d ∧
          d.out.map some = some hello ::
            ((sinceHold codec p (Loop.start maxParticipants grace) actions []).take
              (sendBuffer - 1)).map (encode codec)) ∧
      ∀ cmd order after effects returned,
        handle codec order s.hub cmd = some (after, effects, returned) →
        HeldOutcome codec s.hub p c cmd after effects := by
  have buffers := (Loop.start_buffers codec p maxParticipants grace).run reached
  have buffered := buffers.buffered c found held
  refine ⟨?_, fun order conn hello encoded => ?_, fun cmd order after effects returned handled => ?_⟩
  · have length := congrArg List.length buffered
    rw [List.length_map, List.length_map] at length
    rw [← length]
    exact buffers.calm.bounded p c found
  · refine ⟨c.resumed hello conn, ?_, ?_⟩
    · simp only [handleResume, found, encoded, ne_eq, not_true_eq_false, if_false]
      exact AList.lookup_insert _
    · rw [Client.resumed, if_pos held, refill_eq, List.map_cons, List.map_take, List.map_take,
        buffered]
  · exact handle_heldOutcome handled buffers.calm found held

def awayFor (broadcasts : Nat) : List Action :=
  [.command (.join 0 true [1]) .stored,
    .command (.join 1 false [2]) .stored,
    .command (.leave 2 1 true) .stored] ++
      List.replicate broadcasts (.command (.frame 1 .broadcast (outgoing [7])) .stored)

/-- One broadcast during an outage follows the reply. -/
theorem awayForOne_replayed :
    ∃ s c d hello, run (Loop.step cborCodec) (Loop.start 16 30) (awayFor 1) = some s ∧
      s.hub.clients.lookup 2 = some c ∧ c.held = true ∧
      encode cborCodec (helloReply s.hub (Order.stored.visit 0) false 2 c.token) = some hello ∧
      (handleResume cborCodec .stored s.hub 2 c.token 2).1.clients.lookup 2 = some d ∧
      d.out.map some = [some hello,
        encode cborCodec (.broadcast { fromID := 1, payload := [7] })] := by
  have finished : (run (Loop.step cborCodec) (Loop.start 16 30) (awayFor 1)).any (fun s =>
      (s.hub.clients.lookup 2).any (fun c => decide (c.held = true) &&
        (encode cborCodec (helloReply s.hub (Order.stored.visit 0) false 2 c.token)).isSome)) =
        true := by
    decide +kernel
  have buffered : sinceHold cborCodec 2 (Loop.start 16 30) (awayFor 1) [] =
      [.broadcast { fromID := 1, payload := [7] }] := by
    decide +kernel
  obtain ⟨s, reached, there⟩ := (Option.any_eq_true _ _).mp finished
  obtain ⟨c, found, both⟩ := (Option.any_eq_true _ _).mp there
  obtain ⟨held, encodes⟩ := Bool.and_eq_true_iff.mp both
  obtain ⟨hello, encoded⟩ := Option.isSome_iff_exists.mp encodes
  have replayed := (outage_replayed_within_capacity cborCodec 16 30 (awayFor 1) s reached 2 c found
    (of_decide_eq_true held)).2.1
  rw [buffered] at replayed
  obtain ⟨d, resumed, out⟩ := replayed .stored 2 hello encoded
  exact ⟨s, c, d, hello, reached, found, of_decide_eq_true held, encoded, resumed, out⟩

/-- The last of sixty-four frames is not replayed. -/
theorem last_buffered_frame_dropped :
    ¬ ∀ (codec : Codec) (maxParticipants grace : Nat) (actions : List Action) (s : Loop)
        (p : ParticipantID) (c : Client) (order : Order) (conn : ConnID) (hello : Bytes),
        run (Loop.step codec) (Loop.start maxParticipants grace) actions = some s →
        s.hub.clients.lookup p = some c → c.held = true →
        encode codec (helloReply s.hub (order.visit 0) false p c.token) = some hello →
        ∃ d, (handleResume codec order s.hub p c.token conn).1.clients.lookup p = some d ∧
          d.out.map some = some hello ::
            (sinceHold codec p (Loop.start maxParticipants grace) actions []).map (encode codec) := by
  intro claimed
  have finished : (run (Loop.step cborCodec) (Loop.start 16 30) (awayFor sendBuffer)).any (fun s =>
      (s.hub.clients.lookup 2).any (fun c => decide (c.held = true) &&
        (encode cborCodec (helloReply s.hub (Order.stored.visit 0) false 2 c.token)).isSome &&
        (((handleResume cborCodec .stored s.hub 2 c.token 2).1.clients.lookup 2).any (fun d =>
          decide (d.out.length = 64))))) = true := by
    decide +kernel
  have buffered : (sinceHold cborCodec 2 (Loop.start 16 30) (awayFor sendBuffer) []).length =
      64 := by
    decide +kernel
  obtain ⟨s, reached, there⟩ := (Option.any_eq_true _ _).mp finished
  obtain ⟨c, found, all⟩ := (Option.any_eq_true _ _).mp there
  obtain ⟨both, short⟩ := Bool.and_eq_true_iff.mp all
  obtain ⟨held, encodes⟩ := Bool.and_eq_true_iff.mp both
  obtain ⟨hello, encoded⟩ := Option.isSome_iff_exists.mp encodes
  obtain ⟨d, resumed, out⟩ := claimed cborCodec 16 30 (awayFor sendBuffer) s 2 c .stored 2 hello
    reached found (of_decide_eq_true held) encoded
  obtain ⟨e, again, length⟩ := (Option.any_eq_true _ _).mp short
  rw [resumed] at again
  cases again
  have lengths := congrArg List.length out
  rw [List.length_map, List.length_cons, List.length_map, buffered, of_decide_eq_true length]
    at lengths
  omega

end Parley.Relay
