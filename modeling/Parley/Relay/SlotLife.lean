/-
Where slots come from and how they are lost.

Traffic and evictions leave the owner of every remaining slot alone.  A slot that
a command removes was removed by a leave of its current connection, by the expiry
of its current hold, or because its channel was full.
-/

import Parley.Relay.Slots

namespace Parley.Relay

open Wire Library

variable {targets : ParticipantID → Prop} {q id : ParticipantID} {emptied returned : Bool}
  {before h after : Hub} {c : Client} {body : Body} {cmd : Cmd} {frame : Bytes} {order : Order}
  {codec : Codec} {effects : List Effect}

theorem Spread.owner (spread : Spread codec body targets before after effects)
    (found : after.clients.lookup q = some c) :
    ∃ old, before.clients.lookup q = some old ∧ SameOwner old c := by
  cases spread with
  | offered _ offers => exact offers.owner found
  | unencodable _ => exact ⟨c, found, SameOwner.refl c⟩

theorem Removal.owner (removal : Removal codec id before after effects emptied)
    (found : after.clients.lookup q = some c) :
    ∃ old, before.clients.lookup q = some old ∧ SameOwner old c := by
  cases removal with
  | emptied _ alone => exact ⟨c, (lookup_without found).2, SameOwner.refl c⟩
  | announced _ others notice =>
      obtain ⟨old, there, same⟩ := notice.owner found
      exact ⟨old, (lookup_without there).2, same⟩

theorem Drained.owner (drained : Drained codec before after effects emptied)
    (found : after.clients.lookup q = some c) :
    ∃ old, before.clients.lookup q = some old ∧ SameOwner old c := by
  induction drained with
  | done empty => exact ⟨c, found, SameOwner.refl c⟩
  | skipped pending absent later ih => exact ih found
  | emptied pending removal => exact removal.owner found
  | evicted pending removal later ih =>
      obtain ⟨middle, there, late⟩ := ih found
      obtain ⟨old, origin, early⟩ := removal.owner there
      exact ⟨old, origin, early.trans late⟩

theorem Drained.settles (drained : Drained codec before after effects emptied)
    (continues : emptied = false) :
    after.evict = [] := by
  induction drained with
  | done empty => exact empty
  | skipped pending absent later ih => exact ih continues
  | emptied pending removal => cases continues
  | evicted pending removal later ih => exact ih continues

theorem Drained.mem_before (drained : Drained codec before after effects emptied)
    (member : q ∈ after.clients) :
    q ∈ before.clients := by
  obtain ⟨c, found⟩ := Option.isSome_iff_exists.mp (AList.lookup_isSome.mpr member)
  obtain ⟨old, there, -⟩ := drained.owner found
  exact mem_of_lookup there

/-- The hub while a command is handled: a marked slot waits for its eviction. -/
structure Hub.Tracked (h : Hub) : Prop where
  keyed : ∀ q c, h.clients.lookup q = some c → c.id = q
  pending : ∀ q c, h.clients.lookup q = some c → c.evicting = true → q ∈ h.evict

namespace Hub.Tracked

theorem offers (tracked : h.Tracked) (spread : Offers body frame targets h after effects) :
    after.Tracked := by
  refine
    { keyed := ?_
      pending := ?_ }
  · intro q c found
    obtain ⟨old, there, same⟩ := spread.owner found
    rw [same.id]
    exact tracked.keyed q old there
  · intro q c found marked
    obtain ⟨old, there, origin⟩ := spread.source found
    rw [spread.evicts q]
    cases before : old.evicting with
    | true => exact Or.inl (tracked.pending q old there before)
    | false =>
        rcases origin with rfl | ⟨target, rfl⟩
        · rw [before] at marked
          cases marked
        · rcases accepts_or_overflows before with ⟨room, _⟩ | ⟨_, full⟩
          · rw [offer_of_accepts room] at marked
            exact absurd marked (by rw [before]; decide)
          · exact Or.inr ⟨q, old, target, there, full, tracked.keyed q old there⟩

theorem spread (tracked : h.Tracked) (sent : Spread codec body targets h after effects) :
    after.Tracked := by
  cases sent with
  | offered _ offers => exact tracked.offers offers
  | unencodable _ => exact tracked

theorem update {updated : Client} (tracked : h.Tracked) (keyed : updated.id = id)
    (listed : updated.evicting = true → id ∈ h.evict) :
    (h.withClient id updated).Tracked := by
  refine
    { keyed := ?_
      pending := ?_ }
  · intro q c found
    rcases lookup_withClient found with ⟨rfl, rfl⟩ | ⟨_, known⟩
    · exact keyed
    · exact tracked.keyed q c known
  · intro q c found marked
    rcases lookup_withClient found with ⟨rfl, rfl⟩ | ⟨_, known⟩
    · exact listed marked
    · exact tracked.pending q c known marked

theorem removal {waiting : List ParticipantID} (tracked : h.Tracked)
    (listed : ∀ q ∈ h.evict, q = id ∨ q ∈ waiting)
    (removed : Removal codec id { h with evict := waiting } after effects emptied) :
    after.Tracked := by
  have erased : (({ h with evict := waiting } : Hub).without id).Tracked :=
    { keyed := fun q c found => tracked.keyed q c (lookup_without found).2
      pending := fun q c found marked =>
        (listed q (tracked.pending q c (lookup_without found).2 marked)).resolve_left
          (lookup_without found).1 }
  cases removed with
  | emptied found alone => exact erased
  | announced found others notice => exact erased.spread notice

theorem drained (finished : Drained codec h after effects emptied) (tracked : h.Tracked) :
    after.Tracked ∧ (emptied = false → after.evict = []) := by
  induction finished with
  | done empty => exact ⟨tracked, fun _ => empty⟩
  | skipped pending absent later ih =>
      refine ih { tracked with pending := ?_ }
      intro q c found marked
      have listed := tracked.pending q c found marked
      rw [pending] at listed
      rcases List.mem_cons.mp listed with rfl | waiting
      · exact absurd (found.symm.trans absent) nofun
      · exact waiting
  | emptied pending removal =>
      exact ⟨tracked.removal (fun q listed => List.mem_cons.mp (pending ▸ listed)) removal, nofun⟩
  | evicted pending removal later ih =>
      exact ih (tracked.removal (fun q listed => List.mem_cons.mp (pending ▸ listed)) removal)

theorem unmarked (tracked : h.Tracked) (settled : h.evict = []) (q : ParticipantID) (c : Client)
    (found : h.clients.lookup q = some c) : c.evicting = false := by
  cases marked : c.evicting with
  | false => rfl
  | true =>
      have waiting := tracked.pending q c found marked
      rw [settled] at waiting
      cases waiting

end Hub.Tracked

theorem Served.tracked {cmd : Cmd} {returned : Bool}
    (served : Served codec h cmd after effects returned) (tracked : h.Tracked) : after.Tracked := by
  cases served with
  | ignored idle => exact tracked
  | unencoded refused => exact { tracked with }
  | @admitted conn isCreate token visit frame after effects perm room encoded notice =>
      have issued : h.issued.Tracked := { tracked with }
      have registered : (h.issued.withClient h.nextID
          (newClient h.nextID frame conn token)).Tracked :=
        issued.update rfl (fun marked => by cases marked)
      exact registered.spread notice
  | @held id gen c found live current graced =>
      exact tracked.update (tracked.keyed id c found) (tracked.pending id c found)
  | left found live current final removal => exact tracked.removal (fun q => Or.inr) removal
  | expired found waiting current removal => exact tracked.removal (fun q => Or.inr) removal
  | @resumed id token conn c visit frame perm found authentic encoded =>
      exact tracked.update (tracked.keyed id c found) (tracked.pending id c found)
  | claimed found => exact { tracked with }
  | complained answer => exact tracked.spread answer
  | directed decoded sent => exact tracked.spread sent
  | broadcast decoded sent => exact tracked.spread sent
  | closing notice => exact tracked.spread notice

/-! ### How a slot is lost -/

/-- The effect puts a frame into the channel of `q`. -/
def Effect.reaches (q : ParticipantID) : Effect → Bool
  | .queued toID _ => toID = q
  | _ => false

/-- Why a command removed the slot `c` of `q`. -/
inductive LostTo (h : Hub) (q : ParticipantID) (c : Client) (effects : List Effect) : Cmd → Prop where
  | leave {gen : UInt64} {unexpected : Bool} (live : c.held = false) (current : c.gen = gen)
      (final : unexpected = false ∨ h.grace = 0) : LostTo h q c effects (.leave q gen unexpected)
  | expiry {gen : UInt64} (waiting : c.held = true) (current : c.gen = gen) :
      LostTo h q c effects (.graceExpired q gen)
  | overflow {cmd : Cmd}
      (full : c.out.length + effects.countP (Effect.reaches q) = sendBuffer) :
      LostTo h q c effects cmd

theorem Offers.reaches (spread : Offers body frame targets before after effects) {d : Client}
    (found : before.clients.lookup q = some c) (there : after.clients.lookup q = some d) :
    d.out.length = c.out.length + effects.countP (Effect.reaches q) := by
  have sameCount : effects.countP (Effect.reaches q) =
      effects.countP (fun effect => effect = .queued q body) := by
    refine List.countP_congr (fun effect member => ?_)
    rcases spread.silent effect member with ⟨r, rfl⟩ | ⟨conn, rfl⟩
    · simp [Effect.reaches]
    · simp [Effect.reaches]
  have unreached : Effect.queued q body ∉ effects → effects.countP (Effect.reaches q) = 0 := by
    intro missing
    rw [sameCount, List.countP_eq_zero]
    intro effect member same
    rw [of_decide_eq_true same] at member
    exact missing member
  by_cases target : targets q
  · have same : d = offer frame c := by
      rw [spread.offered q target, found, Option.map_some] at there
      exact (Option.some.inj there).symm
    by_cases room : c.accepts = true
    · have reached : Effect.queued q body ∈ effects :=
        (spread.queued q body).mpr ⟨rfl, target, c, found, room⟩
      have one : effects.countP (Effect.reaches q) = 1 := by
        have atMost := spread.once q
        have atLeast : 0 < effects.countP (fun effect => effect = .queued q body) :=
          List.countP_pos_iff.mpr ⟨_, reached, decide_eq_true rfl⟩
        omega
      rw [same, offer_of_accepts room, one]
      simp
    · have missing : Effect.queued q body ∉ effects := by
        intro reached
        obtain ⟨_, _, e, again, accepted⟩ := (spread.queued q body).mp reached
        rw [found] at again
        cases again
        exact room accepted
      have kept : (offer frame c).out = c.out := by
        cases marked : c.evicting with
        | true => rw [offer_of_evicting marked]
        | false =>
            rcases accepts_or_overflows marked with ⟨accepted, _⟩ | ⟨_, full⟩
            · exact absurd accepted room
            · rw [offer_of_overflows full]
      rw [same, kept, unreached missing]
      rfl
  · have missing : Effect.queued q body ∉ effects :=
      fun reached => target ((spread.queued q body).mp reached).2.1
    rw [spread.kept q target, found] at there
    cases there
    rw [unreached missing]
    rfl

/-- The hub while a command is handled: whoever waits for its eviction has a
full channel. -/
structure Hub.Flagged (h : Hub) : Prop where
  keyed : ∀ q c, h.clients.lookup q = some c → c.id = q
  listed : ∀ q c, q ∈ h.evict → h.clients.lookup q = some c → c.evicting = true
  bounded : ∀ q c, h.clients.lookup q = some c → c.out.length ≤ sendBuffer
  filled : ∀ q c, h.clients.lookup q = some c → c.evicting = true → c.out.length = sendBuffer

namespace Hub.Flagged

theorem offers (flagged : h.Flagged) (spread : Offers body frame targets h after effects) :
    after.Flagged := by
  refine
    { keyed := ?_
      listed := ?_
      bounded := ?_
      filled := ?_ }
  · intro q c found
    obtain ⟨old, there, same⟩ := spread.owner found
    rw [same.id]
    exact flagged.keyed q old there
  · intro q c waiting found
    obtain ⟨old, there, origin⟩ := spread.source found
    rcases (spread.evicts q).mp waiting with early | ⟨r, d, target, known, full, id⟩
    · have marked := flagged.listed q old early there
      rcases origin with rfl | ⟨_, rfl⟩
      · exact marked
      · rw [offer_of_evicting marked]
        exact marked
    · have same : r = q := (flagged.keyed r d known).symm.trans id
      rw [same] at target known
      rw [spread.offered q target, known, Option.map_some, offer_of_overflows full] at found
      cases found
      rfl
  · intro q c found
    obtain ⟨old, there, origin⟩ := spread.source found
    have before := flagged.bounded q old there
    rcases origin with rfl | ⟨_, rfl⟩
    · exact before
    · unfold offer
      split
      · exact before
      · split
        · rename_i room
          simp only [List.length_append, List.length_singleton]
          omega
        · exact before
  · intro q c found marked
    obtain ⟨old, there, origin⟩ := spread.source found
    have before := flagged.filled q old there
    rcases origin with rfl | ⟨_, rfl⟩
    · exact before marked
    · cases evicting : old.evicting with
      | true =>
          rw [offer_of_evicting evicting]
          exact before evicting
      | false =>
          rcases accepts_or_overflows evicting with ⟨room, _⟩ | ⟨_, full⟩
          · rw [offer_of_accepts room] at marked
            exact absurd marked (by rw [evicting]; decide)
          · rw [offer_of_overflows full]
            have atLeast : sendBuffer ≤ old.out.length := by
              simpa [Client.overflows, evicting] using full
            exact Nat.le_antisymm (flagged.bounded q old there) atLeast

theorem spread (flagged : h.Flagged) (sent : Spread codec body targets h after effects) :
    after.Flagged := by
  cases sent with
  | offered _ offers => exact flagged.offers offers
  | unencodable _ => exact flagged

theorem removal (flagged : h.Flagged) (removed : Removal codec id h after effects emptied) :
    after.Flagged := by
  have erased : (h.without id).Flagged :=
    { keyed := fun q c found => flagged.keyed q c (lookup_without found).2
      listed := fun q c waiting found => flagged.listed q c waiting (lookup_without found).2
      bounded := fun q c found => flagged.bounded q c (lookup_without found).2
      filled := fun q c found => flagged.filled q c (lookup_without found).2 }
  cases removed with
  | emptied _ alone => exact erased
  | announced _ others notice => exact erased.spread notice

theorem later {rest : List ParticipantID} (flagged : h.Flagged) (pending : h.evict = id :: rest) :
    ({ h with evict := rest } : Hub).Flagged :=
  { flagged with
    listed := fun q c waiting found =>
      flagged.listed q c (by rw [pending]; exact List.mem_cons_of_mem id waiting) found }

theorem drained (finished : Drained codec h after effects emptied) (flagged : h.Flagged) :
    after.Flagged := by
  induction finished with
  | done empty => exact flagged
  | skipped pending absent later ih => exact ih (flagged.later pending)
  | emptied pending removal => exact (flagged.later pending).removal removal
  | evicted pending removal later ih => exact ih ((flagged.later pending).removal removal)

theorem of_unmarked (keyed : ∀ q c, h.clients.lookup q = some c → c.id = q)
    (settled : h.evict = []) (unmarked : ∀ q c, h.clients.lookup q = some c → c.evicting = false)
    (bounded : ∀ q c, h.clients.lookup q = some c → c.out.length ≤ sendBuffer) : h.Flagged :=
  { keyed := keyed
    listed := fun q c waiting => by
      rw [settled] at waiting
      cases waiting
    bounded := bounded
    filled := fun q c found marked => by
      rw [unmarked q c found] at marked
      cases marked }

end Hub.Flagged

theorem Spread.reaches (spread : Spread codec body targets before after effects)
    (found : before.clients.lookup q = some c) :
    ∃ d, after.clients.lookup q = some d ∧
      d.out.length = c.out.length + effects.countP (Effect.reaches q) := by
  cases spread with
  | offered _ offers =>
      obtain ⟨d, there⟩ := Option.isSome_iff_exists.mp
        (AList.lookup_isSome.mpr ((offers.mem_iff q).mpr (mem_of_lookup found)))
      exact ⟨d, there, offers.reaches found there⟩
  | unencodable _ => exact ⟨c, found, rfl⟩

theorem Removal.reaches (removal : Removal codec id before after effects emptied) (other : q ≠ id)
    (found : before.clients.lookup q = some c) :
    ∃ d, after.clients.lookup q = some d ∧
      d.out.length = c.out.length + effects.countP (Effect.reaches q) := by
  have there : (before.without id).clients.lookup q = some c :=
    (AList.lookup_erase_ne other).trans found
  cases removal with
  | emptied _ alone => exact ⟨c, there, rfl⟩
  | announced _ others notice => exact notice.reaches there

theorem Spread.unreached (spread : Spread codec body targets before after effects)
    (absent : before.clients.lookup q = none) :
    after.clients.lookup q = none ∧ effects.countP (Effect.reaches q) = 0 := by
  cases spread with
  | offered _ offers =>
      have outside : q ∉ before.clients := AList.lookup_eq_none.mp absent
      refine ⟨AList.lookup_eq_none.mpr (fun member => outside ((offers.mem_iff q).mp member)), ?_⟩
      refine List.countP_eq_zero.mpr (fun effect member reached => ?_)
      rcases offers.silent effect member with ⟨r, rfl⟩ | ⟨conn, rfl⟩
      · have same : r = q := of_decide_eq_true reached
        obtain ⟨_, _, c, found, _⟩ := (offers.queued r body).mp member
        rw [same, absent] at found
        cases found
      · cases reached
  | unencodable _ => exact ⟨absent, rfl⟩

theorem Removal.unreached (removal : Removal codec id before after effects emptied)
    (absent : q = id ∨ before.clients.lookup q = none) :
    after.clients.lookup q = none ∧ effects.countP (Effect.reaches q) = 0 := by
  have erased : (before.without id).clients.lookup q = none := by
    by_cases same : q = id
    · rw [same]
      exact AList.lookup_erase id before.clients
    · exact (AList.lookup_erase_ne same).trans (absent.resolve_left same)
  cases removal with
  | emptied _ alone => exact ⟨erased, rfl⟩
  | announced _ others notice => exact notice.unreached erased

theorem Drained.unreached (drained : Drained codec before after effects emptied)
    (absent : before.clients.lookup q = none) :
    effects.countP (Effect.reaches q) = 0 := by
  induction drained with
  | done empty => rfl
  | skipped pending missing later ih => exact ih absent
  | emptied pending removal => exact (removal.unreached (Or.inr absent)).2
  | evicted pending removal later ih =>
      obtain ⟨still, early⟩ := removal.unreached (Or.inr absent)
      rw [List.countP_append, early, ih still]

theorem Drained.lost (drained : Drained codec before after effects emptied)
    (flagged : before.Flagged) (found : before.clients.lookup q = some c)
    (gone : after.clients.lookup q = none) :
    c.out.length + effects.countP (Effect.reaches q) = sendBuffer := by
  induction drained generalizing c with
  | done empty => exact absurd (found.symm.trans gone) nofun
  | skipped pending absent later ih => exact ih (flagged.later pending) found gone
  | @emptied h after effects id rest pending removal =>
      by_cases same : q = id
      · have waiting : q ∈ h.evict := by rw [pending, same]; exact List.mem_cons_self
        have full := flagged.filled q c found (flagged.listed q c waiting found)
        cases removal with
        | emptied _ alone => exact full
      · obtain ⟨d, there, _⟩ := removal.reaches same found
        exact absurd (there.symm.trans gone) nofun
  | @evicted h middle after early late emptied id rest pending removal later ih =>
      rw [List.countP_append]
      by_cases same : q = id
      · have waiting : q ∈ h.evict := by rw [pending, same]; exact List.mem_cons_self
        have full := flagged.filled q c found (flagged.listed q c waiting found)
        obtain ⟨absent, early⟩ := removal.unreached (Or.inl same)
        rw [early, later.unreached absent]
        exact full
      · obtain ⟨d, there, grown⟩ := removal.reaches same found
        have rest := ih ((flagged.later pending).removal removal) there gone
        omega

theorem Drained.of_settled (drained : Drained codec before after effects emptied)
    (settled : before.evict = []) :
    after = before := by
  cases drained with
  | done empty => rfl
  | skipped pending absent later | emptied pending removal | evicted pending removal later =>
      exact absurd (settled.symm.trans pending) nofun

/-- The hub between two commands, as far as evictions go. -/
structure Hub.Calm (h : Hub) : Prop where
  keyed : ∀ q c, h.clients.lookup q = some c → c.id = q
  settled : h.evict = []
  unmarked : ∀ q c, h.clients.lookup q = some c → c.evicting = false
  bounded : ∀ q c, h.clients.lookup q = some c → c.out.length ≤ sendBuffer

theorem Hub.Calm.flagged (calm : h.Calm) : h.Flagged :=
  .of_unmarked calm.keyed calm.settled calm.unmarked calm.bounded

theorem Hub.Calm.update (calm : h.Calm) (keyed : c.id = id) (unmarked : c.evicting = false)
    (bounded : c.out.length ≤ sendBuffer) :
    (h.withClient id c).Calm := by
  refine
    { keyed := ?_
      settled := calm.settled
      unmarked := ?_
      bounded := ?_ }
  · intro q d found
    rcases lookup_withClient found with ⟨rfl, rfl⟩ | ⟨_, known⟩
    · exact keyed
    · exact calm.keyed q d known
  · intro q d found
    rcases lookup_withClient found with ⟨rfl, rfl⟩ | ⟨_, known⟩
    · exact unmarked
    · exact calm.unmarked q d known
  · intro q d found
    rcases lookup_withClient found with ⟨rfl, rfl⟩ | ⟨_, known⟩
    · exact bounded
    · exact calm.bounded q d known

theorem refill_length_le (hello : Bytes) (buffered : List Bytes) :
    (refill hello buffered).length ≤ sendBuffer := by
  rw [refill, List.length_take]
  exact Nat.min_le_left _ _

theorem Served.flagged (served : Served codec h cmd after effects returned) (calm : h.Calm) :
    after.Flagged := by
  cases served with
  | ignored idle => exact calm.flagged
  | unencoded refused => exact { calm.flagged with }
  | @admitted conn isCreate token visit frame after effects perm room encoded notice =>
      have issued : h.issued.Calm := { calm with }
      have registered : (h.issued.withClient h.nextID
          (newClient h.nextID frame conn token)).Calm :=
        issued.update rfl rfl (by simp [newClient, sendBuffer])
      exact registered.flagged.spread notice
  | @held id gen c found live current graced =>
      have onHold : (h.withClient id c.onHold).Calm :=
        calm.update (calm.keyed id c found) (calm.unmarked id c found) (Nat.zero_le _)
      exact onHold.flagged
  | left found live current final removal => exact calm.flagged.removal removal
  | expired found waiting current removal => exact calm.flagged.removal removal
  | @resumed id token conn c visit frame perm found authentic encoded =>
      have attached : (h.withClient id (c.resumed frame conn)).Calm :=
        calm.update (calm.keyed id c found) (calm.unmarked id c found) (refill_length_le _ _)
      exact attached.flagged
  | claimed found => exact { calm.flagged with }
  | complained answer => exact calm.flagged.spread answer
  | directed decoded sent => exact calm.flagged.spread sent
  | broadcast decoded sent => exact calm.flagged.spread sent
  | closing notice => exact calm.flagged.spread notice

/-- What a command leaves of a slot before the evictions: nothing, when it was
asked to remove it; the slot with what was queued to it; or a slot with a new
channel and no evictions to follow. -/
theorem Served.lost (served : Served codec h cmd after effects returned) (calm : h.Calm)
    (found : h.clients.lookup q = some c) (fresh : 1 ≤ cmd.joinCount → q ≠ h.nextID) :
    (after.clients.lookup q = none ∧ effects.countP (Effect.reaches q) = 0 ∧
      ∀ all, LostTo h q c all cmd) ∨
    ∃ d, after.clients.lookup q = some d ∧
      (d.out.length = c.out.length + effects.countP (Effect.reaches q) ∨ after.evict = []) := by
  have removed : ∀ {id : ParticipantID} {emptied : Bool} {cmd : Cmd},
      Removal codec id h after effects emptied → (q = id → ∀ all, LostTo h q c all cmd) →
      (after.clients.lookup q = none ∧ effects.countP (Effect.reaches q) = 0 ∧
        ∀ all, LostTo h q c all cmd) ∨
      ∃ d, after.clients.lookup q = some d ∧
        (d.out.length = c.out.length + effects.countP (Effect.reaches q) ∨ after.evict = []) := by
    intro id emptied cmd removal reason
    by_cases same : q = id
    · obtain ⟨absent, none⟩ := removal.unreached (Or.inl same)
      exact Or.inl ⟨absent, none, reason same⟩
    · obtain ⟨d, there, grown⟩ := removal.reaches same found
      exact Or.inr ⟨d, there, Or.inl grown⟩
  have spread : ∀ {body : Body} {targets : ParticipantID → Prop},
      Spread codec body targets h after effects →
      ∃ d, after.clients.lookup q = some d ∧
        (d.out.length = c.out.length + effects.countP (Effect.reaches q) ∨ after.evict = []) := by
    intro body targets sent
    obtain ⟨d, there, grown⟩ := sent.reaches found
    exact ⟨d, there, Or.inl grown⟩
  cases served with
  | ignored idle => exact Or.inr ⟨c, found, Or.inr calm.settled⟩
  | unencoded refused => exact Or.inr ⟨c, found, Or.inr calm.settled⟩
  | @admitted conn isCreate token visit frame after effects perm room encoded notice =>
      have other : q ≠ h.nextID := fresh (Nat.le_refl 1)
      have registered : (h.issued.withClient h.nextID
          (newClient h.nextID frame conn token)).clients.lookup q = some c :=
        (AList.lookup_insert_ne other).trans found
      obtain ⟨d, there, grown⟩ := notice.reaches registered
      refine Or.inr ⟨d, there, Or.inl ?_⟩
      rw [grown, List.countP_cons_of_neg, List.countP_cons_of_neg]
      · exact Bool.false_ne_true
      · intro reached
        exact other (of_decide_eq_true reached).symm
  | held _ live current graced =>
      obtain ⟨d, there⟩ := exists_lookup_withClient found
      exact Or.inr ⟨d, there, Or.inr calm.settled⟩
  | left there live current final removal =>
      refine removed removal ?_
      rintro rfl all
      rw [found] at there
      cases there
      exact .leave live current final
  | expired there waiting current removal =>
      refine removed removal ?_
      rintro rfl all
      rw [found] at there
      cases there
      exact .expiry waiting current
  | resumed perm _ authentic encoded =>
      obtain ⟨d, there⟩ := exists_lookup_withClient found
      exact Or.inr ⟨d, there, Or.inr calm.settled⟩
  | claimed there => exact Or.inr ⟨c, found, Or.inr calm.settled⟩
  | complained answer => exact Or.inr (spread answer)
  | directed decoded sent => exact Or.inr (spread sent)
  | broadcast decoded sent => exact Or.inr (spread sent)
  | closing notice => exact Or.inr (spread notice)

theorem shutdown_reaches (h : Hub) (q : ParticipantID) :
    (shutdown h).countP (Effect.reaches q) = 0 := by
  refine List.countP_eq_zero.mpr (fun effect member reached => ?_)
  obtain ⟨entry, _, rfl⟩ := List.mem_map.mp member
  cases reached

/-- A slot is lost to a leave of its own connection, to the expiry of its hold,
or to a full channel. -/
theorem handle_lost (handled : handle codec order h cmd = some (after, effects, returned))
    (calm : h.Calm) (found : h.clients.lookup q = some c) (gone : after.clients.lookup q = none)
    (fresh : 1 ≤ cmd.joinCount → q ≠ h.nextID) :
    LostTo h q c effects cmd := by
  rcases handle_served handled with
    ⟨early, served, _, _⟩ | ⟨middle, early, late, served, drained, rfl⟩
  · rcases served.lost calm found fresh with ⟨_, _, reason⟩ | ⟨d, there, _⟩
    · exact reason effects
    · exact absurd (there.symm.trans gone) nofun
  · rcases served.lost calm found fresh with ⟨_, _, reason⟩ | ⟨d, there, grown | settled⟩
    · exact reason _
    · have full := drained.lost (served.flagged calm) there gone
      have quiet : (if returned = true then shutdown after else []).countP (Effect.reaches q) = 0 := by
        split
        · exact shutdown_reaches after q
        · rfl
      refine .overflow ?_
      rw [List.countP_append, List.countP_append, quiet]
      omega
    · rw [drained.of_settled settled, there] at gone
      cases gone

theorem Hub.Calm.tracked (calm : h.Calm) : h.Tracked :=
  { keyed := calm.keyed
    pending := fun q c found marked => by
      rw [calm.unmarked q c found] at marked
      cases marked }

theorem handle_calm (handled : handle codec order h cmd = some (after, effects, false))
    (calm : h.Calm) :
    after.Calm := by
  obtain ⟨middle, early, late, served, drained, _⟩ := handle_continues handled
  obtain ⟨tracked, settled⟩ := Hub.Tracked.drained drained (served.tracked calm.tracked)
  exact
    { keyed := tracked.keyed
      settled := settled rfl
      unmarked := tracked.unmarked (settled rfl)
      bounded := (Hub.Flagged.drained drained (served.flagged calm)).bounded }

theorem handle_of_settled (own : dispatch codec order h cmd = (after, effects, false))
    (settled : after.evict = []) :
    handle codec order h cmd = some (after, effects, false) := by
  have drained : drainEvictions codec order (drainFuel after) 2 after = some (after, [], false) := by
    unfold drainEvictions
    rw [settled]
  simp [handle, own, drained]

end Parley.Relay
