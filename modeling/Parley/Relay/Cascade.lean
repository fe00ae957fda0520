/-
Cascading evictions.

A frame that overflows a channel costs its owner the slot, the notice of the
removal can overflow others, and so on.  Go leaves open in which order the slots
are visited; the slots that are left at the end, and what is queued to them, do
not depend on it.
-/

import Parley.Library.Cascade
import Parley.Relay.Eviction
import Parley.Relay.SlotLife
import Parley.WireCbor

namespace Parley.Relay

open Wire Library

inductive FanOut where
  | broadcast (body : Body) (except : ParticipantID)
  | send (id : ParticipantID) (body : Body)

namespace FanOut

def body : FanOut → Body
  | .broadcast body _ => body
  | .send _ body => body

def reaches : FanOut → ParticipantID → Bool
  | .broadcast _ except, q => q ≠ except
  | .send id _, q => q = id

def perform (codec : Codec) (visit : List ParticipantID → List ParticipantID) (h : Hub) :
    FanOut → Hub × List Effect
  | .broadcast body except => broadcastFrame codec visit h body except
  | .send id body => sendTo codec h id body

def slot (codec : Codec) (fan : FanOut) (q : ParticipantID) (c : Client) : Client :=
  match encode codec fan.body with
  | none => c
  | some frame => if fan.reaches q then offer frame c else c

end FanOut

/-- A fan-out from `h` and the eviction loop, no writer taking a frame in
between. -/
def cascade (codec : Codec) (order : Order) (h : Hub) (fan : FanOut) :
    Option (Hub × List Effect × Bool) :=
  let spread := fan.perform codec (order.visit 0) h
  drainEvictions codec order (drainFuel spread.1) 1 spread.1

def Hub.losses (h : Hub) : Cascade ParticipantID :=
  { nodes := h.clients.keys.toFinset
    lost := (h.clients.keys.filter (fun q => (h.clients.lookup q).any (·.evicting))).toFinset
    free := fun q => sendBuffer - ((h.clients.lookup q).map (·.out.length)).getD 0 }

/-- Participant 0 is the one that no farewell reaches; it waits for its own removal
if there are any. -/
def Hub.ZeroLost (m : Hub) : Prop :=
  ∀ c, m.clients.lookup 0 = some c → m.losses.lost.Nonempty → c.evicting = true

def farewell (codec : Codec) (id : ParticipantID) : Bytes :=
  (encode codec (.participantLeft id)).getD []

/-- The hub after some removals, compared with the hub `m` in which they began:
who is left has been told of each of them or waits for its own removal. -/
structure Cleared (codec : Codec) (m : Hub) (removed : List ParticipantID) (h : Hub) : Prop where
  distinct : removed.Nodup
  gone : ∀ q ∈ removed, h.clients.lookup q = none
  least : ∀ q ∈ removed, m.losses.Least q
  known : ∀ q d, h.clients.lookup q = some d → q ∈ m.clients
  flagged : h.Flagged
  kept : ∀ q c, m.clients.lookup q = some c → q ∉ removed → ∃ d, h.clients.lookup q = some d ∧
    ((d.evicting = true ∧ q ∈ h.evict ∧ m.losses.Least q) ∨
      (d.evicting = false ∧ c.evicting = false ∧ d.out = c.out ++ removed.map (farewell codec)))

variable {visit : List ParticipantID → List ParticipantID} {id q : ParticipantID}
  {rest : List ParticipantID} {emptied : Bool} {c : Client}

theorem Hub.mem_losses_nodes {m : Hub} (found : m.clients.lookup q = some c) : q ∈ m.losses.nodes :=
  List.mem_toFinset.mpr (AList.mem_keys.mp (mem_of_lookup found))

theorem Hub.losses_free {m : Hub} (found : m.clients.lookup q = some c) :
    m.losses.free q = sendBuffer - c.out.length := by
  simp only [Hub.losses, found, Option.map_some, Option.getD_some]

theorem Hub.mem_losses_lost {m : Hub} :
    q ∈ m.losses.lost ↔ ∃ c, m.clients.lookup q = some c ∧ c.evicting = true := by
  simp only [Hub.losses, List.mem_toFinset, List.mem_filter, Option.any_eq_true]
  constructor
  · exact fun both => both.2
  · rintro ⟨c, found, marked⟩
    exact ⟨AList.mem_keys.mp (mem_of_lookup found), c, found, marked⟩

namespace Cleared

variable {codec : Codec} {m h after : Hub} {removed : List ParticipantID} {effects : List Effect}

theorem start (flagged : m.Flagged) (tracked : m.Tracked) : Cleared codec m [] m :=
  { distinct := List.nodup_nil
    gone := fun q member => by cases member
    least := fun q member => by cases member
    known := fun q d found => mem_of_lookup found
    flagged := flagged
    kept := fun q c found _ => by
      refine ⟨c, found, ?_⟩
      cases marked : c.evicting with
      | true =>
          exact Or.inl ⟨rfl, tracked.pending q c found marked,
            .of_lost (Hub.mem_losses_lost.mpr ⟨c, found, marked⟩)⟩
      | false =>
          exact Or.inr ⟨rfl, rfl, (List.append_nil _).symm⟩ }

theorem skip (cleared : Cleared codec m removed h) (waiting : h.evict = id :: rest)
    (absent : h.clients.lookup id = none) :
    Cleared codec m removed { h with evict := rest } :=
  { cleared with
    flagged := cleared.flagged.later waiting
    kept := fun q c found remains => by
      obtain ⟨d, there, state⟩ := cleared.kept q c found remains
      refine ⟨d, there, state.imp_left (fun marked => ⟨marked.1, ?_, marked.2.2⟩)⟩
      have listed := marked.2.1
      rw [waiting] at listed
      rcases List.mem_cons.mp listed with rfl | later
      · rw [absent] at there
        cases there
      · exact later }

theorem head_least {d : Client} (cleared : Cleared codec m removed h)
    (waiting : h.evict = id :: rest) (found : h.clients.lookup id = some d) :
    id ∉ removed ∧ m.losses.Least id := by
  have remains : id ∉ removed := by
    intro member
    rw [cleared.gone id member] at found
    cases found
  have marked := cleared.flagged.listed id d (by rw [waiting]; exact List.mem_cons_self) found
  obtain ⟨c, origin⟩ := Option.isSome_iff_exists.mp
    (AList.lookup_isSome.mpr (cleared.known id d found))
  obtain ⟨e, there, state⟩ := cleared.kept id c origin remains
  rw [found] at there
  cases there
  rcases state with ⟨-, -, least⟩ | ⟨unmarked, -⟩
  · exact ⟨remains, least⟩
  · rw [marked] at unmarked
    cases unmarked

theorem distinct_concat (cleared : Cleared codec m removed h) (fresh : id ∉ removed) :
    (removed ++ [id]).Nodup := by
  apply List.nodup_append.mpr
  refine ⟨cleared.distinct, List.nodup_singleton id, ?_⟩
  rintro left member right isID rfl
  rw [List.mem_singleton.mp isID] at member
  exact fresh member

theorem least_concat (cleared : Cleared codec m removed h) (least : m.losses.Least id) :
    ∀ q ∈ removed ++ [id], m.losses.Least q := by
  intro q member
  rcases List.mem_append.mp member with early | last
  · exact cleared.least q early
  · rw [List.mem_singleton.mp last]
    exact least

theorem told {d : Client} {frame : Bytes} (cleared : Cleared codec m removed h)
    (least : m.losses.Least id) (fresh : id ∉ removed)
    (encoded : encode codec (.participantLeft id) = some frame)
    (origin : m.clients.lookup q = some c) (unmarked : d.evicting = false)
    (grown : d.out = c.out ++ removed.map (farewell codec)) :
    (d.overflows = true ∧ m.losses.Least q) ∨
      offer frame d = { d with out := c.out ++ (removed ++ [id]).map (farewell codec) } := by
  rcases accepts_or_overflows unmarked with ⟨room, -⟩ | ⟨-, full⟩
  · have isFarewell : farewell codec id = frame := by
      rw [farewell, encoded, Option.getD_some]
    rw [offer_of_accepts room, grown, List.map_append, List.map_singleton, isFarewell,
      List.append_assoc]
    exact Or.inr rfl
  · refine Or.inl ⟨full, ?_⟩
    have above : sendBuffer ≤ d.out.length := by
      simpa [Client.overflows, unmarked] using full
    have size : d.out.length = c.out.length + removed.length := by
      rw [grown, List.length_append, List.length_map]
    refine .of_overflow (cleared.distinct_concat fresh) (cleared.least_concat least)
      (Hub.mem_losses_nodes origin) ?_
    rw [Hub.losses_free origin, List.length_append, List.length_singleton]
    omega

theorem offered {id q : ParticipantID} {c : Client} {frame : Bytes} {rest : List ParticipantID}
    {body : Body} (cleared : Cleared codec m removed h) (zero : m.ZeroLost)
    (waiting : h.evict = id :: rest) (least : m.losses.Least id) (fresh : id ∉ removed)
    (encoded : encode codec (.participantLeft id) = some frame)
    (offers : Offers body frame (fun q => q ≠ 0) (({ h with evict := rest } : Hub).without id) after
      effects)
    (origin : m.clients.lookup q = some c) (remains : q ∉ removed) (other : q ≠ id) :
    ∃ d, after.clients.lookup q = some d ∧
      ((d.evicting = true ∧ q ∈ after.evict ∧ m.losses.Least q) ∨
        (d.evicting = false ∧ c.evicting = false ∧
          d.out = c.out ++ (removed ++ [id]).map (farewell codec))) := by
  obtain ⟨d, there, state⟩ := cleared.kept q c origin remains
  have before : (({ h with evict := rest } : Hub).without id).clients.lookup q = some d :=
    (AList.lookup_erase_ne other).trans there
  rcases state with ⟨marked, listed, isLeast⟩ | ⟨unmarked, began, grown⟩
  · -- a slot that is marked takes no frame, whether the notice reaches it or not
    have found : after.clients.lookup q = some d := by
      by_cases reached : q ≠ 0
      · rw [offers.offered q reached, before, Option.map_some, offer_of_evicting marked]
      · exact (offers.kept q reached).trans before
    refine ⟨d, found, Or.inl ⟨marked, (offers.evicts q).mpr (Or.inl ?_), isLeast⟩⟩
    rw [waiting] at listed
    exact (List.mem_cons.mp listed).resolve_left other
  · have nonzero : q ≠ 0 := by
      rintro rfl
      cases began.symm.trans (zero c origin least.lost_nonempty)
    have found : after.clients.lookup q = some (offer frame d) := by
      rw [offers.offered q nonzero, before, Option.map_some]
    refine ⟨offer frame d, found, ?_⟩
    rcases cleared.told least fresh encoded origin unmarked grown with ⟨full, isLeast⟩ | took
    · left
      rw [offer_of_overflows full]
      exact ⟨rfl, (offers.evicts q).mpr
        (Or.inr ⟨q, d, nonzero, before, full, cleared.flagged.keyed q d there⟩), isLeast⟩
    · right
      rw [took]
      exact ⟨unmarked, began, rfl⟩

theorem remove (cleared : Cleared codec m removed h)
    (encodes : ∀ id, encode codec (.participantLeft id) ≠ none) (zero : m.ZeroLost)
    (waiting : h.evict = id :: rest)
    (removal : Removal codec id { h with evict := rest } after effects emptied) :
    Cleared codec m (removed ++ [id]) after := by
  have found : ∃ d, h.clients.lookup id = some d := by
    cases removal with
    | emptied found alone => exact ⟨_, found⟩
    | announced found others notice => exact ⟨_, found⟩
  obtain ⟨leaver, found⟩ := found
  obtain ⟨fresh, least⟩ := cleared.head_least waiting found
  refine
    { distinct := cleared.distinct_concat fresh
      gone := fun q member => ?_
      least := cleared.least_concat least
      known := fun q d there => ?_
      flagged := (cleared.flagged.later waiting).removal removal
      kept := fun q c origin remains => ?_ }
  · rcases List.mem_append.mp member with early | last
    · exact (removal.unreached (Or.inr (cleared.gone q early))).1
    · exact (removal.unreached (Or.inl (List.mem_singleton.mp last))).1
  · obtain ⟨old, earlier, -⟩ := removal.owner there
    exact cleared.known q old earlier
  · have before : q ∉ removed := fun early => remains (List.mem_append_left _ early)
    have other : q ≠ id := fun same => remains (List.mem_append_right _ (List.mem_singleton.mpr same))
    cases removal with
    | emptied _ alone =>
        obtain ⟨d, there, -⟩ := cleared.kept q c origin before
        have left : (({ h with evict := rest } : Hub).without id).clients.lookup q = some d :=
          (AList.lookup_erase_ne other).trans there
        have member := AList.mem_keys.mp (mem_of_lookup left)
        rw [alone] at member
        cases member
    | announced _ others notice =>
        cases notice with
        | unencodable refused => exact absurd refused (encodes id)
        | offered encoded offers =>
            exact cleared.offered zero waiting least fresh encoded offers origin before other

theorem drained (finished : Drained codec h after effects emptied)
    (encodes : ∀ id, encode codec (.participantLeft id) ≠ none) (zero : m.ZeroLost)
    (cleared : Cleared codec m removed h) :
    ∃ all, Cleared codec m all after ∧
      (after.evict = [] ∨ ∀ q, after.clients.lookup q = none) := by
  induction finished generalizing removed with
  | done empty => exact ⟨removed, cleared, Or.inl empty⟩
  | skipped waiting absent later ih => exact ih (cleared.skip waiting absent)
  | emptied waiting removal =>
      refine ⟨_, cleared.remove encodes zero waiting removal, Or.inr (fun q => ?_)⟩
      cases removal with
      | emptied found alone =>
          refine AList.lookup_eq_none.mpr (fun member => ?_)
          have key := AList.mem_keys.mp member
          rw [alone] at key
          cases key
  | evicted waiting removal later ih =>
      exact ih (cleared.remove encodes zero waiting removal)

theorem mem_iff_least (cleared : Cleared codec m removed h)
    (finished : h.evict = [] ∨ ∀ q, h.clients.lookup q = none) (q : ParticipantID) :
    q ∈ removed ↔ m.losses.Least q := by
  -- Whoever is left at the end is unmarked and was told of every removal.
  have left : ∀ q c, m.clients.lookup q = some c → q ∉ removed →
      c.evicting = false ∧ c.out.length + removed.length ≤ sendBuffer := by
    intro q c origin remains
    obtain ⟨d, there, state⟩ := cleared.kept q c origin remains
    rcases state with ⟨-, listed, -⟩ | ⟨-, began, grown⟩
    · rcases finished with empty | nobody
      · rw [empty] at listed
        cases listed
      · rw [nobody q] at there
        cases there
    · have bound := cleared.flagged.bounded q d there
      rw [grown, List.length_append, List.length_map] at bound
      exact ⟨began, bound⟩
  refine Cascade.mem_iff_least cleared.distinct cleared.least ?_ ?_ q
  · intro id lost
    obtain ⟨c, origin, marked⟩ := Hub.mem_losses_lost.mp lost
    by_contra remains
    rw [(left id c origin remains).1] at marked
    cases marked
  · intro id node full
    obtain ⟨c, origin⟩ := Option.isSome_iff_exists.mp
      (AList.lookup_isSome.mpr (AList.mem_keys.mpr (List.mem_toFinset.mp node)))
    by_contra remains
    have room := (left id c origin remains).2
    rw [Hub.losses_free origin] at full
    omega

end Cleared

namespace FanOut

theorem perform_spread (codec : Codec) (perm : ∀ keys, (visit keys).Perm keys) (h : Hub)
    (fan : FanOut) :
    Spread codec fan.body (fun q => fan.reaches q = true) h (fan.perform codec visit h).1
      (fan.perform codec visit h).2 := by
  cases fan with
  | broadcast body except =>
      simp only [reaches, decide_eq_true_eq]
      exact broadcastFrame_spread codec perm h body except
  | send id body =>
      simp only [reaches, decide_eq_true_eq]
      exact sendTo_spread codec h id body

theorem lookup_perform (codec : Codec) (perm : ∀ keys, (visit keys).Perm keys) (h : Hub)
    (fan : FanOut) (q : ParticipantID) :
    (fan.perform codec visit h).1.clients.lookup q =
      (h.clients.lookup q).map (fan.slot codec q) := by
  have spread := fan.perform_spread codec perm h
  generalize fan.perform codec visit h = done at spread
  obtain ⟨after, effects⟩ := done
  unfold slot
  cases spread with
  | unencodable refused =>
      rw [refused]
      exact Option.map_id'.symm
  | offered encoded offers =>
      rw [encoded]
      by_cases reached : fan.reaches q = true
      · simp only [reached, if_true]
        exact offers.offered q reached
      · simp only [reached]
        exact (offers.kept q reached).trans Option.map_id'.symm

def losses (codec : Codec) (h : Hub) (fan : FanOut) : Cascade ParticipantID :=
  { nodes := h.clients.keys.toFinset
    lost := (h.clients.keys.filter (fun q =>
      (h.clients.lookup q).any (fun c => (fan.slot codec q c).evicting))).toFinset
    free := fun q =>
      sendBuffer - ((h.clients.lookup q).map (fun c => (fan.slot codec q c).out.length)).getD 0 }

theorem losses_perform (codec : Codec) (perm : ∀ keys, (visit keys).Perm keys) (h : Hub)
    (fan : FanOut) :
    (fan.perform codec visit h).1.losses = fan.losses codec h := by
  have same := fan.lookup_perform codec perm h
  have keys : ∀ q, q ∈ (fan.perform codec visit h).1.clients.keys ↔ q ∈ h.clients.keys := by
    intro q
    rw [← AList.mem_keys, ← AList.mem_keys, ← AList.lookup_isSome, same q, Option.isSome_map,
      AList.lookup_isSome]
  unfold Hub.losses losses
  congr 1
  · ext q
    rw [List.mem_toFinset, List.mem_toFinset, keys q]
  · ext q
    simp only [List.mem_toFinset, List.mem_filter, keys q, same q, Option.any_map]
  · funext q
    simp only [same q, Option.map_map, Function.comp_def]

end FanOut

/-! ### Independence of the order -/

/-- What a fan-out and the evictions after it come to: the participants outside
the least closed set are left, and each has the farewell of every removed
participant once, after what it had. -/
structure Cascaded (codec : Codec) (h : Hub) (fan : FanOut) (after : Hub) : Prop where
  clients : ∀ q, q ∈ after.clients ↔ q ∈ h.clients ∧ ¬ (fan.losses codec h).Least q
  queued : ∀ q c d, h.clients.lookup q = some c → after.clients.lookup q = some d →
    ∃ removed : List ParticipantID, removed.Nodup ∧
      (∀ id, id ∈ removed ↔ (fan.losses codec h).Least id) ∧
      d.out = (fan.slot codec q c).out ++ removed.map (farewell codec)

theorem FanOut.flagged {codec : Codec} (perm : ∀ keys, (visit keys).Perm keys) {h : Hub}
    (calm : h.Calm) (fan : FanOut) :
    (fan.perform codec visit h).1.Flagged ∧ (fan.perform codec visit h).1.Tracked :=
  ⟨calm.flagged.spread (fan.perform_spread codec perm h),
    calm.tracked.spread (fan.perform_spread codec perm h)⟩

/-- Nobody has the number 0, or nobody is removed, or participant 0 is one of the first
to be. -/
def FanOut.ZeroSettled (codec : Codec) (h : Hub) (fan : FanOut) : Prop :=
  0 ∉ h.clients ∨ (fan.losses codec h).lost = ∅ ∨ 0 ∈ (fan.losses codec h).lost

theorem FanOut.ZeroSettled.perform {codec : Codec} {h : Hub} {fan : FanOut}
    (zero : fan.ZeroSettled codec h) (perm : ∀ keys, (visit keys).Perm keys) :
    (fan.perform codec visit h).1.ZeroLost := by
  intro c found some_
  have losses := fan.losses_perform codec perm h
  rcases zero with absent | nobody | lost
  · rw [fan.lookup_perform codec perm h 0, AList.lookup_eq_none.mpr absent] at found
    cases found
  · rw [losses, nobody] at some_
    exact absurd some_ Finset.not_nonempty_empty
  · rw [← losses] at lost
    obtain ⟨d, there, marked⟩ := Hub.mem_losses_lost.mp lost
    cases found.symm.trans there
    exact marked

/-- No removal reaches a slot 0 that is not marked. -/
theorem Drained.keeps_zero {codec : Codec} {h after : Hub} {effects : List Effect}
    (drained : Drained codec h after effects emptied) (flagged : h.Flagged)
    (found : h.clients.lookup 0 = some c) (unmarked : c.evicting = false) :
    after.clients.lookup 0 = some c := by
  -- the head of the list is marked, so it is another slot
  have other : ∀ {h : Hub} {id : ParticipantID} {rest : List ParticipantID}, h.Flagged →
      h.clients.lookup 0 = some c → h.evict = id :: rest → 0 ≠ id := by
    rintro h id rest flagged found waiting rfl
    have marked := flagged.listed 0 c (by rw [waiting]; exact List.mem_cons_self) found
    cases unmarked.symm.trans marked
  induction drained with
  | done empty => exact found
  | skipped waiting absent later ih => exact ih (flagged.later waiting) found
  | emptied waiting removal =>
      have left := (AList.lookup_erase_ne (other flagged found waiting)).trans found
      cases removal with
      | emptied _ alone =>
          have member := AList.mem_keys.mp (mem_of_lookup left)
          exact absurd (alone ▸ member : 0 ∈ ([] : List ParticipantID)) List.not_mem_nil
  | evicted waiting removal later ih =>
      have left := (AList.lookup_erase_ne (other flagged found waiting)).trans found
      refine ih ((flagged.later waiting).removal removal) ?_
      cases removal with
      | announced _ others notice =>
          cases notice with
          | unencodable refused => exact left
          | offered encoded offers => exact (offers.kept 0 (fun not => not rfl)).trans left

theorem cascade_isSome (codec : Codec) (order : Order) (h : Hub) (fan : FanOut) :
    ∃ after effects emptied, cascade codec order h fan = some (after, effects, emptied) := by
  have ends : (cascade codec order h fan).isSome = true :=
    drainEvictions_isSome codec order _ 1 _ (evictionWork_le_drainFuel _)
  obtain ⟨⟨after, effects, emptied⟩, finished⟩ := Option.isSome_iff_exists.mp ends
  exact ⟨after, effects, emptied, finished⟩

theorem cascade_cascaded {codec : Codec}
    (encodes : ∀ id, encode codec (.participantLeft id) ≠ none) {h : Hub} (calm : h.Calm)
    {fan : FanOut} (zero : fan.ZeroSettled codec h) {order : Order} {after : Hub}
    {effects : List Effect} (finished : cascade codec order h fan = some (after, effects, emptied)) :
    Cascaded codec h fan after := by
  have perm := order.perm 0
  have same := fan.lookup_perform codec perm h
  obtain ⟨flagged, tracked⟩ := fan.flagged perm calm
  have lost := zero.perform perm
  have loop := drainEvictions_drained codec order _ 1 _ _ finished
  obtain ⟨removed, cleared, settled⟩ :=
    Cleared.drained loop encodes lost (Cleared.start flagged tracked)
  have least := cleared.mem_iff_least settled
  rw [fan.losses_perform codec perm h] at least
  -- Whoever is left has no entry in an empty list, so it was told of every removal.
  have left : ∀ q c, h.clients.lookup q = some c → q ∉ removed →
      ∃ d, after.clients.lookup q = some d ∧
        d.out = (fan.slot codec q c).out ++ removed.map (farewell codec) := by
    intro q c found remains
    have origin : (fan.perform codec (order.visit 0) h).1.clients.lookup q =
        some (fan.slot codec q c) := by
      rw [same q, found, Option.map_some]
    obtain ⟨d, there, state⟩ := cleared.kept q _ origin remains
    refine ⟨d, there, ?_⟩
    rcases state with ⟨-, -, isLeast⟩ | ⟨-, -, grown⟩
    · rw [fan.losses_perform codec perm h] at isLeast
      exact absurd ((least q).mpr isLeast) remains
    · exact grown
  refine
    { clients := fun q => ?_
      queued := fun q c d found there => ?_ }
  · constructor
    · intro member
      obtain ⟨d, there⟩ := Option.isSome_iff_exists.mp (AList.lookup_isSome.mpr member)
      have known := cleared.known q d there
      rw [← AList.lookup_isSome, same q, Option.isSome_map, AList.lookup_isSome] at known
      refine ⟨known, fun isLeast => ?_⟩
      rw [cleared.gone q ((least q).mpr isLeast)] at there
      cases there
    · rintro ⟨member, survives⟩
      obtain ⟨c, found⟩ := Option.isSome_iff_exists.mp (AList.lookup_isSome.mpr member)
      obtain ⟨d, there, -⟩ := left q c found (fun removed => survives ((least q).mp removed))
      exact mem_of_lookup there
  · refine ⟨removed, cleared.distinct, least, ?_⟩
    have remains : q ∉ removed := by
      intro member
      rw [cleared.gone q member] at there
      cases there
    obtain ⟨e, again, grown⟩ := left q c found remains
    rw [there] at again
    cases again
    exact grown

/-- Without the condition, participant 0 is left and has not been told of anybody. -/
theorem zeroSettled_of_cascaded {codec : Codec} {h : Hub} (calm : h.Calm) {fan : FanOut}
    {order : Order} {after : Hub} {effects : List Effect}
    (finished : cascade codec order h fan = some (after, effects, emptied))
    (cascaded : Cascaded codec h fan after) : fan.ZeroSettled codec h := by
  by_contra unsettled
  obtain ⟨present, rest⟩ := not_or.mp unsettled
  obtain ⟨some_, spared⟩ := not_or.mp rest
  obtain ⟨c, found⟩ := Option.isSome_iff_exists.mp
    (AList.lookup_isSome.mpr (not_not.mp present))
  have perm := order.perm 0
  have origin : (fan.perform codec (order.visit 0) h).1.clients.lookup 0 =
      some (fan.slot codec 0 c) := by
    rw [fan.lookup_perform codec perm h 0, found, Option.map_some]
  have unmarked : (fan.slot codec 0 c).evicting = false := by
    rw [← fan.losses_perform codec perm h, Hub.mem_losses_lost] at spared
    exact Bool.eq_false_iff.mpr (fun marked => spared ⟨_, origin, marked⟩)
  have loop := drainEvictions_drained codec order _ 1 _ _ finished
  have there := loop.keeps_zero (fan.flagged perm calm).1 origin unmarked
  obtain ⟨removed, -, least, grown⟩ := cascaded.queued 0 c _ found there
  have nothing := List.map_eq_nil_iff.mp (List.self_eq_append_right.mp grown)
  obtain ⟨id, lost⟩ := Finset.nonempty_iff_ne_empty.mpr some_
  have listed := (least id).mpr (.of_lost lost)
  rw [nothing] at listed
  cases listed

/-- Cascading evictions end.  They do not depend on the order of the loops, in that any
two orders leave the same participants, as the least closed set has it, and queue the
same frames to each up to their order, exactly when participant 0 needs no farewell. -/
theorem cascade_independent_of_order (codec : Codec)
    (encodes : ∀ id, encode codec (.participantLeft id) ≠ none) (h : Hub) (calm : h.Calm)
    (fan : FanOut) :
    (∀ order, (cascade codec order h fan).isSome = true) ∧
      ((∀ (first second : Order) (one other : Hub × List Effect × Bool),
          cascade codec first h fan = some one → cascade codec second h fan = some other →
            Cascaded codec h fan one.1 ∧ Cascaded codec h fan other.1 ∧
              (∀ q, q ∈ one.1.clients ↔ q ∈ other.1.clients) ∧
              ∀ q d e, one.1.clients.lookup q = some d → other.1.clients.lookup q = some e →
                d.out.Perm e.out) ↔
        0 ∉ h.clients ∨ (fan.losses codec h).lost = ∅ ∨ 0 ∈ (fan.losses codec h).lost) := by
  refine ⟨fun order => ?_, fun independent => ?_, fun zero first second one other => ?_⟩
  · obtain ⟨after, effects, emptied, finished⟩ := cascade_isSome codec order h fan
    rw [finished]
    rfl
  · obtain ⟨after, effects, emptied, finished⟩ := cascade_isSome codec .stored h fan
    exact zeroSettled_of_cascaded calm finished
      (independent .stored .stored _ _ finished finished).1
  · intro finished finished'
    have cascaded := cascade_cascaded encodes calm zero finished
    have cascaded' := cascade_cascaded encodes calm zero finished'
    refine ⟨cascaded, cascaded', fun q => ?_, fun q d e there there' => ?_⟩
    · rw [cascaded.clients q, cascaded'.clients q]
    · obtain ⟨c, found⟩ := Option.isSome_iff_exists.mp
        (AList.lookup_isSome.mpr ((cascaded.clients q).mp (mem_of_lookup there)).1)
      obtain ⟨removed, distinct, least, grown⟩ := cascaded.queued q c d found there
      obtain ⟨removed', distinct', least', grown'⟩ := cascaded'.queued q c e found there'
      have sameRemoved : removed.Perm removed' :=
        (List.perm_ext_iff_of_nodup distinct distinct').mpr
          (fun id => (least id).trans (least' id).symm)
      rw [grown, grown']
      exact (sameRemoved.map (farewell codec)).append_left _

def Order.reversed : Order :=
  { visit := fun _ keys => keys.reverse
    perm := fun _ keys => List.reverse_perm keys }

def loadedSlot (id : ParticipantID) (frames : Nat) : Client :=
  { id := id
    out := List.replicate frames []
    kick := id.toNat
    token := []
    held := false
    gen := 1
    timer := false
    evicting := false }

def loadedHub (other : ParticipantID) : Hub :=
  (((newHub 16 0).withClient 1 (loadedSlot 1 sendBuffer)).withClient 2 (loadedSlot 2 63)).withClient
    other (loadedSlot other 0)

theorem loadedHub_calm (other : ParticipantID) : (loadedHub other).Calm := by
  have empty : (newHub 16 0).Calm :=
    { keyed := fun q c found => absurd (mem_of_lookup found) (AList.notMem_empty q)
      settled := rfl
      unmarked := fun q c found => absurd (mem_of_lookup found) (AList.notMem_empty q)
      bounded := fun q c found => absurd (mem_of_lookup found) (AList.notMem_empty q) }
  have first : ((newHub 16 0).withClient 1 (loadedSlot 1 sendBuffer)).Calm :=
    empty.update rfl rfl (List.length_replicate ▸ Nat.le_refl _)
  have second : (((newHub 16 0).withClient 1 (loadedSlot 1 sendBuffer)).withClient 2
      (loadedSlot 2 63)).Calm := first.update rfl rfl (by decide)
  exact second.update rfl rfl (Nat.zero_le _)

theorem cborCodec_encodes_participantLeft (id : ParticipantID) :
    encode cborCodec (.participantLeft id) ≠ none :=
  Option.isSome_iff_ne_none.mp (encode_participantLeft_isSome id)

/-- A message to 1 costs it the slot; the farewell fills the channel of 2. -/
theorem loadedHub_independent_of_order :
    ∃ one other : Hub × List Effect × Bool,
      cascade cborCodec .stored (loadedHub 3) (.send 1 (.pong 7)) = some one ∧
      cascade cborCodec .reversed (loadedHub 3) (.send 1 (.pong 7)) = some other ∧
      (∀ q, q ∈ one.1.clients ↔ q ∈ other.1.clients) ∧
      ∀ q d e, one.1.clients.lookup q = some d → other.1.clients.lookup q = some e →
        d.out.Perm e.out := by
  obtain ⟨ends, independent⟩ := cascade_independent_of_order cborCodec
    cborCodec_encodes_participantLeft (loadedHub 3) (loadedHub_calm 3) (.send 1 (.pong 7))
  obtain ⟨one, finished⟩ := Option.isSome_iff_exists.mp (ends .stored)
  obtain ⟨other, finished'⟩ := Option.isSome_iff_exists.mp (ends .reversed)
  obtain ⟨-, -, same⟩ :=
    independent.mpr (Or.inl (by decide)) .stored .reversed one other finished finished'
  exact ⟨one, other, finished, finished', same⟩

/-- A participant with the id 0 is not told who was evicted. -/
theorem participant_zero_not_told :
    ¬ ∀ (codec : Codec), (∀ id, encode codec (.participantLeft id) ≠ none) →
        ∀ (h : Hub) (fan : FanOut) (order : Order) (after : Hub) (effects : List Effect)
          (emptied : Bool), h.Calm → cascade codec order h fan = some (after, effects, emptied) →
          Cascaded codec h fan after := by
  intro claimed
  have finished : (cascade cborCodec .stored (loadedHub 0) (.send 1 (.pong 7))).any (fun done =>
      (done.1.clients.lookup 0).any (fun d => decide (d.out = []))) = true := by
    decide +kernel
  obtain ⟨⟨after, effects, emptied⟩, ended, there⟩ := (Option.any_eq_true _ _).mp finished
  obtain ⟨d, found, silent⟩ := (Option.any_eq_true _ _).mp there
  have cascaded := claimed cborCodec cborCodec_encodes_participantLeft (loadedHub 0)
    (.send 1 (.pong 7)) .stored after effects emptied (loadedHub_calm 0) ended
  obtain ⟨removed, -, least, grown⟩ :=
    cascaded.queued 0 (loadedSlot 0 0) d (AList.lookup_insert _) found
  have lost : 1 ∈ removed := (least 1).mpr (.of_lost (by decide +kernel))
  rw [of_decide_eq_true silent] at grown
  have none := (List.append_eq_nil_iff.mp grown.symm).2
  rw [List.map_eq_nil_iff.mp none] at lost
  cases lost

end Parley.Relay
