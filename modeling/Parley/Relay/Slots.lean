/-
What the functions of the hub do to each slot.

`queue` looks at one slot only, and a fan-out visits every key once, so the slot
of a participant after a broadcast is a function of its slot before.  The
functions of the hub are described by that function here; what later modules say
about slots, evictions and queued frames is read off these descriptions.
-/

import Parley.Library.AssocList
import Parley.Relay.Hub

namespace Parley.Relay

open Wire Library

def Client.accepts (c : Client) : Bool :=
  !c.evicting && decide (c.out.length < sendBuffer)

def Client.overflows (c : Client) : Bool :=
  !c.evicting && decide (sendBuffer ≤ c.out.length)

/-- The slot after `queue`. -/
def offer (frame : Bytes) (c : Client) : Client :=
  if c.evicting then c
  else if c.out.length < sendBuffer then { c with out := c.out ++ [frame] }
  else { c with evicting := true }

structure SameOwner (before after : Client) : Prop where
  id : after.id = before.id
  kick : after.kick = before.kick
  token : after.token = before.token
  held : after.held = before.held
  gen : after.gen = before.gen
  timer : after.timer = before.timer

theorem SameOwner.refl (c : Client) : SameOwner c c :=
  { id := rfl
    kick := rfl
    token := rfl
    held := rfl
    gen := rfl
    timer := rfl }

theorem SameOwner.trans {first second third : Client} (early : SameOwner first second)
    (late : SameOwner second third) : SameOwner first third :=
  { id := late.id.trans early.id
    kick := late.kick.trans early.kick
    token := late.token.trans early.token
    held := late.held.trans early.held
    gen := late.gen.trans early.gen
    timer := late.timer.trans early.timer }

theorem offer_owner (frame : Bytes) (c : Client) : SameOwner c (offer frame c) := by
  unfold offer
  split
  · exact SameOwner.refl c
  · split
    · exact ⟨rfl, rfl, rfl, rfl, rfl, rfl⟩
    · exact ⟨rfl, rfl, rfl, rfl, rfl, rfl⟩

variable {codec : Codec} {c : Client} {id q : ParticipantID}
  {visit : List ParticipantID → List ParticipantID} {h : Hub} {emptied : Bool} {cmd : Cmd}

theorem offer_of_accepts {frame : Bytes} (room : c.accepts = true) :
    offer frame c = { c with out := c.out ++ [frame] } := by
  simp only [Client.accepts, Bool.and_eq_true, Bool.not_eq_true', decide_eq_true_eq] at room
  simp only [offer, room.1, Bool.false_eq_true, if_false, if_pos room.2]

theorem offer_of_overflows {frame : Bytes} (full : c.overflows = true) :
    offer frame c = { c with evicting := true } := by
  simp only [Client.overflows, Bool.and_eq_true, Bool.not_eq_true', decide_eq_true_eq] at full
  simp only [offer, full.1, Bool.false_eq_true, if_false, if_neg (Nat.not_lt.mpr full.2)]

theorem offer_of_evicting {frame : Bytes} (marked : c.evicting = true) :
    offer frame c = c := by
  simp only [offer, marked, if_true]

theorem accepts_or_overflows (fresh : c.evicting = false) :
    (c.accepts = true ∧ c.overflows = false) ∨ (c.accepts = false ∧ c.overflows = true) := by
  simp only [Client.accepts, Client.overflows, fresh, Bool.not_false, Bool.true_and,
    decide_eq_true_eq, decide_eq_false_iff_not]
  omega

theorem not_accepts_of_evicting (marked : c.evicting = true) :
    c.accepts = false ∧ c.overflows = false := by
  simp [Client.accepts, Client.overflows, marked]

theorem accepts_of_offer {frame : Bytes} (fresh : (offer frame c).evicting = false) :
    c.accepts = true := by
  cases marked : c.evicting with
  | true =>
      rw [offer_of_evicting marked, marked] at fresh
      cases fresh
  | false =>
      rcases accepts_or_overflows marked with ⟨room, _⟩ | ⟨_, full⟩
      · exact room
      · rw [offer_of_overflows full] at fresh
        cases fresh

/-- The frame of `body` was offered once to each slot that `targets` names. -/
structure Offers (body : Body) (frame : Bytes) (targets : ParticipantID → Prop)
    (before after : Hub) (effects : List Effect) : Prop where
  max : after.max = before.max
  grace : after.grace = before.grace
  nextID : after.nextID = before.nextID
  host : after.host = before.host
  kept : ∀ q, ¬targets q → after.clients.lookup q = before.clients.lookup q
  offered : ∀ q, targets q →
    after.clients.lookup q = (before.clients.lookup q).map (offer frame)
  evicts : ∀ id, id ∈ after.evict ↔ id ∈ before.evict ∨
    ∃ q c, targets q ∧ before.clients.lookup q = some c ∧ c.overflows = true ∧ c.id = id
  queued : ∀ q sent, .queued q sent ∈ effects ↔
    sent = body ∧ targets q ∧ ∃ c, before.clients.lookup q = some c ∧ c.accepts = true
  once : ∀ q, effects.countP (fun effect => effect = .queued q body) ≤ 1
  silent : ∀ effect ∈ effects, (∃ q, effect = .queued q body) ∨ ∃ conn, effect = .kicked conn

namespace Offers

variable {body : Body} {frame : Bytes} {targets more : ParticipantID → Prop}
  {before middle after : Hub} {effects later : List Effect}

theorem none (body : Body) (frame : Bytes) (h : Hub) (absent : ∀ q, targets q → q ∉ h.clients) :
    Offers body frame targets h h [] := by
  have missing : ∀ q, targets q → h.clients.lookup q = Option.none :=
    fun q target => AList.lookup_eq_none.mpr (absent q target)
  refine
    { max := rfl
      grace := rfl
      nextID := rfl
      host := rfl
      kept := fun q _ => rfl
      offered := ?_
      evicts := ?_
      queued := ?_
      once := fun q => Nat.zero_le 1
      silent := ?_ }
  · intro q target
    rw [missing q target]
    rfl
  · intro id
    constructor
    · exact Or.inl
    · rintro (pending | ⟨q, c, target, found, _⟩)
      · exact pending
      · rw [missing q target] at found
        cases found
  · intro q sent
    constructor
    · intro member
      cases member
    · rintro ⟨_, target, c, found, _⟩
      rw [missing q target] at found
      cases found
  · intro effect member
    cases member

theorem one (found : before.clients.lookup id = some c)
    {clients : GoMap ParticipantID Client} {pending : List ParticipantID}
    (others : ∀ q, q ≠ id → clients.lookup q = before.clients.lookup q)
    (own : clients.lookup id = some (offer frame c))
    (evicts : ∀ p, p ∈ pending ↔ p ∈ before.evict ∨ c.overflows = true ∧ c.id = p)
    (queued : ∀ q sent, .queued q sent ∈ effects ↔ sent = body ∧ q = id ∧ c.accepts = true)
    (short : effects.length ≤ 1)
    (silent : ∀ effect ∈ effects, (∃ q, effect = .queued q body) ∨
      ∃ conn, effect = .kicked conn) :
    Offers body frame (fun q => q = id) before
      { before with clients := clients, evict := pending } effects := by
  refine
    { max := rfl
      grace := rfl
      nextID := rfl
      host := rfl
      kept := others
      offered := ?_
      evicts := fun p => (evicts p).trans (or_congr_right ?_)
      queued := fun q sent => (queued q sent).trans (and_congr_right fun _ => ?_)
      once := fun q => Nat.le_trans List.countP_le_length short
      silent := silent }
  · rintro q rfl
    rw [found]
    exact own
  · constructor
    · exact fun full => ⟨id, c, rfl, found, full⟩
    · rintro ⟨q, d, rfl, there, full⟩
      rw [found] at there
      cases there
      exact full
  · refine and_congr_right ?_
    rintro rfl
    rw [found]
    simp

theorem union (first : Offers body frame targets before middle effects)
    (second : Offers body frame more middle after later)
    (apart : ∀ q, targets q → ¬more q) :
    Offers body frame (fun q => targets q ∨ more q) before after (effects ++ later) := by
  have untouched : ∀ q, more q → middle.clients.lookup q = before.clients.lookup q :=
    fun q target => first.kept q (fun early => apart q early target)
  refine
    { max := second.max.trans first.max
      grace := second.grace.trans first.grace
      nextID := second.nextID.trans first.nextID
      host := second.host.trans first.host
      kept := ?_
      offered := ?_
      evicts := ?_
      queued := ?_
      once := ?_
      silent := ?_ }
  · intro q outside
    rw [second.kept q (fun target => outside (Or.inr target)),
      first.kept q (fun target => outside (Or.inl target))]
  · rintro q (early | late)
    · rw [second.kept q (apart q early), first.offered q early]
    · rw [second.offered q late, untouched q late]
  · intro id
    rw [second.evicts id, first.evicts id, or_assoc]
    refine or_congr_right ?_
    constructor
    · rintro (⟨q, c, target, found, rest⟩ | ⟨q, c, target, found, rest⟩)
      · exact ⟨q, c, Or.inl target, found, rest⟩
      · rw [untouched q target] at found
        exact ⟨q, c, Or.inr target, found, rest⟩
    · rintro ⟨q, c, early | late, found, rest⟩
      · exact Or.inl ⟨q, c, early, found, rest⟩
      · rw [← untouched q late] at found
        exact Or.inr ⟨q, c, late, found, rest⟩
  · intro q sent
    rw [List.mem_append, first.queued q sent, second.queued q sent]
    constructor
    · rintro (⟨same, target, room⟩ | ⟨same, target, room⟩)
      · exact ⟨same, Or.inl target, room⟩
      · rw [untouched q target] at room
        exact ⟨same, Or.inr target, room⟩
    · rintro ⟨same, early | late, room⟩
      · exact Or.inl ⟨same, early, room⟩
      · rw [← untouched q late] at room
        exact Or.inr ⟨same, late, room⟩
  · intro q
    have early := first.once q
    have late := second.once q
    rw [List.countP_append]
    have none_of_absent : ∀ {sent : List Effect}, Effect.queued q body ∉ sent →
        sent.countP (fun effect => effect = .queued q body) = 0 := by
      intro sent absent
      rw [List.countP_eq_zero]
      rintro effect member same
      rw [of_decide_eq_true same] at member
      exact absent member
    -- Only one of the two fan-outs can have reached `q`.
    by_cases reached : Effect.queued q body ∈ effects
    · have outside : Effect.queued q body ∉ later := fun again =>
        apart q ((first.queued q body).mp reached).2.1 ((second.queued q body).mp again).2.1
      have missing := none_of_absent outside
      omega
    · have missing := none_of_absent reached
      omega
  · intro effect member
    rcases List.mem_append.mp member with early | late
    · exact first.silent effect early
    · exact second.silent effect late

theorem congr (spread : Offers body frame targets before after effects)
    (same : ∀ q, q ∈ before.clients → (targets q ↔ more q)) :
    Offers body frame more before after effects := by
  have stays : ∀ q, q ∉ before.clients →
      before.clients.lookup q = Option.none ∧ after.clients.lookup q = Option.none := by
    intro q absent
    have missing : before.clients.lookup q = Option.none := AList.lookup_eq_none.mpr absent
    refine ⟨missing, ?_⟩
    by_cases target : targets q
    · rw [spread.offered q target, missing]
      rfl
    · rw [spread.kept q target, missing]
  have present : ∀ q c, before.clients.lookup q = some c → q ∈ before.clients := by
    intro q c found
    exact AList.lookup_isSome.mp (by rw [found]; rfl)
  refine
    { spread with
      kept := ?_
      offered := ?_
      evicts := ?_
      queued := ?_ }
  · intro q outside
    by_cases member : q ∈ before.clients
    · exact spread.kept q (fun target => outside ((same q member).mp target))
    · rw [(stays q member).1, (stays q member).2]
  · intro q target
    by_cases member : q ∈ before.clients
    · exact spread.offered q ((same q member).mpr target)
    · rw [(stays q member).1, (stays q member).2]
      rfl
  · intro id
    rw [spread.evicts id]
    refine or_congr_right ?_
    constructor
    · rintro ⟨q, c, target, found, rest⟩
      exact ⟨q, c, (same q (present q c found)).mp target, found, rest⟩
    · rintro ⟨q, c, target, found, rest⟩
      exact ⟨q, c, (same q (present q c found)).mpr target, found, rest⟩
  · intro q sent
    rw [spread.queued q sent]
    constructor
    · rintro ⟨body, target, c, found, rest⟩
      exact ⟨body, (same q (present q c found)).mp target, c, found, rest⟩
    · rintro ⟨body, target, c, found, rest⟩
      exact ⟨body, (same q (present q c found)).mpr target, c, found, rest⟩

theorem source (spread : Offers body frame targets before after effects)
    (found : after.clients.lookup q = some c) :
    ∃ old, before.clients.lookup q = some old ∧
      (c = old ∨ (targets q ∧ c = offer frame old)) := by
  by_cases target : targets q
  · rw [spread.offered q target] at found
    obtain ⟨old, there, rfl⟩ := Option.map_eq_some_iff.mp found
    exact ⟨old, there, Or.inr ⟨target, rfl⟩⟩
  · rw [spread.kept q target] at found
    exact ⟨c, found, Or.inl rfl⟩

theorem owner (spread : Offers body frame targets before after effects)
    (found : after.clients.lookup q = some c) :
    ∃ old, before.clients.lookup q = some old ∧ SameOwner old c := by
  obtain ⟨old, there, rfl | ⟨_, rfl⟩⟩ := spread.source found
  · exact ⟨c, there, SameOwner.refl c⟩
  · exact ⟨old, there, offer_owner frame old⟩

theorem mem_iff (spread : Offers body frame targets before after effects) (q : ParticipantID) :
    q ∈ after.clients ↔ q ∈ before.clients := by
  rw [← AList.lookup_isSome, ← AList.lookup_isSome]
  by_cases target : targets q
  · rw [spread.offered q target, Option.isSome_map]
  · rw [spread.kept q target]

end Offers

theorem queue_offers (h : Hub) (id : ParticipantID) (body : Body) (frame : Bytes) :
    Offers body frame (fun q => q = id) h (queue h id body frame).1
      (queue h id body frame).2 := by
  cases found : h.clients.lookup id with
  | none =>
      have same : queue h id body frame = (h, []) := by simp only [queue, found]
      rw [same]
      exact Offers.none body frame h (fun q target => by
        rw [target]
        exact AList.lookup_eq_none.mp found)
  | some c =>
      cases marked : c.evicting with
      | true =>
          have same : queue h id body frame = (h, []) := by simp only [queue, found, marked, if_true]
          obtain ⟨noRoom, noOverflow⟩ := not_accepts_of_evicting marked
          rw [same]
          refine Offers.one found (fun _ _ => rfl) ?_ ?_ ?_ (Nat.zero_le 1) (List.forall_mem_nil _)
          · rw [found, offer_of_evicting marked]
          · simp [noOverflow]
          · simp [noRoom]
      | false =>
          have inserted : ∀ q, q ≠ id → (h.clients.insert id (offer frame c)).lookup q =
              h.clients.lookup q := fun q other => AList.lookup_insert_ne other
          rcases accepts_or_overflows marked with ⟨room, noOverflow⟩ | ⟨noRoom, full⟩
          · have space : c.out.length < sendBuffer := by
              simpa [Client.accepts, marked] using room
            have same : queue h id body frame =
                ({ h with clients := h.clients.insert id (offer frame c) }, [.queued id body]) := by
              simp only [queue, found, marked, Bool.false_eq_true, if_false, if_pos space,
                offer_of_accepts room]
            rw [same]
            refine Offers.one found inserted (AList.lookup_insert _) ?_ ?_ (Nat.le_refl 1) ?_
            · simp [noOverflow]
            · simp [room, and_comm]
            · exact fun effect member => Or.inl ⟨id, List.mem_singleton.mp member⟩
          · have space : ¬c.out.length < sendBuffer := by
              have filled : sendBuffer ≤ c.out.length := by
                simpa [Client.overflows, marked] using full
              omega
            have same : queue h id body frame =
                ({ h with
                    clients := h.clients.insert id (offer frame c)
                    evict := h.evict ++ [c.id] },
                  if c.held then [] else [.kicked c.kick]) := by
              simp only [queue, found, marked, Bool.false_eq_true, if_false, if_neg space,
                offer_of_overflows full]
            rw [same]
            refine Offers.one found inserted (AList.lookup_insert _) ?_ ?_ ?_ ?_
            · simp [full, eq_comm]
            · cases c.held <;> simp [noRoom]
            · cases c.held <;> simp
            · cases c.held <;> simp

theorem fanOut_offers (body : Body) (frame : Bytes) (except : ParticipantID)
    (keys : List ParticipantID) (distinct : keys.Nodup) (h : Hub) :
    Offers body frame (fun q => q ∈ keys ∧ q ≠ except) h (fanOut body frame except keys h).1
      (fanOut body frame except keys h).2 := by
  induction keys generalizing h with
  | nil => exact Offers.none body frame h (fun q target => by cases target.1)
  | cons id rest ih =>
      obtain ⟨fresh, tail⟩ := List.nodup_cons.mp distinct
      unfold fanOut
      split
      · rename_i skipped
        refine (ih tail h).congr (fun q _ => ?_)
        rw [List.mem_cons]
        constructor
        · exact fun target => ⟨Or.inr target.1, target.2⟩
        · rintro ⟨rfl | member, other⟩
          · exact absurd skipped other
          · exact ⟨member, other⟩
      · rename_i other
        have both := (queue_offers h id body frame).union
          (ih tail (queue h id body frame).1) (fun q target later => by
            rw [target] at later
            exact fresh later.1)
        refine both.congr (fun q _ => ?_)
        rw [List.mem_cons]
        constructor
        · rintro (rfl | ⟨member, differs⟩)
          · exact ⟨Or.inl rfl, other⟩
          · exact ⟨Or.inr member, differs⟩
        · rintro ⟨rfl | member, differs⟩
          · exact Or.inl rfl
          · exact Or.inr ⟨member, differs⟩

theorem broadcastFrame_offers (perm : ∀ keys, (visit keys).Perm keys) (h : Hub) {body : Body}
    {frame : Bytes} (encoded : encode codec body = some frame) (except : ParticipantID) :
    Offers body frame (fun q => q ≠ except) h (broadcastFrame codec visit h body except).1
      (broadcastFrame codec visit h body except).2 := by
  have shuffled := perm h.clients.keys
  have distinct : (visit h.clients.keys).Nodup := shuffled.nodup_iff.mpr h.clients.keys_nodup
  simp only [broadcastFrame, encoded]
  refine (fanOut_offers body frame except _ distinct h).congr (fun q member => ?_)
  rw [shuffled.mem_iff]
  exact and_iff_right (AList.mem_keys.mp member)

theorem broadcastFrame_of_unencodable (visit : List ParticipantID → List ParticipantID) (h : Hub)
    {body : Body} (refused : encode codec body = none) (except : ParticipantID) :
    broadcastFrame codec visit h body except = (h, []) := by
  simp only [broadcastFrame, refused]

theorem sendTo_offers (h : Hub) (id : ParticipantID) {body : Body} {frame : Bytes}
    (encoded : encode codec body = some frame) :
    Offers body frame (fun q => q = id) h (sendTo codec h id body).1
      (sendTo codec h id body).2 := by
  cases found : h.clients.lookup id with
  | none =>
      simp only [sendTo, found]
      exact Offers.none body frame h (fun q target => by
        rw [target]
        exact AList.lookup_eq_none.mp found)
  | some c =>
      simp only [sendTo, found, encoded]
      exact queue_offers h id body frame

theorem sendTo_of_unencodable (h : Hub) (id : ParticipantID) {body : Body}
    (refused : encode codec body = none) : sendTo codec h id body = (h, []) := by
  cases found : h.clients.lookup id with
  | none => simp only [sendTo, found]
  | some c => simp only [sendTo, found, refused]

/-- `body` was offered to the slots that `targets` names, unless it has no
frame. -/
inductive Spread (codec : Codec) (body : Body) (targets : ParticipantID → Prop) (before : Hub) :
    Hub → List Effect → Prop where
  | offered {frame : Bytes} {after : Hub} {effects : List Effect}
      (encoded : encode codec body = some frame)
      (offers : Offers body frame targets before after effects) :
      Spread codec body targets before after effects
  | unencodable (refused : encode codec body = none) :
      Spread codec body targets before before []

theorem broadcastFrame_spread (codec : Codec) (perm : ∀ keys, (visit keys).Perm keys) (h : Hub)
    (body : Body) (except : ParticipantID) :
    Spread codec body (fun q => q ≠ except) h (broadcastFrame codec visit h body except).1
      (broadcastFrame codec visit h body except).2 := by
  cases encoded : encode codec body with
  | none =>
      rw [broadcastFrame_of_unencodable visit h encoded except]
      exact .unencodable encoded
  | some frame => exact .offered encoded (broadcastFrame_offers perm h encoded except)

theorem sendTo_spread (codec : Codec) (h : Hub) (id : ParticipantID) (body : Body) :
    Spread codec body (fun q => q = id) h (sendTo codec h id body).1
      (sendTo codec h id body).2 := by
  cases encoded : encode codec body with
  | none =>
      rw [sendTo_of_unencodable h id encoded]
      exact .unencodable encoded
  | some frame => exact .offered encoded (sendTo_offers h id encoded)

/-- The hub without the slot of `id`. -/
def Hub.without (h : Hub) (id : ParticipantID) : Hub :=
  { h with clients := h.clients.erase id }

theorem lookup_without (found : (h.without id).clients.lookup q = some c) :
    q ≠ id ∧ h.clients.lookup q = some c := by
  have other : q ≠ id := (AList.mem_erase.mp (mem_of_lookup found)).1
  exact ⟨other, (AList.lookup_erase_ne other).symm.trans found⟩

/-- `removeParticipant` on a slot that exists. -/
inductive Removal (codec : Codec) (id : ParticipantID) (before : Hub) :
    Hub → List Effect → Bool → Prop where
  | emptied {c : Client} (found : before.clients.lookup id = some c)
      (alone : (before.without id).clients.keys = []) :
      Removal codec id before (before.without id) [.kicked c.kick] true
  | announced {c : Client} {after : Hub} {effects : List Effect}
      (found : before.clients.lookup id = some c)
      (others : (before.without id).clients.keys ≠ [])
      (notice : Spread codec (.participantLeft id) (fun q => q ≠ 0) (before.without id) after
        effects) :
      Removal codec id before after (.kicked c.kick :: effects) false

theorem removeParticipant_of_absent (codec : Codec)
    (visit : List ParticipantID → List ParticipantID) (absent : h.clients.lookup id = none) :
    removeParticipant codec visit h id = (h, [], false) := by
  simp only [removeParticipant, absent]

theorem removeParticipant_removal (codec : Codec) (perm : ∀ keys, (visit keys).Perm keys)
    (found : h.clients.lookup id = some c) :
    Removal codec id h (removeParticipant codec visit h id).1
      (removeParticipant codec visit h id).2.1 (removeParticipant codec visit h id).2.2 := by
  by_cases alone : (h.without id).clients.keys = []
  · have same : removeParticipant codec visit h id = (h.without id, [.kicked c.kick], true) := by
      simp only [removeParticipant, found]
      exact if_pos alone
    rw [same]
    exact .emptied found alone
  · have same : removeParticipant codec visit h id =
        ((broadcastFrame codec visit (h.without id) (.participantLeft id) 0).1,
          .kicked c.kick ::
            (broadcastFrame codec visit (h.without id) (.participantLeft id) 0).2, false) := by
      simp only [removeParticipant, found]
      exact if_neg alone
    rw [same]
    exact .announced found alone (broadcastFrame_spread codec perm _ _ _)

/-- The eviction loop, one entry of the list after another. -/
inductive Drained (codec : Codec) : Hub → Hub → List Effect → Bool → Prop where
  | done {h : Hub} (empty : h.evict = []) : Drained codec h h [] false
  | skipped {h after : Hub} {effects : List Effect} {emptied : Bool} {id : ParticipantID}
      {rest : List ParticipantID} (pending : h.evict = id :: rest)
      (absent : h.clients.lookup id = none)
      (later : Drained codec { h with evict := rest } after effects emptied) :
      Drained codec h after effects emptied
  | emptied {h after : Hub} {effects : List Effect} {id : ParticipantID}
      {rest : List ParticipantID} (pending : h.evict = id :: rest)
      (removal : Removal codec id { h with evict := rest } after effects true) :
      Drained codec h after effects true
  | evicted {h middle after : Hub} {early late : List Effect} {emptied : Bool}
      {id : ParticipantID} {rest : List ParticipantID} (pending : h.evict = id :: rest)
      (removal : Removal codec id { h with evict := rest } middle early false)
      (later : Drained codec middle after late emptied) :
      Drained codec h after (early ++ late) emptied

theorem drainEvictions_drained (codec : Codec) (order : Order) (fuel loop : Nat) (h : Hub)
    (drained : Hub × List Effect × Bool)
    (finished : drainEvictions codec order fuel loop h = some drained) :
    Drained codec h drained.1 drained.2.1 drained.2.2 := by
  induction fuel generalizing loop h drained with
  | zero =>
      unfold drainEvictions at finished
      split at finished
      · rename_i empty
        cases finished
        exact .done empty
      · cases finished
  | succ fuel ih =>
      unfold drainEvictions at finished
      split at finished
      · rename_i empty
        cases finished
        exact .done empty
      · rename_i id rest pending
        dsimp only at finished
        cases found : h.clients.lookup id with
        | none =>
            have absent : ({ h with evict := rest } : Hub).clients.lookup id = none := found
            rw [removeParticipant_of_absent codec (order.visit loop) absent] at finished
            obtain ⟨later, tail, rfl⟩ := Option.map_eq_some_iff.mp finished
            exact .skipped pending found (ih _ _ later tail)
        | some c =>
            have present : ({ h with evict := rest } : Hub).clients.lookup id = some c := found
            have removal := removeParticipant_removal codec (order.perm loop) present
            generalize removeParticipant codec (order.visit loop) { h with evict := rest } id =
              removed at finished removal
            obtain ⟨middle, early, emptied⟩ := removed
            cases emptied with
            | true =>
                cases finished
                exact .emptied pending removal
            | false =>
                obtain ⟨later, tail, rfl⟩ := Option.map_eq_some_iff.mp finished
                exact .evicted pending removal (ih _ _ later tail)

/-- A frame queued or a connection kicked; everything else is a reply. -/
def Effect.isTraffic : Effect → Bool
  | .queued _ _ => true
  | .kicked _ => true
  | _ => false

variable {p : Effect → Prop} {updated : Client} {returned : Bool} {order : Order}

theorem Spread.effects_all {body : Body} {targets : ParticipantID → Prop} {before after : Hub}
    {effects : List Effect} (spread : Spread codec body targets before after effects)
    (queued : ∀ q, p (.queued q body)) (kicked : ∀ conn, p (.kicked conn)) :
    ∀ effect ∈ effects, p effect := by
  intro effect member
  cases spread with
  | offered _ offers =>
      rcases offers.silent effect member with ⟨q, rfl⟩ | ⟨conn, rfl⟩
      · exact queued q
      · exact kicked conn
  | unencodable _ => cases member

theorem Spread.traffic {body : Body} {targets : ParticipantID → Prop} {before after : Hub}
    {effects : List Effect} (spread : Spread codec body targets before after effects) :
    ∀ effect ∈ effects, effect.isTraffic = true :=
  spread.effects_all (fun _ => rfl) (fun _ => rfl)

def Hub.limits (h : Hub) : Nat × Nat := (h.max, h.grace)

/-- What frames and removals leave alone: the limits, the id counter and the host. -/
def Hub.header (h : Hub) : (Nat × Nat) × ParticipantID × ParticipantID :=
  (h.limits, h.nextID, h.host)

theorem Spread.header {body : Body} {targets : ParticipantID → Prop} {before after : Hub}
    {effects : List Effect} (spread : Spread codec body targets before after effects) :
    after.header = before.header := by
  cases spread with
  | offered _ offers =>
      exact Prod.ext (Prod.ext offers.max offers.grace) (Prod.ext offers.nextID offers.host)
  | unencodable _ => rfl

theorem Removal.effects_all {before after : Hub} {effects : List Effect}
    (removal : Removal codec id before after effects emptied)
    (queued : ∀ q, p (.queued q (.participantLeft id))) (kicked : ∀ conn, p (.kicked conn)) :
    ∀ effect ∈ effects, p effect := by
  intro effect member
  cases removal with
  | @emptied c found alone =>
      rw [List.mem_singleton.mp member]
      exact kicked c.kick
  | announced found others notice =>
      rcases List.mem_cons.mp member with rfl | later
      · exact kicked _
      · exact notice.effects_all queued kicked effect later

theorem Removal.traffic {before after : Hub} {effects : List Effect}
    (removal : Removal codec id before after effects emptied) :
    ∀ effect ∈ effects, effect.isTraffic = true :=
  removal.effects_all (fun _ => rfl) (fun _ => rfl)

theorem Removal.header {before after : Hub} {effects : List Effect}
    (removal : Removal codec id before after effects emptied) :
    after.header = before.header := by
  cases removal with
  | emptied found alone => rfl
  | announced found others notice => exact notice.header

theorem Drained.effects_all {before after : Hub} {effects : List Effect}
    (drained : Drained codec before after effects emptied)
    (queued : ∀ q id, p (.queued q (.participantLeft id))) (kicked : ∀ conn, p (.kicked conn)) :
    ∀ effect ∈ effects, p effect := by
  induction drained with
  | done empty => exact fun effect member => by cases member
  | skipped pending absent later ih => exact ih
  | emptied pending removal => exact removal.effects_all (fun q => queued q _) kicked
  | evicted pending removal later ih =>
      intro effect member
      rcases List.mem_append.mp member with early | late
      · exact removal.effects_all (fun q => queued q _) kicked effect early
      · exact ih effect late

theorem Drained.traffic {before after : Hub} {effects : List Effect}
    (drained : Drained codec before after effects emptied) :
    ∀ effect ∈ effects, effect.isTraffic = true :=
  drained.effects_all (fun _ _ => rfl) (fun _ => rfl)

theorem Drained.header {before after : Hub} {effects : List Effect}
    (drained : Drained codec before after effects emptied) :
    after.header = before.header := by
  induction drained with
  | done empty => rfl
  | skipped pending absent later ih => exact ih
  | emptied pending removal => exact removal.header
  | evicted pending removal later ih => exact ih.trans removal.header

theorem Hub.limits_of_header {before after : Hub} (same : after.header = before.header) :
    after.limits = before.limits := congrArg Prod.fst same

theorem Hub.nextID_of_header {before after : Hub} (same : after.header = before.header) :
    after.nextID = before.nextID := congrArg (fun header => header.2.1) same

theorem Hub.host_of_header {before after : Hub} (same : after.header = before.header) :
    after.host = before.host := congrArg (fun header => header.2.2) same

/-! ### One command -/

def Cmd.joinCount : Cmd → Nat
  | .join _ _ _ => 1
  | _ => 0

def Effect.isIdle : Effect → Bool
  | .joinReply _ reply => !reply.ok
  | .resumeReply _ reply => !reply.ok
  | .statsReply _ => true
  | _ => false

/-- A slot as `handleJoin` registers it. -/
def newClient (id : ParticipantID) (frame : Bytes) (conn : ConnID) (token : Bytes) : Client :=
  { id := id
    out := [frame]
    kick := conn
    token := token
    held := false
    gen := 1
    timer := false
    evicting := false }

/-- A slot as `handleResume` leaves it. -/
def Client.resumed (c : Client) (frame : Bytes) (conn : ConnID) : Client :=
  { c with
    out := refill frame (if c.held then c.out else [])
    kick := conn
    held := false
    gen := c.gen + 1
    timer := false }

/-- A slot as `holdSlot` leaves it. -/
def Client.onHold (c : Client) : Client :=
  { c with held := true, gen := c.gen + 1, out := [], timer := true }

theorem lookup_withClient (found : (h.withClient id updated).clients.lookup q = some c) :
    (q = id ∧ c = updated) ∨ (q ≠ id ∧ h.clients.lookup q = some c) := by
  by_cases same : q = id
  · rw [same] at found
    exact Or.inl ⟨same, Option.some.inj (found.symm.trans (AList.lookup_insert _))⟩
  · exact Or.inr ⟨same, (AList.lookup_insert_ne same).symm.trans found⟩

theorem exists_lookup_withClient (found : h.clients.lookup q = some c) :
    ∃ d, (h.withClient id updated).clients.lookup q = some d := by
  by_cases same : q = id
  · rw [same]
    exact ⟨updated, AList.lookup_insert _⟩
  · exact ⟨c, (AList.lookup_insert_ne same).trans found⟩

def Hub.issued (h : Hub) : Hub :=
  { h with nextID := h.nextID + 1 }

/-- What a command does before the evictions it causes. -/
inductive Served (codec : Codec) (h : Hub) : Cmd → Hub → List Effect → Bool → Prop where
  | ignored {cmd : Cmd} {effects : List Effect}
      (idle : ∀ effect ∈ effects, effect.isIdle = true) :
      Served codec h cmd h effects false
  | unencoded {conn : ConnID} {isCreate : Bool} {token : Bytes} {reply : JoinReply}
      (refused : reply.ok = false) :
      Served codec h (.join conn isCreate token) h.issued [.joinReply conn reply] false
  | admitted {conn : ConnID} {isCreate : Bool} {token : Bytes}
      {visit : List ParticipantID → List ParticipantID} {frame : Bytes} {after : Hub}
      {effects : List Effect} (perm : ∀ keys, (visit keys).Perm keys)
      (room : h.clients.keys.length < h.max)
      (encoded : encode codec (helloReply h visit isCreate h.nextID token) = some frame)
      (notice : Spread codec (.participantJoined h.nextID) (fun q => q ≠ h.nextID)
        (h.issued.withClient h.nextID (newClient h.nextID frame conn token)) after effects) :
      Served codec h (.join conn isCreate token) after
        (.queued h.nextID (helloReply h visit isCreate h.nextID token) ::
          .joinReply conn { ok := true, errC := 0, errS := "", id := h.nextID, gen := 1 } ::
            effects) false
  | held {id : ParticipantID} {gen : UInt64} {c : Client} (found : h.clients.lookup id = some c)
      (live : c.held = false) (current : c.gen = gen) (graced : 0 < h.grace) :
      Served codec h (.leave id gen true) (h.withClient id c.onHold) [] false
  | left {id : ParticipantID} {gen : UInt64} {unexpected emptied : Bool} {c : Client} {after : Hub}
      {effects : List Effect} (found : h.clients.lookup id = some c) (live : c.held = false)
      (current : c.gen = gen) (final : unexpected = false ∨ h.grace = 0)
      (removal : Removal codec id h after effects emptied) :
      Served codec h (.leave id gen unexpected) after effects emptied
  | expired {id : ParticipantID} {gen : UInt64} {emptied : Bool} {c : Client} {after : Hub}
      {effects : List Effect} (found : h.clients.lookup id = some c) (waiting : c.held = true)
      (current : c.gen = gen) (removal : Removal codec id h after effects emptied) :
      Served codec h (.graceExpired id gen) after effects emptied
  | resumed {id : ParticipantID} {token : Bytes} {conn : ConnID} {c : Client}
      {visit : List ParticipantID → List ParticipantID} {frame : Bytes}
      (perm : ∀ keys, (visit keys).Perm keys) (found : h.clients.lookup id = some c)
      (authentic : c.token = token)
      (encoded : encode codec (helloReply h visit false id c.token) = some frame) :
      Served codec h (.resume id token conn) (h.withClient id (c.resumed frame conn))
        ((if c.held then [] else [.kicked c.kick]) ++
          [.queued id (helloReply h visit false id c.token),
            .resumeReply conn { ok := true, errC := 0, errS := "", gen := c.gen + 1 }]) false
  | claimed {id : ParticipantID} {c : Client} (found : h.clients.lookup id = some c) :
      Served codec h (.claimHost id) { h with host := id } [] false
  | complained {fromID : ParticipantID} {typ : MsgType} {raw : Bytes} {code : UInt16}
      {msg : String} {after : Hub} {effects : List Effect}
      (answer : Spread codec (.error code msg) (fun q => q = fromID) h after effects) :
      Served codec h (.frame fromID typ raw) after effects false
  | directed {fromID : ParticipantID} {raw : Bytes} {message : Direct} {after : Hub}
      {effects : List Effect} (decoded : codec.bodyDirect raw = some message)
      (sent : Spread codec (.direct { message with fromID := fromID })
        (fun q => q = message.toID) h after effects) :
      Served codec h (.frame fromID .direct raw) after effects false
  | broadcast {fromID : ParticipantID} {raw : Bytes} {message : Broadcast} {after : Hub}
      {effects : List Effect} (decoded : codec.bodyBroadcast raw = some message)
      (sent : Spread codec (.broadcast { message with fromID := fromID })
        (fun q => q ≠ fromID) h after effects) :
      Served codec h (.frame fromID .broadcast raw) after effects false
  | closing {reason : String} {after : Hub} {effects : List Effect}
      (notice : Spread codec (.sessionClosed reason) (fun q => q ≠ 0) h after effects) :
      Served codec h (.close reason) after effects true

theorem Served.kept {after : Hub} {effects : List Effect}
    (served : Served codec h cmd after effects returned) :
    after.limits = h.limits ∧ ((∀ id, cmd ≠ .claimHost id) → after.host = h.host) := by
  have of_header : ∀ {base after : Hub} {unclaimed : Prop}, after.header = base.header →
      after.limits = base.limits ∧ (unclaimed → after.host = base.host) :=
    fun same => ⟨Hub.limits_of_header same, fun _ => Hub.host_of_header same⟩
  cases served with
  | ignored idle => exact ⟨rfl, fun _ => rfl⟩
  | unencoded refused => exact ⟨rfl, fun _ => rfl⟩
  | admitted perm room encoded notice =>
      have limits := Hub.limits_of_header notice.header
      have host := Hub.host_of_header notice.header
      exact ⟨limits, fun _ => host⟩
  | held found live current graced => exact ⟨rfl, fun _ => rfl⟩
  | left found live current final removal => exact of_header removal.header
  | expired found waiting current removal => exact of_header removal.header
  | resumed perm found authentic encoded => exact ⟨rfl, fun _ => rfl⟩
  | claimed found => exact ⟨rfl, fun unclaimed => absurd rfl (unclaimed _)⟩
  | complained answer => exact of_header answer.header
  | directed decoded sent => exact of_header sent.header
  | broadcast decoded sent => exact of_header sent.header
  | closing notice => exact of_header notice.header

theorem Served.refusal {effect : Effect} (idle : effect.isIdle = true) :
    Served codec h cmd h [effect] false := by
  refine .ignored (fun other member => ?_)
  rw [List.mem_singleton.mp member]
  exact idle

theorem Served.nothing : Served codec h cmd h [] false :=
  .ignored (fun effect member => by cases member)

theorem handleJoin_served (codec : Codec) (order : Order) (h : Hub) (conn : ConnID)
    (isCreate : Bool) (token : Bytes) :
    Served codec h (.join conn isCreate token) (handleJoin codec order h conn isCreate token).1
      (handleJoin codec order h conn isCreate token).2 false := by
  unfold handleJoin
  split
  · exact .refusal rfl
  · rename_i room
    dsimp only
    split
    · exact .unencoded rfl
    · rename_i frame encoded
      exact .admitted (order.perm 0) (Nat.lt_of_not_le room) encoded
        (broadcastFrame_spread codec (order.perm 1) _ _ _)

theorem handleLeave_served (codec : Codec) (order : Order) (h : Hub) (id : ParticipantID)
    (gen : UInt64) (unexpected : Bool) :
    Served codec h (.leave id gen unexpected) (handleLeave codec order h id gen unexpected).1
      (handleLeave codec order h id gen unexpected).2.1
      (handleLeave codec order h id gen unexpected).2.2 := by
  unfold handleLeave
  split
  · exact .nothing
  · rename_i c found
    split
    · exact .nothing
    · rename_i current
      simp only [not_or, Bool.not_eq_true, ne_eq, Decidable.not_not] at current
      split
      · rename_i graced
        rw [graced.1]
        exact .held found current.1 current.2 graced.2
      · rename_i final
        refine .left found current.1 current.2 ?_
          (removeParticipant_removal codec (order.perm 0) found)
        cases unexpected with
        | false => exact Or.inl rfl
        | true => exact Or.inr (Nat.eq_zero_of_not_pos (fun graced => final ⟨rfl, graced⟩))

theorem handleGraceExpired_served (codec : Codec) (order : Order) (h : Hub) (id : ParticipantID)
    (gen : UInt64) :
    Served codec h (.graceExpired id gen) (handleGraceExpired codec order h id gen).1
      (handleGraceExpired codec order h id gen).2.1
      (handleGraceExpired codec order h id gen).2.2 := by
  unfold handleGraceExpired
  split
  · exact .nothing
  · rename_i c found
    split
    · exact .nothing
    · rename_i current
      simp only [not_or, Decidable.not_not, ne_eq] at current
      exact .expired found current.1 current.2
        (removeParticipant_removal codec (order.perm 0) found)

theorem handleResume_served (codec : Codec) (order : Order) (h : Hub) (id : ParticipantID)
    (token : Bytes) (conn : ConnID) :
    Served codec h (.resume id token conn) (handleResume codec order h id token conn).1
      (handleResume codec order h id token conn).2 false := by
  unfold handleResume
  dsimp only
  split
  · exact .refusal rfl
  · rename_i c found
    split
    · exact .refusal rfl
    · rename_i authentic
      split
      · exact .refusal rfl
      · rename_i frame encoded
        exact .resumed (order.perm 0) found (Decidable.not_not.mp authentic) encoded

theorem handleClaimHost_served (codec : Codec) (h : Hub) (id : ParticipantID) :
    Served codec h (.claimHost id) (handleClaimHost h id) [] false := by
  unfold handleClaimHost
  split
  · exact .nothing
  · rename_i c found
    exact .claimed found

theorem route_served (codec : Codec) (order : Order) (h : Hub) (fromID : ParticipantID)
    (typ : MsgType) (raw : Bytes) :
    Served codec h (.frame fromID typ raw) (route codec order h fromID typ raw).1
      (route codec order h fromID typ raw).2 false := by
  unfold route
  split
  · split
    · exact .complained (sendTo_spread codec h fromID _)
    · rename_i message decoded
      split
      · exact .complained (sendTo_spread codec h fromID _)
      · exact .directed decoded (sendTo_spread codec h message.toID _)
  · split
    · exact .complained (sendTo_spread codec h fromID _)
    · rename_i message decoded
      exact .broadcast decoded (broadcastFrame_spread codec (order.perm 0) h _ fromID)
  · exact .nothing

theorem dispatch_served (codec : Codec) (order : Order) (h : Hub) (cmd : Cmd) :
    Served codec h cmd (dispatch codec order h cmd).1 (dispatch codec order h cmd).2.1
      (dispatch codec order h cmd).2.2 := by
  cases cmd with
  | join conn isCreate token => exact handleJoin_served codec order h conn isCreate token
  | leave id gen unexpected => exact handleLeave_served codec order h id gen unexpected
  | resume id token conn => exact handleResume_served codec order h id token conn
  | graceExpired id gen => exact handleGraceExpired_served codec order h id gen
  | claimHost id => exact handleClaimHost_served codec h id
  | frame fromID typ raw => exact route_served codec order h fromID typ raw
  | stats => exact .refusal rfl
  | close reason => exact .closing (broadcastFrame_spread codec (order.perm 0) h _ 0)

/-- One iteration of `run`: the command's own effect ends the loop, or the
evictions follow and may end it. -/
theorem handle_served {after : Hub} {effects : List Effect}
    (handled : handle codec order h cmd = some (after, effects, returned)) :
    (∃ early, Served codec h cmd after early true ∧ effects = early ++ shutdown after ∧
      returned = true) ∨
    (∃ middle early late, Served codec h cmd middle early false ∧
      Drained codec middle after late returned ∧
      effects = early ++ late ++ (if returned then shutdown after else [])) := by
  have served := dispatch_served codec order h cmd
  unfold handle at handled
  generalize dispatch codec order h cmd = own at handled served
  obtain ⟨middle, early, finished⟩ := own
  cases finished with
  | true =>
      simp only [if_true, Option.some.injEq, Prod.mk.injEq] at handled
      obtain ⟨rfl, rfl, rfl⟩ := handled
      exact Or.inl ⟨early, served, rfl, rfl⟩
  | false =>
      obtain ⟨drained, finished, same⟩ := Option.map_eq_some_iff.mp handled
      obtain ⟨last, late, emptied⟩ := drained
      simp only [Prod.mk.injEq] at same
      obtain ⟨rfl, rfl, rfl⟩ := same
      exact Or.inr ⟨middle, early, late, served,
        drainEvictions_drained codec order _ _ middle _ finished, rfl⟩

theorem handle_continues {after : Hub} {effects : List Effect}
    (handled : handle codec order h cmd = some (after, effects, false)) :
    ∃ middle early late, Served codec h cmd middle early false ∧
      Drained codec middle after late false ∧ effects = early ++ late := by
  rcases handle_served handled with ⟨early, _, _, never⟩ | ⟨middle, early, late, served, drained, same⟩
  · cases never
  · exact ⟨middle, early, late, served, drained, same.trans (List.append_nil _)⟩

end Parley.Relay
