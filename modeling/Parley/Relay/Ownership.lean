/-
Who owns a slot.

Each change of a slot's connection bumps its generation, so of all handlers that
were ever attached to a slot at most one carries its generation, and what an
older handler or timer still sends is ignored.  This needs an id to stand for one
slot during the whole session and a slot's 64-bit generation not to come round:
once the 32-bit id counter does, a join takes over the slot of a participant who
is still there.
-/

import Parley.Relay.Representation
import Parley.Relay.Wraparound

namespace Parley.Relay

open Wire Library

def helloToken : Body → Option Bytes
  | .sessionCreated _ token => some token
  | .joinResult result => some result.resumeToken
  | _ => none

/-- The reclaim tokens the log shows being sent, with their participants. -/
def welcomes (log : List Effect) : List (ParticipantID × Bytes) :=
  log.filterMap (fun effect =>
    match effect with
    | .queued toID body => (helloToken body).map (fun token => (toID, token))
    | _ => none)

theorem welcomes_append (early late : List Effect) :
    welcomes (early ++ late) = welcomes early ++ welcomes late :=
  List.filterMap_append

theorem helloToken_helloReply (h : Hub) (visit : List ParticipantID → List ParticipantID)
    (isCreate : Bool) (id : ParticipantID) (token : Bytes) :
    helloToken (helloReply h visit isCreate id token) = some token := by
  unfold helloReply
  split
  · rfl
  · rfl

def Effect.grantsNothing : Effect → Bool
  | .queued _ body => (helloToken body).isNone
  | .kicked _ => true
  | .joinReply _ reply => !reply.ok
  | .resumeReply _ reply => !reply.ok
  | .statsReply _ => true

/-- The command and its effects grant nobody a slot. -/
structure NoGrant (cmd : Cmd) (effects : List Effect) : Prop where
  issues : issuedIDs effects = []
  attaches : attached cmd effects = []
  welcomes : welcomes effects = []

variable {effects : List Effect} {after base h before : Hub} {cmd : Cmd} {id q : ParticipantID}
  {returned : Bool} {c : Client} {order : Order} {opened : Nat}

theorem attached_eq_nil (cmd : Cmd)
    (refused : ∀ conn reply, Effect.joinReply conn reply ∈ effects → reply.ok = false)
    (rejected : ∀ conn reply, Effect.resumeReply conn reply ∈ effects → reply.ok = false) :
    attached cmd effects = [] := by
  cases cmd with
  | join conn isCreate token =>
      refine List.filterMap_eq_nil_iff.mpr (fun effect member => ?_)
      cases effect with
      | joinReply conn reply => simp [refused conn reply member]
      | _ => rfl
  | resume id token conn =>
      refine List.filterMap_eq_nil_iff.mpr (fun effect member => ?_)
      cases effect with
      | resumeReply conn reply => simp [rejected conn reply member]
      | _ => rfl
  | _ => rfl

theorem attached_of_traffic (cmd : Cmd) (traffic : ∀ effect ∈ effects, effect.isTraffic = true) :
    attached cmd effects = [] :=
  attached_eq_nil cmd (fun _ _ member => by cases traffic _ member)
    (fun _ _ member => by cases traffic _ member)

theorem NoGrant.of_effects (cmd : Cmd) (nothing : ∀ effect ∈ effects, effect.grantsNothing = true) :
    NoGrant cmd effects := by
  have refused : ∀ conn reply, Effect.joinReply conn reply ∈ effects → reply.ok = false := by
    intro conn reply member
    simpa [Effect.grantsNothing] using nothing _ member
  have rejected : ∀ conn reply, Effect.resumeReply conn reply ∈ effects → reply.ok = false := by
    intro conn reply member
    simpa [Effect.grantsNothing] using nothing _ member
  refine
    { issues := List.filterMap_eq_nil_iff.mpr (fun effect member => ?_)
      attaches := attached_eq_nil cmd refused rejected
      welcomes := List.filterMap_eq_nil_iff.mpr (fun effect member => ?_) }
  · cases effect with
    | joinReply conn reply => simp [refused conn reply member]
    | _ => rfl
  · cases effect with
    | queued toID body =>
        have silent := nothing _ member
        simp only [Effect.grantsNothing, Option.isNone_iff_eq_none] at silent
        simp [silent]
    | _ => rfl

theorem Spread.grantsNothing {codec : Codec} {body : Body} {targets : ParticipantID → Prop}
    (spread : Spread codec body targets before after effects) (plain : helloToken body = none) :
    ∀ effect ∈ effects, effect.grantsNothing = true :=
  spread.effects_all (fun _ => by simp [Effect.grantsNothing, plain]) (fun _ => rfl)

theorem Removal.grantsNothing {codec : Codec} {emptied : Bool}
    (removal : Removal codec id before after effects emptied) :
    ∀ effect ∈ effects, effect.grantsNothing = true :=
  removal.effects_all (fun _ => rfl) (fun _ => rfl)

theorem Drained.grantsNothing {codec : Codec} {emptied : Bool}
    (drained : Drained codec before after effects emptied) :
    ∀ effect ∈ effects, effect.grantsNothing = true :=
  drained.effects_all (fun _ _ => rfl) (fun _ => rfl)

theorem shutdown_grantsNothing (h : Hub) :
    ∀ effect ∈ shutdown h, effect.grantsNothing = true := by
  intro effect member
  obtain ⟨entry, _, rfl⟩ := List.mem_map.mp member
  rfl

theorem Effect.grantsNothing_of_isIdle {effect : Effect} (idle : effect.isIdle = true) :
    effect.grantsNothing = true := by
  cases effect with
  | joinReply conn reply => exact idle
  | resumeReply conn reply => exact idle
  | statsReply reply => rfl
  | queued toID body => cases idle
  | kicked conn => cases idle

/-- Every slot of `after` has the owner it has in `base`. -/
def Descends (base after : Hub) : Prop :=
  ∀ q c, after.clients.lookup q = some c →
    ∃ old, base.clients.lookup q = some old ∧ SameOwner old c

theorem Descends.refl (h : Hub) : Descends h h :=
  fun _ c found => ⟨c, found, SameOwner.refl c⟩

theorem Descends.trans {middle : Hub} (early : Descends base middle)
    (late : Descends middle after) : Descends base after := by
  intro q c found
  obtain ⟨between, there, second⟩ := late q c found
  obtain ⟨old, origin, first⟩ := early q between there
  exact ⟨old, origin, first.trans second⟩

/-- The one slot a command changes by itself, and what it grants. -/
inductive Outcome (h : Hub) (effects : List Effect) : Cmd → Hub → Prop where
  | kept {cmd : Cmd} (nothing : NoGrant cmd effects) : Outcome h effects cmd h
  | joined {conn : ConnID} {isCreate : Bool} {token frame : Bytes}
      (issues : issuedIDs effects = [h.nextID])
      (attaches : attached (.join conn isCreate token) effects = [⟨conn, h.nextID, 1⟩])
      (welcomed : welcomes effects = [(h.nextID, token)]) :
      Outcome h effects (.join conn isCreate token)
        (h.withClient h.nextID (newClient h.nextID frame conn token))
  | held {id : ParticipantID} {gen : UInt64} {c : Client} (found : h.clients.lookup id = some c)
      (nothing : NoGrant (.leave id gen true) effects) :
      Outcome h effects (.leave id gen true) (h.withClient id c.onHold)
  | resumed {id : ParticipantID} {token frame : Bytes} {conn : ConnID} {c : Client}
      (found : h.clients.lookup id = some c) (authentic : c.token = token)
      (issues : issuedIDs effects = [])
      (attaches : attached (.resume id token conn) effects = [⟨conn, id, c.gen + 1⟩])
      (welcomed : welcomes effects = [(id, token)])
      (kicks : c.held = false → .kicked c.kick ∈ effects) :
      Outcome h effects (.resume id token conn) (h.withClient id (c.resumed frame conn))

theorem attached_append (cmd : Cmd) (early late : List Effect) :
    attached cmd (early ++ late) = attached cmd early ++ attached cmd late := by
  cases cmd with
  | join conn isCreate token => exact List.filterMap_append
  | resume id token conn => exact List.filterMap_append
  | _ => rfl

theorem Outcome.append {late : List Effect} (outcome : Outcome h effects cmd base)
    (nothing : ∀ effect ∈ late, effect.grantsNothing = true) :
    Outcome h (effects ++ late) cmd base := by
  have none := NoGrant.of_effects cmd nothing
  have issues : issuedIDs (effects ++ late) = issuedIDs effects := by
    rw [issuedIDs_append, none.issues, List.append_nil]
  have welcomed : welcomes (effects ++ late) = welcomes effects := by
    rw [welcomes_append, none.welcomes, List.append_nil]
  have attaches : attached cmd (effects ++ late) = attached cmd effects := by
    rw [attached_append, none.attaches, List.append_nil]
  cases outcome with
  | kept own =>
      exact .kept ⟨issues.trans own.issues, attaches.trans own.attaches,
        welcomed.trans own.welcomes⟩
  | joined ownIssues ownAttaches ownWelcomed =>
      exact .joined (issues.trans ownIssues) (attaches.trans ownAttaches)
        (welcomed.trans ownWelcomed)
  | held found own =>
      exact .held found ⟨issues.trans own.issues, attaches.trans own.attaches,
        welcomed.trans own.welcomes⟩
  | resumed found authentic ownIssues ownAttaches ownWelcomed kicks =>
      exact .resumed found authentic (issues.trans ownIssues) (attaches.trans ownAttaches)
        (welcomed.trans ownWelcomed) (fun live => List.mem_append_left late (kicks live))

theorem Served.outcome {codec : Codec} {h after : Hub}
    (served : Served codec h cmd after effects returned) :
    ∃ base, Outcome h effects cmd base ∧ Descends base after := by
  cases served with
  | ignored idle =>
      refine ⟨h, .kept (.of_effects _ ?_), Descends.refl h⟩
      exact fun effect member => Effect.grantsNothing_of_isIdle (idle effect member)
  | unencoded refused =>
      refine ⟨h, .kept (.of_effects _ (fun effect member => ?_)), Descends.refl h⟩
      rw [List.mem_singleton.mp member]
      simp [Effect.grantsNothing, refused]
  | @admitted conn isCreate token visit frame after effects perm room encoded notice =>
      have quiet := notice.grantsNothing rfl
      have hello := helloToken_helloReply h visit isCreate h.nextID token
      have own : Outcome h [.queued h.nextID (helloReply h visit isCreate h.nextID token),
          .joinReply conn { ok := true, errC := 0, errS := "", id := h.nextID, gen := 1 }]
          (.join conn isCreate token)
          (h.withClient h.nextID (newClient h.nextID frame conn token)) :=
        .joined rfl rfl (by simp [welcomes, hello])
      exact ⟨_, own.append quiet, fun q c found => notice.owner found⟩
  | held found live current graced =>
      exact ⟨_, .held found (.of_effects _ (fun effect member => by cases member)), Descends.refl _⟩
  | left found live current final removal | expired found waiting current removal =>
      exact ⟨h, .kept (.of_effects _ removal.grantsNothing), fun q c there => removal.owner there⟩
  | @resumed id token conn c visit frame perm found authentic encoded =>
      refine ⟨_, .resumed found authentic ?_ ?_ ?_ ?_, Descends.refl _⟩
      · rw [issuedIDs_append]
        cases c.held with
        | true => rfl
        | false => rfl
      · cases c.held with
        | true => rfl
        | false => rfl
      · have hello := helloToken_helloReply h visit false id c.token
        rw [welcomes_append, ← authentic]
        cases c.held with
        | true => simp [welcomes, hello]
        | false => simp [welcomes, hello]
      · intro live
        rw [live]
        exact List.mem_cons_self
  | claimed found =>
      exact ⟨h, .kept (.of_effects _ (fun effect member => by cases member)), Descends.refl h⟩
  | complained answer =>
      exact ⟨h, .kept (.of_effects _ (answer.grantsNothing rfl)), fun q c there => answer.owner there⟩
  | directed decoded sent | broadcast decoded sent =>
      exact ⟨h, .kept (.of_effects _ (sent.grantsNothing rfl)), fun q c there => sent.owner there⟩
  | closing notice =>
      exact ⟨h, .kept (.of_effects _ (notice.grantsNothing rfl)), fun q c there => notice.owner there⟩

theorem handle_outcome {codec : Codec}
    (handled : handle codec order h cmd = some (after, effects, returned)) :
    ∃ base, Outcome h effects cmd base ∧ Descends base after := by
  rcases handle_served handled with
    ⟨early, served, rfl, _⟩ | ⟨middle, early, late, served, drained, rfl⟩
  · obtain ⟨base, outcome, descends⟩ := served.outcome
    exact ⟨base, outcome.append (shutdown_grantsNothing after), descends⟩
  · obtain ⟨base, outcome, descends⟩ := served.outcome
    refine ⟨base, (outcome.append drained.grantsNothing).append ?_,
      descends.trans (fun q c found => drained.owner found)⟩
    split
    · exact shutdown_grantsNothing after
    · exact fun effect member => by cases member

/-- The slot's generation can be bumped without coming round. -/
def Hub.GenBelow (h : Hub) (id : ParticipantID) : Prop :=
  ∀ c ∈ h.clients.lookup id, c.gen.toNat + 1 < 2 ^ 64

/-- The command does not bring a slot's generation round. -/
def Hub.FreshGen (h : Hub) : Cmd → Prop
  | .leave id _ _ => h.GenBelow id
  | .resume id _ _ => h.GenBelow id
  | _ => True

theorem Outcome.continues (outcome : Outcome h effects cmd base) (descends : Descends base after)
    (found : after.clients.lookup q = some c) (issued : 1 ≤ cmd.joinCount → q ≠ h.nextID)
    (fresh : h.FreshGen cmd) :
    ∃ old, h.clients.lookup q = some old ∧ old.gen ≤ c.gen ∧ c.token = old.token ∧
      (old.gen = c.gen → c.held = old.held ∧ c.kick = old.kick) := by
  obtain ⟨middle, there, same⟩ := descends q c found
  have kept : h.clients.lookup q = some middle →
      ∃ old, h.clients.lookup q = some old ∧ old.gen ≤ c.gen ∧ c.token = old.token ∧
        (old.gen = c.gen → c.held = old.held ∧ c.kick = old.kick) := by
    intro known
    exact ⟨middle, known, UInt64.le_of_eq same.gen.symm, same.token,
      fun _ => ⟨same.held, same.kick⟩⟩
  have bumped : ∀ {old}, h.clients.lookup q = some old → h.GenBelow q → c.gen = old.gen + 1 →
      c.token = old.token →
      ∃ old, h.clients.lookup q = some old ∧ old.gen ≤ c.gen ∧ c.token = old.token ∧
        (old.gen = c.gen → c.held = old.held ∧ c.kick = old.kick) := by
    intro old origin below next token
    have grown : old.gen < c.gen := by
      rw [next]
      exact lt_next_of_below (below old origin)
    exact ⟨old, origin, UInt64.le_of_lt grown, token,
      fun equal => absurd equal (UInt64.ne_of_lt grown)⟩
  cases outcome with
  | kept nothing => exact kept there
  | joined issues attaches welcomed =>
      rcases lookup_withClient there with ⟨rfl, _⟩ | ⟨_, known⟩
      · exact absurd rfl (issued (Nat.le_refl 1))
      · exact kept known
  | held origin nothing | resumed origin authentic issues attaches welcomed kicks =>
      rcases lookup_withClient there with ⟨rfl, rfl⟩ | ⟨_, known⟩
      · exact bumped origin fresh same.gen same.token
      · exact kept known

theorem Outcome.slot_issued (outcome : Outcome h effects cmd base)
    (found : base.clients.lookup q = some c) : q ∈ h.clients ∨ q ∈ issuedIDs effects := by
  cases outcome with
  | kept nothing => exact Or.inl (mem_of_lookup found)
  | joined issues attaches welcomed =>
      rcases lookup_withClient found with ⟨rfl, _⟩ | ⟨_, known⟩
      · rw [issues]
        exact Or.inr List.mem_cons_self
      · exact Or.inl (mem_of_lookup known)
  | held origin nothing | resumed origin authentic issues attaches welcomed kicks =>
      rcases lookup_withClient found with ⟨rfl, _⟩ | ⟨_, known⟩
      · exact Or.inl (mem_of_lookup origin)
      · exact Or.inl (mem_of_lookup known)

theorem Outcome.attaches_new (outcome : Outcome h effects cmd base) {handler : Handler}
    (member : handler ∈ attached cmd effects) :
    (handler.id = h.nextID ∧ 1 ≤ cmd.joinCount ∧ issuedIDs effects = [h.nextID]) ∨
      ∃ old, h.clients.lookup handler.id = some old ∧ (h.FreshGen cmd → old.gen < handler.gen) := by
  cases outcome with
  | kept nothing =>
      rw [nothing.attaches] at member
      cases member
  | joined issues attaches welcomed =>
      rw [attaches, List.mem_singleton] at member
      rw [member]
      exact Or.inl ⟨rfl, Nat.le_refl 1, issues⟩
  | held origin nothing =>
      rw [nothing.attaches] at member
      cases member
  | resumed origin authentic issues attaches welcomed kicks =>
      rw [attaches, List.mem_singleton] at member
      rw [member]
      exact Or.inr ⟨_, origin, fun fresh => lt_next_of_below (fresh _ origin)⟩

theorem Outcome.attaches_current (outcome : Outcome h effects cmd base)
    (descends : Descends base after) {handler : Handler} (member : handler ∈ attached cmd effects)
    (found : after.clients.lookup handler.id = some c) :
    handler.gen = c.gen ∧ c.held = false ∧ c.kick = handler.conn := by
  obtain ⟨middle, there, same⟩ := descends handler.id c found
  rw [same.gen, same.held, same.kick]
  cases outcome with
  | kept nothing =>
      rw [nothing.attaches] at member
      cases member
  | joined issues attaches welcomed =>
      rw [attaches, List.mem_singleton] at member
      subst member
      rcases lookup_withClient there with ⟨_, rfl⟩ | ⟨other, _⟩
      · exact ⟨rfl, rfl, rfl⟩
      · exact absurd rfl other
  | held origin nothing =>
      rw [nothing.attaches] at member
      cases member
  | resumed origin authentic issues attaches welcomed kicks =>
      rw [attaches, List.mem_singleton] at member
      subst member
      rcases lookup_withClient there with ⟨_, rfl⟩ | ⟨other, _⟩
      · exact ⟨rfl, rfl, rfl⟩
      · exact absurd rfl other

theorem Outcome.attached_length_le (outcome : Outcome h effects cmd base) :
    (attached cmd effects).length ≤ 1 := by
  cases outcome with
  | kept nothing =>
      rw [nothing.attaches]
      exact Nat.zero_le 1
  | joined issues attaches welcomed =>
      rw [attaches]
      exact Nat.le_refl 1
  | held origin nothing =>
      rw [nothing.attaches]
      exact Nat.zero_le 1
  | resumed origin authentic issues attaches welcomed kicks =>
      rw [attaches]
      exact Nat.le_refl 1

theorem Outcome.welcomes_slot (outcome : Outcome h effects cmd base)
    (descends : Descends base after) {token : Bytes} (member : (q, token) ∈ welcomes effects) :
    (q ∈ h.clients ∨ q ∈ issuedIDs effects) ∧
      ∀ c, after.clients.lookup q = some c → c.token = token := by
  cases outcome with
  | kept nothing =>
      rw [nothing.welcomes] at member
      cases member
  | joined issues attaches welcomed =>
      rw [welcomed, List.mem_singleton, Prod.mk.injEq] at member
      obtain ⟨rfl, rfl⟩ := member
      refine ⟨Or.inr (by rw [issues]; exact List.mem_cons_self), ?_⟩
      intro c found
      obtain ⟨middle, there, same⟩ := descends _ c found
      rw [same.token]
      rcases lookup_withClient there with ⟨_, rfl⟩ | ⟨other, _⟩
      · rfl
      · exact absurd rfl other
  | held origin nothing =>
      rw [nothing.welcomes] at member
      cases member
  | resumed origin authentic issues attaches welcomed kicks =>
      rw [welcomed, List.mem_singleton, Prod.mk.injEq] at member
      obtain ⟨rfl, rfl⟩ := member
      refine ⟨Or.inl (mem_of_lookup origin), ?_⟩
      intro c found
      obtain ⟨middle, there, same⟩ := descends _ c found
      rw [same.token]
      rcases lookup_withClient there with ⟨_, rfl⟩ | ⟨other, _⟩
      · exact authentic
      · exact absurd rfl other

/-- A join is given an id that was not issued before in this session. -/
def Server.FreshID (s : Server) (cmd : Cmd) : Prop :=
  1 ≤ cmd.joinCount → s.hub.nextID ∉ issuedIDs s.log

/-- No id is issued twice, and no slot's generation comes round. -/
def Server.Fresh (s : Server) : Action → Prop
  | .command cmd _ => s.FreshID cmd ∧ s.hub.FreshGen cmd
  | _ => True

instance (s : Server) (cmd : Cmd) : Decidable (s.FreshID cmd) :=
  inferInstanceAs (Decidable (1 ≤ cmd.joinCount → s.hub.nextID ∉ issuedIDs s.log))

instance (h : Hub) (id : ParticipantID) : Decidable (h.GenBelow id) :=
  inferInstanceAs (Decidable (∀ c ∈ h.clients.lookup id, c.gen.toNat + 1 < 2 ^ 64))

instance (h : Hub) (cmd : Cmd) : Decidable (h.FreshGen cmd) := by
  dsimp only [Hub.FreshGen]
  split <;> infer_instance

instance (s : Server) (action : Action) : Decidable (s.Fresh action) := by
  dsimp only [Server.Fresh]
  split <;> infer_instance

/-- What is known of the handlers and timers of a session: their generations do
not exceed their slot's, and only the current connection has reached it. -/
structure Server.Ledger (s : Server) : Prop where
  calm : s.stopped = false → s.hub.Calm
  slots : ∀ q, q ∈ s.hub.clients → q ∈ issuedIDs s.log
  attached : ∀ handler ∈ s.handlers, handler.id ∈ issuedIDs s.log
  armed : ∀ id gen, (id, gen) ∈ s.timers → id ∈ issuedIDs s.log
  welcomed : ∀ q token, (q, token) ∈ welcomes s.log → q ∈ issuedIDs s.log
  tokens : ∀ q token, (q, token) ∈ welcomes s.log → ∀ c, s.hub.clients.lookup q = some c →
    c.token = token
  reached : ∀ handler ∈ s.handlers, ∀ c, s.hub.clients.lookup handler.id = some c →
    handler.gen ≤ c.gen
  current : ∀ handler ∈ s.handlers, ∀ c, s.hub.clients.lookup handler.id = some c →
    handler.gen = c.gen → c.held = false ∧ c.kick = handler.conn
  waited : ∀ id gen, (id, gen) ∈ s.timers → ∀ c, s.hub.clients.lookup id = some c → gen ≤ c.gen
  distinct : s.handlers.Pairwise (fun first second =>
    ¬(first.id = second.id ∧ first.gen = second.gen))

theorem Server.start_ledger (maxParticipants grace : Nat) :
    (Server.start maxParticipants grace).Ledger := by
  have absent : ∀ q (c : Client), (∅ : GoMap ParticipantID Client).lookup q ≠ some c := by
    intro q c found
    exact AList.notMem_empty q (mem_of_lookup found)
  exact
    { calm := fun _ =>
        { keyed := fun q c found => absurd found (absent q c)
          settled := rfl
          unmarked := fun q c found => absurd found (absent q c)
          bounded := fun q c found => absurd found (absent q c) }
      slots := fun q member => absurd member (AList.notMem_empty q)
      attached := fun handler member => by cases member
      armed := fun id gen member => by cases member
      welcomed := fun q token member => by cases member
      tokens := fun q token member => by cases member
      reached := fun handler member => by cases member
      current := fun handler member => by cases member
      waited := fun id gen member => by cases member
      distinct := List.Pairwise.nil }

theorem detached_sublist (cmd : Cmd) (handlers : List Handler) :
    (detached cmd handlers).Sublist handlers := by
  cases cmd with
  | leave id gen unexpected => exact List.eraseP_sublist
  | _ => exact List.Sublist.refl _

theorem fired_subset (cmd : Cmd) (timers : List (ParticipantID × UInt64)) :
    fired cmd timers ⊆ timers := by
  cases cmd with
  | graceExpired id gen => exact List.erase_subset
  | _ => exact List.Subset.refl _

theorem mem_armed {gen : UInt64} (member : (id, gen) ∈ armed cmd before after) :
    ∃ c, after.clients.lookup id = some c ∧ c.gen = gen := by
  cases cmd with
  | leave slot old unexpected =>
      simp only [armed] at member
      split at member
      · rename_i old c _ found
        split at member
        · simp only [List.mem_singleton, Prod.mk.injEq] at member
          obtain ⟨rfl, rfl⟩ := member
          exact ⟨c, found, rfl⟩
        · cases member
      · cases member
  | _ => cases member

namespace Server.Ledger

variable {codec : Codec} {s : Server}

theorem update {out : List Bytes} (ledger : s.Ledger) (found : s.hub.clients.lookup id = some c)
    (bounded : c.out.length ≤ sendBuffer → out.length ≤ sendBuffer) :
    Server.Ledger { s with hub := s.hub.withClient id { c with out := out } } := by
  have known : ∀ {q d}, (s.hub.withClient id { c with out := out }).clients.lookup q = some d →
      ∃ old, s.hub.clients.lookup q = some old ∧ SameOwner old d := by
    intro q d there
    rcases lookup_withClient there with ⟨rfl, rfl⟩ | ⟨_, known⟩
    · exact ⟨c, found, ⟨rfl, rfl, rfl, rfl, rfl, rfl⟩⟩
    · exact ⟨d, known, SameOwner.refl d⟩
  refine
    { ledger with
      calm := ?_
      slots := ?_
      tokens := ?_
      reached := ?_
      current := ?_
      waited := ?_ }
  · intro going
    have calm := ledger.calm going
    exact calm.update (calm.keyed id c found) (calm.unmarked id c found)
      (bounded (calm.bounded id c found))
  · intro q member
    rcases (AList.mem_insert _).mp member with rfl | there
    · exact ledger.slots q (mem_of_lookup found)
    · exact ledger.slots q there
  · intro q token member d there
    obtain ⟨old, origin, same⟩ := known there
    rw [same.token]
    exact ledger.tokens q token member old origin
  · intro handler member d there
    obtain ⟨old, origin, same⟩ := known there
    rw [same.gen]
    exact ledger.reached handler member old origin
  · intro handler member d there equal
    obtain ⟨old, origin, same⟩ := known there
    rw [same.held, same.kick]
    rw [same.gen] at equal
    exact ledger.current handler member old origin equal
  · intro q gen member d there
    obtain ⟨old, origin, same⟩ := known there
    rw [same.gen]
    exact ledger.waited q gen member old origin

theorem command (ledger : s.Ledger) (going : s.stopped = false)
    (fresh : s.Fresh (.command cmd order))
    (handled : handle codec order s.hub cmd = some (after, effects, returned)) :
    (s.served cmd after effects returned).Ledger := by
  obtain ⟨base, outcome, descends⟩ := handle_outcome handled
  obtain ⟨unissued, below⟩ := fresh
  have other : ∀ {q}, q ∈ issuedIDs s.log → 1 ≤ cmd.joinCount → q ≠ s.hub.nextID := by
    rintro q issued join rfl
    exact unissued join issued
  have issued : ∀ {q}, q ∈ s.hub.clients ∨ q ∈ issuedIDs effects →
      q ∈ issuedIDs (s.log ++ effects) := by
    intro q origin
    rw [issuedIDs_append, List.mem_append]
    exact origin.imp (ledger.slots q) id
  have earlier : ∀ {q}, q ∈ issuedIDs s.log → q ∈ issuedIDs (s.log ++ effects) := by
    intro q known
    rw [issuedIDs_append]
    exact List.mem_append_left _ known
  have slots : ∀ {q c}, after.clients.lookup q = some c → q ∈ issuedIDs (s.log ++ effects) := by
    intro q c found
    obtain ⟨middle, there, _⟩ := descends q c found
    exact issued (outcome.slot_issued there)
  have oldHandler : ∀ {handler}, handler ∈ detached cmd s.handlers → handler ∈ s.handlers :=
    fun member => (detached_sublist cmd s.handlers).subset member
  refine
    { calm := ?_
      slots := ?_
      attached := ?_
      armed := ?_
      welcomed := ?_
      tokens := ?_
      reached := ?_
      current := ?_
      waited := ?_
      distinct := ?_ }
  · rintro rfl
    exact handle_calm handled (ledger.calm going)
  · intro q member
    obtain ⟨c, found⟩ := Option.isSome_iff_exists.mp (AList.lookup_isSome.mpr member)
    exact slots found
  · intro handler member
    rcases List.mem_append.mp member with old | new
    · exact earlier (ledger.attached handler (oldHandler old))
    · rcases outcome.attaches_new new with ⟨key, _, issues⟩ | ⟨origin, found, _⟩
      · refine issued (Or.inr ?_)
        rw [issues, key]
        exact List.mem_cons_self
      · exact issued (Or.inl (mem_of_lookup found))
  · intro id gen member
    rcases List.mem_append.mp member with new | old
    · obtain ⟨c, found, _⟩ := mem_armed new
      exact slots found
    · exact earlier (ledger.armed id gen (fired_subset cmd s.timers old))
  · intro q token member
    rw [show (s.served cmd after effects returned).log = s.log ++ effects from rfl,
      welcomes_append] at member
    rcases List.mem_append.mp member with old | new
    · exact earlier (ledger.welcomed q token old)
    · exact issued (outcome.welcomes_slot descends new).1
  · intro q token member c found
    rw [show (s.served cmd after effects returned).log = s.log ++ effects from rfl,
      welcomes_append] at member
    rcases List.mem_append.mp member with old | new
    · obtain ⟨before, origin, _, same, _⟩ :=
        outcome.continues descends found (other (ledger.welcomed q token old)) below
      rw [same]
      exact ledger.tokens q token old before origin
    · exact (outcome.welcomes_slot descends new).2 c found
  · intro handler member c found
    rcases List.mem_append.mp member with old | new
    · obtain ⟨before, origin, grown, _, _⟩ :=
        outcome.continues descends found (other (ledger.attached handler (oldHandler old))) below
      exact UInt64.le_trans (ledger.reached handler (oldHandler old) before origin) grown
    · exact UInt64.le_of_eq (outcome.attaches_current descends new found).1
  · intro handler member c found equal
    rcases List.mem_append.mp member with old | new
    · obtain ⟨before, origin, grown, _, same⟩ :=
        outcome.continues descends found (other (ledger.attached handler (oldHandler old))) below
      have reached := ledger.reached handler (oldHandler old) before origin
      rw [equal] at reached
      have level : before.gen = c.gen := UInt64.le_antisymm grown reached
      obtain ⟨held, kick⟩ := same level
      rw [held, kick]
      exact ledger.current handler (oldHandler old) before origin (equal.trans level.symm)
    · exact (outcome.attaches_current descends new found).2
  · intro id gen member c found
    rcases List.mem_append.mp member with new | old
    · obtain ⟨d, there, same⟩ := mem_armed new
      have both : d = c := Option.some.inj (there.symm.trans found)
      rw [← both]
      exact UInt64.le_of_eq same.symm
    · have known := fired_subset cmd s.timers old
      obtain ⟨before, origin, grown, _, _⟩ :=
        outcome.continues descends found (other (ledger.armed id gen known)) below
      exact UInt64.le_trans (ledger.waited id gen known before origin) grown
  · refine List.pairwise_append.mpr
      ⟨ledger.distinct.sublist (detached_sublist cmd s.handlers), ?_, ?_⟩
    · have short := outcome.attached_length_le
      match Relay.attached cmd effects, short with
      | [], _ => exact List.Pairwise.nil
      | [handler], _ => exact List.pairwise_singleton _ _
    · rintro first old second new ⟨sameID, sameGen⟩
      rcases outcome.attaches_new new with ⟨key, join, _⟩ | ⟨origin, found, above⟩
      · exact other (ledger.attached first (oldHandler old)) join (sameID.trans key)
      · rw [← sameID] at found
        have reached := ledger.reached first (oldHandler old) origin found
        rw [sameGen] at reached
        exact UInt64.not_le.mpr (above below) reached

end Server.Ledger

theorem Server.ledger_step (codec : Codec) (s : Server) (action : Action) (next : Server)
    (ledger : s.Ledger) (fresh : s.Fresh action)
    (stepped : Server.step codec s action = some next) : next.Ledger := by
  rcases Server.step_cases stepped with
    ⟨cmd, order, after, effects, returned, rfl, going, _, handled, rfl⟩ |
      ⟨id, c, out, _, found, bounded, rfl⟩
  · exact ledger.command going fresh handled
  · exact ledger.update found bounded

def Server.Ignores (codec : Codec) (s : Server) (cmd : Cmd) : Prop :=
  ∀ order, handle codec order s.hub cmd = some (s.hub, [], false)

/-- The hub gives the slot of `id` to the connection `conn`. -/
def Server.Resumes (codec : Codec) (s : Server) (id : ParticipantID) (token : Bytes)
    (conn : ConnID) (order : Order) : Prop :=
  ∃ after effects returned reply,
    handle codec order s.hub (.resume id token conn) = some (after, effects, returned) ∧
      .resumeReply conn reply ∈ effects ∧ reply.ok = true

def resumeRejection : ResumeReply :=
  { ok := false, errC := errCodeResumeRejected, errS := "cannot resume session", gen := 0 }

/-- Ownership of the slots at one point of a session. -/
structure Server.Owned (codec : Codec) (s : Server) : Prop where
  single : ∀ id c, s.hub.clients.lookup id = some c → c.held = false →
    s.handlers.countP (fun handler => handler.id = id ∧ handler.gen = c.gen) ≤ 1
  current : ∀ handler ∈ s.handlers, ∀ c, s.hub.clients.lookup handler.id = some c →
    handler.gen = c.gen → c.held = false ∧ c.kick = handler.conn
  lost : ∀ cmd order after effects returned q c, s.FreshID cmd →
    handle codec order s.hub cmd = some (after, effects, returned) →
    s.hub.clients.lookup q = some c → q ∉ after.clients → LostTo s.hub q c effects cmd
  rejects : ∀ id token conn order,
    (id ∉ s.hub.clients ∨ ∃ issued, (id, issued) ∈ welcomes s.log ∧ issued ≠ token) →
    handle codec order s.hub (.resume id token conn) =
      some (s.hub, [.resumeReply conn resumeRejection], false)
  kicks : ∀ id token conn order after effects returned reply c,
    handle codec order s.hub (.resume id token conn) = some (after, effects, returned) →
    .resumeReply conn reply ∈ effects → reply.ok = true →
    s.hub.clients.lookup id = some c → c.held = false → .kicked c.kick ∈ effects

/-- What a resume leaves behind is without effect in the state reached later. -/
def Server.Supersedes (codec : Codec) (earlier later : Server) (id : ParticipantID) : Prop :=
  (∀ handler ∈ earlier.handlers, handler.id = id →
    ∀ unexpected, later.Ignores codec (.leave id handler.gen unexpected)) ∧
  ∀ gen, (id, gen) ∈ earlier.timers → later.Ignores codec (.graceExpired id gen)

theorem Server.Ledger.single {s : Server} (ledger : s.Ledger) (id : ParticipantID) (gen : UInt64) :
    s.handlers.countP (fun handler => handler.id = id ∧ handler.gen = gen) ≤ 1 := by
  have distinct := ledger.distinct
  generalize s.handlers = handlers at distinct
  induction handlers with
  | nil => exact Nat.zero_le 1
  | cons handler rest ih =>
      obtain ⟨apart, tail⟩ := List.pairwise_cons.mp distinct
      by_cases holds : handler.id = id ∧ handler.gen = gen
      · rw [List.countP_cons, if_pos (decide_eq_true holds)]
        have none : rest.countP (fun handler => handler.id = id ∧ handler.gen = gen) = 0 := by
          refine List.countP_eq_zero.mpr (fun other member same => ?_)
          have both := of_decide_eq_true same
          exact apart other member ⟨holds.1.trans both.1.symm, holds.2.trans both.2.symm⟩
        omega
      · rw [List.countP_cons, if_neg (fun same => holds (of_decide_eq_true same))]
        exact ih tail

theorem Outcome.of_resumed {token : Bytes} {conn other : ConnID} {reply : ResumeReply}
    (outcome : Outcome h effects (.resume id token conn) base)
    (replied : .resumeReply other reply ∈ effects) (granted : reply.ok = true) :
    ∃ c, h.clients.lookup id = some c ∧
      (∃ frame, base = h.withClient id (c.resumed frame conn)) ∧
      (c.held = false → .kicked c.kick ∈ effects) := by
  cases outcome with
  | kept nothing =>
      have none := List.filterMap_eq_nil_iff.mp nothing.attaches _ replied
      simp [granted] at none
  | @resumed id token frame conn c found authentic issues attaches welcomed kicks =>
      exact ⟨c, found, ⟨frame, rfl⟩, kicks⟩

theorem Server.Ledger.owned {codec : Codec} {s : Server} (ledger : s.Ledger)
    (going : s.stopped = false) : s.Owned codec := by
  have calm := ledger.calm going
  refine
    { single := fun id c _ _ => ledger.single id c.gen
      current := ledger.current
      lost := ?_
      rejects := ?_
      kicks := ?_ }
  · intro cmd order after effects returned q c fresh handled found gone
    refine handle_lost handled calm found (AList.lookup_eq_none.mpr gone) ?_
    rintro join rfl
    exact fresh join (ledger.slots _ (mem_of_lookup found))
  · intro id token conn order mismatch
    refine handle_of_settled ?_ calm.settled
    cases found : s.hub.clients.lookup id with
    | none =>
        simp only [dispatch, handleResume, found]
        rfl
    | some c =>
        have differs : c.token ≠ token := by
          rcases mismatch with absent | ⟨issued, sent, other⟩
          · exact absurd (mem_of_lookup found) absent
          · rw [ledger.tokens id issued sent c found]
            exact other
        simp only [dispatch, handleResume, found, if_pos differs]
        rfl
  · intro id token conn order after effects returned reply c handled replied granted found live
    obtain ⟨base, outcome, _⟩ := handle_outcome handled
    obtain ⟨d, there, _, kicks⟩ := outcome.of_resumed replied granted
    rw [found] at there
    cases there
    exact kicks live

/-- No slot of this id has or will get this generation again. -/
structure Server.Outdated (id : ParticipantID) (gen : UInt64) (s : Server) : Prop where
  ledger : s.Ledger
  issued : id ∈ issuedIDs s.log
  behind : ∀ c, s.hub.clients.lookup id = some c → gen < c.gen

theorem Server.outdated_step (codec : Codec) (id : ParticipantID) (gen : UInt64) (s : Server)
    (action : Action) (next : Server) (outdated : s.Outdated id gen) (fresh : s.Fresh action)
    (stepped : Server.step codec s action = some next) : next.Outdated id gen := by
  have ledger := Server.ledger_step codec s action next outdated.ledger fresh stepped
  rcases Server.step_cases stepped with
    ⟨cmd, order, after, effects, returned, rfl, going, _, handled, rfl⟩ |
      ⟨slot, c, out, _, found, bounded, rfl⟩
  · refine
      { ledger := ledger
        issued := ?_
        behind := ?_ }
    · change id ∈ issuedIDs (s.log ++ effects)
      rw [issuedIDs_append]
      exact List.mem_append_left _ outdated.issued
    · intro c found
      obtain ⟨base, outcome, descends⟩ := handle_outcome handled
      have other : 1 ≤ cmd.joinCount → id ≠ s.hub.nextID := by
        rintro join rfl
        exact fresh.1 join outdated.issued
      obtain ⟨old, origin, grown, _, _⟩ := outcome.continues descends found other fresh.2
      exact UInt64.lt_of_lt_of_le (outdated.behind old origin) grown
  · refine
      { ledger := ledger
        issued := outdated.issued
        behind := ?_ }
    intro d there
    rcases lookup_withClient there with ⟨rfl, rfl⟩ | ⟨_, known⟩
    · exact outdated.behind c found
    · exact outdated.behind d known

theorem Server.Outdated.ignores {codec : Codec} {s : Server} {gen : UInt64}
    (outdated : s.Outdated id gen) (going : s.stopped = false) :
    (∀ unexpected, s.Ignores codec (.leave id gen unexpected)) ∧
      s.Ignores codec (.graceExpired id gen) := by
  have settled := (outdated.ledger.calm going).settled
  refine ⟨fun unexpected order => handle_of_settled ?_ settled,
    fun order => handle_of_settled ?_ settled⟩
  · cases found : s.hub.clients.lookup id with
    | none => simp only [dispatch, handleLeave, found]
    | some c =>
        have behind := outdated.behind c found
        simp only [dispatch, handleLeave, found, if_pos (Or.inr (UInt64.ne_of_lt behind).symm)]
  · cases found : s.hub.clients.lookup id with
    | none => simp only [dispatch, handleGraceExpired, found]
    | some c =>
        have behind := outdated.behind c found
        simp only [dispatch, handleGraceExpired, found, if_pos (Or.inr (UInt64.ne_of_lt behind).symm)]

/-- After a successful resume everything that was attached or armed for the slot
before is outdated. -/
theorem Server.Ledger.resumed {codec : Codec} {s next : Server} {id : ParticipantID}
    {token : Bytes} {conn : ConnID} {order : Order} (ledger : s.Ledger)
    (fresh : s.Fresh (.command (.resume id token conn) order))
    (resumes : s.Resumes codec id token conn order)
    (stepped : Server.step codec s (.command (.resume id token conn) order) = some next) :
    ∀ gen, ((∃ handler ∈ s.handlers, handler.id = id ∧ handler.gen = gen) ∨
      (id, gen) ∈ s.timers) → next.Outdated id gen := by
  intro gen known
  have nextLedger := Server.ledger_step codec s (.command (.resume id token conn) order) next ledger
    fresh stepped
  obtain ⟨after, effects, returned, reply, handled, replied, granted⟩ := resumes
  rcases Server.step_cases stepped with
    ⟨cmd, order', after', effects', returned', same, _, _, again, rfl⟩ |
      ⟨slot, c, out, written | ⟨body, answered⟩, _⟩
  · cases same
    rw [handled] at again
    cases again
    obtain ⟨base, outcome, descends⟩ := handle_outcome handled
    obtain ⟨c, found, ⟨frame, rfl⟩, _⟩ := outcome.of_resumed replied granted
    refine
      { ledger := nextLedger
        issued := ?_
        behind := ?_ }
    · change id ∈ issuedIDs (s.log ++ effects)
      rw [issuedIDs_append]
      exact List.mem_append_left _ (ledger.slots id (mem_of_lookup found))
    · intro d there
      have reached : gen ≤ c.gen := by
        rcases known with ⟨handler, member, rfl, rfl⟩ | waiting
        · exact ledger.reached handler member c found
        · exact ledger.waited id gen waiting c found
      obtain ⟨middle, origin, same⟩ := descends id d there
      rcases lookup_withClient origin with ⟨_, rfl⟩ | ⟨other, _⟩
      · rw [same.gen]
        exact UInt64.lt_of_le_of_lt reached (lt_next_of_below (fresh.2 c found))
      · exact absurd rfl other
  · cases written
  · cases answered

/-- Ownership of the slots at the end of a run, which may have superseded
connections on its way. -/
def SlotOwnership (codec : Codec) (start : Server) (actions : List Action) (s : Server) : Prop :=
  s.Owned codec ∧
    ∀ early late id token conn order earlier,
      actions = early ++ .command (.resume id token conn) order :: late →
      run (Server.step codec) start early = some earlier →
      earlier.Resumes codec id token conn order →
      earlier.Supersedes codec s id

/-- In every run in which no id is issued twice and no generation comes round, each
slot has at most one owner, is lost only to that owner, to the expiry of its hold
or to a full channel, is given away only against its token, and what a resume
superseded is ignored from then on. -/
theorem slots_owned_of_fresh (codec : Codec) (maxParticipants grace : Nat)
    (actions : List Action) (s : Server)
    (fresh : Along (Server.step codec) Server.Fresh (Server.start maxParticipants grace) actions)
    (reached : run (Server.step codec) (Server.start maxParticipants grace) actions = some s)
    (going : s.stopped = false) :
    SlotOwnership codec (Server.start maxParticipants grace) actions s := by
  have start := Server.start_ledger maxParticipants grace
  have ledger := run_invariant (Server.ledger_step codec) start fresh reached
  refine ⟨ledger.owned going, ?_⟩
  intro early late id token conn order earlier split before resumes
  rw [split] at fresh reached
  have earlierLedger := run_invariant (Server.ledger_step codec) start fresh.append_left before
  have rest := fresh.append_right before
  obtain ⟨middle, same, tail⟩ := (run_append_eq_some _ _ _ _).mp reached
  rw [before] at same
  cases same
  obtain ⟨next, stepped, after⟩ := (run_cons_eq_some _ _ _ _).mp tail
  have outdated := earlierLedger.resumed rest.1 resumes stepped
  have ignores : ∀ gen, ((∃ handler ∈ earlier.handlers, handler.id = id ∧ handler.gen = gen) ∨
      (id, gen) ∈ earlier.timers) → (∀ unexpected, s.Ignores codec (.leave id gen unexpected)) ∧
        s.Ignores codec (.graceExpired id gen) := by
    intro gen known
    have final := run_invariant (Server.outdated_step codec id gen) (outdated gen known)
      (rest.2 next stepped) after
    exact final.ignores going
  refine ⟨fun handler member key unexpected => ?_, fun gen waiting => ?_⟩
  · exact (ignores handler.gen (Or.inl ⟨handler, member, key, rfl⟩)).1 unexpected
  · exact (ignores gen (Or.inr waiting)).2

theorem supersededPrefix_owned :
    ∃ earlier s,
      run (Server.step cborCodec) (Server.start 16 30) (supersededPrefix.take 2) = some earlier ∧
      run (Server.step cborCodec) (Server.start 16 30) supersededPrefix = some s ∧
      ⟨1, 2, 1⟩ ∈ earlier.handlers ∧ s.Owned cborCodec ∧ earlier.Supersedes cborCodec s 2 := by
  have halfway : (run (Server.step cborCodec) (Server.start 16 30) (supersededPrefix.take 2)).any
      (fun earlier => decide (⟨1, 2, 1⟩ ∈ earlier.handlers) &&
        (handle cborCodec .stored earlier.hub (.resume 2 [2] 2)).any (fun done =>
          decide (Effect.resumeReply 2 { ok := true, errC := 0, errS := "", gen := 2 } ∈ done.2.1))) =
        true := by
    decide +kernel
  have finished : (run (Server.step cborCodec) (Server.start 16 30) supersededPrefix).any
      (fun s => !s.stopped) = true := by
    decide +kernel
  have fresh : Along (Server.step cborCodec) Server.Fresh (Server.start 16 30)
      supersededPrefix := by
    decide +kernel
  obtain ⟨earlier, before, there⟩ := (Option.any_eq_true _ _).mp halfway
  obtain ⟨s, reached, going⟩ := (Option.any_eq_true _ _).mp finished
  obtain ⟨attached, resumes⟩ := Bool.and_eq_true_iff.mp there
  obtain ⟨⟨after, effects, returned⟩, handled, replied⟩ := (Option.any_eq_true _ _).mp resumes
  have ownership := slots_owned_of_fresh cborCodec 16 30 supersededPrefix s fresh reached
    (by simpa using going)
  refine ⟨earlier, s, before, reached, of_decide_eq_true attached, ownership.1, ?_⟩
  exact ownership.2 (supersededPrefix.take 2) [] 2 [2] 2 .stored earlier rfl before
    ⟨after, effects, returned, _, handled, of_decide_eq_true replied, rfl⟩

/-! ### The counter comes round -/

/-- The creator is alone, on the connection it created the session with. -/
structure Server.SoloAt (s : Server) (next : ParticipantID) (out : List Bytes) (opened : Nat) :
    Prop where
  solo : s.hub.Solo next out
  going : s.stopped = false
  handlers : s.handlers = [⟨0, 1, 1⟩]
  conns : ∀ conn ∈ s.conns, conn ≤ opened

theorem Server.SoloAt.written {s : Server} {next : ParticipantID} {frame : Bytes}
    {rest : List Bytes} (solo : s.SoloAt next (frame :: rest) opened) (codec : Codec) :
    ∃ after, Server.step codec s (.written 1) = some after ∧ after.SoloAt next rest opened := by
  have steady := solo.solo.steady
  refine ⟨{ s with hub := s.hub.withClient 1 (hostSlot rest) }, ?_, ?_⟩
  · simp only [Server.step, Hub.written, steady]
    rfl
  · exact
      { solo with solo := solo.solo.drop rest }

theorem Server.SoloAt.visit {codec : Codec} {s : Server} {next : ParticipantID}
    (carries : CarriesVisits codec) (solo : s.SoloAt next [] opened) (other : next ≠ 1) :
    ∃ actions after, run (Server.step codec) s actions = some after ∧
      after.SoloAt (next + 1) [] (opened + 1) := by
  obtain ⟨middle, effects, hello, notice, joined, traffic, _, visited⟩ :=
    solo.solo.join carries other (opened + 1)
  obtain ⟨last, farewells, farewell, left, alone⟩ := visited.solo carries other
  have unused : opened + 1 ∉ s.conns := fun member => Nat.not_succ_le_self _ (solo.conns _ member)
  have joinStep : ∃ during, Server.step codec s (.command (.join (opened + 1) false [2]) .stored) =
      some during ∧ during.hub = middle ∧ during.stopped = false ∧
      during.handlers = [⟨0, 1, 1⟩, ⟨opened + 1, next, 1⟩] ∧
      during.conns = (opened + 1) :: s.conns := by
    have sendable : s.canSend (.join (opened + 1) false [2]) = true := by
      simp [Server.canSend, unused]
    have later := attached_of_traffic (.join (opened + 1) false [2]) traffic
    refine ⟨_, Server.step_command solo.going sendable joined, rfl, rfl, ?_, rfl⟩
    simp only [attached] at later
    simp [Server.served, detached, attached, solo.handlers, later]
  obtain ⟨during, joinStepped, hub, going, handlers, conns⟩ := joinStep
  have leaveStep : ∃ after, Server.step codec during (.command (.leave next 1 false) .stored) =
      some after ∧ after.SoloAt (next + 1) [notice, farewell] (opened + 1) := by
    have sendable : during.canSend (.leave next 1 false) = true := by
      simp [Server.canSend, handlers]
    have handled : handle codec .stored during.hub (.leave next 1 false) =
        some (last, farewells, false) := by
      rw [hub]
      exact left
    refine ⟨_, Server.step_command going sendable handled, ?_⟩
    refine
      { solo := alone
        going := rfl
        handlers := ?_
        conns := ?_ }
    · simp [Server.served, detached, attached, handlers, Ne.symm other]
    · intro conn member
      simp only [Server.served, Server.opened, conns] at member
      rcases List.mem_cons.mp member with rfl | earlier
      · exact Nat.le_refl _
      · exact Nat.le_succ_of_le (solo.conns conn earlier)
  obtain ⟨after, leaveStepped, told⟩ := leaveStep
  obtain ⟨once, firstWrite, waiting⟩ := told.written codec
  obtain ⟨final, secondWrite, done⟩ := waiting.written codec
  refine ⟨[.command (.join (opened + 1) false [2]) .stored, .command (.leave next 1 false) .stored,
    .written 1, .written 1], final, ?_, done⟩
  simp only [run, joinStepped, leaveStepped, firstWrite, secondWrite, Option.bind_some]

theorem Server.SoloAt.visits {codec : Codec} (carries : CarriesVisits codec) {s : Server}
    (solo : s.SoloAt 2 [] opened) (visitors : Nat) (few : visitors < 2 ^ 32) :
    ∃ after, (∃ actions, run (Server.step codec) s actions = some after) ∧
      after.SoloAt (UInt32.ofNat (2 + visitors)) [] (opened + visitors) := by
  refine @ids_come_round Server
    (fun s after => ∃ actions, run (Server.step codec) s actions = some after)
    (fun next opened s => s.SoloAt next [] opened) (fun s => ⟨[], rfl⟩) ?_ ?_ s opened solo
    visitors few
  · rintro s middle after ⟨early, first⟩ ⟨late, second⟩
    exact ⟨early ++ late, (run_append_eq_some _ _ _ _).mpr ⟨middle, first, second⟩⟩
  · intro next opened s other still
    obtain ⟨actions, after, reached, done⟩ := Server.SoloAt.visit carries still other
    exact ⟨after, ⟨actions, reached⟩, done⟩

theorem Hub.Solo.takeover (solo : h.Solo 1 []) (conn : ConnID) :
    ∃ after effects c,
      handle cborCodec .stored h (.join conn false [2]) = some (after, effects, false) ∧
      attached (.join conn false [2]) effects = [⟨conn, 1, 1⟩] ∧
      after.clients.lookup 1 = some c ∧ c.held = false ∧ c.gen = 1 := by
  have room : ¬h.max ≤ h.clients.keys.length := by
    rw [solo.max, solo.keys_eq]
    decide
  -- the newcomer's own id is not among its peers
  have reply : helloReply h (Order.stored.visit 0) false 1 [2] = .joinResult
      { ok := true, err := "", participantID := 1, peers := [], hostID := 1, resumeToken := [2] } := by
    simp [helloReply, peersExcept, Order.stored, solo.keys_eq, solo.host]
  obtain ⟨hello, encodedHello⟩ : ∃ hello, encode cborCodec (.joinResult
      { ok := true, err := "", participantID := 1, peers := [], hostID := 1, resumeToken := [2] }) =
        some hello :=
    Option.isSome_iff_exists.mp (by decide +kernel)
  obtain ⟨notice, encoded⟩ := Option.isSome_iff_exists.mp (cborCodec_carriesVisits.joined 1)
  have offers := broadcastFrame_offers (Order.stored.perm 1)
    (h.issued.withClient 1 (newClient 1 hello conn [2])) encoded 1
  have own := @dispatch_join cborCodec .stored h 1 conn false [2] hello _ solo.nextID room reply
    encodedHello
  generalize broadcastFrame cborCodec (Order.stored.visit 1)
    (h.issued.withClient 1 (newClient 1 hello conn [2])) (.participantJoined 1) 1 = sent
      at offers own
  obtain ⟨after, effects⟩ := sent
  have settled : after.evict = [] := by
    refine List.eq_nil_iff_forall_not_mem.mpr (fun id waiting => ?_)
    rcases (offers.evicts id).mp waiting with early | ⟨q, c, differs, found, _⟩
    · rw [show (h.issued.withClient 1 (newClient 1 hello conn [2])).evict = [] from
        solo.settled] at early
      cases early
    · rcases lookup_withClient found with ⟨same, _⟩ | ⟨_, known⟩
      · exact differs same
      · rw [show h.issued.clients.lookup q = none from solo.alone q differs] at known
        cases known
  refine ⟨after, _, newClient 1 hello conn [2], handle_of_settled own settled, ?_, ?_, rfl, rfl⟩
  · have later := attached_of_traffic (.join conn false [2])
      (Spread.offered encoded offers).traffic
    simp only [attached] at later
    simp [attached, later]
  · rw [offers.kept 1 (fun differs => differs rfl)]
    exact AList.lookup_insert _

/-- A session with enough joins: the creator and a newcomer both hold the
generation of slot 1. -/
theorem wrapped_slot_has_two_owners :
    ¬∀ (codec : Codec) (maxParticipants grace : Nat) (actions : List Action) (s : Server),
      run (Server.step codec) (Server.start maxParticipants grace) actions = some s →
        s.stopped = false →
        SlotOwnership codec (Server.start maxParticipants grace) actions s := by
  intro claimed
  have begun : ∃ s, run (Server.step cborCodec) (Server.start 16 30)
      [.command (.join 0 true [1]) .stored, .written 1] = some s ∧ s.SoloAt 2 [] 0 := by
    have finished : (run (Server.step cborCodec) (Server.start 16 30)
        [.command (.join 0 true [1]) .stored, .written 1]).any (fun s =>
          decide (s.hub.max = 16 ∧ s.hub.nextID = 2 ∧ s.hub.host = 1 ∧ s.hub.evict = [] ∧
            s.hub.clients.lookup 1 = some (hostSlot []) ∧ s.hub.clients.keys = [1] ∧
            s.stopped = false ∧ s.handlers = [⟨0, 1, 1⟩] ∧ s.conns = [0])) = true := by
      decide +kernel
    obtain ⟨s, reached, checked⟩ := (Option.any_eq_true _ _).mp finished
    obtain ⟨max, nextID, host, settled, steady, keys, going, handlers, conns⟩ :=
      of_decide_eq_true checked
    refine ⟨s, reached, ?_⟩
    refine
      { solo := .of_keys max nextID host settled steady keys
        going := going
        handlers := handlers
        conns := fun conn member => ?_ }
    rw [conns] at member
    exact Nat.le_of_eq (List.mem_singleton.mp member)
  obtain ⟨first, started, solo⟩ := begun
  obtain ⟨middle, ⟨visits, visited⟩, back⟩ := solo.visits cborCodec_carriesVisits (2 ^ 32 - 1)
    (by decide)
  have round : UInt32.ofNat (2 + (2 ^ 32 - 1)) = 1 := by decide
  rw [round] at back
  -- a connection that was never used
  obtain ⟨conn, unused⟩ : ∃ conn, conn ∉ middle.conns :=
    ⟨2 ^ 32, fun member => absurd (back.conns _ member) (by decide)⟩
  obtain ⟨after, effects, c, handled, attaches, found, live, gen⟩ := back.solo.takeover conn
  have stepped := Server.step_command back.going
    (show middle.canSend (.join conn false [2]) = true by simp [Server.canSend, unused]) handled
  have reached : run (Server.step cborCodec) (Server.start 16 30)
      (([.command (.join 0 true [1]) .stored, .written 1] ++ visits) ++
        [.command (.join conn false [2]) .stored]) =
        some (middle.served (.join conn false [2]) after effects false) := by
    refine (run_append_eq_some _ _ _ _).mpr ⟨middle, ?_, ?_⟩
    · exact (run_append_eq_some _ _ _ _).mpr ⟨first, started, visited⟩
    · simp only [run, stepped, Option.bind_some]
  have owned := (claimed cborCodec 16 30 _ _ reached rfl).1
  have single := owned.single 1 c found live
  simp [Server.served, detached, back.handlers, attaches, gen] at single

end Parley.Relay
