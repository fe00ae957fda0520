/-
Frames between the ends of a rotating session.

A rotation reaches the members one at a time.  An end opens a sealed frame under
its current key or one of the last few it replaced, so what decides is whether
the receiver has installed the sealing key by then, and how often it has replaced
it since.
-/

import Parley.Session.HeldKeys

namespace Parley.Session

open Crypto Library
open Wire (Bytes ParticipantID SessionID)

variable {prim : Primitives} {β : Type}

/-- The current key and the ring are the last keys that were installed. -/
def Client.RingOf (c : Client) (installed : List Key) : Prop :=
  if c.keyed then c.groupKey :: c.prevKeys = installed.reverse.take (prevKeyRing + 1)
  else c.prevKeys = [] ∧ installed = []

structure Client.SameKeys (c c' : Client) : Prop where
  keyed : c'.keyed = c.keyed
  groupKey : c'.groupKey = c.groupKey
  prevKeys : c'.prevKeys = c.prevKeys

theorem Client.SameKeys.refl (c : Client) : c.SameKeys c :=
  ⟨rfl, rfl, rfl⟩

variable {id : ParticipantID} {frame : Received prim β} {sf : SealedFrame prim (Envelope β)}
  {c : Client} {sender : ParticipantID} {c' : Client}

theorem Client.SameKeys.of_eq (same : c' = c) : c.SameKeys c' :=
  same ▸ Client.SameKeys.refl c

theorem Client.RingOf.congr {installed : List Key} (ring : c.RingOf installed)
    (same : c.SameKeys c') : c'.RingOf installed := by
  unfold RingOf
  rw [same.keyed, same.groupKey, same.prevKeys]
  exact ring

theorem Client.RingOf.swapKey {installed : List Key} (ring : c.RingOf installed)
    (keyed : c.keyed = true) (key : Key) : (c.swapKey key).RingOf (installed ++ [key]) := by
  have sameKeyed : (c.swapKey key).keyed = true := keyed
  unfold RingOf at ring ⊢
  rw [keyed, if_pos rfl] at ring
  rw [sameKeyed, if_pos rfl, List.reverse_append]
  simp only [Client.swapKey, Client.pushPrevKeyLocked, ring, List.reverse_cons, List.reverse_nil,
    List.nil_append, List.singleton_append, List.take_succ_cons, List.take_take]
  rfl

section

variable {E E' : Endpoint prim β} {installed : List Key} {outputs : List (Output prim β)}

theorem Endpoint.writeThen_client (e : Endpoint prim β) (sent : Sent prim β) (written : Bool)
    (next otherwise : Reader prim) : (e.writeThen sent written next otherwise).1.client =
      e.client := by
  unfold Endpoint.writeThen
  split <;> rfl

theorem Endpoint.wrapThen_client (e : Endpoint prim β) (toID : ParticipantID)
    (pairwise key : Key) (role : Role) (outcome : Outcome)
    (kind : GroupKey prim → Payload prim β) (next : Reader prim) :
    (e.wrapThen toID pairwise key role outcome kind next).1.client = e.client := by
  unfold Endpoint.wrapThen
  split
  · rfl
  · exact writeThen_client ..

variable {outcome : Outcome} {seed : Bytes}

theorem Endpoint.advance_keys (advanced : E.advance outcome = some (E', outputs)) :
    E.reader.installs = [] ∧ E.client.SameKeys E'.client ∨
      ∃ key, E.reader.installs = [key] ∧ (E.client.swapKey key).SameKeys E'.client := by
  have unchanged : ∀ result : Endpoint prim β × List (Output prim β),
      result.1.client = E.client → some result = some (E', outputs) →
        E.client.SameKeys E'.client := by
    intro result sameClient same
    cases same
    exact Client.SameKeys.of_eq sameClient
  unfold Endpoint.advance at advanced
  generalize there : E.reader = reader at advanced ⊢
  cases reader with
  | distributing newKey outs =>
      simp only [Endpoint.distribute] at advanced
      split at advanced
      · rename_i empty
        subst empty
        cases advanced
        exact Or.inr ⟨newKey, rfl, Client.SameKeys.refl _⟩
      · rename_i some_
        obtain ⟨out, _, same⟩ := Option.map_eq_some_iff.mp advanced
        refine Or.inl ⟨?_, unchanged _ (E.writeThen_client ..) (congrArg some same)⟩
        cases outs with
        | nil => exact absurd rfl some_
        | cons first rest => rfl
  | installing key role =>
      cases advanced
      refine Or.inr ⟨key, rfl, ?_⟩
      unfold Client.install
      split <;> exact ⟨rfl, rfl, rfl⟩
  | greeting j | admitReply fromID role pairwise flight2 key
  | readmitReply fromID pairwise flight2 key =>
      exact Or.inl ⟨rfl, unchanged _ (E.writeThen_client ..) advanced⟩
  | admitKey fromID role pairwise key | readmitKey fromID pairwise key =>
      exact Or.inl ⟨rfl, unchanged _ (E.wrapThen_client ..) advanced⟩
  | departed | finishing j data =>
      dsimp only at advanced
      split at advanced <;> cases advanced <;> exact Or.inl ⟨rfl, Client.SameKeys.refl _⟩
  | admitting fromID spectate pairwise flight2 | admitted fromID role
  | readmitting fromID pairwise flight2 | finished pairwise =>
      cases advanced
      exact Or.inl ⟨rfl, rfl, rfl, rfl⟩
  | joining j pairwise | failed | idle | stopped => cases advanced

theorem Client.RingOf.advance (ring : E.client.RingOf installed)
    (keyed : E.reader.installs ≠ [] → E.client.keyed = true)
    (advanced : E.advance outcome = some (E', outputs)) :
    E'.client.RingOf (installed ++ E.reader.installs) := by
  rcases Endpoint.advance_keys advanced with ⟨nothing, same⟩ | ⟨key, installs, same⟩
  · rw [nothing, List.append_nil]
    exact ring.congr same
  · rw [installs] at keyed ⊢
    exact (ring.swapKey (keyed (List.cons_ne_nil key [])) key).congr same

theorem Client.joinDriveHandshake_keys (c : Client) (j : Joiner) (pairwise : Option Key)
    (frame : Received prim β) :
    c.SameKeys (c.joinDriveHandshake j pairwise frame).1 ∨
      (c.joinDriveHandshake j pairwise frame).1.keyed = true ∧
        (c.joinDriveHandshake j pairwise frame).1.prevKeys = c.prevKeys := by
  have direct : ∀ payload : Payload prim β, c.SameKeys (c.joinHandleDirect j pairwise payload).1 ∨
      (c.joinHandleDirect j pairwise payload).1.keyed = true ∧
        (c.joinHandleDirect j pairwise payload).1.prevKeys = c.prevKeys := by
    intro payload
    unfold Client.joinHandleDirect
    split
    · split <;> exact Or.inl (Client.SameKeys.refl c)
    · split
      · exact Or.inl (Client.SameKeys.refl c)
      · split
        · exact Or.inr ⟨rfl, rfl⟩
        · exact Or.inl (Client.SameKeys.refl c)
    all_goals exact Or.inl (Client.SameKeys.refl c)
  unfold Client.joinDriveHandshake
  split
  · exact Or.inl (Client.SameKeys.refl c)
  · split
    · exact direct _
    · exact Or.inl (Client.SameKeys.refl c)
  · exact Or.inl (Client.SameKeys.refl c)

theorem Endpoint.receive_keys (received : E.receive frame seed = some (E', outputs)) :
    E.client.SameKeys E'.client ∨ (∃ j pairwise, E.reader = .joining j pairwise) ∧
      E'.client.keyed = true ∧ E'.client.prevKeys = E.client.prevKeys := by
  cases there : E.reader with
  | joining j pairwise =>
      simp only [Endpoint.receive, there] at received
      cases received
      exact (E.client.joinDriveHandshake_keys j pairwise frame).imp_right
        (fun becomes => ⟨⟨j, pairwise, rfl⟩, becomes⟩)
  | idle =>
      simp only [Endpoint.receive, there] at received
      cases received
      refine Or.inl ?_
      cases frame <;> exact ⟨rfl, rfl, rfl⟩
  | _ => simp [Endpoint.receive, there] at received

theorem Client.RingOf.receive (ring : E.client.RingOf installed)
    (unkeyed : ∀ j pairwise, E.reader = .joining j pairwise → E.client.keyed = false)
    (received : E.receive frame seed = some (E', outputs)) :
    E'.client.RingOf (installed ++ firstKey E E') := by
  rcases Endpoint.receive_keys received with same | ⟨⟨j, pairwise, there⟩, keyed, sameRing⟩
  · have nothing : firstKey E E' = [] := by
      unfold firstKey
      rw [same.keyed]
      exact if_neg (fun both => by simp [both.1] at both)
    rw [nothing, List.append_nil]
    exact ring.congr same
  · have before := unkeyed j pairwise there
    unfold RingOf at ring ⊢
    rw [before, if_neg Bool.false_ne_true] at ring
    obtain ⟨noRing, nothing⟩ := ring
    rw [keyed, if_pos rfl, sameRing, noRing, nothing]
    unfold firstKey
    rw [if_pos ⟨before, keyed⟩]
    rfl

end

namespace World

variable {w next : World prim β}

def Ringed (w : World prim β) : Prop :=
  ∀ id ∈ w.net.members, (w.ends id).client.RingOf (w.installed id)

theorem Sane.keyed_of_installs (sane : w.Sane) (member : id ∈ w.net.members)
    (installs : (w.ends id).reader.installs ≠ []) :
    (w.ends id).client.keyed = true := by
  by_cases isHost : id = w.host
  · subst isHost
    exact sane.host.keyed
  · have place := (sane.members id member isHost).ok.place
    cases there : (w.ends id).reader with
    | installing key role =>
        rw [there] at place
        exact place
    | distributing newKey outs =>
        rw [there] at place
        cases place
    | _ =>
        rw [there] at installs
        exact absurd rfl installs

theorem Sane.unkeyed_of_joining (sane : w.Sane) (member : id ∈ w.net.members) {j : Joiner}
    {pairwise : Option Key} (joining : (w.ends id).reader = .joining j pairwise) :
    (w.ends id).client.keyed = false := by
  by_cases isHost : id = w.host
  · subst isHost
    have place := sane.host.place
    unfold HostPlace at place
    rw [joining] at place
    cases place
  · have place := (sane.members id member isHost).ok.place
    rw [joining] at place
    simpa [Reader.memberPlace] using place

theorem Ringed.settle (ringed : w.Ringed) {E : Endpoint prim β} {outputs : List (Output prim β)}
    {keys : List Key} (ring : E.client.RingOf (w.installed id ++ keys)) :
    (w.settle id E outputs keys).Ringed := by
  intro other present
  by_cases same : other = id
  · subst same
    rw [settle_ends_self, settle_installed_self]
    exact ring
  · rw [settle_ends_of_ne w same, settle_installed_of_ne w same]
    exact ringed other present

theorem Ringed.steps (ringed : w.Ringed) (sane : w.Sane) {action : WorldAction prim β}
    (stepped : w.step action = some next) : next.Ringed := by
  cases action with
  | join id proto phraseC policy observer seed =>
      simp only [step] at stepped
      split at stepped
      · cases stepped
      · rename_i unused
        cases stepped
        intro other present
        by_cases same : other = id
        · subst same
          simp only [Function.update_self]
          exact ⟨rfl, sane.fresh other unused⟩
        · simp only [Function.update_of_ne same]
          refine ringed other ((List.mem_append.mp present).resolve_right ?_)
          exact fun new => same (List.mem_singleton.mp new)
  | leave id =>
      simp only [step] at stepped
      split at stepped
      · obtain ⟨net, left, rfl⟩ := Option.map_eq_some_iff.mp stepped
        exact fun other present => ringed other ((Network.mem_leave left).mp present).1
      · cases stepped
  | route sender =>
      obtain ⟨net, routed, rfl⟩ := Option.map_eq_some_iff.mp stepped
      exact fun other present => ringed other (Network.members_route routed ▸ present)
  | deliver receiver sender seed =>
      obtain ⟨member, frame, net, E, outputs, taken, received, rfl⟩ := deliver_cases stepped
      have before : Ringed { w with net := net } :=
        fun other present => ringed other (Network.members_take taken ▸ present)
      refine before.settle ((ringed receiver member).receive ?_ received)
      exact fun j pairwise joining => sane.unkeyed_of_joining member joining
  | act id action =>
      obtain ⟨member, E, outputs, acted, rfl, notReceive⟩ := act_cases stepped
      refine ringed.settle ?_
      have ring := ringed id member
      cases action with
      | receive frame seed => exact absurd rfl (notReceive frame seed)
      | advance outcome =>
          exact ring.advance (fun installs => sane.keyed_of_installs member installs) acted
      | call toID serviceID body nonce =>
          cases acted
          obtain ⟨seqs, calls, same, _⟩ := (w.ends id).call_eq toID serviceID body nonce
          rw [same]
          simp only [keysOf, List.append_nil]
          exact ring.congr ⟨rfl, rfl, rfl⟩
      | write index written =>
          obtain ⟨calls, rfl, _⟩ := Endpoint.write_eq acted
          simp only [keysOf, List.append_nil]
          exact ring

end World

theorem findSome?_of_mem {α κ : Type} [DecidableEq κ] {keys : List κ} {key : κ} (value : α)
    (member : key ∈ keys) :
    keys.findSome? (fun other => if other = key then some value else none) = some value := by
  induction keys with
  | nil => cases member
  | cons first rest ih =>
      by_cases here : first = key
      · simp [here]
      · simp only [List.findSome?_cons, if_neg here]
        exact ih ((List.mem_cons.mp member).resolve_left (Ne.symm here))

theorem mem_take_reverse_iff {α : Type} (list : List α) (count : Nat) (item : α) :
    item ∈ list.reverse.take (count + 1) ↔
      ∃ older newer, list = older ++ item :: newer ∧ newer.length ≤ count := by
  constructor
  · intro member
    obtain ⟨newest, rest, split⟩ := List.append_of_mem member
    have size := congrArg List.length split
    refine ⟨(rest ++ list.reverse.drop (count + 1)).reverse, newest.reverse, ?_, ?_⟩
    · have whole := List.take_append_drop (count + 1) list.reverse
      rw [split] at whole
      have reversed := congrArg List.reverse whole
      rw [List.reverse_reverse] at reversed
      exact reversed.symm.trans (by simp)
    · simp only [List.length_take, List.length_append, List.length_cons] at size
      rw [List.length_reverse]
      omega
  · intro split
    obtain ⟨older, newer, same, few⟩ := split
    have reversed : list.reverse = (newer.reverse ++ [item]) ++ older.reverse := by
      rw [same]
      simp
    have size : (newer.reverse ++ [item]).length ≤ count + 1 := by
      rw [List.length_append, List.length_reverse]
      exact Nat.succ_le_succ few
    rw [reversed, List.take_append, List.take_of_length_le size]
    simp

theorem Client.openFrame_sealFrame (ideal : prim.Ideal) (keyed : c.keyed = true) (key : Key)
    (env : Envelope β) (sender : ParticipantID) (nonce : Nonce) :
    c.openFrame (sealFrame prim key env c.sid sender nonce) sender =
      if key ∈ c.groupKey :: c.prevKeys then some env else none := by
  unfold Client.openFrame
  rw [keyed, if_neg (Ne.symm Bool.false_ne_true)]
  simp only [openSealed_sealFrame ideal]
  split
  · rename_i inRing
    exact findSome?_of_mem env inRing
  · rename_i outside
    refine List.findSome?_eq_none_iff.mpr (fun other member => if_neg (fun same => ?_))
    exact outside (same ▸ member)

/-- The relay cannot pass a sealed frame off as another sender's or carry it into
another session, and a wrapped key is of use to the member it was wrapped for only. -/
theorem Client.relabelled_rejected (ideal : prim.Ideal) (c : Client) (keyed : c.keyed = true)
    (key : Key) (env : Envelope β) (sid : SessionID) (sender stamped : ParticipantID)
    (nonce : Nonce) (pairwise : Key) (role : UInt8) :
    c.openFrame (sealFrame prim key env sid sender nonce) stamped =
        (if key ∈ c.groupKey :: c.prevKeys ∧ c.sid = sid ∧ stamped = sender then some env
          else none) ∧
      unwrapGroupKey prim c.hostPairwise (wrapGroupKey prim pairwise key role sid sender nonce)
          c.sid stamped =
        if c.hostPairwise = pairwise ∧ c.sid = sid ∧ stamped = sender then some (key, role)
        else none := by
  by_cases same : c.sid = sid ∧ stamped = sender
  · obtain ⟨rfl, rfl⟩ := same
    simp only [and_self, and_true]
    exact ⟨c.openFrame_sealFrame ideal keyed key env stamped nonce,
      unwrapGroupKey_wrapGroupKey ideal pairwise c.hostPairwise key role c.sid stamped nonce⟩
  · have differs := mt associatedData_inj same
    rw [if_neg (fun both => same both.2), if_neg (fun both => same both.2)]
    constructor
    · rw [Client.openFrame, keyed, if_neg (Ne.symm Bool.false_ne_true)]
      refine List.findSome?_eq_none_iff.mpr (fun other _ => (ideal.open_seal ..).trans ?_)
      exact if_neg (fun both => differs both.2)
    · simp only [unwrapGroupKey, wrapGroupKey, wrapAD, ideal.open_seal, differs, and_false, if_false,
        Option.bind_none]

def keyedClient : Client :=
  { dial [] (Vector.replicate 16 0) [] defaultRolePolicy false with
    keyed := true
    groupKey := sampleKey 1 }

theorem foreign_stamp_dropped :
    keyedClient.keyed = true ∧
      keyedClient.openFrame (sealFrame symbolic (sampleKey 1) (Envelope.mk "chat" 1 ())
        keyedClient.sid 2 sampleNonce) 3 = none :=
  ⟨rfl, (keyedClient.relabelled_rejected symbolic_ideal rfl (sampleKey 1) _ keyedClient.sid 2 3
    sampleNonce (sampleKey 1) 0).1.trans (if_neg (by decide))⟩

namespace World

variable {w : World prim β}

/-- The end has installed the key and has replaced it at most `prevKeyRing`
times since. -/
def Keeps (w : World prim β) (id : ParticipantID) (key : Key) : Prop :=
  ∃ older newer, w.installed id = older ++ key :: newer ∧ newer.length ≤ prevKeyRing

theorem Ringed.mem_iff_keeps (ringed : w.Ringed) (member : id ∈ w.net.members)
    (keyed : (w.ends id).client.keyed = true) (key : Key) :
    key ∈ (w.ends id).client.groupKey :: (w.ends id).client.prevKeys ↔ w.Keeps id key := by
  have ring := ringed id member
  unfold Client.RingOf at ring
  rw [keyed, if_pos rfl] at ring
  rw [ring]
  exact mem_take_reverse_iff (w.installed id) prevKeyRing key

theorem Sane.client_sid (sane : w.Sane) (member : id ∈ w.net.members) :
    (w.ends id).client.sid = w.sid := by
  by_cases isHost : id = w.host
  · subst isHost
    exact sane.host.sameSid
  · exact (sane.members id member isHost).ok.sid

theorem Sane.sealed_of_taken (sane : w.Sane) {receiver : ParticipantID}
    (member : receiver ∈ w.net.members) (keyed : (w.ends receiver).client.keyed = true)
    {net : Network ParticipantID (Sent prim β) (Received prim β)}
    (taken : w.net.take receiver sender = some (frame, net)) (carries : Carries sender sf frame) :
    ∃ key, SealedUnder prim w.sid sender key sf := by
  have unique : ∀ other, Carries sender other frame → other = sf := by
    intro other carried
    rcases carries with rfl | rfl <;> rcases carried with carried | carried <;>
      cases carried <;> rfl
  have entry := Network.entry_of_take taken
  by_cases fromHost : sender = w.host
  · subst fromHost
    by_cases toHost : receiver = w.host
    · subst toHost
      obtain ⟨other, key, carried, made⟩ := sane.net.toSelf _ entry rfl
      exact ⟨key, unique other carried ▸ made⟩
    · have follows := (sane.members receiver member toHost).follows
      have alive : (w.ends receiver).reader.isFailed ≠ true := by
        intro failed
        rw [follows.failed failed] at keyed
        cases keyed
      obtain ⟨older, path⟩ := follows.link.resolve_left alive
      rw [stream, Network.stream_take taken] at path
      unfold memberState at path
      rw [keyed, if_pos rfl] at path
      obtain ⟨_, read, _⟩ := path
      cases read with
      | next _ key nonce => rcases carries with impossible | impossible <;> cases impossible
      | sealed _ key other carried made known => exact ⟨key, unique other carried ▸ made⟩
  · have ordinary : Ordinary w.sid w.host sender receiver frame :=
      sane.net.entries _ _ entry fromHost
    cases ordinary with
    | sealed key other carried made => exact ⟨key, unique other carried ▸ made⟩
    | joined | left | flight p toHost =>
        rcases carries with impossible | impossible <;> cases impossible

end World

/-- In every run without failing wraps and writes, a keyed end that takes a
sealed frame opens it exactly when it has installed the key the frame was sealed
under and has replaced it at most `prevKeyRing` times since. -/
theorem frame_opened_iff_key_kept (ideal : prim.Ideal) (proto phraseC : Bytes) (sid : SessionID)
    (policy : RolePolicy) (observer : Bool) (host : ParticipantID) (key : Key)
    (actions : List (WorldAction prim β)) (w : World prim β)
    (dependable : Along World.step World.Dependable
      (World.start proto phraseC sid policy observer host key) actions)
    (reached : run World.step (World.start proto phraseC sid policy observer host key) actions =
      some w)
    (sender receiver : ParticipantID) (member : receiver ∈ w.net.members)
    (keyed : (w.ends receiver).client.keyed = true) (frame : Received prim β)
    (net : Network ParticipantID (Sent prim β) (Received prim β))
    (taken : w.net.take receiver sender = some (frame, net))
    (sf : SealedFrame prim (Envelope β)) (carries : Carries sender sf frame) :
    ∃ sealing env nonce, sf = sealFrame prim sealing env w.sid sender nonce ∧
      ((w.ends receiver).client.openFrame sf sender = some env ↔ w.Keeps receiver sealing) ∧
      ((w.ends receiver).client.openFrame sf sender = none ↔ ¬w.Keeps receiver sealing) := by
  have both : w.Sane ∧ w.Ringed := by
    refine @run_invariant _ _ World.step (fun w => w.Sane ∧ w.Ringed) World.Dependable ?_ _ _ _
      ⟨World.start_sane proto phraseC sid policy observer host key, ?_⟩ dependable reached
    · intro before action after invariants permitted stepped
      exact ⟨invariants.1.steps ideal permitted stepped, invariants.2.steps invariants.1 stepped⟩
    · intro id isHost
      have same : id = host := List.mem_singleton.mp isHost
      subst same
      simp [Client.RingOf, World.start, Endpoint.hosting, Client.hostHello, dial, prevKeyRing]
  obtain ⟨sane, ringed⟩ := both
  obtain ⟨sealing, env, nonce, made⟩ := sane.sealed_of_taken member keyed taken carries
  have opened := Client.openFrame_sealFrame ideal keyed sealing env sender nonce
  rw [sane.client_sid member, ← made] at opened
  have kept := ringed.mem_iff_keeps member keyed sealing
  refine ⟨sealing, env, nonce, made, ?_⟩
  rw [opened, ← kept]
  by_cases inRing : sealing ∈ (w.ends receiver).client.groupKey :: (w.ends receiver).client.prevKeys
  · rw [if_pos inRing]
    exact ⟨iff_of_true rfl inRing, iff_of_false (fun impossible => by cases impossible)
      (fun outside => outside inRing)⟩
  · rw [if_neg inRing]
    exact ⟨iff_of_false (fun impossible => by cases impossible) inRing, iff_of_true rfl inRing⟩

/-! ### Two rotations, one of them overtaken -/

def Received.sealedBody : Received prim β → Option (ParticipantID × SealedFrame prim (Envelope β))
  | .direct fromID (.sealed sf) => some (fromID, sf)
  | .broadcast fromID (.sealed sf) => some (fromID, sf)
  | _ => none

theorem Received.carries_of_sealedBody (body : frame.sealedBody = some (sender, sf)) :
    Carries sender sf frame := by
  unfold Received.sealedBody at body
  split at body
  · cases body
    exact Or.inl rfl
  · cases body
    exact Or.inr rfl
  · cases body

/-- Participant 4 leaves.  The host has written the new key to 3 and not yet to 2
when 3 installs it. -/
def rekeysThird : List (WorldAction symbolic Unit) :=
  [.leave 4, .deliver 1 4 [], .act 1 (.advance (success 1)), .act 1 (.advance (success 1)),
    .route 1, .deliver 3 4 [], .deliver 3 4 [], .act 3 (.advance (success 1)), .deliver 3 1 [],
    .act 3 (.advance (success 1))]

/-- A broadcast of 2 is under way while 3 is rekeyed. -/
def peerBroadcasts : List (WorldAction symbolic Unit) :=
  joinOf 2 ++ joinOf 3 ++ joinOf 4 ++
    [.act 2 (.call none "chat" () (some sampleNonce)), .act 2 (.write 0 true), .route 2] ++
    rekeysThird

theorem peerBroadcasts_opened :
    ∃ w frame net sf, run World.step sampleWorld peerBroadcasts = some w ∧
      w.net.take 3 2 = some (frame, net) ∧ Carries 2 sf frame ∧
      openSealed symbolic (w.ends 3).client.groupKey sf w.sid 2 = none ∧
      ((w.ends 3).client.openFrame sf 2).isSome = true ∧
      ∃ sealing env nonce, sf = sealFrame symbolic sealing env w.sid 2 nonce ∧
        ((w.ends 3).client.openFrame sf 2 = some env ↔ w.Keeps 3 sealing) ∧
        ((w.ends 3).client.openFrame sf 2 = none ↔ ¬w.Keeps 3 sealing) := by
  have finished : (run World.step sampleWorld peerBroadcasts).any (fun w =>
      decide (3 ∈ w.net.members ∧ (w.ends 3).client.keyed = true) &&
        (w.net.take 3 2).any (fun taken => taken.1.sealedBody.any (fun body =>
          decide (body.1 = 2 ∧
            (openSealed symbolic (w.ends 3).client.groupKey body.2 w.sid 2).isNone = true ∧
            ((w.ends 3).client.openFrame body.2 2).isSome = true)))) = true := by
    decide +kernel
  have dependable : Along World.step World.Dependable sampleWorld peerBroadcasts := by
    decide +kernel
  obtain ⟨w, reached, facts⟩ := (Option.any_eq_true _ _).mp finished
  obtain ⟨there, delivered⟩ := (Bool.and_eq_true _ _).mp facts
  obtain ⟨member, keyed⟩ := of_decide_eq_true there
  obtain ⟨⟨frame, net⟩, taken, inFrame⟩ := (Option.any_eq_true _ _).mp delivered
  obtain ⟨⟨sender, sf⟩, body, opens⟩ := (Option.any_eq_true _ _).mp inFrame
  obtain ⟨rfl, replaced, opened⟩ := of_decide_eq_true opens
  have carries := Received.carries_of_sealedBody body
  exact ⟨w, frame, net, sf, reached, taken, carries, Option.isNone_iff_eq_none.mp replaced, opened,
    frame_opened_iff_key_kept symbolic_ideal [] [] (Vector.replicate 16 0) defaultRolePolicy false 1
      (sampleKey 0) peerBroadcasts w dependable reached 2 3 member keyed frame net taken sf carries⟩

def halfDistributed : List (WorldAction symbolic Unit) :=
  joinOf 2 ++ joinOf 3 ++ joinOf 4 ++ rekeysThird

def broadcastArrives : List (WorldAction symbolic Unit) :=
  [.act 3 (.write 0 true), .route 3, .deliver 2 3 [], .deliver 2 4 [], .deliver 2 4 [],
    .act 2 (.advance (success 1))]

instance {α : Type} [DecidableEq α] : DecidableEq (symbolic.Box α) :=
  inferInstanceAs (DecidableEq (Key × Bytes × α))

instance {α : Type} [DecidableEq (prim.Box α)] : DecidableEq (SealedFrame prim α) :=
  fun left right =>
    decidable_of_iff (left.nonce = right.nonce ∧ left.ciphertext = right.ciphertext)
      ⟨fun both => by
          cases left
          cases right
          cases both.1
          cases both.2
          rfl,
        fun same => ⟨congrArg SealedFrame.nonce same, congrArg SealedFrame.ciphertext same⟩⟩

def Payload.sealedFrame : Payload prim β → Option (SealedFrame prim (Envelope β))
  | .sealed sf => some sf
  | _ => none

theorem Payload.eq_of_sealedFrame {payload : Payload prim β}
    (body : payload.sealedFrame = some sf) : payload = .sealed sf := by
  unfold Payload.sealedFrame at body
  split at body
  · cases body
    rfl
  · cases body

/-- In the relay's own order, with one rotation and nothing failing, a frame of a
member that has the new key reaches a keyed member that does not: it is lost. -/
theorem rekeyed_sender_not_opened :
    ¬∀ (prim : Primitives), prim.Ideal → ∀ (proto phraseC : Bytes) (sid : SessionID)
      (policy : RolePolicy) (observer : Bool) (host : ParticipantID) (key : Key)
      (before after : List (WorldAction prim Unit)) (sender receiver : ParticipantID)
      (toID : Option ParticipantID) (serviceID : String) (nonce : Nonce)
      (w sealed : World prim Unit) (sf : SealedFrame prim (Envelope Unit))
      (frame : Received prim Unit)
      (net : Network ParticipantID (Sent prim Unit) (Received prim Unit)),
      Along World.step (fun w action => w.Dependable action ∧ w.HubOrdered action)
          (World.start proto phraseC sid policy observer host key)
          (before ++ .act sender (.call toID serviceID () (some nonce)) :: after) →
        run World.step (World.start proto phraseC sid policy observer host key) before =
          some sealed →
        (sealed.ends sender).client.keyed = true → (sealed.ends receiver).client.keyed = true →
        ((sealed.ends sender).client.sealEnvelope serviceID () (some nonce)).2 =
          some (.sealed sf) →
        run World.step sealed (.act sender (.call toID serviceID () (some nonce)) :: after) =
          some w →
        (w.installed host).length ≤ (sealed.installed host).length + prevKeyRing →
        sender ∈ w.net.members → receiver ∈ w.net.members →
        w.net.oldest receiver = some sender → w.net.take receiver sender = some (frame, net) →
        Carries sender sf frame →
        ((w.ends receiver).client.openFrame sf sender).isSome = true := by
  intro claimed
  have finished : (run World.step sampleWorld halfDistributed).any (fun sealed =>
      decide ((sealed.ends 3).client.keyed = true ∧ (sealed.ends 2).client.keyed = true) &&
        (run World.step sealed
          (.act 3 (.call none "chat" () (some sampleNonce)) :: broadcastArrives)).any (fun w =>
            decide ((w.installed 1).length ≤ (sealed.installed 1).length + prevKeyRing ∧
              3 ∈ w.net.members ∧ 2 ∈ w.net.members ∧ w.net.oldest 2 = some 3) &&
            (w.net.take 2 3).any (fun taken => taken.1.sealedBody.any (fun body =>
              decide (body.1 = 3 ∧ ((sealed.ends 3).client.sealEnvelope "chat" ()
                  (some sampleNonce)).2.bind Payload.sealedFrame = some body.2 ∧
                ((w.ends 2).client.openFrame body.2 3).isSome = false))))) = true := by
    decide +kernel
  have permitted : Along World.step (fun w action => w.Dependable action ∧ w.HubOrdered action)
      sampleWorld (halfDistributed ++
        .act 3 (.call none "chat" () (some sampleNonce)) :: broadcastArrives) := by
    decide +kernel
  obtain ⟨sealed, reachedSealed, facts⟩ := (Option.any_eq_true _ _).mp finished
  obtain ⟨keyed, facts⟩ := (Bool.and_eq_true _ _).mp facts
  obtain ⟨w, reached, facts⟩ := (Option.any_eq_true _ _).mp facts
  obtain ⟨there, facts⟩ := (Bool.and_eq_true _ _).mp facts
  obtain ⟨⟨frame, net⟩, taken, inFrame⟩ := (Option.any_eq_true _ _).mp facts
  obtain ⟨⟨sender, sf⟩, body, facts⟩ := (Option.any_eq_true _ _).mp inFrame
  obtain ⟨rfl, made, closed⟩ := of_decide_eq_true facts
  obtain ⟨few, senderIn, receiverIn, next⟩ := of_decide_eq_true there
  obtain ⟨senderKeyed, receiverKeyed⟩ := of_decide_eq_true keyed
  obtain ⟨payload, sealing, isSealed⟩ := Option.bind_eq_some_iff.mp made
  have opened := claimed symbolic symbolic_ideal [] [] (Vector.replicate 16 0) defaultRolePolicy
    false 1 (sampleKey 0) halfDistributed broadcastArrives 3 2 none "chat" sampleNonce w sealed sf
    frame net permitted reachedSealed senderKeyed receiverKeyed
    (sealing.trans (congrArg some (Payload.eq_of_sealedFrame isSealed))) reached few senderIn
    receiverIn next taken (Received.carries_of_sealedBody body)
  rw [closed] at opened
  cases opened

end Parley.Session
