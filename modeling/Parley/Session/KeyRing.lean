/-
The ring of previous keys over a whole life of an end.

Three functions replace the group key: `RotateForMigration` on the routing
goroutine, and the last sections of `rekeyAfterLeave` and `handleRekey` on the
read goroutine.  Whatever their order, and whatever else happens in between, the
ring is a window over the keys the end has used.
-/

import Parley.Session.FrameLoss

namespace Parley.Session

open Crypto Library
open Wire (Bytes ParticipantID SessionID)

variable {prim : Primitives} {β : Type}

def Reader.isJoining : Reader prim → Bool
  | .greeting _ => true
  | .joining _ _ => true
  | _ => false

namespace Endpoint

variable {E E' : Endpoint prim β}

/-- One step of an end, with the keys it puts into use: a step of the read
goroutine or of a sender, or a call of the routing goroutine. -/
inductive Turns : Endpoint prim β → List Key → Endpoint prim β → Prop
  | step {E E' : Endpoint prim β} {action : Action prim β} {outputs : List (Output prim β)}
      (stepped : E.step action = some (E', outputs)) : Turns E (World.keysOf E action) E'
  | rotateForMigration {E : Endpoint prim β} (host : E.client.isHost = true) (newKey : Key) :
      Turns E [newKey] { E with client := E.client.rotateForMigration (some newKey) }
  | becomeHost (E : Endpoint prim β) : Turns E [] { E with client := E.client.becomeHost }
  | setHostID (E : Endpoint prim β) (id : ParticipantID) :
      Turns E [] { E with client := E.client.setHostID id }
  | rekeyWithNewHost {E : Endpoint prim β} {c : Client} {sent : Sent prim β} {seed : Bytes}
      (started : E.client.rekeyWithNewHost prim β seed = some (c, sent)) :
      Turns E [] { E with client := c }

/-- Any number of steps, with the keys put into use, oldest first. -/
inductive Lives : Endpoint prim β → List Key → Endpoint prim β → Prop
  | start (E : Endpoint prim β) : Lives E [] E
  | turn {E M E' : Endpoint prim β} {keys newer : List Key} (lived : Lives E keys M)
      (turned : Turns M newer E') : Lives E (keys ++ newer) E'

structure InSession (E : Endpoint prim β) : Prop where
  keyed : E.client.keyed = true
  joined : E.reader.isJoining = false

variable {outputs : List (Output prim β)}

theorem advance_joined {outcome : Outcome} (joined : E.reader.isJoining = false)
    (advanced : E.advance outcome = some (E', outputs)) :
    E'.reader.isJoining = false := by
  have written : ∀ {sent : Sent prim β} {written : Bool} {next otherwise : Reader prim},
      E.writeThen sent written next otherwise = (E', outputs) → next.isJoining = false →
        otherwise.isJoining = false → E'.reader.isJoining = false := by
    intro sent written next otherwise wrote nextJoined otherwiseJoined
    unfold writeThen at wrote
    split at wrote <;> cases wrote <;> assumption
  have wrapped : ∀ {toID : ParticipantID} {pairwise key : Key} {role : Role}
      {kind : GroupKey prim → Payload prim β} {next : Reader prim},
      E.wrapThen toID pairwise key role outcome kind next = (E', outputs) →
        next.isJoining = false → E'.reader.isJoining = false := by
    intro toID pairwise key role kind next wrote nextJoined
    unfold wrapThen at wrote
    split at wrote
    · cases wrote
      rfl
    · exact written wrote nextJoined rfl
  unfold advance at advanced
  generalize there : E.reader = reader at advanced
  cases reader with
  | greeting j =>
      rw [there] at joined
      cases joined
  | departed =>
      dsimp only at advanced
      split at advanced <;> cases advanced <;> rfl
  | distributing newKey outs =>
      simp only [distribute] at advanced
      split at advanced
      · cases advanced
        rfl
      · obtain ⟨out, _, wrote⟩ := Option.map_eq_some_iff.mp advanced
        exact written wrote rfl rfl
  | admitReply fromID role pairwise flight2 key =>
      exact written (Option.some.inj advanced) rfl rfl
  | readmitReply fromID pairwise flight2 key =>
      exact written (Option.some.inj advanced) rfl rfl
  | admitKey fromID role pairwise key =>
      exact wrapped (Option.some.inj advanced) rfl
  | readmitKey fromID pairwise key =>
      exact wrapped (Option.some.inj advanced) rfl
  | finishing j data =>
      dsimp only at advanced
      split at advanced <;> cases advanced <;> rfl
  | joining j pairwise | failed | idle | stopped => cases advanced
  | _ =>
      cases advanced
      rfl

theorem receive_joined {frame : Received prim β} {seed : Bytes}
    (joined : E.reader.isJoining = false) (received : E.receive frame seed = some (E', outputs)) :
    E'.reader.isJoining = false := by
  cases there : E.reader with
  | joining j pairwise =>
      rw [there] at joined
      cases joined
  | idle =>
      obtain ⟨_, sameReader, _⟩ := receive_idle there received
      rw [sameReader]
      unfold Client.dispatchFrame Client.handlePayload
      split
      all_goals repeat' split
      all_goals rfl
  | _ => simp [receive, there] at received

theorem Turns.keys {newer : List Key} (turned : Turns E newer E') (inSession : E.InSession) :
    E'.InSession ∧ (newer = [] ∧ E.client.SameKeys E'.client ∨
      ∃ key, newer = [key] ∧ (E.client.swapKey key).SameKeys E'.client) := by
  have kept : ∀ c : Client, E.client.SameKeys c →
      InSession { E with client := c } ∧ (([] : List Key) = [] ∧ E.client.SameKeys c ∨
        ∃ key, [] = [key] ∧ (E.client.swapKey key).SameKeys c) := fun c same =>
    ⟨⟨same.keyed.trans inSession.keyed, inSession.joined⟩, Or.inl ⟨rfl, same⟩⟩
  cases turned with
  | step stepped =>
      rename_i action outputs
      cases action with
      | receive frame seed =>
          rcases receive_keys stepped with same | ⟨⟨j, pairwise, there⟩, _⟩
          · exact ⟨⟨same.keyed.trans inSession.keyed, receive_joined inSession.joined stepped⟩,
              Or.inl ⟨rfl, same⟩⟩
          · have joined := inSession.joined
            rw [there] at joined
            cases joined
      | advance outcome =>
          have keys := advance_keys stepped
          refine ⟨⟨?_, advance_joined inSession.joined stepped⟩, keys⟩
          rcases keys with ⟨_, same⟩ | ⟨_, _, same⟩
          · exact same.keyed.trans inSession.keyed
          · exact same.keyed.trans inSession.keyed
      | call toID serviceID body nonce =>
          cases stepped
          obtain ⟨seqs, calls, same, _⟩ := E.call_eq toID serviceID body nonce
          rw [same]
          exact ⟨⟨inSession.keyed, inSession.joined⟩, Or.inl ⟨rfl, rfl, rfl, rfl⟩⟩
      | write index written =>
          obtain ⟨calls, rfl, _⟩ := write_eq stepped
          exact ⟨⟨inSession.keyed, inSession.joined⟩, Or.inl ⟨rfl, rfl, rfl, rfl⟩⟩
  | rotateForMigration host newKey =>
      have rotated : E.client.rotateForMigration (some newKey) =
          { E.client.swapKey newKey with pairwise := ∅ } := if_pos host
      rw [rotated]
      exact ⟨⟨inSession.keyed, inSession.joined⟩, Or.inr ⟨newKey, rfl, rfl, rfl, rfl⟩⟩
  | becomeHost => exact kept _ ⟨rfl, rfl, rfl⟩
  | setHostID id => exact kept _ ⟨rfl, rfl, rfl⟩
  | rekeyWithNewHost started =>
      unfold Client.rekeyWithNewHost at started
      split at started
      · cases started
      · cases started
        exact kept _ ⟨rfl, rfl, rfl⟩

theorem Lives.ringOf {keys : List Key} (lived : Lives E keys E') (inSession : E.InSession)
    (fresh : E.client.prevKeys = []) :
    E'.InSession ∧ E'.client.RingOf (E.client.groupKey :: keys) := by
  induction lived with
  | start =>
      refine ⟨inSession, ?_⟩
      unfold Client.RingOf
      rw [inSession.keyed, if_pos rfl, fresh]
      rfl
  | turn lived turned ih =>
      obtain ⟨middle, ring⟩ := ih
      obtain ⟨after, keys⟩ := turned.keys middle
      refine ⟨after, ?_⟩
      rcases keys with ⟨rfl, same⟩ | ⟨key, rfl, same⟩
      · rw [List.append_nil]
        exact ring.congr same
      · exact (ring.swapKey middle.keyed key).congr same

end Endpoint

theorem take_reverse_map_range {α : Type} (item : Nat → α) (last size : Nat) :
    ((List.range (last + 1)).map item).reverse.take (size + 1) =
      (List.range (min last size + 1)).map (fun back => item (last - back)) := by
  apply List.ext_getElem
  · simp only [List.length_take, List.length_reverse, List.length_map, List.length_range]
    omega
  · intro index _ _
    simp only [List.getElem_take, List.getElem_reverse, List.getElem_map, List.getElem_range,
      List.length_map, List.length_range]
    congr 1

variable {key : Nat → Key}

/-- After the keys `key 0 … key n`, the end holds `key n` and, newest first, up to
`prevKeyRing` before it. -/
theorem Endpoint.Lives.window {E E' : Endpoint prim β} {n : Nat} (inSession : E.InSession)
    (first : E.client.groupKey = key 0) (fresh : E.client.prevKeys = [])
    (lived : Lives E ((List.range n).map (fun i => key (i + 1))) E') :
    E'.client.keyed = true ∧ E'.client.groupKey :: E'.client.prevKeys =
      (List.range (min n prevKeyRing + 1)).map (fun back => key (n - back)) := by
  obtain ⟨after, ring⟩ := lived.ringOf inSession fresh
  refine ⟨after.keyed, ?_⟩
  have history : E.client.groupKey :: (List.range n).map (fun i => key (i + 1)) =
      (List.range (n + 1)).map key := by
    rw [first, List.range_succ_eq_map, List.map_cons, List.map_map]
    rfl
  unfold Client.RingOf at ring
  rw [after.keyed, if_pos rfl, history, take_reverse_map_range] at ring
  exact ring

theorem Client.mem_window {c : Client} {n : Nat}
    (window : c.groupKey :: c.prevKeys =
      (List.range (min n prevKeyRing + 1)).map (fun back => key (n - back)))
    {i : Nat} (used : i ≤ n) (last : ∀ j ≤ n, i < j → key j ≠ key i) :
    key i ∈ c.groupKey :: c.prevKeys ↔ n - prevKeyRing ≤ i := by
  rw [window, List.mem_map]
  constructor
  · rintro ⟨back, near, same⟩
    have few := List.mem_range.mp near
    have notLater : ¬i < n - back := fun later => last (n - back) (Nat.sub_le ..) later same
    omega
  · intro near
    refine ⟨n - i, List.mem_range.mpr ?_, congrArg key ?_⟩
    · omega
    · omega

/-- However the replacements are mixed, the ring is the window of the last keys,
and a frame opens exactly when its key is in the window, if that key was not
installed again later. -/
theorem ring_is_window (ideal : prim.Ideal) (E E' : Endpoint prim β) (key : Nat → Key) (n : Nat)
    (inSession : E.InSession) (first : E.client.groupKey = key 0) (fresh : E.client.prevKeys = [])
    (lived : Endpoint.Lives E ((List.range n).map (fun i => key (i + 1))) E') :
    E'.client.groupKey = key n ∧
      E'.client.prevKeys =
        (List.range (min n prevKeyRing)).map (fun back => key (n - 1 - back)) ∧
      ∀ i ≤ n, (∀ j ≤ n, i < j → key j ≠ key i) →
        ∀ (env : Envelope β) (sender : ParticipantID) (nonce : Nonce),
          E'.client.openFrame (sealFrame prim (key i) env E'.client.sid sender nonce) sender =
              some env ↔
            n - prevKeyRing ≤ i := by
  obtain ⟨keyed, window⟩ := lived.window inSession first fresh
  have parts := window
  rw [List.range_succ_eq_map, List.map_cons, List.map_map] at parts
  obtain ⟨current, ring⟩ := List.cons.inj parts
  refine ⟨current, ring.trans (List.map_congr_left fun back _ => congrArg key ?_), ?_⟩
  · omega
  · intro i used last env sender nonce
    rw [Client.openFrame_sealFrame ideal keyed, ← Client.mem_window window used last]
    split
    · rename_i inRing
      exact iff_of_true rfl inRing
    · rename_i outside
      exact iff_of_false (fun impossible => by cases impossible) outside

theorem Endpoint.lives_of_host {E : Endpoint prim β} (host : E.client.isHost = true)
    (key : Nat → Key) (n : Nat) :
    ∃ E', Lives E ((List.range n).map (fun i => key (i + 1))) E' ∧ E'.client.isHost = true := by
  induction n with
  | zero => exact ⟨E, .start E, host⟩
  | succ n ih =>
      obtain ⟨M, lived, stillHost⟩ := ih
      rw [List.range_succ, List.map_append]
      refine ⟨_, lived.turn (.rotateForMigration stillHost (key (n + 1))), ?_⟩
      have rotated : M.client.rotateForMigration (some (key (n + 1))) =
          { M.client.swapKey (key (n + 1)) with pairwise := ∅ } := if_pos stillHost
      rw [rotated]
      exact stillHost

/-- A host whose first key is `first`. -/
def rotatingHost (first : UInt8) : Endpoint symbolic Unit :=
  Endpoint.hosting (dial [] (Vector.replicate 16 0) [] defaultRolePolicy false) 1 (sampleKey first)

def countedKey (i : Nat) : Key := sampleKey (UInt8.ofNat i)

theorem countedKey_injective {i j : Nat} (small : i < 256) (smallOther : j < 256)
    (same : countedKey i = countedKey j) : i = j := by
  have bytes : UInt8.ofNat i = UInt8.ofNat j := by
    have entries := congrArg (fun key : Key => key.toList.head?) same
    simpa [countedKey, sampleKey, keySize, List.replicate] using entries
  have values := congrArg UInt8.toNat bytes
  rw [UInt8.toNat_ofNat_of_lt' small, UInt8.toNat_ofNat_of_lt' smallOther] at values
  exact values

/-- Nine rotations: the first key is the only one that no longer opens. -/
theorem ring_is_window_nine : ∃ E' : Endpoint symbolic Unit,
    Endpoint.Lives (rotatingHost 0) ((List.range 9).map (fun i => countedKey (i + 1))) E' ∧
      E'.client.prevKeys = (List.range 8).map (fun back => countedKey (9 - 1 - back)) ∧
      ∀ i ≤ 9, (E'.client.openFrame (sealFrame symbolic (countedKey i)
        { serviceID := "chat", seq := 1, body := () } E'.client.sid 2 sampleNonce) 2 =
          some { serviceID := "chat", seq := 1, body := () } ↔ 1 ≤ i) := by
  obtain ⟨E', lived, _⟩ := Endpoint.lives_of_host (E := rotatingHost 0) rfl countedKey 9
  obtain ⟨_, ring, opens⟩ := ring_is_window symbolic_ideal (rotatingHost 0) E' countedKey 9
    ⟨rfl, rfl⟩ rfl rfl lived
  refine ⟨E', lived, ring, fun i used => opens i used (fun j usedToo later same => ?_) _ 2 _⟩
  have again := countedKey_injective (by omega) (by omega) same
  omega

/-- The first key again as the ninth: a frame under it opens, though the first
place has left the window. -/
theorem reused_first_key_opens :
    ¬∀ (prim : Primitives), prim.Ideal → ∀ (E E' : Endpoint prim Unit) (key : Nat → Key) (n : Nat),
      E.InSession → E.client.groupKey = key 0 → E.client.prevKeys = [] →
        (∀ i j, 1 ≤ i → i ≤ n → 1 ≤ j → j ≤ n → key i = key j → i = j) →
        Endpoint.Lives E ((List.range n).map (fun i => key (i + 1))) E' →
        ∀ i ≤ n, ∀ (env : Envelope Unit) (sender : ParticipantID) (nonce : Nonce),
          E'.client.openFrame (sealFrame prim (key i) env E'.client.sid sender nonce) sender =
              some env ↔
            n - prevKeyRing ≤ i := by
  intro claimed
  let key : Nat → Key := fun i => if i = 0 then countedKey 9 else countedKey i
  have distinct : ∀ i j, 1 ≤ i → i ≤ 9 → 1 ≤ j → j ≤ 9 → key i = key j → i = j := by
    intro i j positive small positiveToo smallToo same
    simp only [key, if_neg (Nat.ne_of_gt positive), if_neg (Nat.ne_of_gt positiveToo)] at same
    exact countedKey_injective (by omega) (by omega) same
  obtain ⟨E', lived, _⟩ := Endpoint.lives_of_host (E := rotatingHost 9) rfl key 9
  obtain ⟨keyed, window⟩ := lived.window ⟨rfl, rfl⟩ rfl rfl
  have held : key 0 ∈ E'.client.groupKey :: E'.client.prevKeys := by
    rw [window]
    exact List.mem_cons_self
  have opened := Client.openFrame_sealFrame symbolic_ideal keyed (key 0)
    { serviceID := "chat", seq := 1, body := () } 2 sampleNonce
  rw [if_pos held] at opened
  have inWindow := (claimed symbolic symbolic_ideal (rotatingHost 9) E' key 9 ⟨rfl, rfl⟩ rfl rfl
    distinct lived 0 (Nat.zero_le 9) _ 2 sampleNonce).mp opened
  revert inWindow
  decide

end Parley.Session
