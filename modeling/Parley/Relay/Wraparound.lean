/-
The id counter comes round.

A session with one steady participant and a stream of visitors issues every id in
turn.  After `2 ^ 32 - 2` visitors the next id is 0, after one more it is the
steady participant's own.
-/

import Parley.Relay.SlotLife
import Parley.WireCbor

namespace Parley.Relay

open Wire Library

def hostSlot (out : List Bytes) : Client :=
  { id := 1
    out := out
    kick := 0
    token := [1]
    held := false
    gen := 1
    timer := false
    evicting := false }

/-- The creator is alone in a session whose next id is `next`. -/
structure Hub.Solo (h : Hub) (next : ParticipantID) (out : List Bytes) : Prop where
  max : h.max = 16
  nextID : h.nextID = next
  host : h.host = 1
  settled : h.evict = []
  steady : h.clients.lookup 1 = some (hostSlot out)
  alone : ∀ q, q ≠ 1 → h.clients.lookup q = none

structure Hub.Visited (h : Hub) (visitor : ParticipantID) (conn : ConnID) (hello notice : Bytes) :
    Prop where
  max : h.max = 16
  nextID : h.nextID = visitor + 1
  host : h.host = 1
  settled : h.evict = []
  steady : h.clients.lookup 1 = some (hostSlot [notice])
  guest : h.clients.lookup visitor = some (newClient visitor hello conn [2])
  alone : ∀ q, q ≠ 1 → q ≠ visitor → h.clients.lookup q = none

def visitorHello (id : ParticipantID) : Body :=
  .joinResult
    { ok := true
      err := ""
      participantID := id
      peers := [1]
      hostID := 1
      resumeToken := [2] }

/-- The codec has frames for what a visit puts on the wire. -/
structure CarriesVisits (codec : Codec) : Prop where
  hello : ∀ id, (encode codec (visitorHello id)).isSome = true
  joined : ∀ id, (encode codec (.participantJoined id)).isSome = true
  left : ∀ id, (encode codec (.participantLeft id)).isSome = true

theorem cborCodec_carriesVisits : CarriesVisits cborCodec := by
  refine
    { hello := fun id => encode_cborCodec_isSome ?_
      joined := encode_participantJoined_isSome
      left := encode_participantLeft_isSome }
  have size := Cbor.headSize_le_five id.toNat_lt
  have heads : Cbor.headSize 1 = 1 ∧ Cbor.headSize 3 = 1 ∧ Cbor.headSize 4 = 1 ∧
    Cbor.headSize 5 = 1 ∧ Cbor.headSize 6 = 1 := by decide
  have fields : Body.fields (visitorHello id) = [.number 1, .bool true, .number 3, idItem id,
    .number 4, .array [idItem 1], .number 5, idItem 1, .number 6, .bytes [2]] := rfl
  have one : (1 : ParticipantID).toNat = 1 := rfl
  simp only [Body.cbor, fields, idItem, Cbor.length_encode_map, List.length_cons, List.length_nil,
    Nat.reduceAdd, Nat.reduceDiv, Cbor.length_encodeAll_cons, Cbor.length_encodeAll_nil,
    Cbor.length_encode_number, Cbor.length_encode_bytes, Cbor.length_encode_bool,
    Cbor.length_encode_array, Cbor.stringSize, heads, one]
  unfold maxFrame
  omega

theorem dispatch_join {codec : Codec} {order : Order} {h : Hub} {id : ParticipantID}
    {conn : ConnID} {isCreate : Bool} {token frame : Bytes} {hello : Body} (key : h.nextID = id)
    (room : ¬h.max ≤ h.clients.keys.length)
    (reply : helloReply h (order.visit 0) isCreate id token = hello)
    (encoded : encode codec hello = some frame) :
    dispatch codec order h (.join conn isCreate token) =
      ((broadcastFrame codec (order.visit 1)
          (h.issued.withClient id (newClient id frame conn token)) (.participantJoined id) id).1,
        .queued id hello ::
          .joinReply conn { ok := true, errC := 0, errS := "", id := id, gen := 1 } ::
            (broadcastFrame codec (order.visit 1)
              (h.issued.withClient id (newClient id frame conn token)) (.participantJoined id)
              id).2, false) := by
  subst key
  simp only [dispatch, handleJoin, if_neg room, reply, encoded]
  rfl

namespace Hub.Solo

variable {codec : Codec} {h : Hub} {next : ParticipantID} {out : List Bytes}

theorem keys_eq (solo : h.Solo next out) : h.clients.keys = [1] := by
  have only : ∀ q, q ∈ h.clients.keys ↔ q = 1 := by
    intro q
    rw [← AList.mem_keys]
    constructor
    · intro member
      by_contra other
      exact AList.lookup_eq_none.mp (solo.alone q other) member
    · rintro rfl
      exact mem_of_lookup solo.steady
  refine List.perm_singleton.mp ((List.perm_ext_iff_of_nodup h.clients.keys_nodup
    (List.nodup_singleton 1)).mpr (fun q => ?_))
  rw [only q, List.mem_singleton]

theorem of_keys (max : h.max = 16) (nextID : h.nextID = next) (host : h.host = 1)
    (settled : h.evict = []) (steady : h.clients.lookup 1 = some (hostSlot out))
    (keys : h.clients.keys = [1]) : h.Solo next out := by
  refine
    { max := max
      nextID := nextID
      host := host
      settled := settled
      steady := steady
      alone := fun q other => AList.lookup_eq_none.mpr (fun member => other ?_) }
  rw [AList.mem_keys, keys] at member
  exact List.mem_singleton.mp member

theorem join (carries : CarriesVisits codec) (solo : h.Solo next []) (other : next ≠ 1)
    (conn : ConnID) :
    ∃ middle effects hello notice,
      handle codec .stored h (.join conn false [2]) =
        some (middle, .queued next (visitorHello next) ::
          .joinReply conn { ok := true, errC := 0, errS := "", id := next, gen := 1 } :: effects,
          false) ∧
      (∀ effect ∈ effects, effect.isTraffic = true) ∧
      encode codec (visitorHello next) = some hello ∧
      middle.Visited next conn hello notice := by
  obtain ⟨hello, encodedHello⟩ := Option.isSome_iff_exists.mp (carries.hello next)
  obtain ⟨notice, encodedNotice⟩ := Option.isSome_iff_exists.mp (carries.joined next)
  have room : ¬h.max ≤ h.clients.keys.length := by
    rw [solo.max, solo.keys_eq]
    decide
  have reply : helloReply h (Order.stored.visit 0) false next [2] = visitorHello next := by
    have peers : [1].filter (fun pid => decide (pid ≠ next)) = [1] := by
      simp [Ne.symm other]
    simp only [helloReply, peersExcept, Order.stored, solo.keys_eq, solo.host, visitorHello, peers,
      Bool.false_eq_true, if_false]
  have offers := broadcastFrame_offers (Order.stored.perm 1)
    (h.issued.withClient next (newClient next hello conn [2])) encodedNotice next
  have own := @dispatch_join codec .stored h next conn false [2] hello _ solo.nextID room reply
    encodedHello
  generalize broadcastFrame codec (Order.stored.visit 1)
    (h.issued.withClient next (newClient next hello conn [2])) (.participantJoined next) next =
      sent at offers own
  obtain ⟨middle, effects⟩ := sent
  have before : ∀ q, q ≠ next → (h.issued.withClient next
      (newClient next hello conn [2])).clients.lookup q = h.clients.lookup q :=
    fun q differs => AList.lookup_insert_ne differs
  have visited : middle.Visited next conn hello notice := by
    refine
      { max := offers.max.trans solo.max
        nextID := ?_
        host := offers.host.trans solo.host
        settled := ?_
        steady := ?_
        guest := ?_
        alone := ?_ }
    · rw [offers.nextID]
      exact congrArg (· + 1) solo.nextID
    · refine List.eq_nil_iff_forall_not_mem.mpr (fun id waiting => ?_)
      rcases (offers.evicts id).mp waiting with early | ⟨q, c, differs, found, full, _⟩
      · rw [show (h.issued.withClient next (newClient next hello conn [2])).evict = [] from
          solo.settled] at early
        cases early
      · rw [before q differs] at found
        by_cases steady : q = 1
        · rw [steady, solo.steady] at found
          cases found
          cases full
        · rw [solo.alone q steady] at found
          cases found
    · rw [offers.offered 1 (Ne.symm other), before 1 (Ne.symm other), solo.steady]
      rfl
    · rw [offers.kept next (fun differs => differs rfl)]
      exact AList.lookup_insert _
    · intro q differs stranger
      rw [offers.offered q stranger, before q stranger, solo.alone q differs]
      rfl
  refine ⟨middle, effects, hello, notice, ?_, ?_, encodedHello, visited⟩
  · exact handle_of_settled own visited.settled
  · exact (Spread.offered encodedNotice offers).traffic

end Hub.Solo

theorem Hub.Solo.drop {h : Hub} {next : ParticipantID} {out : List Bytes}
    (solo : h.Solo next out) (rest : List Bytes) :
    (h.withClient 1 (hostSlot rest)).Solo next rest :=
  { solo with
    steady := AList.lookup_insert _
    alone := fun q other => (AList.lookup_insert_ne other).trans (solo.alone q other) }

variable {visitor : ParticipantID} {notice hello : Bytes} {conn : ConnID}

theorem Hub.Visited.leave {codec : Codec} {h : Hub} (carries : CarriesVisits codec)
    (visited : h.Visited visitor conn hello notice) {leaver stays : ParticipantID} {c : Client}
    (found : h.clients.lookup leaver = some c) (live : c.held = false) (first : c.gen = 1)
    (remaining : stays ≠ leaver) (there : stays ∈ h.clients) :
    ∃ after effects farewell,
      handle codec .stored h (.leave leaver 1 false) = some (after, effects, false) ∧
      Offers (.participantLeft leaver) farewell (fun q => q ≠ 0) (h.without leaver) after
        effects.tail ∧ after.evict = [] := by
  obtain ⟨farewell, encoded⟩ := Option.isSome_iff_exists.mp (carries.left leaver)
  have own : dispatch codec .stored h (.leave leaver 1 false) =
      removeParticipant codec (Order.stored.visit 0) h leaver := by
    simp [dispatch, handleLeave, found, live, first]
  have removal := removeParticipant_removal codec (Order.stored.perm 0) found
  rw [← own] at removal
  rcases handled : dispatch codec .stored h (.leave leaver 1 false) with ⟨after, effects, emptied⟩
  rw [handled] at removal
  cases removal with
  | emptied _ alone =>
      have present : stays ∈ (h.without leaver).clients := AList.mem_erase.mpr ⟨remaining, there⟩
      rw [AList.mem_keys, alone] at present
      cases present
  | @announced _ _ effects _ others spread =>
      cases spread with
      | unencodable refused =>
          rw [encoded] at refused
          cases refused
      | @offered frame _ _ framed offers =>
          have same : frame = farewell := Option.some.inj (framed.symm.trans encoded)
          subst same
          have settled : after.evict = [] := by
            refine List.eq_nil_iff_forall_not_mem.mpr (fun id waiting => ?_)
            rcases (offers.evicts id).mp waiting with early | ⟨q, d, _, known, full, _⟩
            · rw [show (h.without leaver).evict = [] from visited.settled] at early
              cases early
            · have known := (lookup_without known).2
              by_cases steady : q = 1
              · rw [steady, visited.steady] at known
                cases known
                cases full
              · by_cases guest : q = visitor
                · rw [guest, visited.guest] at known
                  cases known
                  cases full
                · rw [visited.alone q steady guest] at known
                  cases known
          exact ⟨after, _, frame, handle_of_settled handled settled, offers, settled⟩

theorem Hub.Visited.solo {codec : Codec} {h : Hub} (carries : CarriesVisits codec)
    (visited : h.Visited visitor conn hello notice) (other : visitor ≠ 1) :
    ∃ after effects farewell,
      handle codec .stored h (.leave visitor 1 false) = some (after, effects, false) ∧
      after.Solo (visitor + 1) [notice, farewell] := by
  obtain ⟨after, effects, farewell, handled, offers, settled⟩ :=
    visited.leave carries visited.guest rfl rfl (Ne.symm other) (mem_of_lookup visited.steady)
  have before : ∀ q, q ≠ visitor → (h.without visitor).clients.lookup q = h.clients.lookup q :=
    fun q differs => AList.lookup_erase_ne differs
  refine ⟨after, effects, farewell, handled, ?_⟩
  refine
    { max := offers.max.trans visited.max
      nextID := offers.nextID.trans visited.nextID
      host := offers.host.trans visited.host
      settled := settled
      steady := ?_
      alone := ?_ }
  · rw [offers.offered 1 (by decide), before 1 (Ne.symm other), visited.steady]
    rfl
  · intro q differs
    have absent : (h.without visitor).clients.lookup q = none := by
      by_cases guest : q = visitor
      · rw [guest]
        exact AList.lookup_erase visitor h.clients
      · rw [before q guest]
        exact visited.alone q differs guest
    exact AList.lookup_eq_none.mpr (fun member =>
      AList.lookup_eq_none.mp absent ((offers.mem_iff q).mp member))

/-- As long as each visit passes the counter on, after enough visitors every id
has been the next one. -/
theorem ids_come_round {State : Type} {Reaches : State → State → Prop}
    {At : ParticipantID → Nat → State → Prop} (refl : ∀ s, Reaches s s)
    (trans : ∀ s middle after, Reaches s middle → Reaches middle after → Reaches s after)
    (visit : ∀ next opened s, next ≠ 1 → At next opened s →
      ∃ after, Reaches s after ∧ At (next + 1) (opened + 1) after)
    {s : State} {opened : Nat} (start : At 2 opened s) (visitors : Nat)
    (few : visitors < 2 ^ 32) :
    ∃ after, Reaches s after ∧ At (UInt32.ofNat (2 + visitors)) (opened + visitors) after := by
  induction visitors with
  | zero => exact ⟨s, refl s, start⟩
  | succ visitors ih =>
      obtain ⟨middle, reached, still⟩ := ih (Nat.lt_of_succ_lt few)
      have other : UInt32.ofNat (2 + visitors) ≠ 1 := by
        intro same
        have value := congrArg UInt32.toNat same
        rw [UInt32.toNat_ofNat'] at value
        change (2 + visitors) % 2 ^ 32 = 1 at value
        omega
      obtain ⟨after, visited, done⟩ := visit _ _ middle other still
      refine ⟨after, trans s middle after reached visited, ?_⟩
      have next : UInt32.ofNat (2 + (visitors + 1)) = UInt32.ofNat (2 + visitors) + 1 := by
        rw [← Nat.add_assoc, UInt32.ofNat_add]
        rfl
      rw [next, ← Nat.add_assoc]
      exact done

end Parley.Relay
