/-
Who can read what a host seals after a leave.

The host is followed with three histories: the keys it minted, the keys it
wrapped to each participant, and the participants that are gone, that is, whose
departure it has finished processing and who have not started a handshake since.
A departure that leaves nobody to rekey does not rotate the key; the result says
that in every other case a leaver is locked out.
-/

import Parley.Library.Run
import Parley.Session.Endpoint

namespace Parley.Session

open Crypto Library
open Wire (Bytes ParticipantID SessionID)

variable {prim : Primitives} {β : Type}

structure HostLog (prim : Primitives) (β : Type) where
  endpoint : Endpoint prim β
  minted : List Key
  wrapped : List (ParticipantID × Key)
  gone : List ParticipantID
  /-- The leaver whose departure is being processed. -/
  leaving : Option ParticipantID

def Endpoint.wraps (e : Endpoint prim β) (outcome : Outcome) : List (ParticipantID × Key) :=
  match e.reader with
  | .departed =>
      match e.client.rekeyAfterLeave prim outcome.key outcome.nonce with
      | none => []
      | some (newKey, outs) => outs.map (fun out => (out.1, newKey))
  | .admitKey fromID _ _ key => if outcome.nonce.isSome then [(fromID, key)] else []
  | .readmitKey fromID _ key => if outcome.nonce.isSome then [(fromID, key)] else []
  | _ => []

def Endpoint.mints (e : Endpoint prim β) (outcome : Outcome) : List Key :=
  match e.reader with
  | .departed => ((e.client.rekeyAfterLeave prim outcome.key outcome.nonce).map Prod.fst).toList
  | _ => []

def Received.handshaker : Received prim β → Option ParticipantID
  | .direct fromID (.pake1 _) => some fromID
  | .direct fromID (.rekeyPake1 _) => some fromID
  | .broadcast fromID (.pake1 _) => some fromID
  | .broadcast fromID (.rekeyPake1 _) => some fromID
  | _ => none

def Received.leaver : Received prim β → Option ParticipantID
  | .participantLeft id => some id
  | _ => none

def HostLog.step (h : HostLog prim β) (action : Action prim β) : Option (HostLog prim β) := do
  let (next, _) ← h.endpoint.step action
  match action with
  | .receive frame _ =>
      some { h with
        endpoint := next
        gone := h.gone.filter (fun id => frame.handshaker ≠ some id)
        leaving := frame.leaver }
  | .advance outcome =>
      -- the departure is processed when the read goroutine is back at its loop
      let done := if next.reader.isIdle then h.leaving.toList else []
      some { h with
        endpoint := next
        minted := h.minted ++ h.endpoint.mints outcome
        wrapped := h.wrapped ++ h.endpoint.wraps outcome
        gone := h.gone ++ done }
  | _ => some { h with endpoint := next }

def HostLog.start (c : Client) (id : ParticipantID) (key : Key) : HostLog prim β :=
  { endpoint := Endpoint.hosting c id key
    minted := [key]
    wrapped := []
    gone := []
    leaving := none }

/-- A message is sealed under a key that was never wrapped to anyone gone. -/
def LockedOut (h : HostLog prim β) : Action prim β → Prop
  | .call _ _ _ _ => ∀ id ∈ h.gone, (id, h.endpoint.client.groupKey) ∉ h.wrapped
  | _ => True

def Dependable (h : HostLog prim β) : Action prim β → Prop
  | .advance outcome =>
      outcome.nonce.isSome = true ∧ outcome.written = true ∧
        ∃ key ∈ outcome.key, key ∉ h.minted
  | _ => True

/-- Whoever leaves with a pairwise key leaves somebody else with one. -/
def LeavesSurvivor (h : HostLog prim β) : Action prim β → Prop
  | .receive frame _ =>
      ∀ id ∈ frame.leaver, id ∈ h.endpoint.client.pairwise →
        (h.endpoint.client.pairwise.erase id).entries ≠ []
  | _ => True

instance (h : HostLog prim β) (action : Action prim β) : Decidable (Dependable h action) := by
  dsimp only [Dependable]
  split <;> infer_instance

instance (h : HostLog prim β) (action : Action prim β) : Decidable (LeavesSurvivor h action) := by
  dsimp only [LeavesSurvivor]
  split
  · exact Option.decidableForallMem _
  · infer_instance

instance (h : HostLog prim β) (action : Action prim β) : Decidable (LockedOut h action) := by
  dsimp only [LockedOut]
  split
  · exact List.decidableBAll _ _
  · infer_instance

def HostLog.Clear (h : HostLog prim β) (key : Key) : Prop :=
  ∀ id, id ∉ h.endpoint.client.pairwise → (id, key) ∉ h.wrapped

/-- What holds at each place of the read goroutine.  While a departure is
processed the leaver may still have the current key. -/
def HostLog.ReaderSound (h : HostLog prim β) : Prop :=
  let c := h.endpoint.client
  match h.endpoint.reader with
  | .idle => h.Clear c.groupKey
  | .stopped => h.Clear c.groupKey
  | .departed =>
      ∃ leaver, h.leaving = some leaver ∧ leaver ∉ c.pairwise ∧
        (c.pairwise.entries = [] → h.Clear c.groupKey)
  | .distributing newKey _ =>
      ∃ leaver, h.leaving = some leaver ∧ leaver ∉ c.pairwise ∧ newKey ∈ h.minted ∧
        h.Clear newKey
  | .admitting fromID _ _ _ => h.leaving = none ∧ fromID ∉ h.gone ∧ h.Clear c.groupKey
  | .admitReply fromID _ _ _ key =>
      h.leaving = none ∧ fromID ∈ c.pairwise ∧ key = c.groupKey ∧ h.Clear c.groupKey
  | .admitKey fromID _ _ key =>
      h.leaving = none ∧ fromID ∈ c.pairwise ∧ key = c.groupKey ∧ h.Clear c.groupKey
  | .admitted _ _ => h.leaving = none ∧ h.Clear c.groupKey
  | .readmitting fromID _ _ => h.leaving = none ∧ fromID ∉ h.gone ∧ h.Clear c.groupKey
  | .readmitReply fromID _ _ key =>
      h.leaving = none ∧ fromID ∈ c.pairwise ∧ key = c.groupKey ∧ h.Clear c.groupKey
  | .readmitKey fromID _ key =>
      h.leaving = none ∧ fromID ∈ c.pairwise ∧ key = c.groupKey ∧ h.Clear c.groupKey
  | _ => False

structure HostLog.Sound (h : HostLog prim β) : Prop where
  isHost : h.endpoint.client.isHost = true
  noHostPairwise : h.endpoint.client.haveHostPairwise = false
  noJoiner : h.endpoint.client.rekeyJoiner = none
  known : ∀ entry ∈ h.wrapped, entry.2 ∈ h.minted
  current : h.endpoint.client.groupKey ∈ h.minted
  reader : h.ReaderSound
  gone : ∀ id ∈ h.gone, id ∉ h.endpoint.client.pairwise ∧
    (id, h.endpoint.client.groupKey) ∉ h.wrapped

theorem HostLog.start_sound (c : Client) (fresh : c.haveHostPairwise = false)
    (unjoined : c.rekeyJoiner = none) (id : ParticipantID) (key : Key) :
    (HostLog.start c id key : HostLog prim β).Sound :=
  { isHost := by simp [HostLog.start, Endpoint.hosting, Client.isHost, Client.hostHello]
    noHostPairwise := fresh
    noJoiner := unjoined
    known := List.forall_mem_nil _
    current := List.mem_singleton_self key
    reader := fun _ _ => List.not_mem_nil
    gone := List.forall_mem_nil _ }

theorem handlePayload_host {c : Client} (noHostPairwise : c.haveHostPairwise = false)
    (noJoiner : c.rekeyJoiner = none) (fromID : ParticipantID) (payload : Payload prim β)
    (seed : Bytes) :
    (c.handlePayload fromID payload seed).1 = .idle ∨
      (∃ p spectate pairwise flight2, payload = .pake1 p ∧
        (c.handlePayload fromID payload seed).1 = .admitting fromID spectate pairwise flight2) ∨
      ∃ p pairwise flight2, payload = .rekeyPake1 p ∧
        (c.handlePayload fromID payload seed).1 = .readmitting fromID pairwise flight2 := by
  cases payload with
  | pake1 p =>
      simp only [Client.handlePayload]
      split
      · split
        · exact Or.inr (Or.inl ⟨p, _, _, _, rfl, rfl⟩)
        · exact Or.inl rfl
      · exact Or.inl rfl
  | rekeyPake1 p =>
      simp only [Client.handlePayload]
      split
      · split
        · exact Or.inr (Or.inr ⟨p, _, _, rfl, rfl⟩)
        · exact Or.inl rfl
      · exact Or.inl rfl
  | sealed sf =>
      simp only [Client.handlePayload]
      split <;> exact Or.inl rfl
  | rekey gk =>
      simp only [Client.handlePayload, Client.handleRekey, noHostPairwise]
      exact Or.inl rfl
  | rekeyPake2 p =>
      simp only [Client.handlePayload, noJoiner]
      exact Or.inl trivial
  | pake2 p => exact Or.inl rfl
  | groupKey gk => exact Or.inl rfl
  | undecodable kind => exact Or.inl rfl

variable {h next : HostLog prim β}

/-- The state after a frame that changes nothing but the place of the read
goroutine and who counts as gone. -/
theorem HostLog.sound_of_reader (before : h.Sound) (reader : Reader prim)
    (gone : List ParticipantID) (leaving : Option ParticipantID)
    (fewer : ∀ id ∈ gone, id ∈ h.gone)
    (there : HostLog.ReaderSound
      { h with
        endpoint := { h.endpoint with reader := reader }
        gone := gone
        leaving := leaving }) :
    HostLog.Sound
      { h with
        endpoint := { h.endpoint with reader := reader }
        gone := gone
        leaving := leaving } :=
  { before with
    reader := there
    gone := fun id member => before.gone id (fewer id member) }

theorem HostLog.sound_payload (before : h.Sound) (idle : h.endpoint.reader = .idle)
    (fromID : ParticipantID) (payload : Payload prim β) (seed : Bytes) (frame : Received prim β)
    (carries : frame = .direct fromID payload ∨ frame = .broadcast fromID payload) :
    HostLog.Sound
      { h with
        endpoint :=
          { h.endpoint with
            reader := (h.endpoint.client.handlePayload fromID payload seed).1 }
        gone := h.gone.filter (fun id => frame.handshaker ≠ some id)
        leaving := frame.leaver } := by
  have clear : h.Clear h.endpoint.client.groupKey := by
    have there := before.reader
    simp only [HostLog.ReaderSound, idle] at there
    exact there
  have unleft : frame.leaver = none := by
    rcases carries with rfl | rfl <;> rfl
  have fewer : ∀ id ∈ h.gone.filter (fun id => frame.handshaker ≠ some id), id ∈ h.gone :=
    fun id member => (List.mem_filter.mp member).1
  have excluded : frame.handshaker = some fromID →
      fromID ∉ h.gone.filter (fun id => frame.handshaker ≠ some id) := by
    intro flight member
    exact of_decide_eq_true (List.mem_filter.mp member).2 flight
  rcases handlePayload_host before.noHostPairwise before.noJoiner fromID payload seed with
    stays | ⟨p, spectate, pairwise, flight2, rfl, admits⟩ | ⟨p, pairwise, flight2, rfl, admits⟩
  · rw [stays]
    exact HostLog.sound_of_reader before _ _ _ fewer clear
  · rw [admits]
    refine HostLog.sound_of_reader before _ _ _ fewer ⟨unleft, excluded ?_, clear⟩
    rcases carries with rfl | rfl <;> rfl
  · rw [admits]
    refine HostLog.sound_of_reader before _ _ _ fewer ⟨unleft, excluded ?_, clear⟩
    rcases carries with rfl | rfl <;> rfl

theorem HostLog.sound_left (before : h.Sound)
    (idle : h.endpoint.reader = .idle) (leaver : ParticipantID)
    (survivor : leaver ∈ h.endpoint.client.pairwise →
      (h.endpoint.client.pairwise.erase leaver).entries ≠ []) (gone : List ParticipantID)
    (fewer : ∀ id ∈ gone, id ∈ h.gone) :
    HostLog.Sound
      { h with
        endpoint :=
          { h.endpoint with
            client := h.endpoint.client.forget leaver
            reader := .departed }
        gone := gone
        leaving := some leaver } := by
  have clear : h.Clear h.endpoint.client.groupKey := by
    have there := before.reader
    simp only [HostLog.ReaderSound, idle] at there
    exact there
  refine
    { before with
      reader := ⟨leaver, rfl, ?_, ?_⟩
      gone := ?_ }
  · intro member
    exact (AList.mem_erase.mp member).1 rfl
  · intro nobody id absent
    apply clear id
    intro present
    by_cases same : id = leaver
    · rw [same] at present
      exact survivor present nobody
    · exact absent (AList.mem_erase.mpr ⟨same, present⟩)
  · intro id member
    obtain ⟨absent, unwrapped⟩ := before.gone id (fewer id member)
    exact ⟨fun present => absent (AList.mem_erase.mp present).2, unwrapped⟩

theorem HostLog.sound_wrap (before : h.Sound) (fromID : ParticipantID)
    (member : fromID ∈ h.endpoint.client.pairwise)
    (clear : h.Clear h.endpoint.client.groupKey) (reader : Reader prim)
    (there : ∀ wrapped : List (ParticipantID × Key),
      (∀ id, id ∉ h.endpoint.client.pairwise →
        (id, h.endpoint.client.groupKey) ∉ wrapped) →
      HostLog.ReaderSound
        { h with
          endpoint := { h.endpoint with reader := reader }
          wrapped := wrapped }) :
    HostLog.Sound
      { h with
        endpoint := { h.endpoint with reader := reader }
        wrapped := h.wrapped ++ [(fromID, h.endpoint.client.groupKey)] } := by
  have other : ∀ id, id ∉ h.endpoint.client.pairwise →
      (id, h.endpoint.client.groupKey) ∉ [(fromID, h.endpoint.client.groupKey)] := by
    intro id absent wrapped
    have same : id = fromID := (Prod.mk.inj (List.mem_singleton.mp wrapped)).1
    exact absent (same ▸ member)
  refine
    { before with
      known := ?_
      reader := there _ ?_
      gone := ?_ }
  · intro entry wrapped
    rcases List.mem_append.mp wrapped with earlier | now
    · exact before.known entry earlier
    · rw [List.mem_singleton.mp now]
      exact before.current
  · intro id absent wrapped
    rcases List.mem_append.mp wrapped with earlier | now
    · exact clear id absent earlier
    · exact other id absent now
  · intro id gone
    obtain ⟨absent, unwrapped⟩ := before.gone id gone
    refine ⟨absent, fun wrapped => ?_⟩
    rcases List.mem_append.mp wrapped with earlier | now
    · exact unwrapped earlier
    · exact other id absent now

theorem HostLog.sound_store (before : h.Sound) (fromID : ParticipantID)
    (present : fromID ∉ h.gone) (client : Client) (reader : Reader prim) (pairwise : Key)
    (stored : client.pairwise = h.endpoint.client.pairwise.insert fromID pairwise)
    (same : client.isHost = h.endpoint.client.isHost ∧
      client.haveHostPairwise = h.endpoint.client.haveHostPairwise ∧
      client.rekeyJoiner = h.endpoint.client.rekeyJoiner ∧
      client.groupKey = h.endpoint.client.groupKey)
    (there : HostLog.ReaderSound
      { h with endpoint := { h.endpoint with client := client, reader := reader } }) :
    HostLog.Sound
      { h with endpoint := { h.endpoint with client := client, reader := reader } } := by
  obtain ⟨sameHost, sameHave, sameJoiner, sameKey⟩ := same
  refine
    { isHost := sameHost.trans before.isHost
      noHostPairwise := sameHave.trans before.noHostPairwise
      noJoiner := sameJoiner.trans before.noJoiner
      known := before.known
      current := ?_
      reader := there
      gone := ?_ }
  · change client.groupKey ∈ h.minted
    rw [sameKey]
    exact before.current
  · intro id gone
    change id ∉ client.pairwise ∧ (id, client.groupKey) ∉ h.wrapped
    rw [stored, sameKey, AList.mem_insert]
    obtain ⟨absent, unwrapped⟩ := before.gone id gone
    refine ⟨?_, unwrapped⟩
    rintro (rfl | member)
    · exact present gone
    · exact absent member

theorem HostLog.clear_insert {key : Key} (clear : h.Clear key) (fromID : ParticipantID)
    (pairwise : Key) (id : ParticipantID)
    (absent : id ∉ h.endpoint.client.pairwise.insert fromID pairwise) :
    (id, key) ∉ h.wrapped :=
  clear id (fun member => absent ((AList.mem_insert _).mpr (Or.inr member)))

theorem HostLog.sound_mint (before : h.Sound) (leaver : ParticipantID)
    (leaving : h.leaving = some leaver) (forgotten : leaver ∉ h.endpoint.client.pairwise)
    (newKey : Key) (fresh : newKey ∉ h.minted) (outs : List (ParticipantID × GroupKey prim))
    (members : ∀ out ∈ outs, out.1 ∈ h.endpoint.client.pairwise) :
    HostLog.Sound
      { h with
        endpoint := { h.endpoint with reader := .distributing newKey outs }
        minted := h.minted ++ [newKey]
        wrapped := h.wrapped ++ outs.map (fun out => (out.1, newKey)) } := by
  have toMember : ∀ entry ∈ outs.map (fun out => (out.1, newKey)),
      entry.1 ∈ h.endpoint.client.pairwise ∧ entry.2 = newKey := by
    intro entry made
    obtain ⟨out, present, same⟩ := List.mem_map.mp made
    rw [← same]
    exact ⟨members out present, rfl⟩
  refine
    { before with
      known := ?_
      current := List.mem_append_left _ before.current
      reader := ⟨leaver, leaving, forgotten, List.mem_append_right _ (List.mem_singleton_self _),
        ?_⟩
      gone := ?_ }
  · intro entry wrapped
    rcases List.mem_append.mp wrapped with earlier | now
    · exact List.mem_append_left _ (before.known entry earlier)
    · rw [(toMember entry now).2]
      exact List.mem_append_right _ (List.mem_singleton_self _)
  · intro id absent wrapped
    rcases List.mem_append.mp wrapped with earlier | now
    · exact fresh (before.known (id, newKey) earlier)
    · exact absent (toMember (id, newKey) now).1
  · intro id gone
    obtain ⟨absent, unwrapped⟩ := before.gone id gone
    refine ⟨absent, fun wrapped => ?_⟩
    rcases List.mem_append.mp wrapped with earlier | now
    · exact unwrapped earlier
    · exact absent (toMember _ now).1

theorem HostLog.sound_gone (before : h.Sound) (leaver : ParticipantID)
    (forgotten : leaver ∉ h.endpoint.client.pairwise) (client : Client)
    (same : client.isHost = h.endpoint.client.isHost ∧
      client.haveHostPairwise = h.endpoint.client.haveHostPairwise ∧
      client.rekeyJoiner = h.endpoint.client.rekeyJoiner ∧
      client.pairwise = h.endpoint.client.pairwise)
    (known : client.groupKey ∈ h.minted) (clear : h.Clear client.groupKey) :
    HostLog.Sound
      { h with
        endpoint := { h.endpoint with client := client, reader := .idle }
        gone := h.gone ++ [leaver] } := by
  obtain ⟨sameHost, sameHave, sameJoiner, samePairwise⟩ := same
  refine
    { isHost := sameHost.trans before.isHost
      noHostPairwise := sameHave.trans before.noHostPairwise
      noJoiner := sameJoiner.trans before.noJoiner
      known := before.known
      current := known
      reader := ?_
      gone := ?_ }
  · intro id absent
    exact clear id (samePairwise ▸ absent)
  · intro id gone
    change id ∉ client.pairwise ∧ (id, client.groupKey) ∉ h.wrapped
    rw [samePairwise]
    rcases List.mem_append.mp gone with earlier | now
    · have absent := (before.gone id earlier).1
      exact ⟨absent, clear id absent⟩
    · rw [List.mem_singleton.mp now]
      exact ⟨forgotten, clear leaver forgotten⟩

theorem HostLog.sound_advance (before : h.Sound) (outcome : Outcome)
    (dependable : Dependable h (.advance outcome))
    (stepped : h.step (.advance outcome) = some next) : next.Sound := by
  obtain ⟨nonces, written, newKey, minted, fresh⟩ := dependable
  obtain ⟨nonce, noncesGiven⟩ := Option.isSome_iff_exists.mp nonces
  have keyGiven : outcome.key = some newKey := minted
  have there := before.reader
  simp only [HostLog.step, Endpoint.step, Option.bind_eq_bind, Option.bind_eq_some_iff] at stepped
  obtain ⟨⟨endpoint, outputs⟩, advanced, same⟩ := stepped
  simp only [Option.some.injEq] at same
  subst same
  simp only [HostLog.ReaderSound] at there
  unfold Endpoint.advance at advanced
  generalize reader : h.endpoint.reader = place at advanced there
  cases place with
  | idle => cases advanced
  | stopped => cases advanced
  | departed =>
      obtain ⟨leaver, leaving, forgotten, whenAlone⟩ := there
      have done : h.leaving.toList = [leaver] := by rw [leaving]; rfl
      by_cases alone : h.endpoint.client.pairwise.entries = []
      · simp only [Client.rekeyAfterLeave_of_alone alone, Option.some.injEq,
          Prod.mk.injEq] at advanced
        obtain ⟨rfl, _⟩ := advanced
        simp only [Endpoint.mints, Endpoint.wraps, reader,
          Client.rekeyAfterLeave_of_alone alone, Option.map_none, Option.toList_none,
          List.append_nil, Reader.isIdle, if_true, done]
        exact HostLog.sound_gone before leaver forgotten h.endpoint.client
          ⟨rfl, rfl, rfl, rfl⟩ before.current (whenAlone alone)
      · have rotates :=
          @Client.rekeyAfterLeave_of_members prim _ before.isHost alone newKey nonce
        rw [← keyGiven, ← noncesGiven] at rotates
        simp only [rotates, Option.some.injEq, Prod.mk.injEq] at advanced
        obtain ⟨rfl, _⟩ := advanced
        simp only [Endpoint.mints, Endpoint.wraps, reader, rotates, Option.map_some,
          Option.toList_some, Reader.isIdle, Bool.false_eq_true, if_false, List.append_nil]
        exact HostLog.sound_mint before leaver leaving forgotten newKey fresh _
          (fun _ => Client.mem_pairwise_of_mem_rekeyWraps)
  | distributing key outs =>
      obtain ⟨leaver, leaving, forgotten, known, clear⟩ := there
      have done : h.leaving.toList = [leaver] := by rw [leaving]; rfl
      have quiet : h.endpoint.mints outcome = [] ∧ h.endpoint.wraps outcome = [] := by
        simp only [Endpoint.mints, Endpoint.wraps, reader, and_self]
      simp only [Endpoint.distribute] at advanced
      rw [quiet.1, quiet.2, List.append_nil, List.append_nil]
      split at advanced
      · cases advanced
        simp only [Reader.isIdle, if_true, done]
        exact HostLog.sound_gone before leaver forgotten (h.endpoint.client.swapKey key)
          ⟨rfl, rfl, rfl, rfl⟩ known clear
      · obtain ⟨out, _, wrote⟩ := Option.map_eq_some_iff.mp advanced
        simp only [Endpoint.writeThen, written, if_true, Prod.mk.injEq] at wrote
        obtain ⟨rfl, _⟩ := wrote
        simp only [Reader.isIdle, Bool.false_eq_true, if_false, List.append_nil]
        exact HostLog.sound_of_reader before _ _ _ (fun _ member => member)
          ⟨leaver, leaving, forgotten, known, clear⟩
  | admitting fromID spectate pairwise flight2 | readmitting fromID pairwise flight2 =>
      obtain ⟨none, present, clear⟩ := there
      cases advanced
      simp only [Endpoint.mints, Endpoint.wraps, reader, List.append_nil, Reader.isIdle,
        Bool.false_eq_true, if_false]
      exact HostLog.sound_store before fromID present _ _ pairwise rfl ⟨rfl, rfl, rfl, rfl⟩
        ⟨none, (AList.mem_insert _).mpr (Or.inl rfl), rfl, HostLog.clear_insert clear fromID pairwise⟩
  | admitReply fromID role pairwise flight2 key
  | readmitReply fromID pairwise flight2 key =>
      obtain ⟨none, present, same, clear⟩ := there
      simp only [Endpoint.writeThen, written, if_true] at advanced
      cases advanced
      simp only [Endpoint.mints, Endpoint.wraps, reader, List.append_nil, Reader.isIdle,
        Bool.false_eq_true, if_false]
      exact HostLog.sound_of_reader before _ _ _ (fun _ member => member)
        ⟨none, present, same, clear⟩
  | admitKey fromID role pairwise key =>
      obtain ⟨none, present, rfl, clear⟩ := there
      simp only [Endpoint.wrapThen, noncesGiven, Endpoint.writeThen, written, if_true] at advanced
      cases advanced
      simp only [Endpoint.mints, Endpoint.wraps, reader, nonces, if_true, List.append_nil,
        Reader.isIdle, Bool.false_eq_true, if_false]
      exact HostLog.sound_wrap before fromID present clear _ (fun _ clearAfter => ⟨none, clearAfter⟩)
  | admitted fromID role =>
      obtain ⟨none, clear⟩ := there
      cases advanced
      simp only [Endpoint.mints, Endpoint.wraps, reader, List.append_nil, Reader.isIdle, if_true,
        none, Option.toList_none]
      exact HostLog.sound_of_reader before _ _ _ (fun _ member => member) clear
  | readmitKey fromID pairwise key =>
      obtain ⟨none, present, rfl, clear⟩ := there
      simp only [Endpoint.wrapThen, noncesGiven, Endpoint.writeThen, written, if_true] at advanced
      cases advanced
      have unleft : h.leaving.toList = [] := by rw [none]; rfl
      simp only [Endpoint.mints, Endpoint.wraps, reader, nonces, if_true, List.append_nil,
        Reader.isIdle, unleft]
      exact HostLog.sound_wrap before fromID present clear .idle (fun _ clearAfter => clearAfter)
  | _ => exact there.elim

theorem HostLog.sound_receive (before : h.Sound) (frame : Received prim β) (seed : Bytes)
    (survivor : LeavesSurvivor h (.receive frame seed))
    (stepped : h.step (.receive frame seed) = some next) : next.Sound := by
  have there := before.reader
  simp only [HostLog.ReaderSound] at there
  simp only [HostLog.step, Endpoint.step, Option.bind_eq_bind, Option.bind_eq_some_iff] at stepped
  obtain ⟨⟨endpoint, outputs⟩, received, same⟩ := stepped
  simp only [Option.some.injEq] at same
  subst same
  have fewer : ∀ id ∈ h.gone.filter (fun id => frame.handshaker ≠ some id), id ∈ h.gone :=
    fun id member => (List.mem_filter.mp member).1
  cases reader : h.endpoint.reader with
  | idle =>
      rw [reader] at there
      simp only [Endpoint.receive, reader, Option.some.injEq, Prod.mk.injEq] at received
      obtain ⟨rfl, _⟩ := received
      cases frame with
      | participantLeft id =>
          exact HostLog.sound_left before reader id (survivor id rfl) _ fewer
      | direct fromID payload =>
          exact HostLog.sound_payload before reader fromID payload seed _ (Or.inl rfl)
      | broadcast fromID payload =>
          exact HostLog.sound_payload before reader fromID payload seed _ (Or.inr rfl)
      | participantJoined id => exact HostLog.sound_of_reader before .idle _ _ fewer there
      | sessionClosed reason => exact HostLog.sound_of_reader before .stopped _ _ fewer there
      | other => exact HostLog.sound_of_reader before .idle _ _ fewer there
  | joining j pairwise =>
      rw [reader] at there
      exact there.elim
  | _ => simp [Endpoint.receive, reader] at received

theorem HostLog.sound_call (before : h.Sound) (toID : Option ParticipantID) (serviceID : String)
    (body : β) (nonce : Option Nonce)
    (stepped : h.step (.call toID serviceID body nonce) = some next) : next.Sound := by
  simp only [HostLog.step, Endpoint.step, Option.bind_eq_bind, Option.bind_some,
    Option.some.injEq, Endpoint.call] at stepped
  subst stepped
  obtain ⟨seqs, changed⟩ := @Client.sealEnvelope_fields prim β h.endpoint.client serviceID body nonce
  rw [changed]
  exact { before with }

theorem HostLog.sound_write (before : h.Sound) (index : Nat) (written : Bool)
    (stepped : h.step (.write index written) = some next) : next.Sound := by
  simp only [HostLog.step, Endpoint.step, Endpoint.write, Option.bind_eq_bind,
    Option.bind_eq_some_iff, Option.map_eq_some_iff] at stepped
  obtain ⟨⟨endpoint, outputs⟩, ⟨sent, _, wrote⟩, same⟩ := stepped
  cases same
  cases wrote
  exact { before with }

theorem HostLog.sound_step (h : HostLog prim β) (action : Action prim β) (next : HostLog prim β)
    (before : h.Sound) (permitted : Dependable h action ∧ LeavesSurvivor h action)
    (stepped : h.step action = some next) : next.Sound := by
  cases action with
  | receive frame seed => exact HostLog.sound_receive before frame seed permitted.2 stepped
  | advance outcome => exact HostLog.sound_advance before outcome permitted.1 stepped
  | call toID serviceID body nonce =>
      exact HostLog.sound_call before toID serviceID body nonce stepped
  | write index written => exact HostLog.sound_write before index written stepped

/-! ### Leavers are locked out -/

/-- In every run in which nobody with a pairwise key leaves alone, a message is
sealed only under keys that were never wrapped to anyone gone. -/
theorem leavers_locked_out (proto phraseC : Bytes) (sid : SessionID) (policy : RolePolicy)
    (observer : Bool) (id : ParticipantID) (key : Key) (actions : List (Action prim β))
    (permitted : Along HostLog.step (fun h action => Dependable h action ∧ LeavesSurvivor h action)
      (HostLog.start (dial proto sid phraseC policy observer) id key) actions) :
    Along HostLog.step LockedOut
      (HostLog.start (dial proto sid phraseC policy observer) id key) actions := by
  refine Along.of_invariant HostLog.sound_step ?_ (HostLog.start_sound _ rfl rfl id key) permitted
  intro h action sound _
  cases action with
  | call toID serviceID body nonce => exact fun id gone => (sound.gone id gone).2
  | _ => trivial

def handshakeFrom (id : ParticipantID) : List (Action symbolic Unit) :=
  [.receive (.direct id (.pake1 { data := [], spectate := false })) [],
    .advance (success 1), .advance (success 1), .advance (success 1), .advance (success 1)]

def sampleHost : HostLog symbolic Unit :=
  HostLog.start (dial [] (Vector.replicate 16 0) [] defaultRolePolicy false) 1 (sampleKey 0)

/-- Participants 2 and 3 join and 2 leaves: the key is rotated to 3. -/
def rotatedRun : List (Action symbolic Unit) :=
  handshakeFrom 2 ++ handshakeFrom 3 ++
    [.receive (.participantLeft 2) [], .advance (success 1), .advance (success 2),
      .advance (success 2), .call none "chat" () (some (Vector.replicate 24 0))]

theorem rotatedRun_locks_out :
    (∃ h, run HostLog.step sampleHost rotatedRun = some h ∧ h.gone = [2] ∧
        (2, sampleKey 0) ∈ h.wrapped ∧ h.endpoint.client.groupKey = sampleKey 1) ∧
      Along HostLog.step LockedOut sampleHost rotatedRun := by
  have finished : (run HostLog.step sampleHost rotatedRun).any
      (fun h => decide (h.gone = [2] ∧ (2, sampleKey 0) ∈ h.wrapped ∧
        h.endpoint.client.groupKey = sampleKey 1)) = true := by
    decide +kernel
  have permitted : Along HostLog.step
      (fun h action => Dependable h action ∧ LeavesSurvivor h action) sampleHost rotatedRun := by
    decide +kernel
  obtain ⟨h, reached, facts⟩ := (Option.any_eq_true _ _).mp finished
  exact ⟨⟨h, reached, of_decide_eq_true facts⟩,
    leavers_locked_out [] [] (Vector.replicate 16 0) defaultRolePolicy false 1 (sampleKey 0)
      rotatedRun permitted⟩

/-- The only member leaves: nothing is rotated, and the host goes on sealing
under the key it wrapped to that member. -/
def lastMemberLeaves : List (Action symbolic Unit) :=
  handshakeFrom 2 ++
    [.receive (.participantLeft 2) [], .advance (success 1),
      .call none "chat" () (some (Vector.replicate 24 0))]

theorem last_leaver_keeps_key :
    ¬∀ (prim : Primitives) (proto phraseC : Bytes) (sid : SessionID) (policy : RolePolicy)
      (observer : Bool) (id : ParticipantID) (key : Key) (actions : List (Action prim Unit)),
      Along HostLog.step Dependable
          (HostLog.start (dial proto sid phraseC policy observer) id key) actions →
        Along HostLog.step LockedOut
          (HostLog.start (dial proto sid phraseC policy observer) id key) actions := by
  intro claimed
  have dependable : Along HostLog.step Dependable sampleHost lastMemberLeaves := by
    decide +kernel
  have exposed : ¬Along HostLog.step LockedOut sampleHost lastMemberLeaves := by
    decide +kernel
  exact exposed (claimed symbolic [] [] (Vector.replicate 16 0) defaultRolePolicy false 1
    (sampleKey 0) lastMemberLeaves dependable)

end Parley.Session
