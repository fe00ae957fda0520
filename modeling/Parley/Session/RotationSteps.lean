/-
The steps of the rotation protocol.

First what one step of the host, and one step of a member, does to the relation
`Follows`; then that every step of the whole session keeps `World.Sane`.
-/

import Parley.Library.AssocList
import Parley.Session.RotationInvariant

namespace Parley.Session

open Crypto Library
open Wire (Bytes ParticipantID SessionID)

variable {prim : Primitives} {β : Type}

variable {outputs : List (Output prim β)} {pairwise key newKey : Key} {fromID : ParticipantID}
  {c : Client} {payload : Payload prim β}

theorem Client.sealEnvelope_sealed {serviceID : String} {body : β} {nonce : Option Nonce}
    (made : (c.sealEnvelope serviceID body nonce).2 = some payload) :
    ∃ sf, payload = .sealed sf ∧ SealedUnder prim c.sid c.self c.groupKey sf := by
  unfold Client.sealEnvelope at made
  split at made
  · cases made
  · obtain ⟨drawn, _, rfl⟩ := Option.map_eq_some_iff.mp made
    exact ⟨_, rfl, _, drawn, rfl⟩

theorem Endpoint.call_eq (E : Endpoint prim β) (toID : Option ParticipantID) (serviceID : String)
    (body : β) (nonce : Option Nonce) :
    ∃ seqs calls, E.call toID serviceID body nonce =
        { E with
          client := { E.client with seqs := seqs }
          calls := calls } ∧
      ∀ sent ∈ calls, sent ∈ E.calls ∨ ∃ sf, SendsSealed sf sent ∧
        SealedUnder prim E.client.sid E.client.self E.client.groupKey sf := by
  obtain ⟨seqs, same⟩ := @Client.sealEnvelope_fields prim β E.client serviceID body nonce
  refine ⟨seqs, (E.call toID serviceID body nonce).calls, ?_, fun sent member => ?_⟩
  · simp only [Endpoint.call, same]
  · simp only [Endpoint.call, List.mem_append, Option.mem_toList, Option.map_eq_some_iff] at member
    rcases member with old | ⟨payload, made, rfl⟩
    · exact Or.inl old
    · obtain ⟨sf, rfl, under⟩ := Client.sealEnvelope_sealed made
      refine Or.inr ⟨sf, ?_, under⟩
      cases toID with
      | none => exact Or.inr rfl
      | some id => exact Or.inl ⟨id, rfl⟩

section

variable {sid : SessionID} {host : ParticipantID} {used : List ParticipantID}
  {H H' : Endpoint prim β} {minted minted' : List Key}

/-- What a step of the host guarantees: it is in order afterwards, its posts are,
and whoever followed it still does. -/
structure HostStep (sid : SessionID) (host : ParticipantID) (used : List ParticipantID)
    (H : Endpoint prim β) (minted : List Key) (H' : Endpoint prim β) (minted' : List Key)
    (posts : List (Sent prim β)) : Prop where
  ok : HostOk sid host used H' minted'
  posted : ∀ sent ∈ posts, Posted sid host used host sent
  follows : ∀ id, id ≠ host → ∀ E installed down up,
    Follows sid host H minted id E installed down up →
      Follows sid host H' minted' id E installed
        (down ++ posts.filterMap (fun sent => carry host sent id)) up

theorem HostStep.of_quiet (ok : HostOk sid host used H' minted')
    (samePairwise : H'.client.pairwise = H.client.pairwise)
    (sameAdmitting : ∀ id, H'.reader.isAdmitting id = H.reader.isAdmitting id)
    (sameState : ∀ id, hostState H' minted' id = hostState H minted id) :
    HostStep sid host used H minted H' minted' [] := by
  refine
    { ok := ok
      posted := List.forall_mem_nil _
      follows := fun id _ E installed down up follows => ?_ }
  rw [List.filterMap_nil, List.append_nil]
  exact follows.host_quiet (by rw [samePairwise]) (sameAdmitting id) (sameState id)

theorem HostStep.of_direct {toID : ParticipantID}
    (ok : HostOk sid host used H' minted')
    (posted : Posted sid host used host (.direct toID payload))
    (samePairwise : H'.client.pairwise = H.client.pairwise)
    (sameAdmitting : ∀ id, H'.reader.isAdmitting id = H.reader.isAdmitting id)
    (reads : Reads sid host toID (pairwiseWith H toID) (hostState H minted toID)
      (.direct host payload) (hostState H' minted' toID))
    (sameState : ∀ id, id ≠ toID → hostState H' minted' id = hostState H minted id) :
    HostStep sid host used H minted H' minted' [.direct toID payload] := by
  refine
    { ok := ok
      posted := fun sent member => List.mem_singleton.mp member ▸ posted
      follows := fun id _ E installed down up follows => ?_ }
  have samePair : H'.client.pairwise.lookup id = H.client.pairwise.lookup id := by
    rw [samePairwise]
  by_cases here : id = toID
  · subst here
    have carried : [Sent.direct id payload].filterMap (fun sent => carry host sent id) =
        [Received.direct host payload] := by
      simp [carry]
    rw [carried]
    exact follows.host_writes samePair (sameAdmitting id) _ ⟨_, reads, rfl⟩
  · have carried : [Sent.direct toID payload].filterMap (fun sent => carry host sent id) = [] := by
      simp [carry, Ne.symm here]
    rw [carried, List.append_nil]
    exact follows.host_quiet samePair (sameAdmitting id) (sameState id here)

variable {id : ParticipantID} {nonce : ParticipantID → Nonce} {outcome : Outcome}
  {flight2 : Bytes} {role : Role}

theorem hostState_of_same
    (sameLookup : H'.client.pairwise.lookup id = H.client.pairwise.lookup id)
    (sameKeying : H'.reader.isKeying id = H.reader.isKeying id)
    (sameSequence : id ∈ H.client.pairwise →
      sequenceFor H'.reader minted' id = sequenceFor H.reader minted id) :
    hostState H' minted' id = hostState H minted id := by
  have sameMember : id ∈ H'.client.pairwise ↔ id ∈ H.client.pairwise := by
    rw [← AList.lookup_isSome, ← AList.lookup_isSome, sameLookup]
  unfold hostState
  rw [sameKeying]
  by_cases stored : id ∈ H.client.pairwise
  · simp only [sameMember.mpr stored, stored, sameSequence stored]
  · rw [if_neg (fun both => stored (sameMember.mp both.1)), if_neg (fun both => stored both.1)]

theorem HostOk.with_reader (ok : HostOk sid host used H minted) (reader : Reader prim)
    (place : HostPlace sid host used { H with reader := reader }) :
    HostOk sid host used { H with reader := reader } minted :=
  { ok with place := place }

theorem mem_map_rekeyWraps :
    id ∈ (c.rekeyWraps prim newKey nonce).map Prod.fst ↔ id ∈ c.pairwise := by
  unfold Client.rekeyWraps
  rw [List.map_map]
  exact Iff.rfl

theorem nodup_map_rekeyWraps (c : Client) (newKey : Key) (nonce : ParticipantID → Nonce) :
    ((c.rekeyWraps prim newKey nonce).map Prod.fst).Nodup := by
  unfold Client.rekeyWraps
  rw [List.map_map]
  exact c.pairwise.nodupKeys

theorem rekeyWraps_wrapped (sameSid : c.sid = sid) {out : ParticipantID × GroupKey prim}
    (member : out ∈ c.rekeyWraps prim newKey nonce) :
    ∃ pairwise nonce, c.pairwise.lookup out.1 = some pairwise ∧
      out.2 = wrapGroupKey prim pairwise newKey roleNone sid out.1 nonce := by
  obtain ⟨entry, present, rfl⟩ := List.mem_map.mp member
  refine ⟨entry.2, nonce entry.1, AList.mem_lookup_iff.mpr present, ?_⟩
  rw [sameSid]

theorem HostOk.rotates (ok : HostOk sid host used H minted) (there : H.reader = .departed)
    (advanced : H.advance outcome = some (H', outputs)) :
    HostStep sid host used H minted H' minted (outputs.filterMap Output.written) := by
  have quiet : ∀ reader : Reader prim, HostPlace sid host used { H with reader := reader } →
      (∀ id, reader.isAdmitting id = false) → (∀ id, reader.isKeying id = false) →
      (∀ id ∈ H.client.pairwise, sequenceFor reader minted id = minted) →
      HostStep sid host used H minted { H with reader := reader } minted [] := by
    intro reader place notAdmitting notKeying sameSequence
    refine HostStep.of_quiet (ok.with_reader reader place) rfl ?_ ?_
    · intro id
      rw [there]
      exact notAdmitting id
    · intro id
      refine hostState_of_same (by rfl) ?_ (fun stored => ?_)
      · rw [there]
        exact notKeying id
      · rw [there]
        exact sameSequence id stored
  simp only [Endpoint.advance, there] at advanced
  unfold Client.rekeyAfterLeave at advanced
  split at advanced
  · cases advanced
    exact quiet .idle trivial (fun _ => rfl) (fun _ => rfl) (fun _ _ => rfl)
  · rename_i newKey outs minting
    cases advanced
    split at minting
    · cases minting
    · obtain ⟨_, _, wrapping⟩ := Option.bind_eq_some_iff.mp minting
      obtain ⟨nonce, _, same⟩ := Option.map_eq_some_iff.mp wrapping
      cases same
      refine quiet _ ?_ (fun _ => rfl) (fun _ => rfl) (fun id stored => ?_)
      · exact ⟨nodup_map_rekeyWraps H.client newKey nonce,
          fun out member => rekeyWraps_wrapped ok.sameSid member⟩
      · exact if_pos (mem_map_rekeyWraps.mpr stored)

theorem HostOk.distributes (ok : HostOk sid host used H minted)
    {outs : List (ParticipantID × GroupKey prim)} (there : H.reader = .distributing newKey outs)
    (written : outcome.written = true) (advanced : H.advance outcome = some (H', outputs)) :
    HostStep sid host used H minted H' (minted ++ H.reader.installs)
      (outputs.filterMap Output.written) := by
  have place := ok.place
  simp only [HostPlace, there] at place
  obtain ⟨distinct, wrapped⟩ := place
  simp only [Endpoint.advance, there, Endpoint.distribute] at advanced
  split at advanced
  · rename_i empty
    subst empty
    cases advanced
    rw [there]
    refine HostStep.of_quiet ?_ rfl (fun id => congrArg (·.isAdmitting id) there.symm) (fun id => ?_)
    · refine
        { ok with
          current := ?_
          place := trivial
          calls := fun sent member => ?_ }
      · simp [Reader.installs, Client.swapKey]
      · obtain ⟨sf, key, sends, known, made⟩ := ok.calls sent member
        exact ⟨sf, key, sends, List.mem_append_left _ known, made⟩
    · refine hostState_of_same (by rfl) (congrArg (·.isKeying id) there.symm)
        (fun _ => ?_)
      rw [there]
      simp [sequenceFor, Reader.installs]
  · rename_i some_
    obtain ⟨out, at_, same⟩ := Option.map_eq_some_iff.mp advanced
    simp only [Endpoint.writeThen, written, if_true] at same
    cases same
    have nothing : H.reader.installs = [] := by
      rw [there]
      cases outs with
      | nil => exact absurd rfl some_
      | cons first rest => rfl
    rw [nothing, List.append_nil]
    have present : out ∈ outs := List.mem_of_getElem? at_
    obtain ⟨pairwise, nonce, stored, wrap⟩ := wrapped out present
    have inPairwise : out.1 ∈ H.client.pairwise := AList.lookup_isSome.mp (by rw [stored]; rfl)
    have remaining : ∀ other ∈ outs.eraseIdx outcome.pick, other ∈ outs :=
      fun other member => List.mem_of_mem_eraseIdx member
    refine HostStep.of_direct ?_ ?_ rfl ?_ ?_ ?_
    · refine ok.with_reader _ ⟨?_, fun other member => wrapped other (remaining other member)⟩
      exact distinct.sublist ((List.eraseIdx_sublist outs outcome.pick).map Prod.fst)
    · exact Posted.key out.1 _ rfl rfl (ok.pairs out.1 inPairwise).1 (ok.pairs out.1 inPairwise).2
    · intro id
      rw [there]
      rfl
    · have before : hostState H minted out.1 = some minted := by
        unfold hostState
        rw [if_pos ⟨inPairwise, by rw [there]; rfl⟩, there]
        exact congrArg some (if_pos (List.mem_map_of_mem present))
      have after : hostState { H with
          reader := .distributing newKey (outs.eraseIdx outcome.pick) } minted out.1 =
          some (minted ++ [newKey]) := by
        unfold hostState
        rw [if_pos ⟨inPairwise, rfl⟩]
        exact congrArg some (if_neg (fst_notMem_eraseIdx distinct at_))
      have samePairwise : pairwiseWith H out.1 = pairwise := by
        unfold pairwiseWith
        rw [stored]
        rfl
      rw [before, after, samePairwise, wrap]
      exact Reads.next minted newKey nonce
    · intro id notOut
      refine hostState_of_same (by rfl) (congrArg (·.isKeying id) there.symm)
        (fun _ => ?_)
      rw [there]
      simp only [sequenceFor, fst_mem_eraseIdx_of_ne at_ notOut]

theorem HostOk.stores (ok : HostOk sid host used H minted) {spectate : Bool}
    (there : H.reader = .admitting fromID spectate pairwise flight2) (role : Role) :
    HostStep sid host used H minted
      { H with
        client := H.client.enrol fromID role pairwise
        reader := .admitReply fromID role pairwise flight2 H.client.groupKey } minted [] := by
  have place := ok.place
  simp only [HostPlace, there] at place
  refine
    { ok :=
        { ok with
          pairs := fun id member => ?_
          place := ⟨AList.lookup_insert H.client.pairwise, rfl⟩ }
      posted := List.forall_mem_nil _
      follows := fun id _ E installed down up follows => ?_ }
  · rcases (AList.mem_insert H.client.pairwise).mp member with rfl | old
    · exact place
    · exact ok.pairs id old
  · rw [List.filterMap_nil, List.append_nil]
    by_cases here : id = fromID
    · subst here
      refine follows.host_stores ?_ rfl ?_
      · rw [there]
        exact decide_eq_true rfl
      · exact decide_eq_true rfl
    · have sameLookup : (H.client.enrol fromID role pairwise).pairwise.lookup id =
          H.client.pairwise.lookup id := AList.lookup_insert_ne here
      refine follows.host_quiet sameLookup ?_ (hostState_of_same sameLookup ?_ (fun _ => ?_))
      · rw [there]
        exact (decide_eq_false (Ne.symm here)).symm
      · rw [there]
        exact decide_eq_false (Ne.symm here)
      · rw [there]
        rfl

theorem HostOk.answers (ok : HostOk sid host used H minted)
    (there : H.reader = .admitReply fromID role pairwise flight2 key) (flight : Pake) :
    HostStep sid host used H minted
      { H with reader := .admitKey fromID role pairwise key } minted
      [.direct fromID (.pake2 flight)] := by
  have place := ok.place
  simp only [HostPlace, there] at place
  have stored : fromID ∈ H.client.pairwise := AList.lookup_isSome.mp (by rw [place.1]; rfl)
  obtain ⟨known, notHost⟩ := ok.pairs fromID stored
  refine HostStep.of_direct (ok.with_reader _ place) (Posted.key fromID _ rfl rfl known notHost)
    rfl (fun id => congrArg (·.isAdmitting id) there.symm) ?_ (fun id differ => ?_)
  · have keying : ∀ reader : Reader prim, reader.isKeying fromID = true →
        hostState { H with reader := reader } minted fromID = none := by
      intro reader isKeying
      unfold hostState
      simp [isKeying]
    have before : hostState H minted fromID = none :=
      keying H.reader (by rw [there]; exact decide_eq_true rfl)
    rw [before, keying (.admitKey fromID role pairwise key) (decide_eq_true rfl)]
    exact Reads.flight flight
  · refine hostState_of_same (by rfl) ?_ (fun _ => ?_)
    · rw [there]
      rfl
    · rw [there]
      rfl

theorem HostOk.keys (ok : HostOk sid host used H minted)
    (there : H.reader = .admitKey fromID role pairwise key) (nonce : Nonce) :
    HostStep sid host used H minted { H with reader := .admitted fromID role } minted
      [.direct fromID (.groupKey (wrapGroupKey prim pairwise key role sid fromID nonce))] := by
  have place := ok.place
  simp only [HostPlace, there] at place
  obtain ⟨found, rfl⟩ := place
  have stored : fromID ∈ H.client.pairwise := AList.lookup_isSome.mp (by rw [found]; rfl)
  obtain ⟨known, notHost⟩ := ok.pairs fromID stored
  refine HostStep.of_direct (ok.with_reader _ trivial) (Posted.key fromID _ rfl rfl known notHost)
    rfl (fun id => congrArg (·.isAdmitting id) there.symm) ?_ (fun id differ => ?_)
  · obtain ⟨older, split⟩ := List.getLast?_eq_some_iff.mp ok.current
    have before : hostState H minted fromID = none := by
      unfold hostState
      rw [there]
      simp [Reader.isKeying]
    have after : hostState { H with reader := .admitted fromID role } minted fromID =
        some (older ++ [H.client.groupKey]) := by
      unfold hostState
      rw [if_pos ⟨stored, rfl⟩]
      exact congrArg some split
    have samePairwise : pairwiseWith H fromID = pairwise := by
      unfold pairwiseWith
      rw [found]
      rfl
    rw [before, after, samePairwise]
    exact Reads.first older H.client.groupKey role nonce
  · refine hostState_of_same (by rfl) ?_ (fun _ => ?_)
    · rw [there]
      exact (decide_eq_false (Ne.symm differ)).symm
    · rw [there]
      rfl

theorem HostOk.advances (ok : HostOk sid host used H minted) {outcome : Outcome}
    (wraps : outcome.nonce.isSome = true) (written : outcome.written = true)
    {outputs : List (Output prim β)} (advanced : H.advance outcome = some (H', outputs)) :
    HostStep sid host used H minted H' (minted ++ H.reader.installs)
      (outputs.filterMap Output.written) := by
  have place := ok.place
  unfold HostPlace at place
  cases there : H.reader with
  | departed =>
      simp only [Reader.installs, List.append_nil]
      exact ok.rotates there advanced
  | distributing newKey outs =>
      rw [← there]
      exact ok.distributes there written advanced
  | admitting fromID spectate pairwise flight2 =>
      simp only [Reader.installs, List.append_nil]
      simp only [Endpoint.advance, there] at advanced
      cases advanced
      exact ok.stores there _
  | admitReply fromID role pairwise flight2 key =>
      simp only [Reader.installs, List.append_nil]
      simp only [Endpoint.advance, there, Endpoint.writeThen, written, if_true] at advanced
      cases advanced
      exact ok.answers there _
  | admitKey fromID role pairwise key =>
      simp only [Reader.installs, List.append_nil]
      obtain ⟨nonce, given⟩ := Option.isSome_iff_exists.mp wraps
      simp only [Endpoint.advance, there, Endpoint.wrapThen, given, Endpoint.writeThen, written,
        if_true, ok.sameSid] at advanced
      cases advanced
      exact ok.keys there _
  | admitted fromID role =>
      simp only [Reader.installs, List.append_nil]
      simp only [Endpoint.advance, there] at advanced
      cases advanced
      refine HostStep.of_quiet (ok.with_reader .idle trivial) rfl
        (fun id => congrArg (·.isAdmitting id) there.symm) (fun id => ?_)
      refine hostState_of_same (by rfl) (congrArg (·.isKeying id) there.symm) (fun _ => ?_)
      rw [there]
      rfl
  | idle => simp [Endpoint.advance, there] at advanced
  | _ => simp [there] at place

theorem HostOk.with_calls (ok : HostOk sid host used H minted) (seqs : GoMap String UInt64)
    (calls : List (Sent prim β))
    (sealedAll : ∀ sent ∈ calls, ∃ sf key, SendsSealed sf sent ∧ key ∈ minted ∧
      SealedUnder prim sid host key sf) :
    HostOk sid host used
      { H with
        client := { H.client with seqs := seqs }
        calls := calls } minted :=
  { ok with calls := sealedAll }

theorem HostOk.seals (ok : HostOk sid host used H minted) (toID : Option ParticipantID)
    (serviceID : String) (body : β) (nonce : Option Nonce) :
    HostStep sid host used H minted (H.call toID serviceID body nonce) minted [] := by
  obtain ⟨seqs, calls, same, added⟩ := H.call_eq toID serviceID body nonce
  rw [same]
  refine HostStep.of_quiet (ok.with_calls seqs calls (fun sent member => ?_)) rfl
    (fun _ => rfl) (fun _ => rfl)
  rcases added sent member with old | ⟨sf, sends, made⟩
  · exact ok.calls sent old
  · rw [ok.sameSid, ok.self] at made
    exact ⟨sf, H.client.groupKey, sends, List.mem_of_getLast? ok.current, made⟩

theorem mem_sequenceFor (known : key ∈ minted) (reader : Reader prim) (id : ParticipantID) :
    key ∈ sequenceFor reader minted id := by
  unfold sequenceFor
  split
  · split
    · exact known
    · exact List.mem_append_left _ known
  · exact known

theorem reads_hostState {sf : SealedFrame prim (Envelope β)} {frame : Received prim β}
    (carries : Carries host sf frame) (made : SealedUnder prim sid host key sf)
    (known : key ∈ minted) :
    Reads sid host id pairwise (hostState H minted id) frame (hostState H minted id) := by
  unfold hostState
  split
  · exact Reads.sealed _ key sf carries made (mem_sequenceFor known H.reader id)
  · exact Reads.early key sf carries made

theorem HostOk.writes (ok : HostOk sid host used H minted) {index : Nat} {written : Bool}
    {outputs : List (Output prim β)} (wrote : H.write index written = some (H', outputs)) :
    HostStep sid host used H minted H' minted (outputs.filterMap Output.written) := by
  obtain ⟨calls, rfl, fewer, posts⟩ := Endpoint.write_eq wrote
  have ok' := ok.with_calls H.client.seqs calls (fun sent member => ok.calls sent (fewer sent member))
  rcases posts with none | ⟨sent, member, one⟩
  · rw [none]
    exact HostStep.of_quiet ok' rfl (fun _ => rfl) (fun _ => rfl)
  · obtain ⟨sf, key, sends, known, made⟩ := ok.calls sent member
    rw [one]
    refine
      { ok := ok'
        posted := fun other isSent =>
          List.mem_singleton.mp isSent ▸ Posted.sealed key sf sends made
        follows := fun id _ E installed down up follows => ?_ }
    refine follows.host_writes (by rfl) (by rfl) _ (Path.of_stays (fun frame delivered => ?_))
    obtain ⟨other, isSent, carried⟩ := List.mem_filterMap.mp delivered
    rw [List.mem_singleton.mp isSent] at carried
    exact reads_hostState (carry_sendsSealed sends carried) made known

structure HostTakes (sid : SessionID) (host : ParticipantID) (used : List ParticipantID)
    (minted : List Key) (sender : ParticipantID) (frame : Received prim β)
    (H H' : Endpoint prim β) : Prop where
  ok : HostOk sid host used H' minted
  others : ∀ id, id ≠ sender → ∀ E installed down up,
    Follows sid host H minted id E installed down up →
      Follows sid host H' minted id E installed down up
  sender : frame ≠ .participantLeft sender → ∀ E installed down up,
    Follows sid host H minted sender E installed down (frame :: up) →
      Follows sid host H' minted sender E installed down up

theorem Follows.skip {E : Endpoint prim β} {installed : List Key} {frame : Received prim β}
    {down up : List (Received prim β)}
    (follows : Follows sid host H minted id E installed down (frame :: up)) :
    Follows sid host H minted id E installed down up := by
  refine follows.member_quiet rfl rfl ⟨rfl, rfl⟩ rfl rfl ?_
  rw [List.countP_cons]
  omega

theorem HostTakes.of_unchanged (ok : HostOk sid host used H minted) (sender : ParticipantID)
    (frame : Received prim β) : HostTakes sid host used minted sender frame H H :=
  { ok := ok
    others := fun _ _ _ _ _ _ follows => follows
    sender := fun _ _ _ _ _ follows => follows.skip }

variable {sender : ParticipantID} {frame : Received prim β} {seed : Bytes}

theorem HostOk.forgets (ok : HostOk sid host used H minted) (there : H.reader = .idle) :
    HostTakes sid host used minted sender (.participantLeft sender) H
      { H with
        client := H.client.forget sender
        reader := .departed } := by
  refine
    { ok :=
        { ok with
          pairs := fun id member => ok.pairs id (AList.mem_erase.mp member).2
          place := trivial }
      others := fun id differ E installed down up follows => ?_
      sender := fun impossible => absurd rfl impossible }
  have sameLookup : (H.client.forget sender).pairwise.lookup id = H.client.pairwise.lookup id :=
    AList.lookup_erase_ne differ
  refine follows.host_quiet sameLookup ?_ (hostState_of_same sameLookup ?_ (fun _ => ?_))
  · rw [there]
    rfl
  · rw [there]
    rfl
  · rw [there]
    rfl

theorem HostOk.exchanges (ok : HostOk sid host used H minted) (there : H.reader = .idle)
    (known : sender ∈ used) (notHost : sender ≠ host) (p : Pake) (spectate : Bool)
    (pairwise : Key) (flight2 : Bytes) :
    HostTakes sid host used minted sender (.direct sender (.pake1 p)) H
      { H with reader := .admitting sender spectate pairwise flight2 } := by
  have sameState : ∀ id, hostState
      { H with reader := .admitting sender spectate pairwise flight2 } minted id =
        hostState H minted id := by
    intro id
    refine hostState_of_same (by rfl) ?_ (fun _ => ?_)
    · rw [there]
      rfl
    · rw [there]
      rfl
  refine
    { ok := ok.with_reader _ ⟨known, notHost⟩
      others := fun id differ E installed down up follows => ?_
      sender := fun _ E installed down up follows => ?_ }
  · refine follows.host_quiet (by rfl) ?_ (sameState id)
    rw [there]
    exact decide_eq_false (Ne.symm differ)
  · refine
      { follows with
        token := ?_
        link := follows.link.imp_right (fun ⟨older, path⟩ => ⟨older, sameState sender ▸ path⟩) }
    have before := follows.token
    have isAdmitting : (Reader.admitting sender spectate pairwise flight2 :
        Reader prim).isAdmitting sender = true := decide_eq_true rfl
    unfold tokens at before ⊢
    rw [there, List.countP_cons_of_pos rfl] at before
    rw [isAdmitting]
    simp only [Reader.isAdmitting, Bool.toNat_false, Bool.toNat_true] at before ⊢
    omega

theorem HostOk.receives (ok : HostOk sid host used H minted) (known : sender ∈ used)
    (peer : sender ≠ host → Ordinary sid host sender host frame)
    (self : sender = host → ∃ sf key, Carries host sf frame ∧ SealedUnder prim sid host key sf)
    (received : H.receive frame seed = some (H', outputs)) :
    HostTakes sid host used minted sender frame H H' ∧ outputs.filterMap Output.written = [] := by
  have sealed : ∀ sf, Carries sender sf frame →
      H.reader = .idle → HostTakes sid host used minted sender frame H H' ∧
        outputs.filterMap Output.written = [] := by
    intro sf carries there
    obtain ⟨events, same⟩ := dispatchFrame_of_carries carries H.client seed
    simp only [Endpoint.receive, there, same, Option.some.injEq, Prod.mk.injEq] at received
    obtain ⟨rfl, rfl⟩ := received
    rw [← there]
    exact ⟨HostTakes.of_unchanged ok sender frame, filterMap_written_emitted events⟩
  have place := ok.place
  unfold HostPlace at place
  cases there : H.reader with
  | idle =>
      by_cases isSelf : sender = host
      · obtain ⟨sf, key, carries, _⟩ := self isSelf
        exact sealed sf (isSelf ▸ carries) there
      · cases peer isSelf with
        | sealed key sf carries made => exact sealed sf carries there
        | joined =>
            simp only [Endpoint.receive, there, Client.dispatchFrame, Option.some.injEq,
              Prod.mk.injEq] at received
            obtain ⟨rfl, rfl⟩ := received
            rw [← there]
            exact ⟨HostTakes.of_unchanged ok sender _, rfl⟩
        | left =>
            simp only [Endpoint.receive, there, Client.dispatchFrame, Option.some.injEq,
              Prod.mk.injEq] at received
            obtain ⟨rfl, rfl⟩ := received
            exact ⟨ok.forgets there, rfl⟩
        | flight p _ =>
            have isHost : H.client.role = roleHost := by
              have both := ok.isHost
              simp only [Client.isHost, decide_eq_true_eq] at both
              exact both.1
            simp only [Endpoint.receive, there, Client.dispatchFrame, Client.handlePayload, isHost,
              if_true, Option.some.injEq, Prod.mk.injEq] at received
            obtain ⟨rfl, rfl⟩ := received
            cases H.client.hostExchange prim sender p seed with
            | none =>
                rw [← there]
                exact ⟨HostTakes.of_unchanged ok sender _, rfl⟩
            | some reply => exact ⟨ok.exchanges there known isSelf p p.spectate reply.1 reply.2, rfl⟩
  | joining j pairwise => simp [there] at place
  | _ => simp [Endpoint.receive, there] at received

end

/-! ### A member acts -/

section

variable {sid : SessionID} {host id : ParticipantID} {used : List ParticipantID}
  {E E' : Endpoint prim β}

structure MemberStep (sid : SessionID) (host : ParticipantID) (used : List ParticipantID)
    (id : ParticipantID) (E E' : Endpoint prim β) (keys : List Key) (posts : List (Sent prim β)) :
    Prop where
  ok : MemberOk sid host id E'
  calls : CallsSealed sid id E'.calls
  posted : ∀ sent ∈ posts, Posted sid host used id sent
  follows : ∀ H minted installed down up, Follows sid host H minted id E installed down up →
    Follows sid host H minted id E' (installed ++ keys) down
      (up ++ posts.filterMap (fun sent => carry id sent host))

theorem MemberStep.of_quiet (ok : MemberOk sid host id E') (calls : CallsSealed sid id E'.calls)
    (sameKeyed : E'.client.keyed = E.client.keyed)
    (sameKey : E'.client.groupKey = E.client.groupKey)
    (samePairwise : E'.client.haveHostPairwise = E.client.haveHostPairwise ∧
      E'.client.hostPairwise = E.client.hostPairwise)
    (sameInstalls : E'.reader.installs = E.reader.installs)
    (sameFailed : E'.reader.isFailed = E.reader.isFailed)
    (sameGreeting : E'.reader.isGreeting = E.reader.isGreeting) :
    MemberStep sid host used id E E' [] [] := by
  refine
    { ok := ok
      calls := calls
      posted := List.forall_mem_nil _
      follows := fun H minted installed down up follows => ?_ }
  rw [List.filterMap_nil, List.append_nil, List.append_nil]
  refine follows.member_quiet sameKeyed sameKey samePairwise sameInstalls sameFailed ?_
  rw [sameGreeting]

theorem MemberOk.greets (ok : MemberOk sid host id E) (calls : CallsSealed sid id E.calls)
    (notHost : id ≠ host) {j : Joiner} (there : E.reader = .greeting j) (p : Pake) :
    MemberStep sid host used id E { E with reader := .joining j none } []
      [.direct host (.pake1 p)] := by
  have place := ok.place
  rw [there] at place
  refine
    { ok := ⟨ok.self, ok.hostID, ok.sid, place⟩
      calls := calls
      posted := fun sent member => List.mem_singleton.mp member ▸ Posted.flight p notHost
      follows := fun H minted installed down up follows => ?_ }
  have carried : [Sent.direct host (.pake1 p)].filterMap
      (fun sent : Sent prim β => carry id sent host) = [.direct id (.pake1 p)] := by
    simp [carry]
  rw [carried, List.append_nil]
  refine follows.member_quiet rfl rfl ⟨rfl, rfl⟩ ?_ ?_ ?_
  · rw [there]
    rfl
  · rw [there]
    rfl
  · rw [there, List.countP_append]
    have one : [(.direct id (.pake1 p) : Received prim β)].countP Received.isFlight = 1 := rfl
    rw [one]
    simp only [Reader.isGreeting, Bool.toNat_true, Bool.toNat_false]
    omega

theorem MemberOk.advances (ok : MemberOk sid host id E) (calls : CallsSealed sid id E.calls)
    (notHost : id ≠ host) {outcome : Outcome} (written : outcome.written = true)
    {outputs : List (Output prim β)} (advanced : E.advance outcome = some (E', outputs)) :
    MemberStep sid host used id E E' E.reader.installs (outputs.filterMap Output.written) := by
  have place := ok.place
  cases there : E.reader with
  | greeting j =>
      simp only [Endpoint.advance, there, Endpoint.writeThen, written, if_true, ok.hostID]
        at advanced
      cases advanced
      exact ok.greets calls notHost there _
  | departed =>
      -- a member is not the host, so nothing is rotated
      have quiet : E.client.isHost = false := by
        unfold Client.isHost
        rw [ok.hostID, ok.self]
        exact decide_eq_false (fun both => notHost both.2.symm)
      simp only [Endpoint.advance, there, Client.rekeyAfterLeave_of_not_host quiet] at advanced
      cases advanced
      rw [there] at place
      refine MemberStep.of_quiet ⟨ok.self, ok.hostID, ok.sid, place⟩ calls rfl rfl ⟨rfl, rfl⟩
        ?_ ?_ ?_
      · rw [there]
        rfl
      · rw [there]
        rfl
      · rw [there]
        rfl
  | installing key role =>
      rw [there] at place
      have keyed : E.client.keyed = true := place
      simp only [Endpoint.advance, there] at advanced
      cases advanced
      have fields : (E.client.install key role).self = E.client.self ∧
          (E.client.install key role).hostID = E.client.hostID ∧
          (E.client.install key role).sid = E.client.sid ∧
          (E.client.install key role).keyed = E.client.keyed := by
        unfold Client.install
        split <;> exact ⟨rfl, rfl, rfl, rfl⟩
      obtain ⟨sameSelf, sameHost, sameSid, sameKeyed⟩ := fields
      refine
        { ok := ⟨sameSelf.trans ok.self, sameHost.trans ok.hostID, sameSid.trans ok.sid,
            sameKeyed.trans keyed⟩
          calls := calls
          posted := List.forall_mem_nil _
          follows := fun H minted installed down up follows => ?_ }
      simp only [List.filterMap_nil, List.append_nil]
      exact follows.member_installs keyed there
  | joining j pairwise | failed | idle => simp [Endpoint.advance, there] at advanced
  | _ => simp [there, Reader.memberPlace] at place

theorem MemberOk.seals (ok : MemberOk sid host id E) (calls : CallsSealed sid id E.calls)
    (toID : Option ParticipantID) (serviceID : String) (body : β) (nonce : Option Nonce) :
    MemberStep sid host used id E (E.call toID serviceID body nonce) [] [] := by
  obtain ⟨seqs, sealedCalls, same, added⟩ := E.call_eq toID serviceID body nonce
  rw [same]
  refine MemberStep.of_quiet ⟨ok.self, ok.hostID, ok.sid, ok.place⟩ (fun sent member => ?_)
    rfl rfl ⟨rfl, rfl⟩ rfl rfl rfl
  rcases added sent member with old | ⟨sf, sends, made⟩
  · exact calls sent old
  · rw [ok.sid, ok.self] at made
    exact ⟨sf, E.client.groupKey, sends, made⟩

theorem MemberOk.writes (ok : MemberOk sid host id E) (calls : CallsSealed sid id E.calls)
    {index : Nat} {written : Bool} {outputs : List (Output prim β)}
    (wrote : E.write index written = some (E', outputs)) :
    MemberStep sid host used id E E' [] (outputs.filterMap Output.written) := by
  obtain ⟨fewer, rfl, still, posts⟩ := Endpoint.write_eq wrote
  have ok' : MemberOk sid host id { E with calls := fewer } :=
    ⟨ok.self, ok.hostID, ok.sid, ok.place⟩
  have calls' : CallsSealed sid id fewer := fun sent member => calls sent (still sent member)
  rcases posts with none | ⟨sent, member, one⟩
  · rw [none]
    exact MemberStep.of_quiet ok' calls' rfl rfl ⟨rfl, rfl⟩ rfl rfl rfl
  · obtain ⟨sf, key, sends, made⟩ := calls sent member
    rw [one]
    refine
      { ok := ok'
        calls := calls'
        posted := fun other isSent =>
          List.mem_singleton.mp isSent ▸ Posted.sealed key sf sends made
        follows := fun H minted installed down up follows => ?_ }
    rw [List.append_nil]
    refine follows.member_quiet rfl rfl ⟨rfl, rfl⟩ rfl rfl ?_
    rw [List.countP_append]
    have noFlight : ([sent].filterMap (fun sent => carry id sent host)).countP
        Received.isFlight = 0 := by
      refine List.countP_eq_zero.mpr (fun frame delivered => ?_)
      obtain ⟨other, isSent, carried⟩ := List.mem_filterMap.mp delivered
      rw [List.mem_singleton.mp isSent] at carried
      rcases carry_sendsSealed sends carried with rfl | rfl <;> exact Bool.false_ne_true
    rw [noFlight]
    exact le_refl _

end

end Parley.Session
