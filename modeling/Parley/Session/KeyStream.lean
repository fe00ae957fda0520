/-
What a member reads on the stream from its host.

The state of a reader is the host's key sequence up to the key it holds, or
nothing before its first key.  `Reads` says which message takes it from one
state to the next; a sealed frame must be under a key the reader already has in
its sequence.  `Follows` relates a member, the host and the two streams between
them: reading everything under way brings the member to the host's sequence.
-/

import Parley.Library.Run
import Parley.Session.Endpoint

namespace Parley.Session

open Crypto Library
open Wire (Bytes ParticipantID SessionID)

variable {prim : Primitives} {β : Type}

def SealedUnder (prim : Primitives) (sid : SessionID) (sender : ParticipantID) (key : Key)
    (sf : SealedFrame prim (Envelope β)) : Prop :=
  ∃ env nonce, sf = sealFrame prim key env sid sender nonce

def Carries (sender : ParticipantID) (sf : SealedFrame prim (Envelope β))
    (frame : Received prim β) : Prop :=
  frame = .direct sender (.sealed sf) ∨ frame = .broadcast sender (.sealed sf)

variable {pairwise key : Key} {sf : SealedFrame prim (Envelope β)}
  {frames : List (Received prim β)} {sender : ParticipantID}

theorem dispatchFrame_of_carries {frame : Received prim β} (carries : Carries sender sf frame)
    (c : Client) (seed : Bytes) :
    ∃ events, c.dispatchFrame frame seed = (c, .idle, events) := by
  have handled : ∃ events, c.handlePayload sender (.sealed sf) seed = (.idle, events) := by
    simp only [Client.handlePayload]
    split
    · exact ⟨_, rfl⟩
    · exact ⟨_, rfl⟩
  obtain ⟨events, same⟩ := handled
  rcases carries with rfl | rfl <;> exact ⟨events, congrArg (Prod.mk c) same⟩

def Received.isFlight : Received prim β → Bool
  | .direct _ (.pake1 _) => true
  | _ => false

/-- How the host's messages change what a member has of the key sequence. -/
inductive Reads (sid : SessionID) (host id : ParticipantID) (pairwise : Key) :
    Option (List Key) → Received prim β → Option (List Key) → Prop where
  | flight (p : Pake) : Reads sid host id pairwise none (.direct host (.pake2 p)) none
  | early {frame : Received prim β} (key : Key) (sf : SealedFrame prim (Envelope β))
      (carries : Carries host sf frame) (made : SealedUnder prim sid host key sf) :
      Reads sid host id pairwise none frame none
  | first (older : List Key) (key : Key) (role : Role) (nonce : Nonce) :
      Reads sid host id pairwise none
        (.direct host (.groupKey (wrapGroupKey prim pairwise key role sid id nonce)))
        (some (older ++ [key]))
  | next (held : List Key) (key : Key) (nonce : Nonce) :
      Reads sid host id pairwise (some held)
        (.direct host (.rekey (wrapGroupKey prim pairwise key roleNone sid id nonce)))
        (some (held ++ [key]))
  | sealed {frame : Received prim β} (held : List Key) (key : Key)
      (sf : SealedFrame prim (Envelope β)) (carries : Carries host sf frame)
      (made : SealedUnder prim sid host key sf) (known : key ∈ held) :
      Reads sid host id pairwise (some held) frame (some held)

variable {state next : Option (List Key)} {final held : List Key} {role : Role}

theorem Reads.isSome {sid : SessionID} {host id : ParticipantID} {frame : Received prim β}
    (read : Reads sid host id pairwise state frame next) (has : state.isSome) : next.isSome := by
  cases read with
  | next held key nonce => rfl
  | sealed held key sf carries made known => rfl
  | _ => cases has

theorem path_isSome {sid : SessionID} {host id : ParticipantID} {final : Option (List Key)}
    (path : Path (Reads sid host id pairwise) state frames final) (has : state.isSome) :
    final.isSome := by
  induction frames generalizing state with
  | nil =>
      cases path
      exact has
  | cons frame rest ih =>
      obtain ⟨next, read, tail⟩ := path
      exact ih tail (read.isSome has)

theorem path_change_pairwise {sid : SessionID} {host id : ParticipantID}
    (path : Path (Reads sid host id pairwise) none frames none) (other : Key) :
    Path (Reads sid host id other) none frames none := by
  induction frames with
  | nil => exact path
  | cons frame rest ih =>
      obtain ⟨next, read, tail⟩ := path
      cases read with
      | flight p => exact ⟨none, Reads.flight p, ih tail⟩
      | early key sf carries made => exact ⟨none, Reads.early key sf carries made, ih tail⟩
      | first older key role nonce =>
          have impossible := path_isSome tail rfl
          cases impossible

def Received.rekeyedTo (sid : SessionID) (id : ParticipantID) (pairwise : Key) :
    Received prim β → Option Key
  | .direct _ (.rekey gk) => (unwrapGroupKey prim pairwise gk sid id).map Prod.fst
  | _ => none

theorem rekeyedTo_of_carries {frame : Received prim β} (carries : Carries sender sf frame)
    (sid : SessionID) (id : ParticipantID) (pairwise : Key) :
    frame.rekeyedTo sid id pairwise = none := by
  rcases carries with rfl | rfl <;> rfl

theorem path_final_eq (ideal : prim.Ideal) {sid : SessionID} {host id : ParticipantID}
    (path : Path (Reads sid host id pairwise) (some held) frames (some final)) :
    final = held ++ frames.filterMap (Received.rekeyedTo sid id pairwise) := by
  induction frames generalizing held with
  | nil =>
      cases path
      simp
  | cons frame rest ih =>
      obtain ⟨next, read, tail⟩ := path
      cases read with
      | next _ key nonce =>
          rw [ih tail]
          simp [Received.rekeyedTo, unwrapGroupKey_wrapGroupKey ideal]
      | sealed _ key sf carries made known =>
          rw [ih tail, List.filterMap_cons_none (rekeyedTo_of_carries carries sid id pairwise)]

theorem path_sealed_known (ideal : prim.Ideal) {sid : SessionID} {host id : ParticipantID}
    {before after : List (Received prim β)} {frame : Received prim β}
    (carries : Carries host sf frame)
    (path : Path (Reads sid host id pairwise) (some held) (before ++ frame :: after) (some final)) :
    ∃ key, SealedUnder prim sid host key sf ∧
      key ∈ held ++ before.filterMap (Received.rekeyedTo sid id pairwise) := by
  induction before generalizing held with
  | nil =>
      obtain ⟨next, read, tail⟩ := path
      cases read with
      | next _ key nonce => rcases carries with impossible | impossible <;> cases impossible
      | sealed _ key other carried made known =>
          have same : other = sf := by
            rcases carries with rfl | rfl <;> rcases carried with carried | carried <;>
              cases carried <;> rfl
          subst same
          exact ⟨key, made, by simpa using known⟩
  | cons first rest ih =>
      obtain ⟨next, read, tail⟩ := path
      cases read with
      | next _ key nonce =>
          obtain ⟨under, made, known⟩ := ih tail
          refine ⟨under, made, ?_⟩
          simpa [Received.rekeyedTo, unwrapGroupKey_wrapGroupKey ideal] using known
      | sealed _ key other carried made known =>
          obtain ⟨under, madeUnder, knownUnder⟩ := ih tail
          refine ⟨under, madeUnder, ?_⟩
          rw [List.filterMap_cons_none (rekeyedTo_of_carries carried sid id pairwise)]
          exact knownUnder

def Reader.isGreeting : Reader prim → Bool
  | .greeting _ => true
  | _ => false

def Reader.isFailed : Reader prim → Bool
  | .failed => true
  | _ => false

def Reader.isAdmitting (reader : Reader prim) (id : ParticipantID) : Bool :=
  match reader with
  | .admitting fromID _ _ _ => fromID = id
  | _ => false

def Reader.isKeying (reader : Reader prim) (id : ParticipantID) : Bool :=
  match reader with
  | .admitReply fromID _ _ _ _ => fromID = id
  | .admitKey fromID _ _ _ => fromID = id
  | _ => false

def sequenceFor (reader : Reader prim) (minted : List Key) (id : ParticipantID) : List Key :=
  match reader with
  | .distributing newKey outs => if id ∈ outs.map Prod.fst then minted else minted ++ [newKey]
  | _ => minted

/-- The state a member reaches by reading everything the host has written. -/
def hostState (H : Endpoint prim β) (minted : List Key) (id : ParticipantID) :
    Option (List Key) :=
  if id ∈ H.client.pairwise ∧ H.reader.isKeying id = false then
    some (sequenceFor H.reader minted id)
  else none

/-- The state of a member, given the keys that are older than its first one. -/
def memberState (E : Endpoint prim β) (older installed : List Key) : Option (List Key) :=
  if E.client.keyed then some (older ++ installed ++ E.reader.installs) else none

def pairwiseWith (H : Endpoint prim β) (id : ParticipantID) : Key :=
  (H.client.pairwise.lookup id).getD zeroKey

/-- A member's handshake flight is in one place: not written, under way, in the
host's handler, or answered. -/
def tokens (H E : Endpoint prim β) (id : ParticipantID) (up : List (Received prim β)) : Nat :=
  E.reader.isGreeting.toNat + up.countP Received.isFlight + (H.reader.isAdmitting id).toNat +
    (decide (id ∈ H.client.pairwise)).toNat

/-- The places a member's read goroutine can be in, before and after it is
keyed. -/
def Reader.memberPlace (reader : Reader prim) (keyed : Bool) : Bool :=
  match reader with
  | .greeting _ => !keyed
  | .joining _ _ => !keyed
  | .failed => !keyed
  | .idle => keyed
  | .departed => keyed
  | .installing _ _ => keyed
  | _ => false

structure MemberOk (sid : SessionID) (host id : ParticipantID) (E : Endpoint prim β) : Prop where
  self : E.client.self = id
  hostID : E.client.hostID = host
  sid : E.client.sid = sid
  place : E.reader.memberPlace E.client.keyed = true

/-- A member with the keys it has had, the host with the keys it has had, and
the two streams between them. -/
structure Follows (sid : SessionID) (host : ParticipantID) (H : Endpoint prim β)
    (minted : List Key) (id : ParticipantID) (E : Endpoint prim β) (installed : List Key)
    (down up : List (Received prim β)) : Prop where
  token : tokens H E id up ≤ 1
  unkeyed : E.client.keyed = false → installed = []
  failed : E.reader.isFailed = true → E.client.keyed = false
  current : E.client.keyed = true → installed.getLast? = some E.client.groupKey
  pair : E.client.keyed = true →
    E.client.haveHostPairwise = true ∧ E.client.hostPairwise = pairwiseWith H id
  link : E.reader.isFailed = true ∨ ∃ older,
    Path (Reads sid host id (pairwiseWith H id)) (memberState E older installed) down
      (hostState H minted id)

section

variable {sid : SessionID} {host id : ParticipantID} {H H' E E' : Endpoint prim β}
  {minted minted' installed : List Key} {down up up' : List (Received prim β)}

theorem Follows.host_writes (follows : Follows sid host H minted id E installed down up)
    (samePairwise : H'.client.pairwise.lookup id = H.client.pairwise.lookup id)
    (sameAdmitting : H'.reader.isAdmitting id = H.reader.isAdmitting id)
    (written : List (Received prim β))
    (reads : Path (Reads sid host id (pairwiseWith H id)) (hostState H minted id) written
      (hostState H' minted' id)) :
    Follows sid host H' minted' id E installed (down ++ written) up := by
  have sameKey : pairwiseWith H' id = pairwiseWith H id := by
    unfold pairwiseWith
    rw [samePairwise]
  have sameMember : id ∈ H'.client.pairwise ↔ id ∈ H.client.pairwise := by
    rw [← AList.lookup_isSome, ← AList.lookup_isSome, samePairwise]
  refine
    { follows with
      token := ?_
      pair := fun keyed => ?_
      link := ?_ }
  · have before := follows.token
    unfold tokens at before ⊢
    rw [sameAdmitting, decide_eq_decide.mpr sameMember]
    exact before
  · rw [sameKey]
    exact follows.pair keyed
  · rw [sameKey]
    rcases follows.link with failed | ⟨older, path⟩
    · exact Or.inl failed
    · exact Or.inr ⟨older, path.append reads⟩

theorem Follows.host_quiet (follows : Follows sid host H minted id E installed down up)
    (samePairwise : H'.client.pairwise.lookup id = H.client.pairwise.lookup id)
    (sameAdmitting : H'.reader.isAdmitting id = H.reader.isAdmitting id)
    (sameState : hostState H' minted' id = hostState H minted id) :
    Follows sid host H' minted' id E installed down up := by
  have result : Follows sid host H' minted' id E installed (down ++ []) up :=
    follows.host_writes samePairwise sameAdmitting [] sameState.symm
  rwa [List.append_nil] at result

theorem Follows.member_quiet (follows : Follows sid host H minted id E installed down up)
    (sameKeyed : E'.client.keyed = E.client.keyed)
    (sameKey : E'.client.groupKey = E.client.groupKey)
    (samePairwise : E'.client.haveHostPairwise = E.client.haveHostPairwise ∧
      E'.client.hostPairwise = E.client.hostPairwise)
    (sameInstalls : E'.reader.installs = E.reader.installs)
    (sameFailed : E'.reader.isFailed = E.reader.isFailed)
    (sameToken : E'.reader.isGreeting.toNat + up'.countP Received.isFlight ≤
      E.reader.isGreeting.toNat + up.countP Received.isFlight) :
    Follows sid host H minted id E' installed down up' := by
  refine
    { token := ?_
      unkeyed := fun keyed => follows.unkeyed (sameKeyed ▸ keyed)
      failed := fun failed => sameKeyed.trans (follows.failed (sameFailed ▸ failed))
      current := fun keyed => ?_
      pair := fun keyed => ?_
      link := ?_ }
  · have before := follows.token
    unfold tokens at before ⊢
    omega
  · rw [sameKey]
    exact follows.current (sameKeyed ▸ keyed)
  · rw [samePairwise.1, samePairwise.2]
    exact follows.pair (sameKeyed ▸ keyed)
  · rcases follows.link with failed | ⟨older, path⟩
    · exact Or.inl (sameFailed.trans failed)
    · refine Or.inr ⟨older, ?_⟩
      unfold memberState at path ⊢
      rw [sameKeyed, sameInstalls]
      exact path

theorem Follows.host_stores (follows : Follows sid host H minted id E installed down up)
    (admitting : H.reader.isAdmitting id = true) (notAdmitting : H'.reader.isAdmitting id = false)
    (keying : H'.reader.isKeying id = true) :
    Follows sid host H' minted' id E installed down up := by
  have before := follows.token
  unfold tokens at before
  rw [admitting] at before
  have absent : id ∉ H.client.pairwise := by
    intro present
    rw [decide_eq_true present] at before
    simp only [Bool.toNat_true] at before
    omega
  have nothing : hostState H minted id = none := if_neg (fun both => absent both.1)
  have nothing' : hostState H' minted' id = none := by
    unfold hostState
    rw [keying]
    simp
  have early : E.reader.isFailed = true ∨ E.client.keyed = false ∧
      Path (Reads sid host id (pairwiseWith H id)) none down none := by
    rcases follows.link with failed | ⟨older, path⟩
    · exact Or.inl failed
    · rw [nothing] at path
      unfold memberState at path
      split at path
      · have impossible := path_isSome path rfl
        cases impossible
      · rename_i unkeyed
        exact Or.inr ⟨Bool.not_eq_true _ ▸ unkeyed, path⟩
  have unkeyed : E.client.keyed = false :=
    early.elim follows.failed (fun both => both.1)
  refine
    { follows with
      token := ?_
      pair := fun keyed => ?_
      link := ?_ }
  · unfold tokens
    rw [notAdmitting]
    simp only [Bool.toNat_true, Bool.toNat_false] at before ⊢
    have bound := Bool.toNat_le (decide (id ∈ H'.client.pairwise))
    omega
  · rw [unkeyed] at keyed
    cases keyed
  · rcases early with failed | ⟨_, path⟩
    · exact Or.inl failed
    · refine Or.inr ⟨[], ?_⟩
      rw [nothing']
      unfold memberState
      rw [unkeyed]
      exact path_change_pairwise path _

theorem Follows.member_installs (follows : Follows sid host H minted id E installed down up)
    (keyed : E.client.keyed = true) (installing : E.reader = .installing key role) :
    Follows sid host H minted id
      { E with
        client := E.client.install key role
        reader := .idle } (installed ++ [key]) down up := by
  have fields : (E.client.install key role).keyed = E.client.keyed ∧
      (E.client.install key role).groupKey = key ∧
      (E.client.install key role).haveHostPairwise = E.client.haveHostPairwise ∧
      (E.client.install key role).hostPairwise = E.client.hostPairwise := by
    unfold Client.install
    split <;> exact ⟨rfl, rfl, rfl, rfl⟩
  obtain ⟨sameKeyed, newKey, sameHave, samePairwise⟩ := fields
  refine
    { token := ?_
      unkeyed := fun unkeyed => ?_
      failed := fun failed => by cases failed
      current := fun _ => ?_
      pair := fun _ => ?_
      link := ?_ }
  · have before := follows.token
    unfold tokens at before ⊢
    rw [installing] at before
    exact before
  · rw [sameKeyed, keyed] at unkeyed
    cases unkeyed
  · rw [newKey, List.getLast?_append, List.getLast?_singleton, Option.some_or]
  · rw [sameHave, samePairwise]
    exact follows.pair keyed
  · rcases follows.link with failed | ⟨older, path⟩
    · rw [installing] at failed
      cases failed
    · refine Or.inr ⟨older, ?_⟩
      unfold memberState at path ⊢
      rw [installing, keyed, if_pos rfl] at path
      rw [sameKeyed, keyed, if_pos rfl]
      simpa [Reader.installs] using path

end

/-! ### A member taking a frame -/

section

variable {sid : SessionID} {host id : ParticipantID} {H E E' : Endpoint prim β}
  {minted installed : List Key} {frame : Received prim β} {down up : List (Received prim β)}
  {seed : Bytes} {outputs : List (Output prim β)}

theorem firstKey_with_reader (E : Endpoint prim β) (reader : Reader prim) :
    firstKey E { E with reader := reader } = [] := by
  unfold firstKey
  cases E.client.keyed <;> simp

theorem firstKey_of_keyed (keyed : E.client.keyed = true) (E' : Endpoint prim β) :
    firstKey E E' = [] := by
  unfold firstKey
  rw [keyed]
  simp

theorem Follows.joiner_skips (follows : Follows sid host H minted id E installed (frame :: down) up)
    {j : Joiner} {pairwise : Option Key} (joining : E.reader = .joining j pairwise)
    (unkeyed : E.client.keyed = false) (reader : Reader prim)
    (there : reader = .failed ∨ (∃ pairwise, reader = .joining j pairwise) ∧
      Path (Reads sid host id (pairwiseWith H id)) none down (hostState H minted id)) :
    Follows sid host H minted id { E with reader := reader } installed down up := by
  have quiet : reader.isGreeting = false := by
    rcases there with rfl | ⟨⟨_, rfl⟩, _⟩ <;> rfl
  refine
    { follows with
      token := ?_
      failed := fun _ => unkeyed
      link := ?_ }
  · have before := follows.token
    unfold tokens at before ⊢
    rw [joining] at before
    simp only [quiet]
    exact before
  · rcases there with rfl | ⟨_, tail⟩
    · exact Or.inl rfl
    · refine Or.inr ⟨[], ?_⟩
      unfold memberState
      rw [unkeyed]
      exact tail

variable {older : List Key} {nonce : Nonce}

theorem Follows.joiner_keyed
    {j : Joiner}
    (follows : Follows sid host H minted id E installed
      (.direct host (.groupKey (wrapGroupKey prim (pairwiseWith H id) key role sid id nonce)) ::
        down) up)
    (joining : E.reader = .joining j (some pairwise)) (unkeyed : E.client.keyed = false)
    (path : Path (Reads sid host id (pairwiseWith H id)) (some (older ++ [key])) down
      (hostState H minted id)) (agreed : pairwise = pairwiseWith H id) :
    Follows sid host H minted id
      { E with
        client := E.client.keyedBy key role pairwise
        reader := .idle } (installed ++ [key]) down up := by
  have none := follows.unkeyed unkeyed
  refine
    { token := ?_
      unkeyed := fun impossible => by cases impossible
      failed := fun impossible => by cases impossible
      current := fun _ => ?_
      pair := fun _ => ⟨rfl, agreed⟩
      link := Or.inr ⟨older, ?_⟩ }
  · have before := follows.token
    unfold tokens at before ⊢
    rw [joining] at before
    exact before
  · rw [none]
    rfl
  · rw [none]
    simpa [memberState, Client.keyedBy, Reader.installs] using path

theorem Follows.member_rekeyed {role : Role}
    (follows : Follows sid host H minted id E installed
      (.direct host (.rekey (wrapGroupKey prim (pairwiseWith H id) key roleNone sid id nonce)) ::
        down) up) (idle : E.reader = .idle) (keyed : E.client.keyed = true)
    (path : ∃ older, Path (Reads sid host id (pairwiseWith H id))
      (some (older ++ installed ++ [key])) down (hostState H minted id)) :
    Follows sid host H minted id { E with reader := .installing key role } installed down up := by
  obtain ⟨older, path⟩ := path
  refine
    { follows with
      token := ?_
      failed := fun impossible => by cases impossible
      link := Or.inr ⟨older, ?_⟩ }
  · have before := follows.token
    unfold tokens at before ⊢
    rw [idle] at before
    exact before
  · unfold memberState
    rw [keyed]
    exact path

theorem Follows.member_opens
    (follows : Follows sid host H minted id E installed (frame :: down) up)
    (keyed : E.client.keyed = true)
    (path : Path (Reads sid host id (pairwiseWith H id))
      (some (older ++ installed ++ E.reader.installs)) down (hostState H minted id)) :
    Follows sid host H minted id E installed down up := by
  refine
    { follows with link := Or.inr ⟨older, ?_⟩ }
  unfold memberState
  rw [keyed]
  exact path

theorem joinDriveHandshake_host (ideal : prim.Ideal) (ok : MemberOk sid host id E) (j : Joiner)
    (pairwise : Option Key) (read : Reads sid host id (pairwiseWith H id) none frame next) :
    (next = none ∧ (E.client.joinDriveHandshake j pairwise frame).1 = E.client ∧
      ((E.client.joinDriveHandshake j pairwise frame).2 = .failed ∨
        ∃ pairwise', (E.client.joinDriveHandshake j pairwise frame).2 = .joining j pairwise')) ∨
      ∃ older key role nonce, next = some (older ++ [key]) ∧
        frame = .direct host
          (.groupKey (wrapGroupKey prim (pairwiseWith H id) key role sid id nonce)) ∧
        ((E.client.joinDriveHandshake j pairwise frame = (E.client, .failed)) ∨
          pairwise = some (pairwiseWith H id) ∧
            E.client.joinDriveHandshake j pairwise frame =
              (E.client.keyedBy key role (pairwiseWith H id), .idle)) := by
  cases read with
  | flight p =>
      refine Or.inl ⟨rfl, ?_⟩
      simp only [Client.joinDriveHandshake, ok.hostID, if_true, Client.joinHandleDirect]
      split
      · exact ⟨rfl, Or.inr ⟨_, rfl⟩⟩
      · exact ⟨rfl, Or.inl rfl⟩
  | early key sf carries made =>
      refine Or.inl ⟨rfl, ?_⟩
      rcases carries with rfl | rfl
      · simp only [Client.joinDriveHandshake, ok.hostID, if_true, Client.joinHandleDirect]
        exact ⟨trivial, Or.inr ⟨pairwise, rfl⟩⟩
      · exact ⟨rfl, Or.inr ⟨pairwise, rfl⟩⟩
  | first older key role nonce =>
      refine Or.inr ⟨older, key, role, nonce, rfl, rfl, ?_⟩
      simp only [Client.joinDriveHandshake, ok.hostID, if_true, Client.joinHandleDirect]
      cases pairwise with
      | none => exact Or.inl rfl
      | some pw =>
          simp only [ok.sid, ok.self, unwrapGroupKey_wrapGroupKey ideal]
          by_cases agreed : pw = pairwiseWith H id
          · simp only [if_pos agreed]
            rw [agreed]
            exact Or.inr ⟨rfl, rfl⟩
          · simp only [if_neg agreed]
            exact Or.inl trivial

theorem Follows.member_receives (ideal : prim.Ideal)
    (follows : Follows sid host H minted id E installed (frame :: down) up)
    (ok : MemberOk sid host id E) (received : E.receive frame seed = some (E', outputs)) :
    Follows sid host H minted id E' (installed ++ firstKey E E') down up ∧
      MemberOk sid host id E' ∧ outputs.filterMap Output.written = [] ∧ E'.calls = E.calls := by
  have place := ok.place
  cases reader : E.reader with
  | joining j pairwise =>
      rw [reader] at place
      have unkeyed : E.client.keyed = false := by simpa [Reader.memberPlace] using place
      rcases follows.link with failed | ⟨older, path⟩
      · rw [reader] at failed
        cases failed
      · unfold memberState at path
        rw [unkeyed] at path
        obtain ⟨next, read, tail⟩ := path
        have cases := joinDriveHandshake_host ideal ok j pairwise read
        simp only [Endpoint.receive, reader] at received
        generalize E.client.joinDriveHandshake j pairwise frame = drive at received cases
        obtain ⟨client, place'⟩ := drive
        simp only [Option.some.injEq, Prod.mk.injEq] at received cases
        obtain ⟨rfl, rfl⟩ := received
        rcases cases with
          ⟨rfl, rfl, there⟩ | ⟨older', key, role, nonce, rfl, rfl, ⟨rfl, rfl⟩ | ⟨rfl, rfl, rfl⟩⟩
        · rw [firstKey_with_reader, List.append_nil]
          refine ⟨follows.joiner_skips reader unkeyed _ (there.imp_right (fun on => ⟨on, tail⟩)),
            ⟨ok.self, ok.hostID, ok.sid, ?_⟩, rfl, rfl⟩
          rcases there with rfl | ⟨_, rfl⟩ <;> simp [Reader.memberPlace, unkeyed]
        · rw [firstKey_with_reader, List.append_nil]
          refine ⟨follows.joiner_skips reader unkeyed _ (Or.inl rfl),
            ⟨ok.self, ok.hostID, ok.sid, ?_⟩, rfl, rfl⟩
          simp [Reader.memberPlace, unkeyed]
        · have first : firstKey E
              { E with
                client := E.client.keyedBy key role (pairwiseWith H id)
                reader := .idle } = [key] := by
            simp [firstKey, unkeyed, Client.keyedBy]
          rw [first]
          exact ⟨follows.joiner_keyed reader unkeyed tail rfl,
            ⟨ok.self, ok.hostID, ok.sid, rfl⟩, rfl, rfl⟩
  | idle =>
      rw [reader] at place
      have keyed : E.client.keyed = true := by simpa [Reader.memberPlace] using place
      obtain ⟨have_, samePairwise⟩ := follows.pair keyed
      rcases follows.link with failed | ⟨older, path⟩
      · rw [reader] at failed
        cases failed
      · unfold memberState at path
        rw [keyed, if_pos rfl] at path
        obtain ⟨next, read, tail⟩ := path
        simp only [Endpoint.receive, reader, Option.some.injEq, Prod.mk.injEq] at received
        obtain ⟨rfl, rfl⟩ := received
        rw [firstKey_of_keyed keyed, List.append_nil]
        cases read with
        | next _ key nonce =>
            simp only [Client.dispatchFrame, Client.handlePayload, Client.handleRekey, have_,
              ok.hostID, and_self, if_true, samePairwise, ok.sid, ok.self,
              unwrapGroupKey_wrapGroupKey ideal]
            simp only [reader, Reader.installs, List.append_nil] at tail
            exact ⟨follows.member_rekeyed reader keyed ⟨older, tail⟩,
              ⟨ok.self, ok.hostID, ok.sid, keyed⟩, rfl, trivial⟩
        | sealed _ key sf carries made known =>
            have opened := follows.member_opens keyed tail
            obtain ⟨events, same⟩ := dispatchFrame_of_carries carries E.client seed
            rw [same, ← reader]
            exact ⟨opened, ok, filterMap_written_emitted events, rfl⟩
  | _ => simp [Endpoint.receive, reader] at received

/-- What participants other than the host have under way to a receiver: sealed
frames, the relay's notices about them, and handshake flights to the host. -/
inductive Ordinary (sid : SessionID) (host sender receiver : ParticipantID) :
    Received prim β → Prop where
  | sealed {frame : Received prim β} (key : Key) (sf : SealedFrame prim (Envelope β))
      (carries : Carries sender sf frame) (made : SealedUnder prim sid sender key sf) :
      Ordinary sid host sender receiver frame
  | joined : Ordinary sid host sender receiver (.participantJoined sender)
  | left : Ordinary sid host sender receiver (.participantLeft sender)
  | flight (p : Pake) (toHost : receiver = host) :
      Ordinary sid host sender receiver (.direct sender (.pake1 p))

theorem Follows.member_receives_peer (notHost : sender ≠ host) (isMember : id ≠ host)
    (ordinary : Ordinary sid host sender id frame)
    (follows : Follows sid host H minted id E installed down up) (ok : MemberOk sid host id E)
    (received : E.receive frame seed = some (E', outputs)) :
    Follows sid host H minted id E' (installed ++ firstKey E E') down up ∧
      MemberOk sid host id E' ∧ outputs.filterMap Output.written = [] ∧ E'.calls = E.calls := by
  have place := ok.place
  cases reader : E.reader with
  | joining j pairwise =>
      -- only directs of the host count here
      have skipped : E.client.joinDriveHandshake j pairwise frame =
          (E.client, .joining j pairwise) := by
        cases ordinary with
        | sealed key sf carries made =>
            rcases carries with rfl | rfl
            · simp only [Client.joinDriveHandshake, ok.hostID, if_neg notHost]
            · rfl
        | joined => rfl
        | left => rfl
        | flight p toHost => exact absurd toHost isMember
      simp only [Endpoint.receive, reader, skipped, Option.some.injEq, Prod.mk.injEq] at received
      obtain ⟨rfl, rfl⟩ := received
      rw [firstKey_with_reader, List.append_nil, ← reader]
      exact ⟨follows, ok, rfl, rfl⟩
  | idle =>
      rw [reader] at place
      have keyed : E.client.keyed = true := by simpa [Reader.memberPlace] using place
      simp only [Endpoint.receive, reader, Option.some.injEq, Prod.mk.injEq] at received
      obtain ⟨rfl, rfl⟩ := received
      rw [firstKey_of_keyed keyed, List.append_nil]
      refine ⟨?_, ?_, filterMap_written_emitted _, rfl⟩
      · cases ordinary with
        | sealed key sf carries made =>
            obtain ⟨events, same⟩ := dispatchFrame_of_carries carries E.client seed
            rw [same, ← reader]
            exact follows
        | joined =>
            simp only [Client.dispatchFrame, ← reader]
            exact follows
        | left =>
            refine follows.member_quiet rfl rfl ⟨rfl, rfl⟩ ?_ ?_ ?_
            · rw [reader]
              rfl
            · rw [reader]
              rfl
            · rw [reader]
              exact le_refl _
        | flight p toHost => exact absurd toHost isMember
      · cases ordinary with
        | sealed key sf carries made =>
            obtain ⟨events, same⟩ := dispatchFrame_of_carries carries E.client seed
            rw [same, ← reader]
            exact ok
        | joined =>
            simp only [Client.dispatchFrame, ← reader]
            exact ok
        | left => exact ⟨ok.self, ok.hostID, ok.sid, keyed⟩
        | flight p toHost => exact absurd toHost isMember
  | _ => simp [Endpoint.receive, reader] at received

end

end Parley.Session
