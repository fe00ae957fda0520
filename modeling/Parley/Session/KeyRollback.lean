/-
A member whose relay replays the host's messages.

The relay may deliver to a keyed member any payload the host sent to it, any
number of times and in any order, and may change the kind byte of a wrapped key.
A wrap carries no version, so the member installs whatever arrives as a rekey;
the result says when its keys never get older, and what it then seals under.
-/

import Parley.Library.Run
import Parley.Session.Endpoint

namespace Parley.Session

open Crypto Library
open Wire (Bytes ParticipantID SessionID)

/-- Whether a payload is one of those an honest host sends besides wraps. -/
def Payload.isFlightOrSealed {prim : Primitives} {β : Type} : Payload prim β → Bool
  | .pake2 _ => true
  | .sealed _ => true
  | _ => false

/-- What an honest host sent to one member: the keys it wrapped, in order, the
first of them with the member's role, and its other payloads. -/
structure HostRecord (prim : Primitives) (β : Type) where
  pairwise : Key
  keys : List Key
  role : Role
  nonce : Nat → Nonce
  others : List (Payload prim β)
  distinct : keys.Nodup
  plain : ∀ payload ∈ others, payload.isFlightOrSealed = true

variable {prim : Primitives} {β : Type}

def HostRecord.wrap (record : HostRecord prim β) (sid : SessionID) (id : ParticipantID)
    (index : Nat) : Option (GroupKey prim) :=
  record.keys[index]?.map (fun key =>
    wrapGroupKey prim record.pairwise key (if index = 0 then record.role else roleNone) sid id
      (record.nonce index))

/-- What the relay puts on the wire: a wrap under either kind, or another
payload as it was sent. -/
inductive Replay where
  | wrap (index : Nat) (asRekey : Bool)
  | other (index : Nat)
  deriving DecidableEq, Repr

def HostRecord.payload (record : HostRecord prim β) (sid : SessionID) (id : ParticipantID) :
    Replay → Option (Payload prim β)
  | .wrap index asRekey =>
      (record.wrap sid id index).map (fun gk => if asRekey then .rekey gk else .groupKey gk)
  | .other index => record.others[index]?

/-- The member with its histories: the keys it has held, the indices of the wraps
that were delivered to it as rekeys after the first one, and for each call the keys
it had held by then and the one it sealed under. -/
structure Member (prim : Primitives) (β : Type) where
  endpoint : Endpoint prim β
  held : List Key
  rekeyed : List Nat
  sealings : List (List Key × Key)

inductive MemberAction (β : Type) where
  | deliver (replay : Replay)
  | advance (outcome : Outcome)
  | call (toID : Option ParticipantID) (serviceID : String) (body : β) (nonce : Option Nonce)
  | write (index : Nat) (written : Bool)

def Replay.rekeyIndex : Replay → List Nat
  | .wrap index true => [index]
  | _ => []

def Member.step (record : HostRecord prim β) (m : Member prim β) :
    MemberAction β → Option (Member prim β)
  | .deliver replay => do
      let payload ← record.payload m.endpoint.client.sid m.endpoint.client.self replay
      let (next, _) ← m.endpoint.step (.receive (.direct m.endpoint.client.hostID payload) [])
      some { m with
        endpoint := next
        rekeyed := m.rekeyed ++ replay.rekeyIndex }
  | .advance outcome => do
      let (next, _) ← m.endpoint.step (.advance outcome)
      some { m with
        endpoint := next
        held := m.held ++ m.endpoint.reader.installs }
  | .call toID serviceID body nonce => do
      let (next, _) ← m.endpoint.step (.call toID serviceID body nonce)
      some { m with
        endpoint := next
        sealings := m.sealings ++ [(m.held, m.endpoint.client.groupKey)] }
  | .write index written => do
      let (next, _) ← m.endpoint.step (.write index written)
      some { m with endpoint := next }

/-- The member right after it unwrapped its first key. -/
structure Member.Keyed (record : HostRecord prim β) (m : Member prim β) : Prop where
  reader : m.endpoint.reader = .idle
  keyed : m.endpoint.client.keyed = true
  role : m.endpoint.client.role = record.role
  pairwise : m.endpoint.client.hostPairwise = record.pairwise
  havePairwise : m.endpoint.client.haveHostPairwise = true
  key : record.keys[0]? = some m.endpoint.client.groupKey
  held : m.held = [m.endpoint.client.groupKey]
  rekeyed : m.rekeyed = [0]
  sealings : m.sealings = []

def NeverReturns {α : Type} (values : List α) : Prop :=
  ∀ (i j k : Nat) (value : α), i < j → j < k → values[i]? = some value → values[k]? = some value →
    values[j]? = some value

/-- The second key was not made before the first. -/
def HostRecord.NotOlder (record : HostRecord prim β) (early late : Key) : Prop :=
  ∀ older newer : Nat, record.keys[older]? = some early → record.keys[newer]? = some late →
    older ≤ newer

/-- The held keys are those of the delivered rekeys, except for the one being
installed, and a call seals under the last of them. -/
structure Member.Follows (record : HostRecord prim β) (m : Member prim β) : Prop where
  pairwise : m.endpoint.client.hostPairwise = record.pairwise
  havePairwise : m.endpoint.client.haveHostPairwise = true
  reader : m.endpoint.reader = .idle ∨
    ∃ key role, m.endpoint.reader = .installing key role
  current : m.held.getLast? = some m.endpoint.client.groupKey
  history : m.rekeyed.map (fun index => record.keys[index]?) =
    (m.held ++ m.endpoint.reader.installs).map some
  sealings : ∀ sealing ∈ m.sealings,
    sealing.1 <+: m.held ∧ sealing.1.getLast? = some sealing.2

theorem Member.Keyed.follows {record : HostRecord prim β} {m : Member prim β}
    (keyed : m.Keyed record) : m.Follows record := by
  refine
    { keyed with
      reader := Or.inl keyed.reader
      current := ?_
      history := ?_
      sealings := ?_ }
  · rw [keyed.held]
    rfl
  · rw [keyed.rekeyed, keyed.held, keyed.reader]
    simp only [List.map_cons, List.map_nil, Reader.installs, List.append_nil, keyed.key]
  · rw [keyed.sealings]
    exact List.forall_mem_nil _

/-- A payload of the host leaves the member idle, unless it is a wrap delivered
as a rekey: then its key is about to be installed. -/
theorem handlePayload_replay (ideal : prim.Ideal) (record : HostRecord prim β) (c : Client)
    (replay : Replay) (payload : Payload prim β)
    (pairwise : c.hostPairwise = record.pairwise) (have_ : c.haveHostPairwise = true)
    (sent : record.payload c.sid c.self replay = some payload) :
    (replay.rekeyIndex = [] ∧ (c.handlePayload c.hostID payload []).1 = .idle) ∨
      ∃ index key newRole, replay.rekeyIndex = [index] ∧ record.keys[index]? = some key ∧
        (c.handlePayload c.hostID payload []).1 = .installing key newRole := by
  cases replay with
  | wrap index asRekey =>
      simp only [HostRecord.payload, HostRecord.wrap, Option.map_map, Option.map_eq_some_iff]
        at sent
      obtain ⟨key, found, made⟩ := sent
      cases asRekey with
      | false =>
          subst made
          exact Or.inl ⟨rfl, rfl⟩
      | true =>
          subst made
          refine Or.inr ⟨index, key, if index = 0 then record.role else roleNone, rfl, found, ?_⟩
          simp only [Function.comp_apply, if_true, Client.handlePayload, Client.handleRekey,
            have_, and_self, pairwise, unwrapGroupKey_wrapGroupKey ideal]
  | other index =>
      simp only [HostRecord.payload] at sent
      have plain := record.plain payload (List.mem_of_getElem? sent)
      refine Or.inl ⟨rfl, ?_⟩
      cases payload with
      | pake2 p => rfl
      | sealed sf =>
          simp only [Client.handlePayload]
          split <;> rfl
      | _ => cases plain

theorem install_fields (c : Client) (key : Key) (role : Role) :
    (c.install key role).groupKey = key ∧ (c.install key role).hostPairwise = c.hostPairwise ∧
      (c.install key role).haveHostPairwise = c.haveHostPairwise := by
  unfold Client.install
  split <;> exact ⟨rfl, rfl, rfl⟩

theorem Member.follows_step (ideal : prim.Ideal) (record : HostRecord prim β)
    (m : Member prim β) (action : MemberAction β) (next : Member prim β)
    (before : m.Follows record) (stepped : m.step record action = some next) :
    next.Follows record := by
  cases action with
  | deliver replay =>
      simp only [Member.step, Option.bind_eq_bind, Option.bind_eq_some_iff] at stepped
      obtain ⟨payload, sent, ⟨endpoint, outputs⟩, received, same⟩ := stepped
      cases same
      rcases before.reader with idle | ⟨key, role, installing⟩
      · simp only [Endpoint.step, Endpoint.receive, idle, Option.some.injEq, Prod.mk.injEq]
          at received
        obtain ⟨rfl, _⟩ := received
        have history := before.history
        rw [idle] at history
        simp only [Reader.installs, List.append_nil] at history
        rcases handlePayload_replay ideal record m.endpoint.client replay payload
            before.pairwise before.havePairwise sent with
          ⟨noIndex, stays⟩ | ⟨index, key, role, atIndex, found, installs⟩
        · refine
            { before with
              reader := Or.inl stays
              history := ?_ }
          simp only [Client.dispatchFrame, stays, noIndex, List.append_nil, Reader.installs,
            history]
        · refine
            { before with
              reader := Or.inr ⟨key, role, installs⟩
              history := ?_ }
          simp only [Client.dispatchFrame, installs, atIndex, Reader.installs, List.map_append,
            history, List.map_cons, List.map_nil, found]
      · simp only [Endpoint.step, Endpoint.receive, installing] at received
        cases received
  | advance outcome =>
      simp only [Member.step, Option.bind_eq_bind, Option.bind_eq_some_iff] at stepped
      obtain ⟨⟨endpoint, outputs⟩, advanced, same⟩ := stepped
      cases same
      rcases before.reader with idle | ⟨key, role, installing⟩
      · simp only [Endpoint.step, Endpoint.advance, idle] at advanced
        cases advanced
      · simp only [Endpoint.step, Endpoint.advance, installing, Option.some.injEq,
          Prod.mk.injEq] at advanced
        obtain ⟨rfl, _⟩ := advanced
        obtain ⟨newKey, samePairwise, sameHave⟩ := install_fields m.endpoint.client key role
        have history := before.history
        rw [installing] at history
        refine
          { pairwise := samePairwise.trans before.pairwise
            havePairwise := sameHave.trans before.havePairwise
            reader := Or.inl rfl
            current := ?_
            history := ?_
            sealings := fun sealing member => ?_ }
        · simp only [installing, Reader.installs, List.getLast?_append, List.getLast?_singleton,
            newKey, Option.some_or]
        · simp only [installing, Reader.installs, List.append_nil]
          exact history
        · obtain ⟨earlier, last⟩ := before.sealings sealing member
          exact ⟨earlier.trans (List.prefix_append ..), last⟩
  | call toID serviceID body nonce =>
      simp only [Member.step, Endpoint.step, Endpoint.call, Option.bind_eq_bind,
        Option.bind_some, Option.some.injEq] at stepped
      obtain ⟨seqs, changed⟩ :=
        @Client.sealEnvelope_fields prim β m.endpoint.client serviceID body nonce
      subst stepped
      rw [changed]
      refine { before with sealings := fun sealing member => ?_ }
      rcases List.mem_append.mp member with earlier | latest
      · exact before.sealings sealing earlier
      · rw [List.mem_singleton.mp latest]
        exact ⟨List.prefix_rfl, before.current⟩
  | write index written =>
      simp only [Member.step, Endpoint.step, Endpoint.write, Option.bind_eq_bind,
        Option.bind_eq_some_iff, Option.map_eq_some_iff] at stepped
      obtain ⟨⟨endpoint, outputs⟩, ⟨sent, _, wrote⟩, same⟩ := stepped
      cases same
      cases wrote
      exact { before with }

namespace HostRecord

variable {record : HostRecord prim β}

theorem index_unique {older newer : Nat} {key : Key} (first : record.keys[older]? = some key)
    (second : record.keys[newer]? = some key) : older = newer := by
  obtain ⟨within, _⟩ := List.getElem?_eq_some_iff.mp first
  exact (List.getElem?_inj within record.distinct).mp (first.trans second.symm)

/-- Keys get no older exactly as their numbers do not decrease. -/
theorem notOlder_iff_of_history {indices : List Nat} {held : List Key}
    (history : indices.map (fun index => record.keys[index]?) = held.map some) :
    held.Pairwise record.NotOlder ↔ indices.Pairwise (· ≤ ·) := by
  let inOrder : Option Key → Option Key → Prop := fun early late =>
    ∀ first second, early = some first → late = some second → record.NotOlder first second
  have asOptions : held.Pairwise record.NotOlder ↔ (held.map some).Pairwise inOrder := by
    rw [List.pairwise_map]
    refine List.Pairwise.iff (fun first second => ⟨fun ordered key other same alike => ?_, ?_⟩)
    · cases same
      cases alike
      exact ordered
    · exact fun ordered => ordered first second rfl rfl
  rw [asOptions, ← history, List.pairwise_map]
  refine List.Pairwise.iff_of_mem (fun {older newer} inFirst inSecond => ?_)
  have isKey : ∀ index ∈ indices, ∃ key, record.keys[index]? = some key := by
    intro index member
    have listed : record.keys[index]? ∈ held.map some := by
      rw [← history]
      exact List.mem_map_of_mem member
    obtain ⟨key, _, same⟩ := List.mem_map.mp listed
    exact ⟨key, same.symm⟩
  obtain ⟨early, atOlder⟩ := isKey older inFirst
  obtain ⟨late, atNewer⟩ := isKey newer inSecond
  constructor
  · exact fun ordered => ordered early late atOlder atNewer older newer atOlder atNewer
  · intro ordered key other first second older' newer' sameOlder sameNewer
    rw [← index_unique first sameOlder, ← index_unique second sameNewer]
    exact ordered

variable {held : List Key}

theorem neverReturns_of_notOlder (known : ∀ key ∈ held, key ∈ record.keys)
    (ordered : held.Pairwise record.NotOlder) : NeverReturns held := by
  intro i j k key before after atI atK
  obtain ⟨within, isKey⟩ := List.getElem?_eq_some_iff.mp atI
  obtain ⟨inside, alsoKey⟩ := List.getElem?_eq_some_iff.mp atK
  have middle : j < held.length := by omega
  obtain ⟨number, numbered⟩ := List.mem_iff_getElem?.mp (known held[j] (List.getElem_mem middle))
  obtain ⟨first, firstNumbered⟩ := List.mem_iff_getElem?.mp
    (known key (isKey ▸ List.getElem_mem within))
  have pairs := List.pairwise_iff_getElem.mp ordered
  have early := pairs i j within middle before
  have late := pairs j k middle inside after
  rw [isKey] at early
  rw [alsoKey] at late
  have same : number = first :=
    Nat.le_antisymm (late number first numbered firstNumbered)
      (early first number firstNumbered numbered)
  rw [List.getElem?_eq_getElem middle, ← numbered, same, firstNumbered]

/-- Whoever left before a key that is held was made does not hold the last key. -/
theorem last_not_mem_take (ordered : held.Pairwise record.NotOlder) {last key : Key}
    (isLast : held.getLast? = some last) (was : key ∈ held) {rotation : Nat}
    (made : record.keys[rotation]? = some key) : last ∉ record.keys.take rotation := by
  intro older
  obtain ⟨number, numbered⟩ := List.mem_iff_getElem?.mp older
  rw [List.getElem?_take] at numbered
  obtain ⟨below, listed⟩ := Option.ite_none_right_eq_some.mp numbered
  obtain ⟨early, split⟩ := List.getLast?_eq_some_iff.mp isLast
  rw [split] at was ordered
  rcases List.mem_append.mp was with before | final
  · have notOlder := (List.pairwise_append.mp ordered).2.2 key before last
      (List.mem_singleton_self last)
    have above := notOlder rotation number made listed
    omega
  · rw [List.mem_singleton.mp final] at made
    have same := index_unique made listed
    omega

end HostRecord

/-- The member's keys never get older exactly when the relay delivers as a rekey no
wrap older than one it has delivered.  Then it never returns to a key it replaced, and
never seals under a key that was made before one it has held, such as those of a
participant who left before. -/
theorem no_rollback_iff_wraps_in_order (ideal : prim.Ideal) (record : HostRecord prim β)
    (start final : Member prim β) (actions : List (MemberAction β)) (keyed : start.Keyed record)
    (reached : run (Member.step record) start actions = some final) :
    (final.endpoint.reader = .idle →
        (final.held.Pairwise record.NotOlder ↔ final.rekeyed.Pairwise (· ≤ ·))) ∧
      (final.rekeyed.Pairwise (· ≤ ·) →
        NeverReturns final.held ∧
          ∀ sealing ∈ final.sealings, ∀ key ∈ sealing.1, ∀ rotation,
            record.keys[rotation]? = some key → sealing.2 ∉ record.keys.take rotation) := by
  have follows : final.Follows record :=
    run_invariant' (Member.follows_step ideal record) keyed.follows reached
  have inOrder := HostRecord.notOlder_iff_of_history follows.history
  refine ⟨fun settled => ?_, fun increasing => ?_⟩
  · rw [settled] at inOrder
    simpa only [Reader.installs, List.append_nil] using inOrder
  · have ordered : final.held.Pairwise record.NotOlder :=
      (List.pairwise_append.mp (inOrder.mpr increasing)).1
    refine ⟨HostRecord.neverReturns_of_notOlder (fun key member => ?_) ordered, ?_⟩
    · have listed : some key ∈ final.rekeyed.map (fun index => record.keys[index]?) := by
        rw [follows.history]
        exact List.mem_map_of_mem (List.mem_append_left _ member)
      obtain ⟨index, _, found⟩ := List.mem_map.mp listed
      exact List.mem_of_getElem? found
    · intro sealing member key was rotation made
      obtain ⟨earlier, isLast⟩ := follows.sealings sealing member
      exact HostRecord.last_not_mem_take (ordered.sublist earlier.sublist) isLast was made

/-- Two keys were wrapped to the member: the one of its join and one rotation. -/
def sampleRecord : HostRecord symbolic Unit where
  pairwise := sampleKey 9
  keys := [sampleKey 0, sampleKey 1]
  role := roleMember
  nonce := fun _ => Vector.replicate 24 0
  others := []
  distinct := by decide +kernel
  plain := by simp

def sampleMember : Member symbolic Unit :=
  let dialled := dial [] (Vector.replicate 16 0) [] defaultRolePolicy false
  let client := (dialled.joinRequest 2 1).keyedBy (sampleKey 0) roleMember (sampleKey 9)
  { endpoint :=
      { client := client
        reader := .idle
        calls := [] }
    held := [sampleKey 0]
    rekeyed := [0]
    sealings := [] }

theorem sampleMember_keyed : sampleMember.Keyed sampleRecord :=
  { reader := rfl
    keyed := rfl
    role := rfl
    pairwise := rfl
    havePairwise := rfl
    key := rfl
    held := rfl
    rekeyed := rfl
    sealings := rfl }

def quietOutcome : Outcome :=
  { key := none
    nonce := none
    pick := 0
    written := true }

def sampleCall : MemberAction Unit :=
  .call none "chat" () (some (Vector.replicate 24 0))

/-- The member seals before the rotation and after it. -/
def rotationDelivered : List (MemberAction Unit) :=
  [.deliver (.wrap 0 false), sampleCall, .deliver (.wrap 1 true), .advance quietOutcome, sampleCall]

theorem rotationDelivered_seals_forward :
    ∃ final, run (Member.step sampleRecord) sampleMember rotationDelivered = some final ∧
      final.sealings = [([sampleKey 0], sampleKey 0),
        ([sampleKey 0, sampleKey 1], sampleKey 1)] ∧
      NeverReturns final.held ∧
      ∀ sealing ∈ final.sealings, ∀ key ∈ sealing.1, ∀ rotation,
        sampleRecord.keys[rotation]? = some key → sealing.2 ∉ sampleRecord.keys.take rotation := by
  have finished : (run (Member.step sampleRecord) sampleMember rotationDelivered).any
      (fun final => decide (final.sealings = [([sampleKey 0], sampleKey 0),
          ([sampleKey 0, sampleKey 1], sampleKey 1)]) &&
        decide (final.rekeyed = [0, 1])) = true := by
    decide +kernel
  obtain ⟨final, reached, facts⟩ := (Option.any_eq_true _ _).mp finished
  rw [Bool.and_eq_true] at facts
  refine ⟨final, reached, of_decide_eq_true facts.1, ?_⟩
  refine (no_rollback_iff_wraps_in_order symbolic_ideal sampleRecord sampleMember final
    rotationDelivered sampleMember_keyed reached).2 ?_
  rw [of_decide_eq_true facts.2]
  decide

/-- After the rotation the relay delivers the join's wrap again, as a rekey. -/
def joinWrapReplayed : List (MemberAction Unit) :=
  rotationDelivered ++ [.deliver (.wrap 0 true), .advance quietOutcome]

theorem replayed_wrap_rolls_back :
    ¬∀ (prim : Primitives) (_ : prim.Ideal) (record : HostRecord prim Unit)
      (start final : Member prim Unit) (actions : List (MemberAction Unit)),
      start.Keyed record → run (Member.step record) start actions = some final →
        NeverReturns final.held := by
  intro claimed
  have finished : (run (Member.step sampleRecord) sampleMember joinWrapReplayed).any
      (fun final => decide (final.held = [sampleKey 0, sampleKey 1, sampleKey 0])) = true := by
    decide +kernel
  obtain ⟨final, reached, held⟩ := (Option.any_eq_true _ _).mp finished
  have never := claimed symbolic symbolic_ideal sampleRecord sampleMember final joinWrapReplayed
    sampleMember_keyed reached
  rw [of_decide_eq_true held] at never
  have returned := never 0 1 2 (sampleKey 0) (by decide) (by decide) rfl rfl
  exact absurd returned (by decide +kernel)

end Parley.Session
