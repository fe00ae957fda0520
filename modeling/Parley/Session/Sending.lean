/-
Calls of `Broadcast` and `SendTo`.

A call takes its number from the client's map under one lock, seals and encodes
without a lock, and writes under another.  The first part follows one call to
its end, with every error it can return; the second lets any number of
goroutines make calls on one client and interleaves their sections.
-/

import Parley.Library.Run
import Parley.Relay.Forwarding
import Parley.Session.Client

namespace Parley.Session

open Crypto Library
open Wire (Bytes ParticipantID SessionID)

variable {prim : Primitives} {β : Type}

inductive SendError where
  | notKeyed
  /-- Marshalling the envelope, or sealing it. -/
  | sealing
  | payload
  /-- Marshalling the frame, or its size. -/
  | frame
  | connection
  deriving DecidableEq, Repr

/-- A call that has its number: what it read under the client's lock. -/
structure Call (β : Type) where
  /-- The recipient of `SendTo`; none for `Broadcast`. -/
  toID : Option ParticipantID
  key : Key
  envelope : Envelope β
  deriving DecidableEq

namespace Client

def lastSent (c : Client) (serviceID : String) : UInt64 :=
  (c.seqs.lookup serviceID).getD 0

/-- The section of `seal` under the client's lock; `none` before the end is
keyed. -/
def number (c : Client) (toID : Option ParticipantID) (serviceID : String) (body : β) :
    Option (Client × Call β) :=
  if c.keyed = false then none
  else
    let seq := c.lastSent serviceID + 1
    let call : Call β :=
      { toID := toID
        key := c.groupKey
        envelope := { serviceID := serviceID, seq := seq, body := body } }
    some ({ c with seqs := c.seqs.insert serviceID seq }, call)

/-- The payload of a call; an absent nonce is a failure to marshal or to seal
the envelope. -/
def sealCall (c : Client) (call : Call β) (nonce : Option Nonce) : Option (Payload prim β) :=
  nonce.map (fun n => .sealed (sealFrame prim call.key call.envelope c.sid c.self n))

end Client

def callBody (toID : Option ParticipantID) (payload : Bytes) : Wire.Body :=
  match toID with
  | none => .broadcast { fromID := 0, payload := payload }
  | some id => .direct { toID := id, fromID := 0, payload := payload }

section

variable (codec : Wire.Codec) (encodePayload : Payload prim β → Option Bytes)

/-- The rest of a call: `EncodePayload`, `writeFrame` up to the lock, and the
write, whose outcome is `written`. -/
def Client.writeCall (c : Client) (call : Call β) (nonce : Option Nonce) (written : Bool) :
    Except SendError Bytes :=
  match c.sealCall call nonce with
  | none => .error .sealing
  | some payload =>
      match encodePayload payload with
      | none => .error .payload
      | some bytes =>
          match Wire.encode codec (callBody call.toID bytes) with
          | none => .error .frame
          | some frame => if written then .ok frame else .error .connection

/-- `Broadcast`, or `SendTo` with a recipient. -/
def Client.send (c : Client) (toID : Option ParticipantID) (serviceID : String) (body : β)
    (nonce : Option Nonce) (written : Bool) : Client × Except SendError Bytes :=
  match c.number toID serviceID body with
  | none => (c, .error .notKeyed)
  | some (numbered, call) =>
      (numbered, numbered.writeCall codec encodePayload call nonce written)

end

variable {service : String}

namespace Client

variable {c numbered : Client} {toID : Option ParticipantID} {serviceID : String} {body : β}
  {call : Call β}

theorem number_eq_none_iff : c.number toID serviceID body = none ↔ c.keyed = false := by
  unfold number
  split
  · rename_i unkeyed
    exact iff_of_true rfl unkeyed
  · rename_i keyed
    exact iff_of_false (Option.some_ne_none _) keyed

theorem of_number (begun : c.number toID serviceID body = some (numbered, call)) :
    numbered = { c with seqs := c.seqs.insert serviceID (c.lastSent serviceID + 1) } ∧
      call.envelope.serviceID = serviceID ∧
      call.envelope.seq = c.lastSent serviceID + 1 := by
  unfold number at begun
  split at begun
  · cases begun
  · cases begun
    exact ⟨rfl, rfl, rfl⟩

theorem lastSent_number (begun : c.number toID serviceID body = some (numbered, call)) :
    numbered.lastSent serviceID = c.lastSent serviceID + 1 := by
  obtain ⟨rfl, -, -⟩ := of_number begun
  simp only [lastSent, AList.lookup_insert, Option.getD_some]

theorem lastSent_number_of_ne (differ : service ≠ serviceID)
    (begun : c.number toID serviceID body = some (numbered, call)) :
    numbered.lastSent service = c.lastSent service := by
  obtain ⟨rfl, -, -⟩ := of_number begun
  simp only [lastSent, AList.lookup_insert_ne differ]

theorem lastSent_ne_next (c : Client) (serviceID : String) :
    c.lastSent serviceID ≠ c.lastSent serviceID + 1 := by
  intro same
  have value := congrArg UInt64.toNat same
  rw [UInt64.toNat_add] at value
  have bound := (c.lastSent serviceID).toNat_lt
  have one : (1 : UInt64).toNat = 1 := rfl
  omega

theorem sealEnvelope_eq_number (c : Client) (toID : Option ParticipantID) (serviceID : String)
    (body : β) (nonce : Option Nonce) :
    (c.sealEnvelope serviceID body nonce : Client × Option (Payload prim β)) =
      ((c.number toID serviceID body).map (fun begun =>
        (begun.1, begun.1.sealCall begun.2 nonce))).getD (c, none) := by
  unfold sealEnvelope number
  split <;> rfl

end Client

theorem Client.seqs_send_eq_iff (codec : Wire.Codec)
    (encodePayload : Payload prim β → Option Bytes) (c : Client) (toID : Option ParticipantID)
    (serviceID : String) (body : β) (nonce : Option Nonce) (written : Bool) :
    (c.send codec encodePayload toID serviceID body nonce written).1.seqs = c.seqs ↔
      c.keyed = false := by
  unfold Client.send
  cases begun : c.number toID serviceID body with
  | none => exact iff_of_true rfl (Client.number_eq_none_iff.mp begun)
  | some result =>
      obtain ⟨numbered, call⟩ := result
      have keyed : ¬ c.keyed = false := by
        intro unkeyed
        rw [Client.number_eq_none_iff.mpr unkeyed] at begun
        cases begun
      refine iff_of_false (fun same => ?_) keyed
      have advanced := Client.lastSent_number begun
      have kept : numbered.lastSent serviceID = c.lastSent serviceID := by
        rw [Client.lastSent, same, Client.lastSent]
      rw [kept] at advanced
      exact c.lastSent_ne_next serviceID advanced

theorem Client.writeCall_ne_notKeyed (codec : Wire.Codec)
    (encodePayload : Payload prim β → Option Bytes) (c : Client) (call : Call β)
    (nonce : Option Nonce) (written : Bool) :
    c.writeCall codec encodePayload call nonce written ≠ .error .notKeyed := by
  intro outcome
  unfold Client.writeCall at outcome
  split at outcome
  · cases outcome
  · split at outcome
    · cases outcome
    · split at outcome
      · cases outcome
      · split at outcome
        · cases outcome
        · cases outcome

/-- A call that returns an error leaves the numbers as they were exactly when
the end is not keyed, which is one of the five errors. -/
theorem failed_send_keeps_numbers_iff_unkeyed (codec : Wire.Codec)
    (encodePayload : Payload prim β → Option Bytes) (c : Client) (toID : Option ParticipantID)
    (serviceID : String) (body : β) (nonce : Option Nonce) (written : Bool) (err : SendError)
    (failed : (c.send codec encodePayload toID serviceID body nonce written).2 = .error err) :
    ((c.send codec encodePayload toID serviceID body nonce written).1.seqs = c.seqs ↔
        c.keyed = false) ∧
      (c.keyed = false ↔ err = .notKeyed) := by
  refine ⟨c.seqs_send_eq_iff codec encodePayload toID serviceID body nonce written, ?_⟩
  unfold Client.send at failed
  cases begun : c.number toID serviceID body with
  | none =>
      rw [begun] at failed
      cases failed
      exact iff_of_true (Client.number_eq_none_iff.mp begun) rfl
  | some result =>
      rw [begun] at failed
      refine iff_of_false (fun unkeyed => ?_) (fun isUnkeyed => ?_)
      · rw [Client.number_eq_none_iff.mpr unkeyed] at begun
        cases begun
      · rw [isUnkeyed] at failed
        exact result.1.writeCall_ne_notKeyed codec encodePayload result.2 nonce written failed

def sampleSender : Client :=
  (dial [] (Vector.replicate 16 0) [] defaultRolePolicy false).hostHello 1 zeroKey

/-- An encoding of payloads that keeps only their size; a body stands for its
length. -/
def sizedPayload : Payload symbolic Nat → Option Bytes
  | .sealed sf => some (List.replicate sf.ciphertext.2.2.body 0)
  | _ => none

/-- A call on an end that waits for its key fails and takes no number. -/
theorem unkeyed_send_keeps_numbers :
    ((dial [] (Vector.replicate 16 0) [] defaultRolePolicy false).send Wire.cborCodec sizedPayload
        none "chat" 3 (some sampleNonce) true).2 = .error .notKeyed ∧
      ((dial [] (Vector.replicate 16 0) [] defaultRolePolicy false).send Wire.cborCodec
        sizedPayload none "chat" 3 (some sampleNonce) true).1.seqs = ∅ :=
  ⟨rfl, (failed_send_keeps_numbers_iff_unkeyed Wire.cborCodec sizedPayload
    (dial [] (Vector.replicate 16 0) [] defaultRolePolicy false) none "chat" 3 (some sampleNonce)
    true .notKeyed rfl).1.mpr rfl⟩

theorem oversized_send :
    (sampleSender.send Wire.cborCodec sizedPayload none "chat" Wire.maxFrame (some sampleNonce)
      true).2 = .error .frame := by
  have tooLong : ∀ size, Wire.maxFrame ≤ size →
      Wire.encode Wire.cborCodec (callBody none (List.replicate size 0)) = none := by
    intro size large
    by_contra sent
    have fits := (Wire.cborCodec_deterministic.encode_broadcast
      { fromID := 0, payload := List.replicate size 0 }).mp sent
    simp only [Wire.Broadcast.frameSize, List.length_replicate] at fits
    omega
  have refused : ∀ size, Wire.maxFrame ≤ size →
      (sampleSender.send Wire.cborCodec sizedPayload none "chat" size (some sampleNonce)
        true).2 = .error .frame := by
    intro size large
    simp [Client.send, sampleSender, Client.hostHello, Client.number, Client.writeCall,
      Client.sealCall, sizedPayload, sealFrame, symbolic, tooLong size large]
  exact refused Wire.maxFrame (le_refl _)

/-- A failed call can take a number: an oversized message does. -/
theorem oversized_send_takes_number :
    ¬ ∀ (prim : Primitives) (β : Type) (codec : Wire.Codec)
        (encodePayload : Payload prim β → Option Bytes) (c : Client) (toID : Option ParticipantID)
        (serviceID : String) (body : β) (nonce : Option Nonce) (written : Bool) (err : SendError),
        (c.send codec encodePayload toID serviceID body nonce written).2 = .error err →
        (c.send codec encodePayload toID serviceID body nonce written).1.seqs = c.seqs := by
  intro claimed
  have same := claimed symbolic Nat Wire.cborCodec sizedPayload sampleSender none "chat"
    Wire.maxFrame (some sampleNonce) true .frame oversized_send
  have numbers := congrArg (AList.lookup "chat") same
  exact absurd numbers (by decide)

/-- One client with the calls made on it.  A call of `calls` is between its two
sections; `wire` holds what was written, the latest last. -/
structure Sender (β : Type) where
  client : Client
  calls : List (Call β)
  wire : List (Call β × Bytes)

inductive SenderAction (β : Type) where
  /-- A call's first section; a call on an end that is not keyed ends here. -/
  | number (toID : Option ParticipantID) (serviceID : String) (body : β)
  /-- The rest of one of the calls. -/
  | write (index : Nat) (nonce : Option Nonce) (written : Bool)
  /-- The read loop or the host installs a key. -/
  | install (key : Key)

def Sender.step (codec : Wire.Codec) (encodePayload : Payload prim β → Option Bytes)
    (s : Sender β) (action : SenderAction β) : Option (Sender β) :=
  match action with
  | .number toID serviceID body =>
      match s.client.number toID serviceID body with
      | none => some s
      | some (numbered, call) =>
          some { s with
            client := numbered
            calls := s.calls ++ [call] }
  | .write index nonce written =>
      match s.calls[index]? with
      | none => none
      | some call =>
          match s.client.writeCall codec encodePayload call nonce written with
          | .error _ => some { s with calls := s.calls.eraseIdx index }
          | .ok frame =>
              some { s with
                calls := s.calls.eraseIdx index
                wire := s.wire ++ [(call, frame)] }
  | .install key => some { s with client := { s.client.swapKey key with keyed := true } }

/-- The numbers written on a service, in the order of the connection. -/
def Sender.seqsWritten (s : Sender β) (serviceID : String) : List UInt64 :=
  (s.wire.filter (fun entry => entry.1.envelope.serviceID = serviceID)).map
    (fun entry => entry.1.envelope.seq)

def Sender.callsOn (s : Sender β) (serviceID : String) : List (Call β) :=
  s.calls.filter (fun call => call.envelope.serviceID = serviceID)

/-- A number is taken on a service while no other call on it is between its two
sections, and before the counter comes round. -/
def OneAtATime (s : Sender β) (action : SenderAction β) : Prop :=
  match action with
  | .number _ serviceID _ =>
      s.callsOn serviceID = [] ∧ (s.client.lastSent serviceID).toNat + 1 < 2 ^ 64
  | _ => True

instance [DecidableEq β] (s : Sender β) (action : SenderAction β) :
    Decidable (OneAtATime s action) := by
  dsimp only [OneAtATime]
  split <;> infer_instance

/-! ### Numbers in order -/

/-- The numbers on one service: those written go up and do not pass the counter,
and a call that is still to be written is the only one and has the latest
number. -/
structure Sender.Ordered (s : Sender β) (serviceID : String) : Prop where
  increasing : (s.seqsWritten serviceID).Pairwise (· < ·)
  counted : ∀ seq ∈ s.seqsWritten serviceID, seq ≤ s.client.lastSent serviceID
  single : (s.callsOn serviceID).length ≤ 1
  latest : ∀ call ∈ s.callsOn serviceID, call.envelope.seq = s.client.lastSent serviceID ∧
    ∀ seq ∈ s.seqsWritten serviceID, seq < call.envelope.seq

namespace Sender.Ordered

variable {s : Sender β} {serviceID : String} {call : Call β} {index : Nat}

theorem number {numbered : Client} {toID : Option ParticipantID} {body : β}
    (ordered : s.Ordered serviceID) (alone : s.callsOn service = [])
    (below : (s.client.lastSent service).toNat + 1 < 2 ^ 64)
    (begun : s.client.number toID service body = some (numbered, call)) :
    ({ s with client := numbered, calls := s.calls ++ [call] } : Sender β).Ordered serviceID := by
  obtain ⟨-, onService, number⟩ := Client.of_number begun
  by_cases same : service = serviceID
  · subst same
    have advanced := Client.lastSent_number begun
    have grown := Wire.lt_next_of_below below
    have calls : ({ s with client := numbered, calls := s.calls ++ [call] } : Sender β).callsOn
        service = [call] := by
      unfold callsOn at alone ⊢
      rw [List.filter_append, alone]
      simp [onService]
    refine
      { increasing := ordered.increasing
        counted := fun seq written => ?_
        single := ?_
        latest := fun other isCall => ?_ }
    · exact advanced ▸ UInt64.le_trans (ordered.counted seq written) (UInt64.le_of_lt grown)
    · rw [calls]
      exact le_refl 1
    · rw [calls, List.mem_singleton] at isCall
      subst isCall
      refine ⟨number.trans advanced.symm, fun seq written => ?_⟩
      rw [number]
      exact UInt64.lt_of_le_of_lt (ordered.counted seq written) grown
  · have kept := Client.lastSent_number_of_ne (fun equal => same equal.symm) begun
    have calls : ({ s with client := numbered, calls := s.calls ++ [call] } : Sender β).callsOn
        serviceID = s.callsOn serviceID := by
      unfold callsOn
      rw [List.filter_append]
      simp [onService, same]
    refine
      { increasing := ordered.increasing
        counted := fun seq written => kept ▸ ordered.counted seq written
        single := ?_
        latest := fun other isCall => ?_ }
    · rw [calls]
      exact ordered.single
    · rw [calls] at isCall
      rw [kept]
      exact ordered.latest other isCall

theorem callsOn_eraseIdx (ordered : s.Ordered serviceID) (found : s.calls[index]? = some call)
    (onService : call.envelope.serviceID = serviceID) :
    (s.calls.eraseIdx index).filter (fun other => other.envelope.serviceID = serviceID) = [] := by
  have single := ordered.single
  obtain ⟨inRange, isCall⟩ := List.getElem?_eq_some_iff.mp found
  have parts : s.calls = s.calls.take index ++ call :: s.calls.drop (index + 1) := by
    rw [← isCall, List.getElem_cons_drop, List.take_append_drop]
  have kept := List.filter_cons_of_pos
    (p := fun other : Call β => decide (other.envelope.serviceID = serviceID))
    (l := s.calls.drop (index + 1)) (decide_eq_true onService)
  unfold callsOn at single
  rw [parts, List.filter_append, kept, List.length_append, List.length_cons] at single
  rw [List.eraseIdx_eq_take_drop_succ, List.filter_append, List.append_eq_nil_iff]
  constructor
  · exact List.eq_nil_of_length_eq_zero (by omega)
  · exact List.eq_nil_of_length_eq_zero (by omega)

theorem drop (ordered : s.Ordered serviceID) (index : Nat) :
    ({ s with calls := s.calls.eraseIdx index } : Sender β).Ordered serviceID := by
  have fewer : ({ s with calls := s.calls.eraseIdx index } : Sender β).callsOn serviceID |>.Sublist
      (s.callsOn serviceID) := (s.calls.eraseIdx_sublist index).filter _
  exact
    { ordered with
      single := fewer.length_le.trans ordered.single
      latest := fun call isCall => ordered.latest call (fewer.subset isCall) }

theorem write {frame : Bytes} (ordered : s.Ordered serviceID)
    (found : s.calls[index]? = some call) :
    ({ s with
        calls := s.calls.eraseIdx index
        wire := s.wire ++ [(call, frame)] } : Sender β).Ordered serviceID := by
  have dropped := ordered.drop index
  by_cases onService : call.envelope.serviceID = serviceID
  · have isCall : call ∈ s.callsOn serviceID :=
      List.mem_filter.mpr ⟨List.mem_of_getElem? found, decide_eq_true onService⟩
    have written : ({ s with
        calls := s.calls.eraseIdx index
        wire := s.wire ++ [(call, frame)] } : Sender β).seqsWritten serviceID =
          s.seqsWritten serviceID ++ [call.envelope.seq] := by
      unfold seqsWritten
      rw [List.filter_append, List.map_append]
      simp [onService]
    have noneLeft : ({ s with
        calls := s.calls.eraseIdx index
        wire := s.wire ++ [(call, frame)] } : Sender β).callsOn serviceID = [] :=
      ordered.callsOn_eraseIdx found onService
    obtain ⟨isLast, above⟩ := ordered.latest call isCall
    refine
      { increasing := ?_
        counted := fun seq isWritten => ?_
        single := ?_
        latest := fun other isOther => ?_ }
    · rw [written]
      apply List.pairwise_append.mpr
      refine ⟨ordered.increasing, List.pairwise_singleton _ _, fun seq isWritten last isLast => ?_⟩
      rw [List.mem_singleton.mp isLast]
      exact above seq isWritten
    · rw [written, List.mem_append, List.mem_singleton] at isWritten
      cases isWritten with
      | inl earlier => exact ordered.counted seq earlier
      | inr isLatest => exact UInt64.le_of_eq (isLatest.trans isLast)
    · rw [noneLeft]
      exact Nat.zero_le 1
    · rw [noneLeft] at isOther
      cases isOther
  · have written : ({ s with
        calls := s.calls.eraseIdx index
        wire := s.wire ++ [(call, frame)] } : Sender β).seqsWritten serviceID =
          s.seqsWritten serviceID := by
      unfold seqsWritten
      rw [List.filter_append, List.map_append]
      simp [onService]
    exact
      { increasing := written ▸ dropped.increasing
        counted := written ▸ dropped.counted
        single := dropped.single
        latest := written ▸ dropped.latest }

theorem step {codec : Wire.Codec} {encodePayload : Payload prim β → Option Bytes}
    {action : SenderAction β} {next : Sender β} (ordered : s.Ordered serviceID)
    (permitted : OneAtATime s action) (stepped : s.step codec encodePayload action = some next) :
    next.Ordered serviceID := by
  cases action with
  | number toID service body =>
      unfold Sender.step at stepped
      cases begun : s.client.number toID service body with
      | none =>
          simp only [begun, Option.some.injEq] at stepped
          exact stepped ▸ ordered
      | some result =>
          simp only [begun, Option.some.injEq] at stepped
          exact stepped ▸ ordered.number permitted.1 permitted.2 begun
  | write index nonce written =>
      unfold Sender.step at stepped
      cases found : s.calls[index]? with
      | none =>
          simp only [found] at stepped
          cases stepped
      | some call =>
          simp only [found] at stepped
          cases outcome : s.client.writeCall codec encodePayload call nonce written with
          | error err =>
              simp only [outcome, Option.some.injEq] at stepped
              exact stepped ▸ ordered.drop _
          | ok frame =>
              simp only [outcome, Option.some.injEq] at stepped
              exact stepped ▸ ordered.write found
  | install key =>
      cases stepped
      exact { ordered with }

end Sender.Ordered

/-- Whatever the client's counters were, a service's frames are written in the
order of their numbers when its calls do not overlap. -/
theorem written_in_sequence_order (codec : Wire.Codec)
    (encodePayload : Payload prim β → Option Bytes) (client : Client) (serviceID : String)
    (actions : List (SenderAction β)) (final : Sender β)
    (along : Along (Sender.step codec encodePayload) OneAtATime
      { client := client, calls := [], wire := [] } actions)
    (reached : run (Sender.step codec encodePayload) { client := client, calls := [], wire := [] }
      actions = some final) :
    (final.seqsWritten serviceID).Pairwise (· < ·) := by
  have initial : ({ client := client, calls := [], wire := [] } : Sender β).Ordered serviceID :=
    { increasing := List.Pairwise.nil
      counted := fun _ written => by cases written
      single := Nat.zero_le 1
      latest := fun _ isCall => by cases isCall }
  have preserved : ∀ (s : Sender β) (action : SenderAction β) (next : Sender β),
      s.Ordered serviceID → OneAtATime s action → s.step codec encodePayload action = some next →
      next.Ordered serviceID :=
    fun _ _ _ ordered permitted stepped => ordered.step permitted stepped
  exact (run_invariant preserved initial along reached).increasing

def callsInTurn : List (SenderAction Nat) :=
  [.number none "chat" 3, .write 0 (some sampleNonce) true, .number (some 2) "chat" 4,
    .write 0 (some sampleNonce) true]

/-- Two calls, both begun before either is written; the later one is written
first. -/
def callsOverlapping : List (SenderAction Nat) :=
  [.number none "chat" 3, .number (some 2) "chat" 4, .write 1 (some sampleNonce) true,
    .write 0 (some sampleNonce) true]

def sampleSending : Sender Nat :=
  { client := sampleSender
    calls := []
    wire := [] }

theorem callsInTurn_written_in_order :
    (run (Sender.step Wire.cborCodec sizedPayload) sampleSending callsInTurn).any (fun final =>
      final.seqsWritten "chat" = [1, 2]) = true ∧
    ∀ final, run (Sender.step Wire.cborCodec sizedPayload) sampleSending callsInTurn = some final →
      (final.seqsWritten "chat").Pairwise (· < ·) := by
  refine ⟨by decide +kernel, fun final reached => ?_⟩
  exact written_in_sequence_order Wire.cborCodec sizedPayload sampleSender "chat" callsInTurn final
    (by decide +kernel) reached

/-- Calls that overlap can be written against the order of their numbers. -/
theorem overlapping_calls_out_of_order :
    ¬ ∀ (prim : Primitives) (β : Type) (codec : Wire.Codec)
        (encodePayload : Payload prim β → Option Bytes) (client : Client) (serviceID : String)
        (actions : List (SenderAction β)) (final : Sender β),
        run (Sender.step codec encodePayload) { client := client, calls := [], wire := [] } actions =
          some final →
        (final.seqsWritten serviceID).Pairwise (· < ·) := by
  intro claimed
  have written : (run (Sender.step Wire.cborCodec sizedPayload) sampleSending
      callsOverlapping).any (fun final => final.seqsWritten "chat" = [2, 1]) = true := by
    decide +kernel
  obtain ⟨final, reached, order⟩ := (Option.any_eq_true _ _).mp written
  have increasing := claimed symbolic Nat Wire.cborCodec sizedPayload sampleSender "chat"
    callsOverlapping final reached
  rw [of_decide_eq_true order] at increasing
  exact absurd increasing (by decide)

end Parley.Session
