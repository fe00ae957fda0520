/-
The registry and the lifetimes of its hubs.

A hub is entered under its session id from the end of `create` until its
`onEmpty` runs.  The mutex is taken from the check of `create` to the store, so
no other hub of that id can be made or retired in between, and `onEmpty`, which
deletes by id, finds the entry of its own hub.
-/

import Parley.Relay.Registry

namespace Parley.Relay

open Wire Library
open Relation (ReflTransGen)

/-- A hub is alive until its `onEmpty` has run. -/
structure System.Registered (s : System) : Prop where
  size : s.registry.sessions.keys.length ≤ s.registry.maxCount
  entered : ∀ sid i, s.registry.get sid = some i →
    ∃ p, s.hubs[i]? = some p ∧ p.sid = sid ∧ p.phase ≠ .ended
  listed : ∀ i p, s.hubs[i]? = some p → p.phase ≠ .ended →
    s.registry.get p.sid = some i ∨ ∃ conn, s.creating = some (conn, i)
  reserved : ∀ conn i, s.creating = some (conn, i) →
    s.registry.sessions.keys.length < s.registry.maxCount ∧
      ∃ p, s.hubs[i]? = some p ∧ p.phase ≠ .ended ∧ s.registry.get p.sid = none

variable {s : System} {p : Proc} {i : HubID}

theorem System.Registered.congr {next : System} (registered : s.Registered)
    (registry : next.registry = s.registry) (creating : next.creating = s.creating)
    (hubs : next.hubs = s.hubs) : next.Registered := by
  refine
    { size := ?_
      entered := ?_
      listed := ?_
      reserved := ?_ }
  · rw [registry]
    exact registered.size
  · rw [registry, hubs]
    exact registered.entered
  · rw [registry, hubs, creating]
    exact registered.listed
  · rw [registry, hubs, creating]
    exact registered.reserved

theorem System.Registered.put (registered : s.Registered) {after : Proc}
    (found : s.hubs[i]? = some p) (sid : after.sid = p.sid)
    (alive : after.phase ≠ .ended ↔ p.phase ≠ .ended) : (s.putHub i after).Registered := by
  have moved : ∀ {j : HubID} {q : Proc}, s.hubs[j]? = some q →
      ∃ r : Proc, (s.putHub i after).hubs[j]? = some r ∧ r.sid = q.sid ∧
        (r.phase ≠ .ended ↔ q.phase ≠ .ended) := by
    intro j q there
    by_cases same : j = i
    · subst same
      cases found.symm.trans there
      exact ⟨after, System.lookup_putHub_self found, sid, alive⟩
    · exact ⟨q, (System.lookup_putHub_ne after same).trans there, rfl, Iff.rfl⟩
  refine
    { size := registered.size
      entered := ?_
      listed := ?_
      reserved := ?_ }
  · intro other j entry
    obtain ⟨q, there, named, going⟩ := registered.entered other j entry
    obtain ⟨r, here, same, still⟩ := moved there
    exact ⟨r, here, same.trans named, still.mpr going⟩
  · intro j q there going
    rcases System.lookup_putHub found there with ⟨rfl, rfl⟩ | ⟨_, before⟩
    · rw [sid]
      exact registered.listed j p found (alive.mp going)
    · exact registered.listed j q before going
  · intro conn j holds
    obtain ⟨room, q, there, going, vacant⟩ := registered.reserved conn j holds
    obtain ⟨r, here, same, still⟩ := moved there
    refine ⟨room, r, here, still.mpr going, ?_⟩
    rw [same]
    exact vacant

theorem System.Registered.begin (registered : s.Registered) (free : s.creating = none)
    {sid : SessionID} (vacant : s.registry.refusal sid = none) (conn : ConnID)
    (maxParticipants : Nat) : (s.begin conn sid maxParticipants).Registered := by
  unfold Registry.refusal at vacant
  split at vacant
  · cases vacant
  · rename_i absent
    split at vacant
    · cases vacant
    · rename_i room
      refine
        { size := registered.size
          entered := ?_
          listed := ?_
          reserved := ?_ }
      · intro other j entry
        obtain ⟨q, there, named, going⟩ := registered.entered other j entry
        exact ⟨q, lookup_before_started _ there, named, going⟩
      · intro j q there going
        rcases lookup_started there with before | ⟨last, _⟩
        · rcases registered.listed j q before going with entry | ⟨other, holds⟩
          · exact Or.inl entry
          · rw [free] at holds
            cases holds
        · exact Or.inr ⟨conn, by rw [last]; rfl⟩
      · intro other j holds
        cases holds
        refine ⟨Nat.lt_of_not_le room, _, List.getElem?_concat_length, ?_,
          AList.lookup_eq_none.mpr absent⟩
        intro ended
        cases ended

theorem System.Registered.enter (registered : s.Registered) {conn : ConnID}
    (holds : s.creating = some (conn, i)) (found : s.hubs[i]? = some p) (token : Bytes) :
    (s.enter conn i p.sid token).Registered := by
  obtain ⟨room, q, there, going, vacant⟩ := registered.reserved conn i holds
  cases found.symm.trans there
  have absent : p.sid ∉ s.registry.sessions := AList.lookup_eq_none.mp vacant
  have entry : ∀ sid, (s.registry.store p.sid i).get sid =
      if sid = p.sid then some i else s.registry.get sid := by
    intro sid
    split
    · rename_i same
      rw [same]
      exact AList.lookup_insert _
    · rename_i differs
      exact AList.lookup_insert_ne differs
  refine
    { size := ?_
      entered := ?_
      listed := ?_
      reserved := fun other j later => by cases later }
  · exact Nat.le_trans (Nat.le_of_eq (keys_length_insert absent i)) room
  · intro sid j stored
    rw [show (s.enter conn i p.sid token).registry.get sid = _ from entry sid] at stored
    split at stored
    · rename_i same
      cases stored
      exact ⟨p, found, same.symm, going⟩
    · exact registered.entered sid j stored
  · intro j q other alive
    refine Or.inl ((entry q.sid).trans ?_)
    rcases registered.listed j q other alive with stored | ⟨holder, creating⟩
    · rw [if_neg, stored]
      intro same
      rw [same, vacant] at stored
      cases stored
    · cases holds.symm.trans creating
      cases found.symm.trans other
      exact if_pos rfl

theorem System.Registered.own (registered : s.Registered) (free : s.creating = none)
    (found : s.hubs[i]? = some p) (alive : p.phase ≠ .ended) : s.registry.get p.sid = some i := by
  rcases registered.listed i p found alive with entry | ⟨conn, holds⟩
  · exact entry
  · rw [free] at holds
    cases holds

theorem System.Registered.retire (registered : s.Registered) (free : s.creating = none)
    (found : s.hubs[i]? = some p) (closed : p.phase = .closed) : (s.retire i p).Registered := by
  have alive : p.phase ≠ .ended := by
    rw [closed]
    intro never
    cases never
  have own := registered.own free found alive
  have kept : ∀ {sid j}, (s.registry.remove p.sid).get sid = some j →
      sid ≠ p.sid ∧ s.registry.get sid = some j := by
    intro sid j entry
    have differs : sid ≠ p.sid := by
      rintro rfl
      rw [show (s.registry.remove p.sid).get p.sid = none from AList.lookup_erase _ _] at entry
      cases entry
    exact ⟨differs, (AList.lookup_erase_ne differs).symm.trans entry⟩
  refine
    { size := Nat.le_trans ?_ registered.size
      entered := ?_
      listed := ?_
      reserved := ?_ }
  · exact keys_length_le (fun sid member => (AList.mem_erase.mp member).2)
  · intro sid j entry
    obtain ⟨differs, before⟩ := kept entry
    obtain ⟨q, there, named, going⟩ := registered.entered sid j before
    have other : j ≠ i := by
      rintro rfl
      cases found.symm.trans there
      exact differs named.symm
    exact ⟨q, (System.lookup_putHub_ne _ other).trans there, named, going⟩
  · intro j q there going
    rcases System.lookup_putHub found there with ⟨rfl, rfl⟩ | ⟨other, before⟩
    · exact absurd rfl going
    · have entry := registered.own free before going
      have differs : q.sid ≠ p.sid := by
        intro same
        rw [same, own] at entry
        exact other (Option.some.inj entry).symm
      exact Or.inl ((AList.lookup_erase_ne differs).trans entry)
  · intro conn j holds
    rw [show (s.retire i p).creating = none from free] at holds
    cases holds

theorem System.Registered.quiet (s next : System) (registered : s.Registered)
    (moved : s.Quiet next) : next.Registered := by
  cases moved with
  | turned turns => exact registered.congr rfl rfl rfl
  | began free asks vacant => exact registered.begin free vacant _ _
  | stored token holds found => exact registered.enter holds found token
  | heard waits channel => exact registered.congr rfl rfl rfl
  | touched found apart =>
      refine registered.put found apart.sid ?_
      rw [apart.phase]
  | closed found leaving =>
      refine registered.put found rfl (iff_of_true ?_ ?_)
      · intro never
        cases never
      · rw [leaving]
        intro never
        cases never
  | emptied free found closed => exact registered.retire free found closed
  | swept expired now => exact registered.congr rfl rfl rfl

theorem System.registered_step (codec : Codec) (helloCodec : HelloCodec) (s : System)
    (event : Event) (next : System) (registered : s.Registered)
    (stepped : System.step codec helloCodec s event = some next) : next.Registered := by
  rcases System.step_cases stepped with
    ⟨conn, i, cmd, p, rfl, accepts⟩ |
      ⟨i, order, p, cmd, rest, hub, effects, returned, rfl, serves⟩ | moved
  · have put : (s.putHub i (p.put cmd)).Registered := registered.put accepts.found rfl Iff.rfl
    rw [accepts.result]
    exact put.congr rfl rfl rfl
  · have alive : (p.took cmd rest hub effects returned).phase ≠ .ended ↔ p.phase ≠ .ended := by
      rw [serves.running]
      cases returned with
      | true => exact iff_of_true (fun never => by cases never) (fun never => by cases never)
      | false => exact Iff.rfl
    have put : (s.putHub i (p.took cmd rest hub effects returned)).Registered :=
      registered.put serves.found rfl alive
    rw [serves.result]
    exact put.congr rfl rfl rfl
  · exact System.quiet_invariant System.Registered.quiet moved registered

theorem System.maxCount_step (codec : Codec) (helloCodec : HelloCodec) (maxSessions : Nat)
    (s : System) (event : Event) (next : System) (kept : s.registry.maxCount = maxSessions)
    (stepped : System.step codec helloCodec s event = some next) :
    next.registry.maxCount = maxSessions := by
  rcases System.step_cases stepped with
    ⟨conn, i, cmd, p, rfl, accepts⟩ |
      ⟨i, order, p, cmd, rest, hub, effects, returned, rfl, serves⟩ | moved
  · rw [accepts.result]
    exact kept
  · rw [serves.result]
    exact kept
  · have preserved : ∀ before after : System, before.registry.maxCount = maxSessions →
        before.Quiet after → after.registry.maxCount = maxSessions := by
      intro before after holds part
      cases part with
      | _ => exact holds
    exact System.quiet_invariant preserved moved kept

/-- The registry fits its limit, each entry is the one hub of its id that is
alive, `onEmpty` removes its own hub's entry, and of two hubs with one id at most
one is not terminated. -/
structure System.Orderly (codec : Codec) (helloCodec : HelloCodec) (maxSessions : Nat)
    (s : System) : Prop where
  size : s.registry.sessions.keys.length ≤ maxSessions
  entry : ∀ sid i, s.registry.get sid = some i →
    ∃ p, s.hubs[i]? = some p ∧ p.sid = sid ∧ p.phase ≠ .ended ∧
      ∀ j q, s.hubs[j]? = some q → q.sid = sid → q.phase ≠ .ended → j = i
  own : ∀ i next, System.step codec helloCodec s (.onEmpty i) = some next →
    ∃ p, s.hubs[i]? = some p ∧ s.registry.get p.sid = some i ∧
      next.registry = s.registry.remove p.sid
  single : ∀ (i j : HubID) (p q : Proc), s.hubs[i]? = some p → s.hubs[j]? = some q → p.sid = q.sid →
    p.isDone = false → q.isDone = false → i = j

theorem System.Registered.unique (registered : s.Registered) {j : HubID} {q : Proc}
    (first : s.hubs[i]? = some p) (second : s.hubs[j]? = some q) (same : p.sid = q.sid)
    (alive : p.phase ≠ .ended) (other : q.phase ≠ .ended) : i = j := by
  -- A hub that is being created has no entry under its id, so the other one is it.
  have reserved : ∀ {k l : HubID} {r t : Proc} {conn : ConnID}, s.creating = some (conn, k) →
      s.hubs[k]? = some r → s.hubs[l]? = some t → r.sid = t.sid → t.phase ≠ .ended → l = k := by
    intro k l r t conn holds found there equal going
    obtain ⟨_, u, known, _, vacant⟩ := registered.reserved conn k holds
    cases found.symm.trans known
    rcases registered.listed l t there going with entry | ⟨holder, creating⟩
    · rw [← equal, vacant] at entry
      cases entry
    · cases holds.symm.trans creating
      rfl
  rcases registered.listed i p first alive with entry | ⟨conn, holds⟩
  · rcases registered.listed j q second other with later | ⟨conn, holds⟩
    · rw [← same, entry] at later
      exact Option.some.inj later
    · exact reserved holds second first same.symm alive
  · exact (reserved holds first second same other).symm

theorem Proc.alive_of_not_isDone (going : p.isDone = false) : p.phase ≠ .ended := by
  intro ended
  simp [Proc.isDone, ended] at going

/-- In every interleaving the registry and the lifetimes of the hubs agree. -/
theorem registry_orderly (codec : Codec) (helloCodec : HelloCodec)
    (maxSessions maxAge grace maxParticipants : Nat) (events : List Event) (s : System)
    (reached : run (System.step codec helloCodec)
      (System.start maxSessions maxAge grace maxParticipants) events = some s) :
    System.Orderly codec helloCodec maxSessions s := by
  have initial : (System.start maxSessions maxAge grace maxParticipants).Registered :=
    { size := Nat.zero_le _
      entered := fun sid i entry => by cases entry
      listed := fun i p found => by cases found
      reserved := fun conn i holds => by cases holds }
  have registered := run_invariant' (System.registered_step codec helloCodec) initial reached
  have limit := run_invariant' (System.maxCount_step codec helloCodec maxSessions) rfl reached
  refine
    { size := ?_
      entry := ?_
      own := ?_
      single := ?_ }
  · rw [← limit]
    exact registered.size
  · intro sid i entry
    obtain ⟨p, found, named, alive⟩ := registered.entered sid i entry
    refine ⟨p, found, named, alive, fun j q there equal going => ?_⟩
    exact registered.unique there found (equal.trans named.symm) going alive
  · intro i next stepped
    obtain ⟨free, emptied⟩ := Option.ite_none_left_eq_some.mp stepped
    obtain ⟨p, found, emptied⟩ := Option.bind_eq_some_iff.mp emptied
    obtain ⟨closed, retired⟩ := Option.ite_none_left_eq_some.mp emptied
    cases retired
    have alive : p.phase ≠ .ended := by
      rw [Decidable.not_not.mp closed]
      intro never
      cases never
    exact ⟨p, found, registered.own (Option.not_isSome_iff_eq_none.mp free) found alive, rfl⟩
  · intro i j p q first second same going other
    exact registered.unique first second same (Proc.alive_of_not_isDone going)
      (Proc.alive_of_not_isDone other)

/-- A hello whose body is a repeated byte of the session id and the rest of the
fields behind it. -/
def shortHello : HelloCodec :=
  { createSession := fun raw => some (Vector.replicate 16 (raw.headD 0), 0)
    joinSession := fun raw => some (Vector.replicate 16 (raw.headD 0))
    resumeSession := fun raw => some (Vector.replicate 16 (raw.headD 0), 1, raw.drop 1) }

/-- A session is created, left and retired, and created again under its id while
a visitor of the first one still has its handler. -/
def phraseReused : List Event :=
  [.opened 0 (.frame .createSession [7]), .greet 0 [1], .store 0 [1], .send 0 .inbox,
    .opened 1 (.frame .joinSession [7]), .greet 1 [2],
    .serve 0 .stored, .hear 0, .speak 0 (.leave 1 1 false) .inbox, .serve 0 .stored,
    .closeDone 0, .opened 2 (.frame .createSession [7]), .onEmpty 0, .greet 2 [3], .store 2 [3],
    .send 1 .done]

theorem phraseReused_orderly :
    ∃ s, run (System.step cborCodec shortHello) (System.start 2 100 30 16) phraseReused = some s ∧
      s.registry.get (Vector.replicate 16 7) = some 1 ∧
      System.Orderly cborCodec shortHello 2 s := by
  have finished : (run (System.step cborCodec shortHello) (System.start 2 100 30 16)
      phraseReused).any
        (fun s => decide (s.registry.get (Vector.replicate 16 7) = some 1)) = true := by
    decide +kernel
  obtain ⟨s, reached, entry⟩ := (Option.any_eq_true _ _).mp finished
  exact ⟨s, reached, of_decide_eq_true entry,
    registry_orderly cborCodec shortHello 2 100 30 16 phraseReused s reached⟩

end Parley.Relay
