/-
The event stream of a mux and its shutdown.

Any goroutine may emit and any may shut the stream down.  An emit counts itself
under the mutex, sends or gives up outside it, and takes itself off the count
under the mutex again.  Shutdown marks the stream closed and wakes the emits that
wait for room.  The channel is closed by the shutdown if nobody is counted, else
by the last emit to leave.  Each section under the mutex, each channel operation
and each close of a channel is a step; closing a closed channel and sending on
one are faults.
-/

import Mathlib.Data.List.Basic
import Parley.Library.Run

namespace Parley.Service

open Library

structure Channel (Value : Type) where
  buffer : List Value
  capacity : Nat
  closed : Bool

inductive Fault where
  | sendOnClosed
  | closeOfClosed
  deriving DecidableEq, Repr

abbrev ThreadID : Type := Nat

/-- A call of `emit` or `shutdown` and how far it is. -/
inductive Thread (Value : Type) where
  /-- Before the first section of `emit`. -/
  | emitting (event : Value)
  /-- Counted, at the select. -/
  | sending (event : Value)
  /-- Past the select, before the last section. -/
  | returning
  /-- In the last section, taken off the count. -/
  | leaving
  /-- In the last section, past the close. -/
  | emitted
  /-- `emit` has returned. -/
  | finished
  /-- Before the section of `shutdown`. -/
  | stopping
  /-- In the section, the stream marked closed. -/
  | signalling
  /-- In the section, `quit` closed. -/
  | closing
  /-- In the section, past the close of the channel. -/
  | closed
  /-- `shutdown` has returned. -/
  | stopped
  deriving DecidableEq, Repr

structure Stream (Value : Type) where
  events : Channel Value
  quit : Bool
  closed : Bool
  pending : Int
  mutex : Option ThreadID
  threads : List (Thread Value)
  /-- How often the channel was closed. -/
  closings : Nat
  fault : Option Fault

/-- `NewMux` makes a channel for 256 events. -/
def Stream.start (Value : Type) (capacity : Nat) : Stream Value :=
  { events :=
      { buffer := []
        capacity := capacity
        closed := false }
    quit := false
    closed := false
    pending := 0
    mutex := none
    threads := []
    closings := 0
    fault := none }

inductive Move (Value : Type) where
  | emit (event : Value)
  | shutdown
  | advance (thread : ThreadID)
  /-- The select of `emit` takes the case of `quit`. -/
  | drop (thread : ThreadID)
  | receive

section

variable {Value : Type}

def Stream.put (s : Stream Value) (t : ThreadID) (thread : Thread Value) : Stream Value :=
  { s with threads := s.threads.set t thread }

def Stream.closeEvents (s : Stream Value) : Stream Value :=
  if s.events.closed then { s with fault := some .closeOfClosed }
  else
    { s with
      events := { s.events with closed := true }
      closings := s.closings + 1 }

def Stream.closeQuit (s : Stream Value) : Stream Value :=
  if s.quit then { s with fault := some .closeOfClosed } else { s with quit := true }

def Stream.send (s : Stream Value) (event : Value) : Option (Stream Value) :=
  if s.events.closed then some { s with fault := some .sendOnClosed }
  else if s.events.buffer.length < s.events.capacity then
    some { s with events := { s.events with buffer := s.events.buffer ++ [event] } }
  else none

def Stream.advance (s : Stream Value) (t : ThreadID) : Option (Stream Value) :=
  match s.threads[t]? with
  | some (.emitting event) =>
      if s.mutex.isSome then none
      else if s.closed then some (s.put t .finished)
      else some { s.put t (.sending event) with pending := s.pending + 1 }
  | some (.sending event) => (s.send event).map (fun sent => sent.put t .returning)
  | some .returning =>
      if s.mutex.isSome then none
      else some { s.put t .leaving with mutex := some t, pending := s.pending - 1 }
  | some .leaving =>
      some ((if s.closed ∧ s.pending = 0 then s.closeEvents else s).put t .emitted)
  | some .emitted => some { s.put t .finished with mutex := none }
  | some .stopping =>
      if s.mutex.isSome then none
      else if s.closed then some (s.put t .stopped)
      else some { s.put t .signalling with mutex := some t, closed := true }
  | some .signalling => some (s.closeQuit.put t .closing)
  | some .closing => some ((if s.pending = 0 then s.closeEvents else s).put t .closed)
  | some .closed => some { s.put t .stopped with mutex := none }
  | _ => none

def Stream.drop (s : Stream Value) (t : ThreadID) : Option (Stream Value) :=
  match s.threads[t]? with
  | some (.sending _) => if s.quit then some (s.put t .returning) else none
  | _ => none

def Stream.step (s : Stream Value) : Move Value → Option (Stream Value)
  | .emit event => some { s with threads := s.threads ++ [.emitting event] }
  | .shutdown => some { s with threads := s.threads ++ [.stopping] }
  | .advance t => s.advance t
  | .drop t => s.drop t
  | .receive =>
      match s.events.buffer with
      | [] => none
      | _ :: rest => some { s with events := { s.events with buffer := rest } }

/-- Between the two sections of `emit`. -/
def Thread.isCounted : Thread Value → Bool
  | .sending _ => true
  | .returning => true
  | _ => false

def Thread.isInside : Thread Value → Bool
  | .leaving => true
  | .emitted => true
  | .signalling => true
  | .closing => true
  | .closed => true
  | _ => false

def Thread.hasShut : Thread Value → Bool
  | .closed => true
  | .stopped => true
  | _ => false

def Thread.inFlight : Thread Value → Bool
  | .sending _ => true
  | .returning => true
  | .leaving => true
  | _ => false

/-- A closed stream has its channel closed exactly if nobody is counted. -/
def Stream.Settled (s : Stream Value) : Prop :=
  s.events.closed = true ↔ s.closed = true ∧ s.pending = 0

/-- Where the holder of the mutex is, and what that says of the channel. -/
inductive Stream.Control (s : Stream Value) : Prop where
  | free (unlocked : s.mutex = none) (settled : s.Settled) : Control s
  | leaving {t : ThreadID} (locked : s.mutex = some t) (stage : s.threads[t]? = some .leaving)
      (opened : s.events.closed = false) : Control s
  | emitted {t : ThreadID} (locked : s.mutex = some t) (stage : s.threads[t]? = some .emitted)
      (settled : s.Settled) : Control s
  | shutting {t : ThreadID} (locked : s.mutex = some t)
      (stage : s.threads[t]? = some .signalling ∧ s.quit = false ∨ s.threads[t]? = some .closing)
      (marked : s.closed = true) (opened : s.events.closed = false)
      (first : ∀ (u : ThreadID) (thread : Thread Value), s.threads[u]? = some thread →
        thread.hasShut = false) : Control s
  | closed {t : ThreadID} (locked : s.mutex = some t) (stage : s.threads[t]? = some .closed)
      (settled : s.Settled) : Control s

structure Stream.Coordinated (s : Stream Value) : Prop where
  control : s.Control
  inside : ∀ (t : ThreadID) (thread : Thread Value), s.threads[t]? = some thread →
    thread.isInside = true → s.mutex = some t
  tally : s.pending = (s.threads.countP Thread.isCounted : Nat)
  shut : ∀ (t : ThreadID) (thread : Thread Value), s.threads[t]? = some thread →
    thread.hasShut = true → s.closed = true
  quitted : s.quit = true → s.closed = true
  once : s.closings = if s.events.closed then 1 else 0
  sound : s.fault = none

variable {s next : Stream Value} {t : ThreadID} {old new thread : Thread Value}
  {threads : List (Thread Value)}

theorem lookup_set {u : ThreadID} (found : threads[t]? = some old)
    (there : (threads.set t new)[u]? = some thread) :
    (u = t ∧ thread = new) ∨ (u ≠ t ∧ threads[u]? = some thread) := by
  obtain ⟨within, _⟩ := List.getElem?_eq_some_iff.mp found
  by_cases same : u = t
  · subst same
    rw [List.getElem?_set_self within] at there
    exact Or.inl ⟨rfl, (Option.some.inj there).symm⟩
  · rw [List.getElem?_set_ne (Ne.symm same)] at there
    exact Or.inr ⟨same, there⟩

theorem lookup_set_self (found : threads[t]? = some old) (new : Thread Value) :
    (threads.set t new)[t]? = some new := by
  obtain ⟨within, _⟩ := List.getElem?_eq_some_iff.mp found
  exact List.getElem?_set_self within

theorem countP_set_eq (found : threads[t]? = some old) (new : Thread Value)
    (counted : Thread Value → Bool) :
    (((threads.set t new).countP counted : Nat) : Int) =
      (threads.countP counted : Nat) + (if counted new then 1 else 0) -
        (if counted old then 1 else 0) := by
  obtain ⟨within, rfl⟩ := List.getElem?_eq_some_iff.mp found
  have positive : counted threads[t] = true → 0 < threads.countP counted := fun holds =>
    List.countP_pos_iff.mpr ⟨_, List.getElem_mem within, holds⟩
  rw [List.countP_set within]
  cases old : counted threads[t] with
  | true =>
      have counts := positive old
      cases counted new <;> simp <;> omega
  | false => cases counted new <;> simp

theorem Stream.Coordinated.move (coordinated : s.Coordinated)
    (found : s.threads[t]? = some old)
    (threads : next.threads = s.threads.set t new) (control : next.Control)
    (others : ∀ u, u ≠ t → s.mutex = some u → next.mutex = some u)
    (inside : new.isInside = true → next.mutex = some t)
    (pending : next.pending =
      s.pending + (if new.isCounted then 1 else 0) - (if old.isCounted then 1 else 0))
    (closed : s.closed = true → next.closed = true)
    (shut : new.hasShut = true → next.closed = true)
    (quitted : next.quit = true → next.closed = true)
    (once : next.closings = if next.events.closed then 1 else 0) (sound : next.fault = none) :
    next.Coordinated := by
  refine
    { control := control
      inside := ?_
      tally := ?_
      shut := ?_
      quitted := quitted
      once := once
      sound := sound }
  · intro u thread there within
    rw [threads] at there
    rcases lookup_set found there with ⟨rfl, rfl⟩ | ⟨differs, before⟩
    · exact inside within
    · exact others u differs (coordinated.inside u thread before within)
  · rw [pending, threads, countP_set_eq found new, coordinated.tally]
  · intro u thread there done
    rw [threads] at there
    rcases lookup_set found there with ⟨rfl, rfl⟩ | ⟨_, before⟩
    · exact shut done
    · exact closed (coordinated.shut u thread before done)

theorem Stream.Coordinated.settled (coordinated : s.Coordinated) (unlocked : s.mutex = none) :
    s.Settled := by
  cases coordinated.control with
  | free _ settled => exact settled
  | leaving locked _ _ | emitted locked _ _ | shutting locked _ _ _ _ | closed locked _ _ =>
      cases unlocked.symm.trans locked

theorem Stream.Coordinated.opened (coordinated : s.Coordinated)
    (found : s.threads[t]? = some thread) (counted : thread.isCounted = true) :
    s.events.closed = false := by
  have someone : 0 < s.threads.countP Thread.isCounted :=
    List.countP_pos_iff.mpr ⟨thread, List.mem_of_getElem? found, counted⟩
  have tally := coordinated.tally
  have unshut : s.Settled → s.events.closed = false := by
    intro settled
    refine Bool.eq_false_iff.mpr (fun shut => ?_)
    have nobody := (settled.mp shut).2
    omega
  cases coordinated.control with
  | free _ settled => exact unshut settled
  | leaving _ _ opened => exact opened
  | emitted _ _ settled => exact unshut settled
  | shutting _ _ _ opened _ => exact opened
  | closed _ _ settled => exact unshut settled

theorem Stream.Control.holder (control : s.Control) (locked : s.mutex = some t) :
    ∃ thread, s.threads[t]? = some thread ∧ thread.isInside = true := by
  cases control with
  | free unlocked _ => cases unlocked.symm.trans locked
  | leaving held stage _ | emitted held stage _ =>
      cases locked.symm.trans held
      exact ⟨_, stage, rfl⟩
  | shutting held stage _ _ _ =>
      cases locked.symm.trans held
      rcases stage with ⟨stage, _⟩ | stage
      · exact ⟨_, stage, rfl⟩
      · exact ⟨_, stage, rfl⟩
  | closed held stage _ =>
      cases locked.symm.trans held
      exact ⟨_, stage, rfl⟩

theorem Stream.Control.other (control : s.Control)
    (kept : ∀ t, s.mutex = some t → next.threads[t]? = s.threads[t]?)
    (unshut : (∀ (u : ThreadID) (thread : Thread Value), s.threads[u]? = some thread →
        thread.hasShut = false) →
      ∀ (u : ThreadID) (thread : Thread Value), next.threads[u]? = some thread →
        thread.hasShut = false)
    (mutex : next.mutex = s.mutex) (marked : next.closed = s.closed) (quit : next.quit = s.quit)
    (events : next.events.closed = s.events.closed) (pending : next.pending = s.pending) :
    next.Control := by
  have settles : s.Settled → next.Settled := by
    intro settled
    unfold Stream.Settled
    rw [events, marked, pending]
    exact settled
  cases control with
  | free unlocked settled => exact .free (mutex.trans unlocked) (settles settled)
  | @leaving t locked stage opened =>
      exact .leaving (mutex.trans locked) ((kept t locked).trans stage) (events.trans opened)
  | @emitted t locked stage settled =>
      exact .emitted (mutex.trans locked) ((kept t locked).trans stage) (settles settled)
  | @shutting t locked stage marks opened first =>
      refine .shutting (mutex.trans locked) ?_ (marked.trans marks) (events.trans opened)
        (unshut first)
      rw [kept t locked, quit]
      exact stage
  | @closed t locked stage settled =>
      exact .closed (mutex.trans locked) ((kept t locked).trans stage) (settles settled)

theorem Stream.Coordinated.call (coordinated : s.Coordinated) (outside : thread.isInside = false)
    (uncounted : thread.isCounted = false) (unshut : thread.hasShut = false) :
    Stream.Coordinated { s with threads := s.threads ++ [thread] } := by
  have split : ∀ {u : ThreadID} {other : Thread Value},
      (s.threads ++ [thread])[u]? = some other → s.threads[u]? = some other ∨ other = thread := by
    intro u other there
    by_cases within : u < s.threads.length
    · exact Or.inl ((List.getElem?_append_left within).symm.trans there)
    · rw [List.getElem?_append_right (Nat.le_of_not_lt within)] at there
      exact Or.inr (List.mem_singleton.mp (List.mem_of_getElem? there))
  refine
    { coordinated with
      control := ?_
      inside := ?_
      tally := ?_
      shut := ?_ }
  · refine coordinated.control.other ?_ ?_ rfl rfl rfl rfl rfl
    · intro t locked
      obtain ⟨holder, stage, _⟩ := coordinated.control.holder locked
      have within : t < s.threads.length := (List.getElem?_eq_some_iff.mp stage).1
      exact List.getElem?_append_left within
    · intro first u other there
      rcases split there with before | rfl
      · exact first u other before
      · exact unshut
  · intro u other there within
    rcases split there with before | rfl
    · exact coordinated.inside u other before within
    · rw [outside] at within
      cases within
  · have same := coordinated.tally
    simp only [List.countP_append, List.countP_cons, List.countP_nil, uncounted]
    exact same
  · intro u other there done
    rcases split there with before | rfl
    · exact coordinated.shut u other before done
    · rw [unshut] at done
      cases done

theorem Stream.Coordinated.selected (coordinated : s.Coordinated) {event : Value}
    (found : s.threads[t]? = some (.sending event))
    (threads : next.threads = s.threads.set t .returning) (mutex : next.mutex = s.mutex)
    (marked : next.closed = s.closed) (quit : next.quit = s.quit)
    (events : next.events.closed = s.events.closed) (pending : next.pending = s.pending)
    (closings : next.closings = s.closings) (fault : next.fault = s.fault) : next.Coordinated := by
  have outside : s.mutex ≠ some t := by
    intro locked
    obtain ⟨holder, stage, within⟩ := coordinated.control.holder locked
    cases found.symm.trans stage
    cases within
  refine coordinated.move found threads ?_ ?_ (fun never => by cases never) ?_ ?_
    (fun never => by cases never) ?_ ?_ (fault.trans coordinated.sound)
  · refine coordinated.control.other ?_ ?_ mutex marked quit events pending
    · intro u locked
      rw [threads]
      refine List.getElem?_set_ne ?_
      rintro rfl
      exact outside locked
    · intro first u other there
      rw [threads] at there
      rcases lookup_set found there with ⟨_, rfl⟩ | ⟨_, before⟩
      · rfl
      · exact first u other before
  · intro u _ locked
    exact mutex.trans locked
  · rw [pending]
    simp [Thread.isCounted]
  · exact fun marks => marked.trans marks
  · intro quits
    exact marked.trans (coordinated.quitted (quit.symm.trans quits))
  · rw [closings, events]
    exact coordinated.once

theorem Stream.closeEvents_of_open (opened : s.events.closed = false) :
    s.closeEvents =
      { s with
        events := { s.events with closed := true }
        closings := s.closings + 1 } := by
  simp only [Stream.closeEvents, opened, Bool.false_eq_true, if_false]

theorem Stream.Coordinated.give_up (coordinated : s.Coordinated) (found : s.threads[t]? = some old)
    (unlocked : s.mutex = none) (marked : s.closed = true) (outside : new.isInside = false)
    (uncounted : new.isCounted = false) (before : old.isCounted = false) :
    (s.put t new).Coordinated := by
  refine coordinated.move found rfl (.free unlocked (coordinated.settled unlocked)) ?_ ?_ ?_ id
    (fun _ => marked) coordinated.quitted coordinated.once coordinated.sound
  · intro u _ locked
    exact locked
  · intro within
    rw [outside] at within
    cases within
  · simp only [Stream.put, uncounted, before, Bool.false_eq_true, if_false, Int.add_zero,
      Int.sub_zero]

theorem Stream.Coordinated.enter (coordinated : s.Coordinated) {event : Value}
    (found : s.threads[t]? = some (.emitting event)) (unlocked : s.mutex = none)
    (unmarked : s.closed = false) :
    Stream.Coordinated { s.put t (.sending event) with pending := s.pending + 1 } := by
  have opened : s.events.closed = false := by
    refine Bool.eq_false_iff.mpr (fun shut => ?_)
    have marked := ((coordinated.settled unlocked).mp shut).1
    rw [unmarked] at marked
    cases marked
  refine coordinated.move found rfl (.free unlocked ?_) (fun u _ locked => locked)
    (fun never => by cases never) ?_ id (fun never => by cases never) coordinated.quitted
    coordinated.once coordinated.sound
  · simp [Stream.Settled, Stream.put, opened, unmarked]
  · simp [Thread.isCounted]

theorem Stream.Coordinated.back (coordinated : s.Coordinated)
    (found : s.threads[t]? = some .returning) (unlocked : s.mutex = none) :
    Stream.Coordinated { s.put t .leaving with mutex := some t, pending := s.pending - 1 } := by
  refine coordinated.move found rfl
    (.leaving rfl (lookup_set_self found .leaving) (coordinated.opened found rfl)) ?_ (fun _ => rfl)
    ?_ id (fun never => by cases never) coordinated.quitted coordinated.once coordinated.sound
  · intro u _ locked
    cases unlocked.symm.trans locked
  · simp [Thread.isCounted]

theorem Stream.Coordinated.leave (coordinated : s.Coordinated)
    (found : s.threads[t]? = some .leaving) :
    Stream.Coordinated ((if s.closed ∧ s.pending = 0 then s.closeEvents else s).put t .emitted) := by
  have locked := coordinated.inside t _ found rfl
  have opened : s.events.closed = false := by
    cases coordinated.control with
    | free unlocked _ => cases unlocked.symm.trans locked
    | leaving _ _ opened => exact opened
    | emitted held stage _ =>
        cases locked.symm.trans held
        cases found.symm.trans stage
    | shutting _ _ _ opened _ => exact opened
    | closed held stage _ =>
        cases locked.symm.trans held
        cases found.symm.trans stage
  have once : s.closings = 0 := by
    have count := coordinated.once
    rwa [opened] at count
  split
  · rename_i last
    rw [Stream.closeEvents_of_open opened]
    refine coordinated.move found rfl (.emitted locked (lookup_set_self found .emitted) ?_)
      (fun u _ held => held) (fun _ => locked) ?_ id (fun never => by cases never)
      coordinated.quitted ?_ coordinated.sound
    · exact iff_of_true rfl last
    · simp [Stream.put, Thread.isCounted]
    · simp [Stream.put, once]
  · rename_i stays
    refine coordinated.move found rfl (.emitted locked (lookup_set_self found .emitted) ?_)
      (fun u _ held => held) (fun _ => locked) ?_ id (fun never => by cases never)
      coordinated.quitted coordinated.once coordinated.sound
    · exact iff_of_false (by simp [Stream.put, opened]) stays
    · simp [Stream.put, Thread.isCounted]

theorem Stream.Coordinated.unlock (coordinated : s.Coordinated) (found : s.threads[t]? = some old)
    (last : old = .emitted ∧ new = .finished ∨ old = .closed ∧ new = .stopped) :
    Stream.Coordinated { s.put t new with mutex := none } := by
  have locked : s.mutex = some t := by
    refine coordinated.inside t old found ?_
    rcases last with ⟨rfl, _⟩ | ⟨rfl, _⟩
    · rfl
    · rfl
  have settled : s.Settled := by
    cases coordinated.control with
    | free unlocked _ => cases unlocked.symm.trans locked
    | leaving held stage _ =>
        cases locked.symm.trans held
        cases found.symm.trans stage
        simp at last
    | emitted _ _ settled => exact settled
    | shutting held stage _ _ _ =>
        cases locked.symm.trans held
        rcases stage with ⟨stage, _⟩ | stage
        · cases found.symm.trans stage
          simp at last
        · cases found.symm.trans stage
          simp at last
    | closed _ _ settled => exact settled
  refine coordinated.move found rfl (.free rfl settled) ?_ ?_ ?_ id ?_ coordinated.quitted
    coordinated.once coordinated.sound
  · intro u differs held
    cases locked.symm.trans held
    exact absurd rfl differs
  · intro within
    rcases last with ⟨_, rfl⟩ | ⟨_, rfl⟩
    · cases within
    · cases within
  · rcases last with ⟨rfl, rfl⟩ | ⟨rfl, rfl⟩
    · simp [Stream.put, Thread.isCounted]
    · simp [Stream.put, Thread.isCounted]
  · intro shut
    rcases last with ⟨_, rfl⟩ | ⟨rfl, _⟩
    · cases shut
    · exact coordinated.shut t .closed found rfl

theorem Stream.Coordinated.stop (coordinated : s.Coordinated)
    (found : s.threads[t]? = some .stopping) (unlocked : s.mutex = none)
    (unmarked : s.closed = false) :
    Stream.Coordinated { s.put t .signalling with mutex := some t, closed := true } := by
  have opened : s.events.closed = false := by
    refine Bool.eq_false_iff.mpr (fun shut => ?_)
    have marked := ((coordinated.settled unlocked).mp shut).1
    rw [unmarked] at marked
    cases marked
  have quiet : s.quit = false := by
    refine Bool.eq_false_iff.mpr (fun quits => ?_)
    have marked := coordinated.quitted quits
    rw [unmarked] at marked
    cases marked
  refine coordinated.move found rfl
    (.shutting rfl (Or.inl ⟨lookup_set_self found .signalling, quiet⟩) rfl opened ?_) ?_
    (fun _ => rfl) ?_ (fun _ => rfl) (fun _ => rfl) (fun _ => rfl) coordinated.once
    coordinated.sound
  · intro u thread there
    rcases lookup_set found there with ⟨_, rfl⟩ | ⟨_, before⟩
    · rfl
    · refine Bool.eq_false_iff.mpr (fun shut => ?_)
      have marked := coordinated.shut u thread before shut
      rw [unmarked] at marked
      cases marked
  · intro u _ locked
    cases unlocked.symm.trans locked
  · simp [Stream.put, Thread.isCounted]

theorem Stream.Coordinated.shutting {s : Stream Value} (coordinated : s.Coordinated)
    {t : ThreadID} {old : Thread Value} (found : s.threads[t]? = some old)
    (midway : old = .signalling ∨ old = .closing) :
    s.mutex = some t ∧ s.closed = true ∧ s.events.closed = false ∧
      (old = .signalling → s.quit = false) ∧
      ∀ (u : ThreadID) (thread : Thread Value), s.threads[u]? = some thread →
        thread.hasShut = false := by
  have locked : s.mutex = some t := by
    refine coordinated.inside t old found ?_
    rcases midway with rfl | rfl
    · rfl
    · rfl
  refine ⟨locked, ?_⟩
  cases coordinated.control with
  | free unlocked _ => cases unlocked.symm.trans locked
  | leaving held stage _ | emitted held stage _ =>
      cases locked.symm.trans held
      cases found.symm.trans stage
      simp at midway
  | shutting held stage marked opened first =>
      cases locked.symm.trans held
      refine ⟨marked, opened, ?_, first⟩
      rintro rfl
      rcases stage with ⟨_, quiet⟩ | stage
      · exact quiet
      · cases found.symm.trans stage
  | closed held stage _ =>
      cases locked.symm.trans held
      cases found.symm.trans stage
      simp at midway

theorem Stream.Coordinated.signal (coordinated : s.Coordinated)
    (found : s.threads[t]? = some .signalling) : (s.closeQuit.put t .closing).Coordinated := by
  obtain ⟨locked, marked, opened, quiet, first⟩ := coordinated.shutting found (Or.inl rfl)
  have closes : s.closeQuit = { s with quit := true } := by
    simp only [Stream.closeQuit, quiet rfl, Bool.false_eq_true, if_false]
  rw [closes]
  refine coordinated.move found rfl
    (.shutting locked (Or.inr (lookup_set_self found .closing)) marked opened ?_)
    (fun u _ held => held) (fun _ => locked) ?_ id (fun never => by cases never) (fun _ => marked)
    coordinated.once coordinated.sound
  · intro u thread there
    rcases lookup_set found there with ⟨_, rfl⟩ | ⟨_, before⟩
    · rfl
    · exact first u thread before
  · simp [Stream.put, Thread.isCounted]

theorem Stream.Coordinated.finish (coordinated : s.Coordinated)
    (found : s.threads[t]? = some .closing) :
    Stream.Coordinated ((if s.pending = 0 then s.closeEvents else s).put t .closed) := by
  obtain ⟨locked, marked, opened, _, _⟩ := coordinated.shutting found (Or.inr rfl)
  have once : s.closings = 0 := by
    have count := coordinated.once
    rwa [opened] at count
  split
  · rename_i nobody
    rw [Stream.closeEvents_of_open opened]
    refine coordinated.move found rfl (.closed locked (lookup_set_self found .closed) ?_)
      (fun u _ held => held) (fun _ => locked) ?_ id (fun _ => marked) coordinated.quitted ?_
      coordinated.sound
    · exact iff_of_true rfl ⟨marked, nobody⟩
    · simp [Stream.put, Thread.isCounted]
    · simp [Stream.put, once]
  · rename_i somebody
    refine coordinated.move found rfl (.closed locked (lookup_set_self found .closed) ?_)
      (fun u _ held => held) (fun _ => locked) ?_ id (fun _ => marked) coordinated.quitted
      coordinated.once coordinated.sound
    · exact iff_of_false (by simp [Stream.put, opened]) (fun both => somebody both.2)
    · simp [Stream.put, Thread.isCounted]

theorem Stream.Coordinated.advance (coordinated : s.Coordinated)
    (stepped : s.advance t = some next) : next.Coordinated := by
  unfold Stream.advance at stepped
  split at stepped
  · rename_i event found
    obtain ⟨unlocked, stepped⟩ := Option.ite_none_left_eq_some.mp stepped
    have unlocked := Option.not_isSome_iff_eq_none.mp unlocked
    split at stepped
    · rename_i marked
      cases stepped
      exact coordinated.give_up found unlocked marked rfl rfl rfl
    · rename_i unmarked
      cases stepped
      exact coordinated.enter found unlocked (Bool.eq_false_iff.mpr unmarked)
  · rename_i event found
    obtain ⟨sent, sends, rfl⟩ := Option.map_eq_some_iff.mp stepped
    have opened := coordinated.opened found rfl
    simp only [Stream.send, opened, Bool.false_eq_true, if_false] at sends
    obtain ⟨_, ⟨⟩⟩ := Option.ite_none_right_eq_some.mp sends
    exact coordinated.selected found rfl rfl rfl rfl opened.symm rfl rfl rfl
  · rename_i found
    obtain ⟨unlocked, ⟨⟩⟩ := Option.ite_none_left_eq_some.mp stepped
    exact coordinated.back found (Option.not_isSome_iff_eq_none.mp unlocked)
  · rename_i found
    cases stepped
    exact coordinated.leave found
  · rename_i found
    cases stepped
    exact coordinated.unlock found (Or.inl ⟨rfl, rfl⟩)
  · rename_i found
    obtain ⟨unlocked, stepped⟩ := Option.ite_none_left_eq_some.mp stepped
    have unlocked := Option.not_isSome_iff_eq_none.mp unlocked
    split at stepped
    · rename_i marked
      cases stepped
      exact coordinated.give_up found unlocked marked rfl rfl rfl
    · rename_i unmarked
      cases stepped
      exact coordinated.stop found unlocked (Bool.eq_false_iff.mpr unmarked)
  · rename_i found
    cases stepped
    exact coordinated.signal found
  · rename_i found
    cases stepped
    exact coordinated.finish found
  · rename_i found
    cases stepped
    exact coordinated.unlock found (Or.inr ⟨rfl, rfl⟩)
  · cases stepped

theorem Stream.coordinated_step (s : Stream Value) (move : Move Value) (next : Stream Value)
    (coordinated : s.Coordinated) (stepped : s.step move = some next) : next.Coordinated := by
  cases move with
  | emit event | shutdown =>
      cases stepped
      exact coordinated.call rfl rfl rfl
  | advance t => exact coordinated.advance stepped
  | drop t =>
      simp only [Stream.step, Stream.drop] at stepped
      split at stepped
      · rename_i event found
        obtain ⟨_, ⟨⟩⟩ := Option.ite_none_right_eq_some.mp stepped
        exact coordinated.selected found rfl rfl rfl rfl rfl rfl rfl rfl
      · cases stepped
  | receive =>
      simp only [Stream.step] at stepped
      split at stepped
      · cases stepped
      · cases stepped
        exact
          { coordinated with
            control := coordinated.control.other (fun _ _ => rfl) id rfl rfl rfl rfl rfl }

theorem Stream.start_coordinated (capacity : Nat) : (Stream.start Value capacity).Coordinated :=
  { control := .free rfl (iff_of_false (fun never => by cases never) (fun both => by cases both.1))
    inside := fun t thread found => by cases found
    tally := rfl
    shut := fun t thread found => by cases found
    quitted := fun never => by cases never
    once := rfl
    sound := rfl }

end

/-! ### Every interleaving -/

/-- For any number of emits and shutdowns the channel is closed at most once,
nothing is sent on it afterwards, and it is closed once a shutdown has returned
and no emit is in flight. -/
theorem event_stream_closes_once (Value : Type) (capacity : Nat) (moves : List (Move Value))
    (s : Stream Value) (reached : run Stream.step (Stream.start Value capacity) moves = some s) :
    s.closings ≤ 1 ∧ s.fault = none ∧
      ((∃ t : ThreadID, s.threads[t]? = some .stopped) →
        (∀ (t : ThreadID) (thread : Thread Value), s.threads[t]? = some thread →
          thread.inFlight = false) →
        s.events.closed = true) := by
  have coordinated := run_invariant' Stream.coordinated_step (Stream.start_coordinated capacity)
    reached
  refine ⟨?_, coordinated.sound, ?_⟩
  · rw [coordinated.once]
    split
    · exact Nat.le_refl 1
    · exact Nat.zero_le 1
  · rintro ⟨t, returned⟩ landed
    have marked := coordinated.shut t _ returned rfl
    have nobody : s.pending = 0 := by
      have none : s.threads.countP Thread.isCounted = 0 := by
        refine List.countP_eq_zero.mpr (fun thread member counted => ?_)
        obtain ⟨u, found⟩ := List.mem_iff_getElem?.mp member
        have flying : thread.inFlight = true := by
          cases thread with
          | sending event => rfl
          | returning => rfl
          | _ => cases counted
        rw [landed u thread found] at flying
        cases flying
      rw [coordinated.tally, none]
      rfl
    cases coordinated.control with
    | free _ settled => exact settled.mpr ⟨marked, nobody⟩
    | leaving _ stage _ => cases landed _ _ stage
    | emitted _ _ settled => exact settled.mpr ⟨marked, nobody⟩
    | shutting _ _ _ _ first => cases first t _ returned
    | closed _ _ settled => exact settled.mpr ⟨marked, nobody⟩

/-- One emit fills the buffer, a second one waits for room; the stream is shut
down twice, and the waiting emit is the last to leave. -/
def parkedEmit : List (Move Nat) :=
  [.emit 7, .emit 8, .shutdown, .shutdown, .advance 0, .advance 1, .advance 0, .advance 2,
    .advance 2, .drop 1, .advance 2, .advance 2, .advance 0, .advance 0, .advance 0, .advance 3,
    .advance 1, .advance 1, .advance 1]

theorem parkedEmit_closes_once :
    ∃ s, run Stream.step (Stream.start Nat 1) parkedEmit = some s ∧ s.events.closed = true ∧
      s.events.buffer = [7] ∧ s.closings ≤ 1 ∧ s.fault = none := by
  have finished : (run Stream.step (Stream.start Nat 1) parkedEmit).any (fun s =>
      decide (s.threads = [.finished, .finished, .stopped, .stopped] ∧ s.events.buffer = [7])) =
        true := by
    decide +kernel
  obtain ⟨s, reached, state⟩ := (Option.any_eq_true _ _).mp finished
  obtain ⟨threads, buffer⟩ := of_decide_eq_true state
  obtain ⟨once, sound, closes⟩ := event_stream_closes_once Nat 1 parkedEmit s reached
  refine ⟨s, reached, closes ⟨2, by rw [threads]; rfl⟩ ?_, buffer, once, sound⟩
  intro t thread found
  have member := List.mem_of_getElem? found
  rw [threads] at member
  simp only [List.mem_cons, List.not_mem_nil, or_false] at member
  rcases member with rfl | rfl | rfl | rfl
  · rfl
  · rfl
  · rfl
  · rfl

end Parley.Service
