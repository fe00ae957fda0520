/-
The writer goroutine of a connection.

A kick makes it flush the out channel before it cancels the connection's context;
a failed write or a context that dies ends it at once.  Each of these, and a frame
that is queued, may come between any two of its steps, and a `select` with several
ready cases takes any of them.
-/

import Parley.Library.Run
import Parley.Relay.Hub

namespace Parley.Relay

open Wire Library

/-- In the loop of `writer`, in `drainAndCancel`, or returned. -/
inductive WriterStage where
  | pumping
  | draining
  | ended
  deriving DecidableEq, Repr

/-- The channel, all it ever took, what reached the socket, and the writer. -/
structure Outlet where
  out : List Bytes
  queued : List Bytes
  wire : List Bytes
  kicked : Bool
  cancelled : Bool
  stage : WriterStage

inductive OutletAction where
  | queue (frame : Bytes)
  | kick
  | lose
  | write (ok : Bool)
  | seeKick
  | seeDone
  | flushed

namespace Outlet

def start : Outlet :=
  { out := []
    queued := []
    wire := []
    kicked := false
    cancelled := false
    stage := .pumping }

def step (k : Outlet) : OutletAction → Option Outlet
  | .queue frame =>
      if k.out.length < sendBuffer then
        some { k with out := k.out ++ [frame], queued := k.queued ++ [frame] }
      else none
  | .kick => some { k with kicked := true }
  | .lose => some { k with cancelled := true }
  | .write ok =>
      match k.out with
      | [] => none
      | frame :: rest =>
          if k.stage = .ended then none
          else if ok then some { k with out := rest, wire := k.wire ++ [frame] }
          else some { k with out := rest, cancelled := true, stage := .ended }
  | .seeKick =>
      if k.stage = .pumping ∧ k.kicked then some { k with stage := .draining } else none
  | .seeDone =>
      if k.stage = .pumping ∧ k.cancelled then some { k with stage := .ended } else none
  | .flushed =>
      if k.stage = .draining ∧ k.out = [] then
        some { k with cancelled := true, stage := .ended }
      else none

def succeeds : OutletAction → Bool
  | .lose => false
  | .write ok => ok
  | _ => true

/-- Until the writer ends the context lives and every frame is written or waits;
after that all that was due is written. -/
structure Delivers (due : List Bytes) (k : Outlet) : Prop where
  unkicked : k.kicked = false → k.stage = .pumping
  going : k.stage ≠ .ended →
    k.cancelled = false ∧ k.queued = k.wire ++ k.out ∧ due <+: k.queued
  done : k.stage = .ended → due <+: k.wire ∧ k.wire <+: k.queued

theorem delivers_step {due : List Bytes} (k : Outlet) (action : OutletAction) (next : Outlet)
    (delivers : k.Delivers due) (successful : succeeds action = true)
    (stepped : k.step action = some next) : next.Delivers due := by
  obtain ⟨unkicked, going, done⟩ := delivers
  cases action with
  | queue frame =>
      obtain ⟨_, ⟨⟩⟩ := Option.ite_none_right_eq_some.mp stepped
      have longer := List.prefix_append k.queued [frame]
      refine ⟨unkicked, fun live => ?_, fun past => ⟨(done past).1, (done past).2.trans longer⟩⟩
      obtain ⟨alive, split, due⟩ := going live
      exact ⟨alive, by rw [split, List.append_assoc], due.trans longer⟩
  | kick =>
      cases stepped
      exact ⟨nofun, going, done⟩
  | lose => cases successful
  | write ok =>
      simp only [step] at stepped
      split at stepped
      · cases stepped
      · rename_i frame rest waiting
        obtain ⟨live, wrote⟩ := Option.ite_none_left_eq_some.mp stepped
        cases successful
        cases wrote
        obtain ⟨alive, split, due⟩ := going live
        refine ⟨unkicked, fun _ => ⟨alive, ?_, due⟩, fun past => absurd past live⟩
        rw [split, waiting, List.append_cons]
  | seeKick =>
      obtain ⟨now, ⟨⟩⟩ := Option.ite_none_right_eq_some.mp stepped
      refine ⟨fun never => ?_, fun _ => going (by rw [now.1]; decide), nofun⟩
      rw [now.2] at never
      cases never
  | seeDone =>
      obtain ⟨now, _⟩ := Option.ite_none_right_eq_some.mp stepped
      obtain ⟨alive, _⟩ := going (by rw [now.1]; decide)
      cases alive.symm.trans now.2
  | flushed =>
      obtain ⟨now, ⟨⟩⟩ := Option.ite_none_right_eq_some.mp stepped
      -- The channel is empty, so everything it took is written.
      obtain ⟨_, split, due⟩ := going (by rw [now.1]; decide)
      rw [now.2, List.append_nil] at split
      refine ⟨fun never => ?_, fun never => absurd rfl never, fun _ => ?_⟩
      · cases now.1.symm.trans (unkicked never)
      · rw [← split]
        exact ⟨due, List.prefix_rfl⟩

/-- What the writer does by itself once it is kicked, every write a success. -/
def flushes : OutletAction → Bool
  | .write ok => ok
  | .seeKick | .flushed => true
  | .queue _ | .kick | .lose | .seeDone => false

/-- So many steps of the writer alone can end it, and none of them fails. -/
def EndsWithin (k : Outlet) (steps : Nat) : Prop :=
  ∃ flush last, flush.length ≤ steps ∧ (∀ action ∈ flush, flushes action = true) ∧
    run step k flush = some last ∧ last.stage = .ended

theorem endsWithin_of_kicked (k : Outlet) (kicked : k.kicked = true) :
    k.EndsWithin (k.out.length + 2) := by
  obtain ⟨out, queued, wire, _, cancelled, stage⟩ := k
  cases kicked
  by_cases past : stage = .ended
  · exact ⟨[], _, Nat.zero_le _, nofun, rfl, past⟩
  induction out generalizing wire with
  | nil =>
      cases stage with
      | pumping => exact ⟨[.seeKick, .flushed], _, Nat.le_refl 2, by decide, rfl, rfl⟩
      | draining => exact ⟨[.flushed], _, Nat.le_succ 1, by decide, rfl, rfl⟩
      | ended => exact absurd rfl past
  | cons frame rest ih =>
      obtain ⟨flush, last, short, own, reached, ended⟩ := ih (wire ++ [frame])
      refine ⟨.write true :: flush, last, Nat.succ_le_succ short, ?_, ?_, ended⟩
      · exact List.forall_mem_cons.mpr ⟨rfl, own⟩
      · simpa only [run, step, if_neg past, if_true, Option.bind_some] using reached

/-- A writer cancels its connection and returns only when all that was queued before
the kick is on the wire, in the order of the channel; and a kicked one can always
get there by itself. -/
theorem kick_flushes (early late : List OutletAction) (k last : Outlet)
    (begun : run step start early = some k) (unkicked : k.kicked = false)
    (finished : run step k late = some last)
    (smooth : Along step (fun _ action => succeeds action = true) start (early ++ late)) :
    last.wire <+: last.queued ∧
      (last.stage = .ended ∨ last.cancelled = true → k.queued <+: last.wire) ∧
      (last.kicked = true → last.EndsWithin (last.out.length + 2)) := by
  have initial : start.Delivers [] :=
    { unkicked := fun _ => rfl
      going := fun _ => ⟨rfl, rfl, List.prefix_rfl⟩
      done := nofun }
  have ready := run_invariant delivers_step initial smooth.append_left begun
  have due : k.Delivers k.queued :=
    { ready with
      going := fun live => ⟨(ready.going live).1, (ready.going live).2.1, List.prefix_rfl⟩
      done := fun past => by cases (ready.unkicked unkicked).symm.trans past }
  have delivers := run_invariant delivers_step due (smooth.append_right begun) finished
  rw [← and_assoc]
  refine ⟨?_, last.endsWithin_of_kicked⟩
  by_cases past : last.stage = .ended
  · exact ⟨(delivers.done past).2, fun _ => (delivers.done past).1⟩
  · obtain ⟨alive, split, _⟩ := delivers.going past
    refine ⟨split ▸ List.prefix_append _ _, fun ends => ?_⟩
    rcases ends with ended | cancelled
    · exact absurd ended past
    · cases alive.symm.trans cancelled

/-- Two frames are queued, one is written, and the kick flushes the other. -/
theorem kick_flushes_second :
    (∃ k, run step start ([.queue [1], .queue [2], .write true] ++ [.kick]) = some k ∧
        k.EndsWithin 3) ∧
      ∃ last, run step start ([.queue [1], .queue [2], .write true] ++
        [.kick, .seeKick, .write true, .flushed]) = some last ∧ [[1], [2]] <+: last.wire := by
  refine ⟨⟨_, rfl, ?_⟩, _, rfl, ?_⟩
  · exact (kick_flushes [.queue [1], .queue [2], .write true] [.kick] _ _ rfl rfl rfl
      (by decide)).2.2 rfl
  · exact (kick_flushes [.queue [1], .queue [2], .write true]
      [.kick, .seeKick, .write true, .flushed] _ _ rfl rfl rfl (by decide)).2.1 (Or.inl rfl)

end Outlet

end Parley.Relay
