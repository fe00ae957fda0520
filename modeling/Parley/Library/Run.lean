/-
Runs of partial step functions.

A step function returns `none` when an action is not enabled.  A run performs a
list of actions in order.  `Along` states a property of every action together
with the state in which it is performed, so conditions on the environment are
predicates on runs and not changes to the step function.
-/

import Mathlib.Data.List.Basic

namespace Parley.Library

variable {State Action : Type*}

/-- Perform the actions in order; a disabled action makes the run undefined. -/
def run (step : State → Action → Option State) : State → List Action → Option State
  | state, [] => some state
  | state, action :: rest => (step state action).bind (fun next => run step next rest)

/-- Each action of the run is performed in a state where `holds` is true of the
pair.  Actions after a disabled one are not performed and are not constrained. -/
def Along (step : State → Action → Option State) (holds : State → Action → Prop) :
    State → List Action → Prop
  | _, [] => True
  | state, action :: rest =>
      holds state action ∧ ∀ next, step state action = some next → Along step holds next rest

variable {step : State → Action → Option State}

@[simp] theorem run_nil (state : State) : run step state [] = some state := rfl

theorem run_cons_eq_some (state final : State) (action : Action) (rest : List Action) :
    run step state (action :: rest) = some final ↔
      ∃ next, step state action = some next ∧ run step next rest = some final := by
  simp only [run, Option.bind_eq_some_iff]

theorem run_append (state : State) (first second : List Action) :
    run step state (first ++ second) =
      (run step state first).bind (fun middle => run step middle second) := by
  induction first generalizing state with
  | nil => rfl
  | cons action rest ih =>
      simp only [List.cons_append, run]
      cases step state action with
      | none => rfl
      | some next => exact ih next

theorem run_append_eq_some (state final : State) (first second : List Action) :
    run step state (first ++ second) = some final ↔
      ∃ middle, run step state first = some middle ∧ run step middle second = some final := by
  rw [run_append, Option.bind_eq_some_iff]

/-- On a concrete run `Along` is checked by performing it. -/
instance Along.decidable {holds : State → Action → Prop}
    [checked : ∀ state action, Decidable (holds state action)] :
    (state : State) → (actions : List Action) → Decidable (Along step holds state actions)
  | _, [] => isTrue trivial
  | state, action :: rest =>
      match enabled : step state action with
      | none =>
          decidable_of_iff (holds state action)
            ⟨fun now => ⟨now, fun next stepped => by rw [enabled] at stepped; cases stepped⟩,
              fun along => along.1⟩
      | some next =>
          have : Decidable (Along step holds next rest) := Along.decidable next rest
          decidable_of_iff (holds state action ∧ Along step holds next rest)
            ⟨fun both => ⟨both.1, fun other stepped => by
                rw [enabled] at stepped
                cases stepped
                exact both.2⟩,
              fun along => ⟨along.1, along.2 next enabled⟩⟩

variable {actions second first : List Action} {holds : State → Action → Prop} {state : State}

theorem Along.append_left (along : Along step holds state (first ++ second)) :
    Along step holds state first := by
  induction first generalizing state with
  | nil => trivial
  | cons action rest ih =>
      exact ⟨along.1, fun next enabled => ih (along.2 next enabled)⟩

theorem Along.append_right {middle : State} (along : Along step holds state (first ++ second))
    (reached : run step state first = some middle) :
    Along step holds middle second := by
  induction first generalizing state with
  | nil =>
      cases reached
      exact along
  | cons action rest ih =>
      obtain ⟨next, enabled, tail⟩ := (run_cons_eq_some state middle action rest).mp reached
      exact ih (along.2 next enabled) tail

theorem Along.append (early : Along step holds state first)
    (late : ∀ middle, run step state first = some middle → Along step holds middle second) :
    Along step holds state (first ++ second) := by
  induction first generalizing state with
  | nil => exact late state rfl
  | cons action rest ih =>
      refine ⟨early.1, fun next enabled => ih (early.2 next enabled) (fun middle reached => ?_)⟩
      exact late middle ((run_cons_eq_some state middle action rest).mpr ⟨next, enabled, reached⟩)

variable {invariant : List Action → State → Prop} {permitted right left : State → Action → Prop}

theorem Along.and (first : Along step left state actions)
    (second : Along step right state actions) :
    Along step (fun state action => left state action ∧ right state action) state actions := by
  induction actions generalizing state with
  | nil => trivial
  | cons action rest ih =>
      exact ⟨⟨first.1, second.1⟩, fun next enabled => ih (first.2 next enabled) (second.2 next enabled)⟩

theorem Along.iff_of_imp {given : State → Action → Prop}
    (equivalent : ∀ state action, given state action → (left state action ↔ right state action))
    (along : Along step given state actions) :
    Along step left state actions ↔ Along step right state actions := by
  induction actions generalizing state with
  | nil => exact Iff.rfl
  | cons action rest ih =>
      have tails : ∀ next, step state action = some next →
          (Along step left next rest ↔ Along step right next rest) :=
        fun next enabled => ih (along.2 next enabled)
      exact and_congr (equivalent state action along.1)
        (forall_congr' (fun next => forall_congr' (fun enabled => tails next enabled)))

/-- The invariant rule: what a permitted step preserves holds at the end of
every run all of whose steps are permitted. -/
theorem run_invariant {invariant : State → Prop} {permitted : State → Action → Prop}
    (preserved : ∀ state action next, invariant state → permitted state action →
      step state action = some next → invariant next)
    {start final : State} {actions : List Action} (initial : invariant start)
    (along : Along step permitted start actions)
    (reached : run step start actions = some final) : invariant final := by
  induction actions generalizing start with
  | nil =>
      cases reached
      exact initial
  | cons action rest ih =>
      obtain ⟨next, enabled, tail⟩ := (run_cons_eq_some start final action rest).mp reached
      exact ih (preserved start action next initial along.1 enabled) (along.2 next enabled) tail

theorem Along.of_invariant {invariant : State → Prop}
    (preserved : ∀ state action next, invariant state → permitted state action →
      step state action = some next → invariant next)
    (guaranteed : ∀ state action, invariant state → permitted state action → holds state action)
    {start : State} (initial : invariant start)
    (along : Along step permitted start actions) : Along step holds start actions := by
  induction actions generalizing start with
  | nil => trivial
  | cons action rest ih =>
      refine ⟨guaranteed start action initial along.1, fun next enabled => ?_⟩
      exact ih (preserved start action next initial along.1 enabled) (along.2 next enabled)

theorem Along.trivially :
    Along step (fun _ _ => True) state actions := by
  induction actions generalizing state with
  | nil => trivial
  | cons action rest ih => exact ⟨trivial, fun _ _ => ih⟩

theorem run_invariant' {invariant : State → Prop}
    (preserved : ∀ state action next, invariant state →
      step state action = some next → invariant next)
    {start final : State} (initial : invariant start)
    (reached : run step start actions = some final) : invariant final :=
  run_invariant (fun state action next before _ => preserved state action next before) initial
    Along.trivially reached

theorem run_history_along
    (preserved : ∀ past state action next, invariant past state → permitted state action →
      step state action = some next → invariant (past ++ [action]) next)
    {start final : State} (initial : invariant [] start)
    (along : Along step permitted start actions)
    (reached : run step start actions = some final) : invariant actions final := by
  have general : ∀ (rest past : List Action) (state : State), invariant past state →
      Along step permitted state rest → run step state rest = some final →
      invariant (past ++ rest) final := by
    intro rest
    induction rest with
    | nil =>
        intro past state now _ reached
        cases reached
        rw [List.append_nil]
        exact now
    | cons action rest ih =>
        intro past state now along reached
        obtain ⟨next, enabled, tail⟩ := (run_cons_eq_some state final action rest).mp reached
        have later := ih (past ++ [action]) next
          (preserved past state action next now along.1 enabled) (along.2 next enabled) tail
        rwa [List.append_assoc] at later
  exact general actions [] start initial along reached

theorem run_history
    (preserved : ∀ past state action next, invariant past state →
      step state action = some next → invariant (past ++ [action]) next)
    {start final : State} (initial : invariant [] start)
    (reached : run step start actions = some final) : invariant actions final :=
  run_history_along (fun past state action next before _ => preserved past state action next before)
    initial Along.trivially reached

/-- The labels can be read one after another, from the first state to the
second. -/
def Path {Label : Type*} (reads : State → Label → State → Prop) : State → List Label → State → Prop
  | state, [], final => state = final
  | state, label :: rest, final => ∃ next, reads state label next ∧ Path reads next rest final

namespace Path

variable {Label : Type*} {reads : State → Label → State → Prop} {start middle final : State}

theorem append {first second : List Label} (before : Path reads start first middle)
    (after : Path reads middle second final) : Path reads start (first ++ second) final := by
  induction first generalizing start with
  | nil =>
      cases before
      exact after
  | cons label rest ih =>
      obtain ⟨next, read, tail⟩ := before
      exact ⟨next, read, ih tail⟩

theorem of_stays {labels : List Label} (stays : ∀ label ∈ labels, reads start label start) :
    Path reads start labels start := by
  induction labels with
  | nil => rfl
  | cons label rest ih =>
      exact ⟨start, stays label List.mem_cons_self,
        ih (fun other member => stays other (List.mem_cons_of_mem label member))⟩

end Path

end Parley.Library
