import Mathlib.Logic.Relation

/-!
# Transition systems

Runs of a transition system, the rule that lifts a property kept by every
step to all reachable states, the projection of one system's runs to
another's, and runs given by a schedule of operations.
-/

namespace QMux.Support

/-- States a system may start in, and its atomic steps. -/
structure TransitionSystem (σ : Type*) where
  initial : σ → Prop
  step : σ → σ → Prop

namespace TransitionSystem

variable {σ τ : Type*}

/-- `later` is reached from `earlier` by finitely many steps. -/
def Reaches (system : TransitionSystem σ) : σ → σ → Prop :=
  Relation.ReflTransGen system.step

/-- The states of all runs from an initial state. -/
inductive Reachable (system : TransitionSystem σ) : σ → Prop where
  | start {state : σ} (initial : system.initial state) :
      Reachable system state
  | next {before after : σ} (reachable : Reachable system before)
      (step : system.step before after) : Reachable system after

variable {system : TransitionSystem σ} {Invariant : σ → Prop}

variable {earlier later state : σ}

theorem Reachable.trans (reachable : system.Reachable earlier)
    (reaches : system.Reaches earlier later) : system.Reachable later := by
  induction reaches with
  | refl => exact reachable
  | tail _ step ih => exact ih.next step

/-- A property that holds initially and is kept by every step from a
reachable state holds in every reachable state. -/
theorem Reachable.invariant
    (start : ∀ state, system.initial state → Invariant state)
    (keep : ∀ before after, system.Reachable before → Invariant before →
      system.step before after → Invariant after)
    (reachable : system.Reachable state) : Invariant state := by
  induction reachable with
  | start initial => exact start _ initial
  | next earlier step ih => exact keep _ _ earlier ih step

/-- A property kept by every step from a reachable state survives to the end
of a run. -/
theorem Reaches.invariant (Invariant : σ → Prop)
    (keep : ∀ before after, system.Reachable before → Invariant before →
      system.step before after → Invariant after)
    (reachable : system.Reachable earlier)
    (reaches : system.Reaches earlier later) (holds : Invariant earlier) :
    Invariant later := by
  induction reaches with
  | refl => exact holds
  | tail prefixRun step ih =>
    exact keep _ _ (reachable.trans prefixRun) ih step

theorem Reachable.project {other : TransitionSystem τ} {project : σ → τ}
    (start : ∀ state, system.initial state → other.initial (project state))
    (simulate : ∀ before after, system.Reachable before →
      system.step before after → other.Reaches (project before) (project after))
    (reachable : system.Reachable state) : other.Reachable (project state) := by
  induction reachable with
  | start initial => exact .start (start _ initial)
  | next earlier step ih => exact ih.trans (simulate _ _ earlier step)

section Schedule

variable {α : Type*} (enabled : σ → α → Prop) (apply : σ → α → σ)

/-- Each operation of the schedule is enabled when its turn comes. -/
def Allows : σ → List α → Prop
  | _, [] => True
  | state, op :: rest => enabled state op ∧ Allows (apply state op) rest

instance Allows.decidable [∀ state op, Decidable (enabled state op)] :
    (state : σ) → (schedule : List α) →
      Decidable (Allows enabled apply state schedule)
  | _, [] => isTrue trivial
  | state, op :: rest =>
    have := Allows.decidable (apply state op) rest
    inferInstanceAs (Decidable (_ ∧ _))

variable {enabled apply}

theorem Reachable.schedule
    (steps : ∀ state op, enabled state op → system.step state (apply state op))
    {state : σ} (reachable : system.Reachable state) {schedule : List α}
    (allows : Allows enabled apply state schedule) :
    system.Reachable (schedule.foldl apply state) := by
  induction schedule generalizing state with
  | nil => exact reachable
  | cons op rest ih =>
    exact ih (reachable.next (steps state op allows.1)) allows.2

end Schedule

end TransitionSystem

end QMux.Support
