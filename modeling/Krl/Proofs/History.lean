import Mathlib.Data.List.Infix

/-!
# Histories

The states that a run of steps passes through, and its moments: what each event finds, and what
comes behind it. A property of a run is one of its events and the state behind them; an event at
the end adds one state to those that a run passes through, and so does one at the start.
-/

set_option autoImplicit false

namespace Krl

variable {σ ε : Type} {step : σ → ε → σ} {s t : σ} {events : List ε} {e : ε}

/-- A run of events passes through a state, at its start, between two events or at its end. -/
def Passes (step : σ → ε → σ) (s : σ) (events : List ε) (t : σ) : Prop :=
  ∃ before, before <+: events ∧ before.foldl step s = t

namespace Passes

/-- A run passes through the state to which it leads. -/
theorem last : Passes step s events (events.foldl step s) := ⟨events, List.prefix_rfl, rfl⟩

theorem last_concat : Passes step s (events ++ [e]) (step (events.foldl step s) e) :=
  ⟨events ++ [e], List.prefix_rfl, List.foldl_concat ..⟩

theorem concat (h : Passes step s events t) : Passes step s (events ++ [e]) t := by
  obtain ⟨before, hbefore, heq⟩ := h
  exact ⟨before, hbefore.trans (List.prefix_append _ _), heq⟩

theorem first : Passes step s events s := ⟨[], List.nil_prefix, rfl⟩

theorem cons (h : Passes step (step s e) events t) : Passes step s (e :: events) t := by
  obtain ⟨before, hbefore, heq⟩ := h
  exact ⟨e :: before, List.cons_prefix_cons.2 ⟨rfl, hbefore⟩, heq⟩

/-- What a check of all beginnings of a run shows of the states that it passes through. -/
theorem of_inits (P : σ → Prop) (h : ∀ before ∈ events.inits, P (before.foldl step s))
    (ht : Passes step s events t) : P t := by
  obtain ⟨before, hbefore, rfl⟩ := ht
  exact h before ((List.mem_inits _ _).2 hbefore)

end Passes

/-- A moment of a run: an event, the state that it finds, and the events that come later. -/
structure Moment (σ ε : Type) where
  state : σ
  event : ε
  later : List ε

/-- The moments of a run, in order. -/
def moments (step : σ → ε → σ) : σ → List ε → List (Moment σ ε)
  | _, [] => []
  | s, e :: events => ⟨s, e, events⟩ :: moments step (step s e) events

end Krl
