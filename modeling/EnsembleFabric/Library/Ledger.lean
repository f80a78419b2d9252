import Mathlib.Data.List.Induction
import EnsembleFabric.Library.EventSystem

/-!
# Ledgers of a run

Every event of a run may put out any number of entries; the ledger holds
them in order. What is known of a state and the ledger so far is carried
from event to event (`run_ledger`).

The state of a system often has forgotten what it put out before: a
counter is kept, the numbers it gave out are not. A claim about all that a
run ever put out is then a claim about the pair of the state and the
ledger, and `run_ledger` is its induction rule. The condition on the
events is that of `Along`, so the rule serves runs that are admitted step
by step.
-/

namespace EventSystem

universe u v w

variable {σ : Type u} {ε : Type v} {ω : Type w} {step : σ → ε → σ} {emit : σ → ε → List ω}

/-- What the events of a run put out, in order. -/
def ledger (step : σ → ε → σ) (emit : σ → ε → List ω) : σ → List ε → List ω
  | _, [] => []
  | s, e :: events => emit s e ++ ledger step emit (step s e) events

theorem ledger_append (s : σ) (first second : List ε) :
    ledger step emit s (first ++ second)
      = ledger step emit s first ++ ledger step emit (run step s first) second := by
  induction first generalizing s with
  | nil => rfl
  | cons e first ih => rw [List.cons_append, ledger, ledger, ih, List.append_assoc, run_cons]

/-- What holds at the start and is kept by every admitted event, together
with the entries it adds, holds of every admitted run and its ledger. -/
theorem run_ledger {condition : σ → ε → Prop} {I : σ → List ω → Prop} {start : σ}
    (hstep : ∀ before e, condition (run step start before) e →
      I (run step start before) (ledger step emit start before) →
      I (step (run step start before) e)
        (ledger step emit start before ++ emit (run step start before) e))
    {events : List ε} (hc : Along step condition start events) (hs : I start []) :
    I (run step start events) (ledger step emit start events) := by
  induction events using List.reverseRecOn with
  | nil => exact hs
  | append_singleton before e ih =>
    obtain ⟨hbefore, he⟩ := along_append.mp hc
    have hnext := hstep before e he.1 (ih hbefore)
    rw [run_append, ledger_append]
    simpa [ledger] using hnext

end EventSystem
