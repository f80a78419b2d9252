/-!
# Sequences of checks

A check returns a value or an error; a sequence of checks succeeds when
every one of them does. A function written as such a sequence is read by
peeling the checks off one by one, without unfolding the monad:

- `Checks.bind_eq_ok`: a sequence of two succeeds if the first returns a
  value with which the second succeeds;
- `Checks.pure_eq_ok`: the end of a sequence returns what it was given;
- `Checks.forM_eq_ok`: a check of every element of a list.

The errors are arbitrary, so the lemmas serve validation, decoders and
the guards of a state machine alike. An error says where the sequence
stopped; what it says about the checks before it is in the lemmas of the
functions themselves.
-/

namespace Checks

universe u v w

variable {ε : Type u} {α β : Type v}

theorem bind_eq_ok {first : Except ε α} {rest : α → Except ε β} {b : β} :
    (first >>= rest) = .ok b ↔ ∃ a, first = .ok a ∧ rest a = .ok b := by
  cases first with
  | error e => simp [bind, Except.bind]
  | ok a => simp [bind, Except.bind]

theorem pure_eq_ok {a b : α} : (pure a : Except ε α) = .ok b ↔ a = b := by
  simp [pure, Except.pure]

/-- A check of every element. -/
theorem forM_eq_ok {check : α → Except ε PUnit.{v + 1}} {xs : List α} {u : PUnit} :
    xs.forM check = .ok u ↔ ∀ x ∈ xs, check x = .ok u := by
  induction xs with
  | nil => simp [List.forM, pure_eq_ok]
  | cons x xs ih =>
    rw [List.forM, bind_eq_ok, List.forall_mem_cons]
    exact ⟨fun ⟨_, hx, hxs⟩ => ⟨hx, ih.mp hxs⟩, fun ⟨hx, hxs⟩ => ⟨_, hx, ih.mpr hxs⟩⟩

end Checks
