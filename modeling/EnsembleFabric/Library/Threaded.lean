/-!
# Computations whose errors keep the state

A computation of type `Except (β × σ) σ` returns the state it reached,
also when it stops with an error. `final` is that state. A reflexive and
transitive relation that every step keeps between the state before and
the final state is kept by sequencing and by folds.

This is how a loop that may stop anywhere, and keeps what it did so far,
is reasoned about: nothing is said about where it stops, and the
relation holds there as well. `final_bind` is the rule for a sequence,
`final_foldlM` for a loop whose body may stop, `foldl_related` for one
whose body may not. `foldlM_eq_error` is the rule that does say where a
loop stopped: at one element, in a state the steps before it reached.
-/

namespace Threaded

universe u v w

variable {σ : Type u} {β : Type u} {α : Type v}

/-- The state a computation ends in, whether it stopped or not. -/
def final : Except (β × σ) σ → σ
  | .ok s => s
  | .error (_, s) => s

@[simp] theorem final_ok (s : σ) : final (.ok s : Except (β × σ) σ) = s := rfl

@[simp] theorem final_pure (s : σ) : final (pure s : Except (β × σ) σ) = s := rfl

@[simp] theorem final_error (b : β) (s : σ) :
    final (.error (b, s) : Except (β × σ) σ) = s := rfl

/-- Sequencing: what holds up to the middle and from there on. -/
theorem final_bind {R : σ → σ → Prop} (htrans : ∀ {a b c}, R a b → R b c → R a c) {s : σ}
    {first : Except (β × σ) σ} {rest : σ → Except (β × σ) σ} (hfirst : R s (final first))
    (hrest : ∀ m, first = .ok m → R m (final (rest m))) : R s (final (first >>= rest)) := by
  cases first with
  | error e => exact hfirst
  | ok m => exact htrans hfirst (hrest m rfl)

/-- Folds: what every step keeps. -/
theorem final_foldlM {R : σ → σ → Prop} (hrefl : ∀ a, R a a)
    (htrans : ∀ {a b c}, R a b → R b c → R a c) {f : σ → α → Except (β × σ) σ} {xs : List α}
    (hstep : ∀ s, ∀ x ∈ xs, R s (final (f s x))) (s : σ) : R s (final (xs.foldlM f s)) := by
  induction xs generalizing s with
  | nil => exact hrefl s
  | cons x xs ih =>
    rw [List.foldlM_cons]
    refine final_bind (R := R) htrans (hstep s x List.mem_cons_self) fun m _ => ?_
    exact ih (fun s y hy => hstep s y (List.mem_cons_of_mem _ hy)) m

/-- A fold that stops does so at one element, in a state the steps before it
reached. -/
theorem foldlM_eq_error {P : σ → Prop} {f : σ → α → Except (β × σ) σ} {xs : List α}
    (hstep : ∀ {s x m}, x ∈ xs → P s → f s x = .ok m → P m) {s : σ} (hs : P s) {stop : β × σ}
    (h : xs.foldlM f s = .error stop) : ∃ m, ∃ x ∈ xs, P m ∧ f m x = .error stop := by
  induction xs generalizing s with
  | nil => cases h
  | cons x xs ih =>
    rw [List.foldlM_cons] at h
    cases hx : f s x with
    | error stop' =>
      rw [hx] at h
      obtain rfl : stop' = stop := Except.error.inj h
      exact ⟨s, x, List.mem_cons_self, hs, hx⟩
    | ok m =>
      rw [hx] at h
      obtain ⟨m', y, hy, hm', hstop⟩ := ih
        (fun hy => hstep (List.mem_cons_of_mem _ hy)) (hstep List.mem_cons_self hs hx) h
      exact ⟨m', y, List.mem_cons_of_mem _ hy, hm', hstop⟩

/-- Folds that never stop. -/
theorem foldl_related {R : σ → σ → Prop} (hrefl : ∀ a, R a a)
    (htrans : ∀ {a b c}, R a b → R b c → R a c) {f : σ → α → σ} {xs : List α}
    (hstep : ∀ s, ∀ x ∈ xs, R s (f s x)) (s : σ) : R s (xs.foldl f s) := by
  induction xs generalizing s with
  | nil => exact hrefl s
  | cons x xs ih =>
    exact htrans (hstep s x List.mem_cons_self)
      (ih (fun s y hy => hstep s y (List.mem_cons_of_mem _ hy)) (f s x))

end Threaded
