/-!
# Event systems

A deterministic system takes one event after another. `run` is the state
after a list of events; `Along` says that every event of a run meets a
condition in the state it happens in. The rules carry what one step
preserves over a whole run:

- `run_invariant` and `run_invariant_along`: what every (admitted) step
  preserves, every (admitted) run preserves;
- `run_invariant_reached`: the same where a step may use that it starts
  in a state of the run, so that invariants proved before are at hand;
- `run_related`: a reflexive and transitive relation met by every step
  relates the ends of every run.

`Along` is decidable where the condition is, so that a concrete run can
be checked to be admitted. `outputs` collects what the events put out, and
`outputs_nodup` says when nothing is put out twice: what an event puts out
it uses up, and what is used up stays so and is not put out.
-/

namespace EventSystem

universe u v w

variable {σ : Type u} {ε : Type v} {step : σ → ε → σ}

def run (step : σ → ε → σ) (s : σ) (events : List ε) : σ := events.foldl step s

@[simp] theorem run_nil (s : σ) : run step s [] = s := rfl

@[simp] theorem run_cons (s : σ) (e : ε) (events : List ε) :
    run step s (e :: events) = run step (step s e) events := rfl

theorem run_append (s : σ) (first second : List ε) :
    run step s (first ++ second) = run step (run step s first) second :=
  List.foldl_append

/-- Every event of the run meets the condition where it happens. The condition is
about the state before the event, and about no state inside of it. -/
def Along (step : σ → ε → σ) (condition : σ → ε → Prop) : σ → List ε → Prop
  | _, [] => True
  | s, e :: events => condition s e ∧ Along step condition (step s e) events

instance decidableAlong {condition : σ → ε → Prop} [∀ s e, Decidable (condition s e)] :
    ∀ (s : σ) (events : List ε), Decidable (Along step condition s events)
  | _, [] => .isTrue trivial
  | s, e :: events =>
      have : Decidable (Along step condition (step s e) events) := decidableAlong (step s e) events
      inferInstanceAs (Decidable (condition s e ∧ Along step condition (step s e) events))

@[simp] theorem along_nil (condition : σ → ε → Prop) (s : σ) :
    Along step condition s [] := trivial

theorem along_append {condition : σ → ε → Prop} {s : σ} {first second : List ε} :
    Along step condition s (first ++ second)
      ↔ Along step condition s first ∧ Along step condition (run step s first) second := by
  induction first generalizing s with
  | nil => simp
  | cons e first ih => simp only [List.cons_append, Along, ih, run_cons, and_assoc]

theorem Along.mono {condition weaker : σ → ε → Prop}
    (h : ∀ s e, condition s e → weaker s e) {s : σ} {events : List ε}
    (hs : Along step condition s events) : Along step weaker s events := by
  induction events generalizing s with
  | nil => trivial
  | cons e events ih => exact ⟨h s e hs.1, ih hs.2⟩

theorem along_of_forall {condition : σ → ε → Prop} (h : ∀ s e, condition s e) {s : σ}
    {events : List ε} : Along step condition s events := by
  induction events generalizing s with
  | nil => trivial
  | cons e events ih => exact ⟨h s e, ih⟩

/-- Every event of the run meets the condition after the events before it. -/
theorem along_iff {condition : σ → ε → Prop} {s : σ} {events : List ε} :
    Along step condition s events
      ↔ ∀ before e, before ++ [e] <+: events → condition (run step s before) e := by
  induction events generalizing s with
  | nil => simp
  | cons first rest ih =>
    constructor
    · rintro ⟨hfirst, hrest⟩ before e hprefix
      cases before with
      | nil =>
        obtain rfl : e = first := by simpa using hprefix
        exact hfirst
      | cons b before =>
        rw [List.cons_append, List.cons_prefix_cons] at hprefix
        obtain ⟨rfl, hprefix⟩ := hprefix
        exact ih.mp hrest before e hprefix
    · intro h
      refine ⟨h [] first (by simp), ih.mpr fun before e hprefix => ?_⟩
      exact h (first :: before) e (by simpa using hprefix)

/-- What every admitted step preserves, every admitted run preserves. -/
theorem run_invariant_along {condition : σ → ε → Prop} {I : σ → Prop}
    (hstep : ∀ s e, condition s e → I s → I (step s e)) {s : σ} {events : List ε}
    (hc : Along step condition s events) (hs : I s) : I (run step s events) := by
  induction events generalizing s with
  | nil => exact hs
  | cons e events ih => exact ih hc.2 (hstep s e hc.1 hs)

/-- What every step preserves, every run preserves. -/
theorem run_invariant {I : σ → Prop} (hstep : ∀ s e, I s → I (step s e)) {s : σ}
    {events : List ε} (hs : I s) : I (run step s events) := by
  have hfree : Along step (fun _ _ => True) s events := along_of_forall fun _ _ => trivial
  exact run_invariant_along (fun s e _ h => hstep s e h) hfree hs

/-- An invariant whose steps are known to start in a state of the run. -/
theorem run_invariant_reached {condition : σ → ε → Prop} {I : σ → Prop} {start : σ}
    (hstep : ∀ before e, condition (run step start before) e → I (run step start before) →
      I (step (run step start before) e))
    {events : List ε} (hc : Along step condition start events) (hs : I start) :
    I (run step start events) := by
  have hreached : ∀ s e, condition s e → (I s ∧ ∃ before, s = run step start before) →
      I (step s e) ∧ ∃ before, step s e = run step start before := by
    rintro s e hcond ⟨hI, before, rfl⟩
    exact ⟨hstep before e hcond hI, before ++ [e], by rw [run_append]; rfl⟩
  exact (run_invariant_along hreached hc ⟨hs, [], rfl⟩).1

/-- A relation that is reflexive, transitive and met by every step relates
the ends of every run. -/
theorem run_related {R : σ → σ → Prop} (hrefl : ∀ s, R s s)
    (htrans : ∀ {a b c}, R a b → R b c → R a c) (hstep : ∀ s e, R s (step s e)) (s : σ)
    (events : List ε) : R s (run step s events) := by
  induction events generalizing s with
  | nil => exact hrefl s
  | cons e events ih => exact htrans (hstep s e) (ih (step s e))

/-! ## Outputs -/

variable {ω : Type w}

/-- What the events of a run put out, each in the state it happens in. -/
def outputs (step : σ → ε → σ) (output : σ → ε → Option ω) : σ → List ε → List ω
  | _, [] => []
  | s, e :: events => (output s e).toList ++ outputs step output (step s e) events

/-- Outputs are all different when an output is used up by the event that
puts it out, stays used up, and is not put out then. `I` is what is known of
a state and the events still to come. -/
theorem outputs_nodup {output : σ → ε → Option ω} {I : σ → List ε → Prop} {U : ω → σ → Prop}
    (hnext : ∀ {s e rest}, I s (e :: rest) → I (step s e) rest)
    (hkeep : ∀ {s e rest o}, I s (e :: rest) → U o s → U o (step s e))
    (hunused : ∀ {s e rest o}, I s (e :: rest) → output s e = some o → ¬ U o s)
    (huses : ∀ {s e rest o}, I s (e :: rest) → output s e = some o → U o (step s e))
    {s : σ} {events : List ε} (hs : I s events) :
    (outputs step output s events).Nodup ∧ ∀ o ∈ outputs step output s events, ¬ U o s := by
  induction events generalizing s with
  | nil => exact ⟨List.nodup_nil, fun _ h => by cases h⟩
  | cons e rest ih =>
    obtain ⟨hnodup, hlater⟩ := ih (hnext hs)
    have hrest : ∀ o ∈ outputs step output (step s e) rest, ¬ U o s :=
      fun o ho hused => hlater o ho (hkeep hs hused)
    unfold outputs
    cases hout : output s e with
    | none => exact ⟨hnodup, hrest⟩
    | some o =>
      refine ⟨List.nodup_cons.mpr ⟨fun ho => hlater o ho (huses hs hout), hnodup⟩, ?_⟩
      intro o' ho'
      rcases List.mem_cons.mp ho' with rfl | ho'
      · exact hunused hs hout
      · exact hrest o' ho'

end EventSystem
