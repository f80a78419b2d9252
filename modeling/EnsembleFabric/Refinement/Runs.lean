import EnsembleFabric.Refinement.Executions
import EnsembleFabric.System

/-!
# Runs refine the lifecycle

Every event is a sequence of moves on every ensemble, except the last
section of a restart, which only changes the epoch. So a property of
views that moves and the epoch change preserve holds along every run, and
a relation they meet relates any two states of a run.

> reachable_view : what moves and restarts preserve holds of every ensemble
> of every reachable state.

Invariants are asked of one ensemble at a time; the scope of the moves
says which evaluations the run records. Most invariants of the
development go through this module: they are proved for a move, by one
case per kind of move, and `reachable_view` or `reachable_ofExecution`
makes them facts about the runtime. The identities of slots are the first
of them (`reachable_apart`).

A condition on the events of a run enters as a restriction of the scope:
`Allows` says that the scope allows what an event would record, and
`run_viewSteps` takes a run whose events are all allowed to a sequence of
steps under that scope.
-/

namespace EnsembleFabric

open List (Forall₂)
open EventSystem

/-! ## One event -/

theorem remember_fabric (s : System) (outcome : Outcome EnsembleResult) :
    (s.remember outcome).fabric = s.fabric := by
  cases outcome <;> rfl

@[simp] theorem setClient_fabric (s : System) (client : Nat) (phase : ClientPhase) :
    (s.setClient client phase).fabric = s.fabric := rfl

/-- The scope allows whatever the event would record. -/
def Allows (sc : Scope) (s : System) : Event → Prop
  | .submitEvaluation submission => AllowsRecord sc s.fabric submission
  | _ => True

/-- The last section of a restart. -/
def Bumps (s s' : System) : Prop := ∃ boot, s'.fabric = System.bumpEpoch s.fabric boot

theorem resume_refines {sc : Scope} {s : System} (hlimits : sc.limits = s.fabric.config.limits)
    (client : Nat) (boot : WorkerBootId) :
    Refines sc s.fabric (s.resume client boot).1.fabric
      ∨ s.clients client = .restartBumping ∧ Bumps s (s.resume client boot).1 := by
  unfold System.resume
  split
  · exact .inl (.refl _)
  · rename_i id generation checked hphase
    refine .inl ?_
    have hprepare : Refines sc s.fabric (prepareResult s.fabric id generation).1 :=
      prepareResult_refines s.fabric id generation
    simp only
    split <;> exact hprepare
  · exact .inl (commitResult_refines hlimits _)
  · exact .inl (invalidateDynamicAuthority_refines s.fabric _)
  · rename_i hphase
    exact .inr ⟨hphase, boot, rfl⟩

theorem next_refines {sc : Scope} {s : System} {event : Event}
    (hlimits : sc.limits = s.fabric.config.limits) (hnamed : Named s.fabric)
    (hfits : FitsBound sc.bound s.fabric)
    (hallows : Allows sc s event) :
    Refines sc s.fabric (s.next event).fabric
      ∨ (∃ client boot, event = .resume client boot ∧ s.clients client = .restartBumping)
        ∧ Bumps s (s.next event) := by
  cases event with
  | defineEnsemble spec => exact .inl (defineEnsemble_refines hlimits hnamed spec)
  | supersedeEnsemble id generation => exact .inl (supersedeEnsemble_refines _ _ _)
  | registerParticipant registration => exact .inl (registerParticipant_refines hfits _)
  | openExecution id generation => exact .inl (openExecution_refines _ _ _)
  | advance id generation => exact .inl (advance_refines _ _ _)
  | submitCandidate submission => exact .inl (submitCandidate_refines hlimits _)
  | submitCandidateFailure submission => exact .inl (submitCandidateFailure_refines hfits _)
  | submitCandidateAbstention submission => exact .inl (submitCandidateAbstention_refines _ _)
  | submitEvaluation submission => exact .inl (submitEvaluation_refines hallows)
  | reportParticipantFailure authority kind detail =>
    exact .inl (reportParticipantFailure_refines hfits _ _ _)
  | cancelEnsemble id generation reason => exact .inl (cancelEnsemble_refines _ _ _ _)
  | invalidateDynamicAuthority reason => exact .inl (invalidateDynamicAuthority_refines _ _)
  | prepareResult id generation =>
    refine .inl ?_
    simpa [System.next, System.step, remember_fabric]
      using prepareResult_refines s.fabric id generation
  | commitResult result => exact .inl (commitResult_refines hlimits _)
  | finalize client id generation =>
    refine .inl ?_
    simp only [System.next, System.step]
    split
    · exact .refl _
    · split <;> exact .refl _
  | restart client reason =>
    refine .inl ?_
    simp only [System.next, System.step]
    split
    · exact .refl _
    · split <;> exact .refl _
  | resume client boot =>
    rcases resume_refines hlimits client boot with h | ⟨hphase, hbumps⟩
    · exact .inl h
    · exact .inr ⟨⟨client, boot, rfl, hphase⟩, hbumps⟩

/-! ## Runs -/

/-- The scope of a run: the limits of its runtime, and what it records. -/
def runScope (config : FabricConfig)
    (records : EnsembleRecord → ExecutionRecord → EvaluationRecord → Prop :=
      fun _ _ _ => True) : Scope where
  limits := config.limits
  records

/-- A step relation on views: a move, or a new epoch. -/
inductive ViewStep (sc : Scope) : View → View → Prop
  | move {v v'} (step : Move sc v v') : ViewStep sc v v'
  | epoch {k en boot} :
      ViewStep sc ⟨k, en⟩ ⟨{ k with epoch := k.epoch.next, coordinatorBoot := boot }, en⟩

section Runs

variable {config : FabricConfig}
  {records : EnsembleRecord → ExecutionRecord → EvaluationRecord → Prop}

/-- Without a restriction on records, every event is allowed. -/
theorem allows_all (config : FabricConfig) (s : System) (event : Event) :
    Allows (runScope config) s event := by
  cases event <;> first | trivial | exact fun _ _ => trivial

theorem next_viewSteps {s : System} {event : Event} (hconfig : s.fabric.config = config)
    (hnamed : Named s.fabric) (hallows : Allows (runScope config records) s event)
    (id : EnsembleId) :
    (s.next event).fabric.config = config ∧ Named (s.next event).fabric
      ∧ Relation.ReflTransGen (ViewStep (runScope config records)) (s.fabric.view id)
        ((s.next event).fabric.view id) := by
  rcases next_refines (by rw [hconfig]; rfl) hnamed (fitsBound_words s.fabric) hallows
    with hrefines | ⟨-, boot, hbump⟩
  · have hlift : Move (runScope config records) ≤ ViewStep (runScope config records) :=
      fun _ _ => ViewStep.move
    exact ⟨hrefines.config.trans hconfig, hrefines.named hnamed,
      Relation.ReflTransGen.mono hlift _ _ (hrefines.moves id)⟩
  · rw [hbump]
    exact ⟨hconfig, hnamed, .single .epoch⟩

/-- The views of an ensemble along a run whose records are allowed. -/
theorem run_viewSteps {s : System} {events : List Event} (hconfig : s.fabric.config = config)
    (hnamed : Named s.fabric)
    (hallows : Along System.next (Allows (runScope config records)) s events) (id : EnsembleId) :
    Relation.ReflTransGen (ViewStep (runScope config records)) (s.fabric.view id)
      ((s.run events).fabric.view id) := by
  induction events generalizing s with
  | nil => exact .refl
  | cons event events ih =>
    obtain ⟨hnext, hnamed', hsteps⟩ := next_viewSteps hconfig hnamed hallows.1 id
    exact hsteps.trans (ih hnext hnamed' hallows.2)

theorem initial_named (config : FabricConfig) : Named (System.initial config).fabric := by
  intro id e h
  cases h

theorem reachable_named (config : FabricConfig) (events : List Event) :
    ((System.initial config).run events).fabric.config = config
      ∧ Named ((System.initial config).run events).fabric :=
  run_invariant (I := fun s : System => s.fabric.config = config ∧ Named s.fabric)
    (fun s event h =>
      have hnext := next_viewSteps h.1 h.2 (allows_all config s event) ⟨0⟩
      ⟨hnext.1, hnext.2.1⟩) ⟨rfl, initial_named config⟩

/-- A new epoch leaves the slots and the allocators alone. -/
theorem Apart.bumpEpoch {f : Fabric} (h : Apart f) (boot : WorkerBootId) :
    Apart (System.bumpEpoch f boot) :=
  ⟨fun id => ⟨(h.numbered id).candidates, (h.numbered id).pending⟩, h.candidates, h.pending⟩

theorem next_apart {s : System} (hnamed : Named s.fabric) (event : Event)
    (h : Apart s.fabric) : Apart (s.next event).fabric := by
  rcases next_refines rfl hnamed (fitsBound_words s.fabric)
    (allows_all s.fabric.config s event) with hrefines | ⟨-, boot, hbump⟩
  · exact hrefines.apart h
  · rw [hbump]
    exact h.bumpEpoch boot

/-- In every reachable state the identities of slots are all different. -/
theorem reachable_apart (config : FabricConfig) (events : List Event) :
    Apart ((System.initial config).run events).fabric := by
  refine (run_invariant (I := fun s : System => Named s.fabric ∧ Apart s.fabric)
    (fun s event h => ⟨(next_viewSteps rfl h.1 (allows_all _ s event) ⟨0⟩).2.1,
      next_apart h.1 event h.2⟩) ?_).2
  exact ⟨initial_named config, fun _ => ⟨.nil _, .nil _⟩, fun _ _ _ => List.disjoint_nil_left _,
      fun _ _ _ => List.disjoint_nil_left _⟩

/-- Without a restriction on records, every run is allowed. -/
theorem along_allows (s : System) (events : List Event) :
    Along System.next (Allows (runScope config)) s events :=
  along_of_forall (allows_all config)

theorem ViewStep.invariant {sc : Scope} {P : View → Prop}
    (hmove : ∀ {v v'}, Move sc v v' → P v → P v')
    (hepoch : ∀ {k en boot}, P ⟨k, en⟩ →
      P ⟨{ k with epoch := k.epoch.next, coordinatorBoot := boot }, en⟩)
    {v v' : View} (h : Relation.ReflTransGen (ViewStep sc) v v') (hv : P v) : P v' := by
  induction h with
  | refl => exact hv
  | tail _ hstep ih =>
    cases hstep with
    | move hmoved => exact hmove hmoved ih
    | epoch => exact hepoch ih

theorem ViewStep.related {sc : Scope} {R : View → View → Prop} (hrefl : ∀ v, R v v)
    (htrans : ∀ {a b c}, R a b → R b c → R a c) (hmove : ∀ {v v'}, Move sc v v' → R v v')
    (hepoch : ∀ {k en boot},
      R ⟨k, en⟩ ⟨{ k with epoch := k.epoch.next, coordinatorBoot := boot }, en⟩)
    {v v' : View} (h : Relation.ReflTransGen (ViewStep sc) v v') : R v v' := by
  induction h with
  | refl => exact hrefl v
  | tail _ hstep ih =>
    cases hstep with
    | move hmoved => exact htrans ih (hmove hmoved)
    | epoch => exact htrans ih hepoch

/-- What moves and restarts preserve holds of every ensemble of every
reachable state. -/
theorem reachable_view {P : View → Prop}
    (hmove : ∀ {v v'}, Move (runScope config records) v v' → P v → P v')
    (hepoch : ∀ {k en boot}, P ⟨k, en⟩ →
      P ⟨{ k with epoch := k.epoch.next, coordinatorBoot := boot }, en⟩)
    (hinit : P ⟨(Fabric.create config).core, none⟩) {events : List Event}
    (hallows : Along System.next (Allows (runScope config records)) (.initial config) events)
    (id : EnsembleId) : P (((System.initial config).run events).fabric.view id) := by
  have hsteps := run_viewSteps (s := .initial config) rfl (initial_named config) hallows id
  exact ViewStep.invariant hmove hepoch hsteps hinit

/-- What new executions have and every change preserves, the executions of
every reachable state have. -/
theorem reachable_ofExecution {P : EnsembleRecord → ExecutionRecord → Prop}
    (hopen : ∀ (e : EnsembleRecord) id epoch, P (e.holding { id, coordinatorEpoch := epoch })
      { id, coordinatorEpoch := epoch })
    (hsupersede : ∀ {e x}, P e x → P { e with superseded := true } x)
    (hseats : ∀ {e x ps}, Forall₂ (SeatStep (2 ^ 64)) e.participants ps → P e x →
      P { e with participants := ps } x)
    (hstep : ∀ {e x x'}, ExecutionStep (runScope config records) e x x' → P e x →
      P (e.holding x') x')
    (hdeclare : ∀ {e x c}, c.state = .declared → P e x →
      P (e.holding { x with candidates := x.candidates ++ [c] })
        { x with candidates := x.candidates ++ [c] })
    (hplan : ∀ {e x p}, p.answered = false →
      (p.kind = .hardPredicate → p.criterion ∈ e.spec.evidence.mandatoryCriteria) → P e x →
      P (e.holding { x with pending := x.pending ++ [p] })
        { x with pending := x.pending ++ [p] })
    {events : List Event}
    (hallows : Along System.next (Allows (runScope config records)) (.initial config) events)
    (id : EnsembleId) : OfExecution P (((System.initial config).run events).fabric.view id) := by
  refine reachable_view (Move.ofExecution hopen hsupersede hseats hstep hdeclare hplan)
    (fun h => h) ?_ hallows id
  rintro _ _ ⟨⟩

end Runs

end EnsembleFabric
