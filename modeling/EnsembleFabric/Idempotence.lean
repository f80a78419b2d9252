import EnsembleFabric.Rest

/-!
# Advance is idempotent

An advance that answers leaves the execution at rest. The next one finds
nothing to do: it returns no actions, allocates no identity, and changes
nothing but the reports, which find what they found before.

The proof puts two things together. The rounds of an advance end at rest
(`Rest`), and being at rest is about the records and not about the advance
that left them, so it holds where the next one starts (`Rest.restart`). An
advance that starts at rest writes reports only (`advanceOpen_at_rest`).

The reports are the one thing that does change: consensus reads the
consensus of the report before, so a second report need not be equal to
the first. `SameButReported` says that two records differ in the reports
of the execution at most, and it is what the theorem promises of the
record after the second advance.
-/

namespace EnsembleFabric

open AdvanceState

/-! ## Reports of a reported execution -/

/-- Two executions that differ in their reports at most. -/
def SameButReports (x x' : ExecutionRecord) : Prop :=
  x' = { x with
    reportGeneration := x'.reportGeneration
    quorum := x'.quorum
    consensus := x'.consensus
    arbitration := x'.arbitration }

theorem SameButReports.refl (x : ExecutionRecord) : SameButReports x x := rfl

theorem SameButReports.trans {x y z : ExecutionRecord} (h : SameButReports x y)
    (h' : SameButReports y z) : SameButReports x z := by
  rw [SameButReports] at h h' ⊢
  rw [h', h]

theorem computeReports_again (e : EnsembleRecord) (x : ExecutionRecord) :
    SameButReports (computeReports e x) (computeReports e (computeReports e x)) := by
  have hcandidates := computeReports_candidates_twice e x
  generalize computeReports e x = y at hcandidates ⊢
  have hfields : computeReports e y = { y with
      reportGeneration := (computeReports e y).reportGeneration
      quorum := (computeReports e y).quorum
      consensus := (computeReports e y).consensus
      arbitration := (computeReports e y).arbitration
      candidates := (computeReports e y).candidates } := rfl
  rw [hcandidates] at hfields
  exact hfields

/-- However often a reported execution is reported again, only the reports
change. -/
theorem reported_again {e : EnsembleRecord} {x x' : ExecutionRecord}
    (h : Reported e (computeReports e x) x') :
    SameButReports (computeReports e x) x' ∧ ∃ y, x' = computeReports e y := by
  induction h with
  | refl => exact ⟨.refl _, x, rfl⟩
  | tail _ hlast ih =>
    obtain ⟨hsame, y, rfl⟩ := ih
    subst hlast
    exact ⟨hsame.trans (computeReports_again e y), _, rfl⟩

/-! ## What an advance never changes -/

namespace AdvanceState

theorem activateMembers_ensemble (trigger : FallbackTrigger) (ids : List ParticipantId)
    (s : AdvanceState) :
    (ids.foldl (activateMember trigger) s).ensemble.superseded = s.ensemble.superseded := by
  induction ids generalizing s with
  | nil => rfl
  | cons id rest ih => exact ih (activateMember trigger s id)

/-- An advance neither supersedes the ensemble nor closes the execution. -/
theorem AdvanceStep.keeps_open {limits : Limits} {s s' : AdvanceState}
    (h : AdvanceStep limits s s') :
    s'.ensemble.superseded = s.ensemble.superseded ∧ s'.execution.status = s.execution.status := by
  cases h with
  | round | adopted | stranded | dispatched | completed | reported => exact ⟨rfl, rfl⟩
  | @declared _ stage _ undeclared result =>
    obtain ⟨m, hm, rfl⟩ := declareStage_eq_ok undeclared result
    have hmembers := declareMembers_same limits stage stage.participants s
    rw [hm, Threaded.final_ok] at hmembers
    exact ⟨congrArg _ hmembers.ensemble, by rw [hmembers.execution]⟩
  | reopened =>
    unfold reopenPlanning
    split <;> exact ⟨rfl, rfl⟩
  | planned _ incomplete result =>
    obtain ⟨done, added, hplans, -⟩ := planEvaluations_plans incomplete
    rw [result, Threaded.final_ok] at hplans
    exact ⟨congrArg _ hplans.ensemble, by rw [hplans.execution]⟩
  | emitted index =>
    obtain ⟨hensemble, hexecution | ⟨p, p', -, -, hexecution⟩⟩ := emitOne_execution s index
    · exact ⟨congrArg _ hensemble, by rw [hexecution]⟩
    · exact ⟨congrArg _ hensemble, by rw [hexecution]⟩
  | @activated trigger _ decision =>
    refine ⟨?_, by rw [(activateFallback_eq decision).1]; rfl⟩
    rw [activateFallback, decision]
    exact activateMembers_ensemble trigger _ s.requestFallback

end AdvanceState

/-! ## The second advance -/

/-- An advance of a reported execution at rest. -/
theorem advanceOpen_at_rest {limits : Limits} {core : Core} {e : EnsembleRecord}
    {x : ExecutionRecord} (h : Rest (advanceStart core e (computeReports e x))) :
    ∃ b x', advanceOpen limits core e (computeReports e x)
        = ({ advanceStart core e x' with progress := b }, .ok [])
      ∧ SameButReports (computeReports e x) x' := by
  obtain ⟨b, x', hloop, hreported, -⟩ := h.loop limits 64
  obtain ⟨hsame, y, rfl⟩ := reported_again hreported
  refine ⟨b, computeReports e (computeReports e y), ?_, hsame.trans (computeReports_again e y)⟩
  rw [advanceOpen_eq, hloop]
  rfl

/-- What is at rest is at rest for the next advance. -/
theorem AdvanceState.Rest.restart {s : AdvanceState} (h : Rest s) (held : ExecutionRecord) :
    Rest (advanceStart s.core (s.ensemble.holding held) s.execution) := by
  cases h with
  | waiting current declared quiet incomplete => exact .waiting current declared quiet incomplete
  | decided consumed ready passive decision =>
    exact .decided consumed ⟨ready.complete, ready.covered⟩ passive decision

/-- Two records of an ensemble that differ in the reports of the execution
at most. -/
structure SameButReported (e e' : EnsembleRecord) : Prop where
  ensemble : e' = { e with execution := e'.execution }
  execution : Option.Rel SameButReports e.execution e'.execution

theorem SameButReported.refl (e : EnsembleRecord) : SameButReported e e := by
  refine ⟨rfl, ?_⟩
  cases e.execution with
  | none => exact .none
  | some x => exact .some (.refl x)

/-- After an advance that answers, the next one returns no actions and
changes nothing but reports. This holds in every reachable state and for every
ensemble, whatever the first advance did. -/
theorem advance_idempotent (config : FabricConfig) (events : List Event) (id : EnsembleId)
    (generation : EnsembleGeneration) (actions : List FabricAction)
    (h : (advance ((System.initial config).run events).fabric id generation).2 = .ok actions) :
    let after := (advance ((System.initial config).run events).fabric id generation).1
    (advance after id generation).2 = .ok []
      ∧ (advance after id generation).1.core = after.core
      ∧ ∀ other, Option.Rel SameButReported (after.find other)
          ((advance after id generation).1.find other) := by
  have hsame : ∀ (f : Fabric) other, Option.Rel SameButReported (f.find other) (f.find other) := by
    intro f other
    cases f.find other with
    | none => exact .none
    | some e => exact .some (.refl e)
  have hstaged : ∀ {e x},
      ((System.initial config).run events).fabric.find id = some e → e.execution = some x →
      x.status = .opened →
      (advanceStart ((System.initial config).run events).fabric.core e x).Staged :=
    fun he hx hopen => reachable_staged config events he hx hopen
  generalize ((System.initial config).run events).fabric = f at h hstaged ⊢
  have hanswers := advance_answers f id generation
  generalize hout : advance f id generation = out at hanswers h ⊢
  have hidle : ∀ {g : Fabric} {actions}, advance g id generation = (g, .ok actions) →
      actions = [] → (advance g id generation).2 = .ok []
        ∧ (advance g id generation).1.core = g.core
        ∧ ∀ other, Option.Rel SameButReported (g.find other)
          ((advance g id generation).1.find other) := by
    intro g actions hg hnone
    rw [hg, hnone]
    exact ⟨rfl, rfl, hsame g⟩
  cases hanswers with
  | refused => cases h
  | idle => exact hidle hout rfl
  | withdrawn find named execution status =>
    refine hidle (advance_idle (Fabric.find_store_self ..) named fun x' hx' => ?_) rfl
    obtain rfl := Option.some.inj hx'
    exact ⟨by simp [emitCancellation, status], fun _ => rfl⟩
  | closed find named execution status =>
    refine hidle (advance_idle (Fabric.find_store_self ..) named fun x' hx' => ?_) rfl
    obtain rfl := Option.some.inj hx'
    constructor
    · rintro ⟨⟩
    · rintro ⟨⟩
  | @worked e x find named execution status live =>
    have hends := advanceOpen_ends f.config.limits f.core e x
    generalize advanceOpen f.config.limits f.core e x = work at hends h ⊢
    cases hends with
    | stopped => cases h
    | @settled s steps result =>
      have hrest := advanceLoop_rests (hstaged find execution status) rfl 62 result
      obtain ⟨hspec, hsuperseded, hstatus⟩ := advanceSteps_keep
        (P := fun m : AdvanceState => m.ensemble.spec = e.spec
          ∧ m.ensemble.superseded = e.superseded ∧ m.execution.status = x.status)
        (fun hstep hkept => ⟨hstep.spec.trans hkept.1, hstep.keeps_open.1.trans hkept.2.1,
          hstep.keeps_open.2.trans hkept.2.2⟩)
        steps ⟨rfl, rfl, rfl⟩
      let x₁ := s.report.execution
      let e₁ := s.report.ensemble.holding x₁
      let g : Fabric := { f with core := s.report.core }.store id e₁
      have hfind : g.find id = some e₁ := Fabric.find_store_self ..
      obtain ⟨b, x₂, hagain, hreports⟩ := @advanceOpen_at_rest f.config.limits g.core e₁ s.execution
        (hrest.report.restart x₁)
      have hagain : advanceOpen g.config.limits g.core e₁ x₁
          = ({ advanceStart g.core e₁ x₂ with progress := b }, .ok []) := hagain
      change (advance g id generation).2 = _ ∧ _ = g.core ∧ ∀ other,
        Option.Rel SameButReported (g.find other) ((advance g id generation).1.find other)
      rw [advance_worked hfind ((congrArg _ hspec).trans named) rfl (hstatus.trans status)
        (hsuperseded.trans live), hagain]
      refine ⟨rfl, rfl, fun other => ?_⟩
      change Option.Rel SameButReported (g.find other) ((g.store id (e₁.holding x₂)).find other)
      rw [Fabric.find_store g id other (e₁.holding x₂)]
      split
      · rename_i hother
        subst hother
        rw [hfind]
        exact .some ⟨rfl, .some hreports⟩
      · exact hsame g other

namespace Sample

/-- The first candidate of the sequential stage is dispatched. -/
def stagedStart : List Event :=
  .defineEnsemble stagedSpec :: stagedSpec.participants.map (fun p => register p.id.value)
    ++ [.openExecution ⟨1⟩ ⟨1⟩]

def dispatchesOne : Outcome (List FabricAction) → Bool
  | .ok [.dispatch _] => true
  | _ => false

end Sample

/-- The first advance of an execution dispatches its first candidate, the
next one does nothing. -/
theorem stagedStart_idempotent :
    ∃ action,
      (advance (Sample.reached Sample.stagedStart).fabric ⟨1⟩ ⟨1⟩).2 = .ok [.dispatch action]
      ∧ (advance (advance (Sample.reached Sample.stagedStart).fabric ⟨1⟩ ⟨1⟩).1 ⟨1⟩ ⟨1⟩).2
        = .ok [] := by
  have hfirst : ∃ action,
      (advance (Sample.reached Sample.stagedStart).fabric ⟨1⟩ ⟨1⟩).2 = .ok [.dispatch action] := by
    have hrun : Sample.dispatchesOne
        (advance (Sample.reached Sample.stagedStart).fabric ⟨1⟩ ⟨1⟩).2 = true := by decide +kernel
    unfold Sample.dispatchesOne at hrun
    split at hrun
    · rename_i action hanswer
      exact ⟨action, hanswer⟩
    · cases hrun
  obtain ⟨action, hfirst⟩ := hfirst
  exact ⟨action, hfirst, (advance_idempotent {} Sample.stagedStart ⟨1⟩ ⟨1⟩ _ hfirst).1⟩

end EnsembleFabric
