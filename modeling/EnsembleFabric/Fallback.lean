import EnsembleFabric.CandidateBound
import EnsembleFabric.Rest

/-!
# Fallback triggers

When nothing is outstanding and a declared trigger fires, fallback is either
activated or reported as required. Three things stand in the way. Activation
waits for every evaluation handed out, also for one whose evaluator is gone,
where `executionSettled` does not. It happens once, whatever the depth
allows, and only a depth that is used up is reported. And the report reads
the consensus of the report before, so a disagreement that comes up after
the activation is not answered.

The theorem is about one advance of a reachable state, in terms of the state
before it and of what it leaves (`FiringAdvance`): the execution is open,
nothing is outstanding any more, and a trigger fires. The advance has come to
rest behind its stages, and there it decided on fallback (`Rest.decision`).
Before the activation, `fallbackDecision` would have activated it unless it
waited for an evaluation (`AllAnswerable`). After the activation only the
report is left, and `computeReports_exhausted` says when it reports.

`deep_fallback_ignored` is a run in which a second fallback is declared and
never comes.
-/

namespace EnsembleFabric

open List (Forall₂)
open EventSystem AdvanceState Precedence

/-! ## Evaluations that can be answered -/

/-- The evaluator the evaluation was planned for can still answer it. -/
def Answerable (e : EnsembleRecord) (p : PendingEvaluation) : Prop :=
  ∃ evaluator, e.participant? p.evaluator = some evaluator
    ∧ p.evaluatorGeneration = evaluator.generation ∧ evaluator.capable = true

/-- The evaluation is planned, and neither answered nor given up. -/
structure Outstanding (x : ExecutionRecord) (p : PendingEvaluation) : Prop where
  mem : p ∈ x.pending
  answered : p.answered = false
  abandoned : p.abandoned = false

/-- Every evaluation handed out and still outstanding can be answered. -/
def AllAnswerable (e : EnsembleRecord) (x : ExecutionRecord) : Prop :=
  ∀ p, Outstanding x p → p.emitted = true → Answerable e p

theorem Answerable.seats {e e' : EnsembleRecord} (hseats : SameSeats e e')
    {p : PendingEvaluation} (h : Answerable e p) : Answerable e' p := by
  obtain ⟨evaluator, hseat, hcurrent, hcapable⟩ := h
  obtain ⟨evaluator', hseat', -, hgeneration, hstatus, -⟩ := Slots.find?_follows
    (fun q : ParticipantRecord => q.id == p.evaluator)
    (fun q : ParticipantRecord => q.id == p.evaluator) (fun hsame => by rw [hsame.1])
    hseats.participants hseat
  refine ⟨evaluator', hseat', hcurrent.trans hgeneration.symm, ?_⟩
  rw [ParticipantRecord.capable, hstatus]
  exact hcapable

/-- A record without new outstanding evaluations. -/
theorem AllAnswerable.subset {e e' : EnsembleRecord} {x x' : ExecutionRecord}
    (h : AllAnswerable e x) (hseats : SameSeats e e')
    (hpending : ∀ p, Outstanding x' p → p.emitted = true → Outstanding x p) :
    AllAnswerable e' x' :=
  fun p hp hemitted => (h p (hpending p hp hemitted) hemitted).seats hseats

namespace AdvanceState

theorem activateMembers_seats (trigger : FallbackTrigger) (ids : List ParticipantId)
    (s : AdvanceState) :
    SameSeats s.ensemble (ids.foldl (activateMember trigger) s).ensemble := by
  induction ids generalizing s with
  | nil => exact .refl _
  | cons id rest ih =>
    have hone : SameSeats s.ensemble (activateMember trigger s id).ensemble := by
      refine ⟨rfl, ?_⟩
      simp only [activateMember, activatedParticipants]
      split
      · exact List.forall₂_same.mpr fun _ _ => ⟨rfl, rfl, rfl, rfl, rfl, rfl⟩
      · refine Slots.forall₂_modify (fun _ => ?_) (fun _ => ?_) _ _
        · exact ⟨rfl, rfl, rfl, rfl, rfl, rfl⟩
        · exact ⟨rfl, rfl, rfl, rfl, rfl, rfl⟩
    exact hone.trans (ih (activateMember trigger s id))

theorem AdvanceStep.keeps_seats {limits : Limits} {s s' : AdvanceState}
    (h : AdvanceStep limits s s') : SameSeats s.ensemble s'.ensemble := by
  cases h with
  | round | adopted | dispatched | completed | reported => exact .refl _
  | @declared _ stage _ undeclared result =>
    obtain ⟨m, hm, rfl⟩ := declareStage_eq_ok undeclared result
    have hmembers := declareMembers_same limits stage stage.participants s
    rw [hm, Threaded.final_ok] at hmembers
    rw [show m.ensemble = s.ensemble from hmembers.ensemble]
    exact .refl _
  | @stranded _ index c p =>
    exact (onePosition_strand (s.adopt index c p) index (adoptedCandidate c p) p).seats
  | reopened =>
    unfold reopenPlanning
    split <;> exact .refl _
  | planned _ incomplete result =>
    obtain ⟨done, added, hplans, -⟩ := planEvaluations_plans incomplete
    rw [result, Threaded.final_ok] at hplans
    rw [show s'.ensemble = s.ensemble from hplans.ensemble]
    exact .refl _
  | emitted index =>
    rw [(emitOne_execution s index).1]
    exact .refl _
  | @activated trigger _ decision =>
    rw [activateFallback, decision]
    exact activateMembers_seats trigger _ s.requestFallback

/-- An evaluation is handed out to an evaluator that can answer it. -/
theorem AdvanceStep.answerable {limits : Limits} {s s' : AdvanceState}
    (h : AdvanceStep limits s s') (hs : AllAnswerable s.ensemble s.execution) :
    AllAnswerable s'.ensemble s'.execution := by
  have hseats := h.keeps_seats
  have hkept : s'.execution.pending = s.execution.pending →
      AllAnswerable s'.ensemble s'.execution := fun hpending =>
    hs.subset hseats fun p hp _ => ⟨hpending ▸ hp.mem, hp.answered, hp.abandoned⟩
  cases h with
  | round | adopted | dispatched | completed | reported => exact hkept rfl
  | @declared _ stage _ undeclared result =>
    obtain ⟨m, hm, rfl⟩ := declareStage_eq_ok undeclared result
    have hmembers := declareMembers_same limits stage stage.participants s
    rw [hm, Threaded.final_ok] at hmembers
    refine hkept ?_
    change m.execution.pending = _
    rw [hmembers.execution]
  | stranded =>
    exact hs.subset hseats fun p hp _ =>
      ⟨(List.mem_filter.mp hp.mem).1, hp.answered, hp.abandoned⟩
  | reopened =>
    refine hkept ?_
    unfold reopenPlanning
    split <;> rfl
  | planned _ incomplete result =>
    obtain ⟨done, added, hplans, -⟩ := planEvaluations_plans incomplete
    rw [result, Threaded.final_ok] at hplans
    refine hs.subset hseats fun p hp hemitted => ?_
    have hmem := hp.mem
    rw [hplans.execution] at hmem
    rcases List.mem_append.mp hmem with hold | hnew
    · exact ⟨hold, hp.answered, hp.abandoned⟩
    · rw [(hplans.fresh p hnew).1] at hemitted
      cases hemitted
  | emitted index =>
    have hcases := emitOne_cases s index
    generalize s.emitOne index = s' at hcases hseats hkept ⊢
    cases hcases with
    | skipped | kept => exact hkept rfl
    | @abandoned p _ unsent =>
      refine hs.subset hseats fun q hq _ => ⟨?_, hq.answered, hq.abandoned⟩
      rcases List.mem_or_eq_of_mem_set hq.mem with hold | rfl
      · exact hold
      · exact absurd hq.abandoned nofun
    | @emitted p evaluator c unsent seat current served =>
      intro q hq hemitted
      rcases List.mem_or_eq_of_mem_set hq.mem with hold | rfl
      · exact hs q ⟨hold, hq.answered, hq.abandoned⟩ hemitted
      · refine ⟨evaluator, seat, current, ?_⟩
        simp only [ParticipantRecord.authoritative, Bool.and_eq_true] at served
        simp [ParticipantRecord.capable, served.1.2]
  | activated _ decision =>
    exact hkept (by rw [(activateFallback_eq decision).1]; rfl)

end AdvanceState

/-! ## Declared stages -/

/-- Every member of a declared stage has its candidate. -/
def Manned (spec : EnsembleSpec) (stages : List StageSpec) (x : ExecutionRecord) : Prop :=
  x.declaredCurrentStage = true → ∃ stage, stages[x.stageIndex]? = some stage
    ∧ ∀ id ∈ stage.participants, (spec.findParticipant id).isSome = true →
      ∃ c ∈ x.candidates, c.member = (id, stage.id)

theorem Manned.of_members {spec : EnsembleSpec} {stages : List StageSpec}
    {x x' : ExecutionRecord} (h : Manned spec stages x) (hindex : x'.stageIndex = x.stageIndex)
    (hdeclared : x'.declaredCurrentStage = x.declaredCurrentStage)
    (hmembers : x'.candidates.map (·.member) = x.candidates.map (·.member)) :
    Manned spec stages x' := by
  intro hdue
  obtain ⟨stage, hstage, hcovers⟩ := h (hdeclared ▸ hdue)
  refine ⟨stage, by rw [hindex]; exact hstage, fun id hid hfound => ?_⟩
  obtain ⟨c, hc, hmember⟩ := hcovers id hid hfound
  obtain ⟨c', hc', hsame⟩ := List.mem_map.mp (hmembers ▸ List.mem_map_of_mem hc)
  exact ⟨c', hc', hsame.trans hmember⟩

theorem Manned.settles {spec : EnsembleSpec} {stages : List StageSpec} {x x' : ExecutionRecord}
    (h : Manned spec stages x) (hkeeps : KeepsStages x x') : Manned spec stages x' :=
  h.of_members hkeeps.stageIndex hkeeps.declaredCurrentStage
    (Slots.map_key (fun hsettles => by
      rw [CandidateRecord.member, CandidateRecord.member, hsettles.participant, hsettles.stage])
      hkeeps.candidates)

namespace AdvanceState

/-- The stage the advance is in has its candidates. -/
def Crewed (s : AdvanceState) : Prop := Manned s.ensemble.spec s.stages s.execution

theorem Undisturbed.crewed {s s' : AdvanceState} (hsame : Undisturbed s s') (h : Crewed s) :
    Crewed s' := by
  rw [Crewed, AdvanceState.stages, hsame.spec, hsame.keeps.extraStages]
  exact Manned.settles h hsame.keeps

theorem AdvanceStep.crewed {limits : Limits} {s s' : AdvanceState} (h : AdvanceStep limits s s')
    (hs : Crewed s) : Crewed s' := by
  cases h with
  | round => exact hs
  | @declared _ stage current undeclared result =>
    obtain ⟨m, hm, rfl⟩ := declareStage_eq_ok undeclared result
    obtain ⟨-, hcovers⟩ := declareMembers_cover hm
    have hsame := declareMembers_same limits stage stage.participants s
    rw [hm, Threaded.final_ok] at hsame
    intro _
    refine ⟨stage, ?_, fun id hid hfound => hcovers id hid ?_⟩
    · change m.stages[m.execution.stageIndex]? = some stage
      rw [AdvanceState.stages, hsame.ensemble, hsame.execution]
      exact current
    · rw [← hsame.ensemble]
      exact hfound
  | adopted _ _ target => exact (adopt_undisturbed target).crewed hs
  | stranded _ _ target => exact (strand_undisturbed target).crewed hs
  | dispatched _ _ target =>
    refine Manned.of_members ((adopt_undisturbed target).crewed hs) rfl rfl ?_
    exact Slots.map_key_set (setCandidate_get target.at_ _) rfl
  | completed => exact fun hdeclared => by cases hdeclared
  | reopened => exact (reopenPlanning_undisturbed s).crewed hs
  | planned _ _ result =>
    have hplanned := planEvaluations_undisturbed s
    rw [result] at hplanned
    exact hplanned.crewed hs
  | emitted index => exact (emitOne_undisturbed s index).crewed hs
  | reported => exact (report_undisturbed s).crewed hs
  | activated consumed decision =>
    obtain ⟨hexecution, -⟩ := activateFallback_eq decision
    intro hdeclared
    rw [hexecution] at hdeclared
    obtain ⟨stage, hstage, -⟩ := hs hdeclared
    have hnone := consumed.no_stage
    rw [currentStage, hstage] at hnone
    cases hnone

theorem AdvanceStop.crewed {limits : Limits} {s s' : AdvanceState} {error : Error}
    (h : AdvanceStop limits s (error, s')) (hs : Crewed s) : Crewed s' := by
  cases h with
  | @undeclared stage _ undeclared result =>
    have hsame := declareMembers_same limits stage stage.participants s
    rw [declareStage_eq_error undeclared result, Threaded.final_error] at hsame
    intro hdeclared
    rw [hsame.execution] at hdeclared
    exact absurd (hdeclared.symm.trans undeclared) nofun
  | unplanned _ _ result =>
    have hplanned := planEvaluations_undisturbed s
    rw [result] at hplanned
    exact hplanned.crewed hs

end AdvanceState

theorem reachable_manned (config : FabricConfig) (events : List Event) {id : EnsembleId}
    {e : EnsembleRecord} {x : ExecutionRecord}
    (he : ((System.initial config).run events).fabric.find id = some e)
    (hx : e.execution = some x) (hopen : x.status = .opened) :
    Manned e.spec (planStages e x) x := by
  refine reachable_open (P := fun e x => Manned e.spec (planStages e x) x)
    ?_ ?_ ?_ events he hx hopen
  · exact fun _ hdeclared => by cases hdeclared
  · intro e e' x x' hspec hkeeps h
    rw [planStages, hspec, hkeeps.extraStages]
    exact h.settles hkeeps
  · intro core e x _ h
    have hends := advanceOpen_ends config.limits core e x
    generalize advanceOpen config.limits core e x = out at hends ⊢
    cases hends with
    | settled steps =>
      exact (report_undisturbed _).crewed (advanceSteps_keep AdvanceStep.crewed steps h)
    | stopped steps stop => exact stop.crewed (advanceSteps_keep AdvanceStep.crewed steps h)

/-! ## The report on a used-up fallback -/

/-- FALLBACK_REQUIRED, and the states that outrank it. -/
def ConsensusState.fallbackOrAbove : ConsensusState → Bool
  | .superseded | .revalidationRequired | .cancelled | .requiredParticipantFailed
  | .quorumImpossible | .allCandidatesInvalid | .noEligibleCandidate | .fallbackRequired => true
  | _ => false

theorem consensusState_required {inputs : ConsensusInputs}
    (h : inputs.fallbackRequired = true) : (consensusState inputs).fallbackOrAbove = true := by
  unfold consensusState
  dsimp only
  generalize sortBy betterTally (inputs.tallies.filter (·.eligible)) = eligible
  cases eligible with
  | nil => split_ifs <;> rfl
  | cons leader others =>
    simp only [h, if_true]
    split_ifs <;> rfl

/-- Disagreement is found where nothing outranks it. -/
theorem judge_fires {e : EnsembleRecord} {x : ExecutionRecord}
    (h : fallbackTriggerFires .judgeDisagreement e x = true) :
    x.consensus.state.fallbackOrAbove = false := by
  simp only [fallbackTriggerFires, Bool.or_eq_true, beq_iff_eq] at h
  rcases h with (hstate | hstate) | hstate
  · rw [hstate]
    rfl
  · rw [hstate]
    rfl
  · rw [hstate]
    rfl

theorem fallbackTriggerFires_holding (trigger : FallbackTrigger) (e : EnsembleRecord)
    (held x : ExecutionRecord) :
    fallbackTriggerFires trigger (e.holding held) x = fallbackTriggerFires trigger e x := by
  cases trigger <;> rfl

theorem fallbackTriggerFires_withQuorum {trigger : FallbackTrigger} {e : EnsembleRecord}
    {x : ExecutionRecord} (hother : trigger ≠ .judgeDisagreement) :
    fallbackTriggerFires trigger e (withQuorum e x)
      = fallbackTriggerFires trigger e (computeReports e x) := by
  rw [fallbackTriggerFires_computeReports e x hother]
  cases trigger <;> rfl

/-- A trigger that fires on a used-up fallback without content is reported. -/
theorem computeReports_exhausted {e : EnsembleRecord} {x : ExecutionRecord}
    {trigger : FallbackTrigger} (henabled : e.spec.fallback.enabled = true)
    (hdepth : e.spec.fallback.maxDepth ≤ x.fallbackDepth)
    (hcontent : fallbackContent (computeReports e x) = false)
    (htrigger : trigger ∈ e.spec.fallback.triggers) (hother : trigger ≠ .judgeDisagreement)
    (hfires : fallbackTriggerFires trigger e (computeReports e x) = true) :
    (computeReports e x).consensus.state.fallbackOrAbove = true := by
  have hrequired : fallbackRequired e (withQuorum e x) = true := by
    have hquorum : fallbackContent (withQuorum e x) = false := by
      rw [computeReports_fallbackContent] at hcontent
      exact hcontent
    have hany : (e.spec.fallback.triggers.any fun t => fallbackTriggerFires t e (withQuorum e x))
        = true :=
      List.any_eq_true.mpr
        ⟨trigger, htrigger, (fallbackTriggerFires_withQuorum hother).trans hfires⟩
    have hdepth' : e.spec.fallback.maxDepth ≤ (withQuorum e x).fallbackDepth := hdepth
    simp only [fallbackRequired, henabled, hdepth', hquorum, hany, decide_true, Bool.not_false,
      Bool.and_self]
  rw [computeReports_consensus_state, hrequired, consensusOutcome, computeConsensus_eq_state]
  exact consensusState_required rfl

/-! ## After an advance -/

/-- Nothing is outstanding, and no fallback candidate has content. -/
structure Exhausted (e : EnsembleRecord) (x : ExecutionRecord) : Prop where
  candidates : ∀ c ∈ x.candidates, c.inFlight = false
  pending : ∀ p, Outstanding x p → ¬ Answerable e p
  content : fallbackContent x = false

/-- Fallback is activated within its depth, or its depth is used up and the
report says that it is required, or something that outranks it. -/
def FallbackMet (spec : EnsembleSpec) (x x' : ExecutionRecord) : Prop :=
  (x.fallbackActivated = false ∧ x'.fallbackActivated = true
      ∧ x'.fallbackDepth ≤ spec.fallback.maxDepth)
    ∨ (spec.fallback.maxDepth ≤ x'.fallbackDepth ∧ x'.consensus.state.fallbackOrAbove = true)

namespace AdvanceState

/-- Where nothing is in flight, an advance at rest has consumed its stages
and decided on fallback. -/
theorem Rest.decision {s : AdvanceState} (h : Rest s) (hcrewed : Crewed s.report)
    (hmembers : ∀ stage ∈ s.stages, ∀ id ∈ stage.participants,
      (s.ensemble.spec.findParticipant id).isSome = true)
    (hresolved : ∀ c ∈ s.report.execution.candidates, c.inFlight = false) :
    fallbackDecision s.ensemble s.report.execution = none := by
  cases h with
  | decided _ _ _ decision => exact decision
  | @waiting stage current declared _ incomplete =>
    obtain ⟨stage', hstage', hcovers⟩ := hcrewed declared
    obtain rfl := Option.some.inj (hstage'.symm.trans current)
    have hcomplete : stageComplete stage' s.report.execution = true :=
      stageComplete_iff.mpr fun id hid => by
        refine ⟨?_, fun c hc _ _ => hresolved c hc⟩
        obtain ⟨c, hc, hmember⟩ :=
          hcovers id hid (hmembers stage' (List.mem_of_getElem? current) id hid)
        obtain ⟨hparticipant, hnamed⟩ := Prod.mk.inj hmember
        exact ⟨c, hc, hparticipant, hnamed⟩
    rw [← stageComplete_unreported, AdvanceState.report, computeReports_unreported,
      stageComplete_unreported, incomplete] at hcomplete
    cases hcomplete

end AdvanceState

theorem AllAnswerable.not_waiting {e : EnsembleRecord} {x : ExecutionRecord}
    (h : AllAnswerable e x) (hexhausted : Exhausted e x) : waiting x = false := by
  simp only [waiting, Bool.or_eq_false_iff, List.any_eq_false, Bool.and_eq_true, Bool.not_eq_true',
    not_and, Bool.not_eq_true]
  refine ⟨?_, hexhausted.candidates⟩
  rintro p hp ⟨hemitted, hanswered⟩ habandoned
  have hout : Outstanding x p := ⟨hp, hanswered, habandoned⟩
  exact hexhausted.pending p hout (h p hout hemitted)

/-- A trigger that fires where nothing is waited for finds fallback
activated, or its depth used up. -/
theorem fallbackDecision_none {e : EnsembleRecord} {x : ExecutionRecord}
    {trigger : FallbackTrigger} (h : fallbackDecision e x = none)
    (henabled : e.spec.fallback.enabled = true) (hwaiting : waiting x = false)
    (htrigger : trigger ∈ e.spec.fallback.triggers)
    (hfires : fallbackTriggerFires trigger e x = true) :
    x.fallbackActivated = true ∨ e.spec.fallback.maxDepth ≤ x.fallbackDepth := by
  by_contra hneither
  obtain ⟨hactivated, hdepth⟩ := not_or.mp hneither
  rw [Bool.not_eq_true] at hactivated
  have hbelow := UInt32.not_le.mp hdepth
  simp only [fallbackDecision, henabled, hactivated, hwaiting, hbelow, Bool.not_false,
    decide_true, Bool.and_self, if_true] at h
  exact List.find?_eq_none.mp h trigger htrigger hfires

/-- After an advance at rest, a firing trigger is met. Before the activation
this asks that what was handed out can be answered; after it, the depth has
to be used up, and the trigger must not read the consensus. -/
theorem AdvanceState.Rest.met {s : AdvanceState} {x : ExecutionRecord} {trigger : FallbackTrigger}
    (h : Rest s) (hcrewed : Crewed s.report) (hstaged : Staged s) {limits : Limits}
    (hwell : WellFormed limits s.ensemble.spec)
    (henabled : s.ensemble.spec.fallback.enabled = true)
    (hexhausted : Exhausted s.ensemble s.report.execution)
    (htrigger : trigger ∈ s.ensemble.spec.fallback.triggers)
    (hfires : fallbackTriggerFires trigger s.ensemble s.report.execution = true)
    (hkept : x.fallbackActivated = true → s.execution.fallbackActivated = true) :
    (x.fallbackActivated = false → AllAnswerable s.ensemble s.execution →
        FallbackMet s.ensemble.spec x s.report.execution)
      ∧ (x.fallbackActivated = true →
        (FallbackMet s.ensemble.spec x s.report.execution
          ↔ s.ensemble.spec.fallback.maxDepth = 1 ∧ trigger ≠ .judgeDisagreement)) := by
  have hactivated : s.report.execution.fallbackActivated = s.execution.fallbackActivated := rfl
  have hdepth : s.report.execution.fallbackDepth = s.execution.fallbackDepth := rfl
  have hmax : s.ensemble.spec.fallback.maxDepth ≠ 0 := hwell.fallbackDepth henabled
  have hpositive : 1 ≤ s.ensemble.spec.fallback.maxDepth :=
    UInt32.not_lt.mp fun hlt => hmax (UInt32.lt_one_iff.mp hlt)
  have hused : x.fallbackActivated = true → s.execution.fallbackDepth = 1 := by
    intro hbefore
    cases hstaged.fallback with
    | unused activated =>
      rw [hkept hbefore] at activated
      cases activated
    | used _ _ _ depth => exact depth
  refine ⟨fun hbefore hanswerable => .inl ⟨hbefore, ?_⟩, fun hbefore => ⟨?_, ?_⟩⟩
  · have hdecision := h.decision hcrewed (hstaged.fallback.members hwell) hexhausted.candidates
    have hwaiting : AdvanceState.waiting s.report.execution = false :=
      AllAnswerable.not_waiting (x := s.report.execution)
        (fun p hp => hanswerable p ⟨hp.mem, hp.answered, hp.abandoned⟩) hexhausted
    have hspent := fallbackDecision_none hdecision henabled hwaiting htrigger hfires
    cases hstaged.fallback with
    | unused activated _ depth =>
      rw [hactivated, activated, hdepth, depth] at hspent
      exact absurd (UInt32.le_zero_iff.mp (hspent.resolve_left nofun)) hmax
    | used _ activated _ depth =>
      rw [hactivated, hdepth, depth]
      exact ⟨activated, hpositive⟩
  · rintro (⟨hfresh, -⟩ | ⟨hreached, hstate⟩)
    · rw [hbefore] at hfresh
      cases hfresh
    · rw [hdepth, hused hbefore] at hreached
      refine ⟨UInt32.le_antisymm hreached hpositive, ?_⟩
      rintro rfl
      rw [judge_fires hfires] at hstate
      cases hstate
  · rintro ⟨hone, hother⟩
    have hreached : s.ensemble.spec.fallback.maxDepth ≤ s.execution.fallbackDepth := by
      rw [hone, hused hbefore]
      exact UInt32.le_refl 1
    exact .inr ⟨hreached, computeReports_exhausted henabled hreached hexhausted.content htrigger
      hother hfires⟩

/-- An advance that leaves an open execution with nothing outstanding and a
firing trigger. -/
structure FiringAdvance (f : Fabric) (id : EnsembleId) (generation : EnsembleGeneration)
    (trigger : FallbackTrigger) (e : EnsembleRecord) (x : ExecutionRecord) (e' : EnsembleRecord)
    (x' : ExecutionRecord) : Prop where
  answer : ∃ actions, (advance f id generation).2 = .ok actions
  before : f.find id = some e
  execution : e.execution = some x
  enabled : e.spec.fallback.enabled = true
  after : (advance f id generation).1.find id = some e'
  executionAfter : e'.execution = some x'
  opened : x'.status = .opened
  exhausted : Exhausted e' x'
  declared : trigger ∈ e.spec.fallback.triggers
  fires : fallbackTriggerFires trigger e' x' = true

/-- Where an advance leaves nothing outstanding and a trigger fires: before
the activation, fallback is activated if every evaluation handed out can be
answered; after it, the trigger is reported exactly when no deeper fallback
is declared and the trigger is not the one that reads the consensus. -/
theorem firing_trigger_met (config : FabricConfig) (events : List Event) (id : EnsembleId)
    (generation : EnsembleGeneration) {trigger : FallbackTrigger} {e e' : EnsembleRecord}
    {x x' : ExecutionRecord}
    (h : FiringAdvance ((System.initial config).run events).fabric id generation trigger e x e'
      x') :
    (x.fallbackActivated = false → AllAnswerable e x → FallbackMet e.spec x x')
      ∧ (x.fallbackActivated = true → (FallbackMet e.spec x x'
        ↔ e.spec.fallback.maxDepth = 1 ∧ trigger ≠ .judgeDisagreement)) := by
  obtain ⟨⟨actions, hanswer⟩, he, hx, henabled, he', hx', hopen, hexhausted, htrigger, hfires⟩ := h
  have hstaged := fun hopened => reachable_staged config events he hx hopened
  have hmanned := fun hopened => reachable_manned config events he hx hopened
  have hwell := (reachable_specInUse config events id e he).admitted.wellFormed
  generalize ((System.initial config).run events).fabric = f at hanswer he he' hstaged
  have hanswers := advance_answers f id generation
  generalize advance f id generation = out at hanswer hanswers he'
  cases hanswers with
  | refused => cases hanswer
  | idle find nothing =>
    obtain rfl := Option.some.inj (he'.symm.trans find)
    exact absurd hopen (nothing x' hx').1
  | withdrawn _ _ _ status =>
    obtain rfl := Option.some.inj ((Fabric.find_store_self ..).symm.trans he')
    obtain rfl := Option.some.inj hx'
    exact absurd (status.symm.trans hopen) nofun
  | closed =>
    obtain rfl := Option.some.inj ((Fabric.find_store_self ..).symm.trans he')
    obtain rfl := Option.some.inj hx'
    cases hopen
  | worked find _ execution status =>
    obtain rfl := Option.some.inj (he.symm.trans find)
    obtain rfl := Option.some.inj (hx.symm.trans execution)
    have hends := advanceOpen_ends f.config.limits f.core e x
    generalize advanceOpen f.config.limits f.core e x = work at hends hanswer he'
    cases hends with
    | stopped => cases hanswer
    | @settled s steps result =>
      obtain rfl := Option.some.inj ((Fabric.find_store_self ..).symm.trans he')
      obtain rfl := Option.some.inj hx'
      rw [fallbackTriggerFires_holding] at hfires
      have hrest := advanceLoop_rests (hstaged status) rfl 62 result
      have hspec : s.ensemble.spec = e.spec :=
        advanceSteps_keep (P := fun m : AdvanceState => m.ensemble.spec = e.spec)
          (fun hstep hspec => hstep.spec.trans hspec) steps rfl
      have hsettled : Staged s := advanceSteps_keep AdvanceStep.staged steps (hstaged status)
      have hcrewed : Crewed s.report :=
        (report_undisturbed s).crewed (advanceSteps_keep AdvanceStep.crewed steps (hmanned status))
      have hkept : x.fallbackActivated = true → s.execution.fallbackActivated = true :=
        advanceSteps_keep (P := fun m : AdvanceState => m.execution.fallbackActivated = true)
          (fun hstep hactivated => hstep.keeps_activated hactivated) steps
      have hexhausted : Exhausted s.ensemble s.report.execution :=
        ⟨hexhausted.candidates, hexhausted.pending, hexhausted.content⟩
      rw [← hspec] at hwell henabled htrigger ⊢
      obtain ⟨hfirst, hlater⟩ := hrest.met hcrewed hsettled hwell henabled hexhausted htrigger
        hfires hkept
      refine ⟨fun hbefore hanswerable => hfirst hbefore ?_, hlater⟩
      exact advanceSteps_keep (P := fun m => AllAnswerable m.ensemble m.execution)
        AdvanceStep.answerable steps hanswerable

namespace Sample

def abstention (p c : UInt64) : Event :=
  .submitCandidateAbstention { authority := candidateAuthority p c }

/-- The fallback participant is lost and the primary candidate abstains. -/
def bothLost : List Event :=
  start fallbackSpec
    ++ [.reportParticipantFailure (authority 2) .transportError "lost", abstention 1 1]

/-- The policy allows a second fallback. -/
def deepSpec : EnsembleSpec :=
  { fallbackSpec with fallback := { fallbackSpec.fallback with maxDepth := 2 } }

/-- The primary candidate abstains, and so does its fallback. -/
def deepLost : List Event :=
  start deepSpec ++ [abstention 1 1, advance, abstention 2 2]

/-- The next advance leaves nothing planned and nothing in flight, and the
primary candidates without content. -/
def firesAfter (events : List Event) (activated : Bool) : Bool :=
  let out := EnsembleFabric.advance (reached events).fabric ⟨1⟩ ⟨1⟩
  out.2.toBool && (ensemble events).any fun e => e.execution.any fun x =>
    e.spec.fallback.enabled && x.fallbackActivated == activated && x.pending.isEmpty
      && e.spec.fallback.triggers.contains .allPrimaryInvalid
      && (out.1.find ⟨1⟩).any fun e' => e'.execution.any fun x' =>
        x'.status == .opened && x'.fallbackDepth == 1 && x'.pending.isEmpty
          && !fallbackContent x' && x'.candidates.all (!·.inFlight)
          && fallbackTriggerFires .allPrimaryInvalid e' x'

theorem firingAdvance_of_firesAfter {events : List Event} {activated : Bool}
    (h : firesAfter events activated = true) :
    ∃ e x e' x', FiringAdvance (reached events).fabric ⟨1⟩ ⟨1⟩ .allPrimaryInvalid e x e' x'
      ∧ x.fallbackActivated = activated ∧ x.pending = [] ∧ x'.fallbackDepth = 1 := by
  simp only [firesAfter, Option.any_eq_true, Bool.and_eq_true, beq_iff_eq, List.isEmpty_iff,
    Bool.not_eq_true', List.all_eq_true, List.contains_iff_mem] at h
  obtain ⟨hanswer, e, he, x, hx, ⟨⟨⟨henabled, hactivated⟩, hpending⟩, htrigger⟩, e', he', x', hx',
    ⟨⟨⟨⟨hopen, hdepth⟩, hpending'⟩, hcontent⟩, hcandidates⟩, hfires⟩ := h
  have hnone : ∀ p, ¬ Outstanding x' p := fun p hp => by
    have hmem := hp.mem
    rw [hpending'] at hmem
    cases hmem
  have hanswer : ∃ actions,
      (EnsembleFabric.advance (reached events).fabric ⟨1⟩ ⟨1⟩).2 = .ok actions := by
    cases hout : (EnsembleFabric.advance (reached events).fabric ⟨1⟩ ⟨1⟩).2 with
    | ok actions => exact ⟨actions, rfl⟩
    | error =>
      rw [hout] at hanswer
      cases hanswer
  exact ⟨e, x, e', x', ⟨hanswer, he, hx, henabled, he', hx', hopen,
    ⟨hcandidates, fun p hp => absurd hp (hnone p), hcontent⟩, htrigger, hfires⟩, hactivated,
    hpending, hdepth⟩

end Sample

/-- The fallback participant is lost as well: its stage is activated all the
same, and the advance after that reports the used-up depth. -/
theorem bothLost_met :
    (∃ e x e' x', FiringAdvance (Sample.reached Sample.bothLost).fabric ⟨1⟩ ⟨1⟩
        .allPrimaryInvalid e x e' x' ∧ FallbackMet e.spec x x')
      ∧ ∃ e x e' x', FiringAdvance (Sample.reached (Sample.bothLost ++ [Sample.advance])).fabric
        ⟨1⟩ ⟨1⟩ .allPrimaryInvalid e x e' x' ∧ FallbackMet e.spec x x' := by
  constructor
  · have hfires : Sample.firesAfter Sample.bothLost false = true := by decide +kernel
    obtain ⟨e, x, e', x', hadvance, hactivated, hpending, -⟩ :=
      Sample.firingAdvance_of_firesAfter hfires
    refine ⟨e, x, e', x', hadvance,
      (firing_trigger_met {} Sample.bothLost ⟨1⟩ ⟨1⟩ hadvance).1 hactivated fun p hp => ?_⟩
    have hmem := hp.mem
    rw [hpending] at hmem
    cases hmem
  · have hfires : Sample.firesAfter (Sample.bothLost ++ [Sample.advance]) true = true := by
      decide +kernel
    obtain ⟨e, x, e', x', hadvance, hactivated, -⟩ := Sample.firingAdvance_of_firesAfter hfires
    have hspec : (Sample.ensemble (Sample.bothLost ++ [Sample.advance])).all
        (fun e => e.spec.fallback.maxDepth == 1) = true := by decide +kernel
    have hdepth : e.spec.fallback.maxDepth = 1 :=
      beq_iff_eq.mp (Option.all_eq_true _ _ |>.mp hspec e hadvance.before)
    exact ⟨e, x, e', x', hadvance,
      ((firing_trigger_met {} (Sample.bothLost ++ [Sample.advance]) ⟨1⟩ ⟨1⟩ hadvance).2
        hactivated).mpr ⟨hdepth, nofun⟩⟩

/-- With a depth of two, a trigger that fires again after the first fallback
is neither answered nor reported: activation happens once. -/
theorem deep_fallback_ignored :
    ¬ ∀ (config : FabricConfig) (events : List Event) (id : EnsembleId)
        (generation : EnsembleGeneration) (trigger : FallbackTrigger) (e : EnsembleRecord)
        (x : ExecutionRecord) (e' : EnsembleRecord) (x' : ExecutionRecord),
        FiringAdvance ((System.initial config).run events).fabric id generation trigger e x e' x' →
        FallbackMet e.spec x x' := by
  intro h
  have hfires : Sample.firesAfter Sample.deepLost true = true := by decide +kernel
  obtain ⟨e, x, e', x', hadvance, hactivated, -, hdepth⟩ :=
    Sample.firingAdvance_of_firesAfter hfires
  have hspec : (Sample.ensemble Sample.deepLost).all
      (fun e => e.spec.fallback.maxDepth == 2) = true := by decide +kernel
  have hmax : e.spec.fallback.maxDepth = 2 :=
    beq_iff_eq.mp (Option.all_eq_true _ _ |>.mp hspec e hadvance.before)
  rcases h {} Sample.deepLost ⟨1⟩ ⟨1⟩ .allPrimaryInvalid e x e' x' hadvance with
    ⟨hfresh, -⟩ | ⟨hreached, -⟩
  · rw [hactivated] at hfresh
    cases hfresh
  · rw [hmax, hdepth] at hreached
    exact absurd hreached (by decide)

end EnsembleFabric
