import EnsembleFabric.Guard
import EnsembleFabric.PlannedOnce
import EnsembleFabric.Succession

/-!
# What can be told before an advance

The conditions on the planning of an advance are about states inside of it:
those in which a round starts to plan (`planningPasses`), and the one in which
the first round gets to emission (`reachesEmission`). Both can be read off the
records the advance starts from.

An advance leaves content and the generations in the seats alone
(`advanceSteps_carried`). So every pass asks for the same evaluations, those
`plannedKeys` lists before the first round:

> planningPasses_ask : every pass of an advance asks for what a pass would ask
> for in the state before the advance.

The first round gets behind the stages exactly if nobody holds them up, and
whether somebody does is `stageCleared` in the state before:

> reachesEmission_iff : the first round gets to emission if and only if the
> stages that are left are cleared and the round stops at no bound.
-/

namespace EnsembleFabric

open EventSystem AdvanceState

/-! ## What the passes ask for -/

theorem SameSeats.seatGeneration {e e' : EnsembleRecord} (h : SameSeats e e')
    (id : ParticipantId) : seatGeneration e' id = seatGeneration e id :=
  congrArg (·.getD ⟨1⟩) (h.generations.seated id)

/-- A pass asks each evaluator about each of its criteria, for all content. -/
theorem mem_plannedKeys {s : AdvanceState} {k : PlanKey} :
    k ∈ plannedKeys s ↔ ∃ c ∈ s.execution.candidates, isContentState c.state = true
      ∧ ∃ evaluator ∈ s.ensemble.spec.evaluatingParticipants,
        ∃ criterion ∈ evaluatorCriteria s.ensemble.spec evaluator,
          k = ⟨evaluator.id, seatGeneration s.ensemble evaluator.id, c.id, c.generation,
            criterion⟩ := by
  simp only [plannedKeys, planTargets, List.map_flatMap, List.mem_flatMap, evaluatorTargets_keys,
    List.mem_map, List.mem_filter]
  constructor
  · rintro ⟨c, ⟨hc, hcontent⟩, evaluator, hevaluator, criterion, hcriterion, rfl⟩
    exact ⟨c, hc, hcontent, evaluator, hevaluator, criterion, hcriterion, rfl⟩
  · rintro ⟨c, hc, hcontent, evaluator, hevaluator, criterion, hcriterion, rfl⟩
    exact ⟨c, ⟨hc, hcontent⟩, evaluator, hevaluator, criterion, hcriterion, rfl⟩

namespace AdvanceState

section

variable {limits : Limits} {core : Core} {e : EnsembleRecord} {x : ExecutionRecord}

/-- The steps of an advance change nothing that planning reads. -/
theorem advanceSteps_ask {s : AdvanceState} (hsteps : AdvanceSteps limits (advanceStart core e x) s)
    (k : PlanKey) : k ∈ plannedKeys s ↔ k ∈ plannedKeys (advanceStart core e x) := by
  obtain ⟨-, hseats, hcarried⟩ := advanceSteps_carried hsteps
  have hspec : s.ensemble.spec = (advanceStart core e x).ensemble.spec := hseats.spec
  rw [mem_plannedKeys, mem_plannedKeys, hspec]
  constructor
  · rintro ⟨c', hc', hcontent, evaluator, hevaluator, criterion, hcriterion, rfl⟩
    rcases hcarried.back c' hc' with ⟨c, hc, hcc'⟩ | ⟨-, c, hdeclared, hcc'⟩
    · refine ⟨c, hc, hcc'.content ▸ hcontent, evaluator, hevaluator, criterion, hcriterion, ?_⟩
      rw [hcc'.identity.1, hcc'.identity.2, hseats.seatGeneration]
      rfl
    · -- what was declared since has no content
      rw [hcc'.content, hdeclared.state] at hcontent
      cases hcontent
  · rintro ⟨c, hc, hcontent, evaluator, hevaluator, criterion, hcriterion, rfl⟩
    obtain ⟨c', hc', hcc'⟩ := hcarried.forth c hc
    refine ⟨c', hc', hcc'.content.trans hcontent, evaluator, hevaluator, criterion, hcriterion, ?_⟩
    rw [hcc'.identity.1, hcc'.identity.2, hseats.seatGeneration]
    rfl

theorem planningPass_steps {s m : AdvanceState} (h : planningPass limits s = some m) :
    AdvanceSteps limits s m := by
  have hstages : Advances limits s
      (stageLoop limits (s.stages.drop s.execution.stageIndex) s) := stageLoop_advances _ rfl
  unfold planningPass at h
  split at h
  · cases h
  · rename_i n hn
    rw [hn] at hstages
    split at h
    · rename_i hplans
      obtain rfl := Option.some.inj h
      exact hstages.tail (.reopened hplans.1)
    · cases h

theorem planningPasses_steps {s : AdvanceState} (fuel : Nat) :
    ∀ m ∈ planningPasses limits fuel s, AdvanceSteps limits s m := by
  induction fuel generalizing s with
  | zero => exact fun m hm => by cases hm
  | succ fuel ih =>
    intro m hm
    unfold planningPasses at hm
    split at hm
    · rcases List.mem_append.mp hm with hfirst | hlater
      · exact .head .round (planningPass_steps (Option.mem_toList.mp hfirst))
      · have hround := advanceRound_advances limits { s with progress := false }
        split at hlater
        · cases hlater
        · rename_i n hn
          rw [hn] at hround
          exact (Relation.ReflTransGen.head .round hround).trans (ih m hlater)
    · cases hm

/-- Every pass of an advance asks for what a pass would ask for in the state
before the advance. -/
theorem planningPasses_ask (fuel : Nat) :
    ∀ m ∈ planningPasses limits fuel (advanceStart core e x), ∀ k,
      k ∈ plannedKeys m ↔ k ∈ plannedKeys (advanceStart core e x) :=
  fun m hm => advanceSteps_ask (planningPasses_steps fuel m hm)

/-! ## Where the first round ends -/

/-- The stages of an advance are worked off without activating fallback. -/
theorem stageLoop_stages {m : AdvanceState}
    (hm : stageLoop limits ((planStages e x).drop x.stageIndex)
      { advanceStart core e x with progress := false } = .ok m) :
    AdvanceSteps limits (advanceStart core e x) m ∧ m.stages = planStages e x := by
  have hadvances : Advances limits { advanceStart core e x with progress := false }
      (stageLoop limits ((planStages e x).drop x.stageIndex)
        { advanceStart core e x with progress := false }) := stageLoop_advances _ rfl
  rw [hm] at hadvances
  have hsteps : AdvanceSteps limits (advanceStart core e x) m := .head .round hadvances
  refine ⟨hsteps, ?_⟩
  have hextra : (Threaded.final (stageLoop limits ((planStages e x).drop x.stageIndex)
      { advanceStart core e x with progress := false })).execution.extraStages = x.extraStages :=
    stageLoop_extraStages rfl
  rw [hm, Threaded.final_ok] at hextra
  have hspec : m.ensemble.spec = e.spec := advanceSteps_keep
    (P := fun s => s.ensemble.spec = e.spec) (fun hstep h => hstep.spec.trans h) hsteps rfl
  rw [AdvanceState.stages, hextra, hspec]
  rfl

section FirstRound

variable {s m : AdvanceState} {stop : Error × AdvanceState}

theorem advanceRound_of_ok
    (h : stageLoop limits (s.stages.drop s.execution.stageIndex) s = .ok m) :
    advanceRound limits s
      = if m.stages.length ≤ m.execution.stageIndex then evaluationPhase m else .ok m := by
  rw [advanceRound, h]
  rfl

theorem advanceRound_of_error
    (h : stageLoop limits (s.stages.drop s.execution.stageIndex) s = .error stop) :
    advanceRound limits s = .error stop := by
  rw [advanceRound, h]
  rfl

theorem reachesEmission_of_ok
    (h : stageLoop limits (s.stages.drop s.execution.stageIndex) s = .ok m) :
    reachesEmission limits s
      = (decide (m.stages.length ≤ m.execution.stageIndex)
        && (planEvaluations m.reopenPlanning).isOk) := by
  rw [reachesEmission, h]

theorem reachesEmission_of_error
    (h : stageLoop limits (s.stages.drop s.execution.stageIndex) s = .error stop) :
    reachesEmission limits s = false := by
  rw [reachesEmission, h]

end FirstRound

end

end AdvanceState

/-- The first round of an advance gets to emission if and only if the stages that
are left are cleared and the round stops at no bound. -/
theorem reachesEmission_iff (config : FabricConfig) (events : List Event) {id : EnsembleId}
    {e : EnsembleRecord} {x : ExecutionRecord}
    (he : ((System.initial config).run events).fabric.find id = some e)
    (hx : e.execution = some x) (hopen : x.status = .opened) :
    reachesEmission config.limits
        { advanceStart ((System.initial config).run events).fabric.core e x with progress := false }
        = true
      ↔ ((planStages e x).drop x.stageIndex).all
          (stageCleared ((System.initial config).run events).fabric.core.epoch e x) = true
        ∧ (advanceRound config.limits { advanceStart
            ((System.initial config).run events).fabric.core e x with progress := false }).isOk
          = true := by
  have hstaged := reachable_staged config events he hx hopen
  have hcovers := reachable_covered config events he hx hopen
    ((System.initial config).run events).fabric.core
  have hwell := (reachable_specInUse config events id e he).admitted.wellFormed
  generalize ((System.initial config).run events).fabric.core = core at hstaged hcovers ⊢
  cases hm : stageLoop config.limits ((planStages e x).drop x.stageIndex)
      { advanceStart core e x with progress := false } with
  | error stop =>
    rw [reachesEmission_of_error hm, advanceRound_of_error hm]
    exact iff_of_false Bool.false_ne_true fun h => Bool.false_ne_true h.2
  | ok m =>
    obtain ⟨hsteps, hstages⟩ := stageLoop_stages hm
    obtain ⟨hs, hcovered, hspec⟩ := advanceSteps_keep
      (P := fun s => Staged s ∧ Covered s ∧ s.ensemble.spec = e.spec)
      (fun hstep h => ⟨hstep.staged h.1, hstep.covered h.2.1, hstep.spec.trans h.2.2⟩) hsteps
      ⟨hstaged, hcovers, rfl⟩
    have hconsumed : m.stages.length ≤ m.execution.stageIndex
        ↔ ((planStages e x).drop x.stageIndex).all (stageCleared core.epoch e x) = true := by
      rw [List.all_eq_true, ← hstages]
      constructor
      · exact cleared_of_consumed hsteps hs
      · intro hcleared
        have hends : StagesEnd ((planStages e x).drop x.stageIndex) m :=
          stageLoop_ends (s := { advanceStart core e x with progress := false }) rfl hm
        cases hends with
        | consumed consumed => exact consumed
        | waiting _ current declared incomplete scanned =>
          exact (not_waiting_of_cleared hsteps hs hcovered (hs.fallback.members (hspec ▸ hwell))
            hcleared current declared incomplete (scanned.imp_right (·.1))).elim
    rw [reachesEmission_of_ok hm, advanceRound_of_ok hm, Bool.and_eq_true, decide_eq_true_eq,
      ← hconsumed]
    refine and_congr_right fun hbehind => ?_
    rw [if_pos hbehind, evaluationPhase]
    cases planEvaluations m.reopenPlanning <;> rfl

end EnsembleFabric
