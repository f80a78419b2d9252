import EnsembleFabric.Dispatch
import EnsembleFabric.Library.Checks

/-!
# Advance, step by step

`advance` is three nested loops. What they do to the state of an advance is
one of a few steps, each taken under conditions the loops checked before:
a stage is declared while it is current and undeclared, evaluations are
planned once the stage plan is consumed. `AdvanceStep` lists the steps with
these conditions and `AdvanceStop` the two ways to stop at a resource bound.

> advanceLoop_advances : whatever the rounds of an advance do is a sequence
> of steps, and possibly a stop behind it.

An invariant of an advance is then one case for each step, carried by
`advanceSteps_keep`; no proof about the loops is made twice. The steps are
those of the state, not of the loops: a step says which candidate was
dispatched, not how far the loop over the candidates had come. Where the
place of the loop matters (which positions it has passed, whether it comes
to rest), the loops are gone through again in `Rest`.

The module ends with the inversion of the operation: `advance_answers` is
what an advance of an ensemble does to the runtime and answers, in each of
its cases.
-/

namespace EnsembleFabric

open Threaded

namespace AdvanceState

/-- The stage the execution works on. -/
def currentStage (s : AdvanceState) : Option StageSpec := s.stages[s.execution.stageIndex]?

/-- The stage plan is used up. -/
def Consumed (s : AdvanceState) : Prop := s.stages.length ≤ s.execution.stageIndex

/-- The current stage is complete, the next one is due. -/
def completeStage (s : AdvanceState) : AdvanceState :=
  { s with
    execution :=
      { s.execution with
        stageIndex := s.execution.stageIndex + 1
        declaredCurrentStage := false }
    progress := true }

/-- Every candidate with content has its evaluations planned, or there are
none to plan. Planning establishes it, and emission keeps it. -/
structure PlanReady (s : AdvanceState) : Prop where
  complete : s.execution.planningComplete = true
  covered : planTargets s.ensemble.spec s.execution.candidates = []
    ∨ ∀ c ∈ s.execution.candidates, isContentState c.state = true →
      everEvaluated s.execution c = true

/-- What an advance does next. Each step keeps the conditions under which the loops
take it; those that belong to the evaluation phase have the stage plan used up. -/
inductive AdvanceStep (limits : Limits) : AdvanceState → AdvanceState → Prop
  | round {s} : AdvanceStep limits s { s with progress := false }
  | declared {s s' stage} (current : s.currentStage = some stage)
      (undeclared : s.execution.declaredCurrentStage = false)
      (result : declareStage limits stage s = .ok s') : AdvanceStep limits s s'
  | adopted {s stage index c p} (current : s.currentStage = some stage)
      (declared : s.execution.declaredCurrentStage = true)
      (target : DispatchTarget stage s index c p) : AdvanceStep limits s (s.adopt index c p)
  | stranded {s stage index c p} (current : s.currentStage = some stage)
      (declared : s.execution.declaredCurrentStage = true)
      (target : DispatchTarget stage s index c p)
      (away : p.authoritative s.core.epoch = false)
      (gone : (p.capable || awaitingReplacement s.ensemble c) = false) :
      AdvanceStep limits s ((s.adopt index c p).strand index (adoptedCandidate c p) p)
  | dispatched {s stage index c p} (current : s.currentStage = some stage)
      (declared : s.execution.declaredCurrentStage = true)
      (target : DispatchTarget stage s index c p)
      (served : p.authoritative s.core.epoch = true)
      (alone : stage.mode = .sequential →
        earlierPending (s.adopt index c p).execution stage (adoptedCandidate c p) = false) :
      AdvanceStep limits s ((s.adopt index c p).dispatchCandidate index (adoptedCandidate c p) p)
  | completed {s stage} (current : s.currentStage = some stage)
      (declared : s.execution.declaredCurrentStage = true)
      (complete : stageComplete stage s.execution = true) : AdvanceStep limits s s.completeStage
  | reopened {s} (consumed : s.Consumed) : AdvanceStep limits s s.reopenPlanning
  | planned {s s'} (consumed : s.Consumed) (incomplete : s.execution.planningComplete = false)
      (result : planEvaluations s = .ok s') : AdvanceStep limits s s'
  | emitted {s} (index : Nat) (consumed : s.Consumed) (ready : s.PlanReady) :
      AdvanceStep limits s (s.emitOne index)
  | reported {s} (consumed : s.Consumed) : AdvanceStep limits s s.report
  | activated {s trigger} (consumed : s.Consumed)
      (decision : fallbackDecision s.ensemble s.execution = some trigger) :
      AdvanceStep limits s s.activateFallback

/-- How an advance stops at a resource bound. -/
inductive AdvanceStop (limits : Limits) : AdvanceState → Error × AdvanceState → Prop
  | undeclared {s stop stage} (current : s.currentStage = some stage)
      (undeclared : s.execution.declaredCurrentStage = false)
      (result : declareStage limits stage s = .error stop) : AdvanceStop limits s stop
  | unplanned {s stop} (consumed : s.Consumed)
      (incomplete : s.execution.planningComplete = false)
      (result : planEvaluations s = .error stop) : AdvanceStop limits s stop

abbrev AdvanceSteps (limits : Limits) : AdvanceState → AdvanceState → Prop :=
  Relation.ReflTransGen (AdvanceStep limits)

/-- The outcome is reached in steps, or by stopping after some steps. -/
def Advances (limits : Limits) (s : AdvanceState) : Advancing → Prop
  | .ok s' => AdvanceSteps limits s s'
  | .error stop => ∃ m, AdvanceSteps limits s m ∧ AdvanceStop limits m stop

theorem Advances.bind {limits : Limits} {s : AdvanceState} {first : Advancing}
    {rest : AdvanceState → Advancing} (hfirst : Advances limits s first)
    (hrest : ∀ m, first = .ok m → Advances limits m (rest m)) :
    Advances limits s (first >>= rest) := by
  cases first with
  | error stop => exact hfirst
  | ok m =>
    have hm := hrest m rfl
    change Advances limits s (rest m)
    cases hrun : rest m with
    | ok s' =>
      rw [hrun] at hm
      exact Relation.ReflTransGen.trans hfirst hm
    | error stop =>
      rw [hrun] at hm
      obtain ⟨last, hlast, hstop⟩ := hm
      exact ⟨last, Relation.ReflTransGen.trans hfirst hlast, hstop⟩

theorem Advances.after {limits : Limits} {s m : AdvanceState} {out : Advancing}
    (hfirst : AdvanceSteps limits s m) (h : Advances limits m out) : Advances limits s out := by
  have hok : Advances limits s (.ok m) := hfirst
  have hbind : Advances limits s (.ok m >>= fun _ => out) := hok.bind fun _ hm => by
    obtain rfl := Except.ok.inj hm
    exact h
  exact hbind

/-- What every step keeps, an advance keeps. -/
theorem advanceSteps_keep {limits : Limits} {P : AdvanceState → Prop}
    (hstep : ∀ {s s'}, AdvanceStep limits s s' → P s → P s') {s s' : AdvanceState}
    (h : AdvanceSteps limits s s') (hs : P s) : P s' := by
  induction h with
  | refl => exact hs
  | tail _ hlast ih => exact hstep hlast ih

/-! ## The stage plan stays -/

/-- Two states at the same place of the same stage plan. -/
structure SamePlan (s s' : AdvanceState) : Prop where
  spec : s'.ensemble.spec = s.ensemble.spec
  extraStages : s'.execution.extraStages = s.execution.extraStages
  stageIndex : s'.execution.stageIndex = s.execution.stageIndex

theorem SamePlan.refl (s : AdvanceState) : SamePlan s s := ⟨rfl, rfl, rfl⟩

theorem SamePlan.trans {a b c : AdvanceState} (h : SamePlan a b) (h' : SamePlan b c) :
    SamePlan a c :=
  ⟨h'.spec.trans h.spec, h'.extraStages.trans h.extraStages, h'.stageIndex.trans h.stageIndex⟩

theorem SamePlan.stages {s s' : AdvanceState} (h : SamePlan s s') : s'.stages = s.stages := by
  rw [AdvanceState.stages, AdvanceState.stages, h.spec, h.extraStages]

theorem SamePlan.current {s s' : AdvanceState} (h : SamePlan s s') :
    s'.currentStage = s.currentStage := by
  rw [currentStage, currentStage, h.stages, h.stageIndex]

theorem SamePlan.consumed {s s' : AdvanceState} (h : SamePlan s s') (hs : s.Consumed) :
    s'.Consumed := by
  rw [Consumed, h.stages, h.stageIndex]
  exact hs

/-- Two states that differ in the candidates and the shared part at most. -/
structure SameButCandidates (s s' : AdvanceState) : Prop where
  ensemble : s'.ensemble = s.ensemble
  execution : s'.execution = { s.execution with candidates := s'.execution.candidates }

theorem declareMember_same (limits : Limits) (stage : StageSpec) (s : AdvanceState)
    (id : ParticipantId) : SameButCandidates s (final (declareMember limits stage s id)) := by
  unfold declareMember
  split
  · exact ⟨rfl, rfl⟩
  · split
    · exact ⟨rfl, rfl⟩
    · split
      · exact ⟨rfl, rfl⟩
      · split <;> exact ⟨rfl, rfl⟩

theorem declareMembers_same (limits : Limits) (stage : StageSpec) (ids : List ParticipantId)
    (s : AdvanceState) :
    SameButCandidates s (final (ids.foldlM (declareMember limits stage) s)) :=
  final_foldlM (R := SameButCandidates) (fun _ => ⟨rfl, rfl⟩)
    (fun h h' => ⟨h'.ensemble.trans h.ensemble, by rw [h'.execution, h.execution]⟩)
    (fun s id _ => declareMember_same limits stage s id) s

/-- A stage that is declared: its members were folded over. -/
theorem declareStage_eq_ok {limits : Limits} {stage : StageSpec} {s s' : AdvanceState}
    (hdeclared : s.execution.declaredCurrentStage = false)
    (h : declareStage limits stage s = .ok s') :
    ∃ m, stage.participants.foldlM (declareMember limits stage) s = .ok m
      ∧ s' = { m with
          execution := { m.execution with declaredCurrentStage := true }
          progress := true } := by
  rw [declareStage, hdeclared] at h
  simp only [Bool.false_eq_true, if_false] at h
  obtain ⟨m, hm, heq⟩ := Checks.bind_eq_ok.mp h
  exact ⟨m, hm, (Except.ok.inj heq).symm⟩

theorem declareStage_eq_error {limits : Limits} {stage : StageSpec} {s : AdvanceState}
    {stop : Error × AdvanceState} (hdeclared : s.execution.declaredCurrentStage = false)
    (h : declareStage limits stage s = .error stop) :
    stage.participants.foldlM (declareMember limits stage) s = .error stop := by
  rw [declareStage, hdeclared] at h
  simp only [Bool.false_eq_true, if_false] at h
  cases hfold : stage.participants.foldlM (declareMember limits stage) s with
  | ok m =>
    rw [hfold] at h
    cases h
  | error stop' =>
    rw [hfold] at h
    exact h

theorem declareStage_same {limits : Limits} {stage : StageSpec} {s s' : AdvanceState}
    (h : declareStage limits stage s = .ok s') :
    SamePlan s s' ∧ s'.execution.declaredCurrentStage = true := by
  cases hdeclared : s.execution.declaredCurrentStage with
  | true =>
    rw [declareStage, if_pos hdeclared] at h
    obtain rfl := Except.ok.inj h
    exact ⟨.refl s, hdeclared⟩
  | false =>
    obtain ⟨m, hm, rfl⟩ := declareStage_eq_ok hdeclared h
    have hsame := declareMembers_same limits stage stage.participants s
    rw [hm, final_ok] at hsame
    exact ⟨⟨congrArg _ hsame.ensemble, by rw [hsame.execution], by rw [hsame.execution]⟩, rfl⟩

/-! ## The loops -/

theorem declareStage_advances {limits : Limits} {stage : StageSpec} {s : AdvanceState}
    (hcurrent : s.currentStage = some stage) :
    Advances limits s (declareStage limits stage s) := by
  cases hdeclared : s.execution.declaredCurrentStage with
  | true =>
    rw [declareStage, if_pos hdeclared]
    exact Relation.ReflTransGen.refl
  | false =>
    cases hresult : declareStage limits stage s with
    | ok s' => exact .single (.declared hcurrent hdeclared hresult)
    | error stop => exact ⟨s, .refl, .undeclared hcurrent hdeclared hresult⟩

/-- The stage is current and declared, as the dispatch loop finds it. -/
structure Dispatchable (stage : StageSpec) (s : AdvanceState) : Prop where
  current : s.currentStage = some stage
  declared : s.execution.declaredCurrentStage = true

/-- One step of the dispatch loop. In a sequential stage nothing was
dispatched before it. -/
theorem dispatchOne_advances (limits : Limits) {stage : StageSpec} {dispatchedAny : Bool}
    {s : AdvanceState} (h : Dispatchable stage s)
    (hfirst : stage.mode = .sequential → dispatchedAny = false) (index : Nat) :
    AdvanceSteps limits s (dispatchOne stage dispatchedAny s index).state
      ∧ Dispatchable stage (dispatchOne stage dispatchedAny s index).state
      ∧ SamePlan s (dispatchOne stage dispatchedAny s index).state := by
  have hcases := dispatchOne_cases stage dispatchedAny s index
  generalize dispatchOne stage dispatchedAny s index = next at hcases
  cases hcases with
  | skipped => exact ⟨.refl, h, .refl s⟩
  | kept target => exact ⟨.single (.adopted h.current h.declared target), ⟨h.current, h.declared⟩,
      ⟨rfl, rfl, rfl⟩⟩
  | blocked target => exact ⟨.single (.adopted h.current h.declared target),
      ⟨h.current, h.declared⟩, ⟨rfl, rfl, rfl⟩⟩
  | stranded target away gone =>
    exact ⟨.single (.stranded h.current h.declared target away gone), ⟨h.current, h.declared⟩,
      ⟨rfl, rfl, rfl⟩⟩
  | last target served mode free =>
    refine ⟨.single (.dispatched h.current h.declared target served fun hmode => ?_),
      ⟨h.current, h.declared⟩, ⟨rfl, rfl, rfl⟩⟩
    rcases free with hany | hfree
    · rw [hfirst hmode] at hany
      cases hany
    · exact hfree
  | sent target served mode =>
    exact ⟨.single (.dispatched h.current h.declared target served
      fun hmode => absurd hmode mode), ⟨h.current, h.declared⟩, ⟨rfl, rfl, rfl⟩⟩

/-- A sequential stage never goes on after a dispatch. -/
theorem dispatchOne_proceeds {stage : StageSpec} {dispatchedAny dispatched : Bool}
    {s s' : AdvanceState} {index : Nat}
    (h : dispatchOne stage dispatchedAny s index = .proceed dispatched s')
    (hmode : stage.mode = .sequential) : dispatched = dispatchedAny := by
  have hcases := dispatchOne_cases stage dispatchedAny s index
  rw [h] at hcases
  cases hcases with
  | skipped | kept | stranded => rfl
  | sent _ _ mode => exact absurd hmode mode

theorem dispatchLoop_advances (limits : Limits) {stage : StageSpec} {dispatchedAny : Bool}
    {s : AdvanceState} (indices : List Nat) (h : Dispatchable stage s)
    (hfirst : stage.mode = .sequential → dispatchedAny = false) :
    AdvanceSteps limits s (dispatchLoop stage indices dispatchedAny s)
      ∧ Dispatchable stage (dispatchLoop stage indices dispatchedAny s)
      ∧ SamePlan s (dispatchLoop stage indices dispatchedAny s) := by
  induction indices generalizing dispatchedAny s with
  | nil => exact ⟨.refl, h, .refl s⟩
  | cons index rest ih =>
    have hone := dispatchOne_advances limits h hfirst index
    unfold dispatchLoop
    split
    · rename_i dispatched s' heq
      rw [heq] at hone
      obtain ⟨hsteps, hdispatchable, hsame⟩ := hone
      have hrest := ih hdispatchable
        fun hmode => (dispatchOne_proceeds heq hmode).trans (hfirst hmode)
      exact ⟨hsteps.trans hrest.1, hrest.2.1, hsame.trans hrest.2.2⟩
    · rename_i s' heq
      rw [heq] at hone
      exact hone

theorem dispatchStage_advances (limits : Limits) {stage : StageSpec} {s : AdvanceState}
    (h : Dispatchable stage s) :
    AdvanceSteps limits s (dispatchStage stage s) ∧ Dispatchable stage (dispatchStage stage s)
      ∧ SamePlan s (dispatchStage stage s) :=
  dispatchLoop_advances limits (List.range s.execution.candidates.length) h fun _ => rfl

theorem stageLoop_advances {limits : Limits} (stages : List StageSpec) {s : AdvanceState}
    (hstages : stages = s.stages.drop s.execution.stageIndex) :
    Advances limits s (stageLoop limits stages s) := by
  induction stages generalizing s with
  | nil => exact Relation.ReflTransGen.refl
  | cons stage rest ih =>
    have hcurrent : s.currentStage = some stage := by
      rw [currentStage, ← List.head?_drop, ← hstages]
      rfl
    unfold stageLoop
    refine (declareStage_advances hcurrent).bind fun m hm => ?_
    obtain ⟨hsame, hdeclared⟩ := declareStage_same hm
    obtain ⟨hsteps, hdispatchable, hsame'⟩ := dispatchStage_advances limits
      ⟨hsame.current.trans hcurrent, hdeclared⟩
    simp only
    split
    · rename_i hcomplete
      refine Advances.after (hsteps.tail (.completed hdispatchable.current
        hdispatchable.declared hcomplete)) (ih ?_)
      have hplan := hsame.trans hsame'
      change rest = ((dispatchStage stage m).stages).drop
        ((dispatchStage stage m).execution.stageIndex + 1)
      rw [show (dispatchStage stage m).stages = s.stages from hplan.stages,
        show (dispatchStage stage m).execution.stageIndex = s.execution.stageIndex
          from hplan.stageIndex, ← List.tail_drop, ← hstages]
      rfl
    · exact hsteps

/-! ### Planning -/

/-- What planning adds: one evaluation for every target, none handed out yet. -/
structure PlansFor (targets : List PlanTarget) (s s' : AdvanceState)
    (added : List PendingEvaluation) : Prop where
  ensemble : s'.ensemble = s.ensemble
  actions : s'.actions = s.actions
  execution : s'.execution = { s.execution with pending := s.execution.pending ++ added }
  candidateIds : s'.core.candidateIds = s.core.candidateIds
  fresh : ∀ p ∈ added, p.emitted = false ∧ p.answered = false ∧ p.abandoned = false
  made : List.Forall₂ (fun t p => p = plannedEvaluation s.ensemble t p.id) targets added
  targets : added.map (·.candidate) = targets.map (·.candidate)

/-- Planning adds evaluations for the targets, up to the one it stops at. -/
theorem planAll_plans (targets : List PlanTarget) (s : AdvanceState) :
    ∃ done added, PlansFor done s (final (targets.foldlM planOne s)) added
      ∧ done <+: targets ∧ ∀ m, targets.foldlM planOne s = .ok m → done = targets := by
  induction targets generalizing s with
  | nil =>
    exact ⟨[], [], ⟨rfl, rfl, by simp, rfl, by simp, .nil, rfl⟩, List.prefix_refl [],
      fun _ _ => rfl⟩
  | cons t rest ih =>
    rw [List.foldlM_cons]
    cases hids : s.core.evaluationIds.allocate with
    | none =>
      have hone : planOne s t = s.exhausted "evaluation identity space is exhausted" := by
        rw [planOne, hids]
      rw [hone]
      refine ⟨[], [], ⟨rfl, rfl, by simp [exhausted, bind, Except.bind], rfl, by simp, .nil, rfl⟩,
        List.nil_prefix, fun m hm => ?_⟩
      cases hm
    | some allocated =>
      obtain ⟨id, ids⟩ := allocated
      have hone : planOne s t = .ok { s with
          core := { s.core with evaluationIds := ids }
          execution :=
            { s.execution with
              pending := s.execution.pending ++ [plannedEvaluation s.ensemble t id] } } := by
        rw [planOne, hids]
      rw [hone]
      obtain ⟨done, added, hplans, hprefix, hdone⟩ := ih { s with
          core := { s.core with evaluationIds := ids }
          execution :=
            { s.execution with
              pending := s.execution.pending ++ [plannedEvaluation s.ensemble t id] } }
      refine ⟨t :: done, plannedEvaluation s.ensemble t id :: added,
        ⟨hplans.ensemble, hplans.actions, ?_, hplans.candidateIds, ?_, .cons rfl hplans.made, ?_⟩,
        (List.prefix_cons_inj t).mpr hprefix, fun m hm => ?_⟩
      · exact hplans.execution.trans (by simp)
      · exact List.forall_mem_cons.mpr ⟨⟨rfl, rfl, rfl⟩, hplans.fresh⟩
      · rw [List.map_cons, List.map_cons, hplans.targets]
        rfl
      · rw [hdone m hm]

/-- Planning that starts: it is marked complete, then done. -/
theorem planEvaluations_eq {s : AdvanceState} (h : s.execution.planningComplete = false) :
    planEvaluations s
      = (planTargets s.ensemble.spec s.execution.candidates).foldlM planOne
          { s with execution := { s.execution with planningComplete := true } } >>= fun m =>
        .ok { m with progress := true } := by
  rw [planEvaluations, if_neg (by simp [h])]
  rfl

theorem planEvaluations_plans {s : AdvanceState} (h : s.execution.planningComplete = false) :
    ∃ done added, PlansFor done
        { s with execution := { s.execution with planningComplete := true } }
        (final (planEvaluations s)) added
      ∧ done <+: planTargets s.ensemble.spec s.execution.candidates
      ∧ ∀ m, planEvaluations s = .ok m →
        done = planTargets s.ensemble.spec s.execution.candidates := by
  obtain ⟨done, added, hplans, hprefix, hdone⟩ := planAll_plans
    (planTargets s.ensemble.spec s.execution.candidates)
    { s with execution := { s.execution with planningComplete := true } }
  refine ⟨done, added, ?_⟩
  rw [planEvaluations_eq h]
  cases hrun : (planTargets s.ensemble.spec s.execution.candidates).foldlM planOne
      { s with execution := { s.execution with planningComplete := true } } with
  | ok m =>
    rw [hrun] at hplans
    exact ⟨⟨hplans.ensemble, hplans.actions, hplans.execution, hplans.candidateIds,
      hplans.fresh, hplans.made, hplans.targets⟩, hprefix, fun _ _ => hdone m hrun⟩
  | error stop =>
    rw [hrun] at hplans
    exact ⟨hplans, hprefix, fun m hm => by cases hm⟩

/-- What is planned depends on a candidate by its identity only: where some
candidate has a target, all of them do. -/
theorem planTargets_covers {spec : EnsembleSpec} {cs : List CandidateRecord}
    (h : planTargets spec cs ≠ []) {c : CandidateRecord} (hc : c ∈ cs)
    (hcontent : isContentState c.state = true) : ∃ t ∈ planTargets spec cs, t.candidate = c.id := by
  obtain ⟨t, ht⟩ := List.exists_mem_of_ne_nil _ h
  simp only [planTargets, List.mem_flatMap] at ht
  obtain ⟨d, -, evaluator, hevaluator, ht⟩ := ht
  have hown : ∃ t ∈ evaluatorTargets spec c evaluator, t.candidate = c.id := by
    simp only [evaluatorTargets, List.mem_append] at ht ⊢
    rcases ht with ht | ht
    · split at ht
      · rename_i hrole
        obtain ⟨criterion, hcriterion, -⟩ := List.mem_map.mp ht
        exact ⟨_, .inl (by rw [if_pos hrole]; exact List.mem_map_of_mem hcriterion), rfl⟩
      · cases ht
    · split at ht
      · rename_i hrole
        obtain ⟨criterion, hcriterion, -⟩ := List.mem_map.mp ht
        exact ⟨_, .inr (by rw [if_pos hrole]; exact List.mem_map_of_mem hcriterion), rfl⟩
      · cases ht
  obtain ⟨t', ht', heq⟩ := hown
  exact ⟨t', List.mem_flatMap.mpr ⟨c, List.mem_filter.mpr ⟨hc, hcontent⟩,
    List.mem_flatMap.mpr ⟨evaluator, hevaluator, ht'⟩⟩, heq⟩

/-- Without evaluating participants there is nothing to plan. -/
theorem planTargets_eq_nil {spec : EnsembleSpec} (h : spec.evaluatingParticipants = [])
    (cs : List CandidateRecord) : planTargets spec cs = [] := by
  simp [planTargets, h]

theorem planEvaluations_ready {s m : AdvanceState}
    (h : planEvaluations s.reopenPlanning = .ok m) : m.PlanReady := by
  cases hcomplete : s.reopenPlanning.execution.planningComplete with
  | true =>
    rw [planEvaluations, if_pos hcomplete] at h
    obtain rfl := Except.ok.inj h
    refine ⟨hcomplete, ?_⟩
    have hkept : s.reopenPlanning = s := by
      unfold reopenPlanning at hcomplete ⊢
      split
      · rename_i hreopens
        rw [if_pos hreopens] at hcomplete
        cases hcomplete
      · rfl
    rw [hkept] at hcomplete ⊢
    by_cases hevaluating : s.ensemble.spec.evaluatingParticipants = []
    · exact .inl (planTargets_eq_nil hevaluating _)
    · refine .inr fun c hc hcontent => ?_
      by_contra hmissing
      have hreopens : s.reopenPlanning.execution.planningComplete = false := by
        rw [reopenPlanning, if_pos]
        simp only [hcomplete, Bool.true_and, Bool.and_eq_true, List.any_eq_true,
          Bool.not_eq_true', List.isEmpty_eq_false_iff]
        exact ⟨⟨c, hc, hcontent, by simpa using hmissing⟩, hevaluating⟩
      rw [hkept, hcomplete] at hreopens
      cases hreopens
  | false =>
    obtain ⟨done, added, hplans, -, hdone⟩ := planEvaluations_plans hcomplete
    obtain rfl := hdone m h
    rw [h, final_ok] at hplans
    refine ⟨by rw [hplans.execution], ?_⟩
    rw [hplans.ensemble, hplans.execution]
    by_cases hnone : planTargets s.reopenPlanning.ensemble.spec
        s.reopenPlanning.execution.candidates = []
    · exact .inl hnone
    · refine .inr fun c hc hcontent => ?_
      obtain ⟨t, ht, heq⟩ := planTargets_covers hnone hc hcontent
      have hmem : c.id ∈ added.map (·.candidate) := by
        rw [hplans.targets, ← heq]
        exact List.mem_map_of_mem ht
      obtain ⟨p, hp, hpc⟩ := List.mem_map.mp hmem
      simp only [everEvaluated, Bool.or_eq_true, List.any_eq_true, beq_iff_eq]
      exact .inr ⟨p, List.mem_append_right _ hp, hpc⟩

/-! ### Emission -/

/-- The evaluation is planned and neither handed out nor settled. -/
structure Unsent (s : AdvanceState) (index : Nat) (p : PendingEvaluation) : Prop where
  at_ : s.execution.pending[index]? = some p
  answered : p.answered = false
  abandoned : p.abandoned = false
  emitted : p.emitted = false

/-- The evaluator may still answer, but not now. -/
structure AwaitsEvaluator (s : AdvanceState) (p : PendingEvaluation)
    (evaluator : ParticipantRecord) : Prop where
  seat : s.ensemble.participant? p.evaluator = some evaluator
  current : p.evaluatorGeneration = evaluator.generation
  away : evaluator.authoritative s.core.epoch = false
  capable : evaluator.capable = true

/-- The state after a planned evaluation was handed out. -/
def emitPending (s : AdvanceState) (index : Nat) (p : PendingEvaluation)
    (evaluator : ParticipantRecord) (c : CandidateRecord) : AdvanceState :=
  { s.setPending index { p with emitted := true } with
    core := s.core.nextSequence.2
    actions := s.actions ++
      [.evaluate (evaluationAction s.ensemble s.execution p evaluator c s.core.nextSequence.1)]
    progress := true }

/-- What emission does at one position. -/
inductive Emitting (s : AdvanceState) (index : Nat) : AdvanceState → Prop
  | skipped (idle : ∀ p, ¬ Unsent s index p) : Emitting s index s
  | kept {p evaluator} (unsent : Unsent s index p) (awaits : AwaitsEvaluator s p evaluator) :
      Emitting s index s
  | abandoned {p progress} (unsent : Unsent s index p) :
      Emitting s index { s.abandonPending index p with progress }
  | emitted {p evaluator c} (unsent : Unsent s index p)
      (seat : s.ensemble.participant? p.evaluator = some evaluator)
      (current : p.evaluatorGeneration = evaluator.generation)
      (served : evaluator.authoritative s.core.epoch = true)
      (target : standingTarget s.execution p = some c) :
      Emitting s index (s.emitPending index p evaluator c)

theorem emitOne_cases (s : AdvanceState) (index : Nat) : Emitting s index (s.emitOne index) := by
  unfold emitOne
  split
  · rename_i hnone
    refine .skipped fun p hp => ?_
    have hat := hp.at_
    rw [hnone] at hat
    cases hat
  · rename_i p hp
    split
    · rename_i hsettled
      refine .skipped fun q hq => ?_
      obtain rfl := Option.some.inj (hp.symm.trans hq.at_)
      rw [hq.answered, hq.abandoned, hq.emitted] at hsettled
      cases hsettled
    · rename_i hopen
      simp only [Bool.or_eq_true, not_or, Bool.not_eq_true] at hopen
      have hunsent : Unsent s index p := ⟨hp, hopen.1.1, hopen.1.2, hopen.2⟩
      split
      · exact .abandoned hunsent
      · rename_i evaluator hevaluator
        split
        · exact .abandoned hunsent
        · rename_i hcurrent
          have hcurrent := not_not.mp hcurrent
          split
          · rename_i haway
            have haway : evaluator.authoritative s.core.epoch = false := by simpa using haway
            split
            · rename_i hcapable
              exact .kept hunsent ⟨hevaluator, hcurrent, haway, hcapable⟩
            · exact .abandoned hunsent
          · rename_i hserved
            have hserved : evaluator.authoritative s.core.epoch = true := by simpa using hserved
            split
            · exact .abandoned hunsent
            · rename_i c htarget
              exact .emitted hunsent hevaluator hcurrent hserved htarget

/-- Emission marks planned evaluations and nothing else of the execution. -/
theorem emitOne_execution (s : AdvanceState) (index : Nat) :
    (s.emitOne index).ensemble = s.ensemble
      ∧ ((s.emitOne index).execution = s.execution
        ∨ ∃ p p', s.execution.pending[index]? = some p
          ∧ p' = { p with emitted := p'.emitted, abandoned := p'.abandoned }
          ∧ (s.emitOne index).execution
            = { s.execution with pending := s.execution.pending.set index p' }) := by
  have hcases := emitOne_cases s index
  generalize s.emitOne index = s' at hcases ⊢
  cases hcases with
  | skipped => exact ⟨rfl, .inl rfl⟩
  | kept => exact ⟨rfl, .inl rfl⟩
  | abandoned unsent => exact ⟨rfl, .inr ⟨_, _, unsent.at_, rfl, rfl⟩⟩
  | emitted unsent => exact ⟨rfl, .inr ⟨_, _, unsent.at_, rfl, rfl⟩⟩

theorem emitOne_same (s : AdvanceState) (index : Nat) : SamePlan s (s.emitOne index) := by
  obtain ⟨hensemble, hexecution | ⟨p, p', -, -, hexecution⟩⟩ := emitOne_execution s index
  · exact ⟨congrArg _ hensemble, by rw [hexecution], by rw [hexecution]⟩
  · exact ⟨congrArg _ hensemble, by rw [hexecution], by rw [hexecution]⟩

theorem PlanReady.emitOne {s : AdvanceState} (h : s.PlanReady) (index : Nat) :
    (s.emitOne index).PlanReady := by
  obtain ⟨hensemble, hexecution | ⟨p, p', hp, hp', hexecution⟩⟩ := emitOne_execution s index
  · exact ⟨by rw [hexecution]; exact h.complete, by rw [hensemble, hexecution]; exact h.covered⟩
  · have hplanned : (s.execution.pending.set index p').map (·.candidate)
        = s.execution.pending.map (·.candidate) := Slots.map_key_set hp (by rw [hp'])
    have heverEvaluated : ∀ c, everEvaluated
        { s.execution with pending := s.execution.pending.set index p' } c
          = everEvaluated s.execution c := by
      intro c
      have hany : ∀ ps : List PendingEvaluation, ps.any (·.candidate == c.id)
          = (ps.map (·.candidate)).any (· == c.id) := fun ps => by rw [List.any_map]; rfl
      rw [everEvaluated, everEvaluated, hany, hany, hplanned]
    refine ⟨by rw [hexecution]; exact h.complete, ?_⟩
    rw [hensemble, hexecution]
    exact h.covered.imp id fun hcovered c hc hcontent =>
      (heverEvaluated c).trans (hcovered c hc hcontent)

/-- Reopening a plan that covers all content does nothing. -/
theorem PlanReady.reopen {s : AdvanceState} (h : s.PlanReady) :
    s.reopenPlanning = s ∨ planTargets s.ensemble.spec s.execution.candidates = [] := by
  rcases h.covered with hnone | hcovered
  · exact .inr hnone
  · refine .inl ?_
    rw [reopenPlanning, if_neg]
    simp only [Bool.and_eq_true, List.any_eq_true, Bool.not_eq_true', not_and]
    rintro ⟨-, c, hc, hcontent, hmissing⟩
    rw [hcovered c hc hcontent] at hmissing
    cases hmissing

theorem planTargets_mark (spec : EnsembleSpec) (ranking : List CandidateRanking)
    (cs : List CandidateRecord) :
    planTargets spec (cs.map (markElimination ranking)) = planTargets spec cs := by
  have htargets : ∀ c, spec.evaluatingParticipants.flatMap
      (evaluatorTargets spec (markElimination ranking c))
        = spec.evaluatingParticipants.flatMap (evaluatorTargets spec c) := by
    intro c
    rw [markElimination_eq ranking c]
    rfl
  induction cs with
  | nil => rfl
  | cons c cs ih =>
    simp only [planTargets] at ih ⊢
    rw [List.map_cons, List.filter_cons, List.filter_cons, markElimination_state]
    split
    · rw [List.flatMap_cons, List.flatMap_cons, ih, htargets]
    · exact ih

theorem everEvaluated_mark (e : EnsembleRecord) (x : ExecutionRecord)
    (ranking : List CandidateRanking) (c : CandidateRecord) :
    everEvaluated (computeReports e x) (markElimination ranking c) = everEvaluated x c := by
  simp [everEvaluated]

theorem PlanReady.report {s : AdvanceState} (h : s.PlanReady) : s.report.PlanReady := by
  refine ⟨h.complete, ?_⟩
  change planTargets s.ensemble.spec (computeReports s.ensemble s.execution).candidates = []
    ∨ ∀ c ∈ (computeReports s.ensemble s.execution).candidates, isContentState c.state = true →
      everEvaluated (computeReports s.ensemble s.execution) c = true
  rw [computeReports_candidates, planTargets_mark]
  refine h.covered.imp id fun hcovered c' hc' hcontent => ?_
  obtain ⟨c, hc, rfl⟩ := List.mem_map.mp hc'
  rw [everEvaluated_mark]
  exact hcovered c hc (by simpa using hcontent)

theorem emitEvaluations_advances (limits : Limits) {s : AdvanceState} (h : s.Consumed)
    (hready : s.PlanReady) :
    AdvanceSteps limits s s.emitEvaluations ∧ SamePlan s s.emitEvaluations
      ∧ s.emitEvaluations.PlanReady := by
  have hfold : ∀ (indices : List Nat) (m : AdvanceState), m.Consumed → m.PlanReady →
      AdvanceSteps limits m (indices.foldl AdvanceState.emitOne m)
        ∧ SamePlan m (indices.foldl AdvanceState.emitOne m)
        ∧ (indices.foldl AdvanceState.emitOne m).PlanReady := by
    intro indices
    induction indices with
    | nil => exact fun m _ hm => ⟨.refl, .refl m, hm⟩
    | cons index rest ih =>
      intro m hm hmready
      have hone := emitOne_same m index
      obtain ⟨hsteps, hsame, hrest⟩ := ih (m.emitOne index) (hone.consumed hm)
        (hmready.emitOne index)
      exact ⟨.head (.emitted index hm hmready) hsteps, hone.trans hsame, hrest⟩
  exact hfold _ s h hready

theorem planOne_same (s : AdvanceState) (t : PlanTarget) : SamePlan s (final (planOne s t)) := by
  unfold planOne
  split <;> exact ⟨rfl, rfl, rfl⟩

theorem planEvaluations_same (s : AdvanceState) : SamePlan s (final (planEvaluations s)) := by
  unfold planEvaluations
  split
  · exact .refl s
  · refine final_bind (R := SamePlan) SamePlan.trans ?_ fun m _ => ⟨rfl, rfl, rfl⟩
    have hmark : SamePlan s { s with execution := { s.execution with planningComplete := true } } :=
      ⟨rfl, rfl, rfl⟩
    exact hmark.trans (final_foldlM SamePlan.refl SamePlan.trans
      (fun m t _ => planOne_same m t) _)

theorem reopenPlanning_same (s : AdvanceState) : SamePlan s s.reopenPlanning := by
  unfold reopenPlanning
  split
  · exact ⟨rfl, rfl, rfl⟩
  · exact .refl s

theorem planEvaluations_advances (limits : Limits) {s : AdvanceState} (h : s.Consumed) :
    Advances limits s (planEvaluations s) := by
  cases hcomplete : s.execution.planningComplete with
  | true =>
    rw [planEvaluations, if_pos hcomplete]
    exact Relation.ReflTransGen.refl
  | false =>
    cases hresult : planEvaluations s with
    | ok s' => exact .single (.planned h hcomplete hresult)
    | error stop => exact ⟨s, .refl, .unplanned h hcomplete hresult⟩

theorem activateFallback_advances {limits : Limits} {s : AdvanceState} (h : s.Consumed) :
    AdvanceSteps limits s s.activateFallback := by
  cases hdecision : fallbackDecision s.ensemble s.execution with
  | none =>
    rw [show s.activateFallback = s by rw [activateFallback, hdecision]]
  | some trigger => exact .single (.activated h hdecision)

theorem evaluationPhase_advances {limits : Limits} {s : AdvanceState} (h : s.Consumed) :
    Advances limits s (evaluationPhase s) := by
  have hreopened : s.reopenPlanning.Consumed := (reopenPlanning_same s).consumed h
  unfold evaluationPhase
  refine Advances.after (.single (.reopened h)) ((planEvaluations_advances limits hreopened).bind
    fun m hm => ?_)
  have hplanned : m.Consumed := by
    have hsame := planEvaluations_same s.reopenPlanning
    rw [hm] at hsame
    exact hsame.consumed hreopened
  obtain ⟨hsteps, hsame, -⟩ := emitEvaluations_advances limits hplanned
    (planEvaluations_ready hm)
  have hemitted : m.emitEvaluations.Consumed := hsame.consumed hplanned
  have hreported : m.emitEvaluations.report.Consumed := hemitted
  exact (hsteps.tail (.reported hemitted)).trans (activateFallback_advances hreported)

theorem advanceRound_advances (limits : Limits) (s : AdvanceState) :
    Advances limits s (advanceRound limits s) := by
  unfold advanceRound
  refine (stageLoop_advances _ rfl).bind fun m _ => ?_
  split
  · rename_i hconsumed
    exact evaluationPhase_advances hconsumed
  · exact Relation.ReflTransGen.refl

/-- Whatever an advance does is a sequence of steps. -/
theorem advanceLoop_advances (limits : Limits) (fuel : Nat) (s : AdvanceState) :
    Advances limits s (advanceLoop limits fuel s) := by
  induction fuel generalizing s with
  | zero => exact Relation.ReflTransGen.refl
  | succ fuel ih =>
    unfold advanceLoop
    split
    · exact Advances.after (.single .round)
        ((advanceRound_advances limits { s with progress := false }).bind fun m _ => ih m)
    · exact Relation.ReflTransGen.refl

end AdvanceState

/-- The state an advance of an open execution starts in. -/
def advanceStart (core : Core) (e : EnsembleRecord) (x : ExecutionRecord) : AdvanceState :=
  { core, ensemble := e, execution := x, progress := true }

theorem advanceOpen_eq (limits : Limits) (core : Core) (e : EnsembleRecord)
    (x : ExecutionRecord) :
    advanceOpen limits core e x
      = match AdvanceState.advanceLoop limits 64 (advanceStart core e x) with
        | .error (error, s) => (s, .error error)
        | .ok s => (s.report, .ok s.actions) := rfl

/-- An advance of an open execution ends in a report, or stops. -/
inductive AdvanceEnds (limits : Limits) (core : Core) (e : EnsembleRecord) (x : ExecutionRecord) :
    AdvanceState × Outcome (List FabricAction) → Prop
  | settled {s} (steps : AdvanceState.AdvanceSteps limits (advanceStart core e x) s)
      (result : AdvanceState.advanceLoop limits 64 (advanceStart core e x) = .ok s) :
      AdvanceEnds limits core e x (s.report, .ok s.actions)
  | stopped {m error s} (steps : AdvanceState.AdvanceSteps limits (advanceStart core e x) m)
      (stop : AdvanceState.AdvanceStop limits m (error, s)) :
      AdvanceEnds limits core e x (s, .error error)

theorem advanceOpen_ends (limits : Limits) (core : Core) (e : EnsembleRecord)
    (x : ExecutionRecord) : AdvanceEnds limits core e x (advanceOpen limits core e x) := by
  have hloop := AdvanceState.advanceLoop_advances limits 64 (advanceStart core e x)
  rw [advanceOpen_eq]
  cases hrun : AdvanceState.advanceLoop limits 64 (advanceStart core e x) with
  | ok s =>
    rw [hrun] at hloop
    exact .settled hloop hrun
  | error stop =>
    rw [hrun] at hloop
    obtain ⟨m, hsteps, hstop⟩ := hloop
    exact .stopped hsteps hstop

/-! ## Advance on a runtime -/

/-- What an advance of an ensemble does to the runtime and answers: nothing where
there is no work, one cancellation, the closing of a superseded execution, or
the rounds. -/
inductive AdvanceAnswers (f : Fabric) (id : EnsembleId) (generation : EnsembleGeneration) :
    Fabric × Outcome (List FabricAction) → Prop
  | refused {error} (code : error.code ≠ .resourceLimitExceeded) :
      AdvanceAnswers f id generation (f, .error error)
  | idle {e} (find : f.find id = some e)
      (nothing : ∀ x, e.execution = some x →
        x.status ≠ .opened ∧ (x.status = .cancelled → x.cancellationEmitted = true)) :
      AdvanceAnswers f id generation (f, .ok [])
  | withdrawn {e x} (find : f.find id = some e) (named : e.spec.generation = generation)
      (execution : e.execution = some x) (status : x.status = .cancelled) :
      AdvanceAnswers f id generation
        ({ f with core := (emitCancellation f.core e x).2.2 }.store id
          (e.holding (emitCancellation f.core e x).1), .ok (emitCancellation f.core e x).2.1)
  | closed {e x} (find : f.find id = some e) (named : e.spec.generation = generation)
      (execution : e.execution = some x) (status : x.status = .opened)
      (superseded : e.superseded = true) :
      AdvanceAnswers f id generation (f.store id (e.holding (closedExecution x)), .ok [])
  | worked {e x} (find : f.find id = some e) (named : e.spec.generation = generation)
      (execution : e.execution = some x) (status : x.status = .opened)
      (live : e.superseded = false) :
      AdvanceAnswers f id generation
        ({ f with core := (advanceOpen f.config.limits f.core e x).1.core }.store id
          ((advanceOpen f.config.limits f.core e x).1.ensemble.holding
            (advanceOpen f.config.limits f.core e x).1.execution),
          (advanceOpen f.config.limits f.core e x).2)

theorem advance_answers (f : Fabric) (id : EnsembleId) (generation : EnsembleGeneration) :
    AdvanceAnswers f id generation (advance f id generation) := by
  unfold advance
  split
  · exact .refused (by simp)
  · rename_i e he
    split
    · exact .refused (by simp)
    · rename_i hnamed
      split
      · rename_i hnone
        exact .idle he fun x hx => by rw [hnone] at hx; cases hx
      · rename_i x hx
        split
        · rename_i hstatus
          split
          · rename_i hemitted
            refine .idle he fun x' hx' => ?_
            obtain rfl := Option.some.inj (hx.symm.trans hx')
            exact ⟨by simp [hstatus], fun _ => hemitted⟩
          · exact .withdrawn he (not_not.mp hnamed) hx hstatus
        · rename_i hstatus
          split
          · rename_i hsuperseded
            exact .closed he (not_not.mp hnamed) hx hstatus hsuperseded
          · rename_i hlive
            exact .worked he (not_not.mp hnamed) hx hstatus (by simpa using hlive)
        · rename_i hcancelled hopened
          refine .idle he fun x' hx' => ?_
          obtain rfl := Option.some.inj (hx.symm.trans hx')
          exact ⟨hopened, fun hstatus => absurd hstatus hcancelled⟩

/-- An advance without open or cancelled work does nothing. -/
theorem advance_idle {f : Fabric} {id : EnsembleId} {generation : EnsembleGeneration}
    {e : EnsembleRecord} (he : f.find id = some e) (hnamed : e.spec.generation = generation)
    (hnothing : ∀ x, e.execution = some x →
      x.status ≠ .opened ∧ (x.status = .cancelled → x.cancellationEmitted = true)) :
    advance f id generation = (f, .ok []) := by
  unfold advance
  rw [he]
  simp only [hnamed, ne_eq, not_true_eq_false, if_false]
  cases hx : e.execution with
  | none => rfl
  | some x =>
    obtain ⟨hopened, hcancelled⟩ := hnothing x hx
    simp only
    split
    · rename_i hstatus
      rw [if_pos (hcancelled hstatus)]
    · rename_i hstatus
      exact absurd hstatus hopened
    · rfl

/-- An advance of a live open execution works on it. -/
theorem advance_worked {f : Fabric} {id : EnsembleId} {generation : EnsembleGeneration}
    {e : EnsembleRecord} {x : ExecutionRecord} (he : f.find id = some e)
    (hnamed : e.spec.generation = generation) (hx : e.execution = some x)
    (hopen : x.status = .opened) (hlive : e.superseded = false) :
    advance f id generation
      = ({ f with core := (advanceOpen f.config.limits f.core e x).1.core }.store id
          ((advanceOpen f.config.limits f.core e x).1.ensemble.holding
            (advanceOpen f.config.limits f.core e x).1.execution),
          (advanceOpen f.config.limits f.core e x).2) := by
  simp [advance, he, hnamed, hx, hopen, hlive]

end EnsembleFabric
