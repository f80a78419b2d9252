import EnsembleFabric.Planned
import EnsembleFabric.Steady
import EnsembleFabric.Threshold
import EnsembleFabric.Votes

/-!
# Evaluations planned once

Planning runs whenever the plan is not marked complete, and then asks for
the evaluations of all content, whatever was planned or answered before. It
is marked incomplete by content nobody has evaluated yet and by a fallback,
and the content that was planned for then is planned for again. Apart from
that, the same evaluation is asked for twice when an evaluator is judge and
verifier and a criterion is in both lists.

`planningPasses` are the states in which an advance starts to plan, and
`passAsksAnew` is what such a state has to meet: nothing the pass asks for
is planned or on record, and no evaluator is asked about a criterion twice.
What the passes ask for is the same in all of them and is known before the
advance (`planningPasses_ask` in `Foresight`).

> plans_made_once : in every run whose advances ask anew, no execution has
> two live plans with one key, and no event plans what is on record.

The rounds between two passes add no plan and bring none back that was given
up (`PlansThin`), so the passes are all that has to be looked at. A pass
plans some of what it asks for, up to a bound it may stop at, each once
(`plannedKeys_nodup`).
-/

namespace EnsembleFabric

open EventSystem AdvanceState

/-! ## What a planning pass asks for -/

def targetKey (e : EnsembleRecord) (t : PlanTarget) : PlanKey :=
  ⟨t.evaluator, seatGeneration e t.evaluator, t.candidate, t.candidateGeneration, t.criterion⟩

/-- The evaluations a planning pass asks for in this state. -/
def plannedKeys (s : AdvanceState) : List PlanKey :=
  (planTargets s.ensemble.spec s.execution.candidates).map (targetKey s.ensemble)

/-- The evaluations that are on record and in force. -/
def recordedKeys (x : ExecutionRecord) : List PlanKey :=
  (x.evaluations.filter (·.current)).map evaluationKey

/-- The criteria an evaluator is asked about. -/
def evaluatorCriteria (spec : EnsembleSpec) (evaluator : ParticipantSpec) : List CriterionRef :=
  (if evaluator.roles.contains .verifier then spec.evidence.mandatoryCriteria else [])
    ++ if evaluator.roles.contains .judge then spec.judgeCriteria else []

/-- No evaluator is asked about a criterion both as verifier and as judge. -/
def rolesApart (spec : EnsembleSpec) : Bool :=
  spec.evaluatingParticipants.all fun p =>
    !(p.roles.contains .verifier && p.roles.contains .judge)
      || spec.evidence.mandatoryCriteria.all fun c => !spec.judgeCriteria.contains c

theorem evaluatorTargets_keys (e : EnsembleRecord) (spec : EnsembleSpec) (c : CandidateRecord)
    (evaluator : ParticipantSpec) :
    (evaluatorTargets spec c evaluator).map (targetKey e)
      = (evaluatorCriteria spec evaluator).map fun criterion =>
          ⟨evaluator.id, seatGeneration e evaluator.id, c.id, c.generation, criterion⟩ := by
  rw [evaluatorTargets, evaluatorCriteria, List.map_append, List.map_append]
  congr 1
  · split
    · rw [List.map_map]
      rfl
    · rfl
  · split
    · rw [List.map_map]
      rfl
    · rfl

/-- Validation rejects a criterion that is listed twice. -/
theorem Admitted.distinctCriteria {limits : Limits} {spec : EnsembleSpec}
    (h : Admitted limits spec) :
    spec.evidence.mandatoryCriteria.Nodup ∧ spec.judgeCriteria.Nodup := by
  obtain ⟨validated, hvalid, heq⟩ := h
  have hlist : ∀ {what : String} {cs : List CriterionRef},
      forEachAfter (validateCriterion what) cs = .ok () → cs.Nodup := by
    intro what cs hcs
    rw [forEachAfter_eq_ok] at hcs
    rw [← List.map_id cs]
    refine nodup_of_later fun i c hc other hother => ?_
    have hcheck := hcs i c hc
    simp only [validateCriterion, Checks.bind_eq_ok, require_eq_ok, Bool.not_eq_true',
      List.contains_eq_mem, decide_eq_false_iff_not] at hcheck
    obtain ⟨_, -, hnew⟩ := hcheck
    rintro rfl
    exact hnew hother
  rw [heq]
  simp only [validateSpec, Checks.bind_eq_ok, require_eq_ok] at hvalid
  obtain ⟨_, -, _, -, _, -, _, -, _, -, _, -, _, -, _, -, _, -, _, -, _, -, _, -, _, -, _, -, _, -,
    _, -, _, -, _, -, _, -, _, -, _, -, _, hmandatory, _, hjudging, -⟩ := hvalid
  refine ⟨hlist hmandatory, ?_⟩
  change (if validated.judgingCriteria.isEmpty then [⟨1, 1⟩] else validated.judgingCriteria).Nodup
  split
  · exact List.nodup_singleton _
  · exact hlist hjudging

theorem evaluatorCriteria_nodup {limits : Limits} {spec : EnsembleSpec}
    (hadmitted : Admitted limits spec) (hapart : rolesApart spec = true)
    {evaluator : ParticipantSpec} (hevaluator : evaluator ∈ spec.evaluatingParticipants) :
    (evaluatorCriteria spec evaluator).Nodup := by
  obtain ⟨hmandatory, hjudging⟩ := hadmitted.distinctCriteria
  have hroles := List.all_eq_true.mp hapart evaluator hevaluator
  rw [evaluatorCriteria, List.nodup_append]
  refine ⟨?_, ?_, ?_⟩
  · split
    · exact hmandatory
    · exact List.nodup_nil
  · split
    · exact hjudging
    · exact List.nodup_nil
  · rintro c hc d hd rfl
    split at hc
    · rename_i hverifier
      split at hd
      · rename_i hjudge
        rw [hverifier, hjudge] at hroles
        simp only [Bool.and_self, Bool.not_true, Bool.false_or, List.all_eq_true,
          Bool.not_eq_true', List.contains_eq_mem, decide_eq_false_iff_not] at hroles
        exact hroles c hc hd
      · cases hd
    · cases hc

theorem key_of_evaluatorTargets {e : EnsembleRecord} {spec : EnsembleSpec} {c : CandidateRecord}
    {evaluator : ParticipantSpec} {k : PlanKey}
    (h : k ∈ (evaluatorTargets spec c evaluator).map (targetKey e)) :
    k.evaluator = evaluator.id ∧ k.candidate = c.id := by
  rw [evaluatorTargets_keys] at h
  obtain ⟨_, -, rfl⟩ := List.mem_map.mp h
  exact ⟨rfl, rfl⟩

theorem key_of_candidateTargets {e : EnsembleRecord} {spec : EnsembleSpec} {c : CandidateRecord}
    {k : PlanKey}
    (h : k ∈ (spec.evaluatingParticipants.flatMap (evaluatorTargets spec c)).map (targetKey e)) :
    k.candidate = c.id := by
  rw [List.map_flatMap, List.mem_flatMap] at h
  obtain ⟨evaluator, -, hk⟩ := h
  exact (key_of_evaluatorTargets hk).2

/-- A pass asks for nothing twice where the roles are apart. -/
theorem plannedKeys_nodup {limits : Limits} {s : AdvanceState}
    (hadmitted : Admitted limits s.ensemble.spec) (hapart : rolesApart s.ensemble.spec = true)
    (hids : (s.execution.candidates.map (·.id)).Nodup) : (plannedKeys s).Nodup := by
  have hevaluators : s.ensemble.spec.evaluatingParticipants.Pairwise fun p q => p.id ≠ q.id :=
    (List.pairwise_map.mp hadmitted.wellFormed.participants).sublist List.filter_sublist
  have hcandidates : (s.execution.candidates.filter fun c => isContentState c.state).Pairwise
      fun c d => c.id ≠ d.id :=
    (List.pairwise_map.mp hids).sublist List.filter_sublist
  rw [plannedKeys, planTargets, List.map_flatMap, List.nodup_flatMap]
  refine ⟨fun c _ => ?_, hcandidates.imp ?_⟩
  swap
  · intro c d hne key hc hd
    exact hne ((key_of_candidateTargets hc).symm.trans (key_of_candidateTargets hd))
  rw [List.map_flatMap, List.nodup_flatMap]
  refine ⟨fun evaluator hevaluator => ?_, hevaluators.imp ?_⟩
  swap
  · intro p q hne key hp hq
    exact hne ((key_of_evaluatorTargets hp).1.symm.trans (key_of_evaluatorTargets hq).1)
  rw [evaluatorTargets_keys]
  exact (evaluatorCriteria_nodup hadmitted hapart hevaluator).map
    fun _ _ heq => (PlanKey.mk.inj heq).2.2.2.2

/-! ## Planning passes -/

/-- Nothing the pass asks for is planned or on record, and no evaluator is
asked twice. -/
def passAsksAnew (recorded : List PlanKey) (s : AdvanceState) : Bool :=
  (plannedKeys s).all fun k =>
    rolesApart s.ensemble.spec && !(livePlans s.execution).contains k && !recorded.contains k

/-- The state in which a round starts to plan, if it does. -/
def planningPass (limits : Limits) (s : AdvanceState) : Option AdvanceState :=
  match stageLoop limits (s.stages.drop s.execution.stageIndex) s with
  | .error _ => none
  | .ok m =>
      if m.stages.length ≤ m.execution.stageIndex
        ∧ m.reopenPlanning.execution.planningComplete = false
      then some m.reopenPlanning
      else none

/-- The states in which an advance starts to plan, in the order of its rounds.
Rounds that wait in a stage, or find the plan complete, are not among them. -/
def planningPasses (limits : Limits) : Nat → AdvanceState → List AdvanceState
  | 0, _ => []
  | fuel + 1, s =>
      if s.progress then
        (planningPass limits { s with progress := false }).toList ++
          match advanceRound limits { s with progress := false } with
          | .error _ => []
          | .ok m => planningPasses limits fuel m
      else []

/-! ## Between the passes -/

/-- No plan is added, and none that was given up comes back. -/
structure PlansThin (x x' : ExecutionRecord) : Prop where
  live : (livePlans x').Sublist (livePlans x)
  old : ∀ p' ∈ x'.pending, ∃ p ∈ x.pending, p'.id = p.id ∧ planKey p' = planKey p

theorem PlansThin.of_same {x x' : ExecutionRecord} (h : x'.pending = x.pending) :
    PlansThin x x' := by
  refine ⟨?_, fun p hp => ⟨p, h ▸ hp, rfl, rfl⟩⟩
  rw [livePlans, livePlans, h]

theorem PlansThin.trans {x y z : ExecutionRecord} (h : PlansThin x y) (h' : PlansThin y z) :
    PlansThin x z := by
  refine ⟨h'.live.trans h.live, fun r hr => ?_⟩
  obtain ⟨q, hq, hid, hkey⟩ := h'.old r hr
  obtain ⟨p, hp, hid', hkey'⟩ := h.old q hq
  exact ⟨p, hp, hid.trans hid', hkey.trans hkey'⟩

theorem PlansKept.thin {x x' : ExecutionRecord} (h : PlansKept x x') : PlansThin x x' := by
  refine ⟨h.live, fun p' hp' => ?_⟩
  obtain ⟨p, hp, hfollows⟩ := h.follows p' hp'
  exact ⟨p, hp, by rw [hfollows.same], by rw [hfollows.same]; rfl⟩

theorem PlansThin.of_set {x x' : ExecutionRecord} {index : Nat} {p p' : PendingEvaluation}
    (hp : x.pending[index]? = some p) (h : x'.pending = x.pending.set index p')
    (hid : p'.id = p.id) (hkey : planKey p' = planKey p) (hopen : p.abandoned = false) :
    PlansThin x x' := by
  constructor
  · rw [livePlans, h]
    exact livePlans_set hp hkey fun hgone => by rw [hopen] at hgone; cases hgone
  · intro q hq
    rw [h] at hq
    rcases List.mem_or_eq_of_mem_set hq with hold | rfl
    · exact ⟨q, hold, rfl, rfl⟩
    · exact ⟨p, List.mem_of_getElem? hp, hid, hkey⟩

namespace AdvanceState

theorem emitOne_thin (s : AdvanceState) (index : Nat) :
    PlansThin s.execution (s.emitOne index).execution := by
  have hcases := emitOne_cases s index
  generalize s.emitOne index = s' at hcases ⊢
  cases hcases with
  | skipped | kept => exact .of_same rfl
  | abandoned unsent => exact .of_set unsent.at_ rfl rfl rfl unsent.abandoned
  | emitted unsent => exact .of_set unsent.at_ rfl rfl rfl unsent.abandoned

theorem declareStage_pending (limits : Limits) (stage : StageSpec) (s : AdvanceState) :
    (Threaded.final (declareStage limits stage s)).execution.pending = s.execution.pending := by
  cases hdeclared : s.execution.declaredCurrentStage with
  | true => rw [declareStage, if_pos hdeclared]; rfl
  | false =>
    have hmembers := declareMembers_same limits stage stage.participants s
    cases hresult : declareStage limits stage s with
    | ok s' =>
      obtain ⟨m, hm, rfl⟩ := declareStage_eq_ok hdeclared hresult
      rw [hm, Threaded.final_ok] at hmembers
      exact congrArg (·.pending) hmembers.execution
    | error stop =>
      rw [declareStage_eq_error hdeclared hresult] at hmembers
      exact congrArg (·.pending) hmembers.execution

theorem dispatchOne_thin (stage : StageSpec) (dispatchedAny : Bool) (s : AdvanceState)
    (index : Nat) :
    PlansThin s.execution (dispatchOne stage dispatchedAny s index).state.execution := by
  have hcases := dispatchOne_cases stage dispatchedAny s index
  generalize dispatchOne stage dispatchedAny s index = next at hcases ⊢
  cases hcases with
  | skipped | kept | blocked | last | sent => exact .of_same rfl
  | @stranded c p =>
    obtain ⟨hlive, hold⟩ := (supersedeCandidateEvidence_plans s.execution c.id).1.thin
    exact ⟨hlive, hold⟩

theorem dispatchLoop_thin (stage : StageSpec) (indices : List Nat) (dispatchedAny : Bool)
    (s : AdvanceState) :
    PlansThin s.execution (dispatchLoop stage indices dispatchedAny s).execution := by
  induction indices generalizing dispatchedAny s with
  | nil => exact .of_same rfl
  | cons index rest ih =>
    have hone := dispatchOne_thin stage dispatchedAny s index
    unfold dispatchLoop
    split
    · rename_i dispatched s' heq
      rw [heq] at hone
      exact hone.trans (ih dispatched s')
    · rename_i s' heq
      rw [heq] at hone
      exact hone

theorem stageLoop_thin (limits : Limits) (stages : List StageSpec) (s : AdvanceState) :
    PlansThin s.execution (Threaded.final (stageLoop limits stages s)).execution := by
  induction stages generalizing s with
  | nil => exact .of_same rfl
  | cons stage rest ih =>
    unfold stageLoop
    refine Threaded.final_bind (R := fun a b : AdvanceState => PlansThin a.execution b.execution)
      PlansThin.trans (.of_same (declareStage_pending limits stage s)) fun m _ => ?_
    have hdispatched : PlansThin m.execution (dispatchStage stage m).execution :=
      dispatchLoop_thin stage _ false m
    simp only
    split
    · have hcompleted : PlansThin (dispatchStage stage m).execution
          (completeStage (dispatchStage stage m)).execution := .of_same rfl
      exact (hdispatched.trans hcompleted).trans (ih (completeStage (dispatchStage stage m)))
    · exact hdispatched

theorem emitEvaluations_thin (s : AdvanceState) :
    PlansThin s.execution s.emitEvaluations.execution :=
  Threaded.foldl_related (R := fun a b : AdvanceState => PlansThin a.execution b.execution)
    (fun _ => .of_same rfl) PlansThin.trans (fun s index _ => emitOne_thin s index) s

theorem activateFallback_thin (s : AdvanceState) :
    PlansThin s.execution s.activateFallback.execution := by
  cases hdecision : fallbackDecision s.ensemble s.execution with
  | none => rw [activateFallback, hdecision]; exact .of_same rfl
  | some trigger => exact .of_same (by rw [(activateFallback_eq hdecision).1]; rfl)

end AdvanceState

/-! ## An advance -/

/-- The plans of an advance of an execution that had plans `known` and
evaluations `recorded`: no two ask the same, and the new ones ask for
nothing that was on record. -/
structure AskedOnce (known : List EvaluationId) (recorded : List PlanKey) (x : ExecutionRecord) :
    Prop where
  live : (livePlans x).Nodup
  anew : ∀ p ∈ x.pending, p.id ∈ known ∨ planKey p ∉ recorded

section Asked

variable {known : List EvaluationId} {recorded : List PlanKey}

theorem AskedOnce.thin {x x' : ExecutionRecord} (h : AskedOnce known recorded x)
    (hthin : PlansThin x x') : AskedOnce known recorded x' := by
  refine ⟨h.live.sublist hthin.live, fun p' hp' => ?_⟩
  obtain ⟨p, hp, hid, hkey⟩ := hthin.old p' hp'
  rw [hid, hkey]
  exact h.anew p hp

/-- Plans for some of what a pass asks for, where the pass asks anew. -/
theorem AskedOnce.planned {limits : Limits} {s s' : AdvanceState} {done : List PlanTarget}
    {added : List PendingEvaluation} (h : AskedOnce known recorded s.execution)
    (hadmitted : Admitted limits s.ensemble.spec)
    (hids : (s.execution.candidates.map (·.id)).Nodup) (hanew : passAsksAnew recorded s = true)
    (hplans : PlansFor done { s with execution := { s.execution with planningComplete := true } }
      s' added)
    (hdone : done <+: planTargets s.ensemble.spec s.execution.candidates) :
    AskedOnce known recorded s'.execution := by
  have hkeys : added.map planKey = done.map (targetKey s.ensemble) := by
    have hforall := hplans.made
    clear hplans hdone
    induction hforall with
    | nil => rfl
    | cons hmade _ ih => rw [List.map_cons, List.map_cons, ih, hmade]; rfl
  have hsub : (added.map planKey).Sublist (plannedKeys s) := by
    rw [hkeys, plannedKeys]
    exact (hdone.sublist).map _
  have hpass : ∀ k ∈ added.map planKey, rolesApart s.ensemble.spec = true
      ∧ k ∉ livePlans s.execution ∧ k ∉ recorded := by
    intro k hk
    have hone := List.all_eq_true.mp hanew k (hsub.subset hk)
    simpa [and_assoc] using hone
  have hfresh : added.filter (!·.abandoned) = added :=
    List.filter_eq_self.mpr fun p hp => by simp [(hplans.fresh p hp).2.2]
  have hlive : livePlans s'.execution = livePlans s.execution ++ added.map planKey := by
    rw [livePlans, hplans.execution, List.filter_append, List.map_append, hfresh]
    rfl
  constructor
  · rw [hlive, List.nodup_append]
    refine ⟨h.live, ?_, fun k hk k' hk' heq => (hpass k' hk').2.1 (heq ▸ hk)⟩
    cases added with
    | nil => exact List.nodup_nil
    | cons p rest =>
      have hapart := (hpass (planKey p) (by simp)).1
      exact (plannedKeys_nodup hadmitted hapart hids).sublist hsub
  · intro p hp
    rw [hplans.execution] at hp
    rcases List.mem_append.mp hp with hold | hnew
    · exact h.anew p hold
    · exact .inr (hpass (planKey p) (List.mem_map_of_mem hnew)).2.2

end Asked

namespace AdvanceState

/-- What follows the planning pass of a round adds no plan. -/
theorem emission_thin (s : AdvanceState) :
    PlansThin s.execution (activateFallback (report (emitEvaluations s))).execution := by
  have hreported : PlansThin s.emitEvaluations.execution s.emitEvaluations.report.execution :=
    .of_same rfl
  exact ((emitEvaluations_thin s).trans hreported).trans (activateFallback_thin _)

theorem evaluationPhase_asked {limits : Limits} {known : List EvaluationId}
    {recorded : List PlanKey} {s : AdvanceState} (hs : Staged s)
    (hadmitted : Admitted limits s.ensemble.spec) (h : AskedOnce known recorded s.execution)
    (hpass : s.reopenPlanning.execution.planningComplete = false →
      passAsksAnew recorded s.reopenPlanning = true) :
    AskedOnce known recorded (Threaded.final (evaluationPhase s)).execution := by
  have hundisturbed := reopenPlanning_undisturbed s
  have hids := (hs.undisturbed hundisturbed).issued.distinct
  have hreopened : AskedOnce known recorded s.reopenPlanning.execution := by
    refine h.thin (.of_same ?_)
    unfold reopenPlanning
    split <;> rfl
  have hplanned : AskedOnce known recorded
      (Threaded.final (planEvaluations s.reopenPlanning)).execution := by
    cases hcomplete : s.reopenPlanning.execution.planningComplete with
    | true =>
      rw [planEvaluations, if_pos hcomplete]
      exact hreopened
    | false =>
      obtain ⟨done, added, hplans, hdone, -⟩ := planEvaluations_plans hcomplete
      have hadmitted' : Admitted limits s.reopenPlanning.ensemble.spec := by
        rw [hundisturbed.spec]
        exact hadmitted
      exact hreopened.planned hadmitted' hids (hpass hcomplete) hplans hdone
  unfold evaluationPhase
  cases hresult : planEvaluations s.reopenPlanning with
  | error stop =>
    rw [hresult] at hplanned
    exact hplanned
  | ok k =>
    rw [hresult] at hplanned
    exact hplanned.thin (emission_thin k)

/-- A round, of which the pass asks anew. -/
theorem advanceRound_asked {limits : Limits} {known : List EvaluationId}
    {recorded : List PlanKey} {s : AdvanceState} (hs : Staged s)
    (hadmitted : Admitted limits s.ensemble.spec) (h : AskedOnce known recorded s.execution)
    (hpass : ∀ m ∈ planningPass limits s, passAsksAnew recorded m = true) :
    AskedOnce known recorded (Threaded.final (advanceRound limits s)).execution := by
  have hstages := stageLoop_thin limits (s.stages.drop s.execution.stageIndex) s
  have hsteps : Advances limits s (stageLoop limits (s.stages.drop s.execution.stageIndex) s) :=
    stageLoop_advances _ rfl
  unfold planningPass at hpass
  unfold advanceRound
  cases hm : stageLoop limits (s.stages.drop s.execution.stageIndex) s with
  | error stop =>
    rw [hm] at hstages
    exact h.thin hstages
  | ok m =>
    rw [hm] at hstages hsteps hpass
    have hmid : AskedOnce known recorded m.execution := h.thin hstages
    have hstaged : Staged m := advanceSteps_keep AdvanceStep.staged hsteps hs
    have hspec : m.ensemble.spec = s.ensemble.spec :=
      advanceSteps_keep (P := fun s' => s'.ensemble.spec = s.ensemble.spec)
        (fun hone heq => hone.spec.trans heq) hsteps rfl
    change AskedOnce known recorded (Threaded.final
      (if m.stages.length ≤ m.execution.stageIndex then evaluationPhase m else pure m)).execution
    split
    · rename_i hconsumed
      refine evaluationPhase_asked hstaged (hspec ▸ hadmitted) hmid fun hincomplete => ?_
      exact hpass m.reopenPlanning (if_pos ⟨hconsumed, hincomplete⟩)
    · exact hmid

/-- An advance, of which all passes ask anew. -/
theorem advanceLoop_asked {limits : Limits} {known : List EvaluationId} {recorded : List PlanKey}
    (fuel : Nat) {s : AdvanceState} (hs : Staged s) (hadmitted : Admitted limits s.ensemble.spec)
    (h : AskedOnce known recorded s.execution)
    (hpasses : ∀ m ∈ planningPasses limits fuel s, passAsksAnew recorded m = true) :
    AskedOnce known recorded (Threaded.final (advanceLoop limits fuel s)).execution := by
  induction fuel generalizing s with
  | zero => exact h
  | succ fuel ih =>
    unfold planningPasses at hpasses
    unfold advanceLoop
    split
    · rename_i hprogress
      rw [if_pos hprogress] at hpasses
      have hstart : Staged { s with progress := false } := ⟨hs.barrier, hs.issued, hs.fallback⟩
      have hround : AskedOnce known recorded
          (Threaded.final (advanceRound limits { s with progress := false })).execution :=
        advanceRound_asked hstart hadmitted h fun m hm =>
          hpasses m (List.mem_append_left _ (Option.mem_toList.mpr hm))
      have hsteps := advanceRound_advances limits { s with progress := false }
      cases hresult : advanceRound limits { s with progress := false } with
      | error stop =>
        rw [hresult] at hround
        exact hround
      | ok m =>
        rw [hresult] at hround hsteps hpasses
        have hspec : m.ensemble.spec = s.ensemble.spec :=
          advanceSteps_keep (P := fun s' => s'.ensemble.spec = s.ensemble.spec)
            (fun hone heq => hone.spec.trans heq) hsteps rfl
        exact ih (advanceSteps_keep AdvanceStep.staged hsteps hstart) (hspec ▸ hadmitted) hround
          fun k hk => hpasses k (List.mem_append_right _ hk)
    · exact h

end AdvanceState

/-! ## One event -/

/-- Every planning pass of the advance asks anew. -/
def advanceAsksAnew (f : Fabric) (id : EnsembleId) (generation : EnsembleGeneration) : Bool :=
  match f.find id with
  | none => true
  | some e =>
      e.spec.generation != generation || e.superseded || e.execution.all fun x =>
        x.status != .opened
          || (planningPasses f.config.limits 64 (advanceStart f.core e x)).all
            (passAsksAnew (recordedKeys x))

/-- The event plans nothing that is planned or on record. -/
def System.asksAnew (s : System) : Event → Bool
  | .advance id generation => advanceAsksAnew s.fabric id generation
  | _ => true

theorem AskedOnce.refl {x : ExecutionRecord} (h : (livePlans x).Nodup) (recorded : List PlanKey) :
    AskedOnce (x.pending.map (·.id)) recorded x :=
  ⟨h, fun _ hp => .inl (List.mem_map_of_mem hp)⟩

theorem advanceOpen_asked {limits : Limits} {core : Core} {e : EnsembleRecord}
    {x : ExecutionRecord} (hs : (advanceStart core e x).Staged) (hadmitted : Admitted limits e.spec)
    (h : (livePlans x).Nodup)
    (hpasses : (planningPasses limits 64 (advanceStart core e x)).all
      (passAsksAnew (recordedKeys x)) = true) :
    AskedOnce (x.pending.map (·.id)) (recordedKeys x)
      (advanceOpen limits core e x).1.execution := by
  have hloop := advanceLoop_asked 64 hs hadmitted (.refl h (recordedKeys x))
    (List.all_eq_true.mp hpasses)
  obtain ⟨-, hpending, -⟩ := advanceOpen_final
    (rfl : advanceLoop limits 64 (advanceStart core e x) = _)
  exact hloop.thin (.of_same hpending)

/-- What an event starts from. -/
structure PlansReady (s : System) (e : EnsembleRecord) : Prop where
  live : ∀ x, e.execution = some x → (livePlans x).Nodup
  staged : ∀ x, e.execution = some x → x.status = .opened →
    (advanceStart s.fabric.core e x).Staged
  admitted : Admitted s.fabric.config.limits e.spec

theorem PlansAfter.askedOnce {s : System} {event : Event} {id : EnsembleId}
    {e e' : EnsembleRecord} {x x' : ExecutionRecord} (h : PlansAfter s event id e e' x')
    (hready : PlansReady s e) (hfind : s.fabric.find id = some e)
    (hanew : s.asksAnew event = true) (hx : e.execution = some x) :
    AskedOnce (x.pending.map (·.id)) (recordedKeys x) x' := by
  have hlive := hready.live x hx
  cases h with
  | fresh unplanned =>
    refine ⟨by rw [livePlans, unplanned]; exact List.nodup_nil, fun p hp => ?_⟩
    rw [unplanned] at hp
    cases hp
  | advanced advances before status live =>
    subst advances
    obtain rfl := Option.some.inj (before.symm.trans hx)
    replace hanew : advanceAsksAnew s.fabric id e.spec.generation = true := hanew
    rw [advanceAsksAnew, hfind] at hanew
    simp only [bne_self_eq_false, live, Bool.or_self, Bool.false_or, hx, Option.all_some,
      status] at hanew
    exact advanceOpen_asked (hready.staged _ hx status) hready.admitted hlive hanew
  | evaluated _ accept ensemble =>
    subst ensemble
    have haccepted := acceptEvaluation_eq_ok accept
    obtain rfl := Option.some.inj (haccepted.execution.symm.trans hx)
    exact (AskedOnce.refl hlive _).thin (evaluatedExecution_plans haccepted.pendingAt).thin
  | seated _ _ _ before =>
    obtain rfl := Option.some.inj (before.symm.trans hx)
    exact .refl hlive _
  | kept before _ _ plans =>
    obtain rfl := Option.some.inj (before.symm.trans hx)
    exact (AskedOnce.refl hlive _).thin plans.thin

/-- Without an execution before, the event starts one. -/
theorem PlansAfter.fresh_of_none {s : System} {event : Event} {id : EnsembleId}
    {e e' : EnsembleRecord} {x' : ExecutionRecord} (h : PlansAfter s event id e e' x')
    (hnone : e.execution = none) : x'.pending = [] := by
  cases h with
  | fresh unplanned => exact unplanned
  | evaluated _ accept ensemble =>
    subst ensemble
    rw [(acceptEvaluation_eq_ok accept).execution] at hnone
    cases hnone
  | advanced _ before | seated _ _ _ before | kept before =>
    rw [hnone] at before
    cases before

/-! ## Runs -/

/-- No execution of the runtime has two live plans that ask the same. -/
def AllPlannedOnce (s : System) : Prop :=
  ∀ id e x, s.fabric.find id = some e → e.execution = some x → (livePlans x).Nodup

theorem reachable_plansReady (config : FabricConfig) (events : List Event) {id : EnsembleId}
    {e : EnsembleRecord} (hall : AllPlannedOnce ((System.initial config).run events))
    (he : ((System.initial config).run events).fabric.find id = some e) :
    PlansReady ((System.initial config).run events) e := by
  refine ⟨fun x hx => hall id e x he hx,
    fun x hx hopen => reachable_staged config events he hx hopen,
    ?_⟩
  rw [(reachable_named config events).1]
  exact (reachable_specInUse config events id e he).admitted

theorem AllPlannedOnce.next {config : FabricConfig} {events : List Event} {event : Event}
    (hanew : ((System.initial config).run events).asksAnew event = true)
    (h : AllPlannedOnce ((System.initial config).run events)) :
    AllPlannedOnce (((System.initial config).run events).next event) := by
  intro id e' x' he' hx'
  rcases next_execution he' hx' with hsame | ⟨e, he, hwritten⟩
  · exact h id _ x' hsame hx'
  · have hafter := hwritten.plansAfter hx'
    cases hexecution : e.execution with
    | none =>
      rw [livePlans, hafter.fresh_of_none hexecution]
      exact List.nodup_nil
    | some x =>
      exact (hafter.askedOnce (reachable_plansReady config events h he) he hanew
        hexecution).live

theorem AskedOnce.not_recorded {x x' : ExecutionRecord}
    (h : AskedOnce (x.pending.map (·.id)) (recordedKeys x) x') {p' : PendingEvaluation}
    (hp' : p' ∈ x'.pending) (hnew : ∀ p ∈ x.pending, p.id ≠ p'.id) {r : EvaluationRecord}
    (hr : r ∈ x.evaluations) (hcurrent : r.current = true) : evaluationKey r ≠ planKey p' := by
  intro heq
  rcases h.anew p' hp' with hold | hanew
  · obtain ⟨p, hp, hid⟩ := List.mem_map.mp hold
    exact hnew p hp hid
  · refine hanew ?_
    rw [← heq]
    exact List.mem_map_of_mem (List.mem_filter.mpr ⟨hr, hcurrent⟩)

/-- Where every planning pass asks anew, no two live plans of an execution ask
the same, and no event plans an evaluation that is on record. -/
theorem plans_made_once (config : FabricConfig) (events : List Event)
    (hanew : Along System.next (fun s event => s.asksAnew event = true) (.initial config) events)
    (id : EnsembleId) (e : EnsembleRecord) (x : ExecutionRecord)
    (he : ((System.initial config).run events).fabric.find id = some e)
    (hx : e.execution = some x) :
    (livePlans x).Nodup
      ∧ ∀ event e' x', ((System.initial config).run events).asksAnew event = true →
        (((System.initial config).run events).next event).fabric.find id = some e' →
        e'.execution = some x' →
        ∀ p' ∈ x'.pending, (∀ p ∈ x.pending, p.id ≠ p'.id) →
          ∀ r ∈ x.evaluations, r.current = true → evaluationKey r ≠ planKey p' := by
  have hall : AllPlannedOnce ((System.initial config).run events) :=
    run_invariant_reached (fun before event hcond hs => AllPlannedOnce.next hcond hs) hanew
      fun _ _ _ hnone => by cases hnone
  refine ⟨hall id e x he hx, fun event e' x' hnext he' hx' p' hp' hnew r hr hcurrent => ?_⟩
  obtain ⟨e'', he'', hwritten⟩ :=
    (next_writes ((System.initial config).run events) event).known id e he
  obtain rfl := Option.some.inj (he''.symm.trans he')
  rcases hwritten with rfl | hwritten
  · obtain rfl := Option.some.inj (hx.symm.trans hx')
    exact absurd rfl (hnew p' hp')
  · exact ((hwritten.plansAfter hx').askedOnce (reachable_plansReady config events hall he) he hnext
      hx).not_recorded hp' hnew hr hcurrent

namespace Sample

/-- The judge rejects the candidate, and the fallback candidate has content. -/
def disputedAgain : List Event :=
  start disputedSpec ++
    [content 1 1 [1], advance, judge 2 1 1 1 .reject, advance, content 3 2 [2]]

end Sample

/-- The two evaluations of the judge are planned once. -/
theorem judgedOnce_planned_once : ∃ e x, Sample.ensemble Sample.judgedOnce = some e
    ∧ e.execution = some x ∧ (livePlans x).length = 2 ∧ (livePlans x).Nodup
    ∧ ∀ event e' x', (Sample.reached Sample.judgedOnce).asksAnew event = true →
      ((Sample.reached Sample.judgedOnce).next event).fabric.find ⟨1⟩ = some e' →
      e'.execution = some x' →
      ∀ p' ∈ x'.pending, (∀ p ∈ x.pending, p.id ≠ p'.id) →
        ∀ r ∈ x.evaluations, r.current = true → evaluationKey r ≠ planKey p' := by
  have hanew : Along System.next (fun s event => s.asksAnew event = true) (.initial {})
      Sample.judgedOnce := by decide +kernel
  have hopen : (Sample.ensemble Sample.judgedOnce).any (fun e => e.execution.any fun x =>
      (livePlans x).length == 2) = true := by
    decide +kernel
  simp only [Option.any_eq_true, beq_iff_eq] at hopen
  obtain ⟨e, hfind, x, hexecution, hlength⟩ := hopen
  exact ⟨e, x, hfind, hexecution, hlength,
    plans_made_once {} Sample.judgedOnce hanew ⟨1⟩ e x hfind hexecution⟩

/-- The content of a fallback makes the advance plan for all content: the judge
is asked again for the evaluation it gave, which is in force. -/
theorem fallback_plans_again :
    ∃ e x e' x', Sample.ensemble Sample.disputedAgain = some e ∧ e.execution = some x
      ∧ Sample.ensemble (Sample.disputedAgain ++ [Sample.advance]) = some e'
      ∧ e'.execution = some x' ∧ ¬ (livePlans x').Nodup
      ∧ ∃ p' ∈ x'.pending, (∀ p ∈ x.pending, p.id ≠ p'.id)
        ∧ ∃ r ∈ x.evaluations, r.current = true ∧ evaluationKey r = planKey p' := by
  have hbefore : (Sample.ensemble Sample.disputedAgain).any (fun e => e.execution.any fun x =>
      x.pending.map (·.id) == [⟨1⟩]
        && x.evaluations.any fun r => r.current
          && evaluationKey r == ⟨⟨2⟩, ⟨1⟩, ⟨1⟩, ⟨1⟩, ⟨1, 1⟩⟩) = true := by
    decide +kernel
  have hafter : (Sample.ensemble (Sample.disputedAgain ++ [Sample.advance])).any (fun e =>
      e.execution.any fun x => !decide (livePlans x).Nodup
        && x.pending.any fun p => p.id == ⟨2⟩
          && planKey p == ⟨⟨2⟩, ⟨1⟩, ⟨1⟩, ⟨1⟩, ⟨1, 1⟩⟩) = true := by
    decide +kernel
  simp only [Option.any_eq_true, Bool.and_eq_true, Bool.not_eq_true', decide_eq_false_iff_not,
    List.any_eq_true, beq_iff_eq] at hbefore hafter
  obtain ⟨e, he, x, hx, hids, r, hr, hcurrent, hrecorded⟩ := hbefore
  obtain ⟨e', he', x', hx', htwice, p', hp', hid, hplanned⟩ := hafter
  refine ⟨e, x, e', x', he, hx, he', hx', htwice, p', hp', fun p hp heq => ?_,
    r, hr, hcurrent, hrecorded.trans hplanned.symm⟩
  have hmem : p.id ∈ x.pending.map (·.id) := List.mem_map_of_mem hp
  rw [hids, heq, hid] at hmem
  exact absurd hmem (by decide)

end EnsembleFabric
