import EnsembleFabric.Attempts
import EnsembleFabric.Clearing
import EnsembleFabric.Idempotence

/-!
# What ends the rounds of an advance

The rounds of an advance end with one that makes no progress, unless the
bound of 64 rounds ends them. It does where planning is reopened in every
round: all stages are passed, some candidate has content, and the evaluators
have nothing to evaluate. Verifiers without a mandatory criterion are such
evaluators, and validation accepts them.

`advanceLoop_stalls` says in terms of the last state when the bound ends the
rounds. `idle` says it in terms of the state before the advance: the
evaluators have nothing to evaluate, there is content, and every stage ahead
is cleared. The stages ahead (`stagesAhead`) are those that are left, and
behind them the fallback stage, where the advance will activate fallback. A
fallback participant that is served then keeps the advance from reopening
the planning, so the rounds end in spite of idle evaluators
(`unverifiedFallback_rests`).
-/

namespace EnsembleFabric

open List (Forall₂)
open EventSystem

namespace AdvanceState

/-! ## The last round -/

theorem report_reopens (s : AdvanceState) : s.report.reopens = s.reopens := by
  have hcontent : ((computeReports s.ensemble s.execution).candidates.any fun c =>
        isContentState c.state && !everEvaluated (computeReports s.ensemble s.execution) c)
      = s.execution.candidates.any fun c =>
        isContentState c.state && !everEvaluated s.execution c := by
    rw [computeReports_candidates, List.any_map]
    simp only [Function.comp_def, markElimination_state, everEvaluated_mark]
  rw [reopens, reopens]
  change (s.execution.planningComplete && _ && _) = _
  rw [← hcontent]
  rfl

theorem report_stalls (s : AdvanceState) : s.report.stalls = s.stalls := by
  rw [stalls, report_reopens]
  rfl

/-- At rest, a round makes progress as long as planning is reopened. -/
theorem Rest.loop_stalls {limits : Limits} {s s' : AdvanceState} (h : Rest s)
    (hprogress : s.progress = true) (fuel : Nat)
    (hloop : advanceLoop limits (fuel + 1) s = .ok s') : s'.progress = s'.stalls := by
  induction fuel generalizing s with
  | zero =>
    obtain ⟨x', hround, hx'⟩ := h.round limits
    rw [advanceLoop, if_pos hprogress, hround] at hloop
    obtain rfl := Except.ok.inj hloop
    rcases hx' with rfl | rfl
    · rfl
    · exact (report_stalls s).symm
  | succ fuel ih =>
    obtain ⟨x', hround, hx'⟩ := h.round limits
    rw [advanceLoop, if_pos hprogress, hround] at hloop
    have hrest : Rest { s with execution := x', progress := s.stalls } := by
      rcases hx' with rfl | rfl
      · exact h.progress s.stalls
      · exact h.report.progress s.stalls
    cases hstalls : s.stalls with
    | true =>
      rw [hstalls] at hrest hloop
      exact ih hrest rfl hloop
    | false =>
      rw [hstalls] at hloop
      obtain rfl := Except.ok.inj hloop
      rcases hx' with rfl | rfl
      · exact hstalls.symm
      · exact (hstalls ▸ report_stalls s).symm

theorem emitOne_progress {s : AdvanceState} (h : s.progress = true) (index : Nat) :
    (s.emitOne index).progress = true := by
  unfold emitOne
  repeat' split
  all_goals first | exact h | rfl

theorem everEvaluated_emitOne (s : AdvanceState) (index : Nat) (c : CandidateRecord) :
    everEvaluated (s.emitOne index).execution c = everEvaluated s.execution c := by
  obtain ⟨-, hexecution | ⟨p, p', hp, hp', hexecution⟩⟩ := emitOne_execution s index
  · rw [hexecution]
  · have hplanned : (s.execution.pending.set index p').map (·.candidate)
        = s.execution.pending.map (·.candidate) := Slots.map_key_set hp (by rw [hp'])
    have hany : ∀ ps : List PendingEvaluation, ps.any (·.candidate == c.id)
        = (ps.map (·.candidate)).any (· == c.id) := fun ps => by rw [List.any_map]; rfl
    rw [hexecution, everEvaluated, everEvaluated, hany, hany, hplanned]

theorem emitOne_reopens (s : AdvanceState) (index : Nat) :
    (s.emitOne index).reopens = s.reopens := by
  have hevaluated : (fun c : CandidateRecord =>
      isContentState c.state && !everEvaluated (s.emitOne index).execution c)
        = fun c => isContentState c.state && !everEvaluated s.execution c :=
    funext fun c => by rw [everEvaluated_emitOne]
  obtain ⟨hensemble, hexecution⟩ := emitOne_execution s index
  rw [reopens, reopens, hevaluated, hensemble]
  rcases hexecution with hsame | ⟨p, p', -, -, hset⟩
  · rw [hsame]
  · rw [hset]

theorem emitEvaluations_keeps (s : AdvanceState) :
    (s.progress = true → s.emitEvaluations.progress = true)
      ∧ s.emitEvaluations.reopens = s.reopens := by
  have hfold : ∀ (indices : List Nat) (m : AdvanceState),
      (m.progress = true → (indices.foldl emitOne m).progress = true)
        ∧ (indices.foldl emitOne m).reopens = m.reopens := by
    intro indices
    induction indices with
    | nil => exact fun _ => ⟨id, rfl⟩
    | cons index rest ih =>
      intro m
      obtain ⟨hprogress, hreopens⟩ := ih (m.emitOne index)
      exact ⟨fun h => hprogress (emitOne_progress h index),
        hreopens.trans (emitOne_reopens m index)⟩
  exact hfold _ s

/-- A round that leaves planning to be reopened made progress. -/
theorem advanceRound_stalls {limits : Limits} {s s' : AdvanceState}
    (h : advanceRound limits s = .ok s') (hstalls : s'.stalls = true) : s'.progress = true := by
  obtain ⟨n, -, hrest⟩ := Checks.bind_eq_ok.mp h
  split at hrest
  · obtain ⟨m, hm, hphase⟩ := Checks.bind_eq_ok.mp hrest
    obtain rfl := Except.ok.inj hphase
    obtain ⟨hkept, hreopens⟩ := emitEvaluations_keeps m
    cases hdecision : fallbackDecision m.emitEvaluations.report.ensemble
        m.emitEvaluations.report.execution with
    | some trigger => rw [activateFallback, hdecision]
    | none =>
      rw [activateFallback, hdecision] at hstalls ⊢
      rw [stalls, Bool.and_eq_true, report_reopens, hreopens] at hstalls
      refine hkept ?_
      -- an incomplete plan is completed with progress, a complete one reopened with it
      have hplans : ∀ k : AdvanceState, k.execution.planningComplete = false →
          planEvaluations k = .ok m → m.progress = true := by
        intro k hincomplete hk
        rw [planEvaluations, hincomplete] at hk
        obtain ⟨k', -, hk'⟩ := Checks.bind_eq_ok.mp hk
        rw [← Except.ok.inj hk']
      cases hopened : n.reopens with
      | true =>
        rw [reopenPlanning_of_reopens hopened] at hm
        exact hplans _ rfl hm
      | false =>
        rw [reopenPlanning_of_not hopened] at hm
        cases hcomplete : n.execution.planningComplete with
        | false => exact hplans n hcomplete hm
        | true =>
          rw [planEvaluations, if_pos hcomplete] at hm
          obtain rfl := Except.ok.inj hm
          rw [hopened] at hstalls
          cases hstalls.2
  · rename_i hnot
    obtain rfl := Except.ok.inj hrest
    rw [stalls, decide_eq_false hnot] at hstalls
    cases hstalls

/-- The rounds end with progress if and only if planning is reopened in each. -/
theorem advanceLoop_stalls {limits : Limits} {s s' : AdvanceState} (hs : Staged s)
    (hprogress : s.progress = true) (fuel : Nat)
    (h : advanceLoop limits (fuel + 3) s = .ok s') : s'.progress = s'.stalls := by
  -- a round that came to rest
  have hrested : ∀ {k m : AdvanceState} (n : Nat), advanceRound limits k = .ok m → Rest m →
      advanceLoop limits (n + 1) m = .ok s' → s'.progress = s'.stalls := by
    intro k m n hround hrest hloop
    cases hmprogress : m.progress with
    | true => exact hrest.loop_stalls hmprogress n hloop
    | false =>
      rw [advanceLoop, if_neg (by rw [hmprogress]; exact Bool.false_ne_true)] at hloop
      obtain rfl := Except.ok.inj hloop
      rw [hmprogress]
      by_contra hstalls
      have hmade := advanceRound_stalls hround (by simpa using Ne.symm hstalls)
      rw [hmprogress] at hmade
      cases hmade
  rw [advanceLoop, if_pos hprogress] at h
  obtain ⟨m, hround, hloop⟩ := Checks.bind_eq_ok.mp h
  have hm : Staged m := by
    have hadvances := advanceRound_advances limits { s with progress := false }
    rw [hround] at hadvances
    exact advanceSteps_keep AdvanceStep.staged hadvances ⟨hs.barrier, hs.issued, hs.fallback⟩
  have hsecond : m.progress = true →
      (∀ m', advanceRound limits { m with progress := false } = .ok m' → Rest m') →
      s'.progress = s'.stalls := by
    intro hmprogress hnext
    rw [advanceLoop, if_pos hmprogress] at hloop
    obtain ⟨m', hround', hloop'⟩ := Checks.bind_eq_ok.mp hloop
    exact hrested fuel hround' (hnext m' hround') hloop'
  cases advanceRound_ends hround with
  | rest rest => exact hrested (fuel + 1) hround rest hloop
  | interrupted _ current declared interrupted progress =>
    exact hsecond progress fun m' hround' => interrupted.round hm current declared hround'
  | @activated n trigger _ consumed decision _ result =>
    subst result
    refine hsecond ?_ fun m' hround' => activated_round consumed decision hround'
    rw [activateFallback, decision]

/-! ## Idle executions -/

/-- The evaluators have nothing to plan, there is content, and nothing holds up
the stages. -/
def idle (epoch : CoordinatorEpoch) (e : EnsembleRecord) (x : ExecutionRecord)
    (stages : List StageSpec) : Bool :=
  e.spec.planless && x.candidates.any (isContentState ·.state)
    && stages.all (stageCleared epoch e x)

/-- The stages an advance works off where nothing holds them up: those that
are left, and the fallback stage where a trigger fires behind them. -/
def stagesAhead (e : EnsembleRecord) (x : ExecutionRecord) : List StageSpec :=
  let left := (planStages e x).drop x.stageIndex
  if activates e x left then left ++ [fallbackStage e.spec x.fallbackDepth] else left

theorem idle_append {epoch : CoordinatorEpoch} {e : EnsembleRecord} {x : ExecutionRecord}
    (stages added : List StageSpec) :
    idle epoch e x (stages ++ added)
      = (idle epoch e x stages && added.all (stageCleared epoch e x)) := by
  rw [idle, idle, List.all_append, Bool.and_assoc, Bool.and_assoc, Bool.and_assoc]

/-- Stages that an advance has passed were cleared before it. -/
theorem cleared_of_consumed {limits : Limits} {core : Core} {e : EnsembleRecord}
    {x : ExecutionRecord} {s : AdvanceState}
    (hsteps : AdvanceSteps limits (advanceStart core e x) s) (hs : Staged s)
    (hconsumed : s.Consumed) :
    ∀ stage ∈ s.stages.drop x.stageIndex, stageCleared core.epoch e x stage = true := by
  obtain ⟨-, -, hcarried⟩ := advanceSteps_carried hsteps
  intro stage hstage
  obtain ⟨i, hi, rfl⟩ := List.getElem_of_mem hstage
  rw [List.length_drop] at hi
  have hlt : x.stageIndex + i < s.stages.length := by omega
  have hpassed := hs.barrier.passed (x.stageIndex + i) _ (Nat.lt_of_lt_of_le hlt hconsumed)
    (List.getElem?_eq_getElem hlt)
  rw [List.getElem_drop]
  refine List.all_eq_true.mpr fun id hid => ?_
  obtain ⟨⟨d', hd', hparticipant, hplace⟩, hresolved⟩ := stageComplete_iff.mp hpassed id hid
  have hmember : d'.member = (id, s.stages[x.stageIndex + i].id) := Prod.ext hparticipant hplace
  rw [memberCleared]
  split
  · rename_i hnone
    rcases hcarried.back d' hd' with ⟨d, hd, hdd'⟩ | ⟨-, d, hdeclared, hdd'⟩
    · rw [List.isEmpty_iff, List.filter_eq_nil_iff] at hnone
      exact absurd (by simpa using hdd'.member.symm.trans hmember) (hnone d hd)
    · have hid' : d.participant = id := congrArg Prod.fst (hdd'.member.symm.trans hmember)
      rcases hdd'.resolved (hresolved d' hd' hparticipant hplace) with hflight | ⟨-, hlost⟩
      · simp [CandidateRecord.inFlight, hdeclared.state, permitsOutput] at hflight
      · rwa [hid', hdeclared.used] at hlost
  · refine List.all_eq_true.mpr fun c hc => ?_
    obtain ⟨hc, hcm⟩ := List.mem_filter.mp hc
    obtain ⟨b', hb', hcb'⟩ := hcarried.forth c hc
    have hbm : b'.member = (id, s.stages[x.stageIndex + i].id) :=
      hcb'.member.trans (by simpa using hcm)
    have hcp : c.participant = id := congrArg Prod.fst (hcb'.member.symm.trans hbm)
    rcases hcb'.resolved (hresolved b' hb' (congrArg Prod.fst hbm) (congrArg Prod.snd hbm)) with
      hflight | ⟨hstate, hlost⟩
    · rw [hflight]
      rfl
    · rw [hstate, ← hcp, hlost]
      simp

/-- In the end everything is passed and planning reopened only where the advance
started idle. -/
theorem idle_of_stalls {limits : Limits} {core : Core} {e : EnsembleRecord} {x : ExecutionRecord}
    {s : AdvanceState} (hsteps : AdvanceSteps limits (advanceStart core e x) s) (hs : Staged s)
    (hrest : Rest s) (hstalls : s.stalls = true) :
    idle core.epoch e x (s.stages.drop x.stageIndex) = true := by
  obtain ⟨-, hseats, hcarried⟩ := advanceSteps_carried hsteps
  simp only [stalls, reopens, Bool.and_eq_true, decide_eq_true_eq, List.any_eq_true,
    Bool.not_eq_true'] at hstalls
  obtain ⟨hconsumed, ⟨-, c', hc', hcontent, hunasked⟩, hevaluators⟩ := hstalls
  have hplanless : e.spec.planless = true := by
    cases hrest with
    | waiting current =>
      rw [Consumed.no_stage hconsumed] at current
      cases current
    | decided _ ready =>
      rcases ready.covered with htargets | hcovered
      · exact hseats.spec ▸ EnsembleSpec.planless_of_targets hc' hcontent hevaluators htargets
      · rw [hcovered c' hc' hcontent] at hunasked
        cases hunasked
  have hhad : x.candidates.any (isContentState ·.state) = true := by
    rcases hcarried.back c' hc' with ⟨c, hc, hcc'⟩ | ⟨-, c, hdeclared, hcc'⟩
    · exact List.any_eq_true.mpr ⟨c, hc, hcc'.content ▸ hcontent⟩
    · rw [hcc'.content, hdeclared.state] at hcontent
      cases hcontent
  rw [idle, hplanless, hhad, List.all_eq_true.mpr (cleared_of_consumed hsteps hs hconsumed)]
  rfl

/-- What is in flight for a cleared stage waits for a lost participant. -/
theorem CarriedAll.stranded {epoch : CoordinatorEpoch} {e : EnsembleRecord} {x : ExecutionRecord}
    {cs : List CandidateRecord} (h : CarriedAll epoch e x.candidates cs) {stage : StageSpec}
    (hcleared : stageCleared epoch e x stage = true) {c' : CandidateRecord} (hc' : c' ∈ cs)
    (hasks : stage.Asks c') (hflight : c'.inFlight = true) :
    c'.state = .declared ∧ lostSeat epoch e c'.participant c'.attemptsUsed = true := by
  have hmember : c'.member = (c'.participant, stage.id) := Prod.ext rfl hasks.named
  have hmine := List.all_eq_true.mp hcleared c'.participant hasks.member
  rw [memberCleared] at hmine
  rcases h.back c' hc' with ⟨c, hc, hcarried⟩ | ⟨hnew, c, hdeclared, hcarried⟩
  · have hfound : c ∈ x.candidates.filter (·.member == (c'.participant, stage.id)) :=
      List.mem_filter.mpr ⟨hc, beq_iff_eq.mpr (hcarried.member.symm.trans hmember)⟩
    have hparticipant : c.participant = c'.participant := congrArg Prod.fst hcarried.member.symm
    rw [if_neg (by rw [List.isEmpty_iff]; exact List.ne_nil_of_mem hfound)] at hmine
    have hone := List.all_eq_true.mp hmine c hfound
    simp only [Bool.or_eq_true, Bool.not_eq_true', Bool.and_eq_true, beq_iff_eq] at hone
    exact hcarried.stranded hflight (hparticipant ▸ hone)
  · have hnone : x.candidates.filter (·.member == (c'.participant, stage.id)) = [] :=
      List.filter_eq_nil_iff.mpr fun d hd heq =>
        hnew d hd ((beq_iff_eq.mp heq).trans hmember.symm)
    have hparticipant : c.participant = c'.participant := congrArg Prod.fst hcarried.member.symm
    rw [hnone, if_pos List.isEmpty_nil] at hmine
    exact hcarried.stranded hflight
      (.inr ⟨hdeclared.state, by rw [hparticipant, hdeclared.used]; exact hmine⟩)

/-- An advance does not wait in a stage that is cleared. -/
theorem not_waiting_of_cleared {limits : Limits} {core : Core} {e : EnsembleRecord}
    {x : ExecutionRecord} {s : AdvanceState}
    (hsteps : AdvanceSteps limits (advanceStart core e x) s) (hs : Staged s)
    (hcovered : Covered s)
    (hmembers : ∀ stage ∈ s.stages, ∀ id ∈ stage.participants,
      (s.ensemble.spec.findParticipant id).isSome = true)
    (hcleared : ∀ stage ∈ s.stages.drop x.stageIndex, stageCleared core.epoch e x stage = true)
    {stage : StageSpec} (hcurrent : s.currentStage = some stage)
    (hdeclared : s.execution.declaredCurrentStage = true)
    (hincomplete : stageComplete stage s.execution = false)
    (hscanned : Quiet s.core.epoch s.ensemble s.execution stage
      ∨ Interrupted s.core.epoch s.ensemble s.execution stage) : False := by
  obtain ⟨⟨hepoch, hindex⟩, hseats, hcarried⟩ := advanceSteps_carried hsteps
  obtain ⟨hlt, hget⟩ := List.getElem?_eq_some_iff.mp hcurrent
  have hstage : stage ∈ s.stages.drop x.stageIndex := by
    refine List.mem_drop_iff_getElem.mpr ⟨s.execution.stageIndex - x.stageIndex, by omega, ?_⟩
    simpa [Nat.add_sub_cancel' hindex] using hget
  have hlost : ∀ d ∈ s.execution.candidates, stage.Asks d → d.inFlight = true →
      d.state = .declared
        ∧ lostSeat core.epoch s.ensemble d.participant d.attemptsUsed = true := by
    intro d hd hasks hflight
    rw [(seats_eq hseats _ _ _).1]
    exact hcarried.stranded (hcleared stage hstage) hd hasks hflight
  -- nothing of the stage is dispatched or served
  have hunsent : ∀ b ∈ s.execution.candidates, b.inFlight = true →
      b.state = .declared ∧ servedSeat core.epoch s.ensemble b.participant = false := by
    intro b hb hflight
    obtain ⟨other, hother, hasks, -⟩ := hs.barrier.current b hb hflight
    obtain rfl := Option.some.inj (hcurrent.symm.trans hother)
    obtain ⟨hstate, hgone⟩ := hlost b hb hasks hflight
    exact ⟨hstate, lostSeat_not_served hgone⟩
  rcases hscanned with ⟨k, hresting, hstop⟩ | ⟨-, k, -, b, hb, -, hsent⟩
  swap
  · have hstate := (hunsent b (List.mem_of_getElem? hb) (inFlight_of_dispatched hsent)).1
    cases hsent.symm.trans hstate
  -- some member of the stage has a candidate in flight
  obtain ⟨d, hd, hasks, hflight⟩ : ∃ d ∈ s.execution.candidates, stage.Asks d
      ∧ d.inFlight = true := by
    by_contra hnone
    refine absurd (stageComplete_iff.mpr fun id hid => ⟨?_, fun d hd hparticipant hplace => ?_⟩)
      (Bool.eq_false_iff.mp hincomplete)
    · obtain ⟨other, hother, hall⟩ := hcovered hdeclared
      obtain rfl := Option.some.inj (hcurrent.symm.trans hother)
      obtain ⟨d, hd, hmember⟩ := hall id hid
        (hmembers stage (List.mem_of_getElem? hcurrent) id hid)
      exact ⟨d, hd, congrArg Prod.fst hmember, congrArg Prod.snd hmember⟩
    · by_contra hflight
      exact hnone ⟨d, hd, ⟨hplace, hparticipant ▸ hid⟩, by simpa using hflight⟩
  obtain ⟨hstate, hgone⟩ := hlost d hd hasks hflight
  obtain ⟨j, hj, rfl⟩ := List.getElem_of_mem hd
  rcases Nat.lt_or_ge j k with hbefore | hafter
  · -- it would be given up
    obtain ⟨p, hp, hseat⟩ := Option.any_eq_true _ _ |>.mp hgone
    obtain ⟨-, hwaits, -⟩ := hresting j hbefore _ p (List.getElem?_eq_getElem hj) hasks.named
      hstate hp
    simp only [Bool.and_eq_true, Bool.not_eq_true'] at hseat
    rw [hseat.1.2, Bool.false_or, awaitingReplacement, hseat.2] at hwaits
    cases hwaits
  · rcases hstop with hend | ⟨b, p, hb, -, hbstate, hp, hserved, -⟩
    · omega
    · have hbflight : b.inFlight = true := by
        simp [CandidateRecord.inFlight, hbstate, permitsOutput]
      have hnot := (hunsent b (List.mem_of_getElem? hb) hbflight).2
      rw [servedSeat, hp, Option.any_some, ← hepoch, hserved] at hnot
      cases hnot

/-- Nothing holds up stages that are cleared: the advance comes to rest behind
them. -/
theorem decided_of_cleared {limits : Limits} {core : Core} {e : EnsembleRecord}
    {x : ExecutionRecord} {s : AdvanceState}
    (hsteps : AdvanceSteps limits (advanceStart core e x) s)
    (hs : Staged s) (hrest : Rest s) (hcovered : Covered s)
    (hmembers : ∀ stage ∈ s.stages, ∀ id ∈ stage.participants,
      (s.ensemble.spec.findParticipant id).isSome = true)
    (hcleared : ∀ stage ∈ s.stages.drop x.stageIndex, stageCleared core.epoch e x stage = true) :
    s.Consumed ∧ s.PlanReady
      ∧ fallbackDecision s.ensemble (computeReports s.ensemble s.execution) = none := by
  cases hrest with
  | decided consumed ready _ decision => exact ⟨consumed, ready, decision⟩
  | waiting current declared quiet incomplete =>
    exact (not_waiting_of_cleared hsteps hs hcovered hmembers hcleared current declared incomplete
      (.inl quiet)).elim

/-- An advance that starts idle ends with everything passed and planning
reopened. -/
theorem stalls_of_idle {limits : Limits} {core : Core} {e : EnsembleRecord} {x : ExecutionRecord}
    {s : AdvanceState} (hsteps : AdvanceSteps limits (advanceStart core e x) s) (hs : Staged s)
    (hrest : Rest s) (hcovered : Covered s) (hunasked : Unasked s.execution)
    (hmembers : ∀ stage ∈ s.stages, ∀ id ∈ stage.participants,
      (s.ensemble.spec.findParticipant id).isSome = true)
    (hidle : idle core.epoch e x (s.stages.drop x.stageIndex) = true) : s.stalls = true := by
  obtain ⟨-, hseats, hcarried⟩ := advanceSteps_carried hsteps
  simp only [idle, Bool.and_eq_true, List.all_eq_true, List.any_eq_true] at hidle
  obtain ⟨⟨hplanless, c, hc, hcontent⟩, hcleared⟩ := hidle
  obtain ⟨hconsumed, hready, -⟩ := decided_of_cleared hsteps hs hrest hcovered hmembers hcleared
  obtain ⟨c', hc', hcarries⟩ := hcarried.forth c hc
  have hcontent' : isContentState c'.state = true := hcarries.content.trans hcontent
  simp only [EnsembleSpec.planless, Bool.and_eq_true, ← hseats.spec] at hplanless
  simp only [stalls, reopens, Bool.and_eq_true, decide_eq_true_eq, List.any_eq_true,
    Bool.not_eq_true']
  exact ⟨hconsumed, ⟨hready.complete, c', hc', hcontent', hunasked.everEvaluated c'⟩,
    by simpa using hplanless.1.1⟩

/-! ## The stages ahead -/

/-- An advance leaves the stages of its execution as they are, or it activates
fallback. -/
theorem advanceSteps_stages {limits : Limits} {core : Core} {e : EnsembleRecord}
    {x : ExecutionRecord} {s : AdvanceState} (hstaged : (advanceStart core e x).Staged)
    (hsteps : AdvanceSteps limits (advanceStart core e x) s) (hs : Staged s) :
    (s.execution.fallbackActivated = x.fallbackActivated
        ∧ s.execution.fallbackDepth = x.fallbackDepth ∧ s.stages = planStages e x)
      ∨ (x.fallbackActivated = false ∧ s.execution.fallbackActivated = true
        ∧ s.execution.extraStages ≠ x.extraStages
        ∧ s.stages = planStages e x ++ [fallbackStage e.spec x.fallbackDepth]) := by
  have hspec : s.ensemble.spec = e.spec := advanceSteps_keep
    (P := fun s => s.ensemble.spec = e.spec) (fun hstep h => hstep.spec.trans h) hsteps rfl
  have hkept : x.fallbackActivated = true → s.execution.fallbackActivated = true :=
    advanceSteps_keep (P := fun s => s.execution.fallbackActivated = true)
      AdvanceStep.keeps_activated hsteps
  rw [AdvanceState.stages, hspec, planStages]
  cases hstaged.fallback with
  | unused activated stages depth =>
    have hactivated : x.fallbackActivated = false := activated
    have hstages : x.extraStages = [] := stages
    have hdepth : x.fallbackDepth = 0 := depth
    rw [hactivated, hstages, hdepth, List.append_nil]
    cases hs.fallback with
    | unused activated' stages' depth' =>
      exact .inl ⟨activated', depth', by rw [stages', List.append_nil]⟩
    | used _ activated' stages' =>
      rw [stages', hspec]
      exact .inr ⟨rfl, activated', by simp, rfl⟩
  | used _ activated stages depth =>
    have hstages : x.extraStages = [fallbackStage e.spec 0] := stages
    have hdepth : x.fallbackDepth = 1 := depth
    have hafter := hkept activated
    cases hs.fallback with
    | unused activated' =>
      rw [hafter] at activated'
      cases activated'
    | used _ _ stages' depth' =>
      rw [stages', hspec, hstages]
      exact .inl ⟨hafter.trans activated.symm, depth'.trans hdepth.symm, rfl⟩

/-- What an advance declares before it activates fallback, it declares for
the stages that are left. -/
theorem advanceSteps_placed {limits : Limits} {core : Core} {e : EnsembleRecord}
    {x : ExecutionRecord} {s : AdvanceState} (hstaged : (advanceStart core e x).Staged)
    (hsteps : AdvanceSteps limits (advanceStart core e x) s)
    (hkept : s.execution.fallbackActivated = x.fallbackActivated) :
    ∀ c ∈ s.execution.candidates, (∀ d ∈ x.candidates, d.member ≠ c.member) →
      ∃ stage ∈ (planStages e x).drop x.stageIndex,
        stage.Asks c ∧ c.fallback = stage.fallbackStage := by
  induction hsteps with
  | refl => exact fun c hc hnew => absurd rfl (hnew c hc)
  | @tail m s hm hstep ih =>
    have hbefore : m.execution.fallbackActivated = x.fallbackActivated := by
      cases hx : x.fallbackActivated with
      | true =>
        exact advanceSteps_keep (P := fun s => s.execution.fallbackActivated = true)
          AdvanceStep.keeps_activated hm hx
      | false =>
        rw [hx] at hkept
        by_contra hnot
        rw [hstep.keeps_activated (by simpa using hnot)] at hkept
        cases hkept
    have hmstaged : Staged m := advanceSteps_keep AdvanceStep.staged hm hstaged
    have hstages : m.stages = planStages e x := by
      rcases advanceSteps_stages hstaged hm hmstaged with ⟨-, -, hsame⟩ | ⟨hunused, hused, -⟩
      · exact hsame
      · rw [hbefore, hunused] at hused
        cases hused
    obtain ⟨⟨-, hindex⟩, -⟩ := advanceSteps_carried hm
    obtain ⟨-, ids, hids, hplaces⟩ :=
      @AdvanceStep.declares _ _ _ hstep (m.currentStage.getD { id := {} }) fun _ hcurrent => by
        rw [hcurrent]
        rfl
    intro c hc hnew
    have hplace : (c.member, c.fallback) ∈ s.places := List.mem_map_of_mem hc
    rw [hplaces] at hplace
    rcases List.mem_append.mp hplace with hold | hdeclared
    · obtain ⟨b, hb, hsame⟩ := List.mem_map.mp hold
      obtain ⟨hmember, hfallback⟩ := Prod.mk.inj hsame
      obtain ⟨stage, hstage, hasks, hmark⟩ := ih hbefore b hb (hmember ▸ hnew)
      obtain ⟨hparticipant, hnamed⟩ := Prod.mk.inj hmember
      exact ⟨stage, hstage, ⟨hnamed ▸ hasks.named, hparticipant ▸ hasks.member⟩,
        hfallback ▸ hmark⟩
    · obtain ⟨id, hid, hsame⟩ := List.mem_map.mp hdeclared
      obtain ⟨hmember, hfallback⟩ := Prod.mk.inj hsame
      obtain ⟨hparticipant, hnamed⟩ := Prod.mk.inj hmember
      have hasked := hids hid
      cases hcurrent : m.currentStage with
      | none =>
        rw [hcurrent] at hasked
        cases hasked
      | some stage =>
        rw [hcurrent, Option.getD_some] at hasked hnamed hfallback
        rw [currentStage, hstages] at hcurrent
        refine ⟨stage, ?_, ⟨hnamed.symm, hparticipant ▸ hasked⟩, hfallback.symm⟩
        obtain ⟨hlt, hget⟩ := List.getElem?_eq_some_iff.mp hcurrent
        refine List.mem_drop_iff_getElem.mpr ⟨m.execution.stageIndex - x.stageIndex, by omega, ?_⟩
        simpa [Nat.add_sub_cancel' hindex] using hget

/-- What an advance leaves alone of what a quorum reads. -/
theorem advanceSteps_members {limits : Limits} {s s' : AdvanceState}
    (hsteps : AdvanceSteps limits s s') :
    (quorumMembers s'.ensemble s'.execution).map (·.unmarked)
      = (quorumMembers s.ensemble s.execution).map (·.unmarked) := by
  induction hsteps with
  | refl => rfl
  | tail _ hstep ih =>
    rcases hstep.quorumKept with hkept | rfl
    · exact hkept.dwindles.members.trans ih
    · exact ih

/-- Where an advance has passed the stages that were left, without activating
fallback. -/
theorem clearedTo_of_consumed {limits : Limits} {core : Core} {e : EnsembleRecord}
    {x : ExecutionRecord} {s : AdvanceState} (hwell : WellFormed limits e.spec)
    (hstaged : (advanceStart core e x).Staged)
    (hsteps : AdvanceSteps limits (advanceStart core e x) s) (hs : Staged s)
    (hconsumed : s.Consumed) (hunasked : Unasked s.execution)
    (hbefore : x.fallbackActivated = false) (hafter : s.execution.fallbackActivated = false) :
    ClearedTo core.epoch e x ((planStages e x).drop x.stageIndex) s.ensemble s.execution := by
  have hkept : s.execution.fallbackActivated = x.fallbackActivated := hafter.trans hbefore.symm
  obtain ⟨hdepth, hstages⟩ : s.execution.fallbackDepth = x.fallbackDepth
      ∧ s.stages = planStages e x := by
    rcases advanceSteps_stages hstaged hsteps hs with ⟨-, hsame⟩ | ⟨-, hused, -⟩
    · exact hsame
    · rw [hafter] at hused
      cases hused
  obtain ⟨-, hseats, hcarried⟩ := advanceSteps_carried hsteps
  obtain ⟨hsuperseded, hstatus⟩ := advanceSteps_keep
    (P := fun s => s.ensemble.superseded = e.superseded ∧ s.execution.status = x.status)
    (fun hstep h => ⟨hstep.keeps_open.1.trans h.1, hstep.keeps_open.2.trans h.2⟩) hsteps ⟨rfl, rfl⟩
  have hplanned : planStages e x = e.spec.effectiveStages := by
    cases hstaged.fallback with
    | unused _ stages => rw [planStages, show x.extraStages = [] from stages, List.append_nil]
    | used _ activated =>
      rw [show x.fallbackActivated = true from activated] at hbefore
      cases hbefore
  refine ⟨hseats, hsuperseded, advanceSteps_members hsteps, hstatus, hkept, hdepth, hunasked,
    hcarried, ?_, advanceSteps_placed hstaged hsteps hkept, ?_, ?_⟩
  · intro c hc
    by_contra hflight
    exact hs.not_consumed hc (by simpa using hflight) hconsumed
  · intro stage hstage id hid
    obtain ⟨i, hi, rfl⟩ := List.getElem_of_mem (List.mem_of_mem_drop hstage)
    have hlt : i < s.stages.length := by
      rw [hstages]
      exact hi
    have hget : s.stages[i]? = some (planStages e x)[i] := by
      rw [hstages]
      exact List.getElem?_eq_getElem hi
    have hpassed := hs.barrier.passed i _ (Nat.lt_of_lt_of_le hlt hconsumed) hget
    obtain ⟨⟨c, hc, hparticipant, hnamed⟩, -⟩ := stageComplete_iff.mp hpassed id hid
    exact ⟨c, hc, Prod.ext hparticipant hnamed⟩
  · rw [hplanned]
    exact hwell.effectiveStages.sublist ((List.drop_sublist _ _).map _)

end AdvanceState

open AdvanceState

theorem steps_unasked {limits : Limits} {core : Core} {e : EnsembleRecord} {x : ExecutionRecord}
    {s : AdvanceState} (hsteps : AdvanceSteps limits (advanceStart core e x) s)
    (hplans : UnaskedWherePlanless e x) (hplanless : e.spec.planless = true) :
    Unasked s.execution := by
  have hadvances : Advances limits (advanceStart core e x) (.ok s) := hsteps
  have hkept := hadvances.keeps_plans (P := UnaskedWherePlanless) PlanStep.unasked hplans
  have hspec : s.ensemble.spec = e.spec := advanceSteps_keep
    (P := fun s => s.ensemble.spec = e.spec) (fun hstep h => hstep.spec.trans h) hsteps rfl
  exact hkept (by rw [Threaded.final_ok, hspec]; exact hplanless)

/-- Where nothing holds up the stages that are left, an advance activates
fallback exactly if `activates` says so. -/
theorem idle_ahead {limits : Limits} {core : Core} {e : EnsembleRecord} {x : ExecutionRecord}
    {s : AdvanceState} (hwell : WellFormed limits e.spec)
    (hroom : 1 ≤ e.spec.retry.maxAttempts.toNat) (hopen : x.status = .opened)
    (hstaged : (advanceStart core e x).Staged) (hcovered : Covered (advanceStart core e x))
    (hplans : UnaskedWherePlanless e x) (fuel : Nat)
    (hloop : advanceLoop limits (fuel + 3) (advanceStart core e x) = .ok s) :
    idle core.epoch e x (s.stages.drop x.stageIndex)
      = idle core.epoch e x (stagesAhead e x) := by
  have hsteps : AdvanceSteps limits (advanceStart core e x) s := by
    have hadvances := advanceLoop_advances limits (fuel + 3) (advanceStart core e x)
    rwa [hloop] at hadvances
  have hkeeps : ∀ {m : AdvanceState}, AdvanceSteps limits (advanceStart core e x) m →
      Staged m ∧ Covered m ∧ m.ensemble.spec = e.spec := fun hm =>
    advanceSteps_keep (P := fun s => Staged s ∧ Covered s ∧ s.ensemble.spec = e.spec)
      (fun hstep h => ⟨hstep.staged h.1, hstep.covered h.2.1, hstep.spec.trans h.2.2⟩) hm
      ⟨hstaged, hcovered, rfl⟩
  obtain ⟨hs, hscovered, hspec⟩ := hkeeps hsteps
  have hwithin : x.stageIndex ≤ (planStages e x).length := hstaged.barrier.within
  cases hleft : idle core.epoch e x ((planStages e x).drop x.stageIndex) with
  | false =>
    have hahead : idle core.epoch e x (stagesAhead e x) = false := by
      rw [stagesAhead]
      split
      · rw [idle_append, hleft, Bool.false_and]
      · exact hleft
    rw [hahead]
    rcases advanceSteps_stages hstaged hsteps hs with ⟨-, -, hstages⟩ | ⟨-, -, -, hstages⟩
    · rw [hstages, hleft]
    · rw [hstages, List.drop_append_of_le_length hwithin, idle_append, hleft, Bool.false_and]
  | true =>
    have hidle := hleft
    simp only [idle, Bool.and_eq_true, List.all_eq_true, List.any_eq_true] at hidle
    obtain ⟨⟨hplanless, hcontent⟩, hcleared⟩ := hidle
    have hevaluators : e.spec.evaluatingParticipants.isEmpty = false := by
      simp only [EnsembleSpec.planless, Bool.and_eq_true, Bool.not_eq_true'] at hplanless
      exact hplanless.1.1
    have hunasked : ∀ {m : AdvanceState}, AdvanceSteps limits (advanceStart core e x) m →
        Unasked m.execution := fun hm => steps_unasked hm hplans hplanless
    have hdecision : ∀ {m : AdvanceState}, AdvanceSteps limits (advanceStart core e x) m →
        m.Consumed → x.fallbackActivated = false → m.execution.fallbackActivated = false →
        (fallbackDecision m.ensemble (computeReports m.ensemble m.execution)).isSome
          = activates e x ((planStages e x).drop x.stageIndex) := fun hm hconsumed hbefore hafter =>
      (clearedTo_of_consumed hwell hstaged hm (hkeeps hm).1 hconsumed (hunasked hm) hbefore
        hafter).decision hroom hopen (hplans hplanless) hcontent hevaluators
    rcases advanceSteps_stages hstaged hsteps hs with
      ⟨hsame, -, hstages⟩ | ⟨hbefore, -, hchanged, hstages⟩
    · -- at rest behind the stages, no trigger fires
      have hmembers : ∀ stage ∈ s.stages, ∀ id ∈ stage.participants,
          (s.ensemble.spec.findParticipant id).isSome = true :=
        hs.fallback.members (hspec ▸ hwell)
      obtain ⟨hconsumed, -, hnone⟩ := decided_of_cleared hsteps hs
        (advanceLoop_rests hstaged rfl (fuel + 1) hloop) hscovered hmembers (hstages ▸ hcleared)
      have hnot : activates e x ((planStages e x).drop x.stageIndex) = false := by
        cases hbefore : x.fallbackActivated with
        | true => simp [activates, hbefore]
        | false =>
          rw [← hdecision hsteps hconsumed hbefore (hsame.trans hbefore), hnone]
          rfl
      rw [hstages, stagesAhead, hnot]
      rfl
    · -- the trigger that fired in the run fires behind the stages
      have hfinal : (Threaded.final (advanceLoop limits (fuel + 2 + 1)
          (advanceStart core e x))).execution.extraStages ≠ x.extraStages := by
        rw [hloop]
        exact hchanged
      obtain ⟨m, hm⟩ := advanceLoop_activates hstaged rfl (fuel + 2) hfinal
      have hmsteps : AdvanceSteps limits (advanceStart core e x) m :=
        Relation.ReflTransGen.head .round hm.steps
      obtain ⟨trigger, hfires⟩ := hm.decision
      obtain ⟨trigger', hrenewed⟩ := hm.renewed
      have hactivates : activates e x ((planStages e x).drop x.stageIndex) = true := by
        rw [← hdecision hmsteps hm.consumed hbefore (fallbackDecision_eq_some hfires).2.1,
          hrenewed]
        rfl
      rw [hstages, List.drop_append_of_le_length hwithin, stagesAhead, if_pos hactivates]

/-- In every reachable state, the rounds of an advance of an open execution end
with one that makes no progress, unless it is idle on the stages ahead of it. -/
theorem advance_rests_iff (config : FabricConfig) (events : List Event) (id : EnsembleId)
    (e : EnsembleRecord) (x : ExecutionRecord)
    (he : ((System.initial config).run events).fabric.find id = some e)
    (hx : e.execution = some x) (hopen : x.status = .opened) (rounds : Nat) (hrounds : 3 ≤ rounds)
    (s : AdvanceState)
    (hloop : advanceLoop config.limits rounds
      (advanceStart ((System.initial config).run events).fabric.core e x) = .ok s) :
    s.progress = false
      ↔ idle ((System.initial config).run events).fabric.core.epoch e x (stagesAhead e x)
        = false := by
  obtain ⟨fuel, rfl⟩ := Nat.exists_eq_add_of_le' hrounds
  have hstaged := reachable_staged config events he hx hopen
  have hcovers := reachable_covered config events he hx hopen
    ((System.initial config).run events).fabric.core
  have hplans := reachable_unasked config events id e x he hx
  have hadmitted := (reachable_specInUse config events id e he).admitted
  have hsteps : AdvanceSteps config.limits
      (advanceStart ((System.initial config).run events).fabric.core e x) s := by
    have hadvances := advanceLoop_advances config.limits (fuel + 3)
      (advanceStart ((System.initial config).run events).fabric.core e x)
    rwa [hloop] at hadvances
  obtain ⟨hs, hcovered, hspec⟩ := advanceSteps_keep
    (P := fun s => Staged s ∧ Covered s ∧ s.ensemble.spec = e.spec)
    (fun hstep h => ⟨hstep.staged h.1, hstep.covered h.2.1, hstep.spec.trans h.2.2⟩) hsteps
    ⟨hstaged, hcovers, rfl⟩
  have hrest := advanceLoop_rests hstaged rfl (fuel + 1) hloop
  have hmembers : ∀ stage ∈ s.stages, ∀ id ∈ stage.participants,
      (s.ensemble.spec.findParticipant id).isSome = true :=
    hs.fallback.members (hspec ▸ hadmitted.wellFormed)
  have hiff : s.stalls = idle ((System.initial config).run events).fabric.core.epoch e x
      (s.stages.drop x.stageIndex) := by
    refine Bool.eq_iff_iff.mpr ⟨idle_of_stalls hsteps hs hrest, fun hidle => ?_⟩
    have hplanless : s.ensemble.spec.planless = true := by
      rw [idle, Bool.and_eq_true, Bool.and_eq_true] at hidle
      exact hspec ▸ hidle.1.1
    exact stalls_of_idle hsteps hs hrest hcovered
      (steps_unasked hsteps hplans (hspec ▸ hplanless)) hmembers hidle
  rw [advanceLoop_stalls hstaged rfl fuel hloop, hiff,
    idle_ahead hadmitted.wellFormed hadmitted.attempts hopen hstaged hcovers hplans fuel hloop]

/-- The state the rounds of an advance of the ensemble end in, if they do not
stop at a bound. -/
def roundsEnd (f : Fabric) (e : EnsembleRecord) (x : ExecutionRecord) : Option AdvanceState :=
  (advanceLoop f.config.limits 64 (advanceStart f.core e x)).toOption

theorem roundsEnd_eq_some {f : Fabric} {e : EnsembleRecord} {x : ExecutionRecord}
    {s : AdvanceState} (h : roundsEnd f e x = some s) :
    advanceLoop f.config.limits 64 (advanceStart f.core e x) = .ok s := by
  unfold roundsEnd at h
  cases hout : advanceLoop f.config.limits 64 (advanceStart f.core e x) with
  | ok s' =>
    rw [hout] at h
    exact congrArg Except.ok (Option.some.inj h)
  | error stop =>
    rw [hout] at h
    cases h

namespace Sample

/-- A candidate and a verifier without a criterion to verify. -/
def unverifiedSpec : EnsembleSpec where
  id := ⟨1⟩
  participants := [participant 1 candidateRole, participant 2 verifierRole]

/-- The same with a fallback for judges that disagree. -/
def unverifiedFallbackSpec : EnsembleSpec where
  id := ⟨1⟩
  participants :=
    [participant 1 candidateRole, participant 2 verifierRole, participant 3 fallbackRole]
  fallback :=
    { enabled := true
      triggers := [.judgeDisagreement]
      fallbackParticipants := [⟨3⟩]
      maxDepth := 1 }

/-- The candidate has content. -/
def contentGiven (spec : EnsembleSpec) : List Event := start spec ++ [content 1 1 [7]]

end Sample

/-- The evaluators have nothing to evaluate, and still the rounds end with one
that makes no progress: behind its stages the advance activates fallback, and
the fallback participant is served. -/
theorem unverifiedFallback_rests :
    ∃ e x s, Sample.ensemble (Sample.contentGiven Sample.unverifiedFallbackSpec) = some e
      ∧ e.execution = some x ∧ e.spec.planless = true
      ∧ x.candidates.any (isContentState ·.state) = true
      ∧ activates e x ((planStages e x).drop x.stageIndex) = true
      ∧ roundsEnd (Sample.reached (Sample.contentGiven Sample.unverifiedFallbackSpec)).fabric e x
        = some s
      ∧ s.progress = false := by
  have hrun : (Sample.ensemble (Sample.contentGiven Sample.unverifiedFallbackSpec)).any (fun e =>
      e.execution.any fun x =>
        x.status == .opened && e.spec.planless && x.candidates.any (isContentState ·.state)
          && activates e x ((planStages e x).drop x.stageIndex)
          && !idle (Sample.reached
            (Sample.contentGiven Sample.unverifiedFallbackSpec)).fabric.core.epoch e x
            (stagesAhead e x)
          && (roundsEnd (Sample.reached (Sample.contentGiven Sample.unverifiedFallbackSpec)).fabric
            e x).isSome) = true := by decide +kernel
  simp only [Option.any_eq_true, Bool.and_eq_true, Bool.not_eq_true', beq_iff_eq] at hrun
  obtain ⟨e, he, x, hx, ⟨⟨⟨⟨hopen, hplanless⟩, hcontent⟩, hactivates⟩, hbusy⟩, hsome⟩ := hrun
  obtain ⟨s, hs⟩ := Option.isSome_iff_exists.mp hsome
  have hloop := roundsEnd_eq_some hs
  rw [show (Sample.reached (Sample.contentGiven Sample.unverifiedFallbackSpec)).fabric.config = {}
    from (reachable_named {} (Sample.contentGiven Sample.unverifiedFallbackSpec)).1] at hloop
  exact ⟨e, x, s, he, hx, hplanless, hcontent, hactivates, hs,
    (advance_rests_iff {} (Sample.contentGiven Sample.unverifiedFallbackSpec) ⟨1⟩ e x he hx hopen
      64 (by decide) s hloop).mpr hbusy⟩

/-- Validation accepts a verifier without a criterion; once there is content, the
bound ends the rounds of every advance. -/
theorem unverified_never_rests :
    validateSpec Sample.unverifiedSpec {} = .ok ()
      ∧ ∃ e x s, Sample.ensemble (Sample.contentGiven Sample.unverifiedSpec) = some e
        ∧ e.execution = some x ∧ x.status = .opened
        ∧ roundsEnd (Sample.reached (Sample.contentGiven Sample.unverifiedSpec)).fabric e x = some s
        ∧ s.progress = true := by
  refine ⟨by decide +kernel, ?_⟩
  have hrun : (Sample.ensemble (Sample.contentGiven Sample.unverifiedSpec)).any (fun e =>
      e.execution.any fun x => x.status == .opened
        && (roundsEnd (Sample.reached (Sample.contentGiven Sample.unverifiedSpec)).fabric e x).any
          (·.progress)) = true := by decide +kernel
  simp only [Option.any_eq_true, Bool.and_eq_true, beq_iff_eq] at hrun
  obtain ⟨e, he, x, hx, hopen, s, hs, hprogress⟩ := hrun
  exact ⟨e, x, s, he, hx, hopen, hs, hprogress⟩

end EnsembleFabric
