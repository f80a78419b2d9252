import EnsembleFabric.LateEvidence
import EnsembleFabric.Planned
import EnsembleFabric.Threshold

/-!
# Answers to the evaluations an advance asks for

What an advance asks for it also takes, as long as the planner and the
intake agree. They differ in two points. The planner asks an evaluator for
ranking signals because it is a judge and for hard predicates because it
is a verifier; the intake takes nothing but hard predicates from a
verifier, judge or not. And the planner does not look at the evidence,
where the intake turns down a second evaluation by the same evaluator
generation, whichever plan it answers and whether the first one is still in
force. `answerTaken` says that neither applies.

An action is backed (`Backs`) by what the state after the advance has on
record: an open plan with its identity, standing content, and an evaluator
with the authority to answer. That every action of an advance is backed
where the advance ends (`advance_backs`) is carried through its steps, since
a later round may change what an earlier one asked for. From there
`Answering.accepted_iff` compares the checks of the intake with what backs
the action, one by one:

> planned_answer_taken_iff : in every reachable state, an answer to an
> evaluation the advance asks for is accepted exactly when `answerTaken`.
-/

namespace EnsembleFabric

open Checks EventSystem AdvanceState

/-! ## Seats and roles -/

/-- Every seat is the one of a participant of the specification. -/
def SeatsDeclared (e : EnsembleRecord) : Prop :=
  ∀ p ∈ e.participants, p.declaration ∈ e.spec.participants ∧ p.declaration.id = p.id

def ViewSeatsDeclared (v : View) : Prop := ∀ e, v.entry = some e → SeatsDeclared e

theorem seatsDeclared_fresh {e : EnsembleRecord}
    (h : e.participants = e.spec.participants.map freshParticipant) : SeatsDeclared e := by
  intro p hp
  rw [h] at hp
  obtain ⟨d, hd, rfl⟩ := List.mem_map.mp hp
  exact ⟨hd, rfl⟩

theorem Move.seatsDeclared {sc : Scope} {v v' : View} (h : Move sc v v')
    (hv : ViewSeatsDeclared v) : ViewSeatsDeclared v' := by
  cases h with
  | tick => exact hv
  | define =>
    rintro _ ⟨⟩
    exact seatsDeclared_fresh rfl
  | redefine =>
    rintro _ ⟨⟩
    exact seatsDeclared_fresh rfl
  | seats steps =>
    rintro _ ⟨⟩
    intro p' hp'
    obtain ⟨p, hp, hstep⟩ := Slots.exists_left steps hp'
    rw [hstep.declaration, hstep.id]
    exact hv _ rfl p hp
  | _ =>
    rintro _ ⟨⟩
    have hold : SeatsDeclared _ := hv _ rfl
    exact hold

theorem reachable_seatsDeclared (config : FabricConfig) (events : List Event) (id : EnsembleId) :
    ViewSeatsDeclared (((System.initial config).run events).fabric.view id) :=
  reachable_view Move.seatsDeclared (fun h => h) (by rintro _ ⟨⟩) (along_allows _ events) id

/-- The role that gives evidence of a kind. -/
def kindRole : CriterionKind → ParticipantRole
  | .hardPredicate => .verifier
  | .rankingSignal => .judge

/-- Every plan asks a participant that has the role for it. -/
def PlannedByRole (spec : EnsembleSpec) (x : ExecutionRecord) : Prop :=
  ∀ q ∈ x.pending, ∃ d ∈ spec.participants, d.id = q.evaluator
    ∧ d.roles.contains (kindRole q.kind) = true

theorem planTargets_role {spec : EnsembleSpec} {cs : List CandidateRecord} {t : PlanTarget}
    (h : t ∈ planTargets spec cs) :
    ∃ d ∈ spec.participants, d.id = t.evaluator ∧ d.roles.contains (kindRole t.kind) = true := by
  rw [planTargets, List.mem_flatMap] at h
  obtain ⟨c, -, h⟩ := h
  obtain ⟨d, hd, h⟩ := List.mem_flatMap.mp h
  refine ⟨d, (List.mem_filter.mp hd).1, ?_⟩
  rw [evaluatorTargets, List.mem_append] at h
  rcases h with h | h
  · split at h
    · rename_i hverifier
      obtain ⟨_, -, rfl⟩ := List.mem_map.mp h
      exact ⟨rfl, hverifier⟩
    · cases h
  · split at h
    · rename_i hjudge
      obtain ⟨_, -, rfl⟩ := List.mem_map.mp h
      exact ⟨rfl, hjudge⟩
    · cases h

theorem PlansKept.byRole {spec : EnsembleSpec} {x x' : ExecutionRecord} (h : PlansKept x x')
    (hx : PlannedByRole spec x) : PlannedByRole spec x' := by
  intro q' hq'
  obtain ⟨q, hq, hfollows⟩ := h.follows q' hq'
  rw [hfollows.same]
  exact hx q hq

theorem AdvanceState.PlanStep.byRole {s s' : AdvanceState}
    (hseats : SameSeats s.ensemble s'.ensemble) (h : PlanStep s s')
    (hs : PlannedByRole s.ensemble.spec s.execution) :
    PlannedByRole s'.ensemble.spec s'.execution := by
  rw [hseats.spec]
  cases h with
  | kept plans => exact plans.byRole hs
  | planned pending _ _ made =>
    intro q hq
    rw [pending, List.mem_append] at hq
    rcases hq with hold | hnew
    · exact hs q hold
    · obtain ⟨t, ht, hmade⟩ := made q hnew
      rw [hmade]
      exact planTargets_role ht
  | handled index result =>
    subst result
    obtain ⟨-, hexecution | ⟨q, q', hq, hq', hexecution⟩⟩ := emitOne_execution s index
    · rw [hexecution]
      exact hs
    · rw [hexecution]
      intro r hr
      rcases List.mem_or_eq_of_mem_set hr with hold | rfl
      · exact hs r hold
      · rw [hq']
        exact hs q (List.mem_of_getElem? hq)

theorem PlansAfter.byRole {s : System} {event : Event} {id : EnsembleId} {e e' : EnsembleRecord}
    {x' : ExecutionRecord} (h : PlansAfter s event id e e' x')
    (he : ∀ x, e.execution = some x → PlannedByRole e.spec x) : PlannedByRole e'.spec x' := by
  cases h with
  | fresh unplanned =>
    intro q hq
    rw [unplanned] at hq
    cases hq
  | @advanced x _ before =>
    have hloop := (advanceLoop_advances s.fabric.config.limits 64
      (advanceStart s.fabric.core e x)).keeps_plans (P := fun e x => PlannedByRole e.spec x)
      PlanStep.byRole (he x before)
    obtain ⟨hensemble, hpending, -⟩ := advanceOpen_final
      (rfl : advanceLoop s.fabric.config.limits 64 (advanceStart s.fabric.core e x) = _)
    rw [EnsembleRecord.holding_spec, hensemble, PlannedByRole, hpending]
    exact hloop
  | @evaluated r site p _ accept ensemble =>
    subst ensemble
    have haccepted := acceptEvaluation_eq_ok accept
    exact (evaluatedExecution_plans haccepted.pendingAt).byRole (he _ haccepted.execution)
  | seated _ at_ _ before =>
    obtain rfl := at_.ensemble
    exact he x' before
  | kept before spec _ plans =>
    rw [spec]
    exact plans.byRole (he _ before)

/-- Every plan of the runtime asks a participant that has the role for it. -/
def AllByRole (s : System) : Prop :=
  ∀ id e x, s.fabric.find id = some e → e.execution = some x → PlannedByRole e.spec x

theorem AllByRole.next {s : System} (event : Event) (h : AllByRole s) :
    AllByRole (s.next event) := by
  intro id e' x' he' hx'
  rcases next_execution he' hx' with hsame | ⟨e, he, hwritten⟩
  · exact h id _ x' hsame hx'
  · exact (hwritten.plansAfter hx').byRole fun x hx => h id e x he hx

theorem reachable_byRole (config : FabricConfig) (events : List Event) :
    AllByRole ((System.initial config).run events) :=
  run_invariant (fun _ event h => AllByRole.next event h) fun _ _ _ hnone => by cases hnone

/-- The evaluator of a plan holds the role for it. -/
theorem reachable_evaluator_role (config : FabricConfig) (events : List Event) {id : EnsembleId}
    {e : EnsembleRecord} {x : ExecutionRecord} {q : PendingEvaluation} {p : ParticipantRecord}
    (he : ((System.initial config).run events).fabric.find id = some e)
    (hx : e.execution = some x) (hq : q ∈ x.pending) (hp : e.participant? q.evaluator = some p) :
    p.declaration.roles.contains (kindRole q.kind) = true := by
  obtain ⟨d, hd, hid, hrole⟩ := reachable_byRole config events id e x he hx q hq
  obtain ⟨hmem, hown⟩ := reachable_seatsDeclared config events id e he p
    (List.mem_of_find?_eq_some hp)
  have hpid : p.id = q.evaluator := by simpa using List.find?_some hp
  have hdistinct := (reachable_specInUse config events id e he).admitted.wellFormed.participants
  have hsame : p.declaration = d :=
    List.inj_on_of_nodup_map hdistinct hmem hd (hown.trans (hpid.trans hid.symm))
  rw [hsame]
  exact hrole

/-! ## What backs an action -/

/-- The action asks for a plan that is outstanding, about content that stands,
of an evaluator that has the authority to answer. -/
structure Backs (k : Core) (e : EnsembleRecord) (x : ExecutionRecord) (a : EvaluationAction)
    (q : PendingEvaluation) (p : ParticipantRecord) (c : CandidateRecord) : Prop where
  mem : q ∈ x.pending
  emitted : q.emitted = true
  answered : q.answered = false
  abandoned : q.abandoned = false
  seat : e.participant? q.evaluator = some p
  current : q.evaluatorGeneration = p.generation
  served : p.authoritative k.epoch = true
  target : standingTarget x q = some c
  action : a = { evaluationAction e x q p c a.sequence with domain := a.domain }

theorem Backs.moves {k k' : Core} {e e' : EnsembleRecord} {x x' : ExecutionRecord}
    {a : EvaluationAction} {q : PendingEvaluation} {p : ParticipantRecord} {c c' : CandidateRecord}
    (h : Backs k e x a q p c) (hepoch : k'.epoch = k.epoch)
    (hseat : e'.participant? q.evaluator = e.participant? q.evaluator)
    (hnamed : executionRef e' x' = executionRef e x) (hmem : q ∈ x'.pending)
    (htarget : standingTarget x' q = some c') : Backs k' e' x' a q p c' := by
  refine ⟨hmem, h.emitted, h.answered, h.abandoned, hseat.trans h.seat, h.current, ?_, htarget, ?_⟩
  · rw [hepoch]
    exact h.served
  · rw [evaluationAction, hnamed]
    exact h.action

theorem standingTarget_report {e : EnsembleRecord} {x : ExecutionRecord} {q : PendingEvaluation}
    {c : CandidateRecord} (h : standingTarget x q = some c) :
    ∃ c', standingTarget (computeReports e x) q = some c' := by
  rw [standingTarget, Option.filter_eq_some_iff] at h
  obtain ⟨hc, hstands⟩ := h
  have hslots : List.Forall₂ (fun c c' : CandidateRecord => SameStanding c c') x.candidates
      (computeReports e x).candidates :=
    Slots.forall₂_map fun c _ => markElimination_eq _ c
  obtain ⟨c', hc', hsame⟩ := Slots.find?_follows (fun d : CandidateRecord => d.id == q.candidate)
    (fun d : CandidateRecord => d.id == q.candidate) (fun hsame => by rw [hsame]) hslots hc
  refine ⟨c', ?_⟩
  rw [standingTarget, Option.filter_eq_some_iff]
  refine ⟨hc', ?_⟩
  rw [hsame]
  exact hstands

namespace AdvanceState

theorem planEvaluations_epoch (s : AdvanceState) :
    (Threaded.final (planEvaluations s)).core.epoch = s.core.epoch := by
  unfold planEvaluations
  split
  · rfl
  · refine Threaded.final_bind (R := fun a b : AdvanceState => b.core.epoch = a.core.epoch)
      (fun h h' => h'.trans h) ?_ fun m _ => rfl
    exact Threaded.final_foldlM (R := fun a b : AdvanceState => b.core.epoch = a.core.epoch)
      (fun _ => rfl) (fun h h' => h'.trans h)
      (fun m t _ => by unfold planOne; split <;> rfl) _

/-- Every evaluation an advance asks for is backed, and holds the execution
where it is. -/
def Backed (s : AdvanceState) : Prop :=
  ∀ a, .evaluate a ∈ s.actions →
    s.Consumed ∧ ∃ q p c, Backs s.core s.ensemble s.execution a q p c

/-- A step that asks for no evaluation, and was not taken if one was asked for. -/
theorem Backed.of_unasked {s s' : AdvanceState}
    (hactions : ∀ a, .evaluate a ∈ s'.actions → .evaluate a ∈ s.actions) (h : Backed s)
    (hnot : ∀ a q p c, s.Consumed → Backs s.core s.ensemble s.execution a q p c → False) :
    Backed s' := by
  intro a ha
  obtain ⟨hconsumed, q, p, c, hbacks⟩ := h a (hactions a ha)
  exact (hnot a q p c hconsumed hbacks).elim

/-- A step that asks for nothing and leaves the plans that are asked for. -/
theorem Backed.of_kept {s s' : AdvanceState} (h : Backed s)
    (hactions : ∀ a, .evaluate a ∈ s'.actions → .evaluate a ∈ s.actions)
    (hconsumed : s.Consumed → s'.Consumed) (hepoch : s'.core.epoch = s.core.epoch)
    (hensemble : s'.ensemble = s.ensemble)
    (hnamed : executionRef s'.ensemble s'.execution = executionRef s.ensemble s.execution)
    (hplans : ∀ q ∈ s.execution.pending, q.emitted = true → q ∈ s'.execution.pending)
    (htarget : ∀ q c, standingTarget s.execution q = some c →
      ∃ c', standingTarget s'.execution q = some c') : Backed s' := by
  intro a ha
  obtain ⟨hc, q, p, c, hbacks⟩ := h a (hactions a ha)
  obtain ⟨c', hc'⟩ := htarget q c hbacks.target
  exact ⟨hconsumed hc, q, p, c', hbacks.moves hepoch (by rw [hensemble]) hnamed
    (hplans q hbacks.mem hbacks.emitted) hc'⟩

theorem mem_set_of_emitted {s : AdvanceState} {index : Nat} {q q' : PendingEvaluation}
    (h : Unsent s index q) {r : PendingEvaluation} (hr : r ∈ s.execution.pending)
    (hemitted : r.emitted = true) : r ∈ s.execution.pending.set index q' := by
  have hslots : List.Forall₂ (fun a b : PendingEvaluation => a.emitted = true → b = a)
      s.execution.pending (s.execution.pending.set index q') :=
    Slots.forall₂_set (fun _ _ => rfl) h.at_ fun hq => by simp [h.emitted] at hq
  obtain ⟨r', hr', hsame⟩ := Slots.exists_right hslots hr
  obtain rfl := hsame hemitted
  exact hr'

/-- A fallback asks for no evaluation. -/
theorem activateMembers_evaluate (trigger : FallbackTrigger) (ids : List ParticipantId)
    (s : AdvanceState) (a : EvaluationAction)
    (ha : .evaluate a ∈ (ids.foldl (activateMember trigger) s).actions) :
    .evaluate a ∈ s.actions := by
  induction ids generalizing s with
  | nil => exact ha
  | cons id rest ih =>
    rcases List.mem_append.mp (ih (activateMember trigger s id) ha) with hold | hnew
    · exact hold
    · cases List.mem_singleton.mp hnew

theorem AdvanceStep.backed {limits : Limits} {s s' : AdvanceState}
    (h : AdvanceStep limits s s') (hs : Backed s) : Backed s' := by
  -- stages are worked on only while nothing is asked for
  have hstage : ∀ {stage}, s.currentStage = some stage → ∀ a q p c, s.Consumed →
      Backs s.core s.ensemble s.execution a q p c → False := by
    intro stage hcurrent _ _ _ _ hconsumed _
    rw [hconsumed.no_stage] at hcurrent
    cases hcurrent
  cases h with
  | round =>
    exact hs.of_kept (fun _ ha => ha) id rfl rfl rfl (fun _ hq _ => hq) fun _ c hc => ⟨c, hc⟩
  | declared current undeclared result =>
    refine hs.of_unasked (fun a ha => ?_) (hstage current)
    obtain ⟨m, hm, rfl⟩ := declareStage_eq_ok undeclared result
    obtain ⟨-, hactions⟩ := declareMembers_appends limits _ _ s
    rw [hm, Threaded.final_ok] at hactions
    rw [← hactions]
    exact ha
  | adopted current | stranded current | completed current =>
    exact Backed.of_unasked (s := s) (fun _ ha => ha) hs (hstage current)
  | dispatched current =>
    refine hs.of_unasked (fun a ha => ?_) (hstage current)
    rcases List.mem_append.mp ha with hold | hnew
    · exact hold
    · cases List.mem_singleton.mp hnew
  | reopened =>
    refine hs.of_kept ?_ ((reopenPlanning_same s).consumed ·) ?_ ?_ ?_ ?_ ?_
    · rw [(reopenPlanning_handsNothing s).2]
      exact fun _ ha => ha
    all_goals
      unfold reopenPlanning
      split
    all_goals first
      | rfl
      | exact fun _ hq _ => hq
      | exact fun _ c hc => ⟨c, hc⟩
  | planned consumed incomplete result =>
    obtain ⟨done, added, hplans, -⟩ := planEvaluations_plans incomplete
    have hsame := planEvaluations_same s
    have hepoch := planEvaluations_epoch s
    rw [result, Threaded.final_ok] at hplans hsame hepoch
    refine hs.of_kept (fun a ha => hplans.actions ▸ ha) hsame.consumed hepoch hplans.ensemble
      ?_ ?_ ?_
    · rw [hplans.ensemble, hplans.execution]
      rfl
    · intro q hq _
      rw [hplans.execution]
      exact List.mem_append_left _ hq
    · intro q c hc
      rw [hplans.execution]
      exact ⟨c, hc⟩
  | emitted index consumed =>
    have hcases := emitOne_cases s index
    have hsame := emitOne_same s index
    generalize s.emitOne index = s' at hcases hsame ⊢
    cases hcases with
    | skipped | kept => exact hs
    | abandoned unsent =>
      exact hs.of_kept (fun _ ha => ha) hsame.consumed rfl rfl rfl
        (fun q hq hemitted => mem_set_of_emitted unsent hq hemitted) fun _ c hc => ⟨c, hc⟩
    | @emitted q p c unsent seat current served target =>
      intro a ha
      refine ⟨hsame.consumed consumed, ?_⟩
      rcases List.mem_append.mp ha with hold | hnew
      · obtain ⟨-, r, p', c', hbacks⟩ := hs a hold
        exact ⟨r, p', c', hbacks.moves (nextSequence_epoch _) rfl rfl
          (mem_set_of_emitted unsent hbacks.mem hbacks.emitted) hbacks.target⟩
      · obtain rfl := FabricAction.evaluate.inj (List.mem_singleton.mp hnew)
        have hlt := (List.getElem?_eq_some_iff.mp unsent.at_).1
        refine ⟨{ q with emitted := true }, p, c, List.mem_set hlt _, rfl, unsent.answered,
          unsent.abandoned, seat, current, ?_, target, rfl⟩
        change p.authoritative s.core.nextSequence.2.epoch = true
        rw [nextSequence_epoch]
        exact served
  | reported consumed =>
    exact hs.of_kept (fun _ ha => ha) id rfl rfl rfl (fun _ hq _ => hq)
      fun _ _ hc => standingTarget_report hc
  | @activated trigger _ decision =>
    refine hs.of_unasked (fun a ha => ?_) fun a q p c _ hbacks => ?_
    · rw [activateFallback, decision] at ha
      exact activateMembers_evaluate trigger _ s.requestFallback a ha
    · obtain ⟨-, -, -, hwaiting, -⟩ := fallbackDecision_eq_some decision
      simp only [waiting, Bool.or_eq_false_iff, List.any_eq_false] at hwaiting
      exact hwaiting.1 q hbacks.mem
        (by simp [hbacks.emitted, hbacks.answered, hbacks.abandoned])

end AdvanceState

/-! ## Answers -/

/-- The authority under which an evaluator answers an action. -/
def actionAuthority (k : Core) (e : EnsembleRecord) (p : ParticipantRecord)
    (a : EvaluationAction) : EvaluationAuthority where
  evaluator := seatAuthority k e p
  execution := a.execution.execution
  attemptGeneration := a.execution.attemptGeneration
  evaluation := a.evaluation
  evaluationGeneration := a.evaluationGeneration
  candidate := a.candidate
  candidateGeneration := a.candidateGeneration

/-- A well-formed submission in which the evaluator answers the action: it repeats
what the action asks, under the authority of the evaluator, within the bounds. -/
structure Answering (limits : Limits) (k : Core) (e : EnsembleRecord) (p : ParticipantRecord)
    (a : EvaluationAction) (r : EvaluationSubmission) : Prop where
  authority : r.authority = actionAuthority k e p a
  criterion : r.criterion = a.criterion
  kind : r.kind = a.criterionKind
  evidence : r.evidence.length ≤ limits.maxEvaluationPayloadBytes.toNat
  rationale : r.rationale.length ≤ limits.maxMetadataBytes.toNat
  explained : e.spec.evidence.requireRationale = true → r.rationale.isEmpty = false
  score : r.scoreDefined = true → r.score.isFinite = true
  weight : r.weight.isFinite = true ∧ r.weight.atMost .zero = false

/-- The evaluator is no verifier asked for a ranking signal, its generation has
no evaluation of the candidate on the criterion on record, in force or not,
and no identity of the answer is absent. -/
def answerTaken (k : Core) (e : EnsembleRecord) (x : ExecutionRecord) (p : ParticipantRecord)
    (a : EvaluationAction) : Bool :=
  (!p.declaration.roles.contains .verifier || a.criterionKind == .hardPredicate)
    && (x.evaluations.all fun r => !(r.evaluator == a.judge
      && r.evaluatorGeneration == a.judgeGeneration && r.criterion == a.criterion
      && r.candidate == a.candidate))
    && (actionAuthority k e p a).validate.isOk

section Answer

variable {f : Fabric} {e : EnsembleRecord} {x : ExecutionRecord} {a : EvaluationAction}
  {q : PendingEvaluation} {p : ParticipantRecord} {c : CandidateRecord} {r : EvaluationSubmission}

theorem Backs.evaluator {k : Core} (h : Backs k e x a q p c) : p.id = q.evaluator := by
  simpa using List.find?_some h.seat

theorem Backs.authority {k : Core} (h : Backs k e x a q p c) :
    actionAuthority k e p a = planAuthority k e x p q := by
  rw [actionAuthority, h.action]
  rfl

theorem Backs.judge {k : Core} (h : Backs k e x a q p c) :
    a.judge = p.id ∧ a.judgeGeneration = p.generation ∧ a.candidate = q.candidate
      ∧ a.criterion = q.criterion ∧ a.criterionKind = q.kind := by
  rw [h.action, h.evaluator]
  exact ⟨rfl, rfl, rfl, rfl, rfl⟩

/-- On record for the answer means on record for the action. -/
theorem Answering.sameEvaluation_eq (hr : Answering f.config.limits f.core e p a r)
    (h : Backs f.core e x a q p c) (v : EvaluationRecord) :
    sameEvaluation r v = (v.evaluator == a.judge && v.evaluatorGeneration == a.judgeGeneration
      && v.criterion == a.criterion && v.candidate == a.candidate) := by
  obtain ⟨hjudge, hgeneration, -⟩ := h.judge
  rw [sameEvaluation, hr.authority, hr.criterion, hjudge, hgeneration]
  rfl

theorem Answering.unrecorded_iff (hr : Answering f.config.limits f.core e p a r)
    (h : Backs f.core e x a q p c) :
    x.evaluations.find? (sameEvaluation r) = none
      ↔ (x.evaluations.all fun v => !(v.evaluator == a.judge
          && v.evaluatorGeneration == a.judgeGeneration && v.criterion == a.criterion
          && v.candidate == a.candidate)) = true := by
  rw [List.find?_eq_none, List.all_eq_true]
  refine forall₂_congr fun v _ => ?_
  rw [hr.sameEvaluation_eq h v, Bool.not_eq_true, Bool.not_eq_true']

/-- What the intake checks of a submission against its plan. -/
theorem Answering.checked (hr : Answering f.config.limits f.core e p a r)
    (h : Backs f.core e x a q p c) {site : EvaluationSite} (hp : site.seat.participant = p)
    (he : site.seat.ensemble = e) (hq : site.pending = q)
    (hkind : p.declaration.roles.contains .verifier = (q.kind == .hardPredicate)) :
    checkSubmission f.config.limits site r = .ok () := by
  obtain ⟨-, -, -, hcriterion, hcriterionKind⟩ := h.judge
  simp only [checkSubmission, bind_eq_ok, require_eq_ok, hp, he, hq, hkind, hr.authority, hr.kind,
    hr.criterion, h.authority, hcriterion, hcriterionKind]
  refine ⟨(), ?_, (), ?_, (), ?_, (), ?_, (), ?_, (), ?_, (), ?_, ?_⟩
  · simp [planAuthority, seatAuthority, h.evaluator]
  · cases q.kind <;> rfl
  · cases q.kind <;> rfl
  · exact decide_eq_true hr.evidence
  · exact decide_eq_true hr.rationale
  · cases hdemanded : e.spec.evidence.requireRationale with
    | false => rfl
    | true => rw [hr.explained hdemanded]; rfl
  · cases hscore : r.scoreDefined with
    | false => rfl
    | true => rw [hr.score hscore]; rfl
  · rw [hr.weight.1, hr.weight.2]
    rfl

/-- An answer that nothing speaks against is taken. -/
theorem Answering.accepted (hr : Answering f.config.limits f.core e p a r)
    (hnumbered : Numbered (f.view e.spec.id)) (he : f.find e.spec.id = some e)
    (hx : e.execution = some x) (h : Backs f.core e x a q p c)
    (hrole : p.declaration.roles.contains (kindRole q.kind) = true)
    (htaken : answerTaken f.core e x p a = true) : ∃ site, acceptEvaluation f r = .ok site := by
  obtain ⟨-, -, -, -, hcriterionKind⟩ := h.judge
  rw [answerTaken, Bool.and_eq_true, Bool.and_eq_true, isOk_iff] at htaken
  obtain ⟨⟨hfits, hunrecorded⟩, hvalid⟩ := htaken
  have hkind : p.declaration.roles.contains .verifier = (q.kind == .hardPredicate) := by
    rw [hcriterionKind] at hfits
    cases hq : q.kind with
    | hardPredicate =>
      rw [hq] at hrole
      exact hrole
    | rankingSignal =>
      rw [hq] at hfits
      have hnone : p.declaration.roles.contains .verifier = false := by simpa using hfits
      exact hnone
  have hroles : (p.declaration.roles.contains .judge || p.declaration.roles.contains .verifier)
      = true := by
    cases hq : q.kind with
    | hardPredicate =>
      rw [hq] at hrole
      rw [show p.declaration.roles.contains .verifier = true from hrole, Bool.or_true]
    | rankingSignal =>
      rw [hq] at hrole
      rw [show p.declaration.roles.contains .judge = true from hrole, Bool.true_or]
  have htarget := h.target
  rw [standingTarget, Option.filter_eq_some_iff, Bool.and_eq_true, beq_iff_eq] at htarget
  obtain ⟨hc, hcgen, hcontent⟩ := htarget
  obtain ⟨seat, hseat, rfl⟩ := seat?_isSome h.seat
  obtain ⟨index, hindex⟩ := candidateAt?_isSome hc
  obtain ⟨pendingIndex, hpending⟩ := hnumbered.pendingAt? he hx h.mem
  have hat := seat?_eq_some hseat
  obtain rfl := hat.ensemble
  let site : EvaluationSite := ⟨seat, x, index, c, pendingIndex, q⟩
  have hchecked : checkSubmission f.config.limits site r = .ok () :=
    hr.checked h rfl rfl rfl hkind
  refine ⟨site, ?_⟩
  simp only [acceptEvaluation, bind_eq_ok, uncounted_eq_ok, pure_eq_ok]
  refine ⟨site, ?_, (), hchecked, (), ?_, rfl⟩
  · rw [h.authority] at hvalid
    rw [hr.authority, h.authority]
    simp only [locateEvaluation, bind_eq_ok, demand_eq_ok, located_eq_ok, uncounted_eq_ok,
      pure_eq_ok, executionNamed_eq_some, beq_iff_eq, Bool.and_eq_true, Bool.not_eq_true']
    rw [← h.evaluator] at hseat
    exact ⟨(), hvalid, (), rfl, seat.ensemble, he, (), rfl, x, ⟨hx, rfl⟩, (), rfl, seat, hseat, (),
      rfl, (), ⟨rfl, rfl⟩, (), h.served, (), ⟨by split <;> rfl, hroles⟩, (index, c), hindex, (),
      hcgen, (), hcontent, (pendingIndex, q), hpending, (), rfl, (), h.answered, (), h.abandoned,
      rfl⟩
  · rw [show site.execution = x from rfl, checkUnrecorded, (hr.unrecorded_iff h).mpr hunrecorded]

/-- An answer that is taken had nothing against it. -/
theorem Answering.taken (hr : Answering f.config.limits f.core e p a r)
    (he : f.find e.spec.id = some e) (hx : e.execution = some x) (h : Backs f.core e x a q p c)
    {site : EvaluationSite} (haccept : acceptEvaluation f r = .ok site) :
    answerTaken f.core e x p a = true := by
  have haccepted := acceptEvaluation_eq_ok haccept
  have hensemble := haccepted.ensemble
  rw [hr.authority, show (actionAuthority f.core e p a).evaluator.ensemble = e.spec.id from rfl,
    he] at hensemble
  obtain rfl := Option.some.inj hensemble
  obtain rfl := Option.some.inj (haccepted.execution.symm.trans hx)
  have hfirst := haccepted.seat.first
  rw [hr.authority, show (actionAuthority f.core site.seat.ensemble p a).evaluator.participant
    = p.id from rfl, h.evaluator, h.seat] at hfirst
  obtain rfl := Option.some.inj hfirst
  simp only [acceptEvaluation, locateEvaluation, bind_eq_ok, uncounted_eq_ok] at haccept
  obtain ⟨_, ⟨_, hvalid, -⟩, -⟩ := haccept
  rw [answerTaken, Bool.and_eq_true, Bool.and_eq_true, isOk_iff]
  refine ⟨⟨?_, (hr.unrecorded_iff h).mp haccepted.unrecorded⟩, hr.authority ▸ hvalid⟩
  cases hverifier : site.seat.participant.declaration.roles.contains .verifier with
  | false => rfl
  | true => rw [← hr.kind, haccepted.verifier.mpr hverifier]; rfl

/-- A submission that is let in is accepted. -/
theorem submitEvaluation_ok_iff :
    (submitEvaluation f r).2 = .ok r.authority.evaluation
      ↔ ∃ site, acceptEvaluation f r = .ok site := by
  unfold submitEvaluation
  cases h : acceptEvaluation f r with
  | error refusal =>
    constructor
    · intro hanswer
      cases hanswer
    · rintro ⟨_, ⟨⟩⟩
  | ok site => exact ⟨fun _ => ⟨site, rfl⟩, fun _ => rfl⟩

/-- Where an action is backed, its answer is accepted exactly when nothing
speaks against it. -/
theorem Answering.accepted_iff (hr : Answering f.config.limits f.core e p a r)
    (hnumbered : Numbered (f.view e.spec.id)) (he : f.find e.spec.id = some e)
    (hx : e.execution = some x) (h : Backs f.core e x a q p c)
    (hrole : p.declaration.roles.contains (kindRole q.kind) = true) :
    (submitEvaluation f r).2 = .ok r.authority.evaluation ↔ answerTaken f.core e x p a = true := by
  rw [submitEvaluation_ok_iff]
  refine ⟨?_, hr.accepted hnumbered he hx h hrole⟩
  rintro ⟨site, haccept⟩
  exact hr.taken he hx h haccept

end Answer

/-! ## The actions of an advance -/

/-- Withdrawing work asks for no evaluation. -/
theorem cancelInFlight_evaluate (e : EnsembleRecord) (x : ExecutionRecord)
    (a : EvaluationAction) (cs : List CandidateRecord) (core : Core) :
    .evaluate a ∉ (cancelInFlight e x cs core).2.1 := by
  intro ha
  obtain ⟨cancel, hcancel⟩ := cancelInFlight_actions ha
  cases hcancel

/-- What an advance asks for is backed in the state it leaves. -/
theorem advance_backs {f : Fabric} {id : EnsembleId} {generation : EnsembleGeneration}
    {actions : List FabricAction} {a : EvaluationAction}
    (h : (advance f id generation).2 = .ok actions) (ha : .evaluate a ∈ actions) :
    ∃ e x q p c, (advance f id generation).1.find id = some e ∧ e.execution = some x
      ∧ Backs (advance f id generation).1.core e x a q p c := by
  have hanswers := advance_answers f id generation
  generalize advance f id generation = out at h hanswers ⊢
  cases hanswers with
  | refused => cases h
  | idle | closed =>
    cases h
    cases ha
  | @withdrawn e x =>
    cases h
    exact absurd ha (cancelInFlight_evaluate e x a _ _)
  | @worked e x find named execution =>
    have hends := advanceOpen_ends f.config.limits f.core e x
    generalize advanceOpen f.config.limits f.core e x = out at h hends ⊢
    cases hends with
    | stopped => cases h
    | @settled s steps =>
      obtain rfl := Except.ok.inj h
      obtain ⟨-, q, p, c, hbacks⟩ := AdvanceState.advanceSteps_keep AdvanceState.AdvanceStep.backed
        steps (fun _ hnone => absurd hnone List.not_mem_nil) a ha
      obtain ⟨c', hc'⟩ := standingTarget_report (e := s.ensemble) hbacks.target
      exact ⟨_, _, q, p, c', Fabric.find_store_self .., rfl,
        hbacks.moves rfl rfl rfl hbacks.mem hc'⟩

/-- The state after an advance of a run. -/
def advancedRun (config : FabricConfig) (events : List Event) (id : EnsembleId)
    (generation : EnsembleGeneration) : System :=
  (System.initial config).run (events ++ [.advance id generation])

/-- In every reachable state, an answer to an evaluation the advance asks for
is accepted exactly when its evaluator is no verifier asked for a ranking
signal, its generation has not evaluated the candidate on the criterion
already, and no identity of the answer is absent. -/
theorem planned_answer_taken_iff (config : FabricConfig) (events : List Event) (id : EnsembleId)
    (generation : EnsembleGeneration) (actions : List FabricAction) (a : EvaluationAction)
    (hactions : (advance ((System.initial config).run events).fabric id generation).2
      = .ok actions) (ha : .evaluate a ∈ actions) :
    ∃ e x p, (advancedRun config events id generation).fabric.find id = some e
      ∧ e.execution = some x ∧ e.participant? a.judge = some p
      ∧ ∀ r, Answering config.limits (advancedRun config events id generation).fabric.core e p a r →
        ((submitEvaluation (advancedRun config events id generation).fabric r).2
            = .ok r.authority.evaluation
          ↔ answerTaken (advancedRun config events id generation).fabric.core e x p a = true) := by
  have hafter : (advancedRun config events id generation).fabric
      = (advance ((System.initial config).run events).fabric id generation).1 := by
    rw [advancedRun, System.run, EventSystem.run_append]
    rfl
  obtain ⟨e, x, q, p, c, he, hx, hbacks⟩ := advance_backs hactions ha
  rw [← hafter] at he hbacks
  obtain ⟨hconfig, hnamed⟩ := reachable_named config (events ++ [.advance id generation])
  have hid : e.spec.id = id := hnamed id e he
  subst hid
  have hseat : e.participant? a.judge = some p := by
    rw [hbacks.judge.1, hbacks.evaluator]
    exact hbacks.seat
  refine ⟨e, x, p, he, hx, hseat, fun r hr => ?_⟩
  refine Answering.accepted_iff ?_ ((reachable_apart config _).numbered _) he hx hbacks
    (reachable_evaluator_role config _ he hx hbacks.mem hbacks.seat)
  rw [show (advancedRun config events e.spec.id generation).fabric.config = config from hconfig]
  exact hr

/-- The answer an evaluator gives without evidence or rationale. -/
def bareAnswer (k : Core) (e : EnsembleRecord) (p : ParticipantRecord) (a : EvaluationAction) :
    EvaluationSubmission where
  authority := actionAuthority k e p a
  criterion := a.criterion
  kind := a.criterionKind

theorem bareAnswer_answering (limits : Limits) (k : Core) {e : EnsembleRecord}
    (p : ParticipantRecord) (a : EvaluationAction)
    (h : e.spec.evidence.requireRationale = false) :
    Answering limits k e p a (bareAnswer k e p a) where
  authority := rfl
  criterion := rfl
  kind := rfl
  evidence := Nat.zero_le _
  rationale := Nat.zero_le _
  explained := fun hdemanded => by rw [h] at hdemanded; cases hdemanded
  score := fun hscore => by cases hscore
  weight :=
    have hone : Double.one.isFinite = true ∧ Double.one.atMost .zero = false := by decide
    hone

namespace Sample

/-- One candidate, and one evaluator that is asked for a ranking signal. -/
def evaluatedSpec (roles : RoleSet) : EnsembleSpec where
  id := ⟨1⟩
  label := "evaluated"
  participants := [participant 1 candidateRole, participant 2 roles]
  judgingCriteria := [⟨1, 1⟩]

/-- The candidate has content. -/
def contentIn (roles : RoleSet) : List Event :=
  start (evaluatedSpec roles) ++ [content 1 1 [1]]

/-- The evaluation an action asks for. -/
def evaluation? : FabricAction → Option EvaluationAction
  | .evaluate a => some a
  | _ => none

/-- What an advance after the run asks for. -/
def asked (events : List Event) : List EvaluationAction :=
  match (EnsembleFabric.advance (reached events).fabric ⟨1⟩ ⟨1⟩).2 with
  | .ok actions => actions.filterMap evaluation?
  | .error _ => []

theorem mem_asked {events : List Event} {a : EvaluationAction} (h : a ∈ asked events) :
    ∃ actions, (EnsembleFabric.advance (reached events).fabric ⟨1⟩ ⟨1⟩).2 = .ok actions
      ∧ .evaluate a ∈ actions := by
  rw [asked] at h
  cases hactions : (EnsembleFabric.advance (reached events).fabric ⟨1⟩ ⟨1⟩).2 with
  | error => rw [hactions] at h; cases h
  | ok actions =>
    rw [hactions] at h
    obtain ⟨action, haction, heq⟩ := List.mem_filterMap.mp h
    cases action with
    | evaluate => cases heq; exact ⟨actions, rfl, haction⟩
    | _ => cases heq

end Sample

/-- Every answer of a plain judge to the evaluation it is asked for is accepted. -/
theorem judge_answer_taken :
    ∃ a ∈ Sample.asked (Sample.contentIn Sample.judgeRole), ∃ e p,
      (advancedRun {} (Sample.contentIn Sample.judgeRole) ⟨1⟩ ⟨1⟩).fabric.find ⟨1⟩ = some e
      ∧ e.participant? a.judge = some p
      ∧ ∀ r, Answering ({} : FabricConfig).limits
          (advancedRun {} (Sample.contentIn Sample.judgeRole) ⟨1⟩ ⟨1⟩).fabric.core e p a r →
        (submitEvaluation (advancedRun {} (Sample.contentIn Sample.judgeRole) ⟨1⟩ ⟨1⟩).fabric r).2
          = .ok r.authority.evaluation := by
  let s := advancedRun {} (Sample.contentIn Sample.judgeRole) ⟨1⟩ ⟨1⟩
  have hrun : (Sample.asked (Sample.contentIn Sample.judgeRole)).any (fun a =>
      (s.fabric.find ⟨1⟩).any fun e => e.execution.any fun x =>
        (e.participant? a.judge).any fun p => answerTaken s.fabric.core e x p a) = true := by
    decide +kernel
  simp only [List.any_eq_true, Option.any_eq_true] at hrun
  obtain ⟨a, ha, e, he, x, hx, p, hp, htaken⟩ := hrun
  obtain ⟨actions, hactions, hmem⟩ := Sample.mem_asked ha
  obtain ⟨e', x', p', he', hx', hp', haccepted⟩ :=
    planned_answer_taken_iff {} (Sample.contentIn Sample.judgeRole) ⟨1⟩ ⟨1⟩ actions a hactions hmem
  obtain rfl := Option.some.inj (he.symm.trans he')
  obtain rfl := Option.some.inj (hx.symm.trans hx')
  obtain rfl := Option.some.inj (hp.symm.trans hp')
  exact ⟨a, ha, e, p, he, hp, fun r hr => (haccepted r hr).mpr htaken⟩

/-- A judge that is a verifier as well is asked for a ranking signal, and its
answer is rejected: verifiers must not submit ranking signals. -/
theorem versatile_answer_rejected :
    ¬ ∀ (config : FabricConfig) (events : List Event) (id : EnsembleId)
        (generation : EnsembleGeneration) (actions : List FabricAction) (a : EvaluationAction)
        (e : EnsembleRecord) (p : ParticipantRecord) (r : EvaluationSubmission),
        (advance ((System.initial config).run events).fabric id generation).2 = .ok actions →
        .evaluate a ∈ actions →
        (advancedRun config events id generation).fabric.find id = some e →
        e.participant? a.judge = some p →
        Answering config.limits (advancedRun config events id generation).fabric.core e p a r →
        (submitEvaluation (advancedRun config events id generation).fabric r).2
          = .ok r.authority.evaluation := by
  intro h
  let roles : RoleSet := ⟨ParticipantRole.judge.bit ||| ParticipantRole.verifier.bit⟩
  let s := advancedRun {} (Sample.contentIn roles) ⟨1⟩ ⟨1⟩
  have hrun : (Sample.asked (Sample.contentIn roles)).any (fun a =>
      (s.fabric.find ⟨1⟩).any fun e => (e.participant? a.judge).any fun p =>
        !e.spec.evidence.requireRationale
          && !(submitEvaluation s.fabric (bareAnswer s.fabric.core e p a)).2.isOk) = true := by
    decide +kernel
  simp only [List.any_eq_true, Option.any_eq_true, Bool.and_eq_true, Bool.not_eq_true'] at hrun
  obtain ⟨a, ha, e, he, p, hp, hplain, hrejected⟩ := hrun
  obtain ⟨actions, hactions, hmem⟩ := Sample.mem_asked ha
  have haccepted := h {} (Sample.contentIn roles) ⟨1⟩ ⟨1⟩ actions a e p _ hactions hmem he hp
    (bareAnswer_answering _ _ p a hplain)
  rw [haccepted] at hrejected
  cases hrejected

end EnsembleFabric
