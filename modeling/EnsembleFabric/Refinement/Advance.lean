import EnsembleFabric.Lifecycle
import EnsembleFabric.Library.Threaded

/-!
# Advancing refines the lifecycle

Every part of `advance` is a sequence of lifecycle moves, whether it
completes or stops at a resource bound. One lemma per part of the source;
the loops are put together with the rules of `Threaded`.

The state of an advance is seen as the view of its ensemble
(`AdvanceState.view`), with the execution written back. A write to a
candidate or to a plan is then one move (`view_setCandidate`,
`view_setPending`), provided that the slot takes a step of the lifecycle,
and this proviso is what the lemmas about the parts discharge:
`dispatchCandidate_moves`, `strandCandidate_moves`, `planOne_moves`,
`emitOne_moves`. Planning needs the specification in force, since a move
may only plan what it asks for; `MovesUnder` carries it through the fold.
-/

namespace EnsembleFabric

open List (Forall₂)
open Threaded

variable {sc : Scope}

/-! ## Shared steps -/

theorem nextSequence_step (k : Core) : CoreStep k k.nextSequence.2 := by
  unfold Core.nextSequence
  split <;> exact ⟨rfl, Nat.le_refl _, Nat.le_refl _⟩

theorem count_step (k : Core) (t : Tally) : CoreStep k (k.count t) :=
  ⟨rfl, Nat.le_refl _, Nat.le_refl _⟩

/-- Accounting for a participant keeps every seat. -/
theorem tallyParticipant_seats {bound : Nat} {ps : List ParticipantRecord} {id : ParticipantId}
    {change : ParticipantRecord → ParticipantRecord}
    (h : ∀ p, SeatStep bound p (change p)) :
    Forall₂ (SeatStep bound) ps (tallyParticipant ps id change) := by
  refine Slots.forall₂_map fun p _ => ?_
  split
  · exact h p
  · exact .refl bound p

theorem set_candidates {limits : Limits} {x : ExecutionRecord} {index : Nat}
    {c c' : CandidateRecord} (hc : x.candidates[index]? = some c)
    (h : CandidateStep limits c c') :
    Forall₂ (CandidateStep limits) x.candidates (x.candidates.set index c') :=
  Slots.forall₂_set (.refl limits) hc h

/-- A candidate with its elimination text rewritten. -/
theorem markElimination_step (limits : Limits) (ranking : List CandidateRanking)
    (c : CandidateRecord) : CandidateStep limits c (markElimination ranking c) := by
  rw [markElimination_eq ranking c]
  exact .kept ⟨rfl, rfl, rfl⟩ rfl rfl rfl

namespace AdvanceState

/-- The ensemble an advance works on, as a view. -/
def view (s : AdvanceState) : View := ⟨s.core, some (s.ensemble.holding s.execution)⟩

/-- One state of an advance reaches another by moves. The relation is reflexive
and transitive, which is what the rules for folds and sequences ask for. -/
def Reaches (sc : Scope) (s s' : AdvanceState) : Prop := Moves sc s.view s'.view

theorem Reaches.refl (s : AdvanceState) : Reaches sc s s := Relation.ReflTransGen.refl

theorem Reaches.trans {a b c : AdvanceState} (h : Reaches sc a b) (h' : Reaches sc b c) :
    Reaches sc a c :=
  Relation.ReflTransGen.trans h h'

theorem view_work {s : AdvanceState} {x' : ExecutionRecord}
    (h : ExecutionStep sc (s.ensemble.holding s.execution) s.execution x') :
    Moves sc s.view { s with execution := x' }.view :=
  .single (.work rfl h)

theorem view_core {s : AdvanceState} {k' : Core} (h : CoreStep s.core k') :
    Moves sc s.view { s with core := k' }.view :=
  .single (.tick h)

theorem view_setCandidate {s : AdvanceState} {index : Nat} {c c' : CandidateRecord}
    (hc : s.execution.candidates[index]? = some c) (h : CandidateStep sc.limits c c') :
    Moves sc s.view (s.setCandidate index c').view :=
  view_work (.candidates (set_candidates hc h))

theorem view_setPending {s : AdvanceState} {index : Nat} {p p' : PendingEvaluation}
    (hp : s.execution.pending[index]? = some p) (h : PendingStep p p') :
    Moves sc s.view (s.setPending index p').view :=
  view_work (.pendings (Slots.forall₂_set .refl hp h))

theorem setCandidate_get {s : AdvanceState} {index : Nat} {c : CandidateRecord}
    (hc : s.execution.candidates[index]? = some c) (c' : CandidateRecord) :
    (s.setCandidate index c').execution.candidates[index]? = some c' := by
  obtain ⟨hlt, -⟩ := List.getElem?_eq_some_iff.mp hc
  simp [setCandidate, hlt]

/-! ## Stages -/

theorem declareMember_moves (limits : Limits) (stage : StageSpec) (s : AdvanceState)
    (id : ParticipantId) : Moves sc s.view (final (declareMember limits stage s id)).view := by
  unfold declareMember
  split
  · exact .refl
  · split
    · exact .refl
    · split
      · exact .refl
      · split
        · exact .refl
        · rename_i candidateId ids hids
          exact .single (.declare rfl hids rfl rfl)

theorem declareStage_moves (limits : Limits) (stage : StageSpec) (s : AdvanceState) :
    Moves sc s.view (final (declareStage limits stage s)).view := by
  unfold declareStage
  split
  · exact .refl
  · refine final_bind (R := Reaches sc) Reaches.trans ?_ ?_
    · exact final_foldlM (R := Reaches sc) Reaches.refl
        Reaches.trans (fun s id _ => declareMember_moves limits stage s id) s
    · intro m _
      exact view_work (.bookkeeping ⟨rfl, rfl, rfl, rfl, rfl, rfl, rfl, rfl, rfl, rfl⟩)

theorem dispatchCandidate_moves {s : AdvanceState} {index : Nat} {c : CandidateRecord}
    (p : ParticipantRecord) (hc : s.execution.candidates[index]? = some c)
    (hstate : c.state = .declared) :
    Moves sc s.view (s.dispatchCandidate index c p).view := by
  have hset : Moves sc s.view
      (s.setCandidate index (dispatchedCandidate s.core p s.core.nextSequence.1 c)).view :=
    view_setCandidate hc (.dispatched ⟨rfl, rfl, rfl⟩ hstate rfl)
  exact hset.trans (view_core (nextSequence_step s.core))

/-- `fail_candidate` on a candidate in flight. -/
theorem failCandidate_moves {k : Core} {e : EnsembleRecord} {x : ExecutionRecord} {index : Nat}
    {c : CandidateRecord} (failure : EnsembleError) (detail : String)
    (hc : x.candidates[index]? = some c) (hflight : c.inFlight = true) :
    Moves sc ⟨k, some (e.holding x)⟩
      ⟨k, some ((failCandidate e x index c failure detail).1.holding
        (failCandidate e x index c failure detail).2)⟩ := by
  have hseats : Moves sc ⟨k, some (e.holding x)⟩
      ⟨k, some ((failCandidate e x index c failure detail).1.holding x)⟩ :=
    .single (.seats
      (tallyParticipant_seats fun p => .kept ⟨rfl, rfl, rfl, rfl, rfl, rfl, rfl⟩ rfl rfl))
  refine hseats.trans (.single (.work rfl ?_))
  exact .drop hc hflight ⟨rfl, rfl, rfl⟩ rfl

theorem strandCandidate_moves {s : AdvanceState} {index : Nat} {c : CandidateRecord}
    (p : ParticipantRecord) (hc : s.execution.candidates[index]? = some c)
    (hstate : c.state = .declared) :
    Moves sc s.view (s.strandCandidate index c p).view := by
  unfold strandCandidate
  split
  · exact .refl
  · exact failCandidate_moves _ _ hc (by simp [CandidateRecord.inFlight, hstate])

/-- The state a dispatch step ends in. -/
def DispatchNext.state : DispatchNext → AdvanceState
  | .proceed _ s => s
  | .stop s => s

theorem dispatchOne_moves (stage : StageSpec) (dispatchedAny : Bool) (s : AdvanceState)
    (index : Nat) : Moves sc s.view (dispatchOne stage dispatchedAny s index).state.view := by
  unfold dispatchOne
  split
  · exact .refl
  · rename_i c hc
    split
    · exact .refl
    · rename_i hguard
      have hstate : c.state = .declared := by
        by_contra h
        exact hguard (Or.inr h)
      split
      · exact .refl
      · rename_i p _
        have hadopt : Moves sc s.view
            (s.setCandidate index { c with participantGeneration := p.generation }).view :=
          view_setCandidate hc (.kept ⟨rfl, rfl, rfl⟩ rfl rfl rfl)
        refine hadopt.trans ?_
        have hc' := setCandidate_get hc { c with participantGeneration := p.generation }
        simp only
        split
        · exact strandCandidate_moves p hc' hstate
        · split
          · exact .refl
          · split
            · exact dispatchCandidate_moves p hc' hstate
            · exact dispatchCandidate_moves p hc' hstate

theorem dispatchLoop_moves (stage : StageSpec) (indices : List Nat) (dispatchedAny : Bool)
    (s : AdvanceState) : Moves sc s.view (dispatchLoop stage indices dispatchedAny s).view := by
  induction indices generalizing dispatchedAny s with
  | nil => exact .refl
  | cons index rest ih =>
    have hone : Reaches sc s (dispatchOne stage dispatchedAny s index).state :=
      dispatchOne_moves stage dispatchedAny s index
    unfold dispatchLoop
    split
    · rename_i dispatched s' heq
      rw [heq] at hone
      exact hone.trans (ih dispatched s')
    · rename_i s' heq
      rw [heq] at hone
      exact hone

theorem stageLoop_moves (limits : Limits) (stages : List StageSpec) (s : AdvanceState) :
    Moves sc s.view (final (stageLoop limits stages s)).view := by
  induction stages generalizing s with
  | nil => exact .refl
  | cons stage rest ih =>
    unfold stageLoop
    refine final_bind (R := Reaches sc) Reaches.trans
      (declareStage_moves limits stage s) fun m _ => ?_
    have hdispatch : Moves sc m.view (dispatchStage stage m).view :=
      dispatchLoop_moves stage _ false m
    simp only
    split
    · refine hdispatch.trans (.trans ?_ (ih _))
      exact view_work (.bookkeeping ⟨rfl, rfl, rfl, rfl, rfl, rfl, rfl, rfl, rfl, rfl⟩)
    · exact hdispatch

/-! ## Evaluations -/

theorem reopenPlanning_moves (s : AdvanceState) : Moves sc s.view s.reopenPlanning.view := by
  unfold reopenPlanning
  split
  · exact view_work (.bookkeeping ⟨rfl, rfl, rfl, rfl, rfl, rfl, rfl, rfl, rfl, rfl⟩)
  · exact .refl

/-- Hard predicates are planned for mandatory criteria only. -/
theorem planTargets_mandatory {spec : EnsembleSpec} {candidates : List CandidateRecord}
    {t : PlanTarget} (ht : t ∈ planTargets spec candidates) (hkind : t.kind = .hardPredicate) :
    t.criterion ∈ spec.evidence.mandatoryCriteria := by
  simp only [planTargets, List.mem_flatMap] at ht
  obtain ⟨c, -, evaluator, -, ht⟩ := ht
  simp only [evaluatorTargets, List.mem_append] at ht
  rcases ht with ht | ht
  · split at ht
    · obtain ⟨criterion, hcriterion, rfl⟩ := List.mem_map.mp ht
      exact hcriterion
    · simp at ht
  · split at ht
    · obtain ⟨criterion, -, rfl⟩ := List.mem_map.mp ht
      simp at hkind
    · simp at ht

/-- Moves that keep the specification, started under it. -/
def MovesUnder (sc : Scope) (spec : EnsembleSpec) (s s' : AdvanceState) : Prop :=
  s.ensemble.spec = spec → Moves sc s.view s'.view ∧ s'.ensemble.spec = spec

theorem MovesUnder.refl (spec : EnsembleSpec) (s : AdvanceState) : MovesUnder sc spec s s :=
  fun h => ⟨.refl, h⟩

theorem MovesUnder.trans {spec : EnsembleSpec} {a b c : AdvanceState}
    (h : MovesUnder sc spec a b) (h' : MovesUnder sc spec b c) : MovesUnder sc spec a c := by
  intro ha
  obtain ⟨hab, hb⟩ := h ha
  obtain ⟨hbc, hc⟩ := h' hb
  exact ⟨hab.trans hbc, hc⟩

theorem planOne_moves {spec : EnsembleSpec} {t : PlanTarget}
    (ht : t.kind = .hardPredicate → t.criterion ∈ spec.evidence.mandatoryCriteria)
    (s : AdvanceState) : MovesUnder sc spec s (final (planOne s t)) := by
  intro hspec
  unfold planOne
  split
  · exact ⟨.refl, hspec⟩
  · rename_i id ids hids
    refine ⟨.single (.plan rfl hids rfl fun hkind => ?_), hspec⟩
    rw [EnsembleRecord.holding_spec, hspec]
    exact ht hkind

/-- Planning every target of the specification in force. -/
theorem planAll_moves {spec : EnsembleSpec} (candidates : List CandidateRecord)
    (s : AdvanceState) :
    MovesUnder sc spec s (final ((planTargets spec candidates).foldlM planOne s)) := by
  refine final_foldlM (MovesUnder.refl _) MovesUnder.trans (fun s' t ht => ?_) s
  exact planOne_moves (fun hkind => planTargets_mandatory ht hkind) s'

theorem planEvaluations_moves (s : AdvanceState) :
    Moves sc s.view (final (planEvaluations s)).view := by
  unfold planEvaluations
  split
  · exact .refl
  · refine final_bind (R := Reaches sc) Reaches.trans ?_ fun m _ => Relation.ReflTransGen.refl
    have hmark : Reaches sc s
        { s with execution := { s.execution with planningComplete := true } } :=
      view_work (.bookkeeping ⟨rfl, rfl, rfl, rfl, rfl, rfl, rfl, rfl, rfl, rfl⟩)
    exact hmark.trans (planAll_moves s.execution.candidates
      { s with execution := { s.execution with planningComplete := true } } rfl).1

theorem abandonPending_moves {s : AdvanceState} {index : Nat} {p : PendingEvaluation}
    (hp : s.execution.pending[index]? = some p) :
    Moves sc s.view (s.abandonPending index p).view :=
  view_setPending hp ⟨rfl, fun _ => rfl⟩

theorem emitOne_moves (s : AdvanceState) (index : Nat) :
    Moves sc s.view (emitOne s index).view := by
  unfold emitOne
  split
  · exact .refl
  · rename_i p hp
    split
    · exact .refl
    · split
      · exact abandonPending_moves hp
      · split
        · exact abandonPending_moves hp
        · split
          · split
            · exact .refl
            · exact abandonPending_moves hp
          · split
            · exact abandonPending_moves hp
            · have hemit : Moves sc s.view (s.setPending index { p with emitted := true }).view :=
                view_setPending hp ⟨rfl, fun h => h⟩
              exact hemit.trans (view_core (nextSequence_step s.core))

theorem emitEvaluations_moves (s : AdvanceState) : Moves sc s.view s.emitEvaluations.view :=
  foldl_related (R := Reaches sc) Reaches.refl
    Reaches.trans (fun s index _ => emitOne_moves s index) s

end AdvanceState

/-- Recomputing the reports is bookkeeping and elimination texts. -/
theorem computeReports_moves {k : Core} {e : EnsembleRecord} {x : ExecutionRecord} :
    Moves sc ⟨k, some (e.holding x)⟩ ⟨k, some (e.holding (computeReports e x))⟩ := by
  have hbook : Moves sc ⟨k, some (e.holding x)⟩
      ⟨k, some (e.holding { computeReports e x with candidates := x.candidates })⟩ :=
    .single (.work rfl (.bookkeeping ⟨rfl, rfl, rfl, rfl, rfl, rfl, rfl, rfl, rfl, rfl⟩))
  refine hbook.trans (.single (.work rfl ?_))
  exact .candidates (Slots.forall₂_map fun c _ => markElimination_step _ _ c)

namespace AdvanceState

theorem report_moves (s : AdvanceState) : Moves sc s.view s.report.view :=
  computeReports_moves

/-! ## Fallback -/

theorem activatedParticipants_seats (bound : Nat) (e : EnsembleRecord) (id : ParticipantId) :
    Forall₂ (SeatStep bound) e.participants (activatedParticipants e id) := by
  unfold activatedParticipants
  split
  · exact List.forall₂_same.mpr fun p _ => .refl bound p
  · exact Slots.forall₂_modify (.refl bound)
      (fun p => .kept ⟨rfl, rfl, rfl, rfl, rfl, rfl, rfl⟩ rfl rfl) _ _

theorem activateMember_moves (trigger : FallbackTrigger) (s : AdvanceState) (id : ParticipantId) :
    Moves sc s.view (activateMember trigger s id).view := by
  have hcore : Reaches sc s { s with core := s.core.nextSequence.2 } :=
    view_core (nextSequence_step s.core)
  exact hcore.trans (.single (.seats (activatedParticipants_seats sc.bound s.ensemble id)))

theorem requestFallback_moves (s : AdvanceState) : Reaches sc s s.requestFallback := by
  have hwork : Reaches sc s { s with execution := s.requestFallback.execution } :=
    view_work (.bookkeeping ⟨rfl, rfl, rfl, rfl, rfl, rfl, rfl, rfl, rfl, rfl⟩)
  exact hwork.trans (.single (.tick ⟨rfl, Nat.le_refl _, Nat.le_refl _⟩))

theorem activateFallback_moves (s : AdvanceState) : Moves sc s.view s.activateFallback.view := by
  unfold activateFallback
  split
  · exact .refl
  · rename_i trigger _
    exact (requestFallback_moves s).trans (foldl_related (R := Reaches sc) Reaches.refl
      Reaches.trans (fun s id _ => activateMember_moves trigger s id) s.requestFallback)

/-! ## Rounds -/

theorem evaluationPhase_moves (s : AdvanceState) :
    Moves sc s.view (final (evaluationPhase s)).view := by
  unfold evaluationPhase
  refine final_bind (R := Reaches sc) Reaches.trans
    ((reopenPlanning_moves s).trans (planEvaluations_moves _)) fun m _ => ?_
  exact (emitEvaluations_moves m).trans ((report_moves _).trans (activateFallback_moves _))

theorem advanceRound_moves (limits : Limits) (s : AdvanceState) :
    Moves sc s.view (final (advanceRound limits s)).view := by
  unfold advanceRound
  refine final_bind (R := Reaches sc) Reaches.trans
    (stageLoop_moves limits _ s) fun m _ => ?_
  split
  · exact evaluationPhase_moves m
  · exact Reaches.refl m

theorem advanceLoop_moves (limits : Limits) (fuel : Nat) (s : AdvanceState) :
    Moves sc s.view (final (advanceLoop limits fuel s)).view := by
  induction fuel generalizing s with
  | zero => exact .refl
  | succ fuel ih =>
    unfold advanceLoop
    split
    · exact final_bind (R := Reaches sc) Reaches.trans
        (advanceRound_moves limits { s with progress := false }) fun m _ => ih m
    · exact .refl

end AdvanceState

/-- An advance of an open execution is a sequence of moves. -/
theorem advanceOpen_moves (limits : Limits) (core : Core) (e : EnsembleRecord)
    (x : ExecutionRecord) :
    Moves sc ⟨core, some (e.holding x)⟩ (advanceOpen limits core e x).1.view := by
  have hloop : AdvanceState.Reaches sc { core, ensemble := e, execution := x, progress := true }
      (final (AdvanceState.advanceLoop limits 64
        { core, ensemble := e, execution := x, progress := true })) :=
    AdvanceState.advanceLoop_moves limits 64 _
  unfold advanceOpen
  simp only
  split
  · rename_i heq
    rw [heq] at hloop
    exact hloop
  · rename_i s heq
    rw [heq] at hloop
    exact hloop.trans s.report_moves

end EnsembleFabric
