import EnsembleFabric.Refinement.Membership

/-!
# Executions refine the lifecycle

The operations that open, advance, cancel, report and commit an
execution, and the four submissions, as sequences of moves. A submission
refines the moves only under a bound that still has room for a retry, and
an accepted evaluation only within the evaluations the scope records.

Each operation has one theorem, named after it: `advance_refines`,
`commitResult_refines`, `submitEvaluation_refines`. They are assembled
from what the fences established and from lemmas about the writes behind
them. A write to a located candidate and its participant is a move
(`LocatedAt.write_moves`), whatever the submission was; the loops of an
advance were dealt with in `Refinement.Advance`.
-/

namespace EnsembleFabric

open List (Forall₂)
open Checks

variable {sc : Scope}

/-! ## Opening -/

theorem openExecution_refines (f : Fabric) (id : EnsembleId) (generation : EnsembleGeneration) :
    Refines sc f (openExecution f id generation).1 := by
  unfold openExecution
  split
  · exact .refl f
  · rename_i e hfind
    split
    · exact .refl f
    · split
      · exact .refl f
      · rename_i hlive
        split
        · exact .refl f
        · rename_i hended
          split
          · exact .refl f
          · split
            · exact .refl f
            · rename_i hlast
              refine refines_store (k := f.core) hfind ?_
              cases hx : e.execution with
              | none => exact .single (.openFirst (by simpa using hlive) hx)
              | some x =>
                refine .single (.openNext (by simpa using hlive) hx ?_ ?_)
                · simpa [EnsembleRecord.isOpen, hx] using hended
                · simpa [hx] using hlast

/-! ## Advancing -/

theorem cancelInFlight_steps (limits : Limits) (e : EnsembleRecord) (x : ExecutionRecord)
    (cs : List CandidateRecord) (k : Core) :
    Forall₂ (CandidateStep limits) cs (cancelInFlight e x cs k).1
      ∧ CoreStep k (cancelInFlight e x cs k).2.2 := by
  induction cs generalizing k with
  | nil => exact ⟨.nil, .refl k⟩
  | cons c rest ih =>
    unfold cancelInFlight
    split
    · rename_i hflight
      obtain ⟨hsteps, hcore⟩ := ih k.nextSequence.2
      exact ⟨.cons (.closed ⟨rfl, rfl, rfl⟩ hflight rfl rfl) hsteps,
        (nextSequence_step k).trans hcore⟩
    · obtain ⟨hsteps, hcore⟩ := ih k
      exact ⟨.cons (.refl limits c) hsteps, hcore⟩

theorem emitCancellation_moves (k : Core) (e : EnsembleRecord) (x : ExecutionRecord) :
    Moves sc ⟨k, some (e.holding x)⟩
      ⟨(emitCancellation k e x).2.2, some (e.holding (emitCancellation k e x).1)⟩ := by
  unfold emitCancellation
  simp only
  generalize hcounted : ({ k with
    counters := { k.counters with cancellations := k.counters.cancellations + 1 } } : Core)
    = counted
  have hstep : CoreStep k counted := by
    subst hcounted
    exact ⟨rfl, Nat.le_refl _, Nat.le_refl _⟩
  obtain ⟨hsteps, hcore⟩ := cancelInFlight_steps sc.limits e x x.candidates counted
  let cancelled : ExecutionRecord :=
    { x with candidates := (cancelInFlight e x x.candidates counted).1 }
  let abandoned : ExecutionRecord :=
    { cancelled with pending := x.pending.map fun p => { p with abandoned := true } }
  have hcancelled : ExecutionStep sc (e.holding x) x cancelled := .candidates hsteps
  have habandoned : ExecutionStep sc (e.holding cancelled) cancelled abandoned :=
    .pendings (Slots.forall₂_map fun p _ => ⟨rfl, fun _ => rfl⟩)
  have hemitted : ExecutionStep sc (e.holding abandoned) abandoned
      { abandoned with cancellationEmitted := true } :=
    .bookkeeping ⟨rfl, rfl, rfl, rfl, rfl, rfl, rfl, rfl, rfl, rfl⟩
  exact (((Moves.single (.work rfl hcancelled)).tail (.work rfl habandoned)).tail
    (.work rfl hemitted)).tail (.tick (hstep.trans hcore))

theorem closedExecution_moves {k : Core} {e : EnsembleRecord} {x : ExecutionRecord}
    (hopen : x.status = .opened) :
    Moves sc ⟨k, some (e.holding x)⟩ ⟨k, some (e.holding (closedExecution x))⟩ := by
  let withdrawn : ExecutionRecord := { x with candidates := (closedExecution x).candidates }
  have hwithdrawn : ExecutionStep sc (e.holding x) x withdrawn := by
    refine .candidates (Slots.forall₂_map fun c _ => ?_)
    split
    · rename_i h
      exact .closed ⟨rfl, rfl, rfl⟩ h rfl rfl
    · exact .refl _ c
  have hclosed : ExecutionStep sc (e.holding withdrawn) withdrawn (closedExecution x) :=
    .close hopen (.inl rfl)
  exact (Moves.single (.work rfl hwithdrawn)).tail (.work rfl hclosed)

theorem advance_refines (f : Fabric) (id : EnsembleId) (generation : EnsembleGeneration) :
    Refines sc f (advance f id generation).1 := by
  unfold advance
  split
  · exact .refl f
  · rename_i e hfind
    split
    · exact .refl f
    · split
      · exact .refl f
      · rename_i x hx
        have hself := EnsembleRecord.holding_self hx
        split
        · split
          · exact .refl f
          · exact refines_store (hself ▸ hfind) (emitCancellation_moves f.core e x)
        · rename_i hopen
          split
          · exact refines_store (k := f.core) (hself ▸ hfind) (closedExecution_moves hopen)
          · exact refines_store (hself ▸ hfind)
              (advanceOpen_moves f.config.limits f.core e x)
        · exact .refl f

/-! ## Cancellation and reports -/

theorem cancelEnsemble_refines (f : Fabric) (id : EnsembleId) (generation : EnsembleGeneration)
    (reason : String) : Refines sc f (cancelEnsemble f id generation reason).1 := by
  unfold cancelEnsemble
  split
  · exact .refl f
  · rename_i e hfind
    split
    · exact .refl f
    · split
      · exact .refl f
      · rename_i x hx
        split
        · exact .refl f
        · rename_i hundecided
          split
          · exact .refl f
          · refine refines_store (k := f.core.nextSequence.2) hfind ?_
            have hcancel : ∀ text sequence, ExecutionStep sc e x
                (cancelledExecution x text sequence) := fun _ _ =>
              .cancel (by simpa using hundecided)
                ⟨rfl, rfl, rfl, rfl, rfl, rfl, rfl, rfl, rfl, rfl⟩
            exact .tail (.single (.work hx (hcancel _ _))) (.tick (nextSequence_step f.core))

theorem prepareResult_refines (f : Fabric) (id : EnsembleId) (generation : EnsembleGeneration) :
    Refines sc f (prepareResult f id generation).1 := by
  unfold prepareResult
  split
  · exact .refl f
  · rename_i e hfind
    split
    · exact .refl f
    · split
      · exact .refl f
      · rename_i x hx
        split
        · exact .refl f
        · refine refines_store (k := f.core) hfind ?_
          rw [← EnsembleRecord.holding_self hx]
          exact computeReports_moves

/-! ## The commit gate -/

theorem countCommit_step (k : Core) (r : EnsembleResult) : CoreStep k (countCommit k r) := by
  unfold countCommit
  split <;> exact ⟨rfl, Nat.le_refl _, Nat.le_refl _⟩

theorem commitResult_refines {f : Fabric} (hlimits : sc.limits = f.config.limits)
    (r : EnsembleResult) : Refines sc f (commitResult f r).1 := by
  unfold commitResult
  split
  · exact refines_reject f _
  · rename_i e x htarget
    have hfenced := commitTarget_eq_ok htarget
    have hattempt : Moves sc ⟨f.core, some e⟩
        ⟨f.core, some (e.holding { x with commitAttempts := x.commitAttempts + 1 })⟩ :=
      .single (.work hfenced.execution
        (.bookkeeping ⟨rfl, rfl, rfl, rfl, rfl, rfl, rfl, rfl, rfl, rfl⟩))
    have hattempted : Refines sc f
        (f.store r.ensemble (e.holding { x with commitAttempts := x.commitAttempts + 1 })) :=
      refines_store (k := f.core) hfenced.ensemble hattempt
    simp only
    split
    · split
      · exact hattempted
      · exact hattempted.trans (refines_reject _ _)
    · rename_i hundecided
      split
      · exact hattempted
      · rename_i hallowed
        split
        · exact hattempted
        · rename_i rid resultIds _
          refine refines_store (k := countCommit _ _) hfenced.ensemble (hattempt.trans ?_)
          rw [← hlimits]
          have hcommit : ∀ sequence, ExecutionStep sc _ _
              (storeResult sc.limits (e.holding { x with commitAttempts := x.commitAttempts + 1 })
                { x with commitAttempts := x.commitAttempts + 1 }
                (stampedResult r rid sequence)).1 := fun _ =>
            .commit hundecided hallowed hfenced.ensembleId hfenced.generation
              hfenced.executionId.symm
          refine .tail (.single (.work rfl (hcommit _))) (.tick ?_)
          have hids : CoreStep f.core { f.core with resultIds } :=
            ⟨rfl, Nat.le_refl _, Nat.le_refl _⟩
          exact (hids.trans (nextSequence_step _)).trans (countCommit_step _ _)

/-! ## Candidate submissions -/

theorem LocatedAt.find {f : Fabric} {a : CandidateAuthority} {l : Located}
    (h : LocatedAt f a l) :
    f.find a.participant.ensemble = some (l.seat.ensemble.holding l.execution) := by
  rw [EnsembleRecord.holding_self h.fenced.execution]
  exact h.fenced.ensemble

/-- Writing back a located candidate and its participant. -/
theorem LocatedAt.write_moves {f : Fabric} {a : CandidateAuthority} {l : Located}
    {c : CandidateRecord} {p : ParticipantRecord} (h : LocatedAt f a l)
    (hc : CandidateStep sc.limits l.candidate c) (hp : SeatStep sc.bound l.seat.participant p) :
    Moves sc ⟨f.core, some l.seat.ensemble⟩ ⟨f.core, some (l.write c p)⟩ := by
  have hwork : ExecutionStep sc (l.seat.write p) l.execution
      { l.execution with candidates := l.execution.candidates.set l.index c } :=
    .candidates (set_candidates h.at_ hc)
  exact (seat_write_moves h.seat hp).tail (.work h.fenced.execution hwork)

theorem checkPayload_eq_ok {limits : Limits} {payload : List UInt8}
    (h : checkPayload limits payload = .ok ()) :
    payload.length ≤ limits.maxCandidatePayloadBytes.toNat := by
  simp only [checkPayload, bind_eq_ok, require_eq_ok, decide_eq_true_eq] at h
  obtain ⟨_, hbound, -⟩ := h
  exact hbound

/-- Output that was received is content, or closes the candidate. -/
theorem classifiedCandidate_step {limits : Limits} (evidence : EvidenceRequirement)
    {c : CandidateRecord} {payload : List UInt8} (received : Sequence) (budget : UInt32)
    (hstate : c.state = .dispatched)
    (hbound : payload.length ≤ limits.maxCandidatePayloadBytes.toNat) :
    CandidateStep limits c
      (classifiedCandidate evidence (receivedCandidate c payload received budget)) := by
  unfold classifiedCandidate
  split
  · exact .closed ⟨rfl, rfl, rfl⟩ (by simp [CandidateRecord.inFlight, hstate, permitsOutput])
      rfl rfl
  · rename_i hwell
    refine .received ⟨rfl, rfl, rfl⟩ hstate rfl ⟨?_, hbound, rfl⟩
    rintro rfl
    simp [malformedOutput, receivedCandidate] at hwell

theorem submitCandidate_refines {f : Fabric} (hlimits : sc.limits = f.config.limits)
    (s : CandidateSubmission) : Refines sc f (submitCandidate f s).1 := by
  unfold submitCandidate
  split
  · exact refines_reject f _
  · rename_i l haccept
    obtain ⟨hlocated, hstate⟩ := acceptCandidate_eq_ok haccept
    split
    · exact .refl f
    · rename_i hpayload
      refine refines_store (k := f.core.nextSequence.2) hlocated.fenced.ensemble
        (.tail (hlocated.write_moves ?_ ?_) (.tick (nextSequence_step f.core)))
      · refine classifiedCandidate_step _ _ _ hstate ?_
        rw [hlimits]
        exact checkPayload_eq_ok hpayload
      · split <;> exact .kept ⟨rfl, rfl, rfl, rfl, rfl, rfl, rfl⟩ rfl rfl

theorem submitCandidateFailure_refines {f : Fabric} (hfits : FitsBound sc.bound f)
    (s : CandidateFailureSubmission) : Refines sc f (submitCandidateFailure f s).1 := by
  unfold submitCandidateFailure
  split
  · exact refines_reject f _
  · rename_i l haccept
    obtain ⟨hlocated, hstate⟩ := acceptCandidate_eq_ok haccept
    have hflight : l.candidate.inFlight = true := by
      simp [CandidateRecord.inFlight, hstate, permitsOutput]
    split
    · exact .refl f
    · simp only
      split
      · refine refines_store (k := f.core) hlocated.find ?_
        exact rewindCandidateForRetry_moves hlocated.at_ hflight (.refl _)
          ((hfits _ _ hlocated.fenced.ensemble).2 _ hlocated.fenced.execution _
            (List.mem_of_getElem? hlocated.at_))
      · refine refines_store (k := f.core) hlocated.find ?_
        exact AdvanceState.failCandidate_moves _ _ hlocated.at_ hflight

theorem submitCandidateAbstention_refines (f : Fabric) (s : CandidateAbstentionSubmission) :
    Refines sc f (submitCandidateAbstention f s).1 := by
  unfold submitCandidateAbstention
  split
  · exact refines_reject f _
  · rename_i l haccept
    obtain ⟨hlocated, hstate⟩ := acceptCandidate_eq_ok haccept
    refine refines_store (k := f.core.nextSequence.2) hlocated.fenced.ensemble
      (.tail (hlocated.write_moves ?_ ?_) (.tick (nextSequence_step f.core)))
    · exact .closed ⟨rfl, rfl, rfl⟩ (by simp [CandidateRecord.inFlight, hstate, permitsOutput])
        rfl rfl
    · exact .kept ⟨rfl, rfl, rfl, rfl, rfl, rfl, rfl⟩ rfl rfl

/-! ## Evaluations -/

/-- The record an accepted evaluation becomes. -/
def acceptedRecord (f : Fabric) (s : EvaluationSubmission) (site : EvaluationSite) :
    EvaluationRecord :=
  recordedEvaluation f.config.limits f.core.epoch site s f.core.nextSequence.1

/-- The scope allows what the submission would record. -/
def AllowsRecord (sc : Scope) (f : Fabric) (s : EvaluationSubmission) : Prop :=
  ∀ site, acceptEvaluation f s = .ok site →
    sc.records site.seat.ensemble site.execution (acceptedRecord f s site)

theorem EvaluationAccepted.answers {f : Fabric} {s : EvaluationSubmission}
    {site : EvaluationSite} (h : EvaluationAccepted f s site) :
    Answers site.seat.ensemble site.pending (acceptedRecord f s site) where
  candidate := h.candidateTarget.symm
  candidateGeneration := h.generationTarget.symm
  criterion := h.criterion.symm
  kind := h.kind.symm
  current := rfl
  verifier := by
    have hfirst := h.seat.first
    simpa [acceptedRecord, recordedEvaluation, holdsRole, hfirst] using h.verifier

/-- An accepted evaluation is recorded, its plan answered, and the counters
of its candidate and its evaluator move. -/
theorem EvaluationAccepted.moves {f : Fabric} {s : EvaluationSubmission}
    {site : EvaluationSite} {p : ParticipantRecord} (h : EvaluationAccepted f s site)
    (hrecord : sc.records site.seat.ensemble site.execution (acceptedRecord f s site))
    (hp : SeatStep sc.bound site.seat.participant p) :
    Moves sc ⟨f.core, some site.seat.ensemble⟩
      ⟨f.core, some ((site.seat.write p).holding
        (evaluatedExecution site (acceptedRecord f s site)))⟩ := by
  let answered : ExecutionRecord :=
    { site.execution with
      evaluations := site.execution.evaluations ++ [acceptedRecord f s site]
      pending := site.execution.pending.set site.pendingIndex
        { site.pending with answered := true } }
  have hanswered : ExecutionStep sc site.seat.ensemble site.execution answered :=
    .evaluate h.pendingAt h.unanswered h.answers hrecord
  have hcounted : ExecutionStep sc (site.seat.ensemble.holding answered) answered
      (evaluatedExecution site (acceptedRecord f s site)) :=
    .candidates (set_candidates h.candidateAt (.kept ⟨rfl, rfl, rfl⟩ rfl rfl rfl))
  have hwork := (Moves.single (Move.work (k := f.core) h.execution hanswered)).tail
    (.work rfl hcounted)
  exact hwork.tail (.seats (Slots.forall₂_set (.refl sc.bound) h.seat.get hp))

theorem submitEvaluation_refines {f : Fabric} {s : EvaluationSubmission}
    (hrecord : AllowsRecord sc f s) : Refines sc f (submitEvaluation f s).1 := by
  unfold submitEvaluation
  split
  · exact refines_reject f _
  · rename_i site haccept
    have haccepted := acceptEvaluation_eq_ok haccept
    have hseat : SeatStep sc.bound site.seat.participant
        { site.seat.participant with
          evaluationsSubmitted := site.seat.participant.evaluationsSubmitted + 1 } :=
      .kept ⟨rfl, rfl, rfl, rfl, rfl, rfl, rfl⟩ rfl rfl
    exact refines_store (k := f.core.nextSequence.2) haccepted.ensemble
      (.tail (haccepted.moves (hrecord site haccept) hseat) (.tick (nextSequence_step f.core)))

end EnsembleFabric
