import EnsembleFabric.Reporting
import EnsembleFabric.System

/-!
# Reports on unchanged evidence

Reporting twice compares a report with its successor. Quorum and
arbitration read the evidence only, so their verdicts repeat. Consensus
asks a used-up fallback policy whether it still demands a fallback, and the
trigger `judgeDisagreement` answers from the consensus of the report before:
a disagreement that is reported as FALLBACK_REQUIRED is no disagreement to
the next report, which then reports the disagreement again.

`DisputedFallback` is exactly the situation in which this happens. In it the
two outcomes take turns (`DisputedFallback.alternates`); in any other one
the second report repeats the first (`consensus_repeats`).

> reports_steady_iff : reporting twice on the same evidence gives the same
> verdicts, exactly unless disputed votes ask for a used-up fallback.

The argument needs to know how much the outcome depends on the demand for a
fallback: only where the demand is what is reported
(`consensusOutcome_cases`). The other triggers read the evidence and the
quorum and answer the second report as they answered the first one. The
numbers of the two reports differ, and `SameReports` leaves them out.
-/

namespace EnsembleFabric

open Precedence

/-! ## Arbitration -/

section Numbered

variable (r : ArbitrationReport) (s : Sequence)

theorem selectFirst_numbered (c : ArbitrationCandidateInput) (notes : List String) :
    ({ r with computedSequence := s } : ArbitrationReport).selectFirst c notes
      = { r.selectFirst c notes with computedSequence := s } := rfl

theorem selectWinner_numbered (policy : ArbitrationPolicy) (winner : ArbitrationCandidateInput)
    (others : List ArbitrationCandidateInput) :
    selectWinner policy { r with computedSequence := s } winner others
      = { selectWinner policy r winner others with computedSequence := s } := by
  unfold selectWinner
  cases others with
  | nil => exact selectFirst_numbered r s _ _
  | cons second rest =>
    dsimp only
    split
    · split
      · rfl
      · rfl
      · split <;> rfl
      · split <;> rfl
    · rfl

end Numbered

/-- The number of a report is all that arbitration takes from it. -/
theorem arbitrate_numbered (inputs : ArbitrationInputs) (s : Sequence) :
    arbitrate { inputs with sequence := s }
      = { arbitrate inputs with computedSequence := s } := by
  have heligibility : ArbitrationInputs.eligibility { inputs with sequence := s }
      = inputs.eligibility := rfl
  have hrank : rankCandidate { inputs with sequence := s } = rankCandidate inputs := rfl
  unfold arbitrate
  simp only [heligibility, hrank]
  split
  · rfl
  · rw [← selectWinner_numbered]

theorem computeReports_arbitration (e : EnsembleRecord) (x : ExecutionRecord) :
    (computeReports e x).arbitration
      = { arbitrate (arbitrated e x) with computedSequence := ⟨x.reportGeneration + 1⟩ } :=
  arbitrate_numbered (arbitrated e x) ⟨x.reportGeneration + 1⟩

/-- A second report arbitrates as the first one did. -/
theorem computeReports_arbitration_again (e : EnsembleRecord) (x : ExecutionRecord) :
    (computeReports e (computeReports e x)).arbitration
      = { (computeReports e x).arbitration with
          computedSequence := ⟨(computeReports e x).reportGeneration + 1⟩ } := by
  have hsame : arbitrated e (computeReports e x) = arbitrated e x := by
    rw [← arbitrated_unreported, computeReports_unreported, arbitrated_unreported]
  rw [computeReports_arbitration, computeReports_arbitration, hsame]

/-! ## Consensus -/

/-- The consensus states the trigger `judgeDisagreement` looks for. -/
def ConsensusState.disputed : ConsensusState → Bool
  | .disagreement | .tie | .insufficientEvidence => true
  | _ => false

theorem fallbackTriggerFires_judgeDisagreement (e : EnsembleRecord) (x : ExecutionRecord) :
    fallbackTriggerFires .judgeDisagreement e x = x.consensus.state.disputed := by
  simp only [fallbackTriggerFires]
  cases x.consensus.state <;> rfl

/-- The votes never ask for a fallback. -/
theorem voteOutcome_ne_fallbackRequired (inputs : ConsensusInputs) (count : Nat)
    (leader : CandidateTally) (runnerUp : Nat) :
    voteOutcome inputs count leader runnerUp ≠ .fallbackRequired := by
  unfold voteOutcome
  split
  · split
    · simp
    · split <;> simp
  · split
    · split <;> simp
    · split
      · simp
      · split
        · simp
        · split <;> simp

/-- The outcome depends on the fallback demand only where it is reported. -/
theorem consensusOutcome_cases (e : EnsembleRecord) (x : ExecutionRecord) :
    consensusOutcome e x false ≠ .fallbackRequired
      ∧ (consensusOutcome e x true = consensusOutcome e x false
        ∨ consensusOutcome e x true = .fallbackRequired) := by
  simp only [consensusOutcome, computeConsensus_eq_state, consensusState]
  split
  · simp
  split
  · simp
  split
  · simp
  split
  · simp
  split
  · simp
  split
  · split <;> simp
  · refine ⟨?_, .inr rfl⟩
    rw [if_neg Bool.false_ne_true]
    split
    · simp
    · exact voteOutcome_ne_fallbackRequired _ _ _ _

/-! ## The demand for a fallback -/

/-- A trigger other than `judgeDisagreement` fires. -/
def otherTrigger (e : EnsembleRecord) (x : ExecutionRecord) : Bool :=
  e.spec.fallback.triggers.any fun t =>
    t != .judgeDisagreement && fallbackTriggerFires t e (withQuorum e x)

/-- The fallback policy is used up and has produced no content. -/
def fallbackUsedUp (e : EnsembleRecord) (x : ExecutionRecord) : Bool :=
  e.spec.fallback.enabled && decide (e.spec.fallback.maxDepth ≤ x.fallbackDepth)
    && !fallbackContent x

theorem any_trigger (triggers : List FallbackTrigger) (fires : FallbackTrigger → Bool) :
    triggers.any fires
      = (triggers.any (fun t => t != .judgeDisagreement && fires t)
        || (triggers.contains .judgeDisagreement && fires .judgeDisagreement)) := by
  induction triggers with
  | nil => rfl
  | cons t rest ih =>
    rw [List.any_cons, List.any_cons, List.contains_cons, ih]
    by_cases ht : t = .judgeDisagreement
    · subst ht
      cases fires .judgeDisagreement <;> simp
    · have hne : (FallbackTrigger.judgeDisagreement == t) = false := by
        simpa using fun heq => ht heq.symm
      rw [hne, bne_iff_ne.mpr ht, Bool.true_and, Bool.false_or, Bool.or_assoc]

/-- Only `judgeDisagreement` looks at the consensus of the report before. -/
theorem fallbackRequired_withQuorum (e : EnsembleRecord) (x : ExecutionRecord) :
    fallbackRequired e (withQuorum e x)
      = (fallbackUsedUp e x
        && (otherTrigger e x
          || (e.spec.fallback.triggers.contains .judgeDisagreement
            && x.consensus.state.disputed))) := by
  rw [← fallbackTriggerFires_judgeDisagreement e]
  exact congrArg (fallbackUsedUp e x && ·)
    (any_trigger e.spec.fallback.triggers fun t => fallbackTriggerFires t e (withQuorum e x))

theorem otherTrigger_computeReports (e : EnsembleRecord) (x : ExecutionRecord) :
    otherTrigger e (computeReports e x) = otherTrigger e x := by
  refine congrArg e.spec.fallback.triggers.any (funext fun t => ?_)
  by_cases ht : t = .judgeDisagreement
  · simp [ht]
  · -- no other trigger sees that the consensus is taken away
    let blank := fun y : ExecutionRecord => { withQuorum e y with consensus := {} }
    have hblank : ∀ y, fallbackTriggerFires t e (withQuorum e y)
        = fallbackTriggerFires t e (blank y) := fun y => by
      cases t <;> first | rfl | exact absurd rfl ht
    have hunreported : (blank (computeReports e x)).unreported = (blank x).unreported :=
      computeReports_unreported e x
    have hquorum : (blank (computeReports e x)).quorum.state = (blank x).quorum.state :=
      computeReports_quorum_eq (e := e) (computeReports_unreported e x)
    rw [hblank, hblank, fallbackTriggerFires_eq hunreported hquorum rfl]

theorem fallbackUsedUp_computeReports (e : EnsembleRecord) (x : ExecutionRecord) :
    fallbackUsedUp e (computeReports e x) = fallbackUsedUp e x := by
  rw [fallbackUsedUp, computeReports_fallbackContent]
  rfl

/-! ## Two reports -/

/-- What the reports decide. -/
def decision (e : EnsembleRecord) (x : ExecutionRecord) : EnsembleDecision :=
  decisionFor x.consensus.state (hasSelection e x)

/-- The part of a prepared result that the reports decide. -/
def EnsembleResult.verdict (r : EnsembleResult) :
    QuorumState × ConsensusState × CandidateId × EnsembleDecision :=
  (r.quorum.state, r.consensus.state, r.arbitration.selected, r.decision)

/-- Reports agree with the reports computed right after them, and so do the
results that two preparations return. Numbers and texts that count reports are
left out. -/
structure SameReports (limits : Limits) (e : EnsembleRecord) (once twice : ExecutionRecord) :
    Prop where
  quorum : twice.quorum.state = once.quorum.state
  consensus : twice.consensus.state = once.consensus.state
  selected : twice.arbitration.selected = once.arbitration.selected
  decision : decision e twice = decision e once
  prepared : (decideResult limits e twice).map (·.verdict)
    = (decideResult limits e once).map (·.verdict)

/-- A used-up fallback without content is asked for by disputed votes
alone. -/
structure DisputedFallback (e : EnsembleRecord) (x : ExecutionRecord) : Prop where
  usedUp : fallbackUsedUp e x = true
  trigger : .judgeDisagreement ∈ e.spec.fallback.triggers
  others : otherTrigger e x = false
  /-- No terminal condition comes before the demand for a fallback. -/
  asked : consensusOutcome e x true = .fallbackRequired
  /-- The report before was disputed, or the votes are. -/
  disputed : x.consensus.state.disputed = true ∨ (consensusOutcome e x false).disputed = true

section TwoReports

variable (e : EnsembleRecord) (x : ExecutionRecord)

theorem consensusOutcome_again (required : Bool) :
    consensusOutcome e (computeReports e x) required = consensusOutcome e x required := by
  rw [← consensusOutcome_unreported, computeReports_unreported, consensusOutcome_unreported]

theorem computeReports_consensus_again :
    (computeReports e (computeReports e x)).consensus.state
      = consensusOutcome e x (fallbackRequired e (withQuorum e (computeReports e x))) := by
  rw [computeReports_consensus_state, consensusOutcome_again]

/-- The demand of the second report, from the evidence and the first one. -/
theorem fallbackRequired_again :
    fallbackRequired e (withQuorum e (computeReports e x))
      = (fallbackUsedUp e x
        && (otherTrigger e x
          || (e.spec.fallback.triggers.contains .judgeDisagreement
            && (computeReports e x).consensus.state.disputed))) := by
  rw [fallbackRequired_withQuorum, fallbackUsedUp_computeReports, otherTrigger_computeReports]

end TwoReports

theorem ConsensusState.not_disputed_fallbackRequired :
    ConsensusState.disputed .fallbackRequired = false := rfl

/-- Disputed votes and the demand they raise take turns. -/
theorem DisputedFallback.alternates {e : EnsembleRecord} {x : ExecutionRecord}
    (h : DisputedFallback e x) :
    (computeReports e (computeReports e x)).consensus.state
      ≠ (computeReports e x).consensus.state := by
  obtain ⟨husedUp, htrigger, hothers, hasked, hdisputed⟩ := h
  have hcontains : e.spec.fallback.triggers.contains .judgeDisagreement = true :=
    List.contains_iff_mem.mpr htrigger
  have hfirst : fallbackRequired e (withQuorum e x) = x.consensus.state.disputed := by
    rw [fallbackRequired_withQuorum, husedUp, hothers, hcontains]
    rfl
  have hsecond : fallbackRequired e (withQuorum e (computeReports e x))
      = (computeReports e x).consensus.state.disputed := by
    rw [fallbackRequired_again, husedUp, hothers, hcontains]
    rfl
  obtain ⟨hvotes, -⟩ := consensusOutcome_cases e x
  rw [computeReports_consensus_again, hsecond, computeReports_consensus_state, hfirst]
  cases hbefore : x.consensus.state.disputed with
  | true =>
    rw [hasked, ConsensusState.not_disputed_fallbackRequired]
    exact hvotes
  | false =>
    rw [hbefore] at hdisputed
    rw [hdisputed.resolve_left Bool.false_ne_true, hasked]
    exact fun heq => hvotes heq.symm

/-- Otherwise the consensus repeats. -/
theorem consensus_repeats {e : EnsembleRecord} {x : ExecutionRecord}
    (h : ¬ DisputedFallback e x) :
    (computeReports e (computeReports e x)).consensus.state
      = (computeReports e x).consensus.state := by
  rw [computeReports_consensus_again, computeReports_consensus_state]
  rcases (consensusOutcome_cases e x).2 with hequal | hasked
  · cases fallbackRequired e (withQuorum e x) <;>
      cases fallbackRequired e (withQuorum e (computeReports e x)) <;>
      simp [hequal]
  · have hdemand : fallbackRequired e (withQuorum e (computeReports e x))
        = fallbackRequired e (withQuorum e x) := by
      by_cases hstable : (fallbackUsedUp e x
          && e.spec.fallback.triggers.contains .judgeDisagreement && !otherTrigger e x) = true
      · -- the demand is whether the report before was disputed
        simp only [Bool.and_eq_true, Bool.not_eq_true', List.contains_iff_mem] at hstable
        obtain ⟨⟨husedUp, htrigger⟩, hothers⟩ := hstable
        have hcalm : ¬ (x.consensus.state.disputed = true
            ∨ (consensusOutcome e x false).disputed = true) :=
          fun hdisputed => h ⟨husedUp, htrigger, hothers, hasked, hdisputed⟩
        rw [not_or, Bool.not_eq_true, Bool.not_eq_true] at hcalm
        have hfirst : fallbackRequired e (withQuorum e x) = false := by
          rw [fallbackRequired_withQuorum, hothers, hcalm.1]
          simp
        rw [hfirst, fallbackRequired_again, computeReports_consensus_state, hfirst, hothers,
          hcalm.2]
        simp
      · rw [fallbackRequired_again, fallbackRequired_withQuorum]
        cases husedUp : fallbackUsedUp e x with
        | false => rfl
        | true =>
          cases hothers : otherTrigger e x with
          | true => rfl
          | false =>
            rw [husedUp, hothers] at hstable
            have habsent : e.spec.fallback.triggers.contains .judgeDisagreement = false := by
              simpa using hstable
            rw [habsent]
            rfl
    rw [hdemand]

/-! ## The results that preparations return -/

theorem hasSelection_again {e : EnsembleRecord} {x : ExecutionRecord}
    (h : (computeReports e (computeReports e x)).consensus.state
      = (computeReports e x).consensus.state) :
    hasSelection e (computeReports e (computeReports e x))
      = hasSelection e (computeReports e x) := by
  simp only [hasSelection, tieResolvedByPolicy, h, computeReports_arbitration_again e x]

/-- The verdict of a prepared result is read off the reports. -/
theorem decideResult_verdict (limits : Limits) (e : EnsembleRecord) (x : ExecutionRecord) :
    (decideResult limits e x).map (·.verdict)
      = if decision e x = .committed ∧ hasSelection e x = true ∧ selectedContent x = none then
          .error ⟨.internalError, "arbitration selected a candidate that holds no content"⟩
        else
          .ok (x.quorum.state, x.consensus.state, x.arbitration.selected, decision e x) := by
  have hdecision : (undecidedResult limits e x).decision = decision e x := rfl
  simp only [decideResult, selectResult, hdecision]
  by_cases hcommits : decision e x = .committed ∧ hasSelection e x = true
  · rw [if_pos (by simpa using hcommits)]
    cases hcontent : selectedContent x with
    | none =>
      rw [if_pos ⟨hcommits.1, hcommits.2, rfl⟩]
      rfl
    | some c =>
      rw [if_neg (by simp)]
      rfl
  · rw [if_neg (by simpa using hcommits), if_neg fun h => hcommits ⟨h.1, h.2.1⟩]
    rfl

/-- Reporting twice on the same evidence gives the same verdicts, exactly
unless disputed votes ask for a used-up fallback. -/
theorem reports_steady_iff (limits : Limits) (e : EnsembleRecord) (x : ExecutionRecord) :
    SameReports limits e (computeReports e x) (computeReports e (computeReports e x))
      ↔ ¬ DisputedFallback e x := by
  constructor
  · intro hsteady hdisputed
    exact hdisputed.alternates hsteady.consensus
  · intro hcalm
    have hquorum := computeReports_quorum_eq (e := e) (computeReports_unreported e x)
    have hconsensus := consensus_repeats hcalm
    have harbitration := computeReports_arbitration_again e x
    have hselected : (computeReports e (computeReports e x)).arbitration.selected
        = (computeReports e x).arbitration.selected := by
      rw [harbitration]
    have hselection := hasSelection_again hconsensus
    have hdecision : decision e (computeReports e (computeReports e x))
        = decision e (computeReports e x) := by
      rw [decision, decision, hconsensus, hselection]
    have hcontent : selectedContent (computeReports e (computeReports e x))
        = selectedContent (computeReports e x) := by
      rw [selectedContent, selectedContent, hselected, ExecutionRecord.candidate?,
        ExecutionRecord.candidate?, computeReports_candidates_twice]
    refine ⟨hquorum, hconsensus, hselected, hdecision, ?_⟩
    rw [decideResult_verdict, decideResult_verdict, hdecision, hselection, hcontent, hquorum,
      hconsensus, hselected]

namespace Sample

/-- One candidate, one judge, and a fallback for judges that disagree. -/
def disputedSpec : EnsembleSpec where
  id := ⟨1⟩
  label := "disputed"
  participants :=
    [participant 1 candidateRole, participant 2 judgeRole, participant 3 fallbackRole]
  judgingCriteria := [⟨1, 1⟩]
  fallback :=
    { enabled := true, triggers := [.judgeDisagreement], fallbackParticipants := [⟨3⟩] }

/-- The judge rejects the candidate, and the fallback candidate abstains. -/
def disputedLost : List Event :=
  start disputedSpec ++
    [content 1 1 [1], advance, judge 2 1 1 1 .reject, advance,
      .submitCandidateAbstention { authority := candidateAuthority 3 2 }]

end Sample

/-- A judge that rejects is reported as INSUFFICIENT_EVIDENCE, then as
FALLBACK_REQUIRED, on the same evidence: the fallback candidate abstained, and
the policy allows no second one. -/
theorem disputed_fallback_alternates :
    ¬ ∀ (config : FabricConfig) (events : List Event) (id : EnsembleId) (e : EnsembleRecord)
        (x : ExecutionRecord), ((System.initial config).run events).fabric.find id = some e →
        e.execution = some x →
        SameReports config.limits e (computeReports e x)
          (computeReports e (computeReports e x)) := by
  intro h
  have hrun : ((Sample.ensemble Sample.disputedLost).any fun e => e.execution.any fun x =>
      (computeReports e x).consensus.state == .insufficientEvidence
        && (computeReports e (computeReports e x)).consensus.state == .fallbackRequired)
      = true := by decide +kernel
  simp only [Option.any_eq_true, Bool.and_eq_true, beq_iff_eq] at hrun
  obtain ⟨e, he, x, hx, honce, htwice⟩ := hrun
  have hsame := (h {} Sample.disputedLost ⟨1⟩ e x he hx).consensus
  rw [honce, htwice] at hsame
  cases hsame

end EnsembleFabric
