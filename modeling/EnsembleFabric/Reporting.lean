import EnsembleFabric.Reports

/-!
# Reporting again

Reports are computed from the evidence, and what they write (the reports
themselves and the elimination texts of the candidates) is not evidence. So
a second report finds what the first one found. The one exception is a
trigger that reads the consensus of the report before; it is consulted only
once the fallback depth is used up.

An execution without its reports is `ExecutionRecord.unreported`. That
reports read no reports is proved once for each of the three computations;
from there `computeReports_ranking_eq` and
`computeReports_candidates_twice` say that a second report finds the ranking
and the elimination texts of the first. For the triggers the exception
remains, and `fallbackTriggerFires_eq` says which part of the reports they
read: the state of the consensus and the state of the quorum.
-/

namespace EnsembleFabric

open Precedence

/-! ## What is not a report -/

/-- A candidate without its elimination text. -/
def CandidateRecord.unreported (c : CandidateRecord) : CandidateRecord :=
  { c with eliminationReason := "" }

/-- An execution without its reports. -/
def ExecutionRecord.unreported (x : ExecutionRecord) : ExecutionRecord :=
  { x with
    candidates := x.candidates.map (·.unreported)
    reportGeneration := 0
    quorum := {}
    consensus := {}
    arbitration := {} }

theorem SameStanding.unreported {c c' : CandidateRecord} (h : SameStanding c c') :
    c'.unreported = c.unreported := by
  rw [h]
  rfl

@[simp] theorem computeReports_unreported (e : EnsembleRecord) (x : ExecutionRecord) :
    (computeReports e x).unreported = x.unreported := by
  have hcandidates : (computeReports e x).candidates.map (·.unreported)
      = x.candidates.map (·.unreported) := by
    rw [computeReports_candidates, List.map_map]
    exact List.map_congr_left fun c _ => (markElimination_eq _ c).unreported
  unfold ExecutionRecord.unreported
  rw [hcandidates]
  rfl

section Evidence

variable (e : EnsembleRecord) (x : ExecutionRecord)

/-! ### Reports read no reports -/

theorem quorumReport_unreported (s : Sequence) :
    quorumReport e x.unreported s = quorumReport e x s := by
  have hvalid : validCandidates x.unreported = validCandidates x := by
    rw [validCandidates, validCandidates, ExecutionRecord.unreported, List.countP_map]
    rfl
  rw [quorumReport, quorumReport, hvalid]
  rfl

theorem computeReports_quorum_state :
    (computeReports e x).quorum.state = (quorumReport e x.unreported {}).state := by
  rw [quorumReport_unreported]
  rfl

/-- What arbitration decides on, the number of the report aside. -/
def arbitratedIn (ν : Type) [Arithmetic ν] : ArbitrationInputs ν :=
  { arbitrationInputsIn ν e x {} with
    quorumSatisfied := (quorumReport e x {}).state == .reached }

abbrev arbitrated : ArbitrationInputs := arbitratedIn e x Double

theorem arbitrated_unreported : arbitrated e x.unreported = arbitrated e x := by
  have hcandidates : (arbitrationInputs e x.unreported {}).candidates
      = (arbitrationInputs e x {}).candidates := by
    simp only [arbitrationInputsIn, ExecutionRecord.unreported, List.map_map]
    rfl
  unfold arbitrated arbitratedIn
  rw [quorumReport_unreported, ArbitrationInputs.mk.injEq]
  exact ⟨hcandidates, rfl, rfl, rfl, rfl, rfl, rfl, rfl⟩

end Evidence

section Winner

variable {r r' : ArbitrationReport} (h : r.ranking = r'.ranking)
include h

theorem selectFirst_ranking (c : ArbitrationCandidateInput) (notes : List String) :
    (r.selectFirst c notes).ranking = (r'.selectFirst c notes).ranking :=
  congrArg (updateFirst
    (fun ranking : CandidateRanking => ranking.candidate == c.candidate && ranking.eligible)
    fun ranking => { ranking with selected := true }) h

theorem selectSecond_ranking (c : ArbitrationCandidateInput) (note : String) :
    (r.selectSecond c note).ranking = (r'.selectSecond c note).ranking :=
  congrArg (List.map fun ranking : CandidateRanking =>
    if ranking.candidate == c.candidate then ({ ranking with selected := true } : CandidateRanking)
    else ranking) h

/-- The choice of the winner changes the ranking it is given only. -/
theorem selectWinner_ranking (policy : ArbitrationPolicy) (winner : ArbitrationCandidateInput)
    (others : List ArbitrationCandidateInput) :
    (selectWinner policy r winner others).ranking
      = (selectWinner policy r' winner others).ranking := by
  unfold selectWinner
  cases others with
  | nil => exact selectFirst_ranking h _ _
  | cons second rest =>
    dsimp only
    split
    · split
      · exact h
      · exact selectFirst_ranking h _ _
      · split
        · exact selectSecond_ranking h _ _
        · exact selectFirst_ranking h _ _
      · split
        · exact selectSecond_ranking h _ _
        · exact selectFirst_ranking h _ _
    · exact selectFirst_ranking h _ _

end Winner

theorem arbitrate_ranking (inputs : ArbitrationInputs) (s : Sequence) :
    (arbitrate { inputs with sequence := s }).ranking = (arbitrate inputs).ranking := by
  have heligibility : ArbitrationInputs.eligibility { inputs with sequence := s }
      = inputs.eligibility := rfl
  have hrank : rankCandidate { inputs with sequence := s } = rankCandidate inputs := rfl
  unfold arbitrate
  simp only [heligibility, hrank]
  split
  · rfl
  · exact selectWinner_ranking (by rfl) _ _ _

theorem computeReports_ranking (e : EnsembleRecord) (x : ExecutionRecord) :
    (computeReports e x).arbitration.ranking = (arbitrate (arbitrated e x)).ranking :=
  arbitrate_ranking (arbitrated e x) ⟨x.reportGeneration + 1⟩

/-! ## Elimination texts -/

theorem markElimination_unnamed {ranking : List CandidateRanking} {c : CandidateRecord}
    (h : ∀ r ∈ ranking, c.id ≠ r.candidate) : markElimination ranking c = c := by
  unfold markElimination
  induction ranking with
  | nil => rfl
  | cons r rest ih =>
    rw [List.foldl_cons, if_neg (by simpa using h r List.mem_cons_self)]
    exact ih fun r' hr' => h r' (List.mem_cons_of_mem _ hr')

/-- A candidate the ranking names has its text from there. -/
theorem markElimination_named {ranking : List CandidateRanking} {c c' : CandidateRecord}
    (hstanding : SameStanding c c') (h : ∃ r ∈ ranking, c.id = r.candidate) :
    markElimination ranking c' = markElimination ranking c := by
  unfold markElimination
  induction ranking generalizing c c' with
  | nil =>
    obtain ⟨r, hr, -⟩ := h
    cases hr
  | cons r rest ih =>
    have hid : c'.id = c.id := by rw [hstanding]
    rw [List.foldl_cons, List.foldl_cons, hid]
    split
    · rw [hstanding]
    · rename_i hother
      refine ih hstanding ?_
      obtain ⟨r', hr', heq⟩ := h
      rcases List.mem_cons.mp hr' with rfl | hrest
      · exact absurd heq (by simpa using hother)
      · exact ⟨r', hrest, heq⟩

theorem markElimination_twice (ranking : List CandidateRanking) (c : CandidateRecord) :
    markElimination ranking (markElimination ranking c) = markElimination ranking c := by
  by_cases hnamed : ∃ r ∈ ranking, c.id = r.candidate
  · exact markElimination_named (markElimination_eq ranking c) hnamed
  · rw [not_exists] at hnamed
    have hunnamed : markElimination ranking c = c :=
      markElimination_unnamed fun r hr heq => hnamed r ⟨hr, heq⟩
    rw [hunnamed, hunnamed]

/-! ## A second report -/

/-- Reports on the same evidence find the same. -/
theorem computeReports_ranking_eq {e : EnsembleRecord} {x x' : ExecutionRecord}
    (h : x'.unreported = x.unreported) :
    (computeReports e x').arbitration.ranking = (computeReports e x).arbitration.ranking := by
  rw [computeReports_ranking, computeReports_ranking, ← arbitrated_unreported e x', h,
    arbitrated_unreported]

theorem computeReports_quorum_eq {e : EnsembleRecord} {x x' : ExecutionRecord}
    (h : x'.unreported = x.unreported) :
    (computeReports e x').quorum.state = (computeReports e x).quorum.state := by
  rw [computeReports_quorum_state, computeReports_quorum_state, h]

/-- A second report writes no new elimination text. -/
theorem computeReports_candidates_twice (e : EnsembleRecord) (x : ExecutionRecord) :
    (computeReports e (computeReports e x)).candidates = (computeReports e x).candidates := by
  rw [computeReports_candidates e (computeReports e x),
    computeReports_ranking_eq (computeReports_unreported e x), computeReports_candidates,
    List.map_map]
  exact List.map_congr_left fun c _ => markElimination_twice _ c

/-! ## Triggers -/

/-- The state of a consensus report, without the rest of the report. -/
def consensusState (inputs : ConsensusInputs) : ConsensusState :=
  if inputs.superseded then .superseded
  else if inputs.revalidationRequired then .revalidationRequired
  else if inputs.cancelled then .cancelled
  else if inputs.requiredParticipantFailed && inputs.requireAllRequired then
    .requiredParticipantFailed
  else if inputs.quorum.state = .impossible then .quorumImpossible
  else
    let eligible := sortBy betterTally (inputs.tallies.filter (·.eligible))
    match eligible with
    | [] =>
        if 0 < inputs.candidatesDeclared ∧ inputs.candidatesDeclared ≤ inputs.invalidCandidates then
          .allCandidatesInvalid
        else .noEligibleCandidate
    | leader :: others =>
        if inputs.fallbackRequired then .fallbackRequired
        else if inputs.quorum.state ≠ .reached then .quorumNotReached
        else voteOutcome inputs eligible.length leader ((others.map (·.agreeing)).foldl max 0)

theorem ite_state {p : Prop} [Decidable p] {a b : ConsensusReport} {s t : ConsensusState}
    (ha : a.state = s) (hb : b.state = t) : (if p then a else b).state = if p then s else t := by
  split
  · exact ha
  · exact hb

theorem computeConsensus_eq_state (inputs : ConsensusInputs) :
    (computeConsensus inputs).state = consensusState inputs := by
  unfold computeConsensus consensusState
  refine ite_state rfl (ite_state rfl (ite_state rfl (ite_state rfl (ite_state rfl ?_))))
  dsimp only
  generalize sortBy betterTally (inputs.tallies.filter (·.eligible)) = eligible
  cases eligible with
  | nil => exact ite_state rfl rfl
  | cons leader others => exact ite_state rfl (ite_state rfl rfl)

/-- The number of a report is not part of the outcome. -/
theorem computeConsensus_state (inputs : ConsensusInputs) (s t : Sequence) :
    (computeConsensus
      { inputs with
        quorum := { inputs.quorum with computedSequence := s }
        sequence := t }).state = (computeConsensus inputs).state := by
  rw [computeConsensus_eq_state, computeConsensus_eq_state]
  rfl

/-- The outcome of the evidence, given whether it asks for a fallback. -/
def consensusOutcome (e : EnsembleRecord) (x : ExecutionRecord) (required : Bool) :
    ConsensusState :=
  (computeConsensus
    { consensusInputs e { x with quorum := quorumReport e x {} } {} with
      fallbackRequired := required }).state

theorem consensusOutcome_unreported (e : EnsembleRecord) (x : ExecutionRecord)
    (required : Bool) :
    consensusOutcome e x.unreported required = consensusOutcome e x required := by
  have hinvalid : invalidCandidates { x.unreported with quorum := quorumReport e x {} }
      = invalidCandidates { x with quorum := quorumReport e x {} } := by
    rw [invalidCandidates, invalidCandidates, ExecutionRecord.unreported, List.countP_map]
    rfl
  have htallies : x.unreported.candidates.map
        (tallyCandidate { x.unreported with quorum := quorumReport e x {} })
      = x.candidates.map (tallyCandidate { x with quorum := quorumReport e x {} }) := by
    rw [ExecutionRecord.unreported, List.map_map]
    rfl
  have hdeclared : x.unreported.candidates.length = x.candidates.length := by
    rw [ExecutionRecord.unreported, List.length_map]
  unfold consensusOutcome
  rw [quorumReport_unreported]
  simp only [consensusInputs, hinvalid, htallies, hdeclared]
  rfl

/-- The consensus of a report. -/
theorem computeReports_consensus_state (e : EnsembleRecord) (x : ExecutionRecord) :
    (computeReports e x).consensus.state
      = consensusOutcome e x (fallbackRequired e (withQuorum e x)) :=
  computeConsensus_state
    { consensusInputs e { x with quorum := quorumReport e x {} } {} with
      fallbackRequired := fallbackRequired e (withQuorum e x) }
    ⟨x.reportGeneration + 1⟩ ⟨x.reportGeneration + 1⟩

/-- Before the depth is used up, nothing asks for an exhausted fallback. -/
theorem fallbackRequired_below {e : EnsembleRecord} {x : ExecutionRecord}
    (h : x.fallbackDepth < e.spec.fallback.maxDepth) : fallbackRequired e x = false := by
  simp [fallbackRequired, UInt32.not_le.mpr h]

theorem any_unreported {x x' : ExecutionRecord} (h : x'.unreported = x.unreported)
    {f : CandidateRecord → Bool} (hf : ∀ c : CandidateRecord, f c.unreported = f c) :
    x'.candidates.any f = x.candidates.any f := by
  have hany : ∀ cs : List CandidateRecord, cs.any f = (cs.map (·.unreported)).any f := fun cs => by
    rw [List.any_map]
    exact congrArg cs.any (funext fun c => (hf c).symm)
  have hcandidates : x'.candidates.map (·.unreported) = x.candidates.map (·.unreported) :=
    congrArg ExecutionRecord.candidates h
  rw [hany x'.candidates, hcandidates, ← hany]

/-- Triggers read the evidence, and the states of the reports. -/
theorem fallbackTriggerFires_eq {trigger : FallbackTrigger} {e : EnsembleRecord}
    {x x' : ExecutionRecord} (h : x'.unreported = x.unreported)
    (hquorum : x'.quorum.state = x.quorum.state)
    (hconsensus : x'.consensus.state = x.consensus.state) :
    fallbackTriggerFires trigger e x' = fallbackTriggerFires trigger e x := by
  have hcandidates : x'.candidates.map (·.unreported) = x.candidates.map (·.unreported) :=
    congrArg ExecutionRecord.candidates h
  cases trigger with
  | participantUnavailable | requiredParticipantFailed | requiredRoleUnavailable
  | insufficientEvidence => rfl
  | quorumImpossible => simp only [fallbackTriggerFires, hquorum]
  | judgeDisagreement => simp only [fallbackTriggerFires, hconsensus]
  | retryExhausted => exact any_unreported h fun _ => rfl
  | allPrimaryInvalid =>
    have hall : ∀ cs : List CandidateRecord,
        (!(cs.filter (!·.fallback)).isEmpty
            && (cs.filter (!·.fallback)).all fun c => !isContentState c.state)
          = (!((cs.map (·.unreported)).filter (!·.fallback)).isEmpty
            && ((cs.map (·.unreported)).filter (!·.fallback)).all
              fun c => !isContentState c.state) := by
      intro cs
      rw [List.filter_map, List.isEmpty_map, List.all_map]
      rfl
    simp only [fallbackTriggerFires]
    rw [hall x'.candidates, hcandidates, ← hall]

end EnsembleFabric
