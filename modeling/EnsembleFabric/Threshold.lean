import Mathlib.Data.Finset.Card
import EnsembleFabric.Decision

/-!
# What the consensus threshold backs

The threshold is a condition on the candidate that leads the consensus, the
one with the most accepts. Arbitration selects by the configured factors,
and a tie below the threshold may be decided by the tie-break. So the
threshold backs the leading candidate of a consensus that is no tie, and
the selected one where the order of the factors asks for votes first.

`thresholdCount` is the share of the denominator as the claim has it, an
exact rounding up; that the report computes it without wrapping follows from
the bounds of validation (`Admitted.bounds`). `AcceptedBy` relates a count of
accepts to the evaluations on record, and to participants where none of them
accepts a candidate twice. The first factor being the number of votes, the
candidate that wins has as many accepts as the leading one, since counts
below the threshold's range are exact as doubles (`thresholdCount_lt`).

`winner_below_threshold` shows the three ways in which the threshold does
not back the winner.
-/

namespace EnsembleFabric

open EventSystem

/-! ## Specifications in use -/

/-- The ensemble runs a specification that passed validation, one seat for
every participant of it. Both hold of every record the runtime ever has. -/
structure SpecInUse (limits : Limits) (e : EnsembleRecord) : Prop where
  admitted : Admitted limits e.spec
  seats : e.participants.length = e.spec.participants.length

def ViewSpecInUse (limits : Limits) (v : View) : Prop :=
  ∀ e, v.entry = some e → SpecInUse limits e

theorem Move.specInUse {sc : Scope} {v v' : View} (h : Move sc v v')
    (hv : ViewSpecInUse sc.limits v) : ViewSpecInUse sc.limits v' := by
  cases h with
  | tick => exact hv
  | define admitted =>
    rintro _ ⟨⟩
    exact ⟨admitted, by simp [newRecord]⟩
  | redefine admitted =>
    rintro _ ⟨⟩
    exact ⟨admitted, by simp [redefinedRecord]⟩
  | seats steps =>
    rintro _ ⟨⟩
    have hold := hv _ rfl
    exact ⟨hold.admitted, steps.length_eq.symm.trans hold.seats⟩
  | _ =>
    rintro _ ⟨⟩
    have hold := hv _ rfl
    exact ⟨hold.admitted, hold.seats⟩

theorem reachable_specInUse (config : FabricConfig) (events : List Event) (id : EnsembleId) :
    ViewSpecInUse config.limits (((System.initial config).run events).fabric.view id) :=
  reachable_view Move.specInUse (fun h => h) (by rintro _ ⟨⟩) (along_allows _ events) id

/-- What validation says about the threshold. -/
theorem Admitted.bounds {limits : Limits} {spec : EnsembleSpec} (h : Admitted limits spec) :
    spec.participants.length < 2 ^ 32 ∧ spec.quorum.consensusThresholdPercent.toNat ≤ 100 := by
  obtain ⟨validated, hvalid, heq⟩ := h
  rw [heq]
  simp only [validateSpec, Checks.bind_eq_ok, require_eq_ok, decide_eq_true_eq] at hvalid
  obtain ⟨_, -, _, -, _, -, _, -, _, -, _, hparticipants, _, -, _, -, _, hpercent, -⟩ := hvalid
  have hlimit := limits.maxParticipantsPerEnsemble.toNat_lt
  exact ⟨Nat.lt_of_le_of_lt hparticipants hlimit, UInt32.le_iff_toNat_le.mp hpercent⟩

/-! ## Accepting evidence -/

/-- The current evaluations that accept the candidate as it stands. -/
def acceptingEvaluations (x : ExecutionRecord) (c : CandidateRecord) : List EvaluationRecord :=
  (currentEvaluations x c).filter (judged .accept)

def acceptingParticipants (x : ExecutionRecord) (c : CandidateRecord) : Finset ParticipantId :=
  ((acceptingEvaluations x c).map (·.evaluator)).toFinset

/-- The threshold percentage of the quorum denominator, rounded up. -/
def thresholdCount (e : EnsembleRecord) (x : ExecutionRecord) : Nat :=
  (x.quorum.denominator * e.spec.quorum.consensusThresholdPercent.toNat + 99) / 100

/-- At least `count` evaluations accept the candidate; as many participants
do where none accepts it twice. -/
structure AcceptedBy (x : ExecutionRecord) (c : CandidateRecord) (count : Nat) : Prop where
  evaluations : count ≤ (acceptingEvaluations x c).length
  participants : ((acceptingEvaluations x c).map (·.evaluator)).Nodup →
    count ≤ (acceptingParticipants x c).card

theorem acceptedBy_of_evaluations {x : ExecutionRecord} {c : CandidateRecord} {count : Nat}
    (h : count ≤ (acceptingEvaluations x c).length) : AcceptedBy x c count := by
  refine ⟨h, fun hdistinct => ?_⟩
  rw [acceptingParticipants, List.toFinset_card_of_nodup hdistinct, List.length_map]
  exact h

theorem quorumReport_thresholdCount {limits : Limits} {e : EnsembleRecord}
    (h : SpecInUse limits e) (x : ExecutionRecord) (sequence : Sequence) :
    (quorumReport e x sequence).thresholdCount
      = ((quorumReport e x sequence).denominator
          * e.spec.quorum.consensusThresholdPercent.toNat + 99) / 100 := by
  obtain ⟨hparticipants, hpercent⟩ := h.admitted.bounds
  have hdenominator := computeQuorum_denominator_le e.spec.quorum
    (e.participants.map (quorumMember x.coordinatorEpoch)) (eligibleVotes x) (validCandidates x)
    e.spec.generation x.coordinatorEpoch sequence
  rw [List.length_map, h.seats] at hdenominator
  exact (computeQuorum_thresholdCount ..).trans
    (percentageCeiling_eq (Nat.lt_of_le_of_lt hdenominator hparticipants) hpercent)

/-- The threshold is far below the counters a double holds exactly. -/
theorem thresholdCount_lt {limits : Limits} {e : EnsembleRecord} (h : SpecInUse limits e)
    (before : ExecutionRecord) : thresholdCount e (computeReports e before) < 2 ^ 53 := by
  obtain ⟨hparticipants, hpercent⟩ := h.admitted.bounds
  have hdenominator := computeQuorum_denominator_le e.spec.quorum
    (e.participants.map (quorumMember before.coordinatorEpoch)) (eligibleVotes before)
    (validCandidates before) e.spec.generation before.coordinatorEpoch
    ⟨before.reportGeneration + 1⟩
  rw [List.length_map, h.seats] at hdenominator
  have hproduct : (computeReports e before).quorum.denominator
      * e.spec.quorum.consensusThresholdPercent.toNat ≤ 2 ^ 32 * 100 :=
    Nat.mul_le_mul (Nat.le_trans hdenominator hparticipants.le) hpercent
  unfold thresholdCount
  omega

/-! ## The leading candidate -/

/-- The candidate that leads the consensus has the accepts the threshold
asks for. So has the selected one, where votes are the first factor and
the leading candidate passes the hard checks. -/
def ThresholdBacked (e : EnsembleRecord) (x : ExecutionRecord) (r : EnsembleResult) : Prop :=
  ∃ leader, x.candidate? x.consensus.leadingCandidate = some leader
    ∧ leader.generation = x.consensus.leadingGeneration
    ∧ AcceptedBy x leader (thresholdCount e x)
    ∧ (e.spec.arbitration.factors.head? = some .voteCount → passesHardChecks e x leader = true →
      ∃ c, x.candidate? r.selectedCandidate = some c ∧ AcceptedBy x c (thresholdCount e x))

theorem acceptingEvaluations_mark (e : EnsembleRecord) (x : ExecutionRecord)
    (ranking : List CandidateRanking) (c : CandidateRecord) :
    acceptingEvaluations (computeReports e x) (markElimination ranking c)
      = acceptingEvaluations x c := by
  rw [markElimination_eq ranking c]
  rfl

/-- The leading tally is the one of a candidate of the execution. -/
theorem Counted.leader {e : EnsembleRecord} {before : ExecutionRecord} {leader : CandidateTally}
    {others : List CandidateTally}
    (h : Counted (consensusInputs e (withQuorum e before) ⟨before.reportGeneration + 1⟩)
      leader others) :
    ∃ c ∈ (computeReports e before).candidates,
      (computeReports e before).consensus.leadingCandidate = c.id
        ∧ (computeReports e before).consensus.leadingGeneration = c.generation
        ∧ leader.agreeing = (acceptingEvaluations (computeReports e before) c).length := by
  have hmem : leader ∈ Precedence.sortBy betterTally _ := h.order ▸ List.mem_cons_self
  rw [Precedence.mem_sortBy, List.mem_filter] at hmem
  obtain ⟨c, hc, rfl⟩ := List.mem_map.mp hmem.1
  refine ⟨_, List.mem_map_of_mem hc, ?_, ?_, ?_⟩
  · rw [computeReports_consensus, h.leading, markElimination_id]
    rfl
  · rw [computeReports_consensus, h.leadingGeneration, markElimination_eq]
    rfl
  · rw [acceptingEvaluations_mark]
    exact List.countP_eq_length_filter ..

theorem threshold_backed {limits : Limits} {e : EnsembleRecord}
    {before x : ExecutionRecord} {r : EnsembleResult}
    (hnumbered : ∀ c ∈ x.candidates, x.candidate? c.id = some c)
    (hspec : SpecInUse limits e) (hreports : x = computeReports e before)
    (hdecide : decideResult limits e x = .ok r) (hdecision : r.decision = .committed)
    (hpercent : 0 < e.spec.quorum.consensusThresholdPercent)
    (hevaluating : e.spec.evaluatingParticipants ≠ []) (hties : x.consensus.state ≠ .tie) :
    ThresholdBacked e x r := by
  obtain ⟨hselection, c, hfound, -, hid, -⟩ := decideResult_committed hdecide hdecision
  obtain ⟨heligible, htie⟩ := hasSelection_selected hselection
  obtain ⟨winner, hwinner, hwins, hselected⟩ := computeReports_selected hreports heligible htie
  have hresolved : x.consensus.state.resolved = true := by
    simp only [hasSelection, tieResolvedByPolicy, Bool.and_eq_true, Bool.or_eq_true,
      beq_iff_eq] at hselection
    rcases hselection.2 with hresolved | hpolicy
    · exact hresolved
    · exact absurd hpolicy.1.1 hties
  subst hreports
  obtain ⟨tally, others, hcounted⟩ := hasSelection_counted hselection
  obtain ⟨leader, hleader, hleading, hgeneration, hagreeing⟩ := hcounted.leader
  have hcount : thresholdCount e (computeReports e before)
      ≤ (acceptingEvaluations (computeReports e before) leader).length := by
    rw [computeReports_consensus, hcounted.state] at hresolved
    have hvotes : (!e.spec.evaluatingParticipants.isEmpty) = true := by simpa using hevaluating
    have hthreshold := voteOutcome_threshold hresolved hvotes hpercent
    rw [← hagreeing]
    exact (quorumReport_thresholdCount hspec before _).symm.trans_le hthreshold
  refine ⟨leader, by rw [hleading]; exact hnumbered leader hleader, hgeneration.symm,
    acceptedBy_of_evaluations hcount, fun hfirst hpasses => ?_⟩
  refine ⟨winner, ?_, acceptedBy_of_evaluations ?_⟩
  · rw [hid]
    rw [hselected] at hfound
    obtain rfl := Option.some.inj ((hnumbered winner hwinner).symm.trans hfound)
    exact hfound
  · obtain ⟨factor, rest, hfactors⟩ := List.exists_cons_of_ne_nil
      (show e.spec.arbitration.factors ≠ [] by rintro hnil; simp [hnil] at hfirst)
    obtain rfl : factor = .voteCount := by simpa [hfactors] using hfirst
    have hnumber : ∀ c : ArbitrationCandidateInput,
        Arithmetic.isNumber (factorValue .voteCount c) = true :=
      fun c => by simp [factorValue, Arithmetic.isNumber, Arithmetic.count]
    have hle := hwins.factor_le hfactors rfl hnumber (List.mem_map_of_mem hleader) hpasses
    simp only [factorValue, arbitrationInputIn, summarizeCandidateIn,
      List.countP_eq_length_filter] at hle
    have hposition := Rat.intCast_le_intCast.mp hle
    -- fewer votes than the threshold are counted exactly as doubles
    by_contra hfewer
    have hlt := Nat.lt_of_not_le hfewer
    have hsmall := thresholdCount_lt hspec before
    exact Int.not_lt.mpr hposition
      (Double.ofNat_position_lt (hlt.trans_le hcount) (hlt.trans hsmall))

/-- In every reachable state: where a preparation decides COMMITTED for an
execution without a stored result and the consensus is no tie, the
threshold backs the leading candidate. -/
theorem threshold_backs_leader (config : FabricConfig) (events : List Event) (id : EnsembleId)
    (generation : EnsembleGeneration) (r : EnsembleResult) (e : EnsembleRecord)
    (x : ExecutionRecord)
    (hprepared : (prepareResult ((System.initial config).run events).fabric id generation).2
      = .ok r)
    (hdecision : r.decision = .committed)
    (hfind : (prepareResult ((System.initial config).run events).fabric id generation).1.find id
      = some e)
    (hexecution : e.execution = some x) (hundecided : x.result = none)
    (hpercent : 0 < e.spec.quorum.consensusThresholdPercent)
    (hevaluating : e.spec.evaluatingParticipants ≠ []) (hties : x.consensus.state ≠ .tie) :
    ThresholdBacked e x r := by
  have hafter := run_prepareResult config events id generation
  have hapart := reachable_apart config (events ++ [.prepareResult id generation])
  have hspec := reachable_specInUse config (events ++ [.prepareResult id generation]) id
  rw [hafter] at hapart hspec
  obtain ⟨before, hreports, hdecide⟩ :=
    prepareResult_undecided hprepared hfind hexecution hundecided
  rw [(reachable_named config events).1] at hdecide
  exact threshold_backed (fun _ => (hapart.numbered id).candidate? hfind hexecution)
    (hspec e hfind) hreports hdecide
    hdecision hpercent hevaluating hties

namespace Sample

/-- Two candidates and two judges; every contributing judge must agree. -/
def votingSpec : EnsembleSpec where
  id := ⟨1⟩
  label := "voting"
  participants :=
    [participant 1 candidateRole, participant 2 candidateRole, participant 3 judgeRole,
      participant 4 judgeRole]
  quorum := { consensusThresholdPercent := 100, voteBasis := .contributingParticipants }

/-- The judges give their judgments of candidate 1, and then of candidate 2. -/
def judging (third fourth third' fourth' : CategoricalJudgment) : List Event :=
  start votingSpec ++ [content 1 1 [7], content 2 2 [8], advance, judge 3 1 1 1 third,
    judge 4 1 2 1 fourth, judge 3 2 3 1 third', judge 4 2 4 1 fourth']

/-- Both judges accept candidate 1 only. -/
def agreed : List Event := judging .accept .accept .reject .reject

end Sample

/-- A consensus that meets its threshold. -/
theorem agreed_threshold_backed :
    ∃ e x, (Sample.prepared Sample.agreed).decision = .committed
      ∧ ThresholdBacked e x (Sample.prepared Sample.agreed) := by
  have hprepared : (prepareResult (Sample.reached Sample.agreed).fabric ⟨1⟩ ⟨1⟩).2
      = .ok (Sample.prepared Sample.agreed) := by decide +kernel
  have hdecision : (Sample.prepared Sample.agreed).decision = .committed := by decide +kernel
  have hafter : ((prepareResult (Sample.reached Sample.agreed).fabric ⟨1⟩ ⟨1⟩).1.find ⟨1⟩).any
      (fun e => decide (0 < e.spec.quorum.consensusThresholdPercent)
        && decide (e.spec.evaluatingParticipants ≠ [])
        && e.execution.any fun x => x.result.isNone && decide (x.consensus.state ≠ .tie))
      = true := by decide +kernel
  simp only [Option.any_eq_true, Bool.and_eq_true, decide_eq_true_eq,
    Option.isNone_iff_eq_none] at hafter
  obtain ⟨e, hfind, ⟨hpercent, hevaluating⟩, x, hexecution, hundecided, hties⟩ := hafter
  exact ⟨e, x, hdecision, threshold_backs_leader {} Sample.agreed ⟨1⟩ ⟨1⟩ _ e x hprepared
    hdecision hfind hexecution hundecided hpercent hevaluating hties⟩

/-- Whatever a preparation answers as COMMITTED under a threshold selects a
candidate that as many participants accept. -/
def thresholdBacksWinner (f : Fabric) (id : EnsembleId) (generation : EnsembleGeneration) :
    Bool :=
  match prepareResult f id generation with
  | (_, .error _) => true
  | (f, .ok r) =>
      r.decision != .committed || (f.find id).all fun e =>
        e.spec.quorum.consensusThresholdPercent == 0 || e.spec.evaluatingParticipants.isEmpty
          || e.execution.all fun x => (x.candidate? r.selectedCandidate).all fun c =>
            decide (thresholdCount e x ≤ (acceptingParticipants x c).card)

namespace Sample

/-- Both judges accept candidate 2 only. -/
def outvoted : List Event := judging .reject .reject .accept .accept

/-- Each judge accepts another candidate. -/
def splitVote : List Event := judging .accept .reject .reject .accept

/-- A value that selects candidate 2, which nobody prepared, is committed
after both judges accepted candidate 1 only. -/
def callerCommit : List Event :=
  agreed ++ [advance, .commitResult
    { ensemble := ⟨1⟩, ensembleGeneration := ⟨1⟩, execution := ⟨1⟩, attemptGeneration := ⟨1⟩
      coordinatorEpoch := ⟨1⟩, decision := .committed, hasSelected := true
      selectedCandidate := ⟨2⟩ }]

end Sample

/-- The threshold does not back the winner: where the factors select another
candidate than the leading one, where a tie below the threshold is decided
by the tie-break, and where the answer is a stored result. -/
theorem winner_below_threshold :
    thresholdBacksWinner (Sample.reached Sample.outvoted).fabric ⟨1⟩ ⟨1⟩ = false
      ∧ thresholdBacksWinner (Sample.reached Sample.splitVote).fabric ⟨1⟩ ⟨1⟩ = false
      ∧ thresholdBacksWinner (Sample.reached Sample.callerCommit).fabric ⟨1⟩ ⟨1⟩ = false := by
  decide +kernel

end EnsembleFabric
