import Mathlib.Algebra.Order.Ring.Rat
import Mathlib.Data.Nat.Cast.Order.Ring
import EnsembleFabric.Candidate
import EnsembleFabric.Evaluation
import EnsembleFabric.Library.Precedence

/-!
# Arbitration

Hard eligibility first, then the configured ranking factors in order,
then the configured tie-break policy. Arbitration is a pure function of
its inputs: identical inputs give an identical report.

Factor values are computed in an `Arithmetic`, which is that of the doubles
wherever none is named. A factor may then be a NaN: scores that overflow to
infinities of both signs have no sum. It ties with nothing and precedes
nothing, and the comparison of the ranking is no order any more, which is
what `std::sort` asks of it. Where every configured factor of every eligible
candidate is a number (`Comparable`) it is one.

> The selected candidate is eligible, and the first of the order or one that
> ties with the first on every factor and is preferred by the tie-break
> (`arbitrate_selected`); where the candidates are comparable, no eligible
> candidate precedes the first.
-/

namespace EnsembleFabric

open Precedence

inductive EliminationReason where
  | none
  | notAContentState
  | invalidCandidate
  | failedAttempt
  | abstained
  | staleGeneration
  | superseded
  | cancelled
  | participantNotAuthoritative
  | incompatibleParticipant
  | verifierFailed
  | hardPredicateFailed
  | missingRequiredEvidence
  | belowMinimumScore
  | insufficientJudgeAcceptance
  | notSelectableRole
  | lostRanking
  | tieLost
  | fallbackNotSelected
deriving DecidableEq

def EliminationReason.toString : EliminationReason → String
  | .none => "NONE"
  | .notAContentState => "NOT_A_CONTENT_STATE"
  | .invalidCandidate => "INVALID_CANDIDATE"
  | .failedAttempt => "FAILED_ATTEMPT"
  | .abstained => "ABSTAINED"
  | .staleGeneration => "STALE_GENERATION"
  | .superseded => "SUPERSEDED"
  | .cancelled => "CANCELLED"
  | .participantNotAuthoritative => "PARTICIPANT_NOT_AUTHORITATIVE"
  | .incompatibleParticipant => "INCOMPATIBLE_PARTICIPANT"
  | .verifierFailed => "VERIFIER_FAILED"
  | .hardPredicateFailed => "HARD_PREDICATE_FAILED"
  | .missingRequiredEvidence => "MISSING_REQUIRED_EVIDENCE"
  | .belowMinimumScore => "BELOW_MINIMUM_SCORE"
  | .insufficientJudgeAcceptance => "INSUFFICIENT_JUDGE_ACCEPTANCE"
  | .notSelectableRole => "NOT_SELECTABLE_ROLE"
  | .lostRanking => "LOST_RANKING"
  | .tieLost => "TIE_LOST"
  | .fallbackNotSelected => "FALLBACK_NOT_SELECTED"

/-! ## Inputs and report -/

/-- One measured arbitration factor for one candidate. -/
structure RankingFactorValue (ν : Type := Double) where
  factor : ArbitrationFactor
  value : ν
  detail : String
deriving DecidableEq

structure CandidateRanking (ν : Type := Double) where
  candidate : CandidateId
  generation : CandidateGeneration
  participant : ParticipantId
  participantGeneration : ParticipantGeneration
  role : ParticipantRole
  eligible : Bool
  elimination : EliminationReason
  eliminationDetail : String
  factors : List (RankingFactorValue ν)
  rank : Int := -1
  selected : Bool := false
deriving DecidableEq

structure ArbitrationReport (ν : Type := Double) where
  ensembleGeneration : EnsembleGeneration := {}
  coordinatorEpoch : CoordinatorEpoch := {}
  computedSequence : Sequence := {}
  tieBreak : TieBreakPolicy := .lowestCandidateId
  factorOrder : List ArbitrationFactor := []
  ranking : List (CandidateRanking ν) := []
  selected : CandidateId := {}
  selectedGeneration : CandidateGeneration := {}
  selectedParticipant : ParticipantId := {}
  selectedRole : ParticipantRole := .candidate
  tieUnresolved : Bool := false
  noEligibleCandidate : Bool := false
  considered : Nat := 0
  eliminated : Nat := 0
  notes : List String := []
deriving DecidableEq

/-- One candidate as arbitration sees it. -/
structure ArbitrationCandidateInput (ν : Type := Double) where
  candidate : CandidateId
  generation : CandidateGeneration
  participant : ParticipantId
  participantGeneration : ParticipantGeneration
  role : ParticipantRole
  state : CandidateState
  generationCurrent : Bool
  participantAuthoritative : Bool
  compatible : Bool
  requiredParticipant : Bool
  fallback : Bool
  roleSelectable : Bool
  participantPriority : UInt32
  executionCost : UInt32
  latency : UInt32
  specialistMatches : Nat
  payloadBytes : Nat
  evaluation : CandidateEvaluationSummary ν
deriving DecidableEq

structure ArbitrationInputs (ν : Type := Double) where
  candidates : List (ArbitrationCandidateInput ν)
  policy : ArbitrationPolicy
  aggregation : AggregationPolicy
  evidence : EvidenceRequirement
  quorumSatisfied : Bool
  ensembleGeneration : EnsembleGeneration
  coordinatorEpoch : CoordinatorEpoch
  sequence : Sequence

def renderFactors (factors : List ArbitrationFactor) : String :=
  if factors.isEmpty then "aggregate_score"
  else joinText ">" (factors.map ArbitrationFactor.toString)

def ArbitrationReport.render {ν : Type} (r : ArbitrationReport ν) : String :=
  s!"arbitration factors={renderFactors r.factorOrder} considered={r.considered}"
    ++ s!" eliminated={r.eliminated} selected={r.selected.toString}"
    ++ s!" tie_break={r.tieBreak.toString}"
    ++ (if r.tieUnresolved then " tie_unresolved=true" else "")
    ++ (if r.noEligibleCandidate then " no_eligible_candidate=true" else "")

/-! ## Factors -/

variable {ν : Type} [Arithmetic ν]

open Arithmetic (read count less equal below)

def higherIsBetter : ArbitrationFactor → Bool
  | .executionCost | .latency => false
  | _ => true

/-- Accepts over accepts and rejects; zero when nobody decided. -/
def acceptanceRatio (e : CandidateEvaluationSummary ν) : ν :=
  if e.accepts + e.rejects = 0 then read .zero
  else Arithmetic.div (count e.accepts) (count (e.accepts + e.rejects))

def factorValue (factor : ArbitrationFactor) (c : ArbitrationCandidateInput ν) : ν :=
  match factor with
  | .judgeAcceptanceRatio => acceptanceRatio c.evaluation
  | .verifierState =>
      if 0 < c.evaluation.verifierFail then read .zero
      else if 0 < c.evaluation.verifierPass then read .two
      else if 0 < c.evaluation.verifierAbstain then read .half
      else read .zero
  | .voteCount => count c.evaluation.accepts
  | .weightedVote =>
      if less (read .zero) c.evaluation.weightedScoreSum then c.evaluation.weightedScoreSum
      else read .zero
  | .aggregateScore => c.evaluation.meanScore
  | .minScore => if c.evaluation.evaluations = 0 then read .zero else c.evaluation.minScore
  | .confidence =>
      if c.evaluation.evaluations = 0 then read .zero
      else Arithmetic.div (count c.evaluation.accepts) (count c.evaluation.evaluations)
  | .participantPriority => count c.participantPriority.toNat
  | .specialistRelevance => count c.specialistMatches
  | .executionCost => count c.executionCost.toNat
  | .latency => count c.latency.toNat
  | .provenanceQuality => if c.participantAuthoritative then read .one else read .zero
  | .fallbackStatus => if c.fallback then read .one else read .zero

def factorDetail (factor : ArbitrationFactor) (c : ArbitrationCandidateInput ν) : String :=
  match factor with
  | .judgeAcceptanceRatio => s!"accepts={c.evaluation.accepts} rejects={c.evaluation.rejects}"
  | .verifierState =>
      s!"pass={c.evaluation.verifierPass} fail={c.evaluation.verifierFail}"
        ++ s!" abstain={c.evaluation.verifierAbstain} unknown={c.evaluation.verifierUnknown}"
  | .voteCount => s!"accepts={c.evaluation.accepts}"
  | .weightedVote => "weighted_score_sum=" ++ Arithmetic.format c.evaluation.weightedScoreSum
  | .aggregateScore =>
      "mean_score=" ++ Arithmetic.format c.evaluation.meanScore
        ++ s!" evaluations={c.evaluation.evaluations}"
  | .minScore => "min_score=" ++ Arithmetic.format c.evaluation.minScore
  | .confidence => s!"confidence_inputs={c.evaluation.evaluations}"
  | .participantPriority => s!"participant_priority={c.participantPriority.toNat}"
  | .specialistRelevance => s!"domain_matches={c.specialistMatches}"
  | .executionCost => s!"budget_units={c.executionCost.toNat}"
  | .latency => s!"logical_latency={c.latency.toNat}"
  | .provenanceQuality =>
      if c.participantAuthoritative then "authoritative" else "not_authoritative"
  | .fallbackStatus => if c.fallback then "fallback" else "primary"

def factorPrecedes (factor : ArbitrationFactor) (lhs rhs : ArbitrationCandidateInput ν) : Bool :=
  let left := factorValue factor lhs
  let right := factorValue factor rhs
  if equal left right then false
  else if higherIsBetter factor then less right left
  else less left right

def factorTies (factor : ArbitrationFactor) (lhs rhs : ArbitrationCandidateInput ν) : Bool :=
  equal (factorValue factor lhs) (factorValue factor rhs)

/-- The comparison of the ranking: factors in order, then identity. A later factor
is looked at only where the earlier ones tie. -/
def rankPrecedes (factors : List ArbitrationFactor) (lhs rhs : ArbitrationCandidateInput ν) :
    Bool :=
  match factors with
  | [] => decide (lhs.candidate.value < rhs.candidate.value)
  | factor :: rest =>
      if factorTies factor lhs rhs then rankPrecedes rest lhs rhs
      else factorPrecedes factor lhs rhs

/-! ## Hard eligibility -/

structure Eligibility where
  eligible : Bool := false
  reason : EliminationReason := .none
  detail : String := ""
deriving DecidableEq

def Eligibility.eliminated (reason : EliminationReason) (detail : String) : Eligibility :=
  { reason, detail }

/-- A hard check: nothing when it passes, the elimination otherwise. -/
def eliminateWhen (condition : Bool) (reason : EliminationReason) (detail : String) :
    Option Eligibility :=
  if condition then some (.eliminated reason detail) else none

/-- The states that eliminate a candidate under a reason of their own. -/
def checkState : CandidateState → Option Eligibility
  | .superseded => some (.eliminated .superseded "candidate was superseded by a newer generation")
  | .cancelled => some (.eliminated .cancelled "candidate was cancelled")
  | .failed => some (.eliminated .failedAttempt "candidate attempt failed")
  | .abstained => some (.eliminated .abstained "participant abstained and produced no content")
  | .invalid => some (.eliminated .invalidCandidate "candidate did not pass validation")
  | _ => none

/-- The checks on the candidate's own lifecycle and its participant. -/
def checkStanding (c : ArbitrationCandidateInput ν) : Option Eligibility :=
  eliminateWhen (!c.generationCurrent) .staleGeneration "candidate generation is no longer current"
  <|> checkState c.state
  <|> eliminateWhen (!isContentState c.state) .notAContentState
    "candidate has not produced content yet"
  <|> eliminateWhen (!c.participantAuthoritative) .participantNotAuthoritative
    "producing participant is not authoritative in the current epoch"
  <|> eliminateWhen (!c.compatible) .incompatibleParticipant
    "producing participant is incompatible with the ensemble requirement"
  <|> eliminateWhen (!c.roleSelectable) .notSelectableRole
    "participant role may not become the final answer under this policy"

/-- The mandatory validation predicates. -/
def checkMandatory (evidence : EvidenceRequirement) (e : CandidateEvaluationSummary ν) :
    Option Eligibility :=
  if evidence.mandatoryCriteria.isEmpty then none
  else
    eliminateWhen (0 < e.hardFailures) .hardPredicateFailed
      s!"failed {e.hardFailures} mandatory validation predicate(s)"
    <|> eliminateWhen (0 < e.hardUnknowns && evidence.unknownVerificationIsFailure)
      .hardPredicateFailed
      "mandatory validation predicate returned UNKNOWN, which this policy treats as failure"
    <|> eliminateWhen (e.hardPredicates < evidence.mandatoryCriteria.length)
      .missingRequiredEvidence
      (s!"missing evidence for {evidence.mandatoryCriteria.length - e.hardPredicates}"
        ++ " mandatory validation predicate(s)")

/-- Verification gating: only an explicit PASS admits a candidate. -/
def checkVerifier (e : CandidateEvaluationSummary ν) : Option Eligibility :=
  eliminateWhen (0 < e.verifierFail) .verifierFailed "a verifier returned FAIL"
  <|> eliminateWhen (e.verifierPass == 0) .verifierFailed
    (if 0 < e.verifierUnknown then
      "verification is UNKNOWN; this policy admits only an explicit PASS"
    else if 0 < e.verifierAbstain then
      "verification abstained; this policy admits only an explicit PASS"
    else "no verifier returned PASS for this candidate")

def checkJudges (aggregation : AggregationPolicy) (e : CandidateEvaluationSummary ν) :
    Option Eligibility :=
  eliminateWhen
    (e.accepts + e.rejects == 0 || below (acceptanceRatio e) aggregation.minJudgeAcceptanceRatio)
    .insufficientJudgeAcceptance
    ("judge acceptance ratio " ++ Arithmetic.format (acceptanceRatio e)
      ++ " is below the required minimum " ++ formatDouble aggregation.minJudgeAcceptanceRatio)

def checkEligibility (c : ArbitrationCandidateInput ν) (inputs : ArbitrationInputs ν)
    (verifierGating judgeGating : Bool) : Eligibility :=
  let e := c.evaluation
  let eliminated :=
    checkStanding c
    <|> checkMandatory inputs.evidence e
    <|> (if verifierGating then checkVerifier e else none)
    <|> (if judgeGating then checkJudges inputs.aggregation e else none)
    <|> eliminateWhen (e.evaluations < inputs.evidence.minEvaluationsPerCandidate.toNat)
      .missingRequiredEvidence
      (s!"candidate has {e.evaluations} evaluation(s), the ensemble requires "
        ++ s!"{inputs.evidence.minEvaluationsPerCandidate.toNat}")
    <|> eliminateWhen
      (Double.zero.less inputs.aggregation.minAggregateScore
        && below e.meanScore inputs.aggregation.minAggregateScore) .belowMinimumScore
      ("aggregate score " ++ Arithmetic.format e.meanScore ++ " is below the required minimum "
        ++ formatDouble inputs.aggregation.minAggregateScore)
  eliminated.getD { eligible := true }

/-! ## Arbitration -/

def ArbitrationInputs.verifierGating (inputs : ArbitrationInputs ν) : Bool :=
  inputs.aggregation.requireVerificationPass || inputs.aggregation.kind == .verifierGated

def ArbitrationInputs.judgeGating (inputs : ArbitrationInputs ν) : Bool :=
  inputs.aggregation.requireJudgeAcceptance || inputs.aggregation.kind == .judgeArbitration

/-- Hard eligibility under the policies of the inputs. -/
def ArbitrationInputs.eligibility (inputs : ArbitrationInputs ν) (c : ArbitrationCandidateInput ν) :
    Eligibility :=
  checkEligibility c inputs inputs.verifierGating inputs.judgeGating

/-! ### What eligibility establishes -/

/-- A sequence of checks lets a candidate pass. -/
def passes (checks : Option Eligibility) : Bool := (checks.getD { eligible := true }).eligible

/-- A check that ends the sequence eliminates. -/
def Eliminates (check : Option Eligibility) : Prop := ∀ e, check = some e → e.eligible = false

theorem eliminates_eliminateWhen {condition : Bool} {reason : EliminationReason}
    {detail : String} : Eliminates (eliminateWhen condition reason detail) := by
  intro e he
  unfold eliminateWhen at he
  split at he
  · obtain rfl := Option.some.inj he
    rfl
  · cases he

theorem Eliminates.orElse {first rest : Option Eligibility} (h : Eliminates first)
    (h' : Eliminates rest) : Eliminates (first <|> rest) := by
  cases first with
  | none => simpa using h'
  | some e => simpa [Eliminates] using h e rfl

theorem Eliminates.ite {c : Prop} [Decidable c] {first rest : Option Eligibility}
    (h : Eliminates first) (h' : Eliminates rest) : Eliminates (if c then first else rest) := by
  split
  · exact h
  · exact h'

theorem eliminates_none : Eliminates none := fun _ h => by cases h

@[simp] theorem passes_none : passes none = true := rfl

@[simp] theorem passes_eliminateWhen (condition : Bool) (reason : EliminationReason)
    (detail : String) : passes (eliminateWhen condition reason detail) = !condition := by
  cases condition <;> rfl

/-- A candidate passes a sequence when it passes every check. -/
theorem passes_orElse {first rest : Option Eligibility} (h : Eliminates first) :
    passes (first <|> rest) = (passes first && passes rest) := by
  cases first with
  | none => simp
  | some e => simp [passes, h e rfl]

theorem passes_ite {c : Prop} [Decidable c] (first rest : Option Eligibility) :
    passes (if c then first else rest) = if c then passes first else passes rest := by
  split <;> rfl

/-- What `checkStanding` demands. -/
structure Standing (c : ArbitrationCandidateInput ν) : Prop where
  current : c.generationCurrent = true
  content : isContentState c.state = true
  authoritative : c.participantAuthoritative = true
  compatible : c.compatible = true
  selectable : c.roleSelectable = true

theorem eliminates_checkState {state : CandidateState} : Eliminates (checkState state) := by
  intro e he
  cases state <;> simp only [checkState, Option.some.injEq, reduceCtorEq] at he <;>
    (subst he; rfl)

theorem eliminates_checkStanding {ν : Type} {c : ArbitrationCandidateInput ν} :
    Eliminates (checkStanding c) :=
  eliminates_eliminateWhen.orElse (eliminates_checkState.orElse
    (eliminates_eliminateWhen.orElse (eliminates_eliminateWhen.orElse
      (eliminates_eliminateWhen.orElse eliminates_eliminateWhen))))

theorem passes_checkStanding {ν : Type} (c : ArbitrationCandidateInput ν) :
    passes (checkStanding c) = true ↔ Standing c := by
  -- a content state has no reason of its own to be eliminated
  have hstate : isContentState c.state = true → passes (checkState c.state) = true := by
    cases c.state <;> simp [isContentState, checkState]
  have hpasses : passes (checkStanding c) = (c.generationCurrent && (passes (checkState c.state)
      && (isContentState c.state && (c.participantAuthoritative
        && (c.compatible && c.roleSelectable))))) := by
    rw [checkStanding, passes_orElse eliminates_eliminateWhen,
      passes_orElse eliminates_checkState, passes_orElse eliminates_eliminateWhen,
      passes_orElse eliminates_eliminateWhen, passes_orElse eliminates_eliminateWhen]
    simp only [passes_eliminateWhen, Bool.not_not]
  rw [hpasses]
  simp only [Bool.and_eq_true]
  constructor
  · rintro ⟨hcurrent, -, hcontent, hauth, hcompatible, hselectable⟩
    exact ⟨hcurrent, hcontent, hauth, hcompatible, hselectable⟩
  · intro h
    exact ⟨h.current, hstate h.content, h.content, h.authoritative, h.compatible, h.selectable⟩

/-- What `checkMandatory` demands. -/
structure MandatoryMet (evidence : EvidenceRequirement) (e : CandidateEvaluationSummary ν) :
    Prop where
  failures : evidence.mandatoryCriteria ≠ [] → e.hardFailures = 0
  unknowns : evidence.mandatoryCriteria ≠ [] → evidence.unknownVerificationIsFailure = true →
    e.hardUnknowns = 0
  answers : evidence.mandatoryCriteria.length ≤ e.hardPredicates

theorem eliminates_checkMandatory {ν : Type} {evidence : EvidenceRequirement}
    {e : CandidateEvaluationSummary ν} : Eliminates (checkMandatory evidence e) :=
  eliminates_none.ite (eliminates_eliminateWhen.orElse
    (eliminates_eliminateWhen.orElse eliminates_eliminateWhen))

theorem passes_checkMandatory {ν : Type} (evidence : EvidenceRequirement)
    (e : CandidateEvaluationSummary ν) :
    passes (checkMandatory evidence e) = true ↔ MandatoryMet evidence e := by
  unfold checkMandatory
  split
  · rename_i hnone
    have hnil := List.isEmpty_iff.mp hnone
    simp only [passes_none, true_iff]
    exact ⟨fun h => absurd hnil h, fun h => absurd hnil h, by simp [hnil]⟩
  · rename_i hsome
    have hne : evidence.mandatoryCriteria ≠ [] := by simpa using hsome
    rw [passes_orElse eliminates_eliminateWhen, passes_orElse eliminates_eliminateWhen]
    simp only [passes_eliminateWhen, Bool.and_eq_true, Bool.not_eq_true', decide_eq_false_iff_not,
      Nat.not_lt, Nat.le_zero_eq, Bool.and_eq_false_iff]
    constructor
    · rintro ⟨hfail, hunknown, hanswers⟩
      refine ⟨fun _ => hfail, fun _ hpolicy => ?_, hanswers⟩
      rcases hunknown with hunknown | hunknown
      · exact hunknown
      · rw [hunknown] at hpolicy
        cases hpolicy
    · rintro ⟨hfail, hunknown, hanswers⟩
      refine ⟨hfail hne, ?_, hanswers⟩
      cases hpolicy : evidence.unknownVerificationIsFailure with
      | true => exact .inl (hunknown hne hpolicy)
      | false => exact .inr rfl

/-- Hard eligibility as a list of requirements, one for each check of
`check_eligibility` in its order. The gates ask for something only where
somebody in the ensemble has the role. -/
structure HardEligible (inputs : ArbitrationInputs ν) (c : ArbitrationCandidateInput ν) : Prop where
  standing : Standing c
  mandatory : MandatoryMet inputs.evidence c.evaluation
  verified : inputs.verifierGating = true →
    c.evaluation.verifierFail = 0 ∧ 0 < c.evaluation.verifierPass
  judged : inputs.judgeGating = true → passes (checkJudges inputs.aggregation c.evaluation) = true
  evaluated : inputs.evidence.minEvaluationsPerCandidate.toNat ≤ c.evaluation.evaluations
  scored : (Double.zero.less inputs.aggregation.minAggregateScore
    && below c.evaluation.meanScore inputs.aggregation.minAggregateScore) = false

theorem passes_checkVerifier {ν : Type} (e : CandidateEvaluationSummary ν) :
    passes (checkVerifier e) = true ↔ e.verifierFail = 0 ∧ 0 < e.verifierPass := by
  unfold checkVerifier
  rw [passes_orElse eliminates_eliminateWhen]
  simp [Nat.pos_iff_ne_zero]

/-- `check_eligibility` says exactly this. -/
theorem eligibility_iff {inputs : ArbitrationInputs ν} {c : ArbitrationCandidateInput ν} :
    (inputs.eligibility c).eligible = true ↔ HardEligible inputs c := by
  have hverifier : Eliminates (checkVerifier c.evaluation) :=
    eliminates_eliminateWhen.orElse eliminates_eliminateWhen
  have hjudges : Eliminates (checkJudges inputs.aggregation c.evaluation) :=
    eliminates_eliminateWhen
  have hpasses : (inputs.eligibility c).eligible
      = (passes (checkStanding c) && (passes (checkMandatory inputs.evidence c.evaluation)
        && ((if inputs.verifierGating then passes (checkVerifier c.evaluation) else true)
          && ((if inputs.judgeGating then passes (checkJudges inputs.aggregation c.evaluation)
            else true)
            && (!decide (c.evaluation.evaluations
                < inputs.evidence.minEvaluationsPerCandidate.toNat)
              && !(Double.zero.less inputs.aggregation.minAggregateScore
                && below c.evaluation.meanScore inputs.aggregation.minAggregateScore)))))) := by
    rw [← passes_none, ← passes_ite, ← passes_ite, ← passes_eliminateWhen, ← passes_eliminateWhen,
      ← passes_orElse eliminates_eliminateWhen, ← passes_orElse (hjudges.ite eliminates_none),
      ← passes_orElse (hverifier.ite eliminates_none),
      ← passes_orElse eliminates_checkMandatory, ← passes_orElse eliminates_checkStanding]
    rfl
  rw [hpasses]
  simp only [Bool.and_eq_true, passes_checkStanding, passes_checkMandatory]
  constructor
  · rintro ⟨hstanding, hmandatory, hverified, hjudged, hevaluated, hscored⟩
    refine ⟨hstanding, hmandatory, fun hg => ?_, fun hg => ?_, by simpa using hevaluated,
      by simpa only [Bool.not_eq_true'] using hscored⟩
    · rw [if_pos hg] at hverified
      exact (passes_checkVerifier _).mp hverified
    · rwa [if_pos hg] at hjudged
  · intro h
    refine ⟨h.standing, h.mandatory, ?_, ?_, by simpa using h.evaluated,
      by simpa only [Bool.not_eq_true'] using h.scored⟩
    · split
      · rename_i hg
        exact (passes_checkVerifier _).mpr (h.verified hg)
      · rfl
    · split
      · rename_i hg
        exact h.judged hg
      · rfl

def rankCandidate (inputs : ArbitrationInputs ν) (c : ArbitrationCandidateInput ν) :
    CandidateRanking ν :=
  let eligibility := inputs.eligibility c
  { candidate := c.candidate
    generation := c.generation
    participant := c.participant
    participantGeneration := c.participantGeneration
    role := c.role
    eligible := eligibility.eligible
    elimination := eligibility.reason
    eliminationDetail := eligibility.detail
    factors :=
      if eligibility.eligible then
        inputs.policy.factors.map fun factor =>
          ⟨factor, factorValue factor c, factorDetail factor c⟩
      else [] }

/-- Changes the first element that passes the test. -/
def updateFirst {α : Type} (test : α → Bool) (change : α → α) : List α → List α
  | [] => []
  | x :: xs => if test x then change x :: xs else x :: updateFirst test change xs

/-- Writes the rank of every eligible candidate and moves the eligible
candidates to the front, in rank order. -/
def orderRanking (eligible : List (ArbitrationCandidateInput ν))
    (ranking : List (CandidateRanking ν)) :
    List (CandidateRanking ν) :=
  let ranked := eligible.zipIdx.foldl
    (fun ranking (c, index) =>
      updateFirst (·.candidate == c.candidate) (fun r => { r with rank := index + 1 }) ranking)
    ranking
  eligible.filterMap (fun c => ranked.find? fun r => r.candidate == c.candidate && r.eligible)
    ++ ranked.filter (!·.eligible)

/-- The first two candidates tie on every configured factor. -/
def topTie (factors : List ArbitrationFactor) : List (ArbitrationCandidateInput ν) → Bool
  | first :: second :: _ => factors.all fun factor => factorTies factor first second
  | _ => false

def ArbitrationReport.select (r : ArbitrationReport ν) (c : ArbitrationCandidateInput ν) :
    ArbitrationReport ν :=
  { r with
    selected := c.candidate
    selectedGeneration := c.generation
    selectedParticipant := c.participant
    selectedRole := c.role }

/-- Selects the second of two tied candidates. -/
def ArbitrationReport.selectSecond (r : ArbitrationReport ν) (c : ArbitrationCandidateInput ν)
    (note : String) : ArbitrationReport ν :=
  { r.select c with
    ranking := r.ranking.map fun ranking =>
      if ranking.candidate == c.candidate then { ranking with selected := true } else ranking
    notes := r.notes ++ [note] }

/-- Selects the first candidate of the order. -/
def ArbitrationReport.selectFirst (r : ArbitrationReport ν) (c : ArbitrationCandidateInput ν)
    (notes : List String) : ArbitrationReport ν :=
  { r.select c with
    ranking := updateFirst (fun ranking => ranking.candidate == c.candidate && ranking.eligible)
      (fun ranking => { ranking with selected := true }) r.ranking
    notes := r.notes ++ notes }

/-- The winner of the ordered eligible candidates. -/
def selectWinner (policy : ArbitrationPolicy) (report : ArbitrationReport ν)
    (winner : ArbitrationCandidateInput ν) (others : List (ArbitrationCandidateInput ν)) :
    ArbitrationReport ν :=
  let byOrder := "selected by factor order: " ++ renderFactors policy.factors
  match others with
  | second :: _ =>
      if topTie policy.factors (winner :: others) then
        match policy.tieBreak with
        | .reportTie =>
            { report with
              tieUnresolved := true
              notes := report.notes ++
                ["the two highest ranked candidates are indistinguishable on every configured "
                  ++ "factor; the policy reports a tie"] }
        | .lowestCandidateId => report.selectFirst winner
            ["tie resolved by stable candidate identity (lowest identity wins)", byOrder]
        | .highestScoreThenId =>
            if less winner.evaluation.meanScore second.evaluation.meanScore then
              report.selectSecond second "tie resolved by highest aggregate score"
            else report.selectFirst winner
              ["tie resolved by stable candidate identity (equal aggregate scores)", byOrder]
        | .preferRequiredParticipant =>
            if !winner.requiredParticipant && second.requiredParticipant then
              report.selectSecond second "tie resolved in favour of a required participant"
            else report.selectFirst winner
              ["tie resolved by stable candidate identity", byOrder]
      else report.selectFirst winner [byOrder]
  | [] => report.selectFirst winner [byOrder]

def arbitrate (inputs : ArbitrationInputs ν) : ArbitrationReport ν :=
  let ranking := inputs.candidates.map (rankCandidate inputs)
  let survivors := inputs.candidates.filter fun c => (inputs.eligibility c).eligible
  let report : ArbitrationReport ν :=
    { ensembleGeneration := inputs.ensembleGeneration
      coordinatorEpoch := inputs.coordinatorEpoch
      computedSequence := inputs.sequence
      tieBreak := inputs.policy.tieBreak
      factorOrder := inputs.policy.factors
      ranking
      considered := inputs.candidates.length
      eliminated := (ranking.filter (!·.eligible)).length }
  match sortBy (rankPrecedes inputs.policy.factors) survivors with
  | [] =>
      { report with
        noEligibleCandidate := true
        notes := ["no candidate satisfied hard eligibility"] }
  | winner :: others =>
      selectWinner inputs.policy
        { report with ranking := orderRanking (winner :: others) ranking } winner others

/-! ## The order of the ranking -/

/-- The eligible candidates. -/
def ArbitrationInputs.eligibles (inputs : ArbitrationInputs ν) :
    List (ArbitrationCandidateInput ν) :=
  inputs.candidates.filter fun c => (inputs.eligibility c).eligible

/-- The eligible candidates in the order of the ranking. -/
def ArbitrationInputs.order (inputs : ArbitrationInputs ν) : List (ArbitrationCandidateInput ν) :=
  sortBy (rankPrecedes inputs.policy.factors) inputs.eligibles

theorem mem_eligibles {inputs : ArbitrationInputs ν} {c : ArbitrationCandidateInput ν} :
    c ∈ inputs.eligibles ↔ c ∈ inputs.candidates ∧ (inputs.eligibility c).eligible = true :=
  List.mem_filter

theorem mem_order {inputs : ArbitrationInputs ν} {c : ArbitrationCandidateInput ν} :
    c ∈ inputs.order ↔ c ∈ inputs.candidates ∧ (inputs.eligibility c).eligible = true := by
  rw [ArbitrationInputs.order, mem_sortBy, mem_eligibles]

theorem factorTies_iff {factor : ArbitrationFactor} {a b : ArbitrationCandidateInput ν} :
    factorTies factor a b = true
      ↔ Arithmetic.isNumber (factorValue factor a) = true
        ∧ Arithmetic.isNumber (factorValue factor b) = true
        ∧ Arithmetic.position (factorValue factor a) = Arithmetic.position (factorValue factor b) :=
  Arithmetic.equal_iff

theorem factorTies_symm {factor : ArbitrationFactor} {a b : ArbitrationCandidateInput ν} :
    factorTies factor a b = factorTies factor b a := Arithmetic.equal_comm _ _

/-- Every configured factor of the candidate is a number. Of the factors a mean
score is none where the sums it divides have overflowed. -/
def Measured (factors : List ArbitrationFactor) (c : ArbitrationCandidateInput ν) : Prop :=
  ∀ factor ∈ factors, Arithmetic.isNumber (factorValue factor c) = true

/-- Every configured factor of every eligible candidate is a number. -/
def Comparable (inputs : ArbitrationInputs ν) : Prop :=
  ∀ c ∈ inputs.eligibles, Measured inputs.policy.factors c

/-- Rationals are all numbers. -/
theorem comparable_exact (inputs : ArbitrationInputs Rat) : Comparable inputs :=
  fun _ _ _ _ => rfl

/-- A factor as a key to compare: lower comes first. -/
def rankKey (factor : ArbitrationFactor) (c : ArbitrationCandidateInput ν) : Rat :=
  if higherIsBetter factor then -Arithmetic.position (factorValue factor c)
  else Arithmetic.position (factorValue factor c)

section Keys

variable {factor : ArbitrationFactor} {lhs rhs : ArbitrationCandidateInput ν}
  (hl : Arithmetic.isNumber (factorValue factor lhs) = true)
  (hr : Arithmetic.isNumber (factorValue factor rhs) = true)
include hl hr

theorem factorTies_key :
    factorTies factor lhs rhs = decide (rankKey factor lhs = rankKey factor rhs) := by
  rw [Bool.eq_iff_iff, factorTies_iff, decide_eq_true_eq, rankKey, rankKey]
  split <;> simp [hl, hr]

theorem factorPrecedes_key :
    factorPrecedes factor lhs rhs = decide (rankKey factor lhs < rankKey factor rhs) := by
  have hless : ∀ a b : ν, Arithmetic.isNumber a = true → Arithmetic.isNumber b = true →
      less a b = decide (Arithmetic.position a < Arithmetic.position b) := by
    intro a b ha hb
    rw [Bool.eq_iff_iff, Arithmetic.less_iff, decide_eq_true_eq]
    simp [ha, hb]
  have hties : equal (factorValue factor lhs) (factorValue factor rhs)
      = decide (rankKey factor lhs = rankKey factor rhs) := factorTies_key hl hr
  rw [factorPrecedes, hties, hless _ _ hl hr, hless _ _ hr hl]
  by_cases hsame : rankKey factor lhs = rankKey factor rhs
  · simp [hsame]
  · rw [decide_eq_false hsame, if_neg Bool.false_ne_true, Bool.eq_iff_iff, decide_eq_true_eq,
      rankKey, rankKey]
    split <;> simp

end Keys

/-- Between numbers the comparison is that of their positions. -/
theorem rankPrecedes_eq_lex {factors : List ArbitrationFactor}
    {lhs rhs : ArbitrationCandidateInput ν} (hl : Measured factors lhs)
    (hr : Measured factors rhs) :
    rankPrecedes factors lhs rhs
      = lexPrecedes rankKey (fun c => (c.candidate.value.toNat : Rat)) factors lhs rhs := by
  induction factors with
  | nil => simp [rankPrecedes, lexPrecedes, UInt64.lt_iff_toNat_lt]
  | cons factor rest ih =>
    have hl' := hl factor List.mem_cons_self
    have hr' := hr factor List.mem_cons_self
    rw [rankPrecedes, lexPrecedes, factorTies_key hl' hr', factorPrecedes_key hl' hr',
      ih (fun f hf => hl f (List.mem_cons_of_mem _ hf))
        fun f hf => hr f (List.mem_cons_of_mem _ hf)]
    simp only [decide_eq_true_eq]

/-- Among comparable candidates it is a strict order up to ties. -/
theorem order_eq_lex {inputs : ArbitrationInputs ν} (h : Comparable inputs) :
    inputs.order = sortBy (lexPrecedes rankKey (fun c => (c.candidate.value.toNat : Rat))
      inputs.policy.factors) inputs.eligibles :=
  sortBy_congr fun a ha b hb => rankPrecedes_eq_lex (h a ha) (h b hb)

/-! ## The winner -/

/-- An eligible candidate that no eligible candidate precedes. -/
structure First (inputs : ArbitrationInputs ν) (c : ArbitrationCandidateInput ν) : Prop where
  mem : c ∈ inputs.candidates
  eligible : (inputs.eligibility c).eligible = true
  unpreceded : ∀ other ∈ inputs.candidates, (inputs.eligibility other).eligible = true →
    rankPrecedes inputs.policy.factors other c = false

theorem first_of_order {inputs : ArbitrationInputs ν} {first : ArbitrationCandidateInput ν}
    {rest : List (ArbitrationCandidateInput ν)} (horder : inputs.order = first :: rest)
    (h : Comparable inputs) : First inputs first := by
  have hfirst := mem_order.mp (horder ▸ List.mem_cons_self : first ∈ inputs.order)
  refine ⟨hfirst.1, hfirst.2, fun other hother heligible => ?_⟩
  have hmem := mem_eligibles.mpr ⟨hother, heligible⟩
  rw [rankPrecedes_eq_lex (h other hmem) (h first (mem_eligibles.mpr hfirst))]
  rw [order_eq_lex h] at horder
  exact sortBy_head (lexPrecedes_strictWeak _ _ _) horder other hmem

/-- The declared tie-break takes the second of two tied candidates. The tie-break
compares these two only, however many tie behind them. -/
def prefersSecond (tieBreak : TieBreakPolicy) (first second : ArbitrationCandidateInput ν) :
    Bool :=
  match tieBreak with
  | .highestScoreThenId => less first.evaluation.meanScore second.evaluation.meanScore
  | .preferRequiredParticipant => !first.requiredParticipant && second.requiredParticipant
  | .reportTie | .lowestCandidateId => false

/-- The first of two tied ones, or the one that the tie-break prefers over
it. -/
def FirstOrPreferred (policy : ArbitrationPolicy) (first c : ArbitrationCandidateInput ν) : Prop :=
  c = first ∨ (∀ factor ∈ policy.factors, factorTies factor first c = true)
    ∧ prefersSecond policy.tieBreak first c = true

/-- An eligible candidate that is first in the order of the ranking, or that
ties with the first one on every configured factor and is preferred over it by
the tie-break. Where the candidates are comparable, no eligible candidate
precedes the first. -/
structure Wins (inputs : ArbitrationInputs ν) (c : ArbitrationCandidateInput ν) : Prop where
  mem : c ∈ inputs.candidates
  eligible : (inputs.eligibility c).eligible = true
  place : ∃ first rest, inputs.order = first :: rest
    ∧ (Comparable inputs → First inputs first) ∧ FirstOrPreferred inputs.policy first c

@[simp] theorem select_selected {ν : Type} (r : ArbitrationReport ν)
    (c : ArbitrationCandidateInput ν) : (r.select c).selected = c.candidate := rfl

@[simp] theorem selectFirst_selected {ν : Type} (r : ArbitrationReport ν)
    (c : ArbitrationCandidateInput ν) (notes : List String) :
    (r.selectFirst c notes).selected = c.candidate := rfl

@[simp] theorem selectSecond_selected {ν : Type} (r : ArbitrationReport ν)
    (c : ArbitrationCandidateInput ν) (note : String) :
    (r.selectSecond c note).selected = c.candidate := rfl

theorem topTie_cons {factors : List ArbitrationFactor}
    {first second : ArbitrationCandidateInput ν} {others : List (ArbitrationCandidateInput ν)}
    (h : topTie factors (first :: second :: others) = true) :
    ∀ factor ∈ factors, factorTies factor first second = true :=
  List.all_eq_true.mp h

/-- A winner that is selected is the first of the order, or the second where
the tie-break takes it. -/
theorem selectWinner_selected {policy : ArbitrationPolicy} {report : ArbitrationReport ν}
    {winner : ArbitrationCandidateInput ν} {others : List (ArbitrationCandidateInput ν)}
    (h : (selectWinner policy report winner others).tieUnresolved = false) :
    ∃ c ∈ winner :: others, FirstOrPreferred policy winner c
      ∧ (selectWinner policy report winner others).selected = c.candidate := by
  have hfirst : (selectWinner policy report winner others).selected = winner.candidate →
      ∃ c ∈ winner :: others, FirstOrPreferred policy winner c
        ∧ (selectWinner policy report winner others).selected = c.candidate :=
    fun hselected => ⟨winner, List.mem_cons_self, .inl rfl, hselected⟩
  cases others with
  | nil => exact hfirst rfl
  | cons second rest =>
    by_cases htie : topTie policy.factors (winner :: second :: rest) = true
    · have hsecond : prefersSecond policy.tieBreak winner second = true →
          (selectWinner policy report winner (second :: rest)).selected = second.candidate →
          ∃ c ∈ winner :: second :: rest, FirstOrPreferred policy winner c
            ∧ (selectWinner policy report winner (second :: rest)).selected = c.candidate :=
        fun hprefers hselected => ⟨second, List.mem_cons_of_mem _ List.mem_cons_self,
          .inr ⟨topTie_cons htie, hprefers⟩, hselected⟩
      cases hbreak : policy.tieBreak with
      | reportTie => simp [selectWinner, htie, hbreak] at h
      | lowestCandidateId => exact hfirst (by simp [selectWinner, htie, hbreak])
      | highestScoreThenId =>
        by_cases hscore : less winner.evaluation.meanScore second.evaluation.meanScore = true
        · exact hsecond (by rw [hbreak]; exact hscore)
            (by simp [selectWinner, htie, hbreak, hscore])
        · exact hfirst (by simp [selectWinner, htie, hbreak, hscore])
      | preferRequiredParticipant =>
        by_cases hrequired : (!winner.requiredParticipant && second.requiredParticipant) = true
        · exact hsecond (by rw [hbreak]; exact hrequired)
            (by simp [selectWinner, htie, hbreak, hrequired])
        · exact hfirst (by simp [selectWinner, htie, hbreak, hrequired])
    · exact hfirst (by simp [selectWinner, htie])

/-- A selection is a candidate that wins. -/
theorem arbitrate_selected {inputs : ArbitrationInputs ν}
    (heligible : (arbitrate inputs).noEligibleCandidate = false)
    (htie : (arbitrate inputs).tieUnresolved = false) :
    ∃ c, Wins inputs c ∧ (arbitrate inputs).selected = c.candidate := by
  cases horder : inputs.order with
  | nil =>
    rw [ArbitrationInputs.order, ArbitrationInputs.eligibles] at horder
    simp [arbitrate, horder] at heligible
  | cons winner others =>
    have hsorted := horder
    rw [ArbitrationInputs.order, ArbitrationInputs.eligibles] at hsorted
    simp only [arbitrate, hsorted] at htie ⊢
    obtain ⟨c, hc, hplace, hselected⟩ := selectWinner_selected htie
    obtain ⟨hmem, hpasses⟩ := mem_order.mp (horder ▸ hc)
    exact ⟨c, ⟨hmem, hpasses, winner, others, horder, first_of_order horder, hplace⟩, hselected⟩

/-- A first factor that is a number in every candidate is at its best in the
one that wins. -/
theorem Wins.factor_le {inputs : ArbitrationInputs ν} {c other : ArbitrationCandidateInput ν}
    {factor : ArbitrationFactor} {rest : List ArbitrationFactor} (h : Wins inputs c)
    (hfactors : inputs.policy.factors = factor :: rest) (hhigher : higherIsBetter factor = true)
    (hnumber : ∀ c : ArbitrationCandidateInput ν, Arithmetic.isNumber (factorValue factor c) = true)
    (hother : other ∈ inputs.candidates)
    (heligible : (inputs.eligibility other).eligible = true) :
    Arithmetic.position (factorValue factor other)
      ≤ Arithmetic.position (factorValue factor c) := by
  have hkey : ∀ a b : ArbitrationCandidateInput ν, rankKey factor a < rankKey factor b →
      rankPrecedes inputs.policy.factors a b = true
        ∧ rankPrecedes inputs.policy.factors b a = false := by
    intro a b hlt
    rw [hfactors, rankPrecedes, rankPrecedes, factorTies_key (hnumber a) (hnumber b),
      factorTies_key (hnumber b) (hnumber a), factorPrecedes_key (hnumber a) (hnumber b),
      factorPrecedes_key (hnumber b) (hnumber a)]
    simp [hlt.ne, hlt.ne', hlt, hlt.le]
  have hsorted := sortBy_monotone hkey inputs.eligibles
  obtain ⟨first, behind, horder, -, hplace⟩ := h.place
  have hbest : rankKey factor first ≤ rankKey factor other := by
    have hmem := mem_order.mpr ⟨hother, heligible⟩
    rw [show sortBy (rankPrecedes inputs.policy.factors) inputs.eligibles = first :: behind from
      horder] at hsorted
    rw [horder] at hmem
    rcases List.mem_cons.mp hmem with rfl | hbehind
    · exact le_rfl
    · exact (List.pairwise_cons.mp hsorted).1 other hbehind
  rw [rankKey, rankKey, if_pos hhigher, if_pos hhigher, neg_le_neg_iff] at hbest
  rcases hplace with rfl | ⟨hties, -⟩
  · exact hbest
  · rw [← (factorTies_iff.mp (hties factor (by simp [hfactors]))).2.2]
    exact hbest

end EnsembleFabric
