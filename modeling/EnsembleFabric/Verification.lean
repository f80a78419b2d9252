import EnsembleFabric.CommitGate
import EnsembleFabric.Evidence

/-!
# What eligibility says about verification

`checkEligibility` sees the evidence about a candidate as counts. Two of
them can stand for more than they count: hard-predicate answers are counted
without regard to the criterion they answer, and a PASS is counted without
regard to who gave it. This module says when the counts are enough: along
runs in which no accepted evaluation makes them lie.

For the mandatory criteria the evidence has to stay such that as many
answers as there are criteria answer all of them (`CountSuffices`). An
answer endangers that only if it completes the count while a criterion is
still open, or is an abstention where abstentions are the only failures;
`keepsCount` says of an event that it is no such answer.

For the gate of the verifiers, a PASS in the evidence has to come with one of
a verifier (`PassVouched`). Verifiers alone answer hard predicates, so a
PASS endangers that only if it is a ranking signal and the first PASS;
`vouchedPass` says of an event that it is not.

Both are properties of evidence in the sense of `Evidence`, and the run
theorems `mandatory_answered` and `verifier_gated` are its rule with these
properties, read through `check_eligibility` as the source computes it.
-/

namespace EnsembleFabric

open EventSystem

/-! ## Mandatory criteria -/

/-- The evidence answers every mandatory criterion, and no hard predicate
has a verdict that the policy treats as a failure. -/
structure MandatoryAnswered (policy : EvidenceRequirement) (es : List EvaluationRecord) :
    Prop where
  answered : ∀ criterion ∈ policy.mandatoryCriteria,
    ∃ r ∈ es, isHard r = true ∧ r.criterion = criterion
  failures : ∀ r ∈ es, isHard r = true → r.verification ≠ .fail
  unknowns : policy.unknownVerificationIsFailure = true →
    ∀ r ∈ es, isHard r = true → r.verification ≠ .unknown
  abstentions : policy.abstentionIsFailure = true ∨ policy.unknownVerificationIsFailure = true →
    ∀ r ∈ es, isHard r = true → r.verification ≠ .abstain

/-- As many hard answers as mandatory criteria answer all of them, and none
of them abstains where only that is a failure. -/
structure CountSuffices (policy : EvidenceRequirement) (es : List EvaluationRecord) : Prop where
  complete : policy.mandatoryCriteria.length ≤ es.countP isHard →
    ∀ criterion ∈ policy.mandatoryCriteria, ∃ r ∈ es, isHard r = true ∧ r.criterion = criterion
  mandatory : ∀ r ∈ es, isHard r = true → r.criterion ∈ policy.mandatoryCriteria
  abstentions : policy.abstentionIsFailure = true → policy.unknownVerificationIsFailure = false →
    ∀ r ∈ es, isHard r = true → r.verification ≠ .abstain

theorem countSuffices_nil (policy : EvidenceRequirement) : CountSuffices policy [] := by
  refine ⟨fun hlength criterion hmem => ?_, by simp, by simp⟩
  rw [List.length_eq_zero_iff.mp (Nat.le_zero.mp hlength)] at hmem
  cases hmem

/-- The record does not complete the count while a criterion is open. -/
structure KeepsCount (policy : EvidenceRequirement) (es : List EvaluationRecord)
    (r : EvaluationRecord) : Prop where
  complete : policy.mandatoryCriteria.length ≤ es.countP isHard + 1 →
    ∀ criterion ∈ policy.mandatoryCriteria,
      r.criterion = criterion ∨ ∃ r' ∈ es, isHard r' = true ∧ r'.criterion = criterion
  abstention : policy.abstentionIsFailure = true → policy.unknownVerificationIsFailure = false →
    r.verification ≠ .abstain

theorem CountSuffices.append {policy : EvidenceRequirement} {es : List EvaluationRecord}
    {r : EvaluationRecord} (h : CountSuffices policy es)
    (hmandatory : r.kind = .hardPredicate → r.criterion ∈ policy.mandatoryCriteria)
    (hkeeps : isHard r = true → KeepsCount policy es r) : CountSuffices policy (es ++ [r]) := by
  have hold : ∀ criterion, (∃ r' ∈ es, isHard r' = true ∧ r'.criterion = criterion) →
      ∃ r' ∈ es ++ [r], isHard r' = true ∧ r'.criterion = criterion :=
    fun _ ⟨r', hr', hanswer⟩ => ⟨r', List.mem_append_left _ hr', hanswer⟩
  refine ⟨fun hlength criterion hcriterion => ?_, fun r' hr' hhard => ?_,
    fun habstention hunknown r' hr' hhard => ?_⟩
  · rw [List.countP_append] at hlength
    cases hr : isHard r with
    | false =>
      refine hold criterion (h.complete ?_ criterion hcriterion)
      simpa [hr] using hlength
    | true =>
      have hlength' : policy.mandatoryCriteria.length ≤ es.countP isHard + 1 := by
        simpa [hr] using hlength
      rcases (hkeeps hr).complete hlength' criterion hcriterion with hanswers | hanswered
      · exact ⟨r, by simp, hr, hanswers⟩
      · exact hold criterion hanswered
  · rcases List.mem_append.mp hr' with hmem | hnew
    · exact h.mandatory r' hmem hhard
    · obtain rfl := List.mem_singleton.mp hnew
      exact hmandatory (by simpa [isHard] using hhard)
  · rcases List.mem_append.mp hr' with hmem | hnew
    · exact h.abstentions habstention hunknown r' hmem hhard
    · obtain rfl := List.mem_singleton.mp hnew
      exact (hkeeps hhard).abstention habstention hunknown

/-- Where the count suffices, the check on it establishes the answers. -/
theorem MandatoryMet.answered {policy : EvidenceRequirement} {x : ExecutionRecord}
    {c : CandidateRecord} (h : MandatoryMet policy (summarizeCandidate x c))
    (hcount : CountSuffices policy (currentEvaluations x c)) :
    MandatoryAnswered policy (currentEvaluations x c) := by
  -- a hard predicate answers a mandatory criterion, so there is one
  have hsome : ∀ r ∈ currentEvaluations x c, isHard r = true → policy.mandatoryCriteria ≠ [] :=
    fun r hr hhard => List.ne_nil_of_mem (hcount.mandatory r hr hhard)
  have hfailures : ∀ r ∈ currentEvaluations x c, isHard r = true → r.verification ≠ .fail := by
    intro r hr hhard hfail
    have hzero := h.failures (hsome r hr hhard)
    exact (List.countP_eq_zero.mp hzero) r hr (by simp [hhard, verified, hfail])
  have hunknowns : policy.unknownVerificationIsFailure = true → ∀ r ∈ currentEvaluations x c,
      isHard r = true → r.verification ≠ .unknown ∧ r.verification ≠ .abstain := by
    intro hpolicy r hr hhard
    have hzero := (List.countP_eq_zero.mp (h.unknowns (hsome r hr hhard) hpolicy)) r hr
    simp only [hhard, verified, Bool.true_and, Bool.or_eq_true, beq_iff_eq, not_or] at hzero
    exact ⟨hzero.2, hzero.1⟩
  refine ⟨hcount.complete h.answers, hfailures, fun hpolicy r hr hhard =>
    (hunknowns hpolicy r hr hhard).1, fun hpolicy r hr hhard => ?_⟩
  cases hunknown : policy.unknownVerificationIsFailure with
  | true => exact (hunknowns hunknown r hr hhard).2
  | false =>
    have habstention : policy.abstentionIsFailure = true := by simpa [hunknown] using hpolicy
    exact hcount.abstentions habstention hunknown r hr hhard

/-- An accepted hard answer does not bring the number of answers to that of
the mandatory criteria while one of them stays open, and is no abstention
where only abstentions are failures. -/
def keepsCount (s : System) : Event → Bool
  | .submitEvaluation submission =>
      match acceptEvaluation s.fabric submission with
      | .error _ => true
      | .ok site =>
          let policy := site.seat.ensemble.spec.evidence
          let es := currentEvaluations site.execution site.candidate
          submission.kind != .hardPredicate
            || ((es.countP isHard + 1 < policy.mandatoryCriteria.length
                  || policy.mandatoryCriteria.all fun criterion =>
                    submission.criterion == criterion
                      || es.any fun r => isHard r && r.criterion == criterion)
                && !(policy.abstentionIsFailure && !policy.unknownVerificationIsFailure
                  && submission.verification == .abstain))
  | _ => true

theorem keepsCount_allows {config : FabricConfig} {s : System} {event : Event}
    (h : keepsCount s event = true) :
    Allows (runScope config fun e x r => isHard r = true → KeepsCount e.spec.evidence
      (evidenceFor x r.candidate r.candidateGeneration) r) s event := by
  cases event with
  | submitEvaluation submission =>
    intro site haccept hhard
    have hkind : submission.kind = .hardPredicate := by
      simpa [isHard, acceptedRecord, recordedEvaluation] using hhard
    simp only [keepsCount, haccept, hkind, currentEvaluations_accepted
      (acceptEvaluation_eq_ok haccept), bne_self_eq_false, Bool.false_or, Bool.and_eq_true,
      Bool.or_eq_true, decide_eq_true_eq, List.all_eq_true, beq_iff_eq, List.any_eq_true,
      Bool.not_eq_true'] at h
    obtain ⟨hcomplete, habstention⟩ := h
    refine ⟨fun hlength criterion hcriterion => ?_, fun hpolicy hunknown habstains => ?_⟩
    · rcases hcomplete with hshort | hall
      · exact absurd hshort (Nat.not_lt.mpr hlength)
      · exact hall criterion hcriterion
    · have habstains' : submission.verification = .abstain := habstains
      simp [hpolicy, hunknown, habstains'] at habstention
  | _ => trivial

/-- In every run whose answers keep the count, an eligible candidate has
every mandatory criterion answered. -/
theorem mandatory_answered (config : FabricConfig) (events : List Event)
    (hkeeps : Along System.next (fun s event => keepsCount s event = true) (.initial config)
      events)
    (id : EnsembleId) (e : EnsembleRecord) (x : ExecutionRecord) (c : CandidateRecord)
    (hfind : ((System.initial config).run events).fabric.find id = some e)
    (hexecution : e.execution = some x) (heligible : passesHardChecks e x c = true) :
    MandatoryAnswered e.spec.evidence (currentEvaluations x c) := by
  have hinvariant := reachable_evidence (P := fun e es => CountSuffices e.spec.evidence es)
    (fun e => countSuffices_nil e.spec.evidence)
    (fun hsame h => by rw [hsame.spec]; exact h)
    (fun _ hadmitted hmandatory h => h.append hmandatory hadmitted)
    (hkeeps.mono fun _ _ => keepsCount_allows) id
  have hmet : MandatoryMet e.spec.evidence (summarizeCandidate x c) :=
    (eligibility_iff.mp heligible).mandatory
  exact hmet.answered ((hinvariant e x hfind hexecution).2 c.id c.generation)

namespace Sample

/-- One candidate and two verifiers, two mandatory criteria; only an
abstention is a failure. -/
def verifiedSpec : EnsembleSpec where
  id := ⟨1⟩
  label := "verified"
  participants := [participant 1 candidateRole, participant 2 verifierRole,
    participant 3 verifierRole]
  evidence :=
    { mandatoryCriteria := [⟨1, 1⟩, ⟨2, 1⟩], unknownVerificationIsFailure := false
      abstentionIsFailure := true }

/-- The verifiers are asked for four answers: 1 and 2 are the first one's
for the two criteria, 3 and 4 the second one's. -/
def verifying : List Event := start verifiedSpec ++ [content 1 1 [7], advance]

/-- Both criteria are answered. -/
def verifiedBoth : List Event := verifying ++ [verify 2 1 1 1 .pass, verify 2 1 2 2 .pass]

/-- Both verifiers answer the first criterion only. -/
def verifiedFirst : List Event := verifying ++ [verify 2 1 1 1 .pass, verify 3 1 3 1 .pass]

/-- A verifier abstains on the second criterion. -/
def verifiedAbstaining : List Event :=
  verifying ++ [verify 2 1 1 1 .pass, verify 2 1 2 2 .abstain]

end Sample

/-- An eligible candidate with both mandatory criteria answered. -/
theorem verifiedBoth_answered : ∃ e x c, Sample.ensemble Sample.verifiedBoth = some e
    ∧ e.execution = some x ∧ passesHardChecks e x c = true
    ∧ MandatoryAnswered e.spec.evidence (currentEvaluations x c) := by
  have hkeeps : Along System.next (fun s event => keepsCount s event = true) (.initial {})
      Sample.verifiedBoth := by decide +kernel
  have heligible : (Sample.ensemble Sample.verifiedBoth).any (fun e => e.execution.any fun x =>
      x.candidates.any fun c => passesHardChecks e x c) = true := by decide +kernel
  simp only [Option.any_eq_true, List.any_eq_true] at heligible
  obtain ⟨e, hfind, x, hexecution, c, -, heligible⟩ := heligible
  exact ⟨e, x, c, hfind, hexecution, heligible,
    mandatory_answered {} Sample.verifiedBoth hkeeps ⟨1⟩ e x c hfind hexecution heligible⟩

/-- Two answers to one mandatory criterion stand in for the other one, and
an abstention passes where it is a failure. In both cases the candidate is
eligible. -/
theorem eligible_unanswered :
    (∃ e x c, Sample.ensemble Sample.verifiedFirst = some e ∧ e.execution = some x
      ∧ c ∈ x.candidates ∧ passesHardChecks e x c = true
      ∧ ¬ MandatoryAnswered e.spec.evidence (currentEvaluations x c))
    ∧ ∃ e x c, Sample.ensemble Sample.verifiedAbstaining = some e ∧ e.execution = some x
      ∧ c ∈ x.candidates ∧ passesHardChecks e x c = true
      ∧ ¬ MandatoryAnswered e.spec.evidence (currentEvaluations x c) := by
  have hfirst : (Sample.ensemble Sample.verifiedFirst).any (fun e => e.execution.any fun x =>
      x.candidates.any fun c => passesHardChecks e x c
        && e.spec.evidence.mandatoryCriteria.any fun criterion =>
          (currentEvaluations x c).all fun r => !isHard r || r.criterion != criterion) = true := by
    decide +kernel
  have habstaining : (Sample.ensemble Sample.verifiedAbstaining).any (fun e =>
      e.execution.any fun x => x.candidates.any fun c => passesHardChecks e x c
        && e.spec.evidence.abstentionIsFailure
        && (currentEvaluations x c).any fun r => isHard r && r.verification == .abstain)
      = true := by decide +kernel
  simp only [Option.any_eq_true, List.any_eq_true, List.all_eq_true, Bool.and_eq_true,
    Bool.or_eq_true, Bool.not_eq_true', bne_iff_ne, beq_iff_eq] at hfirst habstaining
  obtain ⟨e, hfind, x, hexecution, c, hc, heligible, criterion, hcriterion, hnone⟩ := hfirst
  obtain ⟨e', hfind', x', hexecution', c', hc', ⟨heligible', hpolicy⟩, r, hr, hhard, habstains⟩ :=
    habstaining
  refine ⟨⟨e, x, c, hfind, hexecution, hc, heligible, fun hanswered => ?_⟩,
    ⟨e', x', c', hfind', hexecution', hc', heligible', fun hanswered => ?_⟩⟩
  · obtain ⟨r, hr, hhard, heq⟩ := hanswered.answered criterion hcriterion
    rcases hnone r hr with hsoft | hother
    · rw [hsoft] at hhard
      cases hhard
    · exact hother heq
  · exact hanswered.abstentions (.inl hpolicy) r hr hhard habstains

/-! ## Verifier gating -/

/-- Only candidates that a verifier passed are eligible. -/
def EnsembleSpec.verifierGated (spec : EnsembleSpec) : Bool :=
  spec.aggregation.requireVerificationPass || spec.aggregation.kind == .verifierGated

/-- A verifier's PASS on a hard predicate. -/
structure VerifierPass (e : EnsembleRecord) (r : EvaluationRecord) : Prop where
  role : holdsRole e r.evaluator .verifier = true
  kind : r.kind = .hardPredicate
  verification : r.verification = .pass

/-- In a gated ensemble, a PASS in the evidence is not without one of a
verifier. -/
structure PassVouched (e : EnsembleRecord) (es : List EvaluationRecord) : Prop where
  vouched : e.spec.verifierGated = true → (∃ r ∈ es, r.verification = .pass) →
    ∃ r ∈ es, VerifierPass e r
  roles : ∀ r ∈ es, r.kind = .hardPredicate → holdsRole e r.evaluator .verifier = true

theorem PassVouched.append {e : EnsembleRecord} {p : PendingEvaluation}
    {es : List EvaluationRecord} {r : EvaluationRecord} (h : PassVouched e es)
    (hanswers : Answers e p r)
    (hvouched : e.spec.verifierGated = true → r.verification = .pass →
      r.kind = .hardPredicate ∨ ∃ r' ∈ es, r'.kind = .hardPredicate ∧ r'.verification = .pass) :
    PassVouched e (es ++ [r]) := by
  constructor
  · rintro hgated ⟨r', hr', hpass⟩
    rcases List.mem_append.mp hr' with hmem | hnew
    · obtain ⟨r'', hr'', hverifier⟩ := h.vouched hgated ⟨r', hmem, hpass⟩
      exact ⟨r'', List.mem_append_left _ hr'', hverifier⟩
    · obtain rfl := List.mem_singleton.mp hnew
      rcases hvouched hgated hpass with hhard | ⟨r'', hr'', hhard, hpass'⟩
      · exact ⟨r', hr', hanswers.verifier.mp hhard, hhard, hpass⟩
      · exact ⟨r'', List.mem_append_left _ hr'', h.roles r'' hr'' hhard, hhard, hpass'⟩
  · intro r' hr' hhard
    rcases List.mem_append.mp hr' with hmem | hnew
    · exact h.roles r' hmem hhard
    · obtain rfl := List.mem_singleton.mp hnew
      exact hanswers.verifier.mp hhard

theorem VerifierPass.of_same {e e' : EnsembleRecord} {r : EvaluationRecord}
    (h : VerifierPass e r) (hsame : SameDeclarations e e') : VerifierPass e' r :=
  ⟨(hsame.roles _ _).trans h.role, h.kind, h.verification⟩

theorem PassVouched.of_same {e e' : EnsembleRecord} {es : List EvaluationRecord}
    (h : PassVouched e es) (hsame : SameDeclarations e e') : PassVouched e' es := by
  refine ⟨fun hgated hpass => ?_, fun r hr hhard => (hsame.roles _ _).trans (h.roles r hr hhard)⟩
  rw [hsame.spec] at hgated
  obtain ⟨r, hr, hverifier⟩ := h.vouched hgated hpass
  exact ⟨r, hr, hverifier.of_same hsame⟩

/-- A PASS that is accepted in a gated ensemble is a hard predicate, which
only verifiers answer, or comes after a current one. -/
def vouchedPass (s : System) : Event → Bool
  | .submitEvaluation submission =>
      match acceptEvaluation s.fabric submission with
      | .error _ => true
      | .ok site =>
          !site.seat.ensemble.spec.verifierGated || submission.verification != .pass
            || submission.kind == .hardPredicate
            || (currentEvaluations site.execution site.candidate).any fun r =>
              isHard r && verified .pass r
  | _ => true

theorem vouchedPass_allows {config : FabricConfig} {s : System} {event : Event}
    (h : vouchedPass s event = true) :
    Allows (runScope config fun e x r => e.spec.verifierGated = true → r.verification = .pass →
      r.kind = .hardPredicate ∨ ∃ r' ∈ evidenceFor x r.candidate r.candidateGeneration,
        r'.kind = .hardPredicate ∧ r'.verification = .pass) s event := by
  cases event with
  | submitEvaluation submission =>
    intro site haccept hgated hpass
    have hpass' : submission.verification = .pass := hpass
    simp only [vouchedPass, haccept, hgated, hpass', currentEvaluations_accepted
      (acceptEvaluation_eq_ok haccept), Bool.not_true, bne_self_eq_false, Bool.false_or,
      Bool.or_eq_true, beq_iff_eq, List.any_eq_true, Bool.and_eq_true, isHard, verified] at h
    exact h
  | _ => trivial

/-- In every run whose PASSes are vouched for, an eligible candidate of a
gated ensemble has a verifier's PASS. -/
theorem verifier_gated (config : FabricConfig) (events : List Event)
    (hvouched : Along System.next (fun s event => vouchedPass s event = true) (.initial config)
      events)
    (id : EnsembleId) (e : EnsembleRecord) (x : ExecutionRecord) (c : CandidateRecord)
    (hfind : ((System.initial config).run events).fabric.find id = some e)
    (hexecution : e.execution = some x) (hgated : e.spec.verifierGated = true)
    (heligible : passesHardChecks e x c = true) :
    ∃ r ∈ currentEvaluations x c, VerifierPass e r := by
  have hinvariant := reachable_evidence (P := PassVouched)
    (fun e => ⟨by simp, by simp⟩) (fun hsame h => h.of_same hsame)
    (fun hanswers hadmitted _ h => h.append hanswers hadmitted)
    (hvouched.mono fun _ _ => vouchedPass_allows) id
  have hpasses : 0 < (currentEvaluations x c).countP (verified .pass) :=
    ((eligibility_iff.mp heligible).verified hgated).2
  obtain ⟨r, hr, hpass⟩ := List.countP_pos_iff.mp hpasses
  exact ((hinvariant e x hfind hexecution).2 c.id c.generation).vouched hgated
    ⟨r, hr, by simpa [verified] using hpass⟩

namespace Sample

/-- Only candidates that a verifier passed; an UNKNOWN is no failure. -/
def gatedSpec : EnsembleSpec where
  id := ⟨1⟩
  label := "gated"
  participants := [participant 1 candidateRole, participant 2 judgeRole,
    participant 3 verifierRole]
  aggregation := { requireVerificationPass := true }
  evidence := { mandatoryCriteria := [⟨1, 1⟩], unknownVerificationIsFailure := false }

/-- The verifier answers its criterion. -/
def gatedAnswer (verification : VerificationState) : List Event :=
  start gatedSpec ++ [content 1 1 [7], advance, verify 3 1 2 1 verification]

/-- The verifier answers UNKNOWN, and the judge submits a PASS. -/
def judgePassed : List Event :=
  gatedAnswer .unknown ++ [.submitEvaluation
    { authority := evaluationAuthority 2 1 1, criterion := ⟨1, 1⟩, verification := .pass
      judgment := .accept }]

end Sample

/-- A candidate that its verifier passed. -/
theorem gatedAnswer_pass_vouched : ∃ e x c, Sample.ensemble (Sample.gatedAnswer .pass) = some e
    ∧ e.execution = some x ∧ passesHardChecks e x c = true
    ∧ ∃ r ∈ currentEvaluations x c, VerifierPass e r := by
  have hvouched : Along System.next (fun s event => vouchedPass s event = true) (.initial {})
      (Sample.gatedAnswer .pass) := by decide +kernel
  have heligible : (Sample.ensemble (Sample.gatedAnswer .pass)).any (fun e =>
      e.spec.verifierGated && e.execution.any fun x =>
        x.candidates.any fun c => passesHardChecks e x c) = true := by decide +kernel
  simp only [Option.any_eq_true, List.any_eq_true, Bool.and_eq_true] at heligible
  obtain ⟨e, hfind, hgated, x, hexecution, c, -, heligible⟩ := heligible
  exact ⟨e, x, c, hfind, hexecution, heligible,
    verifier_gated {} (Sample.gatedAnswer .pass) hvouched ⟨1⟩ e x c hfind hexecution hgated
      heligible⟩

/-- A judge's PASS makes a candidate eligible that no verifier passed: the gate
counts verification states, whoever gave them. -/
theorem judge_passes_gate : ∃ e x c, Sample.ensemble Sample.judgePassed = some e
    ∧ e.execution = some x ∧ c ∈ x.candidates ∧ e.spec.verifierGated = true
    ∧ passesHardChecks e x c = true ∧ ∀ r ∈ currentEvaluations x c, ¬ VerifierPass e r := by
  have hpassed : (Sample.ensemble Sample.judgePassed).any (fun e =>
      e.spec.verifierGated && e.execution.any fun x => x.candidates.any fun c =>
        passesHardChecks e x c && (currentEvaluations x c).all fun r =>
          !isHard r || r.verification != .pass) = true := by decide +kernel
  simp only [Option.any_eq_true, List.any_eq_true, List.all_eq_true, Bool.and_eq_true,
    Bool.or_eq_true, Bool.not_eq_true', bne_iff_ne] at hpassed
  obtain ⟨e, hfind, hgated, x, hexecution, c, hc, heligible, hnone⟩ := hpassed
  refine ⟨e, x, c, hfind, hexecution, hc, hgated, heligible, fun r hr hpass => ?_⟩
  rcases hnone r hr with hsoft | hother
  · simp [isHard, hpass.kind] at hsoft
  · exact hother hpass.verification

end EnsembleFabric
