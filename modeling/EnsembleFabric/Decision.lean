import EnsembleFabric.CommitGate

/-!
# What a committed decision rests on

`prepareResult` combines four reports: the status of the execution, quorum,
consensus and arbitration. This module reads a committed decision back to
what every one of them found, and to the candidate that was selected.

> committed_decision_sound : in every reachable state, a preparation that
> decides COMMITTED for an execution without a stored result decides soundly.

`DecisionSound` lists what that means: the quorum is reached, the execution
is neither cancelled nor superseded nor up for revalidation, no required
participant has failed where all are required, and the selected candidate is
content of the execution that wins its arbitration (`WinsArbitration`), with
the payload on record and the digest of that payload.

The fallback policy is the exception the statement has to make. A fallback
policy that is exhausted and has a trigger that fires still commits once a
fallback candidate holds content (`fallback_commits_while_exhausted`); where
none does, no trigger of it fires (`trigger_quiet`), except for the one that
reads the consensus of the report before.
-/

namespace EnsembleFabric

/-! ## Reading the decision back -/

theorem decisionFor_committed {state : ConsensusState} {selection : Bool}
    (h : decisionFor state selection = .committed) : selection = true := by
  cases selection with
  | true => rfl
  | false => cases state <;> cases h

/-- A committed decision carries the candidate that was selected. -/
theorem decideResult_committed {limits : Limits} {e : EnsembleRecord} {x : ExecutionRecord}
    {r : EnsembleResult} (h : decideResult limits e x = .ok r)
    (hdecision : r.decision = .committed) :
    hasSelection e x = true ∧ ∃ c, x.candidate? x.arbitration.selected = some c
      ∧ isContentState c.state = true ∧ r.selectedCandidate = c.id
      ∧ r.selectedCandidateGeneration = c.generation ∧ r.payload = c.payload
      ∧ r.payloadDigest = c.payloadDigest := by
  obtain ⟨decided, hselect, rfl⟩ := decideResult_eq_ok.mp h
  rcases selectResult_eq_ok hselect with ⟨rfl, hnot⟩ | ⟨hselection, c, hc, rfl⟩
  · exact absurd ⟨hdecision, decisionFor_committed hdecision⟩ hnot
  · obtain ⟨hfound, hcontent⟩ := Option.filter_eq_some_iff.mp hc
    exact ⟨hselection, c, hfound, hcontent, rfl, rfl, rfl, rfl⟩

/-- A preparation that finds no stored result recomputes the reports, and
answers what they support. -/
theorem prepareResult_undecided {f : Fabric} {id : EnsembleId} {generation : EnsembleGeneration}
    {r : EnsembleResult} {e : EnsembleRecord} {x : ExecutionRecord}
    (h : (prepareResult f id generation).2 = .ok r)
    (he : (prepareResult f id generation).1.find id = some e) (hx : e.execution = some x)
    (hnone : x.result = none) :
    ∃ before, x = computeReports e before ∧ decideResult f.config.limits e x = .ok r := by
  unfold prepareResult at h he
  split at h
  · cases h
  · rename_i e₀ hfind
    simp only [hfind] at he
    split at h
    · cases h
    · rename_i hgen
      rw [if_neg hgen] at he
      split at h
      · cases h
      · rename_i x₀ hx₀
        simp only [hx₀] at he
        split at h
        · rename_i stored hstored
          simp only [hstored] at he
          obtain rfl := Option.some.inj (hfind.symm.trans he)
          obtain rfl := Option.some.inj (hx₀.symm.trans hx)
          rw [hstored] at hnone
          cases hnone
        · rename_i hundecided
          simp only [hundecided, Fabric.find_store_self, Option.some.injEq] at he
          subst he
          obtain rfl := Option.some.inj hx
          exact ⟨x₀, rfl, h⟩

/-! ## The selected candidate -/

theorem Wins.of_same {inputs inputs' : ArbitrationInputs} {c : ArbitrationCandidateInput}
    (h : Wins inputs c) (hcandidates : inputs'.candidates = inputs.candidates)
    (hpolicy : inputs'.policy = inputs.policy)
    (haggregation : inputs'.aggregation = inputs.aggregation)
    (hevidence : inputs'.evidence = inputs.evidence) : Wins inputs' c := by
  obtain ⟨cs, policy, aggregation, evidence, _, _, _, _⟩ := inputs
  obtain ⟨cs', policy', aggregation', evidence', _, _, _, _⟩ := inputs'
  obtain rfl : cs' = cs := hcandidates
  obtain rfl : policy' = policy := hpolicy
  obtain rfl : aggregation' = aggregation := haggregation
  obtain rfl : evidence' = evidence := hevidence
  obtain ⟨first, rest, horder, hfirst, hplace⟩ := h.place
  refine ⟨h.mem, h.eligible, first, rest, horder, fun hcomparable => ?_, hplace⟩
  have hbest := hfirst hcomparable
  exact ⟨hbest.mem, hbest.eligible, hbest.unpreceded⟩

/-- The candidate wins the arbitration of its execution. -/
def WinsArbitration (e : EnsembleRecord) (x : ExecutionRecord) (c : CandidateRecord) : Prop :=
  Wins (arbitrationInputs e x {}) (arbitrationInput e x c)

theorem WinsArbitration.passesHardChecks {e : EnsembleRecord} {x : ExecutionRecord}
    {c : CandidateRecord} (h : WinsArbitration e x c) : passesHardChecks e x c = true :=
  h.eligible

/-- The arbitration report names a candidate that wins. -/
theorem computeReports_selected {e : EnsembleRecord} {before x : ExecutionRecord}
    (hreports : x = computeReports e before)
    (heligible : x.arbitration.noEligibleCandidate = false)
    (htie : x.arbitration.tieUnresolved = false) :
    ∃ c ∈ x.candidates, WinsArbitration e x c ∧ x.arbitration.selected = c.id := by
  subst hreports
  obtain ⟨winner, hwins, hselected⟩ := arbitrate_selected heligible htie
  have hwins' : Wins (arbitrationInputs e (computeReports e before) {}) winner :=
    hwins.of_same (computeReports_arbitrationCandidates e before) rfl rfl rfl
  obtain ⟨c, hc, rfl⟩ := List.mem_map.mp hwins'.mem
  exact ⟨c, hc, hwins', hselected⟩

/-! ## Decisions are sound -/

/-- What a committed decision rests on, in the state it is prepared in. -/
structure DecisionSound (limits : Limits) (e : EnsembleRecord) (x : ExecutionRecord)
    (r : EnsembleResult) : Prop where
  quorum : x.quorum.state = .reached
  notCancelled : x.status ≠ .cancelled
  notSuperseded : x.status ≠ .superseded ∧ e.superseded = false
  notAwaiting : x.status ≠ .revalidationRequired
  required : e.spec.completion.requireAllRequiredParticipants = true →
    requiredParticipantFailed e = false
  -- a trigger on the consensus reads the report before this one
  fallback : e.spec.fallback.enabled = true → e.spec.fallback.maxDepth ≤ x.fallbackDepth →
    fallbackContent x = false → ∀ trigger ∈ e.spec.fallback.triggers,
      trigger ≠ .judgeDisagreement → fallbackTriggerFires trigger e x = false
  selected : ∃ c, x.candidate? r.selectedCandidate = some c
    ∧ c.generation = r.selectedCandidateGeneration ∧ isContentState c.state = true
    ∧ passesHardChecks e x c = true ∧ WinsArbitration e x c
    ∧ Content limits c ∧ r.payload = c.payload
  digest : r.payloadDigest = fingerprintPayload r.payload

/-- A selection counted the votes. -/
theorem hasSelection_counted {e : EnsembleRecord} {before : ExecutionRecord}
    (hselection : hasSelection e (computeReports e before) = true) :
    ∃ leader others,
      Counted (consensusInputs e (withQuorum e before) ⟨before.reportGeneration + 1⟩)
        leader others := by
  simp only [hasSelection, Bool.and_eq_true, Bool.or_eq_true] at hselection
  apply computeConsensus_counted
  rw [← computeReports_consensus]
  rcases hselection.2 with hresolved | hpolicy
  · exact .inl hresolved
  · simp only [tieResolvedByPolicy, Bool.and_eq_true, beq_iff_eq] at hpolicy
    exact .inr hpolicy.1.1

theorem hasSelection_selected {e : EnsembleRecord} {x : ExecutionRecord}
    (h : hasSelection e x = true) :
    x.arbitration.noEligibleCandidate = false ∧ x.arbitration.tieUnresolved = false := by
  simp only [hasSelection, Bool.and_eq_true, Bool.not_eq_true'] at h
  exact ⟨h.1.1.2, h.1.2⟩

/-- No trigger fires where an exhausted fallback policy has no content. -/
theorem trigger_quiet {e : EnsembleRecord} {x : ExecutionRecord} {sequence : Sequence}
    {leader : CandidateTally} {others : List CandidateTally}
    (h : Counted (consensusInputs e x sequence) leader others)
    (henabled : e.spec.fallback.enabled = true)
    (hdepth : e.spec.fallback.maxDepth ≤ x.fallbackDepth) (hnone : fallbackContent x = false)
    {trigger : FallbackTrigger} (htrigger : trigger ∈ e.spec.fallback.triggers) :
    fallbackTriggerFires trigger e x = false := by
  have hfallback : fallbackRequired e x = false := h.fallbackRequired
  simp only [fallbackRequired, henabled, hdepth, hnone, decide_true, Bool.true_and, Bool.not_false,
    List.any_eq_false, Bool.not_eq_true] at hfallback
  exact hfallback trigger htrigger

theorem decision_sound {limits : Limits} {e : EnsembleRecord}
    {before x : ExecutionRecord} {r : EnsembleResult}
    (hnumbered : ∀ c ∈ x.candidates, x.candidate? c.id = some c)
    (hcontent : ContentAdmitted limits x) (hreports : x = computeReports e before)
    (hundecided : x.result = none) (hdecide : decideResult limits e x = .ok r)
    (hdecision : r.decision = .committed) : DecisionSound limits e x r := by
  obtain ⟨hselection, c, hfound, hstate, hid, hgeneration, hpayload, hdigest⟩ :=
    decideResult_committed hdecide hdecision
  obtain ⟨heligible, htie⟩ := hasSelection_selected hselection
  obtain ⟨winner, hwinner, hwins, hselected⟩ := computeReports_selected hreports heligible htie
  -- identities are distinct, so the candidate found is the one that wins
  have hsame : winner = c := by
    rw [hselected] at hfound
    exact Option.some.inj ((hnumbered winner hwinner).symm.trans hfound)
  subst hsame
  have hadmitted := hcontent hundecided winner hwinner hstate
  subst hreports
  obtain ⟨leader, others, hcounted⟩ := hasSelection_counted hselection
  have hsuperseded := hcounted.superseded
  have hcancelled := hcounted.cancelled
  have hawaiting := hcounted.revalidationRequired
  simp only [consensusInputs, withQuorum, Bool.or_eq_false_iff, beq_eq_false_iff_ne]
    at hsuperseded hcancelled hawaiting
  refine ⟨hcounted.quorum, hcancelled, hsuperseded, hawaiting, hcounted.required, ?_, ?_, ?_⟩
  · intro henabled hdepth hnone trigger htrigger hne
    rw [computeReports_fallbackContent] at hnone
    rw [fallbackTriggerFires_computeReports e before hne]
    have hquiet := trigger_quiet hcounted henabled hdepth hnone htrigger
    cases trigger <;> first | exact absurd rfl hne | exact hquiet
  · exact ⟨winner, by rw [hid]; exact hnumbered winner hwinner, hgeneration.symm, hstate,
      hwins.passesHardChecks, hwins, hadmitted, hpayload⟩
  · rw [hdigest, hadmitted.digest, hpayload]

theorem run_prepareResult (config : FabricConfig) (events : List Event) (id : EnsembleId)
    (generation : EnsembleGeneration) :
    ((System.initial config).run (events ++ [.prepareResult id generation])).fabric
      = (prepareResult ((System.initial config).run events).fabric id generation).1 := by
  rw [System.run, EventSystem.run_append]
  exact remember_fabric ..

/-- In every reachable state, a preparation that decides COMMITTED for an
execution without a stored result decides soundly. -/
theorem committed_decision_sound (config : FabricConfig) (events : List Event) (id : EnsembleId)
    (generation : EnsembleGeneration) (r : EnsembleResult) (e : EnsembleRecord)
    (x : ExecutionRecord)
    (hprepared : (prepareResult ((System.initial config).run events).fabric id generation).2
      = .ok r)
    (hdecision : r.decision = .committed)
    (hfind : (prepareResult ((System.initial config).run events).fabric id generation).1.find id
      = some e)
    (hexecution : e.execution = some x) (hundecided : x.result = none) :
    DecisionSound config.limits e x r := by
  have hafter := run_prepareResult config events id generation
  have hconfig := (reachable_named config events).1
  have hapart := reachable_apart config (events ++ [.prepareResult id generation])
  have hcontent := reachable_contentAdmitted config (events ++ [.prepareResult id generation]) id
  rw [hafter] at hapart hcontent
  obtain ⟨before, hreports, hdecide⟩ :=
    prepareResult_undecided hprepared hfind hexecution hundecided
  rw [hconfig] at hdecide
  exact decision_sound (fun _ => (hapart.numbered id).candidate? hfind hexecution)
    (hcontent e x hfind hexecution) hreports
    hundecided hdecide hdecision

/-- A committed decision in the execution of one settled candidate, whose content
needs no evaluation. -/
theorem lone_decision_sound :
    ∃ e x, (Sample.prepared (Sample.start Sample.loneSpec ++ [Sample.content 1 1 [7]])).decision
        = .committed
      ∧ DecisionSound {} e x
        (Sample.prepared (Sample.start Sample.loneSpec ++ [Sample.content 1 1 [7]])) := by
  let events := Sample.start Sample.loneSpec ++ [Sample.content 1 1 [7]]
  have hprepared : (prepareResult (Sample.reached events).fabric ⟨1⟩ ⟨1⟩).2
      = .ok (Sample.prepared events) := by decide +kernel
  have hdecision : (Sample.prepared events).decision = .committed := by decide +kernel
  have hafter : ((prepareResult (Sample.reached events).fabric ⟨1⟩ ⟨1⟩).1.find ⟨1⟩).any
      (fun e => e.execution.any (·.result.isNone)) = true := by decide +kernel
  simp only [Option.any_eq_true, Option.isNone_iff_eq_none] at hafter
  obtain ⟨e, hfind, x, hexecution, hundecided⟩ := hafter
  exact ⟨e, x, hdecision, committed_decision_sound {} events ⟨1⟩ ⟨1⟩ _ e x hprepared hdecision
    hfind hexecution hundecided⟩

/-- A trigger of an exhausted fallback policy fires. -/
def exhaustedTrigger (e : EnsembleRecord) (x : ExecutionRecord) : Bool :=
  e.spec.fallback.enabled && decide (e.spec.fallback.maxDepth ≤ x.fallbackDepth)
    && e.spec.fallback.triggers.any fun trigger => fallbackTriggerFires trigger e x

namespace Sample

/-- Participant 2 steps in when every primary candidate is without content. -/
def fallbackSpec : EnsembleSpec where
  id := ⟨1⟩
  label := "fallback"
  participants := [participant 1 candidateRole, participant 2 fallbackRole]
  fallback :=
    { enabled := true, triggers := [.allPrimaryInvalid], fallbackParticipants := [⟨2⟩] }

/-- The primary candidate abstains and the fallback candidate answers. -/
def fallbackAnswered : List Event :=
  start fallbackSpec ++
    [.submitCandidateAbstention { authority := candidateAuthority 1 1 }, advance,
      content 2 2 [7]]

end Sample

/-- The content of a fallback candidate is committed while the trigger that
called for it fires and the policy is exhausted. -/
theorem fallback_commits_while_exhausted :
    (Sample.prepared Sample.fallbackAnswered).decision = .committed
      ∧ ((prepareResult (Sample.reached Sample.fallbackAnswered).fabric ⟨1⟩ ⟨1⟩).1.find ⟨1⟩).any
        (fun e => e.execution.any fun x => x.result.isNone && exhaustedTrigger e x) = true := by
  decide +kernel

end EnsembleFabric
