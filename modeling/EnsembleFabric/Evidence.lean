import EnsembleFabric.Refinement.Runs

/-!
# Evidence in force

The evidence about one generation of a candidate is the list of its current
evaluations, in the order in which they were received. A step keeps that
list, withdraws all of it, or records one more evaluation at its end.
`reachable_evidence` is the rule for properties of it: they have to hold
of the empty list and survive an admitted record.

That evidence is withdrawn as a whole or not at all (`KeptOrWithdrawn`) is
what makes the rule simple: an invariant of the list never has to survive
the loss of a part of it. A record that is added was accepted, so its
evaluator was seated, its plan was open, and nothing like it was on record
(`Recorded`); the rule hands all of that to the property.

Results about votes, mandatory predicates, verifiers and provenance are all
instances of the rule.
-/

namespace EnsembleFabric

open List (Forall₂)
open EventSystem

/-- The current evaluations of one generation of a candidate, oldest first. Reports
compute everything they say about a candidate from this list. -/
def evidenceFor (x : ExecutionRecord) (id : CandidateId) (generation : CandidateGeneration) :
    List EvaluationRecord :=
  x.evaluations.filter fun r =>
    r.current && r.candidate == id && r.candidateGeneration == generation

theorem currentEvaluations_eq (x : ExecutionRecord) (c : CandidateRecord) :
    currentEvaluations x c = evidenceFor x c.id c.generation := rfl

theorem mem_evidenceFor {x : ExecutionRecord} {id : CandidateId}
    {generation : CandidateGeneration} {r : EvaluationRecord} :
    r ∈ evidenceFor x id generation ↔ r ∈ x.evaluations ∧ r.current = true ∧ r.candidate = id
      ∧ r.candidateGeneration = generation := by
  simp [evidenceFor, and_assoc]

theorem currentEvaluations_accepted {f : Fabric} {s : EvaluationSubmission}
    {site : EvaluationSite} (h : EvaluationAccepted f s site) :
    currentEvaluations site.execution site.candidate
      = evidenceFor site.execution s.authority.candidate s.authority.candidateGeneration := by
  have hid : site.candidate.id = s.authority.candidate := by
    simpa using List.find?_some h.candidate
  rw [currentEvaluations_eq, hid, h.candidateGeneration]

/-! ## One step -/

/-- Evidence is kept or withdrawn as a whole. -/
def KeptOrWithdrawn (x x' : ExecutionRecord) : Prop :=
  ∀ id generation, evidenceFor x' id generation = evidenceFor x id generation
    ∨ evidenceFor x' id generation = []

theorem keptOrWithdrawn_of_same {x x' : ExecutionRecord} (h : x'.evaluations = x.evaluations) :
    KeptOrWithdrawn x x' := by
  intro id generation
  exact .inl (by rw [evidenceFor, evidenceFor, h])

/-- Evidence about other candidates is not withdrawn. -/
theorem evidenceFor_supersede {x : ExecutionRecord} {id candidate : CandidateId}
    {generation : CandidateGeneration} (h : id ≠ candidate) :
    evidenceFor (supersedeCandidateEvidence x candidate) id generation
      = evidenceFor x id generation := by
  simp only [evidenceFor, supersedeCandidateEvidence, List.filter_map]
  have htest : ((fun r : EvaluationRecord =>
        r.current && r.candidate == id && r.candidateGeneration == generation) ∘ fun r =>
        if r.candidate == candidate then { r with current := false } else r)
      = fun r => r.current && r.candidate == id && r.candidateGeneration == generation := by
    funext r
    by_cases hr : r.candidate = candidate
    · have hne : (r.candidate == id) = false := by simpa [hr] using Ne.symm h
      simp [hr] at hne ⊢
      simp [hne]
    · simp [hr]
  rw [htest]
  refine (List.map_congr_left fun r hr => ?_).trans (List.map_id _)
  have hmem := (List.mem_filter.mp hr).2
  simp only [Bool.and_eq_true, beq_iff_eq] at hmem
  simp [hmem.1.2, h]

/-- All evidence about the candidate is withdrawn, and none about others. -/
theorem keptOrWithdrawn_supersede (x : ExecutionRecord) (candidate : CandidateId) :
    KeptOrWithdrawn x (supersedeCandidateEvidence x candidate) := by
  intro id generation
  by_cases hid : id = candidate
  · refine .inr (List.filter_eq_nil_iff.mpr fun r hr => ?_)
    obtain ⟨r₀, -, rfl⟩ := List.mem_map.mp hr
    by_cases hr₀ : r₀.candidate = candidate
    · simp [hr₀]
    · simp [hr₀, hid]
  · exact .inl (evidenceFor_supersede hid)

/-- The step records one more evaluation: the answer to a planned one. -/
structure Recorded (sc : Scope) (e : EnsembleRecord) (x : ExecutionRecord)
    (p : PendingEvaluation) (r : EvaluationRecord) (x' : ExecutionRecord) : Prop where
  planned : p ∈ x.pending
  unanswered : p.answered = false
  answers : Answers e p r
  admitted : sc.records e x r
  evaluations : x'.evaluations = x.evaluations ++ [r]

theorem ExecutionStep.evidence {sc : Scope} {e : EnsembleRecord} {x x' : ExecutionRecord}
    (h : ExecutionStep sc e x x') : KeptOrWithdrawn x x' ∨ ∃ p r, Recorded sc e x p r x' := by
  cases h with
  | bookkeeping same => exact .inl (keptOrWithdrawn_of_same same.evaluations)
  | cancel _ same => exact .inl (keptOrWithdrawn_of_same same.evaluations)
  | drop | rewind =>
    exact .inl (keptOrWithdrawn_supersede { x with candidates := _ } _)
  | evaluate at_ unanswered answers admitted =>
    exact .inr ⟨_, _, List.mem_of_getElem? at_, unanswered, answers, admitted, rfl⟩
  | expire =>
    refine .inl fun id generation => .inr (List.filter_eq_nil_iff.mpr fun r hr => ?_)
    obtain ⟨r₀, -, rfl⟩ := List.mem_map.mp hr
    simp
  | commit => exact .inl (keptOrWithdrawn_of_same (storeResult_evaluations ..))
  | _ => exact .inl (keptOrWithdrawn_of_same rfl)

theorem Recorded.evidence {sc : Scope} {e : EnsembleRecord} {x x' : ExecutionRecord}
    {p : PendingEvaluation} {r : EvaluationRecord} (h : Recorded sc e x p r x')
    (id : CandidateId) (generation : CandidateGeneration) :
    evidenceFor x' id generation = evidenceFor x id generation
      ∨ r.candidate = id ∧ r.candidateGeneration = generation
        ∧ evidenceFor x' id generation = evidenceFor x id generation ++ [r] := by
  have happend : evidenceFor x' id generation = evidenceFor x id generation
      ++ [r].filter fun r =>
        r.current && r.candidate == id && r.candidateGeneration == generation := by
    rw [evidenceFor, h.evaluations, List.filter_append]
    rfl
  by_cases hmatch : r.candidate = id ∧ r.candidateGeneration = generation
  · refine .inr ⟨hmatch.1, hmatch.2, ?_⟩
    rw [happend]
    simp [h.answers.current, hmatch.1, hmatch.2]
  · refine .inl ?_
    have hnone : (r.current && r.candidate == id && r.candidateGeneration == generation)
        = false := by
      rw [Bool.eq_false_iff]
      intro htrue
      simp only [Bool.and_eq_true, beq_iff_eq] at htrue
      exact hmatch ⟨htrue.1.2, htrue.2⟩
    rw [happend]
    simp [hnone]

/-! ## Runs -/

/-- Hard predicates are planned for mandatory criteria only. -/
def PlannedMandatory (e : EnsembleRecord) (x : ExecutionRecord) : Prop :=
  ∀ p ∈ x.pending, p.kind = .hardPredicate → p.criterion ∈ e.spec.evidence.mandatoryCriteria

theorem ExecutionStep.plannedMandatory {sc : Scope} {e : EnsembleRecord}
    {x x' : ExecutionRecord} (h : ExecutionStep sc e x x') (hx : PlannedMandatory e x) :
    PlannedMandatory (e.holding x') x' := by
  cases h with
  | bookkeeping same => exact fun p hp => hx p (same.pending ▸ hp)
  | cancel _ same => exact fun p hp => hx p (same.pending ▸ hp)
  | drop | rewind => exact fun p hp => hx p (List.mem_filter.mp hp).1
  | pendings steps =>
    intro p' hp'
    obtain ⟨p, hp, hstep⟩ := Slots.exists_left steps hp'
    rw [hstep.same]
    exact hx p hp
  | @evaluate index q r at_ =>
    intro p hp
    rcases List.mem_or_eq_of_mem_set hp with hold | rfl
    · exact hx p hold
    · exact hx q (List.mem_of_getElem? at_)
  | commit => exact fun p hp => hx p (storeResult_pending .. ▸ hp)
  | _ => exact hx

/-- The same specification, declared to the same participants. -/
structure SameDeclarations (e e' : EnsembleRecord) : Prop where
  spec : e'.spec = e.spec
  roles : ∀ id role, holdsRole e' id role = holdsRole e id role

theorem SameDeclarations.holding (e : EnsembleRecord) (x : ExecutionRecord) :
    SameDeclarations e (e.holding x) :=
  ⟨rfl, fun _ _ => rfl⟩

section Rule

variable {config : FabricConfig}
  {records : EnsembleRecord → ExecutionRecord → EvaluationRecord → Prop}

/-- A property of evidence holds in every reachable state when it holds of
none and every admitted record preserves it. The property may depend on the
declarations, which no step changes. -/
theorem reachable_evidence {P : EnsembleRecord → List EvaluationRecord → Prop}
    (hnil : ∀ e, P e [])
    (hsame : ∀ {e e' es}, SameDeclarations e e' → P e es → P e' es)
    (hrecord : ∀ {e x p r}, Answers e p r → records e x r →
      (r.kind = .hardPredicate → r.criterion ∈ e.spec.evidence.mandatoryCriteria) →
      P e (evidenceFor x r.candidate r.candidateGeneration) →
      P e (evidenceFor x r.candidate r.candidateGeneration ++ [r]))
    {events : List Event}
    (hallows : Along System.next (Allows (runScope config records)) (.initial config) events)
    (id : EnsembleId) :
    OfExecution (fun e x => PlannedMandatory e x ∧ ∀ c g, P e (evidenceFor x c g))
      (((System.initial config).run events).fabric.view id) := by
  refine reachable_ofExecution ?_ ?_ ?_ ?_ ?_ ?_ hallows id
  · intro e _ _
    exact ⟨fun _ hp => absurd hp List.not_mem_nil, fun _ _ => hnil _⟩
  · intro e x h
    have hdeclared : SameDeclarations e { e with superseded := true } := ⟨rfl, fun _ _ => rfl⟩
    exact ⟨h.1, fun c g => hsame hdeclared (h.2 c g)⟩
  · intro e x ps hsteps h
    have hdeclared : SameDeclarations e { e with participants := ps } :=
      ⟨rfl, holdsRole_of_seats hsteps⟩
    exact ⟨h.1, fun c g => hsame hdeclared (h.2 c g)⟩
  · intro e x x' hstep h
    refine ⟨hstep.plannedMandatory h.1, fun c g => hsame (.holding e x') ?_⟩
    rcases hstep.evidence with hkept | ⟨p, r, hrecorded⟩
    · rcases hkept c g with heq | heq
      · rw [heq]
        exact h.2 c g
      · rw [heq]
        exact hnil e
    · rcases hrecorded.evidence c g with heq | ⟨rfl, rfl, heq⟩
      · rw [heq]
        exact h.2 c g
      · rw [heq]
        refine hrecord hrecorded.answers hrecorded.admitted (fun hhard => ?_) (h.2 _ _)
        rw [hrecorded.answers.kind] at hhard
        rw [hrecorded.answers.criterion]
        exact h.1 p hrecorded.planned hhard
  · exact fun _ h => ⟨h.1, fun c g => hsame (.holding _ _) (h.2 c g)⟩
  · intro e x p _ hmandatory h
    refine ⟨fun q hq => ?_, fun c g => hsame (.holding _ _) (h.2 c g)⟩
    rcases List.mem_append.mp hq with hold | hnew
    · exact h.1 q hold
    · obtain rfl := List.mem_singleton.mp hnew
      exact hmandatory

end Rule

end EnsembleFabric
