import EnsembleFabric.Library.Checks
import EnsembleFabric.Lifecycle

/-!
# What the fences establish

The checks of every operation as one structure of facts. Later proofs
use these facts and never look at the order of the checks.

Each fence of `Ingest`, `Membership` and `Commit` has one lemma that
turns its success into such a structure: `locateCandidate_eq_ok` into
`LocatedAt`, `acceptEvaluation_eq_ok` into `EvaluationAccepted`,
`admitRegistration_eq_ok` and `admitFailureReport_eq_ok` into `SeatAt`,
`commitTarget_eq_ok` into `CommitFenced`. For the candidate fence there is
the converse, too: an authority whose components match the records is
located (`locateCandidate_of_fenced`), so what a fence refuses is known
as exactly as what it admits.

`Fenced` is the statement of the candidate fence without positions. It is
about one ensemble and the shared part of the runtime, and so it is what
the abstract model speaks about.
-/

namespace EnsembleFabric

open Checks

/-! ## Seats and candidates -/

/-- The seat is the first participant record with the identity, and its position
is that of the record. -/
structure SeatAt (e : EnsembleRecord) (id : ParticipantId) (seat : Seat) : Prop where
  ensemble : seat.ensemble = e
  index : e.findParticipant id = some seat.index
  get : e.participants[seat.index]? = some seat.participant
  first : e.participant? id = some seat.participant

theorem SeatAt.id {e : EnsembleRecord} {id : ParticipantId} {seat : Seat}
    (h : SeatAt e id seat) : seat.participant.id = id := by
  simpa using List.find?_some h.first

theorem seat?_eq_some {e : EnsembleRecord} {id : ParticipantId} {seat : Seat}
    (h : e.seat? id = some seat) : SeatAt e id seat := by
  simp only [EnsembleRecord.seat?, Option.bind_eq_bind, Option.bind_eq_some_iff] at h
  obtain ⟨index, hindex, p, hp, heq⟩ := h
  obtain rfl := Option.some.inj heq
  exact ⟨rfl, hindex, hp, Slots.find?_of_findIdx? hindex hp⟩

theorem seat?_isSome {e : EnsembleRecord} {id : ParticipantId} {p : ParticipantRecord}
    (h : e.participant? id = some p) : ∃ seat, e.seat? id = some seat ∧ seat.participant = p := by
  obtain ⟨index, hindex, hget⟩ := Slots.findIdx?_of_find? h
  exact ⟨⟨e, index, p⟩,
    by simp [EnsembleRecord.seat?, EnsembleRecord.findParticipant, hindex, hget],
    rfl⟩

theorem candidateAt?_eq_some {x : ExecutionRecord} {id : CandidateId} {index : Nat}
    {c : CandidateRecord} (h : x.candidateAt? id = some (index, c)) :
    x.candidates[index]? = some c ∧ x.candidate? id = some c := by
  simp only [ExecutionRecord.candidateAt?, Option.bind_eq_bind, Option.bind_eq_some_iff] at h
  obtain ⟨i, hindex, c', hc, heq⟩ := h
  obtain ⟨rfl, rfl⟩ := Prod.mk.injEq .. |>.mp (Option.some.inj heq)
  exact ⟨hc, Slots.find?_of_findIdx? hindex hc⟩

theorem candidateAt?_isSome {x : ExecutionRecord} {id : CandidateId} {c : CandidateRecord}
    (h : x.candidate? id = some c) : ∃ index, x.candidateAt? id = some (index, c) := by
  obtain ⟨index, hindex, hget⟩ := Slots.findIdx?_of_find? h
  exact ⟨index, by simp [ExecutionRecord.candidateAt?, ExecutionRecord.findCandidate, hindex, hget]⟩

theorem pendingAt?_eq_some {x : ExecutionRecord} {id : EvaluationId} {index : Nat}
    {p : PendingEvaluation} (h : x.pendingAt? id = some (index, p)) :
    x.pending[index]? = some p ∧ x.pending.find? (·.id == id) = some p := by
  simp only [ExecutionRecord.pendingAt?, Option.bind_eq_bind, Option.bind_eq_some_iff] at h
  obtain ⟨i, hindex, p', hp, heq⟩ := h
  obtain ⟨rfl, rfl⟩ := Prod.mk.injEq .. |>.mp (Option.some.inj heq)
  exact ⟨hp, Slots.find?_of_findIdx? hindex hp⟩

theorem executionNamed_eq_some {e : EnsembleRecord} {id : EnsembleExecutionId}
    {x : ExecutionRecord} : e.executionNamed id = some x ↔ e.execution = some x ∧ x.id = id := by
  simp [EnsembleRecord.executionNamed, Option.filter_eq_some_iff]

/-! ## The candidate fence -/

/-- Every component of a candidate authority matches the current state of
its ensemble. -/
structure Fenced (v : View) (a : CandidateAuthority) (e : EnsembleRecord) (x : ExecutionRecord)
    (p : ParticipantRecord) (c : CandidateRecord) : Prop where
  valid : a.validate = .ok ()
  epoch : a.participant.coordinatorEpoch = v.core.epoch
  ensemble : v.entry = some e
  generation : e.spec.generation = a.participant.ensembleGeneration
  execution : e.execution = some x
  executionId : x.id = a.execution
  attempt : x.attemptGeneration = a.attemptGeneration
  participant : e.participant? a.participant.participant = some p
  participantGeneration : p.generation = a.participant.participantGeneration
  worker : p.worker = a.participant.worker
  workerBoot : p.workerBoot = a.participant.workerBoot
  authoritative : p.authoritative v.core.epoch = true
  candidate : x.candidate? a.candidate = some c
  candidateGeneration : c.generation = a.candidateGeneration
  owner : c.participant = p.id

/-- The located records are the fenced ones, at their positions. -/
structure LocatedAt (f : Fabric) (a : CandidateAuthority) (l : Located) : Prop where
  fenced : Fenced (f.view a.participant.ensemble) a l.seat.ensemble l.execution
    l.seat.participant l.candidate
  seat : SeatAt l.seat.ensemble a.participant.participant l.seat
  at_ : l.execution.candidates[l.index]? = some l.candidate

theorem locateCandidate_eq_ok {f : Fabric} {a : CandidateAuthority} {l : Located}
    (h : locateCandidate f a = .ok l) : LocatedAt f a l := by
  simp only [locateCandidate, bind_eq_ok, demand_eq_ok, located_eq_ok, uncounted_eq_ok,
    pure_eq_ok, executionNamed_eq_some, beq_iff_eq, Bool.and_eq_true] at h
  obtain ⟨_, hvalid, _, hepoch, e, he, _, hgen, x, ⟨hx, hxid⟩, _, hattempt, seat, hseat, _, hpgen,
    _, ⟨hworker, hboot⟩, _, hauth, ⟨index, c⟩, hc, _, hcgen, _, howner, rfl⟩ := h
  have hat := seat?_eq_some hseat
  obtain ⟨hget, hfirst⟩ := candidateAt?_eq_some hc
  obtain rfl := hat.ensemble
  exact ⟨⟨hvalid, hepoch, he, hgen, hx, hxid, hattempt, hat.first, hpgen, hworker, hboot, hauth,
    hfirst, hcgen, howner⟩, hat, hget⟩

theorem locateCandidate_of_fenced {f : Fabric} {a : CandidateAuthority} {e : EnsembleRecord}
    {x : ExecutionRecord} {p : ParticipantRecord} {c : CandidateRecord}
    (h : Fenced (f.view a.participant.ensemble) a e x p c) :
    ∃ l, locateCandidate f a = .ok l ∧ l.candidate = c := by
  obtain ⟨seat, hseat, hp⟩ := seat?_isSome h.participant
  obtain ⟨index, hindex⟩ := candidateAt?_isSome h.candidate
  refine ⟨⟨seat, x, index, c⟩, ?_, rfl⟩
  simp only [locateCandidate, bind_eq_ok, demand_eq_ok, located_eq_ok, uncounted_eq_ok,
    pure_eq_ok, executionNamed_eq_some, beq_iff_eq, Bool.and_eq_true]
  subst hp
  exact ⟨(), h.valid, (), h.epoch, e, h.ensemble, (), h.generation, x,
    ⟨h.execution, h.executionId⟩, (), h.attempt, seat, hseat, (), h.participantGeneration, (),
    ⟨h.worker, h.workerBoot⟩, (), h.authoritative, (index, c), hindex, (),
    h.candidateGeneration, (), h.owner, rfl⟩

theorem acceptCandidate_eq_ok {f : Fabric} {a : CandidateAuthority} {l : Located}
    (h : acceptCandidate f a = .ok l) : LocatedAt f a l ∧ l.candidate.state = .dispatched := by
  simp only [acceptCandidate, bind_eq_ok] at h
  obtain ⟨l', hl', h⟩ := h
  split at h
  · rename_i hstate
    obtain rfl := pure_eq_ok.mp h
    exact ⟨locateCandidate_eq_ok hl', hstate⟩
  · cases h

/-! ## The evaluation fence -/

/-- What an accepted evaluation was checked against: the records its authority
resolves to, the plan it answers, and that none like it is on record. -/
structure EvaluationAccepted (f : Fabric) (s : EvaluationSubmission) (site : EvaluationSite) :
    Prop where
  ensemble : f.find s.authority.evaluator.ensemble = some site.seat.ensemble
  execution : site.seat.ensemble.execution = some site.execution
  seat : SeatAt site.seat.ensemble s.authority.evaluator.participant site.seat
  participantGeneration :
    site.seat.participant.generation = s.authority.evaluator.participantGeneration
  authoritative : site.seat.participant.authoritative f.core.epoch = true
  candidateAt : site.execution.candidates[site.candidateIndex]? = some site.candidate
  candidate : site.execution.candidate? s.authority.candidate = some site.candidate
  candidateGeneration : site.candidate.generation = s.authority.candidateGeneration
  content : isContentState site.candidate.state = true
  pendingAt : site.execution.pending[site.pendingIndex]? = some site.pending
  pending : site.execution.pending.find? (·.id == s.authority.evaluation) = some site.pending
  unanswered : site.pending.answered = false
  kept : site.pending.abandoned = false
  evaluatorTarget : site.pending.evaluator = s.authority.evaluator.participant
  candidateTarget : site.pending.candidate = s.authority.candidate
  generationTarget : site.pending.candidateGeneration = s.authority.candidateGeneration
  criterion : site.pending.criterion = s.criterion
  kind : site.pending.kind = s.kind
  verifier : s.kind = .hardPredicate
    ↔ site.seat.participant.declaration.roles.contains .verifier = true
  unrecorded : site.execution.evaluations.find? (sameEvaluation s) = none

theorem locateEvaluation_eq_ok {f : Fabric} {a : EvaluationAuthority} {site : EvaluationSite}
    (h : locateEvaluation f a = .ok site) :
    f.find a.evaluator.ensemble = some site.seat.ensemble
      ∧ site.seat.ensemble.execution = some site.execution
      ∧ SeatAt site.seat.ensemble a.evaluator.participant site.seat
      ∧ site.seat.participant.generation = a.evaluator.participantGeneration
      ∧ site.seat.participant.authoritative f.core.epoch = true
      ∧ site.execution.candidateAt? a.candidate = some (site.candidateIndex, site.candidate)
      ∧ site.candidate.generation = a.candidateGeneration
      ∧ isContentState site.candidate.state = true
      ∧ site.execution.pendingAt? a.evaluation = some (site.pendingIndex, site.pending)
      ∧ site.pending.answered = false ∧ site.pending.abandoned = false := by
  simp only [locateEvaluation, bind_eq_ok, demand_eq_ok, located_eq_ok, uncounted_eq_ok,
    pure_eq_ok, executionNamed_eq_some, beq_iff_eq, Bool.and_eq_true, Bool.not_eq_true'] at h
  obtain ⟨_, -, _, -, e, he, _, -, x, ⟨hx, -⟩, _, -, seat, hseat, _, hpgen, _, -, _, hauth, _, -,
    ⟨index, c⟩, hc, _, hcgen, _, hcontent, ⟨pendingIndex, pending⟩, hpending, _, -, _, hanswered,
    _, habandoned, rfl⟩ := h
  have hat := seat?_eq_some hseat
  obtain rfl := hat.ensemble
  exact ⟨he, hx, hat, hpgen, hauth, hc, hcgen, hcontent, hpending, hanswered, habandoned⟩

theorem checkSubmission_eq_ok {limits : Limits} {site : EvaluationSite} {s : EvaluationSubmission}
    (h : checkSubmission limits site s = .ok ()) :
    site.pending.evaluator = s.authority.evaluator.participant
      ∧ site.pending.candidate = s.authority.candidate
      ∧ site.pending.candidateGeneration = s.authority.candidateGeneration
      ∧ site.pending.criterion = s.criterion ∧ site.pending.kind = s.kind
      ∧ (s.kind = .hardPredicate
        ↔ site.seat.participant.declaration.roles.contains .verifier = true) := by
  simp only [checkSubmission, bind_eq_ok, require_eq_ok] at h
  obtain ⟨_, htarget, _, hverifier, _, hjudge, -⟩ := h
  simp only [Bool.and_eq_true, beq_iff_eq] at htarget
  obtain ⟨⟨⟨⟨hevaluator, hcandidate⟩, hgeneration⟩, hcriterion⟩, hkind⟩ := htarget
  refine ⟨hevaluator, hcandidate, hgeneration, hcriterion, hkind, ?_⟩
  cases hv : site.seat.participant.declaration.roles.contains .verifier with
  | true => simpa [hv] using hverifier
  | false =>
    have hranking : s.kind = .rankingSignal := by simpa [hv] using hjudge
    simp [hranking]

theorem checkUnrecorded_eq_ok {x : ExecutionRecord} {s : EvaluationSubmission}
    (h : checkUnrecorded x s = .ok ()) : x.evaluations.find? (sameEvaluation s) = none := by
  unfold checkUnrecorded refuse at h
  split at h
  · assumption
  · split at h <;> cases h

theorem acceptEvaluation_eq_ok {f : Fabric} {s : EvaluationSubmission} {site : EvaluationSite}
    (h : acceptEvaluation f s = .ok site) : EvaluationAccepted f s site := by
  simp only [acceptEvaluation, bind_eq_ok, uncounted_eq_ok, pure_eq_ok] at h
  obtain ⟨site, hlocate, _, hcheck, _, hunrecorded, rfl⟩ := h
  obtain ⟨he, hx, hseat, hpgen, hauth, hc, hcgen, hcontent, hpending, hanswered, habandoned⟩ :=
    locateEvaluation_eq_ok hlocate
  obtain ⟨hevaluator, hcandidate, hgeneration, hcriterion, hkind, hverifier⟩ :=
    checkSubmission_eq_ok hcheck
  obtain ⟨hcat, hcfirst⟩ := candidateAt?_eq_some hc
  obtain ⟨hpat, hpfirst⟩ := pendingAt?_eq_some hpending
  exact ⟨he, hx, hseat, hpgen, hauth, hcat, hcfirst, hcgen, hcontent, hpat, hpfirst, hanswered,
    habandoned, hevaluator, hcandidate, hgeneration, hcriterion, hkind, hverifier,
    checkUnrecorded_eq_ok hunrecorded⟩

/-! ## Participants -/

theorem admitRegistration_eq_ok {f : Fabric} {r : ParticipantRegistration} {seat : Seat}
    (h : admitRegistration f r = .ok seat) :
    r.workerBoot.valid = true ∧ r.coordinatorEpoch = f.core.epoch
      ∧ f.find r.ensemble = some seat.ensemble
      ∧ SeatAt seat.ensemble r.participant seat
      ∧ (seat.participant.registered && seat.participant.status == .current) = false := by
  simp only [admitRegistration, bind_eq_ok, demand_eq_ok, located_eq_ok, uncounted_eq_ok,
    pure_eq_ok, Bool.and_eq_true, Bool.not_eq_true', beq_iff_eq] at h
  obtain ⟨_, hids, _, hepoch, e, he, _, -, seat, hseat, _, hvacant, _, -, _, -, rfl⟩ := h
  have hat := seat?_eq_some hseat
  obtain rfl := hat.ensemble
  exact ⟨hids.1.2, hepoch, he, hat, hvacant⟩

theorem admitFailureReport_eq_ok {f : Fabric} {a : ParticipantAuthority} {seat : Seat}
    (h : admitFailureReport f a = .ok seat) :
    f.find a.ensemble = some seat.ensemble ∧ SeatAt seat.ensemble a.participant seat := by
  simp only [admitFailureReport, bind_eq_ok, demand_eq_ok, located_eq_ok, uncounted_eq_ok,
    pure_eq_ok] at h
  obtain ⟨_, -, _, -, e, he, _, -, seat, hseat, _, -, rfl⟩ := h
  have hat := seat?_eq_some hseat
  obtain rfl := hat.ensemble
  exact ⟨he, hat⟩

/-! ## The commit gate -/

/-- The result names the current execution of its ensemble: the generation, the
epoch and the execution are those on record, and a committed one names a
selection. -/
structure CommitFenced (f : Fabric) (r : EnsembleResult) (e : EnsembleRecord)
    (x : ExecutionRecord) : Prop where
  ensemble : f.find r.ensemble = some e
  ensembleId : r.ensemble = e.spec.id
  generation : r.ensembleGeneration = e.spec.generation
  epoch : r.coordinatorEpoch = f.core.epoch
  execution : e.execution = some x
  executionId : x.id = r.execution
  named : r.decision = .committed → r.hasSelected = true

theorem commitTarget_eq_ok {f : Fabric} {r : EnsembleResult} {e : EnsembleRecord}
    {x : ExecutionRecord} (h : commitTarget f r = .ok (e, x)) : CommitFenced f r e x := by
  simp only [commitTarget, validateResult, bind_eq_ok, demand_eq_ok, located_eq_ok, pure_eq_ok,
    executionNamed_eq_some, beq_iff_eq, Prod.mk.injEq] at h
  obtain ⟨e, he, _, ⟨_, hid, _, hgen, _, hepoch, _, -, hnamed⟩, x, ⟨hx, hxid⟩, rfl, rfl⟩ := h
  refine ⟨he, hid, hgen, hepoch, hx, hxid, fun hc => ?_⟩
  simpa [hc] using hnamed

theorem commitAllowed_eq_ok {e : EnsembleRecord} {x : ExecutionRecord}
    (h : commitAllowed e x = .ok ()) :
    x.cancellationRequested = false ∧ x.status ≠ .cancelled ∧ x.status ≠ .superseded
      ∧ e.superseded = false ∧ x.status ≠ .revalidationRequired := by
  simp only [commitAllowed, bind_eq_ok, require_eq_ok] at h
  obtain ⟨_, hcancel, _, hsuperseded, hrevalidate⟩ := h
  simp only [Bool.not_eq_true', Bool.or_eq_false_iff, beq_eq_false_iff_ne] at hcancel hsuperseded
  exact ⟨hcancel.1, hcancel.2, hsuperseded.1, hsuperseded.2, by simpa using hrevalidate⟩

end EnsembleFabric
