import EnsembleFabric.Definition

/-!
# Participants joining and failing

Registration seats a worker incarnation for a logical participant; a
replacement advances the participant generation. A participant failure
releases the participant's candidates: each is rewound for another
attempt or failed, as the retry policy says (`fabric_participant.cpp`).

A seat is the position of a participant in its ensemble with its record
(`Seat`). `admitRegistration` and `admitFailureReport` are the checks of
the two operations; what follows them cannot fail. `releaseCandidate` is
the body of the loop over the candidates of a lost participant, and the
loop runs over positions, so a candidate is found where it was.

`invalidateDynamicAuthority` is what a restart does to everything at
once: participants have to be revalidated, and in open executions, which
are marked for revalidation, candidates in flight are superseded, plans
given up and evaluations withdrawn. Content and results stay, and so do
closed executions.
-/

namespace EnsembleFabric

/-! ## Candidates leaving an attempt -/

/-- Supersedes the current evaluations of a candidate and drops its
unanswered evaluation plan. Answered plans and the evaluations themselves stay
on record. -/
def supersedeCandidateEvidence (x : ExecutionRecord) (candidate : CandidateId) :
    ExecutionRecord :=
  { x with
    evaluations := x.evaluations.map fun e =>
      if e.candidate == candidate then { e with current := false } else e
    pending := x.pending.filter fun p => !(p.candidate == candidate && !p.answered) }

/-- Accounts for an event of one participant. -/
def tallyParticipant (participants : List ParticipantRecord) (id : ParticipantId)
    (change : ParticipantRecord → ParticipantRecord) : List ParticipantRecord :=
  participants.map fun p => if p.id == id then change p else p

def failedCandidate (c : CandidateRecord) (failure : EnsembleError) (detail : String) :
    CandidateRecord :=
  { c with
    state := .failed
    failure
    failureDetail := detail
    payload := []
    payloadDigest := 0
    evaluationCount := 0 }

/-- `fail_candidate` on the candidate at a position. -/
def failCandidate (e : EnsembleRecord) (x : ExecutionRecord) (index : Nat) (c : CandidateRecord)
    (failure : EnsembleError) (detail : String) : EnsembleRecord × ExecutionRecord :=
  let failed := { x with candidates := x.candidates.set index (failedCandidate c failure detail) }
  ({ e with
     participants := tallyParticipant e.participants c.participant fun p =>
       { p with candidatesFailed := p.candidatesFailed + 1 } },
   supersedeCandidateEvidence failed c.id)

def retryAuthorized (spec : EnsembleSpec) (c : CandidateRecord) (failure : EnsembleError) :
    Bool :=
  if c.fallback && !spec.fallback.enabled then false
  else if spec.retry.maxAttempts.toNat ≤ c.attemptsUsed then false
  else
    match failure with
    | .participantUnavailable => spec.retry.retryOnUnavailable
    | .transportError => spec.retry.retryOnTransportError
    | .malformedCandidate => spec.retry.retryOnMalformedCandidate
    | .participantFailed => spec.retry.retryOnParticipantFailed
    | _ => false

/-- A candidate back in DECLARED under its next generation. -/
def rewoundCandidate (c : CandidateRecord) : CandidateRecord :=
  { c with
    generation := c.generation.next
    attempt := c.attempt + 1
    state := .declared
    payload := []
    payloadDigest := 0
    failure := .ok
    failureDetail := ""
    evaluationCount := 0
    hardFailures := 0
    hardUnknowns := 0
    hardPredicates := 0
    budgetUnitsUsed := 0
    receivedSequence := {}
    current := true }

/-- `rewind_candidate_for_retry` on the candidate at a position. -/
def rewindCandidateForRetry (e : EnsembleRecord) (x : ExecutionRecord) (index : Nat)
    (c : CandidateRecord) : EnsembleRecord × ExecutionRecord :=
  let x := supersedeCandidateEvidence x c.id
  ({ e with
     participants := tallyParticipant e.participants c.participant fun p =>
       { p with retriesConsumed := p.retriesConsumed + 1 } },
   { x with candidates := x.candidates.set index (rewoundCandidate c) })

/-- Releases the candidate at a position after its participant failed: another
attempt where the retry policy has one, a failure otherwise. -/
def releaseCandidate (participant : ParticipantRecord) (kind : ParticipantFailureKind)
    (detail : String) (work : EnsembleRecord × ExecutionRecord) (index : Nat) :
    EnsembleRecord × ExecutionRecord :=
  let (e, x) := work
  match x.candidates[index]? with
  | none => work
  | some c =>
      if c.participant ≠ participant.id ∨ c.participantGeneration ≠ participant.generation
          ∨ c.inFlight = false then work
      else if retryAuthorized e.spec c (failureError kind) then
        let c := { c with worker := participant.worker, workerBoot := participant.workerBoot }
        rewindCandidateForRetry e x index c
      else
        failCandidate e x index c (failureError kind)
          s!"participant failure ({kind.toString}): {detail}"

/-- `handle_participant_failure_locked`: releases every candidate of the
participant, in order. -/
def handleParticipantFailure (e : EnsembleRecord) (x : ExecutionRecord)
    (participant : ParticipantRecord) (kind : ParticipantFailureKind) (detail : String) :
    EnsembleRecord × ExecutionRecord :=
  (List.range x.candidates.length).foldl (releaseCandidate participant kind detail) (e, x)

/-! ## Registration -/

/-- The participant record once a worker holds the seat. The generation moves on
if another incarnation held the seat before. -/
def seatedParticipant (p : ParticipantRecord) (r : ParticipantRegistration) :
    ParticipantRecord :=
  { p with
    generation := if p.workerBoot.valid then p.generation.next else p.generation
    replacementCount := if p.workerBoot.valid then p.replacementCount + 1 else p.replacementCount
    worker := r.worker
    workerBoot := r.workerBoot
    coordinatorEpoch := r.coordinatorEpoch
    profile := r.profile
    status := .current
    registered := true
    failureDetail := "" }

/-- A participant located inside its ensemble. -/
structure Seat where
  ensemble : EnsembleRecord
  index : Nat
  participant : ParticipantRecord

/-- The seat of a logical participant. -/
def EnsembleRecord.seat? (e : EnsembleRecord) (id : ParticipantId) : Option Seat := do
  let index ← e.findParticipant id
  let participant ← e.participants[index]?
  return ⟨e, index, participant⟩

/-- The checks of a registration. -/
def admitRegistration (f : Fabric) (r : ParticipantRegistration) : Except Refusal Seat := do
  demand (r.ensemble.valid && r.ensembleGeneration.valid && r.participant.valid && r.worker.valid
      && r.workerBoot.valid && r.coordinatorEpoch.valid) .invalidIdentityCombination
    "registration is missing part of its authority identity"
  demand (r.coordinatorEpoch == f.core.epoch) .staleCoordinatorEpoch
    (s!"registration was produced under epoch {r.coordinatorEpoch.toString} but the current "
      ++ s!"epoch is {f.core.epoch.toString}")
    .staleSubmission
  let e ← located (f.find r.ensemble) .unknownEnsemble
    s!"unknown ensemble {r.ensemble.toString}"
  demand (e.spec.generation == r.ensembleGeneration) .staleEnsembleGeneration
    (s!"registration targets ensemble generation {r.ensembleGeneration.toString} but the current "
      ++ s!"generation is {e.spec.generation.toString}")
    .staleSubmission
  let seat ← located (e.seat? r.participant) .unknownParticipant
    s!"participant {r.participant.toString} is not declared by this ensemble"
  let p := seat.participant
  demand (!(p.registered && p.status == .current)) .participantDuplicate
    (s!"participant {r.participant.toString} is already registered by worker "
      ++ s!"{p.worker.toString} boot {p.workerBoot.toString}")
    .duplicateSubmission
  demand (p.declaration.roles.containsAll r.claimedRoles) .participantRoleMismatch
    ("worker claims roles that the ensemble specification does not grant: "
      ++ s!"claimed={r.claimedRoles.toString} granted={p.declaration.roles.toString}")
  uncounted (checkCompatibility p.declaration.compatibility r.profile)
  return seat

/-- The ensemble with one participant record replaced. -/
def Seat.write (seat : Seat) (p : ParticipantRecord) : EnsembleRecord :=
  { seat.ensemble with participants := seat.ensemble.participants.set seat.index p }

def registerParticipant (f : Fabric) (r : ParticipantRegistration) :
    Fabric × Outcome ParticipantGeneration :=
  match admitRegistration f r with
  | .error refusal => f.reject refusal
  | .ok seat =>
      let p := seatedParticipant seat.participant r
      (f.store r.ensemble (seat.write p), .ok p.generation)

/-! ## Failure -/

/-- The participant record once its worker is lost. -/
def lostParticipant (p : ParticipantRecord) (kind : ParticipantFailureKind) (detail : String) :
    ParticipantRecord :=
  { p with
    status := if kind = .unavailable then .unavailable else .failed
    registered := false
    failureDetail := detail }

def admitFailureReport (f : Fabric) (a : ParticipantAuthority) : Except Refusal Seat := do
  uncounted a.validate
  demand (a.coordinatorEpoch == f.core.epoch) .staleCoordinatorEpoch
    (s!"participant failure was reported under epoch {a.coordinatorEpoch.toString} but the "
      ++ s!"current epoch is {f.core.epoch.toString}")
    .staleSubmission
  let e ← located (f.find a.ensemble) .unknownEnsemble "unknown ensemble"
  demand (e.spec.generation == a.ensembleGeneration) .staleEnsembleGeneration
    "participant failure targets a historical ensemble generation" .staleSubmission
  let seat ← located (e.seat? a.participant) .unknownParticipant "unknown participant"
  demand (seat.participant.generation == a.participantGeneration
      && seat.participant.workerBoot == a.workerBoot
      && seat.participant.worker == a.worker) .staleWorkerBoot
    "participant failure names a worker incarnation that is no longer authoritative"
    .staleSubmission
  return seat

/-- The failure of a required participant cancels the execution. -/
def cancelsExecution (e : EnsembleRecord) (p : ParticipantRecord) : Bool :=
  e.spec.cancellation.cancelOnRequiredFailure && p.declaration.required

def reportParticipantFailure (f : Fabric) (a : ParticipantAuthority)
    (kind : ParticipantFailureKind) (detail : String) : Fabric × Status :=
  match admitFailureReport f a with
  | .error refusal => f.reject refusal
  | .ok seat =>
      let p := lostParticipant seat.participant kind detail
      let e := seat.write p
      match e.execution with
      | none => (f.store a.ensemble e, okStatus)
      | some x =>
          if x.status ≠ .opened then (f.store a.ensemble e, okStatus)
          else
            let (e, x) := handleParticipantFailure e x p kind detail
            if cancelsExecution e p then
              (f.store a.ensemble (e.holding { x with status := .failed }),
                fail .requiredParticipantFailed
                  (s!"required participant {p.id.toString} failed and the cancellation policy "
                    ++ "cancels the execution"))
            else (f.store a.ensemble (e.holding x), okStatus)

/-! ## Invalidation -/

def invalidatedParticipant (reason : String) (p : ParticipantRecord) : ParticipantRecord :=
  if !p.registered && p.status == .revalidationRequired then p
  else { p with status := .revalidationRequired, registered := false, failureDetail := reason }

def invalidatedCandidate (reason : String) (c : CandidateRecord) : CandidateRecord :=
  if c.inFlight then
    { c with
      state := .superseded
      current := false
      failure := .revalidationRequired
      failureDetail := reason }
  else c

def invalidatedExecution (reason : String) (x : ExecutionRecord) : ExecutionRecord :=
  if x.status = .opened then
    { x with
      status := .revalidationRequired
      candidates := x.candidates.map (invalidatedCandidate reason)
      evaluations := x.evaluations.map fun e => { e with current := false }
      pending := x.pending.map fun p => { p with abandoned := true } }
  else x

def invalidatedEnsemble (reason : String) (e : EnsembleRecord) : EnsembleRecord :=
  { e with
    participants := e.participants.map (invalidatedParticipant reason)
    execution := e.execution.map (invalidatedExecution reason) }

/-- The executions that are open. -/
def Fabric.openExecutions (f : Fabric) : Nat := f.ensembles.values.countP (·.isOpen)

def invalidateDynamicAuthority (f : Fabric) (reason : String) : Fabric :=
  { f with
    core :=
      { f.core with
        counters :=
          { f.core.counters with
            revalidationsRequired := f.core.counters.revalidationsRequired + f.openExecutions } }
    ensembles := f.ensembles.map fun _ e => invalidatedEnsemble reason e }

end EnsembleFabric
