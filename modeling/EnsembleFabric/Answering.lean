import EnsembleFabric.Deployments

/-!
# What a worker answers

A worker that has decoded a request asks its backend and writes what the
backend returns into one frame. Two things can leave the request open. An
evaluation whose backend errs is not answered at all. And whatever a backend
returns is written as it is: a text, an evidence or a payload past the bounds
of the wire goes into a frame that the coordinator does not read, or is read
and not taken by the runtime.

`answered_iff` is the exact condition, for every worker, every coordinator
and every request. `Answered` follows the answer to its end: exactly one
frame is sent, under the correlation of the request; the coordinator reads
in it what the backend returned; and what it then asks of the runtime leaves
the request no longer awaited. `Answerable` is a condition on what the
backend returns and on the bounds of the two ends.

The proof treats the four messages a worker answers in as one
(`WorkerAnswer`): `answerFrame_read` says when the frame gets over the wire,
and a call for each kind says that the runtime, if it awaits the answer,
takes it. A frame in which the answer is read at all is read as it was
written, by the exactness of the codecs.
-/

namespace EnsembleFabric

open Checks
open Write (flat)

/-- The request in a frame, decoded and exhausted. -/
def Frame.request? (frame : Frame) : Option BackendRequest :=
  match frame.type with
  | .dispatchCandidate =>
      (Coordinator.decodeWhole decodeDispatchCandidate "candidate dispatch" frame).toOption.map
        .produce
  | .evaluationRequest =>
      (Coordinator.decodeWhole decodeEvaluationRequest "evaluation request" frame).toOption.map
        .evaluate
  | _ => none

/-- The frame is sent, and read as `received` at the other end. -/
def Frame.Carried (sender receiver : Limits) (frame received : Frame) : Prop :=
  ∃ bytes consumed, encodeFrame frame sender = .ok bytes
    ∧ decodeFrame bytes receiver = .complete received consumed

theorem Frame.carried_iff {sender receiver : Limits} {frame received : Frame} :
    frame.Carried sender receiver received
      ↔ frame.Fits sender ∧ frame.Fits receiver ∧ received = frame.received := by
  constructor
  · rintro ⟨bytes, consumed, hencoded, hdecoded⟩
    have hsent := encodeFrame_fits hencoded
    rw [encodeFrame_eq hsent] at hencoded
    obtain rfl := Except.ok.inj hencoded
    have hreceived := EnsembleWorker.fits_of_decodeFrame hsent hdecoded
    have himage := decodeFrame_image hreceived []
    rw [List.append_nil, hdecoded] at himage
    cases himage
    exact ⟨hsent, hreceived, rfl⟩
  · rintro ⟨hsent, hreceived, rfl⟩
    have himage := decodeFrame_image hreceived []
    rw [List.append_nil] at himage
    exact ⟨frame.image, _, encodeFrame_eq hsent, himage⟩

/-! ## Answers -/

/-- A message in which a worker answers. -/
inductive WorkerAnswer where
  | result (m : CandidateResultMessage)
  | failure (m : CandidateFailureMessage)
  | abstention (m : CandidateAbstentionMessage)
  | evaluation (m : EvaluationResultMessage)

namespace WorkerAnswer

def type : WorkerAnswer → MessageType
  | .result _ => .candidateResult
  | .failure _ => .candidateFailure
  | .abstention _ => .candidateAbstention
  | .evaluation _ => .evaluationResult

def writes : WorkerAnswer → List Write
  | .result m => encodeCandidateResult m
  | .failure m => encodeCandidateFailure m
  | .abstention m => encodeCandidateAbstention m
  | .evaluation m => encodeEvaluationResult m

/-- What the coordinator asks of the runtime when it reads the answer. -/
def call : WorkerAnswer → Event
  | .result m => .submitCandidate { authority := m.authority, payload := m.payload }
  | .failure m =>
      .submitCandidateFailure
        { authority := m.authority, participantFailure := m.kind.number.toUInt32 }
  | .abstention m =>
      .submitCandidateAbstention { authority := m.authority, rationale := bytesText m.rationale }
  | .evaluation m => .submitEvaluation (Coordinator.evaluationSubmission m)

/-- The coordinator reads the answer in the frame. -/
def ReadIn (frame : Frame) : WorkerAnswer → Prop
  | .result m => frame.type = .candidateResult
      ∧ Coordinator.decodeWhole decodeCandidateResult "candidate result" frame = .ok m
  | .failure m => frame.type = .candidateFailure
      ∧ Coordinator.decodeWhole decodeCandidateFailure "candidate failure" frame = .ok m
  | .abstention m => frame.type = .candidateAbstention
      ∧ Coordinator.decodeWhole decodeCandidateAbstention "candidate abstention" frame = .ok m
  | .evaluation m => frame.type = .evaluationResult
      ∧ Coordinator.decodeWhole decodeEvaluationResult "evaluation result" frame = .ok m

/-- A frame in which the answer is read submits it. -/
theorem ReadIn.submits {frame : Frame} {answer : WorkerAnswer} (h : answer.ReadIn frame) :
    ∃ authority, frame.Submits answer.call authority := by
  cases answer with
  | result m => exact ⟨_, .result h.1 h.2⟩
  | failure m => exact ⟨_, .failure h.1 h.2⟩
  | abstention m => exact ⟨_, .abstention h.1 h.2⟩
  | evaluation m => exact ⟨_, .evaluation h.1 h.2⟩

/-- The answer is within the bounds of its decoder. -/
def legal : WorkerAnswer → Prop
  | .result m => m.legal
  | .failure m => m.legal
  | .abstention m => m.legal
  | .evaluation m => m.legal

theorem readIn_iff {frame : Frame} {answer : WorkerAnswer} (htype : frame.type = answer.type) :
    answer.ReadIn frame ↔ answer.legal ∧ frame.payload = flat answer.writes := by
  cases answer with
  | result m =>
    exact (and_iff_right htype).trans
      (EnsembleWorker.decodeWhole_exact _ decodeCandidateResult_exact)
  | failure m =>
    exact (and_iff_right htype).trans
      (EnsembleWorker.decodeWhole_exact _ decodeCandidateFailure_exact)
  | abstention m =>
    exact (and_iff_right htype).trans
      (EnsembleWorker.decodeWhole_exact _ decodeCandidateAbstention_exact)
  | evaluation m =>
    exact (and_iff_right htype).trans
      (EnsembleWorker.decodeWhole_exact _ decodeEvaluationResult_exact)

/-- Everything an answer writes before the last run of bytes. -/
def front : WorkerAnswer → List Write
  | .result m => [encodeCandidateAuthority m.authority, Encoder.bytes m.payload].flatten
  | .failure m =>
      [ encodeCandidateAuthority m.authority,
        Encoder.u8 m.kind.number,
        Encoder.u32 (UInt32.ofNat m.detail.length) ].flatten
  | .abstention m =>
      [ encodeCandidateAuthority m.authority,
        Encoder.u32 (UInt32.ofNat m.rationale.length) ].flatten
  | .evaluation m =>
      [ encodeEvaluationAuthority m.authority,
        encodeCriterion m.criterion,
        Encoder.u8 m.criterionKind.number,
        Encoder.u8 m.verification.number,
        Encoder.u8 m.judgment.number,
        Encoder.boolean m.scoreDefined,
        Encoder.f64 m.score,
        Encoder.f64 m.weight,
        Encoder.bytes m.evidence,
        Encoder.u32 (UInt32.ofNat m.rationale.length) ].flatten

def last : WorkerAnswer → List UInt8
  | .result m => LittleEndian.bytes 4 m.producedUnits.toNat
  | .failure m => m.detail
  | .abstention m => m.rationale
  | .evaluation m => m.rationale

theorem writes_eq (answer : WorkerAnswer) : answer.writes = answer.front ++ [.raw answer.last] := by
  cases answer with
  | result m => simp [writes, front, last, encodeCandidateResult, Encoder.u32]
  | failure m => simp [writes, front, last, encodeCandidateFailure, Encoder.string]
  | abstention m => simp [writes, front, last, encodeCandidateAbstention, Encoder.string]
  | evaluation m => simp [writes, front, last, encodeEvaluationResult, Encoder.string]

theorem candidateAuthority_length (a : CandidateAuthority) :
    (flat (encodeCandidateAuthority a)).length = 88 := by
  simp only [encodeCandidateAuthority, encodeParticipantAuthority, flatten_length, List.map_cons,
    List.map_nil, List.sum_cons, List.sum_nil, u64_length, Nat.reduceAdd]

theorem evaluationAuthority_length (a : EvaluationAuthority) :
    (flat (encodeEvaluationAuthority a)).length = 104 := by
  simp only [encodeEvaluationAuthority, encodeParticipantAuthority, flatten_length, List.map_cons,
    List.map_nil, List.sum_cons, List.sum_nil, u64_length, Nat.reduceAdd]

/-- The size of an answer before the last run of bytes. -/
def frontSize : WorkerAnswer → Nat
  | .result m => 92 + m.payload.length
  | .failure _ => 93
  | .abstention _ => 92
  | .evaluation m => 140 + m.evidence.length

theorem front_length (answer : WorkerAnswer) : (flat answer.front).length = answer.frontSize := by
  cases answer <;>
    simp only [front, frontSize, flatten_length, List.map_cons, List.map_nil, List.sum_cons,
      List.sum_nil, candidateAuthority_length, evaluationAuthority_length, run_length, u8_length,
      u32_length, u64_length, encodeCriterion, Encoder.boolean, Encoder.f64] <;>
    omega

end WorkerAnswer

namespace EnsembleWorker

variable {σ : Type}

/-- Under what the worker answers an evaluation request. -/
def evaluationAuthority (w : EnsembleWorker σ) (m : EvaluationRequestMessage) :
    EvaluationAuthority where
  evaluator := w.authority m.ensemble m.ensembleGeneration m.judge m.judgeGeneration
  execution := m.execution
  attemptGeneration := m.attemptGeneration
  evaluation := m.evaluation
  evaluationGeneration := m.evaluationGeneration
  candidate := m.candidate
  candidateGeneration := m.candidateGeneration

/-- The answer a production is sent back as. -/
def productionAnswer (authority : CandidateAuthority) :
    Outcome ParticipantProduction → WorkerAnswer
  | .error error =>
      .failure
        { authority, kind := failureKindFor error.code, detail := textBytes error.message }
  | .ok production =>
      match production.kind with
      | .failure =>
          .failure { authority, kind := production.failure, detail := textBytes production.detail }
      | .abstention => .abstention { authority, rationale := textBytes production.detail }
      | .content =>
          .result
            { authority, payload := production.payload
              producedUnits := production.budgetUnitsUsed }

theorem productionMessage_eq (authority : CandidateAuthority)
    (production : Outcome ParticipantProduction) :
    productionMessage authority production
      = ((productionAnswer authority production).type,
          (productionAnswer authority production).writes) := by
  cases production with
  | error error => rfl
  | ok production =>
    rw [productionMessage, productionAnswer]
    cases production.kind <;> rfl

/-- What the worker answers to a request, if anything. -/
def answer (w : EnsembleWorker σ) : BackendRequest → Option WorkerAnswer
  | .produce m => some (productionAnswer (w.dispatchAuthority m) (w.backend.produce m w.world).1)
  | .evaluate m =>
      match (w.backend.evaluate m w.world).1 with
      | .error _ => none
      | .ok evaluation => some (.evaluation (w.evaluationAnswer m evaluation))

/-- The frame an answer goes back in. -/
def answerFrame (w : EnsembleWorker σ) (frame : Frame) (answer : WorkerAnswer) : Frame where
  type := answer.type
  correlation := frame.correlation
  epoch := w.coordinatorEpoch
  workerBoot := w.config.workerBoot
  sequence := ⟨w.sequence.value + 1⟩
  payload := Encoder.buffer w.config.limits answer.writes

/-- What the worker sends for a request is its answer. -/
theorem handleFrame_sent {w : EnsembleWorker σ} {frame : Frame} {request : BackendRequest}
    (h : frame.request? = some request) :
    (w.handleFrame frame).sent
      = w.sent ++ ((w.answer request).map (w.answerFrame frame)).toList := by
  rw [Frame.request?] at h
  rw [handleFrame]
  split at h
  · rename_i htype
    cases hread : Coordinator.decodeWhole decodeDispatchCandidate "candidate dispatch" frame with
    | error error =>
      rw [hread] at h
      cases h
    | ok m =>
      rw [hread] at h
      obtain rfl := Option.some.inj h
      simp only [htype, handleDispatch, productionMessage_eq]
      rfl
  · rename_i htype
    cases hread : Coordinator.decodeWhole decodeEvaluationRequest "evaluation request" frame with
    | error error =>
      rw [hread] at h
      cases h
    | ok m =>
      rw [hread] at h
      obtain rfl := Option.some.inj h
      simp only [htype, handleEvaluation, answer]
      split
      · rename_i hevaluate
        rw [hevaluate]
        exact (List.append_nil _).symm
      · rename_i hevaluate
        rw [hevaluate]
        rfl
  · cases h

/-- The answer is made under the identities of the request. -/
def Echoes (w : EnsembleWorker σ) : BackendRequest → WorkerAnswer → Prop
  | .produce m, .result answer => answer.authority = w.dispatchAuthority m
  | .produce m, .failure answer => answer.authority = w.dispatchAuthority m
  | .produce m, .abstention answer => answer.authority = w.dispatchAuthority m
  | .evaluate m, .evaluation answer =>
      answer.authority = w.evaluationAuthority m ∧ answer.criterion = m.criterion
        ∧ answer.criterionKind = m.criterionKind
  | _, _ => False

theorem answer_echoes {w : EnsembleWorker σ} {request : BackendRequest} {answer : WorkerAnswer}
    (h : w.answer request = some answer) : w.Echoes request answer := by
  cases request with
  | produce m =>
    obtain rfl := Option.some.inj h
    cases (w.backend.produce m w.world).1 with
    | error error => rfl
    | ok production =>
      rw [productionAnswer]
      cases production.kind <;> rfl
  | evaluate m =>
    rw [EnsembleWorker.answer] at h
    split at h
    · cases h
    · obtain rfl := Option.some.inj h
      exact ⟨rfl, rfl, rfl⟩

/-- An answer is read at the other end if it is within the bounds of the
wire. -/
theorem answerFrame_read {w : EnsembleWorker σ} {frame : Frame} {receiver : Limits}
    {answer : WorkerAnswer} :
    (∃ received, (w.answerFrame frame answer).Carried w.config.limits receiver received
        ∧ received.correlation = frame.correlation ∧ answer.ReadIn received)
      ↔ answer.legal
        ∧ Conveyed w.config.limits receiver answer.frontSize answer.last.length := by
  have hpayload : (w.answerFrame frame answer).payload
      = Encoder.buffer w.config.limits (answer.front ++ [.raw answer.last]) := by
    rw [← answer.writes_eq]
    rfl
  have hconveyed := conveyed_iff receiver hpayload
  rw [answer.front_length, ← answer.writes_eq] at hconveyed
  rw [← hconveyed]
  constructor
  · rintro ⟨received, hcarried, -, hread⟩
    obtain ⟨hsent, hreceived, rfl⟩ := Frame.carried_iff.mp hcarried
    obtain ⟨hlegal, hwhole⟩ := (WorkerAnswer.readIn_iff (by rfl)).mp hread
    exact ⟨hlegal, hsent, hreceived, hwhole⟩
  · rintro ⟨hlegal, hsent, hreceived, hwhole⟩
    exact ⟨_, Frame.carried_iff.mpr ⟨hsent, hreceived, rfl⟩, rfl,
      (WorkerAnswer.readIn_iff (by rfl)).mpr ⟨hlegal, hwhole⟩⟩

end EnsembleWorker

/-! ## Requests that are awaited -/

/-- The runtime awaits the answer of the worker to the request: the candidate
is out, or the evaluation is planned and open, under the identities of the
answer. -/
def Fabric.awaits {σ : Type} (f : Fabric) (w : EnsembleWorker σ) : BackendRequest → Bool
  | .produce m => (acceptCandidate f (w.dispatchAuthority m)).isOk
  | .evaluate m => (locateEvaluation f (w.evaluationAuthority m)).isOk

theorem candidateAt?_index {x : ExecutionRecord} {id : CandidateId} {index : Nat}
    {c : CandidateRecord} (h : x.candidateAt? id = some (index, c)) :
    x.findCandidate id = some index := by
  simp only [ExecutionRecord.candidateAt?, Option.bind_eq_bind, Option.bind_eq_some_iff] at h
  obtain ⟨i, hindex, c', -, heq⟩ := h
  obtain ⟨rfl, -⟩ := Prod.mk.injEq .. |>.mp (Option.some.inj heq)
  exact hindex

theorem pendingAt?_index {x : ExecutionRecord} {id : EvaluationId} {index : Nat}
    {p : PendingEvaluation} (h : x.pendingAt? id = some (index, p)) :
    x.findPending id = some index := by
  simp only [ExecutionRecord.pendingAt?, Option.bind_eq_bind, Option.bind_eq_some_iff] at h
  obtain ⟨i, hindex, p', -, heq⟩ := h
  obtain ⟨rfl, -⟩ := Prod.mk.injEq .. |>.mp (Option.some.inj heq)
  exact hindex

theorem acceptCandidate_index {f : Fabric} {a : CandidateAuthority} {l : Located}
    (h : acceptCandidate f a = .ok l) :
    l.execution.findCandidate a.candidate = some l.index := by
  simp only [acceptCandidate, locateCandidate, bind_eq_ok, demand_eq_ok, located_eq_ok,
    uncounted_eq_ok, pure_eq_ok] at h
  obtain ⟨_, ⟨_, -, _, -, e, -, _, -, x, -, _, -, seat, -, _, -, _, -, _, -, ⟨index, c⟩, hc, _, -,
    _, -, rfl⟩, h⟩ := h
  split at h
  · obtain rfl := pure_eq_ok.mp h
    exact candidateAt?_index hc
  · cases h

/-- Writing the slot back in another state settles what is awaited of it. -/
theorem acceptCandidate_written {f : Fabric} {a : CandidateAuthority} {l : Located}
    (h : acceptCandidate f a = .ok l) {k : Core} {e : EnsembleRecord} {x : ExecutionRecord}
    {c : CandidateRecord} (hx : e.execution = some x)
    (hcandidates : x.candidates = l.execution.candidates.set l.index c)
    (hid : c.id = l.candidate.id) (hstate : c.state ≠ .dispatched) :
    (acceptCandidate ({ f with core := k }.store a.participant.ensemble e) a).isOk = false := by
  rw [Bool.eq_false_iff]
  intro haccepts
  obtain ⟨e', x', p', c', hfenced, hdispatched⟩ := acceptCandidate_isOk.mp haccepts
  have hentry : (({ f with core := k }.store a.participant.ensemble e).view
      a.participant.ensemble).entry = some e := Fabric.find_store_self ..
  obtain rfl := Option.some.inj (hfenced.ensemble.symm.trans hentry)
  obtain rfl := Option.some.inj (hfenced.execution.symm.trans hx)
  have hlocated := (acceptCandidate_eq_ok h).1
  have hkey : l.candidate.id = a.candidate := by
    simpa using List.find?_some hlocated.fenced.candidate
  have hwritten : x'.candidate? a.candidate = some c := by
    rw [ExecutionRecord.candidate?, hcandidates]
    exact Slots.find?_set (acceptCandidate_index h) (by simp [hid, hkey])
  obtain rfl := Option.some.inj (hfenced.candidate.symm.trans hwritten)
  exact hstate hdispatched

theorem submitCandidate_settles {f : Fabric} {s : CandidateSubmission}
    (h : (acceptCandidate f s.authority).isOk = true) :
    (acceptCandidate (f.after (.submitCandidate s)) s.authority).isOk = false
      ↔ checkPayload f.config.limits s.payload = .ok () := by
  change (acceptCandidate (submitCandidate f s).1 s.authority).isOk = false ↔ _
  cases haccept : acceptCandidate f s.authority with
  | error refusal =>
    rw [haccept] at h
    cases h
  | ok l =>
    rw [submitCandidate, haccept]
    dsimp only
    cases checkPayload f.config.limits s.payload with
    | error error =>
      dsimp only
      rw [haccept]
      refine iff_of_false ?_ ?_ <;> rintro ⟨⟩
    | ok _ =>
      refine iff_of_true (acceptCandidate_written haccept rfl rfl ?_ ?_) rfl
      · unfold classifiedCandidate
        split <;> rfl
      · unfold classifiedCandidate
        split <;> simp

/-- A failure settles what is awaited: the candidate is to be asked again
under its next generation, or has failed. -/
theorem submitCandidateFailure_settles {f : Fabric} {a : CandidateAuthority}
    (kind : ParticipantFailureKind) (h : (acceptCandidate f a).isOk = true) :
    (acceptCandidate (f.after (.submitCandidateFailure
      { authority := a, participantFailure := kind.number.toUInt32 })) a).isOk = false := by
  change (acceptCandidate (submitCandidateFailure f _).1 a).isOk = false
  have hkind : ParticipantFailureKind.ofCode? kind.number.toUInt32 = some kind := by
    cases kind <;> rfl
  cases haccept : acceptCandidate f a with
  | error refusal =>
    rw [haccept] at h
    cases h
  | ok l =>
    simp only [submitCandidateFailure, haccept, hkind]
    split
    · exact acceptCandidate_written (k := f.core) haccept rfl rfl rfl (by simp [rewoundCandidate])
    · exact acceptCandidate_written (k := f.core) haccept rfl rfl rfl (by simp [failedCandidate])

theorem submitCandidateAbstention_settles {f : Fabric} {s : CandidateAbstentionSubmission}
    (h : (acceptCandidate f s.authority).isOk = true) :
    (acceptCandidate (f.after (.submitCandidateAbstention s)) s.authority).isOk = false := by
  change (acceptCandidate (submitCandidateAbstention f s).1 s.authority).isOk = false
  cases haccept : acceptCandidate f s.authority with
  | error refusal =>
    rw [haccept] at h
    cases h
  | ok l =>
    rw [submitCandidateAbstention, haccept]
    exact acceptCandidate_written haccept rfl rfl rfl (by simp [abstainedCandidate])

/-- An evaluation that the runtime records if it is found to be awaited. -/
def EvaluationTaken (f : Fabric) (s : EvaluationSubmission) : Prop :=
  ∀ site, locateEvaluation f s.authority = .ok site →
    checkSubmission f.config.limits site s = .ok () ∧ checkUnrecorded site.execution s = .ok ()

/-- The plan of a recorded evaluation is answered. -/
theorem locateEvaluation_written {f : Fabric} {a : EvaluationAuthority} {site : EvaluationSite}
    (h : locateEvaluation f a = .ok site) {k : Core} {e : EnsembleRecord} {x : ExecutionRecord}
    (hx : e.execution = some x)
    (hpending : x.pending
      = site.execution.pending.set site.pendingIndex { site.pending with answered := true }) :
    (locateEvaluation ({ f with core := k }.store a.evaluator.ensemble e) a).isOk = false := by
  rw [Bool.eq_false_iff]
  intro hlocates
  cases hagain : locateEvaluation ({ f with core := k }.store a.evaluator.ensemble e) a with
  | error refusal =>
    rw [hagain] at hlocates
    cases hlocates
  | ok site' =>
    obtain ⟨he, hx', -, -, -, -, -, -, hopen, hunanswered, -⟩ := locateEvaluation_eq_ok hagain
    obtain ⟨-, -, -, -, -, -, -, -, hsite, -⟩ := locateEvaluation_eq_ok h
    rw [Fabric.find_store_self] at he
    rw [← Option.some.inj he, hx] at hx'
    obtain rfl := Option.some.inj hx'
    have hkey : site.pending.id = a.evaluation := by
      simpa using List.find?_some (pendingAt?_eq_some hsite).2
    have hwritten := (pendingAt?_eq_some hopen).2
    rw [hpending, Slots.find?_set (pendingAt?_index hsite) (by simp [hkey])] at hwritten
    rw [← Option.some.inj hwritten] at hunanswered
    cases hunanswered

theorem submitEvaluation_settles {f : Fabric} {s : EvaluationSubmission}
    (h : (locateEvaluation f s.authority).isOk = true) :
    (locateEvaluation (f.after (.submitEvaluation s)) s.authority).isOk = false
      ↔ EvaluationTaken f s := by
  change (locateEvaluation (submitEvaluation f s).1 s.authority).isOk = false ↔ _
  cases hlocate : locateEvaluation f s.authority with
  | error refusal =>
    rw [hlocate] at h
    cases h
  | ok site =>
    have htaken : EvaluationTaken f s ↔ ∃ found, acceptEvaluation f s = .ok found := by
      rw [EvaluationTaken, hlocate]
      simp only [acceptEvaluation, hlocate, bind_eq_ok, uncounted_eq_ok, pure_eq_ok,
        Except.ok.injEq]
      constructor
      · intro h
        obtain ⟨hcheck, hunrecorded⟩ := h site rfl
        exact ⟨site, site, rfl, (), hcheck, (), hunrecorded, rfl⟩
      · rintro ⟨_, _, rfl, _, hcheck, _, hunrecorded, -⟩ _ rfl
        exact ⟨hcheck, hunrecorded⟩
    rw [htaken, submitEvaluation]
    cases haccept : acceptEvaluation f s with
    | error refusal =>
      have hrejected : locateEvaluation (f.reject refusal : Fabric × Outcome EvaluationId).1
          s.authority = locateEvaluation f s.authority := rfl
      dsimp only
      rw [hrejected, hlocate]
      refine iff_of_false ?_ ?_
      · rintro ⟨⟩
      · rintro ⟨found, ⟨⟩⟩
    | ok found =>
      obtain rfl : site = found := by
        simp only [acceptEvaluation, hlocate, bind_eq_ok, pure_eq_ok, Except.ok.injEq] at haccept
        obtain ⟨_, rfl, _, -, _, -, rfl⟩ := haccept
        rfl
      exact iff_of_true (locateEvaluation_written hlocate rfl rfl) ⟨site, rfl⟩

/-! ## The condition -/

/-- The text is within the bound of its decoder, and gets over the wire behind
the bytes in front of it. -/
def TextConveyed (sender receiver : Limits) (front : Nat) (text : String) : Prop :=
  text.length ≤ 4096 ∧ Conveyed sender receiver front text.length

/-- What a backend produced is within the bounds of the wire. -/
def ProductionFits (sender receiver : Limits) : Outcome ParticipantProduction → Prop
  | .error error => TextConveyed sender receiver 93 error.message
  | .ok production =>
      match production.kind with
      | .content =>
          production.payload.length ≤ (megabytes 64).toNat
            ∧ Conveyed sender receiver (92 + production.payload.length) 4
      | .abstention => TextConveyed sender receiver 92 production.detail
      | .failure => TextConveyed sender receiver 93 production.detail

/-- The runtime takes a failure and an abstention as they are, and content
within its own bounds. -/
def ProductionTaken (limits : Limits) : Outcome ParticipantProduction → Prop
  | .error _ => True
  | .ok production => production.kind = .content → checkPayload limits production.payload = .ok ()

/-- What a backend evaluated is within the bounds of the wire. -/
def EvaluationFits (sender receiver : Limits) (evaluation : ParticipantEvaluation) : Prop :=
  evaluation.evidence.length ≤ (megabytes 1).toNat
    ∧ TextConveyed sender receiver (140 + evaluation.evidence.length) evaluation.rationale

namespace EnsembleWorker

variable {σ : Type}

/-- The backend returns something that gets over the wire, and that the
runtime takes if it awaits it. -/
def Answerable (w : EnsembleWorker σ) (s : Coordinator) : BackendRequest → Prop
  | .produce m =>
      let production := (w.backend.produce m w.world).1
      ProductionFits w.config.limits s.limits production
        ∧ (s.fabric.awaits w (.produce m) = true →
          ProductionTaken s.fabric.config.limits production)
  | .evaluate m =>
      ∃ evaluation, (w.backend.evaluate m w.world).1 = .ok evaluation
        ∧ EvaluationFits w.config.limits s.limits evaluation
        ∧ EvaluationTaken s.fabric
            (Coordinator.evaluationSubmission (w.evaluationAnswer m evaluation))

/-- The worker sends exactly one frame for the request. It carries the
correlation of the request; the coordinator reads in it what the backend
returned, under the identities of the request; and what the coordinator then
asks of the runtime leaves the request no longer awaited. -/
def Answered (w : EnsembleWorker σ) (s : Coordinator) (frame : Frame) (request : BackendRequest) :
    Prop :=
  ∃ answer sent received, w.answer request = some answer
    ∧ (w.handleFrame frame).sent = w.sent ++ [sent]
    ∧ sent.Carried w.config.limits s.limits received
    ∧ received.correlation = frame.correlation
    ∧ answer.ReadIn received ∧ w.Echoes request answer
    ∧ (s.fabric.awaits w request = true →
      (s.fabric.after answer.call).awaits w request = false)

/-- What is asked of one answer: it gets over the wire and settles the
request. -/
theorem answered_of_answer {w : EnsembleWorker σ} {s : Coordinator} {frame : Frame}
    {request : BackendRequest} (h : frame.request? = some request) :
    w.Answered s frame request
      ↔ ∃ answer, w.answer request = some answer
        ∧ (answer.legal
          ∧ Conveyed w.config.limits s.limits answer.frontSize answer.last.length)
        ∧ (s.fabric.awaits w request = true →
          (s.fabric.after answer.call).awaits w request = false) := by
  have hsent := handleFrame_sent (w := w) h
  constructor
  · rintro ⟨answer, sent, received, hanswer, hone, hcarried, hcorrelation, hread, -, hsettles⟩
    rw [hanswer] at hsent
    obtain rfl : w.answerFrame frame answer = sent := by
      simpa using hsent.symm.trans hone
    exact ⟨answer, hanswer, answerFrame_read.mp ⟨received, hcarried, hcorrelation, hread⟩,
      hsettles⟩
  · rintro ⟨answer, hanswer, hconveyed, hsettles⟩
    obtain ⟨received, hcarried, hcorrelation, hread⟩ :=
      (@answerFrame_read _ w frame _ answer).mpr hconveyed
    rw [hanswer] at hsent
    exact ⟨answer, _, received, hanswer, hsent, hcarried, hcorrelation, hread,
      answer_echoes hanswer, hsettles⟩

/-- A production gets over the wire as its answer does. -/
theorem productionAnswer_fits {sender receiver : Limits} {authority : CandidateAuthority}
    {production : Outcome ParticipantProduction} :
    (productionAnswer authority production).legal
        ∧ Conveyed sender receiver (productionAnswer authority production).frontSize
            (productionAnswer authority production).last.length
      ↔ ProductionFits sender receiver production := by
  cases production with
  | error error =>
    rw [ProductionFits, TextConveyed, ← textBytes_length]
    rfl
  | ok production =>
    rw [ProductionFits, productionAnswer]
    cases production.kind with
    | content => exact Iff.rfl
    | abstention | failure =>
      dsimp only
      rw [TextConveyed, ← textBytes_length]
      rfl

theorem productionAnswer_settles {f : Fabric} {a : CandidateAuthority}
    {production : Outcome ParticipantProduction} (h : (acceptCandidate f a).isOk = true) :
    (acceptCandidate (f.after (productionAnswer a production).call) a).isOk = false
      ↔ ProductionTaken f.config.limits production := by
  cases production with
  | error error =>
    refine iff_of_true ?_ trivial
    rw [productionAnswer, WorkerAnswer.call]
    exact submitCandidateFailure_settles _ h
  | ok production =>
    rw [ProductionTaken, productionAnswer]
    cases production.kind with
    | content =>
      rw [WorkerAnswer.call]
      exact (submitCandidate_settles (s := { authority := a, payload := production.payload })
        h).trans ⟨fun htaken _ => htaken, fun htaken => htaken rfl⟩
    | abstention =>
      dsimp only [WorkerAnswer.call]
      generalize bytesText (textBytes production.detail) = rationale
      have hsettles := submitCandidateAbstention_settles (s := { authority := a, rationale }) h
      refine iff_of_true hsettles ?_
      rintro ⟨⟩
    | failure =>
      dsimp only [WorkerAnswer.call]
      refine iff_of_true (submitCandidateFailure_settles _ h) ?_
      rintro ⟨⟩

theorem evaluationAnswer_settles {w : EnsembleWorker σ} {f : Fabric}
    {m : EvaluationRequestMessage} {evaluation : ParticipantEvaluation} :
    (f.awaits w (.evaluate m) = true →
        (f.after (WorkerAnswer.evaluation (w.evaluationAnswer m evaluation)).call).awaits w
          (.evaluate m) = false)
      ↔ EvaluationTaken f (Coordinator.evaluationSubmission (w.evaluationAnswer m evaluation)) := by
  rw [WorkerAnswer.call, Fabric.awaits, Fabric.awaits]
  have hauthority : w.evaluationAuthority m
      = (Coordinator.evaluationSubmission (w.evaluationAnswer m evaluation)).authority := rfl
  rw [hauthority]
  generalize Coordinator.evaluationSubmission (w.evaluationAnswer m evaluation) = s
  constructor
  · intro hsettles site hlocate
    have hawaits : (locateEvaluation f s.authority).isOk = true := by
      rw [hlocate]
      rfl
    exact (submitEvaluation_settles hawaits).mp (hsettles hawaits) site hlocate
  · intro htaken hawaits
    exact (submitEvaluation_settles hawaits).mpr htaken

/-- For every worker, coordinator and frame with a request, the worker answers
the request if and only if the backend returns something that gets over the
wire and that the runtime takes if it awaits it. -/
theorem answered_iff (w : EnsembleWorker σ) (s : Coordinator) (frame : Frame)
    (request : BackendRequest) (h : frame.request? = some request) :
    w.Answered s frame request ↔ w.Answerable s request := by
  rw [answered_of_answer h]
  cases request with
  | produce m =>
    rw [EnsembleWorker.Answerable]
    simp only [← @productionAnswer_fits _ _ (w.dispatchAuthority m), Fabric.awaits]
    constructor
    · rintro ⟨answer, hanswer, hconveyed, hsettles⟩
      obtain rfl := Option.some.inj hanswer
      exact ⟨hconveyed, fun hawaits => (productionAnswer_settles hawaits).mp (hsettles hawaits)⟩
    · rintro ⟨hconveyed, htaken⟩
      exact ⟨_, rfl, hconveyed,
        fun hawaits => (productionAnswer_settles hawaits).mpr (htaken hawaits)⟩
  | evaluate m =>
    rw [EnsembleWorker.Answerable, EnsembleWorker.answer]
    cases (w.backend.evaluate m w.world).1 with
    | error error =>
      constructor
      · rintro ⟨_, ⟨⟩, -⟩
      · rintro ⟨_, ⟨⟩, -⟩
    | ok evaluation =>
      have hfits : EvaluationFits w.config.limits s.limits evaluation
          ↔ (w.evaluationAnswer m evaluation).legal
            ∧ Conveyed w.config.limits s.limits (140 + evaluation.evidence.length)
              (textBytes evaluation.rationale).length := by
        rw [EvaluationFits, TextConveyed, ← textBytes_length, ← and_assoc]
        rfl
      constructor
      · rintro ⟨_, ⟨⟩, hconveyed, hsettles⟩
        exact ⟨evaluation, rfl, hfits.mpr hconveyed, evaluationAnswer_settles.mp hsettles⟩
      · rintro ⟨_, ⟨⟩, hconveyed, htaken⟩
        exact ⟨_, rfl, hfits.mp hconveyed, evaluationAnswer_settles.mpr htaken⟩

end EnsembleWorker

namespace Sample

/-- The coordinator before it transports the lone dispatch, and the frame it
sends. -/
def servedLone : Coordinator := (served loneOpened).having ⟨1⟩ ⟨1⟩ []

def loneFrame : Frame :=
  servedLone.actionFrame (connection 1) .dispatchCandidate ⟨1⟩
    (encodeDispatchCandidate (servedLone.dispatchMessage loneDispatch))

def longText (n : Nat) : String := String.ofList (List.replicate n 'x')

theorem longText_length (n : Nat) : (longText n).length = n := by
  rw [longText, String.length_ofList, List.length_replicate]

/-- A backend that explains a failure at length, and errs where it is to
judge. -/
def failingBackend : ParticipantBackend Unit where
  produce _ world := (.ok { kind := .failure, detail := longText 4097 }, world)
  evaluate _ world := (fail .internalError "the model is gone", world)

def failingWorker (p : UInt64) : EnsembleWorker Unit :=
  { worker p with backend := failingBackend }

end Sample

namespace EnsembleWorker

open Sample in
/-- The lone dispatch is answered. -/
theorem lone_dispatch_answered :
    (worker 1).Answered servedLone loneFrame
      (.produce (servedLone.dispatchMessage loneDispatch)) := by
  refine (answered_iff (worker 1) servedLone loneFrame _ (by decide +kernel)).mpr ⟨?_, ?_⟩
  · exact ⟨by decide, .inl (by decide), by decide, by decide⟩
  · exact fun _ _ => by decide +kernel

open Sample in
/-- A judge whose backend errs sends nothing, and a failure of 4097 bytes is
not read. The runtime awaits both answers. -/
theorem failing_unanswered :
    judgingFrame.request? = some (.evaluate (judgingRequest []))
      ∧ judgingCoordinator.fabric.awaits (failingWorker 2) (.evaluate (judgingRequest [])) = true
      ∧ ((failingWorker 2).handleFrame judgingFrame).sent = []
      ∧ ¬ (failingWorker 2).Answered judgingCoordinator judgingFrame
          (.evaluate (judgingRequest []))
      ∧ loneFrame.request? = some (.produce (servedLone.dispatchMessage loneDispatch))
      ∧ servedLone.fabric.awaits (failingWorker 1)
          (.produce (servedLone.dispatchMessage loneDispatch)) = true
      ∧ ¬ (failingWorker 1).Answered servedLone loneFrame
          (.produce (servedLone.dispatchMessage loneDispatch)) := by
  refine ⟨by decide +kernel, by decide +kernel, by decide +kernel, ?_, by decide +kernel,
    by decide +kernel, ?_⟩
  · rintro ⟨answer, _, _, hanswer, -⟩
    cases hanswer
  · rintro ⟨answer, _, received, hanswer, -, -, -, hread, -⟩
    have hfailure : answer = .failure
        { authority := (failingWorker 1).dispatchAuthority (servedLone.dispatchMessage loneDispatch)
          detail := textBytes (longText 4097) } := (Option.some.inj hanswer).symm
    generalize hsize : 4097 = n at hfailure
    subst hfailure
    have hlegal := ((decodeWhole_exact _ decodeCandidateFailure_exact).mp hread.2).1
    rw [CandidateFailureMessage.legal, textBytes_length, longText_length] at hlegal
    omega

end EnsembleWorker

end EnsembleFabric
