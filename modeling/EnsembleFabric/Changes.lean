import EnsembleFabric.CommitGate
import EnsembleFabric.ExactlyOnce

/-!
# What one event writes

The events of the runtime by their effect on one ensemble: whatever an
event does, the record of an ensemble after it is the record before it or
one of the records below, under the checks the operation made. What has to
hold of every operation is checked against these cases, and no operation
is unfolded again.

Unlike the moves of `Lifecycle`, the cases name the very record that is
written. They are for properties that moves do not see, such as the stage
position of an execution.

`Written` has one case for each record an operation can leave. An operation
is taken apart once, to show that it `WritesOnly` these; `next_writes` is the
inversion of one event on every ensemble at once, and `next_record` the same
read from the record an event leaves: it was there before, was written, or
has just been defined.
-/

namespace EnsembleFabric

open EventSystem

/-- The record a value is stored in: the attempt is counted first. -/
def committedRecord (limits : Limits) (e : EnsembleRecord) (x : ExecutionRecord)
    (stamped : EnsembleResult) : EnsembleRecord :=
  e.holding (storeResult limits e { x with commitAttempts := x.commitAttempts + 1 } stamped).1

/-- The work of a failure report, and the verdict on the execution. -/
def releasedRecord (e : EnsembleRecord) (x : ExecutionRecord) (p : ParticipantRecord)
    (kind : ParticipantFailureKind) (detail : String) : EnsembleRecord :=
  let work := handleParticipantFailure e x p kind detail
  work.1.holding
    (if cancelsExecution work.1 p then { work.2 with status := .failed } else work.2)

/-- The same seat in the same hands; only its counters differ. -/
structure SameSeat (p p' : ParticipantRecord) : Prop where
  same : SameIncarnation p p'
  status : p'.status = p.status
  registered : p'.registered = p.registered

/-- The event submits content, a failure, an abstention or an evaluation. -/
def Event.submits : Event → Bool
  | .submitCandidate _ | .submitCandidateFailure _ | .submitCandidateAbstention _
  | .submitEvaluation _ => true
  | _ => false

/-- The reason under which the event invalidates dynamic authority: directly, or
in the second section of a restart. -/
def System.invalidates (s : System) : Event → Option String
  | .invalidateDynamicAuthority reason => some reason
  | .resume client _ =>
      match s.clients client with
      | .restartInvalidating reason => some reason
      | _ => none
  | _ => none

/-- The record an event writes for an ensemble. -/
inductive Written (s : System) (event : Event) (id : EnsembleId) (e : EnsembleRecord) :
    EnsembleRecord → Prop
  | redefined {spec} (defines : ∃ requested, event = .defineEnsemble requested)
      (admitted : Admitted s.fabric.config.limits spec)
      (last : e.spec.generation.value ≠ lastWord)
      (generation : spec.generation = e.spec.generation.next) :
      Written s event id e (redefinedRecord s.fabric.config.limits e spec)
  | superseded (supersedes : event = .supersedeEnsemble id e.spec.generation) :
      Written s event id e
        { e with superseded := true, execution := e.execution.map supersededExecution }
  | seated {r seat} (registers : event = .registerParticipant r)
      (at_ : SeatAt e r.participant seat) (admits : admitRegistration s.fabric r = .ok seat) :
      Written s event id e (seat.write (seatedParticipant seat.participant r))
  | started {next} (opens : event = .openExecution id e.spec.generation)
      (ended : e.isOpen = false) (live : e.superseded = false)
      (later : ∀ x, e.execution = some x → next = x.id.next ∧ x.id.value ≠ lastWord) :
      Written s event id e (e.holding { id := next, coordinatorEpoch := s.fabric.core.epoch })
  | withdrawn {x} (advances : event = .advance id e.spec.generation)
      (before : e.execution = some x) (status : x.status = .cancelled)
      (pending : x.cancellationEmitted = false) :
      Written s event id e (e.holding (emitCancellation s.fabric.core e x).1)
  | closed {x} (advances : event = .advance id e.spec.generation)
      (before : e.execution = some x) (status : x.status = .opened)
      (superseded : e.superseded = true) : Written s event id e (e.holding (closedExecution x))
  | advanced {x} {work : AdvanceState} (advances : event = .advance id e.spec.generation)
      (before : e.execution = some x) (status : x.status = .opened) (live : e.superseded = false)
      (result : (advanceOpen s.fabric.config.limits s.fabric.core e x).1 = work) :
      Written s event id e (work.ensemble.holding work.execution)
  | received {r l p} (submits : event = .submitCandidate r)
      (accept : acceptCandidate s.fabric r.authority = .ok l) (ensemble : l.seat.ensemble = e)
      (payload : checkPayload s.fabric.config.limits r.payload = .ok ())
      (seat : SameSeat l.seat.participant p) :
      Written s event id e (l.write (classifiedCandidate e.spec.evidence
        (receivedCandidate l.candidate r.payload s.fabric.core.nextSequence.1
          l.seat.participant.declaration.executionBudgetUnits)) p)
  | retried {r l kind} (submits : event = .submitCandidateFailure r)
      (accept : acceptCandidate s.fabric r.authority = .ok l) (ensemble : l.seat.ensemble = e)
      (failure : ParticipantFailureKind.ofCode? r.participantFailure = some kind)
      (retry : retryAuthorized e.spec l.candidate (failureError kind) = true) :
      Written s event id e
        ((rewindCandidateForRetry e l.execution l.index l.candidate).1.holding
          (rewindCandidateForRetry e l.execution l.index l.candidate).2)
  | dropped {r l kind} (submits : event = .submitCandidateFailure r)
      (accept : acceptCandidate s.fabric r.authority = .ok l) (ensemble : l.seat.ensemble = e)
      (failure : ParticipantFailureKind.ofCode? r.participantFailure = some kind)
      (final : retryAuthorized e.spec l.candidate (failureError kind) = false) :
      Written s event id e
        ((failCandidate e l.execution l.index l.candidate (failureError kind)
            s!"participant reported {kind.toString}").1.holding
          (failCandidate e l.execution l.index l.candidate (failureError kind)
            s!"participant reported {kind.toString}").2)
  | abstained {r l detail received p} (submits : event = .submitCandidateAbstention r)
      (accept : acceptCandidate s.fabric r.authority = .ok l) (ensemble : l.seat.ensemble = e)
      (seat : SameSeat l.seat.participant p) :
      Written s event id e (l.write (abstainedCandidate l.candidate detail received) p)
  | evaluated {r site p} (submits : event = .submitEvaluation r)
      (accept : acceptEvaluation s.fabric r = .ok site) (ensemble : site.seat.ensemble = e)
      (seat : SameSeat site.seat.participant p) :
      Written s event id e
        ((site.seat.write p).holding (evaluatedExecution site (acceptedRecord s.fabric r site)))
  | lost {a seat kind detail} (reports : event = .reportParticipantFailure a kind detail)
      (admits : admitFailureReport s.fabric a = .ok seat) (ensemble : seat.ensemble = e)
      (ended : e.isOpen = false) :
      Written s event id e (seat.write (lostParticipant seat.participant kind detail))
  | released {a seat kind detail x} (reports : event = .reportParticipantFailure a kind detail)
      (admits : admitFailureReport s.fabric a = .ok seat) (ensemble : seat.ensemble = e)
      (before : e.execution = some x) (status : x.status = .opened) :
      Written s event id e
        (releasedRecord (seat.write (lostParticipant seat.participant kind detail)) x
          (lostParticipant seat.participant kind detail) kind detail)
  | cancelled {x reason text sequence}
      (cancels : event = .cancelEnsemble id e.spec.generation reason)
      (before : e.execution = some x) (undecided : x.result = none)
      (live : x.status ≠ .cancelled) :
      Written s event id e (e.holding (cancelledExecution x text sequence))
  | invalidated {reason} (invalidates : s.invalidates event = some reason) :
      Written s event id e (invalidatedEnsemble reason e)
  | reported {x} (section_ : event.submits = false) (before : e.execution = some x)
      (undecided : x.result = none) :
      Written s event id e (e.holding (computeReports e x))
  | attempted {r x} (submits : s.submitted event = some r) (before : e.execution = some x) :
      Written s event id e (e.holding { x with commitAttempts := x.commitAttempts + 1 })
  | stored {r x resultId sequence} (submits : s.submitted event = some r)
      (stores : storesIn s.fabric r = some (e, x)) :
      Written s event id e
        (committedRecord s.fabric.config.limits e x (stampedResult r resultId sequence))

/-! ## One operation -/

/-- An operation of the event writes nothing else. -/
structure WritesOnly (s : System) (event : Event) (f' : Fabric) : Prop where
  known : ∀ id e, s.fabric.find id = some e →
    ∃ e', f'.find id = some e' ∧ (e' = e ∨ Written s event id e e')
  entered : ∀ id, s.fabric.find id = none → f'.find id = none
    ∨ ∃ spec, Admitted s.fabric.config.limits spec ∧ f'.find id = some (newRecord spec)

section Operations

variable {s : System} {event : Event}

theorem writesOnly_same {f' : Fabric} (h : ∀ id, f'.find id = s.fabric.find id) :
    WritesOnly s event f' :=
  ⟨fun id e he => ⟨e, (h id).trans he, .inl rfl⟩, fun id hn => .inl ((h id).trans hn)⟩

theorem writesOnly_reject {α : Type} (r : Refusal) :
    WritesOnly s event (s.fabric.reject (α := α) r).1 :=
  writesOnly_same fun _ => rfl

theorem writesOnly_store {k : Core} {id : EnsembleId} {e e' : EnsembleRecord}
    (he : s.fabric.find id = some e) (h : Written s event id e e') :
    WritesOnly s event ({ s.fabric with core := k }.store id e') := by
  have hfind : ∀ other, ({ s.fabric with core := k }.store id e').find other
      = if id = other then some e' else s.fabric.find other := fun other =>
    Fabric.find_store { s.fabric with core := k } id other e'
  constructor
  · intro other e₀ he₀
    rw [hfind]
    split
    · rename_i heq
      subst heq
      obtain rfl := Option.some.inj (he.symm.trans he₀)
      exact ⟨e', rfl, .inr h⟩
    · exact ⟨e₀, he₀, .inl rfl⟩
  · intro other hn
    rw [hfind]
    split
    · rename_i heq
      subst heq
      rw [he] at hn
      cases hn
    · exact .inl hn

theorem defineEnsemble_writes (requested : EnsembleSpec) :
    WritesOnly s (.defineEnsemble requested) (defineEnsemble s.fabric requested).1 := by
  unfold defineEnsemble
  split
  · exact writesOnly_same fun _ => rfl
  · rename_i id core hid
    simp only
    split
    · exact writesOnly_same fun _ => rfl
    · rename_i spec hspec
      obtain ⟨hadmitted, -, hgen⟩ := admitSpec_eq_ok hspec
      have hfind : ∀ k e' other, ({ s.fabric with core := k }.store id e').find other
          = if id = other then some e' else s.fabric.find other := fun k e' other =>
        Fabric.find_store { s.fabric with core := k } id other e'
      split
      · rename_i hnone
        constructor
        · intro other e he
          refine ⟨e, ?_, .inl rfl⟩
          rw [hfind, if_neg, he]
          rintro rfl
          rw [show s.fabric.find id = none from hnone] at he
          cases he
        · intro other hn
          rw [hfind]
          split
          · exact .inr ⟨spec, hadmitted, rfl⟩
          · exact .inl hn
      · rename_i e he
        replace hgen : nextGeneration (s.fabric.find id) requested.generation
            = .ok spec.generation := hgen
        rw [show s.fabric.find id = some e from he] at hgen
        obtain ⟨hlast, hnext⟩ := nextGeneration_some hgen
        have hwritten : Written s (.defineEnsemble requested) id e
            (redefinedRecord s.fabric.config.limits e spec) :=
          .redefined ⟨requested, rfl⟩ hadmitted hlast hnext
        split
        · exact writesOnly_store (k := countSupersession core) he hwritten
        · exact writesOnly_store (k := core) he hwritten

theorem supersedeEnsemble_writes (id : EnsembleId) (generation : EnsembleGeneration) :
    WritesOnly s (.supersedeEnsemble id generation)
      (supersedeEnsemble s.fabric id generation).1 := by
  unfold supersedeEnsemble
  split
  · exact writesOnly_same fun _ => rfl
  · rename_i e he
    split
    · exact writesOnly_same fun _ => rfl
    · rename_i hgen
      obtain rfl := not_not.mp hgen
      exact writesOnly_store (k := countSupersession s.fabric.core) he (.superseded rfl)

theorem registerParticipant_writes (r : ParticipantRegistration) :
    WritesOnly s (.registerParticipant r) (registerParticipant s.fabric r).1 := by
  unfold registerParticipant
  split
  · exact writesOnly_reject _
  · rename_i seat hadmit
    obtain ⟨-, -, he, hseat, -⟩ := admitRegistration_eq_ok hadmit
    exact writesOnly_store (k := s.fabric.core) he (.seated rfl hseat hadmit)

theorem openExecution_writes (id : EnsembleId) (generation : EnsembleGeneration) :
    WritesOnly s (.openExecution id generation) (openExecution s.fabric id generation).1 := by
  unfold openExecution
  split
  · exact writesOnly_same fun _ => rfl
  · rename_i e he
    split
    · exact writesOnly_same fun _ => rfl
    · rename_i hgen
      obtain rfl := not_not.mp hgen
      split
      · exact writesOnly_same fun _ => rfl
      · rename_i hlive
        split
        · exact writesOnly_same fun _ => rfl
        · rename_i hended
          split
          · exact writesOnly_same fun _ => rfl
          · split
            · exact writesOnly_same fun _ => rfl
            · rename_i hlast
              refine writesOnly_store (k := s.fabric.core) he
                (.started rfl (by simpa using hended) (by simpa using hlive) fun x hx => ?_)
              exact ⟨by rw [hx], by simpa [hx] using hlast⟩

theorem advance_writes (id : EnsembleId) (generation : EnsembleGeneration) :
    WritesOnly s (.advance id generation) (advance s.fabric id generation).1 := by
  unfold advance
  split
  · exact writesOnly_same fun _ => rfl
  · rename_i e he
    split
    · exact writesOnly_same fun _ => rfl
    · rename_i hgen
      obtain rfl := not_not.mp hgen
      split
      · exact writesOnly_same fun _ => rfl
      · rename_i x hx
        split
        · rename_i hstatus
          split
          · exact writesOnly_same fun _ => rfl
          · rename_i hpending
            exact writesOnly_store he (.withdrawn rfl hx hstatus (by simpa using hpending))
        · rename_i hstatus
          split
          · rename_i hsuperseded
            exact writesOnly_store (k := s.fabric.core) he (.closed rfl hx hstatus hsuperseded)
          · rename_i hlive
            exact writesOnly_store he (.advanced rfl hx hstatus (by simpa using hlive) rfl)
        · exact writesOnly_same fun _ => rfl

theorem submitCandidate_writes (r : CandidateSubmission) :
    WritesOnly s (.submitCandidate r) (submitCandidate s.fabric r).1 := by
  unfold submitCandidate
  split
  · exact writesOnly_reject _
  · rename_i l haccept
    obtain ⟨hlocated, -⟩ := acceptCandidate_eq_ok haccept
    split
    · exact writesOnly_same fun _ => rfl
    · rename_i hpayload
      refine writesOnly_store (k := s.fabric.core.nextSequence.2) hlocated.fenced.ensemble
        (.received rfl haccept rfl hpayload ?_)
      split <;> exact ⟨⟨rfl, rfl, rfl, rfl, rfl, rfl, rfl⟩, rfl, rfl⟩

theorem submitCandidateFailure_writes (r : CandidateFailureSubmission) :
    WritesOnly s (.submitCandidateFailure r) (submitCandidateFailure s.fabric r).1 := by
  unfold submitCandidateFailure
  split
  · exact writesOnly_reject _
  · rename_i l haccept
    obtain ⟨hlocated, -⟩ := acceptCandidate_eq_ok haccept
    split
    · exact writesOnly_same fun _ => rfl
    · rename_i kind hkind
      simp only
      split
      · rename_i hretry
        exact writesOnly_store (k := s.fabric.core) hlocated.fenced.ensemble
          (.retried rfl haccept rfl hkind hretry)
      · rename_i hfinal
        exact writesOnly_store (k := s.fabric.core) hlocated.fenced.ensemble
          (.dropped rfl haccept rfl hkind (by simpa using hfinal))

theorem submitCandidateAbstention_writes (r : CandidateAbstentionSubmission) :
    WritesOnly s (.submitCandidateAbstention r) (submitCandidateAbstention s.fabric r).1 := by
  unfold submitCandidateAbstention
  split
  · exact writesOnly_reject _
  · rename_i l haccept
    obtain ⟨hlocated, -⟩ := acceptCandidate_eq_ok haccept
    exact writesOnly_store (k := s.fabric.core.nextSequence.2) hlocated.fenced.ensemble
      (.abstained rfl haccept rfl ⟨⟨rfl, rfl, rfl, rfl, rfl, rfl, rfl⟩, rfl, rfl⟩)

theorem submitEvaluation_writes (r : EvaluationSubmission) :
    WritesOnly s (.submitEvaluation r) (submitEvaluation s.fabric r).1 := by
  unfold submitEvaluation
  split
  · exact writesOnly_reject _
  · rename_i site haccept
    have haccepted := acceptEvaluation_eq_ok haccept
    exact writesOnly_store (k := s.fabric.core.nextSequence.2) haccepted.ensemble
      (.evaluated rfl haccept rfl ⟨⟨rfl, rfl, rfl, rfl, rfl, rfl, rfl⟩, rfl, rfl⟩)

theorem reportParticipantFailure_writes (a : ParticipantAuthority)
    (kind : ParticipantFailureKind) (detail : String) :
    WritesOnly s (.reportParticipantFailure a kind detail)
      (reportParticipantFailure s.fabric a kind detail).1 := by
  unfold reportParticipantFailure
  split
  · exact writesOnly_reject _
  · rename_i seat hadmit
    obtain ⟨he, -⟩ := admitFailureReport_eq_ok hadmit
    simp only
    split
    · rename_i hx
      refine writesOnly_store (k := s.fabric.core) he (.lost rfl hadmit rfl ?_)
      simp [EnsembleRecord.isOpen, show seat.ensemble.execution = none from hx]
    · rename_i x hx
      replace hx : seat.ensemble.execution = some x := hx
      split
      · rename_i hended
        refine writesOnly_store (k := s.fabric.core) he (.lost rfl hadmit rfl ?_)
        simpa [EnsembleRecord.isOpen, hx] using hended
      · rename_i hopen
        have hreleased : Written s (.reportParticipantFailure a kind detail) a.ensemble
            seat.ensemble
            (releasedRecord (seat.write (lostParticipant seat.participant kind detail)) x
              (lostParticipant seat.participant kind detail) kind detail) :=
          .released rfl hadmit rfl hx (not_not.mp hopen)
        unfold releasedRecord at hreleased
        simp only at hreleased
        split
        · rename_i hcancels
          rw [if_pos hcancels] at hreleased
          exact writesOnly_store (k := s.fabric.core) he hreleased
        · rename_i hcancels
          rw [if_neg hcancels] at hreleased
          exact writesOnly_store (k := s.fabric.core) he hreleased

theorem cancelEnsemble_writes (id : EnsembleId) (generation : EnsembleGeneration)
    (reason : String) :
    WritesOnly s (.cancelEnsemble id generation reason)
      (cancelEnsemble s.fabric id generation reason).1 := by
  unfold cancelEnsemble
  split
  · exact writesOnly_same fun _ => rfl
  · rename_i e he
    split
    · exact writesOnly_same fun _ => rfl
    · rename_i hgen
      obtain rfl := not_not.mp hgen
      split
      · exact writesOnly_same fun _ => rfl
      · rename_i x hx
        split
        · exact writesOnly_same fun _ => rfl
        · rename_i hundecided
          split
          · exact writesOnly_same fun _ => rfl
          · rename_i hlive
            exact writesOnly_store (k := s.fabric.core.nextSequence.2) he
              (.cancelled rfl hx (by simpa using hundecided) hlive)

theorem invalidateDynamicAuthority_writes {reason : String}
    (hinvalidates : s.invalidates event = some reason) :
    WritesOnly s event (invalidateDynamicAuthority s.fabric reason) := by
  constructor
  · intro id e he
    exact ⟨_, by rw [find_invalidate, he]; rfl, .inr (.invalidated hinvalidates)⟩
  · intro id hn
    exact .inl (by rw [find_invalidate, hn]; rfl)

theorem prepareResult_writes (hsection : event.submits = false) (id : EnsembleId)
    (generation : EnsembleGeneration) :
    WritesOnly s event (prepareResult s.fabric id generation).1 := by
  unfold prepareResult
  split
  · exact writesOnly_same fun _ => rfl
  · rename_i e he
    split
    · exact writesOnly_same fun _ => rfl
    · split
      · exact writesOnly_same fun _ => rfl
      · rename_i x hx
        split
        · exact writesOnly_same fun _ => rfl
        · rename_i hundecided
          exact writesOnly_store (k := s.fabric.core) he (.reported hsection hx hundecided)

theorem commitResult_writes {r : EnsembleResult} (hsubmits : s.submitted event = some r) :
    WritesOnly s event (commitResult s.fabric r).1 := by
  unfold commitResult
  split
  · exact writesOnly_reject _
  · rename_i e x htarget
    have hfenced := commitTarget_eq_ok htarget
    have hattempted : WritesOnly s event (s.fabric.store r.ensemble
        (e.holding { x with commitAttempts := x.commitAttempts + 1 })) :=
      writesOnly_store (k := s.fabric.core) hfenced.ensemble
        (.attempted hsubmits hfenced.execution)
    simp only
    split
    · split
      · exact hattempted
      · exact ⟨hattempted.known, hattempted.entered⟩
    · rename_i hundecided
      split
      · exact hattempted
      · rename_i hallowed
        split
        · exact hattempted
        · rename_i resultId ids hids
          have hstores : storesIn s.fabric r = some (e, x) :=
            storesIn_eq_some.mpr ⟨htarget, hundecided, hallowed, resultId, ids, hids⟩
          exact writesOnly_store (k := countCommit _ _) hfenced.ensemble
            (.stored hsubmits hstores)

/-! ## One event -/

/-- The inversion of one event, on every ensemble at once. -/
theorem next_writes (s : System) (event : Event) :
    WritesOnly s event (s.next event).fabric := by
  cases event with
  | defineEnsemble spec => exact defineEnsemble_writes spec
  | supersedeEnsemble id generation => exact supersedeEnsemble_writes id generation
  | registerParticipant registration => exact registerParticipant_writes registration
  | openExecution id generation => exact openExecution_writes id generation
  | advance id generation => exact advance_writes id generation
  | submitCandidate submission => exact submitCandidate_writes submission
  | submitCandidateFailure submission => exact submitCandidateFailure_writes submission
  | submitCandidateAbstention submission => exact submitCandidateAbstention_writes submission
  | submitEvaluation submission => exact submitEvaluation_writes submission
  | reportParticipantFailure authority kind detail =>
    exact reportParticipantFailure_writes authority kind detail
  | cancelEnsemble id generation reason => exact cancelEnsemble_writes id generation reason
  | invalidateDynamicAuthority reason => exact invalidateDynamicAuthority_writes rfl
  | prepareResult id generation =>
    have hprepare : WritesOnly s (.prepareResult id generation)
        (prepareResult s.fabric id generation).1 := prepareResult_writes rfl id generation
    simpa [System.next, System.step, remember_fabric] using hprepare
  | commitResult result => exact commitResult_writes rfl
  | finalize client id generation =>
    simp only [System.next, System.step]
    split
    · exact writesOnly_same fun _ => rfl
    · split <;> exact writesOnly_same fun _ => rfl
  | restart client reason =>
    simp only [System.next, System.step]
    split
    · exact writesOnly_same fun _ => rfl
    · split <;> exact writesOnly_same fun _ => rfl
  | resume client boot =>
    simp only [System.next, System.step, System.resume]
    split
    · exact writesOnly_same fun _ => rfl
    · rename_i id generation checked _
      have hprepare : WritesOnly s (.resume client boot)
          (prepareResult s.fabric id generation).1 := prepareResult_writes rfl id generation
      split <;> exact hprepare
    · rename_i hphase
      exact commitResult_writes (by simp [System.submitted, hphase])
    · rename_i hphase
      exact invalidateDynamicAuthority_writes (by simp [System.invalidates, hphase])
    · exact writesOnly_same fun _ => rfl

end Operations

/-- The same inversion from the record an event leaves: it was there before,
the event has written it, or the event has defined the ensemble. -/
theorem next_record {s : System} {event : Event} {id : EnsembleId} {e' : EnsembleRecord}
    (h : (s.next event).fabric.find id = some e') :
    s.fabric.find id = some e'
      ∨ (∃ e, s.fabric.find id = some e ∧ Written s event id e e')
      ∨ s.fabric.find id = none
        ∧ ∃ spec, Admitted s.fabric.config.limits spec ∧ e' = newRecord spec := by
  have hwrites := next_writes s event
  cases hfound : s.fabric.find id with
  | none =>
    rcases hwrites.entered id hfound with hnone | ⟨spec, hadmitted, hnew⟩
    · rw [hnone] at h
      cases h
    · exact .inr (.inr ⟨rfl, spec, hadmitted, Option.some.inj (h.symm.trans hnew)⟩)
  | some e =>
    obtain ⟨e'', he'', hwritten⟩ := hwrites.known id e hfound
    obtain rfl := Option.some.inj (he''.symm.trans h)
    rcases hwritten with rfl | hwritten
    · exact .inl rfl
    · exact .inr (.inl ⟨e, rfl, hwritten⟩)

/-- An ensemble that has just been defined has no execution. -/
theorem next_execution {s : System} {event : Event} {id : EnsembleId} {e' : EnsembleRecord}
    {x' : ExecutionRecord} (h : (s.next event).fabric.find id = some e')
    (hx' : e'.execution = some x') :
    s.fabric.find id = some e' ∨ ∃ e, s.fabric.find id = some e ∧ Written s event id e e' := by
  rcases next_record h with hsame | hwritten | ⟨-, spec, -, rfl⟩
  · exact .inl hsame
  · exact .inr hwritten
  · cases hx'

end EnsembleFabric
