import EnsembleFabric.Changes
import EnsembleFabric.Threshold

/-!
# Open executions between two advances

Only `advance` declares candidates, dispatches them or moves the stage
position. Whatever else happens to an execution that stays open, its
candidates keep their places and can only leave flight, or fall back from
dispatched to declared. `reachable_open` turns this into an induction rule:
a property of open executions is checked for a new one, for such a change,
and for an advance.

`OpenAfter` is the inversion of one event: it lists how an execution that is
open afterwards came to be, and carries what is known in each case. It is
derived once from what an event can write, so that a property of open
executions never has to take an operation apart. `reachable_record` is
the companion rule for the records of ensembles, whose members every
operation keeps. The rules serve the results about stages, bounds and
cancellations.
-/

namespace EnsembleFabric

open List (Forall₂)
open EventSystem

/-! ## Slots -/

/-- A slot keeps its place in the plan, and is not taken into flight. -/
structure Settles (c c' : CandidateRecord) : Prop where
  id : c'.id = c.id
  participant : c'.participant = c.participant
  stage : c'.stage = c.stage
  fallback : c'.fallback = c.fallback
  inFlight : c'.inFlight = true → c.inFlight = true
  dispatched : c'.state = .dispatched → c.state = .dispatched

theorem Settles.refl (c : CandidateRecord) : Settles c c :=
  ⟨rfl, rfl, rfl, rfl, fun h => h, fun h => h⟩

theorem Settles.trans {a b c : CandidateRecord} (h : Settles a b) (h' : Settles b c) :
    Settles a c :=
  ⟨h'.id.trans h.id, h'.participant.trans h.participant, h'.stage.trans h.stage,
    h'.fallback.trans h.fallback, fun hc => h.inFlight (h'.inFlight hc),
    fun hc => h.dispatched (h'.dispatched hc)⟩

/-- A slot in flight that leaves the dispatched state. -/
theorem Settles.left {c c' : CandidateRecord} (id : c'.id = c.id)
    (participant : c'.participant = c.participant) (stage : c'.stage = c.stage)
    (fallback : c'.fallback = c.fallback) (flight : c.inFlight = true)
    (state : c'.state ≠ .dispatched) : Settles c c' :=
  ⟨id, participant, stage, fallback, fun _ => flight, fun h => absurd h state⟩

/-- A slot whose state stays. -/
theorem Settles.kept {c c' : CandidateRecord} (id : c'.id = c.id)
    (participant : c'.participant = c.participant) (stage : c'.stage = c.stage)
    (fallback : c'.fallback = c.fallback) (state : c'.state = c.state) : Settles c c' :=
  ⟨id, participant, stage, fallback, fun h => by rwa [CandidateRecord.inFlight, state] at h,
    fun h => by rwa [state] at h⟩

/-- The execution keeps its place in the stage plan. -/
structure KeepsStages (x x' : ExecutionRecord) : Prop where
  status : x'.status = x.status
  stageIndex : x'.stageIndex = x.stageIndex
  declaredCurrentStage : x'.declaredCurrentStage = x.declaredCurrentStage
  extraStages : x'.extraStages = x.extraStages
  fallbackActivated : x'.fallbackActivated = x.fallbackActivated
  fallbackDepth : x'.fallbackDepth = x.fallbackDepth
  candidates : Forall₂ Settles x.candidates x'.candidates

/-- A change of other fields. -/
theorem KeepsStages.of_fields {x x' : ExecutionRecord} (status : x'.status = x.status)
    (stageIndex : x'.stageIndex = x.stageIndex)
    (declaredCurrentStage : x'.declaredCurrentStage = x.declaredCurrentStage)
    (extraStages : x'.extraStages = x.extraStages)
    (fallbackActivated : x'.fallbackActivated = x.fallbackActivated)
    (fallbackDepth : x'.fallbackDepth = x.fallbackDepth)
    (candidates : x'.candidates = x.candidates) : KeepsStages x x' :=
  ⟨status, stageIndex, declaredCurrentStage, extraStages, fallbackActivated, fallbackDepth, by
    rw [candidates]
    exact List.forall₂_same.mpr fun c _ => .refl c⟩

theorem KeepsStages.refl (x : ExecutionRecord) : KeepsStages x x :=
  .of_fields rfl rfl rfl rfl rfl rfl rfl

theorem KeepsStages.trans {x y z : ExecutionRecord} (h : KeepsStages x y)
    (h' : KeepsStages y z) : KeepsStages x z := by
  exact ⟨h'.status.trans h.status, h'.stageIndex.trans h.stageIndex,
    h'.declaredCurrentStage.trans h.declaredCurrentStage, h'.extraStages.trans h.extraStages,
    h'.fallbackActivated.trans h.fallbackActivated, h'.fallbackDepth.trans h.fallbackDepth,
    Slots.forall₂_trans (R := Settles) Settles.trans h.candidates h'.candidates⟩

/-- A change that rewrites the candidates only. -/
theorem KeepsStages.candidates_only {x : ExecutionRecord} {cs : List CandidateRecord}
    (h : Forall₂ Settles x.candidates cs) : KeepsStages x { x with candidates := cs } :=
  ⟨rfl, rfl, rfl, rfl, rfl, rfl, h⟩

theorem keepsStages_set {x : ExecutionRecord} {index : Nat} {c c' : CandidateRecord}
    (hc : x.candidates[index]? = some c) (h : Settles c c') :
    KeepsStages x { x with candidates := x.candidates.set index c' } :=
  .candidates_only (Slots.forall₂_set .refl hc h)

/-! ## One event -/

theorem inFlight_of_dispatched {c : CandidateRecord} (h : c.state = .dispatched) :
    c.inFlight = true := by
  rw [CandidateRecord.inFlight, permitsOutput_eq_true]
  exact .inr h

theorem classifiedCandidate_settles {c : CandidateRecord} (evidence : EvidenceRequirement)
    (payload : List UInt8) (received : Sequence) (budget : UInt32) (hc : c.inFlight = true) :
    Settles c (classifiedCandidate evidence (receivedCandidate c payload received budget)) := by
  unfold classifiedCandidate
  split <;> exact .left rfl rfl rfl rfl hc (by simp)

theorem rewindCandidateForRetry_keeps {e : EnsembleRecord} {x : ExecutionRecord} {index : Nat}
    {c c' : CandidateRecord} (hc : x.candidates[index]? = some c) (hflight : c.inFlight = true)
    (hsame : Settles c c') : KeepsStages x (rewindCandidateForRetry e x index c').2 := by
  refine ⟨rfl, rfl, rfl, rfl, rfl, rfl, Slots.forall₂_set .refl hc ?_⟩
  exact .left hsame.id hsame.participant hsame.stage hsame.fallback hflight
    (by simp [rewoundCandidate])

theorem failCandidate_keeps {e : EnsembleRecord} {x : ExecutionRecord} {index : Nat}
    {c : CandidateRecord} (failure : EnsembleError) (detail : String)
    (hc : x.candidates[index]? = some c) (hflight : c.inFlight = true) :
    KeepsStages x (failCandidate e x index c failure detail).2 :=
  ⟨rfl, rfl, rfl, rfl, rfl, rfl,
    Slots.forall₂_set .refl hc (.left rfl rfl rfl rfl hflight (by simp [failedCandidate]))⟩

/-- Releasing the candidates of a participant keeps the specification too. -/
theorem handleParticipantFailure_keeps (e : EnsembleRecord) (x : ExecutionRecord)
    (p : ParticipantRecord) (kind : ParticipantFailureKind) (detail : String) :
    (handleParticipantFailure e x p kind detail).1.spec = e.spec
      ∧ KeepsStages x (handleParticipantFailure e x p kind detail).2 := by
  refine Threaded.foldl_related (f := releaseCandidate p kind detail)
    (R := fun a b : EnsembleRecord × ExecutionRecord => b.1.spec = a.1.spec ∧ KeepsStages a.2 b.2)
    (fun a => ⟨rfl, .refl _⟩) (fun h h' => ⟨h'.1.trans h.1, h.2.trans h'.2⟩) ?_ (e, x)
  rintro ⟨e, x⟩ index -
  unfold releaseCandidate
  simp only
  split
  · exact ⟨rfl, .refl _⟩
  · rename_i c hc
    split
    · exact ⟨rfl, .refl _⟩
    · rename_i hguard
      have hflight : c.inFlight = true := by
        simp only [not_or, Bool.not_eq_false] at hguard
        exact hguard.2.2
      split
      · exact ⟨rfl, rewindCandidateForRetry_keeps hc hflight (.kept rfl rfl rfl rfl rfl)⟩
      · exact ⟨rfl, failCandidate_keeps _ _ hc hflight⟩

/-- How an execution that is open after an event came to be. -/
inductive OpenAfter (s : System) (event : Event) (id : EnsembleId) (e : EnsembleRecord) :
    EnsembleRecord → ExecutionRecord → Prop
  | started {next epoch} : OpenAfter s event id e
      (e.holding { id := next, coordinatorEpoch := epoch })
      { id := next, coordinatorEpoch := epoch }
  | advanced {x} {work : AdvanceState} (advances : event = .advance id e.spec.generation)
      (before : e.execution = some x) (status : x.status = .opened) (live : e.superseded = false)
      (result : (advanceOpen s.fabric.config.limits s.fabric.core e x).1 = work) :
      OpenAfter s event id e (work.ensemble.holding work.execution) work.execution
  | settled {x x' e'} (before : e.execution = some x) (spec : e'.spec = e.spec)
      (keeps : KeepsStages x x') : OpenAfter s event id e e' x'

theorem Written.openAfter {s : System} {event : Event} {id : EnsembleId} {e e' : EnsembleRecord}
    {x' : ExecutionRecord} (h : Written s event id e e') (hx' : e'.execution = some x')
    (hopen : x'.status = .opened) : OpenAfter s event id e e' x' := by
  have hclosed : ∀ {y : ExecutionRecord}, e'.execution = some y → y.status ≠ .opened → False := by
    intro y hy hstatus
    obtain rfl := Option.some.inj (hx'.symm.trans hy)
    exact hstatus hopen
  cases h with
  | redefined => cases hx'
  | superseded =>
    rw [Option.map_eq_some_iff] at hx'
    obtain ⟨x, -, rfl⟩ := hx'
    unfold supersededExecution at hopen
    split at hopen
    · cases hopen
    · rename_i hended
      exact absurd hopen hended
  | seated _ at_ =>
    obtain rfl := at_.ensemble
    exact .settled hx' rfl (.refl _)
  | started =>
    obtain rfl := Option.some.inj hx'
    exact .started
  | withdrawn _ _ status => exact (hclosed rfl (by simp [emitCancellation, status])).elim
  | closed => exact (hclosed rfl (by simp [closedExecution])).elim
  | advanced advances before status live result =>
    obtain rfl := Option.some.inj hx'
    exact .advanced advances before status live result
  | received _ accept ensemble =>
    subst ensemble
    obtain rfl := Option.some.inj hx'
    obtain ⟨hlocated, hstate⟩ := acceptCandidate_eq_ok accept
    exact .settled hlocated.fenced.execution rfl (keepsStages_set hlocated.at_
      (classifiedCandidate_settles _ _ _ _ (inFlight_of_dispatched hstate)))
  | retried _ accept ensemble =>
    subst ensemble
    obtain rfl := Option.some.inj hx'
    obtain ⟨hlocated, hstate⟩ := acceptCandidate_eq_ok accept
    exact .settled hlocated.fenced.execution rfl (rewindCandidateForRetry_keeps hlocated.at_
      (inFlight_of_dispatched hstate) (.refl _))
  | dropped _ accept ensemble =>
    subst ensemble
    obtain rfl := Option.some.inj hx'
    obtain ⟨hlocated, hstate⟩ := acceptCandidate_eq_ok accept
    exact .settled hlocated.fenced.execution rfl (failCandidate_keeps _ _ hlocated.at_
      (inFlight_of_dispatched hstate))
  | abstained _ accept ensemble =>
    subst ensemble
    obtain rfl := Option.some.inj hx'
    obtain ⟨hlocated, hstate⟩ := acceptCandidate_eq_ok accept
    exact .settled hlocated.fenced.execution rfl (keepsStages_set hlocated.at_
      (.left rfl rfl rfl rfl (inFlight_of_dispatched hstate) (by simp [abstainedCandidate])))
  | evaluated _ accept ensemble =>
    subst ensemble
    obtain rfl := Option.some.inj hx'
    have haccepted := acceptEvaluation_eq_ok accept
    exact .settled haccepted.execution rfl ⟨rfl, rfl, rfl, rfl, rfl, rfl,
      Slots.forall₂_set .refl haccepted.candidateAt (.kept rfl rfl rfl rfl rfl)⟩
  | @lost _ seat _ _ _ _ ensemble ended =>
    subst ensemble
    rw [EnsembleRecord.isOpen, show seat.ensemble.execution = some x' from hx'] at ended
    simp [hopen] at ended
  | @released a seat kind detail x _ _ ensemble before =>
    subst ensemble
    obtain ⟨hspec, hkeeps⟩ := handleParticipantFailure_keeps
      (seat.write (lostParticipant seat.participant kind detail)) x
      (lostParticipant seat.participant kind detail) kind detail
    unfold releasedRecord at hx' ⊢
    simp only at hx' ⊢
    split at hx'
    · obtain rfl := Option.some.inj hx'
      cases hopen
    · obtain rfl := Option.some.inj hx'
      exact .settled before hspec hkeeps
  | cancelled => exact (hclosed rfl (by simp [cancelledExecution])).elim
  | invalidated =>
    obtain ⟨x, -, rfl⟩ := Option.map_eq_some_iff.mp hx'
    unfold invalidatedExecution at hopen
    split at hopen
    · cases hopen
    · rename_i hended
      exact absurd hopen hended
  | reported _ before =>
    obtain rfl := Option.some.inj hx'
    refine .settled before rfl ⟨rfl, rfl, rfl, rfl, rfl, rfl, Slots.forall₂_map fun c _ => ?_⟩
    rw [markElimination_eq _ c]
    exact .kept rfl rfl rfl rfl rfl
  | attempted _ before =>
    obtain rfl := Option.some.inj hx'
    exact .settled before rfl (.of_fields rfl rfl rfl rfl rfl rfl rfl)
  | stored =>
    refine (hclosed rfl ?_).elim
    rw [storeResult_status]
    exact statusFor_ne_opened _

/-! ## Runs -/

/-- What new records have and every event preserves, the records of every
reachable state have. -/
theorem reachable_record {P : EnsembleRecord → Prop} {config : FabricConfig}
    (hnew : ∀ {spec}, Admitted config.limits spec → P (newRecord spec))
    (hstep : ∀ {before event id e e'},
      ((System.initial config).run before).fabric.find id = some e → P e →
      Written ((System.initial config).run before) event id e e' → P e')
    (events : List Event) {id : EnsembleId} {e : EnsembleRecord}
    (he : ((System.initial config).run events).fabric.find id = some e) : P e := by
  have hfree : Along System.next (fun _ _ => True) (.initial config) events :=
    along_of_forall fun _ _ => trivial
  refine run_invariant_reached (I := fun s => ∀ id e, s.fabric.find id = some e → P e)
    (fun before event _ hs id e' he' => ?_) hfree ?_ id e he
  · rcases next_record he' with hsame | ⟨e, he, hwritten⟩ | ⟨-, spec, hadmitted, rfl⟩
    · exact hs id _ hsame
    · exact hstep he (hs id e he) hwritten
    · rw [(reachable_named config before).1] at hadmitted
      exact hnew hadmitted
  · intro id e he
    cases he

/-- The execution an advance starts from. -/
structure AdvanceReady (limits : Limits) (core : Core) (e : EnsembleRecord)
    (x : ExecutionRecord) : Prop where
  admitted : Admitted limits e.spec
  execution : e.execution = some x
  status : x.status = .opened
  issued : Issued (x.candidates.map (·.id)) core.candidateIds

/-- What new executions have and open executions keep, over an advance and
anything else, the open executions of every reachable state have. -/
theorem reachable_open {P : EnsembleRecord → ExecutionRecord → Prop} {config : FabricConfig}
    (hstart : ∀ {e : EnsembleRecord} {next epoch}, Admitted config.limits e.spec →
      P (e.holding { id := next, coordinatorEpoch := epoch })
        { id := next, coordinatorEpoch := epoch })
    (hsettled : ∀ {e e' x x'}, e'.spec = e.spec → KeepsStages x x' → P e x → P e' x')
    (hadvance : ∀ {core e x}, AdvanceReady config.limits core e x → P e x →
      P ((advanceOpen config.limits core e x).1.ensemble.holding
          (advanceOpen config.limits core e x).1.execution)
        (advanceOpen config.limits core e x).1.execution)
    (events : List Event) {id : EnsembleId} {e : EnsembleRecord} {x : ExecutionRecord}
    (he : ((System.initial config).run events).fabric.find id = some e)
    (hx : e.execution = some x) (hopen : x.status = .opened) : P e x := by
  refine reachable_record
    (P := fun e => ∀ x, e.execution = some x → x.status = .opened → P e x)
    (fun _ x hx => ?_) (fun {before event id e e'} hfound hp hwritten x' hx' hopen' => ?_)
    events he x hx hopen
  · cases hx
  · have hconfig := (reachable_named config before).1
    have hadmitted := (reachable_specInUse config before id e hfound).admitted
    cases hwritten.openAfter hx' hopen' with
    | started => exact hstart hadmitted
    | @advanced x _ advances before' status live result =>
      subst result
      rw [hconfig]
      refine hadvance ⟨hadmitted, before', status, ?_⟩ (hp x before' status)
      have hissued := ((reachable_apart config before).numbered id).candidates
      rwa [View.candidateIds_of hfound before'] at hissued
    | settled before' spec keeps =>
      exact hsettled spec keeps (hp _ before' (keeps.status ▸ hopen'))

end EnsembleFabric
