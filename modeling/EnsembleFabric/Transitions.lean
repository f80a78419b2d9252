import EnsembleFabric.Dispatch
import EnsembleFabric.Terminal

/-!
# The candidate lifecycle

Operations assign candidate states directly. `assignments` lists the
assignments an event makes that change a state, in order, by running the
loops of the operation and noting every slot they write; the lifecycle is
`isLegalTransition`.

All of them are legal except two: a retry takes a dispatched candidate
back to DECLARED without passing FAILED, and a commit selects a candidate
that was never made eligible.

> candidate_transitions_legal_iff : in every reachable state, the assignments
> of an event are all legal exactly when it neither retries a dispatched
> candidate nor commits a candidate.

The list has to be complete to mean anything: `next_explained` says that an
event changes the states of the candidates by its assignments only, slot by
slot and in their order. Assignments that are undone within the same event
are in the list as well, since the source checks none of them.

The condition is on the state before the event (`skipsState`). The exact
part are the two loops that retry: the loop over the candidates of a lost
participant reads every slot as it was before the loop
(`releaseWrites_legal_iff`), and a commit is legal unless it selects, for
content is VALID until there is a result (`ContentValid`).
-/

namespace EnsembleFabric

/-! ## Assignments -/

/-- An assignment that changes a state: the state before and the state
after. -/
abbrev Assignment := CandidateState × CandidateState

/-- What one write of the slots assigns. -/
def slotWrites (before after : List CandidateRecord) : List Assignment :=
  (before.zip after).filterMap fun (c, c') =>
    if c.state = c'.state then none else some (c.state, c'.state)

section Advance

open AdvanceState

variable (limits : Limits)

def dispatchWrites (stage : StageSpec) : List Nat → Bool → AdvanceState → List Assignment
  | [], _, _ => []
  | index :: rest, dispatchedAny, s =>
      match dispatchOne stage dispatchedAny s index with
      | .proceed dispatchedAny s' =>
          slotWrites s.execution.candidates s'.execution.candidates
            ++ dispatchWrites stage rest dispatchedAny s'
      | .stop s' => slotWrites s.execution.candidates s'.execution.candidates

def stageWrites : List StageSpec → AdvanceState → List Assignment
  | [], _ => []
  | stage :: rest, s =>
      match declareStage limits stage s with
      | .error _ => []
      | .ok s =>
          let dispatched := dispatchStage stage s
          dispatchWrites stage (List.range s.execution.candidates.length) false s
            ++ if stageComplete stage dispatched.execution then
                stageWrites rest
                  { dispatched with
                    execution :=
                      { dispatched.execution with
                        stageIndex := dispatched.execution.stageIndex + 1
                        declaredCurrentStage := false }
                    progress := true }
              else []

/-- The writes of one round. What follows the stages is one write of the
slots, by the reports. -/
def roundWrites (s : AdvanceState) : List Assignment :=
  stageWrites limits (s.stages.drop s.execution.stageIndex) s
    ++ match stageLoop limits (s.stages.drop s.execution.stageIndex) s with
      | .ok staged =>
          slotWrites staged.execution.candidates
            (Threaded.final (advanceRound limits s)).execution.candidates
      | .error _ => []

def advanceWrites : Nat → AdvanceState → List Assignment
  | 0, _ => []
  | fuel + 1, s =>
      if s.progress then
        roundWrites limits { s with progress := false }
          ++ match advanceRound limits { s with progress := false } with
            | .ok s => advanceWrites fuel s
            | .error _ => []
      else []

end Advance

/-- The release loop of a participant failure. -/
def releaseWrites (p : ParticipantRecord) (kind : ParticipantFailureKind) (detail : String) :
    List Nat → EnsembleRecord × ExecutionRecord → List Assignment
  | [], _ => []
  | index :: rest, work =>
      let released := releaseCandidate p kind detail work index
      slotWrites work.2.candidates released.2.candidates
        ++ releaseWrites p kind detail rest released

namespace Fabric

variable (f : Fabric)

/-- Content is received first and classified then. -/
def submitCandidateWrites (r : CandidateSubmission) : List Assignment :=
  match acceptCandidate f r.authority with
  | .error _ => []
  | .ok l =>
      match checkPayload f.config.limits r.payload with
      | .error _ => []
      | .ok () =>
          let output := receivedCandidate l.candidate r.payload f.core.nextSequence.1
            l.seat.participant.declaration.executionBudgetUnits
          let classified := classifiedCandidate l.seat.ensemble.spec.evidence output
          [(l.candidate.state, output.state), (output.state, classified.state)]

def submitFailureWrites (r : CandidateFailureSubmission) : List Assignment :=
  match acceptCandidate f r.authority with
  | .error _ => []
  | .ok l =>
      match ParticipantFailureKind.ofCode? r.participantFailure with
      | none => []
      | some kind =>
          let work :=
            if retryAuthorized l.seat.ensemble.spec l.candidate (failureError kind) then
              rewindCandidateForRetry l.seat.ensemble l.execution l.index l.candidate
            else
              failCandidate l.seat.ensemble l.execution l.index l.candidate (failureError kind)
                s!"participant reported {kind.toString}"
          slotWrites l.execution.candidates work.2.candidates

def submitAbstentionWrites (r : CandidateAbstentionSubmission) : List Assignment :=
  match acceptCandidate f r.authority with
  | .error _ => []
  | .ok l => [(l.candidate.state, .abstained)]

def advanceWrites (id : EnsembleId) (generation : EnsembleGeneration) : List Assignment :=
  match f.find id with
  | none => []
  | some e =>
      if e.spec.generation ≠ generation then []
      else
        match e.execution with
        | none => []
        | some x =>
            match x.status with
            | .cancelled =>
                if x.cancellationEmitted then []
                else slotWrites x.candidates (emitCancellation f.core e x).1.candidates
            | .opened =>
                if e.superseded then slotWrites x.candidates (closedExecution x).candidates
                else EnsembleFabric.advanceWrites f.config.limits 64
                  { core := f.core, ensemble := e, execution := x, progress := true }
            | _ => []

def supersedeWrites (id : EnsembleId) (generation : EnsembleGeneration) : List Assignment :=
  match f.find id with
  | none => []
  | some e =>
      if e.spec.generation ≠ generation then []
      else
        match e.execution with
        | none => []
        | some x => slotWrites x.candidates (supersededExecution x).candidates

def failureWrites (a : ParticipantAuthority) (kind : ParticipantFailureKind) (detail : String) :
    List Assignment :=
  match admitFailureReport f a with
  | .error _ => []
  | .ok seat =>
      let p := lostParticipant seat.participant kind detail
      match (seat.write p).execution with
      | none => []
      | some x =>
          if x.status ≠ .opened then []
          else releaseWrites p kind detail (List.range x.candidates.length) (seat.write p, x)

/-- The executions of all ensembles are invalidated, one after the other. -/
def invalidateWrites (reason : String) : List Assignment :=
  f.ensembles.toList.flatMap fun (_, e) =>
    match e.execution with
    | none => []
    | some x => slotWrites x.candidates (invalidatedExecution reason x).candidates

/-- A stored result settles the candidates. -/
def commitWrites (r : EnsembleResult) : List Assignment :=
  match storesIn f r with
  | none => []
  | some (_, x) =>
      if r.decision = .committed then
        slotWrites x.candidates (x.candidates.map (settledCandidate r.selectedCandidate))
      else []

end Fabric

/-- The assignments of an event, in order, each with the state before and the
state after. Writes that leave a state as it is are not among them. -/
def System.assignments (s : System) : Event → List Assignment
  | .submitCandidate r => s.fabric.submitCandidateWrites r
  | .submitCandidateFailure r => s.fabric.submitFailureWrites r
  | .submitCandidateAbstention r => s.fabric.submitAbstentionWrites r
  | .advance id generation => s.fabric.advanceWrites id generation
  | .supersedeEnsemble id generation => s.fabric.supersedeWrites id generation
  | .reportParticipantFailure a kind detail => s.fabric.failureWrites a kind detail
  | .invalidateDynamicAuthority reason => s.fabric.invalidateWrites reason
  | .commitResult r => s.fabric.commitWrites r
  | .resume client _ =>
      match s.clients client with
      | .finalizeCommitting r => s.fabric.commitWrites r
      | .restartInvalidating reason => s.fabric.invalidateWrites reason
      | _ => []
  -- these declare, drop or read candidates, and assign no state
  | _ => []

/-- Every assignment of the event is a transition of the lifecycle. -/
def LegalAssignments (s : System) (event : Event) : Prop :=
  ∀ w ∈ s.assignments event, isLegalTransition w.1 w.2 = true

/-! ## Writes of slots -/

theorem mem_slotWrites {cs cs' : List CandidateRecord} {w : Assignment} :
    w ∈ slotWrites cs cs' ↔ ∃ (i : Nat) (c c' : CandidateRecord), cs[i]? = some c
      ∧ cs'[i]? = some c' ∧ c.state ≠ c'.state ∧ w = (c.state, c'.state) := by
  simp only [slotWrites, List.mem_filterMap]
  constructor
  · rintro ⟨⟨c, c'⟩, hmem, hw⟩
    split at hw
    · cases hw
    · rename_i hne
      obtain ⟨i, hi⟩ := List.mem_iff_getElem?.mp hmem
      obtain ⟨hc, hc'⟩ := List.getElem?_zip_eq_some.mp hi
      exact ⟨i, c, c', hc, hc', hne, (Option.some.inj hw).symm⟩
  · rintro ⟨i, c, c', hc, hc', hne, rfl⟩
    refine ⟨(c, c'), List.mem_iff_getElem?.mpr ⟨i, ?_⟩, by simp [hne]⟩
    exact List.getElem?_zip_eq_some.mpr ⟨hc, hc'⟩

/-- Writing every slot by one function. -/
theorem mem_slotWrites_map {change : CandidateRecord → CandidateRecord}
    {cs : List CandidateRecord} {w : Assignment} :
    w ∈ slotWrites cs (cs.map change) ↔ ∃ c ∈ cs, c.state ≠ (change c).state
      ∧ w = (c.state, (change c).state) := by
  rw [mem_slotWrites]
  constructor
  · rintro ⟨i, c, c', hc, hc', hne, rfl⟩
    rw [List.getElem?_map, hc] at hc'
    obtain rfl := Option.some.inj hc'
    exact ⟨c, List.mem_of_getElem? hc, hne, rfl⟩
  · rintro ⟨c, hc, hne, rfl⟩
    obtain ⟨i, hi⟩ := List.mem_iff_getElem?.mp hc
    exact ⟨i, c, change c, hi, by rw [List.getElem?_map, hi]; rfl, hne, rfl⟩

/-- Writing one slot. -/
theorem mem_slotWrites_set {cs : List CandidateRecord} {i : Nat} {c c' : CandidateRecord}
    (hc : cs[i]? = some c) {w : Assignment} :
    w ∈ slotWrites cs (cs.set i c') ↔ c.state ≠ c'.state ∧ w = (c.state, c'.state) := by
  obtain ⟨hlt, -⟩ := List.getElem?_eq_some_iff.mp hc
  rw [mem_slotWrites]
  constructor
  · rintro ⟨j, d, d', hd, hd', hne, rfl⟩
    by_cases hij : i = j
    · subst hij
      rw [hc] at hd
      rw [List.getElem?_set_self hlt] at hd'
      obtain rfl := Option.some.inj hd
      obtain rfl := Option.some.inj hd'
      exact ⟨hne, rfl⟩
    · rw [List.getElem?_set_ne hij, hd] at hd'
      obtain rfl := Option.some.inj hd'
      exact absurd rfl hne
  · rintro ⟨hne, rfl⟩
    exact ⟨i, c, c', hc, List.getElem?_set_self hlt, hne, rfl⟩

/-- Slots that keep their states are not assigned. -/
theorem slotWrites_self (cs : List CandidateRecord) : slotWrites cs cs = [] := by
  rw [List.eq_nil_iff_forall_not_mem]
  intro w hw
  obtain ⟨i, c, c', hc, hc', hne, -⟩ := mem_slotWrites.mp hw
  rw [hc] at hc'
  exact hne (congrArg _ (Option.some.inj hc'))

/-- Candidates in flight are withdrawn legally. -/
theorem withdrawal_legal {c : CandidateRecord} (h : c.inFlight = true) {target : CandidateState}
    (ht : target = .superseded ∨ target = .cancelled) :
    isLegalTransition c.state target = true := by
  rw [CandidateRecord.inFlight, permitsOutput_eq_true] at h
  rcases h with h | h <;> rcases ht with rfl | rfl <;> rw [h] <;> rfl

/-! ## Advance -/

section AdvanceLegal

open AdvanceState

/-- An advance only assigns to declared candidates. -/
def Leaves (w : Assignment) : Prop := w = (.declared, .dispatched) ∨ w = (.declared, .failed)

theorem Leaves.legal {w : Assignment} (h : Leaves w) : isLegalTransition w.1 w.2 = true := by
  rcases h with rfl | rfl <;> rfl

theorem dispatchOne_writes (stage : StageSpec) (dispatchedAny : Bool) (s : AdvanceState)
    (index : Nat) {w : Assignment}
    (hw : w ∈ slotWrites s.execution.candidates
      (dispatchOne stage dispatchedAny s index).state.execution.candidates) : Leaves w := by
  -- a slot that is written from a declared candidate, and the state it gets
  have hset : ∀ {c p d}, DispatchTarget stage s index c p →
      w ∈ slotWrites s.execution.candidates (s.execution.candidates.set index d) →
      d.state ≠ .declared ∧ w = (.declared, d.state) := by
    intro c p d htarget hw
    rw [mem_slotWrites_set htarget.at_, htarget.state] at hw
    exact ⟨Ne.symm hw.1, hw.2⟩
  have hcases := dispatchOne_cases stage dispatchedAny s index
  generalize dispatchOne stage dispatchedAny s index = next at hcases hw
  cases hcases with
  | skipped =>
    rw [DispatchNext.state, slotWrites_self] at hw
    cases hw
  | kept target => exact absurd target.state (hset target hw).1
  | blocked target => exact absurd target.state (hset target hw).1
  | stranded target =>
    simp only [DispatchNext.state, strand, adopt, setCandidate, failCandidate,
      supersedeCandidateEvidence, List.set_set] at hw
    exact .inr (hset target hw).2
  | last target | sent target =>
    simp only [DispatchNext.state, dispatchCandidate, adopt, setCandidate, List.set_set] at hw
    exact .inl (hset target hw).2

theorem dispatchWrites_leaves (stage : StageSpec) (indices : List Nat) (dispatchedAny : Bool)
    (s : AdvanceState) : ∀ w ∈ dispatchWrites stage indices dispatchedAny s, Leaves w := by
  induction indices generalizing dispatchedAny s with
  | nil => simp [dispatchWrites]
  | cons index rest ih =>
    intro w hw
    have hone := dispatchOne_writes stage dispatchedAny s index (w := w)
    unfold dispatchWrites at hw
    split at hw
    · rename_i dispatched s' heq
      rw [heq] at hone
      rcases List.mem_append.mp hw with hw | hw
      · exact hone hw
      · exact ih dispatched s' w hw
    · rename_i s' heq
      rw [heq] at hone
      exact hone hw

theorem stageWrites_leaves (limits : Limits) (stages : List StageSpec) (s : AdvanceState) :
    ∀ w ∈ stageWrites limits stages s, Leaves w := by
  induction stages generalizing s with
  | nil => simp [stageWrites]
  | cons stage rest ih =>
    intro w hw
    unfold stageWrites at hw
    split at hw
    · simp at hw
    · rename_i m _
      simp only [List.mem_append] at hw
      rcases hw with hw | hw
      · exact dispatchWrites_leaves stage _ false m w hw
      · split at hw
        · exact ih _ w hw
        · simp at hw

/-- What follows the stages writes elimination texts only. -/
def KeepsStates (s s' : AdvanceState) : Prop :=
  s'.execution.candidates.map (·.state) = s.execution.candidates.map (·.state)

theorem slotWrites_of_states {cs cs' : List CandidateRecord}
    (h : cs'.map (·.state) = cs.map (·.state)) : slotWrites cs cs' = [] := by
  rw [List.eq_nil_iff_forall_not_mem]
  intro w hw
  obtain ⟨i, c, c', hc, hc', hne, -⟩ := mem_slotWrites.mp hw
  have hstates := congrArg (·[i]?) h
  simp only [List.getElem?_map, hc, hc', Option.map_some, Option.some.injEq] at hstates
  exact hne hstates.symm

theorem KeepsStates.of_candidates {s s' : AdvanceState}
    (h : s'.execution.candidates = s.execution.candidates) : KeepsStates s s' := by
  rw [KeepsStates, h]

theorem KeepsStates.trans {a b c : AdvanceState} (h : KeepsStates a b) (h' : KeepsStates b c) :
    KeepsStates a c :=
  Eq.trans h' h

theorem planEvaluations_candidates (s : AdvanceState) :
    (Threaded.final (planEvaluations s)).execution.candidates = s.execution.candidates := by
  unfold planEvaluations
  split
  · rfl
  · refine Threaded.final_bind (R := fun a b : AdvanceState =>
      b.execution.candidates = a.execution.candidates) (fun h h' => h'.trans h) ?_ fun _ _ => rfl
    refine Threaded.final_foldlM (R := fun a b : AdvanceState =>
      b.execution.candidates = a.execution.candidates) (fun _ => rfl) (fun h h' => h'.trans h)
      (fun s t _ => ?_) { s with execution := { s.execution with planningComplete := true } }
    unfold planOne
    split <;> rfl

theorem emitOne_candidates (s : AdvanceState) (index : Nat) :
    (emitOne s index).execution.candidates = s.execution.candidates := by
  unfold emitOne
  split
  · rfl
  · split
    · rfl
    · split
      · rfl
      · split
        · rfl
        · split
          · split <;> rfl
          · split <;> rfl

theorem emitEvaluations_candidates (s : AdvanceState) :
    s.emitEvaluations.execution.candidates = s.execution.candidates :=
  Threaded.foldl_related (R := fun a b : AdvanceState =>
    b.execution.candidates = a.execution.candidates) (fun _ => rfl) (fun h h' => h'.trans h)
    (fun s index _ => emitOne_candidates s index) s

theorem activateFallback_candidates (s : AdvanceState) :
    s.activateFallback.execution.candidates = s.execution.candidates := by
  unfold activateFallback
  split
  · rfl
  · rename_i trigger _
    have hmembers : (s.ensemble.spec.fallback.fallbackParticipants.foldl (activateMember trigger)
        s.requestFallback).execution = s.requestFallback.execution :=
      Threaded.foldl_related (R := fun a b : AdvanceState => b.execution = a.execution)
        (f := activateMember trigger) (fun _ => rfl) (fun h h' => h'.trans h) (fun _ _ _ => rfl)
        s.requestFallback
    have hcandidates := congrArg ExecutionRecord.candidates hmembers
    exact hcandidates

theorem report_states (s : AdvanceState) : KeepsStates s s.report := by
  rw [KeepsStates, AdvanceState.report, computeReports]
  simp only [List.map_map]
  refine List.map_congr_left fun c _ => ?_
  rw [Function.comp_apply, markElimination_eq]

theorem evaluationPhase_states (s : AdvanceState) :
    KeepsStates s (Threaded.final (evaluationPhase s)) := by
  have hreopen : s.reopenPlanning.execution.candidates = s.execution.candidates := by
    unfold reopenPlanning
    split <;> rfl
  unfold evaluationPhase
  refine Threaded.final_bind (R := KeepsStates) KeepsStates.trans
    (.of_candidates ((planEvaluations_candidates _).trans hreopen)) fun m _ => ?_
  exact (KeepsStates.of_candidates (emitEvaluations_candidates m)).trans
    ((report_states _).trans (.of_candidates (activateFallback_candidates _)))

theorem roundWrites_leaves (limits : Limits) (s : AdvanceState) :
    ∀ w ∈ roundWrites limits s, Leaves w := by
  intro w hw
  rw [roundWrites, List.mem_append] at hw
  rcases hw with hw | hw
  · exact stageWrites_leaves limits _ s w hw
  · cases hstaged : stageLoop limits (s.stages.drop s.execution.stageIndex) s with
    | error stopped => simp [hstaged] at hw
    | ok staged =>
      have hround : advanceRound limits s = if staged.stages.length ≤ staged.execution.stageIndex
          then evaluationPhase staged else .ok staged := by
        rw [advanceRound, hstaged]
        rfl
      have hstates : KeepsStates staged (Threaded.final (advanceRound limits s)) := by
        rw [hround]
        split
        · exact evaluationPhase_states staged
        · exact .of_candidates rfl
      rw [hstaged] at hw
      simp only [slotWrites_of_states hstates] at hw
      cases hw

theorem advanceWrites_leaves (limits : Limits) (fuel : Nat) (s : AdvanceState) :
    ∀ w ∈ advanceWrites limits fuel s, Leaves w := by
  induction fuel generalizing s with
  | zero => simp [advanceWrites]
  | succ fuel ih =>
    intro w hw
    rw [advanceWrites] at hw
    split at hw
    · rcases List.mem_append.mp hw with hw | hw
      · exact roundWrites_leaves limits _ w hw
      · split at hw
        · exact ih _ w hw
        · cases hw
    · cases hw

end AdvanceLegal

/-! ## Content before a result -/

/-- While there is no result, whatever holds content is VALID: nothing is
made eligible. -/
def ContentValid (x : ExecutionRecord) : Prop :=
  x.result = none → ∀ c ∈ x.candidates, isContentState c.state = true → c.state = .valid

theorem ContentValid.of_same {x x' : ExecutionRecord} (h : ContentValid x)
    (hresult : x'.result = x.result) (hcandidates : x'.candidates = x.candidates) :
    ContentValid x' := by
  intro hn c hc
  exact h (hresult ▸ hn) c (hcandidates ▸ hc)

theorem ContentValid.set {x : ExecutionRecord} {index : Nat} {c' : CandidateRecord}
    (h : ContentValid x) (hc' : isContentState c'.state = false) :
    ContentValid { x with candidates := x.candidates.set index c' } := by
  intro hn c hc hstate
  rcases List.mem_or_eq_of_mem_set hc with hold | rfl
  · exact h hn c hold hstate
  · rw [hc'] at hstate
    cases hstate

theorem ExecutionStep.contentValid {sc : Scope} {e : EnsembleRecord} {x x' : ExecutionRecord}
    (h : ExecutionStep sc e x x') (hx : ContentValid x) : ContentValid x' := by
  cases h with
  | bookkeeping same => exact hx.of_same same.result same.candidates
  | cancel _ same => exact hx.of_same same.result same.candidates
  | candidates steps =>
    intro hn c' hc' hstate
    obtain ⟨c, hc, hstep⟩ := Slots.exists_left steps hc'
    cases hstep with
    | kept _ state => exact state.trans (hx hn c hc (state ▸ hstate))
    | dispatched _ _ after =>
      rw [after] at hstate
      cases hstate
    | received _ _ after => exact after
    | closed _ _ _ content =>
      rw [content] at hstate
      cases hstate
  | drop _ _ _ after => exact hx.set (by rw [after]; rfl)
  | rewind _ _ _ _ _ _ after => exact hx.set (by rw [after]; rfl)
  | commit =>
    intro hn
    rw [storeResult_result] at hn
    cases hn
  | _ => exact hx.of_same rfl rfl

theorem reachable_contentValid (config : FabricConfig) (events : List Event) (id : EnsembleId) :
    OfExecution (fun _ x => ContentValid x)
      (((System.initial config).run events).fabric.view id) := by
  refine reachable_ofExecution (fun _ _ _ _ c hc => by cases hc) (fun h => h) (fun _ h => h)
    (fun h => h.contentValid) (fun hstate h hn c hc hcontent => ?_) (fun _ _ h => h)
    (along_allows _ events) id
  rcases List.mem_append.mp hc with hold | hnew
  · exact h hn c hold hcontent
  · obtain rfl := List.mem_singleton.mp hnew
    rw [hstate] at hcontent
    cases hcontent

/-! ## Events that skip a state -/

/-- The reported failure of a dispatched candidate is retried. -/
def retriesDispatched (f : Fabric) (r : CandidateFailureSubmission) : Bool :=
  match acceptCandidate f r.authority, ParticipantFailureKind.ofCode? r.participantFailure with
  | .ok l, some kind =>
      retryAuthorized l.seat.ensemble.spec l.candidate (failureError kind)
  | _, _ => false

/-- A dispatched candidate of the seat that is retried when its participant
fails. -/
def releasesDispatched (seat : Seat) (kind : ParticipantFailureKind) (c : CandidateRecord) :
    Bool :=
  c.state == .dispatched && c.participant == seat.participant.id
    && c.participantGeneration == seat.participant.generation
    && retryAuthorized seat.ensemble.spec c (failureError kind)

/-- The failure of a participant retries one of its dispatched candidates. -/
def failureRetriesDispatched (f : Fabric) (a : ParticipantAuthority)
    (kind : ParticipantFailureKind) : Bool :=
  match admitFailureReport f a with
  | .error _ => false
  | .ok seat => seat.ensemble.execution.any fun x =>
      x.status == .opened && x.candidates.any (releasesDispatched seat kind)

/-- The value is stored as committed and names a candidate of the execution. -/
def selectsCandidate (f : Fabric) (r : EnsembleResult) : Bool :=
  (storesIn f r).any fun (_, x) =>
    r.decision == .committed && x.candidates.any (·.id == r.selectedCandidate)

/-- The event takes some candidate past a state of the lifecycle: past FAILED when
it retries a dispatched candidate, past ELIGIBLE when it commits one. -/
def System.skipsState (s : System) (event : Event) : Bool :=
  match event with
  | .submitCandidateFailure r => retriesDispatched s.fabric r
  | .reportParticipantFailure a kind _ => failureRetriesDispatched s.fabric a kind
  | event => (s.submitted event).any (selectsCandidate s.fabric)

/-! ## Operations that are always legal -/

theorem submitCandidateWrites_legal (f : Fabric) (r : CandidateSubmission) :
    ∀ w ∈ f.submitCandidateWrites r, isLegalTransition w.1 w.2 = true := by
  intro w hw
  unfold Fabric.submitCandidateWrites at hw
  split at hw
  · cases hw
  · rename_i l haccept
    obtain ⟨-, hstate⟩ := acceptCandidate_eq_ok haccept
    split at hw
    · cases hw
    · simp only [List.mem_cons, List.not_mem_nil, or_false] at hw
      rcases hw with rfl | rfl
      · simp only [hstate, receivedCandidate]
        rfl
      · unfold classifiedCandidate
        split <;> rfl

theorem submitAbstentionWrites_legal (f : Fabric) (r : CandidateAbstentionSubmission) :
    ∀ w ∈ f.submitAbstentionWrites r, isLegalTransition w.1 w.2 = true := by
  intro w hw
  unfold Fabric.submitAbstentionWrites at hw
  split at hw
  · cases hw
  · rename_i l haccept
    obtain ⟨-, hstate⟩ := acceptCandidate_eq_ok haccept
    obtain rfl := List.mem_singleton.mp hw
    simp only [hstate]
    rfl

/-- Withdrawing candidates in flight is legal. -/
theorem withdrawalWrites_legal {cs cs' : List CandidateRecord}
    (h : List.Forall₂ (fun c c' => c'.state = c.state
      ∨ c.inFlight = true ∧ (c'.state = .superseded ∨ c'.state = .cancelled)) cs cs') :
    ∀ w ∈ slotWrites cs cs', isLegalTransition w.1 w.2 = true := by
  intro w hw
  obtain ⟨i, c, c', hc, hc', hne, rfl⟩ := mem_slotWrites.mp hw
  rcases Slots.forall₂_getElem? h hc hc' with hsame | ⟨hflight, htarget⟩
  · exact absurd hsame.symm hne
  · exact withdrawal_legal hflight htarget

theorem withdrawn_state {c : CandidateRecord} {state : CandidateState} {d : CandidateRecord}
    (hd : d.state = state) (hstate : state = .superseded ∨ state = .cancelled) :
    (if c.inFlight then d else c).state = c.state
      ∨ c.inFlight = true ∧ ((if c.inFlight then d else c).state = .superseded
        ∨ (if c.inFlight then d else c).state = .cancelled) := by
  split
  · rename_i hflight
    exact .inr ⟨hflight, hd ▸ hstate⟩
  · exact .inl rfl

theorem cancelInFlight_withdraws (e : EnsembleRecord) (x : ExecutionRecord)
    (cs : List CandidateRecord) (k : Core) :
    List.Forall₂ (fun c c' => c'.state = c.state
      ∨ c.inFlight = true ∧ (c'.state = .superseded ∨ c'.state = .cancelled)) cs
      (cancelInFlight e x cs k).1 := by
  rw [cancelInFlight_candidates]
  refine Slots.forall₂_map fun c _ => ?_
  unfold cancelledInFlight
  exact withdrawn_state rfl (.inr rfl)

theorem fabric_advanceWrites_legal (f : Fabric) (id : EnsembleId)
    (generation : EnsembleGeneration) :
    ∀ w ∈ f.advanceWrites id generation, isLegalTransition w.1 w.2 = true := by
  intro w hw
  unfold Fabric.advanceWrites at hw
  split at hw
  · cases hw
  · rename_i e _
    split at hw
    · cases hw
    · split at hw
      · cases hw
      · rename_i x _
        split at hw
        · split at hw
          · cases hw
          · exact withdrawalWrites_legal (cancelInFlight_withdraws e x x.candidates _) w hw
        · split at hw
          · refine withdrawalWrites_legal (Slots.forall₂_map fun c _ => ?_) w hw
            exact withdrawn_state rfl (.inl rfl)
          · exact (advanceWrites_leaves _ _ _ w hw).legal
        · cases hw

theorem supersedeWrites_legal (f : Fabric) (id : EnsembleId) (generation : EnsembleGeneration) :
    ∀ w ∈ f.supersedeWrites id generation, isLegalTransition w.1 w.2 = true := by
  intro w hw
  unfold Fabric.supersedeWrites at hw
  split at hw
  · cases hw
  · split at hw
    · cases hw
    · split at hw
      · cases hw
      · unfold supersededExecution at hw
        split at hw
        · refine withdrawalWrites_legal (Slots.forall₂_map fun c _ => ?_) w hw
          exact withdrawn_state rfl (.inl rfl)
        · rw [slotWrites_self] at hw
          cases hw

theorem invalidateWrites_legal (f : Fabric) (reason : String) :
    ∀ w ∈ f.invalidateWrites reason, isLegalTransition w.1 w.2 = true := by
  intro w hw
  simp only [Fabric.invalidateWrites, List.mem_flatMap] at hw
  obtain ⟨⟨_, e⟩, -, hw⟩ := hw
  split at hw
  · cases hw
  · unfold invalidatedExecution at hw
    split at hw
    · refine withdrawalWrites_legal (Slots.forall₂_map fun c _ => ?_) w hw
      exact withdrawn_state rfl (.inl rfl)
    · rw [slotWrites_self] at hw
      cases hw

/-! ## Retries and commits -/

theorem mem_rewindWrites {e : EnsembleRecord} {x : ExecutionRecord} {index : Nat}
    {c noted : CandidateRecord} (hc : x.candidates[index]? = some c) {w : Assignment} :
    w ∈ slotWrites x.candidates (rewindCandidateForRetry e x index noted).2.candidates
      ↔ c.state ≠ .declared ∧ w = (c.state, .declared) :=
  mem_slotWrites_set hc

theorem mem_failWrites {e : EnsembleRecord} {x : ExecutionRecord} {index : Nat}
    {c noted : CandidateRecord} {failure : EnsembleError} {detail : String}
    (hc : x.candidates[index]? = some c) {w : Assignment} :
    w ∈ slotWrites x.candidates (failCandidate e x index noted failure detail).2.candidates
      ↔ c.state ≠ .failed ∧ w = (c.state, .failed) :=
  mem_slotWrites_set hc

/-- A retry takes a dispatched candidate back; giving up fails it. -/
theorem submitFailureWrites_legal_iff (f : Fabric) (r : CandidateFailureSubmission) :
    (∀ w ∈ f.submitFailureWrites r, isLegalTransition w.1 w.2 = true)
      ↔ retriesDispatched f r = false := by
  unfold Fabric.submitFailureWrites retriesDispatched
  cases haccept : acceptCandidate f r.authority with
  | error refusal => simp
  | ok l =>
    obtain ⟨hlocated, hstate⟩ := acceptCandidate_eq_ok haccept
    cases ParticipantFailureKind.ofCode? r.participantFailure with
    | none => simp
    | some kind =>
      simp only
      cases hretry : retryAuthorized l.seat.ensemble.spec l.candidate (failureError kind) with
      | true =>
        have hwrite : (CandidateState.dispatched, CandidateState.declared)
            ∈ slotWrites l.execution.candidates (rewindCandidateForRetry l.seat.ensemble
              l.execution l.index l.candidate).2.candidates :=
          (mem_rewindWrites hlocated.at_).mpr ⟨by simp [hstate], by rw [hstate]⟩
        simp only [if_true, Bool.true_eq_false, iff_false]
        intro h
        exact absurd (h _ hwrite) (by decide)
      | false =>
        simp only [Bool.false_eq_true, if_false, iff_true]
        intro w hw
        rw [mem_failWrites hlocated.at_, hstate] at hw
        rw [hw.2]
        rfl

/-- What the release loop assigns at one position. -/
theorem releaseCandidate_writes {p : ParticipantRecord} {kind : ParticipantFailureKind}
    {detail : String} {work : EnsembleRecord × ExecutionRecord} {index : Nat} {w : Assignment} :
    w ∈ slotWrites work.2.candidates (releaseCandidate p kind detail work index).2.candidates
      ↔ ∃ c, work.2.candidates[index]? = some c ∧ c.participant = p.id
        ∧ c.participantGeneration = p.generation ∧ c.inFlight = true
        ∧ if retryAuthorized work.1.spec c (failureError kind) then
            c.state = .dispatched ∧ w = (.dispatched, .declared)
          else w = (c.state, .failed) := by
  obtain ⟨e, x⟩ := work
  have hself : w ∉ slotWrites x.candidates x.candidates := by simp [slotWrites_self]
  unfold releaseCandidate
  simp only
  cases hc : x.candidates[index]? with
  | none => simp [hself]
  | some c =>
    simp only [Option.some.injEq, exists_eq_left']
    split
    · rename_i hother
      refine ⟨fun h => (hself h).elim, fun h => ?_⟩
      obtain ⟨hparticipant, hgeneration, hflight, -⟩ := h
      simp [hparticipant, hgeneration, hflight] at hother
    · rename_i hmine
      simp only [not_or, ne_eq, not_not, Bool.not_eq_false] at hmine
      obtain ⟨hparticipant, hgeneration, hflight⟩ := hmine
      have hstates := hflight
      rw [CandidateRecord.inFlight, permitsOutput_eq_true] at hstates
      split
      · rw [mem_rewindWrites hc]
        constructor
        · rintro ⟨hne, rfl⟩
          have hdispatched := hstates.resolve_left hne
          exact ⟨hparticipant, hgeneration, hflight, by simp [hdispatched]⟩
        · rintro ⟨-, -, -, h⟩
          exact ⟨by simp [h.1], by rw [h.2, h.1]⟩
      · rw [mem_failWrites hc]
        constructor
        · rintro ⟨-, rfl⟩
          exact ⟨hparticipant, hgeneration, hflight, rfl⟩
        · rintro ⟨-, -, -, h⟩
          exact ⟨by rcases hstates with hs | hs <;> simp [hs], h⟩

theorem releaseCandidate_spec (p : ParticipantRecord) (kind : ParticipantFailureKind)
    (detail : String) (work : EnsembleRecord × ExecutionRecord) (index : Nat) :
    (releaseCandidate p kind detail work index).1.spec = work.1.spec := by
  obtain ⟨e, x⟩ := work
  unfold releaseCandidate
  simp only
  split
  · rfl
  · split
    · rfl
    · split <;> rfl

/-- The release loop from a position on is legal unless it retries a
dispatched candidate: it reads every slot as it was before the loop. -/
theorem releaseWrites_legal_iff (p : ParticipantRecord) (kind : ParticipantFailureKind)
    (detail : String) (count start : Nat) (work : EnsembleRecord × ExecutionRecord) :
    (∀ w ∈ releaseWrites p kind detail (List.range' start count) work,
        isLegalTransition w.1 w.2 = true)
      ↔ ∀ index c, start ≤ index → index < start + count → work.2.candidates[index]? = some c →
        ¬ (c.state = .dispatched ∧ c.participant = p.id ∧ c.participantGeneration = p.generation
          ∧ retryAuthorized work.1.spec c (failureError kind) = true) := by
  induction count generalizing start work with
  | zero =>
    refine ⟨fun _ index c hlow hhigh => by omega, fun _ w hw => by cases hw⟩
  | succ count ih =>
    have hhead : (∀ w ∈ slotWrites work.2.candidates
          (releaseCandidate p kind detail work start).2.candidates,
          isLegalTransition w.1 w.2 = true)
        ↔ ∀ c, work.2.candidates[start]? = some c →
          ¬ (c.state = .dispatched ∧ c.participant = p.id ∧ c.participantGeneration = p.generation
            ∧ retryAuthorized work.1.spec c (failureError kind) = true) := by
      constructor
      · rintro h c hc ⟨hstate, hparticipant, hgeneration, hretry⟩
        have hwrite := h (.dispatched, .declared) (releaseCandidate_writes.mpr ⟨c, hc, hparticipant,
          hgeneration, by simp [CandidateRecord.inFlight, hstate, permitsOutput],
          by simp [hretry, hstate]⟩)
        exact absurd hwrite (by decide)
      · intro h w hw
        obtain ⟨c, hc, hparticipant, hgeneration, hflight, hwrite⟩ := releaseCandidate_writes.mp hw
        split at hwrite
        · rename_i hretry
          exact absurd ⟨hwrite.1, hparticipant, hgeneration, hretry⟩ (h c hc)
        · rw [CandidateRecord.inFlight, permitsOutput_eq_true] at hflight
          rw [hwrite]
          rcases hflight with hs | hs <;> rw [hs] <;> rfl
    have htail := ih (start + 1) (releaseCandidate p kind detail work start)
    rw [releaseCandidate_spec] at htail
    rw [List.range'_succ, releaseWrites]
    simp only [List.mem_append, or_imp, forall_and]
    rw [hhead, htail]
    constructor
    · rintro ⟨hfirst, hrest⟩ index c hlow hhigh hc
      by_cases heq : start = index
      · subst heq
        exact hfirst c hc
      · refine hrest index c (by omega) (by omega) ?_
        rwa [releaseCandidate_others p kind detail work heq]
    · intro h
      refine ⟨fun c hc => h start c (by omega) (by omega) hc, fun index c hlow hhigh hc => ?_⟩
      rw [releaseCandidate_others p kind detail work (by omega)] at hc
      exact h index c (by omega) (by omega) hc

theorem failureWrites_legal_iff (f : Fabric) (a : ParticipantAuthority)
    (kind : ParticipantFailureKind) (detail : String) :
    (∀ w ∈ f.failureWrites a kind detail, isLegalTransition w.1 w.2 = true)
      ↔ failureRetriesDispatched f a kind = false := by
  unfold Fabric.failureWrites failureRetriesDispatched
  cases hadmit : admitFailureReport f a with
  | error refusal => simp
  | ok seat =>
    simp only
    rw [show (seat.write (lostParticipant seat.participant kind detail)).execution
      = seat.ensemble.execution from rfl]
    cases hx : seat.ensemble.execution with
    | none => simp
    | some x =>
      simp only [Option.any_some]
      split
      · rename_i hclosed
        simp [hclosed]
      · rename_i hopen
        rw [List.range_eq_range', releaseWrites_legal_iff]
        simp only [ne_eq, not_not] at hopen
        simp only [hopen, beq_self_eq_true, Bool.true_and, List.any_eq_false, releasesDispatched,
          Bool.and_eq_true, beq_iff_eq]
        constructor
        · intro h c hc hreleases
          obtain ⟨index, hindex⟩ := List.mem_iff_getElem?.mp hc
          have hlt := (List.getElem?_eq_some_iff.mp hindex).choose
          exact h index c (by omega) (by omega) hindex
            ⟨hreleases.1.1.1, hreleases.1.1.2, hreleases.1.2, hreleases.2⟩
        · rintro h index c - - hindex ⟨hstate, hparticipant, hgeneration, hretry⟩
          exact h c (List.mem_of_getElem? hindex)
            ⟨⟨⟨hstate, hparticipant⟩, hgeneration⟩, hretry⟩

/-- Where content is VALID, a committed result assigns legally unless it
selects a candidate. -/
theorem commitWrites_legal_iff {f : Fabric} {r : EnsembleResult}
    (hvalid : OfExecution (fun _ x => ContentValid x) (f.view r.ensemble)) :
    (∀ w ∈ f.commitWrites r, isLegalTransition w.1 w.2 = true)
      ↔ selectsCandidate f r = false := by
  unfold Fabric.commitWrites selectsCandidate
  cases hstores : storesIn f r with
  | none => simp
  | some target =>
    obtain ⟨e, x⟩ := target
    obtain ⟨htarget, hnone, -⟩ := storesIn_eq_some.mp hstores
    have hfenced := commitTarget_eq_ok htarget
    have hcontent := hvalid e x hfenced.ensemble hfenced.execution hnone
    by_cases hdecision : r.decision = .committed
    · simp only [hdecision, if_true, beq_self_eq_true, Bool.true_and, Option.any_some,
        List.any_eq_false, beq_iff_eq, mem_slotWrites_map]
      constructor
      · intro h c hc hid
        have hnamed : settledCandidate r.selectedCandidate c = { c with state := .selected } := by
          simp [settledCandidate, hid]
        -- a candidate is never SELECTED or ELIGIBLE before there is a result
        have hstate : c.state ≠ .selected ∧ c.state ≠ .eligible := by
          constructor <;> intro hs <;> have := hcontent c hc (by rw [hs]; rfl) <;>
            rw [hs] at this <;> cases this
        have hlegal := h (c.state, .selected) ⟨c, hc, by rw [hnamed]; exact hstate.1,
          by rw [hnamed]⟩
        revert hlegal hstate
        cases c.state <;> simp [isLegalTransition]
      · rintro h w ⟨c, hc, hne, rfl⟩
        unfold settledCandidate at hne ⊢
        split at hne
        · rename_i hid
          exact absurd (by simpa using hid) (h c hc)
        · split at hne
          · rename_i hother hholds
            rw [if_neg hother, if_pos hholds, hcontent c hc hholds]
            rfl
          · exact absurd rfl hne
    · simp [hdecision]

/-- In every reachable state, the assignments of an event are all legal exactly
when it neither retries a dispatched candidate nor commits a candidate. -/
theorem candidate_transitions_legal_iff (config : FabricConfig) (events : List Event)
    (event : Event) :
    LegalAssignments ((System.initial config).run events) event
      ↔ ((System.initial config).run events).skipsState event = false := by
  have hvalid := reachable_contentValid config events
  generalize (System.initial config).run events = s at hvalid ⊢
  have hlegal : ∀ {ws : List Assignment}, (∀ w ∈ ws, isLegalTransition w.1 w.2 = true) →
      ((∀ w ∈ ws, isLegalTransition w.1 w.2 = true) ↔ (false = false)) :=
    fun h => ⟨fun _ => rfl, fun _ => h⟩
  cases event with
  | submitCandidate r => exact hlegal (submitCandidateWrites_legal s.fabric r)
  | submitCandidateFailure r => exact submitFailureWrites_legal_iff s.fabric r
  | submitCandidateAbstention r => exact hlegal (submitAbstentionWrites_legal s.fabric r)
  | advance id generation => exact hlegal (fabric_advanceWrites_legal s.fabric id generation)
  | supersedeEnsemble id generation => exact hlegal (supersedeWrites_legal s.fabric id generation)
  | reportParticipantFailure a kind detail => exact failureWrites_legal_iff s.fabric a kind detail
  | invalidateDynamicAuthority reason => exact hlegal (invalidateWrites_legal s.fabric reason)
  | commitResult r => exact commitWrites_legal_iff (hvalid r.ensemble)
  | resume client boot =>
    simp only [LegalAssignments, System.assignments, System.skipsState, System.submitted]
    cases s.clients client with
    | finalizeCommitting r => exact commitWrites_legal_iff (hvalid r.ensemble)
    | restartInvalidating reason => exact hlegal (invalidateWrites_legal s.fabric reason)
    | _ => exact hlegal (fun _ h => by cases h)
  | _ => exact hlegal (fun _ h => by cases h)

/-! ## Nothing else changes a state -/

/-- Every slot gets from its state before to its state after by the
assignments. -/
def Explained (ws : List Assignment) (cs cs' : List CandidateRecord) : Prop :=
  ∀ (i : Nat) (c c' : CandidateRecord), cs[i]? = some c → cs'[i]? = some c' →
    Relation.ReflTransGen (fun a b => (a, b) ∈ ws) c.state c'.state

theorem explained_slotWrites (cs cs' : List CandidateRecord) :
    Explained (slotWrites cs cs') cs cs' := by
  intro i c c' hc hc'
  by_cases hsame : c.state = c'.state
  · rw [hsame]
  · exact .single (mem_slotWrites.mpr ⟨i, c, c', hc, hc', hsame, rfl⟩)

theorem explained_of_prefix {cs cs' : List CandidateRecord} {ws : List Assignment}
    (h : cs.map (·.state) <+: cs'.map (·.state)) : Explained ws cs cs' := by
  intro i c c' hc hc'
  have hget : (cs.map (·.state))[i]? = some c.state := by simp [hc]
  have hget' : (cs'.map (·.state))[i]? = some c'.state := by simp [hc']
  obtain ⟨more, hmore⟩ := h
  rw [← hmore, List.getElem?_append_left (List.getElem?_eq_some_iff.mp hget).choose, hget] at hget'
  rw [Option.some.inj hget']

theorem Explained.mono {ws ws' : List Assignment} (hsub : ws ⊆ ws') {cs cs' : List CandidateRecord}
    (h : Explained ws cs cs') : Explained ws' cs cs' :=
  fun i c c' hc hc' => Relation.ReflTransGen.mono (fun _ _ hw => hsub hw) _ _ (h i c c' hc hc')

/-- Slots are only added, and the others are explained. -/
structure Grows (ws : List Assignment) (cs cs' : List CandidateRecord) : Prop where
  length : cs.length ≤ cs'.length
  explained : Explained ws cs cs'

theorem Grows.trans {ws ws' : List Assignment} {a b c : List CandidateRecord}
    (h : Grows ws a b) (h' : Grows ws' b c) : Grows (ws ++ ws') a c := by
  refine ⟨Nat.le_trans h.length h'.length, fun i x z hx hz => ?_⟩
  have hlt := (List.getElem?_eq_some_iff.mp hx).choose
  obtain ⟨y, hy⟩ : ∃ y, b[i]? = some y :=
    ⟨_, List.getElem?_eq_getElem (Nat.lt_of_lt_of_le hlt h.length)⟩
  exact (h.explained.mono (List.subset_append_left ..) i x y hx hy).trans
    (h'.explained.mono (List.subset_append_right ..) i y z hy hz)

theorem Grows.of_states {cs cs' : List CandidateRecord}
    (h : cs'.map (·.state) = cs.map (·.state)) : Grows [] cs cs' := by
  refine ⟨?_, explained_of_prefix (h ▸ List.prefix_rfl)⟩
  have hlength := congrArg List.length h
  simp only [List.length_map] at hlength
  omega

section AdvanceExplained

open AdvanceState

theorem dispatchOne_grows (stage : StageSpec) (dispatchedAny : Bool) (s : AdvanceState)
    (index : Nat) : Grows (slotWrites s.execution.candidates
        (dispatchOne stage dispatchedAny s index).state.execution.candidates)
      s.execution.candidates
      (dispatchOne stage dispatchedAny s index).state.execution.candidates := by
  refine ⟨?_, explained_slotWrites _ _⟩
  have hcases := dispatchOne_cases stage dispatchedAny s index
  generalize dispatchOne stage dispatchedAny s index = next at hcases ⊢
  cases hcases <;> simp [DispatchNext.state, strand, dispatchCandidate, adopt, setCandidate,
    failCandidate, supersedeCandidateEvidence]

theorem dispatchLoop_grows (stage : StageSpec) (indices : List Nat) (dispatchedAny : Bool)
    (s : AdvanceState) : Grows (dispatchWrites stage indices dispatchedAny s)
      s.execution.candidates (dispatchLoop stage indices dispatchedAny s).execution.candidates := by
  induction indices generalizing dispatchedAny s with
  | nil => exact .of_states rfl
  | cons index rest ih =>
    have hone := dispatchOne_grows stage dispatchedAny s index
    unfold dispatchWrites dispatchLoop
    cases hnext : dispatchOne stage dispatchedAny s index with
    | proceed dispatched s' =>
      rw [hnext] at hone
      exact hone.trans (ih dispatched s')
    | stop s' =>
      rw [hnext] at hone
      exact hone

theorem declareStage_grows (limits : Limits) (stage : StageSpec) (s : AdvanceState) :
    Grows [] s.execution.candidates
      (Threaded.final (declareStage limits stage s)).execution.candidates := by
  have hgrows : s.execution.candidates
      <+: (Threaded.final (declareStage limits stage s)).execution.candidates := by
    unfold declareStage
    split
    · exact List.prefix_rfl
    · refine Threaded.final_bind (R := fun a b : AdvanceState =>
        a.execution.candidates <+: b.execution.candidates) List.IsPrefix.trans ?_
        fun _ _ => List.prefix_rfl
      refine Threaded.final_foldlM (R := fun a b : AdvanceState =>
        a.execution.candidates <+: b.execution.candidates) (fun _ => List.prefix_rfl)
        List.IsPrefix.trans (fun s id _ => ?_) s
      unfold declareMember
      split
      · exact List.prefix_rfl
      · split
        · exact List.prefix_rfl
        · split
          · exact List.prefix_rfl
          · split
            · exact List.prefix_rfl
            · exact List.prefix_append ..
  exact ⟨hgrows.length_le, explained_of_prefix (hgrows.map _)⟩

theorem stageLoop_grows (limits : Limits) (stages : List StageSpec) (s : AdvanceState) :
    Grows (stageWrites limits stages s) s.execution.candidates
      (Threaded.final (stageLoop limits stages s)).execution.candidates := by
  induction stages generalizing s with
  | nil => exact .of_states rfl
  | cons stage rest ih =>
    have hdeclared := declareStage_grows limits stage s
    unfold stageWrites stageLoop
    cases hstage : declareStage limits stage s with
    | error stopped =>
      rw [hstage] at hdeclared
      exact hdeclared
    | ok m =>
      rw [hstage] at hdeclared
      have hdispatched := hdeclared.trans (dispatchLoop_grows stage
        (List.range m.execution.candidates.length) false m)
      simp only [bind, Except.bind]
      split
      · exact hdispatched.trans (ih _)
      · rw [List.append_nil]
        exact hdispatched

theorem advanceRound_grows (limits : Limits) (s : AdvanceState) :
    Grows (roundWrites limits s) s.execution.candidates
      (Threaded.final (advanceRound limits s)).execution.candidates := by
  have hstages := stageLoop_grows limits (s.stages.drop s.execution.stageIndex) s
  unfold roundWrites
  cases hstaged : stageLoop limits (s.stages.drop s.execution.stageIndex) s with
  | error stopped =>
    rw [hstaged] at hstages
    rw [List.append_nil, advanceRound, hstaged]
    exact hstages
  | ok staged =>
    rw [hstaged] at hstages
    refine hstages.trans ⟨?_, explained_slotWrites _ _⟩
    rw [advanceRound, hstaged]
    simp only [bind, Except.bind]
    split
    · have hlength := congrArg List.length (evaluationPhase_states staged)
      simp only [List.length_map] at hlength
      exact Nat.le_of_eq hlength.symm
    · exact Nat.le_refl _

theorem advanceLoop_grows (limits : Limits) (fuel : Nat) (s : AdvanceState) :
    Grows (advanceWrites limits fuel s) s.execution.candidates
      (Threaded.final (advanceLoop limits fuel s)).execution.candidates := by
  induction fuel generalizing s with
  | zero => exact .of_states rfl
  | succ fuel ih =>
    unfold advanceWrites advanceLoop
    split
    · have hround := advanceRound_grows limits { s with progress := false }
      cases hnext : advanceRound limits { s with progress := false } with
      | error stopped =>
        rw [hnext] at hround
        rw [List.append_nil]
        exact hround
      | ok m =>
        rw [hnext] at hround
        exact hround.trans (ih m)
    · exact .of_states rfl

end AdvanceExplained

theorem releaseLoop_grows (p : ParticipantRecord) (kind : ParticipantFailureKind)
    (detail : String) (indices : List Nat) (work : EnsembleRecord × ExecutionRecord) :
    Grows (releaseWrites p kind detail indices work) work.2.candidates
      (indices.foldl (releaseCandidate p kind detail) work).2.candidates := by
  induction indices generalizing work with
  | nil => exact .of_states rfl
  | cons index rest ih =>
    refine Grows.trans ⟨Nat.le_of_eq ?_, explained_slotWrites _ _⟩
      (ih (releaseCandidate p kind detail work index))
    obtain ⟨e, x⟩ := work
    unfold releaseCandidate
    simp only
    split
    · rfl
    · split
      · rfl
      · split <;> simp [rewindCandidateForRetry, failCandidate, supersedeCandidateEvidence]

/-- Two writes of one slot. -/
theorem explained_set_twice {cs : List CandidateRecord} {index : Nat} {c c' : CandidateRecord}
    {middle : CandidateState} (hc : cs[index]? = some c) :
    Explained [(c.state, middle), (middle, c'.state)] cs (cs.set index c') := by
  obtain ⟨hlt, -⟩ := List.getElem?_eq_some_iff.mp hc
  intro i d d' hd hd'
  by_cases heq : index = i
  · subst heq
    rw [hc] at hd
    rw [List.getElem?_set_self hlt] at hd'
    obtain rfl := Option.some.inj hd
    obtain rfl := Option.some.inj hd'
    have hfirst : (c.state, middle) ∈ [(c.state, middle), (middle, c'.state)] := by simp
    have hsecond : (middle, c'.state) ∈ [(c.state, middle), (middle, c'.state)] := by simp
    exact .tail (.single hfirst) hsecond
  · rw [List.getElem?_set_ne heq, hd] at hd'
    rw [Option.some.inj hd']

theorem storeResult_states (limits : Limits) (e : EnsembleRecord) (x : ExecutionRecord)
    (stored : EnsembleResult) :
    (storeResult limits e x stored).1.candidates = if stored.decision = .committed then
      x.candidates.map (settledCandidate stored.selectedCandidate) else x.candidates := by
  unfold storeResult
  split <;> rfl

theorem assignments_invalidates {s : System} {event : Event} {reason : String}
    (h : s.invalidates event = some reason) :
    s.assignments event = s.fabric.invalidateWrites reason := by
  cases event with
  | invalidateDynamicAuthority =>
    obtain rfl := Option.some.inj h
    rfl
  | resume client boot =>
    simp only [System.invalidates] at h
    split at h
    · rename_i hphase
      obtain rfl := Option.some.inj h
      simp [System.assignments, hphase]
    · cases h
  | _ => cases h

theorem assignments_submitted {s : System} {event : Event} {r : EnsembleResult}
    (h : s.submitted event = some r) : s.assignments event = s.fabric.commitWrites r := by
  cases event with
  | commitResult =>
    obtain rfl := Option.some.inj h
    rfl
  | resume client boot =>
    simp only [System.submitted] at h
    split at h
    · rename_i hphase
      obtain rfl := Option.some.inj h
      simp [System.assignments, hphase]
    · cases h
  | _ => cases h

/-- Whatever an event writes, it changes the states of an execution by its
assignments. -/
theorem Written.explained {s : System} {event : Event} {id : EnsembleId}
    {e e' : EnsembleRecord} {x x' : ExecutionRecord} (h : Written s event id e e')
    (he : s.fabric.find id = some e) (hx : e.execution = some x) (hx' : e'.execution = some x')
    (hid : x'.id = x.id) : Explained (s.assignments event) x.candidates x'.candidates := by
  have hsame : ∀ {y}, e.execution = some y → x = y := fun hy => Option.some.inj (hx.symm.trans hy)
  have hkept : x'.candidates.map (·.state) = x.candidates.map (·.state) →
      Explained (s.assignments event) x.candidates x'.candidates :=
    fun h => explained_of_prefix (h ▸ List.prefix_rfl)
  cases h with
  | redefined => cases hx'
  | superseded supersedes =>
    subst supersedes
    obtain rfl : supersededExecution x = x' := by simpa [hx] using hx'
    simp only [System.assignments, Fabric.supersedeWrites, he, hx, ne_eq, not_true, if_false]
    exact explained_slotWrites _ _
  | seated _ at_ =>
    obtain rfl := at_.ensemble
    exact hkept (by rw [Option.some.inj (hx'.symm.trans hx)])
  | started _ _ _ later =>
    obtain rfl := Option.some.inj hx'
    obtain ⟨rfl, hlast⟩ := later x hx
    have hlt := StrongId.lt_next hlast
    rw [show x.id.next = x.id from hid] at hlt
    exact absurd hlt (UInt64.lt_irrefl _)
  | withdrawn advances before status pending =>
    subst advances
    obtain rfl := hsame before
    obtain rfl := Option.some.inj hx'
    simp only [System.assignments, Fabric.advanceWrites, he, hx, status, pending, ne_eq, not_true,
      if_false, Bool.false_eq_true]
    exact explained_slotWrites _ _
  | closed advances before status superseded =>
    subst advances
    obtain rfl := hsame before
    obtain rfl := Option.some.inj hx'
    simp only [System.assignments, Fabric.advanceWrites, he, hx, status, superseded, ne_eq,
      not_true, if_false, if_true]
    exact explained_slotWrites _ _
  | advanced advances before status live result =>
    subst advances
    obtain rfl := hsame before
    obtain rfl := Option.some.inj hx'
    simp only [System.assignments, Fabric.advanceWrites, he, hx, status, live, ne_eq, not_true,
      if_false, Bool.false_eq_true]
    have hgrows := advanceLoop_grows s.fabric.config.limits 64
      { core := s.fabric.core, ensemble := e, execution := x, progress := true }
    rw [← result, advanceOpen]
    cases hloop : AdvanceState.advanceLoop s.fabric.config.limits 64
        { core := s.fabric.core, ensemble := e, execution := x, progress := true } with
    | error stopped =>
      rw [hloop] at hgrows
      exact hgrows.explained
    | ok final =>
      rw [hloop] at hgrows
      simpa using (hgrows.trans (.of_states (report_states final))).explained
  | received submits accept ensemble payload =>
    subst submits ensemble
    obtain ⟨hlocated, -⟩ := acceptCandidate_eq_ok accept
    obtain rfl := hsame hlocated.fenced.execution
    obtain rfl := Option.some.inj hx'
    simp only [System.assignments, Fabric.submitCandidateWrites, accept, payload]
    exact explained_set_twice hlocated.at_
  | retried submits accept ensemble failure retry =>
    subst submits ensemble
    obtain ⟨hlocated, -⟩ := acceptCandidate_eq_ok accept
    obtain rfl := hsame hlocated.fenced.execution
    obtain rfl := Option.some.inj hx'
    simp only [System.assignments, Fabric.submitFailureWrites, accept, failure, retry, if_true]
    exact explained_slotWrites _ _
  | dropped submits accept ensemble failure final =>
    subst submits ensemble
    obtain ⟨hlocated, -⟩ := acceptCandidate_eq_ok accept
    obtain rfl := hsame hlocated.fenced.execution
    obtain rfl := Option.some.inj hx'
    simp only [System.assignments, Fabric.submitFailureWrites, accept, failure, final, if_false,
      Bool.false_eq_true]
    exact explained_slotWrites _ _
  | abstained submits accept ensemble =>
    subst submits ensemble
    obtain ⟨hlocated, -⟩ := acceptCandidate_eq_ok accept
    obtain rfl := hsame hlocated.fenced.execution
    obtain rfl := Option.some.inj hx'
    simp only [System.assignments, Fabric.submitAbstentionWrites, accept]
    intro i c c' hc hc'
    by_cases hstate : c.state = c'.state
    · rw [hstate]
    · obtain ⟨-, hwrite⟩ := (mem_slotWrites_set hlocated.at_).mp
        (mem_slotWrites.mpr ⟨i, c, c', hc, hc', hstate, rfl⟩)
      exact .single (by rw [hwrite]; exact List.mem_singleton.mpr rfl)
  | evaluated _ accept ensemble =>
    subst ensemble
    have haccepted := acceptEvaluation_eq_ok accept
    obtain rfl := hsame haccepted.execution
    obtain rfl := Option.some.inj hx'
    refine hkept (Slots.map_key_set haccepted.candidateAt rfl)
  | lost _ _ ensemble =>
    subst ensemble
    exact hkept (by rw [Option.some.inj (hx'.symm.trans hx)])
  | @released a seat kind detail y reports admits ensemble before status =>
    subst reports ensemble
    obtain rfl := hsame before
    have hcandidates : x'.candidates = (handleParticipantFailure
        (seat.write (lostParticipant seat.participant kind detail)) x
        (lostParticipant seat.participant kind detail) kind detail).2.candidates := by
      simp only [releasedRecord, EnsembleRecord.holding_execution, Option.some.injEq] at hx'
      rw [← hx']
      split <;> rfl
    simp only [System.assignments, Fabric.failureWrites, admits,
      show (seat.write (lostParticipant seat.participant kind detail)).execution = some x from hx,
      status, ne_eq, not_true, if_false]
    rw [hcandidates]
    exact (releaseLoop_grows _ kind detail _ _).explained
  | cancelled _ before | attempted _ before =>
    obtain rfl := hsame before
    obtain rfl := Option.some.inj hx'
    exact hkept rfl
  | reported _ before =>
    obtain rfl := hsame before
    obtain rfl := Option.some.inj hx'
    exact hkept (report_states { core := s.fabric.core, ensemble := e, execution := x })
  | @invalidated reason invalidates =>
    obtain rfl : invalidatedExecution reason x = x' := by
      simpa [invalidatedEnsemble, hx] using hx'
    have hsub : slotWrites x.candidates (invalidatedExecution reason x).candidates
        ⊆ s.assignments event := by
      rw [assignments_invalidates invalidates]
      intro w hw
      rw [Fabric.invalidateWrites, List.mem_flatMap]
      exact ⟨(id.value, e), Std.TreeMap.mem_toList_iff_getElem?_eq_some.mpr he,
        by simpa [hx] using hw⟩
    exact (explained_slotWrites _ _).mono hsub
  | @stored r y resultId sequence submits stores =>
    obtain ⟨htarget, -⟩ := storesIn_eq_some.mp stores
    obtain rfl := hsame (commitTarget_eq_ok htarget).execution
    obtain rfl := Option.some.inj hx'
    rw [storeResult_states, assignments_submitted submits, Fabric.commitWrites, stores]
    simp only [show (stampedResult r resultId sequence).decision = r.decision from rfl,
      show (stampedResult r resultId sequence).selectedCandidate = r.selectedCandidate from rfl]
    split
    · exact explained_slotWrites _ _
    · exact explained_of_prefix List.prefix_rfl

/-- An event changes the states of the candidates of an execution by its
assignments only. -/
theorem next_explained {s : System} {event : Event} {key : ExecutionKey} {x x' : ExecutionRecord}
    (hx : s.executionOf key = some x) (hx' : (s.next event).executionOf key = some x') :
    Explained (s.assignments event) x.candidates x'.candidates := by
  obtain ⟨e, he, -, hex, hid⟩ := executionOf_eq_some.mp hx
  obtain ⟨e', he', -, hex', hid'⟩ := executionOf_eq_some.mp hx'
  obtain ⟨e₁, he₁, rfl | hwritten⟩ := (next_writes s event).known key.ensemble e he
  · obtain rfl := Option.some.inj (he'.symm.trans he₁)
    obtain rfl := Option.some.inj (hex.symm.trans hex')
    exact explained_of_prefix List.prefix_rfl
  · obtain rfl := Option.some.inj (he'.symm.trans he₁)
    exact hwritten.explained he hex hex' (hid'.trans hid.symm)

namespace Sample

/-- A reported failure of this candidate is retried. -/
def retrySpec : EnsembleSpec where
  id := ⟨1⟩
  label := "retry"
  participants := [participant 1 candidateRole]
  retry := { maxAttempts := 2, retryOnUnavailable := true }

/-- The participant reports that it is unavailable. -/
def unavailable : Event :=
  .submitCandidateFailure { authority := candidateAuthority 1 1, participantFailure := 1 }

def lonePrepared : Event := .commitResult (prepared (start loneSpec ++ [content 1 1 [7]]))

end Sample

/-- A retry takes DISPATCHED to DECLARED, and a commit takes VALID to SELECTED;
neither is a transition of the lifecycle. Both happen in short runs of a single
participant. -/
theorem illegal_transitions :
    (Sample.reached (Sample.start Sample.retrySpec)).assignments Sample.unavailable
        = [(.dispatched, .declared)]
      ∧ ¬ LegalAssignments (Sample.reached (Sample.start Sample.retrySpec)) Sample.unavailable
      ∧ (Sample.reached (Sample.start Sample.loneSpec ++ [Sample.content 1 1 [7]])).assignments
          Sample.lonePrepared = [(.valid, .selected)]
      ∧ ¬ LegalAssignments
        (Sample.reached (Sample.start Sample.loneSpec ++ [Sample.content 1 1 [7]]))
          Sample.lonePrepared := by
  unfold LegalAssignments
  decide +kernel

end EnsembleFabric
