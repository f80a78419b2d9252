import EnsembleFabric.Changes
import EnsembleFabric.Planned
import EnsembleFabric.Terminal

/-!
# The marks of the allocators

Every allocator has a mark, the next identity it hands out. No operation
lowers a mark (`next_raised`), so an identity that is behind its mark is not
handed out again, in any later state.

A result takes its identity and its sequence from the allocators when the
gate stores it; from then on it only moves, to the history or to the log of
commits. So all results of a reachable state are behind the marks
(`reachable_marked`).

`Raised` compares two cores, and `KeepsRecord` says that an event records
nothing new of an ensemble: whatever it had on record stays, or moves to the
history. Only cancellations and commits do more (`Written.keepsRecord`), and
each of them records an identity it has just drawn. For a recovery the marks
are what keeps identities apart: the state file carries them, and what was
recorded before is behind them afterwards.
-/

namespace EnsembleFabric

open EventSystem

/-! ## Marks -/

/-- The identity is never handed out again. -/
def IdAllocator.Past {domain : IdDomain} (a : IdAllocator domain) (id : StrongId domain) : Prop :=
  id.value.toNat < a.next.toNat ∨ id.value = lastWord

theorem IdAllocator.Past.not_allocated {domain : IdDomain} {a a' : IdAllocator domain}
    {id fresh : StrongId domain} (h : a.Past id) (hfresh : a.allocate = some (fresh, a')) :
    fresh ≠ id := by
  rintro rfl
  obtain ⟨hvalue, hnext⟩ := allocate_spec hfresh
  rcases h with hlt | hlast
  · rw [hvalue] at hlt
    exact absurd hlt (Nat.lt_irrefl _)
  · rw [allocate, ← hvalue, if_pos hlast] at hfresh
    cases hfresh

theorem IdAllocator.past_allocated {domain : IdDomain} {a a' : IdAllocator domain}
    {id : StrongId domain} (h : a.allocate = some (id, a')) : a'.Past id := by
  obtain ⟨hvalue, hnext⟩ := allocate_spec h
  left
  rw [hvalue]
  omega

theorem IdAllocator.past_observed {domain : IdDomain} (a : IdAllocator domain)
    (id : StrongId domain) : (a.observe id).Past id := by
  rw [observe]
  split
  · rename_i hraised
    left
    exact UInt64.lt_iff_toNat_lt.mp (StrongId.lt_next hraised.2)
  · rename_i hbelow
    by_cases hlast : id.value = lastWord
    · exact .inr hlast
    · left
      rw [not_and_or, not_not] at hbelow
      rw [UInt64.le_iff_toNat_le] at hbelow
      exact Nat.not_le.mp (hbelow.resolve_right hlast)

/-- No mark goes down. -/
structure Raised (k k' : Core) : Prop where
  ensembleIds : k.ensembleIds.next.toNat ≤ k'.ensembleIds.next.toNat
  candidateIds : k.candidateIds.next.toNat ≤ k'.candidateIds.next.toNat
  evaluationIds : k.evaluationIds.next.toNat ≤ k'.evaluationIds.next.toNat
  resultIds : k.resultIds.next.toNat ≤ k'.resultIds.next.toNat
  sequences : k.sequences.next.toNat ≤ k'.sequences.next.toNat

theorem IdAllocator.Past.mono {domain : IdDomain} {a a' : IdAllocator domain}
    {id : StrongId domain} (h : a.Past id) (hle : a.next.toNat ≤ a'.next.toNat) : a'.Past id :=
  h.imp_left fun hlt => hlt.trans_le hle

theorem Raised.refl (k : Core) : Raised k k :=
  ⟨Nat.le_refl _, Nat.le_refl _, Nat.le_refl _, Nat.le_refl _, Nat.le_refl _⟩

theorem Raised.trans {a b c : Core} (h : Raised a b) (h' : Raised b c) : Raised a c :=
  ⟨h.ensembleIds.trans h'.ensembleIds, h.candidateIds.trans h'.candidateIds,
    h.evaluationIds.trans h'.evaluationIds, h.resultIds.trans h'.resultIds,
    h.sequences.trans h'.sequences⟩

theorem nextSequence_raised (k : Core) : Raised k k.nextSequence.2 := by
  rw [Core.nextSequence]
  split
  · rename_i hallocated
    obtain ⟨-, hnext⟩ := IdAllocator.allocate_spec hallocated
    exact ⟨Nat.le_refl _, Nat.le_refl _, Nat.le_refl _, Nat.le_refl _,
      (Nat.le_succ _).trans_eq hnext.symm⟩
  · exact .refl k

/-- A sequence that is drawn is behind the mark. Once they run out, the first
one is. -/
theorem nextSequence_past (k : Core) : k.nextSequence.2.sequences.Past k.nextSequence.1 := by
  rw [Core.nextSequence]
  split
  · rename_i hallocated
    exact IdAllocator.past_allocated hallocated
  · rename_i hnone
    left
    rw [IdAllocator.allocate] at hnone
    split at hnone
    · rename_i hlast
      change 1 < k.sequences.next.toNat
      rw [hlast]
      decide
    · cases hnone

/-! ## An advance -/

/-- What an execution keeps of its results and of its end. -/
structure SameRecord (x x' : ExecutionRecord) : Prop where
  result : x'.result = x.result
  commits : x'.commits = x.commits
  cancelledSequence : x'.cancelledSequence = x.cancelledSequence
  committedSequence : x'.committedSequence = x.committedSequence

theorem SameRecord.refl (x : ExecutionRecord) : SameRecord x x := ⟨rfl, rfl, rfl, rfl⟩

theorem SameRecord.trans {a b c : ExecutionRecord} (h : SameRecord a b) (h' : SameRecord b c) :
    SameRecord a c :=
  ⟨h'.result.trans h.result, h'.commits.trans h.commits,
    h'.cancelledSequence.trans h.cancelledSequence,
    h'.committedSequence.trans h.committedSequence⟩

namespace AdvanceState

/-- The marks are not lowered, and nothing is recorded. -/
structure Unrecorded (s s' : AdvanceState) : Prop where
  raised : Raised s.core s'.core
  record : SameRecord s.execution s'.execution
  history : s'.ensemble.history = s.ensemble.history

theorem Unrecorded.refl (s : AdvanceState) : Unrecorded s s := ⟨.refl _, .refl _, rfl⟩

theorem Unrecorded.trans {a b c : AdvanceState} (h : Unrecorded a b) (h' : Unrecorded b c) :
    Unrecorded a c :=
  ⟨h.raised.trans h'.raised, h.record.trans h'.record, h'.history.trans h.history⟩

theorem declareMember_unrecorded (limits : Limits) (stage : StageSpec) (s : AdvanceState)
    (id : ParticipantId) : Unrecorded s (Threaded.final (declareMember limits stage s id)) := by
  unfold declareMember
  split
  · exact .refl s
  · split
    · exact .refl s
    · split
      · exact .refl s
      · split
        · exact .refl s
        · rename_i hallocated
          obtain ⟨-, hnext⟩ := IdAllocator.allocate_spec hallocated
          exact ⟨⟨Nat.le_refl _, (Nat.le_succ _).trans_eq hnext.symm, Nat.le_refl _, Nat.le_refl _,
            Nat.le_refl _⟩, ⟨rfl, rfl, rfl, rfl⟩, rfl⟩

theorem planOne_unrecorded (s : AdvanceState) (t : PlanTarget) :
    Unrecorded s (Threaded.final (planOne s t)) := by
  unfold planOne
  split
  · exact .refl s
  · rename_i hallocated
    obtain ⟨-, hnext⟩ := IdAllocator.allocate_spec hallocated
    exact ⟨⟨Nat.le_refl _, Nat.le_refl _, (Nat.le_succ _).trans_eq hnext.symm, Nat.le_refl _,
      Nat.le_refl _⟩, ⟨rfl, rfl, rfl, rfl⟩, rfl⟩

theorem planEvaluations_unrecorded (s : AdvanceState) :
    Unrecorded s (Threaded.final (planEvaluations s)) := by
  unfold planEvaluations
  split
  · exact .refl s
  · have hplanning : Unrecorded s
        { s with execution := { s.execution with planningComplete := true } } :=
      ⟨.refl _, ⟨rfl, rfl, rfl, rfl⟩, rfl⟩
    refine Threaded.final_bind (R := Unrecorded) Unrecorded.trans (hplanning.trans ?_) fun m _ =>
      ⟨.refl _, .refl _, rfl⟩
    exact Threaded.final_foldlM (R := Unrecorded) Unrecorded.refl Unrecorded.trans
      (fun s t _ => planOne_unrecorded s t) _

theorem activateMembers_unrecorded (trigger : FallbackTrigger) (ids : List ParticipantId)
    (s : AdvanceState) : Unrecorded s (ids.foldl (activateMember trigger) s) := by
  induction ids generalizing s with
  | nil => exact .refl s
  | cons id rest ih =>
    have hone : Unrecorded s (activateMember trigger s id) :=
      ⟨nextSequence_raised s.core, .refl _, rfl⟩
    exact hone.trans (ih (activateMember trigger s id))

theorem AdvanceStep.unrecorded {limits : Limits} {s s' : AdvanceState}
    (h : AdvanceStep limits s s') : Unrecorded s s' := by
  cases h with
  | round | adopted | stranded | completed | reported => exact ⟨.refl _, ⟨rfl, rfl, rfl, rfl⟩, rfl⟩
  | @declared _ stage _ undeclared result =>
    obtain ⟨m, hm, rfl⟩ := declareStage_eq_ok undeclared result
    have hfold : Unrecorded s
        (Threaded.final (stage.participants.foldlM (declareMember limits stage) s)) :=
      Threaded.final_foldlM Unrecorded.refl Unrecorded.trans
        (fun s id _ => declareMember_unrecorded limits stage s id) s
    rw [hm, Threaded.final_ok] at hfold
    exact ⟨hfold.raised, hfold.record.trans ⟨rfl, rfl, rfl, rfl⟩, hfold.history⟩
  | dispatched => exact ⟨nextSequence_raised s.core, ⟨rfl, rfl, rfl, rfl⟩, rfl⟩
  | reopened =>
    unfold reopenPlanning
    split <;> exact ⟨.refl _, ⟨rfl, rfl, rfl, rfl⟩, rfl⟩
  | planned _ _ result =>
    have hplanned := planEvaluations_unrecorded s
    rwa [result, Threaded.final_ok] at hplanned
  | emitted index =>
    have hcases := emitOne_cases s index
    generalize s.emitOne index = s' at hcases
    cases hcases with
    | skipped | kept | abandoned => exact ⟨.refl _, ⟨rfl, rfl, rfl, rfl⟩, rfl⟩
    | emitted => exact ⟨nextSequence_raised s.core, ⟨rfl, rfl, rfl, rfl⟩, rfl⟩
  | @activated trigger _ decision =>
    rw [activateFallback, decision]
    have hrequested : Unrecorded s s.requestFallback :=
      ⟨⟨Nat.le_refl _, Nat.le_refl _, Nat.le_refl _, Nat.le_refl _, Nat.le_refl _⟩,
        ⟨rfl, rfl, rfl, rfl⟩, rfl⟩
    have hmembers := hrequested.trans (activateMembers_unrecorded trigger
      s.ensemble.spec.fallback.fallbackParticipants s.requestFallback)
    exact ⟨hmembers.raised, hmembers.record, hmembers.history⟩

theorem AdvanceStop.unrecorded {limits : Limits} {s s' : AdvanceState} {error : Error}
    (h : AdvanceStop limits s (error, s')) : Unrecorded s s' := by
  cases h with
  | @undeclared stage _ undeclared result =>
    have hfold : Unrecorded s
        (Threaded.final (stage.participants.foldlM (declareMember limits stage) s)) :=
      Threaded.final_foldlM Unrecorded.refl Unrecorded.trans
        (fun s id _ => declareMember_unrecorded limits stage s id) s
    rwa [declareStage_eq_error undeclared result, Threaded.final_error] at hfold
  | unplanned _ _ result =>
    have hplanned := planEvaluations_unrecorded s
    rwa [result, Threaded.final_error] at hplanned

theorem Advances.unrecorded {limits : Limits} {s : AdvanceState} {out : Advancing}
    (h : Advances limits s out) : Unrecorded s (Threaded.final out) := by
  have hsteps : ∀ {m}, AdvanceSteps limits s m → Unrecorded s m := fun hm =>
    advanceSteps_keep (P := Unrecorded s) (fun hone h => h.trans hone.unrecorded) hm (.refl s)
  cases out with
  | ok s' => exact hsteps h
  | error stop =>
    obtain ⟨m, hm, hstop⟩ := h
    exact (hsteps hm).trans hstop.unrecorded

end AdvanceState

theorem advanceOpen_unrecorded (limits : Limits) (core : Core) (e : EnsembleRecord)
    (x : ExecutionRecord) :
    Raised core (advanceOpen limits core e x).1.core
      ∧ SameRecord x (advanceOpen limits core e x).1.execution
      ∧ (advanceOpen limits core e x).1.ensemble.history = e.history := by
  have hloop := (AdvanceState.advanceLoop_advances limits 64 (advanceStart core e x)).unrecorded
  have hstart : SameRecord x (advanceStart core e x).execution := ⟨rfl, rfl, rfl, rfl⟩
  rw [advanceOpen_eq]
  cases hrun : AdvanceState.advanceLoop limits 64 (advanceStart core e x) with
  | error stop =>
    rw [hrun] at hloop
    exact ⟨hloop.raised, hstart.trans hloop.record, hloop.history⟩
  | ok s =>
    rw [hrun] at hloop
    exact ⟨hloop.raised, (hstart.trans hloop.record).trans ⟨rfl, rfl, rfl, rfl⟩, hloop.history⟩

/-! ## One operation -/

theorem raised_count (k : Core) (counters : Counters) : Raised k { k with counters } :=
  ⟨Nat.le_refl _, Nat.le_refl _, Nat.le_refl _, Nat.le_refl _, Nat.le_refl _⟩

theorem cancelInFlight_raised (e : EnsembleRecord) (x : ExecutionRecord)
    (cs : List CandidateRecord) (k : Core) : Raised k (cancelInFlight e x cs k).2.2 := by
  induction cs generalizing k with
  | nil => exact .refl k
  | cons c cs ih =>
    rw [cancelInFlight]
    split
    · exact (nextSequence_raised k).trans (ih _)
    · exact ih k

theorem defineEnsemble_raised (f : Fabric) (requested : EnsembleSpec) :
    Raised f.core (defineEnsemble f requested).1.core := by
  unfold defineEnsemble
  split
  · exact .refl _
  · rename_i id core hassigned
    have hraised : Raised f.core core := by
      unfold assignIdentity at hassigned
      split at hassigned
      · obtain ⟨rfl, rfl⟩ := Prod.mk.injEq .. |>.mp (Except.ok.inj hassigned)
        exact ⟨IdAllocator.observe_le _ _, Nat.le_refl _, Nat.le_refl _, Nat.le_refl _,
          Nat.le_refl _⟩
      · split at hassigned
        · cases hassigned
        · rename_i hallocated
          obtain ⟨rfl, rfl⟩ := Prod.mk.injEq .. |>.mp (Except.ok.inj hassigned)
          obtain ⟨-, hnext⟩ := IdAllocator.allocate_spec hallocated
          exact ⟨(Nat.le_succ _).trans_eq hnext.symm, Nat.le_refl _, Nat.le_refl _, Nat.le_refl _,
            Nat.le_refl _⟩
    simp only
    split
    · exact hraised
    · split
      · exact hraised
      · split
        · exact hraised.trans (raised_count core _)
        · exact hraised

theorem advance_raised (f : Fabric) (id : EnsembleId) (generation : EnsembleGeneration) :
    Raised f.core (advance f id generation).1.core := by
  unfold advance
  split
  · exact .refl _
  · rename_i e _
    split
    · exact .refl _
    · split
      · exact .refl _
      · rename_i x _
        split
        · split
          · exact .refl _
          · exact (raised_count f.core _).trans (cancelInFlight_raised e x x.candidates _)
        · split
          · exact .refl _
          · exact (advanceOpen_unrecorded f.config.limits f.core e x).1
        · exact .refl _

theorem commitResult_raised (f : Fabric) (r : EnsembleResult) :
    Raised f.core (commitResult f r).1.core := by
  unfold commitResult
  split
  · exact raised_count _ _
  · simp only
    split
    · split
      · exact .refl _
      · exact raised_count _ _
    · split
      · exact .refl _
      · split
        · exact .refl _
        · rename_i resultIds hallocated
          obtain ⟨-, hnext⟩ := IdAllocator.allocate_spec hallocated
          have hids : Raised f.core { f.core with resultIds } :=
            ⟨Nat.le_refl _, Nat.le_refl _, Nat.le_refl _, (Nat.le_succ _).trans_eq hnext.symm,
              Nat.le_refl _⟩
          refine (hids.trans (nextSequence_raised _)).trans ?_
          rw [Fabric.store_core, countCommit]
          split
          · exact raised_count _ _
          · exact .refl _

theorem prepareResult_core (f : Fabric) (id : EnsembleId) (generation : EnsembleGeneration) :
    (prepareResult f id generation).1.core = f.core := by
  unfold prepareResult
  split
  · rfl
  · split
    · rfl
    · split
      · rfl
      · split <;> rfl

/-- No event lowers a mark. -/
theorem next_raised (s : System) (event : Event) :
    Raised s.fabric.core (s.next event).fabric.core := by
  have hreject : ∀ {α : Type} (r : Refusal),
      Raised s.fabric.core (s.fabric.reject (α := α) r).1.core := fun r => raised_count _ _
  cases event with
  | defineEnsemble spec => exact defineEnsemble_raised _ _
  | supersedeEnsemble id generation =>
    change Raised _ (supersedeEnsemble s.fabric id generation).1.core
    unfold supersedeEnsemble
    split
    · exact .refl _
    · split
      · exact .refl _
      · exact raised_count _ _
  | registerParticipant r =>
    change Raised _ (registerParticipant s.fabric r).1.core
    unfold registerParticipant
    split
    · exact hreject _
    · exact .refl _
  | openExecution id generation =>
    change Raised _ (openExecution s.fabric id generation).1.core
    unfold openExecution
    repeat' split
    all_goals exact .refl _
  | advance id generation => exact advance_raised _ _ _
  | submitCandidate r =>
    change Raised _ (submitCandidate s.fabric r).1.core
    unfold submitCandidate
    split
    · exact hreject _
    · split
      · exact .refl _
      · exact nextSequence_raised _
  | submitCandidateFailure r =>
    change Raised _ (submitCandidateFailure s.fabric r).1.core
    unfold submitCandidateFailure
    split
    · exact hreject _
    · split <;> exact .refl _
  | submitCandidateAbstention r =>
    change Raised _ (submitCandidateAbstention s.fabric r).1.core
    unfold submitCandidateAbstention
    split
    · exact hreject _
    · exact nextSequence_raised _
  | submitEvaluation r =>
    change Raised _ (submitEvaluation s.fabric r).1.core
    unfold submitEvaluation
    split
    · exact hreject _
    · exact nextSequence_raised _
  | reportParticipantFailure a kind detail =>
    change Raised _ (reportParticipantFailure s.fabric a kind detail).1.core
    unfold reportParticipantFailure
    split
    · exact hreject _
    · simp only
      split
      · exact .refl _
      · split
        · exact .refl _
        · split <;> exact .refl _
  | cancelEnsemble id generation reason =>
    change Raised _ (cancelEnsemble s.fabric id generation reason).1.core
    unfold cancelEnsemble
    split
    · exact .refl _
    · split
      · exact .refl _
      · split
        · exact .refl _
        · split
          · exact .refl _
          · split
            · exact .refl _
            · exact nextSequence_raised _
  | invalidateDynamicAuthority reason => exact raised_count _ _
  | prepareResult id generation =>
    simp only [System.next, System.step, remember_fabric, prepareResult_core]
    exact .refl _
  | commitResult r => exact commitResult_raised _ _
  | finalize client id generation | restart client reason =>
    simp only [System.next, System.step]
    split
    · exact .refl _
    · split <;> exact .refl _
  | resume client boot =>
    simp only [System.next, System.step, System.resume]
    split
    · exact .refl _
    · rename_i id generation checked _
      have hprepared := prepareResult_core s.fabric id generation
      split
      all_goals
        change Raised _ (prepareResult s.fabric id generation).1.core
        rw [hprepared]
        exact .refl _
    · exact commitResult_raised _ _
    · exact raised_count _ _
    · exact ⟨Nat.le_refl _, Nat.le_refl _, Nat.le_refl _, Nat.le_refl _, Nat.le_refl _⟩

theorem run_raised (s : System) (events : List Event) :
    Raised s.fabric.core (s.run events).fabric.core :=
  run_related (R := fun s s' : System => Raised s.fabric.core s'.fabric.core) (fun _ => .refl _)
    Raised.trans next_raised s events

/-! ## Results on record -/

/-- Nothing is recorded of the execution yet. -/
structure Unused (x : ExecutionRecord) : Prop where
  result : x.result = none
  commits : x.commits = []
  cancelledSequence : x.cancelledSequence = {}
  committedSequence : x.committedSequence = {}

/-- The ensemble records nothing that is new: its execution keeps its record or is
a new one, and the result it had may move to the history. -/
structure KeepsRecord (e e' : EnsembleRecord) : Prop where
  execution : ∀ x', e'.execution = some x' →
    Unused x' ∨ ∃ x, e.execution = some x ∧ SameRecord x x'
  history : ∀ r ∈ e'.history, r ∈ e.history ∨ ∃ x, e.execution = some x ∧ x.result = some r

theorem KeepsRecord.of_same {e e' : EnsembleRecord} (hexecution : e'.execution = e.execution)
    (hhistory : e'.history = e.history) : KeepsRecord e e' :=
  ⟨fun x' hx' => .inr ⟨x', hexecution ▸ hx', .refl x'⟩, fun _ hr => .inl (hhistory ▸ hr)⟩

/-- The execution is worked on. -/
theorem KeepsRecord.holding {e e' : EnsembleRecord} {x x' : ExecutionRecord}
    (hx : e.execution = some x) (h : SameRecord x x') (hhistory : e'.history = e.history) :
    KeepsRecord e (e'.holding x') := by
  refine ⟨?_, fun _ hr => .inl (hhistory ▸ hr)⟩
  rintro _ ⟨⟩
  exact .inr ⟨x, hx, h⟩

theorem KeepsRecord.map {e e' : EnsembleRecord} {f : ExecutionRecord → ExecutionRecord}
    (h : ∀ x, SameRecord x (f x)) (hexecution : e'.execution = e.execution.map f)
    (hhistory : e'.history = e.history) : KeepsRecord e e' := by
  refine ⟨fun x' hx' => ?_, fun _ hr => .inl (hhistory ▸ hr)⟩
  rw [hexecution, Option.map_eq_some_iff] at hx'
  obtain ⟨x, hx, rfl⟩ := hx'
  exact .inr ⟨x, hx, h x⟩

theorem supersededExecution_record (x : ExecutionRecord) :
    SameRecord x (supersededExecution x) := by
  unfold supersededExecution
  split <;> exact ⟨rfl, rfl, rfl, rfl⟩

theorem invalidatedExecution_record (reason : String) (x : ExecutionRecord) :
    SameRecord x (invalidatedExecution reason x) := by
  unfold invalidatedExecution
  split <;> exact ⟨rfl, rfl, rfl, rfl⟩

theorem handleParticipantFailure_record (e : EnsembleRecord) (x : ExecutionRecord)
    (p : ParticipantRecord) (kind : ParticipantFailureKind) (detail : String) :
    SameRecord x (handleParticipantFailure e x p kind detail).2
      ∧ (handleParticipantFailure e x p kind detail).1.history = e.history := by
  refine Threaded.foldl_related (f := releaseCandidate p kind detail)
    (R := fun a b : EnsembleRecord × ExecutionRecord =>
      SameRecord a.2 b.2 ∧ b.1.history = a.1.history)
    (fun a => ⟨.refl _, rfl⟩) (fun h h' => ⟨h.1.trans h'.1, h'.2.trans h.2⟩) ?_ (e, x)
  rintro ⟨e, x⟩ index -
  unfold releaseCandidate
  simp only
  split
  · exact ⟨.refl _, rfl⟩
  · split
    · exact ⟨.refl _, rfl⟩
    · split <;> exact ⟨⟨rfl, rfl, rfl, rfl⟩, rfl⟩

theorem redefinedRecord_history {limits : Limits} {e : EnsembleRecord} {spec : EnsembleSpec}
    {r : EnsembleResult} (h : r ∈ (redefinedRecord limits e spec).history) :
    r ∈ e.history ∨ ∃ x, e.execution = some x ∧ x.result = some r := by
  simp only [redefinedRecord] at h
  split at h
  · rename_i result hresult
    rcases List.mem_append.mp (List.mem_of_mem_drop h) with hold | hnew
    · exact .inl hold
    · obtain rfl := List.mem_singleton.mp hnew
      exact .inr (Option.bind_eq_some_iff.mp hresult)
  · exact .inl h

/-- Only cancellations and commits record something. -/
theorem Written.keepsRecord {s : System} {event : Event} {id : EnsembleId}
    {e e' : EnsembleRecord} (h : Written s event id e e')
    (hcancel : ∀ id generation reason, event ≠ .cancelEnsemble id generation reason)
    (hsubmit : s.submitted event = none) : KeepsRecord e e' := by
  cases h with
  | redefined => exact ⟨fun _ hx' => (by cases hx'), fun _ hr => redefinedRecord_history hr⟩
  | superseded => exact .map supersededExecution_record rfl rfl
  | seated _ at_ =>
    obtain rfl := at_.ensemble
    exact .of_same rfl rfl
  | started =>
    refine ⟨?_, fun _ hr => .inl hr⟩
    rintro _ ⟨⟩
    exact .inl ⟨rfl, rfl, rfl, rfl⟩
  | withdrawn _ before | closed _ before | reported _ before =>
    exact .holding before ⟨rfl, rfl, rfl, rfl⟩ rfl
  | @advanced x _ _ before _ _ result =>
    subst result
    obtain ⟨-, hrecord, hhistory⟩ :=
      advanceOpen_unrecorded s.fabric.config.limits s.fabric.core e x
    exact .holding before hrecord hhistory
  | received _ accept ensemble | abstained _ accept ensemble | retried _ accept ensemble
  | dropped _ accept ensemble =>
    subst ensemble
    exact .holding (acceptCandidate_eq_ok accept).1.fenced.execution ⟨rfl, rfl, rfl, rfl⟩ rfl
  | evaluated _ accept ensemble =>
    subst ensemble
    exact .holding (acceptEvaluation_eq_ok accept).execution ⟨rfl, rfl, rfl, rfl⟩ rfl
  | lost _ _ ensemble =>
    subst ensemble
    exact .of_same rfl rfl
  | @released _ seat kind detail x _ _ ensemble before =>
    subst ensemble
    obtain ⟨hrecord, hhistory⟩ := handleParticipantFailure_record
      (seat.write (lostParticipant seat.participant kind detail)) x
      (lostParticipant seat.participant kind detail) kind detail
    refine .holding before ?_ hhistory
    split
    · exact hrecord.trans ⟨rfl, rfl, rfl, rfl⟩
    · exact hrecord
  | cancelled cancels => exact absurd cancels (hcancel _ _ _)
  | invalidated => exact .map (invalidatedExecution_record _) rfl rfl
  | attempted submits | stored submits =>
    rw [hsubmit] at submits
    cases submits

/-- What an execution has recorded is behind the marks. -/
structure ExecutionRecord.Marked (k : Core) (x : ExecutionRecord) : Prop where
  result : ∀ r, x.result = some r → k.resultIds.Past r.id ∧ k.sequences.Past r.commitSequence
  commits : ∀ c ∈ x.commits, k.resultIds.Past c.result ∧ k.sequences.Past c.sequence
  cancelledSequence : k.sequences.Past x.cancelledSequence
  committedSequence : k.sequences.Past x.committedSequence

/-- What an ensemble has recorded is. -/
structure EnsembleRecord.Marked (k : Core) (e : EnsembleRecord) : Prop where
  execution : ∀ x, e.execution = some x → x.Marked k
  history : ∀ r ∈ e.history, k.resultIds.Past r.id ∧ k.sequences.Past r.commitSequence

/-- Everything that is recorded is. -/
structure Fabric.Marked (f : Fabric) : Prop where
  positive : 0 < f.core.sequences.next.toNat
  ensembles : ∀ id e, f.find id = some e → e.Marked f.core

theorem ExecutionRecord.Marked.raised {k k' : Core} {x : ExecutionRecord} (h : x.Marked k)
    (hraised : Raised k k') : x.Marked k' :=
  ⟨fun r hr => ⟨(h.result r hr).1.mono hraised.resultIds, (h.result r hr).2.mono hraised.sequences⟩,
    fun c hc =>
      ⟨(h.commits c hc).1.mono hraised.resultIds, (h.commits c hc).2.mono hraised.sequences⟩,
    h.cancelledSequence.mono hraised.sequences, h.committedSequence.mono hraised.sequences⟩

theorem EnsembleRecord.Marked.raised {k k' : Core} {e : EnsembleRecord} (h : e.Marked k)
    (hraised : Raised k k') : e.Marked k' :=
  ⟨fun x hx => (h.execution x hx).raised hraised,
    fun r hr => ⟨(h.history r hr).1.mono hraised.resultIds,
      (h.history r hr).2.mono hraised.sequences⟩⟩

theorem ExecutionRecord.Marked.of_same {k : Core} {x x' : ExecutionRecord} (h : x.Marked k)
    (hsame : SameRecord x x') : x'.Marked k :=
  ⟨fun r hr => h.result r (hsame.result ▸ hr), fun c hc => h.commits c (hsame.commits ▸ hc),
    hsame.cancelledSequence ▸ h.cancelledSequence,
    hsame.committedSequence ▸ h.committedSequence⟩

theorem Unused.marked {k : Core} {x : ExecutionRecord} (h : Unused x)
    (hpositive : 0 < k.sequences.next.toNat) : x.Marked k := by
  have hnone : k.sequences.Past {} := .inl hpositive
  refine ⟨fun r hr => ?_, fun c hc => ?_, h.cancelledSequence ▸ hnone,
    h.committedSequence ▸ hnone⟩
  · rw [h.result] at hr
    cases hr
  · rw [h.commits] at hc
    cases hc

theorem KeepsRecord.marked {k : Core} {e e' : EnsembleRecord} (h : KeepsRecord e e')
    (hpositive : 0 < k.sequences.next.toNat) (he : e.Marked k) : e'.Marked k := by
  refine ⟨fun x' hx' => ?_, fun r hr => ?_⟩
  · rcases h.execution x' hx' with hunused | ⟨x, hx, hsame⟩
    · exact hunused.marked hpositive
    · exact (he.execution x hx).of_same hsame
  · rcases h.history r hr with hold | ⟨x, hx, hresult⟩
    · exact he.history r hold
    · exact (he.execution x hx).result r hresult

/-- One record is written, under marks that are not lowered. -/
theorem Fabric.Marked.store {f : Fabric} (h : f.Marked) {k : Core} (hraised : Raised f.core k)
    {id : EnsembleId} {e' : EnsembleRecord} (he' : e'.Marked k) :
    ({ f with core := k }.store id e').Marked := by
  refine ⟨Nat.lt_of_lt_of_le h.positive hraised.sequences, fun other e he => ?_⟩
  rw [Fabric.find_store { f with core := k } id other e'] at he
  split at he
  · obtain rfl := Option.some.inj he
    exact he'
  · exact (h.ensembles other e he).raised hraised

theorem cancelEnsemble_marked {f : Fabric} (h : f.Marked) (id : EnsembleId)
    (generation : EnsembleGeneration) (reason : String) :
    (cancelEnsemble f id generation reason).1.Marked := by
  unfold cancelEnsemble
  split
  · exact h
  · rename_i e he
    split
    · exact h
    · split
      · exact h
      · rename_i x hx
        split
        · exact h
        · split
          · exact h
          · have hraised := nextSequence_raised f.core
            have hmarked := (h.ensembles id e he).raised hraised
            have hexecution := hmarked.execution x hx
            have hpositive := Nat.lt_of_lt_of_le h.positive hraised.sequences
            refine h.store hraised ⟨?_, hmarked.history⟩
            rintro _ ⟨⟩
            exact ⟨hexecution.result, hexecution.commits, nextSequence_past f.core, .inl hpositive⟩

/-- The record of an execution after its result was stored. -/
theorem storeResult_marked {limits : Limits} {e : EnsembleRecord} {x : ExecutionRecord}
    {stored : EnsembleResult} {k : Core} (hx : x.Marked k)
    (hstored : k.resultIds.Past stored.id ∧ k.sequences.Past stored.commitSequence) :
    (storeResult limits e x stored).1.Marked k := by
  have hrecord : (storeResult limits e x stored).2.id = stored.id
      ∧ (storeResult limits e x stored).2.commitSequence = stored.commitSequence
      ∧ (storeResult limits e x stored).1.cancelledSequence = x.cancelledSequence
      ∧ (storeResult limits e x stored).1.committedSequence = stored.commitSequence := by
    unfold storeResult
    split <;> exact ⟨rfl, rfl, rfl, rfl⟩
  obtain ⟨hid, hsequence, hcancelled, hcommitted⟩ := hrecord
  refine ⟨fun r hr => ?_, fun c hc => ?_, hcancelled ▸ hx.cancelledSequence,
    hcommitted ▸ hstored.2⟩
  · rw [storeResult_result] at hr
    obtain rfl := Option.some.inj hr
    rw [hid, hsequence]
    exact hstored
  · rw [storeResult_commits] at hc
    rcases List.mem_append.mp (List.mem_of_mem_drop hc) with hold | hnew
    · exact hx.commits c hold
    · obtain rfl := List.mem_singleton.mp hnew
      exact hstored

theorem commitResult_marked {f : Fabric} (h : f.Marked) (r : EnsembleResult) :
    (commitResult f r).1.Marked := by
  have hcounted : ∀ {g : Fabric} (counters : Counters), g.Marked →
      { g with core := { g.core with counters } }.Marked := fun counters hg =>
    ⟨hg.positive, fun id e he => (hg.ensembles id e he).raised (raised_count _ counters)⟩
  unfold commitResult
  split
  · exact hcounted _ h
  · rename_i e x htarget
    have hfenced := commitTarget_eq_ok htarget
    have he := h.ensembles r.ensemble e hfenced.ensemble
    have hx := he.execution x hfenced.execution
    have hattempted : (f.store r.ensemble
        (e.holding { x with commitAttempts := x.commitAttempts + 1 })).Marked := by
      refine h.store (.refl f.core) ⟨?_, he.history⟩
      rintro _ ⟨⟩
      exact hx.of_same ⟨rfl, rfl, rfl, rfl⟩
    simp only
    split
    · split
      · exact hattempted
      · exact hcounted _ hattempted
    · split
      · exact hattempted
      · split
        · exact hattempted
        · rename_i id resultIds hallocated
          obtain ⟨-, hnext⟩ := IdAllocator.allocate_spec hallocated
          have hids : Raised f.core { f.core with resultIds } :=
            ⟨Nat.le_refl _, Nat.le_refl _, Nat.le_refl _, (Nat.le_succ _).trans_eq hnext.symm,
              Nat.le_refl _⟩
          have hdrawn := nextSequence_raised { f.core with resultIds }
          have hpast := (IdAllocator.past_allocated hallocated).mono hdrawn.resultIds
          have hsequence := nextSequence_past { f.core with resultIds }
          generalize ({ f.core with resultIds } : Core).nextSequence = drawn
            at hdrawn hpast hsequence ⊢
          obtain ⟨sequence, k⟩ := drawn
          have hcore : ∀ stored, Raised k (countCommit k stored) := fun stored => by
            rw [countCommit]
            split
            · exact raised_count _ _
            · exact .refl _
          refine h.store ((hids.trans hdrawn).trans (hcore _)) ⟨?_, ?_⟩
          · rintro _ ⟨⟩
            refine ExecutionRecord.Marked.raised ?_ (hcore _)
            exact storeResult_marked ((hx.raised (hids.trans hdrawn)).of_same ⟨rfl, rfl, rfl, rfl⟩)
              ⟨hpast, hsequence⟩
          · exact (he.raised ((hids.trans hdrawn).trans (hcore _))).history

theorem next_marked {s : System} (h : s.fabric.Marked) (event : Event) :
    (s.next event).fabric.Marked := by
  cases hsubmit : s.submitted event with
  | some r =>
    rw [submitted_next hsubmit]
    exact commitResult_marked h r
  | none =>
    by_cases hcancel : ∃ id generation reason, event = .cancelEnsemble id generation reason
    · obtain ⟨id, generation, reason, rfl⟩ := hcancel
      exact cancelEnsemble_marked h id generation reason
    · have hraised := next_raised s event
      refine ⟨Nat.lt_of_lt_of_le h.positive hraised.sequences, fun id e' he' => ?_⟩
      rcases next_record he' with hsame | ⟨e, he, hwritten⟩ | ⟨-, spec, -, rfl⟩
      · exact (h.ensembles id e' hsame).raised hraised
      · refine ((hwritten.keepsRecord ?_ hsubmit).marked h.positive
          (h.ensembles id e he)).raised hraised
        intro id generation reason heq
        exact hcancel ⟨id, generation, reason, heq⟩
      · exact ⟨fun _ hx => (by cases hx), fun _ hr => (by cases hr)⟩

theorem reachable_marked (config : FabricConfig) (events : List Event) :
    ((System.initial config).run events).fabric.Marked :=
  run_invariant (I := fun s : System => s.fabric.Marked) (fun _ event h => next_marked h event)
    ⟨Nat.one_pos, fun _ _ he => by cases he⟩

end EnsembleFabric
