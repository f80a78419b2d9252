import EnsembleFabric.Library.Checks
import EnsembleFabric.System

/-!
# Operations that are rejected

Every operation resolves and checks what it is given before it writes. A
rejection leaves the runtime as it was, what is counted aside: the diagnostic
counters, and the commit attempts of an execution
(`rejected_operations_change_nothing`).

`SameButCounted` compares two states without these counters, and `Rejects`
asks it of an operation that answers an error. Most operations satisfy it by
their shape, a sequence of checks in front of one write; the commit gate has
a lemma of its own, since it counts the attempt before its last checks.

A definition takes its identity first. A rejected definition therefore leaves
a trace wherever it moved the mark of the ensemble identities: the identities
run out earlier, which a later definition can observe.
`rejected_definition_unnoticed_iff` says exactly when it leaves none:
`SameBehaviour` compares the answers to whatever happens later, and the
definitions of `probe`, which are always rejected, use up what is left of
the identities to tell two marks apart.
-/

namespace EnsembleFabric

/-! ## What a rejection may change -/

/-- The execution without the number of its commit attempts. -/
def ExecutionRecord.unattempted (x : ExecutionRecord) : ExecutionRecord :=
  { x with commitAttempts := 0 }

def EnsembleRecord.unattempted (e : EnsembleRecord) : EnsembleRecord :=
  { e with execution := e.execution.map ExecutionRecord.unattempted }

/-- The state differs in what is counted at most. -/
structure SameButCounted (f f' : Fabric) : Prop where
  config : f'.config = f.config
  core : { f'.core with counters := f.core.counters } = f.core
  ensembles : ∀ id, (f'.find id).map EnsembleRecord.unattempted
    = (f.find id).map EnsembleRecord.unattempted

namespace SameButCounted

theorem refl (f : Fabric) : SameButCounted f f := ⟨rfl, rfl, fun _ => rfl⟩

theorem trans {a b c : Fabric} (h : SameButCounted a b) (h' : SameButCounted b c) :
    SameButCounted a c := by
  refine ⟨h'.config.trans h.config, ?_, fun id => (h'.ensembles id).trans (h.ensembles id)⟩
  rw [← h.core, ← h'.core]

theorem reject (f : Fabric) (r : Refusal) {α : Type} :
    SameButCounted f (f.reject r : Fabric × Outcome α).1 := ⟨rfl, rfl, fun _ => rfl⟩

/-- An attempt to commit is counted. -/
theorem attempt {f : Fabric} {id : EnsembleId} {e : EnsembleRecord} {x : ExecutionRecord}
    (he : f.find id = some e) (hx : e.execution = some x) (attempts : Nat) :
    SameButCounted f (f.store id (e.holding { x with commitAttempts := attempts })) := by
  refine ⟨rfl, rfl, fun other => ?_⟩
  rw [Fabric.find_store]
  split
  · rename_i hother
    rw [← hother, he, Option.map_some, Option.map_some, EnsembleRecord.unattempted,
      EnsembleRecord.unattempted, hx]
    rfl
  · rfl

end SameButCounted

/-- An operation that answers an error has changed nothing. -/
def Rejects {α : Type} (f : Fabric) (out : Fabric × Outcome α) : Prop :=
  ∀ error, out.2 = .error error → SameButCounted f out.1

theorem Rejects.unchanged {α : Type} (f : Fabric) (outcome : Outcome α) :
    Rejects f (f, outcome) := fun _ _ => .refl f

theorem Rejects.reject {α : Type} (f : Fabric) (r : Refusal) :
    Rejects f (f.reject r : Fabric × Outcome α) := fun _ _ => .reject f r

theorem Rejects.answered {α : Type} (f f' : Fabric) (a : α) : Rejects f (f', .ok a) := by
  intro error h
  cases h

/-! ## The operations -/

section Operations

variable (f : Fabric)

theorem registerParticipant_rejects (r : ParticipantRegistration) :
    Rejects f (registerParticipant f r) := by
  unfold registerParticipant
  cases admitRegistration f r with
  | error refusal => exact .reject f refusal
  | ok seat => exact .answered f _ _

theorem openExecution_rejects (id : EnsembleId) (generation : EnsembleGeneration) :
    Rejects f (openExecution f id generation) := by
  unfold openExecution
  split
  · exact .unchanged f _
  · repeat' split
    all_goals first | exact .unchanged f _ | exact .answered f _ _

theorem submitCandidate_rejects (s : CandidateSubmission) : Rejects f (submitCandidate f s) := by
  unfold submitCandidate
  cases acceptCandidate f s.authority with
  | error refusal => exact .reject f refusal
  | ok l =>
    dsimp only
    cases checkPayload f.config.limits s.payload with
    | error error => exact .unchanged f _
    | ok _ => exact .answered f _ _

theorem submitCandidateFailure_rejects (s : CandidateFailureSubmission) :
    Rejects f (submitCandidateFailure f s) := by
  unfold submitCandidateFailure
  cases acceptCandidate f s.authority with
  | error refusal => exact .reject f refusal
  | ok l =>
    dsimp only
    cases ParticipantFailureKind.ofCode? s.participantFailure with
    | none => exact .unchanged f _
    | some kind => exact .answered f _ _

theorem submitCandidateAbstention_rejects (s : CandidateAbstentionSubmission) :
    Rejects f (submitCandidateAbstention f s) := by
  unfold submitCandidateAbstention
  cases acceptCandidate f s.authority with
  | error refusal => exact .reject f refusal
  | ok l => exact .answered f _ _

theorem submitEvaluation_rejects (s : EvaluationSubmission) :
    Rejects f (submitEvaluation f s) := by
  unfold submitEvaluation
  cases acceptEvaluation f s with
  | error refusal => exact .reject f refusal
  | ok site => exact .answered f _ _

theorem supersedeEnsemble_rejects (id : EnsembleId) (generation : EnsembleGeneration) :
    Rejects f (supersedeEnsemble f id generation) := by
  unfold supersedeEnsemble
  split
  · exact .unchanged f _
  · split
    · exact .unchanged f _
    · exact .answered f _ _

theorem cancelEnsemble_rejects (id : EnsembleId) (generation : EnsembleGeneration)
    (reason : String) : Rejects f (cancelEnsemble f id generation reason) := by
  unfold cancelEnsemble
  split
  · exact .unchanged f _
  · repeat' split
    all_goals first | exact .unchanged f _ | exact .answered f _ _

/-- Past the target, the gate has counted an attempt; nothing else is written
before the last check. -/
theorem commitResult_rejects (r : EnsembleResult) : Rejects f (commitResult f r) := by
  unfold commitResult
  cases htarget : commitTarget f r with
  | error refusal => exact .reject f refusal
  | ok target =>
    obtain ⟨_, _⟩ := target
    simp only [commitTarget, Checks.bind_eq_ok, located_eq_ok, Checks.pure_eq_ok,
      Prod.mk.injEq] at htarget
    obtain ⟨e, he, _, -, x, hx, rfl, rfl⟩ := htarget
    have hattempt := SameButCounted.attempt he (Option.filter_eq_some_iff.mp hx).1
      (x.commitAttempts + 1)
    dsimp only
    split
    · split
      · exact .answered f _ _
      · exact fun _ _ => hattempt.trans (.reject _ _)
    · split
      · exact fun _ _ => hattempt
      · split
        · exact fun _ _ => hattempt
        · exact .answered f _ _

end Operations

/-! ## Every state -/

/-- The operation checks everything before it writes. -/
def Event.checksFirst : Event → Bool
  | .registerParticipant _ | .openExecution _ _ | .submitCandidate _ | .submitCandidateFailure _
  | .submitCandidateAbstention _ | .submitEvaluation _ | .supersedeEnsemble _ _
  | .cancelEnsemble _ _ _ | .commitResult _ => true
  | _ => false

/-- The client is answered with an error. -/
def Response.rejected : Response → Bool
  | .silent => false
  | .status outcome => !outcome.isOk
  | .generation outcome => !outcome.isOk
  | .seated outcome => !outcome.isOk
  | .opened outcome => !outcome.isOk
  | .actions outcome => !outcome.isOk
  | .evaluation outcome => !outcome.isOk
  | .prepared outcome => !outcome.isOk
  | .committed outcome => !outcome.isOk
  | .epoch outcome => !outcome.isOk

theorem Rejects.next {α : Type} {s : System} {out : Fabric × Outcome α}
    (h : Rejects s.fabric out) (hrejected : (!out.2.isOk) = true) :
    SameButCounted s.fabric out.1 := by
  cases houtcome : out.2 with
  | error error => exact h error houtcome
  | ok a =>
    rw [houtcome] at hrejected
    cases hrejected

/-- A rejected operation leaves the runtime as it was, what is counted
aside, and the clients too. -/
theorem rejected_operations_change_nothing {s : System} {event : Event}
    (hchecks : event.checksFirst = true) (hrejected : (s.reply event).rejected = true) :
    SameButCounted s.fabric (s.next event).fabric
      ∧ (s.next event).prepared = s.prepared ∧ (s.next event).clients = s.clients := by
  cases event with
  | registerParticipant r =>
    exact ⟨(registerParticipant_rejects s.fabric r).next hrejected, rfl, rfl⟩
  | openExecution id generation =>
    exact ⟨(openExecution_rejects s.fabric id generation).next hrejected, rfl, rfl⟩
  | submitCandidate submission =>
    exact ⟨(submitCandidate_rejects s.fabric submission).next hrejected, rfl, rfl⟩
  | submitCandidateFailure submission =>
    exact ⟨(submitCandidateFailure_rejects s.fabric submission).next hrejected, rfl, rfl⟩
  | submitCandidateAbstention submission =>
    exact ⟨(submitCandidateAbstention_rejects s.fabric submission).next hrejected, rfl, rfl⟩
  | submitEvaluation submission =>
    exact ⟨(submitEvaluation_rejects s.fabric submission).next hrejected, rfl, rfl⟩
  | supersedeEnsemble id generation =>
    exact ⟨(supersedeEnsemble_rejects s.fabric id generation).next hrejected, rfl, rfl⟩
  | cancelEnsemble id generation reason =>
    exact ⟨(cancelEnsemble_rejects s.fabric id generation reason).next hrejected, rfl, rfl⟩
  | commitResult result =>
    exact ⟨(commitResult_rejects s.fabric result).next hrejected, rfl, rfl⟩
  | defineEnsemble | advance | reportParticipantFailure | invalidateDynamicAuthority
  | prepareResult | finalize | restart | resume => cases hchecks

namespace Sample

/-- One candidate, and a judge with two criteria. -/
def twoCriteriaSpec : EnsembleSpec where
  id := ⟨1⟩
  label := "criteria"
  participants := [participant 1 candidateRole, participant 2 judgeRole]
  judgingCriteria := [⟨1, 1⟩, ⟨2, 1⟩]

/-- The judge has answered the first of its two plans. -/
def halfJudged : List Event :=
  start twoCriteriaSpec ++ [content 1 1 [7], advance, judge 2 1 1 1 .accept]

/-- It answers the other plan with an evaluation of no weight. -/
def weightless : EvaluationSubmission where
  authority := evaluationAuthority 2 1 2
  criterion := ⟨2, 1⟩
  judgment := .accept
  weight := .zero

end Sample

/-- A judge answers its second plan, and the last check of what it submits
fails, in a state that holds a candidate, an evaluation and two plans. -/
theorem weightless_rejected :
    let s := Sample.reached Sample.halfJudged
    let event := Event.submitEvaluation Sample.weightless
    (Sample.execution Sample.halfJudged).any (fun x =>
        x.candidates.length == 1 && x.evaluations.length == 1 && x.pending.length == 2) = true
      ∧ (submitEvaluation s.fabric Sample.weightless).2
        = .error ⟨.malformedEvaluation, "evaluation weight must be finite and positive"⟩
      ∧ SameButCounted s.fabric (s.next event).fabric
      ∧ (s.next event).prepared = s.prepared ∧ (s.next event).clients = s.clients := by
  have hstate : (Sample.execution Sample.halfJudged).any (fun x =>
        x.candidates.length == 1 && x.evaluations.length == 1 && x.pending.length == 2) = true
      ∧ (submitEvaluation (Sample.reached Sample.halfJudged).fabric Sample.weightless).2
        = .error ⟨.malformedEvaluation, "evaluation weight must be finite and positive"⟩ := by
    decide +kernel
  have hreply : (Sample.reached Sample.halfJudged).reply (.submitEvaluation Sample.weightless)
      = .evaluation (submitEvaluation (Sample.reached Sample.halfJudged).fabric
          Sample.weightless).2 := rfl
  refine ⟨hstate.1, hstate.2, rejected_operations_change_nothing rfl ?_⟩
  rw [hreply, hstate.2]
  rfl

/-! ## Definitions -/

/-- Whatever happens later is answered alike. -/
def SameBehaviour (s s' : System) : Prop :=
  ∀ events event, (s'.run events).reply event = (s.run events).reply event

/-- The mark of the ensemble identities stays where it is for a definition
under the identity, whatever becomes of the definition. -/
def Core.keepsMark (k : Core) (id : EnsembleId) : Prop :=
  if id.valid then id.value < k.ensembleIds.next ∨ id.value = lastWord
  else k.ensembleIds.next = lastWord

instance (k : Core) (id : EnsembleId) : Decidable (k.keepsMark id) := by
  unfold Core.keepsMark
  infer_instance

/-- The core once an identity was taken for a definition. -/
def markedCore (k : Core) (id : EnsembleId) : Core :=
  match assignIdentity k id with
  | .ok (_, k') => k'
  | .error _ => k

/-- All a rejected definition leaves is the mark. -/
theorem rejected_definition {f : Fabric} {spec : EnsembleSpec} {error : Error}
    (h : (defineEnsemble f spec).2 = .error error) :
    (defineEnsemble f spec).1 = { f with core := markedCore f.core spec.id } := by
  unfold defineEnsemble markedCore at *
  cases hassign : assignIdentity f.core spec.id with
  | error error => rfl
  | ok assigned =>
    obtain ⟨id, core⟩ := assigned
    rw [hassign] at h
    dsimp only at h ⊢
    split at h
    · rfl
    · split at h
      · cases h
      · cases h

/-- The mark stays, or moves up. -/
theorem markedCore_cases (k : Core) (id : EnsembleId) :
    k.keepsMark id ∧ markedCore k id = k
      ∨ ¬ k.keepsMark id ∧ ∃ mark, k.ensembleIds.next.toNat < mark.toNat
        ∧ markedCore k id = { k with ensembleIds := ⟨mark⟩ } := by
  unfold Core.keepsMark markedCore assignIdentity
  split
  · dsimp only
    unfold IdAllocator.observe
    split
    · rename_i hmoves
      refine .inr ⟨fun hkeeps => ?_, id.value + 1, ?_, rfl⟩
      · rcases hkeeps with hlt | hlast
        · exact absurd hmoves.1 (UInt64.not_le.mpr hlt)
        · exact hmoves.2 hlast
      · have hlt := UInt64.lt_iff_toNat_lt.mp (StrongId.lt_next hmoves.2)
        have hle := UInt64.le_iff_toNat_le.mp hmoves.1
        exact Nat.lt_of_le_of_lt hle hlt
    · rename_i hstays
      refine .inl ⟨?_, rfl⟩
      by_cases hlast : id.value = lastWord
      · exact .inr hlast
      · exact .inl (UInt64.not_le.mp fun hle => hstays ⟨hle, hlast⟩)
  · cases hallocate : k.ensembleIds.allocate with
    | none =>
      refine .inl ⟨?_, rfl⟩
      unfold IdAllocator.allocate at hallocate
      split at hallocate
      · assumption
      · cases hallocate
    | some allocated =>
      obtain ⟨fresh, marked⟩ := allocated
      refine .inr ⟨fun hlast => ?_, marked.next, ?_, rfl⟩
      · rw [IdAllocator.allocate, if_pos hlast] at hallocate
        cases hallocate
      · have hspec := (IdAllocator.allocate_spec hallocate).2
        omega

/-! ### Running out of identities -/

/-- The error of a definition for which no identity is left. -/
def identityExhaustion : Error :=
  ⟨.resourceLimitExceeded, "ensemble identity space is exhausted"⟩

/-- A definition that asks for a fresh identity and is always rejected. -/
def probe : Event := .defineEnsemble { id := {}, generation := ⟨2⟩ }

theorem require_code {α : Type} {condition : Bool} {message : String} {rest : Unit → Outcome α}
    (h : ∀ error, rest () = .error error → error.code = .invalidArgument) :
    ∀ error, (require condition .invalidArgument message >>= rest) = .error error →
      error.code = .invalidArgument := by
  intro error herror
  cases condition with
  | true => exact h error herror
  | false =>
    obtain rfl := Except.error.inj herror
    rfl

theorem limits_code (limits : Limits) :
    ∀ error, limits.validate = .error error → error.code = .invalidArgument := by
  unfold Limits.validate
  iterate 9 refine require_code ?_
  intro error herror
  unfold require at herror
  split at herror
  · cases herror
  · obtain rfl := Except.error.inj herror
    rfl

/-- A specification without participants is an invalid argument. -/
theorem unpeopled_code {spec : EnsembleSpec} {limits : Limits} (hlabel : spec.label = "")
    (htask : spec.taskClass = "") (hempty : spec.participants = []) :
    ∃ error, validateSpec spec limits = .error error ∧ error.code = .invalidArgument := by
  have hlabelled : checkBounded spec.label limits.maxLabelBytes "ensemble label" = .ok () := by
    rw [hlabel]
    exact require_eq_ok.mpr (by simp [isBoundedAscii])
  have htasked : checkBounded spec.taskClass limits.maxMetadataBytes "task class" = .ok () := by
    rw [htask]
    exact require_eq_ok.mpr (by simp [isBoundedAscii])
  unfold validateSpec
  cases hlimits : limits.validate with
  | error error => exact ⟨error, rfl, limits_code limits error hlimits⟩
  | ok _ =>
    cases hvalid : spec.id.valid with
    | false => exact ⟨_, rfl, rfl⟩
    | true =>
      rw [hlabelled, htasked, hempty]
      exact ⟨_, rfl, rfl⟩

theorem probe_refused (limits : Limits) (existing : Option EnsembleRecord) (id : EnsembleId) :
    ∃ error, admitSpec limits existing { id, generation := ⟨2⟩ } = .error error
      ∧ error ≠ identityExhaustion := by
  cases existing with
  | none => exact ⟨_, rfl, by simp [identityExhaustion]⟩
  | some e =>
    dsimp only [admitSpec, nextGeneration]
    cases hlast : e.spec.generation.value != lastWord with
    | false => exact ⟨_, rfl, by simp [identityExhaustion]⟩
    | true =>
      cases hnext : (!(⟨2⟩ : EnsembleGeneration).valid || ⟨2⟩ == e.spec.generation.next) with
      | false => exact ⟨_, rfl, by simp [identityExhaustion]⟩
      | true =>
        obtain ⟨error, herror, hcode⟩ := @unpeopled_code
          { id, generation := e.spec.generation.next } limits rfl rfl rfl
        refine ⟨error, ?_, fun heq => ?_⟩
        · change (validateSpec { id, generation := e.spec.generation.next } limits >>= _) = _
          rw [herror]
          rfl
        · rw [heq] at hcode
          cases hcode

theorem probe_exhausted {s : System} (h : s.fabric.core.ensembleIds.next = lastWord) :
    s.reply probe = .generation (.error identityExhaustion) := by
  have hassign : assignIdentity s.fabric.core {} = .error identityExhaustion := by
    rw [assignIdentity, if_neg (by decide), IdAllocator.allocate, if_pos h]
    rfl
  change Response.generation (defineEnsemble s.fabric { id := {}, generation := ⟨2⟩ }).2 = _
  rw [defineEnsemble, hassign]

/-- With identities left, a probe uses one up. -/
theorem probe_next {s : System} (h : s.fabric.core.ensembleIds.next ≠ lastWord) :
    (∃ error, s.reply probe = .generation (.error error) ∧ error ≠ identityExhaustion)
      ∧ (s.next probe).fabric.core.ensembleIds.next.toNat
        = s.fabric.core.ensembleIds.next.toNat + 1 := by
  have hallocate : s.fabric.core.ensembleIds.allocate
      = some (⟨s.fabric.core.ensembleIds.next⟩, ⟨s.fabric.core.ensembleIds.next + 1⟩) := by
    rw [IdAllocator.allocate, if_neg h]
  have hassign : assignIdentity s.fabric.core {}
      = .ok (⟨s.fabric.core.ensembleIds.next⟩,
          { s.fabric.core with ensembleIds := ⟨s.fabric.core.ensembleIds.next + 1⟩ }) := by
    rw [assignIdentity, if_neg (by decide), hallocate]
  let marked : Fabric := { s.fabric with core :=
    { s.fabric.core with ensembleIds := ⟨s.fabric.core.ensembleIds.next + 1⟩ } }
  obtain ⟨error, herror, hother⟩ := probe_refused s.fabric.config.limits
    (marked.find ⟨s.fabric.core.ensembleIds.next⟩) ⟨s.fabric.core.ensembleIds.next⟩
  have hdefine : defineEnsemble s.fabric { id := {}, generation := ⟨2⟩ }
      = (marked, .error error) := by
    rw [defineEnsemble, hassign]
    dsimp only
    rw [herror]
  refine ⟨⟨error, ?_, hother⟩, ?_⟩
  · change Response.generation (defineEnsemble s.fabric { id := {}, generation := ⟨2⟩ }).2 = _
    rw [hdefine]
  · change (defineEnsemble s.fabric { id := {}, generation := ⟨2⟩ }).1.core.ensembleIds.next.toNat
      = _
    rw [hdefine]
    exact (IdAllocator.allocate_spec hallocate).2

theorem run_probes {s : System} (n : Nat)
    (h : s.fabric.core.ensembleIds.next.toNat + n ≤ lastWord.toNat) :
    (s.run (List.replicate n probe)).fabric.core.ensembleIds.next.toNat
      = s.fabric.core.ensembleIds.next.toNat + n := by
  induction n generalizing s with
  | zero => rfl
  | succ n ih =>
    have hleft : s.fabric.core.ensembleIds.next ≠ lastWord := by
      intro hlast
      rw [hlast] at h
      omega
    have hnext := (probe_next hleft).2
    rw [List.replicate_succ, System.run, EventSystem.run_cons]
    have hrest := ih (s := s.next probe) (by omega)
    rw [hnext] at hrest
    rw [hrest]
    omega

/-- Where the mark is higher, the identities run out earlier. -/
theorem lower_mark_differs {s s' : System}
    (h : s.fabric.core.ensembleIds.next.toNat < s'.fabric.core.ensembleIds.next.toNat)
    (hbound : s'.fabric.core.ensembleIds.next.toNat ≤ lastWord.toNat) :
    ¬ SameBehaviour s s' := by
  intro hsame
  let n := lastWord.toNat - s'.fabric.core.ensembleIds.next.toNat
  have hlast : (s'.run (List.replicate n probe)).fabric.core.ensembleIds.next = lastWord := by
    apply UInt64.toNat_inj.mp
    rw [run_probes n (by omega)]
    omega
  have hleft : (s.run (List.replicate n probe)).fabric.core.ensembleIds.next ≠ lastWord := by
    intro heq
    have hmark := run_probes (s := s) n (by omega)
    rw [heq] at hmark
    omega
  obtain ⟨error, hreply, hother⟩ := (probe_next hleft).1
  have hanswers := hsame (List.replicate n probe) probe
  rw [probe_exhausted hlast, hreply] at hanswers
  exact hother (Except.error.inj (Response.generation.inj hanswers)).symm

/-- A rejected definition goes unnoticed exactly if it does not move the mark
of the ensemble identities; then nothing at all is different. -/
theorem rejected_definition_unnoticed_iff {s : System} {spec : EnsembleSpec} {error : Error}
    (h : (defineEnsemble s.fabric spec).2 = .error error) :
    (SameBehaviour s (s.next (.defineEnsemble spec)) ↔ s.fabric.core.keepsMark spec.id)
      ∧ (s.fabric.core.keepsMark spec.id → s.next (.defineEnsemble spec) = s) := by
  have hnext : s.next (.defineEnsemble spec)
      = { s with fabric :=
          { s.fabric with core := markedCore s.fabric.core spec.id } } := by
    change { s with fabric := (defineEnsemble s.fabric spec).1 } = _
    rw [rejected_definition h]
  rcases markedCore_cases s.fabric.core spec.id with ⟨hkeeps, hcore⟩ | ⟨hmoves, mark, hlt, hcore⟩
  · have hsame : s.next (.defineEnsemble spec) = s := by rw [hnext, hcore]
    refine ⟨iff_of_true ?_ hkeeps, fun _ => hsame⟩
    rw [hsame]
    exact fun _ _ => rfl
  · refine ⟨iff_of_false ?_ hmoves, fun hkeeps => absurd hkeeps hmoves⟩
    rw [hnext, hcore]
    refine lower_mark_differs hlt ?_
    have hbound := mark.toNat_lt
    change mark.toNat ≤ 2 ^ 64 - 1
    omega

namespace Sample

/-- One participant, which produces the candidates. -/
def lonelySpec : EnsembleSpec where
  id := {}
  participants := [participant 1 candidateRole]

/-- A first definition at a later generation, under the last identity that
can be handed out. -/
def hastySpec : EnsembleSpec where
  id := ⟨0xFFFFFFFFFFFFFFFE⟩
  generation := ⟨2⟩

end Sample

/-- A rejected definition under an identity that was used before goes
unnoticed. -/
theorem known_identity_unnoticed :
    let s := Sample.reached [.defineEnsemble Sample.lonelySpec]
    let spec : EnsembleSpec := { id := ⟨1⟩ }
    (SameBehaviour s (s.next (.defineEnsemble spec)) ↔ s.fabric.core.keepsMark spec.id)
      ∧ (s.fabric.core.keepsMark spec.id → s.next (.defineEnsemble spec) = s) := by
  intro s spec
  exact @rejected_definition_unnoticed_iff s spec
    ⟨.invalidArgument, "spec: an ensemble needs at least one participant"⟩ (by decide +kernel)

/-- A rejected definition uses up all identities. -/
theorem rejected_definition_noticed :
    let s := System.initial {}
    (defineEnsemble s.fabric Sample.hastySpec).2
        = .error ⟨.invalidArgument, "a new ensemble must start at generation 1"⟩
      ∧ s.reply (.defineEnsemble Sample.lonelySpec) = .generation (.ok ⟨1⟩)
      ∧ (s.next (.defineEnsemble Sample.hastySpec)).reply (.defineEnsemble Sample.lonelySpec)
        = .generation (.error identityExhaustion)
      ∧ ¬ SameBehaviour s (s.next (.defineEnsemble Sample.hastySpec)) := by
  intro s
  have hdefined : (defineEnsemble s.fabric Sample.lonelySpec).2 = .ok ⟨1⟩ := by decide +kernel
  have hexhausted : (defineEnsemble (s.next (.defineEnsemble Sample.hastySpec)).fabric
      Sample.lonelySpec).2 = .error identityExhaustion := by decide +kernel
  refine ⟨by decide +kernel, congrArg _ hdefined, congrArg _ hexhausted, fun hsame => ?_⟩
  have hreply : Response.generation (.error identityExhaustion) = .generation (.ok ⟨1⟩) :=
    (congrArg _ hexhausted.symm).trans
      ((hsame [] (.defineEnsemble Sample.lonelySpec)).trans (congrArg _ hdefined))
  cases Response.generation.inj hreply

end EnsembleFabric
