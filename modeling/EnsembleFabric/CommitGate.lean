import EnsembleFabric.Refinement.Runs

/-!
# What the commit gate checks

`commitResult` is handed a value that was computed earlier, or by anyone.
It checks that the value names the current execution and that the
execution may still publish. It does not look again at the candidate the
value names: whether the stored result is backed by the execution depends
on the value. This module says what that means for one call.

`Stores` is a call that stores its value, and `storesIn` finds the execution
it does so in from the state before the call. `CommitSound` is the property:
whatever the call stores as committed is backed by the execution in which it
is stored, the candidate under the stated generation with the stated content,
eligible by `check_eligibility` on the evidence now recorded. The value
`stillStands` where the records say so before the call, and the two agree
wherever content is what was admitted (`stillStands_iff`), which is an
invariant (`reachable_contentAdmitted`).

Which values still stand when they reach the gate is a question about runs
and is answered in `Overtaking`. A value that was prepared and whose
participant failed before the commit does not
(`commit_after_failure_unsound`).
-/

namespace EnsembleFabric

open EventSystem

/-! ## Content -/

/-- While there is no result, the content of a candidate is what was
admitted under the limits. -/
def ContentAdmitted (limits : Limits) (x : ExecutionRecord) : Prop :=
  x.result = none → ∀ c ∈ x.candidates, isContentState c.state = true → Content limits c

theorem CandidateStep.content {limits : Limits} {c c' : CandidateRecord}
    (h : CandidateStep limits c c')
    (hc : isContentState c.state = true → Content limits c)
    (hc' : isContentState c'.state = true) : Content limits c' := by
  cases h with
  | kept _ state payload digest =>
    have hold := hc (state ▸ hc')
    exact ⟨payload ▸ hold.nonempty, payload ▸ hold.bounded,
      digest.trans (hold.digest.trans (by rw [payload]))⟩
  | dispatched _ _ after =>
    rw [after] at hc'
    cases hc'
  | received _ _ _ content => exact content
  | closed _ _ _ content =>
    rw [content] at hc'
    cases hc'

theorem ContentAdmitted.of_same {limits : Limits} {x x' : ExecutionRecord}
    (h : ContentAdmitted limits x) (hresult : x'.result = x.result)
    (hcandidates : x'.candidates = x.candidates) : ContentAdmitted limits x' := by
  intro hn c hc
  exact h (hresult ▸ hn) c (hcandidates ▸ hc)

/-- Replacing a candidate by one without content keeps the others. -/
theorem ContentAdmitted.set {limits : Limits} {x : ExecutionRecord} {index : Nat}
    {c' : CandidateRecord} (h : ContentAdmitted limits x)
    (hc' : isContentState c'.state = false) :
    ContentAdmitted limits { x with candidates := x.candidates.set index c' } := by
  intro hn c hc hstate
  rcases List.mem_or_eq_of_mem_set hc with hold | rfl
  · exact h hn c hold hstate
  · rw [hc'] at hstate
    cases hstate

theorem ExecutionStep.contentAdmitted {sc : Scope} {e : EnsembleRecord} {x x' : ExecutionRecord}
    (h : ExecutionStep sc e x x') (hx : ContentAdmitted sc.limits x) :
    ContentAdmitted sc.limits x' := by
  cases h with
  | bookkeeping same => exact hx.of_same same.result same.candidates
  | cancel _ same => exact hx.of_same same.result same.candidates
  | candidates steps =>
    intro hn c' hc' hstate
    obtain ⟨c, hc, hstep⟩ := Slots.exists_left steps hc'
    exact hstep.content (hx hn c hc) hstate
  | drop _ _ _ after => exact hx.set (by rw [after]; rfl)
  | rewind _ _ _ _ _ _ after => exact hx.set (by rw [after]; rfl)
  | commit =>
    intro hn
    rw [storeResult_result] at hn
    cases hn
  | _ => exact hx.of_same rfl rfl

theorem reachable_contentAdmitted (config : FabricConfig) (events : List Event)
    (id : EnsembleId) :
    OfExecution (fun _ x => ContentAdmitted config.limits x)
      (((System.initial config).run events).fabric.view id) := by
  refine reachable_ofExecution (fun _ _ _ _ c hc => by cases hc) (fun h => h) (fun _ h => h)
    (fun h => h.contentAdmitted) (fun hstate h hn c hc hcontent => ?_) (fun _ _ h => h)
    (along_allows _ events) id
  rcases List.mem_append.mp hc with hold | hnew
  · exact h hn c hold hcontent
  · obtain rfl := List.mem_singleton.mp hnew
    rw [hstate] at hcontent
    cases hcontent

/-! ## The call that stores -/

/-- The execution a call stores its result in: the gate lets the value
through, and there is no result yet. -/
def storesIn (f : Fabric) (r : EnsembleResult) : Option (EnsembleRecord × ExecutionRecord) :=
  match commitTarget f r with
  | .error _ => none
  | .ok (e, x) =>
      if x.result.isNone && (commitAllowed e x).isOk && f.core.resultIds.allocate.isSome then
        some (e, x)
      else none

/-- The call stores `stored` in the execution `x`, which had no result. -/
structure Stores (f : Fabric) (r : EnsembleResult) (e : EnsembleRecord) (x : ExecutionRecord)
    (stored : EnsembleResult) : Prop where
  before : f.find r.ensemble = some e
  execution : e.execution = some x
  undecided : x.result = none
  after : ∃ e' x', (commitResult f r).1.find r.ensemble = some e' ∧ e'.execution = some x'
    ∧ x'.result = some stored

/-- The parts of a result that name and carry the selection. -/
structure SameSelection (r stored : EnsembleResult) : Prop where
  decision : stored.decision = r.decision
  candidate : stored.selectedCandidate = r.selectedCandidate
  generation : stored.selectedCandidateGeneration = r.selectedCandidateGeneration
  payload : stored.payload = r.payload
  digest : stored.payloadDigest = r.payloadDigest

theorem storeResult_selection (limits : Limits) (e : EnsembleRecord) (x : ExecutionRecord)
    (r : EnsembleResult) (id : ResultId) (sequence : Sequence) :
    SameSelection r (storeResult limits e x (stampedResult r id sequence)).2 := by
  unfold storeResult
  split <;> exact ⟨rfl, rfl, rfl, rfl, rfl⟩

theorem storesIn_eq_some {f : Fabric} {r : EnsembleResult} {e : EnsembleRecord}
    {x : ExecutionRecord} :
    storesIn f r = some (e, x) ↔ commitTarget f r = .ok (e, x) ∧ x.result = none
      ∧ commitAllowed e x = .ok () ∧ ∃ id ids, f.core.resultIds.allocate = some (id, ids) := by
  unfold storesIn
  split
  · rename_i heq
    simp [heq]
  · rename_i e₀ x₀ heq
    rw [heq]
    have hok : (commitAllowed e₀ x₀).isOk = true ↔ commitAllowed e₀ x₀ = .ok () := by
      cases commitAllowed e₀ x₀ <;> simp [Except.isOk, Except.toBool]
    have hids : f.core.resultIds.allocate.isSome = true
        ↔ ∃ id ids, f.core.resultIds.allocate = some (id, ids) := by
      simp [Option.isSome_iff_exists]
    split
    · rename_i hcond
      simp only [Bool.and_eq_true, Option.isNone_iff_eq_none, hok, hids] at hcond
      obtain ⟨⟨hnone, hallowed⟩, hallocated⟩ := hcond
      constructor
      · intro h
        obtain ⟨rfl, rfl⟩ := Prod.mk.injEq .. |>.mp (Option.some.inj h)
        exact ⟨rfl, hnone, hallowed, hallocated⟩
      · rintro ⟨h, -⟩
        exact congrArg some (Except.ok.inj h)
    · rename_i hcond
      constructor
      · intro h
        cases h
      · rintro ⟨h, hnone, hallowed, hallocated⟩
        obtain ⟨rfl, rfl⟩ := Prod.mk.injEq .. |>.mp (Except.ok.inj h)
        refine absurd ?_ hcond
        simp only [Bool.and_eq_true, Option.isNone_iff_eq_none, hok, hids]
        exact ⟨⟨hnone, hallowed⟩, hallocated⟩

/-- A call that stores does so in the execution `storesIn` names. -/
theorem Stores.storesIn {f : Fabric} {r : EnsembleResult} {e : EnsembleRecord}
    {x : ExecutionRecord} {stored : EnsembleResult} (h : Stores f r e x stored) :
    storesIn f r = some (e, x) ∧ SameSelection r stored := by
  obtain ⟨e', x', hafter, hx', hresult⟩ := h.after
  unfold commitResult at hafter
  split at hafter
  · rename_i refusal _
    -- a rejected call changes counters only
    have hsame : f.find r.ensemble = some e' := hafter
    obtain rfl := Option.some.inj (h.before.symm.trans hsame)
    obtain rfl := Option.some.inj (h.execution.symm.trans hx')
    rw [h.undecided] at hresult
    cases hresult
  · rename_i e₀ x₀ htarget
    have hfenced := commitTarget_eq_ok htarget
    obtain rfl := Option.some.inj (h.before.symm.trans hfenced.ensemble)
    obtain rfl := Option.some.inj (h.execution.symm.trans hfenced.execution)
    have hattempted : ∀ e'', (f.store r.ensemble
          (e.holding { x with commitAttempts := x.commitAttempts + 1 })).find r.ensemble
        = some e'' → e' ≠ e'' := by
      rintro _ hfind rfl
      rw [Fabric.find_store_self] at hfind
      obtain rfl := Option.some.inj hfind
      obtain rfl := Option.some.inj hx'
      rw [h.undecided] at hresult
      cases hresult
    simp only at hafter
    split at hafter
    · rename_i hstored
      rw [h.undecided] at hstored
      cases hstored
    · split at hafter
      · exact absurd rfl (hattempted e' hafter)
      · rename_i hallowed
        split at hafter
        · exact absurd rfl (hattempted e' hafter)
        · rename_i id ids hids
          rw [Fabric.find_store_self] at hafter
          obtain rfl := Option.some.inj hafter
          obtain rfl := Option.some.inj hx'
          rw [storeResult_result] at hresult
          obtain rfl := Option.some.inj hresult
          exact ⟨storesIn_eq_some.mpr ⟨htarget, h.undecided, hallowed, id, ids, hids⟩,
            storeResult_selection ..⟩

/-- A call that `storesIn` admits stores the value's selection. -/
theorem stores_of_storesIn {f : Fabric} {r : EnsembleResult} {e : EnsembleRecord}
    {x : ExecutionRecord} (h : storesIn f r = some (e, x)) :
    ∃ stored, Stores f r e x stored ∧ SameSelection r stored := by
  obtain ⟨htarget, hnone, hallowed, id, ids, hids⟩ := storesIn_eq_some.mp h
  have hfenced := commitTarget_eq_ok htarget
  have hallowed' : commitAllowed e { x with commitAttempts := x.commitAttempts + 1 } = .ok () :=
    hallowed
  have hcommit : ∃ x' stored, (commitResult f r).1.find r.ensemble = some (e.holding x')
      ∧ x'.result = some stored ∧ SameSelection r stored := by
    unfold commitResult
    simp only [htarget]
    split
    · rename_i hstored
      rw [hnone] at hstored
      cases hstored
    · split
      · rename_i hrefused
        rw [hallowed'] at hrefused
        cases hrefused
      · simp only [hids]
        exact ⟨_, _, Fabric.find_store_self .., storeResult_result .., storeResult_selection ..⟩
  obtain ⟨x', stored, hfind, hresult, hselection⟩ := hcommit
  exact ⟨stored, ⟨hfenced.ensemble, hfenced.execution, hnone, _, x', hfind, rfl, hresult⟩,
    hselection⟩

/-! ## Soundness of a commit -/

/-- `check_eligibility` on a candidate, under the policies of its ensemble
and the evidence now recorded. -/
def passesHardChecks (e : EnsembleRecord) (x : ExecutionRecord) (c : CandidateRecord) : Bool :=
  ((arbitrationInputs e x {}).eligibility (arbitrationInput e x c)).eligible

/-- The execution backs the selection of the result: the candidate exists
under the stated generation, holds the stated content and is eligible. -/
def Backed (e : EnsembleRecord) (x : ExecutionRecord) (r : EnsembleResult) : Prop :=
  ∃ c, x.candidate? r.selectedCandidate = some c
    ∧ c.generation = r.selectedCandidateGeneration ∧ isContentState c.state = true
    ∧ c.payload = r.payload ∧ c.payloadDigest = r.payloadDigest ∧ passesHardChecks e x c = true

/-- Whatever the call stores as committed is backed by the execution, in the
state in which it is stored. -/
def CommitSound (f : Fabric) (r : EnsembleResult) : Prop :=
  ∀ e x stored, Stores f r e x stored → stored.decision = .committed → Backed e x stored

/-- The value still describes the execution: the candidate it names has the
generation and the payload it carries and passes the hard checks, and its
digest is the digest of its own payload. -/
def stillStands (e : EnsembleRecord) (x : ExecutionRecord) (r : EnsembleResult) : Bool :=
  r.payloadDigest == fingerprintPayload r.payload
    && (x.candidate? r.selectedCandidate).any fun c =>
      c.generation == r.selectedCandidateGeneration && c.payload == r.payload
        && passesHardChecks e x c

/-- The call stores no committed result, or its value still stands. -/
def commitSupported (f : Fabric) (r : EnsembleResult) : Bool :=
  (storesIn f r).all fun (e, x) => r.decision != .committed || stillStands e x r

theorem passesHardChecks_content {e : EnsembleRecord} {x : ExecutionRecord}
    {c : CandidateRecord} (h : passesHardChecks e x c = true) :
    isContentState c.state = true :=
  (eligibility_iff.mp h).standing.content

/-- A value that still stands is backed, and the other way round, wherever
content is what was admitted. -/
theorem stillStands_iff {limits : Limits} {e : EnsembleRecord} {x : ExecutionRecord}
    {r stored : EnsembleResult} (hcontent : ContentAdmitted limits x) (hnone : x.result = none)
    (hsame : SameSelection r stored) : Backed e x stored ↔ stillStands e x r = true := by
  have hdigest : ∀ c, x.candidate? r.selectedCandidate = some c →
      passesHardChecks e x c = true → c.payloadDigest = fingerprintPayload c.payload :=
    fun c hc hpass => (hcontent hnone c (List.mem_of_find?_eq_some hc)
      (passesHardChecks_content hpass)).digest
  simp only [Backed, stillStands, hsame.candidate, hsame.generation, hsame.payload, hsame.digest,
    Bool.and_eq_true, beq_iff_eq, Option.any_eq_true]
  constructor
  · rintro ⟨c, hc, hgen, -, hpayload, hd, hpass⟩
    refine ⟨?_, c, hc, ⟨hgen, hpayload⟩, hpass⟩
    rw [← hd, hdigest c hc hpass, hpayload]
  · rintro ⟨hd, c, hc, ⟨hgen, hpayload⟩, hpass⟩
    refine ⟨c, hc, hgen, passesHardChecks_content hpass, hpayload, ?_, hpass⟩
    rw [hdigest c hc hpass, hpayload, hd]

theorem commitSound_of_content {f : Fabric} {limits : Limits} (r : EnsembleResult)
    (hcontent : OfExecution (fun _ x => ContentAdmitted limits x) (f.view r.ensemble)) :
    CommitSound f r ↔ commitSupported f r = true := by
  constructor
  · intro h
    rw [commitSupported, Option.all_eq_true]
    rintro ⟨e, x⟩ hstores
    obtain ⟨stored, hstored, hsame⟩ := stores_of_storesIn hstores
    cases hd : r.decision == .committed with
    | false => simp [bne, hd]
    | true =>
      have hdecision := hsame.decision.trans (beq_iff_eq.mp hd)
      have hbacked := h e x stored hstored hdecision
      have hadmitted := hcontent e x hstored.before hstored.execution
      simp [(stillStands_iff hadmitted hstored.undecided hsame).mp hbacked]
  · intro h e x stored hstored hdecision
    obtain ⟨hstores, hsame⟩ := hstored.storesIn
    have hadmitted := hcontent e x hstored.before hstored.execution
    rw [commitSupported, hstores] at h
    have hstands : stillStands e x r = true := by
      simpa [bne, ← hsame.decision, hdecision] using h
    exact (stillStands_iff hadmitted hstored.undecided hsame).mpr hstands

namespace Sample

/-- One participant whose candidate needs no evaluation. -/
def loneSpec : EnsembleSpec where
  id := ⟨1⟩
  label := "lone"
  participants := [participant 1 candidateRole]

/-- A result is prepared, and then the participant of its candidate fails. -/
def failureAfterPrepare : List Event :=
  start loneSpec ++ [content 1 1 [7], .prepareResult ⟨1⟩ ⟨1⟩,
    .reportParticipantFailure (authority 1) .unavailable "lost"]

end Sample

/-- A prepared result is stored as committed after its participant failed,
although its candidate no longer passes the hard checks: the gate compares
identities only. -/
theorem commit_after_failure_unsound :
    Sample.prepared (Sample.start Sample.loneSpec ++ [Sample.content 1 1 [7]])
        ∈ (Sample.reached Sample.failureAfterPrepare).prepared
      ∧ ¬ CommitSound (Sample.reached Sample.failureAfterPrepare).fabric
        (Sample.prepared (Sample.start Sample.loneSpec ++ [Sample.content 1 1 [7]])) := by
  refine ⟨by decide +kernel, fun h => ?_⟩
  have hsupported := (commitSound_of_content _ (reachable_contentAdmitted {}
    Sample.failureAfterPrepare _)).mp h
  revert hsupported
  decide +kernel

end EnsembleFabric
