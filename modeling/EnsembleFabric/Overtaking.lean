import EnsembleFabric.Conformance
import EnsembleFabric.Decision
import EnsembleFabric.Permanence
import EnsembleFabric.Settlement

/-!
# Values overtaken on their way to the gate

A prepared value is stored by a later call, and the gate does not look at its
candidate again. What a preparation selects is content, and content is never
retried, withdrawn or replaced while the execution is undecided: the slot
keeps its generation, its payload and its digest whatever happens. Only two
things that the checks of arbitration read can still change, who serves the
participant of the candidate and which evaluations of it are recorded.

So there are three ways to overtake a value while the gate would still take
it. A failure report takes the seat of the participant; an invalidation takes
every seat, and leaves an execution that has already failed to the gate; an
evaluation arrives with which the candidate fails the checks. Everything else
leaves the value standing (`commit_sound_until_overtaken`).

The invariant of a value is `StandsIn`: wherever an execution waits for it
(`Fabric.expects`), it stands. A preparation establishes it
(`prepared_supported`), and an event that does not overtake the value keeps
it (`Supported.next`), by what the event does to content (`KeepsContent`)
and to whoever serves (`ServesOn`). In the other direction each way of
overtaking is followed to the records it leaves, in which the candidate fails
the checks (`lost_unsound`, `judged_unsound`, `invalidated_unsound`).
-/

namespace EnsembleFabric

open List (Forall₂)
open EventSystem

/-! ## Waiting for a value -/

/-- The execution that waits for the value: the value names it, it has no
result, and no verdict on it excludes one. -/
def Fabric.expects (f : Fabric) (r : EnsembleResult) :
    Option (EnsembleRecord × ExecutionRecord) := do
  let e ← (f.find r.ensemble).filter fun e => e.spec.generation == r.ensembleGeneration
  let x ← (e.executionNamed r.execution).filter fun x =>
    x.result.isNone && (commitAllowed e x).isOk
  return (e, x)

/-- The checks of `expects`, as facts. -/
structure Expects (f : Fabric) (r : EnsembleResult) (e : EnsembleRecord) (x : ExecutionRecord) :
    Prop where
  ensemble : f.find r.ensemble = some e
  generation : e.spec.generation = r.ensembleGeneration
  execution : e.execution = some x
  executionId : x.id = r.execution
  undecided : x.result = none
  allowed : commitAllowed e x = .ok ()

theorem expects_eq_some {f : Fabric} {r : EnsembleResult} {e : EnsembleRecord}
    {x : ExecutionRecord} : f.expects r = some (e, x) ↔ Expects f r e x := by
  simp only [Fabric.expects, Option.bind_eq_bind, Option.bind_eq_some_iff,
    Option.filter_eq_some_iff, executionNamed_eq_some, Option.pure_def, Option.some.injEq,
    Prod.mk.injEq, beq_iff_eq, Bool.and_eq_true, Option.isNone_iff_eq_none, isOk_iff]
  constructor
  · rintro ⟨e', ⟨he, hgen⟩, x', ⟨⟨hx, hid⟩, hnone, hallowed⟩, rfl, rfl⟩
    exact ⟨he, hgen, hx, hid, hnone, hallowed⟩
  · intro h
    exact ⟨e, ⟨h.ensemble, h.generation⟩, x, ⟨⟨h.execution, h.executionId⟩, h.undecided, h.allowed⟩,
      rfl, rfl⟩

/-- A call that stores its value does so in the execution that waits for it. -/
theorem Expects.of_storesIn {f : Fabric} {r : EnsembleResult} {e : EnsembleRecord}
    {x : ExecutionRecord} (h : storesIn f r = some (e, x)) : Expects f r e x := by
  obtain ⟨htarget, hnone, hallowed, -⟩ := storesIn_eq_some.mp h
  have hfenced := commitTarget_eq_ok htarget
  exact ⟨hfenced.ensemble, hfenced.generation.symm, hfenced.execution, hfenced.executionId, hnone,
    hallowed⟩

/-! ## What overtakes a value -/

/-- The execution with the evaluation on record, and nothing counted yet. -/
def heardExecution (x : ExecutionRecord) (r : EvaluationRecord) : ExecutionRecord :=
  { x with evaluations := x.evaluations ++ [r] }

/-- With this evaluation on record the candidate fails the hard checks. -/
def Fabric.turnsAway (f : Fabric) (v : EvaluationSubmission) (e : EnsembleRecord)
    (x : ExecutionRecord) (c : CandidateRecord) : Bool :=
  match acceptEvaluation f v with
  | .error _ => false
  | .ok site =>
      !passesHardChecks e (heardExecution x (acceptedRecord f v site)) c

/-- The event takes from a candidate of an ensemble what its eligibility rests
on: the seat of its participant, or the evidence. -/
def System.undermines (s : System) (id : EnsembleId) (e : EnsembleRecord) (x : ExecutionRecord)
    (c : CandidateRecord) : Event → Bool
  | .reportParticipantFailure a _ _ =>
      a.ensemble == id && a.participant == c.participant && (admitFailureReport s.fabric a).isOk
  | .submitEvaluation v =>
      v.authority.evaluator.ensemble == id && s.fabric.turnsAway v e x c
  -- an invalidation closes an open execution to values, and no other
  | event => (s.invalidates event).isSome && x.status != .opened

/-- The event undermines the candidate that a committed value selects, while
its execution waits for the value. It is decided by the state before the event. -/
def System.overtakes (s : System) (r : EnsembleResult) (event : Event) : Bool :=
  r.decision == .committed && (s.fabric.expects r).any fun (e, x) =>
    (x.candidate? r.selectedCandidate).any fun c => s.undermines r.ensemble e x c event

/-! ## What leaves a candidate as it is -/

/-- The slot of a candidate as the gate and the hard checks see it. -/
structure SameContent (c c' : CandidateRecord) : Prop where
  id : c'.id = c.id
  generation : c'.generation = c.generation
  participant : c'.participant = c.participant
  state : c'.state = c.state
  current : c'.current = c.current
  payload : c'.payload = c.payload

theorem SameContent.refl (c : CandidateRecord) : SameContent c c := ⟨rfl, rfl, rfl, rfl, rfl, rfl⟩

theorem SameContent.trans {a b c : CandidateRecord} (h : SameContent a b)
    (h' : SameContent b c) : SameContent a c :=
  ⟨h'.id.trans h.id, h'.generation.trans h.generation, h'.participant.trans h.participant,
    h'.state.trans h.state, h'.current.trans h.current, h'.payload.trans h.payload⟩

/-- Every candidate with content stays, and so does the evidence about it. -/
structure KeepsContent (x x' : ExecutionRecord) : Prop where
  epoch : x'.coordinatorEpoch = x.coordinatorEpoch
  candidates : ∀ c ∈ x.candidates, isContentState c.state = true →
    (∃ c' ∈ x'.candidates, SameContent c c')
      ∧ evidenceFor x' c.id c.generation = evidenceFor x c.id c.generation

theorem KeepsContent.refl (x : ExecutionRecord) : KeepsContent x x :=
  ⟨rfl, fun c hc _ => ⟨⟨c, hc, .refl c⟩, rfl⟩⟩

theorem KeepsContent.trans {x y z : ExecutionRecord} (h : KeepsContent x y)
    (h' : KeepsContent y z) : KeepsContent x z := by
  refine ⟨h'.epoch.trans h.epoch, fun a ha hcontent => ?_⟩
  obtain ⟨⟨b, hb, hab⟩, hevidence⟩ := h.candidates a ha hcontent
  obtain ⟨⟨c, hc, hbc⟩, hevidence'⟩ := h'.candidates b hb (hab.state ▸ hcontent)
  rw [hab.id, hab.generation] at hevidence'
  exact ⟨⟨c, hc, hab.trans hbc⟩, hevidence'.trans hevidence⟩

theorem keepsContent_of_slots {x x' : ExecutionRecord}
    (hepoch : x'.coordinatorEpoch = x.coordinatorEpoch)
    (hslots : Forall₂ (fun c c' => isContentState c.state = true → SameContent c c')
      x.candidates x'.candidates)
    (hevaluations : x'.evaluations = x.evaluations) : KeepsContent x x' := by
  refine ⟨hepoch, fun c hc hcontent => ?_⟩
  obtain ⟨c', hc', hsame⟩ := Slots.exists_right hslots hc
  exact ⟨⟨c', hc', hsame hcontent⟩, by rw [evidenceFor, evidenceFor, hevaluations]⟩

theorem keepsContent_of_same {x x' : ExecutionRecord}
    (hepoch : x'.coordinatorEpoch = x.coordinatorEpoch) (hcandidates : x'.candidates = x.candidates)
    (hevaluations : x'.evaluations = x.evaluations) : KeepsContent x x' := by
  refine keepsContent_of_slots hepoch ?_ hevaluations
  rw [hcandidates]
  exact List.forall₂_same.mpr fun c _ _ => .refl c

theorem keepsContent_map {x x' : ExecutionRecord} {change : CandidateRecord → CandidateRecord}
    (hepoch : x'.coordinatorEpoch = x.coordinatorEpoch)
    (hcandidates : x'.candidates = x.candidates.map change)
    (hevaluations : x'.evaluations = x.evaluations)
    (hchange : ∀ c, isContentState c.state = true → SameContent c (change c)) :
    KeepsContent x x' := by
  refine keepsContent_of_slots hepoch ?_ hevaluations
  rw [hcandidates]
  exact Slots.forall₂_map fun c _ => hchange c

/-- One slot changes; content stays in it. -/
theorem keepsContent_set {x x' : ExecutionRecord} {index : Nat} {c c' : CandidateRecord}
    (hepoch : x'.coordinatorEpoch = x.coordinatorEpoch)
    (hc : x.candidates[index]? = some c)
    (hcandidates : x'.candidates = x.candidates.set index c')
    (hevaluations : x'.evaluations = x.evaluations)
    (h : isContentState c.state = true → SameContent c c') : KeepsContent x x' := by
  refine keepsContent_of_slots hepoch ?_ hevaluations
  rw [hcandidates]
  exact Slots.forall₂_set (fun d _ => .refl d) hc h

theorem not_content_of_inFlight {c : CandidateRecord} (h : c.inFlight = true) :
    isContentState c.state = false := by
  rcases permitsOutput_eq_true.mp h with hstate | hstate <;>
  · rw [hstate]
    rfl

/-- An attempt in flight is released, and the evidence about it withdrawn:
no other candidate has its identity. -/
theorem keepsContent_released {x : ExecutionRecord} {index : Nat} {c c' : CandidateRecord}
    (hdistinct : (x.candidates.map (·.id)).Nodup) (hc : x.candidates[index]? = some c)
    (hflight : c.inFlight = true) :
    KeepsContent x
      (supersedeCandidateEvidence { x with candidates := x.candidates.set index c' } c.id) := by
  refine ⟨rfl, fun d hd hcontent => ?_⟩
  have hne : d.id ≠ c.id := by
    intro heq
    have hsame : d = c := List.inj_on_of_nodup_map hdistinct hd (List.mem_of_getElem? hc) heq
    rw [hsame, not_content_of_inFlight hflight] at hcontent
    cases hcontent
  have hkept : KeepsContent x { x with candidates := x.candidates.set index c' } :=
    keepsContent_set rfl hc rfl rfl fun h => by
      rw [not_content_of_inFlight hflight] at h
      cases h
  obtain ⟨⟨d', hd', hsame⟩, -⟩ := hkept.candidates d hd hcontent
  exact ⟨⟨d', hd', hsame⟩, evidenceFor_supersede hne⟩

/-! ## Who serves a participant -/

/-- Whoever served the participant in an epoch still does. -/
def ServesOn (id : ParticipantId) (e e' : EnsembleRecord) : Prop :=
  ∀ epoch p, e.participant? id = some p → p.authoritative epoch = true →
    ∃ p', e'.participant? id = some p' ∧ p'.authoritative epoch = true
      ∧ p'.declaration = p.declaration ∧ p'.profile = p.profile

theorem ServesOn.refl (id : ParticipantId) (e : EnsembleRecord) : ServesOn id e e :=
  fun _ p hp hserves => ⟨p, hp, hserves, rfl, rfl⟩

theorem ServesOn.trans {id : ParticipantId} {a b c : EnsembleRecord} (h : ServesOn id a b)
    (h' : ServesOn id b c) : ServesOn id a c := by
  intro epoch p hp hserves
  obtain ⟨q, hq, hserves', hdeclaration, hprofile⟩ := h epoch p hp hserves
  obtain ⟨t, ht, hserves'', hdeclaration', hprofile'⟩ := h' epoch q hq hserves'
  exact ⟨t, ht, hserves'', hdeclaration'.trans hdeclaration, hprofile'.trans hprofile⟩

theorem authoritative_seated {p : ParticipantRecord} {epoch : CoordinatorEpoch}
    (h : p.authoritative epoch = true) : p.seated = true := by
  simp only [ParticipantRecord.authoritative, Bool.and_eq_true] at h
  simp only [ParticipantRecord.seated, Bool.and_eq_true]
  exact h.1

/-- Seats of the same status, whose holders keep their profiles. -/
theorem servesOn_of_seats {e e' : EnsembleRecord} (hseats : SameSeats e e')
    (hkeeps : KeepsSeats e e') (id : ParticipantId) : ServesOn id e e' := by
  intro epoch p hp hserves
  obtain ⟨p', hp', -, -, hstatus, hregistered, hepoch, hdeclaration⟩ := Slots.find?_follows
    (fun q : ParticipantRecord => q.id == id) (fun q : ParticipantRecord => q.id == id)
    (fun hsame => by rw [hsame.1]) hseats.participants hp
  obtain ⟨q, hq, hkept⟩ := Slots.find?_follows
    (fun q : ParticipantRecord => q.id == id) (fun q : ParticipantRecord => q.id == id)
    (fun hsame => by rw [hsame.id]) hkeeps hp
  obtain rfl := Option.some.inj (hp'.symm.trans hq)
  have hserves' : p'.authoritative epoch = true := by
    rw [ParticipantRecord.authoritative, hregistered, hstatus, hepoch]
    exact hserves
  exact ⟨p', hp', hserves', hdeclaration, (hkept.seated (authoritative_seated hserves')).2⟩

/-- A change of one seat that leaves whoever serves in it. -/
theorem servesOn_set {e : EnsembleRecord} {index : Nat} {p p' : ParticipantRecord}
    {id : ParticipantId} (hp : e.participants[index]? = some p) (hid : p'.id = p.id)
    (h : p.id = id → ∀ epoch, p.authoritative epoch = true → p'.authoritative epoch = true
      ∧ p'.declaration = p.declaration ∧ p'.profile = p.profile) :
    ServesOn id e { e with participants := e.participants.set index p' } := by
  intro epoch q hq hserves
  have hslots : Forall₂ (fun t t' : ParticipantRecord => t'.id = t.id ∧ (t.id = id →
      t.authoritative epoch = true → t'.authoritative epoch = true
        ∧ t'.declaration = t.declaration ∧ t'.profile = t.profile))
      e.participants (e.participants.set index p') :=
    Slots.forall₂_set (fun t => ⟨rfl, fun _ hserves => ⟨hserves, rfl, rfl⟩⟩) hp
      ⟨hid, fun heq => h heq epoch⟩
  obtain ⟨q', hq', -, hkept⟩ := Slots.find?_follows
    (fun t : ParticipantRecord => t.id == id) (fun t : ParticipantRecord => t.id == id)
    (fun hsame => by rw [hsame.1]) hslots hq
  have hqid : q.id = id := by simpa using List.find?_some hq
  exact ⟨q', hq', hkept hqid hserves⟩

theorem SameSeat.servesOn {e : EnsembleRecord} {index : Nat} {p p' : ParticipantRecord}
    (hp : e.participants[index]? = some p) (h : SameSeat p p') (id : ParticipantId) :
    ServesOn id e { e with participants := e.participants.set index p' } :=
  servesOn_of_seats (h.seats hp) (keepsSeats_set hp h.keeps rfl) id

/-! ## A value that still stands -/

theorem SameContent.summary {x x' : ExecutionRecord} {c c' : CandidateRecord}
    (h : SameContent c c')
    (hevidence : evidenceFor x' c.id c.generation = evidenceFor x c.id c.generation) :
    summarizeCandidateIn Double x' c' = summarizeCandidateIn Double x c := by
  have hevaluations : currentEvaluations x' c' = currentEvaluations x c := by
    rw [currentEvaluations_eq, currentEvaluations_eq, h.id, h.generation, hevidence]
  simp only [summarizeCandidateIn, hevaluations, h.id, h.generation]

/-- With the same evidence, only the standing of a candidate can eliminate it. -/
theorem passesHardChecks_of_standing {e e' : EnsembleRecord} {x x' : ExecutionRecord}
    {c c' : CandidateRecord} (hspec : e'.spec = e.spec)
    (hsummary : summarizeCandidateIn Double x' c' = summarizeCandidateIn Double x c)
    (hstanding : Standing (arbitrationInput e' x' c')) (h : passesHardChecks e x c = true) :
    passesHardChecks e' x' c' = true := by
  have hpasses := eligibility_iff.mp h
  refine eligibility_iff.mpr ⟨hstanding, ?_, ?_, ?_, ?_, ?_⟩
  all_goals
    simp only [arbitrationInputsIn, arbitrationInputIn, ArbitrationInputs.verifierGating,
      ArbitrationInputs.judgeGating, hspec]
    rw [hsummary]
  · exact hpasses.mandatory
  · exact hpasses.verified
  · exact hpasses.judged
  · exact hpasses.evaluated
  · exact hpasses.scored

/-- The hard checks see the candidate as they did. -/
theorem passesHardChecks_of {e e' : EnsembleRecord} {x x' : ExecutionRecord}
    {c c' : CandidateRecord} (hspec : e'.spec = e.spec)
    (hepoch : x'.coordinatorEpoch = x.coordinatorEpoch) (hsame : SameContent c c')
    (hevidence : evidenceFor x' c.id c.generation = evidenceFor x c.id c.generation)
    (hserves : ServesOn c.participant e e') (h : passesHardChecks e x c = true) :
    passesHardChecks e' x' c' = true := by
  have hstanding := (eligibility_iff.mp h).standing
  obtain ⟨p, hp, hauthoritative⟩ := (Option.any_eq_true _ _).mp hstanding.authoritative
  obtain ⟨p', hp', hauthoritative', hdeclaration, hprofile⟩ := hserves _ p hp hauthoritative
  have hseat : ∀ test : ParticipantRecord → Bool, (∀ q q' : ParticipantRecord,
      q'.declaration = q.declaration → q'.profile = q.profile → test q' = test q) →
      (e.participant? c.participant).any test = true →
      (e'.participant? c'.participant).any test = true := by
    intro test htest hany
    rw [hsame.participant, hp']
    rw [hp] at hany
    exact (htest p p' hdeclaration hprofile).trans hany
  refine passesHardChecks_of_standing hspec (hsame.summary hevidence) ⟨?_, ?_, ?_, ?_, ?_⟩ h
  · change (c'.current && c'.generation.value != 0) = true
    rw [hsame.current, hsame.generation]
    exact hstanding.current
  · exact (congrArg isContentState hsame.state).trans hstanding.content
  · change (e'.participant? c'.participant).any (·.authoritative x'.coordinatorEpoch) = true
    rw [hsame.participant, hp', hepoch]
    exact hauthoritative'
  · exact hseat _ (fun q q' hd hprof => by rw [hd, hprof]) hstanding.compatible
  · exact hseat _ (fun q q' hd _ => by rw [hd]) hstanding.selectable

theorem stillStands_eq_true {e : EnsembleRecord} {x : ExecutionRecord} {r : EnsembleResult} :
    stillStands e x r = true ↔ r.payloadDigest = fingerprintPayload r.payload
      ∧ ∃ c, x.candidate? r.selectedCandidate = some c
        ∧ (c.generation = r.selectedCandidateGeneration ∧ c.payload = r.payload)
        ∧ passesHardChecks e x c = true := by
  simp only [stillStands, Bool.and_eq_true, beq_iff_eq, Option.any_eq_true]

/-- Content that is kept is found under its identity. -/
theorem KeepsContent.found {x x' : ExecutionRecord} {id : CandidateId} {c : CandidateRecord}
    (h : KeepsContent x x') (hdistinct : (x'.candidates.map (·.id)).Nodup)
    (hc : x.candidate? id = some c) (hcontent : isContentState c.state = true) :
    ∃ c', x'.candidate? id = some c' ∧ SameContent c c'
      ∧ evidenceFor x' c.id c.generation = evidenceFor x c.id c.generation := by
  obtain ⟨⟨c', hc', hsame⟩, hevidence⟩ :=
    h.candidates c (List.mem_of_find?_eq_some hc) hcontent
  have hid : c.id = id := by simpa using List.find?_some hc
  refine ⟨c', ?_, hsame, hevidence⟩
  rw [← hid, ← hsame.id]
  exact Slots.find?_of_nodup hdistinct hc'

/-- What keeps the content and whoever serves its participant keeps the value
standing. -/
theorem stillStands_of {e e' : EnsembleRecord} {x x' : ExecutionRecord} {r : EnsembleResult}
    (hspec : e'.spec = e.spec)
    (hcontent : KeepsContent x x') (hdistinct : (x'.candidates.map (·.id)).Nodup)
    (hserves : ∀ c, x.candidate? r.selectedCandidate = some c → ServesOn c.participant e e')
    (h : stillStands e x r = true) : stillStands e' x' r = true := by
  obtain ⟨hdigest, c, hc, ⟨hgeneration, hpayload⟩, hpasses⟩ := stillStands_eq_true.mp h
  obtain ⟨c', hfound, hsame, hevidence⟩ :=
    hcontent.found hdistinct hc (passesHardChecks_content hpasses)
  exact stillStands_eq_true.mpr ⟨hdigest, c', hfound, ⟨hsame.generation.trans hgeneration,
    hsame.payload.trans hpayload⟩, passesHardChecks_of hspec hcontent.epoch hsame hevidence
      (hserves c hc) hpasses⟩

/-! ## Releasing the work of a participant -/

theorem rewound_keepsContent {x : ExecutionRecord} {index : Nat} {c c' : CandidateRecord}
    (hdistinct : (x.candidates.map (·.id)).Nodup) (hc : x.candidates[index]? = some c)
    (hflight : c.inFlight = true) (hid : c'.id = c.id) (e : EnsembleRecord) :
    KeepsContent x (rewindCandidateForRetry e x index c').2 := by
  rw [rewindCandidateForRetry, hid]
  exact keepsContent_released hdistinct hc hflight

/-- Only attempts in flight are released, and their slots keep their
identities. -/
theorem handleParticipantFailure_keepsContent (e : EnsembleRecord) (x : ExecutionRecord)
    (p : ParticipantRecord) (kind : ParticipantFailureKind) (detail : String)
    (hdistinct : (x.candidates.map (·.id)).Nodup) :
    KeepsContent x (handleParticipantFailure e x p kind detail).2 := by
  refine (Threaded.foldl_related (f := releaseCandidate p kind detail)
    (R := fun a b : EnsembleRecord × ExecutionRecord => (a.2.candidates.map (·.id)).Nodup →
      KeepsContent a.2 b.2 ∧ b.2.candidates.map (·.id) = a.2.candidates.map (·.id))
    (fun a _ => ⟨.refl _, rfl⟩) ?_ ?_ (e, x) hdistinct).1
  · intro a b c hab hbc ha
    obtain ⟨hkept, hids⟩ := hab ha
    obtain ⟨hkept', hids'⟩ := hbc (hids ▸ ha)
    exact ⟨hkept.trans hkept', hids'.trans hids⟩
  · rintro ⟨e, x⟩ index - hdistinct
    unfold releaseCandidate
    simp only
    split
    · exact ⟨.refl _, rfl⟩
    · rename_i c hc
      split
      · exact ⟨.refl _, rfl⟩
      · rename_i hmine
        have hflight : c.inFlight = true := by
          simp only [not_or, Bool.not_eq_false] at hmine
          exact hmine.2.2
        split
        · refine ⟨rewound_keepsContent hdistinct hc hflight ?_ e, Slots.map_key_set hc rfl⟩
          rfl
        · exact ⟨keepsContent_released hdistinct hc hflight, Slots.map_key_set hc rfl⟩

/-! ## An advance -/

theorem markElimination_sameContent (ranking : List CandidateRanking) (c : CandidateRecord) :
    SameContent c (markElimination ranking c) := by
  rw [markElimination_eq ranking c]
  exact ⟨rfl, rfl, rfl, rfl, rfl, rfl⟩

theorem computeReports_keepsContent (e : EnsembleRecord) (x : ExecutionRecord) :
    KeepsContent x (computeReports e x) :=
  keepsContent_map rfl (computeReports_candidates ..) rfl fun c _ => markElimination_sameContent _ c

namespace AdvanceState

/-- Declaring candidates adds slots. -/
theorem declareMembers_keepsContent (limits : Limits) (stage : StageSpec)
    (ids : List ParticipantId) (s : AdvanceState) :
    KeepsContent s.execution
      (Threaded.final (ids.foldlM (declareMember limits stage) s)).execution := by
  refine Threaded.final_foldlM
    (R := fun a b : AdvanceState => KeepsContent a.execution b.execution)
    (fun _ => .refl _) KeepsContent.trans (fun m id _ => ?_) s
  unfold declareMember
  split
  · exact .refl _
  · split
    · exact .refl _
    · split
      · exact .refl _
      · split
        · exact .refl _
        · exact ⟨rfl, fun c hc _ => ⟨⟨c, List.mem_append_left _ hc, .refl c⟩, rfl⟩⟩

/-- A declared candidate holds no content. -/
theorem not_content_of_declared {c : CandidateRecord} (h : c.state = .declared) :
    isContentState c.state = false := by
  rw [h]
  rfl

theorem adopt_keepsContent {stage : StageSpec} {s : AdvanceState} {index : Nat}
    {c : CandidateRecord} {p : ParticipantRecord} (h : DispatchTarget stage s index c p) :
    KeepsContent s.execution (s.adopt index c p).execution :=
  keepsContent_set rfl h.at_ rfl rfl fun _ => ⟨rfl, rfl, rfl, rfl, rfl, rfl⟩

theorem AdvanceStep.keepsContent {limits : Limits} {s s' : AdvanceState}
    (h : AdvanceStep limits s s') (hdistinct : (s.execution.candidates.map (·.id)).Nodup) :
    KeepsContent s.execution s'.execution := by
  cases h with
  | round | completed => exact keepsContent_of_same rfl rfl rfl
  | @declared _ stage _ undeclared result =>
    obtain ⟨m, hm, rfl⟩ := declareStage_eq_ok undeclared result
    have hmembers := declareMembers_keepsContent limits stage stage.participants s
    rw [hm] at hmembers
    exact hmembers.trans (keepsContent_of_same rfl rfl rfl)
  | adopted _ _ target => exact adopt_keepsContent target
  | @stranded stage index c p _ _ target =>
    have hat := setCandidate_get target.at_ (adoptedCandidate c p)
    have hids : (s.adopt index c p).execution.candidates.map (·.id)
        = s.execution.candidates.map (·.id) := Slots.map_key_set target.at_ rfl
    exact (adopt_keepsContent target).trans (keepsContent_released (hids ▸ hdistinct) hat
      (permitsOutput_eq_true.mpr (.inl target.state)))
  | @dispatched stage index c p _ _ target =>
    have hat := setCandidate_get target.at_ (adoptedCandidate c p)
    refine (adopt_keepsContent target).trans (keepsContent_set rfl hat rfl rfl fun hcontent => ?_)
    rw [not_content_of_declared (c := adoptedCandidate c p) target.state] at hcontent
    cases hcontent
  | reopened =>
    unfold reopenPlanning
    split <;> exact keepsContent_of_same rfl rfl rfl
  | planned _ incomplete result =>
    obtain ⟨done, added, hplans, -⟩ := planEvaluations_plans incomplete
    rw [result, Threaded.final_ok] at hplans
    exact keepsContent_of_same (by rw [hplans.execution]) (by rw [hplans.execution])
      (by rw [hplans.execution])
  | emitted index =>
    obtain ⟨-, hexecution | ⟨p, p', -, -, hexecution⟩⟩ := emitOne_execution s index <;>
    exact keepsContent_of_same (by rw [hexecution]) (by rw [hexecution]) (by rw [hexecution])
  | reported => exact computeReports_keepsContent _ _
  | activated _ decision =>
    rw [(activateFallback_eq decision).1]
    exact keepsContent_of_same rfl rfl rfl

theorem AdvanceStop.keepsContent {limits : Limits} {s s' : AdvanceState} {error : Error}
    (h : AdvanceStop limits s (error, s')) : KeepsContent s.execution s'.execution := by
  cases h with
  | @undeclared stage _ undeclared result =>
    have hmembers := declareMembers_keepsContent limits stage stage.participants s
    rwa [declareStage_eq_error undeclared result] at hmembers
  | unplanned _ incomplete result =>
    obtain ⟨done, added, hplans, -⟩ := planEvaluations_plans incomplete
    rw [result, Threaded.final_error] at hplans
    exact keepsContent_of_same (by rw [hplans.execution]) (by rw [hplans.execution])
      (by rw [hplans.execution])

end AdvanceState

open AdvanceState in
/-- An advance keeps the content it finds, and whoever serves. -/
theorem advanceOpen_keepsContent (limits : Limits) (core : Core) (e : EnsembleRecord)
    (x : ExecutionRecord) (hstaged : (advanceStart core e x).Staged) :
    KeepsContent x (advanceOpen limits core e x).1.execution
      ∧ ∀ id, ServesOn id e (advanceOpen limits core e x).1.ensemble := by
  have hstart : (advanceStart core e x).Staged ∧ KeepsContent x (advanceStart core e x).execution
      ∧ ∀ id, ServesOn id e (advanceStart core e x).ensemble :=
    ⟨hstaged, .refl x, fun _ => .refl _ _⟩
  have hsteps : ∀ {s}, AdvanceSteps limits (advanceStart core e x) s →
      s.Staged ∧ KeepsContent x s.execution ∧ ∀ id, ServesOn id e s.ensemble := fun hsteps =>
    advanceSteps_keep (P := fun s => s.Staged ∧ KeepsContent x s.execution
        ∧ ∀ id, ServesOn id e s.ensemble)
      (fun hstep ⟨hs, hkeeps, hserves⟩ => ⟨hstep.staged hs,
        hkeeps.trans (hstep.keepsContent hs.barrier.distinct),
        fun id => (hserves id).trans (servesOn_of_seats hstep.keeps_seats hstep.keepsBoth.1 id)⟩)
      hsteps hstart
  have hends := advanceOpen_ends limits core e x
  generalize advanceOpen limits core e x = out at hends ⊢
  cases hends with
  | @settled s steps =>
    obtain ⟨-, hkeeps, hserves⟩ := hsteps steps
    exact ⟨hkeeps.trans (computeReports_keepsContent _ _), hserves⟩
  | @stopped m error s steps stop =>
    obtain ⟨-, hkeeps, hserves⟩ := hsteps steps
    exact ⟨hkeeps.trans stop.keepsContent, fun id =>
      (hserves id).trans (servesOn_of_seats stop.planStep.2 stop.keepsBoth.1 id)⟩

/-! ## One event -/

/-- The gate is open to an execution that is open or has failed, and that
nobody cancelled. -/
theorem commitAllowed_of {e : EnsembleRecord} {x : ExecutionRecord}
    (hlive : e.superseded = false) (hcancelled : x.cancellationRequested = false)
    (hstatus : x.status = .opened ∨ x.status = .failed) : commitAllowed e x = .ok () := by
  rcases hstatus with hstatus | hstatus <;>
  · rw [commitAllowed, hlive, hcancelled, hstatus]
    rfl

/-- A seat is taken from somebody else. -/
theorem lost_servesOn {e : EnsembleRecord} {lost id : ParticipantId} {seat : Seat}
    (hseat : SeatAt e lost seat) (hne : lost ≠ id) (kind : ParticipantFailureKind)
    (detail : String) :
    ServesOn id e (seat.write (lostParticipant seat.participant kind detail)) := by
  have hid := hseat.id
  obtain rfl := hseat.ensemble
  exact servesOn_set hseat.get rfl fun heq => absurd (hid.symm.trans heq) hne

/-- Nobody serves from a vacant seat. -/
theorem seated_servesOn {e : EnsembleRecord} {id other : ParticipantId} {seat : Seat}
    (hseat : SeatAt e other seat)
    (hvacant : (seat.participant.registered && seat.participant.status == .current) = false)
    (r : ParticipantRegistration) :
    ServesOn id e (seat.write (seatedParticipant seat.participant r)) := by
  obtain rfl := hseat.ensemble
  refine servesOn_set hseat.get rfl fun _ epoch hserves => ?_
  have hseated : (seat.participant.registered && seat.participant.status == .current) = true :=
    authoritative_seated hserves
  rw [hvacant] at hseated
  cases hseated

/-- The execution waits after the event only if it did before, and a value
that stood then still stands. -/
structure Sustains (r : EnsembleResult) (e e' : EnsembleRecord) (x x' : ExecutionRecord) :
    Prop where
  allowed : commitAllowed e x = .ok ()
  stands : stillStands e x r = true → stillStands e' x' r = true

theorem not_undermines {s : System} {r : EnsembleResult} {event : Event} {e : EnsembleRecord}
    {x : ExecutionRecord} {c : CandidateRecord} (hdecision : r.decision = .committed)
    (hexpects : Expects s.fabric r e x) (hc : x.candidate? r.selectedCandidate = some c)
    (hspared : s.overtakes r event = false) : s.undermines r.ensemble e x c event = false := by
  rw [System.overtakes, hdecision, expects_eq_some.mpr hexpects] at hspared
  simpa only [Option.any_some, hc, BEq.rfl, Bool.true_and] using hspared

theorem heard_keepsContent {f : Fabric} {v : EvaluationSubmission} {site : EvaluationSite}
    (h : EvaluationAccepted f v site) (r : EvaluationRecord) :
    KeepsContent (heardExecution site.execution r) (evaluatedExecution site r) :=
  keepsContent_set rfl h.candidateAt rfl rfl fun _ => ⟨rfl, rfl, rfl, rfl, rfl, rfl⟩

/-- An accepted evaluation that does not turn the candidate away leaves the
value standing. -/
theorem evaluated_sustains {f : Fabric} {v : EvaluationSubmission} {site : EvaluationSite}
    {p : ParticipantRecord} {r : EnsembleResult} (haccept : acceptEvaluation f v = .ok site)
    (hseat : SameSeat site.seat.participant p)
    (hdistinct : ((evaluatedExecution site (acceptedRecord f v site)).candidates.map
      (·.id)).Nodup)
    (hkept : ∀ c, site.execution.candidate? r.selectedCandidate = some c →
      f.turnsAway v site.seat.ensemble site.execution c = false)
    (h : stillStands site.seat.ensemble site.execution r = true) :
    stillStands ((site.seat.write p).holding (evaluatedExecution site (acceptedRecord f v site)))
      (evaluatedExecution site (acceptedRecord f v site)) r = true := by
  have haccepted := acceptEvaluation_eq_ok haccept
  -- with the evaluation alone the checks are passed, and the rest are counters
  have hheard : stillStands site.seat.ensemble
      (heardExecution site.execution (acceptedRecord f v site)) r = true := by
    obtain ⟨hdigest, c, hc, hmatch, -⟩ := stillStands_eq_true.mp h
    refine stillStands_eq_true.mpr ⟨hdigest, c, hc, hmatch, ?_⟩
    have hpasses := hkept c hc
    rw [Fabric.turnsAway, haccept] at hpasses
    simpa using hpasses
  exact stillStands_of (e := site.seat.ensemble) rfl (heard_keepsContent haccepted _) hdistinct
    (fun c _ => hseat.servesOn haccepted.seat.get c.participant) hheard

theorem undermines_of_invalidates {s : System} {event : Event} {reason : String}
    (h : s.invalidates event = some reason) (id : EnsembleId) (e : EnsembleRecord)
    (x : ExecutionRecord) (c : CandidateRecord) :
    s.undermines id e x c event = (x.status != .opened) := by
  have hsome : (s.invalidates event).isSome = true := by rw [h, Option.isSome_some]
  cases event with
  | invalidateDynamicAuthority text =>
    change ((s.invalidates (.invalidateDynamicAuthority text)).isSome && _) = _
    rw [hsome]
    rfl
  | resume client boot =>
    change ((s.invalidates (.resume client boot)).isSome && _) = _
    rw [hsome]
    rfl
  | _ => cases h

/-- What one event makes of a value its execution waits for. -/
theorem Written.sustains {s : System} {event : Event} {r : EnsembleResult}
    {e e' : EnsembleRecord} {x x' : ExecutionRecord} (h : Written s event r.ensemble e e')
    (hnamed : Named s.fabric) (he : s.fabric.find r.ensemble = some e)
    (hx : e.execution = some x) (hx' : e'.execution = some x') (hid : x'.id = x.id)
    (hnone' : x'.result = none) (hallowed' : commitAllowed e' x' = .ok ())
    (hlive : e.superseded = false) (hcancelled : x.cancellationRequested = false)
    (hstaged : x.status = .opened → (advanceStart s.fabric.core e x).Staged)
    (hdistinct : (x.candidates.map (·.id)).Nodup)
    (hdistinct' : (x'.candidates.map (·.id)).Nodup)
    (hspared : commitAllowed e x = .ok () → ∀ c, x.candidate? r.selectedCandidate = some c →
      s.undermines r.ensemble e x c event = false) : Sustains r e e' x x' := by
  obtain ⟨-, hnotCancelled', hnotSuperseded', hlive', hnotAwaiting'⟩ :=
    commitAllowed_eq_ok hallowed'
  -- the record that an operation located is the one of the value
  have hsameEnsemble : ∀ {id : EnsembleId}, s.fabric.find id = some e → id = r.ensemble :=
    fun hfind => (hnamed _ _ hfind).symm.trans (hnamed _ _ he)
  have hnoContent : ∀ {c : CandidateRecord}, c.state = .dispatched →
      isContentState c.state = true → False := fun hstate hcontent => by
    rw [hstate] at hcontent
    cases hcontent
  cases h with
  | redefined => cases hx'
  | superseded => cases hlive'
  | @seated q seat registers at_ admits =>
    obtain rfl := at_.ensemble
    obtain rfl := Option.some.inj (hx.symm.trans hx')
    obtain ⟨-, -, -, -, hvacant⟩ := admitRegistration_eq_ok admits
    exact ⟨hallowed', stillStands_of rfl (.refl x) hdistinct fun c _ =>
      seated_servesOn at_ hvacant q⟩
  | started _ _ _ later =>
    obtain rfl := Option.some.inj hx'
    obtain ⟨rfl, hlast⟩ := later x hx
    have hlt := StrongId.lt_next hlast
    rw [show x.id.next = x.id from hid] at hlt
    exact absurd hlt (UInt64.lt_irrefl _)
  | withdrawn _ before status =>
    obtain rfl := Option.some.inj hx'
    exact absurd status hnotCancelled'
  | closed =>
    obtain rfl := Option.some.inj hx'
    exact absurd rfl hnotSuperseded'
  | @advanced y _ _ before status _ result =>
    subst result
    obtain rfl := Option.some.inj (hx.symm.trans before)
    obtain rfl := Option.some.inj hx'
    obtain ⟨hkeeps, hserves⟩ := advanceOpen_keepsContent s.fabric.config.limits s.fabric.core e x
      (hstaged status)
    exact ⟨commitAllowed_of hlive hcancelled (.inl status),
      stillStands_of (advanceOpen_spec ..) hkeeps hdistinct' fun c _ => hserves c.participant⟩
  | @received _ l _ _ accept ensemble _ seat =>
    subst ensemble
    obtain ⟨hlocated, hstate⟩ := acceptCandidate_eq_ok accept
    obtain rfl := Option.some.inj (hx.symm.trans hlocated.fenced.execution)
    obtain rfl := Option.some.inj hx'
    refine ⟨hallowed', stillStands_of rfl (keepsContent_set rfl hlocated.at_ rfl rfl fun hcontent =>
      (hnoContent hstate hcontent).elim) hdistinct' fun c _ => ?_⟩
    exact seat.servesOn hlocated.seat.get c.participant
  | @abstained _ l _ _ _ _ accept ensemble seat =>
    subst ensemble
    obtain ⟨hlocated, hstate⟩ := acceptCandidate_eq_ok accept
    obtain rfl := Option.some.inj (hx.symm.trans hlocated.fenced.execution)
    obtain rfl := Option.some.inj hx'
    refine ⟨hallowed', stillStands_of rfl (keepsContent_set rfl hlocated.at_ rfl rfl fun hcontent =>
      (hnoContent hstate hcontent).elim) hdistinct' fun c _ => ?_⟩
    exact seat.servesOn hlocated.seat.get c.participant
  | @retried _ l kind _ accept ensemble =>
    subst ensemble
    obtain ⟨hlocated, hstate⟩ := acceptCandidate_eq_ok accept
    obtain rfl := Option.some.inj (hx.symm.trans hlocated.fenced.execution)
    obtain rfl := Option.some.inj hx'
    refine ⟨hallowed', stillStands_of rfl (rewound_keepsContent hdistinct hlocated.at_
      (permitsOutput_eq_true.mpr (.inr hstate)) rfl l.seat.ensemble) hdistinct' fun c _ => ?_⟩
    exact servesOn_of_seats (rewindCandidateForRetry_seats ..)
      (rewindCandidateForRetry_keepsOffers hlocated.at_ rfl rfl _).1 c.participant
  | @dropped _ l kind _ accept ensemble =>
    subst ensemble
    obtain ⟨hlocated, hstate⟩ := acceptCandidate_eq_ok accept
    obtain rfl := Option.some.inj (hx.symm.trans hlocated.fenced.execution)
    obtain rfl := Option.some.inj hx'
    refine ⟨hallowed', stillStands_of rfl (keepsContent_released hdistinct hlocated.at_
      (permitsOutput_eq_true.mpr (.inr hstate))) hdistinct' fun c _ => ?_⟩
    exact servesOn_of_seats (failCandidate_seats l.seat.ensemble l.execution l.index l.candidate
        (failureError kind) s!"participant reported {kind.toString}")
      (failCandidate_keepsOffers hlocated.at_ _ _ _).1 c.participant
  | @evaluated v site p submits accept ensemble seat =>
    subst ensemble submits
    have haccepted := acceptEvaluation_eq_ok accept
    obtain rfl := Option.some.inj (hx.symm.trans haccepted.execution)
    obtain rfl := Option.some.inj hx'
    have hallowed : commitAllowed site.seat.ensemble site.execution = .ok () := hallowed'
    refine ⟨hallowed, evaluated_sustains accept seat hdistinct' fun c hc => ?_⟩
    have hkept := hspared hallowed c hc
    simpa [System.undermines, hsameEnsemble haccepted.ensemble] using hkept
  | @lost a seat kind detail reports admits ensemble =>
    subst ensemble reports
    obtain rfl := Option.some.inj (hx.symm.trans hx')
    obtain ⟨hfind, hat⟩ := admitFailureReport_eq_ok admits
    have hallowed : commitAllowed seat.ensemble x = .ok () := hallowed'
    refine ⟨hallowed, stillStands_of rfl (.refl x) hdistinct fun c hc => ?_⟩
    have hkept := hspared hallowed c hc
    refine lost_servesOn hat ?_ kind detail
    simpa [System.undermines, hsameEnsemble hfind, admits, Except.isOk, Except.toBool] using hkept
  | @released a seat kind detail y reports admits ensemble before status =>
    subst ensemble reports
    obtain rfl := Option.some.inj (hx.symm.trans before)
    obtain ⟨hfind, hat⟩ := admitFailureReport_eq_ok admits
    have hallowed := commitAllowed_of hlive hcancelled (.inl status)
    let lost := lostParticipant seat.participant kind detail
    have hspec := (handleParticipantFailure_keeps (seat.write lost) x lost kind detail).1
    have hkeeps := handleParticipantFailure_keepsContent (seat.write lost) x lost kind detail
      hdistinct
    have hseats := (handleParticipantFailure_plans (seat.write lost) x lost kind detail).1
    have hkept := (handleParticipantFailure_keepsOffers (seat.write lost) x lost kind detail).1
    obtain rfl := Option.some.inj hx'
    refine ⟨hallowed, stillStands_of hspec (hkeeps.trans ?_) hdistinct' fun c hc => ?_⟩
    · split <;> exact keepsContent_of_same rfl rfl rfl
    · have hother := hspared hallowed c hc
      refine (lost_servesOn hat ?_ kind detail).trans
        (servesOn_of_seats hseats hkept c.participant)
      simpa [System.undermines, hsameEnsemble hfind, admits, Except.isOk, Except.toBool]
        using hother
  | cancelled =>
    obtain rfl := Option.some.inj hx'
    exact absurd rfl hnotCancelled'
  | @invalidated reason invalidates =>
    obtain ⟨y, hy, rfl⟩ := Option.map_eq_some_iff.mp hx'
    obtain rfl := Option.some.inj (hx.symm.trans hy)
    by_cases hopen : x.status = .opened
    · rw [invalidatedExecution, if_pos hopen] at hnotAwaiting'
      exact absurd rfl hnotAwaiting'
    · rw [invalidatedExecution, if_neg hopen] at hallowed'
      have hallowed : commitAllowed e x = .ok () := hallowed'
      refine ⟨hallowed, fun hstands => ?_⟩
      obtain ⟨-, c, hc, -⟩ := stillStands_eq_true.mp hstands
      have hother := hspared hallowed c hc
      rw [undermines_of_invalidates invalidates] at hother
      simp [hopen] at hother
  | @reported y _ before =>
    obtain rfl := Option.some.inj (hx.symm.trans before)
    obtain rfl := Option.some.inj hx'
    exact ⟨hallowed', stillStands_of rfl (computeReports_keepsContent e x) hdistinct'
      fun c _ => .refl _ _⟩
  | @attempted _ y _ before =>
    obtain rfl := Option.some.inj (hx.symm.trans before)
    obtain rfl := Option.some.inj hx'
    exact ⟨hallowed', stillStands_of rfl (keepsContent_of_same rfl rfl rfl) hdistinct'
      fun c _ => .refl _ _⟩
  | stored =>
    obtain rfl := Option.some.inj hx'
    rw [storeResult_result] at hnone'
    cases hnone'

/-! ## Prepared values -/

/-- What a preparation of the event answers: a client's own, or the one inside
`finalize`. -/
def System.preparation (s : System) : Event → Option (Outcome EnsembleResult)
  | .prepareResult id generation => some (prepareResult s.fabric id generation).2
  | .resume client _ =>
      match s.clients client with
      | .finalizePreparing id generation _ => some (prepareResult s.fabric id generation).2
      | _ => none
  | _ => none

theorem preparation_eq_some {s : System} {prepare : Event} {outcome : Outcome EnsembleResult}
    (h : s.preparation prepare = some outcome) :
    ∃ id generation, (prepareResult s.fabric id generation).2 = outcome
      ∧ (s.next prepare).fabric = (prepareResult s.fabric id generation).1 := by
  cases prepare with
  | prepareResult id generation =>
    exact ⟨id, generation, Option.some.inj h, remember_fabric ..⟩
  | resume client boot =>
    simp only [System.preparation] at h
    split at h
    · rename_i id generation checked hphase
      refine ⟨id, generation, Option.some.inj h, ?_⟩
      simp only [System.next, System.step, System.resume, hphase]
      split <;> rfl
    · cases h
  | _ => cases h

/-- Wherever an execution waits for the value, the value stands. -/
def StandsIn (f : Fabric) (r : EnsembleResult) : Prop :=
  ∀ e x, Expects f r e x → stillStands e x r = true

/-- The execution a value names has been current, and the value stands
wherever it is waited for. -/
structure Supported (f : Fabric) (r : EnsembleResult) : Prop where
  known : Known f r.key
  stands : StandsIn f r

section Reached

variable (config : FabricConfig) (before : List Event) {r : EnsembleResult}

theorem reached_distinct {id : EnsembleId} {e : EnsembleRecord} {x : ExecutionRecord}
    (he : ((System.initial config).run before).fabric.find id = some e)
    (hx : e.execution = some x) : (x.candidates.map (·.id)).Nodup := by
  have hdistinct := ((reachable_apart config before).numbered id).candidates.distinct
  rwa [View.candidateIds_of he hx] at hdistinct

/-- A value a preparation returned stands in the state it leaves. -/
theorem prepared_supported {prepare : Event} (hdecision : r.decision = .committed)
    (hprepared : ((System.initial config).run before).preparation prepare = some (.ok r)) :
    Supported (((System.initial config).run before).next prepare).fabric r := by
  obtain ⟨id, generation, hprepare, hnext⟩ := preparation_eq_some hprepared
  obtain ⟨hconfig, hnamed⟩ := reachable_named config before
  obtain ⟨e₀, x₀, he₀, hgen₀, hx₀, hkey⟩ := prepareResult_key hnamed
    (reachable_namesItsExecution config before id) hprepare
  have hknown : Known ((System.initial config).run before).fabric r.key := by
    rw [hkey]
    exact known_current he₀ hgen₀ hx₀
  refine ⟨hknown.next hnamed prepare, fun e x hexpects => ?_⟩
  have hid : r.ensemble = id := congrArg ExecutionKey.ensemble hkey
  have hfind := hexpects.ensemble
  have hcontent := reachable_contentAdmitted config (before ++ [prepare]) r.ensemble
  have hnumbered := (reachable_apart config (before ++ [prepare])).numbered r.ensemble
  rw [← run_next] at hcontent hnumbered
  rw [hnext, hid] at hfind
  obtain ⟨y, hreports, hdecide⟩ :=
    prepareResult_undecided hprepare hfind hexpects.execution hexpects.undecided
  rw [hconfig] at hdecide
  have hsound := decision_sound (fun _ => hnumbered.candidate? hexpects.ensemble hexpects.execution)
    (hcontent e x hexpects.ensemble hexpects.execution) hreports hexpects.undecided hdecide
    hdecision
  obtain ⟨c, hc, hgeneration, -, hpasses, -, -, hpayload⟩ := hsound.selected
  exact stillStands_eq_true.mpr ⟨hsound.digest, c, hc, ⟨hgeneration, hpayload.symm⟩, hpasses⟩

/-- An event that does not overtake the value leaves it standing. -/
theorem Supported.next {event : Event} (hdecision : r.decision = .committed)
    (h : Supported ((System.initial config).run before).fabric r)
    (hspared : ((System.initial config).run before).overtakes r event = false) :
    Supported (((System.initial config).run before).next event).fabric r := by
  have hnamed := (reachable_named config before).2
  refine ⟨h.known.next hnamed event, fun e' x' hexpects' => ?_⟩
  obtain ⟨e, x, he, hgen, hx, hid, hsuperseded, hpersists⟩ := h.known.current_before hnamed event
    hexpects'.ensemble hexpects'.generation hexpects'.execution hexpects'.executionId
  obtain ⟨hcancelled', -, -, hlive', -⟩ := commitAllowed_eq_ok hexpects'.allowed
  have hlive : e.superseded = false := by
    by_contra hsup
    rw [hsuperseded (by simpa using hsup)] at hlive'
    cases hlive'
  have hcancelled : x.cancellationRequested = false := by
    by_contra hcancel
    rw [hpersists.cancelled (by simpa using hcancel)] at hcancelled'
    cases hcancelled'
  have hnone := hpersists.undecided hexpects'.undecided
  have hwaits : commitAllowed e x = .ok () →
      Expects ((System.initial config).run before).fabric r e x := fun hallowed =>
    ⟨he, hgen, hx, hid, hnone, hallowed⟩
  obtain ⟨e₁, he₁, hwritten⟩ := (next_writes _ event).known r.ensemble e he
  obtain rfl := Option.some.inj (he₁.symm.trans hexpects'.ensemble)
  rcases hwritten with rfl | hwritten
  · obtain rfl := Option.some.inj (hx.symm.trans hexpects'.execution)
    exact h.stands e₁ x (hwaits hexpects'.allowed)
  · have hdistinct' : (x'.candidates.map (·.id)).Nodup := by
      have hfind := hexpects'.ensemble
      rw [run_next] at hfind
      exact reached_distinct config (before ++ [event]) hfind hexpects'.execution
    have hsustains := hwritten.sustains (r := r) hnamed he hx hexpects'.execution
      (hexpects'.executionId.trans hid.symm) hexpects'.undecided hexpects'.allowed hlive hcancelled
      (fun hopen => reachable_staged config before he hx hopen)
      (reached_distinct config before he hx) hdistinct'
      (fun hallowed c hc => not_undermines hdecision (hwaits hallowed) hc hspared)
    exact hsustains.stands (h.stands e x (hwaits hsustains.allowed))

/-- A value that stands wherever it is waited for is stored soundly. -/
theorem Supported.commitSound (h : Supported ((System.initial config).run before).fabric r) :
    CommitSound ((System.initial config).run before).fabric r := by
  refine (commitSound_of_content r (reachable_contentAdmitted config before r.ensemble)).mpr ?_
  rw [commitSupported, Option.all_eq_true]
  rintro ⟨e, x⟩ hstores
  have hstands := h.stands e x (.of_storesIn hstores)
  simp [hstands]

end Reached

/-- A value that no event overtakes keeps standing. -/
theorem supported_run (config : FabricConfig) {before since : List Event} {r : EnsembleResult}
    (hdecision : r.decision = .committed)
    (h : Supported ((System.initial config).run before).fabric r)
    (hspared : Along System.next (fun s event => s.overtakes r event = false)
      ((System.initial config).run before) since) :
    Supported ((System.initial config).run (before ++ since)).fabric r := by
  induction since generalizing before with
  | nil => rwa [List.append_nil]
  | cons event since ih =>
    have hnext := h.next config before hdecision hspared.1
    have hrest := hspared.2
    rw [run_next] at hnext hrest
    simpa using ih hnext hrest

/-! ## Overtaken values -/

theorem storesIn_after {f f' : Fabric} {r : EnsembleResult} {e e' : EnsembleRecord}
    {x x' : ExecutionRecord} (h : storesIn f r = some (e, x))
    (he' : f'.find r.ensemble = some e') (hspec : e'.spec = e.spec)
    (hx' : e'.execution = some x') (hid : x'.id = x.id) (hnone : x'.result = none)
    (hallowed : commitAllowed e' x' = .ok ()) (hepoch : f'.core.epoch = f.core.epoch)
    (hids : f'.core.resultIds = f.core.resultIds) : storesIn f' r = some (e', x') := by
  obtain ⟨htarget, -, -, hallocated⟩ := storesIn_eq_some.mp h
  refine storesIn_eq_some.mpr ⟨?_, hnone, hallowed, hids ▸ hallocated⟩
  simp only [commitTarget, Checks.bind_eq_ok, located_eq_ok, Checks.pure_eq_ok,
    executionNamed_eq_some, Prod.mk.injEq] at htarget ⊢
  obtain ⟨e₁, he₁, u, hvalid, x₁, ⟨-, hnamed⟩, rfl, rfl⟩ := htarget
  refine ⟨e', he', u, ?_, x', ⟨hx', hid.trans hnamed⟩, rfl, rfl⟩
  rw [hspec, hepoch]
  exact hvalid

/-- A value that does not stand is stored unsoundly. -/
theorem not_commitSound {f : Fabric} {limits : Limits} {r : EnsembleResult} {e : EnsembleRecord}
    {x : ExecutionRecord} (hdecision : r.decision = .committed)
    (hstores : storesIn f r = some (e, x))
    (hcontent : OfExecution (fun _ x => ContentAdmitted limits x) (f.view r.ensemble))
    (hfails : stillStands e x r = false) : ¬ CommitSound f r := by
  intro hsound
  have hsupported := (commitSound_of_content r hcontent).mp hsound
  rw [commitSupported, hstores] at hsupported
  simp [hdecision, hfails] at hsupported

/-- The fields the gate reads survive the release of a participant's work. -/
theorem handleParticipantFailure_gate (e : EnsembleRecord) (x : ExecutionRecord)
    (p : ParticipantRecord) (kind : ParticipantFailureKind) (detail : String) :
    (handleParticipantFailure e x p kind detail).1.superseded = e.superseded
      ∧ (handleParticipantFailure e x p kind detail).2.id = x.id
      ∧ (handleParticipantFailure e x p kind detail).2.result = x.result
      ∧ (handleParticipantFailure e x p kind detail).2.cancellationRequested
        = x.cancellationRequested
      ∧ (handleParticipantFailure e x p kind detail).2.status = x.status := by
  refine Threaded.foldl_related (f := releaseCandidate p kind detail)
    (R := fun a b : EnsembleRecord × ExecutionRecord => b.1.superseded = a.1.superseded
      ∧ b.2.id = a.2.id ∧ b.2.result = a.2.result
      ∧ b.2.cancellationRequested = a.2.cancellationRequested ∧ b.2.status = a.2.status)
    (fun a => ⟨rfl, rfl, rfl, rfl, rfl⟩) (fun h h' => ⟨h'.1.trans h.1, h'.2.1.trans h.2.1,
      h'.2.2.1.trans h.2.2.1, h'.2.2.2.1.trans h.2.2.2.1, h'.2.2.2.2.trans h.2.2.2.2⟩) ?_ (e, x)
  rintro ⟨e, x⟩ index -
  unfold releaseCandidate
  simp only
  split
  · exact ⟨rfl, rfl, rfl, rfl, rfl⟩
  · split
    · exact ⟨rfl, rfl, rfl, rfl, rfl⟩
    · split <;> exact ⟨rfl, rfl, rfl, rfl, rfl⟩

/-- The execution after an accepted failure report: what is released was in
flight, and the gate is as open as before. -/
theorem reportedRecord_execution {e : EnsembleRecord} {id : ParticipantId} {seat : Seat}
    (hat : SeatAt e id seat) (kind : ParticipantFailureKind) (detail : String)
    {x : ExecutionRecord} (hx : e.execution = some x)
    (hdistinct : (x.candidates.map (·.id)).Nodup) (hallowed : commitAllowed e x = .ok ()) :
    ∃ x', (reportedRecord seat kind detail).execution = some x' ∧ x'.id = x.id
      ∧ x'.result = x.result ∧ KeepsContent x x'
      ∧ x'.candidates.map (·.id) = x.candidates.map (·.id)
      ∧ commitAllowed (reportedRecord seat kind detail) x' = .ok () := by
  obtain rfl := hat.ensemble
  rw [reportedRecord, hx]
  simp only
  split
  · exact ⟨x, hx, rfl, rfl, .refl x, rfl, hallowed⟩
  · rename_i hopen
    have hopened : x.status = .opened := not_not.mp hopen
    obtain ⟨hcancelled, -, -, hlive, -⟩ := commitAllowed_eq_ok hallowed
    generalize hlost : lostParticipant seat.participant kind detail = lost
    have hkeeps := handleParticipantFailure_keepsContent (seat.write lost) x lost kind detail
      hdistinct
    obtain ⟨hsuperseded, hid, hresult, hcancel, hstatus⟩ :=
      handleParticipantFailure_gate (seat.write lost) x lost kind detail
    have hids : (handleParticipantFailure (seat.write lost) x lost kind detail).2.candidates.map
        (·.id) = x.candidates.map (·.id) := Slots.map_key (fun h => h.id)
      (handleParticipantFailure_keeps (seat.write lost) x lost kind detail).2.candidates
    have hlive' : (handleParticipantFailure (seat.write lost) x lost kind detail).1.superseded
        = false := hsuperseded.trans hlive
    unfold releasedRecord
    simp only
    refine ⟨_, rfl, ?_, ?_, ?_, ?_, ?_⟩
    · split <;> exact hid
    · split <;> exact hresult
    · refine hkeeps.trans ?_
      split <;> exact keepsContent_of_same rfl rfl rfl
    · split <;> exact hids
    · split
      · exact commitAllowed_of hlive' (hcancel.trans hcancelled) (.inr rfl)
      · exact commitAllowed_of hlive' (hcancel.trans hcancelled) (.inl (hstatus.trans hopened))

/-- A candidate whose participant serves no more fails the hard checks. -/
theorem stillStands_vacant {e e' : EnsembleRecord} {x x' : ExecutionRecord} {r : EnsembleResult}
    {c : CandidateRecord} (hkeeps : KeepsContent x x')
    (hdistinct' : (x'.candidates.map (·.id)).Nodup)
    (hc : x.candidate? r.selectedCandidate = some c) (hstands : stillStands e x r = true)
    (hvacant : ∀ p, e'.participant? c.participant = some p → p.registered = false) :
    stillStands e' x' r = false := by
  by_contra hcontra
  obtain ⟨-, c₁, hc₁, -, hpasses⟩ := stillStands_eq_true.mp hstands
  obtain rfl := Option.some.inj (hc.symm.trans hc₁)
  obtain ⟨-, c', hc', -, hpasses'⟩ := stillStands_eq_true.mp (by simpa using hcontra)
  obtain ⟨d, hfound, hsame, -⟩ :=
    hkeeps.found hdistinct' hc (passesHardChecks_content hpasses)
  obtain rfl := Option.some.inj (hfound.symm.trans hc')
  obtain ⟨p, hp, hauthoritative⟩ :=
    (Option.any_eq_true _ _).mp (eligibility_iff.mp hpasses').standing.authoritative
  rw [hsame.participant] at hp
  simp only [ParticipantRecord.authoritative, hvacant p hp, Bool.false_and] at hauthoritative
  cases hauthoritative

theorem overtakes_eq_true {s : System} {r : EnsembleResult} {event : Event} {e : EnsembleRecord}
    {x : ExecutionRecord} (hexpects : Expects s.fabric r e x) (h : s.overtakes r event = true) :
    r.decision = .committed ∧ ∃ c, x.candidate? r.selectedCandidate = some c
      ∧ s.undermines r.ensemble e x c event = true := by
  rw [System.overtakes, expects_eq_some.mpr hexpects] at h
  simpa only [Option.any_some, Bool.and_eq_true, beq_iff_eq, Option.any_eq_true] using h

/-- With the evaluation on record the candidate fails the checks, whatever is
counted besides. -/
theorem stillStands_turnedAway {f : Fabric} {v : EvaluationSubmission} {site : EvaluationSite}
    {p : ParticipantRecord} {r : EnsembleResult} {c : CandidateRecord}
    (haccept : acceptEvaluation f v = .ok site)
    (hdistinct : ((evaluatedExecution site (acceptedRecord f v site)).candidates.map
      (·.id)).Nodup)
    (hc : site.execution.candidate? r.selectedCandidate = some c)
    (hstands : stillStands site.seat.ensemble site.execution r = true)
    (hturned : f.turnsAway v site.seat.ensemble site.execution c = true) :
    stillStands ((site.seat.write p).holding (evaluatedExecution site (acceptedRecord f v site)))
      (evaluatedExecution site (acceptedRecord f v site)) r = false := by
  by_contra hcontra
  have haccepted := acceptEvaluation_eq_ok haccept
  obtain ⟨-, c₁, hc₁, -, hpasses⟩ := stillStands_eq_true.mp hstands
  obtain rfl := Option.some.inj (hc.symm.trans hc₁)
  obtain ⟨-, c', hc', -, hpasses'⟩ := stillStands_eq_true.mp (by simpa using hcontra)
  obtain ⟨d, hfound, hsame, hevidence⟩ := (heard_keepsContent haccepted (acceptedRecord f v
    site)).found hdistinct hc (passesHardChecks_content hpasses)
  obtain rfl := Option.some.inj (hfound.symm.trans hc')
  -- its standing is what it was before the evaluation
  have hstanding : Standing (arbitrationInput site.seat.ensemble
      (heardExecution site.execution (acceptedRecord f v site)) c) := by
    obtain ⟨hcurrent, hcontent, hauthoritative, hcompatible, hselectable⟩ :=
      (eligibility_iff.mp hpasses).standing
    exact ⟨hcurrent, hcontent, hauthoritative, hcompatible, hselectable⟩
  have hheard : passesHardChecks site.seat.ensemble
      (heardExecution site.execution (acceptedRecord f v site)) c = true := by
    refine passesHardChecks_of_standing ?_ (hsame.summary hevidence).symm hstanding hpasses'
    rfl
  rw [Fabric.turnsAway, haccept] at hturned
  simp [hheard] at hturned

/-- The execution after an invalidation, where it was not open. -/
theorem invalidated_vacant (reason : String) {e : EnsembleRecord} {id : ParticipantId}
    {p : ParticipantRecord} (hp : (invalidatedEnsemble reason e).participant? id = some p) :
    p.registered = false := by
  have hmem := List.mem_of_find?_eq_some hp
  obtain ⟨q, -, rfl⟩ := List.mem_map.mp hmem
  unfold invalidatedParticipant
  split
  · rename_i hgone
    simp only [Bool.and_eq_true, Bool.not_eq_true'] at hgone
    exact hgone.1
  · rfl

theorem invalidates_fabric {s : System} {event : Event} {reason : String}
    (h : s.invalidates event = some reason) :
    (s.next event).fabric = invalidateDynamicAuthority s.fabric reason := by
  cases event with
  | invalidateDynamicAuthority text =>
    obtain rfl := Option.some.inj h
    rfl
  | resume client boot =>
    simp only [System.invalidates] at h
    split at h
    · rename_i text hphase
      obtain rfl := Option.some.inj h
      simp [System.next, System.step, System.resume, hphase]
    · cases h
  | _ => cases h

/-- How a candidate is undermined. -/
inductive Undermines (s : System) (id : EnsembleId) (e : EnsembleRecord) (x : ExecutionRecord)
    (c : CandidateRecord) (event : Event) : Prop
  | lost {a kind detail seat} (reports : event = .reportParticipantFailure a kind detail)
      (ensemble : a.ensemble = id) (participant : a.participant = c.participant)
      (admits : admitFailureReport s.fabric a = .ok seat)
  | judged {v site} (submits : event = .submitEvaluation v)
      (ensemble : v.authority.evaluator.ensemble = id)
      (accept : acceptEvaluation s.fabric v = .ok site)
      (turned : s.fabric.turnsAway v e x c = true)
  | invalidated {reason} (invalidates : s.invalidates event = some reason)
      (ended : x.status ≠ .opened)

theorem undermines_eq_true {s : System} {id : EnsembleId} {e : EnsembleRecord}
    {x : ExecutionRecord} {c : CandidateRecord} {event : Event}
    (h : s.undermines id e x c event = true) : Undermines s id e x c event := by
  unfold System.undermines at h
  split at h
  · rename_i a kind detail
    simp only [Bool.and_eq_true, beq_iff_eq] at h
    cases hpassed : admitFailureReport s.fabric a with
    | error refusal =>
      rw [hpassed] at h
      cases h.2
    | ok seat => exact .lost rfl h.1.1 h.1.2 hpassed
  · rename_i v
    simp only [Bool.and_eq_true, beq_iff_eq] at h
    cases haccept : acceptEvaluation s.fabric v with
    | error refusal =>
      have hturned := h.2
      rw [Fabric.turnsAway, haccept] at hturned
      cases hturned
    | ok site => exact .judged rfl h.1 haccept h.2
  · simp only [Bool.and_eq_true, bne_iff_ne] at h
    obtain ⟨reason, hreason⟩ := Option.isSome_iff_exists.mp h.1
    exact .invalidated hreason h.2

section Overtaken

variable {s : System} {limits : Limits} {r : EnsembleResult} {event : Event}
  {e : EnsembleRecord} {x : ExecutionRecord} {c : CandidateRecord}

/-- The participant of the selected candidate is lost. -/
theorem lost_unsound {a : ParticipantAuthority} {kind : ParticipantFailureKind} {detail : String}
    {seat : Seat} (hdecision : r.decision = .committed)
    (hstores : storesIn s.fabric r = some (e, x))
    (hc : x.candidate? r.selectedCandidate = some c) (hstands : stillStands e x r = true)
    (hdistinct : (x.candidates.map (·.id)).Nodup) (hensemble : a.ensemble = r.ensemble)
    (hparticipant : a.participant = c.participant)
    (hpassed : admitFailureReport s.fabric a = .ok seat)
    (hcontent : OfExecution (fun _ x => ContentAdmitted limits x)
      ((s.next (.reportParticipantFailure a kind detail)).fabric.view r.ensemble)) :
    ¬ CommitSound (s.next (.reportParticipantFailure a kind detail)).fabric r := by
  have hexpects := Expects.of_storesIn hstores
  obtain ⟨hfind, hat⟩ := admitFailureReport_eq_ok hpassed
  obtain rfl := Option.some.inj (hexpects.ensemble.symm.trans (by rw [← hensemble]; exact hfind))
  obtain ⟨hspec, q, hq, hlost⟩ := reportedRecord_seats hat kind detail
  obtain ⟨x', hx', hid, hresult, hkeeps, hids, hallowed⟩ := reportedRecord_execution hat kind
    detail hexpects.execution hdistinct hexpects.allowed
  have hfabric : (s.next (.reportParticipantFailure a kind detail)).fabric
      = s.fabric.store r.ensemble (reportedRecord seat kind detail) := by
    rw [← hensemble]
    exact reportParticipantFailure_accepted hpassed kind detail
  have hvacant : ∀ p, (reportedRecord seat kind detail).participant? c.participant = some p →
      p.registered = false := by
    intro p hp
    rw [← hparticipant, hq] at hp
    obtain rfl := Option.some.inj hp
    rw [hlost]
    rfl
  rw [hfabric] at hcontent ⊢
  have hstores' : storesIn (s.fabric.store r.ensemble (reportedRecord seat kind detail)) r
      = some (reportedRecord seat kind detail, x') :=
    storesIn_after hstores (Fabric.find_store_self ..) hspec hx' hid
      (hresult.trans hexpects.undecided) hallowed rfl rfl
  exact not_commitSound hdecision hstores' hcontent
    (stillStands_vacant hkeeps (hids ▸ hdistinct) hc hstands hvacant)

theorem nextSequence_resultIds (k : Core) : k.nextSequence.2.resultIds = k.resultIds := by
  unfold Core.nextSequence
  split <;> rfl

/-- The selected candidate is turned away. -/
theorem judged_unsound {v : EvaluationSubmission} {site : EvaluationSite}
    (hdecision : r.decision = .committed) (hstores : storesIn s.fabric r = some (e, x))
    (hc : x.candidate? r.selectedCandidate = some c) (hstands : stillStands e x r = true)
    (hdistinct : (x.candidates.map (·.id)).Nodup)
    (hensemble : v.authority.evaluator.ensemble = r.ensemble)
    (haccept : acceptEvaluation s.fabric v = .ok site)
    (hturned : s.fabric.turnsAway v e x c = true)
    (hcontent : OfExecution (fun _ x => ContentAdmitted limits x)
      ((s.next (.submitEvaluation v)).fabric.view r.ensemble)) :
    ¬ CommitSound (s.next (.submitEvaluation v)).fabric r := by
  have hexpects := Expects.of_storesIn hstores
  have haccepted := acceptEvaluation_eq_ok haccept
  obtain rfl := Option.some.inj
    (hexpects.ensemble.symm.trans (by rw [← hensemble]; exact haccepted.ensemble))
  obtain rfl := Option.some.inj (hexpects.execution.symm.trans haccepted.execution)
  have hids : (evaluatedExecution site (acceptedRecord s.fabric v site)).candidates.map (·.id)
      = site.execution.candidates.map (·.id) := Slots.map_key_set haccepted.candidateAt rfl
  have hfind : (s.next (.submitEvaluation v)).fabric.find r.ensemble
      = some ((site.seat.write { site.seat.participant with
          evaluationsSubmitted := site.seat.participant.evaluationsSubmitted + 1 }).holding
        (evaluatedExecution site (acceptedRecord s.fabric v site))) := by
    rw [← hensemble]
    simp [System.next, System.step, System.answer, submitEvaluation, haccept, acceptedRecord]
  have hcore : (s.next (.submitEvaluation v)).fabric.core = s.fabric.core.nextSequence.2 := by
    simp [System.next, System.step, System.answer, submitEvaluation, haccept]
  have hstores' := storesIn_after hstores hfind rfl rfl rfl hexpects.undecided hexpects.allowed
    (by rw [hcore]; exact nextSequence_epoch _) (by rw [hcore]; exact nextSequence_resultIds _)
  exact not_commitSound hdecision hstores' hcontent
    (stillStands_turnedAway haccept (hids ▸ hdistinct) hc hstands hturned)

/-- All seats are lost, and the execution is not closed to values by it. -/
theorem invalidated_unsound {reason : String} (hdecision : r.decision = .committed)
    (hstores : storesIn s.fabric r = some (e, x))
    (hc : x.candidate? r.selectedCandidate = some c) (hstands : stillStands e x r = true)
    (hdistinct : (x.candidates.map (·.id)).Nodup)
    (hinvalidates : s.invalidates event = some reason) (hended : x.status ≠ .opened)
    (hcontent : OfExecution (fun _ x => ContentAdmitted limits x)
      ((s.next event).fabric.view r.ensemble)) :
    ¬ CommitSound (s.next event).fabric r := by
  have hexpects := Expects.of_storesIn hstores
  have hfabric := invalidates_fabric hinvalidates
  have hsame : invalidatedExecution reason x = x := if_neg hended
  have hfind : (invalidateDynamicAuthority s.fabric reason).find r.ensemble
      = some (invalidatedEnsemble reason e) := by
    rw [find_invalidate, hexpects.ensemble]
    rfl
  have hexecution : (invalidatedEnsemble reason e).execution = some x := by
    rw [invalidatedEnsemble, hexpects.execution, Option.map_some, hsame]
  rw [hfabric] at hcontent ⊢
  have hstores' := storesIn_after hstores hfind rfl hexecution rfl hexpects.undecided
    hexpects.allowed rfl rfl
  exact not_commitSound hdecision hstores' hcontent
    (stillStands_vacant (.refl x) hdistinct hc hstands fun p => invalidated_vacant reason)

end Overtaken

/-- A call that stores nothing, or commits to nothing, stores soundly. -/
theorem commitSound_of_other {f : Fabric} {r : EnsembleResult} (h : r.decision ≠ .committed) :
    CommitSound f r := by
  intro e x stored hstored hdecision
  exact absurd (hstored.storesIn.2.decision.symm.trans hdecision) h

theorem commitSound_of_refused {f : Fabric} {r : EnsembleResult} (h : storesIn f r = none) :
    CommitSound f r := by
  intro e x stored hstored
  have hstores := hstored.storesIn.1
  rw [h] at hstores
  cases hstores

/-- An event that overtakes a value the gate would take makes its storing
unsound. -/
theorem overtaken_unsound (config : FabricConfig) (before : List Event) {r : EnsembleResult}
    {event : Event} (h : Supported ((System.initial config).run before).fabric r)
    (hovertakes : ((System.initial config).run before).overtakes r event = true)
    (htakes : (storesIn ((System.initial config).run before).fabric r).isSome = true) :
    ¬ CommitSound (((System.initial config).run before).next event).fabric r := by
  obtain ⟨⟨e, x⟩, hstores⟩ := Option.isSome_iff_exists.mp htakes
  have hexpects := Expects.of_storesIn hstores
  obtain ⟨hdecision, c, hc, hundermines⟩ := overtakes_eq_true hexpects hovertakes
  have hstands := h.stands e x hexpects
  have hdistinct := reached_distinct config before hexpects.ensemble hexpects.execution
  have hcontent := reachable_contentAdmitted config (before ++ [event]) r.ensemble
  rw [← run_next] at hcontent
  cases undermines_eq_true hundermines with
  | lost reports ensemble participant admits =>
    subst reports
    exact lost_unsound hdecision hstores hc hstands hdistinct ensemble participant admits hcontent
  | judged submits ensemble accept turned =>
    subst submits
    exact judged_unsound hdecision hstores hc hstands hdistinct ensemble accept turned hcontent
  | invalidated invalidates ended =>
    exact invalidated_unsound hdecision hstores hc hstands hdistinct invalidates ended hcontent

/-! ## Values in time -/

/-- A value that is handed to the gate in time, after a run of the system: it
commits to nothing, the gate does not take it, or it carries the selection of
a value that a preparation of the run returned and that no event since then
has overtaken. -/
inductive InTime (config : FabricConfig) (events : List Event) (r : EnsembleResult) : Prop
  | other (decision : r.decision ≠ .committed)
  | refused (refused : storesIn ((System.initial config).run events).fabric r = none)
  | prepared {before since : List Event} {prepare : Event} {returned : EnsembleResult}
      (run : events = before ++ prepare :: since)
      (prepared : ((System.initial config).run before).preparation prepare = some (.ok returned))
      (key : r.key = returned.key) (selection : SameSelection returned r)
      (spared : Along System.next (fun s event => s.overtakes r event = false)
        (((System.initial config).run before).next prepare) since)

/-- A value with the selection of another stands where the other does. -/
theorem Supported.carried {f : Fabric} {returned r : EnsembleResult} (h : Supported f returned)
    (hkey : r.key = returned.key) (hselection : SameSelection returned r) : Supported f r := by
  refine ⟨hkey ▸ h.known, fun e x hexpects => ?_⟩
  have hensemble : r.ensemble = returned.ensemble := congrArg ExecutionKey.ensemble hkey
  have hgeneration : r.ensembleGeneration = returned.ensembleGeneration :=
    congrArg ExecutionKey.generation hkey
  have hexecution : r.execution = returned.execution := congrArg ExecutionKey.execution hkey
  have hstands := h.stands e x ⟨hensemble ▸ hexpects.ensemble, hgeneration ▸ hexpects.generation,
    hexpects.execution, hexecution ▸ hexpects.executionId, hexpects.undecided, hexpects.allowed⟩
  rw [stillStands, hselection.digest, hselection.payload, hselection.candidate,
    hselection.generation]
  exact hstands

/-- A committed value that is handed over in time and that the gate takes is
supported. -/
theorem InTime.supported {config : FabricConfig} {events : List Event} {r : EnsembleResult}
    (h : InTime config events r) (hdecision : r.decision = .committed)
    (htakes : (storesIn ((System.initial config).run events).fabric r).isSome = true) :
    Supported ((System.initial config).run events).fabric r := by
  cases h with
  | other decision => exact absurd hdecision decision
  | refused refused =>
    rw [refused] at htakes
    cases htakes
  | @prepared before since prepare returned run prepared key selection spared =>
    subst run
    have hreturned := prepared_supported config before
      (selection.decision.symm.trans hdecision) prepared
    rw [run_next] at hreturned spared
    rw [List.append_cons]
    exact supported_run config hdecision (hreturned.carried key selection) spared

/-- In every run, a value that is handed to the gate in time is stored
soundly, and the first event that overtakes it makes its storing unsound, if
the gate takes it at that point. -/
theorem commit_sound_until_overtaken (config : FabricConfig) (events : List Event)
    (r : EnsembleResult) (h : InTime config events r) :
    CommitSound ((System.initial config).run events).fabric r
      ∧ ∀ event, ((System.initial config).run events).overtakes r event = true →
          (storesIn ((System.initial config).run events).fabric r).isSome = true →
          ¬ CommitSound ((System.initial config).run (events ++ [event])).fabric r := by
  constructor
  · by_cases hdecision : r.decision = .committed
    · cases htakes : storesIn ((System.initial config).run events).fabric r with
      | none => exact commitSound_of_refused htakes
      | some site =>
        exact (h.supported hdecision (Option.isSome_iff_exists.mpr ⟨site, htakes⟩)).commitSound
          config events
    · exact commitSound_of_other hdecision
  · intro event hovertakes htakes
    have hdecision : r.decision = .committed := by
      simp only [System.overtakes, Bool.and_eq_true, beq_iff_eq] at hovertakes
      exact hovertakes.1
    rw [← run_next]
    exact overtaken_unsound config events (h.supported hdecision htakes) hovertakes htakes

namespace Sample

/-- After the value is prepared, a second acceptance arrives, the judge is lost
and the ensemble advances. -/
def judgedFurther : List Event :=
  [judge 2 1 2 2 .accept, .reportParticipantFailure (authority 2) .unavailable "gone", advance]

def candidateLost : Event := .reportParticipantFailure (authority 1) .unavailable "gone"

end Sample

/-- The prepared value stays sound while evidence arrives and the judge is
lost; then the participant of its candidate is lost, and it is not. -/
theorem judgedFurther_commit_sound :
    (Sample.prepared Sample.judgedOnce).decision = .committed
      ∧ (storesIn (Sample.reached (Sample.judgedOnce ++ .prepareResult ⟨1⟩ ⟨1⟩
          :: Sample.judgedFurther)).fabric (Sample.prepared Sample.judgedOnce)).isSome = true
      ∧ CommitSound (Sample.reached (Sample.judgedOnce ++ .prepareResult ⟨1⟩ ⟨1⟩
          :: Sample.judgedFurther)).fabric (Sample.prepared Sample.judgedOnce)
      ∧ ¬ CommitSound (Sample.reached ((Sample.judgedOnce ++ .prepareResult ⟨1⟩ ⟨1⟩
          :: Sample.judgedFurther) ++ [Sample.candidateLost])).fabric
          (Sample.prepared Sample.judgedOnce) := by
  have hprepared : (Sample.reached Sample.judgedOnce).preparation (.prepareResult ⟨1⟩ ⟨1⟩)
      = some (.ok (Sample.prepared Sample.judgedOnce)) := by
    have hok : (prepareResult (Sample.reached Sample.judgedOnce).fabric ⟨1⟩ ⟨1⟩).2.isOk = true := by
      decide +kernel
    simp only [System.preparation, Sample.prepared]
    split
    · rename_i returned hreturned
      rw [hreturned]
    · rename_i refusal hrefused
      rw [hrefused] at hok
      cases hok
  have hspared : Along System.next
      (fun s event => s.overtakes (Sample.prepared Sample.judgedOnce) event = false)
      ((Sample.reached Sample.judgedOnce).next (.prepareResult ⟨1⟩ ⟨1⟩))
      Sample.judgedFurther := by
    decide +kernel
  have htakes : (storesIn (Sample.reached (Sample.judgedOnce ++ .prepareResult ⟨1⟩ ⟨1⟩
      :: Sample.judgedFurther)).fabric (Sample.prepared Sample.judgedOnce)).isSome = true := by
    decide +kernel
  have hsound := commit_sound_until_overtaken {} _ _
    (.prepared rfl hprepared rfl ⟨rfl, rfl, rfl, rfl, rfl⟩ hspared)
  exact ⟨by decide +kernel, htakes, hsound.1,
    hsound.2 Sample.candidateLost (by decide +kernel) htakes⟩

end EnsembleFabric
