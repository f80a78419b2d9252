import EnsembleFabric.Accounting
import EnsembleFabric.LateEvidence
import EnsembleFabric.Restarting
import EnsembleFabric.Restrictions
import EnsembleFabric.Retention

/-!
# Profiles of eligible candidates

A specification states what the profile of a participant must offer twice:
once with the declaration of the participant, and once for the ensemble.
Registration and arbitration check the declaration. What the ensemble
requires is validated, fingerprinted and encoded with the specification, and
nothing reads it; nor does anything read whether the model families of the
participants have to differ.

So eligible candidates come from profiles the ensemble admits in the runs in
which only such profiles are registered, and in which no participant delivers
twice where families have to differ (`eligible_conform`). Seats and content
change apart from each other, and the invariant is about both: who is seated
(`SeatsConform`), and whose content is there to be selected (`OffersOnce`).
-/

namespace EnsembleFabric

open List (Forall₂)
open EventSystem

/-! ## What is required of profiles -/

/-- Candidates of the two participants have to come from different model
families: the ensemble says so, or one of the declarations. -/
def EnsembleRecord.requiresDiversity (e : EnsembleRecord) (p q : ParticipantRecord) : Bool :=
  e.spec.requirements.requireModelFamilyDiversity
    || p.declaration.compatibility.requireModelFamilyDiversity
    || q.declaration.compatibility.requireModelFamilyDiversity

/-- The participant is seated and may win an arbitration. -/
def ParticipantRecord.competes (p : ParticipantRecord) : Bool :=
  p.seated && p.declaration.selectable

/-- What arbitration judges eligible comes from profiles that meet both
requirements, and from different model families where that is required. -/
structure EligibleConform (e : EnsembleRecord) (x : ExecutionRecord) : Prop where
  compatible : ∀ r ∈ (computeReports e x).arbitration.ranking, r.eligible = true →
    ∃ p, e.participant? r.participant = some p
      ∧ checkCompatibility p.declaration.compatibility p.profile = .ok ()
      ∧ checkCompatibility e.spec.requirements p.profile = .ok ()
  diverse : ∀ r ∈ (computeReports e x).arbitration.ranking,
    ∀ s ∈ (computeReports e x).arbitration.ranking, r.eligible = true → s.eligible = true →
    r.candidate ≠ s.candidate → ∀ p q, e.participant? r.participant = some p →
      e.participant? s.participant = some q → e.requiresDiversity p q = true →
      p.profile.modelFamily ≠ q.profile.modelFamily

/-- The registration is rejected, or of a participant that is never selected,
or of a profile the ensemble admits, whose family is not seated where it has
to be another. -/
def Fabric.admitsProfile (f : Fabric) (r : ParticipantRegistration) : Bool :=
  match admitRegistration f r with
  | .error _ => true
  | .ok seat =>
      !seat.participant.declaration.selectable
        || (checkCompatibility seat.ensemble.spec.requirements r.profile).isOk
          && seat.ensemble.participants.all fun p =>
            p.id == r.participant || !p.competes
              || !seat.ensemble.requiresDiversity p seat.participant
              || p.profile.modelFamily != r.profile.modelFamily

/-- The submission is rejected, or holds no content, or is the first of its
participant where families have to differ. -/
def Fabric.admitsContent (f : Fabric) (r : CandidateSubmission) : Bool :=
  match acceptCandidate f r.authority with
  | .error _ => true
  | .ok l =>
      !(checkPayload f.config.limits r.payload).isOk
        || malformedOutput l.seat.ensemble.spec.evidence r.payload
        || !l.seat.ensemble.requiresDiversity l.seat.participant l.seat.participant
        || l.execution.candidates.all fun c =>
          c.participant != l.candidate.participant || !isContentState c.state

def System.conforms (s : System) : Event → Bool
  | .registerParticipant r => s.fabric.admitsProfile r
  | .submitCandidate r => s.fabric.admitsContent r
  | _ => true

/-! ## Eligible candidates -/

theorem mark_participant (w : Option ArbitrationCandidateInput) (r : CandidateRanking) :
    (mark w r).participant = r.participant := by
  unfold mark
  split <;> rfl

/-- An eligible entry of the ranking is about a candidate that passes the hard
checks. -/
theorem eligible_passes {e : EnsembleRecord} {x : ExecutionRecord} {r : CandidateRanking}
    (hnodup : (x.candidates.map (·.id)).Nodup)
    (hr : r ∈ (computeReports e x).arbitration.ranking) (heligible : r.eligible = true) :
    ∃ c ∈ x.candidates, r.candidate = c.id ∧ r.participant = c.participant
      ∧ passesHardChecks e x c = true := by
  have hids : (arbitrated e x).candidates.map (·.candidate) = x.candidates.map (·.id) :=
    List.map_map ..
  have hdistinct : Distinct (arbitrated e x).candidates := by
    rw [Distinct, hids]
    exact hnodup
  rw [computeReports_ranking, (arbitrate_eq hdistinct).1] at hr
  obtain ⟨r₀, hr₀, rfl⟩ := List.mem_map.mp hr
  rw [mark_eligible] at heligible
  have hranked : r₀ ∈ rankedOrder (arbitrated e x) := by
    rw [← filter_rankings_eligible]
    exact List.mem_filter.mpr ⟨hr₀, heligible⟩
  obtain ⟨⟨input, index⟩, hmem, rfl⟩ := List.mem_map.mp hranked
  obtain ⟨hinput, hpasses⟩ := mem_order.mp (List.fst_mem_of_mem_zipIdx hmem)
  obtain ⟨c, hc, rfl⟩ := List.mem_map.mp hinput
  exact ⟨c, hc, mark_candidate _ _, mark_participant _ _, hpasses⟩

/-- Whoever passes the hard checks holds content and belongs to a seated
participant whose declaration its profile meets. -/
theorem passesHardChecks_seat {e : EnsembleRecord} {x : ExecutionRecord} {c : CandidateRecord}
    (h : passesHardChecks e x c = true) :
    isContentState c.state = true ∧ ∃ p, e.participant? c.participant = some p
      ∧ p.competes = true
      ∧ checkCompatibility p.declaration.compatibility p.profile = .ok () := by
  have hstanding := (eligibility_iff.mp h).standing
  obtain ⟨p, hp, hauthoritative⟩ := (Option.any_eq_true _ _).mp hstanding.authoritative
  obtain ⟨q, hq, hcompatible⟩ := (Option.any_eq_true _ _).mp hstanding.compatible
  obtain ⟨t, ht, hselectable⟩ := (Option.any_eq_true _ _).mp hstanding.selectable
  obtain rfl := Option.some.inj (hp.symm.trans hq)
  obtain rfl := Option.some.inj (hp.symm.trans ht)
  refine ⟨hstanding.content, p, hp, ?_, ?_⟩
  · simp only [ParticipantRecord.authoritative, Bool.and_eq_true] at hauthoritative
    simp only [ParticipantRecord.competes, ParticipantRecord.seated, Bool.and_eq_true]
    exact ⟨hauthoritative.1, hselectable⟩
  · exact isOk_iff.mp hcompatible

/-! ## Seats -/

/-- A slot stays with its participant, and nobody takes its seat. -/
structure KeepsSeat (p p' : ParticipantRecord) : Prop where
  id : p'.id = p.id
  declaration : p'.declaration = p.declaration
  seated : p'.seated = true → p.seated = true ∧ p'.profile = p.profile

def KeepsSeats (e e' : EnsembleRecord) : Prop :=
  Forall₂ KeepsSeat e.participants e'.participants

theorem KeepsSeat.refl (p : ParticipantRecord) : KeepsSeat p p := ⟨rfl, rfl, fun h => ⟨h, rfl⟩⟩

theorem KeepsSeat.trans {p q r : ParticipantRecord} (h : KeepsSeat p q) (h' : KeepsSeat q r) :
    KeepsSeat p r := by
  refine ⟨h'.id.trans h.id, h'.declaration.trans h.declaration, fun hseated => ?_⟩
  obtain ⟨hseated, hprofile⟩ := h'.seated hseated
  exact ⟨(h.seated hseated).1, hprofile.trans (h.seated hseated).2⟩

theorem SameSeat.keeps {p p' : ParticipantRecord} (h : SameSeat p p') : KeepsSeat p p' := by
  refine ⟨h.same.id, h.same.declaration, fun hseated => ⟨?_, h.same.profile⟩⟩
  rw [ParticipantRecord.seated, ← h.registered, ← h.status]
  exact hseated

theorem KeepsSeats.refl (e : EnsembleRecord) : KeepsSeats e e :=
  List.forall₂_same.mpr fun p _ => .refl p

theorem KeepsSeats.trans {a b c : EnsembleRecord} (h : KeepsSeats a b) (h' : KeepsSeats b c) :
    KeepsSeats a c :=
  Slots.forall₂_trans (R := KeepsSeat) KeepsSeat.trans h h'

theorem keepsSeats_set {e e' : EnsembleRecord} {index : Nat} {p p' : ParticipantRecord}
    (hp : e.participants[index]? = some p) (h : KeepsSeat p p')
    (hset : e'.participants = e.participants.set index p') : KeepsSeats e e' := by
  rw [KeepsSeats, hset]
  exact Slots.forall₂_set .refl hp h

theorem keepsSeats_tally {e e' : EnsembleRecord} {id : ParticipantId}
    {change : ParticipantRecord → ParticipantRecord}
    (htally : e'.participants = tallyParticipant e.participants id change)
    (hchange : ∀ p, KeepsSeat p (change p)) : KeepsSeats e e' := by
  rw [KeepsSeats, htally]
  refine Slots.forall₂_map fun p _ => ?_
  split
  · exact hchange p
  · exact .refl p

theorem lostParticipant_keeps (p : ParticipantRecord) (kind : ParticipantFailureKind)
    (detail : String) : KeepsSeat p (lostParticipant p kind detail) :=
  ⟨rfl, rfl, fun hseated => by cases hseated⟩

/-! ## Content -/

/-- What may be selected: the content of an execution without a result. -/
def ExecutionRecord.offers (x : ExecutionRecord) : List CandidateRecord :=
  if x.result.isNone then contents x else []

theorem mem_offers {x : ExecutionRecord} {c : CandidateRecord} :
    c ∈ x.offers ↔ x.result = none ∧ c ∈ x.candidates ∧ isContentState c.state = true := by
  rw [ExecutionRecord.offers]
  cases x.result with
  | none => simp [contents]
  | some r => simp

/-- A slot stays with its participant, and receives no content. -/
structure KeepsOffer (c c' : CandidateRecord) : Prop where
  id : c'.id = c.id
  participant : c'.participant = c.participant
  content : isContentState c'.state = true → isContentState c.state = true

theorem KeepsOffer.refl (c : CandidateRecord) : KeepsOffer c c := ⟨rfl, rfl, fun h => h⟩

/-- Whatever may be selected afterwards could be selected before. -/
def KeepsOffers (x x' : ExecutionRecord) : Prop :=
  ∀ c' ∈ x'.offers, ∃ c ∈ x.offers, c'.id = c.id ∧ c'.participant = c.participant

theorem KeepsOffers.refl (x : ExecutionRecord) : KeepsOffers x x := fun c hc => ⟨c, hc, rfl, rfl⟩

theorem KeepsOffers.trans {x y z : ExecutionRecord} (h : KeepsOffers x y)
    (h' : KeepsOffers y z) : KeepsOffers x z := by
  intro c hc
  obtain ⟨b, hb, hid, hparticipant⟩ := h' c hc
  obtain ⟨a, ha, hid', hparticipant'⟩ := h b hb
  exact ⟨a, ha, hid.trans hid', hparticipant.trans hparticipant'⟩

theorem keepsOffers_slots {x x' : ExecutionRecord} (hresult : x'.result = x.result)
    (hslots : Forall₂ KeepsOffer x.candidates x'.candidates) : KeepsOffers x x' := by
  intro c' hc'
  obtain ⟨hnone, hmem, hcontent⟩ := mem_offers.mp hc'
  obtain ⟨c, hc, hkeeps⟩ := Slots.exists_left hslots hmem
  exact ⟨c, mem_offers.mpr ⟨hresult ▸ hnone, hc, hkeeps.content hcontent⟩, hkeeps.id,
    hkeeps.participant⟩

theorem keepsOffers_same {x x' : ExecutionRecord} (hresult : x'.result = x.result)
    (hsame : x'.candidates = x.candidates) : KeepsOffers x x' :=
  keepsOffers_slots hresult (by rw [hsame]; exact List.forall₂_same.mpr fun c _ => .refl c)

theorem keepsOffers_set {x : ExecutionRecord} {index : Nat} {c c' : CandidateRecord}
    (hc : x.candidates[index]? = some c) (h : KeepsOffer c c') :
    KeepsOffers x { x with candidates := x.candidates.set index c' } :=
  keepsOffers_slots rfl (Slots.forall₂_set .refl hc h)

/-- Slots are changed one by one. -/
theorem keepsOffers_map {x x' : ExecutionRecord} {change : CandidateRecord → CandidateRecord}
    (hresult : x'.result = x.result) (hmap : x'.candidates = x.candidates.map change)
    (hchange : ∀ c, KeepsOffer c (change c)) : KeepsOffers x x' :=
  keepsOffers_slots hresult (by rw [hmap]; exact Slots.forall₂_map fun c _ => hchange c)

theorem computeReports_keepsOffers (e : EnsembleRecord) (x : ExecutionRecord) :
    KeepsOffers x (computeReports e x) :=
  keepsOffers_map rfl (computeReports_candidates ..) fun c => by
    rw [markElimination_eq _ c]
    exact ⟨rfl, rfl, fun h => h⟩

theorem failCandidate_keepsOffers {x : ExecutionRecord} {index : Nat} {c : CandidateRecord}
    (hc : x.candidates[index]? = some c) (e : EnsembleRecord) (failure : EnsembleError)
    (detail : String) :
    KeepsSeats e (failCandidate e x index c failure detail).1
      ∧ KeepsOffers x (failCandidate e x index c failure detail).2 :=
  ⟨keepsSeats_tally rfl fun _ => ⟨rfl, rfl, fun h => ⟨h, rfl⟩⟩,
    keepsOffers_slots rfl (Slots.forall₂_set .refl hc ⟨rfl, rfl, fun h => by cases h⟩)⟩

theorem rewindCandidateForRetry_keepsOffers {x : ExecutionRecord} {index : Nat}
    {c c' : CandidateRecord} (hc : x.candidates[index]? = some c) (hid : c'.id = c.id)
    (hparticipant : c'.participant = c.participant) (e : EnsembleRecord) :
    KeepsSeats e (rewindCandidateForRetry e x index c').1
      ∧ KeepsOffers x (rewindCandidateForRetry e x index c').2 :=
  ⟨keepsSeats_tally rfl fun _ => ⟨rfl, rfl, fun h => ⟨h, rfl⟩⟩,
    keepsOffers_slots rfl
      (Slots.forall₂_set .refl hc ⟨hid, hparticipant, fun h => by cases h⟩)⟩

theorem handleParticipantFailure_keepsOffers (e : EnsembleRecord) (x : ExecutionRecord)
    (p : ParticipantRecord) (kind : ParticipantFailureKind) (detail : String) :
    KeepsSeats e (handleParticipantFailure e x p kind detail).1
      ∧ KeepsOffers x (handleParticipantFailure e x p kind detail).2 := by
  refine Threaded.foldl_related (f := releaseCandidate p kind detail)
    (R := fun a b : EnsembleRecord × ExecutionRecord => KeepsSeats a.1 b.1 ∧ KeepsOffers a.2 b.2)
    (fun a => ⟨.refl _, .refl _⟩) (fun h h' => ⟨h.1.trans h'.1, h.2.trans h'.2⟩) ?_ (e, x)
  rintro ⟨e, x⟩ index -
  unfold releaseCandidate
  simp only
  split
  · exact ⟨.refl _, .refl _⟩
  · rename_i c hc
    split
    · exact ⟨.refl _, .refl _⟩
    · split
      · refine rewindCandidateForRetry_keepsOffers hc ?_ ?_ e
        · rfl
        · rfl
      · exact failCandidate_keepsOffers hc e _ _

/-! ## An advance -/

namespace AdvanceState

/-- Whoever is seated was, and whatever may be selected could be. -/
def KeepsBoth (s s' : AdvanceState) : Prop :=
  KeepsSeats s.ensemble s'.ensemble ∧ KeepsOffers s.execution s'.execution

theorem KeepsBoth.refl (s : AdvanceState) : KeepsBoth s s := ⟨.refl _, .refl _⟩

theorem KeepsBoth.trans {a b c : AdvanceState} (h : KeepsBoth a b) (h' : KeepsBoth b c) :
    KeepsBoth a c :=
  ⟨h.1.trans h'.1, h.2.trans h'.2⟩

theorem keepsBoth_same {s s' : AdvanceState}
    (ensemble : s'.ensemble.participants = s.ensemble.participants)
    (result : s'.execution.result = s.execution.result)
    (candidates : s'.execution.candidates = s.execution.candidates) : KeepsBoth s s' := by
  refine ⟨?_, keepsOffers_same result candidates⟩
  rw [KeepsSeats, ensemble]
  exact KeepsSeats.refl s.ensemble

/-- A declared candidate holds no content yet. -/
theorem declareMember_keepsBoth (limits : Limits) (stage : StageSpec) (s : AdvanceState)
    (id : ParticipantId) : KeepsBoth s (Threaded.final (declareMember limits stage s id)) := by
  unfold declareMember
  split
  · exact .refl s
  · split
    · exact .refl s
    · split
      · exact .refl s
      · split
        · exact .refl s
        · refine ⟨.refl _, fun c hc => ⟨c, ?_, rfl, rfl⟩⟩
          obtain ⟨hnone, hmem, hcontent⟩ := mem_offers.mp hc
          rcases List.mem_append.mp hmem with hold | hnew
          · exact mem_offers.mpr ⟨hnone, hold, hcontent⟩
          · rw [List.mem_singleton.mp hnew] at hcontent
            cases hcontent

theorem declareMembers_keepsBoth (limits : Limits) (stage : StageSpec)
    (ids : List ParticipantId) (s : AdvanceState) :
    KeepsBoth s (Threaded.final (ids.foldlM (declareMember limits stage) s)) :=
  Threaded.final_foldlM (R := KeepsBoth) .refl .trans
    (fun m id _ => declareMember_keepsBoth limits stage m id) s

theorem adopt_keepsBoth {stage : StageSpec} {s : AdvanceState} {index : Nat}
    {c : CandidateRecord} {p : ParticipantRecord} (h : DispatchTarget stage s index c p) :
    KeepsBoth s (s.adopt index c p) :=
  ⟨.refl _, keepsOffers_set h.at_ ⟨rfl, rfl, fun h => h⟩⟩

theorem activateMembers_keepsSeats (trigger : FallbackTrigger) (ids : List ParticipantId)
    (s : AdvanceState) :
    KeepsSeats s.ensemble (ids.foldl (activateMember trigger) s).ensemble := by
  induction ids generalizing s with
  | nil => exact .refl _
  | cons id rest ih =>
    have hone : KeepsSeats s.ensemble (activateMember trigger s id).ensemble := by
      simp only [KeepsSeats, activateMember, activatedParticipants]
      split
      · exact KeepsSeats.refl s.ensemble
      · refine Slots.forall₂_modify .refl (fun _ => ?_) _ _
        exact ⟨rfl, rfl, fun hseated => ⟨hseated, rfl⟩⟩
    exact hone.trans (ih (activateMember trigger s id))

theorem AdvanceStep.keepsBoth {limits : Limits} {s s' : AdvanceState}
    (h : AdvanceStep limits s s') : KeepsBoth s s' := by
  cases h with
  | round | completed => exact keepsBoth_same rfl rfl rfl
  | @declared _ stage _ undeclared result =>
    obtain ⟨m, hm, rfl⟩ := declareStage_eq_ok undeclared result
    have hmembers := declareMembers_keepsBoth limits stage stage.participants s
    rw [hm] at hmembers
    exact hmembers.trans (keepsBoth_same rfl rfl rfl)
  | adopted _ _ target => exact adopt_keepsBoth target
  | @stranded stage index c p _ _ target =>
    have hat := setCandidate_get target.at_ (adoptedCandidate c p)
    exact (adopt_keepsBoth target).trans (failCandidate_keepsOffers hat _ _ _)
  | @dispatched stage index c p _ _ target =>
    have hat := setCandidate_get target.at_ (adoptedCandidate c p)
    exact (adopt_keepsBoth target).trans
      ⟨.refl _, keepsOffers_slots rfl
        (Slots.forall₂_set .refl hat ⟨rfl, rfl, fun h => by cases h⟩)⟩
  | reopened =>
    unfold reopenPlanning
    split <;> exact keepsBoth_same rfl rfl rfl
  | planned _ incomplete result =>
    obtain ⟨done, added, hplans, -⟩ := planEvaluations_plans incomplete
    rw [result, Threaded.final_ok] at hplans
    have hensemble : s'.ensemble = s.ensemble := hplans.ensemble
    exact keepsBoth_same (by rw [hensemble]) (by rw [hplans.execution]) (by rw [hplans.execution])
  | emitted index =>
    obtain ⟨hensemble, hexecution | ⟨p, p', -, -, hexecution⟩⟩ := emitOne_execution s index
    · exact keepsBoth_same (by rw [hensemble]) (by rw [hexecution]) (by rw [hexecution])
    · exact keepsBoth_same (by rw [hensemble]) (by rw [hexecution]) (by rw [hexecution])
  | reported => exact ⟨.refl _, computeReports_keepsOffers _ _⟩
  | @activated trigger _ decision =>
    refine ⟨?_, ?_⟩
    · rw [activateFallback, decision]
      exact activateMembers_keepsSeats trigger _ s.requestFallback
    · rw [(activateFallback_eq decision).1]
      exact keepsOffers_same rfl rfl

theorem AdvanceStop.keepsBoth {limits : Limits} {s s' : AdvanceState} {error : Error}
    (h : AdvanceStop limits s (error, s')) : KeepsBoth s s' := by
  cases h with
  | @undeclared stage _ undeclared result =>
    have hmembers := declareMembers_keepsBoth limits stage stage.participants s
    rwa [declareStage_eq_error undeclared result] at hmembers
  | unplanned _ incomplete result =>
    obtain ⟨done, added, hplans, -⟩ := planEvaluations_plans incomplete
    rw [result] at hplans
    have hensemble : s'.ensemble = s.ensemble := hplans.ensemble
    have hexecution : s'.execution = _ := hplans.execution
    exact keepsBoth_same (by rw [hensemble]) (by rw [hexecution]) (by rw [hexecution])

end AdvanceState

open AdvanceState in
theorem advanceOpen_keepsBoth (limits : Limits) (core : Core) (e : EnsembleRecord)
    (x : ExecutionRecord) :
    KeepsSeats e (advanceOpen limits core e x).1.ensemble
      ∧ KeepsOffers x (advanceOpen limits core e x).1.execution := by
  have hsteps : ∀ {s}, AdvanceSteps limits (advanceStart core e x) s →
      KeepsBoth (advanceStart core e x) s := fun hsteps =>
    advanceSteps_keep (P := KeepsBoth (advanceStart core e x))
      (fun hstep hs => hs.trans hstep.keepsBoth) hsteps (.refl _)
  have hends := advanceOpen_ends limits core e x
  generalize advanceOpen limits core e x = out at hends ⊢
  cases hends with
  | @settled s steps =>
    exact (hsteps steps).trans ⟨.refl s.ensemble, computeReports_keepsOffers _ _⟩
  | stopped steps stop => exact (hsteps steps).trans stop.keepsBoth

/-! ## One event -/

/-- How the record of an ensemble after an event came to be. -/
inductive ConformAfter (s : System) (event : Event) (e e' : EnsembleRecord) : Prop
  | fresh (vacant : ∀ p ∈ e'.participants, p.seated = false) (none : e'.execution = none)
  | kept (spec : e'.spec = e.spec) (seats : KeepsSeats e e')
      (offers : ∀ x', e'.execution = some x' →
        x'.offers = [] ∨ ∃ x, e.execution = some x ∧ KeepsOffers x x')
  | seated {r seat} (registers : event = .registerParticipant r)
      (admits : admitRegistration s.fabric r = .ok seat) (ensemble : seat.ensemble = e)
      (record : e' = seat.write (seatedParticipant seat.participant r))
  | received {r l p} (submits : event = .submitCandidate r)
      (accept : acceptCandidate s.fabric r.authority = .ok l) (ensemble : l.seat.ensemble = e)
      (payload : checkPayload s.fabric.config.limits r.payload = .ok ())
      (seat : SameSeat l.seat.participant p)
      (record : e' = l.write (classifiedCandidate e.spec.evidence
        (receivedCandidate l.candidate r.payload s.fabric.core.nextSequence.1
          l.seat.participant.declaration.executionBudgetUnits)) p)

theorem cancelInFlight_keepsOffers (e : EnsembleRecord) (x : ExecutionRecord)
    (cs : List CandidateRecord) (core : Core) :
    Forall₂ KeepsOffer cs (cancelInFlight e x cs core).1 := by
  rw [cancelInFlight_candidates]
  refine Slots.forall₂_map fun c _ => ?_
  unfold cancelledInFlight
  split
  · exact ⟨rfl, rfl, fun h => by cases h⟩
  · exact .refl c

theorem Written.conformAfter {s : System} {event : Event} {id : EnsembleId}
    {e e' : EnsembleRecord} (h : Written s event id e e') : ConformAfter s event e e' := by
  have hoffers : ∀ {x y : ExecutionRecord}, e.execution = some x → e'.execution = some y →
      KeepsOffers x y → ∀ x', e'.execution = some x' →
        x'.offers = [] ∨ ∃ x, e.execution = some x ∧ KeepsOffers x x' := by
    intro x y hx hy hkeeps x' hx'
    obtain rfl := Option.some.inj (hy.symm.trans hx')
    exact .inr ⟨x, hx, hkeeps⟩
  -- a slot in flight is withdrawn, any other stays
  have hwithdraws : ∀ {c d : CandidateRecord}, d.id = c.id → d.participant = c.participant →
      isContentState d.state = false → KeepsOffer c d := fun hid hparticipant hstate =>
    ⟨hid, hparticipant, fun hcontent => by rw [hstate] at hcontent; cases hcontent⟩
  cases h with
  | redefined =>
    refine .fresh (fun p hp => ?_) rfl
    obtain ⟨declaration, -, rfl⟩ := List.mem_map.mp hp
    rfl
  | superseded =>
    refine .kept rfl (.refl e) fun x' hx' => ?_
    obtain ⟨x, hx, rfl⟩ := Option.map_eq_some_iff.mp hx'
    refine .inr ⟨x, hx, ?_⟩
    unfold supersededExecution
    split
    · refine keepsOffers_map rfl rfl fun c => ?_
      split
      · exact hwithdraws rfl rfl rfl
      · exact .refl c
    · exact .refl x
  | seated registers at_ admits => exact .seated registers admits at_.ensemble rfl
  | started =>
    refine .kept rfl (.refl e) fun x' hx' => .inl ?_
    obtain rfl := Option.some.inj hx'
    rfl
  | withdrawn _ before =>
    exact .kept rfl (.refl e)
      (hoffers before rfl (keepsOffers_slots rfl (cancelInFlight_keepsOffers ..)))
  | closed _ before =>
    refine .kept rfl (.refl e) (hoffers before rfl (keepsOffers_map rfl rfl fun c => ?_))
    split
    · exact hwithdraws rfl rfl rfl
    · exact .refl c
  | @advanced x _ _ before _ _ result =>
    subst result
    obtain ⟨hseats, hkeeps⟩ := advanceOpen_keepsBoth s.fabric.config.limits s.fabric.core e x
    exact .kept (advanceOpen_spec ..) hseats (hoffers before rfl hkeeps)
  | received submits accept ensemble payload seat =>
    exact .received submits accept ensemble payload seat rfl
  | @retried r l kind _ accept ensemble =>
    subst ensemble
    obtain ⟨hlocated, -⟩ := acceptCandidate_eq_ok accept
    obtain ⟨hseats, hkeeps⟩ := rewindCandidateForRetry_keepsOffers hlocated.at_ rfl rfl
      l.seat.ensemble
    exact .kept rfl hseats (hoffers hlocated.fenced.execution rfl hkeeps)
  | @dropped r l kind _ accept ensemble =>
    subst ensemble
    obtain ⟨hlocated, -⟩ := acceptCandidate_eq_ok accept
    obtain ⟨hseats, hkeeps⟩ := failCandidate_keepsOffers hlocated.at_ l.seat.ensemble
      (failureError kind) s!"participant reported {kind.toString}"
    exact .kept rfl hseats (hoffers hlocated.fenced.execution rfl hkeeps)
  | abstained _ accept ensemble seat =>
    subst ensemble
    obtain ⟨hlocated, -⟩ := acceptCandidate_eq_ok accept
    exact .kept rfl (keepsSeats_set hlocated.seat.get seat.keeps rfl)
      (hoffers hlocated.fenced.execution rfl
        (keepsOffers_set hlocated.at_ (hwithdraws rfl rfl rfl)))
  | evaluated _ accept ensemble seat =>
    subst ensemble
    have haccepted := acceptEvaluation_eq_ok accept
    exact .kept rfl (keepsSeats_set haccepted.seat.get seat.keeps rfl)
      (hoffers haccepted.execution rfl (keepsOffers_slots rfl
        (Slots.forall₂_set .refl haccepted.candidateAt ⟨rfl, rfl, fun h => h⟩)))
  | lost _ admits ensemble =>
    subst ensemble
    obtain ⟨-, hat⟩ := admitFailureReport_eq_ok admits
    exact .kept rfl (keepsSeats_set hat.get (lostParticipant_keeps ..) rfl)
      fun x' hx' => .inr ⟨x', hx', .refl x'⟩
  | @released a seat kind detail x _ admits ensemble before =>
    subst ensemble
    obtain ⟨-, hat⟩ := admitFailureReport_eq_ok admits
    obtain ⟨hspec, -⟩ := handleParticipantFailure_tallies
      (lostParticipant seat.participant kind detail) kind detail
      (seat.write (lostParticipant seat.participant kind detail)) x
    obtain ⟨hseats, hkeeps⟩ := handleParticipantFailure_keepsOffers
      (seat.write (lostParticipant seat.participant kind detail)) x
      (lostParticipant seat.participant kind detail) kind detail
    have hlost : KeepsSeats seat.ensemble
        (seat.write (lostParticipant seat.participant kind detail)) :=
      keepsSeats_set hat.get (lostParticipant_keeps ..) rfl
    refine .kept hspec (hlost.trans hseats) (hoffers before rfl (hkeeps.trans ?_))
    split <;> exact keepsOffers_same rfl rfl
  | cancelled _ before =>
    exact .kept rfl (.refl e) (hoffers before rfl (keepsOffers_same rfl rfl))
  | @invalidated reason =>
    refine .kept rfl (Slots.forall₂_map fun p _ => ?_) fun x' hx' => ?_
    · unfold invalidatedParticipant
      split
      · exact ⟨rfl, rfl, fun hseated => ⟨hseated, rfl⟩⟩
      · exact ⟨rfl, rfl, fun hseated => by cases hseated⟩
    · obtain ⟨x, hx, rfl⟩ := Option.map_eq_some_iff.mp hx'
      refine .inr ⟨x, hx, ?_⟩
      unfold invalidatedExecution
      split
      · refine keepsOffers_map rfl rfl fun c => ?_
        unfold invalidatedCandidate
        split
        · exact hwithdraws rfl rfl rfl
        · exact .refl c
      · exact .refl x
  | reported _ before =>
    exact .kept rfl (.refl e) (hoffers before rfl (computeReports_keepsOffers _ _))
  | attempted _ before =>
    exact .kept rfl (.refl e) (hoffers before rfl (keepsOffers_same rfl rfl))
  | stored =>
    refine .kept rfl (.refl e) fun x' hx' => .inl ?_
    obtain rfl := Option.some.inj hx'
    rw [ExecutionRecord.offers, storeResult_result]
    rfl

/-! ## The invariant -/

theorem requiresDiversity_comm (e : EnsembleRecord) (p q : ParticipantRecord) :
    e.requiresDiversity p q = e.requiresDiversity q p := by
  rw [EnsembleRecord.requiresDiversity, EnsembleRecord.requiresDiversity, Bool.or_assoc,
    Bool.or_assoc, Bool.or_comm p.declaration.compatibility.requireModelFamilyDiversity]

theorem requiresDiversity_eq {e e' : EnsembleRecord} {p p' q q' : ParticipantRecord}
    (hspec : e'.spec = e.spec) (hp : p'.declaration = p.declaration)
    (hq : q'.declaration = q.declaration) :
    e'.requiresDiversity p' q' = e.requiresDiversity p q := by
  rw [EnsembleRecord.requiresDiversity, hspec, hp, hq]
  rfl

/-- Whoever may win is seated with a profile the ensemble admits, in families
apart where they have to be. -/
structure SeatsConform (e : EnsembleRecord) : Prop where
  fits : ∀ p ∈ e.participants, p.competes = true →
    checkCompatibility e.spec.requirements p.profile = .ok ()
  apart : ∀ p ∈ e.participants, ∀ q ∈ e.participants, p.competes = true → q.competes = true →
    p.id ≠ q.id → e.requiresDiversity p q = true → p.profile.modelFamily ≠ q.profile.modelFamily

/-- No participant has two candidates that may be selected, where families
have to differ. -/
def OffersOnce (e : EnsembleRecord) (x : ExecutionRecord) : Prop :=
  ∀ p ∈ e.participants, e.requiresDiversity p p = true → ∀ c ∈ x.offers, ∀ d ∈ x.offers,
    c.participant = p.id → d.participant = p.id → c.id = d.id

structure Conforming (e : EnsembleRecord) : Prop where
  seats : SeatsConform e
  offers : ∀ x, e.execution = some x → OffersOnce e x

theorem KeepsSeat.competes {p p' : ParticipantRecord} (h : KeepsSeat p p')
    (hcompetes : p'.competes = true) : p.competes = true ∧ p'.profile = p.profile := by
  rw [ParticipantRecord.competes, Bool.and_eq_true, h.declaration] at hcompetes
  obtain ⟨hseated, hselectable⟩ := hcompetes
  refine ⟨?_, (h.seated hseated).2⟩
  rw [ParticipantRecord.competes, Bool.and_eq_true]
  exact ⟨(h.seated hseated).1, hselectable⟩

theorem SeatsConform.kept {e e' : EnsembleRecord} (h : SeatsConform e) (hspec : e'.spec = e.spec)
    (hseats : KeepsSeats e e') : SeatsConform e' := by
  refine ⟨fun p' hp' hcompetes => ?_, fun p' hp' q' hq' hp hq hne hdiverse => ?_⟩
  · obtain ⟨p, hp, hkeeps⟩ := Slots.exists_left hseats hp'
    obtain ⟨hbefore, hprofile⟩ := hkeeps.competes hcompetes
    rw [hspec, hprofile]
    exact h.fits p hp hbefore
  · obtain ⟨p, hmem, hkeeps⟩ := Slots.exists_left hseats hp'
    obtain ⟨q, hmem', hkeeps'⟩ := Slots.exists_left hseats hq'
    obtain ⟨hp, hprofile⟩ := hkeeps.competes hp
    obtain ⟨hq, hprofile'⟩ := hkeeps'.competes hq
    rw [hprofile, hprofile']
    rw [hkeeps.id, hkeeps'.id] at hne
    rw [requiresDiversity_eq hspec hkeeps.declaration hkeeps'.declaration] at hdiverse
    exact h.apart p hmem q hmem' hp hq hne hdiverse

theorem OffersOnce.kept {e e' : EnsembleRecord} {x x' : ExecutionRecord} (h : OffersOnce e x)
    (hspec : e'.spec = e.spec) (hseats : KeepsSeats e e') (hoffers : KeepsOffers x x') :
    OffersOnce e' x' := by
  intro p' hp' hdiverse c' hc' d' hd' hc hd
  obtain ⟨p, hp, hkeeps⟩ := Slots.exists_left hseats hp'
  obtain ⟨c, hmem, hid, hparticipant⟩ := hoffers c' hc'
  obtain ⟨d, hmem', hid', hparticipant'⟩ := hoffers d' hd'
  rw [requiresDiversity_eq hspec hkeeps.declaration hkeeps.declaration] at hdiverse
  rw [hid, hid']
  exact h p hp hdiverse c hmem d hmem' (by rw [← hparticipant, hc, hkeeps.id])
    (by rw [← hparticipant', hd, hkeeps.id])

/-- A seat is taken under a profile that is admitted. -/
theorem Conforming.seats_taken {f : Fabric} {r : ParticipantRegistration} {seat : Seat}
    (h : Conforming seat.ensemble) (hadmits : admitRegistration f r = .ok seat)
    (hconforms : f.admitsProfile r = true) :
    Conforming (seat.write (seatedParticipant seat.participant r)) := by
  obtain ⟨-, -, -, hat, -⟩ := admitRegistration_eq_ok hadmits
  simp only [Fabric.admitsProfile, hadmits, Bool.or_eq_true, Bool.and_eq_true,
    Bool.not_eq_true', List.all_eq_true, beq_iff_eq, bne_iff_ne, isOk_iff] at hconforms
  have hprofile : (seatedParticipant seat.participant r).competes = true →
      checkCompatibility seat.ensemble.spec.requirements r.profile = .ok ()
        ∧ ∀ p ∈ seat.ensemble.participants, p.competes = true → p.id ≠ r.participant →
          seat.ensemble.requiresDiversity p seat.participant = true →
          p.profile.modelFamily ≠ r.profile.modelFamily := by
    intro hcompetes
    have hselectable : seat.participant.declaration.selectable = true :=
      (Bool.and_eq_true _ _ ▸ hcompetes).2
    rcases hconforms with hnever | ⟨hfits, hothers⟩
    · rw [hnever] at hselectable
      cases hselectable
    · refine ⟨hfits, fun p hp hcompetes hne hdiverse => ?_⟩
      rcases hothers p hp with ((hsame | haway) | hfree) | hdiffer
      · exact absurd hsame hne
      · rw [haway] at hcompetes
        cases hcompetes
      · rw [hfree] at hdiverse
        cases hdiverse
      · exact hdiffer
  have hid : (seatedParticipant seat.participant r).id = r.participant := hat.id
  have hsame : ∀ p q : ParticipantRecord, (seat.write
      (seatedParticipant seat.participant r)).requiresDiversity p q
        = seat.ensemble.requiresDiversity p q := fun _ _ => rfl
  refine ⟨⟨fun p hp hcompetes => ?_, fun p hp q hq hpc hqc hne hdiverse => ?_⟩, ?_⟩
  · rcases List.mem_or_eq_of_mem_set hp with hold | rfl
    · exact h.seats.fits p hold hcompetes
    · exact (hprofile hcompetes).1
  · rw [hsame] at hdiverse
    rcases List.mem_or_eq_of_mem_set hp with hold | rfl
    · rcases List.mem_or_eq_of_mem_set hq with hold' | rfl
      · exact h.seats.apart p hold q hold' hpc hqc hne hdiverse
      · exact (hprofile hqc).2 p hold hpc (hid ▸ hne) hdiverse
    · rcases List.mem_or_eq_of_mem_set hq with hold' | rfl
      · rw [requiresDiversity_comm] at hdiverse
        exact ((hprofile hpc).2 q hold' hqc (fun heq => hne (hid.trans heq.symm)) hdiverse).symm
      · exact absurd rfl hne
  · intro x hx p hp hdiverse
    rw [hsame] at hdiverse
    rcases List.mem_or_eq_of_mem_set hp with hold | rfl
    · exact h.offers x hx p hold hdiverse
    · exact h.offers x hx seat.participant (List.mem_of_getElem? hat.get) hdiverse

/-- A candidate is written whose participant has no other content, where
families have to differ. -/
theorem OffersOnce.set {e : EnsembleRecord} {x : ExecutionRecord} {index : Nat}
    {c' : CandidateRecord} (h : OffersOnce e x)
    (halone : ∀ p ∈ e.participants, e.requiresDiversity p p = true → c'.participant = p.id →
      ∀ c ∈ x.offers, c.participant ≠ p.id) :
    OffersOnce e { x with candidates := x.candidates.set index c' } := by
  have hsplit : ∀ c ∈ ({ x with candidates := x.candidates.set index c' } : ExecutionRecord).offers,
      c ∈ x.offers ∨ c = c' := by
    intro c hc
    obtain ⟨hnone, hmem, hcontent⟩ := mem_offers.mp hc
    rcases List.mem_or_eq_of_mem_set hmem with hold | rfl
    · exact .inl (mem_offers.mpr ⟨hnone, hold, hcontent⟩)
    · exact .inr rfl
  intro p hp hdiverse c hc d hd hcp hdp
  rcases hsplit c hc with hold | rfl
  · rcases hsplit d hd with hold' | rfl
    · exact h p hp hdiverse c hold d hold' hcp hdp
    · exact absurd hcp (halone p hp hdiverse hdp c hold)
  · rcases hsplit d hd with hold' | rfl
    · exact absurd hdp (halone p hp hdiverse hcp d hold')
    · rfl

/-- Content is received from a participant that has no other, where families
have to differ. -/
theorem Conforming.content_received {f : Fabric} {r : CandidateSubmission} {l : Located}
    {p : ParticipantRecord} (h : Conforming l.seat.ensemble)
    (hnodup : (l.seat.ensemble.participants.map (·.id)).Nodup)
    (haccept : acceptCandidate f r.authority = .ok l)
    (hpayload : checkPayload f.config.limits r.payload = .ok ())
    (hseat : SameSeat l.seat.participant p) (hconforms : f.admitsContent r = true)
    (received : Sequence) (budget : UInt32) :
    Conforming (l.write (classifiedCandidate l.seat.ensemble.spec.evidence
      (receivedCandidate l.candidate r.payload received budget)) p) := by
  obtain ⟨hlocated, -⟩ := acceptCandidate_eq_ok haccept
  have hseats : KeepsSeats l.seat.ensemble (l.write (classifiedCandidate
      l.seat.ensemble.spec.evidence (receivedCandidate l.candidate r.payload received budget)) p) :=
    keepsSeats_set hlocated.seat.get hseat.keeps rfl
  refine ⟨h.seats.kept rfl hseats, fun x' hx' => ?_⟩
  obtain rfl := Option.some.inj hx'
  have hbefore := h.offers l.execution hlocated.fenced.execution
  by_cases hmalformed : malformedOutput l.seat.ensemble.spec.evidence r.payload = true
  · refine hbefore.kept rfl hseats (keepsOffers_set hlocated.at_ ?_)
    unfold classifiedCandidate
    split
    · exact ⟨rfl, rfl, fun hcontent => by cases hcontent⟩
    · rename_i hgood
      exact absurd hmalformed hgood
  · refine (hbefore.set fun q hq hdiverse howner c hc hmine => ?_).kept rfl hseats (.refl _)
    have howned : l.candidate.participant = q.id := by
      rw [← howner]
      unfold classifiedCandidate
      split <;> rfl
    obtain rfl : q = l.seat.participant :=
      List.inj_on_of_nodup_map hnodup hq (List.mem_of_getElem? hlocated.seat.get)
        (howned.symm.trans hlocated.fenced.owner)
    obtain ⟨-, hmem, hcontent⟩ := mem_offers.mp hc
    simp only [Fabric.admitsContent, haccept, hpayload, Except.isOk, Except.toBool, hmalformed,
      hdiverse, Bool.not_true, Bool.false_or, Bool.or_eq_true, Bool.not_eq_true',
      List.all_eq_true, bne_iff_ne] at hconforms
    rcases hconforms c hmem with hother | hempty
    · exact hother (hmine.trans howned.symm)
    · rw [hempty] at hcontent
      cases hcontent

theorem ConformAfter.conforming {s : System} {event : Event} {e e' : EnsembleRecord}
    (h : ConformAfter s event e e') (hnodup : (e.participants.map (·.id)).Nodup)
    (hconforms : s.conforms event = true) (he : Conforming e) : Conforming e' := by
  cases h with
  | fresh vacant none =>
    have hnobody : ∀ p ∈ e'.participants, p.competes = true → False := fun p hp hcompetes => by
      rw [ParticipantRecord.competes, vacant p hp] at hcompetes
      cases hcompetes
    exact ⟨⟨fun p hp hcompetes => (hnobody p hp hcompetes).elim,
      fun p hp _ _ hcompetes => (hnobody p hp hcompetes).elim⟩, by simp [none]⟩
  | kept spec seats offers =>
    refine ⟨he.seats.kept spec seats, fun x' hx' => ?_⟩
    rcases offers x' hx' with hnone | ⟨x, hx, hkeeps⟩
    · intro p _ _ c hc
      rw [hnone] at hc
      cases hc
    · exact (he.offers x hx).kept spec seats hkeeps
  | seated registers admits ensemble record =>
    subst registers ensemble record
    exact he.seats_taken admits hconforms
  | received submits accept ensemble payload seat record =>
    subst submits ensemble record
    exact he.content_received hnodup accept payload seat hconforms _ _

/-! ## Runs -/

theorem conforming_new (spec : EnsembleSpec) : Conforming (newRecord spec) := by
  have hnobody : ∀ p ∈ (newRecord spec).participants, p.competes = true → False := by
    intro p hp hcompetes
    obtain ⟨declaration, -, rfl⟩ := List.mem_map.mp hp
    cases hcompetes
  exact ⟨⟨fun p hp hcompetes => (hnobody p hp hcompetes).elim,
    fun p hp _ _ hcompetes => (hnobody p hp hcompetes).elim⟩, by rintro _ ⟨⟩⟩

theorem reachable_conforming (config : FabricConfig) {events : List Event}
    (h : Along System.next (fun s event => s.conforms event = true) (System.initial config)
      events) :
    ∀ id e, ((System.initial config).run events).fabric.find id = some e → Conforming e := by
  refine run_invariant_reached
    (I := fun s => ∀ id e, s.fabric.find id = some e → Conforming e)
    (fun before event hconforms hbefore id e' he' => ?_) h (by rintro _ _ ⟨⟩)
  rcases next_record he' with hsame | ⟨e, he, hwritten⟩ | ⟨-, spec, -, rfl⟩
  · exact hbefore id _ hsame
  · exact hwritten.conformAfter.conforming (reachable_seatsApart config before id e he)
      hconforms (hbefore id e he)
  · exact conforming_new spec

/-- In every run in which only admitted profiles are registered for
participants that may win, and no participant delivers twice where families
have to differ: what arbitration judges eligible comes from profiles that meet
the declaration and the ensemble, in families apart where they have to be. -/
theorem eligible_conform (config : FabricConfig) (events : List Event)
    (h : Along System.next (fun s event => s.conforms event = true) (System.initial config)
      events)
    (id : EnsembleId) (e : EnsembleRecord) (x : ExecutionRecord)
    (hfind : ((System.initial config).run events).fabric.find id = some e)
    (hexecution : e.execution = some x) (hundecided : x.result = none) : EligibleConform e x := by
  have hconforming := reachable_conforming config h id e hfind
  have hnodup := ((reachable_apart config events).numbered id).candidates.distinct
  rw [View.candidateIds_of hfind hexecution] at hnodup
  refine ⟨fun r hr heligible => ?_, fun r hr s hs heligible heligible' hne p q hp hq hdiverse => ?_⟩
  · obtain ⟨c, hc, -, hparticipant, hpasses⟩ := eligible_passes hnodup hr heligible
    obtain ⟨-, p, hp, hcompetes, hdeclared⟩ := passesHardChecks_seat hpasses
    refine ⟨p, hparticipant ▸ hp, hdeclared, ?_⟩
    exact hconforming.seats.fits p (List.mem_of_find?_eq_some hp) hcompetes
  · obtain ⟨c, hc, hid, hparticipant, hpasses⟩ := eligible_passes hnodup hr heligible
    obtain ⟨d, hd, hid', hparticipant', hpasses'⟩ := eligible_passes hnodup hs heligible'
    obtain ⟨hcontent, p', hp', hcompetes, -⟩ := passesHardChecks_seat hpasses
    obtain ⟨hcontent', q', hq', hcompetes', -⟩ := passesHardChecks_seat hpasses'
    rw [hparticipant] at hp
    rw [hparticipant'] at hq
    obtain rfl := Option.some.inj (hp'.symm.trans hp)
    obtain rfl := Option.some.inj (hq'.symm.trans hq)
    have hmem := List.mem_of_find?_eq_some hp
    have hmem' := List.mem_of_find?_eq_some hq
    have howner : p'.id = c.participant := by simpa using List.find?_some hp
    have howner' : q'.id = d.participant := by simpa using List.find?_some hq
    by_cases hsame : p'.id = q'.id
    · -- both are of one participant, which delivered once
      have hone : p' = q' :=
        List.inj_on_of_nodup_map (reachable_seatsApart config events id e hfind) hmem hmem' hsame
      subst hone
      have honce := hconforming.offers x hexecution p' hmem hdiverse c
        (mem_offers.mpr ⟨hundecided, hc, hcontent⟩) d
        (mem_offers.mpr ⟨hundecided, hd, hcontent'⟩) howner.symm howner'.symm
      exact absurd (by rw [hid, hid', honce]) hne
    · exact hconforming.seats.apart p' hmem q' hmem' hcompetes hcompetes' hsame hdiverse

namespace Sample

/-- Two candidates of different model families, neither of which is 7. -/
def pickySpec : EnsembleSpec where
  id := ⟨1⟩
  label := "picky"
  participants := [participant 1 candidateRole, participant 2 candidateRole]
  requirements := { excludedModelFamily := 7, requireModelFamilyDiversity := true }

def registerAs (p : UInt64) (modelFamily : UInt32) : Event :=
  .registerParticipant
    { ensemble := ⟨1⟩, ensembleGeneration := ⟨1⟩, participant := ⟨p⟩, worker := ⟨p⟩
      workerBoot := ⟨p⟩, coordinatorEpoch := ⟨1⟩, profile := { modelFamily } }

/-- Both participants deliver, the one of the first family and the other of the
second. -/
def bothDeliver (first second : UInt32) : List Event :=
  [.defineEnsemble pickySpec, registerAs 1 first, registerAs 2 second, .openExecution ⟨1⟩ ⟨1⟩,
    advance, content 1 1 [7], content 2 2 [8]]

end Sample

/-- Two families that are admitted. -/
theorem bothDeliver_conform :
    ∃ e x, (Sample.reached (Sample.bothDeliver 1 2)).fabric.find ⟨1⟩ = some e
      ∧ e.execution = some x ∧ EligibleConform e x := by
  have hconforms : Along System.next (fun s event => s.conforms event = true) (System.initial {})
      (Sample.bothDeliver 1 2) := by decide +kernel
  have hbefore : ((Sample.reached (Sample.bothDeliver 1 2)).fabric.find ⟨1⟩).any
      (fun e => e.execution.any (·.result.isNone)) = true := by decide +kernel
  simp only [Option.any_eq_true, Option.isNone_iff_eq_none] at hbefore
  obtain ⟨e, hfind, x, hexecution, hundecided⟩ := hbefore
  exact ⟨e, x, hfind, hexecution,
    eligible_conform {} (Sample.bothDeliver 1 2) hconforms ⟨1⟩ e x hfind hexecution hundecided⟩

/-- Two candidates of the excluded family are eligible where families have to
differ. -/
theorem bothDeliver_excluded :
    ∃ e x, (Sample.reached (Sample.bothDeliver 7 7)).fabric.find ⟨1⟩ = some e
      ∧ e.execution = some x ∧ x.result = none
      ∧ (∃ r ∈ (computeReports e x).arbitration.ranking, r.eligible = true
        ∧ ∃ s ∈ (computeReports e x).arbitration.ranking, s.eligible = true
        ∧ r.candidate ≠ s.candidate
        ∧ ∃ p, e.participant? r.participant = some p ∧ ∃ q, e.participant? s.participant = some q
        ∧ e.requiresDiversity p q = true ∧ p.profile.modelFamily = q.profile.modelFamily
        ∧ checkCompatibility e.spec.requirements p.profile ≠ .ok ())
      ∧ ¬ EligibleConform e x := by
  have hbefore : ((Sample.reached (Sample.bothDeliver 7 7)).fabric.find ⟨1⟩).any
      (fun e => e.execution.any fun x => x.result.isNone
        && (computeReports e x).arbitration.ranking.any fun r => r.eligible
        && (computeReports e x).arbitration.ranking.any fun s => s.eligible
        && (r.candidate != s.candidate
        && (e.participant? r.participant).any fun p => (e.participant? s.participant).any fun q =>
          e.requiresDiversity p q && (p.profile.modelFamily == q.profile.modelFamily
            && !(checkCompatibility e.spec.requirements p.profile).isOk))) = true := by
    decide +kernel
  simp only [Option.any_eq_true, Option.isNone_iff_eq_none, Bool.and_eq_true, List.any_eq_true,
    beq_iff_eq, bne_iff_ne, Bool.not_eq_true'] at hbefore
  obtain ⟨e, hfind, x, hexecution, hundecided, r, hr, heligible, s, hs, heligible', hne, p, hp, q,
    hq, hdiverse, hfamily, hexcluded⟩ := hbefore
  have hfails : checkCompatibility e.spec.requirements p.profile ≠ .ok () := fun hfits => by
    rw [hfits] at hexcluded
    cases hexcluded
  refine ⟨e, x, hfind, hexecution, hundecided, ⟨r, hr, heligible, s, hs, heligible', hne, p, hp, q,
    hq, hdiverse, hfamily, hfails⟩, fun hconform => ?_⟩
  exact hconform.diverse r hr s hs heligible heligible' hne p q hp hq hdiverse hfamily

end EnsembleFabric
