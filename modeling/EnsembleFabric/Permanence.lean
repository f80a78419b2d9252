import EnsembleFabric.Fallback
import EnsembleFabric.Replacement
import EnsembleFabric.Terminal

/-!
# Impossible quorums

A quorum is impossible when the denominator is below the minimum, or a role
quota is out of reach of the members that can still act. `computeQuorum`
takes that for final, since a denominator only shrinks.

Most of the runtime keeps to it: an advance leaves the membership as it is,
votes are only withdrawn, and every report of an execution whose quorum
could not be met finds it impossible again. Three operations do not:
a registration makes a member authoritative, an evaluation makes its
evaluator a contributor, and a second failure report can turn a failed
member into an unavailable one. This module says exactly when they give a
quorum back that was reported impossible.

`attainable` asks whether the quorum of an execution as it stands can still
be met, and `Sound` says that a reported impossibility is right. The
executions that only lose votes keep it (`Dwindles`, `quorumPossible_mono`).
For each of the three operations the condition asks whether the members or
votes it adds make the quorum attainable again (`registrationRevives`,
`evaluationRevives`, `failureRevives`), and `givesBack_of_revives` shows that
such an event does give it back.
-/

namespace EnsembleFabric

open EventSystem

/-! ## Members and votes -/

/-- A member without its fallback mark, which the quorum does not read. -/
def QuorumMember.unmarked (m : QuorumMember) : QuorumMember := { m with fallback := false }

section Possible

variable (policy : QuorumPolicy) {seats seats' : List QuorumMember}
  {votes votes' : List EligibleVote}

theorem filter_unmarked (seats : List QuorumMember) (p : QuorumMember → Bool)
    (h : ∀ m : QuorumMember, p m.unmarked = p m) :
    ((seats.map (·.unmarked)).filter p).length = (seats.filter p).length := by
  have hp : p ∘ (·.unmarked) = p := funext h
  rw [List.filter_map, List.length_map, hp]

theorem quorumPossible_unmarked (seats : List QuorumMember) (votes : List EligibleVote) :
    quorumPossible policy (seats.map (·.unmarked)) votes = quorumPossible policy seats votes := by
  have hseats : (quorumSeats policy (seats.map (·.unmarked)) votes).length
      = (quorumSeats policy seats votes).length := filter_unmarked seats _ fun _ => rfl
  have hquota : ∀ q : RoleQuota,
      countMembers (seats.map (·.unmarked)) (fun m => m.roles.contains q.role && canContribute m)
        = countMembers seats fun m => m.roles.contains q.role && canContribute m :=
    fun q => filter_unmarked seats _ fun _ => rfl
  rw [quorumPossible, quorumPossible, hseats]
  simp only [hquota]

/-- The same members reach no more with fewer votes. -/
theorem quorumPossible_mono (hseats : seats'.map (·.unmarked) = seats.map (·.unmarked))
    (hvotes : votes' ⊆ votes) (h : quorumPossible policy seats' votes' = true) :
    quorumPossible policy seats votes = true := by
  rw [← quorumPossible_unmarked, hseats, quorumPossible_unmarked] at h
  rw [quorumPossible, Bool.and_eq_true, decide_eq_true_eq] at h ⊢
  refine ⟨h.1.trans ?_, h.2⟩
  have hvoted : ∀ id, voted votes' id = true → voted votes id = true := by
    intro id hid
    obtain ⟨v, hv, hvoter⟩ := List.any_eq_true.mp hid
    exact List.any_eq_true.mpr ⟨v, hvotes hv, hvoter⟩
  rw [quorumSeats, quorumSeats, ← List.countP_eq_length_filter, ← List.countP_eq_length_filter]
  refine List.countP_mono_left fun m _ hm => ?_
  simp only [inDenominator, Bool.or_false, Bool.and_eq_true] at hm ⊢
  refine ⟨⟨⟨?_, hm.1.1.2⟩, hm.1.2⟩, hm.2⟩
  have hbasis := hm.1.1.1
  cases hpolicy : policy.voteBasis with
  | contributingParticipants =>
    rw [hpolicy] at hbasis
    exact hvoted _ hbasis
  | declaredParticipants => rfl
  | authoritativeParticipants | requiredParticipants | eligibleParticipants =>
    rw [hpolicy] at hbasis
    exact hbasis

end Possible

/-! ## Executions -/

/-- The quorum of the execution as it stands can still be met. -/
def attainable (e : EnsembleRecord) (x : ExecutionRecord) : Bool :=
  quorumPossible e.spec.quorum (quorumMembers e x) (eligibleVotes x)

theorem computeReports_impossible (e : EnsembleRecord) (x : ExecutionRecord) :
    (computeReports e x).quorum.state = .impossible ↔ attainable e x = false := by
  rw [computeReports_quorum_given, quorumStateGiven, attainable]
  cases hpossible : quorumPossible e.spec.quorum (quorumMembers e x) (eligibleVotes x) with
  | false => simp
  | true =>
    rw [if_neg (by decide : ¬ true = false)]
    split <;> simp

/-- A quorum reported impossible is out of reach. -/
def Sound (e : EnsembleRecord) (x : ExecutionRecord) : Prop :=
  x.quorum.state = .impossible → attainable e x = false

/-- The execution keeps its members, and votes are only withdrawn. -/
structure Dwindles (e e' : EnsembleRecord) (x x' : ExecutionRecord) : Prop where
  policy : e'.spec.quorum = e.spec.quorum
  members : (quorumMembers e' x').map (·.unmarked) = (quorumMembers e x).map (·.unmarked)
  votes : eligibleVotes x' ⊆ eligibleVotes x

theorem Dwindles.attainable {e e' : EnsembleRecord} {x x' : ExecutionRecord}
    (h : Dwindles e e' x x') (hlost : attainable e x = false) : attainable e' x' = false := by
  by_contra hreach
  rw [Bool.not_eq_false, EnsembleFabric.attainable, h.policy] at hreach
  rw [EnsembleFabric.attainable,
    quorumPossible_mono e.spec.quorum h.members h.votes hreach] at hlost
  cases hlost

/-- What was out of reach stays so, with the last report or a new one. -/
structure StaysLost (e e' : EnsembleRecord) (x x' : ExecutionRecord) : Prop where
  sound : Sound e x → Sound e' x'
  lasting : Sound e x → x.quorum.state = .impossible → x'.quorum.state = .impossible

theorem StaysLost.refl (e : EnsembleRecord) (x : ExecutionRecord) : StaysLost e e x x :=
  ⟨fun h => h, fun _ h => h⟩

theorem StaysLost.trans {e₁ e₂ e₃ : EnsembleRecord} {x₁ x₂ x₃ : ExecutionRecord}
    (h : StaysLost e₁ e₂ x₁ x₂) (h' : StaysLost e₂ e₃ x₂ x₃) : StaysLost e₁ e₃ x₁ x₃ :=
  ⟨fun hs => h'.sound (h.sound hs), fun hs hlost => h'.lasting (h.sound hs) (h.lasting hs hlost)⟩

/-- The last report stays, and what it is about stays out of reach. -/
theorem staysLost_of_kept {e e' : EnsembleRecord} {x x' : ExecutionRecord}
    (hquorum : x'.quorum = x.quorum)
    (hkept : x.quorum.state = .impossible → attainable e x = false → attainable e' x' = false) :
    StaysLost e e' x x' := by
  refine ⟨fun hs hlost => ?_, fun _ hlost => by rw [hquorum, hlost]⟩
  rw [hquorum] at hlost
  exact hkept hlost (hs hlost)

theorem Dwindles.staysLost {e e' : EnsembleRecord} {x x' : ExecutionRecord}
    (h : Dwindles e e' x x') (hquorum : x'.quorum = x.quorum) : StaysLost e e' x x' :=
  staysLost_of_kept hquorum fun _ => h.attainable

/-- A new report. -/
theorem computeReports_staysLost (e : EnsembleRecord) (x : ExecutionRecord) :
    StaysLost e e x (computeReports e x) :=
  ⟨fun _ hlost => (computeReports_impossible e x).mp hlost,
    fun hs hlost => (computeReports_impossible e x).mpr (hs hlost)⟩

/-! ## What keeps the members -/

theorem SameSeats.members {e e' : EnsembleRecord} {x x' : ExecutionRecord} (h : SameSeats e e')
    (hepoch : x'.coordinatorEpoch = x.coordinatorEpoch) :
    (quorumMembers e' x').map (·.unmarked) = (quorumMembers e x).map (·.unmarked) := by
  rw [quorumMembers, quorumMembers, List.map_map, List.map_map, hepoch]
  refine Slots.map_key (fun hsame => ?_) h.participants
  obtain ⟨hid, hgeneration, hstatus, hregistered, hcoordinator, hdeclaration⟩ := hsame
  simp [QuorumMember.unmarked, quorumMember, ParticipantRecord.authoritative, hid, hgeneration,
    hstatus, hregistered, hcoordinator, hdeclaration]

theorem SameSeats.dwindles {e e' : EnsembleRecord} {x x' : ExecutionRecord} (h : SameSeats e e')
    (hepoch : x'.coordinatorEpoch = x.coordinatorEpoch)
    (hvotes : eligibleVotes x' ⊆ eligibleVotes x) : Dwindles e e' x x' :=
  ⟨by rw [h.spec], h.members hepoch, hvotes⟩

theorem supersedeCandidateEvidence_votes (x : ExecutionRecord) (candidate : CandidateId) :
    eligibleVotes (supersedeCandidateEvidence x candidate) ⊆ eligibleVotes x := by
  intro v hv
  obtain ⟨r', hr', rfl⟩ := List.mem_map.mp hv
  obtain ⟨hmem, hcurrent⟩ := List.mem_filter.mp hr'
  obtain ⟨r, hr, rfl⟩ := List.mem_map.mp hmem
  split at hcurrent
  · cases hcurrent
  · rename_i hother
    rw [if_neg hother]
    exact List.mem_map_of_mem (List.mem_filter.mpr ⟨hr, hcurrent⟩)

theorem failCandidate_dwindles (e : EnsembleRecord) (x : ExecutionRecord) (index : Nat)
    (c : CandidateRecord) (failure : EnsembleError) (detail : String) :
    Dwindles e (failCandidate e x index c failure detail).1 x
      (failCandidate e x index c failure detail).2 :=
  (failCandidate_seats e x index c failure detail).dwindles rfl
    (supersedeCandidateEvidence_votes _ c.id)

theorem rewindCandidateForRetry_dwindles (e : EnsembleRecord) (x : ExecutionRecord) (index : Nat)
    (c : CandidateRecord) :
    Dwindles e (rewindCandidateForRetry e x index c).1 x
      (rewindCandidateForRetry e x index c).2 :=
  (rewindCandidateForRetry_seats e x index c).dwindles rfl
    (supersedeCandidateEvidence_votes x c.id)

theorem Dwindles.refl (e : EnsembleRecord) (x : ExecutionRecord) : Dwindles e e x x :=
  ⟨rfl, rfl, fun _ h => h⟩

theorem Dwindles.trans {e₁ e₂ e₃ : EnsembleRecord} {x₁ x₂ x₃ : ExecutionRecord}
    (h : Dwindles e₁ e₂ x₁ x₂) (h' : Dwindles e₂ e₃ x₂ x₃) : Dwindles e₁ e₃ x₁ x₃ :=
  ⟨h'.policy.trans h.policy, h'.members.trans h.members, fun _ hv => h.votes (h'.votes hv)⟩

/-- Releasing the candidates of a participant. -/
theorem handleParticipantFailure_dwindles (e : EnsembleRecord) (x : ExecutionRecord)
    (p : ParticipantRecord) (kind : ParticipantFailureKind) (detail : String) :
    Dwindles e (handleParticipantFailure e x p kind detail).1 x
        (handleParticipantFailure e x p kind detail).2
      ∧ (handleParticipantFailure e x p kind detail).2.quorum = x.quorum
      ∧ (handleParticipantFailure e x p kind detail).2.id = x.id := by
  refine Threaded.foldl_related (f := releaseCandidate p kind detail)
    (R := fun a b : EnsembleRecord × ExecutionRecord =>
      Dwindles a.1 b.1 a.2 b.2 ∧ b.2.quorum = a.2.quorum ∧ b.2.id = a.2.id)
    (fun a => ⟨.refl _ _, rfl, rfl⟩)
    (fun h h' => ⟨h.1.trans h'.1, h'.2.1.trans h.2.1, h'.2.2.trans h.2.2⟩) ?_ (e, x)
  rintro ⟨e, x⟩ index -
  unfold releaseCandidate
  simp only
  split
  · exact ⟨.refl _ _, rfl, rfl⟩
  · rename_i c _
    split
    · exact ⟨.refl _ _, rfl, rfl⟩
    · split
      · exact ⟨rewindCandidateForRetry_dwindles e x index _, rfl, rfl⟩
      · exact ⟨failCandidate_dwindles e x index c _ _, rfl, rfl⟩

/-! ## An advance -/

namespace AdvanceState

/-- Nothing the quorum reads changes, but for votes that are withdrawn. -/
structure QuorumKept (s s' : AdvanceState) : Prop where
  dwindles : Dwindles s.ensemble s'.ensemble s.execution s'.execution
  quorum : s'.execution.quorum = s.execution.quorum

theorem quorumKept_of_fields {s s' : AdvanceState} (seats : SameSeats s.ensemble s'.ensemble)
    (epoch : s'.execution.coordinatorEpoch = s.execution.coordinatorEpoch)
    (evaluations : s'.execution.evaluations = s.execution.evaluations)
    (quorum : s'.execution.quorum = s.execution.quorum) : QuorumKept s s' := by
  refine ⟨seats.dwindles epoch ?_, quorum⟩
  rw [eligibleVotes, evaluations]
  exact fun _ h => h

theorem AdvanceStep.quorumKept {limits : Limits} {s s' : AdvanceState}
    (h : AdvanceStep limits s s') : QuorumKept s s' ∨ s' = s.report := by
  have hseats := h.keeps_seats
  cases h with
  | round | adopted | dispatched | completed =>
    exact .inl (quorumKept_of_fields hseats rfl rfl rfl)
  | @declared _ stage _ undeclared result =>
    obtain ⟨m, hm, rfl⟩ := declareStage_eq_ok undeclared result
    have hmembers := declareMembers_same limits stage stage.participants s
    rw [hm, Threaded.final_ok] at hmembers
    exact .inl (quorumKept_of_fields hseats (congrArg (·.coordinatorEpoch) hmembers.execution)
      (congrArg (·.evaluations) hmembers.execution) (congrArg (·.quorum) hmembers.execution))
  | @stranded _ index c p =>
    refine .inl ⟨hseats.dwindles rfl ?_, rfl⟩
    exact supersedeCandidateEvidence_votes _ c.id
  | reopened =>
    refine .inl (quorumKept_of_fields hseats ?_ ?_ ?_) <;>
    · unfold reopenPlanning
      split <;> rfl
  | planned _ incomplete result =>
    obtain ⟨done, added, hplans, -⟩ := planEvaluations_plans incomplete
    rw [result, Threaded.final_ok] at hplans
    exact .inl (quorumKept_of_fields hseats (by rw [hplans.execution]) (by rw [hplans.execution])
      (by rw [hplans.execution]))
  | emitted index =>
    obtain ⟨-, hexecution | ⟨p, p', -, -, hexecution⟩⟩ := emitOne_execution s index <;>
    exact .inl (quorumKept_of_fields hseats (by rw [hexecution]) (by rw [hexecution])
      (by rw [hexecution]))
  | reported => exact .inr rfl
  | activated _ decision =>
    have hexecution := (activateFallback_eq decision).1
    exact .inl (quorumKept_of_fields hseats (by rw [hexecution]; rfl) (by rw [hexecution]; rfl)
      (by rw [hexecution]; rfl))

theorem AdvanceStop.quorumKept {limits : Limits} {s s' : AdvanceState} {error : Error}
    (h : AdvanceStop limits s (error, s')) : QuorumKept s s' := by
  cases h with
  | @undeclared stage _ undeclared result =>
    have hmembers := declareMembers_same limits stage stage.participants s
    rw [declareStage_eq_error undeclared result, Threaded.final_error] at hmembers
    refine quorumKept_of_fields ?_ (by rw [hmembers.execution]) (by rw [hmembers.execution])
      (by rw [hmembers.execution])
    rw [show s'.ensemble = s.ensemble from hmembers.ensemble]
    exact .refl _
  | unplanned _ incomplete result =>
    obtain ⟨done, added, hplans, -⟩ := planEvaluations_plans incomplete
    rw [result, Threaded.final_error] at hplans
    refine quorumKept_of_fields ?_ (by rw [hplans.execution]) (by rw [hplans.execution])
      (by rw [hplans.execution])
    rw [show s'.ensemble = s.ensemble from hplans.ensemble]
    exact .refl _

theorem AdvanceSteps.staysLost {limits : Limits} {s s' : AdvanceState}
    (h : AdvanceSteps limits s s') :
    StaysLost s.ensemble s'.ensemble s.execution s'.execution := by
  induction h with
  | refl => exact .refl _ _
  | tail _ hlast ih =>
    rcases hlast.quorumKept with hkept | rfl
    · exact ih.trans (hkept.dwindles.staysLost hkept.quorum)
    · exact ih.trans (computeReports_staysLost _ _)

end AdvanceState

/-- An advance does not give a lost quorum back. -/
theorem advanceOpen_staysLost (limits : Limits) (core : Core) (e : EnsembleRecord)
    (x : ExecutionRecord) :
    StaysLost e (advanceOpen limits core e x).1.ensemble x
      (advanceOpen limits core e x).1.execution := by
  have hends := advanceOpen_ends limits core e x
  generalize advanceOpen limits core e x = out at hends ⊢
  cases hends with
  | @settled s steps =>
    have hsteps : StaysLost e s.ensemble x s.execution := AdvanceState.AdvanceSteps.staysLost steps
    exact hsteps.trans (computeReports_staysLost _ _)
  | @stopped m _ s steps stop =>
    have hsteps : StaysLost e m.ensemble x m.execution := AdvanceState.AdvanceSteps.staysLost steps
    exact hsteps.trans (stop.quorumKept.dwindles.staysLost stop.quorumKept.quorum)

/-! ## One event -/

/-- The execution is open, and its quorum was last reported impossible. -/
def ExecutionRecord.givenUp (x : ExecutionRecord) : Bool :=
  x.status == .opened && x.quorum.state == .impossible

/-- Members and votes with which a quorum that was given up can be met. -/
def revives (e : EnsembleRecord) (seats : ExecutionRecord → List QuorumMember)
    (votes : ExecutionRecord → List EligibleVote) : Bool :=
  e.execution.any fun x => x.givenUp && quorumPossible e.spec.quorum (seats x) (votes x)

/-- The registration makes enough members authoritative. -/
def registrationRevives (f : Fabric) (r : ParticipantRegistration) : Bool :=
  match admitRegistration f r with
  | .error _ => false
  | .ok seat =>
      revives seat.ensemble
        (quorumMembers (seat.write (seatedParticipant seat.participant r))) eligibleVotes

/-- The evaluation makes its evaluator a contributor that was missing. -/
def evaluationRevives (f : Fabric) (r : EvaluationSubmission) : Bool :=
  match acceptEvaluation f r with
  | .error _ => false
  | .ok site =>
      revives site.seat.ensemble (quorumMembers site.seat.ensemble) fun x =>
        eligibleVotes x ++ [eligibleVote (acceptedRecord f r site)]

/-- The failure report reclassifies a member that was not counted, and
leaves the execution open. -/
def failureRevives (f : Fabric) (a : ParticipantAuthority) (kind : ParticipantFailureKind)
    (detail : String) : Bool :=
  match admitFailureReport f a with
  | .error _ => false
  | .ok seat =>
      let p := lostParticipant seat.participant kind detail
      !cancelsExecution seat.ensemble p
        && revives seat.ensemble (quorumMembers (seat.write p)) fun x =>
          eligibleVotes (handleParticipantFailure (seat.write p) x p kind detail).2

/-- The event gives members or votes with which a quorum that was reported
impossible can be met. Registrations, evaluations and failure reports are the
only events that can. -/
def System.revivesQuorum (s : System) : Event → Bool
  | .registerParticipant r => registrationRevives s.fabric r
  | .submitEvaluation r => evaluationRevives s.fabric r
  | .reportParticipantFailure a kind detail => failureRevives s.fabric a kind detail
  | _ => false

theorem not_possible_of_not_revives {e : EnsembleRecord} {x : ExecutionRecord}
    {seats : ExecutionRecord → List QuorumMember} {votes : ExecutionRecord → List EligibleVote}
    (h : revives e seats votes = false) (hx : e.execution = some x) (hopen : x.status = .opened)
    (hlost : x.quorum.state = .impossible) :
    quorumPossible e.spec.quorum (seats x) (votes x) = false := by
  simpa [revives, hx, ExecutionRecord.givenUp, hopen, hlost] using h

theorem StaysLost.holding {e e' : EnsembleRecord} {x x' : ExecutionRecord}
    (h : StaysLost e e' x x') (held : ExecutionRecord) : StaysLost e (e'.holding held) x x' :=
  ⟨h.sound, h.lasting⟩

/-- A candidate is written back, and the counters of its participant. -/
theorem SameSeat.staysLost {e : EnsembleRecord} {x : ExecutionRecord} {index : Nat}
    {p p' : ParticipantRecord} (hp : e.participants[index]? = some p) (h : SameSeat p p')
    (cs : List CandidateRecord) :
    StaysLost e
      ({ e with participants := e.participants.set index p' }.holding { x with candidates := cs })
      x { x with candidates := cs } := by
  have hdwindles : Dwindles e { e with participants := e.participants.set index p' } x
      { x with candidates := cs } := (h.seats hp).dwindles rfl fun _ hv => hv
  exact (hdwindles.staysLost rfl).holding _

theorem evaluatedExecution_votes (site : EvaluationSite) (r : EvaluationRecord)
    (h : r.current = true) :
    eligibleVotes (evaluatedExecution site r)
      = eligibleVotes site.execution ++ [eligibleVote r] := by
  have hr : [r].filter (·.current) = [r] := by simp [h]
  change (((site.execution.evaluations ++ [r]).filter (·.current)).map eligibleVote) = _
  rw [List.filter_append, hr, List.map_append]
  rfl

/-- The members after an evaluation are those before it. -/
theorem evaluated_attainable {site : EvaluationSite} {id : ParticipantId}
    {p : ParticipantRecord} {r : EvaluationRecord} (hp : SeatAt site.seat.ensemble id site.seat)
    (hseat : SameSeat site.seat.participant p) (hr : r.current = true) :
    attainable ((site.seat.write p).holding (evaluatedExecution site r))
        (evaluatedExecution site r)
      = quorumPossible site.seat.ensemble.spec.quorum
          (quorumMembers site.seat.ensemble site.execution)
          (eligibleVotes site.execution ++ [eligibleVote r]) := by
  have hmembers : (quorumMembers (site.seat.write p) (evaluatedExecution site r)).map (·.unmarked)
      = (quorumMembers site.seat.ensemble site.execution).map (·.unmarked) :=
    (hseat.seats hp.get).members rfl
  rw [attainable, evaluatedExecution_votes site r hr, ← quorumPossible_unmarked,
    ← quorumPossible_unmarked _ (quorumMembers site.seat.ensemble site.execution), ← hmembers]
  rfl

/-- The members after a failure report are those with the participant lost. -/
theorem released_attainable (e : EnsembleRecord) (x : ExecutionRecord) (p : ParticipantRecord)
    (kind : ParticipantFailureKind) (detail : String) :
    attainable (handleParticipantFailure e x p kind detail).1
        (handleParticipantFailure e x p kind detail).2
      = quorumPossible e.spec.quorum (quorumMembers e x)
          (eligibleVotes (handleParticipantFailure e x p kind detail).2) := by
  obtain ⟨hdwindles, -⟩ := handleParticipantFailure_dwindles e x p kind detail
  rw [attainable, hdwindles.policy, ← quorumPossible_unmarked, hdwindles.members,
    quorumPossible_unmarked]

/-- Where the execution that is open after an event comes from. -/
inductive QuorumAfter (e e' : EnsembleRecord) (x' : ExecutionRecord) : Prop
  | fresh (unreported : x'.quorum.state = .notEvaluated)
      (other : ∀ x, e.execution = some x → x'.id ≠ x.id)
  | follows {x} (before : e.execution = some x) (status : x.status = .opened)
      (lost : StaysLost e e' x x')

/-- An event that revives no quorum leaves what is out of reach there. -/
theorem Written.quorumAfter {s : System} {event : Event} {id : EnsembleId} {e e' : EnsembleRecord}
    {x' : ExecutionRecord} (h : Written s event id e e') (hx' : e'.execution = some x')
    (hopen : x'.status = .opened) (hkeeps : s.revivesQuorum event = false) :
    QuorumAfter e e' x' := by
  have hclosed : ∀ {y : ExecutionRecord}, e'.execution = some y → y.status ≠ .opened → False := by
    intro y hy hstatus
    obtain rfl := Option.some.inj (hx'.symm.trans hy)
    exact hstatus hopen
  cases h with
  | redefined => cases hx'
  | superseded =>
    rw [Option.map_eq_some_iff] at hx'
    obtain ⟨y, -, rfl⟩ := hx'
    unfold supersededExecution at hopen
    split at hopen
    · cases hopen
    · rename_i hended
      exact absurd hopen hended
  | @seated r seat registers at_ admits =>
    obtain rfl := at_.ensemble
    refine .follows hx' hopen (staysLost_of_kept rfl fun hlost _ => ?_)
    subst registers
    replace hkeeps : registrationRevives s.fabric r = false := hkeeps
    rw [registrationRevives, admits] at hkeeps
    exact not_possible_of_not_revives hkeeps hx' hopen hlost
  | started _ _ _ later =>
    obtain rfl := Option.some.inj hx'
    refine .fresh rfl fun x hx heq => ?_
    obtain ⟨rfl, hlast⟩ := later x hx
    have hlt := StrongId.lt_next hlast
    rw [show x.id.next = x.id from heq] at hlt
    exact absurd hlt (UInt64.lt_irrefl _)
  | withdrawn _ _ status => exact (hclosed rfl (by simp [emitCancellation, status])).elim
  | closed => exact (hclosed rfl (by simp [closedExecution])).elim
  | @advanced x _ _ before status _ result =>
    subst result
    obtain rfl := Option.some.inj hx'
    exact .follows before status ((advanceOpen_staysLost _ _ e x).holding _)
  | received _ accept ensemble _ seat | abstained _ accept ensemble seat =>
    subst ensemble
    have hlocated := (acceptCandidate_eq_ok accept).1
    obtain rfl := Option.some.inj hx'
    exact .follows hlocated.fenced.execution hopen (SameSeat.staysLost hlocated.seat.get seat _)
  | @retried r l kind _ accept ensemble =>
    subst ensemble
    obtain rfl := Option.some.inj hx'
    have hdwindles := rewindCandidateForRetry_dwindles l.seat.ensemble l.execution l.index
      l.candidate
    exact .follows (acceptCandidate_eq_ok accept).1.fenced.execution hopen
      ((hdwindles.staysLost rfl).holding _)
  | @dropped r l kind _ accept ensemble =>
    subst ensemble
    obtain rfl := Option.some.inj hx'
    have hlost : StaysLost _ _ _ _ :=
      (failCandidate_dwindles l.seat.ensemble l.execution l.index l.candidate
        (failureError kind) s!"participant reported {kind.toString}").staysLost rfl
    exact .follows (acceptCandidate_eq_ok accept).1.fenced.execution hopen (hlost.holding _)
  | @evaluated r site p submits accept ensemble seat =>
    subst ensemble
    have haccepted := acceptEvaluation_eq_ok accept
    obtain rfl := Option.some.inj hx'
    have hstatus : site.execution.status = .opened := hopen
    refine .follows haccepted.execution hstatus (staysLost_of_kept rfl fun hlost _ => ?_)
    subst submits
    replace hkeeps : evaluationRevives s.fabric r = false := hkeeps
    rw [evaluationRevives, accept] at hkeeps
    have hshort := not_possible_of_not_revives hkeeps haccepted.execution hstatus hlost
    exact (evaluated_attainable haccepted.seat seat rfl).trans hshort
  | @lost _ seat _ _ _ _ ensemble ended =>
    subst ensemble
    rw [EnsembleRecord.isOpen, show seat.ensemble.execution = some x' from hx'] at ended
    simp [hopen] at ended
  | @released a seat kind detail x reports admits ensemble before status =>
    subst ensemble
    have hspec := (handleParticipantFailure_keeps
      (seat.write (lostParticipant seat.participant kind detail)) x
      (lostParticipant seat.participant kind detail) kind detail).1
    obtain ⟨-, hquorum, -⟩ := handleParticipantFailure_dwindles
      (seat.write (lostParticipant seat.participant kind detail)) x
      (lostParticipant seat.participant kind detail) kind detail
    unfold releasedRecord at hx' ⊢
    simp only at hx' ⊢
    split at hx'
    · obtain rfl := Option.some.inj hx'
      cases hopen
    · rename_i hstays
      obtain rfl := Option.some.inj hx'
      rw [if_neg hstays]
      refine .follows before status ((staysLost_of_kept hquorum fun hlost _ => ?_).holding _)
      rw [cancelsExecution, hspec] at hstays
      subst reports
      replace hkeeps : failureRevives s.fabric a kind detail = false := hkeeps
      rw [failureRevives, admits, Bool.and_eq_false_iff, Bool.not_eq_false'] at hkeeps
      have hshort := not_possible_of_not_revives (hkeeps.resolve_left hstays) before status hlost
      exact (released_attainable _ x _ kind detail).trans hshort
  | cancelled => exact (hclosed rfl (by simp [cancelledExecution])).elim
  | invalidated =>
    obtain ⟨y, -, rfl⟩ := Option.map_eq_some_iff.mp hx'
    unfold invalidatedExecution at hopen
    split at hopen
    · cases hopen
    · rename_i hended
      exact absurd hopen hended
  | @reported x _ before =>
    obtain rfl := Option.some.inj hx'
    exact .follows before hopen ((computeReports_staysLost e x).holding _)
  | @attempted _ x _ before =>
    obtain rfl := Option.some.inj hx'
    have hkept : StaysLost e e x { x with commitAttempts := x.commitAttempts + 1 } :=
      Dwindles.staysLost ⟨rfl, rfl, fun _ hv => hv⟩ rfl
    exact .follows before hopen (hkept.holding _)
  | stored =>
    refine (hclosed rfl ?_).elim
    rw [storeResult_status]
    exact statusFor_ne_opened _

/-- After the event, an execution whose quorum was reported impossible is
still open, and its next report is another one. -/
def GivesBack (s : System) (event : Event) : Prop :=
  ∃ id e x e' x', s.fabric.find id = some e ∧ e.execution = some x ∧ x.givenUp = true
    ∧ (s.next event).fabric.find id = some e' ∧ e'.execution = some x' ∧ x'.id = x.id
    ∧ x'.status = .opened ∧ (computeReports e' x').quorum.state ≠ .impossible

theorem revives_eq_true {e : EnsembleRecord} {seats : ExecutionRecord → List QuorumMember}
    {votes : ExecutionRecord → List EligibleVote} (h : revives e seats votes = true) :
    ∃ x, e.execution = some x ∧ x.givenUp = true
      ∧ quorumPossible e.spec.quorum (seats x) (votes x) = true := by
  obtain ⟨x, hx, h⟩ := (Option.any_eq_true _ _).mp h
  rw [Bool.and_eq_true] at h
  exact ⟨x, hx, h⟩

theorem reports_of_attainable {e : EnsembleRecord} {x : ExecutionRecord}
    (h : attainable e x = true) : (computeReports e x).quorum.state ≠ .impossible := by
  rw [Ne, computeReports_impossible, h]
  exact nofun

/-- The condition leaves out only events that give a quorum back. -/
theorem givesBack_of_revives {s : System} {event : Event} (h : s.revivesQuorum event = true) :
    GivesBack s event := by
  have hstatus : ∀ {x : ExecutionRecord}, x.givenUp = true → x.status = .opened := by
    intro x hlost
    rw [ExecutionRecord.givenUp, Bool.and_eq_true, beq_iff_eq] at hlost
    exact hlost.1
  cases event with
  | registerParticipant r =>
    replace h : registrationRevives s.fabric r = true := h
    unfold registrationRevives at h
    split at h
    · cases h
    · rename_i seat hadmit
      obtain ⟨x, hx, hlost, hpossible⟩ := revives_eq_true h
      obtain ⟨-, -, he, -, -⟩ := admitRegistration_eq_ok hadmit
      have hnext : (s.next (.registerParticipant r)).fabric.find r.ensemble
          = some (seat.write (seatedParticipant seat.participant r)) := by
        simp [System.next, System.step, System.answer, registerParticipant, hadmit]
      exact ⟨r.ensemble, _, x, _, x, he, hx, hlost, hnext, hx, rfl, hstatus hlost,
        reports_of_attainable hpossible⟩
  | submitEvaluation r =>
    replace h : evaluationRevives s.fabric r = true := h
    unfold evaluationRevives at h
    split at h
    · cases h
    · rename_i site haccept
      obtain ⟨x, hx, hlost, hpossible⟩ := revives_eq_true h
      have haccepted := acceptEvaluation_eq_ok haccept
      obtain rfl := Option.some.inj (haccepted.execution.symm.trans hx)
      have hnext : (s.next (.submitEvaluation r)).fabric.find r.authority.evaluator.ensemble
          = some ((site.seat.write
              { site.seat.participant with
                evaluationsSubmitted := site.seat.participant.evaluationsSubmitted + 1 }).holding
            (evaluatedExecution site (acceptedRecord s.fabric r site))) := by
        simp [System.next, System.step, System.answer, submitEvaluation, haccept, acceptedRecord]
      refine ⟨_, _, _, _, _, haccepted.ensemble, hx, hlost, hnext, rfl, rfl, hstatus hlost,
        reports_of_attainable ?_⟩
      have hseat : SameSeat site.seat.participant
          { site.seat.participant with
            evaluationsSubmitted := site.seat.participant.evaluationsSubmitted + 1 } :=
        ⟨⟨rfl, rfl, rfl, rfl, rfl, rfl, rfl⟩, rfl, rfl⟩
      exact (evaluated_attainable haccepted.seat hseat rfl).trans hpossible
  | reportParticipantFailure a kind detail =>
    replace h : failureRevives s.fabric a kind detail = true := h
    unfold failureRevives at h
    split at h
    · cases h
    · rename_i seat hadmit
      rw [Bool.and_eq_true, Bool.not_eq_true'] at h
      obtain ⟨hstays, hrevives⟩ := h
      obtain ⟨x, hx, hlost, hpossible⟩ := revives_eq_true hrevives
      obtain ⟨he, -⟩ := admitFailureReport_eq_ok hadmit
      let p := lostParticipant seat.participant kind detail
      have hkeeps := handleParticipantFailure_keeps (seat.write p) x p kind detail
      have hcancels : cancelsExecution (handleParticipantFailure (seat.write p) x p kind detail).1 p
          = false := by
        rw [cancelsExecution, hkeeps.1]
        exact hstays
      have hnext : (s.next (.reportParticipantFailure a kind detail)).fabric.find a.ensemble
          = some ((handleParticipantFailure (seat.write p) x p kind detail).1.holding
            (handleParticipantFailure (seat.write p) x p kind detail).2) := by
        simp only [System.next, System.step, System.answer, reportParticipantFailure, hadmit]
        rw [show (seat.write (lostParticipant seat.participant kind detail)).execution = some x
          from hx]
        simp [hstatus hlost, p, hcancels]
      refine ⟨_, _, x, _, _, he, hx, hlost, hnext, rfl, ?_,
        hkeeps.2.status.trans (hstatus hlost), reports_of_attainable ?_⟩
      · exact (handleParticipantFailure_dwindles (seat.write p) x p kind detail).2.2
      · change attainable (handleParticipantFailure (seat.write p) x p kind detail).1 _ = true
        rw [released_attainable]
        exact hpossible
  | _ => cases h

/-! ## Runs -/

/-- Every quorum that was reported impossible is out of reach. -/
def AllSound (s : System) : Prop :=
  ∀ id e x, s.fabric.find id = some e → e.execution = some x → x.status = .opened → Sound e x

theorem AllSound.next {s : System} {event : Event} (h : AllSound s)
    (hkeeps : s.revivesQuorum event = false) : AllSound (s.next event) := by
  intro id e' x' he' hx' hopen
  rcases next_execution he' hx' with hsame | ⟨e, he, hwritten⟩
  · exact h id _ x' hsame hx' hopen
  · cases hwritten.quorumAfter hx' hopen hkeeps with
    | fresh unreported =>
      intro hlost
      rw [unreported] at hlost
      cases hlost
    | follows before status lost => exact lost.sound (h id e _ he before status)

/-- An execution that is open at the end of a run was open all along, and an
impossible quorum stays impossible. -/
theorem impossible_run {s : System} {more : List Event} {key : ExecutionKey}
    {x x' : ExecutionRecord} (hnamed : Named s.fabric) (hsound : AllSound s)
    (hkeeps : Along System.next (fun s event => s.revivesQuorum event = false) s more)
    (hx : s.executionOf key = some x) (hx' : (s.run more).executionOf key = some x')
    (hopen : x'.status = .opened) :
    x.status = .opened ∧ (x.quorum.state = .impossible → x'.quorum.state = .impossible) := by
  induction more generalizing s x with
  | nil =>
    obtain rfl := Option.some.inj (hx.symm.trans hx')
    exact ⟨hopen, fun h => h⟩
  | cons event more ih =>
    have hnext : Named (s.next event).fabric :=
      (next_viewSteps rfl hnamed (allows_all _ s event) ⟨0⟩).2.1
    have hmid : Named (s.run [event]).fabric := hnext
    obtain ⟨x₁, hx₁⟩ := executionOf_between hnamed hmid hx hx'
    obtain ⟨hopen₁, hlasts⟩ := ih hnext (hsound.next hkeeps.1) hkeeps.2 hx₁ hx'
    obtain ⟨e, he, hgen, hexecution, hid⟩ := executionOf_eq_some.mp hx
    obtain ⟨e₁, he₁, hgen₁, hexecution₁, hid₁⟩ := executionOf_eq_some.mp hx₁
    obtain ⟨e₂, he₂, hwritten⟩ := (next_writes s event).known key.ensemble e he
    obtain rfl : e₂ = e₁ := Option.some.inj (he₂.symm.trans he₁)
    rcases hwritten with rfl | hwritten
    · obtain rfl := Option.some.inj (hexecution.symm.trans hexecution₁)
      exact ⟨hopen₁, hlasts⟩
    · cases hwritten.quorumAfter hexecution₁ hopen₁ hkeeps.1 with
      | fresh _ other => exact absurd (hid₁.trans hid.symm) (other x hexecution)
      | follows before status lost =>
        obtain rfl := Option.some.inj (hexecution.symm.trans before)
        have hxsound := hsound key.ensemble e x he hexecution status
        exact ⟨status, fun himpossible => hlasts (lost.lasting hxsound himpossible)⟩

/-- Where no event revives a quorum, every later report of an open execution
whose quorum was reported impossible is impossible too; and an event that
revives one gives it back. -/
theorem impossible_permanent (config : FabricConfig) (events : List Event) :
    (∀ more, Along System.next (fun s event => s.revivesQuorum event = false) (.initial config)
          (events ++ more) →
        ∀ key x x', ((System.initial config).run events).executionOf key = some x →
          x.quorum.state = .impossible →
          (((System.initial config).run events).run more).executionOf key = some x' →
          x'.status = .opened → x'.quorum.state = .impossible)
      ∧ ∀ event, ((System.initial config).run events).revivesQuorum event = true →
        GivesBack ((System.initial config).run events) event := by
  refine ⟨fun more hkeeps key x x' hx himpossible hx' hopen => ?_,
    fun _ => givesBack_of_revives⟩
  obtain ⟨hbefore, hafter⟩ := along_append.mp hkeeps
  have hsound : AllSound ((System.initial config).run events) := by
    refine run_invariant_along (fun s event hcond hs => AllSound.next hs hcond) hbefore ?_
    intro id e x he
    cases he
  exact (impossible_run (reachable_named config events).2 hsound hafter hx hx' hopen).2 himpossible

namespace Sample

/-- The denominator is made of the members that voted. -/
def contributingSpec : EnsembleSpec where
  id := ⟨1⟩
  label := "contributing"
  participants := [participant 1 candidateRole, participant 2 judgeRole]
  judgingCriteria := [⟨1, 1⟩]
  quorum := { voteBasis := .contributingParticipants, minParticipants := 1 }

/-- Nobody has voted yet. -/
def unvoted : List Event := start contributingSpec ++ [content 1 1 [7], advance]

/-- The only judge votes. -/
def votedLate : List Event := [judge 2 1 1 1 .accept, advance]

def quorumState (events : List Event) : Option QuorumState :=
  (execution events).map (·.quorum.state)

def executionKey : ExecutionKey := ⟨⟨1⟩, ⟨1⟩, ⟨1⟩⟩

/-- Both members are asked for. -/
def shortSpec : EnsembleSpec where
  id := ⟨1⟩
  label := "short"
  participants := [participant 1 candidateRole, participant 2 candidateRole]
  quorum := { minParticipants := 2 }

/-- The second member never registers. -/
def shortRun : List Event :=
  [.defineEnsemble shortSpec, register 1, .openExecution ⟨1⟩ ⟨1⟩, advance]

end Sample

/-- A quorum that one member alone cannot meet stays impossible while that
member works. -/
theorem shortRun_stays_impossible : ∃ x',
    ((Sample.reached Sample.shortRun).run [Sample.content 1 1 [7], Sample.advance]).executionOf
        Sample.executionKey = some x'
      ∧ x'.status = .opened ∧ x'.quorum.state = .impossible := by
  have hkeeps : Along System.next (fun s event => s.revivesQuorum event = false) (.initial {})
      (Sample.shortRun ++ [Sample.content 1 1 [7], Sample.advance]) := by
    decide +kernel
  have hbefore : ((Sample.reached Sample.shortRun).executionOf Sample.executionKey).any
      (fun x => x.quorum.state == .impossible) = true := by
    decide +kernel
  have hafter : (((Sample.reached Sample.shortRun).run
      [Sample.content 1 1 [7], Sample.advance]).executionOf Sample.executionKey).any
        (fun x => x.status == .opened) = true := by
    decide +kernel
  simp only [Option.any_eq_true, beq_iff_eq] at hbefore hafter
  obtain ⟨x, hx, himpossible⟩ := hbefore
  obtain ⟨x', hx', hopen⟩ := hafter
  exact ⟨x', hx', hopen, (impossible_permanent {} Sample.shortRun).1
    [Sample.content 1 1 [7], Sample.advance] hkeeps Sample.executionKey x x' hx himpossible hx'
    hopen⟩

/-- Before the first vote the quorum of contributing members is reported
impossible; after it the quorum is reached: the vote makes the judge a member
of the denominator. -/
theorem impossible_reached :
    Sample.quorumState Sample.unvoted = some .impossible
      ∧ Sample.quorumState (Sample.unvoted ++ Sample.votedLate) = some .reached
      ∧ Sample.status (Sample.unvoted ++ Sample.votedLate) = some .opened
      ∧ (Sample.reached Sample.unvoted).executionOf Sample.executionKey
        = Sample.execution Sample.unvoted
      ∧ (Sample.reached (Sample.unvoted ++ Sample.votedLate)).executionOf Sample.executionKey
        = Sample.execution (Sample.unvoted ++ Sample.votedLate) := by
  decide +kernel

end EnsembleFabric
