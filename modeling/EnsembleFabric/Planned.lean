import EnsembleFabric.Fallback

/-!
# Planned evaluations

Only an advance plans evaluations and hands them out. Whatever else happens
to an execution, a plan that is there stays the plan it was: it is answered,
given up, or dropped while nobody has answered it. Evidence is recorded by
the answer to a plan and is only withdrawn afterwards.

`Written.plansAfter` is the inversion of one event in these terms, and
`PlansKept` what holds of every event but three: an advance, an answer, and
a registration, which moves the generation of a seat.

What a plan asks of whom is its key (`planKey`): the evaluator and its
generation, the candidate and its generation, the criterion. Identities tell
plans apart and keys tell apart what they are about. `livePlans` lists the
keys of the plans that were not given up, and no event but an advance makes
the list longer.

Within an advance the same is said step by step (`PlanStep`): plans are
kept, or some are added, or one is handed out or given up. A property of
plans that these steps keep holds wherever the advance ends
(`Advances.keeps_plans`), also where it stops at a bound.
-/

namespace EnsembleFabric

open List (Forall₂)
open AdvanceState (seatGeneration)

/-! ## Plans and what they are about -/

/-- What a planned evaluation asks of whom. Two plans with one key ask the same
generation the same question about the same content. -/
structure PlanKey where
  evaluator : ParticipantId
  evaluatorGeneration : ParticipantGeneration
  candidate : CandidateId
  candidateGeneration : CandidateGeneration
  criterion : CriterionRef
deriving DecidableEq

def planKey (p : PendingEvaluation) : PlanKey :=
  ⟨p.evaluator, p.evaluatorGeneration, p.candidate, p.candidateGeneration, p.criterion⟩

def evaluationKey (r : EvaluationRecord) : PlanKey :=
  ⟨r.evaluator, r.evaluatorGeneration, r.candidate, r.candidateGeneration, r.criterion⟩

/-- What the plans ask that were not given up. -/
def livePlans (x : ExecutionRecord) : List PlanKey :=
  (x.pending.filter (!·.abandoned)).map planKey

/-- The plan is neither answered nor given up. -/
def PendingEvaluation.outstanding (p : PendingEvaluation) : Bool := !p.answered && !p.abandoned

theorem outstanding_eq_true {p : PendingEvaluation} :
    p.outstanding = true ↔ p.answered = false ∧ p.abandoned = false := by
  simp [PendingEvaluation.outstanding]

/-- A plan is answered or given up, and otherwise stays. -/
structure PlanFollows (p p' : PendingEvaluation) : Prop where
  same : p' = { p with answered := p'.answered, abandoned := p'.abandoned }
  answered : p.answered = true → p'.answered = true
  abandoned : p.abandoned = true → p'.abandoned = true

theorem PlanFollows.refl (p : PendingEvaluation) : PlanFollows p p := ⟨rfl, fun h => h, fun h => h⟩

theorem PlanFollows.trans {p q r : PendingEvaluation} (h : PlanFollows p q)
    (h' : PlanFollows q r) : PlanFollows p r :=
  ⟨by rw [h'.same, h.same], fun hp => h'.answered (h.answered hp),
    fun hp => h'.abandoned (h.abandoned hp)⟩

/-- A plan that is outstanding in the end is the plan it was. -/
theorem PlanFollows.eq_of_outstanding {p p' : PendingEvaluation} (h : PlanFollows p p')
    (hp' : p'.outstanding = true) : p = p' := by
  obtain ⟨hanswered, habandoned⟩ := outstanding_eq_true.mp hp'
  have hp : p.answered = false ∧ p.abandoned = false :=
    ⟨Bool.eq_false_iff.mpr fun ht => by simp [h.answered ht] at hanswered,
      Bool.eq_false_iff.mpr fun ht => by simp [h.abandoned ht] at habandoned⟩
  rw [h.same, hanswered, habandoned]
  obtain ⟨hanswered₀, habandoned₀⟩ := hp
  cases p
  simp only at hanswered₀ habandoned₀
  rw [hanswered₀, habandoned₀]

/-- No plan is added, and no answered plan is dropped. -/
structure PlansKept (x x' : ExecutionRecord) : Prop where
  follows : ∀ p' ∈ x'.pending, ∃ p ∈ x.pending, PlanFollows p p'
  answered : ∀ p ∈ x.pending, p.answered = true → ∃ p' ∈ x'.pending, PlanFollows p p'
  live : (livePlans x').Sublist (livePlans x)

theorem PlansKept.of_same {x x' : ExecutionRecord} (h : x'.pending = x.pending) :
    PlansKept x x' := by
  refine ⟨fun p hp => ⟨p, h ▸ hp, .refl p⟩, fun p hp _ => ⟨p, h ▸ hp, .refl p⟩, ?_⟩
  rw [livePlans, livePlans, h]

theorem PlansKept.trans {x y z : ExecutionRecord} (h : PlansKept x y) (h' : PlansKept y z) :
    PlansKept x z := by
  refine ⟨fun r hr => ?_, fun p hp hanswered => ?_, h'.live.trans h.live⟩
  · obtain ⟨q, hq, hqr⟩ := h'.follows r hr
    obtain ⟨p, hp, hpq⟩ := h.follows q hq
    exact ⟨p, hp, hpq.trans hqr⟩
  · obtain ⟨q, hq, hpq⟩ := h.answered p hp hanswered
    obtain ⟨r, hr, hqr⟩ := h'.answered q hq (hpq.answered hanswered)
    exact ⟨r, hr, hpq.trans hqr⟩

/-- Unanswered plans are dropped. -/
theorem PlansKept.of_filter {x x' : ExecutionRecord} {test : PendingEvaluation → Bool}
    (h : x'.pending = x.pending.filter test) (htest : ∀ p, p.answered = true → test p = true) :
    PlansKept x x' := by
  refine ⟨fun p hp => ?_, fun p hp hanswered => ?_, ?_⟩
  · rw [h] at hp
    exact ⟨p, (List.mem_filter.mp hp).1, .refl p⟩
  · refine ⟨p, ?_, .refl p⟩
    rw [h]
    exact List.mem_filter.mpr ⟨hp, htest p hanswered⟩
  · rw [livePlans, livePlans, h]
    exact (List.filter_sublist.filter _).map planKey

/-- All plans are given up. -/
theorem PlansKept.of_abandoned {x x' : ExecutionRecord}
    (h : x'.pending = x.pending.map fun p => { p with abandoned := true }) : PlansKept x x' := by
  refine ⟨fun p' hp' => ?_, fun p hp _ => ?_, ?_⟩
  · rw [h] at hp'
    obtain ⟨p, hp, rfl⟩ := List.mem_map.mp hp'
    exact ⟨p, hp, rfl, fun ha => ha, fun _ => rfl⟩
  · refine ⟨{ p with abandoned := true }, ?_, rfl, fun ha => ha, fun _ => rfl⟩
    rw [h]
    exact List.mem_map_of_mem hp
  · have hnone : x'.pending.filter (!·.abandoned) = [] := by
      rw [h, List.filter_eq_nil_iff]
      intro p' hp'
      obtain ⟨p, -, rfl⟩ := List.mem_map.mp hp'
      simp
    rw [livePlans, hnone]
    exact List.nil_sublist _

/-- One plan is rewritten, and none that was given up comes back. -/
theorem livePlans_set {ps : List PendingEvaluation} {index : Nat} {p p' : PendingEvaluation}
    (hp : ps[index]? = some p) (hkey : planKey p' = planKey p)
    (hlive : p.abandoned = true → p'.abandoned = true) :
    (((ps.set index p').filter (!·.abandoned)).map planKey).Sublist
      ((ps.filter (!·.abandoned)).map planKey) := by
  induction ps generalizing index with
  | nil => cases hp
  | cons q rest ih =>
    cases index with
    | zero =>
      obtain rfl := Option.some.inj hp
      rw [List.set_cons_zero, List.filter_cons, List.filter_cons]
      cases hgone : q.abandoned with
      | true => simp [hlive hgone]
      | false =>
        cases hgone' : p'.abandoned with
        | true => simp
        | false => simp [hkey]
    | succ index =>
      rw [List.set_cons_succ, List.filter_cons, List.filter_cons]
      split
      · exact (ih hp).cons_cons _
      · exact ih hp

theorem PlansKept.of_set {x x' : ExecutionRecord} {index : Nat} {p p' : PendingEvaluation}
    (hp : x.pending[index]? = some p) (h : x'.pending = x.pending.set index p')
    (hfollows : PlanFollows p p') : PlansKept x x' := by
  have hslots : Forall₂ PlanFollows x.pending x'.pending := by
    rw [h]
    exact Slots.forall₂_set .refl hp hfollows
  refine ⟨fun q' hq' => Slots.exists_left hslots hq',
    fun q hq _ => Slots.exists_right hslots hq, ?_⟩
  rw [livePlans, h]
  exact livePlans_set hp (by rw [hfollows.same]; rfl) hfollows.abandoned

/-! ## Evidence -/

/-- Evaluations are withdrawn, and none is recorded. -/
def OnlyWithdrawn (x x' : ExecutionRecord) : Prop :=
  ∀ r' ∈ x'.evaluations, ∃ r ∈ x.evaluations,
    r' = { r with current := r'.current } ∧ (r'.current = true → r.current = true)

theorem OnlyWithdrawn.of_same {x x' : ExecutionRecord} (h : x'.evaluations = x.evaluations) :
    OnlyWithdrawn x x' :=
  fun r hr => ⟨r, h ▸ hr, rfl, fun hc => hc⟩

theorem OnlyWithdrawn.trans {x y z : ExecutionRecord} (h : OnlyWithdrawn x y)
    (h' : OnlyWithdrawn y z) : OnlyWithdrawn x z := by
  intro r'' hr''
  obtain ⟨r', hr', hsame', hcurrent'⟩ := h' r'' hr''
  obtain ⟨r, hr, hsame, hcurrent⟩ := h r' hr'
  exact ⟨r, hr, by rw [hsame', hsame], fun hc => hcurrent (hcurrent' hc)⟩

theorem supersedeCandidateEvidence_plans (x : ExecutionRecord) (candidate : CandidateId) :
    PlansKept x (supersedeCandidateEvidence x candidate)
      ∧ OnlyWithdrawn x (supersedeCandidateEvidence x candidate) := by
  refine ⟨.of_filter rfl fun p hanswered => by simp [hanswered], fun r' hr' => ?_⟩
  obtain ⟨r, hr, rfl⟩ := List.mem_map.mp hr'
  refine ⟨r, hr, ?_⟩
  split
  · exact ⟨rfl, nofun⟩
  · exact ⟨rfl, fun hc => hc⟩

/-- Releasing the candidates of a participant. -/
theorem handleParticipantFailure_plans (e : EnsembleRecord) (x : ExecutionRecord)
    (p : ParticipantRecord) (kind : ParticipantFailureKind) (detail : String) :
    SameSeats e (handleParticipantFailure e x p kind detail).1
      ∧ PlansKept x (handleParticipantFailure e x p kind detail).2
      ∧ OnlyWithdrawn x (handleParticipantFailure e x p kind detail).2 := by
  refine Threaded.foldl_related (f := releaseCandidate p kind detail)
    (R := fun a b : EnsembleRecord × ExecutionRecord =>
      SameSeats a.1 b.1 ∧ PlansKept a.2 b.2 ∧ OnlyWithdrawn a.2 b.2)
    (fun a => ⟨.refl _, .of_same rfl, .of_same rfl⟩)
    (fun h h' => ⟨h.1.trans h'.1, h.2.1.trans h'.2.1, h.2.2.trans h'.2.2⟩) ?_ (e, x)
  rintro ⟨e, x⟩ index -
  unfold releaseCandidate
  simp only
  split
  · exact ⟨.refl _, .of_same rfl, .of_same rfl⟩
  · rename_i c _
    split
    · exact ⟨.refl _, .of_same rfl, .of_same rfl⟩
    · split
      · obtain ⟨⟨hfollows, hanswered, hlive⟩, hwithdrawn⟩ := supersedeCandidateEvidence_plans x c.id
        exact ⟨rewindCandidateForRetry_seats e x index _, ⟨hfollows, hanswered, hlive⟩, hwithdrawn⟩
      · obtain ⟨⟨hfollows, hanswered, hlive⟩, hwithdrawn⟩ := supersedeCandidateEvidence_plans x c.id
        exact ⟨failCandidate_seats e x index c _ _, ⟨hfollows, hanswered, hlive⟩, hwithdrawn⟩

/-! ## Seats -/

/-- The seats are those they were, at the generations they had. -/
def SameGenerations (e e' : EnsembleRecord) : Prop :=
  Forall₂ (fun p p' : ParticipantRecord => p'.id = p.id ∧ p'.generation = p.generation
    ∧ p'.declaration = p.declaration) e.participants e'.participants

theorem SameGenerations.refl (e : EnsembleRecord) : SameGenerations e e :=
  List.forall₂_same.mpr fun _ _ => ⟨rfl, rfl, rfl⟩

theorem SameSeats.generations {e e' : EnsembleRecord} (h : SameSeats e e') :
    SameGenerations e e' :=
  h.participants.imp fun _ _ hsame => ⟨hsame.1, hsame.2.1, hsame.2.2.2.2.2⟩

theorem SameGenerations.trans {e₁ e₂ e₃ : EnsembleRecord} (h : SameGenerations e₁ e₂)
    (h' : SameGenerations e₂ e₃) : SameGenerations e₁ e₃ :=
  Slots.forall₂_trans
    (R := fun p p' : ParticipantRecord => p'.id = p.id ∧ p'.generation = p.generation
      ∧ p'.declaration = p.declaration)
    (fun ⟨h₁, h₂, h₃⟩ ⟨h₁', h₂', h₃'⟩ => ⟨h₁'.trans h₁, h₂'.trans h₂, h₃'.trans h₃⟩) h h'

/-- The generation that holds the seat of a participant. -/
def seatedGeneration (e : EnsembleRecord) (id : ParticipantId) : Option ParticipantGeneration :=
  (e.participant? id).map (·.generation)

theorem SameGenerations.seated {e e' : EnsembleRecord} (h : SameGenerations e e')
    (id : ParticipantId) : seatedGeneration e' id = seatedGeneration e id := by
  rcases Slots.find?_related (fun p : ParticipantRecord => p.id == id)
      (fun p : ParticipantRecord => p.id == id) (fun hsame => by rw [hsame.1]) h with
    ⟨hnone, hnone'⟩ | ⟨p, p', hp, hp', hsame⟩
  · rw [seatedGeneration, seatedGeneration, EnsembleRecord.participant?,
      EnsembleRecord.participant?, hnone, hnone']
  · rw [seatedGeneration, seatedGeneration, EnsembleRecord.participant?,
      EnsembleRecord.participant?, hp, hp', Option.map_some, Option.map_some, hsame.2.1]

theorem SameSeat.generations {e : EnsembleRecord} {index : Nat} {p p' : ParticipantRecord}
    (hp : e.participants[index]? = some p) (h : SameSeat p p') :
    SameGenerations e { e with participants := e.participants.set index p' } :=
  (h.seats hp).generations

/-! ## An advance -/

namespace AdvanceState

/-- What a step of an advance does to the plans: they are kept, or some are
added, or one is handed out or given up. -/
inductive PlanStep (s s' : AdvanceState) : Prop
  | kept (plans : PlansKept s.execution s'.execution)
      (evidence : OnlyWithdrawn s.execution s'.execution)
  | planned {added : List PendingEvaluation}
      (pending : s'.execution.pending = s.execution.pending ++ added)
      (evaluations : s'.execution.evaluations = s.execution.evaluations)
      (fresh : ∀ p ∈ added, p.emitted = false)
      (made : ∀ p ∈ added, ∃ t ∈ planTargets s.ensemble.spec s.execution.candidates,
        p = plannedEvaluation s.ensemble t p.id)
  | handled (index : Nat) (result : s' = s.emitOne index)

theorem planStep_of_same {s s' : AdvanceState}
    (pending : s'.execution.pending = s.execution.pending)
    (evaluations : s'.execution.evaluations = s.execution.evaluations) : PlanStep s s' :=
  .kept (.of_same pending) (.of_same evaluations)

theorem PlansFor.planStep {done : List PlanTarget} {s s' : AdvanceState}
    {added : List PendingEvaluation}
    (h : PlansFor done { s with execution := { s.execution with planningComplete := true } } s'
      added) (hdone : done <+: planTargets s.ensemble.spec s.execution.candidates) :
    PlanStep s s' := by
  have hpending : s'.execution.pending = s.execution.pending ++ added := by rw [h.execution]
  refine .planned hpending (by rw [h.execution]) (fun p hp => (h.fresh p hp).1) fun p hp => ?_
  obtain ⟨t, ht, hmade⟩ := Slots.exists_left h.made hp
  exact ⟨t, hdone.subset ht, hmade⟩

theorem AdvanceStep.planStep {limits : Limits} {s s' : AdvanceState}
    (h : AdvanceStep limits s s') : PlanStep s s' := by
  cases h with
  | round | adopted | dispatched | completed | reported => exact planStep_of_same rfl rfl
  | @declared _ stage _ undeclared result =>
    obtain ⟨m, hm, rfl⟩ := declareStage_eq_ok undeclared result
    have hmembers := declareMembers_same limits stage stage.participants s
    rw [hm, Threaded.final_ok] at hmembers
    exact planStep_of_same (congrArg (·.pending) hmembers.execution)
      (congrArg (·.evaluations) hmembers.execution)
  | @stranded _ index c p =>
    obtain ⟨⟨hfollows, hanswered, hlive⟩, hwithdrawn⟩ :=
      supersedeCandidateEvidence_plans s.execution c.id
    exact .kept ⟨hfollows, hanswered, hlive⟩ hwithdrawn
  | reopened =>
    refine planStep_of_same ?_ ?_ <;>
    · unfold reopenPlanning
      split <;> rfl
  | planned _ incomplete result =>
    obtain ⟨done, added, hplans, hdone, -⟩ := planEvaluations_plans incomplete
    rw [result, Threaded.final_ok] at hplans
    exact hplans.planStep hdone
  | emitted index => exact .handled index rfl
  | activated _ decision =>
    have hexecution := (activateFallback_eq decision).1
    exact planStep_of_same (by rw [hexecution]; rfl) (by rw [hexecution]; rfl)

theorem AdvanceStop.planStep {limits : Limits} {s s' : AdvanceState} {error : Error}
    (h : AdvanceStop limits s (error, s')) :
    PlanStep s s' ∧ SameSeats s.ensemble s'.ensemble := by
  cases h with
  | @undeclared stage _ undeclared result =>
    have hmembers := declareMembers_same limits stage stage.participants s
    rw [declareStage_eq_error undeclared result, Threaded.final_error] at hmembers
    rw [show s'.ensemble = s.ensemble from hmembers.ensemble]
    exact ⟨planStep_of_same (congrArg (·.pending) hmembers.execution)
      (congrArg (·.evaluations) hmembers.execution), .refl _⟩
  | unplanned _ incomplete result =>
    obtain ⟨done, added, hplans, hdone, -⟩ := planEvaluations_plans incomplete
    rw [result, Threaded.final_error] at hplans
    rw [show s'.ensemble = s.ensemble from hplans.ensemble]
    exact ⟨hplans.planStep hdone, .refl _⟩

/-- What every step keeps holds wherever the advance ends. -/
theorem Advances.keeps_plans {limits : Limits} {P : EnsembleRecord → ExecutionRecord → Prop}
    (hstep : ∀ {s s' : AdvanceState}, SameSeats s.ensemble s'.ensemble → PlanStep s s' →
      P s.ensemble s.execution → P s'.ensemble s'.execution)
    {s : AdvanceState} {out : Advancing} (h : Advances limits s out)
    (hs : P s.ensemble s.execution) :
    P (Threaded.final out).ensemble (Threaded.final out).execution := by
  have hsteps : ∀ {m}, AdvanceSteps limits s m → P m.ensemble m.execution := fun hm =>
    advanceSteps_keep (P := fun s => P s.ensemble s.execution)
      (fun hone => hstep hone.keeps_seats hone.planStep) hm hs
  cases out with
  | ok s' => exact hsteps h
  | error stop =>
    obtain ⟨error, s'⟩ := stop
    obtain ⟨m, hm, hstop⟩ := h
    exact hstep hstop.planStep.2 hstop.planStep.1 (hsteps hm)

end AdvanceState

/-- An advance ends where its rounds end, with a last report. -/
theorem advanceOpen_final {limits : Limits} {core : Core} {e : EnsembleRecord}
    {x : ExecutionRecord} {out : Advancing}
    (h : AdvanceState.advanceLoop limits 64 (advanceStart core e x) = out) :
    (advanceOpen limits core e x).1.ensemble = (Threaded.final out).ensemble
      ∧ (advanceOpen limits core e x).1.execution.pending = (Threaded.final out).execution.pending
      ∧ (advanceOpen limits core e x).1.execution.evaluations
        = (Threaded.final out).execution.evaluations := by
  rw [advanceOpen_eq, h]
  cases out <;> exact ⟨rfl, rfl, rfl⟩

/-! ## One event -/

theorem evaluatedExecution_plans {site : EvaluationSite} {r : EvaluationRecord}
    (hp : site.execution.pending[site.pendingIndex]? = some site.pending) :
    PlansKept site.execution (evaluatedExecution site r) :=
  .of_set hp rfl ⟨rfl, fun _ => rfl, fun h => h⟩

/-- The plans and the evidence after an event: those of a fresh execution, those
an advance leaves, one answered plan with its evaluation, or plans that are
kept. -/
inductive PlansAfter (s : System) (event : Event) (id : EnsembleId) (e : EnsembleRecord) :
    EnsembleRecord → ExecutionRecord → Prop
  | fresh {e' x'} (unplanned : x'.pending = []) (unevaluated : x'.evaluations = []) :
      PlansAfter s event id e e' x'
  | advanced {x} (advances : event = .advance id e.spec.generation)
      (before : e.execution = some x) (status : x.status = .opened)
      (live : e.superseded = false) :
      PlansAfter s event id e
        ((advanceOpen s.fabric.config.limits s.fabric.core e x).1.ensemble.holding
          (advanceOpen s.fabric.config.limits s.fabric.core e x).1.execution)
        (advanceOpen s.fabric.config.limits s.fabric.core e x).1.execution
  | evaluated {r site p} (submits : event = .submitEvaluation r)
      (accept : acceptEvaluation s.fabric r = .ok site) (ensemble : site.seat.ensemble = e)
      (seat : SameSeat site.seat.participant p) :
      PlansAfter s event id e
        ((site.seat.write p).holding (evaluatedExecution site (acceptedRecord s.fabric r site)))
        (evaluatedExecution site (acceptedRecord s.fabric r site))
  | seated {r seat x} (registers : event = .registerParticipant r)
      (at_ : SeatAt e r.participant seat) (admits : admitRegistration s.fabric r = .ok seat)
      (before : e.execution = some x) :
      PlansAfter s event id e (seat.write (seatedParticipant seat.participant r)) x
  | kept {e' x x'} (before : e.execution = some x) (spec : e'.spec = e.spec)
      (seats : SameGenerations e e') (plans : PlansKept x x') (evidence : OnlyWithdrawn x x') :
      PlansAfter s event id e e' x'

/-- The execution is replaced, and its plans and its evidence stay. -/
theorem PlansAfter.of_held {s : System} {event : Event} {id : EnsembleId}
    {e e' : EnsembleRecord} {x x' : ExecutionRecord} (before : e.execution = some x)
    (spec : e'.spec = e.spec) (participants : e'.participants = e.participants)
    (pending : x'.pending = x.pending) (evaluations : x'.evaluations = x.evaluations) :
    PlansAfter s event id e e' x' := by
  refine .kept before spec ?_ (.of_same pending) (.of_same evaluations)
  rw [SameGenerations, participants]
  exact SameGenerations.refl e

theorem Written.plansAfter {s : System} {event : Event} {id : EnsembleId} {e e' : EnsembleRecord}
    {x' : ExecutionRecord} (h : Written s event id e e') (hx' : e'.execution = some x') :
    PlansAfter s event id e e' x' := by
  cases h with
  | redefined => cases hx'
  | superseded =>
    obtain ⟨x, hx, rfl⟩ := Option.map_eq_some_iff.mp hx'
    refine .of_held hx rfl rfl ?_ ?_ <;>
    · unfold supersededExecution
      split <;> rfl
  | seated registers at_ admits =>
    obtain rfl := at_.ensemble
    exact .seated registers at_ admits hx'
  | started =>
    obtain rfl := Option.some.inj hx'
    exact .fresh rfl rfl
  | withdrawn _ before =>
    obtain rfl := Option.some.inj hx'
    exact .kept before rfl (.refl e) (.of_abandoned rfl) (.of_same rfl)
  | closed _ before =>
    obtain rfl := Option.some.inj hx'
    exact .of_held before rfl rfl rfl rfl
  | advanced advances before status live result =>
    subst result
    obtain rfl := Option.some.inj hx'
    exact .advanced advances before status live
  | received _ accept ensemble _ seat | abstained _ accept ensemble seat =>
    subst ensemble
    have hlocated := (acceptCandidate_eq_ok accept).1
    obtain rfl := Option.some.inj hx'
    exact .kept hlocated.fenced.execution rfl (seat.generations hlocated.seat.get) (.of_same rfl)
      (.of_same rfl)
  | @retried r l kind _ accept ensemble =>
    subst ensemble
    obtain rfl := Option.some.inj hx'
    obtain ⟨⟨hfollows, hanswered, hlive⟩, hwithdrawn⟩ :=
      supersedeCandidateEvidence_plans l.execution l.candidate.id
    exact .kept (acceptCandidate_eq_ok accept).1.fenced.execution rfl
      (rewindCandidateForRetry_seats l.seat.ensemble l.execution l.index l.candidate).generations
      ⟨hfollows, hanswered, hlive⟩ hwithdrawn
  | @dropped r l kind _ accept ensemble =>
    subst ensemble
    obtain rfl := Option.some.inj hx'
    obtain ⟨⟨hfollows, hanswered, hlive⟩, hwithdrawn⟩ :=
      supersedeCandidateEvidence_plans l.execution l.candidate.id
    exact .kept (acceptCandidate_eq_ok accept).1.fenced.execution rfl
      (failCandidate_seats l.seat.ensemble l.execution l.index l.candidate (failureError kind)
        s!"participant reported {kind.toString}").generations
      ⟨hfollows, hanswered, hlive⟩ hwithdrawn
  | evaluated submits accept ensemble seat =>
    obtain rfl := Option.some.inj hx'
    exact .evaluated submits accept ensemble seat
  | @lost a seat kind detail _ admits ensemble =>
    subst ensemble
    obtain ⟨-, hat⟩ := admitFailureReport_eq_ok admits
    refine .kept hx' rfl ?_ (.of_same rfl) (.of_same rfl)
    exact Slots.forall₂_set (fun _ => ⟨rfl, rfl, rfl⟩) hat.get ⟨rfl, rfl, rfl⟩
  | @released a seat kind detail x _ admits ensemble before =>
    subst ensemble
    obtain ⟨-, hat⟩ := admitFailureReport_eq_ok admits
    obtain ⟨hseats, hplans, hwithdrawn⟩ := handleParticipantFailure_plans
      (seat.write (lostParticipant seat.participant kind detail)) x
      (lostParticipant seat.participant kind detail) kind detail
    have hlost : SameGenerations seat.ensemble
        (seat.write (lostParticipant seat.participant kind detail)) :=
      Slots.forall₂_set (fun _ => ⟨rfl, rfl, rfl⟩) hat.get ⟨rfl, rfl, rfl⟩
    obtain rfl := Option.some.inj hx'
    refine .kept before hseats.spec (hlost.trans hseats.generations) ?_ ?_
    · obtain ⟨hfollows, hanswered, hlive⟩ := hplans
      split <;> exact ⟨hfollows, hanswered, hlive⟩
    · split <;> exact hwithdrawn
  | cancelled _ before | reported _ before =>
    obtain rfl := Option.some.inj hx'
    exact .of_held before rfl rfl rfl rfl
  | invalidated =>
    obtain ⟨x, hx, rfl⟩ := Option.map_eq_some_iff.mp hx'
    refine .kept hx rfl (Slots.forall₂_map fun p _ => ?_) ?_ ?_
    · unfold invalidatedParticipant
      split <;> exact ⟨rfl, rfl, rfl⟩
    · unfold invalidatedExecution
      split
      · exact .of_abandoned rfl
      · exact .of_same rfl
    · unfold invalidatedExecution
      split
      · intro r' hr'
        obtain ⟨r, hr, rfl⟩ := List.mem_map.mp hr'
        exact ⟨r, hr, rfl, nofun⟩
      · exact .of_same rfl
  | attempted _ before =>
    obtain rfl := Option.some.inj hx'
    exact .of_held before rfl rfl rfl rfl
  | stored _ stores =>
    obtain rfl := Option.some.inj hx'
    obtain ⟨htarget, -⟩ := storesIn_eq_some.mp stores
    exact .of_held (commitTarget_eq_ok htarget).execution rfl rfl (storeResult_pending ..)
      (storeResult_evaluations ..)

end EnsembleFabric
