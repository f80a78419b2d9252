import EnsembleFabric.Planned
import EnsembleFabric.Replacement

/-!
# Plans of evaluators that were replaced

A plan names the generation it was made for. Emission gives up a plan whose
evaluator has moved on, but only a plan that was not handed out before; and
an answer is checked against the seat of the evaluator and the identity of
the plan, not against the generation in it. So a plan that was handed out
to a process that is then replaced stays outstanding, and the replacement
may answer it.

`keepsPlans` is the condition on one event under which neither happens. It
has three parts, one for each event that matters:

- a registration finds no plan of the seat's participant that is handed out
  and outstanding;
- an answer comes from the generation its plan was made for;
- an advance finds no stale plan, or is the first one after a cancellation,
  or its first round gets to emission (`reachesEmission`), where stale plans
  that were not handed out are given up.

The invariant of the runs is that every outstanding plan that was handed out
is for the generation in the seat (`HandedCurrent`). An advance whose first
round gets to emission then ends with no stale plan at all
(`advanceOpen_current`), since later rounds plan for the seated generation.
Whether the first round gets there can be told from the records before the
advance, which is `reachesEmission_iff` in `Foresight`.
-/

namespace EnsembleFabric

open EventSystem AdvanceState

/-! ## Stale plans -/

/-- Another generation holds the seat the plan was made for. -/
def stalePlan (e : EnsembleRecord) (p : PendingEvaluation) : Bool :=
  (seatedGeneration e p.evaluator).any (· != p.evaluatorGeneration)

theorem SameGenerations.stale {e e' : EnsembleRecord} (h : SameGenerations e e')
    (p : PendingEvaluation) : stalePlan e' p = stalePlan e p := by
  rw [stalePlan, stalePlan, h.seated]

theorem stalePlan_of_seat {e : EnsembleRecord} {p : PendingEvaluation}
    {evaluator : ParticipantRecord} (hseat : e.participant? p.evaluator = some evaluator)
    (hcurrent : p.evaluatorGeneration = evaluator.generation) : stalePlan e p = false := by
  rw [stalePlan, seatedGeneration, hseat, Option.map_some, hcurrent]
  exact bne_self_eq_false _

/-- A plan that is made now is not stale. -/
theorem stalePlan_made {e : EnsembleRecord} {p : PendingEvaluation}
    (h : p.evaluatorGeneration = seatGeneration e p.evaluator) : stalePlan e p = false := by
  cases hseat : e.participant? p.evaluator with
  | none => rw [stalePlan, seatedGeneration, hseat]; rfl
  | some evaluator =>
    rw [seatGeneration, hseat] at h
    exact stalePlan_of_seat hseat h

/-- The outstanding plans that meet the test are for the seated generation. -/
def CurrentAmong (test : PendingEvaluation → Bool) (e : EnsembleRecord) (x : ExecutionRecord) :
    Prop :=
  ∀ p ∈ x.pending, p.outstanding = true → test p = true → stalePlan e p = false

/-- Every outstanding plan is for the generation that has the seat. -/
def PlansCurrent : EnsembleRecord → ExecutionRecord → Prop := CurrentAmong fun _ => true

/-- Every outstanding plan that was handed out is. -/
def HandedCurrent : EnsembleRecord → ExecutionRecord → Prop := CurrentAmong (·.emitted)

theorem PlansKept.current {test : PendingEvaluation → Bool} {e e' : EnsembleRecord}
    {x x' : ExecutionRecord} (h : PlansKept x x') (hseats : SameGenerations e e')
    (hx : CurrentAmong test e x) : CurrentAmong test e' x' := by
  intro p' hp' houtstanding htest
  obtain ⟨p, hp, hfollows⟩ := h.follows p' hp'
  obtain rfl := hfollows.eq_of_outstanding houtstanding
  rw [hseats.stale]
  exact hx p hp houtstanding htest

namespace AdvanceState

theorem PlanStep.current {test : PendingEvaluation → Bool} {s s' : AdvanceState}
    (hseats : SameSeats s.ensemble s'.ensemble) (h : PlanStep s s')
    (hs : CurrentAmong test s.ensemble s.execution) :
    CurrentAmong test s'.ensemble s'.execution := by
  cases h with
  | kept plans => exact plans.current hseats.generations hs
  | planned pending _ _ made =>
    intro p hp houtstanding htest
    rw [hseats.generations.stale]
    rw [pending, List.mem_append] at hp
    rcases hp with hold | hnew
    · exact hs p hold houtstanding htest
    · obtain ⟨t, -, hmade⟩ := made p hnew
      exact stalePlan_made (by rw [hmade]; rfl)
  | handled index result =>
    subst result
    have hcases := emitOne_cases s index
    generalize s.emitOne index = s' at hcases ⊢
    cases hcases with
    | skipped | kept => exact hs
    | abandoned =>
      intro p hp houtstanding htest
      rcases List.mem_or_eq_of_mem_set hp with hold | rfl
      · exact hs p hold houtstanding htest
      · exact absurd (outstanding_eq_true.mp houtstanding).2 nofun
    | emitted _ seat current =>
      intro p hp houtstanding htest
      rcases List.mem_or_eq_of_mem_set hp with hold | rfl
      · exact hs p hold houtstanding htest
      · exact stalePlan_of_seat seat current

/-! ## Emission -/

/-- A pass over positions that include those of all stale plans leaves none. -/
theorem emitFold_current {indices : List Nat} {s : AdvanceState}
    (hs : HandedCurrent s.ensemble s.execution)
    (hcovered : ∀ i p, s.execution.pending[i]? = some p → p.outstanding = true →
      stalePlan s.ensemble p = true → i ∈ indices) :
    PlansCurrent (indices.foldl emitOne s).ensemble (indices.foldl emitOne s).execution := by
  induction indices generalizing s with
  | nil =>
    intro p hp houtstanding _
    obtain ⟨i, hi⟩ := List.getElem?_of_mem hp
    exact Bool.eq_false_iff.mpr fun hstale =>
      List.not_mem_nil (hcovered i p hi houtstanding hstale)
  | cons index rest ih =>
    rw [List.foldl_cons]
    have hensemble := (emitOne_execution s index).1
    refine ih (PlanStep.current (hensemble ▸ .refl _) (.handled index rfl) hs) ?_
    rw [hensemble]
    have hcases := emitOne_cases s index
    generalize s.emitOne index = s' at hcases ⊢
    intro i p hp houtstanding hstale
    -- whatever is still at another position was covered, and this one is done
    have hother : s.execution.pending[i]? = some p → i ≠ index → i ∈ rest := fun hget hne =>
      (List.mem_cons.mp (hcovered i p hget houtstanding hstale)).resolve_left hne
    cases hcases with
    | skipped idle =>
      refine hother hp ?_
      rintro rfl
      obtain ⟨hanswered, habandoned⟩ := outstanding_eq_true.mp houtstanding
      refine idle p ⟨hp, hanswered, habandoned, Bool.eq_false_iff.mpr fun hemitted => ?_⟩
      rw [hs p (List.mem_of_getElem? hp) houtstanding hemitted] at hstale
      cases hstale
    | kept unsent awaits =>
      refine hother hp ?_
      rintro rfl
      obtain rfl := Option.some.inj (unsent.at_.symm.trans hp)
      rw [stalePlan_of_seat awaits.seat awaits.current] at hstale
      cases hstale
    | @abandoned q progress unsent =>
      replace hp : (s.execution.pending.set index { q with abandoned := true })[i]? = some p := hp
      by_cases heq : i = index
      · subst heq
        rw [List.getElem?_set_self (List.getElem?_eq_some_iff.mp unsent.at_).1] at hp
        obtain rfl := Option.some.inj hp
        exact absurd (outstanding_eq_true.mp houtstanding).2 nofun
      · rw [List.getElem?_set_ne (Ne.symm heq)] at hp
        exact hother hp heq
    | @emitted q evaluator c unsent seat current =>
      replace hp : (s.execution.pending.set index { q with emitted := true })[i]? = some p := hp
      by_cases heq : i = index
      · subst heq
        rw [List.getElem?_set_self (List.getElem?_eq_some_iff.mp unsent.at_).1] at hp
        obtain rfl := Option.some.inj hp
        rw [stalePlan_of_seat (p := { q with emitted := true }) seat current] at hstale
        cases hstale
      · rw [List.getElem?_set_ne (Ne.symm heq)] at hp
        exact hother hp heq

theorem emitEvaluations_current {s : AdvanceState} (hs : HandedCurrent s.ensemble s.execution) :
    PlansCurrent s.emitEvaluations.ensemble s.emitEvaluations.execution :=
  emitFold_current hs fun _ _ hp _ _ =>
    List.mem_range.mpr (List.getElem?_eq_some_iff.mp hp).1

/-- The first round gets to the plans that wait to be handed out: its stages are
used up, and planning does not stop at a bound. -/
def reachesEmission (limits : Limits) (s : AdvanceState) : Bool :=
  match stageLoop limits (s.stages.drop s.execution.stageIndex) s with
  | .error _ => false
  | .ok m =>
      decide (m.stages.length ≤ m.execution.stageIndex) && (planEvaluations m.reopenPlanning).isOk

/-- A round that gets there leaves no stale plan outstanding. -/
theorem advanceRound_current {limits : Limits} {s : AdvanceState}
    (h : reachesEmission limits s = true) (hs : HandedCurrent s.ensemble s.execution) :
    ∃ k, advanceRound limits s = .ok k ∧ PlansCurrent k.ensemble k.execution := by
  unfold reachesEmission at h
  split at h
  · cases h
  · rename_i m hm
    rw [Bool.and_eq_true, decide_eq_true_eq] at h
    obtain ⟨hconsumed, hplanned⟩ := h
    cases hn : planEvaluations m.reopenPlanning with
    | error stop =>
      rw [hn] at hplanned
      cases hplanned
    | ok n =>
      have hround : advanceRound limits s
          = .ok (activateFallback (report (emitEvaluations n))) := by
        rw [advanceRound, hm]
        simp only [bind, Except.bind]
        rw [if_pos hconsumed, evaluationPhase, hn]
        rfl
      have hhanded : HandedCurrent n.ensemble n.execution := by
        have hstages : Advances limits s (.ok m) := hm ▸ stageLoop_advances _ rfl
        have hreopened : Advances limits m (planEvaluations m.reopenPlanning) :=
          Advances.after (.single (.reopened hconsumed))
            (planEvaluations_advances limits ((reopenPlanning_same m).consumed hconsumed))
        have hkept := hreopened.keeps_plans PlanStep.current
          (hstages.keeps_plans PlanStep.current hs)
        rw [hn, Threaded.final_ok] at hkept
        exact hkept
      have hreport : n.emitEvaluations.report.Consumed := by
        have hsame := planEvaluations_same m.reopenPlanning
        rw [hn, Threaded.final_ok] at hsame
        have hn' : n.Consumed := hsame.consumed ((reopenPlanning_same m).consumed hconsumed)
        exact (emitEvaluations_advances limits hn' (planEvaluations_ready hn)).2.1.consumed hn'
      refine ⟨_, hround, ?_⟩
      have hemitted := emitEvaluations_current hhanded
      have hactivated : Advances limits n.emitEvaluations.report
          (.ok (activateFallback (report (emitEvaluations n)))) :=
        activateFallback_advances hreport
      exact hactivated.keeps_plans PlanStep.current hemitted

end AdvanceState

/-- An advance whose first round gets to emission ends without stale plans. -/
theorem advanceOpen_current {limits : Limits} {core : Core} {e : EnsembleRecord}
    {x : ExecutionRecord} (hx : HandedCurrent e x)
    (h : reachesEmission limits { advanceStart core e x with progress := false } = true) :
    PlansCurrent (advanceOpen limits core e x).1.ensemble
      (advanceOpen limits core e x).1.execution := by
  obtain ⟨k, hround, hk⟩ := advanceRound_current h hx
  have hloop : advanceLoop limits 64 (advanceStart core e x) = advanceLoop limits 63 k := by
    rw [advanceLoop, if_pos (show (advanceStart core e x).progress = true from rfl), hround]
    rfl
  have hlast := (advanceLoop_advances limits 63 k).keeps_plans PlanStep.current hk
  obtain ⟨hensemble, hpending, -⟩ := advanceOpen_final hloop
  rw [hensemble, PlansCurrent, CurrentAmong, hpending]
  exact hlast

theorem advanceOpen_keeps_current {test : PendingEvaluation → Bool} (limits : Limits)
    (core : Core) {e : EnsembleRecord} {x : ExecutionRecord} (hx : CurrentAmong test e x) :
    CurrentAmong test (advanceOpen limits core e x).1.ensemble
      (advanceOpen limits core e x).1.execution := by
  have hloop := (advanceLoop_advances limits 64 (advanceStart core e x)).keeps_plans
    PlanStep.current hx
  obtain ⟨hensemble, hpending, -⟩ :=
    advanceOpen_final (rfl : advanceLoop limits 64 (advanceStart core e x) = _)
  rw [hensemble, CurrentAmong, hpending]
  exact hloop

/-! ## Answers -/

/-- The evaluation was recorded from an answer to the plan, by the generation
the plan was made for. -/
structure AnsweredBy (p : PendingEvaluation) (r : EvaluationRecord) : Prop where
  id : p.id = r.id
  answered : p.answered = true
  evaluator : p.evaluator = r.evaluator
  generation : p.evaluatorGeneration = r.evaluatorGeneration

/-- Every evaluation answers a plan of its own evaluator generation. -/
def Attributed (x : ExecutionRecord) : Prop :=
  ∀ r ∈ x.evaluations, ∃ p ∈ x.pending, AnsweredBy p r

theorem Attributed.follows {x x' : ExecutionRecord} (hx : Attributed x)
    (hplans : ∀ p ∈ x.pending, p.answered = true → ∃ p' ∈ x'.pending, p'.id = p.id
      ∧ p'.answered = true ∧ p'.evaluator = p.evaluator
      ∧ p'.evaluatorGeneration = p.evaluatorGeneration)
    (hevidence : OnlyWithdrawn x x') : Attributed x' := by
  intro r' hr'
  obtain ⟨r, hr, hsame, -⟩ := hevidence r' hr'
  obtain ⟨p, hp, hid, hanswered, hevaluator, hgeneration⟩ := hx r hr
  obtain ⟨p', hp', hid', hanswered', hevaluator', hgeneration'⟩ := hplans p hp hanswered
  rw [hsame]
  exact ⟨p', hp', hid'.trans hid, hanswered', hevaluator'.trans hevaluator,
    hgeneration'.trans hgeneration⟩

theorem PlansKept.attributed {x x' : ExecutionRecord} (h : PlansKept x x')
    (hevidence : OnlyWithdrawn x x') (hx : Attributed x) : Attributed x' := by
  refine hx.follows (fun p hp hanswered => ?_) hevidence
  obtain ⟨p', hp', hfollows⟩ := h.answered p hp hanswered
  exact ⟨p', hp', by rw [hfollows.same], hfollows.answered hanswered, by rw [hfollows.same],
    by rw [hfollows.same]⟩

theorem AdvanceState.PlanStep.attributed {s s' : AdvanceState} (h : PlanStep s s')
    (hs : Attributed s.execution) : Attributed s'.execution := by
  cases h with
  | kept plans evidence => exact plans.attributed evidence hs
  | planned pending evaluations =>
    refine hs.follows (fun p hp hanswered => ⟨p, ?_, rfl, hanswered, rfl, rfl⟩)
      (.of_same evaluations)
    rw [pending]
    exact List.mem_append_left _ hp
  | handled index result =>
    subst result
    obtain ⟨-, hexecution | ⟨p, p', hp, hp', hexecution⟩⟩ := emitOne_execution s index
    · rw [hexecution]
      exact hs
    · rw [hexecution]
      have hslots := Slots.forall₂_set (R := fun q q' : PendingEvaluation =>
        q' = { q with emitted := q'.emitted, abandoned := q'.abandoned }) (fun _ => rfl) hp hp'
      refine hs.follows (fun q hq hanswered => ?_) (.of_same rfl)
      obtain ⟨q', hq', hsame⟩ := Slots.exists_right hslots hq
      exact ⟨q', hq', by rw [hsame], by rw [hsame]; exact hanswered, by rw [hsame], by rw [hsame]⟩

theorem advanceOpen_attributed (limits : Limits) (core : Core) (e : EnsembleRecord)
    {x : ExecutionRecord} (hx : Attributed x) :
    Attributed (advanceOpen limits core e x).1.execution := by
  have hloop := (advanceLoop_advances limits 64 (advanceStart core e x)).keeps_plans
    (P := fun _ x => Attributed x) (fun _ h => h.attributed) hx
  obtain ⟨-, hpending, hevaluations⟩ :=
    advanceOpen_final (rfl : advanceLoop limits 64 (advanceStart core e x) = _)
  rw [Attributed, hpending, hevaluations]
  exact hloop

/-! ## One event -/

/-- The registration takes the seat of nobody whose plans are handed out. -/
def registrationKeepsPlans (f : Fabric) (r : ParticipantRegistration) : Bool :=
  match admitRegistration f r with
  | .error _ => true
  | .ok seat =>
      !seat.participant.workerBoot.valid || seat.ensemble.execution.all fun x =>
        x.pending.all fun p => !(p.outstanding && p.emitted && p.evaluator == r.participant)

/-- The evaluation answers a plan that was made for its evaluator generation. -/
def evaluationKeepsPlans (f : Fabric) (r : EvaluationSubmission) : Bool :=
  match acceptEvaluation f r with
  | .error _ => true
  | .ok site =>
      site.pending.evaluatorGeneration == r.authority.evaluator.participantGeneration

/-- The advance finds no stale plan, or gives up the stale plans. -/
def advanceKeepsPlans (f : Fabric) (id : EnsembleId) (generation : EnsembleGeneration) : Bool :=
  match f.find id with
  | none => true
  | some e =>
      e.spec.generation != generation || e.execution.all fun x =>
        (x.pending.all fun p => !(p.outstanding && stalePlan e p))
          || match x.status with
            | .cancelled => !x.cancellationEmitted
            | .opened =>
                !e.superseded && reachesEmission f.config.limits
                  { advanceStart f.core e x with progress := false }
            | _ => false

/-- The event leaves no plan with an evaluator that was replaced. -/
def System.keepsPlans (s : System) : Event → Bool
  | .registerParticipant r => registrationKeepsPlans s.fabric r
  | .submitEvaluation r => evaluationKeepsPlans s.fabric r
  | .advance id generation => advanceKeepsPlans s.fabric id generation
  | _ => true

/-- What holds of the plans and the evidence of every execution. -/
structure InSuccession (e : EnsembleRecord) (x : ExecutionRecord) : Prop where
  handed : HandedCurrent e x
  attributed : Attributed x

/-- A new process in a seat: only the plans made for this seat see it. -/
theorem seatedGeneration_write {e : EnsembleRecord} {id : ParticipantId} {seat : Seat}
    {p : ParticipantRecord} (hat : SeatAt e id seat) (hp : p.id = id) (other : ParticipantId) :
    seatedGeneration (seat.write p) other
      = if other = id then some p.generation else seatedGeneration e other := by
  obtain rfl := hat.ensemble
  split
  · rename_i heq
    subst heq
    have hfirst : (seat.ensemble.participants.set seat.index p).find? (·.id == other) = some p :=
      Slots.find?_set hat.index (by rw [hp]; exact BEq.rfl)
    exact congrArg (Option.map (·.generation)) hfirst
  · rename_i hne
    have hother : ∀ q : ParticipantRecord, q.id = id → (q.id == other) = false := by
      rintro q rfl
      exact beq_eq_false_iff_ne.mpr (Ne.symm hne)
    have hsame : (seat.ensemble.participants.set seat.index p).find? (·.id == other)
        = seat.ensemble.participants.find? (·.id == other) :=
      Slots.find?_set_of_neg hat.get (hother _ hat.id) (hother _ hp)
    exact congrArg (Option.map (·.generation)) hsame

theorem HandedCurrent.seated {f : Fabric} {r : ParticipantRegistration} {e : EnsembleRecord}
    {x : ExecutionRecord} {seat : Seat} (h : HandedCurrent e x)
    (hat : SeatAt e r.participant seat) (hadmits : admitRegistration f r = .ok seat)
    (hx : e.execution = some x) (hkeeps : registrationKeepsPlans f r = true) :
    HandedCurrent (seat.write (seatedParticipant seat.participant r)) x := by
  obtain rfl := hat.ensemble
  intro p hp houtstanding hemitted
  have hold := h p hp houtstanding hemitted
  rw [stalePlan, seatedGeneration_write hat (by exact hat.id)]
  split
  · rename_i hown
    rw [registrationKeepsPlans, hadmits] at hkeeps
    simp only [hx, Option.all_some, Bool.or_eq_true, Bool.not_eq_true', List.all_eq_true]
      at hkeeps
    rcases hkeeps with hnew | hnone
    · -- the seat was empty, and keeps its generation
      rw [stalePlan, seatedGeneration, hown, hat.first, Option.map_some] at hold
      rw [seatedParticipant, hnew]
      exact hold
    · have hthis := hnone p hp
      simp [houtstanding, hemitted, hown] at hthis
  · exact hold

theorem PlansAfter.inSuccession {s : System} {event : Event} {id : EnsembleId}
    {e e' : EnsembleRecord} {x' : ExecutionRecord} (h : PlansAfter s event id e e' x')
    (hkeeps : s.keepsPlans event = true)
    (he : ∀ x, e.execution = some x → InSuccession e x) : InSuccession e' x' := by
  cases h with
  | fresh unplanned unevaluated =>
    refine ⟨fun p hp => ?_, fun r hr => ?_⟩
    · rw [unplanned] at hp
      cases hp
    · rw [unevaluated] at hr
      cases hr
  | @advanced x _ before =>
    obtain ⟨hhanded, hattributed⟩ := he x before
    exact ⟨advanceOpen_keeps_current _ _ hhanded, advanceOpen_attributed _ _ _ hattributed⟩
  | @evaluated r site p submits accept ensemble seat =>
    subst ensemble submits
    have haccepted := acceptEvaluation_eq_ok accept
    obtain ⟨hhanded, hattributed⟩ := he _ haccepted.execution
    have hplans : PlansKept site.execution
        (evaluatedExecution site (acceptedRecord s.fabric r site)) :=
      evaluatedExecution_plans haccepted.pendingAt
    refine ⟨hplans.current (seat.generations haccepted.seat.get) hhanded, fun q hq => ?_⟩
    rcases List.mem_append.mp hq with hold | hnew
    · -- the plans of the other evaluations are kept
      have hkept : PlansKept site.execution
          { evaluatedExecution site (acceptedRecord s.fabric r site) with
            evaluations := site.execution.evaluations } :=
        ⟨hplans.follows, hplans.answered, hplans.live⟩
      exact hkept.attributed (.of_same rfl) hattributed q hold
    · obtain rfl := List.mem_singleton.mp hnew
      replace hkeeps : evaluationKeepsPlans s.fabric r = true := hkeeps
      rw [evaluationKeepsPlans, accept, beq_iff_eq] at hkeeps
      have hlt := (List.getElem?_eq_some_iff.mp haccepted.pendingAt).1
      exact ⟨{ site.pending with answered := true }, List.mem_set hlt _, rfl, rfl,
        haccepted.evaluatorTarget, hkeeps⟩
  | @seated r seat _ registers at_ admits before =>
    subst registers
    obtain ⟨hhanded, hattributed⟩ := he x' before
    exact ⟨hhanded.seated at_ admits before hkeeps, hattributed⟩
  | kept before _ seats plans evidence =>
    obtain ⟨hhanded, hattributed⟩ := he _ before
    exact ⟨plans.current seats hhanded, plans.attributed evidence hattributed⟩

/-- Every execution of the runtime. -/
def AllInSuccession (s : System) : Prop :=
  ∀ id e x, s.fabric.find id = some e → e.execution = some x → InSuccession e x

theorem AllInSuccession.next {s : System} {event : Event} (h : AllInSuccession s)
    (hkeeps : s.keepsPlans event = true) : AllInSuccession (s.next event) := by
  intro id e' x' he' hx'
  rcases next_execution he' hx' with hsame | ⟨e, he, hwritten⟩
  · exact h id _ x' hsame hx'
  · exact (hwritten.plansAfter hx').inSuccession hkeeps fun x hx => h id e x he hx

/-! ## Runs -/

/-- An advance adds no stale plan. -/
theorem PlansAfter.plansCurrent {s : System} {id target : EnsembleId}
    {generation : EnsembleGeneration} {e e' : EnsembleRecord} {x' : ExecutionRecord}
    (h : PlansAfter s (.advance target generation) id e e' x')
    (he : ∀ x, e.execution = some x → PlansCurrent e x) : PlansCurrent e' x' := by
  cases h with
  | fresh unplanned =>
    intro p hp
    rw [unplanned] at hp
    cases hp
  | advanced _ before => exact advanceOpen_keeps_current _ _ (he _ before)
  | evaluated submits => cases submits
  | seated registers => cases registers
  | kept before _ seats plans => exact plans.current seats (he _ before)

/-- An advance that meets the condition leaves no stale plan outstanding. -/
theorem PlansCurrent.after_advance {s : System} {id : EnsembleId}
    {generation : EnsembleGeneration} {e : EnsembleRecord} {x : ExecutionRecord}
    (hall : AllInSuccession s) (hkeeps : s.keepsPlans (.advance id generation) = true)
    (he : (s.next (.advance id generation)).fabric.find id = some e)
    (hx : e.execution = some x) (hgen : e.spec.generation = generation) : PlansCurrent e x := by
  replace hkeeps : advanceKeepsPlans s.fabric id generation = true := hkeeps
  obtain ⟨e₀, hfound, hwritten⟩ : ∃ e₀, s.fabric.find id = some e₀
      ∧ (e₀ = e ∨ Written s (.advance id generation) id e₀ e) := by
    rcases next_execution he hx with hsame | ⟨e₀, hfound, hwritten⟩
    · exact ⟨e, hsame, .inl rfl⟩
    · exact ⟨e₀, hfound, .inr hwritten⟩
  have hafter : (∀ x₀, e₀.execution = some x₀ → PlansCurrent e₀ x₀) → PlansCurrent e x := by
    intro hbefore
    rcases hwritten with rfl | hwritten
    · exact hbefore x hx
    · exact (hwritten.plansAfter hx).plansCurrent hbefore
  replace he : (advance s.fabric id generation).1.find id = some e := he
  have hgen₀ : e₀.spec.generation = generation := by
    by_contra hother
    rw [advance, hfound] at he
    simp only [ne_eq, hother, not_false_eq_true, if_true] at he
    obtain rfl := Option.some.inj (hfound.symm.trans he)
    exact hother hgen
  cases hexecution : e₀.execution with
  | none => exact hafter fun x₀ hx₀ => by rw [hexecution] at hx₀; cases hx₀
  | some x₀ =>
    rw [advanceKeepsPlans, hfound] at hkeeps
    simp only [hgen₀, bne_self_eq_false, Bool.false_or, hexecution, Option.all_some,
      Bool.or_eq_true] at hkeeps
    rcases hkeeps with hnone | hworks
    · refine hafter fun y hy p hp houtstanding _ => ?_
      obtain rfl := Option.some.inj (hexecution.symm.trans hy)
      simpa [houtstanding] using List.all_eq_true.mp hnone p hp
    · split at hworks
      · rename_i hstatus
        -- a cancelled execution gives up all plans
        rw [Bool.not_eq_true'] at hworks
        simp [advance, hfound, hgen₀, hexecution, hstatus, hworks] at he
        subst he
        obtain rfl := Option.some.inj hx
        intro p hp houtstanding
        obtain ⟨q, -, rfl⟩ := List.mem_map.mp hp
        exact absurd (outstanding_eq_true.mp houtstanding).2 nofun
      · rename_i hstatus
        rw [Bool.and_eq_true, Bool.not_eq_true'] at hworks
        rw [advance_worked hfound hgen₀ hexecution hstatus hworks.1,
          Fabric.find_store_self] at he
        obtain rfl := Option.some.inj he
        obtain rfl := Option.some.inj hx
        exact advanceOpen_current (hall id e₀ x₀ hfound hexecution).handed hworks.2
      · cases hworks

/-- Where the plans of an evaluator are done or not yet handed out before it is
replaced, and only its own generation answers them, no plan outlives its
evaluator: after an advance, every plan of an earlier generation is
answered or given up, and every evaluation answers a plan that was made for
its evaluator generation. -/
theorem plans_in_succession (config : FabricConfig) (events : List Event)
    (hkeeps : Along System.next (fun s event => s.keepsPlans event = true) (.initial config)
      events)
    (id : EnsembleId) (e : EnsembleRecord) (x : ExecutionRecord)
    (he : ((System.initial config).run events).fabric.find id = some e)
    (hx : e.execution = some x) :
    (∀ before, events = before ++ [.advance id e.spec.generation] →
        ∀ p ∈ x.pending, stalePlan e p = true → p.answered = true ∨ p.abandoned = true)
      ∧ ∀ r ∈ x.evaluations, ∃ p ∈ x.pending, AnsweredBy p r
        ∧ ∀ q ∈ x.pending, q.id = r.id → q = p := by
  have hall : ∀ {run}, Along System.next (fun s event => s.keepsPlans event = true)
      (.initial config) run → AllInSuccession ((System.initial config).run run) := fun hrun =>
    run_invariant_along (fun _ _ hcond hs => AllInSuccession.next hs hcond) hrun
      fun _ _ _ hnone => by cases hnone
  constructor
  · rintro before rfl p hp hstale
    obtain ⟨hbefore, hlast, -⟩ := along_append.mp hkeeps
    rw [System.run, run_append] at he
    have hcurrent := PlansCurrent.after_advance (hall hbefore) hlast he hx rfl
    by_contra hopen
    rw [not_or, Bool.not_eq_true, Bool.not_eq_true] at hopen
    rw [hcurrent p hp (outstanding_eq_true.mpr hopen) rfl] at hstale
    cases hstale
  · intro r hr
    obtain ⟨p, hp, hanswers⟩ := (hall hkeeps id e x he hx).attributed r hr
    have hdistinct := ((reachable_apart config events).numbered id).pending.distinct
    rw [View.pendingIds_of he hx] at hdistinct
    exact ⟨p, hp, hanswers, fun q hq hid =>
      List.inj_on_of_nodup_map hdistinct hq hp (hid.trans hanswers.id.symm)⟩

namespace Sample

/-- The judge is replaced before anything was planned for it. -/
def replacedFirst : List Event :=
  start criteriaSpec ++ replaceJudge ++ [content 1 1 [7], advance, judgeAgain 1 1, advance]

/-- The judge is replaced while its plans are handed out. -/
def replacedHolding : List Event :=
  start criteriaSpec ++ [content 1 1 [7], advance] ++ replaceJudge ++ [advance]

end Sample

/-- The replacement answers the plan that was made for it. -/
theorem replacedFirst_in_succession : ∃ e x, Sample.ensemble Sample.replacedFirst = some e
    ∧ e.execution = some x ∧ x.evaluations.length = 1
    ∧ (∀ before, Sample.replacedFirst = before ++ [.advance ⟨1⟩ e.spec.generation] →
        ∀ p ∈ x.pending, stalePlan e p = true → p.answered = true ∨ p.abandoned = true)
    ∧ ∀ r ∈ x.evaluations, ∃ p ∈ x.pending, AnsweredBy p r
      ∧ ∀ q ∈ x.pending, q.id = r.id → q = p := by
  have hkeeps : Along System.next (fun s event => s.keepsPlans event = true) (.initial {})
      Sample.replacedFirst := by decide +kernel
  have hopen : (Sample.ensemble Sample.replacedFirst).any (fun e => e.execution.any fun x =>
      x.evaluations.length == 1) = true := by
    decide +kernel
  simp only [Option.any_eq_true, beq_iff_eq] at hopen
  obtain ⟨e, hfind, x, hexecution, hlength⟩ := hopen
  exact ⟨e, x, hfind, hexecution, hlength,
    plans_in_succession {} Sample.replacedFirst hkeeps ⟨1⟩ e x hfind hexecution⟩

/-- A judge that is replaced while its plans are handed out leaves them
outstanding: the next advance gives up neither, and the execution does not
settle. And an answer of the replacement to such a plan is recorded. -/
theorem replaced_judge_strands_plans :
    (∃ e x, Sample.ensemble Sample.replacedHolding = some e ∧ e.execution = some x
      ∧ (x.pending.map fun p => (stalePlan e p, p.answered, p.abandoned))
        = [(true, false, false), (true, false, false)]
      ∧ executionSettled e = false)
    ∧ ∃ e x, Sample.ensemble Sample.replacedEarly = some e ∧ e.execution = some x
      ∧ (x.evaluations.map fun r => (r.id, r.evaluatorGeneration)) = [(⟨1⟩, ⟨2⟩)]
      ∧ (x.pending.map fun p => (p.id, p.evaluatorGeneration, p.answered))
        = [(⟨1⟩, ⟨1⟩, true), (⟨2⟩, ⟨1⟩, false)] := by
  have hheld : (Sample.ensemble Sample.replacedHolding).any (fun e => e.execution.any fun x =>
      (x.pending.map fun p => (stalePlan e p, p.answered, p.abandoned))
          == [(true, false, false), (true, false, false)]
        && !executionSettled e) = true := by
    decide +kernel
  have hanswered : (Sample.ensemble Sample.replacedEarly).any (fun e => e.execution.any fun x =>
      (x.evaluations.map fun r => (r.id, r.evaluatorGeneration)) == [(⟨1⟩, ⟨2⟩)]
        && (x.pending.map fun p => (p.id, p.evaluatorGeneration, p.answered))
          == [(⟨1⟩, ⟨1⟩, true), (⟨2⟩, ⟨1⟩, false)]) = true := by
    decide +kernel
  simp only [Option.any_eq_true, Bool.and_eq_true, beq_iff_eq, Bool.not_eq_true'] at hheld hanswered
  obtain ⟨e, hfind, x, hexecution, hplans, hunsettled⟩ := hheld
  obtain ⟨e', hfind', x', hexecution', hrecords, hpending⟩ := hanswered
  exact ⟨⟨e, x, hfind, hexecution, hplans, hunsettled⟩,
    e', x', hfind', hexecution', hrecords, hpending⟩

end EnsembleFabric
