import EnsembleFabric.Activation
import EnsembleFabric.Cooperation
import EnsembleFabric.Permanence

/-!
# Stages nobody can serve

What an advance makes of a candidate can be told from the records it starts
from. A candidate that is resolved stays as it is, and a declared one whose
participant is lost is given up. A stage whose members are all resolved or
lost is `stageCleared`: it is passed without waiting for anybody.

Where the evaluators have nothing to evaluate and every stage that is left is
cleared, the records also tell which fallback triggers fire behind the
stages. `clearedExecution` is the execution as it stands there, and
`activates` asks for the triggers of its report
(`fallbackTriggerFires_cleared`).

The argument follows the candidates through the steps of an advance. `Fate`
lists what can become of one, `Carried` relates a candidate to the one the
advance made of it, and `advanceSteps_carried` does so for all of them and for
those declared on the way. Which of them are resolved in the end is then
decided by the seats the advance started with, since no advance changes
whether a participant can serve.

None of this runs the advance: the execution behind the stages is written
down from the records and compared with the one the rounds come to.
-/

namespace EnsembleFabric

open List (Forall₂)
open EventSystem Precedence

/-! ## Evaluators with nothing to evaluate -/

/-- There are evaluators, and nothing to plan for them: none is a judge, and no
criterion is mandatory. -/
def EnsembleSpec.planless (spec : EnsembleSpec) : Bool :=
  !spec.evaluatingParticipants.isEmpty && spec.evidence.mandatoryCriteria.isEmpty
    && spec.evaluatingParticipants.all fun p => !p.roles.contains .judge

theorem EnsembleSpec.planless_targets {spec : EnsembleSpec} (h : spec.planless = true)
    (cs : List CandidateRecord) : AdvanceState.planTargets spec cs = [] := by
  simp only [planless, Bool.and_eq_true, Bool.not_eq_true', List.all_eq_true,
    List.isEmpty_iff] at h
  obtain ⟨⟨-, hmandatory⟩, hjudge⟩ := h
  refine List.flatMap_eq_nil_iff.mpr fun c _ => List.flatMap_eq_nil_iff.mpr fun p hp => ?_
  simp [AdvanceState.evaluatorTargets, hmandatory, hjudge p hp]

/-- Content for which evaluators have nothing to plan. -/
theorem EnsembleSpec.planless_of_targets {spec : EnsembleSpec} {cs : List CandidateRecord}
    {c : CandidateRecord} (hc : c ∈ cs) (hcontent : isContentState c.state = true)
    (hevaluators : spec.evaluatingParticipants.isEmpty = false)
    (htargets : AdvanceState.planTargets spec cs = []) : spec.planless = true := by
  have hnone : ∀ p ∈ spec.evaluatingParticipants, AdvanceState.evaluatorTargets spec c p = [] := by
    have hmine := List.flatMap_eq_nil_iff.mp htargets c (List.mem_filter.mpr ⟨hc, hcontent⟩)
    exact List.flatMap_eq_nil_iff.mp hmine
  have hparts : ∀ p ∈ spec.evaluatingParticipants,
      p.roles.contains .judge = false ∧ spec.evidence.mandatoryCriteria = [] := by
    intro p hp
    have hevaluates := (List.mem_filter.mp hp).2
    obtain ⟨hverifier, hjudge⟩ := List.append_eq_nil_iff.mp (hnone p hp)
    have hnot : p.roles.contains .judge = false := by
      by_contra hjudges
      rw [if_pos (by simpa using hjudges), List.map_eq_nil_iff, judgeCriteria] at hjudge
      split at hjudge
      · cases hjudge
      · rename_i hsome
        rw [hjudge] at hsome
        exact hsome rfl
    rw [hnot, Bool.false_or] at hevaluates
    rw [if_pos hevaluates, List.map_eq_nil_iff] at hverifier
    exact ⟨hnot, hverifier⟩
  obtain ⟨p, hp⟩ := List.exists_mem_of_ne_nil _ (List.isEmpty_eq_false_iff.mp hevaluators)
  simp only [planless, Bool.and_eq_true, Bool.not_eq_true', List.all_eq_true, List.isEmpty_iff]
  exact ⟨⟨hevaluators, (hparts p hp).2⟩, fun q hq => (hparts q hq).1⟩

/-- No evaluation is planned or recorded. -/
structure Unasked (x : ExecutionRecord) : Prop where
  pending : x.pending = []
  evaluations : x.evaluations = []

theorem Unasked.everEvaluated {x : ExecutionRecord} (h : Unasked x) (c : CandidateRecord) :
    AdvanceState.everEvaluated x c = false := by
  rw [AdvanceState.everEvaluated, h.pending, h.evaluations]
  rfl

theorem Unasked.of_kept {x x' : ExecutionRecord} (h : Unasked x) (plans : PlansKept x x')
    (evidence : OnlyWithdrawn x x') : Unasked x' := by
  constructor
  · refine List.eq_nil_iff_forall_not_mem.mpr fun p' hp' => ?_
    obtain ⟨p, hp, -⟩ := plans.follows p' hp'
    rw [h.pending] at hp
    cases hp
  · refine List.eq_nil_iff_forall_not_mem.mpr fun r' hr' => ?_
    obtain ⟨r, hr, -⟩ := evidence r' hr'
    rw [h.evaluations] at hr
    cases hr

/-- Where nothing is planned, nothing is asked. -/
def UnaskedWherePlanless (e : EnsembleRecord) (x : ExecutionRecord) : Prop :=
  e.spec.planless = true → Unasked x

theorem AdvanceState.PlanStep.unasked {s s' : AdvanceState}
    (hseats : SameSeats s.ensemble s'.ensemble) (h : PlanStep s s')
    (hs : UnaskedWherePlanless s.ensemble s.execution) :
    UnaskedWherePlanless s'.ensemble s'.execution := by
  intro hplanless
  rw [hseats.spec] at hplanless
  have hunasked := hs hplanless
  cases h with
  | kept plans evidence => exact hunasked.of_kept plans evidence
  | @planned added pending evaluations _ made =>
    have hadded : added = [] := by
      refine List.eq_nil_iff_forall_not_mem.mpr fun p hp => ?_
      obtain ⟨t, ht, -⟩ := made p hp
      rw [EnsembleSpec.planless_targets hplanless] at ht
      cases ht
    exact ⟨by rw [pending, hunasked.pending, hadded]; rfl, evaluations.trans hunasked.evaluations⟩
  | handled index result =>
    subst result
    obtain ⟨-, hsame | ⟨p, p', hp, -⟩⟩ := emitOne_execution s index
    · rw [hsame]
      exact hunasked
    · rw [hunasked.pending] at hp
      cases hp

theorem PlansAfter.unasked {s : System} {event : Event} {id : EnsembleId} {e e' : EnsembleRecord}
    {x' : ExecutionRecord} (h : PlansAfter s event id e e' x')
    (he : ∀ x, e.execution = some x → UnaskedWherePlanless e x) : UnaskedWherePlanless e' x' := by
  cases h with
  | fresh unplanned unevaluated => exact fun _ => ⟨unplanned, unevaluated⟩
  | @advanced x _ before =>
    have hloop := (AdvanceState.advanceLoop_advances s.fabric.config.limits 64
      (advanceStart s.fabric.core e x)).keeps_plans (P := UnaskedWherePlanless)
      AdvanceState.PlanStep.unasked (he x before)
    obtain ⟨hensemble, hpending, hevaluations⟩ := advanceOpen_final
      (rfl : AdvanceState.advanceLoop s.fabric.config.limits 64
        (advanceStart s.fabric.core e x) = _)
    intro hplanless
    rw [EnsembleRecord.holding_spec, hensemble] at hplanless
    obtain ⟨hnone, hnone'⟩ := hloop hplanless
    exact ⟨hpending.trans hnone, hevaluations.trans hnone'⟩
  | @evaluated r site p _ accept ensemble =>
    subst ensemble
    intro hplanless
    have haccepted := acceptEvaluation_eq_ok accept
    have hat := haccepted.pendingAt
    rw [(he _ haccepted.execution hplanless).pending] at hat
    cases hat
  | seated _ at_ _ before =>
    obtain rfl := at_.ensemble
    exact he x' before
  | kept before spec _ plans evidence =>
    intro hplanless
    exact (he _ before (spec ▸ hplanless)).of_kept plans evidence

/-- Executions of specifications that plan nothing ask nothing. -/
def AllUnasked (s : System) : Prop :=
  ∀ id e x, s.fabric.find id = some e → e.execution = some x → UnaskedWherePlanless e x

theorem AllUnasked.next {s : System} (event : Event) (h : AllUnasked s) :
    AllUnasked (s.next event) := by
  intro id e' x' he' hx'
  rcases next_execution he' hx' with hsame | ⟨e, he, hwritten⟩
  · exact h id _ x' hsame hx'
  · exact (hwritten.plansAfter hx').unasked fun x hx => h id e x he hx

theorem reachable_unasked (config : FabricConfig) (events : List Event) :
    AllUnasked ((System.initial config).run events) :=
  run_invariant (fun _ event h => AllUnasked.next event h) fun _ _ _ hnone => by cases hnone

namespace AdvanceState

/-! ## What becomes of a candidate -/

/-- The participant cannot serve a candidate that used so many attempts, now or
by a replacement. -/
def lostSeat (epoch : CoordinatorEpoch) (e : EnsembleRecord) (id : ParticipantId)
    (attemptsUsed : Nat) : Bool :=
  (e.participant? id).any fun p => !p.authoritative epoch && !p.capable
    && !(e.spec.retry.replaceParticipant && decide (attemptsUsed < e.spec.retry.maxAttempts.toNat))

/-- The participant serves now. -/
def servedSeat (epoch : CoordinatorEpoch) (e : EnsembleRecord) (id : ParticipantId) : Bool :=
  (e.participant? id).any (·.authoritative epoch)

theorem lostSeat_not_served {epoch : CoordinatorEpoch} {e : EnsembleRecord} {id : ParticipantId}
    {attemptsUsed : Nat} (h : lostSeat epoch e id attemptsUsed = true) :
    servedSeat epoch e id = false := by
  obtain ⟨p, hp, hlost⟩ := Option.any_eq_true _ _ |>.mp h
  simp only [Bool.and_eq_true, Bool.not_eq_true'] at hlost
  rw [servedSeat, hp]
  exact hlost.1.1

theorem seats_eq {e e' : EnsembleRecord} (h : SameSeats e e')
    (epoch : CoordinatorEpoch) (id : ParticipantId) (attemptsUsed : Nat) :
    lostSeat epoch e' id attemptsUsed = lostSeat epoch e id attemptsUsed
      ∧ servedSeat epoch e' id = servedSeat epoch e id := by
  rcases Slots.find?_related (fun p : ParticipantRecord => p.id == id)
      (fun p : ParticipantRecord => p.id == id) (fun hsame => by rw [hsame.1]) h.participants with
    ⟨hnone, hnone'⟩ | ⟨p, q, hp, hq, -, -, hstatus, hregistered, hepoch, -⟩
  · rw [lostSeat, lostSeat, servedSeat, servedSeat, EnsembleRecord.participant?,
      EnsembleRecord.participant?, hnone, hnone']
    exact ⟨rfl, rfl⟩
  · have hserved : q.authoritative epoch = p.authoritative epoch := by
      rw [ParticipantRecord.authoritative, ParticipantRecord.authoritative, hregistered, hstatus,
        hepoch]
    have hcapable : q.capable = p.capable := by
      rw [ParticipantRecord.capable, ParticipantRecord.capable, hstatus]
    rw [lostSeat, lostSeat, servedSeat, servedSeat, EnsembleRecord.participant?,
      EnsembleRecord.participant?, hp, hq, Option.any_some, Option.any_some, Option.any_some,
      Option.any_some, hserved, hcapable, h.spec]
    exact ⟨rfl, rfl⟩

/-- What becomes of a candidate in an advance. -/
inductive Fate (epoch : CoordinatorEpoch) (e : EnsembleRecord) (c c' : CandidateRecord) : Prop
  | kept (state : c'.state = c.state) (used : c'.attemptsUsed = c.attemptsUsed)
  | sent (before : c.state = .declared) (after : c'.state = .dispatched)
      (served : servedSeat epoch e c.participant = true)
  | lost (before : c.state = .declared) (after : c'.state = .failed)
      (used : c'.attemptsUsed = c.attemptsUsed)
      (gone : lostSeat epoch e c.participant c.attemptsUsed = true)

/-- A candidate and what the advance made of it. -/
structure Carried (epoch : CoordinatorEpoch) (e : EnsembleRecord) (c c' : CandidateRecord) :
    Prop where
  identity : c'.id = c.id ∧ c'.generation = c.generation
  member : c'.member = c.member
  fallback : c'.fallback = c.fallback
  fate : Fate epoch e c c'

theorem Carried.refl (epoch : CoordinatorEpoch) (e : EnsembleRecord) (c : CandidateRecord) :
    Carried epoch e c c :=
  ⟨⟨rfl, rfl⟩, rfl, rfl, .kept rfl rfl⟩

theorem Carried.trans {epoch : CoordinatorEpoch} {e : EnsembleRecord} {a b c : CandidateRecord}
    (h : Carried epoch e a b) (h' : Carried epoch e b c) : Carried epoch e a c := by
  have hparticipant : b.participant = a.participant := congrArg Prod.fst h.member
  refine ⟨⟨h'.identity.1.trans h.identity.1, h'.identity.2.trans h.identity.2⟩,
    h'.member.trans h.member, h'.fallback.trans h.fallback, ?_⟩
  cases h.fate with
  | kept state used =>
    cases h'.fate with
    | kept state' used' => exact .kept (state'.trans state) (used'.trans used)
    | sent before after served => exact .sent (state ▸ before) after (hparticipant ▸ served)
    | lost before after used' gone =>
      rw [hparticipant, used] at gone
      exact .lost (state ▸ before) after (used'.trans used) gone
  | sent before after served =>
    cases h'.fate with
    | kept state' => exact .sent before (state'.trans after) served
    | sent before' => cases after.symm.trans before'
    | lost before' => cases after.symm.trans before'
  | lost before after used gone =>
    cases h'.fate with
    | kept state' used' => exact .lost before (state'.trans after) (used'.trans used) gone
    | sent before' => cases after.symm.trans before'
    | lost before' => cases after.symm.trans before'

/-- Content was there before the advance. -/
theorem Carried.content {epoch : CoordinatorEpoch} {e : EnsembleRecord} {c c' : CandidateRecord}
    (h : Carried epoch e c c') : isContentState c'.state = isContentState c.state := by
  cases h.fate with
  | kept state => rw [state]
  | sent before after => rw [before, after]; rfl
  | lost before after => rw [before, after]; rfl

/-- A candidate that was just declared. -/
structure JustDeclared (c : CandidateRecord) : Prop where
  state : c.state = .declared
  used : c.attemptsUsed = 0

/-- The candidates of an execution, and what a later state of its advance made
of them; others were declared since. -/
structure CarriedAll (epoch : CoordinatorEpoch) (e : EnsembleRecord)
    (cs cs' : List CandidateRecord) : Prop where
  forth : ∀ c ∈ cs, ∃ c' ∈ cs', Carried epoch e c c'
  back : ∀ c' ∈ cs', (∃ c ∈ cs, Carried epoch e c c')
    ∨ (∀ c ∈ cs, c.member ≠ c'.member) ∧ ∃ c, JustDeclared c ∧ Carried epoch e c c'
  content : cs'.countP (isContentState ·.state) = cs.countP (isContentState ·.state)

theorem CarriedAll.of_slots {epoch : CoordinatorEpoch} {e : EnsembleRecord}
    {cs cs' : List CandidateRecord} (h : Forall₂ (Carried epoch e) cs cs') :
    CarriedAll epoch e cs cs' := by
  refine ⟨fun _ hc => Slots.exists_right h hc, fun _ hc' => .inl (Slots.exists_left h hc'), ?_⟩
  induction h with
  | nil => rfl
  | cons hcarried _ ih => rw [List.countP_cons, List.countP_cons, ih, hcarried.content]

theorem CarriedAll.refl (epoch : CoordinatorEpoch) (e : EnsembleRecord)
    (cs : List CandidateRecord) : CarriedAll epoch e cs cs :=
  .of_slots (List.forall₂_same.mpr fun c _ => .refl epoch e c)

theorem CarriedAll.trans {epoch : CoordinatorEpoch} {e : EnsembleRecord}
    {as bs cs : List CandidateRecord} (h : CarriedAll epoch e as bs)
    (h' : CarriedAll epoch e bs cs) : CarriedAll epoch e as cs := by
  refine ⟨?_, ?_, h'.content.trans h.content⟩
  · intro a ha
    obtain ⟨b, hb, hab⟩ := h.forth a ha
    obtain ⟨c, hc, hbc⟩ := h'.forth b hb
    exact ⟨c, hc, hab.trans hbc⟩
  · intro c hc
    rcases h'.back c hc with ⟨b, hb, hbc⟩ | ⟨hnew, hdeclared⟩
    · rcases h.back b hb with ⟨a, ha, hab⟩ | ⟨hnew, a, hdeclared, hab⟩
      · exact .inl ⟨a, ha, hab.trans hbc⟩
      · exact .inr ⟨fun d hd heq => hnew d hd (heq.trans hbc.member), a, hdeclared, hab.trans hbc⟩
    · refine .inr ⟨fun d hd heq => ?_, hdeclared⟩
      obtain ⟨b, hb, hab⟩ := h.forth d hd
      exact hnew b hb (hab.member.trans heq)

theorem Carried.of_seats {epoch : CoordinatorEpoch} {e e' : EnsembleRecord} (h : SameSeats e e')
    {c c' : CandidateRecord} (hcarried : Carried epoch e' c c') : Carried epoch e c c' := by
  refine ⟨hcarried.identity, hcarried.member, hcarried.fallback, ?_⟩
  cases hcarried.fate with
  | kept state used => exact .kept state used
  | sent before after served =>
    exact .sent before after ((seats_eq h epoch _ 0).2.symm.trans served)
  | lost before after used gone =>
    exact .lost before after used ((seats_eq h epoch _ _).1.symm.trans gone)

theorem CarriedAll.of_seats {epoch : CoordinatorEpoch} {e e' : EnsembleRecord}
    (h : SameSeats e e') {cs cs' : List CandidateRecord} (hall : CarriedAll epoch e' cs cs') :
    CarriedAll epoch e cs cs' := by
  refine ⟨?_, ?_, hall.content⟩
  · intro c hc
    obtain ⟨c', hc', hcarried⟩ := hall.forth c hc
    exact ⟨c', hc', hcarried.of_seats h⟩
  · intro c' hc'
    rcases hall.back c' hc' with ⟨c, hc, hcarried⟩ | ⟨hnew, c, hdeclared, hcarried⟩
    · exact .inl ⟨c, hc, hcarried.of_seats h⟩
    · exact .inr ⟨hnew, c, hdeclared, hcarried.of_seats h⟩

theorem declareMembers_carried (limits : Limits) (stage : StageSpec) (s : AdvanceState)
    (epoch : CoordinatorEpoch) (e : EnsembleRecord) :
    CarriedAll epoch e s.execution.candidates (Threaded.final
      (stage.participants.foldlM (declareMember limits stage) s)).execution.candidates := by
  refine Threaded.final_foldlM
    (R := fun a b : AdvanceState =>
      CarriedAll epoch e a.execution.candidates b.execution.candidates)
    (fun _ => .refl _ _ _) CarriedAll.trans (fun m id _ => ?_) s
  unfold declareMember
  split
  · exact .refl _ _ _
  · split
    · exact .refl _ _ _
    · rename_i hmissing
      split
      · exact .refl _ _ _
      · split
        · exact .refl _ _ _
        · rename_i declaration _ _ _ candidateId ids _
          refine ⟨fun c hc => ⟨c, List.mem_append_left _ hc, .refl _ _ c⟩, fun c' hc' => ?_, ?_⟩
          · rcases List.mem_append.mp hc' with hold | hnew
            · exact .inl ⟨c', hold, .refl _ _ c'⟩
            · obtain rfl := List.mem_singleton.mp hnew
              refine .inr ⟨fun d hd heq => ?_, _, ⟨rfl, rfl⟩, .refl _ _ _⟩
              obtain ⟨hparticipant, hstage⟩ := Prod.mk.injEq .. |>.mp heq
              exact hmissing (List.any_eq_true.mpr ⟨d, hd, by
                simp only [Bool.and_eq_true, beq_iff_eq]
                exact ⟨hparticipant, hstage⟩⟩)
          · exact List.countP_append.trans rfl

theorem adopt_carried {stage : StageSpec} {s : AdvanceState} {index : Nat} {c : CandidateRecord}
    {p : ParticipantRecord} (h : DispatchTarget stage s index c p) (epoch : CoordinatorEpoch)
    (e : EnsembleRecord) :
    CarriedAll epoch e s.execution.candidates (s.adopt index c p).execution.candidates :=
  .of_slots (Slots.forall₂_set (.refl epoch e) h.at_ ⟨⟨rfl, rfl⟩, rfl, rfl, .kept rfl rfl⟩)

/-- What a step of an advance makes of the candidates. -/
theorem AdvanceStep.carried {limits : Limits} {s s' : AdvanceState} (h : AdvanceStep limits s s') :
    CarriedAll s.core.epoch s.ensemble s.execution.candidates s'.execution.candidates := by
  cases h with
  | round | completed => exact .refl _ _ _
  | @declared _ stage _ undeclared result =>
    obtain ⟨m, hm, rfl⟩ := declareStage_eq_ok undeclared result
    have hmembers := declareMembers_carried limits stage s s.core.epoch s.ensemble
    rwa [hm, Threaded.final_ok] at hmembers
  | adopted _ _ target => exact adopt_carried target _ _
  | @stranded stage index c p _ _ target away gone =>
    refine (adopt_carried target _ _).trans (.of_slots ?_)
    have hat := setCandidate_get target.at_ (adoptedCandidate c p)
    refine Slots.forall₂_set (.refl _ _) hat
      ⟨⟨rfl, rfl⟩, rfl, rfl, .lost target.state rfl rfl ?_⟩
    rw [Bool.or_eq_false_iff] at gone
    refine Option.any_eq_true _ _ |>.mpr ⟨p, target.seat, ?_⟩
    rw [away, gone.1]
    exact congrArg Bool.not gone.2
  | @dispatched stage index c p _ _ target served =>
    refine (adopt_carried target _ _).trans (.of_slots ?_)
    have hat := setCandidate_get target.at_ (adoptedCandidate c p)
    exact Slots.forall₂_set (.refl _ _) hat ⟨⟨rfl, rfl⟩, rfl, rfl, .sent target.state rfl
      (Option.any_eq_true _ _ |>.mpr ⟨p, target.seat, served⟩)⟩
  | reopened =>
    unfold reopenPlanning
    split <;> exact .refl _ _ _
  | planned _ incomplete result =>
    obtain ⟨done, added, hplans, -⟩ := planEvaluations_plans incomplete
    rw [result, Threaded.final_ok] at hplans
    rw [hplans.execution]
    exact .refl _ _ _
  | emitted index =>
    obtain ⟨-, hexecution | ⟨p, p', -, -, hexecution⟩⟩ := emitOne_execution s index
    · rw [hexecution]
      exact .refl _ _ _
    · rw [hexecution]
      exact .refl _ _ _
  | reported =>
    refine .of_slots (Slots.forall₂_map fun c _ => ⟨?_, ?_, ?_, .kept ?_ ?_⟩)
    · rw [markElimination_eq _ c]
      exact ⟨rfl, rfl⟩
    · rw [markElimination_eq _ c]
      rfl
    · exact markElimination_fallback ..
    · exact markElimination_state ..
    · exact markElimination_attemptsUsed ..
  | activated _ decision =>
    rw [(activateFallback_eq decision).1]
    exact .refl _ _ _

theorem activateMembers_epoch (trigger : FallbackTrigger) (ids : List ParticipantId)
    (s : AdvanceState) : (ids.foldl (activateMember trigger) s).core.epoch = s.core.epoch := by
  induction ids generalizing s with
  | nil => rfl
  | cons id rest ih => exact (ih (activateMember trigger s id)).trans (nextSequence_epoch s.core)

/-- The epoch stays, and no stage is taken back. -/
theorem AdvanceStep.forward {limits : Limits} {s s' : AdvanceState} (h : AdvanceStep limits s s') :
    s'.core.epoch = s.core.epoch ∧ s.execution.stageIndex ≤ s'.execution.stageIndex := by
  cases h with
  | round | adopted | stranded | reported => exact ⟨rfl, Nat.le_refl _⟩
  | completed => exact ⟨rfl, Nat.le_succ _⟩
  | @declared _ stage _ undeclared result =>
    obtain ⟨hplan, -⟩ := declareStage_same result
    obtain ⟨m, hm, rfl⟩ := declareStage_eq_ok undeclared result
    have hepoch : (Threaded.final (stage.participants.foldlM (declareMember limits stage)
        s)).core.epoch = s.core.epoch :=
      Threaded.final_foldlM (R := fun a b : AdvanceState => b.core.epoch = a.core.epoch)
        (fun _ => rfl) (fun hab hbc => hbc.trans hab) (fun k id _ => by
          unfold declareMember
          repeat' split
          all_goals rfl) s
    rw [hm, Threaded.final_ok] at hepoch
    exact ⟨hepoch, hplan.stageIndex.ge⟩
  | dispatched => exact ⟨nextSequence_epoch _, Nat.le_refl _⟩
  | reopened =>
    unfold reopenPlanning
    split <;> exact ⟨rfl, Nat.le_refl _⟩
  | planned _ _ result =>
    have hepoch := planEvaluations_epoch s
    have hplan := planEvaluations_same s
    rw [result] at hepoch hplan
    exact ⟨hepoch, hplan.stageIndex.ge⟩
  | emitted index =>
    have hcases := emitOne_cases s index
    generalize s.emitOne index = s' at hcases
    cases hcases with
    | skipped | kept | abandoned => exact ⟨rfl, Nat.le_refl _⟩
    | emitted => exact ⟨nextSequence_epoch _, Nat.le_refl _⟩
  | @activated trigger _ decision =>
    refine ⟨?_, by rw [(activateFallback_eq decision).1]; exact Nat.le_refl _⟩
    rw [activateFallback, decision]
    exact activateMembers_epoch trigger _ s.requestFallback

/-- What an advance makes of the candidates it starts from. -/
theorem advanceSteps_carried {limits : Limits} {core : Core} {e : EnsembleRecord}
    {x : ExecutionRecord} {s : AdvanceState}
    (h : AdvanceSteps limits (advanceStart core e x) s) :
    (s.core.epoch = core.epoch ∧ x.stageIndex ≤ s.execution.stageIndex)
      ∧ SameSeats e s.ensemble
      ∧ CarriedAll core.epoch e x.candidates s.execution.candidates := by
  refine advanceSteps_keep
    (P := fun s => (s.core.epoch = core.epoch ∧ x.stageIndex ≤ s.execution.stageIndex)
      ∧ SameSeats e s.ensemble ∧ CarriedAll core.epoch e x.candidates s.execution.candidates)
    (fun hstep ⟨⟨hepoch, hindex⟩, hseats, hcarried⟩ => ?_) h
    ⟨⟨rfl, Nat.le_refl _⟩, .refl e, .refl _ _ _⟩
  obtain ⟨hepoch', hindex'⟩ := hstep.forward
  have hone := hstep.carried
  rw [hepoch] at hone
  exact ⟨⟨hepoch'.trans hepoch, hindex.trans hindex'⟩, hseats.trans hstep.keeps_seats,
    hcarried.trans (hone.of_seats hseats)⟩

/-! ## Cleared stages -/

/-- The member of the stage has nothing in flight: its candidate is resolved, or
is declared, or still missing, and the participant cannot serve it. -/
def memberCleared (epoch : CoordinatorEpoch) (e : EnsembleRecord) (x : ExecutionRecord)
    (stage : StageSpec) (id : ParticipantId) : Bool :=
  let mine := x.candidates.filter (·.member == (id, stage.id))
  if mine.isEmpty then lostSeat epoch e id 0
  else mine.all fun c =>
    !c.inFlight || c.state == .declared && lostSeat epoch e id c.attemptsUsed

def stageCleared (epoch : CoordinatorEpoch) (e : EnsembleRecord) (x : ExecutionRecord)
    (stage : StageSpec) : Bool :=
  stage.participants.all (memberCleared epoch e x stage)

/-- A candidate resolved in the end was so before, or its participant was lost. -/
theorem Carried.resolved {epoch : CoordinatorEpoch} {e : EnsembleRecord} {c c' : CandidateRecord}
    (h : Carried epoch e c c') (hresolved : c'.inFlight = false) :
    c.inFlight = false ∨ c.state = .declared
      ∧ lostSeat epoch e c.participant c.attemptsUsed = true := by
  cases h.fate with
  | kept state => exact .inl (by rw [CandidateRecord.inFlight, ← state]; exact hresolved)
  | sent before after =>
    rw [inFlight_of_dispatched after] at hresolved
    cases hresolved
  | lost before _ _ gone => exact .inr ⟨before, gone⟩

/-- A candidate of a lost participant in flight in the end stayed declared. -/
theorem Carried.stranded {epoch : CoordinatorEpoch} {e : EnsembleRecord} {c c' : CandidateRecord}
    (h : Carried epoch e c c') (hflight : c'.inFlight = true)
    (hcleared : c.inFlight = false ∨ c.state = .declared
      ∧ lostSeat epoch e c.participant c.attemptsUsed = true) :
    c'.state = .declared ∧ lostSeat epoch e c'.participant c'.attemptsUsed = true := by
  have hparticipant : c'.participant = c.participant := congrArg Prod.fst h.member
  cases h.fate with
  | kept state used =>
    rcases hcleared with hresolved | ⟨hstate, hlost⟩
    · rw [CandidateRecord.inFlight, state] at hflight
      rw [CandidateRecord.inFlight, hflight] at hresolved
      cases hresolved
    · exact ⟨state.trans hstate, by rw [hparticipant, used]; exact hlost⟩
  | sent before _ served =>
    rcases hcleared with hresolved | ⟨-, hlost⟩
    · simp [CandidateRecord.inFlight, before, permitsOutput] at hresolved
    · rw [lostSeat_not_served hlost] at served
      cases served
  | lost _ after =>
    simp [CandidateRecord.inFlight, after, permitsOutput] at hflight

end AdvanceState

/-! ## Reports on content nobody has evaluated -/

theorem quorumSeats_unmarked (policy : QuorumPolicy) (seats : List QuorumMember)
    (votes : List EligibleVote) :
    quorumSeats policy (seats.map (·.unmarked)) votes
      = (quorumSeats policy seats votes).map (·.unmarked) := by
  rw [quorumSeats, quorumSeats, List.filter_map]
  rfl

/-- The marks of fallback members make no difference to a quorum. -/
theorem quorumStateGiven_unmarked (policy : QuorumPolicy) (seats : List QuorumMember)
    (votes : List EligibleVote) (valid abstentions : Nat) :
    quorumStateGiven policy (seats.map (·.unmarked)) votes valid abstentions
      = quorumStateGiven policy seats votes valid abstentions := by
  have hquota : ∀ q : RoleQuota,
      countMembers (quorumSeats policy (seats.map (·.unmarked)) votes)
          (fun m => m.roles.contains q.role && m.authorized && m.roleAvailable)
        = countMembers (quorumSeats policy seats votes)
          fun m => m.roles.contains q.role && m.authorized && m.roleAvailable := by
    intro q
    rw [quorumSeats_unmarked]
    exact filter_unmarked _ _ fun _ => rfl
  have hfailed : ((seats.map (·.unmarked)).filter (·.failed)).length
      = (seats.filter (·.failed)).length := filter_unmarked seats _ fun _ => rfl
  rw [quorumStateGiven, quorumStateGiven, quorumPossible_unmarked, quorumOtherwiseMet,
    quorumOtherwiseMet, hfailed]
  simp only [hquota]

/-- Without votes, a quorum is a matter of the members and of how many
candidates have content. -/
theorem quorum_unasked {e e' : EnsembleRecord} {x x' : ExecutionRecord} (h : Unasked x)
    (h' : Unasked x') (hpolicy : e'.spec.quorum = e.spec.quorum)
    (hmembers : (quorumMembers e' x').map (·.unmarked) = (quorumMembers e x).map (·.unmarked))
    (hvalid : validCandidates x' = validCandidates x) :
    (computeReports e' x').quorum.state = (computeReports e x).quorum.state := by
  have hvotes : ∀ {y : ExecutionRecord}, Unasked y → eligibleVotes y = [] := by
    intro y hy
    rw [eligibleVotes, hy.evaluations]
    rfl
  have habstaining : ∀ (k : EnsembleRecord) {y : ExecutionRecord}, Unasked y →
      abstainingMembers k y = 0 := by
    intro k y hy
    rw [abstainingMembers, hvotes hy, abstainingSeats, List.countP_eq_zero]
    intro m _
    simp [voted]
  rw [computeReports_quorum_given, computeReports_quorum_given, hvotes h, hvotes h',
    habstaining e h, habstaining e' h', hvalid, hpolicy, ← quorumStateGiven_unmarked, hmembers,
    quorumStateGiven_unmarked]

/-- An open execution with content, for which there are evaluators and no
evaluations, before its fallback is used up. -/
structure Silent (e : EnsembleRecord) (x : ExecutionRecord) : Prop where
  opened : x.status = .opened
  unasked : Unasked x
  content : ∃ c ∈ x.candidates, isContentState c.state = true
  evaluators : e.spec.evaluatingParticipants.isEmpty = false
  below : x.fallbackDepth < e.spec.fallback.maxDepth

/-- The consensus where nobody has voted. -/
def silentConsensus (e : EnsembleRecord) (quorum : QuorumState) : ConsensusState :=
  if e.superseded then .superseded
  else if requiredParticipantFailed e && e.spec.completion.requireAllRequiredParticipants then
    .requiredParticipantFailed
  else if quorum = .impossible then .quorumImpossible
  else if quorum ≠ .reached then .quorumNotReached
  else .insufficientEvidence

theorem Silent.consensus {e : EnsembleRecord} {x : ExecutionRecord} (h : Silent e x) :
    (computeReports e x).consensus.state
      = silentConsensus e (computeReports e x).quorum.state := by
  have hquorum : (computeReports e x).quorum = (withQuorum e x).quorum := rfl
  have hnone : ∀ t ∈ x.candidates.map (tallyCandidate (withQuorum e x)), t.agreeing = 0 := by
    intro t ht
    obtain ⟨c, -, rfl⟩ := List.mem_map.mp ht
    have hcurrent : currentEvaluations (withQuorum e x) c = [] := by
      rw [currentEvaluations, show (withQuorum e x).evaluations = [] from h.unasked.evaluations]
      rfl
    rw [tallyCandidate, hcurrent]
    rfl
  have hrequired : fallbackRequired e (withQuorum e x) = false :=
    fallbackRequired_below (x := withQuorum e x) h.below
  have hopened : (withQuorum e x).status = .opened := h.opened
  rw [computeReports_consensus, computeConsensus_eq_state, hquorum, silentConsensus,
    consensusState]
  simp only [consensusInputs, hopened, hrequired, h.evaluators, Bool.not_false]
  obtain ⟨c, hc, hcontent⟩ := h.content
  have heligible : tallyCandidate (withQuorum e x) c ∈ sortBy betterTally
      (((withQuorum e x).candidates.map (tallyCandidate (withQuorum e x))).filter (·.eligible)) :=
    mem_sortBy.mpr (List.mem_filter.mpr ⟨List.mem_map_of_mem hc, hcontent⟩)
  cases horder : sortBy betterTally
      (((withQuorum e x).candidates.map (tallyCandidate (withQuorum e x))).filter (·.eligible)) with
  | nil =>
    rw [horder] at heligible
    cases heligible
  | cons leader others =>
    have hleader : leader.agreeing = 0 := by
      have hmem : leader ∈ sortBy betterTally _ := horder ▸ List.mem_cons_self
      exact hnone leader (List.mem_filter.mp (mem_sortBy.mp hmem)).1
    simp [voteOutcome, hleader]

/-- What is asked of some seat, without what a seat has counted. -/
theorem SameSeats.any {e e' : EnsembleRecord} (h : SameSeats e e') {test : ParticipantRecord → Bool}
    (htest : ∀ p p' : ParticipantRecord, p'.status = p.status → p'.registered = p.registered →
      p'.declaration = p.declaration → test p' = test p) :
    e'.participants.any test = e.participants.any test := by
  have hmap : e'.participants.map test = e.participants.map test :=
    Slots.map_key (fun ⟨_, _, hstatus, hregistered, _, hdeclaration⟩ =>
      htest _ _ hstatus hregistered hdeclaration) h.participants
  have hany := congrArg (·.any id) hmap
  simpa only [List.any_map, Function.id_comp] using hany

theorem SameSeats.countMembers {e e' : EnsembleRecord} (h : SameSeats e e')
    {test : ParticipantRecord → Bool} (htest : ∀ p p' : ParticipantRecord,
      p'.status = p.status → p'.declaration = p.declaration → test p' = test p) :
    (e'.participants.filter test).length = (e.participants.filter test).length := by
  have hmap : e'.participants.map test = e.participants.map test :=
    Slots.map_key (fun ⟨_, _, hstatus, _, _, hdeclaration⟩ => htest _ _ hstatus hdeclaration)
      h.participants
  have hcount := congrArg (·.countP id) hmap
  rw [← List.countP_eq_length_filter, ← List.countP_eq_length_filter]
  simpa only [List.countP_map, Function.id_comp] using hcount

theorem SameSeats.capable {e e' : EnsembleRecord} (h : SameSeats e e') (id : ParticipantId) :
    (e'.participant? id).any (·.capable) = (e.participant? id).any (·.capable) := by
  rcases Slots.find?_related (fun p : ParticipantRecord => p.id == id)
      (fun p : ParticipantRecord => p.id == id) (fun hsame => by rw [hsame.1]) h.participants with
    ⟨hnone, hnone'⟩ | ⟨p, q, hp, hq, -, -, hstatus, -⟩
  · rw [EnsembleRecord.participant?, EnsembleRecord.participant?, hnone, hnone']
  · rw [EnsembleRecord.participant?, EnsembleRecord.participant?, hp, hq, Option.any_some,
      Option.any_some, ParticipantRecord.capable, ParticipantRecord.capable, hstatus]

/-- Two reports on content nobody has evaluated see the same triggers, but for
the two that look at single candidates. -/
theorem fallbackTriggerFires_silent {e e' : EnsembleRecord} {x x' : ExecutionRecord}
    (hseats : SameSeats e e') (hsuperseded : e'.superseded = e.superseded) (h : Silent e x)
    (h' : Silent e' x')
    (hquorum : (computeReports e' x').quorum.state = (computeReports e x).quorum.state)
    (hexhausted : fallbackTriggerFires .retryExhausted e' (computeReports e' x')
      = fallbackTriggerFires .retryExhausted e (computeReports e x))
    (hprimary : fallbackTriggerFires .allPrimaryInvalid e' (computeReports e' x')
      = fallbackTriggerFires .allPrimaryInvalid e (computeReports e x))
    (trigger : FallbackTrigger) :
    fallbackTriggerFires trigger e' (computeReports e' x')
      = fallbackTriggerFires trigger e (computeReports e x) := by
  cases trigger with
  | participantUnavailable =>
    exact hseats.any fun p p' hstatus hregistered hdeclaration => by
      rw [hstatus, hregistered, hdeclaration]
  | requiredParticipantFailed =>
    exact hseats.any fun p p' hstatus _ hdeclaration => by rw [hstatus, hdeclaration]
  | retryExhausted => exact hexhausted
  | allPrimaryInvalid => exact hprimary
  | quorumImpossible => simp only [fallbackTriggerFires, hquorum]
  | requiredRoleUnavailable =>
    have hcount : ∀ q : RoleQuota,
        (e'.participants.filter fun p => p.declaration.roles.contains q.role && p.capable).length
          = (e.participants.filter fun p =>
              p.declaration.roles.contains q.role && p.capable).length :=
      fun q => hseats.countMembers fun p p' hstatus hdeclaration => by
        rw [hdeclaration, ParticipantRecord.capable, ParticipantRecord.capable, hstatus]
    simp only [fallbackTriggerFires, hcount, hseats.spec]
  | insufficientEvidence => simp only [fallbackTriggerFires, hseats.capable, hseats.spec]
  | judgeDisagreement =>
    have hfailed : requiredParticipantFailed e' = requiredParticipantFailed e :=
      hseats.any fun p p' hstatus _ hdeclaration => by rw [hstatus, hdeclaration]
    simp only [fallbackTriggerFires, h.consensus, h'.consensus, hquorum, silentConsensus,
      hsuperseded, hfailed, hseats.spec]

/-! ## Behind the stages -/

/-- What becomes of a candidate nobody can serve. -/
def givenUp (c : CandidateRecord) : CandidateRecord :=
  if c.inFlight then { c with state := .failed } else c

/-- A candidate that is declared for the stage and given up. -/
def failedSlot (stage : StageSpec) (id : ParticipantId) : CandidateRecord where
  id := {}
  generation := {}
  participant := id
  participantGeneration := {}
  stage := stage.id
  state := .failed
  fallback := stage.fallbackStage

/-- The members of the stage without a candidate, each with one given up. -/
def missingSlots (x : ExecutionRecord) (stage : StageSpec) : List CandidateRecord :=
  (stage.participants.filter fun id => !x.candidates.any (·.member == (id, stage.id))).map
    (failedSlot stage)

/-- The execution behind the stages that are left, where nobody can serve
them: what is in flight is given up, and so is what is declared on the way. -/
def clearedExecution (x : ExecutionRecord) (stages : List StageSpec) : ExecutionRecord :=
  { x with candidates := x.candidates.map givenUp ++ stages.flatMap (missingSlots x) }

/-- Fallback is activated behind the stages: it may be, and a trigger fires
there. -/
def activates (e : EnsembleRecord) (x : ExecutionRecord) (stages : List StageSpec) : Bool :=
  e.spec.fallback.enabled && !x.fallbackActivated
    && decide (x.fallbackDepth < e.spec.fallback.maxDepth)
    && e.spec.fallback.triggers.any fun trigger =>
      fallbackTriggerFires trigger e (computeReports e (clearedExecution x stages))

theorem givenUp_content (c : CandidateRecord) :
    isContentState (givenUp c).state = isContentState c.state := by
  unfold givenUp
  split
  · rename_i hflight
    rw [CandidateRecord.inFlight, permitsOutput_eq_true] at hflight
    rcases hflight with hstate | hstate <;> rw [hstate] <;> rfl
  · rfl

theorem mem_missingSlots {x : ExecutionRecord} {stages : List StageSpec} {c : CandidateRecord} :
    c ∈ stages.flatMap (missingSlots x) ↔ ∃ stage ∈ stages, ∃ id ∈ stage.participants,
      (∀ d ∈ x.candidates, d.member ≠ (id, stage.id)) ∧ c = failedSlot stage id := by
  simp only [List.mem_flatMap, missingSlots, List.mem_map, List.mem_filter, Bool.not_eq_true',
    List.any_eq_false, beq_iff_eq, and_assoc, eq_comm (a := c)]

theorem clearedExecution_valid (x : ExecutionRecord) (stages : List StageSpec) :
    validCandidates (clearedExecution x stages) = validCandidates x := by
  have hmissing : (stages.flatMap (missingSlots x)).countP (isContentState ·.state) = 0 := by
    rw [List.countP_eq_zero]
    intro c hc
    obtain ⟨stage, -, id, -, -, rfl⟩ := mem_missingSlots.mp hc
    exact Bool.false_ne_true
  have hgiven : (isContentState ·.state) ∘ givenUp = fun c : CandidateRecord =>
      isContentState c.state := funext givenUp_content
  rw [validCandidates, clearedExecution, List.countP_append, hmissing, List.countP_map, hgiven]
  rfl

/-- A state of an advance behind stages nobody can serve. -/
structure ClearedTo (epoch : CoordinatorEpoch) (e : EnsembleRecord) (x : ExecutionRecord)
    (stages : List StageSpec) (e' : EnsembleRecord) (x' : ExecutionRecord) : Prop where
  seats : SameSeats e e'
  superseded : e'.superseded = e.superseded
  members : (quorumMembers e' x').map (·.unmarked) = (quorumMembers e x).map (·.unmarked)
  status : x'.status = x.status
  activated : x'.fallbackActivated = x.fallbackActivated
  depth : x'.fallbackDepth = x.fallbackDepth
  unasked : Unasked x'
  carried : AdvanceState.CarriedAll epoch e x.candidates x'.candidates
  resolved : ∀ c ∈ x'.candidates, c.inFlight = false
  placed : ∀ c ∈ x'.candidates, (∀ d ∈ x.candidates, d.member ≠ c.member) →
    ∃ stage ∈ stages, stage.Asks c ∧ c.fallback = stage.fallbackStage
  passed : ∀ stage ∈ stages, ∀ id ∈ stage.participants,
    ∃ c ∈ x'.candidates, c.member = (id, stage.id)
  distinct : (stages.map (·.id)).Nodup

namespace ClearedTo

variable {epoch : CoordinatorEpoch} {e e' : EnsembleRecord} {x x' : ExecutionRecord}
  {stages : List StageSpec}

/-- A candidate that failed with so many attempts was given up with them. -/
theorem exhausted (h : ClearedTo epoch e x stages e' x')
    (hroom : 1 ≤ e.spec.retry.maxAttempts.toNat) :
    fallbackTriggerFires .retryExhausted e' (computeReports e' x')
      = fallbackTriggerFires .retryExhausted e (computeReports e (clearedExecution x stages)) := by
  rw [@fallbackTriggerFires_computeReports e' x' .retryExhausted (by decide),
    fallbackTriggerFires_computeReports e (clearedExecution x stages) (by decide)]
  simp only [fallbackTriggerFires, clearedExecution, h.seats.spec]
  rw [Bool.eq_iff_iff, List.any_eq_true, List.any_eq_true]
  simp only [Bool.and_eq_true, beq_iff_eq, decide_eq_true_eq]
  constructor
  · rintro ⟨c', hc', hfailed, hspent⟩
    rcases h.carried.back c' hc' with ⟨c, hc, hcarried⟩ | ⟨-, c, hdeclared, hcarried⟩
    · refine ⟨givenUp c, List.mem_append_left _ (List.mem_map_of_mem hc), ?_⟩
      cases hcarried.fate with
      | kept state used =>
        have hresolved := h.resolved c' hc'
        rw [CandidateRecord.inFlight, state] at hresolved
        rw [givenUp, CandidateRecord.inFlight, hresolved]
        exact ⟨state.symm.trans hfailed, used ▸ hspent⟩
      | sent _ after => cases after.symm.trans hfailed
      | lost before _ used =>
        rw [givenUp, if_pos (by rw [CandidateRecord.inFlight, before]; rfl)]
        exact ⟨rfl, used ▸ hspent⟩
    · have hnone : c'.attemptsUsed = 0 := by
        cases hcarried.fate with
        | kept _ used => exact used.trans hdeclared.used
        | sent _ after => cases after.symm.trans hfailed
        | lost _ _ used => exact used.trans hdeclared.used
      omega
  · rintro ⟨d, hd, hfailed, hspent⟩
    rcases List.mem_append.mp hd with hold | hmissing
    · obtain ⟨c, hc, rfl⟩ := List.mem_map.mp hold
      obtain ⟨c', hc', hcarried⟩ := h.carried.forth c hc
      have hresolved := h.resolved c' hc'
      have hspent : e.spec.retry.maxAttempts.toNat ≤ c.attemptsUsed := by
        unfold givenUp at hspent
        split at hspent <;> exact hspent
      refine ⟨c', hc', ?_⟩
      cases hcarried.fate with
      | kept state used =>
        rw [CandidateRecord.inFlight, state] at hresolved
        rw [givenUp, CandidateRecord.inFlight, hresolved] at hfailed
        exact ⟨state.trans hfailed, used ▸ hspent⟩
      | sent _ after =>
        rw [inFlight_of_dispatched after] at hresolved
        cases hresolved
      | lost _ after used => exact ⟨after, used ▸ hspent⟩
    · obtain ⟨stage, -, id, -, -, rfl⟩ := mem_missingSlots.mp hmissing
      exact absurd (hroom.trans hspent) (by decide : ¬ 1 ≤ 0)

/-- The primary candidates behind the stages are those there were, and those
declared for the primary stages that were left. -/
theorem primary (h : ClearedTo epoch e x stages e' x') :
    fallbackTriggerFires .allPrimaryInvalid e' (computeReports e' x')
      = fallbackTriggerFires .allPrimaryInvalid e
        (computeReports e (clearedExecution x stages)) := by
  rw [@fallbackTriggerFires_computeReports e' x' .allPrimaryInvalid (by decide),
    fallbackTriggerFires_computeReports e (clearedExecution x stages) (by decide)]
  simp only [fallbackTriggerFires, clearedExecution]
  have hfallback : ∀ c, (givenUp c).fallback = c.fallback := by
    intro c
    unfold givenUp
    split <;> rfl
  -- a primary candidate of one list stands for one of the other, with content or without
  have hthere : ∀ c' ∈ x'.candidates, c'.fallback = false →
      ∃ d ∈ x.candidates.map givenUp ++ stages.flatMap (missingSlots x), d.fallback = false
        ∧ isContentState d.state = isContentState c'.state := by
    intro c' hc' hprimary
    rcases h.carried.back c' hc' with ⟨c, hc, hcarried⟩ | ⟨hnew, c, hdeclared, hcarried⟩
    · refine ⟨givenUp c, List.mem_append_left _ (List.mem_map_of_mem hc), ?_, ?_⟩
      · rw [hfallback, ← hcarried.fallback, hprimary]
      · rw [givenUp_content, hcarried.content]
    · obtain ⟨stage, hstage, hasks, hmark⟩ := h.placed c' hc' hnew
      refine ⟨failedSlot stage c'.participant, List.mem_append_right _ (mem_missingSlots.mpr
        ⟨stage, hstage, c'.participant, hasks.member, fun d hd heq => hnew d hd ?_, rfl⟩), ?_, ?_⟩
      · rw [heq, CandidateRecord.member, hasks.named]
      · rw [failedSlot, ← hmark, hprimary]
      · rw [hcarried.content, hdeclared.state]
        rfl
  have hback : ∀ d ∈ x.candidates.map givenUp ++ stages.flatMap (missingSlots x),
      d.fallback = false → ∃ c' ∈ x'.candidates, c'.fallback = false
        ∧ isContentState c'.state = isContentState d.state := by
    intro d hd hprimary
    rcases List.mem_append.mp hd with hold | hmissing
    · obtain ⟨c, hc, rfl⟩ := List.mem_map.mp hold
      obtain ⟨c', hc', hcarried⟩ := h.carried.forth c hc
      refine ⟨c', hc', ?_, ?_⟩
      · rw [hcarried.fallback, ← hfallback, hprimary]
      · rw [givenUp_content, hcarried.content]
    · obtain ⟨stage, hstage, id, hid, hnone, rfl⟩ := mem_missingSlots.mp hmissing
      obtain ⟨c', hc', hmember⟩ := h.passed stage hstage id hid
      have hnew : ∀ b ∈ x.candidates, b.member ≠ c'.member := fun b hb heq =>
        hnone b hb (heq.trans hmember)
      obtain ⟨other, hother, hasks, hmark⟩ := h.placed c' hc' hnew
      have hsame : other = stage := List.inj_on_of_nodup_map h.distinct hother hstage
        (hasks.named.symm.trans (congrArg Prod.snd hmember))
      refine ⟨c', hc', ?_, ?_⟩
      · rw [hmark, hsame]
        exact hprimary
      · rcases h.carried.back c' hc' with ⟨c, hc, hcarried⟩ | ⟨-, c, hdeclared, hcarried⟩
        · exact absurd hcarried.member.symm (hnew c hc)
        · rw [hcarried.content, hdeclared.state]
          rfl
  rw [Bool.eq_iff_iff]
  simp only [Bool.and_eq_true, Bool.not_eq_true', List.isEmpty_eq_false_iff_exists_mem,
    List.mem_filter, List.all_eq_true]
  constructor
  · rintro ⟨⟨c', hc', hprimary⟩, hall⟩
    obtain ⟨d, hd, hmark, -⟩ := hthere c' hc' hprimary
    refine ⟨⟨d, hd, hmark⟩, fun b hb => ?_⟩
    obtain ⟨c', hc', hprimary', hsame⟩ := hback b hb.1 hb.2
    rw [← hsame]
    exact hall c' ⟨hc', hprimary'⟩
  · rintro ⟨⟨d, hd, hprimary⟩, hall⟩
    obtain ⟨c', hc', hmark, -⟩ := hback d hd hprimary
    refine ⟨⟨c', hc', hmark⟩, fun b hb => ?_⟩
    obtain ⟨d, hd, hprimary', hsame⟩ := hthere b hb.1 hb.2
    rw [← hsame]
    exact hall d ⟨hd, hprimary'⟩

/-- The decision on fallback, where content stands that nobody evaluates. -/
theorem decision (h : ClearedTo epoch e x stages e' x')
    (hroom : 1 ≤ e.spec.retry.maxAttempts.toNat) (hopen : x.status = .opened)
    (hunasked : Unasked x) (hcontent : ∃ c ∈ x.candidates, isContentState c.state = true)
    (hevaluators : e.spec.evaluatingParticipants.isEmpty = false) :
    (AdvanceState.fallbackDecision e' (computeReports e' x')).isSome
      = activates e x stages := by
  have hspec := h.seats.spec
  have hwaiting : AdvanceState.waiting (computeReports e' x') = false := by
    rw [AdvanceState.waiting, computeReports_pending, h.unasked.pending, List.any_nil,
      Bool.false_or, List.any_eq_false, computeReports_candidates]
    intro c hc
    obtain ⟨d, hd, rfl⟩ := List.mem_map.mp hc
    rw [CandidateRecord.inFlight, markElimination_state, ← CandidateRecord.inFlight,
      h.resolved d hd]
    exact Bool.false_ne_true
  rw [AdvanceState.fallbackDecision, computeReports_fallbackActivated,
    computeReports_fallbackDepth, h.activated, h.depth, hwaiting, hspec, activates,
    Bool.not_false, Bool.and_true]
  split
  · rename_i hmay
    have hbelow : x.fallbackDepth < e.spec.fallback.maxDepth := by
      simpa using (Bool.and_eq_true_iff.mp hmay).2
    have hsilent : Silent e (clearedExecution x stages) := by
      refine ⟨hopen, ⟨hunasked.pending, hunasked.evaluations⟩, ?_, hevaluators, hbelow⟩
      obtain ⟨c, hc, hstands⟩ := hcontent
      exact ⟨givenUp c, List.mem_append_left _ (List.mem_map_of_mem hc),
        (givenUp_content c).trans hstands⟩
    have hsilent' : Silent e' x' := by
      refine ⟨h.status.trans hopen, h.unasked, ?_, hspec ▸ hevaluators, ?_⟩
      · obtain ⟨c, hc, hstands⟩ := hcontent
        obtain ⟨c', hc', hcarried⟩ := h.carried.forth c hc
        exact ⟨c', hc', hcarried.content.trans hstands⟩
      · rw [h.depth, hspec]
        exact hbelow
    have hquorum := quorum_unasked hsilent.unasked h.unasked (by rw [hspec]) h.members
      (h.carried.content.trans (clearedExecution_valid x stages).symm)
    have hfires := fallbackTriggerFires_silent h.seats h.superseded hsilent hsilent' hquorum
      (h.exhausted hroom) h.primary
    rw [hmay, Bool.true_and, Bool.eq_iff_iff, List.find?_isSome, List.any_eq_true]
    simp only [hfires]
  · rename_i hmay
    rw [Bool.eq_false_iff.mpr hmay]
    rfl

end ClearedTo

end EnsembleFabric
