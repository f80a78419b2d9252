import EnsembleFabric.Stages

/-!
# What an advance hands out

A candidate that becomes dispatched and an evaluation that becomes emitted
are in the hands of the caller: the call returns the action for each. An
advance that stops at a resource bound returns no actions, and has handed
out nothing: a stage is only declared, and evaluations are only planned,
while nothing of this call is outstanding.

`Returned` says that every slot which is dispatched or emitted later and was
not before has an action, and every step of an advance satisfies it
(`Hands`). The second half is about the two steps that can stop. `Holding`
lists what is true once an advance has handed something out: a dispatched
candidate keeps its stage from being completed, so no further stage is
declared, and an emitted evaluation keeps the plan from being extended. An
advance that stops has therefore handed out nothing
(`AdvanceStop.untouched`).

Candidates are bounded. Validation counts the members of the declared
stages; the members of the fallback stage and the speculative members of an
implicit stage come on top, and an advance that has no room for them stops.
-/

namespace EnsembleFabric

open List (Forall₂)
open EventSystem AdvanceState

/-! ## Actions and the work they hand out -/

/-- Some action dispatches the candidate as it stands. -/
def Dispatches (actions : List FabricAction) (c : CandidateRecord) : Prop :=
  ∃ d, .dispatch d ∈ actions ∧ d.candidate = c.id ∧ d.candidateGeneration = c.generation
    ∧ d.participant = c.participant

/-- Some action asks for the planned evaluation. -/
def Requests (actions : List FabricAction) (p : PendingEvaluation) : Prop :=
  ∃ a, .evaluate a ∈ actions ∧ a.evaluation = p.id ∧ a.evaluationGeneration = p.generation
    ∧ a.judge = p.evaluator

/-- The slot was handed out before. -/
structure DispatchedBefore (x : ExecutionRecord) (c' c : CandidateRecord) : Prop where
  mem : c ∈ x.candidates
  id : c.id = c'.id
  generation : c.generation = c'.generation
  participant : c.participant = c'.participant
  state : c.state = .dispatched

structure EmittedBefore (x : ExecutionRecord) (p' p : PendingEvaluation) : Prop where
  mem : p ∈ x.pending
  id : p.id = p'.id
  generation : p.generation = p'.generation
  evaluator : p.evaluator = p'.evaluator
  emitted : p.emitted = true

/-- What is handed out in the later record was handed out in the earlier one,
or there is an action for it. -/
structure Returned (actions : List FabricAction) (x x' : ExecutionRecord) : Prop where
  dispatched : ∀ c' ∈ x'.candidates, c'.state = .dispatched →
    (∃ c, DispatchedBefore x c' c) ∨ Dispatches actions c'
  emitted : ∀ p' ∈ x'.pending, p'.emitted = true →
    (∃ p, EmittedBefore x p' p) ∨ Requests actions p'

/-- Nothing is handed out. -/
structure HandsNothing (x x' : ExecutionRecord) : Prop where
  dispatched : ∀ c' ∈ x'.candidates, c'.state = .dispatched → ∃ c, DispatchedBefore x c' c
  emitted : ∀ p' ∈ x'.pending, p'.emitted = true → ∃ p, EmittedBefore x p' p

theorem HandsNothing.returned {x x' : ExecutionRecord} (h : HandsNothing x x')
    (actions : List FabricAction) : Returned actions x x' :=
  ⟨fun c hc hstate => .inl (h.dispatched c hc hstate),
    fun p hp hemitted => .inl (h.emitted p hp hemitted)⟩

theorem HandsNothing.refl (x : ExecutionRecord) : HandsNothing x x :=
  ⟨fun c hc hstate => ⟨c, hc, rfl, rfl, rfl, hstate⟩,
    fun p hp hemitted => ⟨p, hp, rfl, rfl, rfl, hemitted⟩⟩

theorem Dispatches.mono {actions actions' : List FabricAction} {c c' : CandidateRecord}
    (h : Dispatches actions c) (hsub : actions ⊆ actions') (hid : c.id = c'.id)
    (hgeneration : c.generation = c'.generation) (hparticipant : c.participant = c'.participant) :
    Dispatches actions' c' := by
  obtain ⟨d, hd, h₁, h₂, h₃⟩ := h
  exact ⟨d, hsub hd, h₁.trans hid, h₂.trans hgeneration, h₃.trans hparticipant⟩

theorem Requests.mono {actions actions' : List FabricAction} {p p' : PendingEvaluation}
    (h : Requests actions p) (hsub : actions ⊆ actions') (hid : p.id = p'.id)
    (hgeneration : p.generation = p'.generation) (hevaluator : p.evaluator = p'.evaluator) :
    Requests actions' p' := by
  obtain ⟨a, ha, h₁, h₂, h₃⟩ := h
  exact ⟨a, hsub ha, h₁.trans hid, h₂.trans hgeneration, h₃.trans hevaluator⟩

theorem Returned.then {actions actions' : List FabricAction} {x y z : ExecutionRecord}
    (h : Returned actions x y) (hsub : actions ⊆ actions') (h' : HandsNothing y z) :
    Returned actions' x z := by
  constructor
  · intro c hc hstate
    obtain ⟨b, hb⟩ := h'.dispatched c hc hstate
    rcases h.dispatched b hb.mem hb.state with ⟨a, ha⟩ | hdispatches
    · exact .inl ⟨a, ha.mem, ha.id.trans hb.id, ha.generation.trans hb.generation,
        ha.participant.trans hb.participant, ha.state⟩
    · exact .inr (hdispatches.mono hsub hb.id hb.generation hb.participant)
  · intro p hp hemitted
    obtain ⟨q, hq⟩ := h'.emitted p hp hemitted
    rcases h.emitted q hq.mem hq.emitted with ⟨r, hr⟩ | hrequests
    · exact .inl ⟨r, hr.mem, hr.id.trans hq.id, hr.generation.trans hq.generation,
        hr.evaluator.trans hq.evaluator, hr.emitted⟩
    · exact .inr (hrequests.mono hsub hq.id hq.generation hq.evaluator)

theorem HandsNothing.trans {x y z : ExecutionRecord} (h : HandsNothing x y)
    (h' : HandsNothing y z) : HandsNothing x z := by
  have hreturned := (h.returned []).then (fun _ ha => ha) h'
  refine ⟨fun c hc hstate => ?_, fun p hp hemitted => ?_⟩
  · refine (hreturned.dispatched c hc hstate).resolve_right ?_
    rintro ⟨_, hmem, -⟩
    cases hmem
  · refine (hreturned.emitted p hp hemitted).resolve_right ?_
    rintro ⟨_, hmem, -⟩
    cases hmem

/-- Slots that are dispatched in the end were dispatched before. -/
theorem HandsNothing.of_slots {x x' : ExecutionRecord}
    (hcandidates : Forall₂ (fun c c' : CandidateRecord => c'.state = .dispatched →
      c'.id = c.id ∧ c'.generation = c.generation ∧ c'.participant = c.participant
        ∧ c.state = .dispatched) x.candidates x'.candidates)
    (hpending : x'.pending ⊆ x.pending) : HandsNothing x x' := by
  refine ⟨fun c' hc' hstate => ?_, fun p hp hemitted => ⟨p, hpending hp, rfl, rfl, rfl, hemitted⟩⟩
  obtain ⟨c, hc, hsame⟩ := Slots.exists_left hcandidates hc'
  obtain ⟨hid, hgeneration, hparticipant, hstate'⟩ := hsame hstate
  exact ⟨c, hc, hid.symm, hgeneration.symm, hparticipant.symm, hstate'⟩

/-- A slot written under another state than dispatched. -/
theorem HandsNothing.set {x : ExecutionRecord} {index : Nat} {c c' : CandidateRecord}
    (hc : x.candidates[index]? = some c) (hstate : c'.state ≠ .dispatched) :
    HandsNothing x { x with candidates := x.candidates.set index c' } :=
  .of_slots (Slots.forall₂_set (fun _ h => ⟨rfl, rfl, rfl, h⟩) hc fun h => absurd h hstate)
    fun _ hp => hp

/-- New candidates and new plans are not handed out. -/
theorem HandsNothing.append {x x' : ExecutionRecord} {cs : List CandidateRecord}
    {ps : List PendingEvaluation} (hcandidates : x'.candidates = x.candidates ++ cs)
    (hpending : x'.pending = x.pending ++ ps) (hcs : ∀ c ∈ cs, c.state ≠ .dispatched)
    (hps : ∀ p ∈ ps, p.emitted = false) : HandsNothing x x' := by
  constructor
  · intro c hc hstate
    rw [hcandidates] at hc
    rcases List.mem_append.mp hc with hold | hnew
    · exact ⟨c, hold, rfl, rfl, rfl, hstate⟩
    · exact absurd hstate (hcs c hnew)
  · intro p hp hemitted
    rw [hpending] at hp
    rcases List.mem_append.mp hp with hold | hnew
    · exact ⟨p, hold, rfl, rfl, rfl, hemitted⟩
    · rw [hps p hnew] at hemitted
      cases hemitted

/-! ## The parts that hand out nothing -/

namespace AdvanceState

/-- Declaring members appends declared candidates. -/
theorem declareMembers_appends (limits : Limits) (stage : StageSpec) (ids : List ParticipantId)
    (s : AdvanceState) :
    HandsNothing s.execution
        (Threaded.final (ids.foldlM (declareMember limits stage) s)).execution
      ∧ (Threaded.final (ids.foldlM (declareMember limits stage) s)).actions = s.actions := by
  refine Threaded.final_foldlM
    (R := fun a b : AdvanceState =>
      HandsNothing a.execution b.execution ∧ b.actions = a.actions)
    (fun a => ⟨.refl _, rfl⟩) (fun h h' => ⟨h.1.trans h'.1, h'.2.trans h.2⟩)
    (fun m id _ => ?_) s
  unfold declareMember
  split
  · exact ⟨.refl _, rfl⟩
  · split
    · exact ⟨.refl _, rfl⟩
    · split
      · exact ⟨.refl _, rfl⟩
      · split
        · exact ⟨.refl _, rfl⟩
        · refine ⟨.append rfl (List.append_nil _).symm (fun c hc => ?_) (fun _ hp => by cases hp),
            rfl⟩
          obtain rfl := List.mem_singleton.mp hc
          simp [declaredCandidate]

theorem adopt_handsNothing {stage : StageSpec} {s : AdvanceState} {index : Nat}
    {c : CandidateRecord} {p : ParticipantRecord} (h : DispatchTarget stage s index c p) :
    HandsNothing s.execution (s.adopt index c p).execution :=
  .set h.at_ (by simp [adoptedCandidate, h.state])

theorem strand_handsNothing {stage : StageSpec} {s : AdvanceState} {index : Nat}
    {c : CandidateRecord} {p : ParticipantRecord} (h : DispatchTarget stage s index c p) :
    HandsNothing s.execution
      ((s.adopt index c p).strand index (adoptedCandidate c p) p).execution := by
  refine .of_slots ?_ List.filter_sublist.subset
  have hslots : Forall₂ (fun c c' : CandidateRecord => c'.state = .dispatched →
      c'.id = c.id ∧ c'.generation = c.generation ∧ c'.participant = c.participant
        ∧ c.state = .dispatched) s.execution.candidates
      (s.execution.candidates.set index (failedCandidate (adoptedCandidate c p)
        .participantUnavailable (strandedDetail p))) :=
    Slots.forall₂_set (fun _ h => ⟨rfl, rfl, rfl, h⟩) h.at_
      fun hstate => by simp [failedCandidate] at hstate
  simpa [strand, adopt, setCandidate, failCandidate, supersedeCandidateEvidence] using hslots

theorem report_handsNothing (s : AdvanceState) :
    HandsNothing s.execution s.report.execution := by
  refine .of_slots (Slots.forall₂_map fun c _ => ?_) fun _ hp => hp
  rw [markElimination_eq _ c]
  exact fun h => ⟨rfl, rfl, rfl, h⟩

theorem planEvaluations_handsNothing {s : AdvanceState}
    (h : s.execution.planningComplete = false) :
    HandsNothing s.execution (Threaded.final (planEvaluations s)).execution
      ∧ (Threaded.final (planEvaluations s)).actions = s.actions := by
  obtain ⟨done, added, hplans, -⟩ := planEvaluations_plans h
  refine ⟨@HandsNothing.append _ _ [] _ ?_ (by rw [hplans.execution]) (fun _ hc => by cases hc)
    fun p hp => (hplans.fresh p hp).1, hplans.actions⟩
  rw [hplans.execution, List.append_nil]

theorem reopenPlanning_handsNothing (s : AdvanceState) :
    HandsNothing s.execution s.reopenPlanning.execution
      ∧ s.reopenPlanning.actions = s.actions := by
  unfold reopenPlanning
  split
  · exact ⟨⟨(HandsNothing.refl s.execution).dispatched, (HandsNothing.refl s.execution).emitted⟩,
      rfl⟩
  · exact ⟨.refl _, rfl⟩

theorem activateFallback_handsNothing {s : AdvanceState} {trigger : FallbackTrigger}
    (h : fallbackDecision s.ensemble s.execution = some trigger) :
    HandsNothing s.execution s.activateFallback.execution
      ∧ s.actions ⊆ s.activateFallback.actions := by
  have hactions : ∀ (ids : List ParticipantId) (m : AdvanceState),
      m.actions ⊆ (ids.foldl (activateMember trigger) m).actions := by
    intro ids
    induction ids with
    | nil => exact fun m _ ha => ha
    | cons id rest ih =>
      exact fun m _ ha => ih (activateMember trigger m id) (List.mem_append_left _ ha)
  constructor
  · rw [(activateFallback_eq h).1]
    exact ⟨(HandsNothing.refl s.execution).dispatched, (HandsNothing.refl s.execution).emitted⟩
  · rw [activateFallback, h]
    exact hactions _ s.requestFallback

theorem abandonPending_handsNothing {s : AdvanceState} {index : Nat} {p : PendingEvaluation}
    (h : Unsent s index p) :
    HandsNothing s.execution (s.abandonPending index p).execution := by
  refine ⟨(HandsNothing.refl s.execution).dispatched, fun p' hp' hemitted => ?_⟩
  have hslots : Forall₂ (fun q q' : PendingEvaluation => q'.emitted = true → q' = q)
      s.execution.pending (s.execution.pending.set index { p with abandoned := true }) :=
    Slots.forall₂_set (fun _ _ => rfl) h.at_ fun hout => by simp [h.emitted] at hout
  obtain ⟨q, hq, hsame⟩ := Slots.exists_left hslots hp'
  obtain rfl := hsame hemitted
  exact ⟨p', hq, rfl, rfl, rfl, hemitted⟩

/-! ## Every step returns what it hands out -/

theorem dispatchCandidate_returned {x : ExecutionRecord} {s : AdvanceState} {index : Nat}
    {c : CandidateRecord} (p : ParticipantRecord) (h : Returned s.actions x s.execution) :
    Returned (s.dispatchCandidate index c p).actions x
      (s.dispatchCandidate index c p).execution := by
  constructor
  · intro c' hc' hstate
    rcases List.mem_or_eq_of_mem_set hc' with hold | rfl
    · exact (h.dispatched c' hold hstate).imp id
        fun hdispatches => hdispatches.mono (List.subset_append_left _ _) rfl rfl rfl
    · exact .inr ⟨_, List.mem_append_right _ (List.mem_singleton_self _), rfl, rfl, rfl⟩
  · intro p' hp' hemitted
    exact (h.emitted p' hp' hemitted).imp id
      fun hrequests => hrequests.mono (List.subset_append_left _ _) rfl rfl rfl

theorem emitPending_returned {x : ExecutionRecord} {s : AdvanceState} {index : Nat}
    {p : PendingEvaluation} (evaluator : ParticipantRecord) (c : CandidateRecord)
    (h : Returned s.actions x s.execution) :
    Returned (s.emitPending index p evaluator c).actions x
      (s.emitPending index p evaluator c).execution := by
  constructor
  · intro c' hc' hstate
    exact (h.dispatched c' hc' hstate).imp id
      fun hdispatches => hdispatches.mono (List.subset_append_left _ _) rfl rfl rfl
  · intro p' hp' hemitted
    rcases List.mem_or_eq_of_mem_set hp' with hold | rfl
    · exact (h.emitted p' hold hemitted).imp id
        fun hrequests => hrequests.mono (List.subset_append_left _ _) rfl rfl rfl
    · exact .inr ⟨_, List.mem_append_right _ (List.mem_singleton_self _), rfl, rfl, rfl⟩

/-- What one step hands out: nothing, the candidate it dispatches, or the
evaluation it emits. -/
inductive Hands (s s' : AdvanceState) : Prop
  | nothing (same : HandsNothing s.execution s'.execution) (actions : s.actions ⊆ s'.actions)
  | candidate {stage index c p} (current : s.currentStage = some stage)
      (declared : s.execution.declaredCurrentStage = true)
      (target : DispatchTarget stage s index c p)
      (result : s' = (s.adopt index c p).dispatchCandidate index (adoptedCandidate c p) p)
  | evaluation {index p evaluator c} (consumed : s.Consumed) (ready : s'.PlanReady)
      (unsent : Unsent s index p) (result : s' = s.emitPending index p evaluator c)

theorem AdvanceStep.hands {limits : Limits} {s s' : AdvanceState} (h : AdvanceStep limits s s') :
    Hands s s' := by
  cases h with
  | round => exact .nothing (.refl _) fun _ ha => ha
  | declared current undeclared result =>
    obtain ⟨m, hm, rfl⟩ := declareStage_eq_ok undeclared result
    obtain ⟨hnothing, hactions⟩ := declareMembers_appends limits _ _ s
    rw [hm] at hnothing hactions
    exact .nothing ⟨hnothing.dispatched, hnothing.emitted⟩
      (by rw [← hactions]; exact fun _ ha => ha)
  | adopted _ _ target => exact .nothing (adopt_handsNothing target) fun _ ha => ha
  | stranded _ _ target => exact .nothing (strand_handsNothing target) fun _ ha => ha
  | dispatched current declared target => exact .candidate current declared target rfl
  | completed =>
    exact .nothing ⟨(HandsNothing.refl s.execution).dispatched,
      (HandsNothing.refl s.execution).emitted⟩ fun _ ha => ha
  | reopened =>
    obtain ⟨hnothing, hactions⟩ := reopenPlanning_handsNothing s
    exact .nothing hnothing (by rw [hactions]; exact fun _ ha => ha)
  | planned _ incomplete result =>
    obtain ⟨hnothing, hactions⟩ := planEvaluations_handsNothing incomplete
    rw [result] at hnothing hactions
    exact .nothing hnothing (by rw [← hactions]; exact fun _ ha => ha)
  | emitted index consumed ready =>
    have hcases := emitOne_cases s index
    have hready := ready.emitOne index
    generalize s.emitOne index = s' at hcases hready
    cases hcases with
    | skipped | kept => exact .nothing (.refl _) fun _ ha => ha
    | abandoned unsent =>
      exact .nothing (abandonPending_handsNothing unsent) fun _ ha => ha
    | emitted unsent => exact .evaluation consumed hready unsent rfl
  | reported => exact .nothing (report_handsNothing s) fun _ ha => ha
  | activated _ decision =>
    obtain ⟨hnothing, hactions⟩ := activateFallback_handsNothing decision
    exact .nothing hnothing hactions

theorem AdvanceStep.returned {limits : Limits} {x : ExecutionRecord} {s s' : AdvanceState}
    (h : AdvanceStep limits s s') (hs : Returned s.actions x s.execution) :
    Returned s'.actions x s'.execution := by
  cases h.hands with
  | nothing same actions => exact hs.then actions same
  | candidate _ _ target result =>
    subst result
    have hadopted := hs.then (List.Subset.refl _) (adopt_handsNothing target)
    exact dispatchCandidate_returned (s := s.adopt _ _ _) _ hadopted
  | evaluation _ _ _ result =>
    subst result
    exact emitPending_returned _ _ hs

/-! ## An advance that stops has handed out nothing -/

/-- What keeps an advance from stopping once it handed something out: a
dispatched candidate holds the current stage, an emitted evaluation holds
the fallback, and the plan it belongs to is complete. -/
inductive Holding (x : ExecutionRecord) (s : AdvanceState) : Prop
  | untouched (returned : Returned [] x s.execution)
  | candidate {c} (declared : s.execution.declaredCurrentStage = true)
      (mem : c ∈ s.execution.candidates) (state : c.state = .dispatched)
  | evaluation {p : PendingEvaluation} (consumed : s.Consumed) (mem : p ∈ s.execution.pending)
      (emitted : p.emitted = true) (answered : p.answered = false)
      (abandoned : p.abandoned = false)
      (planned : planTargets s.ensemble.spec s.execution.candidates = [] ∨ s.PlanReady)

/-- An emitted evaluation stays outstanding for the rest of the advance. -/
theorem AdvanceStep.keeps_emitted {limits : Limits} {x : ExecutionRecord} {s s' : AdvanceState}
    (h : AdvanceStep limits s s') {p : PendingEvaluation} (hconsumed : s.Consumed)
    (hp : p ∈ s.execution.pending) (hemitted : p.emitted = true) (hanswered : p.answered = false)
    (habandoned : p.abandoned = false)
    (hplanned : planTargets s.ensemble.spec s.execution.candidates = [] ∨ s.PlanReady) :
    Holding x s' := by
  have hstage := hconsumed.no_stage
  have hnone : ∀ {stage}, s.currentStage = some stage → False := fun hcurrent => by
    rw [hstage] at hcurrent
    cases hcurrent
  cases h with
  | round =>
    exact .evaluation hconsumed hp hemitted hanswered habandoned
      (hplanned.imp id fun hready => ⟨hready.complete, hready.covered⟩)
  | declared current | adopted current | stranded current | dispatched current
  | completed current => exact (hnone current).elim
  | reopened =>
    have hreopen : s.reopenPlanning = s
        ∨ planTargets s.ensemble.spec s.execution.candidates = [] :=
      hplanned.elim .inr fun hready => hready.reopen
    rcases hreopen with hsame | htargets
    · rw [hsame]
      exact .evaluation hconsumed hp hemitted hanswered habandoned hplanned
    · have hexecution : s.reopenPlanning.ensemble = s.ensemble
          ∧ s.reopenPlanning.execution.pending = s.execution.pending
          ∧ s.reopenPlanning.execution.candidates = s.execution.candidates := by
        unfold reopenPlanning
        split <;> exact ⟨rfl, rfl, rfl⟩
      obtain ⟨hensemble, hpending, hcandidates⟩ := hexecution
      exact .evaluation ((reopenPlanning_same s).consumed hconsumed) (by rwa [hpending]) hemitted
        hanswered habandoned (.inl (by rw [hensemble, hcandidates]; exact htargets))
  | planned _ incomplete result =>
    have htargets : planTargets s.ensemble.spec s.execution.candidates = [] := by
      refine hplanned.resolve_right fun hready => ?_
      rw [hready.complete] at incomplete
      cases incomplete
    have hsame := planEvaluations_same s
    rw [result] at hsame
    obtain ⟨done, added, hplans, -⟩ := planEvaluations_plans incomplete
    rw [result, Threaded.final_ok] at hplans
    refine .evaluation (hsame.consumed hconsumed) ?_ hemitted hanswered habandoned (.inl ?_)
    · rw [hplans.execution]
      exact List.mem_append_left _ hp
    · rw [hplans.ensemble, hplans.execution]
      exact htargets
  | emitted index _ ready =>
    have hout : ∃ p' ∈ (s.emitOne index).execution.pending,
        p'.emitted = true ∧ p'.answered = false ∧ p'.abandoned = false := by
      have hcases := emitOne_cases s index
      generalize s.emitOne index = s' at hcases
      have hset : ∀ {q q' : PendingEvaluation}, Unsent s index q →
          ∃ p' ∈ s.execution.pending.set index q',
            p'.emitted = true ∧ p'.answered = false ∧ p'.abandoned = false := by
        intro q q' hunsent
        have hslots : Forall₂ (fun a b : PendingEvaluation => a.emitted = true → b = a)
            s.execution.pending (s.execution.pending.set index q') :=
          Slots.forall₂_set (fun _ _ => rfl) hunsent.at_
            fun hq => by simp [hunsent.emitted] at hq
        obtain ⟨p', hp', hsame⟩ := Slots.exists_right hslots hp
        obtain rfl := hsame hemitted
        exact ⟨_, hp', hemitted, hanswered, habandoned⟩
      cases hcases with
      | skipped | kept => exact ⟨p, hp, hemitted, hanswered, habandoned⟩
      | abandoned unsent => exact hset unsent
      | emitted unsent => exact hset unsent
    obtain ⟨p', hp', hemitted', hanswered', habandoned'⟩ := hout
    exact .evaluation ((emitOne_same s index).consumed hconsumed) hp' hemitted' hanswered'
      habandoned' (.inr (ready.emitOne index))
  | reported =>
    refine .evaluation hconsumed hp hemitted hanswered habandoned ?_
    refine hplanned.imp (fun htargets => ?_) PlanReady.report
    exact (planTargets_mark s.ensemble.spec _ s.execution.candidates).trans htargets
  | activated _ decision =>
    obtain ⟨-, -, -, hwaiting, -⟩ := fallbackDecision_eq_some decision
    simp only [waiting, Bool.or_eq_false_iff, List.any_eq_false] at hwaiting
    exact absurd (by simp [hemitted, hanswered, habandoned]) (hwaiting.1 p hp)

theorem AdvanceStep.holding {limits : Limits} {x : ExecutionRecord} {s s' : AdvanceState}
    (h : AdvanceStep limits s s') (hs : Staged s) (hholding : Holding x s) : Holding x s' := by
  cases hholding with
  | candidate declared mem state =>
    obtain ⟨hdeclared, c', hc', hstate⟩ := h.keeps_dispatched hs declared mem state
    exact .candidate hdeclared hc' hstate
  | evaluation consumed mem emitted answered abandoned planned =>
    exact h.keeps_emitted consumed mem emitted answered abandoned planned
  | untouched returned =>
    cases h.hands with
    | nothing same => exact .untouched (returned.then (List.Subset.refl _) same)
    | @candidate _ index c p _ declared target result =>
      subst result
      refine .candidate declared (c := dispatchedCandidate s.core p s.core.nextSequence.1
        (adoptedCandidate c p)) ?_ rfl
      have hget := setCandidate_get (setCandidate_get target.at_ (adoptedCandidate c p))
        (dispatchedCandidate s.core p s.core.nextSequence.1 (adoptedCandidate c p))
      exact List.mem_of_getElem? hget
    | @evaluation index p _ _ consumed ready unsent result =>
      subst result
      obtain ⟨hlt, -⟩ := List.getElem?_eq_some_iff.mp unsent.at_
      exact .evaluation (p := { p with emitted := true }) consumed (List.mem_set hlt _) rfl
        unsent.answered unsent.abandoned (.inr ready)

/-- An advance that stops has handed out nothing. -/
theorem AdvanceStop.untouched {limits : Limits} {x : ExecutionRecord} {s s' : AdvanceState}
    {error : Error} (h : AdvanceStop limits s (error, s')) (hs : Staged s)
    (hholding : Holding x s) : Returned [] x s'.execution := by
  cases hholding with
  | untouched returned =>
    cases h with
    | undeclared _ undeclared result =>
      obtain ⟨hnothing, -⟩ := declareMembers_appends limits _ _ s
      rw [declareStage_eq_error undeclared result] at hnothing
      exact returned.then (List.Subset.refl _) hnothing
    | unplanned _ incomplete result =>
      obtain ⟨hnothing, -⟩ := planEvaluations_handsNothing incomplete
      rw [result] at hnothing
      exact returned.then (List.Subset.refl _) hnothing
  | candidate declared mem state =>
    cases h with
    | undeclared _ undeclared =>
      rw [declared] at undeclared
      cases undeclared
    | unplanned consumed =>
      exact absurd consumed (hs.not_consumed mem (inFlight_of_dispatched state))
  | evaluation consumed _ _ _ _ planned =>
    cases h with
    | undeclared current =>
      rw [consumed.no_stage] at current
      cases current
    | unplanned _ incomplete result =>
      rcases planned with htargets | hready
      · rw [planEvaluations_eq incomplete, htargets] at result
        cases result
      · rw [hready.complete] at incomplete
        cases incomplete

end AdvanceState

end EnsembleFabric
