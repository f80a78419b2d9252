import EnsembleFabric.Handout

/-!
# The candidate bound

An execution declares every member of a stage at most once, so it never has
more candidates than its specification has members. Where all members fit
the bound, those of the fallback stage included, no advance stops at it.
Validation does not count the fallback members: a specification that leaves
no room for them is accepted, and once fallback is requested every advance
stops there.

The invariant of open executions is `Enrolled`: their candidates stand for
different members of the stages reached, and there are no more of them than
the bound allows. An advance keeps it at every step (`Enrolling`). Read one
way it is a counting argument: a member that is missing leaves room where
all members fit (`Enrolled.room`). Read the other way, a stage without room
for its members cannot be declared (`declareStage_full`), and an advance
that comes to it stops with `boundReached`.

`advance_keeps_work` joins the two. An advance of an open execution returns
what it hands out, whether or not the bound allows more, so a candidate in
flight always has an action that was returned.
-/

namespace EnsembleFabric

open List (Forall₂)
open EventSystem AdvanceState

/-! ## Members -/

/-- The candidates the stages ask for, by participant and stage. -/
def stageMembers (stages : List StageSpec) : List (ParticipantId × StageId) :=
  stages.flatMap fun stage => stage.participants.map fun id => (id, stage.id)

/-- All stages an execution of the specification can come to. -/
def memberStages (spec : EnsembleSpec) : List StageSpec :=
  spec.effectiveStages ++ if spec.fallback.enabled then [fallbackStage spec 0] else []

/-- The members of the stages fit the candidate bound. -/
def stagesFit (limits : Limits) (stages : List StageSpec) : Bool :=
  decide ((stageMembers stages).dedup.length ≤ limits.maxCandidatesPerExecution.toNat)

theorem checkedAdd_eq_some {lhs rhs limit total : Nat}
    (h : checkedAdd lhs rhs limit = some total) : total = lhs + rhs ∧ total ≤ limit := by
  unfold checkedAdd at h
  split at h
  · cases h
  · split at h
    · rename_i hle
      obtain rfl := Option.some.inj h
      exact ⟨rfl, hle⟩
    · cases h

/-- Declared stages within the bound have that many members at most. -/
theorem totalDeclared_isSome {limits : Limits} {stages : List StageSpec}
    (h : (totalDeclared limits stages).isSome = true) :
    (stageMembers stages).length ≤ limits.maxCandidatesPerExecution.toNat := by
  have hfold : ∀ (rest : List StageSpec) (total result : Nat),
      total ≤ limits.maxCandidatesPerExecution.toNat →
      rest.foldlM (fun total stage => checkedAdd total stage.participants.length
        limits.maxCandidatesPerExecution.toNat) total = some result →
      total + (stageMembers rest).length ≤ limits.maxCandidatesPerExecution.toNat := by
    intro rest
    induction rest with
    | nil => exact fun _ _ hle _ => hle
    | cons stage rest ih =>
      intro total result _ hrun
      rw [List.foldlM_cons] at hrun
      obtain ⟨next, hnext, hrest⟩ := Option.bind_eq_some_iff.mp hrun
      obtain ⟨rfl, hle⟩ := checkedAdd_eq_some hnext
      have hbound := ih _ _ hle hrest
      rw [stageMembers, List.flatMap_cons, List.length_append, List.length_map]
      rw [stageMembers] at hbound
      omega
  obtain ⟨result, hresult⟩ := Option.isSome_iff_exists.mp h
  have hbound := hfold stages 0 result (Nat.zero_le _) hresult
  rwa [Nat.zero_add] at hbound

/-- Without fallback, validation leaves room for all members. -/
theorem WellFormed.fits {limits : Limits} {spec : EnsembleSpec} (h : WellFormed limits spec)
    (hfallback : spec.fallback.enabled = false) (heager : spec.fallback.eagerSpeculative = false) :
    stagesFit limits (memberStages spec) = true := by
  have hlength : (stageMembers spec.effectiveStages).length
      ≤ limits.maxCandidatesPerExecution.toNat := by
    unfold EnsembleSpec.effectiveStages
    split
    · exact totalDeclared_isSome h.declared
    · rename_i hempty
      have himplied := h.implied (by simpa using hempty)
      simp only [heager, Bool.false_and, Bool.or_false]
      split
      · exact Nat.zero_le _
      · simpa [stageMembers] using himplied
  rw [stagesFit, memberStages, hfallback]
  simp only [Bool.false_eq_true, if_false, List.append_nil]
  exact decide_eq_true ((List.dedup_sublist _).length_le.trans hlength)

/-- The member a candidate was declared for. -/
def CandidateRecord.member (c : CandidateRecord) : ParticipantId × StageId :=
  (c.participant, c.stage)

theorem mem_stageMembers {stages : List StageSpec} {member : ParticipantId × StageId} :
    member ∈ stageMembers stages ↔
      ∃ stage ∈ stages, member.1 ∈ stage.participants ∧ member.2 = stage.id := by
  obtain ⟨id, stageId⟩ := member
  simp only [stageMembers, List.mem_flatMap, List.mem_map, Prod.mk.injEq]
  constructor
  · rintro ⟨stage, hstage, other, hother, rfl, rfl⟩
    exact ⟨stage, hstage, hother, rfl⟩
  · rintro ⟨stage, hstage, hid, rfl⟩
    exact ⟨stage, hstage, id, hid, rfl, rfl⟩

theorem stageMembers_subset {stages stages' : List StageSpec} (h : stages ⊆ stages') :
    stageMembers stages ⊆ stageMembers stages' := by
  intro member hmember
  obtain ⟨stage, hstage, hasks⟩ := mem_stageMembers.mp hmember
  exact mem_stageMembers.mpr ⟨stage, h hstage, hasks⟩

theorem FallbackUse.planStages_subset {e : EnsembleRecord} {x : ExecutionRecord}
    (h : FallbackUse e.spec x) : planStages e x ⊆ memberStages e.spec := by
  intro stage hstage
  rcases List.mem_append.mp hstage with hdeclared | hextra
  · exact List.mem_append_left _ hdeclared
  · cases h with
    | unused _ stages =>
      rw [stages] at hextra
      cases hextra
    | used enabled _ stages =>
      rw [stages] at hextra
      exact List.mem_append_right _ (by rw [if_pos enabled]; exact hextra)

/-- The members of all stages are participants. -/
theorem FallbackUse.members {limits : Limits} {e : EnsembleRecord} {x : ExecutionRecord}
    (h : FallbackUse e.spec x) (hwell : WellFormed limits e.spec) :
    ∀ stage ∈ planStages e x, ∀ id ∈ stage.participants,
      (e.spec.findParticipant id).isSome = true := by
  intro stage hstage
  rcases List.mem_append.mp (h.planStages_subset hstage) with hdeclared | hextra
  · exact hwell.effectiveMembers stage hdeclared
  · split at hextra
    · rename_i henabled
      obtain rfl := List.mem_singleton.mp hextra
      exact hwell.fallbackMembers henabled
    · cases hextra

/-! ## Every member is declared once -/

/-- The candidates are different members of the stages, within the bound. -/
structure Enrolled (limits : Limits) (stages : List StageSpec) (x : ExecutionRecord) : Prop where
  distinct : (x.candidates.map (·.member)).Nodup
  asked : ∀ c ∈ x.candidates, c.member ∈ stageMembers stages
  bounded : x.candidates.length ≤ limits.maxCandidatesPerExecution.toNat

namespace Enrolled

variable {limits : Limits} {stages stages' : List StageSpec} {x x' : ExecutionRecord}

theorem settles (h : Enrolled limits stages x)
    (hcandidates : Forall₂ Settles x.candidates x'.candidates) : Enrolled limits stages x' := by
  have hmembers : x'.candidates.map (·.member) = x.candidates.map (·.member) :=
    Slots.map_key (fun hsettles =>
      by rw [CandidateRecord.member, CandidateRecord.member, hsettles.participant, hsettles.stage])
      hcandidates
  refine ⟨by rw [hmembers]; exact h.distinct, fun c' hc' => ?_, ?_⟩
  · obtain ⟨c, hc, hsame⟩ := List.mem_map.mp (hmembers ▸ List.mem_map_of_mem hc')
    exact hsame ▸ h.asked c hc
  · rw [← hcandidates.length_eq]
    exact h.bounded

theorem declares (h : Enrolled limits stages x) {stage : StageSpec} {c : CandidateRecord}
    (hstage : stage ∈ stages) (hasks : stage.Asks c)
    (hmissing : ∀ d ∈ x.candidates, d.member ≠ c.member)
    (hroom : x.candidates.length < limits.maxCandidatesPerExecution.toNat) :
    Enrolled limits stages { x with candidates := x.candidates ++ [c] } := by
  refine ⟨?_, fun d hd => ?_, by rw [List.length_append]; exact hroom⟩
  · rw [List.map_append, List.nodup_append]
    refine ⟨h.distinct, List.nodup_singleton _, fun old hold new hnew => ?_⟩
    obtain ⟨d, hd, rfl⟩ := List.mem_map.mp hold
    obtain rfl := List.mem_singleton.mp hnew
    exact hmissing d hd
  · rcases List.mem_append.mp hd with hold | hnew
    · exact h.asked d hold
    · obtain rfl := List.mem_singleton.mp hnew
      exact mem_stageMembers.mpr ⟨stage, hstage, hasks.member, hasks.named⟩

/-- Where a member is missing, there are fewer candidates than members. -/
theorem lacks (h : Enrolled limits stages x) {spec : EnsembleSpec}
    (hstages : stages ⊆ memberStages spec) {member : ParticipantId × StageId}
    (hmember : member ∈ stageMembers stages) (hmissing : ∀ c ∈ x.candidates, c.member ≠ member) :
    x.candidates.length < (stageMembers (memberStages spec)).dedup.length := by
  have hdistinct : (member :: x.candidates.map (·.member)).Nodup := by
    refine List.nodup_cons.mpr ⟨fun hmem => ?_, h.distinct⟩
    obtain ⟨c, hc, heq⟩ := List.mem_map.mp hmem
    exact hmissing c hc heq
  have hsub : member :: x.candidates.map (·.member) ⊆ (stageMembers (memberStages spec)).dedup := by
    refine List.cons_subset.mpr
      ⟨List.mem_dedup.mpr (stageMembers_subset hstages hmember), fun key hkey => ?_⟩
    obtain ⟨c, hc, rfl⟩ := List.mem_map.mp hkey
    exact List.mem_dedup.mpr (stageMembers_subset hstages (h.asked c hc))
  have hlength := (List.subperm_of_subset hdistinct hsub).length_le
  rwa [List.length_cons, List.length_map] at hlength

/-- A member that is missing leaves room, where all members fit. -/
theorem room (h : Enrolled limits stages x) {spec : EnsembleSpec}
    (hstages : stages ⊆ memberStages spec) (hfit : stagesFit limits (memberStages spec) = true)
    {member : ParticipantId × StageId} (hmember : member ∈ stageMembers stages)
    (hmissing : ∀ c ∈ x.candidates, c.member ≠ member) :
    x.candidates.length < limits.maxCandidatesPerExecution.toNat :=
  Nat.lt_of_lt_of_le (h.lacks hstages hmember hmissing) (of_decide_eq_true hfit)

/-- Members that all have candidates are as many as these at most. -/
theorem covers {reached : List StageSpec}
    (hall : ∀ member ∈ stageMembers reached, ∃ c ∈ x.candidates, c.member = member) :
    (stageMembers reached).dedup.length ≤ x.candidates.length := by
  have hsub : (stageMembers reached).dedup ⊆ x.candidates.map (·.member) := by
    intro member hmember
    obtain ⟨c, hc, rfl⟩ := hall member (List.mem_dedup.mp hmember)
    exact List.mem_map_of_mem hc
  have hlength := (List.subperm_of_subset (List.nodup_dedup _) hsub).length_le
  rwa [List.length_map] at hlength

/-- Members that all have candidates fit the bound. -/
theorem fits (h : Enrolled limits stages x) {reached : List StageSpec}
    (hall : ∀ member ∈ stageMembers reached, ∃ c ∈ x.candidates, c.member = member) :
    stagesFit limits reached = true :=
  decide_eq_true ((covers hall).trans h.bounded)

end Enrolled

/-! ## One step of an advance -/

namespace AdvanceState

/-- The stage is current and its candidates enrolled. -/
structure Enrolling (limits : Limits) (stage : StageSpec) (s : AdvanceState) : Prop where
  current : s.currentStage = some stage
  enrolled : Enrolled limits s.stages s.execution

theorem Enrolling.mem {limits : Limits} {stage : StageSpec} {s : AdvanceState}
    (h : Enrolling limits stage s) : stage ∈ s.stages :=
  List.mem_of_getElem? h.current

theorem declareMember_enrolls {limits : Limits} {stage : StageSpec} {s : AdvanceState}
    {id : ParticipantId} (h : Enrolling limits stage s) (hmember : id ∈ stage.participants) :
    Enrolling limits stage (Threaded.final (declareMember limits stage s id)) := by
  unfold declareMember
  split
  · exact h
  · split
    · exact h
    · rename_i hmissing
      split
      · exact h
      · rename_i hroom
        split
        · exact h
        · refine ⟨h.current, h.enrolled.declares h.mem ⟨rfl, hmember⟩ (fun d hd heq => ?_)
            (Nat.not_le.mp hroom)⟩
          obtain ⟨hparticipant, hstage⟩ := Prod.mk.injEq .. |>.mp heq
          exact hmissing (List.any_eq_true.mpr ⟨d, hd, by
            simp only [Bool.and_eq_true, beq_iff_eq]
            exact ⟨hparticipant, hstage⟩⟩)

theorem declareMembers_enrolls {limits : Limits} {stage : StageSpec} {s : AdvanceState}
    (h : Enrolling limits stage s) :
    Enrolling limits stage
      (Threaded.final (stage.participants.foldlM (declareMember limits stage) s)) :=
  Threaded.final_foldlM (R := fun a b => Enrolling limits stage a → Enrolling limits stage b)
    (fun _ ha => ha) (fun hab hbc ha => hbc (hab ha))
    (fun _ _ hid hm => declareMember_enrolls hm hid) s h

theorem Undisturbed.enrolled {limits : Limits} {s s' : AdvanceState} (hsame : Undisturbed s s')
    (h : Enrolled limits s.stages s.execution) : Enrolled limits s'.stages s'.execution := by
  rw [AdvanceState.stages, hsame.spec, hsame.keeps.extraStages]
  exact h.settles hsame.keeps.candidates

theorem AdvanceStep.enrolled {limits : Limits} {s s' : AdvanceState} (h : AdvanceStep limits s s')
    (hs : Enrolled limits s.stages s.execution) : Enrolled limits s'.stages s'.execution := by
  cases h with
  | round => exact hs
  | declared current undeclared result =>
    obtain ⟨m, hm, rfl⟩ := declareStage_eq_ok undeclared result
    have hmembers := declareMembers_enrolls ⟨current, hs⟩
    rw [hm] at hmembers
    exact ⟨hmembers.enrolled.distinct, hmembers.enrolled.asked, hmembers.enrolled.bounded⟩
  | adopted _ _ target => exact (adopt_undisturbed target).enrolled hs
  | stranded _ _ target => exact (strand_undisturbed target).enrolled hs
  | @dispatched stage index c p _ _ target =>
    have hadopted := (adopt_undisturbed target).enrolled hs
    have hmembers : ((s.adopt index c p).dispatchCandidate index
        (adoptedCandidate c p) p).execution.candidates.map (·.member)
          = (s.adopt index c p).execution.candidates.map (·.member) :=
      Slots.map_key_set (setCandidate_get target.at_ _) rfl
    refine ⟨by rw [hmembers]; exact hadopted.distinct, fun d hd => ?_, ?_⟩
    · obtain ⟨b, hb, heq⟩ := List.mem_map.mp (hmembers ▸ List.mem_map_of_mem hd)
      exact heq ▸ hadopted.asked b hb
    · have hlength := congrArg List.length hmembers
      rw [List.length_map, List.length_map] at hlength
      exact hlength ▸ hadopted.bounded
  | completed => exact ⟨hs.distinct, hs.asked, hs.bounded⟩
  | reopened => exact (reopenPlanning_undisturbed s).enrolled hs
  | planned _ _ result =>
    have hplanned := planEvaluations_undisturbed s
    rw [result] at hplanned
    exact hplanned.enrolled hs
  | emitted index => exact (emitOne_undisturbed s index).enrolled hs
  | reported => exact (report_undisturbed s).enrolled hs
  | activated _ decision =>
    obtain ⟨hexecution, hspec, -⟩ := activateFallback_eq decision
    have hstages : s.stages ⊆ s.activateFallback.stages := by
      rw [AdvanceState.stages, AdvanceState.stages, hspec, hexecution]
      intro stage hstage
      rcases List.mem_append.mp hstage with hdeclared | hextra
      · exact List.mem_append_left _ hdeclared
      · exact List.mem_append_right _ (List.mem_append_left _ hextra)
    rw [hexecution]
    exact ⟨hs.distinct, fun c hc => stageMembers_subset hstages (hs.asked c hc), hs.bounded⟩

theorem AdvanceStop.enrolled {limits : Limits} {s s' : AdvanceState} {error : Error}
    (h : AdvanceStop limits s (error, s')) (hs : Enrolled limits s.stages s.execution) :
    Enrolled limits s'.stages s'.execution := by
  cases h with
  | undeclared current undeclared result =>
    have hmembers := declareMembers_enrolls ⟨current, hs⟩
    rw [declareStage_eq_error undeclared result] at hmembers
    exact hmembers.enrolled
  | unplanned _ _ result =>
    have hplanned := planEvaluations_undisturbed s
    rw [result] at hplanned
    exact hplanned.enrolled hs

/-! ## Stopping at the bound -/

/-- The error of an advance without room for a candidate. -/
def boundReached : Error :=
  ⟨.resourceLimitExceeded, "the candidate bound for this execution is reached"⟩

/-- The error of an advance without a candidate identity. -/
def identitiesExhausted : Error :=
  ⟨.resourceLimitExceeded, "candidate identity space is exhausted"⟩

theorem allocate_eq_none {domain : IdDomain} {a : IdAllocator domain} (h : a.allocate = none) :
    a.next = lastWord := by
  unfold IdAllocator.allocate at h
  split at h
  · assumption
  · cases h

theorem declareMember_eq_error {limits : Limits} {stage : StageSpec} {s s' : AdvanceState}
    {id : ParticipantId} {error : Error}
    (h : declareMember limits stage s id = .error (error, s')) :
    (∀ c ∈ s.execution.candidates, c.member ≠ (id, stage.id))
      ∧ (error = boundReached
            ∧ limits.maxCandidatesPerExecution.toNat ≤ s.execution.candidates.length
        ∨ error = identitiesExhausted ∧ s.core.candidateIds.next = lastWord) := by
  unfold declareMember at h
  split at h
  · cases h
  · split at h
    · cases h
    · rename_i hmissing
      have hnone : ∀ c ∈ s.execution.candidates, c.member ≠ (id, stage.id) := by
        intro c hc heq
        obtain ⟨hparticipant, hstage⟩ := Prod.mk.injEq .. |>.mp heq
        exact hmissing (List.any_eq_true.mpr ⟨c, hc, by
          simp only [Bool.and_eq_true, beq_iff_eq]
          exact ⟨hparticipant, hstage⟩⟩)
      split at h
      · rename_i hfull
        obtain ⟨rfl, -⟩ := Prod.mk.injEq .. |>.mp (Except.error.inj h)
        exact ⟨hnone, .inl ⟨rfl, hfull⟩⟩
      · split at h
        · rename_i hids
          obtain ⟨rfl, -⟩ := Prod.mk.injEq .. |>.mp (Except.error.inj h)
          exact ⟨hnone, .inr ⟨rfl, allocate_eq_none hids⟩⟩
        · cases h

/-- A stage that cannot be declared stops at one of its members. -/
theorem declareStage_stops {limits : Limits} {stage : StageSpec} {s s' : AdvanceState}
    {error : Error} (h : Enrolling limits stage s)
    (hundeclared : s.execution.declaredCurrentStage = false)
    (hstop : declareStage limits stage s = .error (error, s')) :
    ∃ m, ∃ id ∈ stage.participants, Enrolling limits stage m ∧ m.stages = s.stages
      ∧ declareMember limits stage m id = .error (error, s') := by
  obtain ⟨m, id, hid, ⟨hm, hstages⟩, herror⟩ := Threaded.foldlM_eq_error
    (P := fun m => Enrolling limits stage m ∧ m.stages = s.stages)
    (fun {m id m'} hid hm hresult => by
      have henrolls := declareMember_enrolls hm.1 hid
      have hsame := declareMember_same limits stage m id
      rw [hresult] at henrolls hsame
      refine ⟨henrolls, Eq.trans ?_ hm.2⟩
      rw [AdvanceState.stages, AdvanceState.stages,
        show m'.ensemble = m.ensemble from hsame.ensemble,
        show m'.execution = _ from hsame.execution]) ⟨h, rfl⟩
    (declareStage_eq_error hundeclared hstop)
  exact ⟨m, id, hid, hm, hstages, herror⟩

/-- Where all members fit, no advance stops at the bound. -/
theorem AdvanceStop.not_bound {limits : Limits} {s s' : AdvanceState} {error : Error}
    (h : AdvanceStop limits s (error, s')) (hs : Enrolled limits s.stages s.execution)
    (hstages : s.stages ⊆ memberStages s.ensemble.spec)
    (hfit : stagesFit limits (memberStages s.ensemble.spec) = true) : error ≠ boundReached := by
  rintro rfl
  cases h with
  | @undeclared stage current undeclared result =>
    obtain ⟨m, id, hid, hm, hsame, herror⟩ := declareStage_stops ⟨current, hs⟩ undeclared result
    obtain ⟨hmissing, ⟨-, hfull⟩ | hother⟩ := declareMember_eq_error herror
    · have hroom := hm.enrolled.room (hsame ▸ hstages) hfit
        (mem_stageMembers.mpr ⟨stage, hm.mem, hid, rfl⟩) hmissing
      exact absurd hfull (Nat.not_le.mpr hroom)
    · simp [boundReached, identitiesExhausted] at hother
  | unplanned _ incomplete result =>
    have herror : ∀ (targets : List PlanTarget) (m m' : AdvanceState),
        targets.foldlM planOne m = .error (boundReached, m') → False := by
      intro targets m m' hfold
      obtain ⟨m₁, t, -, -, hone⟩ := Threaded.foldlM_eq_error (P := fun _ => True)
        (fun _ _ _ => trivial) trivial hfold
      unfold planOne at hone
      split at hone
      · obtain ⟨hmessage, -⟩ := Prod.mk.injEq .. |>.mp (Except.error.inj hone)
        simp [boundReached] at hmessage
      · cases hone
    rw [planEvaluations_eq incomplete] at result
    cases hfold : (planTargets s.ensemble.spec s.execution.candidates).foldlM planOne
        { s with execution := { s.execution with planningComplete := true } } with
    | ok m =>
      rw [hfold] at result
      cases result
    | error stop =>
      rw [hfold] at result
      obtain rfl := Except.error.inj result
      exact herror _ _ _ hfold

/-- A member of a declared stage has its candidate. -/
theorem declareMember_covers {limits : Limits} {stage : StageSpec} {s s' : AdvanceState}
    {id : ParticipantId} (h : declareMember limits stage s id = .ok s') :
    s.execution.candidates ⊆ s'.execution.candidates
      ∧ ((s.ensemble.spec.findParticipant id).isSome = true →
        ∃ c ∈ s'.execution.candidates, c.member = (id, stage.id)) := by
  unfold declareMember at h
  split at h
  · rename_i hnone
    obtain rfl := Except.ok.inj h
    exact ⟨List.Subset.refl _, fun hfound => by rw [hnone] at hfound; cases hfound⟩
  · split at h
    · rename_i hexists
      obtain rfl := Except.ok.inj h
      obtain ⟨c, hc, hmember⟩ := List.any_eq_true.mp hexists
      simp only [Bool.and_eq_true, beq_iff_eq] at hmember
      exact ⟨List.Subset.refl _,
        fun _ => ⟨c, hc, by rw [CandidateRecord.member, hmember.1, hmember.2]⟩⟩
    · split at h
      · cases h
      · split at h
        · cases h
        · obtain rfl := Except.ok.inj h
          exact ⟨List.subset_append_left _ _, fun _ => ⟨_,
            List.mem_append_right _ (List.mem_singleton_self _), rfl⟩⟩

theorem declareMembers_cover {limits : Limits} {stage : StageSpec} {ids : List ParticipantId}
    {s s' : AdvanceState} (h : ids.foldlM (declareMember limits stage) s = .ok s') :
    s.execution.candidates ⊆ s'.execution.candidates
      ∧ ∀ id ∈ ids, (s.ensemble.spec.findParticipant id).isSome = true →
        ∃ c ∈ s'.execution.candidates, c.member = (id, stage.id) := by
  induction ids generalizing s with
  | nil =>
    obtain rfl := Except.ok.inj h
    exact ⟨List.Subset.refl _, fun _ hid => by cases hid⟩
  | cons id ids ih =>
    rw [List.foldlM_cons] at h
    obtain ⟨m, hm, hrest⟩ := Checks.bind_eq_ok.mp h
    obtain ⟨hkept, hcovered⟩ := declareMember_covers hm
    have hsame := declareMember_same limits stage s id
    rw [hm, Threaded.final_ok] at hsame
    obtain ⟨hkept', hcovers⟩ := ih hrest
    refine ⟨List.Subset.trans hkept hkept', fun other hother hfound => ?_⟩
    rcases List.mem_cons.mp hother with rfl | hother
    · obtain ⟨c, hc, hmember⟩ := hcovered hfound
      exact ⟨c, hkept' hc, hmember⟩
    · exact hcovers other hother (by rw [hsame.ensemble]; exact hfound)

/-- A stage without room for its members cannot be declared. -/
theorem declareStage_full {limits : Limits} {stage : StageSpec}
    {s : AdvanceState} (h : Staged s) (henrolled : Enrolling limits stage s)
    (hmembers : ∀ other ∈ s.stages, ∀ id ∈ other.participants,
      (s.ensemble.spec.findParticipant id).isSome = true)
    (hundeclared : s.execution.declaredCurrentStage = false)
    (hfull : stagesFit limits (s.stages.take (s.execution.stageIndex + 1)) = false) :
    ∃ error s', declareStage limits stage s = .error (error, s')
      ∧ (error = boundReached ∨ error = identitiesExhausted) := by
  cases hresult : declareStage limits stage s with
  | error stop =>
    obtain ⟨error, s'⟩ := stop
    obtain ⟨m, id, -, -, -, herror⟩ := declareStage_stops henrolled hundeclared hresult
    exact ⟨error, s', rfl, (declareMember_eq_error herror).2.imp And.left And.left⟩
  | ok s' =>
    obtain ⟨m, hm, -⟩ := declareStage_eq_ok hundeclared hresult
    obtain ⟨hkept, hcovers⟩ := declareMembers_cover hm
    have henrolls := declareMembers_enrolls henrolled
    rw [hm, Threaded.final_ok] at henrolls
    have hfits : stagesFit limits (s.stages.take (s.execution.stageIndex + 1)) = true := by
      refine henrolls.enrolled.fits fun member hmember => ?_
      obtain ⟨id, stageId⟩ := member
      obtain ⟨other, hother, hid, hnamed⟩ := mem_stageMembers.mp hmember
      obtain ⟨i, hi, rfl⟩ := List.mem_take_iff_getElem.mp hother
      obtain ⟨hle, hlt⟩ := Nat.lt_min.mp hi
      rcases Nat.lt_succ_iff_lt_or_eq.mp hle with hearlier | rfl
      · have hpassed := h.barrier.passed i _ hearlier (List.getElem?_eq_getElem hlt)
        obtain ⟨⟨c, hc, hparticipant, hstage⟩, -⟩ := stageComplete_iff.mp hpassed id hid
        exact ⟨c, hkept hc, Prod.ext hparticipant (hstage.trans hnamed.symm)⟩
      · have hcurrent : s.stages[s.execution.stageIndex] = stage :=
          Option.some.inj ((List.getElem?_eq_getElem hlt).symm.trans henrolled.current)
        rw [hcurrent] at hid hnamed
        obtain ⟨c, hc, hmember⟩ := hcovers id hid (hmembers stage henrolled.mem id hid)
        exact ⟨c, hc, hmember.trans (Prod.ext rfl hnamed.symm)⟩
    rw [hfull] at hfits
    cases hfits

end AdvanceState

/-! ## Runs -/

/-- The candidates of open executions are enrolled. -/
theorem reachable_enrolled (config : FabricConfig) (events : List Event) {id : EnsembleId}
    {e : EnsembleRecord} {x : ExecutionRecord}
    (he : ((System.initial config).run events).fabric.find id = some e)
    (hx : e.execution = some x) (hopen : x.status = .opened) :
    Enrolled config.limits (planStages e x) x := by
  refine reachable_open
    (P := fun e x => Enrolled config.limits (planStages e x) x) ?_ ?_ ?_ events he hx hopen
  · exact fun _ => ⟨List.nodup_nil, fun c hc => (by cases hc), Nat.zero_le _⟩
  · intro e e' x x' hspec hkeeps h
    rw [planStages, hspec, hkeeps.extraStages]
    exact h.settles hkeeps.candidates
  · intro core e x _ h
    have hends := advanceOpen_ends config.limits core e x
    generalize advanceOpen config.limits core e x = out at hends ⊢
    cases hends with
    | settled steps =>
      exact (report_undisturbed _).enrolled (advanceSteps_keep AdvanceStep.enrolled steps h)
    | stopped steps stop => exact stop.enrolled (advanceSteps_keep AdvanceStep.enrolled steps h)

/-- The actions a call returns. -/
def returnedActions : Outcome (List FabricAction) → List FabricAction
  | .ok actions => actions
  | .error _ => []

/-- The stages an execution has come to. -/
def reachedStages (e : EnsembleRecord) (x : ExecutionRecord) : List StageSpec :=
  (planStages e x).take (x.stageIndex + 1)

/-- An advance of an open execution returns what it hands out. -/
theorem advanceOpen_returned {limits : Limits} {core : Core} {e : EnsembleRecord}
    {x : ExecutionRecord} (hstaged : (advanceStart core e x).Staged) :
    Returned (returnedActions (advanceOpen limits core e x).2) x
      (advanceOpen limits core e x).1.execution := by
  have hstart := (HandsNothing.refl x).returned []
  have hends := advanceOpen_ends limits core e x
  generalize advanceOpen limits core e x = out at hends ⊢
  cases hends with
  | @settled s steps =>
    have hreturned := advanceSteps_keep (P := fun m => Returned m.actions x m.execution)
      AdvanceStep.returned steps hstart
    exact hreturned.then (List.Subset.refl _) (report_handsNothing s)
  | stopped steps stop =>
    obtain ⟨hm, hholding⟩ := advanceSteps_keep (P := fun m => Staged m ∧ Holding x m)
      (fun hstep h => ⟨hstep.staged h.1, hstep.holding h.1 h.2⟩) steps
      ⟨hstaged, .untouched hstart⟩
    exact stop.untouched hm hholding

/-- Where all members fit, an advance of an open execution does not stop at
the bound. -/
theorem advanceOpen_not_bound {limits : Limits} {core : Core} {e : EnsembleRecord}
    {x : ExecutionRecord} (hstaged : (advanceStart core e x).Staged)
    (henrolled : Enrolled limits (planStages e x) x)
    (hfit : stagesFit limits (memberStages e.spec) = true) :
    (advanceOpen limits core e x).2 ≠ .error boundReached := by
  have hends := advanceOpen_ends limits core e x
  generalize advanceOpen limits core e x = out at hends ⊢
  cases hends with
  | settled => exact nofun
  | stopped steps stop =>
    obtain ⟨hm, henrolls, hspec⟩ := advanceSteps_keep
      (P := fun m => Staged m ∧ Enrolled limits m.stages m.execution
        ∧ m.ensemble.spec = e.spec)
      (fun hstep h => ⟨hstep.staged h.1, hstep.enrolled h.2.1, hstep.spec.trans h.2.2⟩) steps
      ⟨hstaged, henrolled, rfl⟩
    intro heq
    exact stop.not_bound henrolls hm.fallback.planStages_subset (hspec ▸ hfit)
      (Except.error.inj heq)

/-- An advance of an execution whose current stage has no room for its
members stops there. -/
theorem advanceOpen_stops {limits : Limits} {core : Core} {e : EnsembleRecord}
    {x : ExecutionRecord} (hwell : WellFormed limits e.spec)
    (hstaged : (advanceStart core e x).Staged) (henrolled : Enrolled limits (planStages e x) x)
    (hdue : x.stageIndex < (planStages e x).length) (hundeclared : x.declaredCurrentStage = false)
    (hfull : stagesFit limits (reachedStages e x) = false) :
    (advanceOpen limits core e x).2 = .error boundReached
      ∨ (advanceOpen limits core e x).2 = .error identitiesExhausted := by
  have hcurrent : (planStages e x)[x.stageIndex]? = some (planStages e x)[x.stageIndex] :=
    List.getElem?_eq_getElem hdue
  let s : AdvanceState := { advanceStart core e x with progress := false }
  have hs : s.Staged := ⟨hstaged.barrier, hstaged.issued, hstaged.fallback⟩
  have henrolls : Enrolling limits (planStages e x)[x.stageIndex] s := ⟨hcurrent, henrolled⟩
  obtain ⟨error, s', hresult, herror⟩ := declareStage_full hs henrolls
    (hstaged.fallback.members hwell) hundeclared hfull
  have hloop : advanceLoop limits 64 (advanceStart core e x) = .error (error, s') := by
    have hstages : s.stages.drop s.execution.stageIndex
        = (planStages e x)[x.stageIndex] :: s.stages.drop (x.stageIndex + 1) :=
      List.drop_eq_getElem_cons hdue
    rw [advanceLoop, if_pos (by rfl), advanceRound, hstages, stageLoop, hresult]
    rfl
  rw [advanceOpen_eq, hloop]
  exact herror.imp (fun h => by rw [h]) fun h => by rw [h]

theorem cancelInFlight_kept (e : EnsembleRecord) (x : ExecutionRecord)
    (cs : List CandidateRecord) (core : Core) :
    Forall₂ (fun c c' : CandidateRecord => c'.state = .dispatched → c' = c) cs
      (cancelInFlight e x cs core).1 := by
  rw [cancelInFlight_candidates]
  refine Slots.forall₂_map fun c _ => ?_
  unfold cancelledInFlight
  split
  · intro h
    cases h
  · intro _
    rfl

/-- Withdrawing the work of a cancelled execution hands out nothing. -/
theorem emitCancellation_handsNothing (core : Core) (e : EnsembleRecord) (x : ExecutionRecord) :
    HandsNothing x (emitCancellation core e x).1 := by
  constructor
  · intro c' hc' hstate
    obtain ⟨c, hc, hsame⟩ := Slots.exists_left (cancelInFlight_kept e x x.candidates _) hc'
    obtain rfl := hsame hstate
    exact ⟨c', hc, rfl, rfl, rfl, hstate⟩
  · intro p' hp' hemitted
    obtain ⟨p, hp, rfl⟩ := List.mem_map.mp hp'
    exact ⟨p, hp, rfl, rfl, rfl, hemitted⟩

theorem closedExecution_handsNothing (x : ExecutionRecord) :
    HandsNothing x (closedExecution x) := by
  refine .of_slots (Slots.forall₂_map fun c _ => ?_) fun _ hp => hp
  split
  · exact fun h => by cases h
  · exact fun h => ⟨rfl, rfl, rfl, h⟩

/-- An advance returns the work it hands out. Where all members fit, it does
not stop at the candidate bound, and it stops wherever the current stage has
no room for its members. -/
theorem advance_keeps_work (config : FabricConfig) (events : List Event) (id : EnsembleId)
    (generation : EnsembleGeneration) :
    let f := ((System.initial config).run events).fabric
    (∀ other e x e' x', f.find other = some e → e.execution = some x →
        (advance f id generation).1.find other = some e' → e'.execution = some x' →
        Returned (returnedActions (advance f id generation).2) x x')
      ∧ ((∀ e, f.find id = some e → stagesFit config.limits (memberStages e.spec) = true) →
        (advance f id generation).2 ≠ .error boundReached)
      ∧ ∀ e x, f.find id = some e → e.spec.generation = generation → e.superseded = false →
        e.execution = some x → x.status = .opened → x.declaredCurrentStage = false →
        x.stageIndex < (planStages e x).length →
        stagesFit config.limits (reachedStages e x) = false →
        (advance f id generation).2 = .error boundReached
          ∨ (advance f id generation).2 = .error identitiesExhausted := by
  intro f
  have hconfig : f.config = config := (reachable_named config events).1
  have hready : ∀ {e x}, f.find id = some e → e.execution = some x → x.status = .opened →
      (advanceStart f.core e x).Staged ∧ Enrolled config.limits (planStages e x) x := by
    intro e x he hx hopen
    exact ⟨reachable_staged config events he hx hopen,
      reachable_enrolled config events he hx hopen⟩
  refine ⟨fun other e x e' x' he hx he' hx' => ?_, fun hfit => ?_,
    fun e x he hnamed hlive hx hopen hundeclared hdue hfull => ?_⟩
  · have hsame : ∀ actions, f.find other = some e' → Returned actions x x' := by
      intro actions he'
      obtain rfl := Option.some.inj (he.symm.trans he')
      obtain rfl := Option.some.inj (hx.symm.trans hx')
      exact (HandsNothing.refl x).returned actions
    have hstored : ∀ {core e₀ x₀ x₁ actions} {stored : EnsembleRecord},
        f.find id = some e₀ → e₀.execution = some x₀ → Returned actions x₀ x₁ →
        ({ f with core }.store id (stored.holding x₁)).find other = some e' →
        Returned actions x x' := by
      intro core e₀ x₀ x₁ actions stored he₀ hx₀ hreturned hafter
      rw [Fabric.find_store] at hafter
      split at hafter
      · rename_i hother
        subst hother
        obtain rfl := Option.some.inj (he.symm.trans he₀)
        obtain rfl := Option.some.inj (hx.symm.trans hx₀)
        obtain rfl := Option.some.inj hafter
        obtain rfl := Option.some.inj hx'
        exact hreturned
      · exact hsame _ hafter
    have hanswers := advance_answers f id generation
    generalize advance f id generation = out at hanswers he' ⊢
    cases hanswers with
    | refused | idle => exact hsame _ he'
    | withdrawn find _ execution =>
      exact hstored find execution ((emitCancellation_handsNothing ..).returned _) he'
    | closed find _ execution =>
      exact hstored find execution ((closedExecution_handsNothing _).returned _)
        he'
    | worked find _ execution opened =>
      exact hstored find execution
        (advanceOpen_returned (hready find execution opened).1) he'
  · have hanswers := advance_answers f id generation
    generalize advance f id generation = out at hanswers ⊢
    cases hanswers with
    | refused code =>
      intro heq
      rw [Except.error.inj heq] at code
      exact code rfl
    | idle | withdrawn | closed => exact nofun
    | worked find _ execution opened =>
      obtain ⟨hstaged, henrolled⟩ := hready find execution opened
      rw [hconfig]
      exact advanceOpen_not_bound hstaged henrolled (hfit _ find)
  · obtain ⟨hstaged, henrolled⟩ := hready he hx hopen
    rw [advance_worked he hnamed hx hopen hlive, hconfig]
    exact advanceOpen_stops (reachable_specInUse config events id e he).admitted.wellFormed
      hstaged henrolled hdue hundeclared hfull

namespace Sample

/-- Room for the one primary candidate. -/
def singleCandidate : FabricConfig where
  limits := { maxCandidatesPerExecution := 1 }

/-- The primary candidate fails. -/
def primaryLost : List Event :=
  start fallbackSpec ++ [.reportParticipantFailure (authority 1) .transportError "lost"]

end Sample

/-- With room for both, the fallback candidate is dispatched by an action;
without, the fallback stage stops every advance. -/
theorem primaryLost_keeps_work :
    (∃ e x e' x', Sample.ensemble Sample.primaryLost = some e ∧ e.execution = some x
        ∧ (advance (Sample.reached Sample.primaryLost).fabric ⟨1⟩ ⟨1⟩).1.find ⟨1⟩ = some e'
        ∧ e'.execution = some x'
        ∧ x'.candidates.map (fun c => (c.id.value, c.state)) = [(1, .failed), (2, .dispatched)]
        ∧ Returned (returnedActions
            (advance (Sample.reached Sample.primaryLost).fabric ⟨1⟩ ⟨1⟩).2) x x')
      ∧ (advance (Sample.reached Sample.primaryLost).fabric ⟨1⟩ ⟨1⟩).2 ≠ .error boundReached
      ∧ ((advance ((System.initial Sample.singleCandidate).run
            (Sample.primaryLost ++ [Sample.advance])).fabric ⟨1⟩ ⟨1⟩).2 = .error boundReached
          ∨ (advance ((System.initial Sample.singleCandidate).run
            (Sample.primaryLost ++ [Sample.advance])).fabric ⟨1⟩ ⟨1⟩).2
              = .error identitiesExhausted) := by
  refine ⟨?_, ?_, ?_⟩
  · have hrun : ((Sample.ensemble Sample.primaryLost).any (fun e => e.execution.isSome)
        && ((advance (Sample.reached Sample.primaryLost).fabric ⟨1⟩ ⟨1⟩).1.find ⟨1⟩).any
          fun e => e.execution.any fun x =>
            x.candidates.map (fun c => (c.id.value, c.state))
              == [(1, .failed), (2, .dispatched)]) = true := by decide +kernel
    simp only [Bool.and_eq_true, Option.any_eq_true, beq_iff_eq, Option.isSome_iff_exists] at hrun
    obtain ⟨⟨e, he, x, hx⟩, e', he', x', hx', hstates⟩ := hrun
    exact ⟨e, x, e', x', he, hx, he', hx', hstates,
      (advance_keeps_work {} Sample.primaryLost ⟨1⟩ ⟨1⟩).1 ⟨1⟩ e x e' x' he hx he' hx'⟩
  · refine (advance_keeps_work {} Sample.primaryLost ⟨1⟩ ⟨1⟩).2.1 fun e he => ?_
    have hfits : (Sample.ensemble Sample.primaryLost).all
        (fun e => stagesFit {} (memberStages e.spec)) = true := by decide +kernel
    exact Option.all_eq_true _ _ |>.mp hfits e he
  · have hrun : (((System.initial Sample.singleCandidate).run
        (Sample.primaryLost ++ [Sample.advance])).fabric.find ⟨1⟩).any
          (fun e => e.spec.generation == ⟨1⟩ && !e.superseded && e.execution.any fun x =>
            x.status == .opened && !x.declaredCurrentStage
              && decide (x.stageIndex < (planStages e x).length)
              && !stagesFit Sample.singleCandidate.limits (reachedStages e x)) = true := by
      decide +kernel
    simp only [Option.any_eq_true, Bool.and_eq_true, beq_iff_eq, Bool.not_eq_true',
      decide_eq_true_eq] at hrun
    obtain ⟨e, he, ⟨hnamed, hlive⟩, x, hx, ⟨⟨hopen, hundeclared⟩, hdue⟩, hfull⟩ := hrun
    exact (advance_keeps_work Sample.singleCandidate (Sample.primaryLost ++ [Sample.advance])
      ⟨1⟩ ⟨1⟩).2.2 e x he hnamed hlive hx hopen hundeclared hdue hfull

/-- Validation accepts the specification; once the primary candidate is
lost, every advance stops at the candidate bound. -/
theorem fallback_without_room :
    ¬ ∀ (config : FabricConfig), config.limits.validate = .ok () →
      ∀ (events : List Event) (id : EnsembleId) (generation : EnsembleGeneration),
        (advance ((System.initial config).run events).fabric id generation).2
          ≠ .error boundReached := by
  intro h
  refine h Sample.singleCandidate (by decide +kernel) Sample.primaryLost ⟨1⟩ ⟨1⟩ ?_
  decide +kernel

end EnsembleFabric
