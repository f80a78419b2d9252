import EnsembleFabric.CandidateBound
import EnsembleFabric.Rest

/-!
# An activated fallback

An advance that activates fallback appends a stage of a computed identity,
1001, and works it off like a declared one: a member that has a candidate
under this identity already gets no other. So the fallback runs where no
declared stage of this identity asks for a fallback participant, and where
bound and identities leave room for the new candidates.

The identities handed out and the candidates declared keep step (`Tallied`),
the members of a declared stage have their candidates (`Covered`), and what
is declared after the activation is declared for the fallback stage
(`Behind`).

Fallback is activated in the first round of an advance or not at all
(`advanceLoop_activates`): a round that does not activate it leaves nothing
behind that a later round of the same advance would activate it for. What
follows the activation is one round over the appended stage, so whether its candidates
are declared is a matter of the room that is left when it starts
(`advanceOpen_fallback`). `FallbackFits` is that condition on the state
before the advance.

The counterexample has a declared stage of identity 1001 with the fallback
participant in it.
-/

namespace EnsembleFabric

open List (Forall₂)
open EventSystem

/-! ## What an activation is for -/

/-- The candidates an execution has more than in an earlier state. -/
def newCandidates (x x' : ExecutionRecord) : List CandidateRecord :=
  x'.candidates.drop x.candidates.length

/-- The stage has one new candidate, marked as its own, for each of its members. -/
structure StageDeclared (stage : StageSpec) (x x' : ExecutionRecord) : Prop where
  members : ((newCandidates x x').map (·.participant)).Perm stage.participants.dedup
  marked : ∀ c ∈ newCandidates x x', stage.Asks c ∧ c.fallback = stage.fallbackStage

/-- Identities are left for the candidates still missing. -/
def identitiesLast (core : Core) (spec : EnsembleSpec) (x : ExecutionRecord) : Prop :=
  core.candidateIds.next.toNat
    + ((stageMembers (memberStages spec)).dedup.length - x.candidates.length) ≤ lastWord.toNat

/-- What the fallback stage needs: none of its members is declared under its
identity already, and there are room and identities for them. -/
structure FallbackFits (limits : Limits) (core : Core) (spec : EnsembleSpec)
    (x : ExecutionRecord) : Prop where
  apart : ∀ stage ∈ spec.effectiveStages, stage.id = (AdvanceState.fallbackStage spec 0).id →
    ∀ id ∈ spec.fallback.fallbackParticipants, id ∉ stage.participants
  room : stagesFit limits (memberStages spec) = true
  identities : identitiesLast core spec x

/-- The first round of an advance ends with the activation of fallback. -/
structure ActivatesIn (limits : Limits) (core : Core) (e : EnsembleRecord) (x : ExecutionRecord)
    (a : AdvanceState) : Prop where
  before : x.fallbackActivated = false
  round : AdvanceState.advanceRound limits { advanceStart core e x with progress := false } = .ok a
  after : a.execution.fallbackActivated = true

/-- An activation adds a stage. -/
theorem FallbackUse.activated_extends {spec spec' : EnsembleSpec} {x x' : ExecutionRecord}
    (h : FallbackUse spec x) (h' : FallbackUse spec' x') (hbefore : x.fallbackActivated = false)
    (hafter : x'.fallbackActivated = true) : x'.extraStages ≠ x.extraStages := by
  cases h with
  | used _ activated =>
    rw [hbefore] at activated
    cases activated
  | unused _ stages =>
    cases h' with
    | unused activated =>
      rw [hafter] at activated
      cases activated
    | used _ _ stages' =>
      rw [stages, stages']
      exact List.cons_ne_nil _ _

namespace AdvanceState

/-! ## One step of an advance -/

/-- Identities handed out and candidates declared keep step. -/
def Tallied (s s' : AdvanceState) : Prop :=
  s'.core.candidateIds.next.toNat + s.execution.candidates.length
    = s.core.candidateIds.next.toNat + s'.execution.candidates.length

theorem Tallied.trans {a b c : AdvanceState} (h : Tallied a b) (h' : Tallied b c) :
    Tallied a c := by
  unfold Tallied at *
  omega

/-- What is declared and what is missing add up. -/
theorem Tallied.identitiesLast {s s' : AdvanceState} (h : Tallied s s') {spec : EnsembleSpec}
    (hlast : identitiesLast s.core spec s.execution) :
    identitiesLast s'.core spec s'.execution := by
  have hbelow := s.core.candidateIds.next.toNat_lt
  have hbelow' := s'.core.candidateIds.next.toNat_lt
  have hword : lastWord.toNat = 2 ^ 64 - 1 := rfl
  unfold EnsembleFabric.identitiesLast at *
  unfold Tallied at h
  omega

/-- The members of a declared stage have their candidates. -/
def Covered (s : AdvanceState) : Prop :=
  s.execution.declaredCurrentStage = true → ∃ stage, s.currentStage = some stage
    ∧ ∀ id ∈ stage.participants, (s.ensemble.spec.findParticipant id).isSome = true →
      ∃ c ∈ s.execution.candidates, c.member = (id, stage.id)

/-- The member a candidate was declared for, and whether as a fallback. -/
def places (s : AdvanceState) : List ((ParticipantId × StageId) × Bool) :=
  s.execution.candidates.map fun c => (c.member, c.fallback)

/-- The places a stage declares for participants. -/
def declaredPlaces (stage : StageSpec) (ids : List ParticipantId) :
    List ((ParticipantId × StageId) × Bool) :=
  ids.map fun id => ((id, stage.id), stage.fallbackStage)

theorem Undisturbed.places {s s' : AdvanceState} (h : Undisturbed s s') :
    s'.places = s.places :=
  Slots.map_key (fun hsettles => by
    rw [CandidateRecord.member, CandidateRecord.member, hsettles.participant, hsettles.stage,
      hsettles.fallback]) h.keeps.candidates

theorem Undisturbed.tallied {s s' : AdvanceState} (h : Undisturbed s s') : Tallied s s' := by
  rw [Tallied, h.candidateIds, h.keeps.candidates.length_eq]

/-- What a step declares, it declares for the current stage. -/
theorem declareMember_places (limits : Limits) (stage : StageSpec) (s : AdvanceState)
    (id : ParticipantId) :
    Tallied s (Threaded.final (declareMember limits stage s id))
      ∧ ∃ ids ⊆ [id], (Threaded.final (declareMember limits stage s id)).places
        = s.places ++ declaredPlaces stage ids := by
  have hkept : ∃ ids ⊆ [id], s.places = s.places ++ declaredPlaces stage ids :=
    ⟨[], List.nil_subset _, (List.append_nil _).symm⟩
  unfold declareMember
  split
  · exact ⟨rfl, hkept⟩
  · split
    · exact ⟨rfl, hkept⟩
    · split
      · exact ⟨rfl, hkept⟩
      · split
        · exact ⟨rfl, hkept⟩
        · rename_i candidateId ids hids
          obtain ⟨-, hnext⟩ := IdAllocator.allocate_spec hids
          refine ⟨?_, [id], List.Subset.refl _, ?_⟩
          · simp only [Tallied, Threaded.final_ok, List.length_append, List.length_singleton]
            omega
          · simp [places, declaredPlaces, declaredCandidate, CandidateRecord.member]

/-- What a state declares since an earlier one, it declares for this stage. -/
structure DeclaresFor (stage : StageSpec) (s s' : AdvanceState) : Prop where
  tallied : Tallied s s'
  places : ∃ ids ⊆ stage.participants, s'.places = s.places ++ declaredPlaces stage ids

theorem DeclaresFor.of_places {stage : StageSpec} {s s' : AdvanceState} (tallied : Tallied s s')
    (places : s'.places = s.places) : DeclaresFor stage s s' :=
  ⟨tallied, [], List.nil_subset _, places.trans (List.append_nil _).symm⟩

theorem DeclaresFor.trans {stage : StageSpec} {a b c : AdvanceState} (h : DeclaresFor stage a b)
    (h' : DeclaresFor stage b c) : DeclaresFor stage a c := by
  obtain ⟨ids, hids, hplaces⟩ := h.places
  obtain ⟨ids', hids', hplaces'⟩ := h'.places
  refine ⟨h.tallied.trans h'.tallied, ids ++ ids', List.append_subset.mpr ⟨hids, hids'⟩, ?_⟩
  rw [hplaces', hplaces, declaredPlaces, declaredPlaces, declaredPlaces, List.map_append,
    List.append_assoc]

theorem declareMembers_declare (limits : Limits) (stage : StageSpec) (s : AdvanceState) :
    DeclaresFor stage s
      (Threaded.final (stage.participants.foldlM (declareMember limits stage) s)) :=
  Threaded.final_foldlM (R := DeclaresFor stage) (fun _ => .of_places rfl rfl) DeclaresFor.trans
    (fun m id hid => by
      obtain ⟨htallied, ids, hids, hplaces⟩ := declareMember_places limits stage m id
      exact ⟨htallied, ids, fun other hother => by
        obtain rfl := List.mem_singleton.mp (hids hother)
        exact hid, hplaces⟩) s

/-- A step declares for the current stage, if there is one. -/
theorem AdvanceStep.declares {limits : Limits} {s s' : AdvanceState} (h : AdvanceStep limits s s')
    {stage : StageSpec} (hstage : ∀ current, s.currentStage = some current → current = stage) :
    DeclaresFor stage s s' := by
  have hsame : Undisturbed s s' → DeclaresFor stage s s' :=
    fun hundisturbed => .of_places hundisturbed.tallied hundisturbed.places
  cases h with
  | round | completed => exact .of_places rfl rfl
  | @declared _ current hcurrent undeclared result =>
    obtain rfl := hstage current hcurrent
    obtain ⟨m, hm, rfl⟩ := declareStage_eq_ok undeclared result
    have hmembers := declareMembers_declare limits current s
    rw [hm, Threaded.final_ok] at hmembers
    exact ⟨hmembers.tallied, hmembers.places⟩
  | adopted _ _ target => exact hsame (adopt_undisturbed target)
  | stranded _ _ target => exact hsame (strand_undisturbed target)
  | @dispatched current index c p _ _ target =>
    have hadopted := adopt_undisturbed target
    refine .of_places (hadopted.tallied.trans ?_) (Eq.trans ?_ hadopted.places)
    · simp [Tallied, dispatchCandidate, setCandidate]
    · exact Slots.map_key_set (setCandidate_get target.at_ _) rfl
  | reopened => exact hsame (reopenPlanning_undisturbed s)
  | planned _ _ result =>
    have hplanned := planEvaluations_undisturbed s
    rw [result] at hplanned
    exact hsame hplanned
  | emitted index => exact hsame (emitOne_undisturbed s index)
  | reported => exact hsame (report_undisturbed s)
  | activated _ decision =>
    obtain ⟨hexecution, -, hids⟩ := activateFallback_eq decision
    refine .of_places ?_ ?_
    · rw [Tallied, hids, hexecution]
      rfl
    · rw [AdvanceState.places, hexecution]
      rfl

theorem AdvanceStep.tallied {limits : Limits} {s s' : AdvanceState}
    (h : AdvanceStep limits s s') : Tallied s s' :=
  (@AdvanceStep.declares _ _ _ h (s.currentStage.getD { id := {} })
    fun _ hcurrent => by rw [hcurrent]; rfl).tallied

theorem exists_member {s s' : AdvanceState} (h : s'.places = s.places)
    {member : ParticipantId × StageId} (hmember : ∃ c ∈ s.execution.candidates, c.member = member) :
    ∃ c ∈ s'.execution.candidates, c.member = member := by
  obtain ⟨c, hc, rfl⟩ := hmember
  obtain ⟨c', hc', hsame⟩ := List.mem_map.mp
    (h ▸ List.mem_map_of_mem hc : (c.member, c.fallback) ∈ s'.places)
  exact ⟨c', hc', congrArg Prod.fst hsame⟩

theorem Covered.kept {s s' : AdvanceState} (h : Covered s) (hplan : SamePlan s s')
    (hdeclared : s'.execution.declaredCurrentStage = s.execution.declaredCurrentStage)
    (hplaces : s'.places = s.places) : Covered s' := by
  intro hdone
  obtain ⟨stage, hcurrent, hmembers⟩ := h (hdeclared ▸ hdone)
  refine ⟨stage, hplan.current.trans hcurrent, fun id hid hfound => ?_⟩
  exact exists_member hplaces (hmembers id hid (hplan.spec ▸ hfound))

theorem Covered.undisturbed {s s' : AdvanceState} (h : Covered s) (hsame : Undisturbed s s') :
    Covered s' :=
  h.kept ⟨hsame.spec, hsame.keeps.extraStages, hsame.keeps.stageIndex⟩
    hsame.keeps.declaredCurrentStage hsame.places

theorem AdvanceStep.covered {limits : Limits} {s s' : AdvanceState} (h : AdvanceStep limits s s')
    (hs : Covered s) : Covered s' := by
  cases h with
  | round => exact hs.kept ⟨rfl, rfl, rfl⟩ rfl rfl
  | @declared _ stage current undeclared result =>
    obtain ⟨hplan, -⟩ := declareStage_same result
    obtain ⟨m, hm, rfl⟩ := declareStage_eq_ok undeclared result
    intro _
    refine ⟨stage, hplan.current.trans current, fun id hid hfound => ?_⟩
    rw [hplan.spec] at hfound
    exact (declareMembers_cover hm).2 id hid hfound
  | adopted _ _ target => exact hs.undisturbed (adopt_undisturbed target)
  | stranded _ _ target => exact hs.undisturbed (strand_undisturbed target)
  | @dispatched current index c p _ _ target =>
    exact (hs.undisturbed (adopt_undisturbed target)).kept ⟨rfl, rfl, rfl⟩ rfl
      (Slots.map_key_set (setCandidate_get target.at_ _) rfl)
  | completed =>
    intro hdeclared
    cases hdeclared
  | reopened => exact hs.undisturbed (reopenPlanning_undisturbed s)
  | planned _ _ result =>
    have hplanned := planEvaluations_undisturbed s
    rw [result] at hplanned
    exact hs.undisturbed hplanned
  | emitted index => exact hs.undisturbed (emitOne_undisturbed s index)
  | reported => exact hs.undisturbed (report_undisturbed s)
  | activated consumed decision =>
    intro hdeclared
    rw [(activateFallback_eq decision).1] at hdeclared
    obtain ⟨stage, hcurrent, -⟩ := hs hdeclared
    rw [consumed.no_stage] at hcurrent
    cases hcurrent

theorem AdvanceStop.covered {limits : Limits} {s s' : AdvanceState} {error : Error}
    (h : AdvanceStop limits s (error, s')) (hs : Covered s) : Covered s' := by
  cases h with
  | @undeclared stage _ undeclared result =>
    have hmembers := declareMembers_same limits stage stage.participants s
    rw [declareStage_eq_error undeclared result] at hmembers
    intro hdeclared
    rw [show s'.execution = _ from hmembers.execution] at hdeclared
    rw [undeclared] at hdeclared
    cases hdeclared
  | unplanned _ _ result =>
    have hplanned := planEvaluations_undisturbed s
    rw [result] at hplanned
    exact hs.undisturbed hplanned

/-! ## Behind the activation -/

/-- A state that follows the activation of fallback. -/
structure Behind (a s : AdvanceState) : Prop where
  spec : s.ensemble.spec = a.ensemble.spec
  extraStages : s.execution.extraStages = a.execution.extraStages
  activated : s.execution.fallbackActivated = true
  index : a.execution.stageIndex ≤ s.execution.stageIndex

theorem Behind.stages {a s : AdvanceState} (h : Behind a s) : s.stages = a.stages := by
  rw [AdvanceState.stages, AdvanceState.stages, h.spec, h.extraStages]

theorem Behind.samePlan {a s s' : AdvanceState} (h : Behind a s) (hsame : SamePlan s s')
    (hactivated : s'.execution.fallbackActivated = s.execution.fallbackActivated) :
    Behind a s' :=
  ⟨hsame.spec.trans h.spec, hsame.extraStages.trans h.extraStages,
    hactivated.trans h.activated, hsame.stageIndex ▸ h.index⟩

theorem Behind.undisturbed {a s s' : AdvanceState} (h : Behind a s) (hsame : Undisturbed s s') :
    Behind a s' :=
  h.samePlan ⟨hsame.spec, hsame.keeps.extraStages, hsame.keeps.stageIndex⟩
    hsame.keeps.fallbackActivated

theorem AdvanceStep.behind {limits : Limits} {a s s' : AdvanceState}
    (h : AdvanceStep limits s s') (hs : Behind a s) : Behind a s' := by
  have hactivated := h.keeps_activated hs.activated
  cases h with
  | round | dispatched => exact ⟨hs.spec, hs.extraStages, hs.activated, hs.index⟩
  | declared _ _ result =>
    exact hs.samePlan (declareStage_same result).1 (hactivated.trans hs.activated.symm)
  | adopted _ _ target => exact hs.undisturbed (adopt_undisturbed target)
  | stranded _ _ target => exact hs.undisturbed (strand_undisturbed target)
  | completed => exact ⟨hs.spec, hs.extraStages, hs.activated, Nat.le_succ_of_le hs.index⟩
  | reopened => exact hs.undisturbed (reopenPlanning_undisturbed s)
  | planned _ _ result =>
    have hplanned := planEvaluations_undisturbed s
    rw [result] at hplanned
    exact hs.undisturbed hplanned
  | emitted index => exact hs.undisturbed (emitOne_undisturbed s index)
  | reported => exact hs.undisturbed (report_undisturbed s)
  | activated _ decision =>
    have hunused := (fallbackDecision_eq_some decision).2.1
    rw [hs.activated] at hunused
    cases hunused

/-- The state right after an activation: all other stages are passed. -/
structure Activated (limits : Limits) (a : AdvanceState) : Prop where
  staged : Staged a
  enrolled : Enrolled limits a.stages a.execution
  covered : Covered a
  enabled : a.ensemble.spec.fallback.enabled = true
  activated : a.execution.fallbackActivated = true
  extraStages : a.execution.extraStages = [fallbackStage a.ensemble.spec 0]
  index : a.execution.stageIndex = a.ensemble.spec.effectiveStages.length
  asked : ∀ c ∈ a.execution.candidates,
    c.member ∈ stageMembers a.ensemble.spec.effectiveStages

theorem activateFallback_activated {limits : Limits} {m : AdvanceState} {trigger : FallbackTrigger}
    (hm : Staged m) (henrolled : Enrolled limits m.stages m.execution) (hcovered : Covered m)
    (hconsumed : m.Consumed)
    (hdecision : fallbackDecision m.ensemble m.execution = some trigger) :
    Activated limits m.activateFallback := by
  have hstep : AdvanceStep limits m m.activateFallback := .activated hconsumed hdecision
  obtain ⟨hexecution, hspec, -⟩ := activateFallback_eq hdecision
  obtain ⟨henabled, hunused, -⟩ := fallbackDecision_eq_some hdecision
  cases hm.fallback with
  | used _ activated =>
    rw [hunused] at activated
    cases activated
  | unused _ stages depth =>
    have hplan : m.stages = m.ensemble.spec.effectiveStages := by
      rw [AdvanceState.stages, stages, List.append_nil]
    refine ⟨hstep.staged hm, hstep.enrolled henrolled, hstep.covered hcovered, ?_, ?_, ?_, ?_, ?_⟩
    · rw [hspec]
      exact henabled
    · rw [hexecution]
      rfl
    · rw [hexecution, hspec]
      simp [requestFallback, stages, depth]
    · rw [hexecution, hspec, ← hplan]
      exact Nat.le_antisymm hm.barrier.within hconsumed
    · rw [hexecution, hspec, ← hplan]
      exact henrolled.asked

namespace Activated

variable {limits : Limits} {a : AdvanceState}

theorem stages (h : Activated limits a) :
    a.stages = a.ensemble.spec.effectiveStages ++ [fallbackStage a.ensemble.spec 0] := by
  rw [AdvanceState.stages, h.extraStages]

theorem memberStages (h : Activated limits a) : memberStages a.ensemble.spec = a.stages := by
  rw [h.stages, EnsembleFabric.memberStages, if_pos h.enabled]

/-- The candidates are all the members of the other stages. -/
theorem members (h : Activated limits a) {member : ParticipantId × StageId} :
    (∃ c ∈ a.execution.candidates, c.member = member)
      ↔ member ∈ stageMembers a.ensemble.spec.effectiveStages := by
  constructor
  · rintro ⟨c, hc, rfl⟩
    exact h.asked c hc
  · intro hmember
    obtain ⟨stage, hstage, hid, hnamed⟩ := mem_stageMembers.mp hmember
    obtain ⟨i, hi, rfl⟩ := List.getElem_of_mem hstage
    have hpassed := h.staged.barrier.passed i (a.ensemble.spec.effectiveStages[i])
      (by rw [h.index]; exact hi)
      (by rw [h.stages, List.getElem?_append_left hi, List.getElem?_eq_getElem hi])
    obtain ⟨⟨c, hc, hparticipant, hplace⟩, -⟩ := stageComplete_iff.mp hpassed member.1 hid
    exact ⟨c, hc, Prod.ext hparticipant (hplace.trans hnamed.symm)⟩

end Activated

/-- A state of the advance after the activation. -/
structure Following (limits : Limits) (a s : AdvanceState) : Prop where
  staged : Staged s
  enrolled : Enrolled limits s.stages s.execution
  covered : Covered s
  behind : Behind a s
  declares : DeclaresFor (fallbackStage a.ensemble.spec 0) a s

namespace Following

variable {limits : Limits} {a s s' : AdvanceState}

theorem start (h : Activated limits a) : Following limits a a :=
  ⟨h.staged, h.enrolled, h.covered, ⟨rfl, rfl, h.activated, Nat.le_refl _⟩, .of_places rfl rfl⟩

/-- The current stage is the fallback stage. -/
theorem current (ha : Activated limits a) (h : Following limits a s) {stage : StageSpec}
    (hcurrent : s.currentStage = some stage) : stage = fallbackStage a.ensemble.spec 0 := by
  have hindex := h.behind.index
  rw [currentStage, h.behind.stages, ha.stages,
    List.getElem?_append_right (ha.index ▸ hindex)] at hcurrent
  exact List.mem_singleton.mp (List.mem_of_getElem? hcurrent)

theorem step (ha : Activated limits a) (h : Following limits a s)
    (hstep : AdvanceStep limits s s') : Following limits a s' :=
  ⟨hstep.staged h.staged, hstep.enrolled h.enrolled, hstep.covered h.covered,
    hstep.behind h.behind, h.declares.trans (hstep.declares fun _ => h.current ha)⟩

theorem steps (ha : Activated limits a) (h : AdvanceSteps limits a s) : Following limits a s :=
  advanceSteps_keep (fun hstep hm => step ha hm hstep) h (start ha)

theorem undisturbed (h : Following limits a s) (hsame : Undisturbed s s') :
    Following limits a s' :=
  ⟨h.staged.undisturbed hsame, hsame.enrolled h.enrolled, h.covered.undisturbed hsame,
    h.behind.undisturbed hsame, h.declares.trans (.of_places hsame.tallied hsame.places)⟩

theorem stop (ha : Activated limits a) (h : Following limits a s) {error : Error}
    (hstop : AdvanceStop limits s (error, s')) : Following limits a s' := by
  have hstaged := hstop.staged h.staged
  have henrolled := hstop.enrolled h.enrolled
  have hcovered := hstop.covered h.covered
  cases hstop with
  | @undeclared stage current undeclared result =>
    obtain rfl := h.current ha current
    have hresult := declareStage_eq_error undeclared result
    have hmembers := declareMembers_declare limits (fallbackStage a.ensemble.spec 0) s
    have hsame := declareMembers_same limits (fallbackStage a.ensemble.spec 0)
      (fallbackStage a.ensemble.spec 0).participants s
    rw [hresult] at hmembers hsame
    have hexecution : s'.execution = _ := hsame.execution
    refine ⟨hstaged, henrolled, hcovered, h.behind.samePlan ⟨congrArg _ hsame.ensemble, ?_, ?_⟩ ?_,
      h.declares.trans hmembers⟩
    · rw [hexecution]
    · rw [hexecution]
    · rw [hexecution]
  | unplanned _ _ result =>
    have hplanned := planEvaluations_undisturbed s
    rw [result] at hplanned
    exact h.undisturbed hplanned

end Following

/-- All new candidates are for the fallback stage, each for another member. -/
theorem Following.declared_iff {limits : Limits} {a s : AdvanceState} (ha : Activated limits a)
    (h : Following limits a s) :
    StageDeclared (fallbackStage a.ensemble.spec 0) a.execution s.execution ↔
      ∀ id ∈ a.ensemble.spec.fallback.fallbackParticipants,
        (∃ c ∈ s.execution.candidates, c.member = (id, (fallbackStage a.ensemble.spec 0).id))
          ∧ (id, (fallbackStage a.ensemble.spec 0).id)
            ∉ stageMembers a.ensemble.spec.effectiveStages := by
  let stage := fallbackStage a.ensemble.spec 0
  obtain ⟨ids, hids, hplaces⟩ := h.declares.places
  have hnew : (newCandidates a.execution s.execution).map (fun c => (c.member, c.fallback))
      = declaredPlaces stage ids := by
    have hlength : a.execution.candidates.length = a.places.length := (List.length_map _).symm
    rw [newCandidates, List.map_drop, hlength]
    change s.places.drop _ = _
    rw [hplaces, List.drop_left]
  have hparticipants : (newCandidates a.execution s.execution).map (·.participant) = ids := by
    have hmap := congrArg (List.map fun place => place.1.1) hnew
    simpa [declaredPlaces, CandidateRecord.member, Function.comp_def] using hmap
  have hmembers : s.execution.candidates.map (·.member)
      = a.execution.candidates.map (·.member) ++ ids.map fun id => (id, stage.id) := by
    have hmap := congrArg (List.map Prod.fst) hplaces
    simpa [places, declaredPlaces, Function.comp_def] using hmap
  have hdistinct := h.enrolled.distinct
  rw [hmembers, List.nodup_append] at hdistinct
  obtain ⟨-, hnodup, hapart⟩ := hdistinct
  have hidsNodup : ids.Nodup := hnodup.of_map _
  have hmarked : ∀ c ∈ newCandidates a.execution s.execution,
      stage.Asks c ∧ c.fallback = stage.fallbackStage := by
    intro c hc
    have hplace : (c.member, c.fallback) ∈ declaredPlaces stage ids :=
      hnew ▸ List.mem_map_of_mem hc
    obtain ⟨id, hid, heq⟩ := List.mem_map.mp hplace
    simp only [Prod.mk.injEq, CandidateRecord.member] at heq
    exact ⟨⟨heq.1.2.symm, by rw [← heq.1.1]; exact hids hid⟩, heq.2.symm⟩
  constructor
  · intro hdeclared id hid
    have hmem : id ∈ ids := by
      rw [← hparticipants, hdeclared.members.mem_iff, List.mem_dedup]
      exact hid
    have hmember : (id, stage.id) ∈ ids.map fun id => (id, stage.id) := List.mem_map_of_mem hmem
    refine ⟨List.mem_map.mp (hmembers ▸ List.mem_append_right _ hmember), fun hold => ?_⟩
    obtain ⟨c, hc, heq⟩ := ha.members.mpr hold
    exact hapart _ (List.mem_map_of_mem hc) _ hmember heq
  · intro hall
    refine ⟨?_, hmarked⟩
    rw [hparticipants, List.perm_ext_iff_of_nodup hidsNodup (List.nodup_dedup _)]
    refine fun id => ⟨fun hid => List.mem_dedup.mpr (hids hid), fun hid => ?_⟩
    obtain ⟨⟨c, hc, heq⟩, hnot⟩ := hall id (List.mem_dedup.mp hid)
    have hmem : (id, stage.id) ∈ s.execution.candidates.map (·.member) :=
      heq ▸ List.mem_map_of_mem hc
    rw [hmembers] at hmem
    rcases List.mem_append.mp hmem with hold | hmem
    · exact absurd (ha.members.mp (List.mem_map.mp hold)) hnot
    · obtain ⟨other, hother, hsame⟩ := List.mem_map.mp hmem
      exact (Prod.mk.inj hsame).1 ▸ hother

/-! ## Declaring the fallback stage -/

namespace Following

variable {limits : Limits} {a s s' : AdvanceState}

/-- Once the fallback stage is declared or passed, all members are there. -/
theorem covers (ha : Activated limits a) (h : Following limits a s)
    (hwell : WellFormed limits a.ensemble.spec)
    (hdone : s.execution.declaredCurrentStage = true ∨ s.Consumed) :
    ∀ id ∈ a.ensemble.spec.fallback.fallbackParticipants,
      ∃ c ∈ s.execution.candidates, c.member = (id, (fallbackStage a.ensemble.spec 0).id) := by
  intro id hid
  rcases hdone with hdeclared | hconsumed
  · obtain ⟨stage, hcurrent, hmembers⟩ := h.covered hdeclared
    obtain rfl := h.current ha hcurrent
    refine hmembers id hid ?_
    rw [h.behind.spec]
    exact hwell.fallbackMembers ha.enabled id hid
  · have hstages := h.behind.stages.trans ha.stages
    rw [Consumed, hstages, List.length_append, List.length_singleton] at hconsumed
    have hpassed := h.staged.barrier.passed _ (fallbackStage a.ensemble.spec 0) hconsumed
      (by rw [hstages, List.getElem?_append_right (Nat.le_refl _), Nat.sub_self]; rfl)
    obtain ⟨⟨c, hc, hparticipant, hstage⟩, -⟩ := stageComplete_iff.mp hpassed id hid
    exact ⟨c, hc, Prod.ext hparticipant hstage⟩

/-- With room and identities left, the fallback stage is declared. -/
theorem stop_covers (ha : Activated limits a) (h : Following limits a s)
    (hwell : WellFormed limits a.ensemble.spec) {error : Error}
    (hstop : AdvanceStop limits s (error, s'))
    (hfit : stagesFit limits (EnsembleFabric.memberStages a.ensemble.spec) = true)
    (hids : identitiesLast s.core a.ensemble.spec s.execution) :
    ∀ id ∈ a.ensemble.spec.fallback.fallbackParticipants,
      ∃ c ∈ s'.execution.candidates, c.member = (id, (fallbackStage a.ensemble.spec 0).id) := by
  cases hstop with
  | @undeclared stage current undeclared result =>
    exfalso
    -- the member it stops at is missing, so there are candidates and identities left
    obtain ⟨m, id, hid, ⟨hm, hstages, htallied⟩, herror⟩ := Threaded.foldlM_eq_error
      (P := fun m => Enrolling limits stage m ∧ m.stages = s.stages ∧ Tallied s m)
      (fun {m id m'} hid hm hresult => by
        have henrolls := declareMember_enrolls hm.1 hid
        have hsame := declareMember_same limits stage m id
        have hplaces := declareMember_places limits stage m id
        rw [hresult] at henrolls hsame hplaces
        refine ⟨henrolls, Eq.trans ?_ hm.2.1, hm.2.2.trans hplaces.1⟩
        rw [AdvanceState.stages, AdvanceState.stages,
          show m'.ensemble = m.ensemble from hsame.ensemble,
          show m'.execution = _ from hsame.execution]) ⟨⟨current, h.enrolled⟩, rfl, rfl⟩
      (declareStage_eq_error undeclared result)
    have hsub : m.stages ⊆ EnsembleFabric.memberStages a.ensemble.spec := by
      rw [hstages, h.behind.stages, ha.memberStages]
      exact List.Subset.refl _
    have hmember : (id, stage.id) ∈ stageMembers m.stages :=
      mem_stageMembers.mpr ⟨stage, hm.mem, hid, rfl⟩
    obtain ⟨hmissing, hcause⟩ := declareMember_eq_error herror
    rcases hcause with ⟨-, hfull⟩ | ⟨-, hlast⟩
    · exact absurd hfull (Nat.not_le.mpr (hm.enrolled.room hsub hfit hmember hmissing))
    · have hlacks := hm.enrolled.lacks hsub hmember hmissing
      rw [identitiesLast] at hids
      rw [Tallied, hlast] at htallied
      omega
  | unplanned consumed incomplete result =>
    have hplanned := planEvaluations_undisturbed s
    rw [result] at hplanned
    exact fun id hid => exists_member hplanned.places (h.covers ha hwell (.inr consumed) id hid)

/-- Where all members are there, room and identities were left. -/
theorem fits (ha : Activated limits a) (h : Following limits a s)
    (hall : ∀ id ∈ a.ensemble.spec.fallback.fallbackParticipants,
      ∃ c ∈ s.execution.candidates, c.member = (id, (fallbackStage a.ensemble.spec 0).id)) :
    stagesFit limits (EnsembleFabric.memberStages a.ensemble.spec) = true
      ∧ (stageMembers (EnsembleFabric.memberStages a.ensemble.spec)).dedup.length
        ≤ s.execution.candidates.length := by
  obtain ⟨ids, -, hplaces⟩ := h.declares.places
  have hmembers : ∀ member ∈ stageMembers (EnsembleFabric.memberStages a.ensemble.spec),
      ∃ c ∈ s.execution.candidates, c.member = member := by
    intro member hmember
    obtain ⟨stage, hstage, hid, hnamed⟩ := mem_stageMembers.mp hmember
    rw [ha.memberStages, ha.stages] at hstage
    rcases List.mem_append.mp hstage with hdeclared | hfallback
    · have hold := ha.members.mpr (mem_stageMembers.mpr ⟨stage, hdeclared, hid, hnamed⟩)
      obtain ⟨c, hc, rfl⟩ := hold
      have hplace : (c.member, c.fallback) ∈ s.places :=
        hplaces ▸ List.mem_append_left _ (List.mem_map_of_mem hc)
      obtain ⟨c', hc', hsame⟩ := List.mem_map.mp hplace
      exact ⟨c', hc', congrArg Prod.fst hsame⟩
    · obtain rfl := List.mem_singleton.mp hfallback
      obtain ⟨c, hc, hsame⟩ := hall member.1 hid
      exact ⟨c, hc, hsame.trans (Prod.ext rfl hnamed.symm)⟩
  exact ⟨h.enrolled.fits hmembers, Enrolled.covers hmembers⟩

end Following

/-! ## The round that activates -/

theorem declareStage_extraStages (limits : Limits) (stage : StageSpec) (s : AdvanceState) :
    (Threaded.final (declareStage limits stage s)).execution.extraStages
      = s.execution.extraStages := by
  cases hresult : declareStage limits stage s with
  | ok s' => exact (declareStage_same hresult).1.extraStages
  | error stop =>
    cases hdeclared : s.execution.declaredCurrentStage with
    | true =>
      rw [declareStage, if_pos hdeclared] at hresult
      cases hresult
    | false =>
      have hmembers := declareMembers_same limits stage stage.participants s
      rw [declareStage_eq_error hdeclared hresult] at hmembers
      rw [hmembers.execution]

theorem stageLoop_extraStages {limits : Limits} {stages : List StageSpec} {s : AdvanceState}
    (hstages : stages = s.stages.drop s.execution.stageIndex) :
    (Threaded.final (stageLoop limits stages s)).execution.extraStages
      = s.execution.extraStages := by
  induction stages generalizing s with
  | nil => rfl
  | cons stage rest ih =>
    have hcurrent : s.currentStage = some stage := by
      rw [currentStage, ← List.head?_drop, ← hstages]
      rfl
    refine Threaded.final_bind
      (R := fun a b : AdvanceState => b.execution.extraStages = a.execution.extraStages)
      (fun h h' => h'.trans h) (declareStage_extraStages limits stage s) fun m hm => ?_
    obtain ⟨hsame, hdeclared⟩ := declareStage_same hm
    obtain ⟨-, -, hsame'⟩ := dispatchStage_advances limits
      ⟨hsame.current.trans hcurrent, hdeclared⟩
    simp only
    split
    · refine (ih ?_).trans hsame'.extraStages
      change rest = ((dispatchStage stage m).stages).drop
        ((dispatchStage stage m).execution.stageIndex + 1)
      rw [hsame'.stages, hsame.stages, hsame'.stageIndex, hsame.stageIndex, ← List.tail_drop,
        ← hstages]
      rfl
    · exact hsame'.extraStages

/-- The state a round activates fallback in. A further report decides the
same. -/
structure ActivatesAt (limits : Limits) (s m : AdvanceState) : Prop where
  steps : AdvanceSteps limits s m
  consumed : m.Consumed
  decision : ∃ trigger, fallbackDecision m.ensemble m.execution = some trigger
  renewed : ∃ trigger,
    fallbackDecision m.ensemble (computeReports m.ensemble m.execution) = some trigger
  result : advanceRound limits s = .ok m.activateFallback

/-- A round activates fallback at its end, or not at all. -/
theorem advanceRound_activates (limits : Limits) (s : AdvanceState) :
    (Threaded.final (advanceRound limits s)).execution.extraStages = s.execution.extraStages
      ∨ ∃ m, ActivatesAt limits s m := by
  have hstages : (Threaded.final (stageLoop limits (s.stages.drop s.execution.stageIndex)
      s)).execution.extraStages = s.execution.extraStages := stageLoop_extraStages rfl
  have hadvances : Advances limits s
      (stageLoop limits (s.stages.drop s.execution.stageIndex) s) := stageLoop_advances _ rfl
  unfold advanceRound
  cases hloop : stageLoop limits (s.stages.drop s.execution.stageIndex) s with
  | error stop =>
    rw [hloop] at hstages
    exact .inl hstages
  | ok n =>
    rw [hloop] at hstages hadvances
    change (Threaded.final (if n.stages.length ≤ n.execution.stageIndex then evaluationPhase n
      else .ok n)).execution.extraStages = _ ∨ _
    split
    · rename_i hconsumed
      cases hplanned : planEvaluations n.reopenPlanning with
      | error stop =>
        have hundisturbed := planEvaluations_undisturbed n.reopenPlanning
        rw [hplanned] at hundisturbed
        rw [evaluationPhase, hplanned]
        exact .inl (((reopenPlanning_undisturbed n).trans hundisturbed).keeps.extraStages.trans
          hstages)
      | ok m =>
        obtain ⟨hsteps, hsame, -⟩ := @evaluationPhase_steps limits _ _ hconsumed hplanned
        have hphase : evaluationPhase n = .ok m.emitEvaluations.report.activateFallback := by
          rw [evaluationPhase, hplanned]
          rfl
        cases hdecision : fallbackDecision m.emitEvaluations.report.ensemble
            m.emitEvaluations.report.execution with
        | none =>
          rw [hphase, activateFallback, hdecision]
          exact .inl (hsame.extraStages.trans hstages)
        | some trigger =>
          refine .inr ⟨_, hadvances.trans hsteps, hsame.consumed hconsumed,
            ⟨trigger, hdecision⟩, ⟨trigger, ?_⟩, ?_⟩
          · exact (fallbackDecision_reported (computeReports_unreported _ _)).trans hdecision
          rw [advanceRound, hloop]
          exact (if_pos hconsumed).trans hphase
    · exact .inl hstages

/-- At rest, no fallback is activated. -/
theorem Rest.extraStages {s : AdvanceState} (h : Rest s) (limits : Limits) (fuel : Nat) :
    (Threaded.final (advanceLoop limits fuel s)).execution.extraStages
      = s.execution.extraStages := by
  obtain ⟨b, x', hloop, hreported, -⟩ := h.loop limits fuel
  rw [hloop]
  change x'.extraStages = s.execution.extraStages
  clear hloop
  induction hreported with
  | refl => rfl
  | @tail y z _ hstep ih =>
    subst hstep
    have hsame := congrArg ExecutionRecord.extraStages (computeReports_unreported s.ensemble y)
    exact Eq.trans hsame ih

/-- Only the first round of an advance activates fallback. -/
theorem advanceLoop_activates {limits : Limits} {s : AdvanceState} (hs : Staged s)
    (hprogress : s.progress = true) (fuel : Nat)
    (hafter : (Threaded.final (advanceLoop limits (fuel + 1) s)).execution.extraStages
      ≠ s.execution.extraStages) :
    ∃ m, ActivatesAt limits { s with progress := false } m := by
  rcases advanceRound_activates limits { s with progress := false } with hsame | hactivates
  · rw [advanceLoop, if_pos hprogress] at hafter
    cases hround : advanceRound limits { s with progress := false } with
    | error stop =>
      rw [hround] at hafter hsame
      exact absurd hsame hafter
    | ok m =>
      rw [hround] at hafter hsame
      change (Threaded.final (advanceLoop limits fuel m)).execution.extraStages ≠ _ at hafter
      change m.execution.extraStages = s.execution.extraStages at hsame
      cases advanceRound_ends hround with
      | rest rest => exact absurd ((rest.extraStages limits fuel).trans hsame) hafter
      | activated steps consumed decision renewed result =>
        exact ⟨_, steps, consumed, ⟨_, decision⟩, ⟨_, renewed⟩, by rw [hround, result]⟩
      | @interrupted stage mem current declared interrupted progress =>
        exfalso
        cases fuel with
        | zero => exact hafter hsame
        | succ fuel =>
          have hm : Staged m := by
            have hadvances := advanceRound_advances limits { s with progress := false }
            rw [hround] at hadvances
            exact advanceSteps_keep AdvanceStep.staged hadvances
              ⟨hs.barrier, hs.issued, hs.fallback⟩
          rw [advanceLoop, if_pos progress] at hafter
          rcases advanceRound_activates limits { m with progress := false } with
            hsecond | ⟨n, hsecond⟩
          · cases hround' : advanceRound limits { m with progress := false } with
            | error stop =>
              rw [hround'] at hafter hsecond
              exact hafter (hsecond.trans hsame)
            | ok m' =>
              rw [hround'] at hafter hsecond
              have hrest := interrupted.round hm current declared hround'
              exact hafter ((hrest.extraStages limits fuel).trans (hsecond.trans hsame))
          · -- the dispatched candidate keeps the second round from consuming the stages
            obtain ⟨-, k, -, c, hc, -, hstate⟩ := interrupted
            have hkeeps : ∀ {n n' : AdvanceState}, AdvanceStep limits n n' →
                (Staged n ∧ n.execution.declaredCurrentStage = true
                  ∧ ∃ c ∈ n.execution.candidates, c.state = .dispatched) →
                Staged n' ∧ n'.execution.declaredCurrentStage = true
                  ∧ ∃ c ∈ n'.execution.candidates, c.state = .dispatched := by
              rintro n n' hstep ⟨hn, hdeclared, c, hc, hstate⟩
              exact ⟨hstep.staged hn, hstep.keeps_dispatched hn hdeclared hc hstate⟩
            obtain ⟨hstaged, -, c', hc', hstate'⟩ := advanceSteps_keep hkeeps hsecond.steps
              ⟨⟨hm.barrier, hm.issued, hm.fallback⟩, declared, c, List.mem_of_getElem? hc, hstate⟩
            exact hstaged.not_consumed hc' (inFlight_of_dispatched hstate') hsecond.consumed
  · exact hactivates

/-- Where the fallback is activated, its stage is declared if and only if there
is a place for it. -/
theorem advanceOpen_fallback {limits : Limits} {core : Core} {e : EnsembleRecord}
    {x : ExecutionRecord} (hwell : WellFormed limits e.spec)
    (hstaged : (advanceStart core e x).Staged) (henrolled : Enrolled limits (planStages e x) x)
    (hcovered : Covered (advanceStart core e x)) (hbefore : x.fallbackActivated = false)
    (hafter : (advanceOpen limits core e x).1.execution.fallbackActivated = true) :
    ∃ a, ActivatesIn limits core e x a
      ∧ (StageDeclared (fallbackStage e.spec 0) a.execution
          (advanceOpen limits core e x).1.execution ↔ FallbackFits limits core e.spec x) := by
  let start : AdvanceState := { advanceStart core e x with progress := false }
  have hstart : start.Staged := ⟨hstaged.barrier, hstaged.issued, hstaged.fallback⟩
  have hfinal : (advanceOpen limits core e x).1.execution.extraStages
      = (Threaded.final (advanceLoop limits 64 (advanceStart core e x))).execution.extraStages := by
    rw [advanceOpen_eq]
    cases advanceLoop limits 64 (advanceStart core e x) with
    | ok s => exact (report_undisturbed s).keeps.extraStages
    | error stop => rfl
  have hchanged := hstaged.fallback.activated_extends (advanceOpen_staged limits hstaged).fallback
    hbefore hafter
  obtain ⟨m, hm⟩ := advanceLoop_activates hstaged rfl 63 (hfinal ▸ hchanged)
  obtain ⟨trigger, hdecision⟩ := hm.decision
  obtain ⟨hmstaged, hmenrolled, hmcovered, hmspec, hmtallied⟩ := advanceSteps_keep
    (P := fun m => Staged m ∧ Enrolled limits m.stages m.execution ∧ Covered m
      ∧ m.ensemble.spec = e.spec ∧ Tallied start m)
    (fun hstep ⟨h₁, h₂, h₃, h₄, h₅⟩ => ⟨hstep.staged h₁, hstep.enrolled h₂, hstep.covered h₃,
      hstep.spec.trans h₄, h₅.trans hstep.tallied⟩) hm.steps
    ⟨hstart, henrolled, hcovered, rfl, rfl⟩
  have ha := activateFallback_activated hmstaged hmenrolled hmcovered hm.consumed hdecision
  have hspec : m.activateFallback.ensemble.spec = e.spec :=
    (activateFallback_eq hdecision).2.1.trans hmspec
  have htallied : Tallied start m.activateFallback :=
    hmtallied.trans (@AdvanceStep.activated limits _ _ hm.consumed hdecision).tallied
  have hprogress : m.activateFallback.progress = true := by rw [activateFallback, hdecision]
  have hloop : advanceLoop limits 64 (advanceStart core e x)
      = advanceLoop limits 63 m.activateFallback := by
    rw [advanceLoop, if_pos (by rfl), hm.result]
    rfl
  refine ⟨m.activateFallback, ⟨hbefore, hm.result, ha.activated⟩, ?_⟩
  -- the rest of the advance follows the activation, and declares the stage where it can
  obtain ⟨hfollowing, hcovers⟩ : Following limits m.activateFallback
      (advanceOpen limits core e x).1
    ∧ (stagesFit limits (EnsembleFabric.memberStages e.spec) = true →
      identitiesLast core e.spec x → ∀ id ∈ e.spec.fallback.fallbackParticipants,
        ∃ c ∈ (advanceOpen limits core e x).1.execution.candidates,
          c.member = (id, (fallbackStage e.spec 0).id)) := by
    have hadvances := advanceLoop_advances limits 63 m.activateFallback
    rw [advanceOpen_eq, hloop]
    cases hrun : advanceLoop limits 63 m.activateFallback with
    | ok s =>
      rw [hrun] at hadvances
      have hs := Following.steps ha hadvances
      have hdone : s.execution.declaredCurrentStage = true ∨ s.Consumed := by
        cases advanceLoop_rests ha.staged hprogress 61 hrun with
        | waiting _ declared => exact .inl declared
        | decided consumed => exact .inr consumed
      have hall := hs.covers ha (hspec ▸ hwell) hdone
      rw [hspec] at hall
      exact ⟨hs.undisturbed (report_undisturbed s),
        fun _ _ id hid => exists_member (report_undisturbed s).places (hall id hid)⟩
    | error stop =>
      rw [hrun] at hadvances
      obtain ⟨n, hsteps, hstop⟩ := hadvances
      have hn := Following.steps ha hsteps
      have hntallied : Tallied start n := htallied.trans hn.declares.tallied
      refine ⟨hn.stop ha hstop, fun hfit hids => ?_⟩
      have hall := hn.stop_covers ha (hspec ▸ hwell) hstop (hspec ▸ hfit)
        (hspec ▸ hntallied.identitiesLast hids)
      rw [hspec] at hall
      exact hall
  have hdeclared := hfollowing.declared_iff ha
  have hfits := hfollowing.fits ha
  have hstallied : Tallied start (advanceOpen limits core e x).1 :=
    htallied.trans hfollowing.declares.tallied
  rw [hspec] at hdeclared hfits
  rw [hdeclared]
  constructor
  · intro hall
    obtain ⟨hfit, hlength⟩ := hfits fun id hid => (hall id hid).1
    refine ⟨fun stage hstage hid id hmember hlisted => ?_, hfit, ?_⟩
    · exact (hall id hmember).2 (mem_stageMembers.mpr ⟨stage, hstage, hlisted, hid.symm⟩)
    · have hbelow := core.candidateIds.next.toNat_lt
      have hbelow' := (advanceOpen limits core e x).1.core.candidateIds.next.toNat_lt
      have hlast : lastWord.toNat = 2 ^ 64 - 1 := rfl
      unfold identitiesLast
      change (advanceOpen limits core e x).1.core.candidateIds.next.toNat + x.candidates.length
        = core.candidateIds.next.toNat
          + (advanceOpen limits core e x).1.execution.candidates.length at hstallied
      omega
  · intro hplace id hid
    refine ⟨hcovers hplace.room hplace.identities id hid, fun hmember => ?_⟩
    obtain ⟨stage, hstage, hlisted, hnamed⟩ := mem_stageMembers.mp hmember
    exact hplace.apart stage hstage hnamed.symm id hid hlisted

end AdvanceState

/-! ## Runs -/

open AdvanceState

/-- The members of a declared stage have their candidates, in every open
execution. -/
theorem reachable_covered (config : FabricConfig) (events : List Event) {id : EnsembleId}
    {e : EnsembleRecord} {x : ExecutionRecord}
    (he : ((System.initial config).run events).fabric.find id = some e)
    (hx : e.execution = some x) (hopen : x.status = .opened) (core : Core) :
    (advanceStart core e x).Covered := by
  refine reachable_open
    (P := fun e x => ∀ core, (advanceStart core e x).Covered) ?_ ?_ ?_ events he hx hopen core
  · intro e next epoch _ core hdeclared
    cases hdeclared
  · intro e e' x x' hspec hkeeps h core
    exact (h core).undisturbed ⟨hspec, rfl, hkeeps⟩
  · intro core e x _ h core'
    have hends := advanceOpen_ends config.limits core e x
    generalize advanceOpen config.limits core e x = out at hends ⊢
    cases hends with
    | @settled s steps =>
      have hsettled : s.report.Covered :=
        (advanceSteps_keep AdvanceStep.covered steps (h core)).undisturbed (report_undisturbed s)
      exact fun hdeclared => hsettled hdeclared
    | @stopped m error s steps stop =>
      have hstopped : s.Covered :=
        stop.covered (advanceSteps_keep AdvanceStep.covered steps (h core))
      exact fun hdeclared => hstopped hdeclared

/-- From here on, the stage is passed only with all its candidates resolved. -/
def StageAwaited (stage : StageSpec) (s : System) (id : EnsembleId) : Prop :=
  ∀ more e x, (s.run more).fabric.find id = some e → e.execution = some x → x.status = .opened →
    ∀ i, (planStages e x)[i]? = some stage → i < x.stageIndex →
      ∀ c ∈ x.candidates, stage.Asks c → c.inFlight = false

theorem reachable_awaited (config : FabricConfig) (events : List Event) (stage : StageSpec)
    (id : EnsembleId) : StageAwaited stage ((System.initial config).run events) id := by
  intro more e x he hx hopen i hstage hi c hc hasks
  rw [System.run, System.run, ← EventSystem.run_append] at he
  exact (stages_in_order config (events ++ more) id e x he hx hopen).earlier i stage hi hstage c hc
    hasks

/-- An advance that activates fallback works on an open execution. -/
theorem next_activates {s : System} {id : EnsembleId} {generation : EnsembleGeneration}
    {e e' : EnsembleRecord} {x x' : ExecutionRecord} (he : s.fabric.find id = some e)
    (hx : e.execution = some x)
    (he' : (s.next (.advance id generation)).fabric.find id = some e')
    (hx' : e'.execution = some x') (hbefore : x.fallbackActivated = false)
    (hafter : x'.fallbackActivated = true) :
    x.status = .opened
      ∧ x' = (advanceOpen s.fabric.config.limits s.fabric.core e x).1.execution := by
  change (advance s.fabric id generation).1.find id = some e' at he'
  have hstored : ∀ {core y} {stored : EnsembleRecord},
      ({ s.fabric with core }.store id (stored.holding y)).find id = some e' → x' = y := by
    intro core y stored hafter'
    rw [Fabric.find_store_self] at hafter'
    obtain rfl := Option.some.inj hafter'
    exact (Option.some.inj hx').symm
  have hanswers := advance_answers s.fabric id generation
  generalize advance s.fabric id generation = out at hanswers he'
  cases hanswers with
  | refused | idle =>
    obtain rfl := Option.some.inj (he.symm.trans he')
    obtain rfl := Option.some.inj (hx.symm.trans hx')
    rw [hbefore] at hafter
    cases hafter
  | withdrawn find _ execution | closed find _ execution =>
    obtain rfl := Option.some.inj (he.symm.trans find)
    obtain rfl := Option.some.inj (hx.symm.trans execution)
    rw [hstored he'] at hafter
    exact absurd (hbefore.symm.trans hafter) Bool.false_ne_true
  | worked find _ execution opened =>
    obtain rfl := Option.some.inj (he.symm.trans find)
    obtain rfl := Option.some.inj (hx.symm.trans execution)
    exact ⟨opened, hstored he'⟩

/-- An advance that activates fallback gives each fallback participant one new
candidate and waits for them, if and only if there is a place for the fallback
stage. -/
theorem fallback_runs_iff (config : FabricConfig) (events : List Event) (id : EnsembleId)
    (generation : EnsembleGeneration) (e e' : EnsembleRecord) (x x' : ExecutionRecord)
    (he : ((System.initial config).run events).fabric.find id = some e)
    (hx : e.execution = some x)
    (he' : (((System.initial config).run events).next (.advance id generation)).fabric.find id
      = some e')
    (hx' : e'.execution = some x') (hbefore : x.fallbackActivated = false)
    (hafter : x'.fallbackActivated = true) :
    let s := (System.initial config).run events
    ∃ a, ActivatesIn config.limits s.fabric.core e x a
      ∧ (StageDeclared (fallbackStage e.spec 0) a.execution x'
            ∧ StageAwaited (fallbackStage e.spec 0) (s.next (.advance id generation)) id
          ↔ FallbackFits config.limits s.fabric.core e.spec x) := by
  intro s
  obtain ⟨hopen, rfl⟩ := next_activates he hx he' hx' hbefore hafter
  have hconfig : s.fabric.config = config := (reachable_named config events).1
  rw [hconfig] at hafter ⊢
  obtain ⟨a, hactivates, hdeclared⟩ := advanceOpen_fallback
    (reachable_specInUse config events id e he).admitted.wellFormed
    (reachable_staged config events he hx hopen) (reachable_enrolled config events he hx hopen)
    (reachable_covered config events he hx hopen _) hbefore hafter
  have hawaited : StageAwaited (fallbackStage e.spec 0) (s.next (.advance id generation)) id := by
    have hrun := reachable_awaited config (events ++ [.advance id generation])
      (fallbackStage e.spec 0) id
    rwa [System.run, EventSystem.run_append] at hrun
  exact ⟨a, hactivates, by rw [← hdeclared, and_iff_left hawaited]⟩

instance (core : Core) (spec : EnsembleSpec) (x : ExecutionRecord) :
    Decidable (identitiesLast core spec x) :=
  inferInstanceAs (Decidable (_ ≤ _))

namespace Sample

/-- A stage under the identity of the fallback stage, with the fallback
participant in it. -/
def collidingSpec : EnsembleSpec :=
  { fallbackSpec with
    stages := [{ id := ⟨1001⟩, participants := [⟨1⟩, ⟨2⟩] }] }

/-- Both candidates of the stage are lost. -/
def stageLost : List Event :=
  start collidingSpec ++ [.reportParticipantFailure (authority 1) .transportError "lost",
    .reportParticipantFailure (authority 2) .transportError "lost"]

end Sample

/-- The primary candidate is lost, and the fallback has a place. -/
theorem primaryLost_fallback_runs :
    let s := Sample.reached Sample.primaryLost
    ∃ e e' x x' a, s.fabric.find ⟨1⟩ = some e ∧ e.execution = some x
      ∧ (s.next Sample.advance).fabric.find ⟨1⟩ = some e' ∧ e'.execution = some x'
      ∧ ActivatesIn {} s.fabric.core e x a
      ∧ StageDeclared (fallbackStage e.spec 0) a.execution x'
      ∧ StageAwaited (fallbackStage e.spec 0) (s.next Sample.advance) ⟨1⟩ := by
  intro s
  have hrun : (s.fabric.find ⟨1⟩).any (fun e => e.execution.any fun x =>
      !x.fallbackActivated && e.spec.effectiveStages.all (·.id != ⟨1001⟩)
        && stagesFit {} (memberStages e.spec) && decide (identitiesLast s.fabric.core e.spec x)
        && ((s.next Sample.advance).fabric.find ⟨1⟩).any fun e' =>
          e'.execution.any (·.fallbackActivated)) = true := by decide +kernel
  simp only [Option.any_eq_true, Bool.and_eq_true, Bool.not_eq_true', decide_eq_true_eq,
    List.all_eq_true, bne_iff_ne] at hrun
  obtain ⟨e, he, x, hx, ⟨⟨⟨hbefore, hstages⟩, hroom⟩, hids⟩, e', he', x', hx', hafter⟩ := hrun
  obtain ⟨a, hactivates, hiff⟩ := fallback_runs_iff {} Sample.primaryLost ⟨1⟩ ⟨1⟩ e e' x x' he hx
    he' hx' hbefore hafter
  obtain ⟨hdeclared, hawaited⟩ := hiff.mpr
    ⟨fun stage hstage hid => absurd hid (hstages stage hstage), hroom, hids⟩
  exact ⟨e, e', x, x', a, he, hx, he', hx', hactivates, hdeclared, hawaited⟩

/-- A declared stage under the identity of the fallback stage: validation
accepts it, and the activated fallback gets no candidate. -/
theorem collidingSpec_fallback_skipped :
    let s := Sample.reached Sample.stageLost
    validateSpec Sample.collidingSpec {} = .ok ()
      ∧ ∃ e e' x x' a, s.fabric.find ⟨1⟩ = some e ∧ e.execution = some x
        ∧ (s.next Sample.advance).fabric.find ⟨1⟩ = some e' ∧ e'.execution = some x'
        ∧ ActivatesIn {} s.fabric.core e x a
        ∧ x'.candidates.map (fun c => (c.participant, c.state, c.fallback))
          = [(⟨1⟩, .failed, false), (⟨2⟩, .failed, false)]
        ∧ ¬ StageDeclared (fallbackStage e.spec 0) a.execution x' := by
  intro s
  have hrun : (s.fabric.find ⟨1⟩).any (fun e => e.execution.any fun x =>
      !x.fallbackActivated && e.spec.effectiveStages.any (fun stage =>
          stage.id == ⟨1001⟩ && stage.participants.contains ⟨2⟩)
        && e.spec.fallback.fallbackParticipants.contains ⟨2⟩
        && ((s.next Sample.advance).fabric.find ⟨1⟩).any fun e' =>
          e'.execution.any fun x' => x'.fallbackActivated
            && x'.candidates.map (fun c => (c.participant, c.state, c.fallback))
              == [(⟨1⟩, .failed, false), (⟨2⟩, .failed, false)]) = true := by decide +kernel
  simp only [Option.any_eq_true, Bool.and_eq_true, Bool.not_eq_true', List.any_eq_true,
    beq_iff_eq, List.contains_iff_mem] at hrun
  obtain ⟨e, he, x, hx, ⟨⟨hbefore, stage, hstage, hid, hmember⟩, hlisted⟩, e', he', x', hx',
    hafter, hcandidates⟩ := hrun
  obtain ⟨hopen, rfl⟩ := next_activates he hx he' hx' hbefore hafter
  obtain ⟨a, hactivates, hdeclared⟩ := advanceOpen_fallback
    (reachable_specInUse {} Sample.stageLost ⟨1⟩ e he).admitted.wellFormed
    (reachable_staged {} Sample.stageLost he hx hopen)
    (reachable_enrolled {} Sample.stageLost he hx hopen)
    (reachable_covered {} Sample.stageLost he hx hopen _) hbefore hafter
  refine ⟨by decide +kernel, e, e', x, _, a, he, hx, he', hx', hactivates, hcandidates, fun h => ?_⟩
  exact (hdeclared.mp h).apart stage hstage hid ⟨2⟩ hlisted hmember

end EnsembleFabric
