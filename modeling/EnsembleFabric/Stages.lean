import EnsembleFabric.Steps
import EnsembleFabric.Validation
import EnsembleFabric.Working

/-!
# The stage barrier

Work is handed out stage by stage. Every candidate in flight is one the
current stage asks for, so the candidates of earlier stages are resolved;
in a sequential stage, work is handed out in the order of the identities,
one candidate at a time.

`Barrier` is the invariant behind it: the stages passed are complete and
stay so, since nothing but `advance` takes a candidate into flight. It is
kept by every step of an advance and by every other change of an open
execution, so retries, losses and replacements need no argument of their
own. A fallback stage is appended when all stages are passed.

The stage plan of an execution is `planStages`, the declared stages and the
fallback stages behind them; `FallbackUse` says that there is one of these at
most, and only where fallback was activated. `Staged` is the state of an
advance at a place of this plan the barrier allows, and `AdvanceStep.staged`
carries it over every step. A run is then an instance of the rule for open
executions, and `stages_in_order` reads the order off the invariant.
-/

namespace EnsembleFabric

open List (Forall₂)
open EventSystem
open AdvanceState (fallbackStage stageComplete)

/-! ## The invariant -/

/-- The stages of an execution, fallback stages last. -/
def planStages (e : EnsembleRecord) (x : ExecutionRecord) : List StageSpec :=
  e.spec.effectiveStages ++ x.extraStages

/-- The candidate is one the stage asks for. -/
structure StageSpec.Asks (stage : StageSpec) (c : CandidateRecord) : Prop where
  named : c.stage = stage.id
  member : c.participant ∈ stage.participants

structure Barrier (stages : List StageSpec) (x : ExecutionRecord) : Prop where
  ordered : (x.candidates.map (·.id.value)).Pairwise (· < ·)
  within : x.stageIndex ≤ stages.length
  passed : ∀ i stage, i < x.stageIndex → stages[i]? = some stage → stageComplete stage x = true
  current : ∀ c ∈ x.candidates, c.inFlight = true → ∃ stage,
    stages[x.stageIndex]? = some stage ∧ stage.Asks c ∧ c.fallback = stage.fallbackStage
  exclusive : ∀ stage, stages[x.stageIndex]? = some stage → stage.mode = .sequential →
    ∀ c ∈ x.candidates, ∀ d ∈ x.candidates, c.state = .dispatched → d.inFlight = true →
      c.id.value ≤ d.id.value

/-- An execution uses fallback once, as one stage behind all others. -/
inductive FallbackUse (spec : EnsembleSpec) (x : ExecutionRecord) : Prop
  | unused (activated : x.fallbackActivated = false) (stages : x.extraStages = [])
      (depth : x.fallbackDepth = 0)
  | used (enabled : spec.fallback.enabled = true) (activated : x.fallbackActivated = true)
      (stages : x.extraStages = [fallbackStage spec 0]) (depth : x.fallbackDepth = 1)

/-! ### Complete stages -/

theorem stageComplete_iff {stage : StageSpec} {x : ExecutionRecord} :
    stageComplete stage x = true ↔ ∀ id ∈ stage.participants,
      (∃ c ∈ x.candidates, c.participant = id ∧ c.stage = stage.id)
        ∧ ∀ c ∈ x.candidates, c.participant = id → c.stage = stage.id → c.inFlight = false := by
  simp only [stageComplete, List.all_eq_true, Bool.and_eq_true, Bool.not_eq_true',
    List.isEmpty_eq_false_iff_exists_mem, List.mem_filter, beq_iff_eq]
  refine forall₂_congr fun id _ => and_congr Iff.rfl ⟨?_, ?_⟩
  · exact fun h c hc hparticipant hstage => h c ⟨hc, hparticipant, hstage⟩
  · exact fun h c hc => h c hc.1 hc.2.1 hc.2.2

/-- A complete stage asks for no candidate in flight. -/
theorem StageSpec.Asks.resolved {stage : StageSpec} {x : ExecutionRecord} {c : CandidateRecord}
    (h : stage.Asks c) (hcomplete : stageComplete stage x = true) (hc : c ∈ x.candidates) :
    c.inFlight = false :=
  (stageComplete_iff.mp hcomplete c.participant h.member).2 c hc rfl h.named

theorem stageComplete_settles {stage : StageSpec} {x x' : ExecutionRecord}
    (h : Forall₂ Settles x.candidates x'.candidates) (hcomplete : stageComplete stage x = true) :
    stageComplete stage x' = true := by
  rw [stageComplete_iff] at hcomplete ⊢
  intro id hid
  obtain ⟨⟨c, hc, hparticipant, hstage⟩, hresolved⟩ := hcomplete id hid
  constructor
  · obtain ⟨c', hc', hsettles⟩ := Slots.exists_right h hc
    exact ⟨c', hc', hsettles.participant.trans hparticipant, hsettles.stage.trans hstage⟩
  · intro c' hc' hparticipant' hstage'
    obtain ⟨d, hd, hsettles⟩ := Slots.exists_left h hc'
    have hd' := hresolved d hd (hsettles.participant ▸ hparticipant') (hsettles.stage ▸ hstage')
    by_contra hflight
    rw [hsettles.inFlight (by simpa using hflight)] at hd'
    cases hd'

/-- Candidates for members that have none leave complete stages complete. -/
theorem stageComplete_append {stage other : StageSpec} {x : ExecutionRecord}
    {c : CandidateRecord} (hcomplete : stageComplete stage x = true)
    (hstage : c.stage = other.id)
    (hmissing : ∀ d ∈ x.candidates, d.participant = c.participant → d.stage ≠ other.id) :
    stageComplete stage { x with candidates := x.candidates ++ [c] } = true := by
  rw [stageComplete_iff] at hcomplete ⊢
  intro id hid
  obtain ⟨⟨d, hd, hparticipant, hd'⟩, hresolved⟩ := hcomplete id hid
  refine ⟨⟨d, List.mem_append_left _ hd, hparticipant, hd'⟩, fun c' hc' hp' hs' => ?_⟩
  rcases List.mem_append.mp hc' with hold | hnew
  · exact hresolved c' hold hp' hs'
  · obtain rfl := List.mem_singleton.mp hnew
    exact absurd (hd'.trans (hs'.symm.trans hstage)) (hmissing d hd (hparticipant.trans hp'.symm))

/-! ### What keeps it -/

namespace Barrier

variable {stages : List StageSpec} {x x' : ExecutionRecord}

theorem distinct (h : Barrier stages x) : (x.candidates.map (·.id)).Nodup := by
  rw [List.nodup_iff_pairwise_ne, List.pairwise_map]
  exact (List.pairwise_map.mp h.ordered).imp fun hlt heq =>
    UInt64.ne_of_lt hlt (congrArg StrongId.value heq)

theorem settles (h : Barrier stages x) (hindex : x'.stageIndex = x.stageIndex)
    (hcandidates : Forall₂ Settles x.candidates x'.candidates) : Barrier stages x' := by
  constructor
  · have hids : x'.candidates.map (·.id.value) = x.candidates.map (·.id.value) :=
      Slots.map_key (fun hsettles => congrArg StrongId.value hsettles.id) hcandidates
    rw [hids]
    exact h.ordered
  · rw [hindex]
    exact h.within
  · rw [hindex]
    exact fun i stage hi hstage => stageComplete_settles hcandidates (h.passed i stage hi hstage)
  · rw [hindex]
    intro c' hc' hflight
    obtain ⟨c, hc, hsettles⟩ := Slots.exists_left hcandidates hc'
    obtain ⟨stage, hstage, hasks, hfallback⟩ := h.current c hc (hsettles.inFlight hflight)
    exact ⟨stage, hstage, ⟨hsettles.stage.trans hasks.named,
      by rw [hsettles.participant]; exact hasks.member⟩, hsettles.fallback.trans hfallback⟩
  · rw [hindex]
    intro stage hstage hmode c' hc' d' hd' hdispatched hflight
    obtain ⟨c, hc, hsettles⟩ := Slots.exists_left hcandidates hc'
    obtain ⟨d, hd, hsettles'⟩ := Slots.exists_left hcandidates hd'
    rw [hsettles.id, hsettles'.id]
    exact h.exclusive stage hstage hmode c hc d hd (hsettles.dispatched hdispatched)
      (hsettles'.inFlight hflight)

/-- Declaring a candidate the current stage asks for and does not have. -/
theorem declares (h : Barrier stages x) {stage : StageSpec} {c : CandidateRecord}
    (hstage : stages[x.stageIndex]? = some stage) (hasks : stage.Asks c)
    (hfallback : c.fallback = stage.fallbackStage) (hstate : c.state ≠ .dispatched)
    (hmissing : ∀ d ∈ x.candidates, d.participant = c.participant → d.stage ≠ stage.id)
    (hlast : ∀ d ∈ x.candidates, d.id.value < c.id.value) :
    Barrier stages { x with candidates := x.candidates ++ [c] } := by
  constructor
  · simp only [List.map_append, List.map_cons, List.map_nil]
    refine List.pairwise_append.mpr ⟨h.ordered, List.pairwise_singleton _ _, fun a ha b hb => ?_⟩
    obtain ⟨d, hd, rfl⟩ := List.mem_map.mp ha
    obtain rfl := List.mem_singleton.mp hb
    exact hlast d hd
  · exact h.within
  · exact fun i passed hi hpassed => stageComplete_append (h.passed i passed hi hpassed)
      hasks.named hmissing
  · intro d hd hflight
    rcases List.mem_append.mp hd with hd | hd
    · exact h.current d hd hflight
    · obtain rfl := List.mem_singleton.mp hd
      exact ⟨stage, hstage, hasks, hfallback⟩
  · intro current hcurrent hmode d hd d' hd' hdispatched hflight
    rcases List.mem_append.mp hd with hold | hnew
    · rcases List.mem_append.mp hd' with hold' | hnew'
      · exact h.exclusive current hcurrent hmode d hold d' hold' hdispatched hflight
      · obtain rfl := List.mem_singleton.mp hnew'
        exact UInt64.le_of_lt (hlast d hold)
    · obtain rfl := List.mem_singleton.mp hnew
      exact absurd hdispatched hstate

/-- Dispatching a declared candidate, in a sequential stage only the first
one in flight. -/
theorem dispatches (h : Barrier stages x) {stage : StageSpec} {index : Nat}
    {c c' : CandidateRecord} (hstage : stages[x.stageIndex]? = some stage)
    (hc : x.candidates[index]? = some c) (hstate : c.state = .declared) (hid : c'.id = c.id)
    (hplace : c'.stage = c.stage ∧ c'.participant = c.participant ∧ c'.fallback = c.fallback)
    (halone : stage.mode = .sequential → ∀ d ∈ x.candidates, d.inFlight = true →
      c.id.value ≤ d.id.value) :
    Barrier stages { x with candidates := x.candidates.set index c' } := by
  have hflight : c.inFlight = true := by simp [CandidateRecord.inFlight, hstate]
  -- every slot is what it was, the one at the position possibly dispatched
  have hslots : Forall₂ (fun d d' : CandidateRecord => d'.id = d.id ∧ d'.stage = d.stage
      ∧ d'.participant = d.participant ∧ d'.fallback = d.fallback
      ∧ (d'.inFlight = true → d.inFlight = true)
      ∧ (d'.state = .dispatched → d.state = .dispatched ∨ d = c))
      x.candidates (x.candidates.set index c') :=
    Slots.forall₂_set (fun d => ⟨rfl, rfl, rfl, rfl, fun h => h, .inl⟩) hc
      ⟨hid, hplace.1, hplace.2.1, hplace.2.2, fun _ => hflight, fun _ => .inr rfl⟩
  constructor
  · have hids : (x.candidates.set index c').map (·.id.value) = x.candidates.map (·.id.value) :=
      Slots.map_key_set hc (congrArg _ hid)
    simpa only [hids] using h.ordered
  · exact h.within
  · intro i passed hi hpassed
    have hcomplete := h.passed i passed hi hpassed
    rw [stageComplete_iff] at hcomplete ⊢
    intro id hid'
    obtain ⟨⟨d, hd, hparticipant, hd'⟩, hresolved⟩ := hcomplete id hid'
    constructor
    · obtain ⟨d', hd'', -, hs, hp, -⟩ := Slots.exists_right hslots hd
      exact ⟨d', hd'', hp.trans hparticipant, hs.trans hd'⟩
    · intro d' hd'' hp' hs'
      obtain ⟨e, he, -, hs, hp, -, hfl, -⟩ := Slots.exists_left hslots hd''
      have hres := hresolved e he (hp ▸ hp') (hs ▸ hs')
      by_contra hflight'
      rw [hfl (by simpa using hflight')] at hres
      cases hres
  · intro d' hd' hflight'
    obtain ⟨d, hd, -, hs, hp, hf, hfl, -⟩ := Slots.exists_left hslots hd'
    obtain ⟨current, hcurrent, hasks, hfallback⟩ := h.current d hd (hfl hflight')
    exact ⟨current, hcurrent, ⟨hs.trans hasks.named, by rw [hp]; exact hasks.member⟩,
      hf.trans hfallback⟩
  · intro current hcurrent hmode d hd d' hd' hdispatched hflight'
    obtain rfl := Option.some.inj (hstage.symm.trans hcurrent)
    obtain ⟨a, ha, hida, -, -, -, -, hwas⟩ := Slots.exists_left hslots hd
    obtain ⟨b, hb, hidb, -, -, -, hfl, -⟩ := Slots.exists_left hslots hd'
    rw [hida, hidb]
    rcases hwas hdispatched with hold | rfl
    · exact h.exclusive stage hstage hmode a ha b hb hold (hfl hflight')
    · exact halone hmode b hb (hfl hflight')

/-- Where the current stage is complete, nothing is in flight. -/
theorem resolved (h : Barrier stages x)
    (hdone : ∀ stage, stages[x.stageIndex]? = some stage → stageComplete stage x = true) :
    ∀ c ∈ x.candidates, c.inFlight = false := by
  intro c hc
  by_contra hflight
  obtain ⟨stage, hstage, hasks, -⟩ := h.current c hc (by simpa using hflight)
  exact hflight (hasks.resolved (hdone stage hstage) hc)

/-- The next stage is due. -/
theorem completes (h : Barrier stages x) {stage : StageSpec}
    (hstage : stages[x.stageIndex]? = some stage) (hcomplete : stageComplete stage x = true) :
    Barrier stages
      { x with stageIndex := x.stageIndex + 1, declaredCurrentStage := false } := by
  have hresolved := h.resolved fun stage' hstage' => by
    obtain rfl := Option.some.inj (hstage.symm.trans hstage')
    exact hcomplete
  refine ⟨h.ordered, ?_, fun i passed hi hpassed => ?_, fun c hc hflight => ?_,
    fun _ _ _ _ _ d hd _ hflight => ?_⟩
  · exact (List.getElem?_eq_some_iff.mp hstage).1
  · rcases Nat.lt_succ_iff_lt_or_eq.mp hi with hlt | rfl
    · exact h.passed i passed hlt hpassed
    · obtain rfl := Option.some.inj (hstage.symm.trans hpassed)
      exact hcomplete
  · rw [hresolved c hc] at hflight
    cases hflight
  · rw [hresolved d hd] at hflight
    cases hflight

/-- A stage behind the ones that are passed. -/
theorem appends (h : Barrier stages x) (hconsumed : stages.length ≤ x.stageIndex)
    (stage : StageSpec) (hindex : x'.stageIndex = x.stageIndex)
    (hcandidates : x'.candidates = x.candidates) : Barrier (stages ++ [stage]) x' := by
  have hnone : stages[x.stageIndex]? = none := List.getElem?_eq_none hconsumed
  have hresolved := h.resolved fun stage' hstage' => by
    rw [hnone] at hstage'
    cases hstage'
  refine ⟨by rw [hcandidates]; exact h.ordered, ?_, fun i passed hi hpassed => ?_,
    fun c hc hflight => ?_, fun _ _ _ _ _ d hd _ hflight => ?_⟩
  · rw [hindex, List.length_append]
    exact Nat.le_trans h.within (Nat.le_add_right _ _)
  · rw [hindex] at hi
    rw [List.getElem?_append_left (Nat.lt_of_lt_of_le hi h.within)] at hpassed
    have hpassed := h.passed i passed hi hpassed
    rw [stageComplete_iff] at hpassed ⊢
    rwa [hcandidates]
  · rw [hresolved c (hcandidates ▸ hc)] at hflight
    cases hflight
  · rw [hresolved d (hcandidates ▸ hd)] at hflight
    cases hflight

end Barrier

theorem FallbackUse.of_keeps {spec : EnsembleSpec} {x x' : ExecutionRecord}
    (h : FallbackUse spec x) (hkeeps : KeepsStages x x') : FallbackUse spec x' := by
  cases h with
  | unused activated stages depth =>
    exact .unused (hkeeps.fallbackActivated.trans activated) (hkeeps.extraStages.trans stages)
      (hkeeps.fallbackDepth.trans depth)
  | used enabled activated stages depth =>
    exact .used enabled (hkeeps.fallbackActivated.trans activated)
      (hkeeps.extraStages.trans stages) (hkeeps.fallbackDepth.trans depth)

/-! ## One step of an advance -/

@[simp] theorem nextSequence_candidateIds (k : Core) :
    k.nextSequence.2.candidateIds = k.candidateIds := by
  unfold Core.nextSequence
  split <;> rfl

namespace AdvanceState

/-- The state of an advance is at a place of the stage plan the barrier
allows. -/
structure Staged (s : AdvanceState) : Prop where
  barrier : Barrier s.stages s.execution
  issued : Issued (s.execution.candidates.map (·.id)) s.core.candidateIds
  fallback : FallbackUse s.ensemble.spec s.execution

/-- Nothing is declared, dispatched or completed. -/
structure Undisturbed (s s' : AdvanceState) : Prop where
  spec : s'.ensemble.spec = s.ensemble.spec
  candidateIds : s'.core.candidateIds = s.core.candidateIds
  keeps : KeepsStages s.execution s'.execution

theorem Undisturbed.refl (s : AdvanceState) : Undisturbed s s := ⟨rfl, rfl, .refl _⟩

theorem Undisturbed.trans {a b c : AdvanceState} (h : Undisturbed a b) (h' : Undisturbed b c) :
    Undisturbed a c :=
  ⟨h'.spec.trans h.spec, h'.candidateIds.trans h.candidateIds, h.keeps.trans h'.keeps⟩

theorem Staged.undisturbed {s s' : AdvanceState} (h : Staged s) (hsame : Undisturbed s s') :
    Staged s' := by
  have hstages : s'.stages = s.stages := by
    rw [AdvanceState.stages, AdvanceState.stages, hsame.spec, hsame.keeps.extraStages]
  refine ⟨?_, ?_, ?_⟩
  · rw [hstages]
    exact h.barrier.settles hsame.keeps.stageIndex hsame.keeps.candidates
  · have hids : s'.execution.candidates.map (·.id) = s.execution.candidates.map (·.id) :=
      Slots.map_key (fun hsettles => hsettles.id) hsame.keeps.candidates
    rw [hids, hsame.candidateIds]
    exact h.issued
  · rw [hsame.spec]
    exact h.fallback.of_keeps hsame.keeps

/-! ### The parts that hand out nothing -/

theorem adopt_undisturbed {s : AdvanceState} {stage : StageSpec} {index : Nat}
    {c : CandidateRecord} {p : ParticipantRecord} (h : DispatchTarget stage s index c p) :
    Undisturbed s (s.adopt index c p) :=
  ⟨rfl, rfl, keepsStages_set h.at_ (.kept rfl rfl rfl rfl rfl)⟩

theorem strand_undisturbed {s : AdvanceState} {stage : StageSpec} {index : Nat}
    {c : CandidateRecord} {p : ParticipantRecord} (h : DispatchTarget stage s index c p) :
    Undisturbed s ((s.adopt index c p).strand index (adoptedCandidate c p) p) := by
  refine (adopt_undisturbed h).trans ⟨rfl, rfl, ?_⟩
  exact failCandidate_keeps (e := (s.adopt index c p).ensemble) _ _ (setCandidate_get h.at_ _)
    (by simp [CandidateRecord.inFlight, adoptedCandidate, h.state])

theorem reopenPlanning_undisturbed (s : AdvanceState) : Undisturbed s s.reopenPlanning := by
  unfold reopenPlanning
  split
  · exact ⟨rfl, rfl, .of_fields rfl rfl rfl rfl rfl rfl rfl⟩
  · exact .refl s

theorem planOne_undisturbed (s : AdvanceState) (t : PlanTarget) :
    Undisturbed s (Threaded.final (planOne s t)) := by
  unfold planOne
  split
  · exact .refl s
  · exact ⟨rfl, rfl, .of_fields rfl rfl rfl rfl rfl rfl rfl⟩

theorem planEvaluations_undisturbed (s : AdvanceState) :
    Undisturbed s (Threaded.final (planEvaluations s)) := by
  unfold planEvaluations
  split
  · exact .refl s
  · refine Threaded.final_bind (R := Undisturbed) Undisturbed.trans ?_
      fun m _ => ⟨rfl, rfl, KeepsStages.refl m.execution⟩
    have hmark : Undisturbed s
        { s with execution := { s.execution with planningComplete := true } } :=
      ⟨rfl, rfl, .of_fields rfl rfl rfl rfl rfl rfl rfl⟩
    exact hmark.trans (Threaded.final_foldlM (R := Undisturbed) Undisturbed.refl
      Undisturbed.trans (fun m t _ => planOne_undisturbed m t) _)

theorem emitOne_undisturbed (s : AdvanceState) (index : Nat) : Undisturbed s (s.emitOne index) := by
  have hpending : ∀ p progress, Undisturbed s { s.setPending index p with progress } :=
    fun p progress => ⟨rfl, rfl, .of_fields rfl rfl rfl rfl rfl rfl rfl⟩
  unfold emitOne
  split
  · exact .refl s
  · split
    · exact .refl s
    · split
      · exact hpending _ _
      · split
        · exact hpending _ _
        · split
          · split
            · exact .refl s
            · exact hpending _ _
          · split
            · exact hpending _ _
            · exact ⟨rfl, nextSequence_candidateIds s.core, .of_fields rfl rfl rfl rfl rfl rfl rfl⟩

theorem report_undisturbed (s : AdvanceState) : Undisturbed s s.report := by
  refine ⟨rfl, rfl, rfl, rfl, rfl, rfl, rfl, rfl, Slots.forall₂_map fun c _ => ?_⟩
  rw [markElimination_eq _ c]
  exact .kept rfl rfl rfl rfl rfl

/-! ### Declaring and dispatching -/

/-- The member is declared for the current stage. -/
theorem declareMember_staged {limits : Limits} {stage : StageSpec} {s : AdvanceState}
    {id : ParticipantId} (h : Staged s) (hcurrent : s.currentStage = some stage)
    (hmember : id ∈ stage.participants) :
    Staged (Threaded.final (declareMember limits stage s id))
      ∧ (Threaded.final (declareMember limits stage s id)).currentStage = some stage := by
  unfold declareMember
  split
  · exact ⟨h, hcurrent⟩
  · split
    · exact ⟨h, hcurrent⟩
    · rename_i hmissing
      split
      · exact ⟨h, hcurrent⟩
      · split
        · exact ⟨h, hcurrent⟩
        · rename_i declaration _ _ _ candidateId ids hids
          obtain ⟨hvalue, -⟩ := IdAllocator.allocate_spec hids
          refine ⟨⟨?_, ?_, ?_⟩, hcurrent⟩
          · refine h.barrier.declares hcurrent ⟨rfl, hmember⟩ rfl (by simp [declaredCandidate])
              (fun d hd hparticipant hstage => ?_) fun d hd => ?_
            · exact hmissing (List.any_eq_true.mpr ⟨d, hd, by
                simp only [Bool.and_eq_true, beq_iff_eq]
                exact ⟨hparticipant, hstage⟩⟩)
            · have hbelow := h.issued.below d.id (List.mem_map_of_mem hd)
              rw [UInt64.lt_iff_toNat_lt, show (declaredCandidate s.ensemble stage declaration id
                candidateId).id.value = _ from hvalue]
              exact hbelow
          · have hstep : IdsStep (s.execution.candidates.map (·.id)) s.core.candidateIds
                ((s.execution.candidates ++ [declaredCandidate s.ensemble stage declaration id
                  candidateId]).map (·.id)) ids := .added hids (by simp [declaredCandidate])
            exact hstep.issued h.issued
          · cases h.fallback with
            | unused activated stages depth => exact .unused activated stages depth
            | used enabled activated stages depth => exact .used enabled activated stages depth

theorem declareMembers_staged (limits : Limits) {stage : StageSpec} {s : AdvanceState}
    (h : Staged s) (hcurrent : s.currentStage = some stage) :
    Staged (Threaded.final (stage.participants.foldlM (declareMember limits stage) s)) := by
  have hfold : (Staged s ∧ s.currentStage = some stage) →
      Staged (Threaded.final (stage.participants.foldlM (declareMember limits stage) s))
        ∧ (Threaded.final (stage.participants.foldlM (declareMember limits stage) s)).currentStage
          = some stage :=
    Threaded.final_foldlM
      (R := fun a b => Staged a ∧ a.currentStage = some stage →
        Staged b ∧ b.currentStage = some stage)
      (fun _ ha => ha) (fun hab hbc ha => hbc (hab ha))
      (fun m id hid hm => declareMember_staged hm.1 hm.2 hid) s
  exact (hfold ⟨h, hcurrent⟩).1

/-- Marking the stage as declared. -/
theorem Staged.marked {s : AdvanceState} (h : Staged s) :
    Staged { s with
      execution := { s.execution with declaredCurrentStage := true }
      progress := true } :=
  ⟨h.barrier.settles rfl (List.forall₂_same.mpr fun c _ => .refl c), h.issued, by
    cases h.fallback with
    | unused activated stages depth => exact .unused activated stages depth
    | used enabled activated stages depth => exact .used enabled activated stages depth⟩

theorem dispatchCandidate_staged {s : AdvanceState} {stage : StageSpec} {index : Nat}
    {c : CandidateRecord} (p : ParticipantRecord) (h : Staged s)
    (hcurrent : s.currentStage = some stage) (hc : s.execution.candidates[index]? = some c)
    (hstate : c.state = .declared)
    (halone : stage.mode = .sequential → earlierPending s.execution stage c = false) :
    Staged (s.dispatchCandidate index c p) := by
  refine ⟨?_, ?_, ?_⟩
  · refine h.barrier.dispatches hcurrent hc hstate rfl ⟨rfl, rfl, rfl⟩ fun hmode d hd hflight => ?_
    obtain ⟨current, hcurrent', hasks, -⟩ := h.barrier.current d hd hflight
    obtain rfl := Option.some.inj (hcurrent.symm.trans hcurrent')
    have hfree := halone hmode
    simp only [earlierPending, List.any_eq_false, Bool.and_eq_true, beq_iff_eq, bne_iff_ne,
      decide_eq_true_eq, not_and] at hfree
    rw [UInt64.le_iff_toNat_le, ← Nat.not_lt, ← UInt64.lt_iff_toNat_lt]
    intro hlt
    exact hfree d hd ⟨⟨hasks.named, fun heq => UInt64.ne_of_lt hlt (congrArg _ heq)⟩, hlt⟩ hflight
  · have hids : (s.execution.candidates.set index
        (dispatchedCandidate s.core p s.core.nextSequence.1 c)).map (·.id)
          = s.execution.candidates.map (·.id) := Slots.map_key_set hc rfl
    have hissued := h.issued
    rw [← hids] at hissued
    simpa [dispatchCandidate, setCandidate] using hissued
  · cases h.fallback with
    | unused activated stages depth => exact .unused activated stages depth
    | used enabled activated stages depth => exact .used enabled activated stages depth

theorem Staged.completes {s : AdvanceState} {stage : StageSpec} (h : Staged s)
    (hcurrent : s.currentStage = some stage) (hcomplete : stageComplete stage s.execution = true) :
    Staged s.completeStage :=
  ⟨h.barrier.completes hcurrent hcomplete, h.issued, by
    cases h.fallback with
    | unused activated stages depth => exact .unused activated stages depth
    | used enabled activated stages depth => exact .used enabled activated stages depth⟩

/-! ### Fallback -/

theorem activateMembers_same (trigger : FallbackTrigger) (ids : List ParticipantId)
    (s : AdvanceState) :
    (ids.foldl (activateMember trigger) s).execution = s.execution
      ∧ (ids.foldl (activateMember trigger) s).ensemble.spec = s.ensemble.spec
      ∧ (ids.foldl (activateMember trigger) s).core.candidateIds = s.core.candidateIds := by
  induction ids generalizing s with
  | nil => exact ⟨rfl, rfl, rfl⟩
  | cons id rest ih =>
    obtain ⟨hexecution, hspec, hids⟩ := ih (activateMember trigger s id)
    refine ⟨hexecution, hspec, hids.trans ?_⟩
    simp [activateMember]

/-- What the activation of a fallback makes of the execution. -/
theorem activateFallback_eq {s : AdvanceState} {trigger : FallbackTrigger}
    (h : fallbackDecision s.ensemble s.execution = some trigger) :
    s.activateFallback.execution = s.requestFallback.execution
      ∧ s.activateFallback.ensemble.spec = s.ensemble.spec
      ∧ s.activateFallback.core.candidateIds = s.core.candidateIds := by
  rw [activateFallback, h]
  exact activateMembers_same trigger _ s.requestFallback

/-- Fallback activates at most once, where it is enabled. -/
theorem fallbackDecision_eq_some {e : EnsembleRecord} {x : ExecutionRecord}
    {trigger : FallbackTrigger} (h : fallbackDecision e x = some trigger) :
    e.spec.fallback.enabled = true ∧ x.fallbackActivated = false
      ∧ x.fallbackDepth < e.spec.fallback.maxDepth ∧ waiting x = false
      ∧ trigger ∈ e.spec.fallback.triggers ∧ fallbackTriggerFires trigger e x = true := by
  unfold fallbackDecision at h
  split at h
  · rename_i hguard
    simp only [Bool.and_eq_true, Bool.not_eq_true', decide_eq_true_eq] at hguard
    obtain ⟨⟨⟨henabled, hunused⟩, hdepth⟩, hquiet⟩ := hguard
    exact ⟨henabled, hunused, hdepth, hquiet, List.mem_of_find?_eq_some h,
      List.find?_some (p := fun trigger => fallbackTriggerFires trigger e x) h⟩
  · cases h

theorem Staged.activates {s : AdvanceState} {trigger : FallbackTrigger} (h : Staged s)
    (hconsumed : s.Consumed) (hdecision : fallbackDecision s.ensemble s.execution = some trigger) :
    Staged s.activateFallback := by
  obtain ⟨hexecution, hspec, hids⟩ := activateFallback_eq hdecision
  obtain ⟨henabled, hunused, -⟩ := fallbackDecision_eq_some hdecision
  cases h.fallback with
  | used _ activated =>
    rw [hunused] at activated
    cases activated
  | unused _ stages depth =>
    have hstages : s.activateFallback.stages = s.stages ++ [fallbackStage s.ensemble.spec 0] := by
      rw [AdvanceState.stages, AdvanceState.stages, hspec, hexecution, stages, List.append_nil]
      simp [requestFallback, stages, depth]
    refine ⟨?_, ?_, ?_⟩
    · rw [hstages]
      exact h.barrier.appends hconsumed _ (by rw [hexecution]; rfl) (by rw [hexecution]; rfl)
    · rw [hexecution, hids]
      exact h.issued
    · rw [hexecution, hspec]
      exact .used henabled rfl (by simp [requestFallback, stages, depth])
        (by simp [requestFallback, depth])

/-! ### All steps -/

theorem AdvanceStep.staged {limits : Limits} {s s' : AdvanceState}
    (h : AdvanceStep limits s s') (hs : Staged s) : Staged s' := by
  cases h with
  | round => exact ⟨hs.barrier, hs.issued, hs.fallback⟩
  | declared current undeclared result =>
    obtain ⟨m, hm, rfl⟩ := declareStage_eq_ok undeclared result
    have hmembers := declareMembers_staged limits hs current
    rw [hm] at hmembers
    exact hmembers.marked
  | adopted _ _ target => exact hs.undisturbed (adopt_undisturbed target)
  | stranded _ _ target => exact hs.undisturbed (strand_undisturbed target)
  | dispatched current _ target _ alone =>
    have hadopted := hs.undisturbed (adopt_undisturbed target)
    exact dispatchCandidate_staged _ hadopted current (setCandidate_get target.at_ _)
      target.state alone
  | completed current _ complete => exact hs.completes current complete
  | reopened => exact hs.undisturbed (reopenPlanning_undisturbed s)
  | planned _ _ result =>
    have hplanned := planEvaluations_undisturbed s
    rw [result] at hplanned
    exact hs.undisturbed hplanned
  | emitted index => exact hs.undisturbed (emitOne_undisturbed s index)
  | reported => exact hs.undisturbed (report_undisturbed s)
  | activated consumed decision => exact hs.activates consumed decision

/-- The specification stays. -/
theorem AdvanceStep.spec {limits : Limits} {s s' : AdvanceState} (h : AdvanceStep limits s s') :
    s'.ensemble.spec = s.ensemble.spec := by
  cases h with
  | round | adopted | stranded | dispatched | completed | reported => rfl
  | declared _ _ result => exact (declareStage_same result).1.spec
  | reopened => exact (reopenPlanning_undisturbed s).spec
  | planned _ _ result =>
    have hplanned := planEvaluations_undisturbed s
    rw [result] at hplanned
    exact hplanned.spec
  | emitted index => exact (emitOne_undisturbed s index).spec
  | activated _ decision => exact (activateFallback_eq decision).2.1

theorem AdvanceStop.spec {limits : Limits} {s s' : AdvanceState} {error : Error}
    (h : AdvanceStop limits s (error, s')) : s'.ensemble.spec = s.ensemble.spec := by
  cases h with
  | @undeclared stage _ undeclared result =>
    have hmembers := declareMembers_same limits stage stage.participants s
    rw [declareStage_eq_error undeclared result] at hmembers
    exact congrArg _ hmembers.ensemble
  | unplanned _ _ result =>
    have hplanned := planEvaluations_undisturbed s
    rw [result] at hplanned
    exact hplanned.spec

theorem AdvanceStop.staged {limits : Limits} {s s' : AdvanceState} {error : Error}
    (h : AdvanceStop limits s (error, s')) (hs : Staged s) : Staged s' := by
  cases h with
  | undeclared current undeclared result =>
    have hmembers := declareMembers_staged limits hs current
    rwa [declareStage_eq_error undeclared result] at hmembers
  | unplanned _ _ result =>
    have hplanned := planEvaluations_undisturbed s
    rw [result] at hplanned
    exact hs.undisturbed hplanned

/-! ### Candidates in flight -/

/-- A stage cannot be current and consumed. -/
theorem Consumed.no_stage {s : AdvanceState} (h : s.Consumed) : s.currentStage = none :=
  List.getElem?_eq_none h

/-- Something in flight keeps the stage plan from being consumed. -/
theorem Staged.not_consumed {s : AdvanceState} (h : Staged s) {c : CandidateRecord}
    (hc : c ∈ s.execution.candidates) (hflight : c.inFlight = true) : ¬ s.Consumed := by
  intro hconsumed
  obtain ⟨stage, hstage, -⟩ := h.barrier.current c hc hflight
  rw [show s.stages[s.execution.stageIndex]? = none from hconsumed.no_stage] at hstage
  cases hstage

/-- A dispatched candidate stays dispatched for the rest of the advance. -/
theorem AdvanceStep.keeps_dispatched {limits : Limits} {s s' : AdvanceState}
    (h : AdvanceStep limits s s') (hs : Staged s) {c : CandidateRecord}
    (hdeclared : s.execution.declaredCurrentStage = true) (hc : c ∈ s.execution.candidates)
    (hstate : c.state = .dispatched) :
    s'.execution.declaredCurrentStage = true
      ∧ ∃ c' ∈ s'.execution.candidates, c'.state = .dispatched := by
  have hflight := inFlight_of_dispatched hstate
  have hnot := hs.not_consumed hc hflight
  -- writing a declared slot leaves the dispatched one as it is
  have hset : ∀ {index : Nat} {d d' : CandidateRecord}, s.execution.candidates[index]? = some d →
      d.state = .declared → ∃ c' ∈ s.execution.candidates.set index d', c'.state = .dispatched := by
    intro index d d' hd hdstate
    have hslots : Forall₂ (fun a b : CandidateRecord => a.state = .dispatched → b = a)
        s.execution.candidates (s.execution.candidates.set index d') :=
      Slots.forall₂_set (fun _ _ => rfl) hd fun hout => by simp [hdstate] at hout
    obtain ⟨c', hc', hsame⟩ := Slots.exists_right hslots hc
    exact ⟨c', hc', by rw [hsame hstate]; exact hstate⟩
  cases h with
  | round => exact ⟨hdeclared, c, hc, hstate⟩
  | declared _ undeclared =>
    rw [hdeclared] at undeclared
    cases undeclared
  | adopted _ _ target => exact ⟨hdeclared, hset target.at_ target.state⟩
  | stranded _ _ target =>
    refine ⟨hdeclared, ?_⟩
    simpa [strand, adopt, setCandidate, failCandidate, supersedeCandidateEvidence]
      using hset target.at_ target.state
  | dispatched _ _ target =>
    refine ⟨hdeclared, ?_⟩
    simpa [dispatchCandidate, adopt, setCandidate] using hset target.at_ target.state
  | completed current _ complete =>
    obtain ⟨stage, hstage, hasks, -⟩ := hs.barrier.current c hc hflight
    obtain rfl := Option.some.inj (current.symm.trans hstage)
    rw [hasks.resolved complete hc] at hflight
    cases hflight
  | reopened consumed | planned consumed | emitted _ consumed | reported consumed
  | activated consumed => exact absurd consumed hnot

end AdvanceState

/-! ## Runs -/

/-- What the stages of an open execution satisfy between events. -/
structure StagesHold (e : EnsembleRecord) (x : ExecutionRecord) : Prop where
  barrier : Barrier (planStages e x) x
  fallback : FallbackUse e.spec x

theorem AdvanceReady.staged {limits : Limits} {core : Core} {e : EnsembleRecord}
    {x : ExecutionRecord} (h : AdvanceReady limits core e x) (hstages : StagesHold e x) :
    (advanceStart core e x).Staged :=
  ⟨hstages.barrier, h.issued, hstages.fallback⟩

theorem advanceOpen_staged (limits : Limits) {core : Core} {e : EnsembleRecord}
    {x : ExecutionRecord} (hs : (advanceStart core e x).Staged) :
    (advanceOpen limits core e x).1.Staged := by
  have hsteps : ∀ {m}, AdvanceState.AdvanceSteps limits (advanceStart core e x) m → m.Staged :=
    fun hm => AdvanceState.advanceSteps_keep AdvanceState.AdvanceStep.staged hm hs
  have hends := advanceOpen_ends limits core e x
  generalize advanceOpen limits core e x = out at hends ⊢
  cases hends with
  | settled steps => exact (hsteps steps).undisturbed (AdvanceState.report_undisturbed _)
  | stopped steps stop => exact stop.staged (hsteps steps)

/-- The barrier holds in every open execution of every reachable state. -/
theorem reachable_stagesHold (config : FabricConfig) (events : List Event) {id : EnsembleId}
    {e : EnsembleRecord} {x : ExecutionRecord}
    (he : ((System.initial config).run events).fabric.find id = some e)
    (hx : e.execution = some x) (hopen : x.status = .opened) : StagesHold e x := by
  refine reachable_open (P := StagesHold) ?_ ?_ ?_ events he hx hopen
  · intro e next epoch _
    refine ⟨⟨List.Pairwise.nil, Nat.zero_le _, fun i _ hi => ?_, fun c hc => ?_,
      fun _ _ _ c hc => ?_⟩, .unused rfl rfl rfl⟩
    · exact absurd hi (Nat.not_lt_zero i)
    · cases hc
    · cases hc
  · intro e e' x x' hspec hkeeps h
    refine ⟨?_, ?_⟩
    · rw [planStages, hspec, hkeeps.extraStages]
      exact h.barrier.settles hkeeps.stageIndex hkeeps.candidates
    · rw [hspec]
      exact h.fallback.of_keeps hkeeps
  · intro core e x hready h
    have hstaged := advanceOpen_staged config.limits (hready.staged h)
    exact ⟨hstaged.barrier, hstaged.fallback⟩

/-- Every advance of an open execution starts at a place the barrier allows. -/
theorem reachable_staged (config : FabricConfig) (events : List Event) {id : EnsembleId}
    {e : EnsembleRecord} {x : ExecutionRecord}
    (he : ((System.initial config).run events).fabric.find id = some e)
    (hx : e.execution = some x) (hopen : x.status = .opened) :
    (advanceStart ((System.initial config).run events).fabric.core e x).Staged := by
  have hissued := ((reachable_apart config events).numbered id).candidates
  rw [View.candidateIds_of he hx] at hissued
  have hstages := reachable_stagesHold config events he hx hopen
  exact ⟨hstages.barrier, hissued, hstages.fallback⟩

/-! ## The barrier -/

/-- Candidates in flight belong to the current stage, those of earlier stages
are resolved, and a sequential stage hands out one candidate after the
other. -/
structure InOrder (e : EnsembleRecord) (x : ExecutionRecord) : Prop where
  current : ∀ c ∈ x.candidates, c.inFlight = true →
    ∃ stage, (planStages e x)[x.stageIndex]? = some stage ∧ stage.Asks c
  earlier : ∀ i stage, i < x.stageIndex → (planStages e x)[i]? = some stage →
    ∀ c ∈ x.candidates, stage.Asks c → c.inFlight = false
  single : ∀ stage ∈ planStages e x, stage.mode = .sequential →
    (x.candidates.filter fun c =>
      c.stage == stage.id && !c.fallback && c.state == .dispatched).length ≤ 1
  resolved : ∀ stage ∈ planStages e x, stage.mode = .sequential →
    ∀ c ∈ x.candidates, c.stage = stage.id → c.fallback = false → c.state = .dispatched →
      ∀ d ∈ x.candidates, d.stage = stage.id → d.id.value < c.id.value → d.inFlight = false

/-- A sequential stage with a primary candidate in flight is the current
one: fallback stages are parallel, and the others differ in their identities. -/
theorem StagesHold.sequential_current {limits : Limits} {e : EnsembleRecord}
    {x : ExecutionRecord} (h : StagesHold e x) (hwell : WellFormed limits e.spec)
    {stage : StageSpec} (hstage : stage ∈ planStages e x) (hmode : stage.mode = .sequential)
    {c : CandidateRecord} (hc : c ∈ x.candidates) (hnamed : c.stage = stage.id)
    (hprimary : c.fallback = false) (hflight : c.inFlight = true) :
    (planStages e x)[x.stageIndex]? = some stage := by
  have hextra : ∀ extra ∈ x.extraStages, extra.mode = .parallel ∧ extra.fallbackStage = true := by
    intro extra hmem
    cases h.fallback with
    | unused _ stages =>
      rw [stages] at hmem
      cases hmem
    | used _ _ stages =>
      rw [stages] at hmem
      obtain rfl := List.mem_singleton.mp hmem
      exact ⟨rfl, rfl⟩
  have hdeclared : stage ∈ e.spec.effectiveStages := by
    rcases List.mem_append.mp hstage with hmem | hmem
    · exact hmem
    · rw [(hextra stage hmem).1] at hmode
      cases hmode
  obtain ⟨current, hcurrent, hasks, hfallback⟩ := h.barrier.current c hc hflight
  have hdeclared' : current ∈ e.spec.effectiveStages := by
    rcases List.mem_append.mp (List.mem_of_getElem? hcurrent) with hmem | hmem
    · exact hmem
    · rw [hprimary, (hextra current hmem).2] at hfallback
      cases hfallback
  have hsame : current = stage :=
    List.inj_on_of_nodup_map hwell.effectiveStages hdeclared' hdeclared
      (hasks.named.symm.trans hnamed)
  rw [hcurrent, hsame]

theorem StagesHold.inOrder {limits : Limits} {e : EnsembleRecord} {x : ExecutionRecord}
    (h : StagesHold e x) (hwell : WellFormed limits e.spec) : InOrder e x := by
  have hlower : ∀ stage ∈ planStages e x, stage.mode = .sequential →
      ∀ c ∈ x.candidates, c.stage = stage.id → c.fallback = false → c.state = .dispatched →
        ∀ d ∈ x.candidates, d.inFlight = true → c.id.value ≤ d.id.value := by
    intro stage hstage hmode c hc hnamed hprimary hdispatched d hd hflight
    have hcurrent := h.sequential_current hwell hstage hmode hc hnamed hprimary
      (inFlight_of_dispatched hdispatched)
    exact h.barrier.exclusive stage hcurrent hmode c hc d hd hdispatched hflight
  constructor
  · intro c hc hflight
    obtain ⟨stage, hstage, hasks, -⟩ := h.barrier.current c hc hflight
    exact ⟨stage, hstage, hasks⟩
  · exact fun i stage hi hstage c hc hasks =>
      hasks.resolved (h.barrier.passed i stage hi hstage) hc
  · intro stage hstage hmode
    have hsub : (x.candidates.filter fun c =>
        c.stage == stage.id && !c.fallback && c.state == .dispatched).Sublist x.candidates :=
      List.filter_sublist
    have hordered := (List.pairwise_map.mp h.barrier.ordered).sublist hsub
    match hfilter : x.candidates.filter fun c =>
        c.stage == stage.id && !c.fallback && c.state == .dispatched with
    | [] => rw [hfilter]; exact Nat.zero_le 1
    | [_] => rw [hfilter]; exact Nat.le_refl 1
    | c :: d :: rest =>
      -- the identities of two dispatched candidates would each bound the other
      rw [hfilter] at hordered
      have hlt : c.id.value < d.id.value :=
        List.rel_of_pairwise_cons hordered List.mem_cons_self
      have hmem : ∀ b ∈ c :: d :: rest, b ∈ x.candidates
          ∧ (b.stage = stage.id ∧ b.fallback = false) ∧ b.state = .dispatched := by
        intro b hb
        rw [← hfilter] at hb
        simpa using hb
      obtain ⟨hc, -, hdispatched⟩ := hmem c List.mem_cons_self
      obtain ⟨hd, ⟨hnamed, hprimary⟩, hdispatched'⟩ :=
        hmem d (List.mem_cons_of_mem _ List.mem_cons_self)
      exact absurd hlt (UInt64.not_lt.mpr (hlower stage hstage hmode d hd hnamed hprimary
        hdispatched' c hc (inFlight_of_dispatched hdispatched)))
  · intro stage hstage hmode c hc hnamed hprimary hdispatched d hd _ hlt
    by_contra hflight
    exact absurd hlt (UInt64.not_lt.mpr (hlower stage hstage hmode c hc hnamed hprimary
      hdispatched d hd (by simpa using hflight)))

/-- In every reachable state, the stages of every open execution are worked
off in order. -/
theorem stages_in_order (config : FabricConfig) (events : List Event) (id : EnsembleId)
    (e : EnsembleRecord) (x : ExecutionRecord)
    (he : ((System.initial config).run events).fabric.find id = some e)
    (hx : e.execution = some x) (hopen : x.status = .opened) : InOrder e x :=
  (reachable_stagesHold config events he hx hopen).inOrder
    (reachable_specInUse config events id e he).admitted.wellFormed

namespace Sample

/-- A sequential stage of two, and one more behind it. -/
def stagedSpec : EnsembleSpec where
  id := ⟨1⟩
  label := "staged"
  participants := [participant 1 candidateRole, participant 2 candidateRole,
    participant 3 candidateRole]
  stages :=
    [{ id := ⟨1⟩, mode := .sequential, participants := [⟨1⟩, ⟨2⟩] },
     { id := ⟨2⟩, participants := [⟨3⟩] }]
  retry := { maxAttempts := 2, retryOnTransportError := true }

/-- The first candidate is retried. -/
def retriedFirst : List Event :=
  start stagedSpec ++ [.reportParticipantFailure (authority 1) .transportError "lost",
    .registerParticipant
      { ensemble := ⟨1⟩, ensembleGeneration := ⟨1⟩, participant := ⟨1⟩, worker := ⟨1⟩
        workerBoot := ⟨9⟩, coordinatorEpoch := ⟨1⟩ }, advance]

end Sample

/-- The first candidate of the sequential stage is dispatched again, to the
replacement of its participant; the second one waits for it, and the next
stage has not begun. -/
theorem retriedFirst_in_order :
    ∃ e x, Sample.ensemble Sample.retriedFirst = some e ∧ e.execution = some x
      ∧ x.status = .opened ∧ x.stageIndex = 0
      ∧ x.candidates.map (fun c => (c.id.value, c.generation.value, c.state))
        = [(1, 2, .dispatched), (2, 1, .declared)]
      ∧ InOrder e x := by
  have hrun : (Sample.ensemble Sample.retriedFirst).any (fun e => e.execution.any fun x =>
      x.status == .opened && x.stageIndex == 0
        && x.candidates.map (fun c => (c.id.value, c.generation.value, c.state))
          == [(1, 2, .dispatched), (2, 1, .declared)]) = true := by decide +kernel
  simp only [Option.any_eq_true, Bool.and_eq_true, beq_iff_eq] at hrun
  obtain ⟨e, he, x, hx, ⟨hopen, hindex⟩, hstates⟩ := hrun
  exact ⟨e, x, he, hx, hopen, hindex, hstates,
    stages_in_order {} Sample.retriedFirst ⟨1⟩ e x he hx hopen⟩

end EnsembleFabric
