import EnsembleFabric.CandidateBound
import EnsembleFabric.Library.Ledger
import EnsembleFabric.RepeatedFailure

/-!
# Attempts and dispatches

A slot counts twice: its attempt, advanced when it is rewound, and its
attempts used, advanced when it is dispatched. The two stay in step as long
as a slot is rewound only after it was dispatched: a declared slot is then
one attempt ahead, and the `n`-th dispatch is attempt `n`. The loss of a
participant rewinds the slots that wait in DECLARED as well; where that
happens the attempt was never dispatched, and the numbers part
(`dispatches_are_numbered`).

The claim is about everything a run dispatched, which no state remembers. The
ledger of a run (`Ledger`) holds the dispatches in order, each with the
specification it was made under, and the invariant `Reconciled` compares a
state with the ledger so far: the dispatches of every slot count its attempts
from one on (`CountsUp`), and the slot knows how many there were. Within an
advance the same is `Balanced`, over the actions emitted so far, and each
step of an advance keeps it (`SlotStep`). Slots that are gone keep their
dispatches in the ledger, since identities are handed out once.

`System.takesAttempt` is the condition on an event: a failure report that
rewinds a slot that waits for its dispatch.
-/

namespace EnsembleFabric

open List (Forall₂)
open EventSystem AdvanceState

/-! ## The counters of a slot -/

/-- A slot with the same counters, at the same place or out of flight. -/
structure SameCounters (c c' : CandidateRecord) : Prop where
  id : c'.id = c.id
  generation : c'.generation = c.generation
  attempt : c'.attempt = c.attempt
  used : c'.attemptsUsed = c.attemptsUsed
  state : c'.state = c.state ∨ c'.inFlight = false

/-- A dispatched slot that is given its next attempt. -/
structure NextAttempt (spec : EnsembleSpec) (c c' : CandidateRecord) : Prop where
  id : c'.id = c.id
  generation : c'.generation = c.generation.next
  attempt : c'.attempt = c.attempt + 1
  used : c'.attemptsUsed = c.attemptsUsed
  before : c.state = .dispatched
  after : c'.state = .declared
  room : c.attemptsUsed < spec.retry.maxAttempts.toNat

/-- The counters of a slot of an open execution are in step. -/
structure InStep (spec : EnsembleSpec) (c : CandidateRecord) : Prop where
  generation : c.generation.value.toNat = c.attempt
  declared : c.state = .declared →
    c.attempt = c.attemptsUsed + 1 ∧ c.attempt ≤ spec.retry.maxAttempts.toNat
  dispatched : c.state = .dispatched → c.attempt = c.attemptsUsed

theorem SameCounters.refl (c : CandidateRecord) : SameCounters c c := ⟨rfl, rfl, rfl, rfl, .inl rfl⟩

theorem SameCounters.inStep {spec : EnsembleSpec} {c c' : CandidateRecord}
    (h : SameCounters c c') (hc : InStep spec c) : InStep spec c' := by
  have hstate : ∀ state, permitsOutput state = true → c'.state = state → c.state = state := by
    intro state hpermits hc'
    rcases h.state with hsame | hout
    · exact hsame.symm.trans hc'
    · rw [CandidateRecord.inFlight, hc', hpermits] at hout
      cases hout
  refine ⟨by rw [h.generation, h.attempt, hc.generation], fun hdeclared => ?_,
    fun hdispatched => ?_⟩
  · rw [h.attempt, h.used]
    exact hc.declared (hstate _ rfl hdeclared)
  · rw [h.attempt, h.used]
    exact hc.dispatched (hstate _ rfl hdispatched)

theorem NextAttempt.inStep {spec : EnsembleSpec} {c c' : CandidateRecord}
    (h : NextAttempt spec c c') (hc : InStep spec c) : InStep spec c' := by
  have hattempt := hc.dispatched h.before
  have hroom := h.room
  have hbound := spec.retry.maxAttempts.toNat_lt
  refine ⟨?_, fun _ => ?_, fun hdispatched => ?_⟩
  · rw [h.generation, StrongId.next_toNat (by rw [hc.generation]; omega), hc.generation, h.attempt]
  · rw [h.attempt, h.used]
    omega
  · rw [h.after] at hdispatched
    cases hdispatched

/-- A candidate that is declared for the first time. -/
structure FirstAttempt (c : CandidateRecord) : Prop where
  generation : c.generation = ⟨1⟩
  attempt : c.attempt = 1
  used : c.attemptsUsed = 0
  state : c.state = .declared

theorem FirstAttempt.inStep {spec : EnsembleSpec} {c : CandidateRecord} (h : FirstAttempt c)
    (hroom : 1 ≤ spec.retry.maxAttempts.toNat) : InStep spec c := by
  refine ⟨by rw [h.generation, h.attempt]; rfl, fun _ => ?_, fun hdispatched => ?_⟩
  · rw [h.attempt, h.used]
    exact ⟨rfl, hroom⟩
  · rw [h.state] at hdispatched
    cases hdispatched

/-! ## What is emitted -/

/-- A dispatch, and the specification it was made under. -/
structure Emission where
  spec : EnsembleSpec
  action : DispatchAction

def FabricAction.dispatch? : FabricAction → Option DispatchAction
  | .dispatch action => some action
  | _ => none

/-- The dispatches among some actions. -/
def dispatches (actions : List FabricAction) : List DispatchAction :=
  actions.filterMap (·.dispatch?)

/-- The dispatches of a slot. -/
def slotEmissions (entries : List Emission) (id : CandidateId) : List Emission :=
  entries.filter (·.action.candidate == id)

/-- The dispatches of a slot count its attempts from one on, each under its
own generation and within the attempts the specification allows. -/
def CountsUp (entries : List Emission) : Prop :=
  ∀ n m, entries[n]? = some m → m.action.attempt = n + 1
    ∧ m.action.candidateGeneration.value.toNat = n + 1
    ∧ n + 1 ≤ m.spec.retry.maxAttempts.toNat

theorem slotEmissions_append (entries added : List Emission) (id : CandidateId) :
    slotEmissions (entries ++ added) id = slotEmissions entries id ++ slotEmissions added id :=
  List.filter_append ..

/-- The next dispatch is the next attempt. -/
theorem CountsUp.append {entries : List Emission} {m : Emission} (h : CountsUp entries)
    (hattempt : m.action.attempt = entries.length + 1)
    (hgeneration : m.action.candidateGeneration.value.toNat = entries.length + 1)
    (hroom : entries.length + 1 ≤ m.spec.retry.maxAttempts.toNat) :
    CountsUp (entries ++ [m]) := by
  intro n m' hm'
  by_cases hlast : n < entries.length
  · rw [List.getElem?_append_left hlast] at hm'
    exact h n m' hm'
  · rw [List.getElem?_append_right (by omega)] at hm'
    rw [List.getElem?_singleton] at hm'
    split at hm'
    · obtain rfl := Option.some.inj hm'
      have hn : n = entries.length := by omega
      subst hn
      exact ⟨hattempt, hgeneration, hroom⟩
    · cases hm'

/-! ## One step of an advance -/

namespace AdvanceState

/-- What a step of an advance does to the slots and puts out. -/
inductive SlotStep (s s' : AdvanceState) : Prop
  | kept (spec : s'.ensemble.spec = s.ensemble.spec)
      (ids : s'.core.candidateIds = s.core.candidateIds)
      (sent : dispatches s'.actions = dispatches s.actions)
      (slots : Forall₂ SameCounters s.execution.candidates s'.execution.candidates)
  | declared {c} (spec : s'.ensemble.spec = s.ensemble.spec)
      (fresh : s.core.candidateIds.allocate = some (c.id, s'.core.candidateIds))
      (sent : dispatches s'.actions = dispatches s.actions) (first : FirstAttempt c)
      (slots : s'.execution.candidates = s.execution.candidates ++ [c])
  | dispatched {index c c' action} (spec : s'.ensemble.spec = s.ensemble.spec)
      (ids : s'.core.candidateIds = s.core.candidateIds)
      (at_ : s.execution.candidates[index]? = some c) (before : c.state = .declared)
      (slots : s'.execution.candidates = s.execution.candidates.set index c')
      (id : c'.id = c.id) (generation : c'.generation = c.generation)
      (attempt : c'.attempt = c.attempt) (used : c'.attemptsUsed = c.attemptsUsed + 1)
      (after : c'.state = .dispatched)
      (sent : dispatches s'.actions = dispatches s.actions ++ [action])
      (candidate : action.candidate = c.id)
      (actionGeneration : action.candidateGeneration = c.generation)
      (actionAttempt : action.attempt = c.attempt)

abbrev SlotSteps : AdvanceState → AdvanceState → Prop := Relation.ReflTransGen SlotStep

/-- A step that leaves the slots alone. -/
theorem slotStep_of_same {s s' : AdvanceState} (spec : s'.ensemble.spec = s.ensemble.spec)
    (ids : s'.core.candidateIds = s.core.candidateIds)
    (sent : dispatches s'.actions = dispatches s.actions)
    (slots : s'.execution.candidates = s.execution.candidates) : SlotStep s s' :=
  .kept spec ids sent (by rw [slots]; exact List.forall₂_same.mpr fun c _ => .refl c)

theorem declareMember_slots (limits : Limits) (stage : StageSpec) (s : AdvanceState)
    (id : ParticipantId) : SlotSteps s (Threaded.final (declareMember limits stage s id)) := by
  unfold declareMember
  split
  · exact .refl
  · split
    · exact .refl
    · split
      · exact .refl
      · split
        · exact .refl
        · rename_i hids
          exact .single (.declared rfl hids rfl ⟨rfl, rfl, rfl, rfl⟩ rfl)

theorem declareMembers_slots (limits : Limits) (stage : StageSpec) (ids : List ParticipantId)
    (s : AdvanceState) :
    SlotSteps s (Threaded.final (ids.foldlM (declareMember limits stage) s)) :=
  Threaded.final_foldlM (R := SlotSteps) (fun _ => .refl) (fun h h' => h.trans h')
    (fun m id _ => declareMember_slots limits stage m id) s

theorem report_slots (s : AdvanceState) : SlotStep s s.report :=
  .kept rfl rfl rfl (Slots.forall₂_map fun c _ => by
    rw [markElimination_eq _ c]
    exact ⟨rfl, rfl, rfl, rfl, .inl rfl⟩)

theorem adopt_slots {stage : StageSpec} {s : AdvanceState} {index : Nat} {c : CandidateRecord}
    {p : ParticipantRecord} (h : DispatchTarget stage s index c p) :
    SlotStep s (s.adopt index c p) :=
  .kept rfl rfl rfl (Slots.forall₂_set .refl h.at_ ⟨rfl, rfl, rfl, rfl, .inl rfl⟩)

theorem activateFallback_sent {s : AdvanceState} {trigger : FallbackTrigger}
    (h : fallbackDecision s.ensemble s.execution = some trigger) :
    dispatches s.activateFallback.actions = dispatches s.actions := by
  have hmembers : ∀ (ids : List ParticipantId) (m : AdvanceState),
      dispatches (ids.foldl (activateMember trigger) m).actions = dispatches m.actions := by
    intro ids
    induction ids with
    | nil => exact fun _ => rfl
    | cons id rest ih =>
      intro m
      rw [List.foldl_cons, ih]
      exact List.filterMap_append.trans (List.append_nil _)
  rw [activateFallback, h]
  exact hmembers _ s.requestFallback

theorem AdvanceStep.slots {limits : Limits} {s s' : AdvanceState} (h : AdvanceStep limits s s') :
    SlotSteps s s' := by
  cases h with
  | round | completed => exact .single (slotStep_of_same rfl rfl rfl rfl)
  | @declared _ stage _ undeclared result =>
    obtain ⟨m, hm, rfl⟩ := declareStage_eq_ok undeclared result
    have hmembers := declareMembers_slots limits stage stage.participants s
    rw [hm] at hmembers
    exact hmembers.tail (slotStep_of_same rfl rfl rfl rfl)
  | adopted _ _ target => exact .single (adopt_slots target)
  | @stranded stage index c p _ _ target =>
    refine (Relation.ReflTransGen.single (adopt_slots target)).tail (.kept rfl rfl rfl ?_)
    have hat := setCandidate_get target.at_ (adoptedCandidate c p)
    exact Slots.forall₂_set .refl hat ⟨rfl, rfl, rfl, rfl, .inr rfl⟩
  | @dispatched stage index c p _ _ target =>
    refine (Relation.ReflTransGen.single (adopt_slots target)).tail ?_
    have hat := setCandidate_get target.at_ (adoptedCandidate c p)
    exact .dispatched rfl (nextSequence_candidateIds _) hat target.state rfl rfl rfl rfl rfl rfl
      List.filterMap_append rfl rfl rfl
  | reopened =>
    refine .single ?_
    unfold reopenPlanning
    split <;> exact slotStep_of_same rfl rfl rfl rfl
  | planned _ incomplete result =>
    obtain ⟨done, added, hplans, -⟩ := planEvaluations_plans incomplete
    rw [result, Threaded.final_ok] at hplans
    exact .single (slotStep_of_same (by rw [hplans.ensemble]) hplans.candidateIds
      (by rw [hplans.actions]) (by rw [hplans.execution]))
  | emitted index =>
    have hcases := emitOne_cases s index
    generalize s.emitOne index = s' at hcases
    refine .single ?_
    cases hcases with
    | skipped | kept | abandoned => exact slotStep_of_same rfl rfl rfl rfl
    | emitted =>
      exact slotStep_of_same rfl (nextSequence_candidateIds _)
        (List.filterMap_append.trans (List.append_nil _)) rfl
  | reported => exact .single (report_slots s)
  | activated _ decision =>
    obtain ⟨hexecution, hspec, hids⟩ := activateFallback_eq decision
    exact .single (slotStep_of_same hspec hids (activateFallback_sent decision)
      (by rw [hexecution]; rfl))

theorem AdvanceStop.slots {limits : Limits} {s s' : AdvanceState} {error : Error}
    (h : AdvanceStop limits s (error, s')) : SlotSteps s s' := by
  cases h with
  | @undeclared stage _ undeclared result =>
    have hmembers := declareMembers_slots limits stage stage.participants s
    rwa [declareStage_eq_error undeclared result] at hmembers
  | unplanned _ incomplete result =>
    obtain ⟨done, added, hplans, -⟩ := planEvaluations_plans incomplete
    rw [result] at hplans
    exact .single (slotStep_of_same (by rw [← hplans.ensemble]; rfl) hplans.candidateIds
      (by rw [← hplans.actions]; rfl) (by rw [show s'.execution = _ from hplans.execution]))

/-- The ledger before the advance, and what the advance has put out. -/
def entries (base : List Emission) (spec : EnsembleSpec) (s : AdvanceState) : List Emission :=
  base ++ (dispatches s.actions).map fun action => ⟨spec, action⟩

/-- The slots of an advance, the ledger before it and what it has put out. -/
structure Balanced (base : List Emission) (spec : EnsembleSpec) (s : AdvanceState) : Prop where
  sameSpec : s.ensemble.spec = spec
  issued : Issued (s.execution.candidates.map (·.id)) s.core.candidateIds
  earlier : ∀ m ∈ base, m.action.candidate.value.toNat < s.core.candidateIds.next.toNat
  sent : ∀ d ∈ dispatches s.actions, d.candidate ∈ s.execution.candidates.map (·.id)
  inStep : ∀ c ∈ s.execution.candidates, InStep spec c
  used : ∀ c ∈ s.execution.candidates,
    (slotEmissions (s.entries base spec) c.id).length = c.attemptsUsed
  counts : ∀ id, CountsUp (slotEmissions (s.entries base spec) id)

/-- Every entry is about an identity that was handed out. -/
theorem Balanced.below {base : List Emission} {spec : EnsembleSpec} {s : AdvanceState}
    (h : Balanced base spec s) :
    ∀ m ∈ s.entries base spec, m.action.candidate.value.toNat < s.core.candidateIds.next.toNat := by
  intro m hm
  rcases List.mem_append.mp hm with hold | hnew
  · exact h.earlier m hold
  · obtain ⟨action, haction, rfl⟩ := List.mem_map.mp hnew
    exact h.issued.below _ (h.sent action haction)

/-- Slots with the same counters stay balanced. -/
theorem Balanced.kept {base : List Emission} {spec : EnsembleSpec} {s s' : AdvanceState}
    (h : Balanced base spec s) (hspec : s'.ensemble.spec = s.ensemble.spec)
    (hids : s'.core.candidateIds = s.core.candidateIds)
    (hsent : dispatches s'.actions = dispatches s.actions)
    (hslots : Forall₂ SameCounters s.execution.candidates s'.execution.candidates) :
    Balanced base spec s' := by
  have hkeys : s'.execution.candidates.map (·.id) = s.execution.candidates.map (·.id) :=
    Slots.map_key (fun hsame => hsame.id) hslots
  have hentries : s'.entries base spec = s.entries base spec := by rw [entries, hsent, entries]
  refine ⟨hspec.trans h.sameSpec, by rw [hkeys, hids]; exact h.issued,
    by rw [hids]; exact h.earlier,
    by rw [hsent, hkeys]; exact h.sent, fun c' hc' => ?_, fun c' hc' => ?_,
    by rw [hentries]; exact h.counts⟩
  · obtain ⟨c, hc, hsame⟩ := Slots.exists_left hslots hc'
    exact hsame.inStep (h.inStep c hc)
  · obtain ⟨c, hc, hsame⟩ := Slots.exists_left hslots hc'
    rw [hentries, hsame.id, hsame.used]
    exact h.used c hc

/-- A new slot has no entries yet. -/
theorem Balanced.declared {base : List Emission} {spec : EnsembleSpec} {s s' : AdvanceState}
    {c : CandidateRecord} (h : Balanced base spec s) (hroom : 1 ≤ spec.retry.maxAttempts.toNat)
    (hspec : s'.ensemble.spec = s.ensemble.spec)
    (hfresh : s.core.candidateIds.allocate = some (c.id, s'.core.candidateIds))
    (hsent : dispatches s'.actions = dispatches s.actions) (hfirst : FirstAttempt c)
    (hslots : s'.execution.candidates = s.execution.candidates ++ [c]) :
    Balanced base spec s' := by
  obtain ⟨hvalue, hnext⟩ := IdAllocator.allocate_spec hfresh
  have hentries : s'.entries base spec = s.entries base spec := by rw [entries, hsent, entries]
  have hnone : slotEmissions (s.entries base spec) c.id = [] := by
    rw [slotEmissions, List.filter_eq_nil_iff]
    intro m hm heq
    have hbelow := h.below m hm
    rw [beq_iff_eq] at heq
    rw [heq, hvalue] at hbelow
    omega
  have hissued : IdsStep (s.execution.candidates.map (·.id)) s.core.candidateIds
      (s'.execution.candidates.map (·.id)) s'.core.candidateIds :=
    .added hfresh (by rw [hslots, List.map_append]; rfl)
  refine ⟨hspec.trans h.sameSpec, hissued.issued h.issued, fun m hm => ?_, fun d hd => ?_,
    fun c' hc' => ?_, fun c' hc' => ?_, by rw [hentries]; exact h.counts⟩
  · have hbelow := h.earlier m hm
    omega
  · rw [hsent] at hd
    rw [hslots, List.map_append]
    exact List.mem_append_left _ (h.sent d hd)
  · rw [hslots] at hc'
    rcases List.mem_append.mp hc' with hold | hnew
    · exact h.inStep c' hold
    · obtain rfl := List.mem_singleton.mp hnew
      exact hfirst.inStep hroom
  · rw [hentries]
    rw [hslots] at hc'
    rcases List.mem_append.mp hc' with hold | hnew
    · exact h.used c' hold
    · obtain rfl := List.mem_singleton.mp hnew
      rw [hnone, hfirst.used]
      rfl

theorem SlotStep.balanced {base : List Emission} {spec : EnsembleSpec} {s s' : AdvanceState}
    (hroom : 1 ≤ spec.retry.maxAttempts.toNat) (h : SlotStep s s') (hs : Balanced base spec s) :
    Balanced base spec s' := by
  cases h with
  | kept hspec ids sent slots => exact hs.kept hspec ids sent slots
  | declared hspec fresh sent first slots => exact hs.declared hroom hspec fresh sent first slots
  | @dispatched index c c' action hspec ids at_ before slots id generation attempt used after sent
      candidate actionGeneration actionAttempt =>
    have hc := List.mem_of_getElem? at_
    have hin := hs.inStep c hc
    obtain ⟨hattempt, hbound⟩ := hin.declared before
    have hcount := hs.used c hc
    have hkeys : s'.execution.candidates.map (·.id) = s.execution.candidates.map (·.id) := by
      rw [slots]
      exact Slots.map_key_set at_ id
    have hentries : s'.entries base spec = s.entries base spec ++ [⟨spec, action⟩] := by
      rw [entries, sent, List.map_append, ← List.append_assoc]
      rfl
    have hadded : ∀ other, slotEmissions [⟨spec, action⟩] other
        = if c.id = other then [⟨spec, action⟩] else [] := by
      intro other
      by_cases heq : c.id = other
      · simp [slotEmissions, candidate, heq]
      · simp [slotEmissions, candidate, heq]
    refine ⟨hspec.trans hs.sameSpec, by rw [hkeys, ids]; exact hs.issued,
      by rw [ids]; exact hs.earlier,
      fun d hd => ?_, fun d hd => ?_, fun d hd => ?_, fun other => ?_⟩
    · rw [hkeys]
      rw [sent] at hd
      rcases List.mem_append.mp hd with hold | hnew
      · exact hs.sent d hold
      · obtain rfl := List.mem_singleton.mp hnew
        rw [candidate]
        exact List.mem_map_of_mem hc
    · rw [slots] at hd
      rcases List.mem_or_eq_of_mem_set hd with hold | rfl
      · exact hs.inStep d hold
      · refine ⟨by rw [generation, attempt, hin.generation], fun hdeclared => ?_, fun _ => ?_⟩
        · rw [after] at hdeclared
          cases hdeclared
        · rw [attempt, used, hattempt]
    · rw [hentries, slotEmissions_append, List.length_append, hadded]
      rw [slots] at hd
      obtain ⟨i, hi⟩ := List.mem_iff_getElem?.mp hd
      by_cases hsame : index = i
      · subst hsame
        rw [List.getElem?_set_self (List.getElem?_eq_some_iff.mp at_).1] at hi
        obtain rfl := Option.some.inj hi
        rw [if_pos id.symm, id, hcount, used]
        rfl
      · rw [List.getElem?_set_ne hsame] at hi
        have hother : c.id ≠ d.id := by
          intro heq
          have hlt : index < (s.execution.candidates.map (·.id)).length := by
            rw [List.length_map]
            exact (List.getElem?_eq_some_iff.mp at_).1
          refine hsame ((List.getElem?_inj hlt hs.issued.distinct).mp ?_)
          rw [List.getElem?_map, List.getElem?_map, at_, hi, Option.map_some, Option.map_some, heq]
        rw [if_neg hother, hs.used d (List.mem_of_getElem? hi)]
        rfl
    · rw [hentries, slotEmissions_append, hadded]
      by_cases hsame : c.id = other
      · subst hsame
        rw [if_pos rfl]
        refine (hs.counts c.id).append ?_ ?_ ?_
        · rw [actionAttempt, hattempt, hcount]
        · rw [actionGeneration, hin.generation, hattempt, hcount]
        · show _ ≤ spec.retry.maxAttempts.toNat
          omega
      · rw [if_neg hsame, List.append_nil]
        exact hs.counts other

theorem SlotSteps.balanced {base : List Emission} {spec : EnsembleSpec} {s s' : AdvanceState}
    (hroom : 1 ≤ spec.retry.maxAttempts.toNat) (h : SlotSteps s s') (hs : Balanced base spec s) :
    Balanced base spec s' := by
  induction h with
  | refl => exact hs
  | tail _ hstep ih => exact hstep.balanced hroom ih

/-- Nothing was dispatched, or a dispatched candidate holds the stage. -/
def DispatchHolds (s : AdvanceState) : Prop :=
  dispatches s.actions = []
    ∨ s.execution.declaredCurrentStage = true
      ∧ ∃ c ∈ s.execution.candidates, c.state = .dispatched

theorem AdvanceStep.dispatchHolds {limits : Limits} {s s' : AdvanceState}
    (h : AdvanceStep limits s s')
    (hs : Staged s) (hholds : DispatchHolds s) : DispatchHolds s' := by
  rcases hholds with hnone | ⟨hdeclared, c, hc, hstate⟩
  · cases h with
    | round | completed | adopted | stranded | reported => exact .inl hnone
    | declared _ undeclared result =>
      obtain ⟨m, hm, rfl⟩ := declareStage_eq_ok undeclared result
      obtain ⟨-, hactions⟩ := declareMembers_appends limits _ _ s
      rw [hm, Threaded.final_ok] at hactions
      exact .inl (by rw [hactions]; exact hnone)
    | @dispatched stage index c p _ declared target =>
      refine .inr ⟨declared, dispatchedCandidate s.core p s.core.nextSequence.1
        (adoptedCandidate c p), ?_, rfl⟩
      have hget := setCandidate_get (setCandidate_get target.at_ (adoptedCandidate c p))
        (dispatchedCandidate s.core p s.core.nextSequence.1 (adoptedCandidate c p))
      exact List.mem_of_getElem? hget
    | reopened =>
      refine .inl ?_
      rw [(reopenPlanning_handsNothing s).2]
      exact hnone
    | planned _ incomplete result =>
      obtain ⟨-, hactions⟩ := planEvaluations_handsNothing incomplete
      rw [result, Threaded.final_ok] at hactions
      exact .inl (by rw [hactions]; exact hnone)
    | emitted index =>
      have hcases := emitOne_cases s index
      generalize s.emitOne index = s' at hcases
      cases hcases with
      | skipped | kept | abandoned => exact .inl hnone
      | emitted => exact .inl ((List.filterMap_append.trans (List.append_nil _)).trans hnone)
    | activated _ decision => exact .inl ((activateFallback_sent decision).trans hnone)
  · obtain ⟨hdeclared', c', hc', hstate'⟩ := h.keeps_dispatched hs hdeclared hc hstate
    exact .inr ⟨hdeclared', c', hc', hstate'⟩

/-- An advance that stops has dispatched nothing. -/
theorem AdvanceStop.dispatchHolds {limits : Limits} {s s' : AdvanceState} {error : Error}
    (h : AdvanceStop limits s (error, s')) (hs : Staged s) (hholds : DispatchHolds s) :
    dispatches s.actions = [] := by
  refine hholds.resolve_right ?_
  rintro ⟨hdeclared, c, hc, hstate⟩
  cases h with
  | undeclared _ undeclared =>
    rw [hdeclared] at undeclared
    cases undeclared
  | unplanned consumed => exact hs.not_consumed hc (inFlight_of_dispatched hstate) consumed

theorem AdvanceStop.sent {limits : Limits} {s s' : AdvanceState} {error : Error}
    (h : AdvanceStop limits s (error, s')) : dispatches s'.actions = dispatches s.actions := by
  cases h with
  | undeclared _ undeclared result =>
    obtain ⟨-, hactions⟩ := declareMembers_appends limits _ _ s
    rw [declareStage_eq_error undeclared result] at hactions
    exact congrArg dispatches hactions
  | unplanned _ incomplete result =>
    obtain ⟨-, hactions⟩ := planEvaluations_handsNothing incomplete
    rw [result] at hactions
    exact congrArg dispatches hactions

end AdvanceState

/-- An advance leaves the slots in balance with the ledger and the dispatches
among the actions it returns. -/
theorem advanceOpen_balanced {limits : Limits} {core : Core} {e : EnsembleRecord}
    {x : ExecutionRecord} {base : List Emission} (hroom : 1 ≤ e.spec.retry.maxAttempts.toNat)
    (hstaged : (advanceStart core e x).Staged)
    (hstart : Balanced base e.spec (advanceStart core e x)) :
    ∃ s : AdvanceState, Balanced base e.spec s
      ∧ s.ensemble = (advanceOpen limits core e x).1.ensemble
      ∧ s.execution = (advanceOpen limits core e x).1.execution
      ∧ s.core = (advanceOpen limits core e x).1.core
      ∧ dispatches s.actions = dispatches (returnedActions (advanceOpen limits core e x).2) := by
  have hsteps : ∀ {m}, AdvanceSteps limits (advanceStart core e x) m →
      Staged m ∧ DispatchHolds m ∧ Balanced base e.spec m := fun hm =>
    advanceSteps_keep (P := fun m => Staged m ∧ DispatchHolds m ∧ Balanced base e.spec m)
      (fun hstep h => ⟨hstep.staged h.1, hstep.dispatchHolds h.1 h.2.1,
        hstep.slots.balanced hroom h.2.2⟩) hm ⟨hstaged, .inl rfl, hstart⟩
  have hends := advanceOpen_ends limits core e x
  generalize advanceOpen limits core e x = out at hends ⊢
  cases hends with
  | @settled s steps =>
    exact ⟨s.report, (report_slots s).balanced hroom (hsteps steps).2.2, rfl, rfl, rfl, rfl⟩
  | @stopped m error s steps stop =>
    obtain ⟨hm, hholds, hbalanced⟩ := hsteps steps
    refine ⟨s, stop.slots.balanced hroom hbalanced, rfl, rfl, rfl, ?_⟩
    rw [stop.sent, stop.dispatchHolds hm hholds]
    rfl

/-! ## Other events -/

theorem retryAuthorized_room {spec : EnsembleSpec} {c : CandidateRecord} {failure : EnsembleError}
    (h : retryAuthorized spec c failure = true) :
    c.attemptsUsed < spec.retry.maxAttempts.toNat := by
  unfold retryAuthorized at h
  split at h
  · cases h
  · split at h
    · cases h
    · omega

/-- The rewind of a dispatched candidate is its next attempt. -/
theorem rewound_nextAttempt {spec : EnsembleSpec} {c : CandidateRecord} {failure : EnsembleError}
    (hstate : c.state = .dispatched) (hretry : retryAuthorized spec c failure = true)
    (worker : WorkerId) (workerBoot : WorkerBootId) :
    NextAttempt spec c (rewoundCandidate { c with worker, workerBoot }) :=
  ⟨rfl, rfl, rfl, rfl, hstate, rfl, retryAuthorized_room hretry⟩

/-- The failure report rewinds a candidate that waits for its dispatch, in an
execution that goes on. -/
def failureTakesAttempt (f : Fabric) (a : ParticipantAuthority) (kind : ParticipantFailureKind) :
    Bool :=
  match admitFailureReport f a with
  | .error _ => false
  | .ok seat =>
      !cancelsExecution seat.ensemble seat.participant && seat.ensemble.execution.any fun x =>
        x.status == .opened && x.candidates.any fun c =>
          c.state == .declared && c.heldBy seat.participant
            && retryAuthorized seat.ensemble.spec c (failureError kind)

/-- The event takes an attempt that was never dispatched. -/
def System.takesAttempt (s : System) : Event → Bool
  | .reportParticipantFailure a kind _ => failureTakesAttempt s.fabric a kind
  | _ => false

/-- What became of a slot in one event. -/
structure SlotFollows (spec : EnsembleSpec) (opened : Prop) (c c' : CandidateRecord) : Prop where
  id : c'.id = c.id
  used : c'.attemptsUsed = c.attemptsUsed
  open_ : opened → SameCounters c c' ∨ NextAttempt spec c c'

theorem SameCounters.follows {spec : EnsembleSpec} {opened : Prop} {c c' : CandidateRecord}
    (h : SameCounters c c') : SlotFollows spec opened c c' :=
  ⟨h.id, h.used, fun _ => .inl h⟩

theorem NextAttempt.follows {spec : EnsembleSpec} {opened : Prop} {c c' : CandidateRecord}
    (h : NextAttempt spec c c') : SlotFollows spec opened c c' :=
  ⟨h.id, h.used, fun _ => .inr h⟩

theorem releasedAs_follows {spec : EnsembleSpec} {p : ParticipantRecord}
    {kind : ParticipantFailureKind} {opened : Prop} {c : CandidateRecord} (detail : String)
    (h : opened → c.heldBy p = true → retryAuthorized spec c (failureError kind) = true →
      c.state ≠ .declared) : SlotFollows spec opened c (releasedAs spec p kind detail c) := by
  rw [releasedAs]
  by_cases hheld : c.heldBy p = true
  · rw [if_pos hheld]
    split
    · rename_i hretry
      refine ⟨rfl, rfl, fun hopen => .inr (rewound_nextAttempt ?_ hretry _ _)⟩
      have hflight := (not_or.mp (not_or.mp (heldBy_iff.mp hheld)).2).2
      rw [Bool.not_eq_false, CandidateRecord.inFlight, permitsOutput_eq_true] at hflight
      exact hflight.resolve_left (h hopen hheld hretry)
    · exact SameCounters.follows ⟨rfl, rfl, rfl, rfl, .inr rfl⟩
  · rw [if_neg hheld]
    exact (SameCounters.refl c).follows

theorem cancelInFlight_counters (e : EnsembleRecord) (x : ExecutionRecord)
    (cs : List CandidateRecord) (core : Core) :
    Forall₂ SameCounters cs (cancelInFlight e x cs core).1 := by
  rw [cancelInFlight_candidates]
  refine Slots.forall₂_map fun c _ => ?_
  unfold cancelledInFlight
  split
  · exact ⟨rfl, rfl, rfl, rfl, .inr rfl⟩
  · exact .refl c

/-- The slots of an execution after an event. -/
inductive SlotsAfter (s : System) (event : Event) (id : EnsembleId) (e e' : EnsembleRecord)
    (x' : ExecutionRecord) : Prop
  | fresh (none : x'.candidates = [])
  | advanced {x} (advances : event = .advance id e.spec.generation)
      (before : e.execution = some x) (status : x.status = .opened) (live : e.superseded = false)
      (record : e' = (advanceOpen s.fabric.config.limits s.fabric.core e x).1.ensemble.holding
        (advanceOpen s.fabric.config.limits s.fabric.core e x).1.execution)
      (execution : x' = (advanceOpen s.fabric.config.limits s.fabric.core e x).1.execution)
  | worked {x} (before : e.execution = some x) (spec : e'.spec = e.spec)
      (opened : x'.status = .opened → x.status = .opened)
      (slots : Forall₂ (SlotFollows e.spec (x'.status = .opened)) x.candidates x'.candidates)

theorem Written.slotsAfter {s : System} {event : Event} {id : EnsembleId} {e e' : EnsembleRecord}
    {x' : ExecutionRecord} (h : Written s event id e e') (hx' : e'.execution = some x')
    (htakes : s.takesAttempt event = false) : SlotsAfter s event id e e' x' := by
  have hsame : ∀ {x : ExecutionRecord}, x.candidates = x'.candidates →
      Forall₂ (SlotFollows e.spec (x'.status = .opened)) x.candidates x'.candidates := fun hcs => by
    rw [hcs]
    exact List.forall₂_same.mpr fun c _ => (SameCounters.refl c).follows
  cases h with
  | redefined => cases hx'
  | superseded =>
    obtain ⟨x, hx, rfl⟩ := Option.map_eq_some_iff.mp hx'
    refine .worked hx rfl (fun hopen => ?_) ?_
    · unfold supersededExecution at hopen
      split at hopen
      · cases hopen
      · exact hopen
    · unfold supersededExecution
      split
      · refine Slots.forall₂_map fun c _ => ?_
        split
        · exact SameCounters.follows ⟨rfl, rfl, rfl, rfl, .inr rfl⟩
        · exact (SameCounters.refl c).follows
      · exact List.forall₂_same.mpr fun c _ => (SameCounters.refl c).follows
  | seated _ at_ =>
    obtain rfl := at_.ensemble
    exact .worked hx' rfl (fun h => h) (hsame rfl)
  | started =>
    obtain rfl := Option.some.inj hx'
    exact .fresh rfl
  | withdrawn _ before status =>
    obtain rfl := Option.some.inj hx'
    exact .worked before rfl (fun hopen => hopen)
      ((cancelInFlight_counters e _ _ _).imp fun _ _ h => h.follows)
  | closed _ before status =>
    obtain rfl := Option.some.inj hx'
    refine .worked before rfl (fun hopen => by cases hopen) (Slots.forall₂_map fun c _ => ?_)
    split
    · exact SameCounters.follows ⟨rfl, rfl, rfl, rfl, .inr rfl⟩
    · exact (SameCounters.refl c).follows
  | advanced advances before status live result =>
    subst result
    exact .advanced advances before status live rfl (Option.some.inj hx').symm
  | received _ accept ensemble =>
    subst ensemble
    obtain rfl := Option.some.inj hx'
    obtain ⟨hlocated, -⟩ := acceptCandidate_eq_ok accept
    refine .worked hlocated.fenced.execution rfl (fun hopen => hopen)
      (Slots.forall₂_set (fun c => (SameCounters.refl c).follows) hlocated.at_ ?_)
    unfold classifiedCandidate
    split <;> exact SameCounters.follows ⟨rfl, rfl, rfl, rfl, .inr rfl⟩
  | retried _ accept ensemble _ retry =>
    subst ensemble
    obtain rfl := Option.some.inj hx'
    obtain ⟨hlocated, hstate⟩ := acceptCandidate_eq_ok accept
    exact .worked hlocated.fenced.execution rfl (fun hopen => hopen)
      (Slots.forall₂_set (fun c => (SameCounters.refl c).follows) hlocated.at_
        (rewound_nextAttempt hstate retry _ _).follows)
  | dropped _ accept ensemble =>
    subst ensemble
    obtain rfl := Option.some.inj hx'
    obtain ⟨hlocated, -⟩ := acceptCandidate_eq_ok accept
    exact .worked hlocated.fenced.execution rfl (fun hopen => hopen)
      (Slots.forall₂_set (fun c => (SameCounters.refl c).follows) hlocated.at_
        (SameCounters.follows ⟨rfl, rfl, rfl, rfl, .inr rfl⟩))
  | abstained _ accept ensemble =>
    subst ensemble
    obtain rfl := Option.some.inj hx'
    obtain ⟨hlocated, -⟩ := acceptCandidate_eq_ok accept
    exact .worked hlocated.fenced.execution rfl (fun hopen => hopen)
      (Slots.forall₂_set (fun c => (SameCounters.refl c).follows) hlocated.at_
        (SameCounters.follows ⟨rfl, rfl, rfl, rfl, .inr rfl⟩))
  | evaluated _ accept ensemble =>
    subst ensemble
    obtain rfl := Option.some.inj hx'
    have haccepted := acceptEvaluation_eq_ok accept
    exact .worked haccepted.execution rfl (fun hopen => hopen)
      (Slots.forall₂_set (fun c => (SameCounters.refl c).follows) haccepted.candidateAt
        (SameCounters.follows ⟨rfl, rfl, rfl, rfl, .inl rfl⟩))
  | lost _ _ ensemble =>
    subst ensemble
    exact .worked hx' rfl (fun hopen => hopen) (hsame rfl)
  | @released a seat kind detail x reports admits ensemble before status =>
    subst ensemble
    subst reports
    let p := lostParticipant seat.participant kind detail
    obtain ⟨hspec, -⟩ := handleParticipantFailure_tallies p kind detail (seat.write p) x
    have hcandidates := handleParticipantFailure_candidates p kind detail (seat.write p) x
    have hx'' : x' = if cancelsExecution (handleParticipantFailure (seat.write p) x p kind
          detail).1 p then
        { (handleParticipantFailure (seat.write p) x p kind detail).2 with status := .failed }
        else (handleParticipantFailure (seat.write p) x p kind detail).2 :=
      (Option.some.inj hx').symm
    have hslots : x'.candidates
        = x.candidates.map (releasedAs seat.ensemble.spec p kind detail) := by
      rw [hx'', ← show (seat.write p).spec = seat.ensemble.spec from rfl, ← hcandidates]
      split <;> rfl
    refine .worked before hspec (fun _ => status) ?_
    rw [hslots]
    refine Slots.forall₂_map fun c hc =>
      releasedAs_follows detail fun hopen hheld hretry hwaits => ?_
    -- the report goes on with the execution, and would rewind a waiting slot
    have hgoes : cancelsExecution seat.ensemble seat.participant = false := by
      rw [hx''] at hopen
      split at hopen
      · cases hopen
      · rename_i hgoes
        rw [cancelsExecution, hspec] at hgoes
        simpa [cancelsExecution, p, lostParticipant, Seat.write] using hgoes
    have htaken : failureTakesAttempt s.fabric a kind = true := by
      rw [failureTakesAttempt, admits]
      simp only [hgoes, before, status, Option.any_some, Bool.not_false, Bool.true_and,
        beq_self_eq_true,
        List.any_eq_true, Bool.and_eq_true, beq_iff_eq]
      exact ⟨c, hc, ⟨hwaits, hheld⟩, hretry⟩
    rw [show failureTakesAttempt s.fabric a kind = false from htakes] at htaken
    cases htaken
  | cancelled _ before =>
    obtain rfl := Option.some.inj hx'
    exact .worked before rfl (fun hopen => by cases hopen) (hsame rfl)
  | invalidated =>
    obtain ⟨x, hx, rfl⟩ := Option.map_eq_some_iff.mp hx'
    refine .worked hx rfl (fun hopen => ?_) ?_
    · unfold invalidatedExecution at hopen
      split at hopen
      · cases hopen
      · exact hopen
    · unfold invalidatedExecution
      split
      · refine Slots.forall₂_map fun c _ => ?_
        unfold invalidatedCandidate
        split
        · exact SameCounters.follows ⟨rfl, rfl, rfl, rfl, .inr rfl⟩
        · exact (SameCounters.refl c).follows
      · exact List.forall₂_same.mpr fun c _ => (SameCounters.refl c).follows
  | reported _ before =>
    obtain rfl := Option.some.inj hx'
    refine .worked before rfl (fun hopen => hopen) (Slots.forall₂_map fun c _ => ?_)
    rw [markElimination_eq _ c]
    exact SameCounters.follows ⟨rfl, rfl, rfl, rfl, .inl rfl⟩
  | attempted _ before =>
    obtain rfl := Option.some.inj hx'
    exact .worked before rfl (fun hopen => hopen) (hsame rfl)
  | @stored r x resultId sequence _ stores =>
    obtain ⟨htarget, -⟩ := storesIn_eq_some.mp stores
    obtain rfl := Option.some.inj hx'
    refine .worked (commitTarget_eq_ok htarget).execution rfl (fun hopen => ?_) ?_
    · rw [storeResult_status] at hopen
      exact absurd hopen (statusFor_ne_opened _)
    · obtain ⟨settle, hcandidates, rfl | rfl⟩ := storeResult_candidates s.fabric.config.limits e
        { x with commitAttempts := x.commitAttempts + 1 } (stampedResult r resultId sequence)
      · rw [hcandidates, List.map_id]
        exact List.forall₂_same.mpr fun c _ => (SameCounters.refl c).follows
      · rw [hcandidates]
        refine Slots.forall₂_map fun c _ => ?_
        unfold settledCandidate
        split
        · exact SameCounters.follows ⟨rfl, rfl, rfl, rfl, .inr rfl⟩
        · split
          · exact SameCounters.follows ⟨rfl, rfl, rfl, rfl, .inr rfl⟩
          · exact (SameCounters.refl c).follows

/-! ## Runs -/

/-- What an event of the runtime emits. -/
def System.emits (s : System) : Event → List Emission
  | .advance id generation =>
      match s.fabric.find id with
      | none => []
      | some e => (dispatches (returnedActions (advance s.fabric id generation).2)).map
          fun action => ⟨e.spec, action⟩
  | _ => []

/-- Everything a run emitted, in order. -/
def emitted (config : FabricConfig) (events : List Event) : List Emission :=
  ledger System.next System.emits (System.initial config) events

/-- The event advances an open execution. -/
structure Works (s : System) (event : Event) (id : EnsembleId) (e : EnsembleRecord)
    (x : ExecutionRecord) : Prop where
  advances : event = .advance id e.spec.generation
  find : s.fabric.find id = some e
  execution : e.execution = some x
  status : x.status = .opened
  live : e.superseded = false

theorem cancelInFlight_sent (e : EnsembleRecord) (x : ExecutionRecord) (cs : List CandidateRecord)
    (core : Core) : dispatches (cancelInFlight e x cs core).2.1 = [] := by
  rw [dispatches, List.filterMap_eq_nil_iff]
  intro action haction
  obtain ⟨cancel, rfl⟩ := cancelInFlight_actions haction
  rfl

/-- Only the advance of an open execution dispatches. -/
theorem emits_idle {s : System} {event : Event} (h : ∀ id e x, ¬ Works s event id e x) :
    s.emits event = [] := by
  unfold System.emits
  split
  · rename_i id generation
    split
    · rfl
    · rename_i e he
      rw [List.map_eq_nil_iff]
      have hanswers := advance_answers s.fabric id generation
      generalize advance s.fabric id generation = out at hanswers ⊢
      cases hanswers with
      | refused | idle | closed => rfl
      | withdrawn => exact cancelInFlight_sent ..
      | worked find named execution status live =>
        subst named
        exact absurd ⟨rfl, find, execution, status, live⟩ (h _ _ _)
  · rfl

theorem Admitted.attempts {limits : Limits} {spec : EnsembleSpec} (h : Admitted limits spec) :
    1 ≤ spec.retry.maxAttempts.toNat := by
  obtain ⟨validated, hvalid, heq⟩ := h
  rw [heq]
  simp only [validateSpec, Checks.bind_eq_ok, require_eq_ok, bne_iff_ne] at hvalid
  obtain ⟨_, -, _, -, _, -, _, -, _, -, _, -, _, -, _, -, _, -, _, -, _, -, _, -, _, -, _, -, _, -,
    _, -, _, -, _, -, _, -, _, hattempts, -⟩ := hvalid
  show 1 ≤ validated.retry.maxAttempts.toNat
  rw [Nat.one_le_iff_ne_zero]
  exact fun hzero => hattempts (UInt32.toNat_inj.mp hzero)

/-- The identities of slots are only ever handed out. -/
theorem next_candidateIds {s : System} (hnamed : Named s.fabric) (event : Event) :
    s.fabric.core.candidateIds.next.toNat
      ≤ (s.next event).fabric.core.candidateIds.next.toNat := by
  obtain ⟨-, -, hsteps⟩ := next_viewSteps rfl hnamed (allows_all _ s event) ⟨0⟩
  exact ViewStep.related (R := fun v v' =>
      v.core.candidateIds.next.toNat ≤ v'.core.candidateIds.next.toNat)
    (fun _ => Nat.le_refl _) (fun h h' => Nat.le_trans h h')
    (fun hmove => hmove.core.candidateIds) (Nat.le_refl _) hsteps

/-- The slots of a state and the ledger of the run so far: the dispatches of every
slot count up, they are of identities that have been handed out, and the slots
of open executions know how many they have had. -/
structure Reconciled (s : System) (entries : List Emission) : Prop where
  counts : ∀ id, CountsUp (slotEmissions entries id)
  below : ∀ m ∈ entries,
    m.action.candidate.value.toNat < s.fabric.core.candidateIds.next.toNat
  used : ∀ id e x, s.fabric.find id = some e → e.execution = some x → ∀ c ∈ x.candidates,
    (slotEmissions entries c.id).length = c.attemptsUsed
  inStep : ∀ id e x, s.fabric.find id = some e → e.execution = some x → x.status = .opened →
    ∀ c ∈ x.candidates, InStep e.spec c

/-- An event that dispatches nothing. -/
theorem Reconciled.idle {s : System} {event : Event} {entries : List Emission}
    (h : Reconciled s entries) (hnamed : Named s.fabric) (htakes : s.takesAttempt event = false)
    (hidle : ∀ id e x, ¬ Works s event id e x) : Reconciled (s.next event) entries := by
  have hslots : ∀ id e' x', (s.next event).fabric.find id = some e' → e'.execution = some x' →
      x'.candidates = []
        ∨ ∃ e x, s.fabric.find id = some e ∧ e.execution = some x ∧ e'.spec = e.spec
          ∧ (x'.status = .opened → x.status = .opened)
          ∧ Forall₂ (SlotFollows e.spec (x'.status = .opened)) x.candidates x'.candidates := by
    intro id e' x' he' hx'
    rcases next_execution he' hx' with hsame | ⟨e, he, hwritten⟩
    · exact .inr ⟨_, x', hsame, hx', rfl, fun hopen => hopen,
        List.forall₂_same.mpr fun c _ => (SameCounters.refl c).follows⟩
    · cases hwritten.slotsAfter hx' htakes with
      | fresh none => exact .inl none
      | advanced advances before status live =>
        exact absurd ⟨advances, he, before, status, live⟩ (hidle id e _)
      | worked before spec opened slots => exact .inr ⟨e, _, he, before, spec, opened, slots⟩
  refine ⟨h.counts, fun m hm => Nat.lt_of_lt_of_le (h.below m hm) (next_candidateIds hnamed event),
    fun id e' x' he' hx' c' hc' => ?_, fun id e' x' he' hx' hopen c' hc' => ?_⟩
  · rcases hslots id e' x' he' hx' with hnone | ⟨e, x, he, hx, -, -, hfollows⟩
    · rw [hnone] at hc'
      cases hc'
    · obtain ⟨c, hc, hfollow⟩ := Slots.exists_left hfollows hc'
      rw [hfollow.id, hfollow.used]
      exact h.used id e x he hx c hc
  · rcases hslots id e' x' he' hx' with hnone | ⟨e, x, he, hx, hspec, hopened, hfollows⟩
    · rw [hnone] at hc'
      cases hc'
    · obtain ⟨c, hc, hfollow⟩ := Slots.exists_left hfollows hc'
      have hin := h.inStep id e x he hx (hopened hopen) c hc
      rw [hspec]
      rcases hfollow.open_ hopen with hsame | hnext
      · exact hsame.inStep hin
      · exact hnext.inStep hin

/-- The advance of an open execution. -/
theorem Reconciled.works {config : FabricConfig} {before : List Event} {event : Event}
    {entries : List Emission} {id : EnsembleId} {e : EnsembleRecord} {x : ExecutionRecord}
    (h : Reconciled ((System.initial config).run before) entries)
    (hworks : Works ((System.initial config).run before) event id e x) :
    Reconciled (((System.initial config).run before).next event)
      (entries ++ ((System.initial config).run before).emits event) := by
  obtain ⟨hadvances, he, hx, hopen, hlive⟩ := hworks
  have hnamed := (reachable_named config before).2
  have hroom := (reachable_specInUse config before id e he).admitted.attempts
  have hstaged := reachable_staged config before he hx hopen
  have hapart := next_apart hnamed event (reachable_apart config before)
  generalize (System.initial config).run before = s at *
  subst hadvances
  have hstart : Balanced entries e.spec (advanceStart s.fabric.core e x) := by
    have hentries : (advanceStart s.fabric.core e x).entries entries e.spec = entries :=
      List.append_nil _
    refine ⟨rfl, hstaged.issued, h.below, List.forall_mem_nil _, h.inStep id e x he hx hopen,
      ?_, ?_⟩
    · rw [hentries]
      exact h.used id e x he hx
    · rw [hentries]
      exact h.counts
  obtain ⟨final, hbalanced, hensemble, hexecution, hcore, hsent⟩ :=
    @advanceOpen_balanced s.fabric.config.limits _ _ _ _ hroom hstaged hstart
  have hworked := advance_worked he rfl hx hopen hlive
  have hemits : entries ++ s.emits (.advance id e.spec.generation)
      = final.entries entries e.spec := by
    rw [System.emits, he]
    simp only
    rw [hworked, AdvanceState.entries, hsent]
  have hfabric : (s.next (.advance id e.spec.generation)).fabric
      = { s.fabric with core := final.core }.store id (final.ensemble.holding final.execution) := by
    rw [hensemble, hexecution, hcore]
    exact congrArg Prod.fst hworked
  have hfind : ∀ other e', (s.next (.advance id e.spec.generation)).fabric.find other = some e' →
      id = other ∧ e' = final.ensemble.holding final.execution
        ∨ id ≠ other ∧ s.fabric.find other = some e' := by
    intro other e' he'
    rw [hfabric, Fabric.find_store] at he'
    split at he'
    · rename_i hsame
      exact .inl ⟨hsame, (Option.some.inj he').symm⟩
    · rename_i hother
      exact .inr ⟨hother, he'⟩
  rw [hemits]
  refine ⟨hbalanced.counts, fun m hm => ?_, fun other e' x' he' hx' c hc => ?_,
    fun other e' x' he' hx' hopen' c hc => ?_⟩
  · rw [hfabric]
    exact hbalanced.below m hm
  · rcases hfind other e' he' with ⟨rfl, rfl⟩ | ⟨hother, hold⟩
    · obtain rfl := Option.some.inj hx'
      exact hbalanced.used c hc
    · rw [AdvanceState.entries, slotEmissions_append, List.length_append,
        h.used other e' x' hold hx' c hc]
      -- what the advance dispatched belongs to its own ensemble
      have hnone :
          slotEmissions ((dispatches final.actions).map fun action => ⟨e.spec, action⟩) c.id
          = [] := by
        rw [slotEmissions, List.filter_eq_nil_iff]
        intro m hm heq
        obtain ⟨action, haction, rfl⟩ := List.mem_map.mp hm
        have hdisjoint := hapart.candidates id other hother
        rw [View.candidateIds_of (by rw [Fabric.view, hfabric, Fabric.find_store_self]) rfl,
          View.candidateIds_of he' hx'] at hdisjoint
        refine hdisjoint (hbalanced.sent action haction) ?_
        rw [beq_iff_eq] at heq
        rw [heq]
        exact List.mem_map_of_mem hc
      rw [hnone]
      rfl
  · rcases hfind other e' he' with ⟨rfl, rfl⟩ | ⟨-, hold⟩
    · obtain rfl := Option.some.inj hx'
      rw [show (final.ensemble.holding final.execution).spec = e.spec from hbalanced.sameSpec]
      exact hbalanced.inStep c hc
    · exact h.inStep other e' x' hold hx' hopen' c hc

/-- The dispatches of every slot count its attempts. -/
structure AttemptsNumbered (s : System) (entries : List Emission) : Prop where
  attempt : ∀ id n m, (slotEmissions entries id)[n]? = some m →
    m.action.attempt = n + 1 ∧ n + 1 ≤ m.spec.retry.maxAttempts.toNat
  generation : ∀ id, (slotEmissions entries id).Pairwise fun earlier later =>
    earlier.action.candidateGeneration.value < later.action.candidateGeneration.value
  used : ∀ id e x, s.fabric.find id = some e → e.execution = some x → ∀ c ∈ x.candidates,
    c.attemptsUsed = (slotEmissions entries c.id).length

theorem CountsUp.increasing {entries : List Emission} (h : CountsUp entries) :
    entries.Pairwise fun earlier later =>
      earlier.action.candidateGeneration.value < later.action.candidateGeneration.value := by
  rw [List.pairwise_iff_getElem]
  intro i j hi hj hij
  obtain ⟨-, hfirst, -⟩ := h i _ (List.getElem?_eq_getElem hi)
  obtain ⟨-, hsecond, -⟩ := h j _ (List.getElem?_eq_getElem hj)
  rw [UInt64.lt_iff_toNat_lt]
  omega

/-- In every run in which no failure report takes an attempt that waits for
its dispatch, the `n`-th dispatch of every slot is attempt `n` and within the
attempts its specification allows, every dispatch has a greater generation
than the earlier ones, and the attempts used are the dispatches. -/
theorem dispatches_are_numbered (config : FabricConfig) (events : List Event)
    (htakes : Along System.next (fun s event => s.takesAttempt event = false)
      (System.initial config) events) :
    AttemptsNumbered ((System.initial config).run events) (emitted config events) := by
  have hreconciled : Reconciled ((System.initial config).run events) (emitted config events) := by
    refine run_ledger (I := Reconciled) (fun before event hevent h => ?_)
      htakes ⟨fun _ n m hm => ?_, List.forall_mem_nil _, fun id e x he => ?_, fun id e x he => ?_⟩
    · by_cases hworks : ∃ id e x, Works ((System.initial config).run before) event id e x
      · obtain ⟨id, e, x, hworks⟩ := hworks
        exact h.works hworks
      · have hidle : ∀ id e x, ¬ Works ((System.initial config).run before) event id e x :=
          fun id e x hw => hworks ⟨id, e, x, hw⟩
        rw [emits_idle hidle, List.append_nil]
        exact h.idle (reachable_named config before).2 hevent hidle
    · cases hm
    · cases he
    · cases he
  refine ⟨fun id n m hm => ?_, fun id => (hreconciled.counts id).increasing,
    fun id e x he hx c hc => (hreconciled.used id e x he hx c hc).symm⟩
  obtain ⟨hattempt, -, hbound⟩ := hreconciled.counts id n m hm
  exact ⟨hattempt, hbound⟩

namespace Sample

/-- The worker of participant 1 is lost, and a new one takes its seat. -/
def replaced : List Event := [workerLost, register 1]

/-- The attempt and the generation of every dispatch. -/
def numbers (entries : List Emission) : List (UInt64 × Nat × UInt64) :=
  entries.map fun m =>
    (m.action.candidate.value, m.action.attempt, m.action.candidateGeneration.value)

end Sample

/-- The worker of participant 1 is lost while its candidate is in flight, and a new
one takes the seat. Its dispatch is numbered on from the lost one. -/
theorem replaced_is_numbered :
    AttemptsNumbered ((System.initial {}).run
        (Sample.start Sample.threeAttempts ++ Sample.replaced ++ [Sample.advance]))
      (emitted {} (Sample.start Sample.threeAttempts ++ Sample.replaced ++ [Sample.advance])) :=
  dispatches_are_numbered {} _ (by decide +kernel)

/-- Where the loss is reported again, each further report takes the attempt
that waits: the second dispatch is attempt 3 after two reports, and after
three it is attempt 4 of three that are allowed. -/
theorem second_dispatch_skips_attempts :
    Sample.numbers (emitted {} (Sample.start Sample.threeAttempts ++ Sample.replaced
        ++ [Sample.advance])) = [(1, 1, 1), (1, 2, 2)]
      ∧ Sample.numbers (emitted {} (Sample.start Sample.threeAttempts ++ [Sample.workerLost]
        ++ Sample.replaced ++ [Sample.advance])) = [(1, 1, 1), (1, 3, 3)]
      ∧ Sample.numbers (emitted {} (Sample.start Sample.threeAttempts
        ++ [Sample.workerLost, Sample.workerLost] ++ Sample.replaced ++ [Sample.advance]))
          = [(1, 1, 1), (1, 4, 4)] := by
  decide +kernel

end EnsembleFabric
