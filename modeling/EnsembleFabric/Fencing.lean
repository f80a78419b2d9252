import EnsembleFabric.Refinement.Fences

/-!
# Authorities that are passed by

A candidate authority names a generation of its ensemble, an execution, a
generation of a seat and a generation of a candidate slot. Each of them
only moves up, so an ensemble that moves past any of them never matches
the authority again. Between two generations a slot may stop taking output
and a seat may be lost; neither is undone without the next generation.

The combined statement is `Move.passed`, and `Move.accepted` says that an
authority that was accepted is either accepted still or passed by. Both
need a bound under which no generation is the last word: a wrapped
generation would start again.

The proof goes up the records. `SlotStep` and `SeatStep` are what one event
does to a slot and to a seat as far as the fence looks at them;
`ExecutionFence` and `EnsembleFence` collect them for an execution and for an
ensemble, and `Move.fence` says that every move of the refinement is one of
these. An authority is passed by in one of four ways (`Passed`), one for each
of the four it names, and each way is kept by every later move.
-/

namespace EnsembleFabric

open List (Forall₂)

/-! ## Candidate slots -/

/-- What a step does to a candidate slot, as far as the fence looks at it:
a slot of one generation does not become in flight again. -/
inductive SlotStep (bound : Nat) (c c' : CandidateRecord) : Prop
  | kept (slot : SameSlot c c') (flight : c'.inFlight = true → c.inFlight = true)
      (dispatched : c.state = .dispatched → c'.inFlight = true → c'.state = .dispatched)
  | advanced (id : c'.id = c.id) (room : c.generation.value.toNat < bound)
      (generation : c'.generation = c.generation.next)

/-- The slot has moved on from the generation, or takes no more output in
it. -/
def SlotPassed (generation : CandidateGeneration) (c : CandidateRecord) : Prop :=
  generation.value < c.generation.value ∨ c.generation = generation ∧ c.inFlight = false

theorem SlotStep.refl (bound : Nat) (c : CandidateRecord) : SlotStep bound c c :=
  .kept (.refl c) (fun h => h) fun h _ => h

theorem SlotStep.closed {bound : Nat} {c c' : CandidateRecord} (slot : SameSlot c c')
    (flight : c'.inFlight = false) : SlotStep bound c c' := by
  refine .kept slot (fun h => ?_) fun _ h => ?_ <;>
  · rw [flight] at h
    cases h

theorem SlotStep.id {bound : Nat} {c c' : CandidateRecord} (h : SlotStep bound c c') :
    c'.id = c.id := by
  cases h with
  | kept slot => exact slot.id
  | advanced id => exact id

theorem CandidateStep.slotStep {limits : Limits} {bound : Nat} {c c' : CandidateRecord}
    (h : CandidateStep limits c c') : SlotStep bound c c' := by
  cases h with
  | kept slot state =>
    refine .kept slot (fun hflight => ?_) fun hdispatched _ => state.trans hdispatched
    rwa [CandidateRecord.inFlight, state] at hflight
  | dispatched slot before after =>
    refine .kept slot (fun _ => ?_) fun _ _ => after
    simp [CandidateRecord.inFlight, before, permitsOutput]
  | received slot before after =>
    exact .closed slot (by simp [CandidateRecord.inFlight, after, permitsOutput])
  | closed slot _ flight => exact .closed slot flight

/-- A commit puts no candidate in flight. -/
theorem settledCandidate_slotStep (bound : Nat) (selected : CandidateId) (c : CandidateRecord) :
    SlotStep bound c (settledCandidate selected c) := by
  unfold settledCandidate
  split
  · exact .closed ⟨rfl, rfl, rfl⟩ rfl
  · split
    · exact .closed ⟨rfl, rfl, rfl⟩ rfl
    · exact .refl bound c

/-- A generation below the bound is below the next one. -/
theorem StrongId.lt_next_of_room {domain : IdDomain} {id : StrongId domain} {bound : Nat}
    (hbound : bound < 2 ^ 64) (room : id.value.toNat < bound) : id.value < id.next.value := by
  rw [UInt64.lt_iff_toNat_lt, StrongId.next_toNat (by omega)]
  exact Nat.lt_succ_self _

theorem SlotStep.passed {bound : Nat} (hbound : bound < 2 ^ 64) {c c' : CandidateRecord}
    (h : SlotStep bound c c') {generation : CandidateGeneration}
    (hpassed : SlotPassed generation c) : SlotPassed generation c' := by
  cases h with
  | kept slot flight =>
    rcases hpassed with hlater | ⟨hsame, hclosed⟩
    · exact .inl (by rw [slot.generation]; exact hlater)
    · refine .inr ⟨slot.generation.trans hsame, ?_⟩
      cases hflight : c'.inFlight with
      | false => rfl
      | true =>
        rw [flight hflight] at hclosed
        cases hclosed
  | advanced _ room hgeneration =>
    refine .inl ?_
    have hnext := StrongId.lt_next_of_room hbound room
    rw [← hgeneration] at hnext
    rcases hpassed with hlater | ⟨hsame, -⟩
    · exact UInt64.lt_trans hlater hnext
    · rwa [hsame] at hnext

/-- A dispatched slot stays dispatched, or is passed. -/
theorem SlotStep.dispatched {bound : Nat} (hbound : bound < 2 ^ 64) {c c' : CandidateRecord}
    (h : SlotStep bound c c') (hstate : c.state = .dispatched) :
    SameSlot c c' ∧ c'.state = .dispatched ∨ SlotPassed c.generation c' := by
  cases h with
  | kept slot _ dispatched =>
    cases hflight : c'.inFlight with
    | true => exact .inl ⟨slot, dispatched hstate hflight⟩
    | false => exact .inr (.inr ⟨slot.generation, hflight⟩)
  | advanced _ room hgeneration =>
    refine .inr (.inl ?_)
    rw [hgeneration]
    exact StrongId.lt_next_of_room hbound room

/-- Every candidate slot of an execution makes a slot step. -/
theorem ExecutionStep.slots {sc : Scope} {e : EnsembleRecord} {x x' : ExecutionRecord}
    (h : ExecutionStep sc e x x') :
    Forall₂ (SlotStep sc.bound) x.candidates x'.candidates := by
  have hrefl : Forall₂ (SlotStep sc.bound) x.candidates x.candidates :=
    List.forall₂_same.mpr fun c _ => .refl sc.bound c
  cases h with
  | bookkeeping same => rwa [same.candidates]
  | cancel _ same => rwa [same.candidates]
  | candidates steps => exact steps.imp fun _ _ hstep => hstep.slotStep
  | drop at_ _ slot after =>
    exact Slots.forall₂_set (.refl sc.bound) at_
      (.closed slot (by simp [CandidateRecord.inFlight, after, permitsOutput]))
  | rewind at_ _ id _ room generation =>
    exact Slots.forall₂_set (.refl sc.bound) at_ (.advanced id room generation)
  | @commit stored =>
    obtain ⟨settle, heq, rfl | rfl⟩ := storeResult_candidates sc.limits e x stored
    · simpa [heq] using hrefl
    · rw [heq]
      exact Slots.forall₂_map fun c _ => settledCandidate_slotStep sc.bound _ c
  | _ => exact hrefl

/-- An execution keeps its names. -/
theorem ExecutionStep.names {sc : Scope} {e : EnsembleRecord} {x x' : ExecutionRecord}
    (h : ExecutionStep sc e x x') :
    x'.id = x.id ∧ x'.attemptGeneration = x.attemptGeneration := by
  cases h with
  | bookkeeping same => exact ⟨same.id, same.attemptGeneration⟩
  | cancel _ same => exact ⟨same.id, same.attemptGeneration⟩
  | commit =>
    unfold storeResult
    split <;> exact ⟨rfl, rfl⟩
  | _ => exact ⟨rfl, rfl⟩

/-! ## Seats -/

/-- The seat has moved on from the generation, or was lost in it. A seat
that a worker incarnation held is not taken again in the same generation. -/
def SeatPassed (generation : ParticipantGeneration) (p : ParticipantRecord) : Prop :=
  generation.value < p.generation.value
    ∨ p.generation = generation ∧ p.workerBoot.valid = true
      ∧ (p.registered && p.status == .current) = false

theorem SeatStep.passed {bound : Nat} (hbound : bound < 2 ^ 64) {p p' : ParticipantRecord}
    (h : SeatStep bound p p') {generation : ParticipantGeneration}
    (hpassed : SeatPassed generation p) : SeatPassed generation p' := by
  cases h with
  | kept same status registered =>
    rwa [SeatPassed, same.generation, same.workerBoot, status, registered]
  | lost same registered =>
    rcases hpassed with hlater | ⟨hsame, hboot, -⟩
    · exact .inl (by rw [same.generation]; exact hlater)
    · exact .inr ⟨same.generation.trans hsame, by rw [same.workerBoot]; exact hboot,
        by simp [registered]⟩
  | seated _ _ _ room hgeneration =>
    refine .inl ?_
    rcases hpassed with hlater | ⟨hsame, hboot, -⟩
    · rw [hgeneration]
      split
      · exact UInt64.lt_trans hlater (StrongId.lt_next_of_room hbound room)
      · exact hlater
    · rw [hgeneration, if_pos hboot, ← hsame]
      exact StrongId.lt_next_of_room hbound room

/-- A seat held by a worker incarnation stays held by it, or is passed. -/
theorem SeatStep.held {bound : Nat} {p p' : ParticipantRecord} (h : SeatStep bound p p')
    {epoch : CoordinatorEpoch} (hauthoritative : p.authoritative epoch = true)
    (hboot : p.workerBoot.valid = true) :
    SameIncarnation p p' ∧ p'.authoritative epoch = true ∨ SeatPassed p.generation p' := by
  cases h with
  | kept same status registered =>
    refine .inl ⟨same, ?_⟩
    rwa [ParticipantRecord.authoritative, registered, status, same.coordinatorEpoch]
  | lost same registered =>
    exact .inr (.inr ⟨same.generation, by rw [same.workerBoot]; exact hboot, by simp [registered]⟩)
  | seated _ _ vacant =>
    simp [ParticipantRecord.authoritative, vacant] at hauthoritative

/-! ## Ensembles -/

/-- How the fence sees a later state of an execution, or a later execution. -/
inductive ExecutionFence (bound : Nat) (x x' : ExecutionRecord) : Prop
  | later (later : x.id.value < x'.id.value)
  | same (id : x'.id = x.id) (attempt : x'.attemptGeneration = x.attemptGeneration)
      (slots : ∀ {id c}, x.candidate? id = some c →
        ∃ c', x'.candidate? id = some c' ∧ SlotStep bound c c')

/-- How the fence sees a later state of an ensemble. -/
inductive EnsembleFence (bound : Nat) (e e' : EnsembleRecord) : Prop
  | later (later : e.spec.generation.value < e'.spec.generation.value)
  | same (generation : e'.spec.generation = e.spec.generation)
      (seats : ∀ {id p}, e.participant? id = some p →
        ∃ p', e'.participant? id = some p' ∧ SeatStep bound p p')
      (execution : ∀ {x}, e.execution = some x →
        ∃ x', e'.execution = some x' ∧ ExecutionFence bound x x')

theorem ExecutionFence.refl (bound : Nat) (x : ExecutionRecord) : ExecutionFence bound x x :=
  .same rfl rfl fun hc => ⟨_, hc, .refl bound _⟩

/-- Seats stay as they are; the execution moves on. -/
theorem EnsembleFence.holding {bound : Nat} {e : EnsembleRecord} {x x' : ExecutionRecord}
    (hx : e.execution = some x) (h : ExecutionFence bound x x') :
    EnsembleFence bound e (e.holding x') := by
  refine .same rfl (fun hp => ⟨_, hp, .refl bound _⟩) fun hy => ⟨x', rfl, ?_⟩
  obtain rfl := Option.some.inj (hx.symm.trans hy)
  exact h

theorem ExecutionStep.fence {sc : Scope} {e : EnsembleRecord} {x x' : ExecutionRecord}
    (h : ExecutionStep sc e x x') : ExecutionFence sc.bound x x' := by
  obtain ⟨hid, hattempt⟩ := h.names
  refine .same hid hattempt fun {id _} hc => ?_
  let test : CandidateRecord → Bool := fun c => c.id == id
  have htest : ∀ {c c'}, SlotStep sc.bound c c' → test c' = test c := fun hstep => by
    simp only [test, hstep.id]
  exact Slots.find?_follows test test htest h.slots hc

/-- The fence sees every move as a step of the ensemble, in one epoch. -/
theorem Move.fence {sc : Scope} {v v' : View} (h : Move sc v v') {e : EnsembleRecord}
    (he : v.entry = some e) :
    ∃ e', v'.entry = some e' ∧ EnsembleFence sc.bound e e' := by
  have hrefl : ∀ e, EnsembleFence sc.bound e e := fun e =>
    .same rfl (fun hp => ⟨_, hp, .refl sc.bound _⟩) fun hx => ⟨_, hx, .refl sc.bound _⟩
  cases h with
  | tick => exact ⟨e, he, hrefl e⟩
  | define => cases he
  | redefine _ last generation =>
    obtain rfl := Option.some.inj he
    refine ⟨_, rfl, .later ?_⟩
    rw [redefinedRecord_spec, generation]
    exact StrongId.lt_next last
  | supersede =>
    obtain rfl := Option.some.inj he
    exact ⟨_, rfl, .same rfl (fun hp => ⟨_, hp, .refl sc.bound _⟩)
      fun hx => ⟨_, hx, .refl sc.bound _⟩⟩
  | seats steps =>
    obtain rfl := Option.some.inj he
    refine ⟨_, rfl, .same rfl (fun {id _} hp => ?_) fun hx => ⟨_, hx, .refl sc.bound _⟩⟩
    let test : ParticipantRecord → Bool := fun p => p.id == id
    have htest : ∀ {p p'}, SeatStep sc.bound p p' → test p' = test p := fun hstep => by
      simp only [test, hstep.id]
    exact Slots.find?_follows test test htest steps hp
  | openFirst _ fresh =>
    obtain rfl := Option.some.inj he
    refine ⟨_, rfl, .same rfl (fun hp => ⟨_, hp, .refl sc.bound _⟩) fun hx => ?_⟩
    rw [fresh] at hx
    cases hx
  | openNext _ before _ last =>
    obtain rfl := Option.some.inj he
    exact ⟨_, rfl, .holding before (.later (StrongId.lt_next last))⟩
  | work before step =>
    obtain rfl := Option.some.inj he
    exact ⟨_, rfl, .holding before step.fence⟩
  | declare before =>
    obtain rfl := Option.some.inj he
    refine ⟨_, rfl, .holding before (.same rfl rfl fun hc => ⟨_, ?_, .refl sc.bound _⟩)⟩
    exact List.find?_append.trans (by rw [ExecutionRecord.candidate?] at hc; rw [hc]; rfl)
  | plan before =>
    obtain rfl := Option.some.inj he
    exact ⟨_, rfl, .holding before (.same rfl rfl fun hc => ⟨_, hc, .refl sc.bound _⟩)⟩

/-! ## Authorities -/

/-- The ensemble has moved on from the authority: from its generation, its
seat, its execution or its slot. -/
inductive Passed (a : CandidateAuthority) (e : EnsembleRecord) : Prop
  | generation (later : a.participant.ensembleGeneration.value < e.spec.generation.value)
  | seat {p} (current : e.spec.generation = a.participant.ensembleGeneration)
      (found : e.participant? a.participant.participant = some p)
      (passed : SeatPassed a.participant.participantGeneration p)
  | execution {x} (current : e.spec.generation = a.participant.ensembleGeneration)
      (found : e.execution = some x) (later : a.execution.value < x.id.value)
  | slot {x c} (current : e.spec.generation = a.participant.ensembleGeneration)
      (found : e.execution = some x) (named : x.id = a.execution)
      (candidate : x.candidate? a.candidate = some c)
      (passed : SlotPassed a.candidateGeneration c)

/-- Once passed by, an authority stays so. -/
theorem EnsembleFence.passed {bound : Nat} (hbound : bound < 2 ^ 64) {a : CandidateAuthority}
    {e e' : EnsembleRecord} (h : EnsembleFence bound e e') (hpassed : Passed a e) :
    Passed a e' := by
  cases h with
  | later later =>
    refine .generation ?_
    cases hpassed with
    | generation earlier => exact UInt64.lt_trans earlier later
    | seat current | execution current | slot current => rwa [current] at later
  | same generation seats execution =>
    cases hpassed with
    | generation earlier => exact .generation (by rw [generation]; exact earlier)
    | seat current found passed =>
      obtain ⟨p', hp', hstep⟩ := seats found
      exact .seat (generation.trans current) hp' (hstep.passed hbound passed)
    | execution current found earlier =>
      obtain ⟨x', hx', hfence⟩ := execution found
      refine .execution (generation.trans current) hx' ?_
      cases hfence with
      | later later => exact UInt64.lt_trans earlier later
      | same id => rwa [id]
    | slot current found named candidate passed =>
      obtain ⟨x', hx', hfence⟩ := execution found
      cases hfence with
      | later later => exact .execution (generation.trans current) hx' (by rwa [named] at later)
      | same id _ slots =>
        obtain ⟨c', hc', hstep⟩ := slots candidate
        exact .slot (generation.trans current) hx' (id.trans named) hc'
          (hstep.passed hbound passed)

/-- The authority is passed by in the view. -/
def View.Passed (v : View) (a : CandidateAuthority) : Prop :=
  ∃ e, v.entry = some e ∧ EnsembleFabric.Passed a e

/-- The fence lets the authority through to a dispatched candidate. -/
def View.Accepts (v : View) (a : CandidateAuthority) : Prop :=
  ∃ e x p c, Fenced v a e x p c ∧ c.state = .dispatched

/-- An authority that is passed by is refused. -/
theorem View.Passed.refused {v : View} {a : CandidateAuthority} (h : v.Passed a) :
    ¬ v.Accepts a := by
  rintro ⟨e, x, p, c, hfenced, hstate⟩
  obtain ⟨e', he', hpassed⟩ := h
  obtain rfl := Option.some.inj (hfenced.ensemble.symm.trans he')
  cases hpassed with
  | generation later =>
    rw [hfenced.generation] at later
    exact UInt64.lt_irrefl _ later
  | seat _ found passed =>
    obtain rfl := Option.some.inj (hfenced.participant.symm.trans found)
    rcases passed with hlater | ⟨-, -, hlost⟩
    · rw [hfenced.participantGeneration] at hlater
      exact UInt64.lt_irrefl _ hlater
    · have hauthoritative := hfenced.authoritative
      simp [ParticipantRecord.authoritative, hlost] at hauthoritative
  | execution _ found later =>
    obtain rfl := Option.some.inj (hfenced.execution.symm.trans found)
    rw [hfenced.executionId] at later
    exact UInt64.lt_irrefl _ later
  | slot _ found _ candidate passed =>
    obtain rfl := Option.some.inj (hfenced.execution.symm.trans found)
    obtain rfl := Option.some.inj (hfenced.candidate.symm.trans candidate)
    rcases passed with hlater | ⟨-, hclosed⟩
    · rw [hfenced.candidateGeneration] at hlater
      exact UInt64.lt_irrefl _ hlater
    · simp [CandidateRecord.inFlight, hstate, permitsOutput] at hclosed

theorem workerBoot_of_validate {a : CandidateAuthority} (h : a.validate = .ok ()) :
    a.participant.workerBoot.valid = true := by
  simp only [CandidateAuthority.validate, ParticipantAuthority.validate, Checks.bind_eq_ok,
    requireIdentity, require_eq_ok] at h
  obtain ⟨_, ⟨_, -, _, -, _, -, _, -, _, -, _, hboot, -⟩, -⟩ := h
  exact hboot

/-- An authority that was accepted is accepted still, or passed by. -/
theorem EnsembleFence.accepted {bound : Nat} (hbound : bound < 2 ^ 64) {v v' : View}
    (hepoch : v'.core.epoch = v.core.epoch) {a : CandidateAuthority} {e e' : EnsembleRecord}
    (he' : v'.entry = some e') (h : EnsembleFence bound e e') {x : ExecutionRecord}
    {p : ParticipantRecord} {c : CandidateRecord} (hfenced : Fenced v a e x p c)
    (hstate : c.state = .dispatched) : v'.Accepts a ∨ v'.Passed a := by
  have hpasses : ∀ {e'}, v'.entry = some e' → Passed a e' → v'.Passed a :=
    fun he' hpassed => ⟨_, he', hpassed⟩
  cases h with
  | later later => exact .inr (hpasses he' (.generation (by rwa [hfenced.generation] at later)))
  | same generation seats execution =>
    have hcurrent := generation.trans hfenced.generation
    obtain ⟨p', hp', hseat⟩ := seats hfenced.participant
    obtain ⟨x', hx', hfence⟩ := execution hfenced.execution
    have hboot : p.workerBoot.valid = true := by
      rw [hfenced.workerBoot]
      exact workerBoot_of_validate hfenced.valid
    rcases hseat.held hfenced.authoritative hboot with ⟨hsame, hheld⟩ | hpassed
    · cases hfence with
      | later later =>
        exact .inr (hpasses he' (.execution hcurrent hx' (by rwa [hfenced.executionId] at later)))
      | same id attempt slots =>
        obtain ⟨c', hc', hslot⟩ := slots hfenced.candidate
        rcases hslot.dispatched hbound hstate with ⟨hkept, hdispatched⟩ | hpassed
        · refine .inl ⟨e', x', p', c', ⟨hfenced.valid, hfenced.epoch.trans hepoch.symm, he',
            hcurrent, hx', id.trans hfenced.executionId, attempt.trans hfenced.attempt, hp',
            hsame.generation.trans hfenced.participantGeneration,
            hsame.worker.trans hfenced.worker, hsame.workerBoot.trans hfenced.workerBoot,
            ?_, hc', hkept.generation.trans hfenced.candidateGeneration, ?_⟩, hdispatched⟩
          · rwa [hepoch]
          · rw [hkept.participant, hfenced.owner, hsame.id]
        · refine .inr (hpasses he' (.slot hcurrent hx' (id.trans hfenced.executionId) hc' ?_))
          rwa [hfenced.candidateGeneration] at hpassed
    · refine .inr (hpasses he' (.seat hcurrent hp' ?_))
      rwa [hfenced.participantGeneration] at hpassed

section Moves

variable {sc : Scope} {v v' : View} {a : CandidateAuthority}

theorem Move.passed (hbound : sc.bound < 2 ^ 64) (h : Move sc v v') (hpassed : v.Passed a) :
    v'.Passed a := by
  obtain ⟨e, he, hpassed⟩ := hpassed
  obtain ⟨e', he', hfence⟩ := h.fence he
  exact ⟨e', he', hfence.passed hbound hpassed⟩

theorem Move.accepted (hbound : sc.bound < 2 ^ 64) (h : Move sc v v') (haccepts : v.Accepts a) :
    v'.Accepts a ∨ v'.Passed a := by
  obtain ⟨e, x, p, c, hfenced, hstate⟩ := haccepts
  obtain ⟨e', he', hfence⟩ := h.fence hfenced.ensemble
  exact hfence.accepted hbound h.core.epoch he' hfenced hstate

end Moves

end EnsembleFabric
