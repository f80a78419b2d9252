import EnsembleFabric.CommitGate
import EnsembleFabric.ExactlyOnce

/-!
# Settled executions

`is_settled` says that a settled execution is the only one that may be
committed. The gate does not ask. An execution that has settled stays so
under every operation except two: an advance may find new work, and a
registration may bring back a participant that left work behind. So a
result is stored on a settled execution as long as it was prepared on one
and neither happens before it reaches the gate.

`KeepsSettled` is the relation every operation is checked for, one lemma
each (`defineEnsemble_keepsSettled` and so on). For most it holds because
seats only get less capable (`NoneRecovered`) and work only gets less
(`Idle.mono`); the release of the work of a lost participant leaves
candidates that wait for somebody who cannot act.

The run theorem is about values on their way to the gate. A value is
outstanding once it was prepared, or once a client is inside `finalize` with
it; `SettledWhereOutstanding` is the invariant that the execution of every
outstanding value is settled, and `Orderly` the condition on an event under
which it is kept:

> stored_when_settled : in every orderly run, whenever a value reaches the
> gate and is stored, the execution is settled in that very state.
-/

namespace EnsembleFabric

open List (Forall₂)
open EventSystem

/-! ## Settledness -/

/-- The participant of this identity can still act. -/
def canAct (e : EnsembleRecord) (id : ParticipantId) : Bool :=
  (e.participant? id).any (·.capable)

/-- Nothing of the execution is left to do: its stages are used up, and what is in
flight or outstanding belongs to participants that cannot act. -/
structure Idle (e : EnsembleRecord) (x : ExecutionRecord) : Prop where
  stages : e.spec.effectiveStages.length + x.extraStages.length ≤ x.stageIndex
  candidates : ∀ c ∈ x.candidates, c.inFlight = true → canAct e c.participant = false
  pending : ∀ p ∈ x.pending, p.answered = false → p.abandoned = false →
    canAct e p.evaluator = false

/-- An execution is settled when it is closed or idle. -/
theorem executionSettled_iff {e : EnsembleRecord} {x : ExecutionRecord}
    (hx : e.execution = some x) :
    executionSettled e = true ↔ (x.status = .opened → Idle e x) := by
  simp only [executionSettled, hx]
  split
  · rename_i hclosed
    exact ⟨fun _ hopen => absurd hopen hclosed, fun _ => rfl⟩
  · rename_i hopen
    have hopen' : x.status = .opened := not_not.mp hopen
    split
    · rename_i hstages
      refine ⟨fun h => (Bool.false_ne_true h).elim, fun h => ?_⟩
      have hidle := (h hopen').stages
      omega
    · rename_i hstages
      simp only [Bool.and_eq_true, List.all_eq_true, Bool.or_eq_true, Bool.not_eq_true']
      constructor
      · rintro ⟨hcandidates, hpending⟩ _
        refine ⟨by omega, fun c hc hflight => ?_, fun p hp hanswered habandoned => ?_⟩
        · rcases hcandidates c hc with hf | hact
          · rw [hflight] at hf
            cases hf
          · exact hact
        · rcases hpending p hp with (ha | hab) | hact
          · rw [hanswered] at ha
            cases ha
          · rw [habandoned] at hab
            cases hab
          · exact hact
      · intro h
        have hidle := h hopen'
        refine ⟨fun c hc => ?_, fun p hp => ?_⟩
        · cases hflight : c.inFlight with
          | false => exact .inl rfl
          | true => exact .inr (hidle.candidates c hc hflight)
        · cases hanswered : p.answered with
          | true => exact .inl (.inl rfl)
          | false =>
            cases habandoned : p.abandoned with
            | true => exact .inl (.inr rfl)
            | false => exact .inr (hidle.pending p hp hanswered habandoned)

theorem settled_of_closed {e : EnsembleRecord} {x : ExecutionRecord} (hx : e.execution = some x)
    (hclosed : x.status ≠ .opened) : executionSettled e = true :=
  (executionSettled_iff hx).mpr fun hopen => absurd hopen hclosed

/-- The seats of `e'` are those of `e`, and none of them became capable. -/
def NoneRecovered (e e' : EnsembleRecord) : Prop :=
  Forall₂ (fun p p' : ParticipantRecord => p'.id = p.id ∧ (p'.capable = true → p.capable = true))
    e.participants e'.participants

theorem canAct_of_noneRecovered {e e' : EnsembleRecord} (h : NoneRecovered e e')
    {id : ParticipantId} (hact : canAct e id = false) : canAct e' id = false := by
  rcases Slots.find?_related (fun p : ParticipantRecord => p.id == id)
    (fun p : ParticipantRecord => p.id == id) (fun hr => by rw [hr.1]) h
    with ⟨-, hnone⟩ | ⟨p, p', hp, hp', -, hcapable⟩
  · simp [canAct, EnsembleRecord.participant?, hnone]
  · have hp₀ : p.capable = false := by
      simpa [canAct, EnsembleRecord.participant?, hp] using hact
    cases hc : p'.capable with
    | true =>
      rw [hcapable hc] at hp₀
      cases hp₀
    | false => simp [canAct, EnsembleRecord.participant?, hp', hc]

/-- An execution stays idle when nothing of it comes back. -/
theorem Idle.mono {e e' : EnsembleRecord} {x x' : ExecutionRecord} (h : Idle e x)
    (hspec : e'.spec = e.spec) (hseats : NoneRecovered e e')
    (hstages : x'.extraStages = x.extraStages ∧ x'.stageIndex = x.stageIndex)
    (hcandidates : ∀ c' ∈ x'.candidates, c'.inFlight = true →
      (∃ c ∈ x.candidates, c.inFlight = true ∧ c.participant = c'.participant)
        ∨ canAct e' c'.participant = false)
    (hpending : ∀ p' ∈ x'.pending, p'.answered = false → p'.abandoned = false →
      ∃ p ∈ x.pending, p.answered = false ∧ p.abandoned = false ∧ p.evaluator = p'.evaluator) :
    Idle e' x' := by
  refine ⟨?_, fun c' hc' hflight => ?_, fun p' hp' hanswered habandoned => ?_⟩
  · rw [hspec, hstages.1, hstages.2]
    exact h.stages
  · rcases hcandidates c' hc' hflight with ⟨c, hc, hflight', heq⟩ | hact
    · rw [← heq]
      exact canAct_of_noneRecovered hseats (h.candidates c hc hflight')
    · exact hact
  · obtain ⟨p, hp, ha, hab, heq⟩ := hpending p' hp' hanswered habandoned
    rw [← heq]
    exact canAct_of_noneRecovered hseats (h.pending p hp ha hab)

/-! ## What keeps an execution settled -/

/-- Where the ensemble still has the same execution, it is still settled. -/
def KeepsSettledAt (f f' : Fabric) (id : EnsembleId) : Prop :=
  ∀ e e' x x', f.find id = some e → f'.find id = some e' →
    e'.spec.generation = e.spec.generation → e.execution = some x → e'.execution = some x' →
    x'.id = x.id → executionSettled e = true → executionSettled e' = true

def KeepsSettled (f f' : Fabric) : Prop := ∀ id, KeepsSettledAt f f' id

theorem keepsSettledAt_of_find {f f' : Fabric} {id : EnsembleId} (h : f'.find id = f.find id) :
    KeepsSettledAt f f' id := by
  intro e e' x x' he he' _ _ _ _ hsettled
  rw [h, he] at he'
  obtain rfl := Option.some.inj he'
  exact hsettled

theorem KeepsSettled.refl (f : Fabric) : KeepsSettled f f := fun _ => keepsSettledAt_of_find rfl

theorem keepsSettled_reject {α : Type} (f : Fabric) (r : Refusal) :
    KeepsSettled f (f.reject (α := α) r).1 :=
  fun _ => keepsSettledAt_of_find rfl

/-- Writing one ensemble back, as another one sees it. -/
theorem keepsSettledAt_store {f : Fabric} {k : Core} {id other : EnsembleId}
    {e' : EnsembleRecord}
    (h : id = other → ∀ e x x', f.find id = some e → e'.spec.generation = e.spec.generation →
      e.execution = some x → e'.execution = some x' → x'.id = x.id →
      executionSettled e = true → executionSettled e' = true) :
    KeepsSettledAt f ({ f with core := k }.store id e') other := by
  intro e₀ e₁ x x' he₀ he₁ hgen hx hx' hid hsettled
  rw [Fabric.find_store] at he₁
  split at he₁
  · rename_i heq
    subst heq
    obtain rfl := Option.some.inj he₁
    exact h rfl e₀ x x' he₀ hgen hx hx' hid hsettled
  · have hsame : f.find other = some e₁ := he₁
    obtain rfl := Option.some.inj (he₀.symm.trans hsame)
    exact hsettled

theorem keepsSettled_store {f : Fabric} {k : Core} {id : EnsembleId} {e' : EnsembleRecord}
    (h : ∀ e x x', f.find id = some e → e'.spec.generation = e.spec.generation →
      e.execution = some x → e'.execution = some x' → x'.id = x.id →
      executionSettled e = true → executionSettled e' = true) :
    KeepsSettled f ({ f with core := k }.store id e') :=
  fun _ => keepsSettledAt_store fun _ => h

/-- Writing back an ensemble whose execution is closed. -/
theorem keepsSettled_closed {f : Fabric} {k : Core} {id : EnsembleId} {e : EnsembleRecord}
    {x : ExecutionRecord} (hclosed : x.status ≠ .opened) :
    KeepsSettled f ({ f with core := k }.store id (e.holding x)) :=
  keepsSettled_store fun _ _ _ _ _ _ _ _ _ => settled_of_closed rfl hclosed

/-! ### Definition and membership -/

theorem defineEnsemble_keepsSettled (f : Fabric) (requested : EnsembleSpec) :
    KeepsSettled f (defineEnsemble f requested).1 := by
  unfold defineEnsemble
  split
  · exact .refl f
  · simp only
    split
    · exact fun _ => keepsSettledAt_of_find rfl
    · split
      · exact keepsSettled_store fun _ _ _ _ _ _ hx' => by cases hx'
      · split <;> exact keepsSettled_store fun _ _ _ _ _ _ hx' => by cases hx'

theorem supersededExecution_status (x : ExecutionRecord) :
    (supersededExecution x).status ≠ .opened := by
  unfold supersededExecution
  split
  · simp
  · assumption

theorem supersedeEnsemble_keepsSettled (f : Fabric) (id : EnsembleId)
    (generation : EnsembleGeneration) :
    KeepsSettled f (supersedeEnsemble f id generation).1 := by
  unfold supersedeEnsemble
  split
  · exact .refl f
  · rename_i e hfind
    split
    · exact .refl f
    · refine keepsSettled_store fun _ _ x' _ _ _ hx' _ _ => ?_
      have hclosed : x'.status ≠ .opened := by
        obtain ⟨x, -, rfl⟩ := Option.map_eq_some_iff.mp hx'
        exact supersededExecution_status x
      exact settled_of_closed hx' hclosed

theorem invalidateDynamicAuthority_keepsSettled (f : Fabric) (reason : String) :
    KeepsSettled f (invalidateDynamicAuthority f reason) := by
  intro id e e' x x' he he' _ _ hx' _ _
  rw [find_invalidate, he] at he'
  obtain rfl := Option.some.inj he'
  refine settled_of_closed hx' ?_
  obtain ⟨y, -, rfl⟩ := Option.map_eq_some_iff.mp hx'
  unfold invalidatedExecution
  split
  · simp
  · assumption

theorem Idle.holding {e : EnsembleRecord} {x : ExecutionRecord} (h : Idle e x) :
    Idle (e.holding x) x := ⟨h.stages, h.candidates, h.pending⟩

theorem lostParticipant_capable (p : ParticipantRecord) (kind : ParticipantFailureKind)
    (detail : String) : (lostParticipant p kind detail).capable = false := by
  unfold lostParticipant ParticipantRecord.capable
  split <;> rfl

theorem noneRecovered_lost {e : EnsembleRecord} {id : ParticipantId} {seat : Seat}
    (hseat : SeatAt e id seat) (kind : ParticipantFailureKind) (detail : String) :
    NoneRecovered e (seat.write (lostParticipant seat.participant kind detail)) := by
  obtain rfl := hseat.ensemble
  refine Slots.forall₂_set (fun p => ⟨rfl, fun h => h⟩) hseat.get ⟨rfl, fun h => ?_⟩
  rw [lostParticipant_capable] at h
  cases h

theorem canAct_lost {e : EnsembleRecord} {id : ParticipantId} {seat : Seat}
    (hseat : SeatAt e id seat) (kind : ParticipantFailureKind) (detail : String) :
    canAct (seat.write (lostParticipant seat.participant kind detail)) seat.participant.id
      = false := by
  have hid := hseat.id
  obtain rfl := hseat.ensemble
  have hfind : (seat.write (lostParticipant seat.participant kind detail)).participant?
      seat.participant.id = some (lostParticipant seat.participant kind detail) := by
    refine Slots.find?_set ?_ (by simp [lostParticipant])
    rw [hid]
    exact hseat.index
  simp [canAct, hfind, lostParticipant_capable]

theorem noneRecovered_tally (e : EnsembleRecord) (id : ParticipantId)
    (change : ParticipantRecord → ParticipantRecord)
    (hid : ∀ p, (change p).id = p.id) (hstatus : ∀ p, (change p).status = p.status) :
    NoneRecovered e { e with participants := tallyParticipant e.participants id change } := by
  refine Slots.forall₂_map fun p _ => ?_
  split
  · exact ⟨hid p, fun h => by rwa [ParticipantRecord.capable, hstatus p] at h⟩
  · exact ⟨rfl, fun h => h⟩

/-- Nothing is left to do, and the participant cannot act. -/
def IdleWithout (id : ParticipantId) (work : EnsembleRecord × ExecutionRecord) : Prop :=
  Idle work.1 work.2 ∧ canAct work.1 id = false

/-- Releasing a candidate of a lost participant brings nothing back: the
candidate has failed, or waits for a participant that cannot act. -/
theorem releaseCandidate_idle (participant : ParticipantRecord) (kind : ParticipantFailureKind)
    (detail : String) (work : EnsembleRecord × ExecutionRecord) (index : Nat)
    (h : IdleWithout participant.id work) :
    IdleWithout participant.id (releaseCandidate participant kind detail work index) := by
  obtain ⟨e, x⟩ := work
  obtain ⟨hidle, hact⟩ := h
  unfold releaseCandidate
  simp only
  split
  · exact ⟨hidle, hact⟩
  · rename_i c hc
    split
    · exact ⟨hidle, hact⟩
    · rename_i hmine
      have howner : c.participant = participant.id := by
        by_contra hne
        exact hmine (.inl hne)
      split
      · have hseats := noneRecovered_tally e c.participant
          (fun p => { p with retriesConsumed := p.retriesConsumed + 1 }) (fun _ => rfl) fun _ => rfl
        refine ⟨hidle.mono rfl hseats ⟨rfl, rfl⟩ (fun c' hc' hflight => ?_)
          (fun p' hp' ha hab => ⟨p', (List.mem_filter.mp hp').1, ha, hab, rfl⟩),
          canAct_of_noneRecovered hseats hact⟩
        rcases List.mem_or_eq_of_mem_set hc' with hold | rfl
        · exact .inl ⟨c', hold, hflight, rfl⟩
        · have hwaits := canAct_of_noneRecovered hseats hact
          rw [← howner] at hwaits
          exact .inr hwaits
      · have hseats := noneRecovered_tally e c.participant
          (fun p => { p with candidatesFailed := p.candidatesFailed + 1 }) (fun _ => rfl)
          fun _ => rfl
        refine ⟨hidle.mono rfl hseats ⟨rfl, rfl⟩ (fun c' hc' hflight => ?_)
          (fun p' hp' ha hab => ⟨p', (List.mem_filter.mp hp').1, ha, hab, rfl⟩),
          canAct_of_noneRecovered hseats hact⟩
        rcases List.mem_or_eq_of_mem_set hc' with hold | rfl
        · exact .inl ⟨c', hold, hflight, rfl⟩
        · cases hflight

theorem handleParticipantFailure_idle {e : EnsembleRecord} {x : ExecutionRecord}
    (participant : ParticipantRecord) (kind : ParticipantFailureKind) (detail : String)
    (h : IdleWithout participant.id (e, x)) :
    IdleWithout participant.id (handleParticipantFailure e x participant kind detail) :=
  Threaded.foldl_related (R := fun w w' => IdleWithout participant.id w →
    IdleWithout participant.id w') (fun _ h => h) (fun h h' hw => h' (h hw))
    (fun work index _ => releaseCandidate_idle participant kind detail work index) (e, x) h

theorem reportParticipantFailure_keepsSettled (f : Fabric) (a : ParticipantAuthority)
    (kind : ParticipantFailureKind) (detail : String) :
    KeepsSettled f (reportParticipantFailure f a kind detail).1 := by
  unfold reportParticipantFailure
  split
  · exact keepsSettled_reject f _
  · rename_i seat hadmit
    obtain ⟨hfind, hseat⟩ := admitFailureReport_eq_ok hadmit
    simp only
    split
    · rename_i hnone
      exact keepsSettled_store fun _ _ _ _ _ _ hx' => by rw [hnone] at hx'; cases hx'
    · rename_i x hx
      have hexec : seat.ensemble.execution = some x := hx
      split
      · rename_i hclosed
        exact keepsSettled_store fun _ _ x' _ _ _ hx' _ _ => by
          obtain rfl := Option.some.inj (hx.symm.trans hx')
          exact settled_of_closed hx hclosed
      · rename_i hopen
        split
        · exact keepsSettled_closed (by simp)
        · refine keepsSettled_store fun e y _ he _ hy _ _ hsettled => ?_
          obtain rfl := Option.some.inj (he.symm.trans hfind)
          obtain rfl := Option.some.inj (hexec.symm.trans hy)
          have hidle := (executionSettled_iff hexec).mp hsettled (not_not.mp hopen)
          have hlost : IdleWithout seat.participant.id
              (seat.write (lostParticipant seat.participant kind detail), x) :=
            ⟨hidle.mono rfl (noneRecovered_lost hseat kind detail) ⟨rfl, rfl⟩
              (fun c hc hf => .inl ⟨c, hc, hf, rfl⟩) (fun p hp ha hab => ⟨p, hp, ha, hab, rfl⟩),
              canAct_lost hseat kind detail⟩
          have hhandled := handleParticipantFailure_idle
            (lostParticipant seat.participant kind detail) kind detail hlost
          exact (executionSettled_iff rfl).mpr fun _ => hhandled.1.holding

/-- The participant left nothing behind in the execution. -/
def LeftNothing (id : ParticipantId) (x : ExecutionRecord) : Prop :=
  (∀ c ∈ x.candidates, c.participant = id → c.inFlight = false)
    ∧ ∀ p ∈ x.pending, p.evaluator = id → p.answered = true ∨ p.abandoned = true

/-- Writing one seat leaves what the others can do. -/
theorem canAct_write {e : EnsembleRecord} {id other : ParticipantId} {seat : Seat}
    {p : ParticipantRecord} (hseat : SeatAt e id seat) (hp : p.id = id) (hne : other ≠ id) :
    canAct (seat.write p) other = canAct e other := by
  have hid := hseat.id
  obtain rfl := hseat.ensemble
  have hrelated : Forall₂ (fun q q' : ParticipantRecord =>
      q'.id = q.id ∧ (q.id ≠ id → q' = q)) seat.ensemble.participants
      (seat.write p).participants :=
    Slots.forall₂_set (fun q => ⟨rfl, fun _ => rfl⟩) hseat.get
      ⟨hp.trans hid.symm, fun h => absurd hid h⟩
  rcases Slots.find?_related (fun q : ParticipantRecord => q.id == other)
    (fun q : ParticipantRecord => q.id == other) (fun hr => by rw [hr.1]) hrelated
    with ⟨hnone, hnone'⟩ | ⟨q, q', hq, hq', -, hsame⟩
  · simp [canAct, EnsembleRecord.participant?, hnone, hnone']
  · have hqid : q.id = other := by simpa using List.find?_some hq
    obtain rfl := hsame (by rw [hqid]; exact hne)
    simp [canAct, EnsembleRecord.participant?, hq, hq']

/-- A registration keeps an execution settled when the participant left
nothing behind in it. -/
theorem registerParticipant_keepsSettled {f : Fabric} {r : ParticipantRegistration}
    {id : EnsembleId}
    (hleft : r.ensemble = id → ∀ e x, f.find id = some e → e.execution = some x →
      x.status = .opened → LeftNothing r.participant x) :
    KeepsSettledAt f (registerParticipant f r).1 id := by
  unfold registerParticipant
  split
  · exact keepsSettled_reject f _ id
  · rename_i seat hadmit
    obtain ⟨-, -, hfind, hseat, -⟩ := admitRegistration_eq_ok hadmit
    refine keepsSettledAt_store fun heq e x x' he _ hx hx' _ hsettled => ?_
    obtain rfl := Option.some.inj (he.symm.trans hfind)
    have hexec : (seat.write (seatedParticipant seat.participant r)).execution = some x := hx
    refine (executionSettled_iff hexec).mpr fun hopen => ?_
    have hidle := (executionSettled_iff hx).mp hsettled hopen
    obtain ⟨hcandidates, hpending⟩ := hleft heq _ x (heq ▸ hfind) hx hopen
    refine ⟨hidle.stages, fun c hc hflight => ?_, fun p hp hanswered habandoned => ?_⟩
    · have hother : c.participant ≠ r.participant := fun heq => by
        rw [hcandidates c hc heq] at hflight
        cases hflight
      rw [canAct_write hseat (by simpa [seatedParticipant] using hseat.id) hother]
      exact hidle.candidates c hc hflight
    · have hother : p.evaluator ≠ r.participant := fun heq => by
        rcases hpending p hp heq with h | h
        · rw [hanswered] at h
          cases h
        · rw [habandoned] at h
          cases h
      rw [canAct_write hseat (by simpa [seatedParticipant] using hseat.id) hother]
      exact hidle.pending p hp hanswered habandoned

/-! ### Executions -/

theorem openExecution_keepsSettled (f : Fabric) (id : EnsembleId)
    (generation : EnsembleGeneration) :
    KeepsSettled f (openExecution f id generation).1 := by
  unfold openExecution
  split
  · exact .refl f
  · rename_i e hfind
    split
    · exact .refl f
    · split
      · exact .refl f
      · split
        · exact .refl f
        · split
          · exact .refl f
          · split
            · exact .refl f
            · rename_i hlast
              -- the new execution has an identity of its own
              refine keepsSettled_store fun e₀ x x' he _ hx hx' hid _ => ?_
              obtain rfl := Option.some.inj (he.symm.trans hfind)
              have hne : x.id.value ≠ lastWord := by simpa [hx] using hlast
              obtain rfl := Option.some.inj hx'
              have hlt := StrongId.lt_next hne
              simp only [hx] at hid
              rw [hid] at hlt
              exact absurd hlt (UInt64.lt_irrefl _)

theorem cancelEnsemble_keepsSettled (f : Fabric) (id : EnsembleId)
    (generation : EnsembleGeneration) (reason : String) :
    KeepsSettled f (cancelEnsemble f id generation reason).1 := by
  unfold cancelEnsemble
  split
  · exact .refl f
  · split
    · exact .refl f
    · split
      · exact .refl f
      · split
        · exact .refl f
        · split
          · exact .refl f
          · exact keepsSettled_closed (by simp [cancelledExecution])

/-- A change of an execution that leaves its work alone. -/
theorem settled_of_sameWork {e : EnsembleRecord} {x x' : ExecutionRecord}
    (hx : e.execution = some x) (hsettled : executionSettled e = true)
    (hstatus : x'.status = x.status)
    (hstages : x'.extraStages = x.extraStages ∧ x'.stageIndex = x.stageIndex)
    (hcandidates : ∀ c' ∈ x'.candidates, ∃ c ∈ x.candidates,
      c.inFlight = c'.inFlight ∧ c.participant = c'.participant)
    (hpending : x'.pending = x.pending) : executionSettled (e.holding x') = true := by
  refine (executionSettled_iff rfl).mpr fun hopen => ?_
  have hidle := (executionSettled_iff hx).mp hsettled (hstatus ▸ hopen)
  have hsame : NoneRecovered e (e.holding x') := by
    exact List.forall₂_same.mpr fun p _ => ⟨rfl, fun h => h⟩
  refine hidle.mono rfl hsame hstages (fun c' hc' hflight => ?_) fun p hp ha hab => ?_
  · obtain ⟨c, hc, hf, hp⟩ := hcandidates c' hc'
    exact .inl ⟨c, hc, hf.trans hflight, hp⟩
  · rw [hpending] at hp
    exact ⟨p, hp, ha, hab, rfl⟩

theorem prepareResult_keepsSettled (f : Fabric) (id : EnsembleId)
    (generation : EnsembleGeneration) :
    KeepsSettled f (prepareResult f id generation).1 := by
  unfold prepareResult
  split
  · exact .refl f
  · rename_i e hfind
    split
    · exact .refl f
    · split
      · exact .refl f
      · rename_i x hx
        split
        · exact .refl f
        · refine keepsSettled_store fun e₀ y x' he _ _ hx' _ hsettled => ?_
          obtain rfl := Option.some.inj (he.symm.trans hfind)
          refine settled_of_sameWork hx hsettled rfl ⟨rfl, rfl⟩ (fun c' hc' => ?_) rfl
          rw [computeReports_candidates] at hc'
          obtain ⟨c, hc, rfl⟩ := List.mem_map.mp hc'
          have hstanding := markElimination_eq (computeReports e₀ x).arbitration.ranking c
          exact ⟨c, hc, by rw [hstanding]; rfl, by rw [hstanding]⟩

theorem commitResult_keepsSettled (f : Fabric) (r : EnsembleResult) :
    KeepsSettled f (commitResult f r).1 := by
  unfold commitResult
  split
  · exact keepsSettled_reject f _
  · rename_i e x htarget
    have hfenced := commitTarget_eq_ok htarget
    have hattempted : KeepsSettled f
        (f.store r.ensemble (e.holding { x with commitAttempts := x.commitAttempts + 1 })) := by
      refine keepsSettled_store fun e₀ y x' he _ _ hx' _ hsettled => ?_
      obtain rfl := Option.some.inj (he.symm.trans hfenced.ensemble)
      exact settled_of_sameWork hfenced.execution hsettled rfl ⟨rfl, rfl⟩
        (fun c hc => ⟨c, hc, rfl, rfl⟩) rfl
    simp only
    split
    · split
      · exact hattempted
      · exact hattempted
    · split
      · exact hattempted
      · split
        · exact hattempted
        · exact keepsSettled_closed (by rw [storeResult_status]; exact statusFor_ne_opened _)

/-! ### Submissions -/

theorem authoritative_capable {p : ParticipantRecord} {epoch : CoordinatorEpoch}
    (h : p.authoritative epoch = true) : p.capable = true := by
  simp only [ParticipantRecord.authoritative, Bool.and_eq_true] at h
  simp [ParticipantRecord.capable, h.1.2]

/-- A dispatched candidate of an authoritative participant is work. -/
theorem LocatedAt.not_idle {f : Fabric} {a : CandidateAuthority} {l : Located}
    (h : LocatedAt f a l) (hstate : l.candidate.state = .dispatched) :
    ¬ Idle l.seat.ensemble l.execution := by
  intro hidle
  have hact := hidle.candidates l.candidate (List.mem_of_getElem? h.at_)
    (by simp [CandidateRecord.inFlight, hstate, permitsOutput])
  rw [h.fenced.owner, h.seat.id] at hact
  simp [canAct, h.fenced.participant, authoritative_capable h.fenced.authoritative] at hact

theorem keepsSettled_located {f : Fabric} {a : CandidateAuthority} {l : Located} {k : Core}
    {e' : EnsembleRecord} {x' : ExecutionRecord} (h : LocatedAt f a l)
    (hstate : l.candidate.state = .dispatched) (hx' : e'.execution = some x')
    (hstatus : x'.status = l.execution.status) :
    KeepsSettled f ({ f with core := k }.store a.participant.ensemble e') := by
  refine keepsSettled_store fun e x _ he _ hx _ _ hsettled => ?_
  obtain rfl := Option.some.inj (he.symm.trans h.fenced.ensemble)
  obtain rfl := Option.some.inj (hx.symm.trans h.fenced.execution)
  refine settled_of_closed hx' fun hopen => ?_
  exact h.not_idle hstate ((executionSettled_iff hx).mp hsettled (hstatus ▸ hopen))

theorem submitCandidate_keepsSettled (f : Fabric) (s : CandidateSubmission) :
    KeepsSettled f (submitCandidate f s).1 := by
  unfold submitCandidate
  split
  · exact keepsSettled_reject f _
  · rename_i l haccept
    obtain ⟨hlocated, hstate⟩ := acceptCandidate_eq_ok haccept
    split
    · exact .refl f
    · exact keepsSettled_located hlocated hstate rfl rfl

theorem submitCandidateFailure_keepsSettled (f : Fabric) (s : CandidateFailureSubmission) :
    KeepsSettled f (submitCandidateFailure f s).1 := by
  unfold submitCandidateFailure
  split
  · exact keepsSettled_reject f _
  · rename_i l haccept
    obtain ⟨hlocated, hstate⟩ := acceptCandidate_eq_ok haccept
    split
    · exact .refl f
    · simp only
      split
      · exact keepsSettled_located (k := f.core) hlocated hstate rfl rfl
      · exact keepsSettled_located (k := f.core) hlocated hstate rfl rfl

theorem submitCandidateAbstention_keepsSettled (f : Fabric) (s : CandidateAbstentionSubmission) :
    KeepsSettled f (submitCandidateAbstention f s).1 := by
  unfold submitCandidateAbstention
  split
  · exact keepsSettled_reject f _
  · rename_i l haccept
    obtain ⟨hlocated, hstate⟩ := acceptCandidate_eq_ok haccept
    exact keepsSettled_located hlocated hstate rfl rfl

theorem submitEvaluation_keepsSettled (f : Fabric) (s : EvaluationSubmission) :
    KeepsSettled f (submitEvaluation f s).1 := by
  unfold submitEvaluation
  split
  · exact keepsSettled_reject f _
  · rename_i site haccept
    have haccepted := acceptEvaluation_eq_ok haccept
    refine keepsSettled_store fun e x _ he _ hx hx' _ hsettled => ?_
    obtain rfl := Option.some.inj (he.symm.trans haccepted.ensemble)
    obtain rfl := Option.some.inj (hx.symm.trans haccepted.execution)
    refine settled_of_closed hx' fun hopen => ?_
    have hopen' : site.execution.status = .opened := by
      obtain rfl := Option.some.inj hx'
      exact hopen
    have hidle := (executionSettled_iff hx).mp hsettled hopen'
    have hact := hidle.pending site.pending (List.mem_of_getElem? haccepted.pendingAt)
      haccepted.unanswered haccepted.kept
    rw [haccepted.evaluatorTarget] at hact
    simp [canAct, haccepted.seat.first, authoritative_capable haccepted.authoritative] at hact

/-! ### Advancing -/

/-- An advance keeps an execution settled when it finds no new work. -/
theorem advance_keepsSettled {f : Fabric} {id other : EnsembleId}
    {generation : EnsembleGeneration}
    (hidle : id = other → ∀ e, (advance f id generation).1.find id = some e →
      executionSettled e = true) :
    KeepsSettledAt f (advance f id generation).1 other := by
  by_cases heq : id = other
  · intro e e' x x' _ he' _ _ _ _ _
    exact hidle heq e' (heq ▸ he')
  · refine keepsSettledAt_of_find ?_
    have hother : ∀ k e', (({ f with core := k } : Fabric).store id e').find other
        = f.find other := by
      intro k e'
      rw [Fabric.find_store, if_neg heq]
      rfl
    unfold advance
    split
    · rfl
    · split
      · rfl
      · split
        · rfl
        · split
          · split
            · rfl
            · exact hother _ _
          · split
            · exact hother f.core _
            · exact hother _ _
          · rfl

/-! ## Values on their way to the gate -/

/-- The execution a client inside `finalize` is about. -/
def ClientPhase.Names (key : ExecutionKey) : ClientPhase → Prop
  | .finalizePreparing id generation checked => key = ⟨id, generation, checked⟩
  | .finalizeCommitting r => r.key = key
  | _ => False

/-- A value for this execution may still reach the gate. -/
def System.Outstanding (s : System) (key : ExecutionKey) : Prop :=
  (∃ r ∈ s.prepared, r.key = key) ∨ ∃ client, (s.clients client).Names key

/-- What the clients of the runtime observe: results are prepared on settled
executions, only prepared results are committed, and while a value is
outstanding for an undecided execution, no advance finds new work for it
and no participant that left work behind in it registers again. -/
def Orderly (s : System) : Event → Prop
  | .prepareResult id generation => ∀ e x, s.fabric.find id = some e →
      e.spec.generation = generation → e.execution = some x → x.result = none →
      executionSettled e = true
  | .commitResult r => r ∈ s.prepared
  | .advance id generation => ∀ key x, s.Outstanding key → key.ensemble = id →
      s.executionOf key = some x → x.result = none →
      ∀ e, (EnsembleFabric.advance s.fabric id generation).1.find id = some e →
        executionSettled e = true
  | .registerParticipant r => ∀ key x, s.Outstanding key → key.ensemble = r.ensemble →
      s.executionOf key = some x → x.result = none → x.status = .opened →
      LeftNothing r.participant x
  | _ => True

/-- An execution of this name has been current. -/
def Known (f : Fabric) (key : ExecutionKey) : Prop :=
  ∃ e, f.find key.ensemble = some e ∧ (key.generation.value < e.spec.generation.value
    ∨ e.spec.generation = key.generation ∧ ∃ x, e.execution = some x
      ∧ (key.execution.value < x.id.value ∨ x.id = key.execution))

/-- While the execution is current and undecided, it is settled. -/
def SettledAt (f : Fabric) (key : ExecutionKey) : Prop :=
  ∀ e x, f.find key.ensemble = some e → e.spec.generation = key.generation →
    e.execution = some x → x.id = key.execution → x.result = none → executionSettled e = true

/-- Every value on its way to the gate is about a settled execution. -/
def SettledWhereOutstanding (s : System) : Prop :=
  ∀ key, s.Outstanding key → Known s.fabric key ∧ SettledAt s.fabric key

theorem next_follows {s : System} (hnamed : Named s.fabric) (event : Event) (id : EnsembleId) :
    ViewFollows (s.fabric.view id) ((s.next event).fabric.view id) :=
  run_follows hnamed [event] id

theorem Known.next {s : System} {key : ExecutionKey} (hnamed : Named s.fabric)
    (h : Known s.fabric key) (event : Event) : Known (s.next event).fabric key := by
  obtain ⟨e, he, hpast⟩ := h
  obtain ⟨e', he', hfollows⟩ := next_follows hnamed event key.ensemble e he
  refine ⟨e', he', ?_⟩
  rcases hfollows with hlt | ⟨hgen, -, hexec⟩
  · rcases hpast with hpast | ⟨hsame, -⟩
    · exact .inl (UInt64.lt_trans hpast hlt)
    · exact .inl (hsame ▸ hlt)
  · rcases hpast with hpast | ⟨hsame, x, hx, hid⟩
    · exact .inl (by rw [hgen]; exact hpast)
    · obtain ⟨x', hx', hfollows⟩ := hexec x hx
      refine .inr ⟨hgen.trans hsame, x', hx', ?_⟩
      rcases hfollows with hlt | ⟨hsameId, -⟩
      · rcases hid with hid | hid
        · exact .inl (UInt64.lt_trans hid hlt)
        · exact .inl (hid ▸ hlt)
      · rw [hsameId]
        exact hid

/-- An execution that is current after an event, and whose name was known
before it, was current before it as well. -/
theorem Known.current_before {s : System} {key : ExecutionKey} (hnamed : Named s.fabric)
    (hknown : Known s.fabric key) (event : Event) {e' : EnsembleRecord} {x' : ExecutionRecord}
    (he' : (s.next event).fabric.find key.ensemble = some e')
    (hgen' : e'.spec.generation = key.generation) (hx' : e'.execution = some x')
    (hid' : x'.id = key.execution) :
    ∃ e x, s.fabric.find key.ensemble = some e ∧ e.spec.generation = key.generation
      ∧ e.execution = some x ∧ x.id = key.execution
      ∧ (e.superseded = true → e'.superseded = true) ∧ Persists e x e' x' := by
  obtain ⟨e, he, hpast⟩ := hknown
  obtain ⟨e₁, he₁, hfollows⟩ := next_follows hnamed event key.ensemble e he
  obtain rfl : e' = e₁ := Option.some.inj (he'.symm.trans he₁)
  rcases hfollows with hlt | ⟨hgen, hsuperseded, hexec⟩
  · rw [hgen'] at hlt
    rcases hpast with hpast | ⟨hsame, -⟩
    · exact absurd (UInt64.lt_trans hpast hlt) (UInt64.lt_irrefl _)
    · rw [hsame] at hlt
      exact absurd hlt (UInt64.lt_irrefl _)
  · rcases hpast with hpast | ⟨hsame, x, hx, hid⟩
    · rw [← hgen', hgen] at hpast
      exact absurd hpast (UInt64.lt_irrefl _)
    · obtain ⟨x₁, hx₁, hfollows⟩ := hexec x hx
      obtain rfl : x' = x₁ := Option.some.inj (hx'.symm.trans hx₁)
      rcases hfollows with hlt | ⟨hsameId, hpersists⟩
      · rw [hid'] at hlt
        rcases hid with hid | hid
        · exact absurd (UInt64.lt_trans hid hlt) (UInt64.lt_irrefl _)
        · rw [hid] at hlt
          exact absurd hlt (UInt64.lt_irrefl _)
      · exact ⟨e, x, he, hsame, hx, hsameId.symm.trans hid', hsuperseded, hpersists⟩

theorem Persists.undecided {e e' : EnsembleRecord} {x x' : ExecutionRecord}
    (h : Persists e x e' x') (hnone : x'.result = none) : x.result = none := by
  cases hr : x.result with
  | none => rfl
  | some r =>
    rw [h.stored r hr] at hnone
    cases hnone

/-- An outstanding execution stays settled over an event that keeps it so. -/
theorem SettledAt.next {s : System} {key : ExecutionKey} (hnamed : Named s.fabric)
    (hknown : Known s.fabric key) (h : SettledAt s.fabric key) (event : Event)
    (hkeeps : ∀ x, s.executionOf key = some x → x.result = none →
      KeepsSettledAt s.fabric (s.next event).fabric key.ensemble) :
    SettledAt (s.next event).fabric key := by
  intro e' x' he' hgen' hx' hid' hnone'
  obtain ⟨e, x, he, hgen, hx, hid, -, hpersists⟩ :=
    hknown.current_before hnamed event he' hgen' hx' hid'
  have hnone := hpersists.undecided hnone'
  have hcurrent := executionOf_eq_some.mpr ⟨e, he, hgen, hx, hid⟩
  exact hkeeps x hcurrent hnone e e' x x' he he' (hgen'.trans hgen.symm) hx hx'
    (hid'.trans hid.symm) (h e x he hgen hx hid hnone)

/-- Every orderly event keeps an outstanding execution settled. -/
theorem next_keepsSettled {s : System} {event : Event} {key : ExecutionKey}
    {x : ExecutionRecord} (horderly : Orderly s event) (hout : s.Outstanding key)
    (hx : s.executionOf key = some x) (hnone : x.result = none) :
    KeepsSettledAt s.fabric (s.next event).fabric key.ensemble := by
  cases event with
  | defineEnsemble spec => exact defineEnsemble_keepsSettled _ _ _
  | supersedeEnsemble id generation => exact supersedeEnsemble_keepsSettled _ _ _ _
  | registerParticipant r =>
    refine registerParticipant_keepsSettled fun heq e y he hy hopen => ?_
    obtain ⟨e₀, he₀, -, hx₀, -⟩ := executionOf_eq_some.mp hx
    obtain rfl := Option.some.inj (he.symm.trans he₀)
    obtain rfl := Option.some.inj (hy.symm.trans hx₀)
    exact horderly key _ hout heq.symm hx hnone hopen
  | openExecution id generation => exact openExecution_keepsSettled _ _ _ _
  | advance id generation =>
    exact advance_keepsSettled fun heq e he => horderly key x hout heq.symm hx hnone e he
  | submitCandidate submission => exact submitCandidate_keepsSettled _ _ _
  | submitCandidateFailure submission => exact submitCandidateFailure_keepsSettled _ _ _
  | submitCandidateAbstention submission => exact submitCandidateAbstention_keepsSettled _ _ _
  | submitEvaluation submission => exact submitEvaluation_keepsSettled _ _ _
  | reportParticipantFailure authority kind detail =>
    exact reportParticipantFailure_keepsSettled _ _ _ _ _
  | cancelEnsemble id generation reason => exact cancelEnsemble_keepsSettled _ _ _ _ _
  | invalidateDynamicAuthority reason => exact invalidateDynamicAuthority_keepsSettled _ _ _
  | prepareResult id generation =>
    have hkeeps := prepareResult_keepsSettled s.fabric id generation key.ensemble
    simpa [System.next, System.step, remember_fabric] using hkeeps
  | commitResult result => exact commitResult_keepsSettled _ _ _
  | finalize client id generation =>
    simp only [System.next, System.step]
    split
    · exact KeepsSettled.refl _ _
    · split <;> exact KeepsSettled.refl _ _
  | restart client reason =>
    simp only [System.next, System.step]
    split
    · exact KeepsSettled.refl _ _
    · split <;> exact KeepsSettled.refl _ _
  | resume client boot =>
    simp only [System.next, System.step, System.resume]
    split
    · exact KeepsSettled.refl _ _
    · have hkeeps := fun id generation =>
        prepareResult_keepsSettled s.fabric id generation key.ensemble
      split <;> exact hkeeps _ _
    · exact commitResult_keepsSettled _ _ _
    · exact invalidateDynamicAuthority_keepsSettled _ _ _
    · exact keepsSettledAt_of_find rfl

/-! ### New values -/

/-- A stored result names the execution it is stored in. -/
def NamesItsExecution (e : EnsembleRecord) (x : ExecutionRecord) : Prop :=
  ∀ r, x.result = some r →
    r.ensemble = e.spec.id ∧ r.ensembleGeneration = e.spec.generation ∧ r.execution = x.id

theorem ExecutionStep.namesItsExecution {sc : Scope} {e : EnsembleRecord}
    {x x' : ExecutionRecord} (h : ExecutionStep sc e x x') (hx : NamesItsExecution e x) :
    NamesItsExecution (e.holding x') x' := by
  cases h with
  | bookkeeping same =>
    intro r hr
    obtain ⟨he, hg, hid⟩ := hx r (same.result ▸ hr)
    exact ⟨he, hg, hid.trans same.id.symm⟩
  | cancel undecided same =>
    intro r hr
    rw [same.result, undecided] at hr
    cases hr
  | @commit stored undecided allowed ensemble generation execution =>
    intro r hr
    rw [storeResult_result] at hr
    obtain rfl := Option.some.inj hr
    rw [storeResult_id]
    unfold storeResult
    split <;> exact ⟨ensemble, generation, execution⟩
  | _ => exact hx

theorem reachable_namesItsExecution (config : FabricConfig) (events : List Event)
    (id : EnsembleId) :
    OfExecution NamesItsExecution
      (((System.initial config).run events).fabric.view id) := by
  refine reachable_ofExecution (fun _ _ _ _ hr => by cases hr) (fun h => h) (fun _ h => h)
    (fun h => h.namesItsExecution) (fun _ h => h) (fun _ _ h => h) (along_allows _ events) id

theorem decideResult_key {limits : Limits} {e : EnsembleRecord} {x : ExecutionRecord}
    {r : EnsembleResult} (h : decideResult limits e x = .ok r) :
    r.key = ⟨e.spec.id, e.spec.generation, x.id⟩ := by
  obtain ⟨decided, hdecided, rfl⟩ := decideResult_eq_ok.mp h
  rcases selectResult_eq_ok hdecided with ⟨rfl, -⟩ | ⟨-, c, -, rfl⟩
  · rfl
  · rfl

/-- A prepared value names the current execution, which is there afterwards
as well. -/
theorem prepareResult_key {f : Fabric} {id : EnsembleId} {generation : EnsembleGeneration}
    {r : EnsembleResult} (hnamed : Named f) (hstored : OfExecution NamesItsExecution (f.view id))
    (h : (prepareResult f id generation).2 = .ok r) :
    ∃ e x, f.find id = some e ∧ e.spec.generation = generation ∧ e.execution = some x
      ∧ r.key = ⟨id, generation, x.id⟩ := by
  unfold prepareResult at h
  split at h
  · cases h
  · rename_i e hfind
    split at h
    · cases h
    · rename_i hgen
      have hgen' : e.spec.generation = generation := not_not.mp hgen
      have hid := hnamed id e hfind
      split at h
      · cases h
      · rename_i x hx
        refine ⟨e, x, hfind, hgen', hx, ?_⟩
        split at h
        · rename_i stored hresult
          obtain rfl := Except.ok.inj h
          obtain ⟨he, hg, hxid⟩ := hstored e x hfind hx stored hresult
          rw [EnsembleResult.key, he, hg, hxid, hid, hgen']
        · rw [decideResult_key h, hid, hgen']
          rfl

theorem finalizeCheck_eq_ok {f : Fabric} {id : EnsembleId} {generation : EnsembleGeneration}
    {checked : EnsembleExecutionId} (h : finalizeCheck f id generation = .ok checked) :
    ∃ e x, f.find id = some e ∧ e.spec.generation = generation ∧ e.execution = some x
      ∧ x.id = checked ∧ executionSettled e = true := by
  unfold finalizeCheck at h
  split at h
  · cases h
  · rename_i e hfind
    split at h
    · cases h
    · rename_i hgen
      split at h
      · cases h
      · rename_i x hx
        split at h
        · cases h
        · rename_i hsettled
          refine ⟨e, x, hfind, not_not.mp hgen, hx, ?_, by simpa using hsettled⟩
          split at h
          · cases h
          · cases h
          · cases h
          · split at h
            · cases h
            · exact Except.ok.inj h

theorem finalizeCarry_eq_ok {checked : EnsembleExecutionId} {prepared : Outcome EnsembleResult}
    {r : EnsembleResult} (h : finalizeCarry checked prepared = .ok r) :
    prepared = .ok r ∧ r.execution = checked := by
  simp only [finalizeCarry, Checks.bind_eq_ok] at h
  obtain ⟨r', hr', h⟩ := h
  split at h
  · cases h
  · rename_i hsame
    obtain rfl := Checks.pure_eq_ok.mp h
    exact ⟨hr', not_not.mp hsame⟩

/-- The current execution of an ensemble is known. -/
theorem known_current {f : Fabric} {id : EnsembleId} {generation : EnsembleGeneration}
    {e : EnsembleRecord} {x : ExecutionRecord} (he : f.find id = some e)
    (hgen : e.spec.generation = generation) (hx : e.execution = some x) :
    Known f ⟨id, generation, x.id⟩ :=
  ⟨e, he, .inr ⟨hgen, x, hx, .inr rfl⟩⟩

theorem settledAt_current {f : Fabric} {id : EnsembleId} {generation : EnsembleGeneration}
    {e : EnsembleRecord} {x : ExecutionRecord} (he : f.find id = some e)
    (hsettled : x.result = none → executionSettled e = true) (hx : e.execution = some x) :
    SettledAt f ⟨id, generation, x.id⟩ := by
  intro e' x' he' _ hx' _ hnone
  obtain rfl := Option.some.inj (he.symm.trans he')
  obtain rfl := Option.some.inj (hx.symm.trans hx')
  exact hsettled hnone

/-- Entering a phase adds at most the execution it names. -/
theorem outstanding_setClient {s : System} {client : Nat} {phase : ClientPhase}
    {key : ExecutionKey} (h : (s.setClient client phase).Outstanding key) :
    s.Outstanding key ∨ phase.Names key := by
  rcases h with hprepared | ⟨other, hnames⟩
  · exact .inl (.inl hprepared)
  · by_cases heq : other = client
    · subst heq
      exact .inr (by simpa [System.setClient] using hnames)
    · refine .inl (.inr ⟨other, ?_⟩)
      simpa [System.setClient, Function.update_of_ne heq] using hnames

/-- A value that an event brings under way is about an execution that was
current, and settled unless it was decided. -/
theorem outstanding_next {s : System} {event : Event} {key : ExecutionKey}
    (hnamed : Named s.fabric) (hstored : ∀ id, OfExecution NamesItsExecution (s.fabric.view id))
    (horderly : Orderly s event) (h : (s.next event).Outstanding key) :
    s.Outstanding key ∨ ∃ e x, s.fabric.find key.ensemble = some e ∧ e.execution = some x
      ∧ key = ⟨key.ensemble, e.spec.generation, x.id⟩
      ∧ (x.result = none → executionSettled e = true)
      ∧ KeepsSettledAt s.fabric (s.next event).fabric key.ensemble := by
  cases event with
  | prepareResult id generation =>
    have hfabric : (s.next (.prepareResult id generation)).fabric
        = (prepareResult s.fabric id generation).1 := by
      simp [System.next, System.step, remember_fabric]
    rw [hfabric]
    rcases h with ⟨r, hr, hkey⟩ | hclient
    · cases hprep : (prepareResult s.fabric id generation).2 with
      | error error =>
        simp only [System.next, System.step, hprep, System.remember] at hr
        exact .inl (.inl ⟨r, hr, hkey⟩)
      | ok result =>
        simp only [System.next, System.step, hprep, System.remember, List.mem_cons] at hr
        rcases hr with rfl | hr
        · obtain ⟨e, x, he, hgen, hx, hrkey⟩ := prepareResult_key hnamed (hstored id) hprep
          obtain rfl := hkey.symm.trans hrkey
          exact .inr ⟨e, x, he, hx, by rw [hgen], horderly e x he hgen hx,
            prepareResult_keepsSettled _ _ _ _⟩
        · exact .inl (.inl ⟨r, hr, hkey⟩)
    · refine .inl (.inr ?_)
      cases hprep : (prepareResult s.fabric id generation).2 <;>
        simpa [System.next, System.step, hprep, System.remember] using hclient
  | finalize client id generation =>
    simp only [System.next, System.step] at h ⊢
    split at h
    · exact .inl h
    · rename_i hidle
      split at h
      · exact .inl h
      · rename_i checked hchecked
        rcases outstanding_setClient h with hold | hnew
        · exact .inl hold
        · obtain ⟨e, x, he, hgen, hx, hid, hsettled⟩ := finalizeCheck_eq_ok hchecked
          obtain rfl : key = ⟨id, generation, checked⟩ := hnew
          refine .inr ⟨e, x, he, hx, by rw [hgen, hid], fun _ => hsettled, ?_⟩
          rw [if_neg hidle]
          exact KeepsSettled.refl _ _
  | restart client reason =>
    simp only [System.next, System.step] at h
    split at h
    · exact .inl h
    · split at h
      · exact .inl h
      · rcases outstanding_setClient h with hold | hnew
        · exact .inl hold
        · cases hnew
  | resume client boot =>
    simp only [System.next, System.step, System.resume] at h
    split at h
    · exact .inl h
    · rename_i id generation checked hphase
      split at h
      · rcases outstanding_setClient h with hold | hnew
        · exact .inl hold
        · cases hnew
      · rename_i result hcarry
        rcases outstanding_setClient h with hold | hnew
        · exact .inl hold
        · -- the client was about this execution before its preparation
          obtain ⟨hprep, hchecked⟩ := finalizeCarry_eq_ok hcarry
          obtain ⟨e, x, -, -, -, hrkey⟩ := prepareResult_key hnamed (hstored id) hprep
          refine .inl (.inr ⟨client, ?_⟩)
          have hexec : x.id = checked := by
            rw [← hchecked]
            exact (congrArg ExecutionKey.execution hrkey).symm
          rw [hphase]
          exact hnew.symm.trans (hrkey.trans (by rw [hexec]))
    · rcases outstanding_setClient h with hold | hnew
      · exact .inl hold
      · cases hnew
    · rcases outstanding_setClient h with hold | hnew
      · exact .inl hold
      · cases hnew
    · rcases outstanding_setClient h with hold | hnew
      · exact .inl hold
      · cases hnew
  | _ => exact .inl h

/-! ## Stored results -/

theorem settledWhereOutstanding_next {s : System} {event : Event} (hnamed : Named s.fabric)
    (hstored : ∀ id, OfExecution NamesItsExecution (s.fabric.view id))
    (horderly : Orderly s event) (h : SettledWhereOutstanding s) :
    SettledWhereOutstanding (s.next event) := by
  intro key hout
  rcases outstanding_next hnamed hstored horderly hout with hold | hnew
  · obtain ⟨hknown, hsettled⟩ := h key hold
    exact ⟨hknown.next hnamed event, hsettled.next hnamed hknown event fun x hx hnone =>
      next_keepsSettled horderly hold hx hnone⟩
  · obtain ⟨e, x, he, hx, hkey, hsettled, hkeeps⟩ := hnew
    have hknown : Known s.fabric key := by
      rw [hkey]
      exact known_current he rfl hx
    have hnow : SettledAt s.fabric key := by
      rw [hkey]
      exact settledAt_current he hsettled hx
    exact ⟨hknown.next hnamed event, hnow.next hnamed hknown event fun _ _ _ => hkeeps⟩

theorem reachable_settledWhereOutstanding (config : FabricConfig) {events : List Event}
    (horderly : Along System.next Orderly (.initial config) events) :
    SettledWhereOutstanding ((System.initial config).run events) := by
  refine run_invariant_reached (fun before event hevent h => ?_) horderly ?_
  · exact settledWhereOutstanding_next (reachable_named config before).2
      (reachable_namesItsExecution config before) hevent h
  · rintro key (⟨r, hr, -⟩ | ⟨client, hnames⟩)
    · cases hr
    · cases hnames

/-- In every orderly run, whenever a value reaches the gate and is stored,
the execution is settled in the very state in which that happens. -/
theorem stored_when_settled (config : FabricConfig) (events : List Event) (event : Event)
    (horderly : Along System.next Orderly (.initial config) (events ++ [event])) :
    ∀ r e x stored, ((System.initial config).run events).submitted event = some r →
      Stores ((System.initial config).run events).fabric r e x stored →
      executionSettled e = true := by
  intro r e x stored hsubmitted hstores
  obtain ⟨hbefore, hevent⟩ := along_append.mp horderly
  have hsettled := reachable_settledWhereOutstanding config hbefore
  have hout : ((System.initial config).run events).Outstanding r.key := by
    cases event with
    | commitResult submitted =>
      obtain rfl := Option.some.inj hsubmitted
      exact .inl ⟨_, hevent.1, rfl⟩
    | resume client boot =>
      simp only [System.submitted] at hsubmitted
      split at hsubmitted
      · rename_i carried hphase
        obtain rfl := Option.some.inj hsubmitted
        exact .inr ⟨client, by rw [hphase]; rfl⟩
      · cases hsubmitted
    | _ => cases hsubmitted
  obtain ⟨htarget, -⟩ := storesIn_eq_some.mp hstores.storesIn.1
  have hfenced := commitTarget_eq_ok htarget
  exact (hsettled r.key hout).2 e x hfenced.ensemble hfenced.generation.symm hfenced.execution
    hfenced.executionId hstores.undecided

theorem not_outstanding {s : System} (hprepared : s.prepared = [])
    (hclients : ∀ client, s.clients client = .idle) (key : ExecutionKey) :
    ¬ s.Outstanding key := by
  rintro (⟨r, hr, -⟩ | ⟨client, hnames⟩)
  · rw [hprepared] at hr
    cases hr
  · rw [hclients client] at hnames
    exact hnames

namespace Sample

/-- The events that settle the ensemble of `loneSpec`. -/
def settling : List Event := start loneSpec ++ [content 1 1 [7], advance]

def settledThenPrepared : List Event := settling ++ [.prepareResult ⟨1⟩ ⟨1⟩]

/-- The value that run prepares. -/
def loneResult : EnsembleResult := prepared settling

theorem settling_orderly : Along System.next Orderly (.initial {}) settling := by
  refine ⟨trivial, fun key _ hout => ?_, trivial, fun key _ hout => ?_, trivial,
    fun key _ hout => ?_, trivial⟩ <;>
    exact absurd hout (not_outstanding rfl (fun _ => rfl) key)

theorem settledThenPrepared_orderly :
    Along System.next Orderly (.initial {})
      (settledThenPrepared ++ [.commitResult loneResult]) := by
  have hsettled : (ensemble settling).all executionSettled = true := by decide +kernel
  have hmem : loneResult ∈ (reached settledThenPrepared).prepared := by decide +kernel
  refine along_append.mpr ⟨along_append.mpr ⟨settling_orderly, fun e x he _ _ _ => ?_, trivial⟩,
    hmem, trivial⟩
  have hfind : ensemble settling = some e := he
  rw [hfind] at hsettled
  exact hsettled

end Sample

/-- An orderly run that stores a result. -/
theorem lone_result_stored_when_settled :
    ∃ e x stored, Stores (Sample.reached Sample.settledThenPrepared).fabric Sample.loneResult e x
      stored ∧ executionSettled e = true := by
  have hadmitted : (storesIn (Sample.reached Sample.settledThenPrepared).fabric
      Sample.loneResult).isSome = true := by decide +kernel
  obtain ⟨⟨e, x⟩, hstores⟩ := Option.isSome_iff_exists.mp hadmitted
  obtain ⟨stored, hstored, -⟩ := stores_of_storesIn hstores
  exact ⟨e, x, stored, hstored, stored_when_settled {} Sample.settledThenPrepared
    (.commitResult Sample.loneResult) Sample.settledThenPrepared_orderly Sample.loneResult e x
    stored rfl hstored⟩

namespace Sample

/-- Two candidates run in parallel. -/
def pairSpec : EnsembleSpec where
  id := ⟨1⟩
  label := "pair"
  participants := [participant 1 candidateRole, participant 2 candidateRole]

/-- A result is prepared while the second candidate is in flight. -/
def preparedInFlight : List Event :=
  start pairSpec ++ [content 1 1 [7], .prepareResult ⟨1⟩ ⟨1⟩]

def pairResult : EnsembleResult := prepared (start pairSpec ++ [content 1 1 [7]])

end Sample

/-- A prepared result is stored while a candidate of a participant that can
act is in flight. The gate does not ask, and the preparation did not either. -/
theorem commit_in_flight_unsettled :
    Sample.pairResult ∈ (Sample.reached Sample.preparedInFlight).prepared
      ∧ ∃ e x stored, Stores (Sample.reached Sample.preparedInFlight).fabric Sample.pairResult e x
          stored ∧ executionSettled e = false := by
  refine ⟨by decide +kernel, ?_⟩
  have hadmitted : (storesIn (Sample.reached Sample.preparedInFlight).fabric
      Sample.pairResult).isSome = true := by decide +kernel
  have hopen : (storesIn (Sample.reached Sample.preparedInFlight).fabric Sample.pairResult).all
      (fun site => !executionSettled site.1) = true := by decide +kernel
  obtain ⟨⟨e, x⟩, hstores⟩ := Option.isSome_iff_exists.mp hadmitted
  obtain ⟨stored, hstored, -⟩ := stores_of_storesIn hstores
  rw [hstores] at hopen
  exact ⟨e, x, stored, hstored, by simpa using hopen⟩

end EnsembleFabric
