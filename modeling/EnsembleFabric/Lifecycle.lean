import Mathlib.Logic.Relation
import EnsembleFabric.Commit
import EnsembleFabric.Library.Slots

/-!
# The lifecycle of an ensemble

The abstract model: what may happen to one ensemble, in moves small
enough that an invariant is checked against each of them once. It says
nothing about which operation makes a move or how its loops run;
`Refinement` shows that every critical section of the runtime is a
sequence of moves on every ensemble.

A `View` is one ensemble together with the shared allocators. Slots
(participants, candidates, planned evaluations) change in place, by the
step relations of the first section; records are appended, and evidence
is only ever withdrawn.

A `Scope` bounds what a sequence of moves may do: which evaluations are
recorded, and up to which generation a slot is still advanced. Most
invariants hold under every scope and are stated for all of them.

Invariants are carried by three rules, by induction over the moves:
`Moves.invariant` for a property of views, `Moves.related` for a relation
between the first and the last one, and `Move.ofExecution` for a property
of the execution an ensemble has.
-/

namespace EnsembleFabric

open List (Forall₂)

/-- The bounds on a sequence of moves: which evaluations it may record, and up to
which generation it may advance a slot. -/
structure Scope where
  limits : Limits
  /-- Only slots whose generation is below the bound are advanced. -/
  bound : Nat := 2 ^ 64
  /-- The evaluations that may be recorded. -/
  records : EnsembleRecord → ExecutionRecord → EvaluationRecord → Prop := fun _ _ _ => True

/-! ## Slots -/

/-- The allocators only move up, inside one epoch. -/
structure CoreStep (k k' : Core) : Prop where
  epoch : k'.epoch = k.epoch
  candidateIds : k.candidateIds.next.toNat ≤ k'.candidateIds.next.toNat
  evaluationIds : k.evaluationIds.next.toNat ≤ k'.evaluationIds.next.toNat

/-- The same participant slot, served by the same worker incarnation. -/
structure SameIncarnation (p p' : ParticipantRecord) : Prop where
  id : p'.id = p.id
  generation : p'.generation = p.generation
  declaration : p'.declaration = p.declaration
  worker : p'.worker = p.worker
  workerBoot : p'.workerBoot = p.workerBoot
  coordinatorEpoch : p'.coordinatorEpoch = p.coordinatorEpoch
  profile : p'.profile = p.profile

/-- A participant slot keeps its seat, loses it, or is given a new one. -/
inductive SeatStep (bound : Nat) (p p' : ParticipantRecord) : Prop
  | kept (same : SameIncarnation p p') (status : p'.status = p.status)
      (registered : p'.registered = p.registered)
  | lost (same : SameIncarnation p p') (registered : p'.registered = false)
  | seated (id : p'.id = p.id) (declaration : p'.declaration = p.declaration)
      (vacant : (p.registered && p.status == .current) = false)
      (room : p.generation.value.toNat < bound)
      (generation : p'.generation = if p.workerBoot.valid then p.generation.next else p.generation)

/-- The same candidate slot at the same generation. -/
structure SameSlot (c c' : CandidateRecord) : Prop where
  id : c'.id = c.id
  generation : c'.generation = c.generation
  participant : c'.participant = c.participant

/-- The content of a candidate that was admitted under the limits. -/
structure Content (limits : Limits) (c : CandidateRecord) : Prop where
  nonempty : c.payload ≠ []
  bounded : c.payload.length ≤ limits.maxCandidatePayloadBytes.toNat
  digest : c.payloadDigest = fingerprintPayload c.payload

/-- What happens to a candidate slot without withdrawing evidence. A slot that
moves on to its next generation withdraws the evidence about the one before,
and is a step of the execution instead. -/
inductive CandidateStep (limits : Limits) (c c' : CandidateRecord) : Prop
  | kept (slot : SameSlot c c') (state : c'.state = c.state) (payload : c'.payload = c.payload)
      (digest : c'.payloadDigest = c.payloadDigest)
  | dispatched (slot : SameSlot c c') (before : c.state = .declared)
      (after : c'.state = .dispatched)
  | received (slot : SameSlot c c') (before : c.state = .dispatched) (after : c'.state = .valid)
      (content : Content limits c')
  | closed (slot : SameSlot c c') (before : c.inFlight = true) (flight : c'.inFlight = false)
      (content : isContentState c'.state = false)

/-- A planned evaluation is emitted or abandoned. -/
structure PendingStep (p p' : PendingEvaluation) : Prop where
  same : p' = { p with emitted := p'.emitted, abandoned := p'.abandoned }
  abandoned : p.abandoned = true → p'.abandoned = true

/-- Changes of an execution that none of its records take part in. -/
structure Bookkeeping (x x' : ExecutionRecord) : Prop where
  id : x'.id = x.id
  attemptGeneration : x'.attemptGeneration = x.attemptGeneration
  coordinatorEpoch : x'.coordinatorEpoch = x.coordinatorEpoch
  status : x'.status = x.status
  candidates : x'.candidates = x.candidates
  evaluations : x'.evaluations = x.evaluations
  pending : x'.pending = x.pending
  cancellationRequested : x'.cancellationRequested = x.cancellationRequested
  result : x'.result = x.result
  commits : x'.commits = x.commits

/-- A participant of the ensemble was declared with the role. -/
def holdsRole (e : EnsembleRecord) (id : ParticipantId) (role : ParticipantRole) : Bool :=
  (e.participant? id).any (·.declaration.roles.contains role)

/-- The evaluation answers the planned evaluation. -/
structure Answers (e : EnsembleRecord) (p : PendingEvaluation) (r : EvaluationRecord) : Prop where
  candidate : r.candidate = p.candidate
  candidateGeneration : r.candidateGeneration = p.candidateGeneration
  criterion : r.criterion = p.criterion
  kind : r.kind = p.kind
  current : r.current = true
  -- verifiers answer hard predicates, everyone else ranking signals
  verifier : r.kind = .hardPredicate ↔ holdsRole e r.evaluator .verifier = true

/-! ## Executions -/

/-- What may happen to the execution of an ensemble. -/
inductive ExecutionStep (sc : Scope) (e : EnsembleRecord) (x : ExecutionRecord) :
    ExecutionRecord → Prop
  | bookkeeping {x'} (same : Bookkeeping x x') : ExecutionStep sc e x x'
  | candidates {cs} (steps : Forall₂ (CandidateStep sc.limits) x.candidates cs) :
      ExecutionStep sc e x { x with candidates := cs }
  /-- An attempt fails for good; its evidence is withdrawn. -/
  | drop {index c c'} (at_ : x.candidates[index]? = some c) (flight : c.inFlight = true)
      (slot : SameSlot c c') (after : c'.state = .failed) :
      ExecutionStep sc e x
        (supersedeCandidateEvidence { x with candidates := x.candidates.set index c' } c.id)
  /-- An attempt is repeated under the next generation; its evidence is
  withdrawn. -/
  | rewind {index c c'} (at_ : x.candidates[index]? = some c) (flight : c.inFlight = true)
      (id : c'.id = c.id) (participant : c'.participant = c.participant)
      (room : c.generation.value.toNat < sc.bound) (generation : c'.generation = c.generation.next)
      (after : c'.state = .declared) :
      ExecutionStep sc e x
        (supersedeCandidateEvidence { x with candidates := x.candidates.set index c' } c.id)
  | pendings {ps} (steps : Forall₂ PendingStep x.pending ps) :
      ExecutionStep sc e x { x with pending := ps }
  /-- A planned evaluation is answered. -/
  | evaluate {index p r} (at_ : x.pending[index]? = some p) (unanswered : p.answered = false)
      (answers : Answers e p r) (admitted : sc.records e x r) :
      ExecutionStep sc e x
        { x with
          evaluations := x.evaluations ++ [r]
          pending := x.pending.set index { p with answered := true } }
  /-- An open execution ends without a result. -/
  | close {status} (before : x.status = .opened)
      (after : status = .superseded ∨ status = .failed ∨ status = .revalidationRequired) :
      ExecutionStep sc e x { x with status }
  | cancel {x'} (undecided : x.result = none)
      (same : Bookkeeping { x with cancellationRequested := true, status := .cancelled } x') :
      ExecutionStep sc e x x'
  /-- Evidence of an earlier epoch is withdrawn. -/
  | expire : ExecutionStep sc e x
      { x with evaluations := x.evaluations.map fun r => { r with current := false } }
  | commit {stored} (undecided : x.result = none) (allowed : commitAllowed e x = .ok ())
      (ensemble : stored.ensemble = e.spec.id)
      (generation : stored.ensembleGeneration = e.spec.generation)
      (execution : stored.execution = x.id) :
      ExecutionStep sc e x (storeResult sc.limits e x stored).1

/-! ## Ensembles -/

/-- One ensemble and the shared part of the runtime. -/
structure View where
  core : Core
  entry : Option EnsembleRecord

/-- What one ensemble sees of the runtime. -/
def Fabric.view (f : Fabric) (id : EnsembleId) : View := ⟨f.core, f.find id⟩

/-- A specification that passed validation. -/
def Admitted (limits : Limits) (spec : EnsembleSpec) : Prop :=
  ∃ validated, validateSpec validated limits = .ok ()
    ∧ spec = { validated with fingerprint := spec.fingerprint }

/-- What may happen to an ensemble: it is defined, redefined or superseded, its
participants take or lose seats, or its execution takes a step. -/
inductive Move (sc : Scope) : View → View → Prop
  /-- Something happens elsewhere in the runtime. -/
  | tick {k k' en} (step : CoreStep k k') : Move sc ⟨k, en⟩ ⟨k', en⟩
  | define {k spec} (admitted : Admitted sc.limits spec) :
      Move sc ⟨k, none⟩ ⟨k, some (newRecord spec)⟩
  | redefine {k e spec} (admitted : Admitted sc.limits spec)
      (last : e.spec.generation.value ≠ lastWord)
      (generation : spec.generation = e.spec.generation.next) (identity : spec.id = e.spec.id) :
      Move sc ⟨k, some e⟩ ⟨k, some (redefinedRecord sc.limits e spec)⟩
  | supersede {k e} : Move sc ⟨k, some e⟩ ⟨k, some { e with superseded := true }⟩
  | seats {k e ps} (steps : Forall₂ (SeatStep sc.bound) e.participants ps) :
      Move sc ⟨k, some e⟩ ⟨k, some { e with participants := ps }⟩
  | openFirst {k e} (live : e.superseded = false) (fresh : e.execution = none) :
      Move sc ⟨k, some e⟩ ⟨k, some (e.holding { id := ⟨1⟩, coordinatorEpoch := k.epoch })⟩
  | openNext {k e x} (live : e.superseded = false) (before : e.execution = some x)
      (ended : x.status ≠ .opened) (last : x.id.value ≠ lastWord) :
      Move sc ⟨k, some e⟩ ⟨k, some (e.holding { id := x.id.next, coordinatorEpoch := k.epoch })⟩
  | work {k e x x'} (before : e.execution = some x) (step : ExecutionStep sc e x x') :
      Move sc ⟨k, some e⟩ ⟨k, some (e.holding x')⟩
  /-- A candidate is declared under a fresh identity. -/
  | declare {k e x ids c} (before : e.execution = some x)
      (fresh : k.candidateIds.allocate = some (c.id, ids)) (generation : c.generation = ⟨1⟩)
      (state : c.state = .declared) :
      Move sc ⟨k, some e⟩
        ⟨{ k with candidateIds := ids },
          some (e.holding { x with candidates := x.candidates ++ [c] })⟩
  /-- An evaluation is planned under a fresh identity. -/
  | plan {k e x ids p} (before : e.execution = some x)
      (fresh : k.evaluationIds.allocate = some (p.id, ids)) (unanswered : p.answered = false)
      (mandatory : p.kind = .hardPredicate → p.criterion ∈ e.spec.evidence.mandatoryCriteria) :
      Move sc ⟨k, some e⟩
        ⟨{ k with evaluationIds := ids },
          some (e.holding { x with pending := x.pending ++ [p] })⟩

/-- Any number of moves. -/
abbrev Moves (sc : Scope) : View → View → Prop := Relation.ReflTransGen (Move sc)

theorem Moves.single {sc : Scope} {v v' : View} (h : Move sc v v') : Moves sc v v' :=
  Relation.ReflTransGen.single h

/-- What every move preserves, any number of moves preserves. -/
theorem Moves.invariant {sc : Scope} {P : View → Prop}
    (hmove : ∀ {v v'}, Move sc v v' → P v → P v') {v v' : View} (h : Moves sc v v') (hv : P v) :
    P v' := by
  induction h with
  | refl => exact hv
  | tail _ hstep ih => exact hmove hstep ih

/-- A reflexive and transitive relation met by every move is met by any
number of moves. -/
theorem Moves.related {sc : Scope} {R : View → View → Prop} (hrefl : ∀ v, R v v)
    (htrans : ∀ {a b c}, R a b → R b c → R a c) (hmove : ∀ {v v'}, Move sc v v' → R v v')
    {v v' : View} (h : Moves sc v v') : R v v' := by
  induction h with
  | refl => exact hrefl v
  | tail _ hstep ih => exact htrans ih (hmove hstep)

/-! ## Invariants of executions -/

/-- The execution that the ensemble has, if any, has the property. -/
def OfExecution (P : EnsembleRecord → ExecutionRecord → Prop) (v : View) : Prop :=
  ∀ e x, v.entry = some e → e.execution = some x → P e x

/-- A property is invariant when it holds of new executions and every
change of the execution, or of the ensemble around it, preserves it. -/
theorem Move.ofExecution {sc : Scope} {P : EnsembleRecord → ExecutionRecord → Prop}
    (hopen : ∀ (e : EnsembleRecord) id epoch, P (e.holding { id, coordinatorEpoch := epoch })
      { id, coordinatorEpoch := epoch })
    (hsupersede : ∀ {e x}, P e x → P { e with superseded := true } x)
    (hseats : ∀ {e x ps}, Forall₂ (SeatStep sc.bound) e.participants ps → P e x →
      P { e with participants := ps } x)
    (hstep : ∀ {e x x'}, ExecutionStep sc e x x' → P e x → P (e.holding x') x')
    (hdeclare : ∀ {e x c}, c.state = .declared → P e x →
      P (e.holding { x with candidates := x.candidates ++ [c] })
        { x with candidates := x.candidates ++ [c] })
    (hplan : ∀ {e x p}, p.answered = false →
      (p.kind = .hardPredicate → p.criterion ∈ e.spec.evidence.mandatoryCriteria) → P e x →
      P (e.holding { x with pending := x.pending ++ [p] })
        { x with pending := x.pending ++ [p] })
    {v v' : View} (h : Move sc v v') (hv : OfExecution P v) : OfExecution P v' := by
  cases h with
  | tick => exact hv
  | define =>
    rintro _ x ⟨⟩ hx
    cases hx
  | redefine =>
    rintro _ x ⟨⟩ hx
    cases hx
  | supersede =>
    rintro _ x ⟨⟩ hx
    exact hsupersede (hv _ x rfl hx)
  | seats steps =>
    rintro _ x ⟨⟩ hx
    exact hseats steps (hv _ x rfl hx)
  | openFirst =>
    rintro _ _ ⟨⟩ ⟨⟩
    exact hopen _ _ _
  | openNext =>
    rintro _ _ ⟨⟩ ⟨⟩
    exact hopen _ _ _
  | work before step =>
    rintro _ _ ⟨⟩ ⟨⟩
    exact hstep step (hv _ _ rfl before)
  | declare before _ _ state =>
    rintro _ _ ⟨⟩ ⟨⟩
    exact hdeclare state (hv _ _ rfl before)
  | plan before _ unanswered mandatory =>
    rintro _ _ ⟨⟩ ⟨⟩
    exact hplan unanswered mandatory (hv _ _ rfl before)

/-! ## Facts about steps -/

theorem CoreStep.refl (k : Core) : CoreStep k k := ⟨rfl, Nat.le_refl _, Nat.le_refl _⟩

theorem CoreStep.trans {a b c : Core} (h : CoreStep a b) (h' : CoreStep b c) : CoreStep a c :=
  ⟨h'.epoch.trans h.epoch, Nat.le_trans h.candidateIds h'.candidateIds,
    Nat.le_trans h.evaluationIds h'.evaluationIds⟩

theorem SameIncarnation.refl (p : ParticipantRecord) : SameIncarnation p p :=
  ⟨rfl, rfl, rfl, rfl, rfl, rfl, rfl⟩

theorem SeatStep.refl (bound : Nat) (p : ParticipantRecord) : SeatStep bound p p :=
  .kept (.refl p) rfl rfl

theorem SeatStep.id {bound : Nat} {p p' : ParticipantRecord} (h : SeatStep bound p p') :
    p'.id = p.id := by
  cases h with
  | kept same => exact same.id
  | lost same => exact same.id
  | seated id => exact id

theorem SeatStep.declaration {bound : Nat} {p p' : ParticipantRecord} (h : SeatStep bound p p') :
    p'.declaration = p.declaration := by
  cases h with
  | kept same => exact same.declaration
  | lost same => exact same.declaration
  | seated _ declaration => exact declaration

theorem SameSlot.refl (c : CandidateRecord) : SameSlot c c := ⟨rfl, rfl, rfl⟩

theorem CandidateStep.refl (limits : Limits) (c : CandidateRecord) : CandidateStep limits c c :=
  .kept (.refl c) rfl rfl rfl

theorem CandidateStep.slot {limits : Limits} {c c' : CandidateRecord}
    (h : CandidateStep limits c c') : SameSlot c c' := by
  cases h with
  | kept slot => exact slot
  | dispatched slot => exact slot
  | received slot => exact slot
  | closed slot => exact slot

theorem PendingStep.refl (p : PendingEvaluation) : PendingStep p p := ⟨rfl, fun h => h⟩

/-- Every move keeps the allocators in step. -/
theorem Move.core {sc : Scope} {v v' : View} (h : Move sc v v') : CoreStep v.core v'.core := by
  cases h with
  | tick step => exact step
  | declare before fresh =>
    obtain ⟨-, hnext⟩ := IdAllocator.allocate_spec fresh
    exact ⟨rfl, by simp [hnext], Nat.le_refl _⟩
  | plan before fresh =>
    obtain ⟨-, hnext⟩ := IdAllocator.allocate_spec fresh
    exact ⟨rfl, Nat.le_refl _, by simp [hnext]⟩
  | _ => exact .refl _

theorem Moves.core {sc : Scope} {v v' : View} (h : Moves sc v v') : CoreStep v.core v'.core :=
  h.related (R := fun v v' => CoreStep v.core v'.core) (fun v => .refl v.core)
    (fun h h' => h.trans h') Move.core

/-- A participant keeps the roles it was declared with. -/
theorem holdsRole_of_seats {bound : Nat} {e : EnsembleRecord} {ps : List ParticipantRecord}
    (h : Forall₂ (SeatStep bound) e.participants ps) (id : ParticipantId)
    (role : ParticipantRole) :
    holdsRole { e with participants := ps } id role = holdsRole e id role := by
  simp only [holdsRole, EnsembleRecord.participant?]
  generalize e.participants = qs at h
  induction h with
  | nil => rfl
  | @cons p p' _ _ hstep _ ih =>
    have hid : (p'.id == id) = (p.id == id) := by rw [hstep.id]
    cases htest : p.id == id with
    | true => simp [hid, htest, hstep.declaration]
    | false => simpa [hid, htest] using ih

end EnsembleFabric
