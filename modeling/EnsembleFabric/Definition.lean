import EnsembleFabric.Reports

/-!
# Defining and superseding ensembles

`defineEnsemble` makes a validated specification the next generation of
its ensemble; redefinition drops the execution of the previous
generation. `supersedeEnsemble` marks a generation superseded, for good
(`fabric.cpp`).

The body of the source is one function over a map entry. Here it is cut
where the branches part: the identity the specification is defined
under (`assignIdentity`), validation under that identity and generation
(`admitSpec`), and the record of a first definition (`newRecord`) or of
a later one (`redefinedRecord`). What a redefinition keeps is the
history: the result of the old generation is appended to it, and the
history is cut to its configured length. All participants start
unregistered, whoever served the generation before.

Superseding an open execution closes it and takes every candidate in
flight along (`withdrawCandidates`). The evaluations that were planned
stay in the record as they are.
-/

namespace EnsembleFabric

/-- Keeps the last `count` elements. -/
def retainLast {α : Type} (count : Nat) (xs : List α) : List α := xs.drop (xs.length - count)

/-- A participant of a new generation: declared, not yet registered. Whoever
served the participant in an earlier generation has to register again. -/
def freshParticipant (declaration : ParticipantSpec) : ParticipantRecord where
  id := declaration.id
  generation := ⟨1⟩
  declaration

/-- The generation a specification becomes. -/
def nextGeneration (existing : Option EnsembleRecord) (requested : EnsembleGeneration) :
    Outcome EnsembleGeneration :=
  match existing with
  | none => do
      require (!requested.valid || requested == ⟨1⟩) .invalidArgument
        "a new ensemble must start at generation 1"
      return ⟨1⟩
  | some e => do
      require (e.spec.generation.value != lastWord) .resourceLimitExceeded
        "ensemble generation space is exhausted"
      let next := e.spec.generation.next
      require (!requested.valid || requested == next) .staleEnsembleGeneration
        s!"redefinition must advance to generation {next.toString}, got {requested.toString}"
      return next

/-- The record of an ensemble that was never defined before. -/
def newRecord (spec : EnsembleSpec) : EnsembleRecord where
  spec
  participants := spec.participants.map freshParticipant

/-- The record of a redefined ensemble. A committed result becomes
history; the execution it belonged to is dropped with everything in it. -/
def redefinedRecord (limits : Limits) (e : EnsembleRecord) (spec : EnsembleSpec) :
    EnsembleRecord where
  spec
  participants := spec.participants.map freshParticipant
  history :=
    match e.execution.bind (·.result) with
    | some result => retainLast limits.maxRetainedResults.toNat (e.history ++ [result])
    | none => e.history

@[simp] theorem redefinedRecord_spec (limits : Limits) (e : EnsembleRecord)
    (spec : EnsembleSpec) : (redefinedRecord limits e spec).spec = spec := rfl

@[simp] theorem redefinedRecord_execution (limits : Limits) (e : EnsembleRecord)
    (spec : EnsembleSpec) : (redefinedRecord limits e spec).execution = none := rfl

/-- An execution of this record is open. -/
def EnsembleRecord.isOpen (e : EnsembleRecord) : Bool :=
  e.execution.any (·.status == .opened)

def countSupersession (core : Core) : Core :=
  { core with
    counters := { core.counters with supersessions := core.counters.supersessions + 1 } }

/-- The identity a specification is defined under. -/
def assignIdentity (core : Core) (id : EnsembleId) : Outcome (EnsembleId × Core) :=
  if id.valid then .ok (id, { core with ensembleIds := core.ensembleIds.observe id })
  else
    match core.ensembleIds.allocate with
    | none => fail .resourceLimitExceeded "ensemble identity space is exhausted"
    | some (fresh, ensembleIds) => .ok (fresh, { core with ensembleIds })

/-- The validated specification under its identity and generation. -/
def admitSpec (limits : Limits) (existing : Option EnsembleRecord) (spec : EnsembleSpec) :
    Outcome EnsembleSpec := do
  let generation ← nextGeneration existing spec.generation
  let admitted := { spec with generation }
  validateSpec admitted limits
  return { admitted with fingerprint := admitted.computeSpecFingerprint }

def defineEnsemble (f : Fabric) (requested : EnsembleSpec) :
    Fabric × Outcome EnsembleGeneration :=
  match assignIdentity f.core requested.id with
  | .error error => (f, .error error)
  | .ok (id, core) =>
      -- the allocator keeps its mark even when the definition is refused
      let f := { f with core }
      match admitSpec f.config.limits (f.find id) { requested with id } with
      | .error error => (f, .error error)
      | .ok spec =>
          match f.find id with
          | none => (f.store id (newRecord spec), .ok spec.generation)
          | some e =>
              let f := if e.isOpen then { f with core := countSupersession f.core } else f
              (f.store id (redefinedRecord f.config.limits e spec), .ok spec.generation)

/-- Every candidate in flight takes the state. -/
def withdrawCandidates (state : CandidateState) (candidates : List CandidateRecord) :
    List CandidateRecord :=
  candidates.map fun c => if c.inFlight then { c with state } else c

/-- `supersede_ensemble` on the execution of the record. -/
def supersededExecution (x : ExecutionRecord) : ExecutionRecord :=
  if x.status = .opened then
    { x with
      status := .superseded
      candidates := withdrawCandidates .superseded x.candidates }
  else x

def supersedeEnsemble (f : Fabric) (id : EnsembleId) (generation : EnsembleGeneration) :
    Fabric × Status :=
  match f.find id with
  | none => (f, fail .unknownEnsemble s!"unknown ensemble {id.toString}")
  | some e =>
      if e.spec.generation ≠ generation then
        (f, fail .staleEnsembleGeneration
          (s!"supersede requested for generation {generation.toString} but the current generation "
            ++ s!"is {e.spec.generation.toString}"))
      else
        let superseded :=
          { e with superseded := true, execution := e.execution.map supersededExecution }
        ({ f with core := countSupersession f.core }.store id superseded, okStatus)

end EnsembleFabric
