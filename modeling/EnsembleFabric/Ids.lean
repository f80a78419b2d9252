import Mathlib.Algebra.Group.Nat.Defs

/-!
# Identities

Every identity of the runtime is a 64-bit word in its own domain: an
ensemble identity is never accepted where a candidate identity is
expected. The source gets this from one template with a tag type for
each domain (`ids.hpp`); here the tag is a phantom index of `StrongId`,
so a mix-up does not type-check in the model either. Zero means "no
identity" (`StrongId.valid`). Generations share the representation and
live in domains of their own.

An `IdAllocator` hands the identities of one domain out in order. It
stops before its mark would wrap, and identities that come from outside
(a specification, a state file) push the mark past themselves. Two facts
are all that the rest of the development needs of it:

- `IdAllocator.allocate_spec`: an allocation returns the old mark and
  moves the mark up by one, without wrapping;
- `IdAllocator.observe_le`: an observation never moves it down.
-/

namespace EnsembleFabric

/-- The identity domains of the runtime, one per phantom tag. A domain has no
data of its own; it only keeps the types of identities apart. -/
inductive IdDomain where
  | ensemble
  | ensembleGeneration
  | ensembleExecution
  | ensembleAttemptGeneration
  | participant
  | participantGeneration
  | candidate
  | candidateGeneration
  | evaluation
  | evaluationGeneration
  | result
  | resultGeneration
  | worker
  | workerBoot
  | coordinatorEpoch
  | stage
  | sequence
  | request
deriving DecidableEq

/-- A strongly typed 64-bit identity. Two identities of one domain are equal if
their words are, and identities of two domains are never compared. -/
structure StrongId (domain : IdDomain) where
  value : UInt64 := 0
deriving DecidableEq

abbrev EnsembleId := StrongId .ensemble
abbrev EnsembleGeneration := StrongId .ensembleGeneration
abbrev EnsembleExecutionId := StrongId .ensembleExecution
abbrev EnsembleAttemptGeneration := StrongId .ensembleAttemptGeneration
abbrev ParticipantId := StrongId .participant
abbrev ParticipantGeneration := StrongId .participantGeneration
abbrev CandidateId := StrongId .candidate
abbrev CandidateGeneration := StrongId .candidateGeneration
abbrev EvaluationId := StrongId .evaluation
abbrev EvaluationGeneration := StrongId .evaluationGeneration
abbrev ResultId := StrongId .result
abbrev ResultGeneration := StrongId .resultGeneration
abbrev WorkerId := StrongId .worker
abbrev WorkerBootId := StrongId .workerBoot
abbrev CoordinatorEpoch := StrongId .coordinatorEpoch
abbrev StageId := StrongId .stage
abbrev Sequence := StrongId .sequence
abbrev RequestId := StrongId .request

namespace StrongId

variable {domain : IdDomain}

def valid (id : StrongId domain) : Bool := id.value != 0

/-- Canonical decimal rendering. -/
def toString (id : StrongId domain) : String := s!"{id.value.toNat}"

/-- The next identity of the domain; the machine word wraps. -/
def next (id : StrongId domain) : StrongId domain := ⟨id.value + 1⟩

@[simp] theorem next_value (id : StrongId domain) : id.next.value = id.value + 1 := rfl

theorem next_toNat {id : StrongId domain} (h : id.value.toNat + 1 < 2 ^ 64) :
    id.next.value.toNat = id.value.toNat + 1 := by
  rw [next_value, UInt64.toNat_add]
  exact Nat.mod_eq_of_lt h

end StrongId

/-- The last word of the 64-bit space, `static_cast<std::uint64_t>(-1)`. -/
def lastWord : UInt64 := 0xFFFFFFFFFFFFFFFF

/-- An identity that is not the last one is below the next. -/
theorem StrongId.lt_next {domain : IdDomain} {id : StrongId domain} (h : id.value ≠ lastWord) :
    id.value < id.next.value := by
  have hne : id.value.toNat ≠ 2 ^ 64 - 1 := fun heq =>
    h (UInt64.toNat_inj.mp (heq.trans (by decide)))
  have hbound := id.value.toNat_lt
  rw [UInt64.lt_iff_toNat_lt, next_toNat (by omega)]
  exact Nat.lt_succ_self _

/-! ## Allocation -/

/-- Monotonic allocator of one identity domain. The first identity handed
out by a fresh allocator is 1, so no allocator ever hands out the word that
means "no identity". -/
structure IdAllocator (domain : IdDomain) where
  next : UInt64 := 1
deriving DecidableEq

namespace IdAllocator

variable {domain : IdDomain}

/-- The next identity and the advanced allocator; nothing once the space is
exhausted. -/
def allocate (a : IdAllocator domain) : Option (StrongId domain × IdAllocator domain) :=
  if a.next = lastWord then none else some (⟨a.next⟩, ⟨a.next + 1⟩)

/-- Raises the high-water mark past an identity that is already in use. An
identity that was handed out before leaves the mark as it is. -/
def observe (a : IdAllocator domain) (id : StrongId domain) : IdAllocator domain :=
  if a.next ≤ id.value ∧ id.value ≠ lastWord then ⟨id.value + 1⟩ else a

/-- An allocation returns the old mark and moves the mark up by one. -/
theorem allocate_spec {a a' : IdAllocator domain} {id : StrongId domain}
    (h : a.allocate = some (id, a')) :
    id.value = a.next ∧ a'.next.toNat = a.next.toNat + 1 := by
  unfold allocate at h
  split at h
  · cases h
  · rename_i hne
    obtain ⟨rfl, rfl⟩ := Prod.mk.injEq .. |>.mp (Option.some.inj h)
    refine ⟨rfl, ?_⟩
    have hlt : a.next.toNat ≠ 2 ^ 64 - 1 := fun heq =>
      hne (UInt64.toNat_inj.mp (heq.trans (by decide)))
    have hbound := a.next.toNat_lt
    rw [UInt64.toNat_add, show (1 : UInt64).toNat = 1 from rfl]
    exact Nat.mod_eq_of_lt (by omega)

theorem observe_le (a : IdAllocator domain) (id : StrongId domain) :
    a.next.toNat ≤ (a.observe id).next.toNat := by
  unfold observe
  split
  · rename_i h
    obtain ⟨hle, hne⟩ := h
    have hlt : id.value.toNat ≠ 2 ^ 64 - 1 := fun heq =>
      hne (UInt64.toNat_inj.mp (heq.trans (by decide)))
    have hbound := id.value.toNat_lt
    have hle' : a.next.toNat ≤ id.value.toNat := UInt64.le_iff_toNat_le.mp hle
    rw [UInt64.toNat_add, show (1 : UInt64).toNat = 1 from rfl, Nat.mod_eq_of_lt (by omega)]
    omega
  · exact Nat.le_refl _

end IdAllocator

end EnsembleFabric
