import EnsembleFabric.Text

/-!
# Roles, verdicts and criteria

A role decides which work a participant may be dispatched, which
evidence it may publish, and how its evidence enters quorum and
arbitration. A participant may have several: `RoleSet` is the bit mask
of the source (`role.hpp`), and its operations are the mask operations,
so that a set decoded from a file is compared as the source compares it.

Verdicts keep UNKNOWN and ABSTAIN as values of their own: neither is a
rejection, and no function of the model maps one to another. A criterion
is named together with its version, and two versions of one criterion
are different criteria. `word` is the numerical value of an enumerator,
which is what digests and codecs write.
-/

namespace EnsembleFabric

inductive ParticipantRole where
  | candidate
  | specialist
  | judge
  | verifier
  | fallback
deriving DecidableEq

namespace ParticipantRole

def toString : ParticipantRole → String
  | .candidate => "CANDIDATE"
  | .specialist => "SPECIALIST"
  | .judge => "JUDGE"
  | .verifier => "VERIFIER"
  | .fallback => "FALLBACK"

/-- The bit of a role inside a role mask. -/
def bit : ParticipantRole → UInt32
  | .candidate => 1
  | .specialist => 2
  | .judge => 4
  | .verifier => 8
  | .fallback => 16

def word : ParticipantRole → UInt64
  | .candidate => 1
  | .specialist => 2
  | .judge => 3
  | .verifier => 4
  | .fallback => 5

end ParticipantRole

/-- `role_evaluates`: the roles that judge other participants' work. -/
def roleEvaluates : ParticipantRole → Bool
  | .judge | .verifier => true
  | .candidate | .specialist | .fallback => false

/-- A small set of roles, backed by a bit mask. Codecs and digests write the mask
as it is. -/
structure RoleSet where
  mask : UInt32 := 0
deriving DecidableEq

namespace RoleSet

def contains (s : RoleSet) (role : ParticipantRole) : Bool := s.mask &&& role.bit != 0

def containsAll (s other : RoleSet) : Bool := s.mask &&& other.mask == other.mask

def merge (s other : RoleSet) : RoleSet := ⟨s.mask ||| other.mask⟩

def isEmpty (s : RoleSet) : Bool := s.mask == 0

/-- Roles in enumeration order, "|" separated. -/
def toString (s : RoleSet) : String :=
  let held := [ParticipantRole.candidate, .specialist, .judge, .verifier, .fallback].filter
    s.contains
  if held.isEmpty then "NONE" else joinText "|" (held.map ParticipantRole.toString)

end RoleSet

inductive VerificationState where
  | pass
  | fail
  | abstain
  | unknown
deriving DecidableEq

def VerificationState.word : VerificationState → UInt64
  | .pass => 1
  | .fail => 2
  | .abstain => 3
  | .unknown => 4

inductive CategoricalJudgment where
  | accept
  | reject
  | abstain
  | unknown
deriving DecidableEq

def CategoricalJudgment.word : CategoricalJudgment → UInt64
  | .accept => 1
  | .reject => 2
  | .abstain => 3
  | .unknown => 4

/-- Hard predicates gate eligibility; ranking signals only order eligible
candidates. A verifier is asked about the former, a judge about the latter. -/
inductive CriterionKind where
  | hardPredicate
  | rankingSignal
deriving DecidableEq

def CriterionKind.word : CriterionKind → UInt64
  | .hardPredicate => 1
  | .rankingSignal => 2

/-- A criterion together with its version. -/
structure CriterionRef where
  id : UInt32 := 0
  version : UInt32 := 0
deriving DecidableEq

def CriterionRef.valid (c : CriterionRef) : Bool := c.id != 0

end EnsembleFabric
