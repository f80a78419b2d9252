import Mathlib.Order.Bounds.Basic
import EnsembleFabric.Quorum

/-!
# What the denominator counts

A quorum policy names a vote basis and four flags. Each flag says whether
members of one kind stay in the denominator: optional ones, failed ones,
unavailable ones, and those that only abstained. The code applies three of
the four; the arithmetic is as stated exactly where the fourth makes no
difference (`quorum_arithmetic_iff`).

`FollowsPolicy` states the arithmetic in its own terms, without the loops of
`computeQuorum`: the numbers of members that are `counted` on each side, the
denominator and the threshold, which is the least number of members that is
the percentage of it (`percentageCeiling_least`). The code forms its own
denominator (`inCodeDenominator`). The two differ in
the members that have only abstained (`counted_eq`), and the condition of
the result asks for none of them where the policy leaves abstentions out.

The counterexample is a policy that leaves abstentions out, with two members
that decide and two that abstain: the denominator is four.
-/

namespace EnsembleFabric

/-! ## The stated policy -/

section Policy

variable (policy : QuorumPolicy) (votes : List EligibleVote)

/-- The member has cast a vote that decides something. -/
def hasDecided (m : QuorumMember) : Bool :=
  ((uniqueVotes votes).filter (!·.abstained)).any (·.participant == m.participant)

/-- The member has abstained. -/
def hasAbstained (m : QuorumMember) : Bool :=
  (uniqueVotes votes).any fun v => v.abstained && v.participant == m.participant

/-- The member has voted, and only abstained. -/
def onlyAbstained (m : QuorumMember) : Bool := !hasDecided votes m && hasAbstained votes m

/-- The member belongs to the vote basis. -/
def inBasis (m : QuorumMember) : Bool :=
  match policy.voteBasis with
  | .declaredParticipants => true
  | .authoritativeParticipants => m.authorized
  | .contributingParticipants => hasDecided votes m || hasAbstained votes m
  | .requiredParticipants => m.required
  | .eligibleParticipants => m.authorized && m.available && !m.failed

/-- The member is counted under the four flags. -/
def counted (m : QuorumMember) : Bool :=
  inBasis policy votes m
    && (policy.countAbstentions || !onlyAbstained votes m)
    && (policy.countOptionalParticipants || m.required)
    && (policy.countFailedInDenominator || !m.failed)
    && (policy.countUnavailableInDenominator || m.available)

/-- The members the code counts. -/
def inCodeDenominator (m : QuorumMember) : Bool :=
  inDenominator policy
    (fun id => ((uniqueVotes votes).filter (!·.abstained)).any (·.participant == id))
    (fun id => (uniqueVotes votes).any fun v => v.abstained && v.participant == id) m

/-- The report follows the policy. -/
structure FollowsPolicy (membership : List QuorumMember) (report : QuorumReport) : Prop where
  denominator : report.denominator = countMembers membership (counted policy votes)
  inside : report.contributors + report.abstentions ≤ report.denominator
  threshold : IsLeast {n | policy.consensusThresholdPercent.toNat * report.denominator ≤ 100 * n}
    report.thresholdCount

end Policy

/-! ## The code -/

theorem counted_eq (policy : QuorumPolicy) (votes : List EligibleVote) (m : QuorumMember) :
    counted policy votes m = (inCodeDenominator policy votes m
      && (policy.countAbstentions || !onlyAbstained votes m)) := by
  have hbasis : inCodeDenominator policy votes m = (inBasis policy votes m
      && (policy.countOptionalParticipants || m.required)
      && (policy.countFailedInDenominator || !m.failed)
      && (policy.countUnavailableInDenominator || m.available)) := by
    unfold inCodeDenominator inDenominator inBasis
    cases policy.voteBasis <;> rfl
  rw [hbasis, counted]
  cases inBasis policy votes m <;> cases policy.countAbstentions || !onlyAbstained votes m <;>
    simp

/-- A share is rounded up to the least number of members that makes it. -/
theorem percentageCeiling_least {total : Nat} {percent : UInt32} (htotal : total < 2 ^ 32)
    (hpercent : percent.toNat ≤ 100) :
    IsLeast {n | percent.toNat * total ≤ 100 * n} (percentageCeiling total percent) := by
  rw [percentageCeiling_eq htotal hpercent, Nat.mul_comm percent.toNat]
  constructor
  · show total * percent.toNat ≤ 100 * ((total * percent.toNat + 99) / 100)
    omega
  · intro n hn
    have hreach : total * percent.toNat ≤ 100 * n := hn
    omega

/-- Two disjoint parts of a list are no longer than the list. -/
theorem length_filter_add_le {α : Type} {p q : α → Bool} (h : ∀ a, p a = true → q a = false)
    (xs : List α) : (xs.filter p).length + (xs.filter q).length ≤ xs.length := by
  induction xs with
  | nil => simp
  | cons x xs ih =>
    rw [List.filter_cons, List.filter_cons]
    by_cases hp : p x = true
    · rw [if_pos hp, if_neg (by simp [h x hp]), List.length_cons, List.length_cons]
      omega
    · rw [if_neg hp]
      split
      · rw [List.length_cons, List.length_cons]
        omega
      · rw [List.length_cons]
        omega

section Code

variable (policy : QuorumPolicy) (membership : List QuorumMember) (votes : List EligibleVote)
  (validCandidates : Nat) (generation : EnsembleGeneration) (epoch : CoordinatorEpoch)
  (sequence : Sequence)

theorem computeQuorum_inside :
    (computeQuorum policy membership votes validCandidates generation epoch sequence).contributors
        + (computeQuorum policy membership votes validCandidates generation epoch
          sequence).abstentions
      ≤ (computeQuorum policy membership votes validCandidates generation epoch
        sequence).denominator :=
  length_filter_add_le (fun m hm => by simp [hm])
    (membership.filter (inCodeDenominator policy votes))

/-- The counts agree if and only if nobody is counted by the code alone. -/
theorem countMembers_eq_iff :
    countMembers membership (inCodeDenominator policy votes)
        = countMembers membership (counted policy votes)
      ↔ policy.countAbstentions = true
        ∨ ∀ m ∈ membership, inCodeDenominator policy votes m = true →
          onlyAbstained votes m = false := by
  have hfilter : membership.filter (counted policy votes)
      = (membership.filter (inCodeDenominator policy votes)).filter fun m =>
        policy.countAbstentions || !onlyAbstained votes m := by
    rw [List.filter_filter]
    refine List.filter_congr fun m _ => ?_
    rw [counted_eq, Bool.and_comm]
  rw [countMembers, countMembers, hfilter, eq_comm, List.length_filter_eq_length_iff]
  cases policy.countAbstentions with
  | true => simp
  | false => simp [List.mem_filter]

/-- For every policy with a threshold of at most 100 percent and every
membership of fewer than 2^32 members, the quorum report follows the stated
policy if and only if abstentions count, or no member that is counted
otherwise has only abstained. -/
theorem quorum_arithmetic_iff (hpercent : policy.consensusThresholdPercent.toNat ≤ 100)
    (hmembers : membership.length < 2 ^ 32) :
    FollowsPolicy policy votes membership
        (computeQuorum policy membership votes validCandidates generation epoch sequence)
      ↔ policy.countAbstentions = true
        ∨ ∀ m ∈ membership, inCodeDenominator policy votes m = true →
          onlyAbstained votes m = false := by
  rw [← countMembers_eq_iff]
  have hle := computeQuorum_denominator_le policy membership votes validCandidates generation epoch
    sequence
  constructor
  · exact fun h => h.denominator
  · intro hsame
    refine ⟨hsame, computeQuorum_inside _ _ _ _ _ _ _, ?_⟩
    rw [computeQuorum_thresholdCount]
    exact percentageCeiling_least (by omega) hpercent

end Code

namespace Sample

/-- An authoritative member that can act. -/
def member (id : UInt64) : QuorumMember where
  participant := ⟨id⟩
  generation := ⟨1⟩
  roles := {}
  required := true
  authorized := true
  available := true
  failed := false
  fallback := false
  roleAvailable := true

/-- A vote of a member for candidate 10. -/
def vote (id : UInt64) (abstained : Bool) : EligibleVote where
  participant := ⟨id⟩
  generation := ⟨1⟩
  role := .judge
  candidate := ⟨10⟩
  candidateGeneration := ⟨1⟩
  weight := .one
  abstained

/-- Half of the members decide, and abstentions do not count. -/
def halfDecides : QuorumPolicy := { consensusThresholdPercent := 50, countAbstentions := false }

end Sample

/-- Two members decide under a policy that leaves abstentions out. Nobody has only
abstained, so the arithmetic is what the policy states. -/
theorem halfDecides_counted :
    FollowsPolicy Sample.halfDecides [Sample.vote 1 false, Sample.vote 2 false]
        [Sample.member 1, Sample.member 2]
        (computeQuorum Sample.halfDecides [Sample.member 1, Sample.member 2]
          [Sample.vote 1 false, Sample.vote 2 false] 1 ⟨1⟩ ⟨1⟩ ⟨1⟩)
      ↔ Sample.halfDecides.countAbstentions = true
        ∨ ∀ m ∈ [Sample.member 1, Sample.member 2],
          inCodeDenominator Sample.halfDecides [Sample.vote 1 false, Sample.vote 2 false] m = true →
            onlyAbstained [Sample.vote 1 false, Sample.vote 2 false] m = false :=
  quorum_arithmetic_iff _ _ _ _ _ _ _ (by decide) (by decide)

/-- Of four members two only abstain. Abstentions do not count, and the
denominator is four all the same, so that two agreeing members, all who
decided, only just meet the threshold of one half. -/
theorem abstainers_are_counted :
    (computeQuorum Sample.halfDecides (([1, 2, 3, 4] : List UInt64).map Sample.member)
        [Sample.vote 1 false, Sample.vote 2 false, Sample.vote 3 true, Sample.vote 4 true]
        1 ⟨1⟩ ⟨1⟩ ⟨1⟩).denominator = 4
      ∧ countMembers (([1, 2, 3, 4] : List UInt64).map Sample.member)
        (counted Sample.halfDecides
          [Sample.vote 1 false, Sample.vote 2 false, Sample.vote 3 true, Sample.vote 4 true]) = 2
      ∧ (computeQuorum Sample.halfDecides (([1, 2, 3, 4] : List UInt64).map Sample.member)
        [Sample.vote 1 false, Sample.vote 2 false, Sample.vote 3 true, Sample.vote 4 true]
        1 ⟨1⟩ ⟨1⟩ ⟨1⟩).thresholdCount = 2 := by
  decide +kernel

end EnsembleFabric
