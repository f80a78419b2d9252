import Mathlib.Algebra.BigOperators.Group.List.Basic
import EnsembleFabric.Library.Reordering
import EnsembleFabric.Steady
import EnsembleFabric.System

/-!
# The order of the evidence

Summaries, tallies and the ranking count and add: they are the same for
every order of the evaluations. One count is not. Votes are deduplicated
by evaluator and candidate, and the first vote decides whether the member
is counted as contributing or as abstaining.

> The number of abstaining members lies between that of the order in
> which all abstentions come last and that of the order in which they
> come first.

The outcome is a function of that number. It is the same for every order
when the abstention budget does not separate the two extremes, and no
abstention at all is one of them only where it makes no difference.

The first half computes quorum and consensus from the number of abstaining
members and from what no order changes (`quorumStateGiven`,
`outcomeGiven`). The second half bounds the number (`abstainingMembers_bounds`)
and attains both bounds (`decidedFirst`, `abstainedFirst`), so that the
condition `OrderFree` is exact:

> evidence_order_free_iff : the same evidence in any order gives the same
> decision exactly when the members whose abstention depends on the order
> make no difference.

Scores are compared as the exact numbers they stand for. Sums of doubles do
depend on the order in which they are formed, and the claim is not about
them.
-/

namespace EnsembleFabric

open Precedence

/-! ## What does not see the order -/

/-- The execution with its evaluations in another order. Nothing else about it
changes, so whatever reads the evaluations as a set reads the same. -/
def ExecutionRecord.arrived (x : ExecutionRecord) (evaluations : List EvaluationRecord) :
    ExecutionRecord :=
  { x with evaluations }

/-! ### Exact sums and extrema -/

theorem lesser_eq_min : (Arithmetic.lesser : Rat → Rat → Rat) = min := by
  funext a b
  have hdef : Arithmetic.lesser a b = if b < a then b else a :=
    if_congr decide_eq_true_iff rfl rfl
  rw [hdef, min_comm]
  split
  · rename_i hlt
    exact (min_eq_left hlt.le).symm
  · rename_i hle
    exact (min_eq_right (not_lt.mp hle)).symm

theorem greater_eq_max : (Arithmetic.greater : Rat → Rat → Rat) = max := by
  funext a b
  have hdef : Arithmetic.greater a b = if a < b then b else a :=
    if_congr decide_eq_true_iff rfl rfl
  rw [hdef]
  split
  · rename_i hlt
    exact (max_eq_right hlt.le).symm
  · rename_i hle
    exact (max_eq_left (not_lt.mp hle)).symm

theorem sum_perm {xs ys : List Rat} (h : xs.Perm ys) : Arithmetic.sum xs = Arithmetic.sum ys :=
  @List.Perm.foldl_eq _ _ (· + ·) _ _ ⟨fun a b c => add_right_comm a b c⟩ h _

section Symmetric

variable {x : ExecutionRecord} {evaluations : List EvaluationRecord}
  (h : evaluations.Perm x.evaluations)
include h

theorem currentEvaluations_perm (c : CandidateRecord) :
    (currentEvaluations (x.arrived evaluations) c).Perm (currentEvaluations x c) :=
  h.filter _

/-- With exact scores a summary is the same for every order. -/
theorem summarizeCandidate_arrived (c : CandidateRecord) :
    summarizeCandidateIn Rat (x.arrived evaluations) c = summarizeCandidateIn Rat x c := by
  have hes := currentEvaluations_perm h c
  have hscores := (hes.filter (·.scoreDefined)).map fun e => (Arithmetic.read e.score : Rat)
  have hcount : ∀ p : EvaluationRecord → Bool,
      (currentEvaluations (x.arrived evaluations) c).countP p = (currentEvaluations x c).countP p :=
    fun p => hes.countP_eq p
  have hsum : ∀ (p : EvaluationRecord → Bool) (f : EvaluationRecord → Rat),
      Arithmetic.sum (((currentEvaluations (x.arrived evaluations) c).filter p).map f)
        = Arithmetic.sum (((currentEvaluations x c).filter p).map f) :=
    fun p f => sum_perm ((hes.filter p).map f)
  simp only [summarizeCandidateIn, hcount, hsum, hes.length_eq,
    Reordering.eraseDups_length_perm (hes.map (·.evaluator)),
    lesser_eq_min, greater_eq_max, Reordering.foldl_head_perm min_comm min_assoc hscores,
    Reordering.foldl_head_perm max_comm max_assoc hscores]

theorem arbitrationInput_arrived (e : EnsembleRecord) (c : CandidateRecord) :
    arbitrationInputIn Rat e (x.arrived evaluations) c = arbitrationInputIn Rat e x c := by
  rw [arbitrationInputIn, summarizeCandidate_arrived h]
  rfl

theorem eligibleVotes_perm :
    (eligibleVotes (x.arrived evaluations)).Perm (eligibleVotes x) :=
  (h.filter _).map _

end Symmetric

/-- A tally without the names of those it counts, and without the sum of their
weights, which is rounded in the order of the votes. -/
def CandidateTally.unlisted (t : CandidateTally) : CandidateTally :=
  { t with
    weightedAgree := .zero
    agreeingMembers := []
    disagreeingMembers := []
    abstainingMembers := [] }

theorem tallyCandidate_arrived {x : ExecutionRecord} {evaluations : List EvaluationRecord}
    (h : evaluations.Perm x.evaluations) (c : CandidateRecord) :
    (tallyCandidate (x.arrived evaluations) c).unlisted = (tallyCandidate x c).unlisted := by
  have hes := currentEvaluations_perm h c
  have hcount : ∀ p : EvaluationRecord → Bool,
      (currentEvaluations (x.arrived evaluations) c).countP p = (currentEvaluations x c).countP p :=
    fun p => hes.countP_eq p
  simp only [CandidateTally.unlisted, tallyCandidate, hcount]

/-! ## Votes -/

section Votes

variable (votes : List EligibleVote) (id : ParticipantId)

/-- The participant has cast a vote. -/
def voted : Bool := votes.any (·.participant == id)

/-- The participant is counted as contributing. -/
def contributes : Bool := (uniqueVotes votes).any fun v => !v.abstained && v.participant == id

/-- Some vote of the participant is no abstention. -/
def decidesSomewhere : Bool := votes.any fun v => !v.abstained && v.participant == id

/-- On some candidate no vote of the participant is an abstention. -/
def decidesFirmly : Bool :=
  votes.any fun v =>
    v.participant == id && votes.all fun w => voteKey w != voteKey v || !w.abstained

end Votes

theorem uniqueVotes_eq (votes : List EligibleVote) :
    uniqueVotes votes = Reordering.keepFirst voteKey votes := rfl

section Counted

variable {votes : List EligibleVote} {id : ParticipantId}

theorem mem_of_mem_uniqueVotes {v : EligibleVote} (h : v ∈ uniqueVotes votes) : v ∈ votes :=
  List.mem_of_find?_eq_some ((Reordering.mem_keepFirst voteKey).mp h)

/-- Every vote has a vote of its key among the first ones. -/
theorem exists_mem_uniqueVotes {v : EligibleVote} (h : v ∈ votes) :
    ∃ w ∈ uniqueVotes votes, voteKey w = voteKey v := by
  have hkey : voteKey v ∈ (uniqueVotes votes).map voteKey :=
    (Reordering.mem_keepFirst_keys voteKey).mpr (List.mem_map_of_mem h)
  exact List.mem_map.mp hkey

theorem participant_of_voteKey {v w : EligibleVote} (h : voteKey v = voteKey w) :
    v.participant = w.participant := (VoteKey.mk.inj h).1

theorem contributes_of_firmly (h : decidesFirmly votes id = true) :
    contributes votes id = true := by
  simp only [decidesFirmly, List.any_eq_true, List.all_eq_true, Bool.and_eq_true, beq_iff_eq,
    Bool.or_eq_true, bne_iff_ne, Bool.not_eq_true'] at h
  obtain ⟨v, hv, hid, hall⟩ := h
  obtain ⟨w, hw, hkey⟩ := exists_mem_uniqueVotes hv
  simp only [contributes, List.any_eq_true, Bool.and_eq_true, beq_iff_eq, Bool.not_eq_true']
  refine ⟨w, hw, ?_, (participant_of_voteKey hkey).trans hid⟩
  exact (hall w (mem_of_mem_uniqueVotes hw)).resolve_left (not_not.mpr hkey)

theorem somewhere_of_contributes (h : contributes votes id = true) :
    decidesSomewhere votes id = true := by
  simp only [contributes, List.any_eq_true] at h
  obtain ⟨v, hv, hdecided⟩ := h
  exact List.any_eq_true.mpr ⟨v, mem_of_mem_uniqueVotes hv, hdecided⟩

/-- Abstentions that come last count only where there is nothing else. -/
theorem contributes_decided_first :
    contributes (votes.filter (!·.abstained) ++ votes.filter (!!·.abstained)) id
      = decidesSomewhere votes id := by
  rw [Bool.eq_iff_iff]
  constructor
  · intro h
    obtain ⟨v, hv, hdecided⟩ := List.any_eq_true.mp (somewhere_of_contributes h)
    exact List.any_eq_true.mpr ⟨v, ((List.filter_append_perm _ votes).mem_iff).mp hv, hdecided⟩
  · intro h
    obtain ⟨v, hv, hdecided⟩ := List.any_eq_true.mp h
    rw [Bool.and_eq_true, beq_iff_eq] at hdecided
    have hmem : v ∈ votes.filter (!·.abstained) := List.mem_filter.mpr ⟨hv, hdecided.1⟩
    obtain ⟨w, hw, hkey, hfirst⟩ := Reordering.exists_mem_keepFirst_append voteKey
      (votes.filter (!!·.abstained)) hmem
    refine List.any_eq_true.mpr ⟨w, hfirst, ?_⟩
    rw [Bool.and_eq_true, beq_iff_eq]
    exact ⟨(List.mem_filter.mp hw).2, (participant_of_voteKey hkey).trans hdecided.2⟩

/-- Abstentions that come first count wherever there is one. -/
theorem contributes_abstained_first :
    contributes (votes.filter (·.abstained) ++ votes.filter (!·.abstained)) id
      = decidesFirmly votes id := by
  have hperm := List.filter_append_perm (·.abstained) votes
  rw [Bool.eq_iff_iff]
  constructor
  · intro h
    obtain ⟨v, hv, hdecided⟩ := List.any_eq_true.mp h
    rw [Bool.and_eq_true, Bool.not_eq_true', beq_iff_eq] at hdecided
    refine List.any_eq_true.mpr ⟨v, hperm.mem_iff.mp (mem_of_mem_uniqueVotes hv), ?_⟩
    rw [Bool.and_eq_true, beq_iff_eq, List.all_eq_true]
    refine ⟨hdecided.2, fun w hw => ?_⟩
    rw [Bool.or_eq_true, bne_iff_ne, Bool.not_eq_true']
    by_cases habstained : w.abstained = true
    · left
      refine Reordering.key_ne_of_mem_keepFirst_append voteKey hv (fun hmem => ?_)
        (List.mem_filter.mpr ⟨hw, habstained⟩)
      rw [(List.mem_filter.mp hmem).2] at hdecided
      cases hdecided.1
    · right
      simpa using habstained
  · intro h
    refine contributes_of_firmly ?_
    obtain ⟨v, hv, hfirm⟩ := List.any_eq_true.mp h
    refine List.any_eq_true.mpr ⟨v, hperm.mem_iff.mpr hv, ?_⟩
    rw [Bool.and_eq_true, List.all_eq_true] at hfirm ⊢
    exact ⟨hfirm.1, fun w hw => hfirm.2 w (hperm.mem_iff.mp hw)⟩

end Counted

/-! ## The quorum, given the number of abstaining members -/

section Quorum

variable (policy : QuorumPolicy) (seats : List QuorumMember) (votes : List EligibleVote)

/-- The members that form the denominator. -/
def quorumSeats : List QuorumMember :=
  seats.filter (inDenominator policy (voted votes) fun _ => false)

/-- The voting members of the denominator that do not contribute. -/
def abstainingSeats (decides : ParticipantId → Bool) : Nat :=
  (quorumSeats policy seats votes).countP fun m =>
    voted votes m.participant && !decides m.participant

/-- The quorum can still be met by the members there are. -/
def quorumPossible : Bool :=
  decide (policy.minParticipants.toNat ≤ (quorumSeats policy seats votes).length)
    && policy.roleQuota.all fun q =>
      decide (q.minCount.toNat
        ≤ countMembers seats fun m => m.roles.contains q.role && canContribute m)

/-- Every requirement is met but the abstention budget. -/
def quorumOtherwiseMet (validCandidates : Nat) : Bool :=
  policy.roleQuota.all (fun q =>
      decide (q.minCount.toNat ≤ countMembers (quorumSeats policy seats votes) fun m =>
        m.roles.contains q.role && m.authorized && m.roleAvailable))
    && decide (policy.minEvaluations.toNat ≤ (uniqueVotes votes).length)
    && decide (policy.minValidCandidates.toNat ≤ validCandidates)
    && !(policy.maxFailures != unbounded
      && decide (policy.maxFailures.toNat < (seats.filter (·.failed)).length))

def withinAbstentionBudget (abstentions : Nat) : Bool :=
  !(policy.maxAbstentions != unbounded && decide (policy.maxAbstentions.toNat < abstentions))

def quorumStateGiven (validCandidates abstentions : Nat) : QuorumState :=
  if quorumPossible policy seats votes = false then .impossible
  else if quorumOtherwiseMet policy seats votes validCandidates = true
      ∧ withinAbstentionBudget policy abstentions = true then .reached
  else .notReached

theorem voted_iff (id : ParticipantId) :
    (((uniqueVotes votes).filter (!·.abstained)).any (·.participant == id)
        || (uniqueVotes votes).any fun v => v.abstained && v.participant == id)
      = voted votes id := by
  rw [Bool.eq_iff_iff, Bool.or_eq_true, List.any_filter]
  simp only [voted, List.any_eq_true, Bool.and_eq_true, beq_iff_eq]
  constructor
  · rintro (⟨v, hv, -, hid⟩ | ⟨v, hv, -, hid⟩) <;> exact ⟨v, mem_of_mem_uniqueVotes hv, hid⟩
  · rintro ⟨v, hv, hid⟩
    obtain ⟨w, hw, hkey⟩ := exists_mem_uniqueVotes hv
    have hwid := (participant_of_voteKey hkey).trans hid
    cases habstained : w.abstained with
    | true => exact .inr ⟨w, hw, habstained, hwid⟩
    | false => exact .inl ⟨w, hw, by simp [habstained], hwid⟩

theorem quorumSeats_eq :
    seats.filter (inDenominator policy
        (fun id => ((uniqueVotes votes).filter (!·.abstained)).any (·.participant == id))
        fun id => (uniqueVotes votes).any fun v => v.abstained && v.participant == id)
      = quorumSeats policy seats votes := by
  refine congrArg (seats.filter ·) (funext fun m => ?_)
  simp only [inDenominator, voted_iff, Bool.or_false]

variable (validCandidates : Nat) (generation : EnsembleGeneration) (epoch : CoordinatorEpoch)
  (sequence : Sequence)

theorem computeQuorum_denominator :
    (computeQuorum policy seats votes validCandidates generation epoch sequence).denominator
      = (quorumSeats policy seats votes).length := by
  rw [← quorumSeats_eq]
  rfl

theorem computeQuorum_abstentions :
    (computeQuorum policy seats votes validCandidates generation epoch sequence).abstentions
      = abstainingSeats policy seats votes (contributes votes) := by
  have habstaining : ∀ m : QuorumMember,
      (!((uniqueVotes votes).filter (!·.abstained)).any (·.participant == m.participant)
          && (uniqueVotes votes).any fun v => v.abstained && v.participant == m.participant)
        = (voted votes m.participant && !contributes votes m.participant) := by
    intro m
    rw [← voted_iff, contributes, List.any_filter]
    cases (uniqueVotes votes).any fun v => !v.abstained && v.participant == m.participant <;>
      simp
  rw [abstainingSeats, List.countP_eq_length_filter, ← quorumSeats_eq, ← funext habstaining]
  rfl

theorem computeQuorum_state_raw :
    (computeQuorum policy seats votes validCandidates generation epoch sequence).state
      = (let denominator := quorumSeats policy seats votes
        let quotaMet := policy.roleQuota.filter fun q =>
          q.minCount.toNat ≤ countMembers denominator fun m =>
            m.roles.contains q.role && m.authorized && m.roleAvailable
        let participantRequirementMet := policy.minParticipants.toNat ≤ denominator.length
        if ¬ participantRequirementMet ∨ (policy.roleQuota.all fun q =>
            q.minCount.toNat
              ≤ countMembers seats fun m => m.roles.contains q.role && canContribute m) = false
          then .impossible
        else if participantRequirementMet ∧ quotaMet.length = policy.roleQuota.length
            ∧ policy.minEvaluations.toNat ≤ (uniqueVotes votes).length
            ∧ policy.minValidCandidates.toNat ≤ validCandidates
            ∧ (policy.maxFailures != unbounded
                && decide (policy.maxFailures.toNat < (seats.filter (·.failed)).length)) = false
            ∧ (policy.maxAbstentions != unbounded
                && decide (policy.maxAbstentions.toNat
                  < abstainingSeats policy seats votes (contributes votes))) = false
          then .reached
        else .notReached) := by
  rw [← computeQuorum_abstentions policy seats votes validCandidates generation epoch sequence,
    ← quorumSeats_eq]
  rfl

theorem computeQuorum_state :
    (computeQuorum policy seats votes validCandidates generation epoch sequence).state
      = quorumStateGiven policy seats votes validCandidates
          (abstainingSeats policy seats votes (contributes votes)) := by
  rw [computeQuorum_state_raw, quorumStateGiven]
  cases hpossible : quorumPossible policy seats votes with
  | false =>
    rw [if_pos rfl]
    refine if_pos ?_
    rw [quorumPossible, Bool.and_eq_false_iff, decide_eq_false_iff_not] at hpossible
    exact hpossible
  | true =>
    rw [quorumPossible, Bool.and_eq_true, decide_eq_true_eq] at hpossible
    dsimp only
    rw [if_neg (by simpa using hpossible), if_neg (by decide : ¬ true = false)]
    refine if_congr ?_ rfl rfl
    simp only [hpossible.1, quorumOtherwiseMet, withinAbstentionBudget,
      List.length_filter_eq_length_iff, Bool.and_eq_true, List.all_eq_true, Bool.not_eq_true',
      decide_eq_true_eq, true_and, and_assoc]

end Quorum

/-- Whether the quorum is impossible does not depend on abstentions. -/
theorem quorumStateGiven_impossible {policy : QuorumPolicy} {seats : List QuorumMember}
    {votes : List EligibleVote} {validCandidates : Nat} (n m : Nat) :
    (quorumStateGiven policy seats votes validCandidates n == .impossible)
      = (quorumStateGiven policy seats votes validCandidates m == .impossible) := by
  unfold quorumStateGiven
  split
  · rfl
  · split <;> split <;> rfl

section Order

variable {policy : QuorumPolicy} {seats : List QuorumMember} {votes votes' : List EligibleVote}
  (h : votes.Perm votes')
include h

theorem voted_perm : voted votes = voted votes' := funext fun _ => h.any_eq

theorem decidesSomewhere_perm : decidesSomewhere votes = decidesSomewhere votes' :=
  funext fun _ => h.any_eq

theorem decidesFirmly_perm : decidesFirmly votes = decidesFirmly votes' := by
  funext id
  have hall : (fun v : EligibleVote => v.participant == id
        && votes.all fun w => voteKey w != voteKey v || !w.abstained)
      = fun v => v.participant == id
        && votes'.all fun w => voteKey w != voteKey v || !w.abstained :=
    funext fun v => by rw [h.all_eq]
  rw [decidesFirmly, decidesFirmly, hall, h.any_eq]

theorem quorumSeats_perm : quorumSeats policy seats votes = quorumSeats policy seats votes' := by
  rw [quorumSeats, quorumSeats, voted_perm h]

theorem abstainingSeats_perm (decides : ParticipantId → Bool) :
    abstainingSeats policy seats votes decides = abstainingSeats policy seats votes' decides := by
  rw [abstainingSeats, abstainingSeats, quorumSeats_perm h, voted_perm h]

theorem quorumStateGiven_perm (validCandidates abstentions : Nat) :
    quorumStateGiven policy seats votes validCandidates abstentions
      = quorumStateGiven policy seats votes' validCandidates abstentions := by
  have hlength : (uniqueVotes votes).length = (uniqueVotes votes').length :=
    Reordering.keepFirst_length_perm voteKey h
  rw [quorumStateGiven, quorumStateGiven, quorumPossible, quorumPossible, quorumOtherwiseMet,
    quorumOtherwiseMet, quorumSeats_perm h, hlength]

end Order

section Bounds

variable (policy : QuorumPolicy) (seats : List QuorumMember) (votes : List EligibleVote)

/-- The fewest members that any order of the votes has abstain. -/
def leastAbstaining : Nat := abstainingSeats policy seats votes (decidesSomewhere votes)

/-- The most members that any order of the votes has abstain. -/
def mostAbstaining : Nat := abstainingSeats policy seats votes (decidesFirmly votes)

theorem abstainingSeats_le {decides decides' : ParticipantId → Bool}
    (h : ∀ id, decides' id = true → decides id = true) :
    abstainingSeats policy seats votes decides ≤ abstainingSeats policy seats votes decides' := by
  refine List.countP_mono_left fun m _ hm => ?_
  rw [Bool.and_eq_true, Bool.not_eq_true'] at hm ⊢
  exact ⟨hm.1, Bool.eq_false_iff.mpr fun hdecides => by rw [h _ hdecides] at hm; cases hm.2⟩

theorem least_le_abstaining :
    leastAbstaining policy seats votes ≤ abstainingSeats policy seats votes (contributes votes) :=
  abstainingSeats_le policy seats votes fun _ => somewhere_of_contributes

theorem abstaining_le_most :
    abstainingSeats policy seats votes (contributes votes) ≤ mostAbstaining policy seats votes :=
  abstainingSeats_le policy seats votes fun _ => contributes_of_firmly

end Bounds

/-! ## The consensus, given the number of abstaining members -/

/-- The inputs with another finding about the quorum. -/
def ConsensusInputs.given (inputs : ConsensusInputs) (state : QuorumState) (abstentions : Nat) :
    ConsensusInputs :=
  { inputs with quorum := { inputs.quorum with state, abstentions } }

/-- What the outcome depends on. -/
def ConsensusInputs.bare (inputs : ConsensusInputs) : ConsensusInputs :=
  { inputs with
    tallies := inputs.tallies.map (·.unlisted)
    quorum :=
      { state := inputs.quorum.state
        abstentions := inputs.quorum.abstentions
        thresholdPercent := inputs.quorum.thresholdPercent
        thresholdCount := inputs.quorum.thresholdCount } }

/-- The order of the tallies is one by agreeing votes, whatever else they
carry. -/
theorem sort_unlisted (tallies : List CandidateTally) :
    (sortBy betterTally ((tallies.map (·.unlisted)).filter (·.eligible))).map (·.agreeing)
      = (sortBy betterTally (tallies.filter (·.eligible))).map (·.agreeing) := by
  have hsame : ((tallies.map (·.unlisted)).filter (·.eligible)).map (·.agreeing)
      = (tallies.filter (·.eligible)).map (·.agreeing) := by
    rw [List.filter_map, List.map_map]
    rfl
  have hsorted : ∀ ts, ((sortBy betterTally ts).map (·.agreeing)).Pairwise fun n m => m ≤ n :=
    fun ts => List.pairwise_map.mpr (sortBy_betterTally ts)
  refine List.Perm.eq_of_pairwise (fun _ _ _ _ hle hle' => Nat.le_antisymm hle' hle)
    (hsorted _) (hsorted _) ?_
  refine ((perm_sortBy _ _).map _).trans ?_
  rw [hsame]
  exact ((perm_sortBy _ _).map _).symm

theorem voteOutcome_leader {inputs inputs' : ConsensusInputs} {leader leader' : CandidateTally}
    (h : leader.agreeing = leader'.agreeing) (count runnerUp : Nat)
    (hvotes : inputs.requiresVotes = inputs'.requiresVotes)
    (habstentions : inputs.quorum.abstentions = inputs'.quorum.abstentions)
    (hpercent : inputs.quorum.thresholdPercent = inputs'.quorum.thresholdPercent)
    (hcount : inputs.quorum.thresholdCount = inputs'.quorum.thresholdCount) :
    voteOutcome inputs count leader runnerUp = voteOutcome inputs' count leader' runnerUp := by
  rw [voteOutcome, voteOutcome, h, hvotes, habstentions, hpercent, hcount]

theorem consensusState_bare (inputs : ConsensusInputs) :
    consensusState inputs.bare = consensusState inputs := by
  have hsort := sort_unlisted inputs.tallies
  unfold consensusState
  simp only [ConsensusInputs.bare]
  cases hbare : sortBy betterTally ((inputs.tallies.map (·.unlisted)).filter (·.eligible)) with
  | nil =>
    rw [hbare, List.map_nil, eq_comm, List.map_eq_nil_iff] at hsort
    simp only [hsort]
    rfl
  | cons leader others =>
    rw [hbare] at hsort
    cases horder : sortBy betterTally (inputs.tallies.filter (·.eligible)) with
    | nil =>
      rw [horder] at hsort
      cases hsort
    | cons leader' others' =>
      rw [horder, List.map_cons, List.map_cons, List.cons.injEq] at hsort
      have hlength := congrArg List.length hsort.2
      rw [List.length_map, List.length_map] at hlength
      simp only [hsort.2, List.length_cons, hlength]
      have houtcome : ∀ count runnerUp, voteOutcome inputs.bare count leader runnerUp
          = voteOutcome inputs count leader' runnerUp :=
        fun count runnerUp => voteOutcome_leader hsort.1 count runnerUp rfl rfl rfl rfl
      simp only [ConsensusInputs.bare] at houtcome
      rw [houtcome]

/-- The votes carry the leader: abstentions are all that is left to report. -/
def carries (inputs : ConsensusInputs) (leader : CandidateTally) (runnerUp : Nat) : Prop :=
  leader.agreeing ≠ 0
    ∧ ¬ (0 < inputs.quorum.thresholdPercent ∧ leader.agreeing < inputs.quorum.thresholdCount)
    ∧ ¬ (¬ 0 < inputs.quorum.thresholdPercent ∧ runnerUp = leader.agreeing)

instance (inputs : ConsensusInputs) (leader : CandidateTally) (runnerUp : Nat) :
    Decidable (carries inputs leader runnerUp) :=
  inferInstanceAs (Decidable (_ ∧ _ ∧ _))

/-- Nothing comes before the votes, and they carry the leader. -/
def leaderCarried (inputs : ConsensusInputs) : Bool :=
  !inputs.superseded && !inputs.revalidationRequired && !inputs.cancelled
    && !(inputs.requiredParticipantFailed && inputs.requireAllRequired)
    && !inputs.fallbackRequired
    && match sortBy betterTally (inputs.tallies.filter (·.eligible)) with
      | [] => false
      | leader :: others => decide (carries inputs leader ((others.map (·.agreeing)).foldl max 0))

/-- The number of abstaining members is asked for last. -/
theorem voteOutcome_given (inputs : ConsensusInputs) (state : QuorumState) (abstentions : Nat)
    (count : Nat) (leader : CandidateTally) (runnerUp : Nat) :
    voteOutcome (inputs.given state abstentions) count leader runnerUp
      = if leader.agreeing = 0 then
          if inputs.requiresVotes then .insufficientEvidence
          else if count = 1 then .consensus else .pluralityWithoutThreshold
        else if 0 < inputs.quorum.thresholdPercent
            ∧ leader.agreeing < inputs.quorum.thresholdCount then
          if runnerUp = leader.agreeing then .tie else .disagreement
        else if ¬ 0 < inputs.quorum.thresholdPercent ∧ runnerUp = leader.agreeing then .tie
        else if 0 < abstentions then .consensusWithAbstentions
        else if inputs.quorum.thresholdPercent = 0 then .pluralityWithoutThreshold
        else .consensus := rfl

theorem voteOutcome_abstentions {inputs : ConsensusInputs} {abstentions : Nat}
    (h : 0 < abstentions) (count : Nat) (leader : CandidateTally) (runnerUp : Nat) :
    voteOutcome (inputs.given .reached abstentions) count leader runnerUp
        = voteOutcome (inputs.given .reached 0) count leader runnerUp
      ↔ ¬ carries inputs leader runnerUp := by
  rw [voteOutcome_given, voteOutcome_given]
  by_cases hnone : leader.agreeing = 0
  · simp only [if_pos hnone, true_iff]
    exact fun hcarried => hcarried.1 hnone
  by_cases hbelow : 0 < inputs.quorum.thresholdPercent
      ∧ leader.agreeing < inputs.quorum.thresholdCount
  · simp only [if_neg hnone, if_pos hbelow, true_iff]
    exact fun hcarried => hcarried.2.1 hbelow
  by_cases htie : ¬ 0 < inputs.quorum.thresholdPercent ∧ runnerUp = leader.agreeing
  · simp only [if_neg hnone, if_neg hbelow, if_pos htie, true_iff]
    exact fun hcarried => hcarried.2.2 htie
  · simp only [if_neg hnone, if_neg hbelow, if_neg htie, if_pos h, if_neg (Nat.lt_irrefl 0)]
    refine ⟨fun heq => ?_, fun hnot => absurd ⟨hnone, hbelow, htie⟩ hnot⟩
    split at heq <;> cases heq

theorem consensusState_abstentions {inputs : ConsensusInputs} {abstentions : Nat}
    (h : 0 < abstentions) :
    consensusState (inputs.given .reached abstentions) = consensusState (inputs.given .reached 0)
      ↔ leaderCarried inputs = false := by
  by_cases hsuperseded : inputs.superseded = true
  · simp [consensusState, leaderCarried, ConsensusInputs.given, hsuperseded]
  by_cases hrevalidation : inputs.revalidationRequired = true
  · simp [consensusState, leaderCarried, ConsensusInputs.given, hrevalidation]
  by_cases hcancelled : inputs.cancelled = true
  · simp [consensusState, leaderCarried, ConsensusInputs.given, hcancelled]
  by_cases hrequired : (inputs.requiredParticipantFailed && inputs.requireAllRequired) = true
  · simp [consensusState, leaderCarried, ConsensusInputs.given, hrequired]
  have hstate : ∀ n, consensusState (inputs.given .reached n)
      = match sortBy betterTally (inputs.tallies.filter (·.eligible)) with
        | [] =>
            if 0 < inputs.candidatesDeclared
                ∧ inputs.candidatesDeclared ≤ inputs.invalidCandidates then .allCandidatesInvalid
            else .noEligibleCandidate
        | leader :: others =>
            if inputs.fallbackRequired then .fallbackRequired
            else voteOutcome (inputs.given .reached n) (others.length + 1) leader
              ((others.map (·.agreeing)).foldl max 0) := by
    intro n
    have hpossible : ¬ QuorumState.reached = .impossible := by decide
    refine (if_neg hsuperseded).trans ((if_neg hrevalidation).trans ((if_neg hcancelled).trans
      ((if_neg hrequired).trans ((if_neg hpossible).trans ?_))))
    dsimp only [ConsensusInputs.given]
    cases sortBy betterTally (inputs.tallies.filter (·.eligible)) with
    | nil => rfl
    | cons leader others => exact if_congr Iff.rfl rfl (if_neg (not_not.mpr rfl))
  rw [hstate, hstate, leaderCarried]
  cases sortBy betterTally (inputs.tallies.filter (·.eligible)) with
  | nil => simp
  | cons leader others =>
    by_cases hfallback : inputs.fallbackRequired = true
    · simp [hfallback]
    · simp only [hfallback]
      rw [if_neg Bool.false_ne_true, if_neg Bool.false_ne_true, voteOutcome_abstentions h]
      simp [hsuperseded, hrevalidation, hcancelled, hrequired]

theorem consensusState_given {inputs : ConsensusInputs} {state : QuorumState} {n m : Nat}
    (h : state = .reached → ∀ count leader runnerUp,
      voteOutcome (inputs.given state n) count leader runnerUp
        = voteOutcome (inputs.given state m) count leader runnerUp) :
    consensusState (inputs.given state n) = consensusState (inputs.given state m) := by
  unfold consensusState
  refine if_congr Iff.rfl rfl (if_congr Iff.rfl rfl (if_congr Iff.rfl rfl
    (if_congr Iff.rfl rfl (if_congr Iff.rfl rfl ?_))))
  dsimp only [ConsensusInputs.given]
  cases sortBy betterTally (inputs.tallies.filter (·.eligible)) with
  | nil => rfl
  | cons leader others =>
    refine if_congr Iff.rfl rfl ?_
    by_cases hstate : state = .reached
    · exact if_congr Iff.rfl rfl (h hstate _ leader _)
    · exact (if_pos hstate).trans (if_pos hstate).symm

/-- Only whether anybody abstains is asked for. -/
theorem consensusState_congr {inputs : ConsensusInputs} {state : QuorumState} {n m : Nat}
    (h : 0 < n ↔ 0 < m) :
    consensusState (inputs.given state n) = consensusState (inputs.given state m) :=
  consensusState_given fun _ count leader runnerUp => by
    rw [voteOutcome_given, voteOutcome_given]
    simp only [h]

/-- The list of eligible candidates is there whatever the outcome. -/
theorem computeConsensus_eligible (inputs : ConsensusInputs) :
    (computeConsensus inputs).eligibleCandidatesList
      = (inputs.tallies.filter (·.eligible)).map (·.candidate) := by
  unfold computeConsensus
  cases sortBy betterTally (inputs.tallies.filter (·.eligible)) with
  | nil =>
    simp only
    repeat' split
    all_goals rfl
  | cons leader others =>
    simp only
    repeat' split
    all_goals rfl

theorem withinAbstentionBudget_of_le {policy : QuorumPolicy} {n m : Nat} (hle : n ≤ m)
    (h : withinAbstentionBudget policy m = true) : withinAbstentionBudget policy n = true := by
  simp only [withinAbstentionBudget, Bool.not_eq_true', Bool.and_eq_false_iff,
    decide_eq_false_iff_not] at h ⊢
  exact h.imp_right fun hm hn => hm (by omega)

/-! ## The decision -/

section Decision

variable (e : EnsembleRecord) (x : ExecutionRecord)

def quorumMembers : List QuorumMember := e.participants.map (quorumMember x.coordinatorEpoch)

/-- What consensus looks at, as the report of `x` has it. -/
def reportInputs : ConsensusInputs :=
  consensusInputs e (withQuorum e x) ⟨x.reportGeneration + 1⟩

/-- The findings of a report about quorum and consensus, given the number
of abstaining members. -/
def outcomeGiven (abstentions : Nat) : QuorumState × ConsensusState :=
  let state := quorumStateGiven e.spec.quorum (quorumMembers e x) (eligibleVotes x)
    (validCandidates x) abstentions
  (state, consensusState ((reportInputs e x).given state abstentions))

/-- The number of abstaining members makes no difference between `n` and
`m`: the abstention budget does not separate them, and if nobody abstains
with the one and somebody with the other, the votes do not carry the
leader. All this only where the quorum is met otherwise. -/
def Indifferent (n m : Nat) : Prop :=
  quorumPossible e.spec.quorum (quorumMembers e x) (eligibleVotes x) = true →
  quorumOtherwiseMet e.spec.quorum (quorumMembers e x) (eligibleVotes x) (validCandidates x)
    = true →
  (withinAbstentionBudget e.spec.quorum n = true → withinAbstentionBudget e.spec.quorum m = true)
    ∧ (withinAbstentionBudget e.spec.quorum m = true → n = 0 → 0 < m →
      leaderCarried (reportInputs e x) = false)

variable {e x}

theorem outcomeGiven_eq_iff {n m : Nat} (hle : n ≤ m) :
    outcomeGiven e x n = outcomeGiven e x m ↔ Indifferent e x n m := by
  unfold Indifferent outcomeGiven quorumStateGiven
  cases hpossible : quorumPossible e.spec.quorum (quorumMembers e x) (eligibleVotes x) with
  | false =>
    simp only [if_true, Bool.false_eq_true, false_imp_iff, iff_true, Prod.mk.injEq, true_and]
    exact consensusState_given fun h => by cases h
  | true =>
    cases hmet : quorumOtherwiseMet e.spec.quorum (quorumMembers e x) (eligibleVotes x)
        (validCandidates x) with
    | false =>
      simp only [Bool.true_eq_false, Bool.false_eq_true, false_and, if_false, false_imp_iff,
        imp_true_iff, iff_true, Prod.mk.injEq, true_and]
      exact consensusState_given fun h => by cases h
    | true =>
      simp only [Bool.true_eq_false, true_and, if_false, true_imp_iff, Prod.mk.injEq]
      cases hm : withinAbstentionBudget e.spec.quorum m with
      | true =>
        rw [withinAbstentionBudget_of_le hle hm]
        simp only [if_true, true_and, true_imp_iff]
        constructor
        · rintro heq rfl hpos
          exact (consensusState_abstentions hpos).mp heq.symm
        · intro hcarried
          by_cases hzero : 0 < m ∧ n = 0
          · obtain ⟨hpos, rfl⟩ := hzero
            exact ((consensusState_abstentions hpos).mpr (hcarried rfl hpos)).symm
          · exact consensusState_congr (by omega)
      | false =>
        cases hn : withinAbstentionBudget e.spec.quorum n with
        | true => simp
        | false =>
          simp only [Bool.false_eq_true, if_false, false_imp_iff, and_true, iff_true, true_and]
          exact consensusState_given fun h => by cases h

theorem Indifferent.within {n m n' m' : Nat} (h : Indifferent e x n m) (hn : n ≤ n')
    (hm : m' ≤ m) : Indifferent e x n' m' := by
  intro hpossible hmet
  obtain ⟨hbudget, hcarried⟩ := h hpossible hmet
  refine ⟨fun hwithin => ?_, fun hwithin hzero hpos => ?_⟩
  · exact withinAbstentionBudget_of_le hm (hbudget (withinAbstentionBudget_of_le hn hwithin))
  · have hleast : withinAbstentionBudget e.spec.quorum n = true :=
      withinAbstentionBudget_of_le (by omega) hwithin
    exact hcarried (hbudget hleast) (by omega) (by omega)

end Decision

/-! ## Reports of the same evidence -/

/-- The reports of two executions decide the same. Arbitration is what
`computeReports` runs (`computeReports_arbitration`), on scores and weights
that are taken as the exact numbers they stand for. -/
structure SameDecision (e : EnsembleRecord) (x x' : ExecutionRecord) : Prop where
  quorum : (computeReports e x).quorum.state = (computeReports e x').quorum.state
  consensus : (computeReports e x).consensus.state = (computeReports e x').consensus.state
  eligible : (computeReports e x).consensus.eligibleCandidatesList
    = (computeReports e x').consensus.eligibleCandidatesList
  arbitration : arbitrate (arbitratedIn e x Rat) = arbitrate (arbitratedIn e x' Rat)

section Arrived

variable {x : ExecutionRecord} {evaluations : List EvaluationRecord}
  (h : evaluations.Perm x.evaluations) (e : EnsembleRecord)

/-- The number of members that abstain in a report. -/
def abstainingMembers (x : ExecutionRecord) : Nat :=
  abstainingSeats e.spec.quorum (quorumMembers e x) (eligibleVotes x)
    (contributes (eligibleVotes x))

theorem computeReports_quorum_given (x : ExecutionRecord) :
    (computeReports e x).quorum.state
      = quorumStateGiven e.spec.quorum (quorumMembers e x) (eligibleVotes x) (validCandidates x)
          (abstainingMembers e x) :=
  computeQuorum_state e.spec.quorum (quorumMembers e x) (eligibleVotes x) (validCandidates x)
    e.spec.generation x.coordinatorEpoch ⟨x.reportGeneration + 1⟩

include h

theorem quorum_state_arrived :
    (computeReports e (x.arrived evaluations)).quorum.state
      = quorumStateGiven e.spec.quorum (quorumMembers e x) (eligibleVotes x) (validCandidates x)
          (abstainingMembers e (x.arrived evaluations)) := by
  rw [computeReports_quorum_given, quorumStateGiven_perm (eligibleVotes_perm h)]
  rfl

theorem fallbackRequired_arrived :
    fallbackRequired e (withQuorum e (x.arrived evaluations))
      = fallbackRequired e (withQuorum e x) := by
  have hfires : ∀ t, fallbackTriggerFires t e (withQuorum e (x.arrived evaluations))
      = fallbackTriggerFires t e (withQuorum e x) := by
    intro t
    cases t with
    | quorumImpossible =>
      have hstate := quorum_state_arrived h e
      have hstate' := computeReports_quorum_given e x
      exact (congrArg (· == QuorumState.impossible) hstate).trans
        ((quorumStateGiven_impossible _ _).trans
          (congrArg (· == QuorumState.impossible) hstate'.symm))
    | _ => rfl
  exact congrArg (fallbackUsedUp e x && e.spec.fallback.triggers.any ·) (funext hfires)

theorem tallies_arrived :
    (x.candidates.map (tallyCandidate (x.arrived evaluations))).map (·.unlisted)
      = (x.candidates.map (tallyCandidate x)).map (·.unlisted) := by
  rw [List.map_map, List.map_map]
  exact List.map_congr_left fun c _ => tallyCandidate_arrived h c

theorem consensus_state_arrived :
    (computeReports e (x.arrived evaluations)).consensus.state
      = consensusState ((reportInputs e x).given
          (computeReports e (x.arrived evaluations)).quorum.state
          (abstainingMembers e (x.arrived evaluations))) := by
  have hthreshold : (withQuorum e (x.arrived evaluations)).quorum.thresholdCount
      = (withQuorum e x).quorum.thresholdCount := by
    have hdenominator : ∀ y : ExecutionRecord, (withQuorum e y).quorum.thresholdCount
        = percentageCeiling (quorumSeats e.spec.quorum (quorumMembers e y)
            (eligibleVotes y)).length e.spec.quorum.consensusThresholdPercent := by
      intro y
      rw [← computeQuorum_denominator e.spec.quorum (quorumMembers e y) (eligibleVotes y)
        (validCandidates y) e.spec.generation y.coordinatorEpoch ⟨y.reportGeneration + 1⟩]
      exact computeQuorum_thresholdCount _ _ _ _ _ _ _
    rw [hdenominator, hdenominator, quorumSeats_perm (eligibleVotes_perm h)]
    rfl
  have habstentions : (withQuorum e (x.arrived evaluations)).quorum.abstentions
      = abstainingMembers e (x.arrived evaluations) :=
    computeQuorum_abstentions e.spec.quorum (quorumMembers e x)
      (eligibleVotes (x.arrived evaluations)) (validCandidates x) e.spec.generation
      x.coordinatorEpoch ⟨x.reportGeneration + 1⟩
  have hbare : (reportInputs e (x.arrived evaluations)).bare
      = ((reportInputs e x).given (computeReports e (x.arrived evaluations)).quorum.state
          (abstainingMembers e (x.arrived evaluations))).bare := by
    simp only [ConsensusInputs.bare, ConsensusInputs.given, reportInputs, consensusInputs,
      ConsensusInputs.mk.injEq, QuorumReport.mk.injEq, true_and, and_true]
    exact ⟨⟨rfl, habstentions, rfl, hthreshold⟩, tallies_arrived h, rfl, rfl, rfl, rfl, rfl,
      fallbackRequired_arrived h e, rfl, rfl⟩
  rw [computeReports_consensus, computeConsensus_eq_state, ← consensusState_bare,
    ← consensusState_bare (ConsensusInputs.given _ _ _), ← hbare]
  rfl

theorem eligible_arrived :
    (computeReports e (x.arrived evaluations)).consensus.eligibleCandidatesList
      = (computeReports e x).consensus.eligibleCandidatesList := by
  have hlist : ∀ tallies : List CandidateTally,
      (tallies.filter (·.eligible)).map (·.candidate)
        = ((tallies.map (·.unlisted)).filter (·.eligible)).map (·.candidate) := by
    intro tallies
    rw [List.filter_map, List.map_map]
    rfl
  have htallies := tallies_arrived h
  rw [computeReports_consensus, computeReports_consensus, computeConsensus_eligible,
    computeConsensus_eligible,
    hlist (consensusInputs e (withQuorum e (x.arrived evaluations)) _).tallies,
    hlist (consensusInputs e (withQuorum e x) _).tallies]
  exact congrArg (fun tallies => (tallies.filter (·.eligible)).map (·.candidate)) htallies

theorem arbitration_arrived :
    arbitrate (arbitratedIn e (x.arrived evaluations) Rat) = arbitrate (arbitratedIn e x Rat) := by
  have hcandidates : (arbitratedIn e (x.arrived evaluations) Rat).candidates
      = (arbitratedIn e x Rat).candidates :=
    List.map_congr_left fun c _ => arbitrationInput_arrived h e c
  have hinputs : arbitratedIn e (x.arrived evaluations) Rat
      = { arbitratedIn e x Rat with
          quorumSatisfied := (arbitratedIn e (x.arrived evaluations) Rat).quorumSatisfied } := by
    unfold arbitratedIn
    rw [ArbitrationInputs.mk.injEq]
    exact ⟨hcandidates, rfl, rfl, rfl, rfl, rfl, rfl, rfl⟩
  rw [hinputs]
  rfl

/-- What is decided depends on the number of abstaining members alone. -/
theorem sameDecision_of_outcome {evaluations' : List EvaluationRecord}
    (h' : evaluations'.Perm x.evaluations)
    (hsame : outcomeGiven e x (abstainingMembers e (x.arrived evaluations))
      = outcomeGiven e x (abstainingMembers e (x.arrived evaluations'))) :
    SameDecision e (x.arrived evaluations) (x.arrived evaluations') where
  quorum := by
    rw [quorum_state_arrived h, quorum_state_arrived h']
    exact congrArg Prod.fst hsame
  consensus := by
    rw [consensus_state_arrived h, consensus_state_arrived h', quorum_state_arrived h,
      quorum_state_arrived h']
    exact congrArg Prod.snd hsame
  eligible := (eligible_arrived h e).trans (eligible_arrived h' e).symm
  arbitration := (arbitration_arrived h e).trans (arbitration_arrived h' e).symm

theorem outcome_of_sameDecision {evaluations' : List EvaluationRecord}
    (h' : evaluations'.Perm x.evaluations)
    (hsame : SameDecision e (x.arrived evaluations) (x.arrived evaluations')) :
    outcomeGiven e x (abstainingMembers e (x.arrived evaluations))
      = outcomeGiven e x (abstainingMembers e (x.arrived evaluations')) := by
  have hquorum := hsame.quorum
  have hconsensus := hsame.consensus
  rw [consensus_state_arrived h, consensus_state_arrived h'] at hconsensus
  rw [quorum_state_arrived h, quorum_state_arrived h'] at hquorum hconsensus
  exact Prod.ext hquorum hconsensus

end Arrived

/-! ## The orders -/

section Extremes

variable (e : EnsembleRecord) (x : ExecutionRecord)

def abstains (r : EvaluationRecord) : Bool := (eligibleVote r).abstained

/-- The evaluations with all abstentions last. -/
def decidedFirst : List EvaluationRecord :=
  x.evaluations.filter (!abstains ·) ++ x.evaluations.filter (!!abstains ·)

/-- The evaluations with all abstentions first. -/
def abstainedFirst : List EvaluationRecord :=
  x.evaluations.filter abstains ++ x.evaluations.filter (!abstains ·)

theorem decidedFirst_perm : (decidedFirst x).Perm x.evaluations :=
  List.filter_append_perm _ _

theorem abstainedFirst_perm : (abstainedFirst x).Perm x.evaluations :=
  List.filter_append_perm _ _

theorem eligibleVotes_filter (p : EligibleVote → Bool) :
    eligibleVotes (x.arrived (x.evaluations.filter (p ∘ eligibleVote)))
      = (eligibleVotes x).filter p := by
  rw [eligibleVotes, eligibleVotes, List.filter_map, List.filter_filter, ExecutionRecord.arrived,
    List.filter_filter]
  simp only [Bool.and_comm]

theorem eligibleVotes_append (first last : List EvaluationRecord) :
    eligibleVotes (x.arrived (first ++ last))
      = eligibleVotes (x.arrived first) ++ eligibleVotes (x.arrived last) := by
  simp [eligibleVotes, ExecutionRecord.arrived]

/-- The number of abstaining members, for an order of the votes. -/
theorem abstainingMembers_arrived {evaluations : List EvaluationRecord}
    (h : evaluations.Perm x.evaluations) :
    abstainingMembers e (x.arrived evaluations)
      = abstainingSeats e.spec.quorum (quorumMembers e x) (eligibleVotes x)
          (contributes (eligibleVotes (x.arrived evaluations))) := by
  rw [abstainingMembers, abstainingSeats_perm (eligibleVotes_perm h)]
  rfl

theorem abstaining_decidedFirst :
    abstainingMembers e (x.arrived (decidedFirst x))
      = leastAbstaining e.spec.quorum (quorumMembers e x) (eligibleVotes x) := by
  have hvotes : contributes (eligibleVotes (x.arrived (decidedFirst x)))
      = decidesSomewhere (eligibleVotes x) := by
    funext id
    rw [← contributes_decided_first, decidedFirst, eligibleVotes_append]
    exact congrArg (contributes · id) (congrArg₂ (· ++ ·) (eligibleVotes_filter x (!·.abstained))
      (eligibleVotes_filter x (!!·.abstained)))
  rw [abstainingMembers_arrived e x (decidedFirst_perm x), hvotes]
  rfl

theorem abstaining_abstainedFirst :
    abstainingMembers e (x.arrived (abstainedFirst x))
      = mostAbstaining e.spec.quorum (quorumMembers e x) (eligibleVotes x) := by
  have hvotes : contributes (eligibleVotes (x.arrived (abstainedFirst x)))
      = decidesFirmly (eligibleVotes x) := by
    funext id
    rw [← contributes_abstained_first, abstainedFirst, eligibleVotes_append]
    exact congrArg (contributes · id) (congrArg₂ (· ++ ·) (eligibleVotes_filter x (·.abstained))
      (eligibleVotes_filter x (!·.abstained)))
  rw [abstainingMembers_arrived e x (abstainedFirst_perm x), hvotes]
  rfl

/-- Every order is between the two extremes. -/
theorem abstainingMembers_bounds {evaluations : List EvaluationRecord}
    (h : evaluations.Perm x.evaluations) :
    leastAbstaining e.spec.quorum (quorumMembers e x) (eligibleVotes x)
        ≤ abstainingMembers e (x.arrived evaluations)
      ∧ abstainingMembers e (x.arrived evaluations)
        ≤ mostAbstaining e.spec.quorum (quorumMembers e x) (eligibleVotes x) := by
  rw [leastAbstaining, mostAbstaining, ← abstainingSeats_perm (eligibleVotes_perm h),
    ← abstainingSeats_perm (eligibleVotes_perm h), ← decidesSomewhere_perm (eligibleVotes_perm h),
    ← decidesFirmly_perm (eligibleVotes_perm h)]
  exact ⟨least_le_abstaining _ _ _, abstaining_le_most _ _ _⟩

/-- The order of the evidence makes no difference: the most and the fewest
members that may abstain are all the same to quorum and consensus. The
condition is computed from the evidence without going through its orders. -/
def OrderFree : Prop :=
  Indifferent e x (leastAbstaining e.spec.quorum (quorumMembers e x) (eligibleVotes x))
    (mostAbstaining e.spec.quorum (quorumMembers e x) (eligibleVotes x))

/-- The same evidence in any order gives the same decision exactly when
the members whose abstention depends on the order make no difference. -/
theorem evidence_order_free_iff :
    (∀ evaluations, evaluations.Perm x.evaluations →
        SameDecision e (x.arrived evaluations) x)
      ↔ OrderFree e x := by
  have hbounds := abstainingMembers_bounds e x (List.Perm.refl x.evaluations)
  constructor
  · intro h
    have hleast := outcome_of_sameDecision (decidedFirst_perm x) e (List.Perm.refl x.evaluations)
      (h _ (decidedFirst_perm x))
    have hmost := outcome_of_sameDecision (abstainedFirst_perm x) e (List.Perm.refl x.evaluations)
      (h _ (abstainedFirst_perm x))
    rw [abstaining_decidedFirst] at hleast
    rw [abstaining_abstainedFirst] at hmost
    exact (outcomeGiven_eq_iff (hbounds.1.trans hbounds.2)).mp (hleast.trans hmost.symm)
  · intro hfree evaluations h
    refine sameDecision_of_outcome h e (List.Perm.refl x.evaluations) ?_
    have hbetween := abstainingMembers_bounds e x h
    obtain hle | hle := Nat.le_total (abstainingMembers e (x.arrived evaluations))
      (abstainingMembers e (x.arrived x.evaluations))
    · exact (outcomeGiven_eq_iff hle).mpr (hfree.within hbetween.1 hbounds.2)
    · exact ((outcomeGiven_eq_iff hle).mpr (hfree.within hbounds.1 hbetween.2)).symm

end Extremes

namespace Sample

/-- One judge with two criteria, and a quorum that tolerates no abstention. -/
def strictSpec : EnsembleSpec where
  id := ⟨1⟩
  label := "strict"
  participants := [participant 1 candidateRole, participant 2 judgeRole]
  judgingCriteria := [⟨1, 1⟩, ⟨2, 1⟩]
  quorum := { maxAbstentions := 0 }

/-- The judge accepts on the first criterion and abstains on the second. -/
def halfAbstained : List Event :=
  start strictSpec
    ++ [content 1 1 [7], advance, judge 2 1 1 1 .accept, judge 2 1 2 2 .abstain]

end Sample

/-- Heard first, the accept makes the judge a contributor and the quorum is
reached. Heard second, it is a duplicate of the abstention. -/
theorem order_decides_quorum : ∃ e x, Sample.ensemble Sample.halfAbstained = some e
    ∧ e.execution = some x ∧ (computeReports e x).quorum.state = .reached
    ∧ (computeReports e (x.arrived x.evaluations.reverse)).quorum.state = .notReached
    ∧ ¬ ∀ evaluations, evaluations.Perm x.evaluations →
        SameDecision e (x.arrived evaluations) x := by
  have hrun : (Sample.ensemble Sample.halfAbstained).any (fun e => e.execution.any fun x =>
      (computeReports e x).quorum.state == .reached
        && (computeReports e (x.arrived x.evaluations.reverse)).quorum.state == .notReached)
      = true := by
    decide +kernel
  simp only [Option.any_eq_true, Bool.and_eq_true, beq_iff_eq] at hrun
  obtain ⟨e, hfind, x, hexecution, hreached, hreversed⟩ := hrun
  refine ⟨e, x, hfind, hexecution, hreached, hreversed, fun hsame => ?_⟩
  have hquorum := (hsame _ (List.reverse_perm x.evaluations)).quorum
  rw [hreached, hreversed] at hquorum
  cases hquorum

end EnsembleFabric
