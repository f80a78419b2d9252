import EnsembleFabric.EvidenceOrder
import EnsembleFabric.Votes

/-!
# Votes of participants that were replaced

A vote names the generation that cast it, and so does the seat of a
member. `computeQuorum` matches them by participant identity alone: a vote
of an earlier generation is counted for the member that took the seat, and
registration leaves the evaluations of the earlier generation in force.

This module says when that does no harm: the quorum is the one of the
current votes only when there are no others, and predecessor and
replacement are counted once as long as no evaluation is recorded next to
one of another generation of the same participant.

The first half is about one computation of the quorum, for any members and
votes: a vote no seat holds always changes something the report states, if
only the number of votes (`heldBy_of_unique_length`). The second half is
about runs. `OneGeneration` is a property of evidence, kept by every record
that meets `sameGeneration`; from it the quorum has at most one vote of a
participant on a candidate, through all its generations, and so have the
tallies where each generation is counted once.
-/

namespace EnsembleFabric

open EventSystem

/-! ## Votes that no seat holds -/

/-- The vote was cast by the generation that has the seat. -/
def heldBy (members : List QuorumMember) (v : EligibleVote) : Bool :=
  members.any fun m => m.participant == v.participant && m.generation == v.generation

/-- The quorum counts the votes as if those without a seat were not there. -/
structure UnheldIgnored (policy : QuorumPolicy) (members : List QuorumMember)
    (votes : List EligibleVote) (report : List EligibleVote → QuorumReport) : Prop where
  contributors : (report votes).contributors = (report (votes.filter (heldBy members))).contributors
  abstentions : (report votes).abstentions = (report (votes.filter (heldBy members))).abstentions
  evaluations : (report votes).evaluations = (report (votes.filter (heldBy members))).evaluations
  leadingVotes : (report votes).leadingVotes = (report (votes.filter (heldBy members))).leadingVotes
  denominator : (report votes).denominator = (report (votes.filter (heldBy members))).denominator
  requiredPresent :
    (report votes).requiredPresent = (report (votes.filter (heldBy members))).requiredPresent

theorem heldBy_voteKey {members : List QuorumMember} {v w : EligibleVote}
    (h : voteKey v = voteKey w) : heldBy members v = heldBy members w := by
  obtain ⟨hparticipant, hgeneration, -⟩ := VoteKey.mk.inj h
  rw [heldBy, heldBy, hparticipant, hgeneration]

/-- Without the votes that nobody holds there are fewer first votes. -/
theorem heldBy_of_unique_length {members : List QuorumMember} {votes : List EligibleVote}
    (h : (uniqueVotes votes).length = (uniqueVotes (votes.filter (heldBy members))).length) :
    ∀ v ∈ votes, heldBy members v = true := by
  intro v hv
  have hsubset : (uniqueVotes (votes.filter (heldBy members))).map voteKey
      ⊆ (uniqueVotes votes).map voteKey := by
    intro k hk
    have hkey := (Reordering.mem_keepFirst_keys voteKey).mp hk
    obtain ⟨w, hw, rfl⟩ := List.mem_map.mp hkey
    exact (Reordering.mem_keepFirst_keys voteKey).mpr
      (List.mem_map_of_mem (List.mem_filter.mp hw).1)
  have hperm : ((uniqueVotes (votes.filter (heldBy members))).map voteKey).Perm
      ((uniqueVotes votes).map voteKey) :=
    (List.subperm_of_subset (Reordering.keepFirst_nodup voteKey _) hsubset).perm_of_length_le
      (by rw [List.length_map, List.length_map]; exact h.le)
  have hkey : voteKey v ∈ (uniqueVotes (votes.filter (heldBy members))).map voteKey :=
    hperm.mem_iff.mpr ((Reordering.mem_keepFirst_keys voteKey).mpr (List.mem_map_of_mem hv))
  obtain ⟨w, hw, hwv⟩ := List.mem_map.mp ((Reordering.mem_keepFirst_keys voteKey).mp hkey)
  rw [← heldBy_voteKey hwv]
  exact (List.mem_filter.mp hw).2

theorem unheldIgnored_iff (policy : QuorumPolicy) (members : List QuorumMember)
    (votes : List EligibleVote) (validCandidates : Nat) (generation : EnsembleGeneration)
    (epoch : CoordinatorEpoch) (sequence : Sequence) :
    UnheldIgnored policy members votes
        (computeQuorum policy members · validCandidates generation epoch sequence)
      ↔ ∀ v ∈ votes, heldBy members v = true := by
  constructor
  · exact fun h => heldBy_of_unique_length h.evaluations
  · intro h
    have hall : votes.filter (heldBy members) = votes := List.filter_eq_self.mpr h
    exact ⟨by rw [hall], by rw [hall], by rw [hall], by rw [hall], by rw [hall], by rw [hall]⟩

/-! ## One generation at a time -/

/-- No candidate has current evaluations of two generations of a participant. -/
def OneGeneration (x : ExecutionRecord) : Prop :=
  ∀ r ∈ x.evaluations, ∀ r' ∈ x.evaluations, r.current = true → r'.current = true →
    r.candidate = r'.candidate → r.evaluator = r'.evaluator →
    r.evaluatorGeneration = r'.evaluatorGeneration

/-- The evaluator has no current evaluation of the candidate from another generation. -/
def SameGeneration (_ : EnsembleRecord) (x : ExecutionRecord) (r : EvaluationRecord) : Prop :=
  ∀ r' ∈ x.evaluations, r'.current = true → r'.candidate = r.candidate →
    r'.evaluator = r.evaluator → r'.evaluatorGeneration = r.evaluatorGeneration

theorem OneGeneration.step {config : FabricConfig} {e : EnsembleRecord} {x x' : ExecutionRecord}
    (h : ExecutionStep (runScope config SameGeneration) e x x') (hx : OneGeneration x) :
    OneGeneration x' := by
  rcases h.evidence with hkept | ⟨p, r, hrecorded⟩
  · -- what is current after the step was current before
    have hbefore : ∀ r ∈ x'.evaluations, r.current = true → r ∈ x.evaluations := by
      intro r hr hcurrent
      have hmem : r ∈ evidenceFor x' r.candidate r.candidateGeneration :=
        mem_evidenceFor.mpr ⟨hr, hcurrent, rfl, rfl⟩
      rcases hkept r.candidate r.candidateGeneration with heq | heq
      · rw [heq] at hmem
        exact (mem_evidenceFor.mp hmem).1
      · rw [heq] at hmem
        cases hmem
    exact fun r hr r' hr' hcurrent hcurrent' =>
      hx r (hbefore r hr hcurrent) r' (hbefore r' hr' hcurrent') hcurrent hcurrent'
  · intro q hq q' hq' hcurrent hcurrent' hcandidate hevaluator
    rw [hrecorded.evaluations, List.mem_append, List.mem_singleton] at hq hq'
    rcases hq with hq | rfl <;> rcases hq' with hq' | rfl
    · exact hx q hq q' hq' hcurrent hcurrent' hcandidate hevaluator
    · exact hrecorded.admitted q hq hcurrent hcandidate hevaluator
    · exact (hrecorded.admitted q' hq' hcurrent' hcandidate.symm hevaluator.symm).symm
    · rfl

/-- An evaluation that is accepted meets no current one of the candidate by
another generation of its evaluator. -/
def sameGeneration (s : System) : Event → Bool
  | .submitEvaluation submission =>
      match acceptEvaluation s.fabric submission with
      | .error _ => true
      | .ok site =>
          site.execution.evaluations.all fun r =>
            !(r.current && r.candidate == submission.authority.candidate
                && r.evaluator == submission.authority.evaluator.participant)
              || r.evaluatorGeneration == submission.authority.evaluator.participantGeneration
  | _ => true

theorem sameGeneration_allows {config : FabricConfig} {s : System} {event : Event}
    (h : sameGeneration s event = true) : Allows (runScope config SameGeneration) s event := by
  cases event with
  | submitEvaluation submission =>
    intro site haccept r hr hcurrent hcandidate hevaluator
    simp only [sameGeneration, haccept, List.all_eq_true] at h
    have hgeneration := h r hr
    have hcandidate : r.candidate = submission.authority.candidate := hcandidate
    have hevaluator : r.evaluator = submission.authority.evaluator.participant := hevaluator
    simpa [hcurrent, hcandidate, hevaluator, acceptedRecord, recordedEvaluation] using hgeneration
  | _ => trivial

theorem reachable_oneGeneration (config : FabricConfig) {events : List Event}
    (hsame : Along System.next (fun s event => sameGeneration s event = true) (.initial config)
      events) (id : EnsembleId) :
    OfExecution (fun _ x => OneGeneration x)
      (((System.initial config).run events).fabric.view id) :=
  reachable_ofExecution (fun _ _ _ _ h => absurd h List.not_mem_nil) (fun h => h) (fun _ h => h)
    (fun hstep h => h.step hstep) (fun _ h => h) (fun _ _ h => h)
    (hsame.mono fun _ _ => sameGeneration_allows) id

/-! ## Counted once -/

theorem length_le_one_of_nodup {α : Type*} {xs : List α} (hnodup : xs.Nodup)
    (h : ∀ a ∈ xs, ∀ b ∈ xs, a = b) : xs.length ≤ 1 := by
  cases xs with
  | nil => exact Nat.zero_le 1
  | cons a rest =>
    cases rest with
    | nil => exact Nat.le_refl 1
    | cons b rest =>
      have hab : a = b := h a (by simp) b (by simp)
      simp [hab] at hnodup

/-- The quorum has one vote of the participant on the candidate, of
whatever generation, or none. -/
theorem OneGeneration.quorum {x : ExecutionRecord} (h : OneGeneration x) (p : ParticipantId)
    (c : CandidateId) :
    (uniqueVotes (eligibleVotes x)).countP (fun v => v.participant == p && v.candidate == c)
      ≤ 1 := by
  have hnodup := Reordering.keepFirst_nodup voteKey (eligibleVotes x)
  rw [List.countP_eq_length_filter, ← List.length_map voteKey]
  refine length_le_one_of_nodup (hnodup.sublist (List.filter_sublist.map voteKey)) ?_
  intro k hk k' hk'
  obtain ⟨v, hv, rfl⟩ := List.mem_map.mp hk
  obtain ⟨v', hv', rfl⟩ := List.mem_map.mp hk'
  have hrecord : ∀ v ∈ (uniqueVotes (eligibleVotes x)).filter
      (fun v => v.participant == p && v.candidate == c),
      ∃ r ∈ x.evaluations, r.current = true ∧ r.evaluator = p ∧ r.candidate = c
        ∧ voteKey v = ⟨p, r.evaluatorGeneration, c⟩ := by
    intro v hv
    rw [List.mem_filter, Bool.and_eq_true, beq_iff_eq, beq_iff_eq] at hv
    obtain ⟨hunique, rfl, rfl⟩ := hv
    obtain ⟨r, hr, rfl⟩ := List.mem_map.mp (mem_of_mem_uniqueVotes hunique)
    rw [List.mem_filter] at hr
    exact ⟨r, hr.1, hr.2, rfl, rfl, rfl⟩
  obtain ⟨r, hr, hcurrent, hp, hc, hkey⟩ := hrecord v hv
  obtain ⟨r', hr', hcurrent', hp', hc', hkey'⟩ := hrecord v' hv'
  rw [hkey, hkey', h r hr r' hr' hcurrent hcurrent' (hc.trans hc'.symm) (hp.trans hp'.symm)]

/-- With votes that are cast once, a tally counts the participant once. -/
theorem OneGeneration.tally {x : ExecutionRecord} (h : OneGeneration x) {c : CandidateRecord}
    (honce : CastOnce (currentEvaluations x c)) (p : ParticipantId) :
    ((tallyCandidate x c).agreeingMembers ++ (tallyCandidate x c).disagreeingMembers
      ++ (tallyCandidate x c).abstainingMembers).count p ≤ 1 := by
  have hmembers : ((tallyCandidate x c).agreeingMembers ++ (tallyCandidate x c).disagreeingMembers
      ++ (tallyCandidate x c).abstainingMembers).Perm
        (((currentEvaluations x c).filter castsVote).map (·.evaluator)) := by
    have hperm := (perm_judgments (currentEvaluations x c)).map (·.evaluator)
    rwa [List.map_append, List.map_append] at hperm
  rw [hmembers.count_eq]
  refine List.nodup_iff_count_le_one.mp ?_ p
  -- different votes have different voters, and here that is different participants
  have hvoters : (((currentEvaluations x c).filter castsVote).map voter).Nodup := honce
  have hparticipants := hvoters.map_on (f := Prod.fst) fun v hv v' hv' heq => ?_
  · rwa [List.map_map] at hparticipants
  obtain ⟨r, hr, rfl⟩ := List.mem_map.mp hv
  obtain ⟨r', hr', rfl⟩ := List.mem_map.mp hv'
  obtain ⟨hmem, hcurrent, hcandidate, -⟩ :=
    mem_currentEvaluations.mp (List.mem_filter.mp hr).1
  obtain ⟨hmem', hcurrent', hcandidate', -⟩ :=
    mem_currentEvaluations.mp (List.mem_filter.mp hr').1
  exact Prod.ext heq
    (h r hmem r' hmem' hcurrent hcurrent' (hcandidate.trans hcandidate'.symm) heq)

/-- The generations of a participant, however often it was replaced, have at
most one vote on a candidate: in the quorum, and, where every generation
is counted once, in the tallies. -/
structure CountedOnce (x : ExecutionRecord) : Prop where
  generations : OneGeneration x
  quorum : ∀ p c, (uniqueVotes (eligibleVotes x)).countP
    (fun v => v.participant == p && v.candidate == c) ≤ 1
  consensus : (∀ c ∈ x.candidates, CastOnce (currentEvaluations x c)) →
    ∀ p, ∀ c ∈ x.candidates,
      ((tallyCandidate x c).agreeingMembers ++ (tallyCandidate x c).disagreeingMembers
        ++ (tallyCandidate x c).abstainingMembers).count p ≤ 1

/-- The quorum ignores the votes of generations without a seat exactly when
there are none. In runs that record no evaluation next to a current one by
another generation of its evaluator, a participant counts at most once
for a candidate, through all its generations. -/
theorem seats_generation_bound (policy : QuorumPolicy) (members : List QuorumMember)
    (votes : List EligibleVote) (validCandidates : Nat) (generation : EnsembleGeneration)
    (epoch : CoordinatorEpoch) (sequence : Sequence) (config : FabricConfig)
    (events : List Event) :
    (UnheldIgnored policy members votes
        (computeQuorum policy members · validCandidates generation epoch sequence)
      ↔ ∀ v ∈ votes, heldBy members v = true)
    ∧ (Along System.next (fun s event => sameGeneration s event = true) (.initial config) events →
      ∀ (id : EnsembleId) (e : EnsembleRecord) (x : ExecutionRecord),
      ((System.initial config).run events).fabric.find id = some e → e.execution = some x →
      CountedOnce x) := by
  refine ⟨unheldIgnored_iff .., fun hsame id e x hfind hexecution => ?_⟩
  have hone := reachable_oneGeneration config hsame id e x hfind hexecution
  exact ⟨hone, hone.quorum, fun honce p c hc => hone.tally (honce c hc) p⟩

namespace Sample

/-- The judge is lost, and a new process takes its seat. -/
def replaceJudge : List Event :=
  [.reportParticipantFailure (authority 2) .unavailable "lost",
    .registerParticipant
      { ensemble := ⟨1⟩, ensembleGeneration := ⟨1⟩, participant := ⟨2⟩, worker := ⟨2⟩
        workerBoot := ⟨9⟩, coordinatorEpoch := ⟨1⟩ }]

/-- The replacement of the judge accepts the candidate on a criterion; the
evaluation was planned as `e`. -/
def judgeAgain (e : UInt64) (criterion : UInt32) : Event :=
  .submitEvaluation
    { authority :=
        { evaluationAuthority 2 1 e with
          evaluator := { authority 2 with participantGeneration := ⟨2⟩, workerBoot := ⟨9⟩ } }
      criterion := ⟨criterion, 1⟩
      judgment := .accept }

/-- The judge is replaced before it answers. -/
def replacedEarly : List Event :=
  start criteriaSpec ++ [content 1 1 [7], advance] ++ replaceJudge ++ [judgeAgain 1 1]

/-- The judge accepts on one criterion, and its replacement on the other. -/
def replacedLate : List Event :=
  start criteriaSpec ++ [content 1 1 [7], advance, judge 2 1 1 1 .accept] ++ replaceJudge
    ++ [judgeAgain 2 2]

end Sample

/-- Only the replacement has voted. -/
theorem replacedEarly_counted_once : ∃ e x, Sample.ensemble Sample.replacedEarly = some e
    ∧ e.execution = some x ∧ x.evaluations.length = 1 ∧ CountedOnce x := by
  have hsame : Along System.next (fun s event => sameGeneration s event = true) (.initial {})
      Sample.replacedEarly := by decide +kernel
  have hopen : (Sample.ensemble Sample.replacedEarly).any (fun e => e.execution.any fun x =>
      x.evaluations.length == 1) = true := by
    decide +kernel
  simp only [Option.any_eq_true, beq_iff_eq] at hopen
  obtain ⟨e, hfind, x, hexecution, hlength⟩ := hopen
  exact ⟨e, x, hfind, hexecution, hlength,
    (seats_generation_bound {} [] [] 0 ⟨1⟩ ⟨1⟩ ⟨0⟩ {} Sample.replacedEarly).2 hsame ⟨1⟩ e x hfind
      hexecution⟩

/-- Both generations of a replaced judge count: two unique votes in the
quorum, two accepts in the tally. The first one's vote stays in force when its
seat is taken. -/
theorem predecessor_still_counts : ∃ e x, Sample.ensemble Sample.replacedLate = some e
    ∧ e.execution = some x
    ∧ (uniqueVotes (eligibleVotes x)).countP
      (fun v => v.participant == ⟨2⟩ && v.candidate == ⟨1⟩) = 2
    ∧ (x.candidates.map fun c => (tallyCandidate x c).agreeingMembers) = [[⟨2⟩, ⟨2⟩]]
    ∧ (x.candidates.map fun c => (currentEvaluations x c).map voter)
      = [[(⟨2⟩, ⟨1⟩), (⟨2⟩, ⟨2⟩)]] := by
  have hrun : (Sample.ensemble Sample.replacedLate).any (fun e => e.execution.any fun x =>
      (uniqueVotes (eligibleVotes x)).countP
          (fun v => v.participant == ⟨2⟩ && v.candidate == ⟨1⟩) == 2
        && (x.candidates.map fun c => (tallyCandidate x c).agreeingMembers) == [[⟨2⟩, ⟨2⟩]]
        && (x.candidates.map fun c => (currentEvaluations x c).map voter)
          == [[(⟨2⟩, ⟨1⟩), (⟨2⟩, ⟨2⟩)]]) = true := by
    decide +kernel
  simp only [Option.any_eq_true, Bool.and_eq_true, beq_iff_eq] at hrun
  obtain ⟨e, hfind, x, hexecution, ⟨hquorum, htally⟩, hvoters⟩ := hrun
  exact ⟨e, x, hfind, hexecution, hquorum, htally, hvoters⟩

end EnsembleFabric
