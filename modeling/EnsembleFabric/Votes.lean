import EnsembleFabric.Evidence

/-!
# One participant, one vote

The tallies count evaluations, and evaluations are recorded once per
criterion: a judge of several criteria can be counted several times for one
candidate. This module says when that does not happen. As long as every
judgment that is recorded is the first one of its participant generation
about that generation of the candidate, every participant generation is
counted once.

A voter is a participant generation, and the votes in the evidence are the
evaluations that accept, reject or abstain. `CastOnce` says that they come
from different voters; it is a property of evidence and holds along runs
that record first votes only (`reachable_castOnce`). `OneVoteEach` is what
follows for the reports: every tally lists each voter once, and so does the
consensus that is computed from the tallies.

The condition `firstVote` is on an event in the state before it: whether
the evaluation is accepted there, and whether a vote of its voter about the
candidate as it stands is in force.
-/

namespace EnsembleFabric

open EventSystem

/-! ## Who is counted -/

/-- A participant generation. -/
abbrev Voter := ParticipantId × ParticipantGeneration

def voter (r : EvaluationRecord) : Voter := (r.evaluator, r.evaluatorGeneration)

/-- The evaluation is counted under some judgment. -/
def castsVote (r : EvaluationRecord) : Bool := r.judgment != .unknown

/-- The voters counted for a candidate under a judgment. -/
def votersFor (x : ExecutionRecord) (c : CandidateRecord) (judgment : CategoricalJudgment) :
    List Voter :=
  ((currentEvaluations x c).filter (judged judgment)).map voter

/-- The tally counts these voters, and each of them once. -/
structure CountsOnce (t : CandidateTally) (accepts rejects abstains : List Voter) : Prop where
  agreeing : t.agreeing = accepts.length
  agreeingMembers : t.agreeingMembers = accepts.map (·.1)
  disagreeing : t.disagreeing = rejects.length
  disagreeingMembers : t.disagreeingMembers = rejects.map (·.1)
  abstaining : t.abstaining = abstains.length
  abstainingMembers : t.abstainingMembers = abstains.map (·.1)
  once : (accepts ++ rejects ++ abstains).Nodup

/-- Every tally counts each voter once. So does the consensus: its agreeing
count and members are those of different voters. -/
structure OneVoteEach (e : EnsembleRecord) (x : ExecutionRecord) : Prop where
  tallies : ∀ c ∈ x.candidates, CountsOnce (tallyCandidate x c) (votersFor x c .accept)
    (votersFor x c .reject) (votersFor x c .abstain)
  consensus : ∃ voters : List Voter, voters.Nodup
    ∧ (computeReports e x).consensus.agreeing = voters.length
    ∧ (computeReports e x).consensus.agreeingMembers = voters.map (·.1)

/-! ## Votes that are cast once -/

/-- The votes in the evidence come from different voters. -/
def CastOnce (es : List EvaluationRecord) : Prop := ((es.filter castsVote).map voter).Nodup

/-- Votes are the judgments to accept, to reject and to abstain. -/
theorem perm_judgments (es : List EvaluationRecord) :
    (es.filter (judged .accept) ++ es.filter (judged .reject) ++ es.filter (judged .abstain)).Perm
      (es.filter castsVote) := by
  induction es with
  | nil => exact .refl _
  | cons r es ih =>
    cases hjudgment : r.judgment with
    | accept => simpa [judged, castsVote, hjudgment] using ih
    | reject =>
      have hmiddle : (es.filter (judged .accept) ++ r :: (es.filter (judged .reject)
          ++ es.filter (judged .abstain))).Perm (r :: es.filter castsVote) :=
        List.perm_middle.trans (.cons r (by simpa using ih))
      simpa [judged, castsVote, hjudgment] using hmiddle
    | abstain =>
      have hmiddle : (es.filter (judged .accept) ++ es.filter (judged .reject)
          ++ r :: es.filter (judged .abstain)).Perm (r :: es.filter castsVote) :=
        List.perm_middle.trans (.cons r ih)
      simpa [judged, castsVote, hjudgment] using hmiddle
    | unknown => simpa [judged, castsVote, hjudgment] using ih

theorem CastOnce.append {es : List EvaluationRecord} {r : EvaluationRecord} (h : CastOnce es)
    (hfirst : castsVote r = true → ∀ r' ∈ es, castsVote r' = true → voter r' ≠ voter r) :
    CastOnce (es ++ [r]) := by
  rw [CastOnce, List.filter_append, List.map_append]
  cases hcast : castsVote r with
  | false =>
    rw [List.filter_cons_of_neg (by simp [hcast]), List.filter_nil, List.map_nil, List.append_nil]
    exact h
  | true =>
    rw [List.filter_cons_of_pos hcast, List.filter_nil, List.map_cons, List.map_nil,
      List.nodup_append]
    refine ⟨h, List.nodup_singleton _, fun v hv v' hv' heq => ?_⟩
    obtain rfl := List.mem_singleton.mp hv'
    obtain ⟨r', hr', hvoter⟩ := List.mem_map.mp hv
    obtain ⟨hmem, hcast'⟩ := List.mem_filter.mp hr'
    exact hfirst hcast r' hmem hcast' (hvoter.trans heq)

theorem CastOnce.countsOnce {x : ExecutionRecord} {c : CandidateRecord}
    (h : CastOnce (currentEvaluations x c)) :
    CountsOnce (tallyCandidate x c) (votersFor x c .accept) (votersFor x c .reject)
      (votersFor x c .abstain) := by
  have hcount : ∀ judgment, (currentEvaluations x c).countP (judged judgment)
      = (votersFor x c judgment).length := by
    intro judgment
    rw [votersFor, List.length_map, List.countP_eq_length_filter]
  have hmembers : ∀ judgment, ((currentEvaluations x c).filter (judged judgment)).map (·.evaluator)
      = (votersFor x c judgment).map (·.1) := by
    intro judgment
    rw [votersFor, List.map_map]
    rfl
  refine ⟨hcount _, hmembers _, hcount _, hmembers _, hcount _, hmembers _, ?_⟩
  have hperm := (perm_judgments (currentEvaluations x c)).map voter
  rw [List.map_append, List.map_append] at hperm
  exact hperm.nodup_iff.mpr h

theorem oneVoteEach_of_castOnce {e : EnsembleRecord} {x : ExecutionRecord}
    (h : ∀ c g, CastOnce (evidenceFor x c g)) : OneVoteEach e x := by
  refine ⟨fun c _ => (h c.id c.generation).countsOnce, ?_⟩
  rw [computeReports_consensus]
  rcases computeConsensus_agreeing (consensusInputs e (withQuorum e x) ⟨x.reportGeneration + 1⟩)
    with ⟨hcount, hmembers⟩ | ⟨leader, hleader, hcount, hmembers⟩
  · exact ⟨[], List.nodup_nil, hcount, hmembers⟩
  · obtain ⟨c, -, rfl⟩ := List.mem_map.mp hleader
    have hcounts := (h c.id c.generation).countsOnce
    refine ⟨votersFor x c .accept, ?_, hcount.trans hcounts.agreeing,
      hmembers.trans hcounts.agreeingMembers⟩
    have honce := hcounts.once
    rw [List.append_assoc] at honce
    exact honce.of_append_left

/-! ## Runs -/

/-- The voter of a submission. -/
def submittedBy (s : EvaluationSubmission) : Voter :=
  (s.authority.evaluator.participant, s.authority.evaluator.participantGeneration)

/-- An evaluation that is accepted casts no vote, or the first one of its
participant generation about the candidate as it stands. -/
def firstVote (s : System) : Event → Bool
  | .submitEvaluation submission =>
      match acceptEvaluation s.fabric submission with
      | .error _ => true
      | .ok site =>
          submission.judgment == .unknown
            || (currentEvaluations site.execution site.candidate).all fun r =>
              !castsVote r || voter r != submittedBy submission
  | _ => true

/-- The record is the first vote of its voter. -/
def FirstVote (_ : EnsembleRecord) (x : ExecutionRecord) (r : EvaluationRecord) : Prop :=
  castsVote r = true → ∀ r' ∈ evidenceFor x r.candidate r.candidateGeneration,
    castsVote r' = true → voter r' ≠ voter r

theorem firstVote_allows {config : FabricConfig} {s : System} {event : Event}
    (h : firstVote s event = true) : Allows (runScope config FirstVote) s event := by
  cases event with
  | submitEvaluation submission =>
    intro site haccept hcast r' hr' hcast'
    have hcurrent := currentEvaluations_accepted (acceptEvaluation_eq_ok haccept)
    simp only [firstVote, haccept, hcurrent, Bool.or_eq_true, beq_iff_eq, List.all_eq_true,
      Bool.not_eq_true', bne_iff_ne] at h
    rcases h with hunknown | hfirst
    · exact absurd hunknown (by simpa [castsVote, acceptedRecord, recordedEvaluation] using hcast)
    · rcases hfirst r' hr' with hsilent | hother
      · rw [hsilent] at hcast'
        cases hcast'
      · exact hother
  | _ => trivial

/-- Runs that record only first votes have every vote cast once. -/
theorem reachable_castOnce (config : FabricConfig) {events : List Event}
    (hfirst : Along System.next (fun s event => firstVote s event = true) (.initial config) events)
    (id : EnsembleId) :
    OfExecution (fun _ x => ∀ c g, CastOnce (evidenceFor x c g))
      (((System.initial config).run events).fabric.view id) := by
  have hinvariant := reachable_evidence (P := fun _ es => CastOnce es)
    (fun _ => List.nodup_nil) (fun _ h => h) (fun _ hadmitted _ h => h.append hadmitted)
    (hfirst.mono fun _ _ => firstVote_allows) id
  exact fun e x hfind hexecution => (hinvariant e x hfind hexecution).2

/-- In every run that records only first votes, every execution counts every
participant generation once for each candidate. The run may do anything else. -/
theorem one_vote_each (config : FabricConfig) (events : List Event)
    (hfirst : Along System.next (fun s event => firstVote s event = true) (.initial config) events)
    (id : EnsembleId) (e : EnsembleRecord) (x : ExecutionRecord)
    (hfind : ((System.initial config).run events).fabric.find id = some e)
    (hexecution : e.execution = some x) : OneVoteEach e x :=
  oneVoteEach_of_castOnce (reachable_castOnce config hfirst id e x hfind hexecution)

namespace Sample

/-- One candidate and one judge, who judges it on two criteria. -/
def criteriaSpec : EnsembleSpec where
  id := ⟨1⟩
  label := "criteria"
  participants := [participant 1 candidateRole, participant 2 judgeRole]
  judgingCriteria := [⟨1, 1⟩, ⟨2, 1⟩]

def judgedOnce : List Event :=
  start criteriaSpec ++ [content 1 1 [7], advance, judge 2 1 1 1 .accept]

def judgedTwice : List Event := judgedOnce ++ [judge 2 1 2 2 .accept]

end Sample

/-- A run with one vote. -/
theorem judgedOnce_one_vote : ∃ e x, Sample.ensemble Sample.judgedOnce = some e
    ∧ e.execution = some x ∧ OneVoteEach e x := by
  have hfirst : Along System.next (fun s event => firstVote s event = true) (.initial {})
      Sample.judgedOnce := by decide +kernel
  have hopen : (Sample.ensemble Sample.judgedOnce).any (·.execution.isSome) = true := by
    decide +kernel
  simp only [Option.any_eq_true, Option.isSome_iff_exists] at hopen
  obtain ⟨e, hfind, x, hexecution⟩ := hopen
  exact ⟨e, x, hfind, hexecution,
    one_vote_each {} Sample.judgedOnce hfirst ⟨1⟩ e x hfind hexecution⟩

/-- A judge who accepts under both criteria is counted twice: the tally has two
accepts, and names the judge twice. -/
theorem judgedTwice_counted_twice : ∃ e x, Sample.ensemble Sample.judgedTwice = some e
    ∧ e.execution = some x ∧ ¬ OneVoteEach e x := by
  have htwice : (Sample.ensemble Sample.judgedTwice).any (fun e => e.execution.any fun x =>
      x.candidates.any fun c => !decide (votersFor x c .accept).Nodup) = true := by
    decide +kernel
  simp only [Option.any_eq_true, List.any_eq_true, Bool.not_eq_true',
    decide_eq_false_iff_not] at htwice
  obtain ⟨e, hfind, x, hexecution, c, hc, htwice⟩ := htwice
  refine ⟨e, x, hfind, hexecution, fun hone => htwice ?_⟩
  have honce := (hone.tallies c hc).once
  rw [List.append_assoc] at honce
  exact honce.of_append_left

end EnsembleFabric
