import EnsembleFabric.Inspect
import EnsembleFabric.Permanence
import EnsembleFabric.Restrictions

/-!
# Quorum reports as they are published

A quorum report is decided on the number of distinct votes. Then the number
of evaluations in it is replaced twice: by the number of current evaluations
where the report is stored, and by the number of all evaluations where it is
inspected. The report is consistent in itself exactly where the numbers
coincide (`published_quorum_iff`).

The stored report is older than the state it is published in, so the numbers
have to be taken from the evidence as it was when the report was computed.
`ReportsFrom` says from which record and which execution an event of the
runtime computes a report: a preparation takes them as it finds them, an
advance as it has left them so far. `reachable_reported` is the invariant
that the stored report of every execution of a run was computed by some event
of the run in this way, or that there was none yet.

`Publishes` then says, for the stored report and for the one an inspection
answers, when it is consistent, by the evidence from which that event
computed it. A report that does not exist yet is consistent exactly if the
policy asks for something (`unreported_consistent_iff`).
-/

namespace EnsembleFabric

open EventSystem

/-! ## Consistent reports -/

/-- The fields of the report meet the minimums of the policy. -/
structure FieldsMeet (policy : QuorumPolicy) (report : QuorumReport) : Prop where
  participants : policy.minParticipants.toNat ≤ report.denominator
  roles : report.roleQuotaMet = policy.roleQuota.length
  evaluations : policy.minEvaluations.toNat ≤ report.evaluations
  candidates : policy.minValidCandidates.toNat ≤ report.validCandidates
  failures : report.failureBudgetExceeded = false
  abstentions : report.abstentionBudgetExceeded = false

/-- Enough members that can still act hold every role asked for. -/
def QuotasAchievable (policy : QuorumPolicy) (members : List QuorumMember) : Prop :=
  ∀ quota ∈ policy.roleQuota,
    quota.minCount.toNat ≤ countMembers members fun m =>
      m.roles.contains quota.role && canContribute m

/-- The report says reached exactly where its own fields do, and states the
number of evaluations it was decided on. -/
structure SelfConsistent (policy : QuorumPolicy) (members : List QuorumMember) (decided : Nat)
    (report : QuorumReport) : Prop where
  state : report.state = .reached ↔ FieldsMeet policy report ∧ QuotasAchievable policy members
  evaluations : report.evaluations = decided

/-- The number of distinct votes, which a report is decided on. -/
def distinctVotes (x : ExecutionRecord) : Nat := (uniqueVotes (eligibleVotes x)).length

/-- The policy asks for nothing that a report without content would miss. -/
def AsksNothing (policy : QuorumPolicy) : Prop :=
  policy.minParticipants = 0 ∧ policy.roleQuota = [] ∧ policy.minEvaluations = 0
    ∧ policy.minValidCandidates = 0

/-! ## The computation -/

section Computation

variable (policy : QuorumPolicy) (membership : List QuorumMember) (votes : List EligibleVote)
  (validCandidates : Nat) (generation : EnsembleGeneration) (epoch : CoordinatorEpoch)
  (sequence : Sequence)

theorem computeQuorum_reached_iff :
    (computeQuorum policy membership votes validCandidates generation epoch sequence).state
        = .reached
      ↔ FieldsMeet policy
          (computeQuorum policy membership votes validCandidates generation epoch sequence)
        ∧ QuotasAchievable policy membership := by
  have hstate :
      (computeQuorum policy membership votes validCandidates generation epoch sequence).state
        = (let report :=
            computeQuorum policy membership votes validCandidates generation epoch sequence
          if ¬ policy.minParticipants.toNat ≤ report.denominator
              ∨ (policy.roleQuota.all fun q => q.minCount.toNat
                ≤ countMembers membership fun m => m.roles.contains q.role && canContribute m)
                = false
            then .impossible
          else if policy.minParticipants.toNat ≤ report.denominator
              ∧ report.roleQuotaMet = policy.roleQuota.length
              ∧ policy.minEvaluations.toNat ≤ report.evaluations
              ∧ policy.minValidCandidates.toNat ≤ report.validCandidates
              ∧ report.failureBudgetExceeded = false ∧ report.abstentionBudgetExceeded = false
            then .reached
          else .notReached) := rfl
  generalize computeQuorum policy membership votes validCandidates generation epoch sequence
    = report at hstate ⊢
  dsimp only at hstate
  have hachievable : QuotasAchievable policy membership
      ↔ (policy.roleQuota.all fun q => q.minCount.toNat
          ≤ countMembers membership fun m => m.roles.contains q.role && canContribute m)
        = true := by
    simp only [QuotasAchievable, List.all_eq_true, decide_eq_true_eq]
  rw [hstate, hachievable]
  constructor
  · intro hreached
    split at hreached
    · cases hreached
    · rename_i hpossible
      split at hreached
      · rename_i hmeet
        obtain ⟨hparticipants, hroles, hevaluations, hcandidates, hfailures, habstentions⟩ := hmeet
        rw [not_or, Bool.not_eq_false] at hpossible
        exact ⟨⟨hparticipants, hroles, hevaluations, hcandidates, hfailures, habstentions⟩,
          hpossible.2⟩
      · cases hreached
  · rintro ⟨hmeet, hquotas⟩
    rw [if_neg (by simp [hmeet.participants, hquotas]),
      if_pos ⟨hmeet.participants, hmeet.roles, hmeet.evaluations, hmeet.candidates,
        hmeet.failures, hmeet.abstentions⟩]

/-- A report with another number of evaluations is consistent exactly if it
is the number of distinct votes. -/
theorem selfConsistent_iff (count : Nat) :
    SelfConsistent policy membership (uniqueVotes votes).length
        { computeQuorum policy membership votes validCandidates generation epoch sequence with
          evaluations := count }
      ↔ count = (uniqueVotes votes).length := by
  refine ⟨fun h => h.evaluations, fun hcount => ?_⟩
  subst hcount
  exact ⟨computeQuorum_reached_iff policy membership votes validCandidates generation epoch
    sequence, rfl⟩

end Computation

/-- Before the first report. -/
theorem unreported_consistent_iff (policy : QuorumPolicy) (members : List QuorumMember)
    (count : Nat) :
    SelfConsistent policy members 0 { ({} : QuorumReport) with evaluations := count }
      ↔ count = 0 ∧ ¬ AsksNothing policy := by
  have hmeet : FieldsMeet policy {} ∧ QuotasAchievable policy members ↔ AsksNothing policy := by
    have hzero : ∀ n : UInt32, n.toNat ≤ 0 ↔ n = 0 := by
      intro n
      rw [Nat.le_zero, ← UInt32.toNat_inj]
      exact Iff.rfl
    constructor
    · rintro ⟨h, -⟩
      exact ⟨(hzero _).mp h.participants, List.eq_nil_of_length_eq_zero h.roles.symm,
        (hzero _).mp h.evaluations, (hzero _).mp h.candidates⟩
    · rintro ⟨hparticipants, hroles, hevaluations, hcandidates⟩
      refine ⟨⟨(hzero _).mpr hparticipants, by rw [hroles]; rfl, (hzero _).mpr hevaluations,
        (hzero _).mpr hcandidates, rfl, rfl⟩, ?_⟩
      rw [QuotasAchievable, hroles]
      exact List.forall_mem_nil _
  constructor
  · intro h
    have hcount : count = 0 := h.evaluations
    subst hcount
    refine ⟨rfl, fun hnothing => ?_⟩
    have hreached := h.state.mpr (hmeet.mpr hnothing)
    cases hreached
  · rintro ⟨rfl, hasks⟩
    refine ⟨⟨fun hreached => ?_, fun h => absurd (hmeet.mp h) hasks⟩, rfl⟩
    cases hreached

/-! ## What the stored report was computed from -/

/-- The stored report was computed from this record and this execution. -/
structure ReportOf (e : EnsembleRecord) (x : ExecutionRecord) (e₀ : EnsembleRecord)
    (x₀ : ExecutionRecord) : Prop where
  policy : e₀.spec.quorum = e.spec.quorum
  quorum : x.quorum = quorumReport e₀ x₀ ⟨x₀.reportGeneration + 1⟩

/-- The event computes a report of the ensemble from this record and this
execution. A preparation takes them as it finds them, an advance as it has
left them so far. -/
inductive ReportsFrom (s : System) (event : Event) (id : EnsembleId) :
    EnsembleRecord → ExecutionRecord → Prop
  | prepared {e x} (section_ : event.submits = false) (find : s.fabric.find id = some e)
      (before : e.execution = some x) : ReportsFrom s event id e x
  | advanced {e x m} (advances : event = .advance id e.spec.generation)
      (find : s.fabric.find id = some e) (before : e.execution = some x)
      (steps : AdvanceState.AdvanceSteps s.fabric.config.limits
        (advanceStart s.fabric.core e x) m) :
      ReportsFrom s event id m.ensemble m.execution

/-- The execution has no report yet, or one that an event of the run computed. -/
def Reported (config : FabricConfig) (events : List Event) (id : EnsembleId) (e : EnsembleRecord)
    (x : ExecutionRecord) : Prop :=
  x.quorum = {} ∨ ∃ before event e₀ x₀, before ++ [event] <+: events
    ∧ ReportsFrom ((System.initial config).run before) event id e₀ x₀ ∧ ReportOf e x e₀ x₀

/-- Where the report of an execution comes from that was `x` before. -/
inductive ReportAfter (e : EnsembleRecord) (x : ExecutionRecord)
    (computes : EnsembleRecord → ExecutionRecord → Prop) (e' : EnsembleRecord)
    (x' : ExecutionRecord) : Prop
  | kept (policy : e'.spec.quorum = e.spec.quorum) (quorum : x'.quorum = x.quorum)
  | computed {e₀ x₀} (by_ : computes e₀ x₀) (of : ReportOf e' x' e₀ x₀)

namespace ReportAfter

variable {e e' e'' : EnsembleRecord} {x x' x'' : ExecutionRecord}
  {computes : EnsembleRecord → ExecutionRecord → Prop}

theorem keeps (h : ReportAfter e x computes e' x') (hpolicy : e''.spec.quorum = e'.spec.quorum)
    (hquorum : x''.quorum = x'.quorum) : ReportAfter e x computes e'' x'' := by
  cases h with
  | kept policy quorum => exact .kept (hpolicy.trans policy) (hquorum.trans quorum)
  | computed by_ of =>
    exact .computed by_ ⟨of.policy.trans hpolicy.symm, hquorum.trans of.quorum⟩

theorem computeReports (by_ : computes e' x') :
    ReportAfter e x computes e' (EnsembleFabric.computeReports e' x') :=
  .computed by_ ⟨rfl, rfl⟩

end ReportAfter

/-- The report after some steps of an advance. -/
theorem AdvanceSteps.reported {limits : Limits} {s s' : AdvanceState}
    (h : AdvanceState.AdvanceSteps limits s s') :
    ReportAfter s.ensemble s.execution
      (fun e₀ x₀ => ∃ m, AdvanceState.AdvanceSteps limits s m ∧ m.ensemble = e₀ ∧ m.execution = x₀)
      s'.ensemble s'.execution := by
  induction h with
  | refl => exact .kept rfl rfl
  | tail hsteps hlast ih =>
    rcases hlast.quorumKept with hkept | rfl
    · exact ih.keeps hkept.dwindles.policy hkept.quorum
    · exact .computeReports ⟨_, hsteps, rfl, rfl⟩

theorem advanceOpen_reported (limits : Limits) (core : Core) (e : EnsembleRecord)
    (x : ExecutionRecord) :
    ReportAfter e x
      (fun e₀ x₀ => ∃ m, AdvanceState.AdvanceSteps limits (advanceStart core e x) m
        ∧ m.ensemble = e₀ ∧ m.execution = x₀)
      (advanceOpen limits core e x).1.ensemble (advanceOpen limits core e x).1.execution := by
  have hends := advanceOpen_ends limits core e x
  generalize advanceOpen limits core e x = out at hends ⊢
  cases hends with
  | settled steps => exact .computeReports ⟨_, steps, rfl, rfl⟩
  | stopped steps stop =>
    have hm := AdvanceSteps.reported steps
    exact hm.keeps stop.quorumKept.dwindles.policy stop.quorumKept.quorum

theorem storeResult_quorum (limits : Limits) (e : EnsembleRecord) (x : ExecutionRecord)
    (stored : EnsembleResult) : (storeResult limits e x stored).1.quorum = x.quorum := by
  unfold storeResult
  split <;> rfl

/-- Where the report comes from after one event. -/
theorem Written.reportAfter {s : System} {event : Event} {id : EnsembleId} {e e' : EnsembleRecord}
    {x' : ExecutionRecord} (h : Written s event id e e') (hfind : s.fabric.find id = some e)
    (hx' : e'.execution = some x') :
    x'.quorum = {} ∨ ∃ x, e.execution = some x
      ∧ ReportAfter e x (ReportsFrom s event id) e' x' := by
  cases h with
  | redefined => cases hx'
  | superseded =>
    rw [Option.map_eq_some_iff] at hx'
    obtain ⟨x, hx, rfl⟩ := hx'
    refine .inr ⟨x, hx, .kept rfl ?_⟩
    unfold supersededExecution
    split <;> rfl
  | seated _ at_ =>
    obtain rfl := at_.ensemble
    exact .inr ⟨x', hx', .kept rfl rfl⟩
  | started =>
    obtain rfl := Option.some.inj hx'
    exact .inl rfl
  | withdrawn _ before | closed _ before | attempted _ before =>
    obtain rfl := Option.some.inj hx'
    exact .inr ⟨_, before, .kept rfl rfl⟩
  | advanced advances before _ _ result =>
    subst result
    obtain rfl := Option.some.inj hx'
    refine .inr ⟨_, before, ?_⟩
    cases advanceOpen_reported s.fabric.config.limits s.fabric.core e _ with
    | kept policy quorum => exact .kept policy quorum
    | computed by_ of =>
      obtain ⟨m, hsteps, rfl, rfl⟩ := by_
      exact .computed (.advanced advances hfind before hsteps) ⟨of.policy, of.quorum⟩
  | received _ accept ensemble | abstained _ accept ensemble =>
    subst ensemble
    obtain rfl := Option.some.inj hx'
    exact .inr ⟨_, (acceptCandidate_eq_ok accept).1.fenced.execution, .kept rfl rfl⟩
  | retried _ accept ensemble | dropped _ accept ensemble =>
    subst ensemble
    obtain rfl := Option.some.inj hx'
    exact .inr ⟨_, (acceptCandidate_eq_ok accept).1.fenced.execution, .kept rfl rfl⟩
  | evaluated _ accept ensemble =>
    subst ensemble
    obtain rfl := Option.some.inj hx'
    exact .inr ⟨_, (acceptEvaluation_eq_ok accept).execution, .kept rfl rfl⟩
  | lost _ _ ensemble =>
    subst ensemble
    exact .inr ⟨x', hx', .kept rfl rfl⟩
  | @released a seat kind detail x _ _ ensemble before =>
    subst ensemble
    obtain ⟨hdwindles, hquorum, -⟩ := handleParticipantFailure_dwindles
      (seat.write (lostParticipant seat.participant kind detail)) x
      (lostParticipant seat.participant kind detail) kind detail
    refine .inr ⟨x, before, ?_⟩
    unfold releasedRecord at hx' ⊢
    simp only at hx' ⊢
    split at hx'
    all_goals
      rename_i hcancels
      obtain rfl := Option.some.inj hx'
      simp only [hcancels]
      exact .kept hdwindles.policy hquorum
  | cancelled _ before =>
    obtain rfl := Option.some.inj hx'
    exact .inr ⟨_, before, .kept rfl rfl⟩
  | invalidated =>
    obtain ⟨x, hx, rfl⟩ := Option.map_eq_some_iff.mp hx'
    refine .inr ⟨x, hx, .kept rfl ?_⟩
    unfold invalidatedExecution
    split <;> rfl
  | reported section_ before =>
    obtain rfl := Option.some.inj hx'
    exact .inr ⟨_, before, .computed (.prepared section_ hfind before) ⟨rfl, rfl⟩⟩
  | stored _ stores =>
    obtain rfl := Option.some.inj hx'
    have hbefore := (commitTarget_eq_ok (storesIn_eq_some.mp stores).1).execution
    exact .inr ⟨_, hbefore, .kept rfl (storeResult_quorum ..)⟩

/-- The report of every execution in a run was computed by an event of the run. -/
theorem reachable_reported (config : FabricConfig) (events : List Event) {id : EnsembleId}
    {e : EnsembleRecord} {x : ExecutionRecord}
    (he : ((System.initial config).run events).fabric.find id = some e)
    (hx : e.execution = some x) : Reported config events id e x := by
  induction events using List.reverseRecOn generalizing e x with
  | nil => cases he
  | append_singleton before event ih =>
    have hearlier : ∀ {e x}, ((System.initial config).run before).fabric.find id = some e →
        e.execution = some x → Reported config (before ++ [event]) id e x := by
      intro e x he hx
      rcases ih he hx with hnone | ⟨first, next, e₀, x₀, hprefix, hfrom, hof⟩
      · exact .inl hnone
      · exact .inr ⟨first, next, e₀, x₀, hprefix.trans (List.prefix_append _ _), hfrom, hof⟩
    rw [System.run, run_append, run_cons, run_nil] at he
    rcases next_record he with hsame | ⟨e', he', hwritten⟩ | ⟨-, spec, -, rfl⟩
    · exact hearlier hsame hx
    · rcases hwritten.reportAfter he' hx with hnone | ⟨x', hx', hafter⟩
      · exact .inl hnone
      · cases hafter with
        | kept policy quorum =>
          rcases hearlier he' hx' with hnone | ⟨first, next, e₀, x₀, hprefix, hfrom, hof⟩
          · exact .inl (quorum.trans hnone)
          · exact .inr ⟨first, next, e₀, x₀, hprefix, hfrom, hof.policy.trans policy.symm,
              quorum.trans hof.quorum⟩
        | computed by_ of =>
          exact .inr ⟨before, event, _, _, List.prefix_rfl, by_, of⟩
    · cases hx

/-! ## Published reports -/

/-- No two current evaluations are votes of one participant generation for one
candidate. -/
def VotesApart (x : ExecutionRecord) : Prop := ((eligibleVotes x).map voteKey).Nodup

theorem votesApart_iff (x : ExecutionRecord) :
    (eligibleVotes x).length = distinctVotes x ↔ VotesApart x := by
  rw [VotesApart, ← Reordering.keepFirst_length_iff, ← uniqueVotes_eq, distinctVotes]
  exact eq_comm

theorem inspect_quorum {f : Fabric} {id : EnsembleId} {e : EnsembleRecord} {x : ExecutionRecord}
    {snapshot : EnsembleSnapshot} (h : inspect f id = .ok snapshot) (hfind : f.find id = some e)
    (hexecution : e.execution = some x) : snapshot.quorum = inspectedQuorum x := by
  unfold inspect at h
  simp only [hfind, hexecution, Except.ok.injEq] at h
  exact (congrArg (·.quorum) h).symm

theorem decideResult_quorum {limits : Limits} {e : EnsembleRecord} {x : ExecutionRecord}
    {r : EnsembleResult} (h : decideResult limits e x = .ok r) : r.quorum = x.quorum := by
  obtain ⟨decided, hselect, rfl⟩ := decideResult_eq_ok.mp h
  rcases selectResult_eq_ok hselect with ⟨rfl, -⟩ | ⟨-, c, -, rfl⟩ <;> rfl

/-- The consistency of a stored report, and of the one an inspection answers,
by the evidence from which an event of the run has computed the report. Before
the first report there is no such event. -/
inductive Publishes (config : FabricConfig) (events : List Event) (id : EnsembleId)
    (e : EnsembleRecord) (x : ExecutionRecord) (inspected : QuorumReport) : Prop
  | unreported (none : x.quorum = {})
      (stored : SelfConsistent e.spec.quorum (quorumMembers e x) 0 x.quorum
        ↔ ¬ AsksNothing e.spec.quorum)
      (shown : SelfConsistent e.spec.quorum (quorumMembers e x) 0 inspected
        ↔ x.evaluations.length = 0 ∧ ¬ AsksNothing e.spec.quorum)
  | reported {before event e₀ x₀} (among : before ++ [event] <+: events)
      (computed : ReportsFrom ((System.initial config).run before) event id e₀ x₀)
      (of : ReportOf e x e₀ x₀)
      (stored : SelfConsistent e.spec.quorum (quorumMembers e₀ x₀) (distinctVotes x₀) x.quorum
        ↔ VotesApart x₀)
      (shown : SelfConsistent e.spec.quorum (quorumMembers e₀ x₀) (distinctVotes x₀) inspected
        ↔ x.evaluations.length = distinctVotes x₀)

theorem Reported.publishes {config : FabricConfig} {events : List Event} {id : EnsembleId}
    {e : EnsembleRecord} {x : ExecutionRecord} (h : Reported config events id e x) :
    Publishes config events id e x (inspectedQuorum x) := by
  rcases h with hnone | ⟨before, event, e₀, x₀, hamong, hcomputed, hof⟩
  · refine .unreported hnone ?_ ?_
    · rw [hnone]
      have hzero := unreported_consistent_iff e.spec.quorum (quorumMembers e x) 0
      simpa only [true_and] using hzero
    · rw [inspectedQuorum, hnone]
      exact unreported_consistent_iff e.spec.quorum (quorumMembers e x) x.evaluations.length
  · have hcount := fun count => selfConsistent_iff e₀.spec.quorum (quorumMembers e₀ x₀)
      (eligibleVotes x₀) (validCandidates x₀) e₀.spec.generation x₀.coordinatorEpoch
      ⟨x₀.reportGeneration + 1⟩ count
    refine .reported hamong hcomputed hof ?_ ?_
    · rw [hof.quorum, ← hof.policy, ← votesApart_iff]
      exact hcount (eligibleVotes x₀).length
    · rw [inspectedQuorum, hof.quorum, ← hof.policy]
      exact hcount x.evaluations.length

/-- In every reachable state, the quorum report stored on an execution, the one
an inspection answers and the one a preparation without a stored result puts
into its result are consistent in themselves if and only if the number of
evaluations they state is the number of distinct votes they were decided on;
before the first report, if and only if the policy asks for anything. -/
theorem published_quorum_iff (config : FabricConfig) (events : List Event) (id : EnsembleId)
    (e : EnsembleRecord) (x : ExecutionRecord)
    (hfind : ((System.initial config).run events).fabric.find id = some e)
    (hexecution : e.execution = some x) :
    (∀ snapshot, inspect ((System.initial config).run events).fabric id = .ok snapshot →
        Publishes config events id e x snapshot.quorum)
      ∧ ∀ generation r, x.result = none →
        (prepareResult ((System.initial config).run events).fabric id generation).2 = .ok r →
        (SelfConsistent e.spec.quorum (quorumMembers e x) (distinctVotes x) r.quorum
          ↔ VotesApart x) := by
  constructor
  · intro snapshot hinspect
    rw [inspect_quorum hinspect hfind hexecution]
    exact (reachable_reported config events hfind hexecution).publishes
  · intro generation r hundecided hprepared
    have hdecide := prepareResult_decides hprepared hfind hexecution hundecided
    rw [decideResult_quorum hdecide, ← votesApart_iff]
    exact selfConsistent_iff e.spec.quorum (quorumMembers e x) (eligibleVotes x)
      (validCandidates x) e.spec.generation x.coordinatorEpoch ⟨x.reportGeneration + 1⟩
      (eligibleVotes x).length

namespace Sample

/-- Two evaluations are asked for. -/
def pollSpec : EnsembleSpec := { criteriaSpec with quorum := { minEvaluations := 2 } }

/-- The judge has answered the first criterion, and a report counted it. -/
def polledOnce : List Event :=
  start pollSpec ++ [content 1 1 [7], advance, judge 2 1 1 1 .accept, advance]

/-- The judge has answered both criteria. -/
def polledTwice : List Event :=
  start pollSpec ++
    [content 1 1 [7], advance, judge 2 1 1 1 .accept, judge 2 1 2 2 .accept, advance]

end Sample

/-- The reports of a run with one vote. The inspection publishes the stored report,
and the prepared one is consistent as long as no two votes are one judge's. -/
theorem polledOnce_published : ∃ e x, Sample.ensemble Sample.polledOnce = some e
    ∧ e.execution = some x
    ∧ (∀ snapshot, inspect (Sample.reached Sample.polledOnce).fabric ⟨1⟩ = .ok snapshot →
        Publishes {} Sample.polledOnce ⟨1⟩ e x snapshot.quorum)
    ∧ ∀ generation r, x.result = none →
      (prepareResult (Sample.reached Sample.polledOnce).fabric ⟨1⟩ generation).2 = .ok r →
      (SelfConsistent e.spec.quorum (quorumMembers e x) (distinctVotes x) r.quorum
        ↔ VotesApart x) := by
  have hopen : (Sample.ensemble Sample.polledOnce).any (·.execution.isSome) = true := by
    decide +kernel
  simp only [Option.any_eq_true, Option.isSome_iff_exists] at hopen
  obtain ⟨e, hfind, x, hexecution⟩ := hopen
  exact ⟨e, x, hfind, hexecution,
    published_quorum_iff {} Sample.polledOnce ⟨1⟩ e x hfind hexecution⟩

/-- Two evaluations of one judge are one vote: the stored report states two
evaluations, as many as the policy asks for, and was decided on one. Every
field meets the policy, and the quorum is not reached. -/
theorem polledTwice_inconsistent : ∃ e x, Sample.ensemble Sample.polledTwice = some e
    ∧ e.execution = some x ∧ x.quorum.state = .notReached ∧ x.quorum.evaluations = 2
    ∧ distinctVotes x = 1 ∧ FieldsMeet e.spec.quorum x.quorum
    ∧ QuotasAchievable e.spec.quorum (quorumMembers e x) := by
  have hstored : (Sample.ensemble Sample.polledTwice).any (fun e => e.execution.any fun x =>
      decide (x.quorum.state = .notReached) && decide (x.quorum.evaluations = 2)
        && decide (distinctVotes x = 1)
        && decide (e.spec.quorum.minParticipants.toNat ≤ x.quorum.denominator)
        && decide (x.quorum.roleQuotaMet = e.spec.quorum.roleQuota.length)
        && decide (e.spec.quorum.minEvaluations.toNat ≤ x.quorum.evaluations)
        && decide (e.spec.quorum.minValidCandidates.toNat ≤ x.quorum.validCandidates)
        && decide (x.quorum.failureBudgetExceeded = false)
        && decide (x.quorum.abstentionBudgetExceeded = false)
        && decide (e.spec.quorum.roleQuota = [])) = true := by
    decide +kernel
  simp only [Option.any_eq_true, Bool.and_eq_true, decide_eq_true_eq, and_assoc] at hstored
  obtain ⟨e, hfind, x, hexecution, hstate, hcount, hdistinct, hparticipants, hroles, hevaluations,
    hcandidates, hfailures, habstentions, hquota⟩ := hstored
  refine ⟨e, x, hfind, hexecution, hstate, hcount, hdistinct, ⟨hparticipants, hroles,
    hevaluations, hcandidates, hfailures, habstentions⟩, ?_⟩
  rw [QuotasAchievable, hquota]
  exact List.forall_mem_nil _

end EnsembleFabric
