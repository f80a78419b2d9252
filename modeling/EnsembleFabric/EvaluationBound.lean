import EnsembleFabric.Refinement.Runs

/-!
# Bounds on evaluations

Two limits bound the evaluations of an execution: one for the execution and
one for each of its candidates. Both are validated and configured, and the
runtime reads neither: evaluations are planned as a product of candidates,
evaluators and criteria, and every planned one that is answered is recorded.
Only the decoder of a saved state asks how many there are.

Evaluations are never dropped, so a bound is broken by the submission that
arrives when it is met (`evaluation_bounds_iff`).

The proof is an instance of the refinement by views: `roomScope` admits the
steps that record an evaluation where there is room, the bounds are kept by
each of them (`evaluationsFit_append_iff`), and a run all of whose accepted
evaluations find room stays within the scope. The converse reads one step
backwards: if the bounds hold after a submission, it found room.

The counterexample has limits of one evaluation, a candidate and two judges,
both of whom answer.
-/

namespace EnsembleFabric

open EventSystem

/-! ## Room for evaluations -/

/-- The evaluations on record about a candidate. -/
def ExecutionRecord.evaluationsOf (x : ExecutionRecord) (id : CandidateId) : Nat :=
  x.evaluations.countP (·.candidate == id)

/-- The evaluations of an execution keep to the limits. -/
structure EvaluationsFit (limits : Limits) (x : ExecutionRecord) : Prop where
  execution : x.evaluations.length ≤ limits.maxEvaluationsPerExecution.toNat
  candidate : ∀ id, x.evaluationsOf id ≤ limits.maxEvaluationsPerCandidate.toNat

/-- The limits leave room for one more evaluation of a candidate. -/
structure EvaluationRoom (limits : Limits) (x : ExecutionRecord) (id : CandidateId) : Prop where
  execution : x.evaluations.length < limits.maxEvaluationsPerExecution.toNat
  candidate : x.evaluationsOf id < limits.maxEvaluationsPerCandidate.toNat

theorem evaluationsFit_of_nil (limits : Limits) {x : ExecutionRecord} (h : x.evaluations = []) :
    EvaluationsFit limits x := by
  refine ⟨by rw [h]; exact Nat.zero_le _, fun id => ?_⟩
  rw [ExecutionRecord.evaluationsOf, h]
  exact Nat.zero_le _

/-- Evaluations that are marked stay as many, and about the same candidates. -/
theorem EvaluationsFit.marked {limits : Limits} {x x' : ExecutionRecord}
    (h : EvaluationsFit limits x) (mark : EvaluationRecord → EvaluationRecord)
    (hmark : ∀ r, (mark r).candidate = r.candidate)
    (hevaluations : x'.evaluations = x.evaluations.map mark) : EvaluationsFit limits x' := by
  refine ⟨by rw [hevaluations, List.length_map]; exact h.execution, fun id => ?_⟩
  have hsame : x'.evaluationsOf id = x.evaluationsOf id := by
    rw [ExecutionRecord.evaluationsOf, hevaluations, List.countP_map]
    exact List.countP_congr fun r _ => by rw [Function.comp_apply, hmark]
  rw [hsame]
  exact h.candidate id

theorem EvaluationsFit.kept {limits : Limits} {x x' : ExecutionRecord}
    (h : EvaluationsFit limits x) (hevaluations : x'.evaluations = x.evaluations) :
    EvaluationsFit limits x' :=
  h.marked id (fun _ => rfl) (by rw [List.map_id, hevaluations])

theorem ExecutionRecord.evaluationsOf_append {x x' : ExecutionRecord} {r : EvaluationRecord}
    (h : x'.evaluations = x.evaluations ++ [r]) (id : CandidateId) :
    x'.evaluationsOf id = x.evaluationsOf id + if r.candidate == id then 1 else 0 := by
  rw [evaluationsOf, h, List.countP_append, List.countP_singleton]
  rfl

/-- One more evaluation fits exactly where there is room for it. -/
theorem evaluationsFit_append_iff {limits : Limits} {x x' : ExecutionRecord}
    {r : EvaluationRecord} (hx : EvaluationsFit limits x)
    (h : x'.evaluations = x.evaluations ++ [r]) :
    EvaluationsFit limits x' ↔ EvaluationRoom limits x r.candidate := by
  have hlength : x'.evaluations.length = x.evaluations.length + 1 := by
    rw [h, List.length_append, List.length_singleton]
  constructor
  · intro hfit
    have hcount := hfit.candidate r.candidate
    rw [ExecutionRecord.evaluationsOf_append h, beq_self_eq_true, if_pos rfl] at hcount
    have htotal := hfit.execution
    exact ⟨by omega, hcount⟩
  · intro hroom
    have htotal := hroom.execution
    refine ⟨by omega, fun id => ?_⟩
    rw [ExecutionRecord.evaluationsOf_append h]
    split
    · rename_i hsame
      rw [← eq_of_beq hsame]
      exact hroom.candidate
    · exact hx.candidate id

/-! ## Steps -/

/-- A scope that records evaluations where there is room. -/
def roomScope (config : FabricConfig) : Scope :=
  runScope config fun _ x r => EvaluationRoom config.limits x r.candidate

theorem supersedeCandidateEvidence_fit {limits : Limits} {x : ExecutionRecord}
    (h : EvaluationsFit limits x) (id : CandidateId) :
    EvaluationsFit limits (supersedeCandidateEvidence x id) :=
  h.marked _ (fun r => by split <;> rfl) rfl

theorem ExecutionStep.evaluationsFit {config : FabricConfig} {e : EnsembleRecord}
    {x x' : ExecutionRecord} (h : ExecutionStep (roomScope config) e x x')
    (hx : EvaluationsFit config.limits x) : EvaluationsFit config.limits x' := by
  cases h with
  | bookkeeping same => exact hx.kept same.evaluations
  | cancel _ same => exact hx.kept same.evaluations
  | candidates | pendings | close => exact hx.kept rfl
  | @drop index c c' | @rewind index c c' =>
    have hset : EvaluationsFit config.limits
        { x with candidates := x.candidates.set index c' } := hx.kept rfl
    exact supersedeCandidateEvidence_fit hset _
  | evaluate _ _ _ admitted => exact (evaluationsFit_append_iff hx rfl).mpr admitted
  | expire => exact hx.marked (fun r => { r with current := false }) (fun _ => rfl) rfl
  | commit => exact hx.kept (storeResult_evaluations ..)

def ViewEvaluationsFit (limits : Limits) (v : View) : Prop :=
  ∀ e x, v.entry = some e → e.execution = some x → EvaluationsFit limits x

theorem Move.evaluationsFit {config : FabricConfig} {v v' : View}
    (h : Move (roomScope config) v v') (hv : ViewEvaluationsFit config.limits v) :
    ViewEvaluationsFit config.limits v' := by
  cases h with
  | tick => exact hv
  | define | redefine =>
    rintro _ x ⟨⟩ hx
    cases hx
  | supersede | seats =>
    rintro _ x ⟨⟩ hx
    exact hv _ x rfl hx
  | openFirst | openNext =>
    rintro _ x ⟨⟩ hx
    obtain rfl := Option.some.inj hx
    exact evaluationsFit_of_nil _ rfl
  | work before step =>
    rintro _ x ⟨⟩ hx
    obtain rfl := Option.some.inj hx
    exact step.evaluationsFit (hv _ _ rfl before)
  | declare before | plan before =>
    rintro _ x ⟨⟩ hx
    obtain rfl := Option.some.inj hx
    exact (hv _ _ rfl before).kept rfl

/-! ## Runs -/

/-- An evaluation that is accepted finds room under both limits. -/
def FindsRoom (s : System) : Event → Prop
  | .submitEvaluation r => ∀ site, acceptEvaluation s.fabric r = .ok site →
      EvaluationRoom s.fabric.config.limits site.execution r.authority.candidate
  | _ => True

/-- Every execution of the runtime keeps to its limits. -/
def AllEvaluationsFit (s : System) : Prop :=
  ∀ id e x, s.fabric.find id = some e → e.execution = some x →
    EvaluationsFit s.fabric.config.limits x

theorem submitEvaluation_stores {f : Fabric} {r : EvaluationSubmission} {site : EvaluationSite}
    (h : acceptEvaluation f r = .ok site) :
    (submitEvaluation f r).1.find r.authority.evaluator.ensemble
      = some ((site.seat.write { site.seat.participant with
          evaluationsSubmitted := site.seat.participant.evaluationsSubmitted + 1 }).holding
        (evaluatedExecution site (acceptedRecord f r site))) := by
  rw [submitEvaluation, h]
  exact Fabric.find_store_self ..

/-- A submission after which the limits are kept found room. -/
theorem findsRoom_of_fit {s : System} {event : Event} (hbefore : AllEvaluationsFit s)
    (hafter : AllEvaluationsFit (s.next event)) : FindsRoom s event := by
  cases event with
  | submitEvaluation r =>
    intro site haccept
    have haccepted := acceptEvaluation_eq_ok haccept
    have hconfig : (s.next (.submitEvaluation r)).fabric.config = s.fabric.config := by
      change (submitEvaluation s.fabric r).1.config = _
      rw [submitEvaluation, haccept]
      rfl
    have hfit := hafter _ _ _ (submitEvaluation_stores haccept) rfl
    rw [hconfig] at hfit
    exact (evaluationsFit_append_iff (hbefore _ _ _ haccepted.ensemble haccepted.execution)
      rfl).mp hfit
  | _ => trivial

theorem FindsRoom.allows {config : FabricConfig} {s : System} {event : Event}
    (hconfig : s.fabric.config = config) (h : FindsRoom s event) :
    Allows (roomScope config) s event := by
  cases event with
  | submitEvaluation r =>
    intro site haccept
    have hroom := h site haccept
    rw [hconfig] at hroom
    exact hroom
  | _ => trivial

/-- A run that records where there is room keeps the bounds. -/
theorem reachable_evaluationsFit (config : FabricConfig) {events : List Event}
    (h : Along System.next FindsRoom (System.initial config) events) :
    AllEvaluationsFit ((System.initial config).run events) := by
  have hallows : Along System.next (Allows (roomScope config)) (System.initial config) events :=
    along_iff.mpr fun before event hprefix =>
      (along_iff.mp h before event hprefix).allows (reachable_named config before).1
  intro id e x he hx
  rw [(reachable_named config events).1]
  exact reachable_view Move.evaluationsFit (fun hv => hv) (by rintro _ _ ⟨⟩) hallows id e x he hx

/-- In every run, the executions keep both bounds on evaluations in every
state of the run if and only if no evaluation is accepted when the execution,
or the candidate it is about, has as many as its limit. -/
theorem evaluation_bounds_iff (config : FabricConfig) (events : List Event) :
    (∀ before, before <+: events → AllEvaluationsFit ((System.initial config).run before))
      ↔ Along System.next FindsRoom (System.initial config) events := by
  constructor
  · intro h
    rw [along_iff]
    intro before event hprefix
    have hafter := h (before ++ [event]) hprefix
    unfold System.run at hafter
    rw [run_append] at hafter
    exact findsRoom_of_fit (h before ((List.prefix_append ..).trans hprefix)) hafter
  · rintro h before ⟨rest, rfl⟩
    exact reachable_evaluationsFit config (along_append.mp h).1

namespace Sample

/-- Limits that allow one evaluation. -/
def oneEvaluation : Limits where
  maxEvaluationsPerCandidate := 1
  maxEvaluationsPerExecution := 1

/-- A candidate and two judges. -/
def twoJudgesSpec : EnsembleSpec where
  id := ⟨1⟩
  generation := ⟨1⟩
  participants := [participant 1 candidateRole, participant 2 judgeRole, participant 3 judgeRole]

/-- Both judges answer what they were asked. -/
def bothJudgesAnswer : List Event :=
  start twoJudgesSpec ++ [content 1 1 [7], advance, judge 2 1 1 1 .accept, judge 3 1 2 1 .accept]

/-- The evaluations on record, and those about candidate 1. -/
def evaluationCounts (config : FabricConfig) (events : List Event) : Option (Nat × Nat) :=
  (((System.initial config).run events).fabric.find ⟨1⟩).bind fun e =>
    e.execution.map fun x => (x.evaluations.length, x.evaluationsOf ⟨1⟩)

end Sample

/-- Two evaluations of one candidate under valid limits that allow one. -/
theorem evaluation_bounds_exceeded :
    Sample.oneEvaluation.validate = .ok ()
      ∧ Sample.evaluationCounts { limits := Sample.oneEvaluation } Sample.bothJudgesAnswer
        = some (2, 2)
      ∧ ¬ AllEvaluationsFit ((System.initial { limits := Sample.oneEvaluation }).run
        Sample.bothJudgesAnswer) := by
  have hcounts : Sample.evaluationCounts { limits := Sample.oneEvaluation } Sample.bothJudgesAnswer
      = some (2, 2) := by decide +kernel
  refine ⟨by decide +kernel, hcounts, fun hfits => ?_⟩
  obtain ⟨e, he, hx⟩ := Option.bind_eq_some_iff.mp hcounts
  obtain ⟨x, hx, hlength⟩ := Option.map_eq_some_iff.mp hx
  have hfit := (hfits ⟨1⟩ e x he hx).execution
  rw [(Prod.mk.inj hlength).1, (reachable_named _ _).1] at hfit
  exact absurd hfit (by decide)

end EnsembleFabric
