import EnsembleFabric.Terminal

/-!
# Evidence for closed executions

The fences of the four submissions look at identities, generations and
slots, never at the status of the execution. A closed execution takes no
evidence exactly when it holds no slot that a submission could still fill:
no dispatched candidate and no open evaluation plan whose participant is
authoritative. `takesEvidence` is that condition on the records.

The proof is in two halves, one for each direction. What the fences let in
fills such a slot: a candidate authority that is located is the one of the
seat (`Fenced.eq_slotAuthority`), and an accepted evaluation answers a plan
that takes one (`acceptEvaluation_takesAnswer`). And each such slot is
filled by some submission: an abstention under the authority of the slot
(`accepts_of_takesOutput`), or the plain answer to the plan, which says
nothing and has a rationale where one is demanded
(`accepts_of_takesAnswer`).

The status of the execution occurs in neither half, so the equivalence
holds for open executions, too; closed ones are the case of interest. After
a cancellation it is the next advance that withdraws the candidates in
flight, and until then the cancelled execution takes their content
(`cancelled_takes_content`).
-/

namespace EnsembleFabric

open Checks

/-! ## Standing authorities -/

section Standing

variable (k : Core) (e : EnsembleRecord) (x : ExecutionRecord) (p : ParticipantRecord)

/-- The authority the incarnation in a seat acts under. -/
def seatAuthority : ParticipantAuthority where
  ensemble := e.spec.id
  ensembleGeneration := e.spec.generation
  participant := p.id
  participantGeneration := p.generation
  worker := p.worker
  workerBoot := p.workerBoot
  coordinatorEpoch := k.epoch

def slotAuthority (c : CandidateRecord) : CandidateAuthority where
  participant := seatAuthority k e p
  execution := x.id
  attemptGeneration := x.attemptGeneration
  candidate := c.id
  candidateGeneration := c.generation

def planAuthority (plan : PendingEvaluation) : EvaluationAuthority where
  evaluator := seatAuthority k e p
  execution := x.id
  attemptGeneration := x.attemptGeneration
  evaluation := plan.id
  evaluationGeneration := plan.generation
  candidate := plan.candidate
  candidateGeneration := plan.candidateGeneration

end Standing

/-! ## Slots that take evidence -/

/-- A dispatched candidate whose participant is authoritative. -/
def takesOutput (k : Core) (e : EnsembleRecord) (x : ExecutionRecord) (c : CandidateRecord) :
    Bool :=
  c.state == .dispatched && (e.participant? c.participant).any fun p =>
    p.authoritative k.epoch && (slotAuthority k e x p c).validate.isOk

/-- An evaluation of this evaluator generation is on record for the plan. -/
def onRecord (x : ExecutionRecord) (p : ParticipantRecord) (plan : PendingEvaluation) : Bool :=
  x.evaluations.any fun r => r.evaluator == p.id && r.evaluatorGeneration == p.generation
    && r.criterion == plan.criterion && r.candidate == plan.candidate

/-- The participant is authoritative and may give the kind of evidence the
plan asks for. -/
def mayAnswer (k : Core) (e : EnsembleRecord) (x : ExecutionRecord) (p : ParticipantRecord)
    (plan : PendingEvaluation) : Bool :=
  p.authoritative k.epoch
    && (p.declaration.roles.contains .judge || p.declaration.roles.contains .verifier)
    && (p.declaration.roles.contains .verifier == (plan.kind == .hardPredicate))
    && !onRecord x p plan && (planAuthority k e x p plan).validate.isOk

/-- An open plan about standing content whose evaluator may answer it. -/
def takesAnswer (limits : Limits) (k : Core) (e : EnsembleRecord) (x : ExecutionRecord)
    (plan : PendingEvaluation) : Bool :=
  !plan.answered && !plan.abandoned
    && ((x.candidate? plan.candidate).any fun c =>
      c.generation == plan.candidateGeneration && isContentState c.state)
    && ((e.participant? plan.evaluator).any fun p => mayAnswer k e x p plan)
    && (!e.spec.evidence.requireRationale || decide (0 < limits.maxMetadataBytes.toNat))

/-- Some slot of the execution takes evidence. The condition is read off the
records before a submission and does not mention the submission. -/
def takesEvidence (limits : Limits) (k : Core) (e : EnsembleRecord) (x : ExecutionRecord) :
    Bool :=
  x.candidates.any (takesOutput k e x) || x.pending.any (takesAnswer limits k e x)

/-! ## What the fences let in -/

theorem isOk_iff {status : Status} : status.isOk = true ↔ status = .ok () := by
  cases status <;> simp [Except.isOk, Except.toBool]

/-- A candidate authority that is let in is the one of the seat. -/
theorem Fenced.eq_slotAuthority {f : Fabric} {a : CandidateAuthority} {e : EnsembleRecord}
    {x : ExecutionRecord} {p : ParticipantRecord} {c : CandidateRecord}
    (h : Fenced (f.view a.participant.ensemble) a e x p c)
    (hid : e.spec.id = a.participant.ensemble) : a = slotAuthority f.core e x p c := by
  have hp : p.id = a.participant.participant := by simpa using List.find?_some h.participant
  have hc : c.id = a.candidate := by simpa using List.find?_some h.candidate
  obtain ⟨⟨_, _, _, _, _, _, _⟩, _, _, _, _⟩ := a
  have hepoch := h.epoch
  have hgen := h.generation
  have hpgen := h.participantGeneration
  have hworker := h.worker
  have hboot := h.workerBoot
  have hxid := h.executionId
  have hattempt := h.attempt
  have hcgen := h.candidateGeneration
  simp_all [slotAuthority, seatAuthority, Fabric.view]

theorem LocatedAt.takesOutput {f : Fabric} {a : CandidateAuthority} {l : Located}
    (h : LocatedAt f a l) (hnamed : Named f) (hstate : l.candidate.state = .dispatched) :
    takesOutput f.core l.seat.ensemble l.execution l.candidate = true := by
  have hid := hnamed _ _ h.fenced.ensemble
  have hauthority := h.fenced.eq_slotAuthority hid
  have hvalid := h.fenced.valid
  rw [hauthority] at hvalid
  have hp : l.seat.ensemble.participant? l.candidate.participant = some l.seat.participant := by
    rw [h.fenced.owner, h.seat.id]
    exact h.fenced.participant
  have hauthoritative : l.seat.participant.authoritative f.core.epoch = true :=
    h.fenced.authoritative
  simp [EnsembleFabric.takesOutput, hstate, hp, hauthoritative, isOk_iff, hvalid]

/-- What a located evaluation was checked against, beyond its records. -/
theorem locateEvaluation_standing {f : Fabric} {a : EvaluationAuthority} {site : EvaluationSite}
    (h : locateEvaluation f a = .ok site) (hnamed : Named f) :
    a = { planAuthority f.core site.seat.ensemble site.execution site.seat.participant site.pending
          with candidate := a.candidate, candidateGeneration := a.candidateGeneration }
      ∧ a.validate = .ok ()
      ∧ (site.seat.participant.declaration.roles.contains .judge
        || site.seat.participant.declaration.roles.contains .verifier) = true := by
  simp only [locateEvaluation, bind_eq_ok, demand_eq_ok, located_eq_ok, uncounted_eq_ok,
    pure_eq_ok, executionNamed_eq_some, beq_iff_eq, Bool.and_eq_true, Bool.not_eq_true'] at h
  obtain ⟨_, hvalid, _, hepoch, e, he, _, hgen, x, ⟨hx, hxid⟩, _, hattempt, seat, hseat, _, hpgen,
    _, ⟨hworker, hboot⟩, _, hauth, _, ⟨-, hroles⟩, ⟨index, c⟩, hc, _, hcgen, _, hcontent,
    ⟨pendingIndex, pending⟩, hpending, _, hplan, _, hanswered, _, habandoned, rfl⟩ := h
  have hat := seat?_eq_some hseat
  obtain ⟨-, hfirst⟩ := pendingAt?_eq_some hpending
  have hp : pending.id = a.evaluation := by simpa using List.find?_some hfirst
  have hid := hnamed _ _ he
  have hensemble := hat.ensemble
  have hparticipant := hat.id
  refine ⟨?_, hvalid, hroles⟩
  obtain ⟨⟨_, _, _, _, _, _, _⟩, _, _, _, _, _, _⟩ := a
  simp_all [planAuthority, seatAuthority]

theorem nonempty_length {s : String} : s.isEmpty = false → 0 < s.length := by
  intro h
  rw [Nat.pos_iff_ne_zero, Ne, String.length_eq_zero_iff]
  rintro rfl
  cases h

/-- A rationale that was demanded and fits the bound leaves room for one. -/
theorem checkSubmission_rationale {limits : Limits} {site : EvaluationSite}
    {s : EvaluationSubmission} (h : checkSubmission limits site s = .ok ()) :
    (!site.seat.ensemble.spec.evidence.requireRationale
      || decide (0 < limits.maxMetadataBytes.toNat)) = true := by
  simp only [checkSubmission, bind_eq_ok, require_eq_ok] at h
  obtain ⟨_, -, _, -, _, -, _, -, _, hlength, _, hrequired, -⟩ := h
  cases hdemanded : site.seat.ensemble.spec.evidence.requireRationale with
  | false => rfl
  | true =>
    rw [hdemanded] at hrequired
    have hpos := nonempty_length (by simpa using hrequired)
    have hfits : s.rationale.length ≤ limits.maxMetadataBytes.toNat := by simpa using hlength
    simp
    omega

/-- The plan an accepted evaluation answers takes one. -/
theorem acceptEvaluation_takesAnswer {f : Fabric} {s : EvaluationSubmission}
    {site : EvaluationSite} (h : acceptEvaluation f s = .ok site) (hnamed : Named f) :
    takesAnswer f.config.limits f.core site.seat.ensemble site.execution site.pending = true := by
  have haccepted := acceptEvaluation_eq_ok h
  simp only [acceptEvaluation, bind_eq_ok, uncounted_eq_ok, pure_eq_ok] at h
  obtain ⟨site', hlocate, _, hcheck, _, -, rfl⟩ := h
  obtain ⟨hauthority, hvalid, hroles⟩ := locateEvaluation_standing hlocate hnamed
  have hrationale := checkSubmission_rationale hcheck
  have hseat : site'.seat.ensemble.participant? site'.pending.evaluator
      = some site'.seat.participant := by
    rw [haccepted.evaluatorTarget]
    exact haccepted.seat.first
  have hcandidate : site'.execution.candidate? site'.pending.candidate = some site'.candidate := by
    rw [haccepted.candidateTarget]
    exact haccepted.candidate
  have hgeneration : site'.candidate.generation = site'.pending.candidateGeneration :=
    haccepted.candidateGeneration.trans haccepted.generationTarget.symm
  have hkind : (site'.seat.participant.declaration.roles.contains .verifier
      == (site'.pending.kind == .hardPredicate)) = true := by
    rw [haccepted.kind, beq_iff_eq, Bool.eq_iff_iff, beq_iff_eq]
    exact haccepted.verifier.symm
  have hrecord : onRecord site'.execution site'.seat.participant site'.pending = false := by
    have hnone := List.find?_eq_none.mp haccepted.unrecorded
    rw [onRecord, List.any_eq_false]
    intro r hr
    have hr' := hnone r hr
    rwa [sameEvaluation, ← haccepted.seat.id, ← haccepted.participantGeneration,
      ← haccepted.criterion, ← haccepted.candidateTarget] at hr'
  have hstanding : (planAuthority f.core site'.seat.ensemble site'.execution
      site'.seat.participant site'.pending).validate = .ok () := by
    rw [hauthority] at hvalid
    rw [← haccepted.candidateTarget, ← haccepted.generationTarget] at hvalid
    exact hvalid
  rw [takesAnswer, hseat, hcandidate]
  simp [haccepted.unanswered, haccepted.kept, hgeneration, haccepted.content, mayAnswer,
    haccepted.authoritative, hrecord, isOk_iff, hstanding, hkind, hroles, hrationale]

/-! ## What a slot lets in -/

/-- An abstention for a slot that takes output is accepted. -/
theorem accepts_of_takesOutput {f : Fabric} {e : EnsembleRecord} {x : ExecutionRecord}
    {c : CandidateRecord} (hnumbered : Numbered (f.view e.spec.id))
    (he : f.find e.spec.id = some e) (hx : e.execution = some x) (hc : c ∈ x.candidates)
    (h : takesOutput f.core e x c = true) :
    ∃ p l, e.participant? c.participant = some p
      ∧ acceptCandidate f (slotAuthority f.core e x p c) = .ok l ∧ l.execution = x := by
  simp only [takesOutput, Bool.and_eq_true, beq_iff_eq, Option.any_eq_true, isOk_iff] at h
  obtain ⟨hstate, p, hp, hauthoritative, hvalid⟩ := h
  have hpid : p.id = c.participant := by simpa using List.find?_some hp
  have hseat : e.participant? p.id = some p := hpid ▸ hp
  have hfenced : Fenced (f.view e.spec.id) (slotAuthority f.core e x p c) e x p c :=
    ⟨hvalid, rfl, he, rfl, hx, rfl, rfl, hseat, rfl, rfl, rfl, hauthoritative,
      hnumbered.candidate? he hx hc, rfl, hpid.symm⟩
  obtain ⟨l, hl, hcandidate⟩ :=
    locateCandidate_of_fenced (a := slotAuthority f.core e x p c) hfenced
  refine ⟨p, l, hp, ?_, ?_⟩
  · simp [acceptCandidate, hl, hcandidate, hstate, bind, Except.bind, pure, Except.pure]
  · have hlocated := locateCandidate_eq_ok hl
    have hsame : f.find e.spec.id = some l.seat.ensemble := hlocated.fenced.ensemble
    obtain rfl := Option.some.inj (he.symm.trans hsame)
    exact Option.some.inj (hlocated.fenced.execution.symm.trans hx)

/-- A planned evaluation of the execution is found under its identity. -/
theorem Numbered.pendingAt? {v : View} {e : EnsembleRecord} {x : ExecutionRecord}
    (h : Numbered v) (he : v.entry = some e) (hx : e.execution = some x) {plan : PendingEvaluation}
    (hplan : plan ∈ x.pending) : ∃ index, x.pendingAt? plan.id = some (index, plan) := by
  have hdistinct := h.pending.distinct
  rw [View.pendingIds_of he hx] at hdistinct
  have hfind : x.pending.find? (fun p => p.id == plan.id) = some plan :=
    Slots.find?_of_nodup hdistinct hplan
  obtain ⟨index, hindex, hget⟩ := Slots.findIdx?_of_find? hfind
  exact ⟨index, by simp [ExecutionRecord.pendingAt?, ExecutionRecord.findPending, hindex, hget]⟩

/-- An answer to a plan that says nothing, with a rationale where one is
demanded. Its authority is that of the seat, so nothing can be wrong with it. -/
def plainAnswer (k : Core) (e : EnsembleRecord) (x : ExecutionRecord) (p : ParticipantRecord)
    (plan : PendingEvaluation) : EvaluationSubmission where
  authority := planAuthority k e x p plan
  criterion := plan.criterion
  kind := plan.kind
  rationale := if e.spec.evidence.requireRationale then "-" else ""

theorem plainAnswer_checked {limits : Limits} {k : Core} {site : EvaluationSite}
    (hid : site.seat.participant.id = site.pending.evaluator)
    (hkind : site.seat.participant.declaration.roles.contains .verifier
      = (site.pending.kind == .hardPredicate))
    (hrationale : (!site.seat.ensemble.spec.evidence.requireRationale
      || decide (0 < limits.maxMetadataBytes.toNat)) = true) :
    checkSubmission limits site (plainAnswer k site.seat.ensemble site.execution
      site.seat.participant site.pending) = .ok () := by
  simp only [checkSubmission, bind_eq_ok, require_eq_ok, plainAnswer, planAuthority, seatAuthority]
  refine ⟨(), by simp [hid], (), ?_, (), ?_, (), by simp, (), ?_, (), ?_, (), rfl, by decide⟩
  · rw [hkind]
    cases site.pending.kind <;> rfl
  · rw [hkind]
    cases site.pending.kind <;> rfl
  · split
    · rename_i hdemanded
      have hpos : 0 < limits.maxMetadataBytes.toNat := by simpa [hdemanded] using hrationale
      rw [decide_eq_true_eq]
      exact hpos
    · simp
  · cases site.seat.ensemble.spec.evidence.requireRationale <;> rfl

/-- A plan that takes an answer takes every one its evaluator is entitled to
and that passes the checks. -/
theorem accepts_of_checked {f : Fabric} {e : EnsembleRecord} {x : ExecutionRecord}
    {plan : PendingEvaluation} (hnumbered : Numbered (f.view e.spec.id))
    (he : f.find e.spec.id = some e) (hx : e.execution = some x) (hplan : plan ∈ x.pending)
    (h : takesAnswer f.config.limits f.core e x plan = true) :
    ∃ site, e.participant? plan.evaluator = some site.seat.participant
      ∧ site.seat.ensemble = e ∧ site.execution = x ∧ site.pending = plan
      ∧ ∀ r : EvaluationSubmission,
        r.authority = planAuthority f.core e x site.seat.participant plan →
        r.criterion = plan.criterion →
        checkSubmission f.config.limits site r = .ok () → acceptEvaluation f r = .ok site := by
  simp only [takesAnswer, mayAnswer, Bool.and_eq_true, beq_iff_eq, Option.any_eq_true, isOk_iff,
    Bool.not_eq_true'] at h
  obtain ⟨⟨⟨⟨hanswered, habandoned⟩, c, hc, hcgen, hcontent⟩, p, hp,
    ⟨⟨⟨hauthoritative, hroles⟩, hkind⟩, hrecord⟩, hvalid⟩, hrationale⟩ := h
  have hpid : p.id = plan.evaluator := by simpa using List.find?_some hp
  obtain ⟨seat, hseat, rfl⟩ := seat?_isSome hp
  obtain ⟨index, hindex⟩ := candidateAt?_isSome hc
  obtain ⟨pendingIndex, hpending⟩ := hnumbered.pendingAt? he hx hplan
  have hat := seat?_eq_some hseat
  obtain rfl := hat.ensemble
  refine ⟨⟨seat, x, index, c, pendingIndex, plan⟩, hp, rfl, rfl, rfl, ?_⟩
  intro r hauthority hcriterion hchecked
  simp only [acceptEvaluation, bind_eq_ok, uncounted_eq_ok, pure_eq_ok]
  refine ⟨_, ?_, (), hchecked, (), ?_, rfl⟩
  · simp only [locateEvaluation, bind_eq_ok, demand_eq_ok, located_eq_ok, uncounted_eq_ok,
      pure_eq_ok, executionNamed_eq_some, beq_iff_eq, Bool.and_eq_true, Bool.not_eq_true',
      hauthority]
    rw [← hpid] at hseat
    exact ⟨(), hvalid, (), rfl, seat.ensemble, he, (), rfl, x, ⟨hx, rfl⟩, (), rfl, seat, hseat, (),
      rfl, (), ⟨rfl, rfl⟩, (), hauthoritative, (), ⟨by split <;> rfl, hroles⟩, (index, c), hindex,
      (), hcgen, (), hcontent, (pendingIndex, plan), hpending, (), rfl, (), hanswered, (),
      habandoned, rfl⟩
  · have hnone : x.evaluations.find? (sameEvaluation r) = none := by
      rw [List.find?_eq_none]
      rw [onRecord, List.any_eq_false] at hrecord
      intro record hmem
      rw [sameEvaluation, hauthority, hcriterion]
      exact hrecord record hmem
    simp only [checkUnrecorded, hnone]

/-- A plan that takes an answer takes the plain one. -/
theorem accepts_of_takesAnswer {f : Fabric} {e : EnsembleRecord} {x : ExecutionRecord}
    {plan : PendingEvaluation} (hnumbered : Numbered (f.view e.spec.id))
    (he : f.find e.spec.id = some e) (hx : e.execution = some x) (hplan : plan ∈ x.pending)
    (h : takesAnswer f.config.limits f.core e x plan = true) :
    ∃ p site, e.participant? plan.evaluator = some p
      ∧ acceptEvaluation f (plainAnswer f.core e x p plan) = .ok site
      ∧ site.execution = x ∧ site.seat.ensemble = e := by
  obtain ⟨site, hp, rfl, rfl, rfl, haccepts⟩ := accepts_of_checked hnumbered he hx hplan h
  have hpid : site.seat.participant.id = site.pending.evaluator := by
    simpa using List.find?_some hp
  simp only [takesAnswer, mayAnswer, Bool.and_eq_true, beq_iff_eq, hp, Option.any_some] at h
  obtain ⟨⟨-, ⟨⟨-, hkind⟩, -⟩, -⟩, hrationale⟩ := h
  exact ⟨_, site, hp, haccepts _ rfl rfl (plainAnswer_checked hpid hkind hrationale), rfl, rfl⟩

/-! ## Closed executions -/

/-- The event leaves the candidates and the evaluations of the execution as
they are. -/
def EvidenceKept (s : System) (event : Event) (id : EnsembleId) (x : ExecutionRecord) : Prop :=
  ∃ e' x', (s.next event).fabric.find id = some e' ∧ e'.execution = some x'
    ∧ x'.candidates = x.candidates ∧ x'.evaluations = x.evaluations

/-- A submission hands no value to the commit gate. -/
theorem submitted_of_submits {s : System} {event : Event} (h : event.submits = true) :
    s.submitted event = none := by
  cases event <;> first | rfl | cases h

/-- A submission invalidates nothing. -/
theorem invalidates_of_submits {s : System} {event : Event} (h : event.submits = true) :
    s.invalidates event = none := by
  cases event <;> first | rfl | cases h

/-- No submission adds evidence to an execution without a slot for it. -/
theorem evidenceKept_of_not_takes {s : System} {event : Event} {id : EnsembleId}
    {e : EnsembleRecord} {x : ExecutionRecord} (hnamed : Named s.fabric)
    (hsubmits : event.submits = true) (he : s.fabric.find id = some e)
    (hx : e.execution = some x)
    (h : takesEvidence s.fabric.config.limits s.fabric.core e x = false) :
    EvidenceKept s event id x := by
  rw [takesEvidence, Bool.or_eq_false_iff, List.any_eq_false, List.any_eq_false] at h
  obtain ⟨hcandidates, hpending⟩ := h
  -- a submission that is let in is not about this execution
  have hslot : ∀ {a l}, acceptCandidate s.fabric a = .ok l → l.seat.ensemble ≠ e := by
    rintro a l haccept rfl
    obtain ⟨hlocated, hstate⟩ := acceptCandidate_eq_ok haccept
    obtain rfl := Option.some.inj (hlocated.fenced.execution.symm.trans hx)
    exact hcandidates _ (List.mem_of_getElem? hlocated.at_) (hlocated.takesOutput hnamed hstate)
  have hplan : ∀ {r site}, acceptEvaluation s.fabric r = .ok site → site.seat.ensemble ≠ e := by
    rintro r site haccept rfl
    have haccepted := acceptEvaluation_eq_ok haccept
    obtain rfl := Option.some.inj (haccepted.execution.symm.trans hx)
    exact hpending _ (List.mem_of_getElem? haccepted.pendingAt)
      (acceptEvaluation_takesAnswer haccept hnamed)
  obtain ⟨e', he', rfl | hwritten⟩ := (next_writes s event).known id e he
  · exact ⟨e', x, he', hx, rfl, rfl⟩
  · cases hwritten with
    | received _ accept ensemble | retried _ accept ensemble | dropped _ accept ensemble
    | abstained _ accept ensemble => exact (hslot accept ensemble).elim
    | evaluated _ accept ensemble => exact (hplan accept ensemble).elim
    | redefined defines =>
      obtain ⟨_, rfl⟩ := defines
      cases hsubmits
    | invalidated invalidates =>
      rw [invalidates_of_submits hsubmits] at invalidates
      cases invalidates
    | reported section_ => simp [section_] at hsubmits
    | attempted submits | stored submits =>
      rw [submitted_of_submits hsubmits] at submits
      cases submits
    | superseded writes | seated writes | started writes | withdrawn writes | closed writes
    | advanced writes | lost writes | released writes | cancelled writes =>
      subst writes
      cases hsubmits

/-- An abstention that is let in changes the candidates. -/
theorem not_evidenceKept_of_accepted {s : System} {a : CandidateAuthority} {l : Located}
    (haccept : acceptCandidate s.fabric a = .ok l) :
    ¬ EvidenceKept s (.submitCandidateAbstention { authority := a }) a.participant.ensemble
      l.execution := by
  obtain ⟨hlocated, hstate⟩ := acceptCandidate_eq_ok haccept
  have hlt : l.index < l.execution.candidates.length :=
    (List.getElem?_eq_some_iff.mp hlocated.at_).choose
  rintro ⟨e', x', he', hx', hsame, -⟩
  simp only [System.next, System.step, System.answer, submitCandidateAbstention, haccept,
    Fabric.find_store_self, Option.some.injEq] at he'
  subst he'
  obtain rfl := Option.some.inj hx'
  have hget := congrArg (·[l.index]?) hsame
  simp only [hlocated.at_, List.getElem?_set_self hlt, Option.some.injEq] at hget
  have hafter := congrArg CandidateRecord.state hget
  rw [hstate] at hafter
  cases hafter

/-- An evaluation that is let in is added to the list. -/
theorem not_evidenceKept_of_evaluated {s : System} {r : EvaluationSubmission}
    {site : EvaluationSite} (haccept : acceptEvaluation s.fabric r = .ok site) :
    ¬ EvidenceKept s (.submitEvaluation r) r.authority.evaluator.ensemble site.execution := by
  rintro ⟨e', x', he', hx', -, hsame⟩
  simp only [System.next, System.step, System.answer, submitEvaluation, haccept,
    Fabric.find_store_self, Option.some.injEq] at he'
  subst he'
  obtain rfl := Option.some.inj hx'
  have hlength := congrArg List.length hsame
  simp [evaluatedExecution] at hlength

/-- A slot that takes evidence takes it from some submission. -/
theorem not_takesEvidence_of_kept {s : System} {e : EnsembleRecord} {x : ExecutionRecord}
    (hnumbered : Numbered (s.fabric.view e.spec.id)) (he : s.fabric.find e.spec.id = some e)
    (hx : e.execution = some x)
    (h : ∀ event, event.submits = true → EvidenceKept s event e.spec.id x) :
    takesEvidence s.fabric.config.limits s.fabric.core e x = false := by
  rw [takesEvidence, Bool.or_eq_false_iff, List.any_eq_false, List.any_eq_false]
  constructor
  · intro c hc htakes
    obtain ⟨p, l, -, haccept, rfl⟩ := accepts_of_takesOutput hnumbered he hx hc htakes
    exact not_evidenceKept_of_accepted haccept (h _ rfl)
  · intro plan hplan htakes
    obtain ⟨p, site, -, haccept, rfl, -⟩ := accepts_of_takesAnswer hnumbered he hx hplan htakes
    exact not_evidenceKept_of_evaluated haccept (h _ rfl)

/-- In every reachable state, an execution keeps its candidates and its
evaluations under every submission exactly when no slot of it takes evidence,
whatever its status. -/
theorem closed_evidence_iff (config : FabricConfig) (events : List Event) (id : EnsembleId)
    (e : EnsembleRecord) (x : ExecutionRecord)
    (he : ((System.initial config).run events).fabric.find id = some e)
    (hx : e.execution = some x) :
    (∀ event, event.submits = true →
        EvidenceKept ((System.initial config).run events) event id x)
      ↔ takesEvidence config.limits ((System.initial config).run events).fabric.core e x
        = false := by
  obtain ⟨hconfig, hnamed⟩ := reachable_named config events
  have hid := hnamed id e he
  subst hid
  rw [show config.limits = ((System.initial config).run events).fabric.config.limits by
    rw [hconfig]]
  exact ⟨not_takesEvidence_of_kept ((reachable_apart config events).numbered _) he hx,
    fun h event hsubmits => evidenceKept_of_not_takes hnamed hsubmits he hx h⟩

namespace Sample

/-- The execution is cancelled while its candidate is dispatched. -/
def cancelledInFlight : List Event := start loneSpec ++ [.cancelEnsemble ⟨1⟩ ⟨1⟩ ""]

/-- The next advance withdraws the candidate. -/
def cancelledWithdrawn : List Event := cancelledInFlight ++ [advance]

end Sample

/-- Once the candidate is withdrawn, the cancelled execution is closed to every
submission. -/
theorem withdrawn_keeps_evidence :
    ∃ e x, Sample.ensemble Sample.cancelledWithdrawn = some e ∧ e.execution = some x
      ∧ x.status = .cancelled ∧ ∀ event, event.submits = true →
        EvidenceKept (Sample.reached Sample.cancelledWithdrawn) event ⟨1⟩ x := by
  have hquiet : (Sample.ensemble Sample.cancelledWithdrawn).any (fun e => e.execution.any fun x =>
      x.status == .cancelled && !takesEvidence ({} : FabricConfig).limits
        (Sample.reached Sample.cancelledWithdrawn).fabric.core e x) = true := by decide +kernel
  simp only [Option.any_eq_true, Bool.and_eq_true, beq_iff_eq, Bool.not_eq_true'] at hquiet
  obtain ⟨e, he, x, hx, hstatus, hquiet⟩ := hquiet
  exact ⟨e, x, he, hx, hstatus,
    (closed_evidence_iff {} Sample.cancelledWithdrawn ⟨1⟩ e x he hx).mpr hquiet⟩

/-- The execution is cancelled, and content that arrives before the next
advance still makes its candidate valid. -/
theorem cancelled_takes_content :
    ∃ e x, Sample.ensemble Sample.cancelledInFlight = some e ∧ e.execution = some x
      ∧ x.status = .cancelled ∧ x.candidates.map (·.state) = [.dispatched]
      ∧ (Sample.execution (Sample.cancelledInFlight ++ [Sample.content 1 1 [7]])).map
          (fun y => (y.status, y.candidates.map (·.state))) = some (.cancelled, [.valid])
      ∧ ¬ EvidenceKept (Sample.reached Sample.cancelledInFlight) (Sample.content 1 1 [7]) ⟨1⟩ x
    := by
  have hbefore : (Sample.ensemble Sample.cancelledInFlight).any (fun e => e.execution.any fun x =>
      x.status == .cancelled && x.candidates.map (·.state) == [.dispatched]) = true := by
    decide +kernel
  have hafter : (Sample.execution (Sample.cancelledInFlight ++ [Sample.content 1 1 [7]])).map
      (fun y => (y.status, y.candidates.map (·.state))) = some (.cancelled, [.valid]) := by
    decide +kernel
  simp only [Option.any_eq_true, Bool.and_eq_true, beq_iff_eq] at hbefore
  obtain ⟨e, he, x, hx, hstatus, hstates⟩ := hbefore
  refine ⟨e, x, he, hx, hstatus, hstates, hafter, ?_⟩
  rintro ⟨e', x', he', hx', hsame, -⟩
  have hexecution : Sample.execution (Sample.cancelledInFlight ++ [Sample.content 1 1 [7]])
      = some x' := by
    have hfind : Sample.ensemble (Sample.cancelledInFlight ++ [Sample.content 1 1 [7]])
        = some e' := by
      rw [Sample.ensemble, Sample.reached, System.run, EventSystem.run_append]
      exact he'
    rw [Sample.execution, hfind]
    exact hx'
  rw [hexecution, Option.map_some, Option.some.injEq, Prod.mk.injEq, hsame, hstates] at hafter
  exact absurd hafter.2 (by decide)

end EnsembleFabric
