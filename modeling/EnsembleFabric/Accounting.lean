import EnsembleFabric.Attempts
import EnsembleFabric.Restrictions

/-!
# What a result says a participant did

A result counts three things of every participant: the evaluations it
submitted, the retries its candidates took, and whether fallback called on
it. The counts are read off the participant record, and that record is the
one of the ensemble generation: it stays when an execution ends. The next
execution of the generation starts without evaluations and candidates, on
the counters its predecessor left.

So the counts are those of the execution as long as every execution opens
on counters at zero (`prepared_accounts_iff`).

`Account` holds the three counts. They are computed twice, from the record
of the participant and from the evidence of the execution, and `Accounted`
says that the two agree; every event preserves it, since a retry is counted
once at the slot and once at its participant, and so is an evaluation. The
converse needs no run: a result can be prepared for an execution that has
just been opened, and it reports whatever the counters say.

The counters of the source have 32 bits and wrap around; here they are
natural numbers, so the results are about runs of fewer than `2 ^ 32` events.
-/

namespace EnsembleFabric

open EventSystem AdvanceState

/-! ## Accounts -/

/-- What is counted of a participant. -/
structure Account where
  evaluations : Nat := 0
  retries : Nat := 0
  fallback : Bool := false
deriving DecidableEq

/-- The counters of a participant record. -/
def ParticipantRecord.account (p : ParticipantRecord) : Account where
  evaluations := p.evaluationsSubmitted
  retries := p.retriesConsumed
  fallback := p.fallbackActivated

/-- What a result says of a participant. -/
def ParticipantOutcome.account (o : ParticipantOutcome) : Account where
  evaluations := o.evaluations
  retries := o.retries
  fallback := o.fallback

/-- What a participant did in an execution: its evaluations on record, the
attempts of its candidates after the first, and its part in the fallback. -/
def ExecutionRecord.account (x : ExecutionRecord) (spec : EnsembleSpec) (id : ParticipantId) :
    Account where
  evaluations := x.evaluations.countP (·.evaluator == id)
  retries := ((x.candidates.filter (·.participant == id)).map fun c => c.attempt - 1).sum
  fallback := x.fallbackActivated && spec.fallback.fallbackParticipants.contains id

@[simp] theorem participantOutcome_account (x : ExecutionRecord) (p : ParticipantRecord) :
    (participantOutcome x p).account = p.account := rfl

/-- The counters of the participants are those of the execution. -/
structure Accounted (e : EnsembleRecord) (x : ExecutionRecord) : Prop where
  distinct : (e.participants.map (·.id)).Nodup
  attempts : ∀ c ∈ x.candidates, 1 ≤ c.attempt
  seats : ∀ p ∈ e.participants, p.account = x.account e.spec p.id

/-! ## Steps that count nothing -/

/-- What the accounts of an execution are made of. -/
structure SameBooks (e e' : EnsembleRecord) (x x' : ExecutionRecord) : Prop where
  spec : e'.spec = e.spec
  seats : e'.participants.map (fun p => (p.id, p.account))
    = e.participants.map fun p => (p.id, p.account)
  evaluators : x'.evaluations.map (·.evaluator) = x.evaluations.map (·.evaluator)
  slots : x'.candidates.map (fun c => (c.participant, c.attempt))
    = x.candidates.map fun c => (c.participant, c.attempt)
  fallback : x'.fallbackActivated = x.fallbackActivated

theorem ExecutionRecord.account_eq (x : ExecutionRecord) (spec : EnsembleSpec)
    (id : ParticipantId) :
    x.account spec id =
      { evaluations := (x.evaluations.map (·.evaluator)).countP (· == id)
        retries := (((x.candidates.map fun c => (c.participant, c.attempt)).filter
          (·.1 == id)).map fun slot => slot.2 - 1).sum
        fallback := x.fallbackActivated && spec.fallback.fallbackParticipants.contains id } := by
  rw [account, List.countP_map, List.filter_map, List.map_map]
  rfl

theorem SameBooks.ids {e e' : EnsembleRecord} {x x' : ExecutionRecord}
    (h : SameBooks e e' x x') : e'.participants.map (·.id) = e.participants.map (·.id) := by
  have hfirst := congrArg (List.map Prod.fst) h.seats
  rwa [List.map_map, List.map_map] at hfirst

theorem Accounted.keep {e e' : EnsembleRecord} {x x' : ExecutionRecord} (hx : Accounted e x)
    (h : SameBooks e e' x x') : Accounted e' x' := by
  refine ⟨by rw [h.ids]; exact hx.distinct, fun c' hc' => ?_, fun p' hp' => ?_⟩
  · have hslot : (c'.participant, c'.attempt)
        ∈ x.candidates.map fun c => (c.participant, c.attempt) := by
      rw [← h.slots]
      exact List.mem_map_of_mem hc'
    obtain ⟨c, hc, hsame⟩ := List.mem_map.mp hslot
    rw [← (Prod.mk.inj hsame).2]
    exact hx.attempts c hc
  · have hseat : (p'.id, p'.account) ∈ e.participants.map fun p => (p.id, p.account) := by
      rw [← h.seats]
      exact List.mem_map_of_mem hp'
    obtain ⟨p, hp, hsame⟩ := List.mem_map.mp hseat
    obtain ⟨hid, haccount⟩ := Prod.mk.inj hsame
    rw [← haccount, ← hid, hx.seats p hp, ExecutionRecord.account_eq, ExecutionRecord.account_eq,
      h.spec, h.evaluators, h.slots, h.fallback]

theorem Accounted.holding {e : EnsembleRecord} {x : ExecutionRecord} (h : Accounted e x)
    (y : ExecutionRecord) : Accounted (e.holding y) x := ⟨h.distinct, h.attempts, h.seats⟩

/-- The same participants and candidates; the execution differs elsewhere. -/
theorem sameBooks_of_same {e : EnsembleRecord} {x x' : ExecutionRecord}
    (evaluations : x'.evaluations = x.evaluations) (candidates : x'.candidates = x.candidates)
    (fallback : x'.fallbackActivated = x.fallbackActivated) : SameBooks e e x x' :=
  ⟨rfl, rfl, by rw [evaluations], by rw [candidates], fallback⟩

/-- A candidate is written that belongs to the same participant and attempt. -/
theorem sameBooks_set {e : EnsembleRecord} {x : ExecutionRecord} {index : Nat}
    {c c' : CandidateRecord} (hat : x.candidates[index]? = some c)
    (hparticipant : c'.participant = c.participant) (hattempt : c'.attempt = c.attempt) :
    SameBooks e e x { x with candidates := x.candidates.set index c' } :=
  ⟨rfl, rfl, rfl, Slots.map_key_set hat
    (by rw [hparticipant, hattempt]), rfl⟩

theorem SameBooks.trans {e e' e'' : EnsembleRecord} {x x' x'' : ExecutionRecord}
    (h : SameBooks e e' x x') (h' : SameBooks e' e'' x' x'') : SameBooks e e'' x x'' :=
  ⟨h'.spec.trans h.spec, h'.seats.trans h.seats, h'.evaluators.trans h.evaluators,
    h'.slots.trans h.slots, h'.fallback.trans h.fallback⟩

theorem supersedeCandidateEvidence_books (e : EnsembleRecord) (x : ExecutionRecord)
    (id : CandidateId) : SameBooks e e x (supersedeCandidateEvidence x id) := by
  refine ⟨rfl, rfl, ?_, rfl, rfl⟩
  rw [supersedeCandidateEvidence, List.map_map]
  refine List.map_congr_left fun r _ => ?_
  rw [Function.comp_apply]
  split <;> rfl

theorem tallyParticipant_accounts (participants : List ParticipantRecord) (id : ParticipantId)
    {change : ParticipantRecord → ParticipantRecord}
    (h : ∀ p, (change p).id = p.id ∧ (change p).account = p.account) :
    (tallyParticipant participants id change).map (fun p => (p.id, p.account))
      = participants.map fun p => (p.id, p.account) := by
  rw [tallyParticipant, List.map_map]
  refine List.map_congr_left fun p _ => ?_
  rw [Function.comp_apply]
  split
  · rw [(h p).1, (h p).2]
  · rfl

theorem failCandidate_books {e : EnsembleRecord} {x : ExecutionRecord} {index : Nat}
    {c : CandidateRecord} (hat : x.candidates[index]? = some c) (failure : EnsembleError)
    (detail : String) :
    SameBooks e (failCandidate e x index c failure detail).1 x
      (failCandidate e x index c failure detail).2 := by
  have hset : SameBooks e e x
      { x with candidates := x.candidates.set index (failedCandidate c failure detail) } :=
    sameBooks_set hat rfl rfl
  have hevidence := hset.trans (supersedeCandidateEvidence_books e _ c.id)
  exact ⟨hevidence.spec, tallyParticipant_accounts _ _ fun _ => ⟨rfl, rfl⟩, hevidence.evaluators,
    hevidence.slots, hevidence.fallback⟩

theorem computeReports_books (e : EnsembleRecord) (x : ExecutionRecord) :
    SameBooks e e x (computeReports e x) := by
  refine ⟨rfl, rfl, rfl, ?_, rfl⟩
  rw [computeReports_candidates, List.map_map]
  refine List.map_congr_left fun c _ => ?_
  rw [Function.comp_apply, markElimination_eq _ c]

/-! ## Retries -/

/-- The attempts of some slots after the first. -/
theorem retries_set {cs : List CandidateRecord} {index : Nat} {c : CandidateRecord}
    (c' : CandidateRecord) (hat : cs[index]? = some c)
    (hparticipant : c'.participant = c.participant)
    (hattempt : c'.attempt = c.attempt + 1) (hstarted : 1 ≤ c.attempt) (id : ParticipantId) :
    (((cs.set index c').filter (·.participant == id)).map fun c => c.attempt - 1).sum
      = ((cs.filter (·.participant == id)).map fun c => c.attempt - 1).sum
        + if c.participant == id then 1 else 0 := by
  induction cs generalizing index with
  | nil => simp at hat
  | cons first rest ih =>
    cases index with
    | zero =>
      obtain rfl : first = c := by simpa using hat
      rw [List.set_cons_zero, List.filter_cons, List.filter_cons, hparticipant]
      split
      · rw [List.map_cons, List.map_cons, List.sum_cons, List.sum_cons, hattempt]
        omega
      · rfl
    | succ index =>
      have hrest := @ih index (by simpa using hat)
      rw [List.set_cons_succ, List.filter_cons, List.filter_cons]
      split
      · rw [List.map_cons, List.map_cons, List.sum_cons, List.sum_cons, hrest]
        omega
      · exact hrest

/-- A retry is counted once at the slot and once at its participant. -/
theorem rewindCandidateForRetry_accounted {e : EnsembleRecord} {x : ExecutionRecord} {index : Nat}
    {c c₀ : CandidateRecord} (hat : x.candidates[index]? = some c₀)
    (hparticipant : c.participant = c₀.participant) (hattempt : c.attempt = c₀.attempt)
    (h : Accounted e x) :
    Accounted (rewindCandidateForRetry e x index c).1 (rewindCandidateForRetry e x index c).2 := by
  have hstarted : 1 ≤ c₀.attempt := h.attempts c₀ (List.mem_of_getElem? hat)
  have hevidence := h.keep (supersedeCandidateEvidence_books e x c.id)
  have hids : (rewindCandidateForRetry e x index c).1.participants.map (·.id)
      = e.participants.map (·.id) := by
    rw [rewindCandidateForRetry, tallyParticipant, List.map_map]
    refine List.map_congr_left fun p _ => ?_
    rw [Function.comp_apply]
    split <;> rfl
  refine ⟨by rw [hids]; exact h.distinct, fun c' hc' => ?_, fun p' hp' => ?_⟩
  · rcases List.mem_or_eq_of_mem_set hc' with hold | rfl
    · exact h.attempts c' hold
    · exact Nat.le_add_left 1 c.attempt
  · obtain ⟨p, hp, rfl⟩ := List.mem_map.mp hp'
    have hbefore := hevidence.seats p hp
    have hretries := retries_set (rewoundCandidate c) hat hparticipant
      (by rw [← hattempt]; rfl) hstarted p.id
    rw [← hparticipant] at hretries
    have hafter : ((rewindCandidateForRetry e x index c).2.account e.spec p.id)
        = { (supersedeCandidateEvidence x c.id).account e.spec p.id with
            retries := ((supersedeCandidateEvidence x c.id).account e.spec p.id).retries
              + if c.participant == p.id then 1 else 0 } := by
      simp only [ExecutionRecord.account, Account.mk.injEq]
      exact ⟨rfl, hretries, rfl⟩
    have hcount : ∀ hold : Bool, (if hold then { p with retriesConsumed := p.retriesConsumed + 1 }
        else p : ParticipantRecord).account = { p.account with
          retries := p.account.retries + if hold then 1 else 0 } := by
      intro hold
      cases hold <;> rfl
    have hid : (if p.id == c.participant then { p with retriesConsumed := p.retriesConsumed + 1 }
        else p : ParticipantRecord).id = p.id := by split <;> rfl
    change ParticipantRecord.account _ = (rewindCandidateForRetry e x index c).2.account e.spec _
    rw [hid, hafter, hcount (p.id == c.participant), hbefore, BEq.comm (a := p.id)]

theorem releaseCandidate_accounted {p : ParticipantRecord} {kind : ParticipantFailureKind}
    {detail : String} {work : EnsembleRecord × ExecutionRecord} (index : Nat)
    (h : Accounted work.1 work.2) :
    Accounted (releaseCandidate p kind detail work index).1
      (releaseCandidate p kind detail work index).2 := by
  obtain ⟨e, x⟩ := work
  unfold releaseCandidate
  simp only
  split
  · exact h
  · rename_i c hat
    split
    · exact h
    · split
      · exact rewindCandidateForRetry_accounted hat rfl rfl h
      · exact h.keep (failCandidate_books hat _ _)

theorem handleParticipantFailure_accounted {e : EnsembleRecord} {x : ExecutionRecord}
    (p : ParticipantRecord) (kind : ParticipantFailureKind) (detail : String)
    (h : Accounted e x) :
    Accounted (handleParticipantFailure e x p kind detail).1
      (handleParticipantFailure e x p kind detail).2 := by
  have hloop : ∀ (indices : List Nat) (work : EnsembleRecord × ExecutionRecord),
      Accounted work.1 work.2 → Accounted (indices.foldl (releaseCandidate p kind detail) work).1
        (indices.foldl (releaseCandidate p kind detail) work).2 := by
    intro indices
    induction indices with
    | nil => exact fun _ h => h
    | cons index rest ih => exact fun _ h => ih _ (releaseCandidate_accounted index h)
  exact hloop _ (e, x) h

/-! ## Evaluations -/

/-- The accounts where one seat is written, whose counters the execution
follows. -/
theorem accounted_set {e : EnsembleRecord} {x x' : ExecutionRecord} {index : Nat}
    {p p' : ParticipantRecord} (h : Accounted e x) (hat : e.participants[index]? = some p)
    (hid : p'.id = p.id) (hattempts : ∀ c ∈ x'.candidates, 1 ≤ c.attempt)
    (hmine : p.account = x.account e.spec p.id → p'.account = x'.account e.spec p.id)
    (hothers : ∀ id, id ≠ p.id → x'.account e.spec id = x.account e.spec id) :
    Accounted { e with participants := e.participants.set index p' } x' := by
  obtain ⟨hlt, rfl⟩ := List.getElem?_eq_some_iff.mp hat
  have hids : (e.participants.set index p').map (·.id) = e.participants.map (·.id) :=
    Slots.map_key_set hat hid
  refine ⟨by rw [hids]; exact h.distinct, hattempts, fun q hq => ?_⟩
  obtain ⟨i, hi, hget⟩ := List.mem_iff_getElem.mp hq
  rw [List.length_set] at hi
  rw [List.getElem_set] at hget
  split at hget
  · subst hget
    rw [hid]
    exact hmine (h.seats _ (List.getElem_mem hlt))
  · rename_i hother
    subst hget
    rw [h.seats _ (List.getElem_mem hi)]
    refine (hothers _ fun hsame => hother ?_).symm
    have hplace : i < (e.participants.map (·.id)).length := by simpa using hi
    have hwritten : index < (e.participants.map (·.id)).length := by simpa using hlt
    have hfirst : (e.participants.map (·.id))[i] = (e.participants.map (·.id))[index] := by
      rw [List.getElem_map, List.getElem_map]
      exact hsame
    exact (h.distinct.getElem_inj_iff.mp hfirst).symm

/-! ## An advance -/

namespace AdvanceState

theorem declareMember_accounted (limits : Limits) (stage : StageSpec) (s : AdvanceState)
    (id : ParticipantId) (h : Accounted s.ensemble s.execution) :
    Accounted (Threaded.final (declareMember limits stage s id)).ensemble
      (Threaded.final (declareMember limits stage s id)).execution := by
  unfold declareMember
  split
  · exact h
  · rename_i declaration _
    split
    · exact h
    · split
      · exact h
      · split
        · exact h
        · rename_i fresh candidateIds _
          refine ⟨h.distinct, fun c hc => ?_, fun p hp => ?_⟩
          · rcases List.mem_append.mp hc with hold | hnew
            · exact h.attempts c hold
            · rw [List.mem_singleton.mp hnew]
              exact Nat.le_refl 1
          · rw [h.seats p hp]
            simp only [ExecutionRecord.account, Threaded.final_ok, List.filter_append,
              List.map_append, List.sum_append, Account.mk.injEq, true_and, and_true]
            -- a first attempt is no retry, whoever it belongs to
            rw [List.filter_cons]
            split <;> rfl

theorem declareMembers_accounted (limits : Limits) (stage : StageSpec) (ids : List ParticipantId)
    (s : AdvanceState) (h : Accounted s.ensemble s.execution) :
    Accounted (Threaded.final (ids.foldlM (declareMember limits stage) s)).ensemble
      (Threaded.final (ids.foldlM (declareMember limits stage) s)).execution := by
  refine Threaded.final_foldlM (R := fun a b : AdvanceState =>
    Accounted a.ensemble a.execution → Accounted b.ensemble b.execution) (fun _ h => h)
    (fun h h' hs => h' (h hs)) (fun m id _ => declareMember_accounted limits stage m id) s h

/-- The members of the fallback are marked, each of them once. -/
theorem activateMembers_participants (trigger : FallbackTrigger) (ids : List ParticipantId)
    (s : AdvanceState) (h : (s.ensemble.participants.map (·.id)).Nodup) :
    (ids.foldl (activateMember trigger) s).ensemble.participants
      = s.ensemble.participants.map fun p =>
        { p with fallbackActivated := p.fallbackActivated || ids.contains p.id } := by
  induction ids generalizing s with
  | nil => simp
  | cons id rest ih =>
    have hone : (activateMember trigger s id).ensemble.participants
        = s.ensemble.participants.map fun p =>
          if p.id == id then { p with fallbackActivated := true } else p := by
      rw [← Slots.modify_found h id]
      simp only [activateMember, activatedParticipants, EnsembleRecord.findParticipant]
      cases s.ensemble.participants.findIdx? (·.id == id) <;> rfl
    have hids : (activateMember trigger s id).ensemble.participants.map (·.id)
        = s.ensemble.participants.map (·.id) := by
      rw [hone, List.map_map]
      refine List.map_congr_left fun p _ => ?_
      rw [Function.comp_apply]
      split <;> rfl
    rw [List.foldl_cons, ih _ (by rw [hids]; exact h), hone, List.map_map]
    refine List.map_congr_left fun p _ => ?_
    rw [Function.comp_apply, List.contains_cons]
    cases p.id == id <;> simp

theorem activateFallback_accounted {s : AdvanceState} {trigger : FallbackTrigger}
    (hdecision : fallbackDecision s.ensemble s.execution = some trigger)
    (h : Accounted s.ensemble s.execution) :
    Accounted s.activateFallback.ensemble s.activateFallback.execution := by
  obtain ⟨hexecution, hspec, -⟩ := activateFallback_eq hdecision
  obtain ⟨-, hunused, -⟩ := fallbackDecision_eq_some hdecision
  have hparticipants : s.activateFallback.ensemble.participants
      = s.ensemble.participants.map fun p => { p with
          fallbackActivated := p.fallbackActivated
            || s.ensemble.spec.fallback.fallbackParticipants.contains p.id } := by
    rw [activateFallback, hdecision]
    exact activateMembers_participants trigger _ s.requestFallback h.distinct
  have hids : s.activateFallback.ensemble.participants.map (·.id)
      = s.ensemble.participants.map (·.id) := by
    rw [hparticipants, List.map_map]
    rfl
  rw [hexecution]
  refine ⟨by rw [hids]; exact h.distinct, h.attempts, fun p' hp' => ?_⟩
  rw [hparticipants] at hp'
  obtain ⟨p, hp, rfl⟩ := List.mem_map.mp hp'
  have hseat := h.seats p hp
  have hfallback : p.fallbackActivated = false := by
    rw [ExecutionRecord.account, hunused, Bool.false_and] at hseat
    exact congrArg Account.fallback hseat
  rw [hspec]
  simp only [ParticipantRecord.account, ExecutionRecord.account, Account.mk.injEq] at hseat ⊢
  rw [hfallback, Bool.false_or]
  exact ⟨hseat.1, hseat.2.1, rfl⟩

theorem AdvanceStep.accounted {limits : Limits} {s s' : AdvanceState}
    (h : AdvanceStep limits s s') (hs : Accounted s.ensemble s.execution) :
    Accounted s'.ensemble s'.execution := by
  cases h with
  | round => exact hs
  | completed => exact hs.keep (sameBooks_of_same rfl rfl rfl)
  | @declared _ stage _ undeclared result =>
    obtain ⟨m, hm, rfl⟩ := declareStage_eq_ok undeclared result
    have hmembers := declareMembers_accounted limits stage stage.participants s hs
    rw [hm] at hmembers
    exact hmembers.keep (sameBooks_of_same rfl rfl rfl)
  | @adopted stage index c p _ _ target => exact hs.keep (sameBooks_set target.at_ rfl rfl)
  | @stranded stage index c p _ _ target =>
    have hadopted : Accounted (s.adopt index c p).ensemble (s.adopt index c p).execution :=
      hs.keep (sameBooks_set target.at_ rfl rfl)
    exact hadopted.keep
      (failCandidate_books (setCandidate_get target.at_ (adoptedCandidate c p)) _ _)
  | @dispatched stage index c p _ _ target =>
    have hadopted : Accounted (s.adopt index c p).ensemble (s.adopt index c p).execution :=
      hs.keep (sameBooks_set target.at_ rfl rfl)
    exact hadopted.keep
      (sameBooks_set (setCandidate_get target.at_ (adoptedCandidate c p)) rfl rfl)
  | reopened =>
    unfold reopenPlanning
    split
    · exact hs.keep (sameBooks_of_same rfl rfl rfl)
    · exact hs
  | planned _ incomplete result =>
    obtain ⟨done, added, hplans, -⟩ := planEvaluations_plans incomplete
    rw [result, Threaded.final_ok] at hplans
    have hensemble : s'.ensemble = s.ensemble := hplans.ensemble
    rw [hensemble, hplans.execution]
    exact hs.keep (sameBooks_of_same rfl rfl rfl)
  | emitted index =>
    obtain ⟨hensemble, hexecution | ⟨p, p', -, -, hexecution⟩⟩ := emitOne_execution s index
    · rw [hensemble, hexecution]
      exact hs
    · rw [hensemble, hexecution]
      exact hs.keep (sameBooks_of_same rfl rfl rfl)
  | reported => exact hs.keep (computeReports_books s.ensemble s.execution)
  | activated _ decision => exact activateFallback_accounted decision hs

theorem AdvanceStop.accounted {limits : Limits} {s s' : AdvanceState} {error : Error}
    (h : AdvanceStop limits s (error, s')) (hs : Accounted s.ensemble s.execution) :
    Accounted s'.ensemble s'.execution := by
  cases h with
  | @undeclared stage _ undeclared result =>
    have hmembers := declareMembers_accounted limits stage stage.participants s hs
    rwa [declareStage_eq_error undeclared result] at hmembers
  | unplanned _ incomplete result =>
    obtain ⟨done, added, hplans, -⟩ := planEvaluations_plans incomplete
    rw [result] at hplans
    have hensemble : s'.ensemble = s.ensemble := hplans.ensemble
    have hexecution : s'.execution = _ := hplans.execution
    rw [hensemble, hexecution]
    exact hs.keep (sameBooks_of_same rfl rfl rfl)

end AdvanceState

theorem advanceOpen_accounted (limits : Limits) (core : Core) {e : EnsembleRecord}
    {x : ExecutionRecord} (h : Accounted e x) :
    Accounted (advanceOpen limits core e x).1.ensemble
      (advanceOpen limits core e x).1.execution := by
  have hsteps : ∀ {s}, AdvanceSteps limits (advanceStart core e x) s →
      Accounted s.ensemble s.execution := fun hsteps =>
    advanceSteps_keep (P := fun s => Accounted s.ensemble s.execution)
      (fun hstep hs => hstep.accounted hs) hsteps h
  have hloop := advanceLoop_advances limits 64 (advanceStart core e x)
  rw [advanceOpen_eq]
  split
  · rename_i error s hrun
    rw [hrun] at hloop
    obtain ⟨m, hm, hstop⟩ := hloop
    exact hstop.accounted (hsteps hm)
  · rename_i s hrun
    rw [hrun] at hloop
    exact (hsteps hloop).keep (computeReports_books s.ensemble s.execution)

/-! ## One event -/

theorem participants_books {e e' : EnsembleRecord} {x : ExecutionRecord} {index : Nat}
    {p p' : ParticipantRecord} (hat : e.participants[index]? = some p)
    (hwritten : e'.participants = e.participants.set index p') (hspec : e'.spec = e.spec)
    (hid : p'.id = p.id) (haccount : p'.account = p.account) : SameBooks e e' x x := by
  refine ⟨hspec, ?_, rfl, rfl, rfl⟩
  rw [hwritten]
  exact Slots.map_key_set hat (by rw [hid, haccount])

/-- Candidates that are changed one by one stay with participant and attempt. -/
theorem candidates_books {e : EnsembleRecord} {x x' : ExecutionRecord}
    {change : CandidateRecord → CandidateRecord}
    (hchange : ∀ c, (change c).participant = c.participant ∧ (change c).attempt = c.attempt)
    (hcandidates : x'.candidates = x.candidates.map change)
    (hevaluators : x'.evaluations.map (·.evaluator) = x.evaluations.map (·.evaluator))
    (hfallback : x'.fallbackActivated = x.fallbackActivated) : SameBooks e e x x' := by
  refine ⟨rfl, rfl, hevaluators, ?_, hfallback⟩
  rw [hcandidates, List.map_map]
  refine List.map_congr_left fun c _ => ?_
  rw [Function.comp_apply, (hchange c).1, (hchange c).2]

theorem cancelInFlight_books (e : EnsembleRecord) (x : ExecutionRecord)
    (cs : List CandidateRecord) (core : Core) :
    (cancelInFlight e x cs core).1.map (fun c => (c.participant, c.attempt))
      = cs.map fun c => (c.participant, c.attempt) := by
  rw [cancelInFlight_candidates, List.map_map]
  refine List.map_congr_left fun c _ => ?_
  rw [Function.comp_apply, cancelledInFlight]
  split <;> rfl

theorem invalidated_books (reason : String) (e : EnsembleRecord) (x : ExecutionRecord) :
    SameBooks e (invalidatedEnsemble reason e) x (invalidatedExecution reason x) := by
  have hexecution : SameBooks e e x (invalidatedExecution reason x) := by
    unfold invalidatedExecution
    split
    · refine candidates_books (fun c => ?_) rfl ?_ rfl
      · unfold invalidatedCandidate
        split <;> exact ⟨rfl, rfl⟩
      · rw [List.map_map]
        rfl
    · exact sameBooks_of_same rfl rfl rfl
  refine ⟨rfl, ?_, hexecution.evaluators, hexecution.slots, hexecution.fallback⟩
  rw [invalidatedEnsemble, List.map_map]
  refine List.map_congr_left fun p _ => ?_
  rw [Function.comp_apply]
  unfold invalidatedParticipant
  split <;> rfl

theorem storeResult_books (limits : Limits) (e : EnsembleRecord) (x : ExecutionRecord)
    (stored : EnsembleResult) : SameBooks e e x (storeResult limits e x stored).1 := by
  have hfallback : (storeResult limits e x stored).1.fallbackActivated = x.fallbackActivated := by
    unfold storeResult
    split <;> rfl
  obtain ⟨settle, hcandidates, rfl | rfl⟩ := storeResult_candidates limits e x stored
  · exact candidates_books (fun _ => ⟨rfl, rfl⟩) hcandidates (by simp) hfallback
  · refine candidates_books (fun c => ?_) hcandidates (by simp) hfallback
    unfold settledCandidate
    split
    · exact ⟨rfl, rfl⟩
    · split <;> exact ⟨rfl, rfl⟩

/-- What an event that neither submits nor opens leaves of an ensemble. -/
theorem Written.accounted {s : System} {event : Event} {id : EnsembleId} {e e' : EnsembleRecord}
    {x' : ExecutionRecord} (h : Written s event id e e') (hquiet : event.submits = false)
    (hopens : event ≠ .openExecution id e.spec.generation) (hx' : e'.execution = some x')
    (he : ∀ x, e.execution = some x → Accounted e x) : Accounted e' x' := by
  cases h with
  | redefined => cases hx'
  | superseded =>
    obtain ⟨x, hx, rfl⟩ := Option.map_eq_some_iff.mp hx'
    have hbooks : SameBooks e e x (supersededExecution x) := by
      unfold supersededExecution
      split
      · refine candidates_books (fun c => ?_) rfl rfl rfl
        split <;> exact ⟨rfl, rfl⟩
      · exact sameBooks_of_same rfl rfl rfl
    exact (he x hx).keep ⟨rfl, rfl, hbooks.evaluators, hbooks.slots, hbooks.fallback⟩
  | seated _ at_ =>
    obtain rfl := at_.ensemble
    exact (he x' hx').keep (participants_books at_.get rfl rfl rfl rfl)
  | started opens => exact absurd opens hopens
  | @withdrawn x _ before =>
    obtain rfl := Option.some.inj hx'
    exact (he x before).keep ⟨rfl, rfl, rfl, cancelInFlight_books e x _ _, rfl⟩
  | @closed x _ before =>
    obtain rfl := Option.some.inj hx'
    have hbooks : SameBooks e e x (closedExecution x) := by
      refine candidates_books (fun c => ?_) rfl rfl rfl
      split <;> exact ⟨rfl, rfl⟩
    exact ((he x before).keep hbooks).holding _
  | @advanced x _ _ before _ _ result =>
    subst result
    obtain rfl := Option.some.inj hx'
    exact (advanceOpen_accounted s.fabric.config.limits s.fabric.core (he x before)).holding _
  | received submits | retried submits | dropped submits | abstained submits
  | evaluated submits =>
    rw [submits] at hquiet
    cases hquiet
  | @lost a seat kind detail _ admits ensemble =>
    subst ensemble
    obtain ⟨-, hat⟩ := admitFailureReport_eq_ok admits
    exact (he x' hx').keep (participants_books hat.get rfl rfl rfl rfl)
  | @released a seat kind detail x _ admits ensemble before =>
    subst ensemble
    obtain ⟨-, hat⟩ := admitFailureReport_eq_ok admits
    obtain rfl := Option.some.inj hx'
    have hlost : Accounted (seat.write (lostParticipant seat.participant kind detail)) x :=
      (he x before).keep (participants_books hat.get rfl rfl rfl rfl)
    have hreleased := handleParticipantFailure_accounted
      (lostParticipant seat.participant kind detail) kind detail hlost
    refine Accounted.holding ?_ _
    split
    · exact hreleased.keep (sameBooks_of_same rfl rfl rfl)
    · exact hreleased
  | @cancelled x _ _ _ _ before =>
    obtain rfl := Option.some.inj hx'
    exact ((he x before).holding _).keep (sameBooks_of_same rfl rfl rfl)
  | @invalidated reason =>
    obtain ⟨x, hx, rfl⟩ := Option.map_eq_some_iff.mp hx'
    exact (he x hx).keep (invalidated_books reason e x)
  | @reported x _ before =>
    obtain rfl := Option.some.inj hx'
    exact ((he x before).keep (computeReports_books e x)).holding _
  | @attempted r x _ before =>
    obtain rfl := Option.some.inj hx'
    exact ((he x before).holding _).keep (sameBooks_of_same rfl rfl rfl)
  | @stored r x resultId sequence _ stores =>
    obtain ⟨htarget, -⟩ := storesIn_eq_some.mp stores
    obtain rfl := Option.some.inj hx'
    have hattempted : Accounted e { x with commitAttempts := x.commitAttempts + 1 } :=
      (he x (commitTarget_eq_ok htarget).execution).keep (sameBooks_of_same rfl rfl rfl)
    exact (hattempted.keep (storeResult_books ..)).holding _

/-! ## Submissions -/

/-- Every execution of the runtime is accounted for. -/
def AllAccounted (f : Fabric) : Prop :=
  ∀ id e x, f.find id = some e → e.execution = some x → Accounted e x

theorem AllAccounted.store {f : Fabric} (h : AllAccounted f) (core : Core) (id : EnsembleId)
    {e : EnsembleRecord} (he : ∀ x, e.execution = some x → Accounted e x) :
    AllAccounted ({ f with core }.store id e) := by
  intro other e' x he' hx
  rw [Fabric.find_store] at he'
  split at he'
  · obtain rfl := Option.some.inj he'
    exact he x hx
  · exact h other e' x he' hx

/-- Content and abstentions are counted elsewhere. -/
theorem LocatedAt.accounted {f : Fabric} {a : CandidateAuthority} {l : Located}
    (hl : LocatedAt f a l) (h : AllAccounted f) {c : CandidateRecord} {p : ParticipantRecord}
    (hparticipant : c.participant = l.candidate.participant)
    (hattempt : c.attempt = l.candidate.attempt) (hid : p.id = l.seat.participant.id)
    (haccount : p.account = l.seat.participant.account) :
    ∀ x, (l.write c p).execution = some x → Accounted (l.write c p) x := by
  intro x hx
  obtain rfl := Option.some.inj hx
  have hseat : Accounted (l.seat.write p) l.execution :=
    (h _ _ _ hl.fenced.ensemble hl.fenced.execution).keep
      (participants_books hl.seat.get rfl rfl hid haccount)
  exact (hseat.keep (sameBooks_set hl.at_ hparticipant hattempt)).holding _

theorem submitCandidate_accounted {f : Fabric} (h : AllAccounted f) (r : CandidateSubmission) :
    AllAccounted (submitCandidate f r).1 := by
  unfold submitCandidate
  split
  · exact h
  · rename_i l haccept
    obtain ⟨hl, -⟩ := acceptCandidate_eq_ok haccept
    split
    · exact h
    · refine h.store _ _ (hl.accounted h ?_ ?_ ?_ ?_)
      · unfold classifiedCandidate
        split <;> rfl
      · unfold classifiedCandidate
        split <;> rfl
      · split <;> rfl
      · split <;> rfl

theorem submitCandidateFailure_accounted {f : Fabric} (h : AllAccounted f)
    (r : CandidateFailureSubmission) : AllAccounted (submitCandidateFailure f r).1 := by
  unfold submitCandidateFailure
  split
  · exact h
  · rename_i l haccept
    obtain ⟨hl, -⟩ := acceptCandidate_eq_ok haccept
    have hbefore := h _ _ _ hl.fenced.ensemble hl.fenced.execution
    split
    · exact h
    · refine h.store f.core _ fun x hx => ?_
      obtain rfl := Option.some.inj hx
      refine Accounted.holding ?_ _
      split
      · exact rewindCandidateForRetry_accounted hl.at_ rfl rfl hbefore
      · exact hbefore.keep (failCandidate_books hl.at_ _ _)

theorem submitCandidateAbstention_accounted {f : Fabric} (h : AllAccounted f)
    (r : CandidateAbstentionSubmission) : AllAccounted (submitCandidateAbstention f r).1 := by
  unfold submitCandidateAbstention
  split
  · exact h
  · rename_i l haccept
    obtain ⟨hl, -⟩ := acceptCandidate_eq_ok haccept
    exact h.store _ _ (hl.accounted h rfl rfl rfl rfl)

/-- An evaluation is counted once on record and once at its evaluator. -/
theorem submitEvaluation_accounted {f : Fabric} (h : AllAccounted f) (r : EvaluationSubmission) :
    AllAccounted (submitEvaluation f r).1 := by
  unfold submitEvaluation
  split
  · exact h
  · rename_i site haccept
    have haccepted := acceptEvaluation_eq_ok haccept
    have hbefore := h _ _ _ haccepted.ensemble haccepted.execution
    have hid := haccepted.seat.id
    refine h.store _ _ fun x hx => ?_
    obtain rfl := Option.some.inj hx
    let evaluation := recordedEvaluation f.config.limits f.core.epoch site r f.core.nextSequence.1
    have hslots : (evaluatedExecution site evaluation).candidates.map
        (fun c => (c.participant, c.attempt))
          = site.execution.candidates.map fun c => (c.participant, c.attempt) := by
      refine Slots.map_key_set
        haccepted.candidateAt ?_
      rfl
    have hcount : ∀ id, (evaluatedExecution site evaluation).account site.seat.ensemble.spec id
        = { site.execution.account site.seat.ensemble.spec id with
            evaluations := (site.execution.account site.seat.ensemble.spec id).evaluations
              + if r.authority.evaluator.participant == id then 1 else 0 } := by
      intro id
      rw [ExecutionRecord.account_eq, hslots, ExecutionRecord.account_eq]
      simp only [evaluatedExecution, List.map_append, List.countP_append, List.map_cons,
        List.map_nil, List.countP_singleton]
      rfl
    refine Accounted.holding (accounted_set hbefore haccepted.seat.get ?_ ?_ ?_ ?_) _
    · rfl
    · intro c hc
      rcases List.mem_or_eq_of_mem_set hc with hold | rfl
      · exact hbefore.attempts c hold
      · exact hbefore.attempts site.candidate (List.mem_of_getElem? haccepted.candidateAt)
    · intro hmine
      rw [hcount, ← hmine, hid, beq_self_eq_true, if_pos rfl]
      rfl
    · intro id hother
      rw [hcount, if_neg]
      · rfl
      · rw [beq_iff_eq, ← hid]
        exact fun hsame => hother hsame.symm

/-! ## Runs -/

/-- The seats of an ensemble are of different participants. -/
def ViewSeatsApart (v : View) : Prop :=
  ∀ e, v.entry = some e → (e.participants.map (·.id)).Nodup

theorem Admitted.seatsApart {limits : Limits} {spec : EnsembleSpec} (h : Admitted limits spec) :
    ((spec.participants.map freshParticipant).map (·.id)).Nodup := by
  rw [List.map_map]
  exact h.wellFormed.participants

theorem Move.seatsApart {sc : Scope} {v v' : View} (h : Move sc v v') (hv : ViewSeatsApart v) :
    ViewSeatsApart v' := by
  cases h with
  | tick => exact hv
  | define admitted =>
    rintro _ ⟨⟩
    exact admitted.seatsApart
  | redefine admitted =>
    rintro _ ⟨⟩
    exact admitted.seatsApart
  | seats steps =>
    rintro _ ⟨⟩
    have hids := Slots.map_key (fun hstep => hstep.id) steps
    rw [hids]
    exact hv _ rfl
  | _ =>
    rintro _ ⟨⟩
    have hold := hv _ rfl
    exact hold

theorem reachable_seatsApart (config : FabricConfig) (events : List Event) (id : EnsembleId) :
    ViewSeatsApart (((System.initial config).run events).fabric.view id) :=
  reachable_view Move.seatsApart (fun h => h) (by rintro _ ⟨⟩) (along_allows _ events) id

/-- An execution opens on counters at zero. -/
def OpensOnZero (s : System) : Event → Prop
  | .openExecution id generation => ∀ next, (openExecution s.fabric id generation).2 = .ok next →
      ∀ e, s.fabric.find id = some e → ∀ p ∈ e.participants, p.account = {}
  | _ => True

/-- What a request for an execution does to the runtime and answers. -/
inductive OpenAnswers (f : Fabric) (id : EnsembleId) (generation : EnsembleGeneration) :
    Fabric × Outcome EnsembleExecutionId → Prop
  | refused {error} : OpenAnswers f id generation (f, .error error)
  | opened {e next} (find : f.find id = some e) (named : e.spec.generation = generation) :
      OpenAnswers f id generation
        (f.store id (e.holding { id := next, coordinatorEpoch := f.core.epoch }), .ok next)

theorem openExecution_answers (f : Fabric) (id : EnsembleId) (generation : EnsembleGeneration) :
    OpenAnswers f id generation (openExecution f id generation) := by
  unfold openExecution
  split
  · exact .refused
  · rename_i e hfind
    split
    · exact .refused
    · rename_i hgeneration
      split
      · exact .refused
      · split
        · exact .refused
        · split
          · exact .refused
          · split
            · exact .refused
            · exact .opened hfind (not_not.mp hgeneration)

/-- An execution without candidates and evaluations leaves every account empty. -/
theorem ExecutionRecord.account_of_nil {x : ExecutionRecord} (hcandidates : x.candidates = [])
    (hevaluations : x.evaluations = []) (hfallback : x.fallbackActivated = false)
    (spec : EnsembleSpec) (id : ParticipantId) : x.account spec id = {} := by
  rw [account, hcandidates, hevaluations, hfallback]
  rfl

theorem openExecution_accounted {s : System} {id : EnsembleId} {generation : EnsembleGeneration}
    (hapart : ∀ id, ViewSeatsApart (s.fabric.view id))
    (hopens : OpensOnZero s (.openExecution id generation)) (h : AllAccounted s.fabric) :
    AllAccounted (openExecution s.fabric id generation).1 := by
  have hanswers := openExecution_answers s.fabric id generation
  simp only [OpensOnZero] at hopens
  generalize openExecution s.fabric id generation = answer at hanswers hopens
  cases hanswers with
  | refused => exact h
  | @opened e next find =>
    refine h.store s.fabric.core id fun x hx => ?_
    obtain rfl := Option.some.inj hx
    refine ⟨hapart id e find, fun c hc => (by cases hc), fun p hp => ?_⟩
    rw [hopens next rfl e find p hp, ExecutionRecord.account_of_nil rfl rfl rfl]

theorem AllAccounted.next {s : System} (hapart : ∀ id, ViewSeatsApart (s.fabric.view id))
    {event : Event} (hopens : OpensOnZero s event) (h : AllAccounted s.fabric) :
    AllAccounted (s.next event).fabric := by
  by_cases hsubmits : event.submits = true
  · cases event with
    | submitCandidate r => exact submitCandidate_accounted h r
    | submitCandidateFailure r => exact submitCandidateFailure_accounted h r
    | submitCandidateAbstention r => exact submitCandidateAbstention_accounted h r
    | submitEvaluation r => exact submitEvaluation_accounted h r
    | _ => cases hsubmits
  · by_cases hopening : ∃ id generation, event = .openExecution id generation
    · obtain ⟨id, generation, rfl⟩ := hopening
      exact openExecution_accounted hapart hopens h
    · intro id e' x' he' hx'
      rcases next_execution he' hx' with hsame | ⟨e, he, hwritten⟩
      · exact h id _ x' hsame hx'
      · exact hwritten.accounted (by simpa using hsubmits)
          (fun hopen => hopening ⟨_, _, hopen⟩) hx' fun x hx => h id e x he hx

/-- A run whose executions open on zero keeps its accounts. -/
theorem reachable_accounted (config : FabricConfig) {events : List Event}
    (h : Along System.next OpensOnZero (System.initial config) events) :
    AllAccounted ((System.initial config).run events).fabric := by
  refine run_invariant_reached (I := fun s => AllAccounted s.fabric)
    (fun before event hopens hbefore => ?_) h fun _ _ _ hnone => by cases hnone
  exact hbefore.next (fun id => reachable_seatsApart config before id) hopens

/-! ## Results -/

/-- A result prepared now says of every participant what it did in the
execution the result is for. -/
def PreparesAccounted (s : System) : Prop :=
  ∀ id e x r, s.fabric.find id = some e → e.execution = some x → x.result = none →
    (prepareResult s.fabric id e.spec.generation).2 = .ok r →
    r.execution = x.id ∧ ∀ o ∈ r.participants, o.account = x.account e.spec o.id

theorem decideResult_participants {limits : Limits} {e : EnsembleRecord} {x : ExecutionRecord}
    {r : EnsembleResult} (h : decideResult limits e x = .ok r) :
    r.execution = x.id ∧ r.participants = e.participants.map (participantOutcome x) := by
  obtain ⟨decided, hselect, rfl⟩ := decideResult_eq_ok.mp h
  rcases selectResult_eq_ok hselect with ⟨rfl, -⟩ | ⟨-, c, -, rfl⟩
  · exact ⟨rfl, rfl⟩
  · exact ⟨rfl, rfl⟩

theorem AllAccounted.prepares {s : System} (h : AllAccounted s.fabric) : PreparesAccounted s := by
  intro id e x r he hx hundecided hprepared
  obtain ⟨hexecution, hparticipants⟩ :=
    decideResult_participants (prepareResult_decides hprepared he hx hundecided)
  refine ⟨hexecution, fun o ho => ?_⟩
  rw [hparticipants] at ho
  obtain ⟨p, hp, rfl⟩ := List.mem_map.mp ho
  exact (h id e x he hx).seats p hp

/-- A result can be prepared for an execution that has just been opened. -/
theorem decideResult_of_nil (limits : Limits) (e : EnsembleRecord) {x : ExecutionRecord}
    (h : x.candidates = []) : ∃ r, decideResult limits e (computeReports e x) = .ok r := by
  have hinputs : ∀ inputs : ArbitrationInputs, inputs.candidates = [] →
      (arbitrate inputs).noEligibleCandidate = true := by
    intro inputs hnone
    rw [arbitrate, hnone]
    rfl
  have hnobody : (computeReports e x).arbitration.noEligibleCandidate = true :=
    hinputs _ (by simp [arbitrationInputsIn, h])
  have hselection : hasSelection e (computeReports e x) = false := by
    rw [hasSelection, hnobody]
    simp
  refine ⟨explainedResult limits e (computeReports e x)
    (undecidedResult limits e (computeReports e x)), decideResult_eq_ok.mpr ⟨_, ?_, rfl⟩⟩
  rw [selectResult]
  simp only [hselection, Bool.and_false, Bool.false_eq_true, if_false]

/-- An execution that opens on spent counters is reported with them. -/
theorem opensOnZero_of_prepares {s : System} {event : Event}
    (h : PreparesAccounted (s.next event)) : OpensOnZero s event := by
  cases event with
  | openExecution id generation =>
    change PreparesAccounted { s with fabric := (openExecution s.fabric id generation).1 } at h
    simp only [OpensOnZero]
    have hanswers := openExecution_answers s.fabric id generation
    generalize openExecution s.fabric id generation = answer at hanswers h ⊢
    cases hanswers with
    | refused =>
      intro next hnext
      cases hnext
    | @opened e first find named =>
      intro next _ e' find' p hp
      obtain rfl := Option.some.inj (find.symm.trans find')
      let x : ExecutionRecord := { id := first, coordinatorEpoch := s.fabric.core.epoch }
      obtain ⟨r, hr⟩ := decideResult_of_nil s.fabric.config.limits (e.holding x) (x := x) rfl
      have hstored : (s.fabric.store id (e.holding x)).find id = some (e.holding x) :=
        Fabric.find_store_self ..
      have hprepared : (prepareResult (s.fabric.store id (e.holding x)) id e.spec.generation).2
          = .ok r := by
        rw [prepareResult, hstored]
        simp only [EnsembleRecord.holding_spec, ne_eq, not_true, if_false]
        exact hr
      obtain ⟨-, haccounts⟩ := h id (e.holding x) x r hstored rfl rfl hprepared
      have hmine := haccounts (participantOutcome (computeReports (e.holding x) x) p) (by
        rw [(decideResult_participants hr).2]
        exact List.mem_map_of_mem hp)
      rw [participantOutcome_account, ExecutionRecord.account_of_nil rfl rfl rfl] at hmine
      exact hmine
  | _ => trivial

/-- The results of a run count what each participant did in the execution the
result is for, in every state of the run, if and only if every execution of
the run opens on counters at zero. -/
theorem prepared_accounts_iff (config : FabricConfig) (events : List Event) :
    (∀ before, before <+: events → PreparesAccounted ((System.initial config).run before))
      ↔ Along System.next OpensOnZero (System.initial config) events := by
  constructor
  · intro h
    rw [along_iff]
    intro before event hprefix
    have hafter := h (before ++ [event]) hprefix
    unfold System.run at hafter
    rw [run_append] at hafter
    exact opensOnZero_of_prepares hafter
  · rintro h before ⟨rest, rfl⟩
    exact (reachable_accounted config (along_append.mp h).1).prepares

namespace Sample

/-- A candidate and its judge. -/
def accountedSpec : EnsembleSpec where
  id := ⟨1⟩
  generation := ⟨1⟩
  participants := [participant 1 candidateRole, participant 2 judgeRole]

/-- An execution in which the judge submits one evaluation, and its end. -/
def judgedThenEnded : List Event :=
  start accountedSpec ++ [content 1 1 [7], advance, judge 2 1 1 1 .accept,
    .cancelEnsemble ⟨1⟩ ⟨1⟩ "done", advance]

/-- The next execution of the generation. -/
def opensAgain : Event := .openExecution ⟨1⟩ ⟨1⟩

end Sample

/-- The second execution has no evaluations, and its result counts the one of
the first. -/
theorem next_execution_miscounted :
    ¬ PreparesAccounted ((Sample.reached Sample.judgedThenEnded).next Sample.opensAgain)
      ∧ (Sample.execution (Sample.judgedThenEnded ++ [Sample.opensAgain])).map
          (fun x => (x.id.value, x.evaluations.length)) = some (2, 0)
      ∧ (Sample.prepared (Sample.judgedThenEnded ++ [Sample.opensAgain])).participants.map
          (fun o => (o.id.value, o.evaluations)) = [(1, 0), (2, 1)] := by
  refine ⟨fun hprepares => ?_, by decide +kernel, by decide +kernel⟩
  have hzero := opensOnZero_of_prepares hprepares
  simp only [Sample.opensAgain, OpensOnZero] at hzero
  have hopens :
      (openExecution (Sample.reached Sample.judgedThenEnded).fabric ⟨1⟩ ⟨1⟩).2 = .ok ⟨2⟩ := by
    decide +kernel
  have hspent : (Sample.ensemble Sample.judgedThenEnded).any
      (fun e => e.participants.any fun p => decide (p.account ≠ {})) = true := by decide +kernel
  obtain ⟨e, he, hspent⟩ := (Option.any_eq_true ..).mp hspent
  obtain ⟨p, hp, hspent⟩ := List.any_eq_true.mp hspent
  exact of_decide_eq_true hspent (hzero ⟨2⟩ hopens e he p hp)

end EnsembleFabric
