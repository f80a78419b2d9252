import EnsembleFabric.Transitions

/-!
# A failure reported twice

A failure report leaves the seat to its incarnation: the generation, the
worker and the boot stay, so the same report passes the same fences again.
A candidate that was failed is no longer in flight. A candidate that was
rewound is: it waits in DECLARED for its next attempt, still attributed to
the incarnation, and a second report takes that attempt as well
(`failure_report_idempotent_iff`).

The release loop is taken apart candidate by candidate: it writes each slot
by itself, `releasedAs` is what becomes of one
(`handleParticipantFailure_candidates`), and what it counts at the seats is
compared separately (`SameButTallies`). The first report leaves the record
`reportedRecord`; the second one passes its fences at the seat the first one
left (`admitFailureReport_again`) and releases what is still held there.

`Fabric.work` is what the claim compares: participants, candidates,
evaluations and plans of an ensemble. Counters of the runtime, which count
every report, are not part of it.
-/

namespace EnsembleFabric

open List (Forall₂)
open Checks

/-! ## What a report does to the candidates -/

/-- The candidate is in flight with the incarnation that holds the seat. -/
def CandidateRecord.heldBy (c : CandidateRecord) (p : ParticipantRecord) : Bool :=
  c.participant == p.id && c.participantGeneration == p.generation && c.inFlight

/-- The candidate after its incarnation was reported. -/
def releasedAs (spec : EnsembleSpec) (p : ParticipantRecord) (kind : ParticipantFailureKind)
    (detail : String) (c : CandidateRecord) : CandidateRecord :=
  if c.heldBy p then
    if retryAuthorized spec c (failureError kind) then
      rewoundCandidate { c with worker := p.worker, workerBoot := p.workerBoot }
    else
      failedCandidate c (failureError kind) s!"participant failure ({kind.toString}): {detail}"
  else c

theorem heldBy_iff {c : CandidateRecord} {p : ParticipantRecord} :
    c.heldBy p = true ↔ ¬ (c.participant ≠ p.id ∨ c.participantGeneration ≠ p.generation
      ∨ c.inFlight = false) := by
  simp [CandidateRecord.heldBy, not_or, and_assoc]

section Loop

variable (p : ParticipantRecord) (kind : ParticipantFailureKind) (detail : String)

/-- The release of a candidate writes its own slot. -/
theorem releaseCandidate_candidates (work : EnsembleRecord × ExecutionRecord) (index : Nat) :
    (releaseCandidate p kind detail work index).2.candidates
      = work.2.candidates.modify index (releasedAs work.1.spec p kind detail) := by
  obtain ⟨e, x⟩ := work
  unfold releaseCandidate
  simp only
  cases hc : x.candidates[index]? with
  | none =>
    rw [List.getElem?_eq_none_iff] at hc
    rw [List.modify_eq_self hc]
  | some c =>
    obtain ⟨hlt, rfl⟩ := List.getElem?_eq_some_iff.mp hc
    rw [List.modify_eq_set_getElem?, hc, Option.map_eq_map, Option.map_some, Option.getD_some,
      releasedAs]
    simp only
    by_cases hheld : x.candidates[index].heldBy p = true
    · rw [if_neg (heldBy_iff.mp hheld), if_pos hheld]
      split <;> rfl
    · rw [if_pos (not_not.mp (mt heldBy_iff.mpr hheld)), if_neg hheld, List.set_getElem_self]

/-- The release of a slot that the incarnation does not hold. -/
theorem releaseCandidate_unheld (work : EnsembleRecord × ExecutionRecord) {index : Nat}
    (h : ∀ c, work.2.candidates[index]? = some c → c.heldBy p = false) :
    releaseCandidate p kind detail work index = work := by
  obtain ⟨e, x⟩ := work
  unfold releaseCandidate
  simp only
  split
  · rfl
  · rename_i c hc
    rw [if_pos (not_not.mp (mt heldBy_iff.mpr (by simp [h c hc])))]

theorem releaseLoop_candidates (count start : Nat) (work : EnsembleRecord × ExecutionRecord) :
    ((List.range' start count).foldl (releaseCandidate p kind detail) work).1.spec = work.1.spec
      ∧ ∀ i,
        ((List.range' start count).foldl (releaseCandidate p kind detail) work).2.candidates[i]?
        = if start ≤ i ∧ i < start + count then
            work.2.candidates[i]?.map (releasedAs work.1.spec p kind detail)
          else work.2.candidates[i]? := by
  induction count generalizing start work with
  | zero =>
    refine ⟨rfl, fun i => ?_⟩
    rw [if_neg (by omega)]
    rfl
  | succ count ih =>
    rw [List.range'_succ, List.foldl_cons]
    obtain ⟨hspec, hrest⟩ := ih (start + 1) (releaseCandidate p kind detail work start)
    rw [releaseCandidate_spec] at hspec
    refine ⟨hspec, fun i => ?_⟩
    rw [hrest i, releaseCandidate_spec, releaseCandidate_candidates, List.getElem?_modify]
    by_cases hfirst : start = i
    · rw [if_neg (by omega), if_pos (by omega)]
      simp [hfirst]
    · by_cases hin : start + 1 ≤ i ∧ i < start + 1 + count
      · rw [if_pos hin, if_pos (by omega)]
        simp [hfirst]
      · rw [if_neg hin, if_neg (by omega)]
        simp [hfirst]

/-- A failure report releases every candidate by itself. -/
theorem handleParticipantFailure_candidates (e : EnsembleRecord) (x : ExecutionRecord) :
    (handleParticipantFailure e x p kind detail).2.candidates
      = x.candidates.map (releasedAs e.spec p kind detail) := by
  refine List.ext_getElem? fun i => ?_
  rw [handleParticipantFailure, List.range_eq_range',
    (releaseLoop_candidates p kind detail x.candidates.length 0 (e, x)).2 i, List.getElem?_map]
  split
  · rfl
  · rename_i hout
    have hnone : x.candidates[i]? = none := List.getElem?_eq_none (by omega)
    rw [show (e, x).2.candidates[i]? = x.candidates[i]? from rfl, hnone]
    rfl

/-- An incarnation that holds nothing has nothing to release. -/
theorem handleParticipantFailure_unheld (e : EnsembleRecord) (x : ExecutionRecord)
    (h : ∀ c ∈ x.candidates, c.heldBy p = false) :
    handleParticipantFailure e x p kind detail = (e, x) := by
  rw [handleParticipantFailure]
  generalize List.range x.candidates.length = indices
  induction indices with
  | nil => rfl
  | cons index rest ih =>
    rw [List.foldl_cons, releaseCandidate_unheld p kind detail
      (e, x) fun c hc => h c (List.mem_of_getElem? hc), ih]

/-- Two records of a seat that differ in what became of its candidates. -/
def SameButTallies (q q' : ParticipantRecord) : Prop :=
  q' = { q with candidatesFailed := q'.candidatesFailed, retriesConsumed := q'.retriesConsumed }

/-- A failure report counts at the seats, and writes nothing else there. -/
theorem handleParticipantFailure_tallies (e : EnsembleRecord) (x : ExecutionRecord) :
    (handleParticipantFailure e x p kind detail).1.spec = e.spec
      ∧ Forall₂ SameButTallies e.participants
        (handleParticipantFailure e x p kind detail).1.participants := by
  refine Threaded.foldl_related (f := releaseCandidate p kind detail)
    (R := fun a b : EnsembleRecord × ExecutionRecord =>
      b.1.spec = a.1.spec ∧ Forall₂ SameButTallies a.1.participants b.1.participants)
    (fun a => ⟨rfl, List.forall₂_same.mpr fun _ _ => rfl⟩)
    (fun h h' => ⟨h'.1.trans h.1, Slots.forall₂_trans (R := SameButTallies)
      (fun hab hbc => by rw [SameButTallies, hbc, hab]) h.2 h'.2⟩) ?_ (e, x)
  rintro ⟨e, x⟩ index -
  have htally (id : ParticipantId) (change : ParticipantRecord → ParticipantRecord)
      (h : ∀ q, SameButTallies q (change q)) :
      Forall₂ SameButTallies e.participants (tallyParticipant e.participants id change) :=
    Slots.forall₂_map fun q _ => by
      split
      · exact h q
      · rfl
  unfold releaseCandidate
  simp only
  split
  · exact ⟨rfl, List.forall₂_same.mpr fun _ _ => rfl⟩
  · split
    · exact ⟨rfl, List.forall₂_same.mpr fun _ _ => rfl⟩
    · split
      · exact ⟨rfl, htally _ _ fun _ => rfl⟩
      · exact ⟨rfl, htally _ _ fun _ => rfl⟩

end Loop

/-! ## The report and its repetition -/

theorem StrongId.next_ne {domain : IdDomain} (id : StrongId domain) : id.next ≠ id := by
  intro h
  have hvalue : id.value + 1 = id.value := congrArg StrongId.value h
  rw [UInt64.add_eq_left] at hvalue
  cases hvalue

/-- The record an accepted report leaves. -/
def reportedRecord (seat : Seat) (kind : ParticipantFailureKind) (detail : String) :
    EnsembleRecord :=
  let p := lostParticipant seat.participant kind detail
  match seat.ensemble.execution with
  | none => seat.write p
  | some x =>
      if x.status ≠ .opened then seat.write p else releasedRecord (seat.write p) x p kind detail

theorem reportParticipantFailure_accepted {f : Fabric} {a : ParticipantAuthority} {seat : Seat}
    (h : admitFailureReport f a = .ok seat) (kind : ParticipantFailureKind) (detail : String) :
    (reportParticipantFailure f a kind detail).1
      = f.store a.ensemble (reportedRecord seat kind detail) := by
  rw [reportParticipantFailure, h, reportedRecord]
  simp only
  rw [show (seat.write (lostParticipant seat.participant kind detail)).execution
    = seat.ensemble.execution from rfl]
  cases seat.ensemble.execution with
  | none => rfl
  | some x =>
    simp only
    split
    · rfl
    · rw [releasedRecord]
      simp only
      split <;> rfl

/-- The seat was lost to this failure, whatever was counted since. -/
def LostSeat (p q : ParticipantRecord) (kind : ParticipantFailureKind) (detail : String) : Prop :=
  SameButTallies (lostParticipant p kind detail) q

theorem reportedRecord_seats {e : EnsembleRecord} {id : ParticipantId} {seat : Seat}
    (hat : SeatAt e id seat) (kind : ParticipantFailureKind) (detail : String) :
    (reportedRecord seat kind detail).spec = e.spec
      ∧ ∃ q, (reportedRecord seat kind detail).participant? id = some q
        ∧ LostSeat seat.participant q kind detail := by
  obtain rfl := hat.ensemble
  have hlost : (seat.write (lostParticipant seat.participant kind detail)).participant? id
      = some (lostParticipant seat.participant kind detail) :=
    Slots.find?_set hat.index (by simpa [lostParticipant] using hat.id)
  rw [reportedRecord]
  cases seat.ensemble.execution with
  | none => exact ⟨rfl, _, hlost, rfl⟩
  | some x =>
    simp only
    split
    · exact ⟨rfl, _, hlost, rfl⟩
    · obtain ⟨hspec, hseats⟩ := handleParticipantFailure_tallies
        (lostParticipant seat.participant kind detail) kind detail
        (seat.write (lostParticipant seat.participant kind detail)) x
      refine ⟨hspec, Slots.find?_follows (R := SameButTallies) _ (·.id == id) (fun h => ?_)
        hseats hlost⟩
      rw [h]

/-- The report passes its own fences again, at the seat it left. -/
theorem admitFailureReport_again {f : Fabric} {a : ParticipantAuthority} {seat : Seat}
    (h : admitFailureReport f a = .ok seat) (kind : ParticipantFailureKind) (detail : String) :
    ∃ seat', admitFailureReport (reportParticipantFailure f a kind detail).1 a = .ok seat'
      ∧ SeatAt (reportedRecord seat kind detail) a.participant seat'
      ∧ LostSeat seat.participant seat'.participant kind detail := by
  rw [reportParticipantFailure_accepted h]
  simp only [admitFailureReport, bind_eq_ok, demand_eq_ok, located_eq_ok, uncounted_eq_ok,
    pure_eq_ok] at h ⊢
  obtain ⟨_, hvalid, _, hepoch, e, he, _, hgeneration, seat, hseat, _, hincarnation, rfl⟩ := h
  have hat := seat?_eq_some hseat
  obtain ⟨hspec, q, hq, hlost⟩ := reportedRecord_seats hat kind detail
  obtain ⟨seat', hseat', rfl⟩ := seat?_isSome hq
  refine ⟨seat', ⟨(), hvalid, (), hepoch, _, Fabric.find_store_self .., (), ?_, seat', hseat', (),
    ?_,
    rfl⟩, seat?_eq_some hseat', hlost⟩
  · rwa [hspec]
  · rw [hlost]
    exact hincarnation

/-- What the runtime holds of an ensemble: its participants, and the
candidates, evaluations and evaluation plans of its execution. -/
def Fabric.work (f : Fabric) (id : EnsembleId) :
    Option (List ParticipantRecord
      × Option (List CandidateRecord × List EvaluationRecord × List PendingEvaluation)) :=
  (f.find id).map fun e =>
    (e.participants, e.execution.map fun x => (x.candidates, x.evaluations, x.pending))

/-- The report gives a candidate another attempt, and the execution goes on. It is
decided by the state before the report, without the report being made. -/
def failureRetries (f : Fabric) (a : ParticipantAuthority) (kind : ParticipantFailureKind) :
    Bool :=
  match admitFailureReport f a with
  | .error _ => false
  | .ok seat =>
      !cancelsExecution seat.ensemble seat.participant && seat.ensemble.execution.any fun x =>
        x.status == .opened && x.candidates.any fun c =>
          c.heldBy seat.participant && retryAuthorized seat.ensemble.spec c (failureError kind)

/-- A report that finds nobody in flight writes what is there. -/
theorem reportedRecord_settled {e : EnsembleRecord} {id : ParticipantId} {p : ParticipantRecord}
    {seat : Seat} {kind : ParticipantFailureKind} {detail : String} (hat : SeatAt e id seat)
    (hlost : LostSeat p seat.participant kind detail)
    (hidle : ∀ x, e.execution = some x → x.status = .opened →
      cancelsExecution e seat.participant = false
        ∧ ∀ c ∈ x.candidates, c.heldBy seat.participant = false) :
    reportedRecord seat kind detail = e := by
  have hagain : lostParticipant seat.participant kind detail = seat.participant := by
    rw [hlost]
    rfl
  obtain rfl := hat.ensemble
  have hwrite : seat.write seat.participant = seat.ensemble := by
    obtain ⟨hlt, hget⟩ := List.getElem?_eq_some_iff.mp hat.get
    rw [Seat.write, ← hget, List.set_getElem_self]
  rw [reportedRecord, hagain, hwrite]
  cases hx : seat.ensemble.execution with
  | none => rfl
  | some x =>
    simp only
    split
    · rfl
    · rename_i hopen
      obtain ⟨hgoes, hnobody⟩ := hidle x hx (not_not.mp hopen)
      rw [releasedRecord, handleParticipantFailure_unheld _ _ _ _ _ hnobody]
      simp only [hgoes, Bool.false_eq_true, if_false]
      rw [EnsembleRecord.holding, ← hx]

theorem LostSeat.heldBy {p q : ParticipantRecord} {kind : ParticipantFailureKind} {detail : String}
    (h : LostSeat p q kind detail) (c : CandidateRecord) : c.heldBy q = c.heldBy p := by
  rw [h]
  rfl

theorem LostSeat.cancels {p q : ParticipantRecord} {kind : ParticipantFailureKind}
    {detail : String} (h : LostSeat p q kind detail) {e e' : EnsembleRecord}
    (hspec : e'.spec = e.spec) : cancelsExecution e' q = cancelsExecution e p := by
  rw [h, cancelsExecution, hspec]
  rfl

/-- A candidate that was given another attempt waits for it at the same seat. -/
theorem releasedAs_retried {spec : EnsembleSpec} {p : ParticipantRecord}
    {kind : ParticipantFailureKind} {c : CandidateRecord} (detail : String)
    (hheld : c.heldBy p = true) (hretry : retryAuthorized spec c (failureError kind) = true) :
    (releasedAs spec p kind detail c).generation = c.generation.next
      ∧ (releasedAs spec p kind detail c).heldBy p = true
      ∧ retryAuthorized spec (releasedAs spec p kind detail c) (failureError kind) = true := by
  rw [releasedAs, if_pos hheld, if_pos hretry]
  refine ⟨rfl, ?_, hretry⟩
  rw [heldBy_iff] at hheld ⊢
  intro hother
  rcases hother with hparticipant | hgeneration | hflight
  · exact hheld (.inl hparticipant)
  · exact hheld (.inr (.inl hgeneration))
  · cases hflight

/-- A candidate without another attempt has left the seat. -/
theorem releasedAs_dropped {spec : EnsembleSpec} {p : ParticipantRecord}
    {kind : ParticipantFailureKind} {c : CandidateRecord} (detail : String)
    (h : c.heldBy p = true → retryAuthorized spec c (failureError kind) = false) :
    (releasedAs spec p kind detail c).heldBy p = false := by
  rw [releasedAs]
  by_cases hheld : c.heldBy p = true
  · rw [if_pos hheld, h hheld]
    simp [CandidateRecord.heldBy, failedCandidate, CandidateRecord.inFlight, permitsOutput]
  · rw [if_neg hheld]
    simpa using hheld

/-- The execution an accepted report leaves open. -/
theorem reportedRecord_open {seat : Seat} {kind : ParticipantFailureKind} {detail : String}
    {x' : ExecutionRecord} (hx' : (reportedRecord seat kind detail).execution = some x')
    (hopen : x'.status = .opened) :
    ∃ x, seat.ensemble.execution = some x ∧ x.status = .opened
      ∧ cancelsExecution seat.ensemble seat.participant = false
      ∧ x'.candidates = x.candidates.map (releasedAs seat.ensemble.spec seat.participant kind
        detail) := by
  rw [reportedRecord] at hx'
  cases hx : seat.ensemble.execution with
  | none =>
    rw [hx] at hx'
    rw [show (seat.write (lostParticipant seat.participant kind detail)).execution
      = seat.ensemble.execution from rfl, hx] at hx'
    cases hx'
  | some x =>
    rw [hx] at hx'
    simp only at hx'
    split at hx'
    · rename_i hended
      rw [show (seat.write (lostParticipant seat.participant kind detail)).execution
        = seat.ensemble.execution from rfl, hx] at hx'
      obtain rfl := Option.some.inj hx'
      exact absurd hopen hended
    · rename_i hstatus
      obtain ⟨hspec, -⟩ := handleParticipantFailure_tallies
        (lostParticipant seat.participant kind detail) kind detail
        (seat.write (lostParticipant seat.participant kind detail)) x
      rw [releasedRecord, EnsembleRecord.holding_execution] at hx'
      obtain rfl := Option.some.inj hx'
      split at hopen
      · cases hopen
      · rename_i hgoes
        refine ⟨x, rfl, not_not.mp hstatus, ?_, ?_⟩
        · rw [cancelsExecution, hspec] at hgoes
          simpa [cancelsExecution, lostParticipant, Seat.write] using hgoes
        · rw [if_neg hgoes]
          exact handleParticipantFailure_candidates ..

/-- Where the execution goes on, its candidates are released one by one. -/
theorem reportedRecord_released (seat : Seat) {x : ExecutionRecord}
    (kind : ParticipantFailureKind) (detail : String)
    (hx : seat.ensemble.execution = some x) (hopen : x.status = .opened)
    (hgoes : cancelsExecution seat.ensemble seat.participant = false) :
    ∃ x', (reportedRecord seat kind detail).execution = some x' ∧ x'.status = .opened
      ∧ x'.candidates = x.candidates.map (releasedAs seat.ensemble.spec seat.participant kind
        detail) := by
  obtain ⟨hspec, -⟩ := handleParticipantFailure_tallies
    (lostParticipant seat.participant kind detail) kind detail
    (seat.write (lostParticipant seat.participant kind detail)) x
  have hstays : cancelsExecution
      (handleParticipantFailure (seat.write (lostParticipant seat.participant kind detail)) x
        (lostParticipant seat.participant kind detail) kind detail).1
      (lostParticipant seat.participant kind detail) = false := by
    rw [cancelsExecution, hspec]
    exact hgoes
  refine ⟨(handleParticipantFailure (seat.write (lostParticipant seat.participant kind detail)) x
    (lostParticipant seat.participant kind detail) kind detail).2, ?_, ?_, ?_⟩
  · rw [reportedRecord, hx]
    simp only [hopen, ne_eq, not_true, if_false, releasedRecord, hstays, Bool.false_eq_true]
    rfl
  · rw [handleParticipantFailure_status, hopen]
  · exact handleParticipantFailure_candidates ..

theorem failureRetries_iff {f : Fabric} {a : ParticipantAuthority} {seat : Seat}
    {kind : ParticipantFailureKind} (h : admitFailureReport f a = .ok seat) :
    failureRetries f a kind = true
      ↔ cancelsExecution seat.ensemble seat.participant = false
        ∧ ∃ x, seat.ensemble.execution = some x ∧ x.status = .opened
          ∧ ∃ c ∈ x.candidates, c.heldBy seat.participant = true
            ∧ retryAuthorized seat.ensemble.spec c (failureError kind) = true := by
  rw [failureRetries, h]
  simp [Option.any_eq_true]

/-- The second report changes what the first one left exactly if the first
one gave a candidate another attempt. -/
theorem repeated_report_iff (f : Fabric) (a : ParticipantAuthority) (kind : ParticipantFailureKind)
    (detail : String) :
    (∀ id, (reportParticipantFailure (reportParticipantFailure f a kind detail).1 a kind
          detail).1.work id = (reportParticipantFailure f a kind detail).1.work id)
      ↔ failureRetries f a kind = false := by
  cases hadmit : admitFailureReport f a with
  | error refusal =>
    have hfirst :
        (reportParticipantFailure f a kind detail).1 = (f.reject refusal (α := Unit)).1 := by
      rw [reportParticipantFailure, hadmit]
    have hagain : admitFailureReport (f.reject refusal (α := Unit)).1 a = .error refusal := hadmit
    refine iff_of_true (fun id => ?_) (by rw [failureRetries, hadmit])
    rw [hfirst, reportParticipantFailure, hagain]
    rfl
  | ok seat =>
    obtain ⟨seat', hadmit', hat', hlost⟩ := admitFailureReport_again hadmit kind detail
    obtain ⟨he, hat⟩ := admitFailureReport_eq_ok hadmit
    obtain ⟨hspec, -⟩ := reportedRecord_seats hat kind detail
    rw [reportParticipantFailure_accepted hadmit']
    rw [reportParticipantFailure_accepted hadmit] at hadmit' ⊢
    constructor
    · intro hsame
      rw [← Bool.not_eq_true, failureRetries_iff hadmit]
      rintro ⟨hgoes, x, hx, hopen, c, hc, hheld, hretry⟩
      obtain ⟨x₁, hx₁, hopen₁, hcandidates₁⟩ :=
        reportedRecord_released seat kind detail hx hopen hgoes
      have hensemble := hat'.ensemble
      obtain ⟨x₂, hx₂, -, hcandidates₂⟩ := reportedRecord_released seat' kind detail
        (by rw [hensemble]; exact hx₁) hopen₁ (by rw [hensemble, hlost.cancels hspec]; exact hgoes)
      have hwork := hsame a.ensemble
      rw [Fabric.work, Fabric.work, Fabric.find_store_self, Fabric.find_store_self] at hwork
      simp only [Option.map_some, hx₁, hx₂, Option.some.injEq, Prod.mk.injEq] at hwork
      obtain ⟨-, hcandidates, -⟩ := hwork
      rw [hcandidates₂, hcandidates₁, List.map_map, hensemble, hspec] at hcandidates
      have hslot := List.map_inj_left.mp hcandidates c hc
      obtain ⟨-, hheld₁, hretry₁⟩ := releasedAs_retried detail hheld hretry
      rw [← hlost.heldBy] at hheld₁
      obtain ⟨hgeneration, -⟩ := releasedAs_retried (p := seat'.participant) detail hheld₁ hretry₁
      have hnext := congrArg CandidateRecord.generation hslot
      rw [Function.comp_apply, hgeneration] at hnext
      exact StrongId.next_ne _ hnext
    · intro hidle
      have hnothing : reportedRecord seat' kind detail = reportedRecord seat kind detail := by
        refine reportedRecord_settled hat' hlost fun x₁ hx₁ hopen₁ => ?_
        obtain ⟨x, hx, hopen, hgoes, hcandidates⟩ := reportedRecord_open hx₁ hopen₁
        refine ⟨by rw [hlost.cancels hspec]; exact hgoes, fun c₁ hc₁ => ?_⟩
        rw [hcandidates] at hc₁
        obtain ⟨c, hc, rfl⟩ := List.mem_map.mp hc₁
        rw [hlost.heldBy]
        refine releasedAs_dropped detail fun hheld => ?_
        rw [← Bool.not_eq_true]
        intro hretry
        rw [← Bool.not_eq_true, failureRetries_iff hadmit] at hidle
        exact hidle ⟨hgoes, x, hx, hopen, c, hc, hheld, hretry⟩
      intro id
      rw [hnothing]
      simp only [Fabric.work, Fabric.find_store]
      split <;> rfl

/-- In every reachable state, reporting a failure twice leaves what
reporting it once leaves, if and only if the first report gives no candidate
of the incarnation another attempt in an execution that goes on. -/
theorem failure_report_idempotent_iff (config : FabricConfig) (events : List Event)
    (a : ParticipantAuthority) (kind : ParticipantFailureKind) (detail : String) :
    let f := ((System.initial config).run events).fabric
    let once := (reportParticipantFailure f a kind detail).1
    (∀ id, (reportParticipantFailure once a kind detail).1.work id = once.work id)
      ↔ failureRetries f a kind = false :=
  repeated_report_iff _ a kind detail

namespace Sample

/-- One candidate with three attempts. -/
def threeAttempts : EnsembleSpec where
  id := ⟨1⟩
  generation := ⟨1⟩
  participants := [participant 1 candidateRole]
  retry := { maxAttempts := 3 }

/-- What the slots of the execution hold after some reports of one failure:
generation, attempt and attempts used, and the retries counted at the seat. -/
def slots (reports : List Event) : Option (List (UInt64 × Nat × Nat) × List Nat) :=
  (ensemble (start threeAttempts ++ reports)).bind fun e => e.execution.map fun x =>
    (x.candidates.map fun c => (c.generation.value, c.attempt, c.attemptsUsed),
      e.participants.map (·.retriesConsumed))

def workerLost : Event := .reportParticipantFailure (authority 1) .unavailable "closed"

end Sample

/-- One dispatch, and one loss of its worker that is reported twice: the
second report takes another attempt and another generation. -/
theorem second_report_takes_an_attempt :
    Sample.slots [Sample.workerLost] = some ([(2, 2, 1)], [1])
      ∧ Sample.slots [Sample.workerLost, Sample.workerLost] = some ([(3, 3, 1)], [2]) := by
  decide +kernel

end EnsembleFabric
