import EnsembleFabric.Stages
import EnsembleFabric.Reporting

/-!
# An advance at rest

The rounds of an advance repeat until one makes no progress, at most 64
times. They come to rest long before: a round that dispatched a candidate of
a sequential stage is followed by one that gives up the lost candidates
behind it, a round that activated fallback by one that works off the
fallback stage, and after that every round leaves the state as it is, its
reports aside.

`Rest` says what such a state looks like. Either a stage is current that has
nothing to dispatch and is not complete (`Quiet`), or all stages are passed,
every planned evaluation is settled, handed out or waits for its evaluator
(`Passive`), and fallback is not called for. The argument has three parts.
One round ends at rest or in one of two other ways (`RoundEnds`); the second
round ends at rest in both of them (`Interrupted.round`, `activated_round`);
and a round at rest changes nothing but the reports (`Rest.round`), for
which the reports of the same evidence have to say the same (`Reporting`).
`advanceLoop_rests` puts them together over the rounds of one advance.
-/

namespace EnsembleFabric

open List (Forall₂)

/-! ## Seats -/

/-- Two records of an ensemble whose participants serve alike. -/
structure SameSeats (e e' : EnsembleRecord) : Prop where
  spec : e'.spec = e.spec
  participants : Forall₂ (fun p p' : ParticipantRecord => p'.id = p.id
    ∧ p'.generation = p.generation ∧ p'.status = p.status ∧ p'.registered = p.registered
    ∧ p'.coordinatorEpoch = p.coordinatorEpoch ∧ p'.declaration = p.declaration)
    e.participants e'.participants

theorem SameSeats.refl (e : EnsembleRecord) : SameSeats e e :=
  ⟨rfl, List.forall₂_same.mpr fun _ _ => ⟨rfl, rfl, rfl, rfl, rfl, rfl⟩⟩

theorem SameSeats.trans {a b c : EnsembleRecord} (h : SameSeats a b) (h' : SameSeats b c) :
    SameSeats a c :=
  ⟨h'.spec.trans h.spec, Slots.forall₂_trans
    (fun ⟨h₁, h₂, h₃, h₄, h₅, h₆⟩ ⟨h₁', h₂', h₃', h₄', h₅', h₆'⟩ =>
      ⟨h₁'.trans h₁, h₂'.trans h₂, h₃'.trans h₃, h₄'.trans h₄, h₅'.trans h₅, h₆'.trans h₆⟩)
    h.participants h'.participants⟩

theorem SameSeats.awaiting {e e' : EnsembleRecord} (h : SameSeats e e') (c : CandidateRecord) :
    AdvanceState.awaitingReplacement e' c = AdvanceState.awaitingReplacement e c := by
  rw [AdvanceState.awaitingReplacement, AdvanceState.awaitingReplacement, h.spec]

/-- A seat that is found was found before, and serves as it did. -/
theorem SameSeats.seat {e e' : EnsembleRecord} (h : SameSeats e e') {id : ParticipantId}
    {p' : ParticipantRecord} (hp' : e'.participant? id = some p') :
    ∃ p, e.participant? id = some p ∧ p'.generation = p.generation
      ∧ (∀ epoch, p'.authoritative epoch = p.authoritative epoch) ∧ p'.capable = p.capable := by
  rcases Slots.find?_related (fun p : ParticipantRecord => p.id == id)
      (fun p : ParticipantRecord => p.id == id) (fun hsame => by rw [hsame.1]) h.participants with
    ⟨-, hnone⟩ | ⟨p, q, hp, hq, -, hgeneration, hstatus, hregistered, hepoch, -⟩
  · rw [EnsembleRecord.participant?, hnone] at hp'
    cases hp'
  · obtain rfl := Option.some.inj (hq.symm.trans hp')
    refine ⟨p, hp, hgeneration, fun epoch => ?_, ?_⟩
    · rw [ParticipantRecord.authoritative, ParticipantRecord.authoritative, hregistered, hstatus,
        hepoch]
    · rw [ParticipantRecord.capable, ParticipantRecord.capable, hstatus]

theorem failCandidate_seats (e : EnsembleRecord) (x : ExecutionRecord) (index : Nat)
    (c : CandidateRecord) (failure : EnsembleError) (detail : String) :
    SameSeats e (failCandidate e x index c failure detail).1 := by
  refine ⟨rfl, Slots.forall₂_map fun p _ => ?_⟩
  split <;> exact ⟨rfl, rfl, rfl, rfl, rfl, rfl⟩

theorem rewindCandidateForRetry_seats (e : EnsembleRecord) (x : ExecutionRecord) (index : Nat)
    (c : CandidateRecord) : SameSeats e (rewindCandidateForRetry e x index c).1 := by
  refine ⟨rfl, Slots.forall₂_map fun p _ => ?_⟩
  split <;> exact ⟨rfl, rfl, rfl, rfl, rfl, rfl⟩

/-- A seat is written back in the same hands. -/
theorem SameSeat.seats {e : EnsembleRecord} {index : Nat} {p p' : ParticipantRecord}
    (hp : e.participants[index]? = some p) (h : SameSeat p p') :
    SameSeats e { e with participants := e.participants.set index p' } :=
  ⟨rfl, Slots.forall₂_set (fun _ => ⟨rfl, rfl, rfl, rfl, rfl, rfl⟩) hp
    ⟨h.same.id, h.same.generation, h.status, h.registered, h.same.coordinatorEpoch,
      h.same.declaration⟩⟩

@[simp] theorem nextSequence_epoch (k : Core) : k.nextSequence.2.epoch = k.epoch := by
  unfold Core.nextSequence
  split <;> rfl

namespace AdvanceState

/-! ## Dispatch at rest -/

section Positions

variable (epoch : CoordinatorEpoch) (e : EnsembleRecord) (x : ExecutionRecord)
  (stage : StageSpec) (index : Nat)

/-- The candidate at the position, if the stage has yet to dispatch it, waits
for its participant. -/
def Resting : Prop :=
  ∀ c p, x.candidates[index]? = some c → c.stage = stage.id → c.state = .declared →
    e.participant? c.participant = some p →
    p.authoritative epoch = false ∧ (p.capable || awaitingReplacement e c) = true
      ∧ c.participantGeneration = p.generation

/-- The candidate at the position waits for an earlier one of its sequential
stage. -/
def Blocked : Prop :=
  ∃ c p, x.candidates[index]? = some c ∧ c.stage = stage.id ∧ c.state = .declared
    ∧ e.participant? c.participant = some p ∧ p.authoritative epoch = true
    ∧ c.participantGeneration = p.generation ∧ stage.mode = .sequential
    ∧ earlierPending x stage c = true

/-- The candidate at the position is dispatched. -/
def Sent : Prop :=
  ∃ c, x.candidates[index]? = some c ∧ c.stage = stage.id ∧ c.state = .dispatched

/-- The dispatch loop finds nothing to do. -/
def Quiet : Prop :=
  ∃ k, (∀ i < k, Resting epoch e x stage i)
    ∧ (x.candidates.length ≤ k ∨ Blocked epoch e x stage k)

/-- The dispatch loop ended with a dispatch. -/
def Interrupted : Prop :=
  stage.mode = .sequential ∧ ∃ k, (∀ i < k, Resting epoch e x stage i) ∧ Sent x stage k

end Positions

theorem adoptedCandidate_self {c : CandidateRecord} {p : ParticipantRecord}
    (h : c.participantGeneration = p.generation) : adoptedCandidate c p = c := by
  rw [adoptedCandidate, ← h]

theorem adopt_self {s : AdvanceState} {index : Nat} {c : CandidateRecord} {p : ParticipantRecord}
    (hc : s.execution.candidates[index]? = some c)
    (hcurrent : c.participantGeneration = p.generation) : s.adopt index c p = s := by
  obtain ⟨hlt, hget⟩ := List.getElem?_eq_some_iff.mp hc
  rw [adopt, adoptedCandidate_self hcurrent, setCandidate, ← hget, List.set_getElem_self]

/-- A position at rest is passed over. -/
theorem dispatchOne_resting {stage : StageSpec} {s : AdvanceState} {index : Nat}
    (h : Resting s.core.epoch s.ensemble s.execution stage index) (dispatchedAny : Bool) :
    dispatchOne stage dispatchedAny s index = .proceed dispatchedAny s := by
  have hcases := dispatchOne_cases stage dispatchedAny s index
  generalize dispatchOne stage dispatchedAny s index = next at hcases ⊢
  cases hcases with
  | skipped => rfl
  | kept target =>
    obtain ⟨-, -, hcurrent⟩ := h _ _ target.at_ target.stage target.state target.seat
    rw [adopt_self target.at_ hcurrent]
  | stranded target _ gone =>
    obtain ⟨-, hkeeps, -⟩ := h _ _ target.at_ target.stage target.state target.seat
    rw [gone] at hkeeps
    cases hkeeps
  | blocked target served | last target served | sent target served =>
    obtain ⟨haway, -⟩ := h _ _ target.at_ target.stage target.state target.seat
    rw [served] at haway
    cases haway

theorem dispatchOne_blocked {stage : StageSpec} {s : AdvanceState} {index : Nat}
    (h : Blocked s.core.epoch s.ensemble s.execution stage index) :
    dispatchOne stage false s index = .stop s := by
  obtain ⟨c, p, hc, hstage, hstate, hseat, hserved, hcurrent, hmode, hearlier⟩ := h
  have hadopt := adopt_self hc hcurrent
  have hsame : ∀ {d q}, DispatchTarget stage s index d q → d = c ∧ q = p := by
    intro d q htarget
    obtain rfl := Option.some.inj (hc.symm.trans htarget.at_)
    exact ⟨rfl, Option.some.inj (htarget.seat.symm.trans hseat)⟩
  have hcases := dispatchOne_cases stage false s index
  generalize dispatchOne stage false s index = next at hcases ⊢
  cases hcases with
  | skipped idle => exact absurd ⟨hc, hstage, hstate, hseat⟩ (idle c p)
  | kept target away | stranded target away =>
    obtain ⟨rfl, rfl⟩ := hsame target
    rw [hserved] at away
    cases away
  | blocked target =>
    obtain ⟨rfl, rfl⟩ := hsame target
    rw [hadopt]
  | last target _ _ free =>
    obtain ⟨rfl, rfl⟩ := hsame target
    rw [hadopt, adoptedCandidate_self hcurrent, hearlier] at free
    exact free.elim nofun nofun
  | sent _ _ mode => exact absurd hmode mode

/-- A quiet stage has nothing to dispatch. -/
theorem Quiet.dispatchStage {stage : StageSpec} {s : AdvanceState}
    (h : Quiet s.core.epoch s.ensemble s.execution stage) : dispatchStage stage s = s := by
  obtain ⟨k, hresting, hend⟩ := h
  have hloop : ∀ n i, i + n = s.execution.candidates.length → i ≤ k →
      dispatchLoop stage (List.range' i n) false s = s := by
    intro n
    induction n with
    | zero => exact fun _ _ _ => rfl
    | succ n ih =>
      intro i hlength hle
      rw [List.range'_succ, dispatchLoop]
      rcases Nat.lt_or_eq_of_le hle with hlt | rfl
      · rw [dispatchOne_resting (hresting i hlt)]
        exact ih (i + 1) (by omega) hlt
      · have hblocked := hend.resolve_left (by omega)
        rw [dispatchOne_blocked hblocked]
  rw [AdvanceState.dispatchStage, List.range_eq_range']
  exact hloop _ 0 (Nat.zero_add _) (Nat.zero_le k)

/-- What one step of the dispatch loop leaves alone. -/
structure OnePosition (index : Nat) (s s' : AdvanceState) : Prop where
  epoch : s'.core.epoch = s.core.epoch
  seats : SameSeats s.ensemble s'.ensemble
  length : s'.execution.candidates.length = s.execution.candidates.length
  others : ∀ i, i ≠ index → s'.execution.candidates[i]? = s.execution.candidates[i]?

theorem OnePosition.refl (index : Nat) (s : AdvanceState) : OnePosition index s s :=
  ⟨rfl, .refl _, rfl, fun _ _ => rfl⟩

theorem OnePosition.trans {index : Nat} {a b c : AdvanceState} (h : OnePosition index a b)
    (h' : OnePosition index b c) : OnePosition index a c :=
  ⟨h'.epoch.trans h.epoch, h.seats.trans h'.seats, h'.length.trans h.length,
    fun i hi => (h'.others i hi).trans (h.others i hi)⟩

theorem onePosition_set (s : AdvanceState) (index : Nat) (c : CandidateRecord) :
    OnePosition index s (s.setCandidate index c) :=
  ⟨rfl, .refl _, List.length_set, fun _ hi => List.getElem?_set_ne (Ne.symm hi)⟩

theorem onePosition_strand (s : AdvanceState) (index : Nat) (c : CandidateRecord)
    (p : ParticipantRecord) : OnePosition index s (s.strand index c p) :=
  ⟨rfl, failCandidate_seats s.ensemble s.execution index c .participantUnavailable
    (strandedDetail p), List.length_set,
    fun _ hi => List.getElem?_set_ne (Ne.symm hi)⟩

theorem onePosition_dispatch (s : AdvanceState) (index : Nat) (c : CandidateRecord)
    (p : ParticipantRecord) : OnePosition index s (s.dispatchCandidate index c p) :=
  ⟨nextSequence_epoch s.core, .refl _, List.length_set,
    fun _ hi => List.getElem?_set_ne (Ne.symm hi)⟩

theorem Resting.one {stage : StageSpec} {s s' : AdvanceState} {index i : Nat}
    (h : Resting s.core.epoch s.ensemble s.execution stage i) (hone : OnePosition index s s')
    (hi : i ≠ index) : Resting s'.core.epoch s'.ensemble s'.execution stage i := by
  intro c p' hc hstage hstate hp'
  rw [hone.others i hi] at hc
  obtain ⟨p, hp, hgeneration, hauthoritative, hcapable⟩ := hone.seats.seat hp'
  obtain ⟨haway, hkeeps, hcurrent⟩ := h c p hc hstage hstate hp
  refine ⟨by rw [hone.epoch, hauthoritative, haway], ?_, ?_⟩
  · rw [hcapable, hone.seats.awaiting, hkeeps]
  · rw [hgeneration]
    exact hcurrent

/-- What one step of the dispatch loop leaves behind. -/
inductive Scanned (stage : StageSpec) (s : AdvanceState) (index : Nat) : DispatchNext → Prop
  | proceed {dispatchedAny s'} (one : OnePosition index s s')
      (resting : Resting s'.core.epoch s'.ensemble s'.execution stage index)
      (kept : ∀ d, s.execution.candidates[index]? = some d → d.state = .dispatched →
        s'.execution.candidates[index]? = some d) :
      Scanned stage s index (.proceed dispatchedAny s')
  | blocked {s'} (one : OnePosition index s s')
      (blocked : Blocked s'.core.epoch s'.ensemble s'.execution stage index) :
      Scanned stage s index (.stop s')
  | interrupted {s'} (one : OnePosition index s s') (mode : stage.mode = .sequential)
      (sent : Sent s'.execution stage index) (progress : s'.progress = true)
      (free : ∃ c p, DispatchTarget stage s index c p ∧ p.authoritative s.core.epoch = true
        ∧ earlierPending (s.adopt index c p).execution stage (adoptedCandidate c p) = false) :
      Scanned stage s index (.stop s')

theorem dispatchOne_scanned {stage : StageSpec} {dispatchedAny : Bool} {s : AdvanceState}
    (hfirst : stage.mode = .sequential → dispatchedAny = false) (index : Nat) :
    Scanned stage s index (dispatchOne stage dispatchedAny s index) := by
  have hkept : ∀ {c p} {s' : AdvanceState}, DispatchTarget stage s index c p →
      ∀ d, s.execution.candidates[index]? = some d → d.state = .dispatched →
        s'.execution.candidates[index]? = some d := by
    intro c p s' target d hd hstate
    obtain rfl := Option.some.inj (target.at_.symm.trans hd)
    rw [target.state] at hstate
    cases hstate
  have hcases := dispatchOne_cases stage dispatchedAny s index
  generalize dispatchOne stage dispatchedAny s index = next at hcases ⊢
  cases hcases with
  | skipped idle =>
    exact .proceed (.refl index s) (fun c p hc hstage hstate hp =>
      absurd ⟨hc, hstage, hstate, hp⟩ (idle c p)) fun _ hd _ => hd
  | @kept c p target away keeps =>
    refine .proceed (onePosition_set s index _) (fun c' p' hc' _ _ hp' => ?_) (hkept target)
    obtain rfl := Option.some.inj ((setCandidate_get target.at_ _).symm.trans hc')
    obtain rfl := Option.some.inj (target.seat.symm.trans hp')
    exact ⟨away, keeps, rfl⟩
  | @stranded c p target away gone =>
    refine .proceed ((onePosition_set s index _).trans (onePosition_strand _ index _ p))
      (fun c' p' hc' _ hstate' _ => ?_) (hkept target)
    have hget : ((s.adopt index c p).strand index
        (adoptedCandidate c p) p).execution.candidates[index]?
          = some (failedCandidate (adoptedCandidate c p) .participantUnavailable
            (strandedDetail p)) :=
      setCandidate_get (setCandidate_get target.at_ _) _
    obtain rfl := Option.some.inj (hget.symm.trans hc')
    cases hstate'
  | @blocked c p target served mode _ earlier =>
    exact .blocked (onePosition_set s index _) ⟨adoptedCandidate c p, p,
      setCandidate_get target.at_ _, target.stage, target.state, target.seat, served, rfl, mode,
      earlier⟩
  | @last c p target served mode free =>
    refine .interrupted ((onePosition_set s index _).trans (onePosition_dispatch _ index _ p)) mode
      ⟨_, setCandidate_get (setCandidate_get target.at_ _) _, target.stage, rfl⟩ rfl
      ⟨c, p, target, served, free.resolve_left ?_⟩
    rw [hfirst mode]
    exact nofun
  | @sent c p target served mode =>
    refine .proceed ((onePosition_set s index _).trans (onePosition_dispatch _ index _ p))
      (fun c' p' hc' _ hstate' _ => ?_) (hkept target)
    have hget := setCandidate_get (setCandidate_get target.at_ (adoptedCandidate c p))
      (dispatchedCandidate s.core p s.core.nextSequence.1 (adoptedCandidate c p))
    obtain rfl := Option.some.inj (hget.symm.trans hc')
    cases hstate'

/-- A dispatched candidate of the stage stands before all that could be
dispatched. -/
structure Guarded (stage : StageSpec) (s : AdvanceState) (j : Nat) (d : CandidateRecord) :
    Prop where
  at_ : s.execution.candidates[j]? = some d
  named : d.stage = stage.id
  state : d.state = .dispatched
  before : ∀ index c p, DispatchTarget stage s index c p → p.authoritative s.core.epoch = true →
    d.id.value < c.id.value

theorem Guarded.proceeds {stage : StageSpec} {s s' : AdvanceState} {j index : Nat}
    {d : CandidateRecord} (h : Guarded stage s j d) (hone : OnePosition index s s')
    (hresting : Resting s'.core.epoch s'.ensemble s'.execution stage index)
    (hkept : ∀ d, s.execution.candidates[index]? = some d → d.state = .dispatched →
      s'.execution.candidates[index]? = some d) : Guarded stage s' j d := by
  refine ⟨?_, h.named, h.state, fun i c p' htarget hserved => ?_⟩
  · by_cases hj : j = index
    · subst hj
      exact hkept d h.at_ h.state
    · rw [hone.others j hj]
      exact h.at_
  · by_cases hi : i = index
    · subst hi
      obtain ⟨haway, -⟩ := hresting c p' htarget.at_ htarget.stage htarget.state htarget.seat
      rw [hserved] at haway
      cases haway
    · have hat := htarget.at_
      rw [hone.others i hi] at hat
      obtain ⟨p, hp, -, hauthoritative, -⟩ := hone.seats.seat htarget.seat
      rw [hone.epoch, hauthoritative] at hserved
      exact h.before i c p ⟨hat, htarget.stage, htarget.state, hp⟩ hserved

/-- Nothing is dispatched behind a candidate in flight. -/
theorem Guarded.blocks {stage : StageSpec} {s : AdvanceState} {j index : Nat}
    {c d : CandidateRecord} {p : ParticipantRecord} (h : Guarded stage s j d)
    (htarget : DispatchTarget stage s index c p) (hserved : p.authoritative s.core.epoch = true) :
    earlierPending (s.adopt index c p).execution stage (adoptedCandidate c p) = true := by
  have hlt := h.before index c p htarget hserved
  have hj : j ≠ index := by
    rintro rfl
    obtain rfl := Option.some.inj (h.at_.symm.trans htarget.at_)
    exact UInt64.lt_irrefl _ hlt
  have hmem : d ∈ (s.adopt index c p).execution.candidates :=
    List.mem_of_getElem? (((onePosition_set s index _).others j hj).trans h.at_)
  refine List.any_eq_true.mpr ⟨d, hmem, ?_⟩
  have hne : d.id ≠ c.id := fun heq => UInt64.lt_irrefl _ (heq ▸ hlt)
  simp [adoptedCandidate, h.named, htarget.stage, hne, hlt, inFlight_of_dispatched h.state]

/-- The dispatch loop ends at rest, or with a dispatch that nothing in flight
stood before. -/
theorem dispatchLoop_scanned {stage : StageSpec} {dispatchedAny : Bool} {s : AdvanceState}
    (n k : Nat) (hlength : k + n = s.execution.candidates.length)
    (hfirst : stage.mode = .sequential → dispatchedAny = false)
    (hbefore : ∀ i < k, Resting s.core.epoch s.ensemble s.execution stage i) :
    let s' := dispatchLoop stage (List.range' k n) dispatchedAny s
    Quiet s'.core.epoch s'.ensemble s'.execution stage
      ∨ Interrupted s'.core.epoch s'.ensemble s'.execution stage ∧ s'.progress = true
        ∧ ∀ j d, ¬ Guarded stage s j d := by
  induction n generalizing k s dispatchedAny with
  | zero => exact .inl ⟨k, hbefore, .inl (Nat.le_of_eq hlength.symm)⟩
  | succ n ih =>
    have hscanned := dispatchOne_scanned hfirst k (s := s)
    rw [List.range'_succ, dispatchLoop]
    have hrest : ∀ {s'}, OnePosition k s s' →
        ∀ i < k, Resting s'.core.epoch s'.ensemble s'.execution stage i :=
      fun hone i hi => (hbefore i hi).one hone (Nat.ne_of_lt hi)
    cases hnext : dispatchOne stage dispatchedAny s k with
    | proceed any' s' =>
      rw [hnext] at hscanned
      cases hscanned with
      | proceed one resting kept =>
        have hstep := ih (k + 1) (s := s') (by rw [one.length]; omega)
          (fun hmode => (dispatchOne_proceeds hnext hmode).trans (hfirst hmode))
          (fun i hi => by
            rcases Nat.lt_succ_iff_lt_or_eq.mp hi with hlt | rfl
            · exact hrest one i hlt
            · exact resting)
        exact hstep.imp id fun ⟨hinterrupted, hprogress, hguarded⟩ =>
          ⟨hinterrupted, hprogress, fun j d h => hguarded j d (h.proceeds one resting kept)⟩
    | stop s' =>
      rw [hnext] at hscanned
      cases hscanned with
      | blocked one blocked => exact .inl ⟨k, hrest one, .inr blocked⟩
      | interrupted one mode sent progress free =>
        refine .inr ⟨⟨mode, k, hrest one, sent⟩, progress, fun j d h => ?_⟩
        obtain ⟨c, p, htarget, hserved, hfree⟩ := free
        rw [h.blocks htarget hserved] at hfree
        cases hfree

theorem dispatchStage_scanned (stage : StageSpec) (s : AdvanceState) :
    let s' := dispatchStage stage s
    Quiet s'.core.epoch s'.ensemble s'.execution stage
      ∨ Interrupted s'.core.epoch s'.ensemble s'.execution stage ∧ s'.progress = true
        ∧ ∀ j d, ¬ Guarded stage s j d := by
  rw [dispatchStage, List.range_eq_range']
  exact dispatchLoop_scanned _ 0 (Nat.zero_add _) (fun _ => rfl) fun i hi => by cases hi

/-- After a dispatch, the candidate in flight stands before the others. -/
theorem Interrupted.guarded {stage : StageSpec} {s : AdvanceState}
    (h : Interrupted s.core.epoch s.ensemble s.execution stage)
    (hordered : (s.execution.candidates.map (·.id.value)).Pairwise (· < ·)) :
    ∃ j d, Guarded stage s j d := by
  obtain ⟨-, k, hresting, d, hd, hstage, hstate⟩ := h
  refine ⟨k, d, hd, hstage, hstate, fun i c p htarget hserved => ?_⟩
  rcases Nat.lt_trichotomy i k with hlt | rfl | hlt
  · obtain ⟨haway, -⟩ := hresting i hlt c p htarget.at_ htarget.stage htarget.state htarget.seat
    rw [hserved] at haway
    cases haway
  · obtain rfl := Option.some.inj (hd.symm.trans htarget.at_)
    rw [htarget.state] at hstate
    cases hstate
  · obtain ⟨hk, rfl⟩ := List.getElem?_eq_some_iff.mp hd
    obtain ⟨hi, rfl⟩ := List.getElem?_eq_some_iff.mp htarget.at_
    exact List.pairwise_iff_getElem.mp (List.pairwise_map.mp hordered) k i hk hi hlt

/-! ## Evaluation at rest -/

/-- The planned evaluation at the position is settled, handed out, or waits
for its evaluator. -/
def Passive (epoch : CoordinatorEpoch) (e : EnsembleRecord) (x : ExecutionRecord) (index : Nat) :
    Prop :=
  ∀ p, x.pending[index]? = some p → p.answered = false → p.abandoned = false →
    p.emitted = false → ∃ evaluator, e.participant? p.evaluator = some evaluator
      ∧ p.evaluatorGeneration = evaluator.generation ∧ evaluator.authoritative epoch = false
      ∧ evaluator.capable = true

theorem emitOne_at_rest {s : AdvanceState} {index : Nat}
    (h : Passive s.core.epoch s.ensemble s.execution index) : s.emitOne index = s := by
  unfold emitOne
  split
  · rfl
  · rename_i p hp
    split
    · rfl
    · rename_i hopen
      simp only [Bool.or_eq_true, not_or, Bool.not_eq_true] at hopen
      obtain ⟨evaluator, hseat, hcurrent, haway, hcapable⟩ :=
        h p hp hopen.1.1 hopen.1.2 hopen.2
      simp only [hseat, hcurrent, haway, hcapable, ne_eq, not_true_eq_false, if_false,
        Bool.not_false, if_true]

theorem emitEvaluations_at_rest {s : AdvanceState}
    (h : ∀ i, Passive s.core.epoch s.ensemble s.execution i) : s.emitEvaluations = s := by
  have hfold : ∀ indices : List Nat, indices.foldl emitOne s = s := by
    intro indices
    induction indices with
    | nil => rfl
    | cons index rest ih => rw [List.foldl_cons, emitOne_at_rest (h index), ih]
  exact hfold _

/-- Emission leaves the position passive and the others as they are. -/
theorem emitOne_passive (s : AdvanceState) (index : Nat) :
    Passive (s.emitOne index).core.epoch (s.emitOne index).ensemble (s.emitOne index).execution
        index
      ∧ (s.emitOne index).core.epoch = s.core.epoch ∧ (s.emitOne index).ensemble = s.ensemble
      ∧ (s.emitOne index).execution.pending.length = s.execution.pending.length
      ∧ ∀ i, i ≠ index →
        (s.emitOne index).execution.pending[i]? = s.execution.pending[i]? := by
  have hset : ∀ {p p' q : PendingEvaluation}, s.execution.pending[index]? = some p →
      (s.execution.pending.set index p')[index]? = some q → q = p' := by
    intro p p' q hp hq
    obtain ⟨hlt, -⟩ := List.getElem?_eq_some_iff.mp hp
    rw [List.getElem?_set_self hlt] at hq
    exact (Option.some.inj hq).symm
  have hcases := emitOne_cases s index
  generalize s.emitOne index = s' at hcases ⊢
  cases hcases with
  | skipped idle =>
    exact ⟨fun p hp hanswered habandoned hemitted =>
      absurd ⟨hp, hanswered, habandoned, hemitted⟩ (idle p), rfl, rfl, rfl, fun _ _ => rfl⟩
  | kept unsent awaits =>
    refine ⟨fun p hp _ _ _ => ?_, rfl, rfl, rfl, fun _ _ => rfl⟩
    obtain rfl := Option.some.inj (unsent.at_.symm.trans hp)
    exact ⟨_, awaits.seat, awaits.current, awaits.away, awaits.capable⟩
  | abandoned unsent =>
    refine ⟨fun p hp _ habandoned _ => ?_, rfl, rfl, List.length_set,
      fun i hi => List.getElem?_set_ne (Ne.symm hi)⟩
    obtain rfl := hset unsent.at_ hp
    cases habandoned
  | emitted unsent =>
    refine ⟨fun p hp _ _ hemitted => ?_, nextSequence_epoch s.core, rfl, List.length_set,
      fun i hi => List.getElem?_set_ne (Ne.symm hi)⟩
    obtain rfl := hset unsent.at_ hp
    cases hemitted

theorem emitEvaluations_passive (s : AdvanceState) :
    let s' := s.emitEvaluations
    ∀ i, Passive s'.core.epoch s'.ensemble s'.execution i := by
  have hfold : ∀ (n k : Nat) (m : AdvanceState), k + n = m.execution.pending.length →
      (∀ i < k, Passive m.core.epoch m.ensemble m.execution i) →
      let m' := (List.range' k n).foldl emitOne m
      ∀ i, Passive m'.core.epoch m'.ensemble m'.execution i := by
    intro n
    induction n with
    | zero =>
      intro k m hlength hbefore _ i p hp
      obtain ⟨hlt, -⟩ := List.getElem?_eq_some_iff.mp hp
      have hlt : i < m.execution.pending.length := hlt
      exact hbefore i (by omega) p hp
    | succ n ih =>
      intro k m hlength hbefore
      obtain ⟨hpassive, hepoch, hensemble, hsame, hothers⟩ := emitOne_passive m k
      refine ih (k + 1) (m.emitOne k) (by omega) fun i hi => ?_
      rcases Nat.lt_succ_iff_lt_or_eq.mp hi with hlt | rfl
      · intro p hp
        rw [hothers i (Nat.ne_of_lt hlt)] at hp
        rw [hepoch, hensemble]
        exact hbefore i hlt p hp
      · exact hpassive
  rw [emitEvaluations, List.range_eq_range']
  exact hfold _ 0 s (Nat.zero_add _) fun i hi => by cases hi

/-- The decision of a report is that of any other on the same evidence: the
consensus of the report before is read once the depth is used up only. -/
theorem fallbackDecision_reported {e : EnsembleRecord} {x x' : ExecutionRecord}
    (h : x'.unreported = x.unreported) :
    fallbackDecision e (computeReports e x') = fallbackDecision e (computeReports e x) := by
  have hactivated : x'.fallbackActivated = x.fallbackActivated :=
    (congrArg ExecutionRecord.fallbackActivated h :)
  have hdepth : x'.fallbackDepth = x.fallbackDepth := (congrArg ExecutionRecord.fallbackDepth h :)
  have hpending : x'.pending = x.pending := (congrArg ExecutionRecord.pending h :)
  have hreports : (computeReports e x').unreported = (computeReports e x).unreported := by
    rw [computeReports_unreported, computeReports_unreported, h]
  have hwaiting : waiting (computeReports e x') = waiting (computeReports e x) := by
    rw [waiting, waiting, any_unreported hreports fun _ => rfl, computeReports_pending,
      computeReports_pending, hpending]
  unfold fallbackDecision
  rw [computeReports_fallbackActivated, computeReports_fallbackActivated,
    computeReports_fallbackDepth, computeReports_fallbackDepth, hactivated, hdepth, hwaiting]
  split
  · rename_i hmay
    simp only [Bool.and_eq_true, decide_eq_true_eq] at hmay
    have hbelow := hmay.1.2
    have hconsensus : (computeReports e x').consensus.state
        = (computeReports e x).consensus.state := by
      rw [computeReports_consensus_state, computeReports_consensus_state,
        fallbackRequired_below (x := withQuorum e x') (hdepth ▸ hbelow),
        fallbackRequired_below (x := withQuorum e x) hbelow,
        ← consensusOutcome_unreported e x', h, consensusOutcome_unreported]
    have hfires : (fun trigger => fallbackTriggerFires trigger e (computeReports e x'))
        = fun trigger => fallbackTriggerFires trigger e (computeReports e x) :=
      funext fun trigger =>
        fallbackTriggerFires_eq hreports (computeReports_quorum_eq h) hconsensus
    rw [hfires]
  · rfl

/-! ## States at rest -/

/-- No round changes more than the reports. -/
inductive Rest (s : AdvanceState) : Prop
  | waiting {stage} (current : s.currentStage = some stage)
      (declared : s.execution.declaredCurrentStage = true)
      (quiet : Quiet s.core.epoch s.ensemble s.execution stage)
      (incomplete : stageComplete stage s.execution = false)
  | decided (consumed : s.Consumed) (ready : s.PlanReady)
      (passive : ∀ i, Passive s.core.epoch s.ensemble s.execution i)
      (decision : fallbackDecision s.ensemble (computeReports s.ensemble s.execution) = none)

theorem Rest.progress {s : AdvanceState} (h : Rest s) (b : Bool) :
    Rest { s with progress := b } := by
  cases h with
  | waiting current declared quiet incomplete => exact .waiting current declared quiet incomplete
  | decided consumed ready passive decision =>
    exact .decided consumed ⟨ready.complete, ready.covered⟩ passive decision

theorem stageComplete_unreported (stage : StageSpec) (x : ExecutionRecord) :
    stageComplete stage x.unreported = stageComplete stage x := by
  simp only [stageComplete, ExecutionRecord.unreported, List.filter_map, List.isEmpty_map,
    List.all_map]
  rfl

theorem earlierPending_unreported {x x' : ExecutionRecord} (h : x'.unreported = x.unreported)
    {stage : StageSpec} {c c' : CandidateRecord} (hid : c'.id = c.id) :
    earlierPending x' stage c' = earlierPending x stage c := by
  rw [earlierPending, earlierPending, hid]
  exact any_unreported h fun _ => rfl

/-- The slot at a position, up to its elimination text. -/
theorem getElem?_unreported {x x' : ExecutionRecord} (h : x'.unreported = x.unreported)
    {i : Nat} {c' : CandidateRecord} (hc' : x'.candidates[i]? = some c') :
    ∃ text, x.candidates[i]? = some { c' with eliminationReason := text } := by
  have hcandidates : x'.candidates.map (·.unreported) = x.candidates.map (·.unreported) :=
    congrArg ExecutionRecord.candidates h
  have hget : (x.candidates.map (·.unreported))[i]? = some c'.unreported := by
    rw [← hcandidates, List.getElem?_map, hc', Option.map_some]
  rw [List.getElem?_map] at hget
  obtain ⟨c, hc, hsame⟩ := Option.map_eq_some_iff.mp hget
  refine ⟨c.eliminationReason, hc.trans (congrArg some ?_)⟩
  exact (congrArg (fun d => { d with eliminationReason := c.eliminationReason }) hsame :)

theorem Resting.unreported {epoch : CoordinatorEpoch} {e : EnsembleRecord}
    {x x' : ExecutionRecord} {stage : StageSpec} {index : Nat} (h : x'.unreported = x.unreported)
    (hresting : Resting epoch e x stage index) : Resting epoch e x' stage index := by
  intro c' p hc' hstage hstate hseat
  obtain ⟨text, hc⟩ := getElem?_unreported h hc'
  exact hresting { c' with eliminationReason := text } p hc hstage hstate hseat

theorem Quiet.unreported {epoch : CoordinatorEpoch} {e : EnsembleRecord}
    {x x' : ExecutionRecord} {stage : StageSpec} (h : x'.unreported = x.unreported)
    (hquiet : Quiet epoch e x stage) : Quiet epoch e x' stage := by
  obtain ⟨k, hresting, hend⟩ := hquiet
  have hlength : x'.candidates.length = x.candidates.length := by
    have hcandidates := (congrArg (fun y => y.candidates.length) h :)
    simpa [ExecutionRecord.unreported] using hcandidates
  refine ⟨k, fun i hi => (hresting i hi).unreported h, hend.imp (hlength ▸ ·) ?_⟩
  rintro ⟨c, p, hc, hstage, hstate, hseat, hserved, hcurrent, hmode, hearlier⟩
  obtain ⟨_, hc'⟩ := getElem?_unreported h.symm hc
  exact ⟨_, p, hc', hstage, hstate, hseat, hserved, hcurrent, hmode,
    (earlierPending_unreported h rfl).trans hearlier⟩

theorem Rest.report {s : AdvanceState} (h : Rest s) : Rest s.report := by
  cases h with
  | waiting current declared quiet incomplete =>
    have hsame := computeReports_unreported s.ensemble s.execution
    refine .waiting current declared (quiet.unreported hsame) ?_
    rw [← stageComplete_unreported, AdvanceState.report, hsame, stageComplete_unreported]
    exact incomplete
  | decided consumed ready passive decision =>
    exact .decided consumed ready.report passive
      ((fallbackDecision_reported (computeReports_unreported _ _)).trans decision)

/-- Planning is reopened: the plan is complete, some content is not in it, and
there are evaluators. -/
def reopens (s : AdvanceState) : Bool :=
  s.execution.planningComplete
    && (s.execution.candidates.any fun c =>
          isContentState c.state && !everEvaluated s.execution c)
    && !s.ensemble.spec.evaluatingParticipants.isEmpty

/-- Planning is reopened behind all stages. -/
def stalls (s : AdvanceState) : Bool :=
  decide (s.stages.length ≤ s.execution.stageIndex) && s.reopens

theorem reopenPlanning_of_reopens {s : AdvanceState} (h : s.reopens = true) :
    s.reopenPlanning
      = { s with execution := { s.execution with planningComplete := false }, progress := true } :=
  if_pos h

theorem reopenPlanning_of_not {s : AdvanceState} (h : s.reopens = false) :
    s.reopenPlanning = s :=
  if_neg (Bool.eq_false_iff.mp h)

/-- Where the plan is ready, planning adds nothing: it is reopened at most
where there is nothing to plan. -/
theorem PlanReady.plans {s : AdvanceState} (h : s.PlanReady) :
    planEvaluations (reopenPlanning { s with progress := false })
      = .ok { s with progress := s.reopens } := by
  have hready : ({ s with progress := false } : AdvanceState).PlanReady := ⟨h.complete, h.covered⟩
  have hcomplete : { s.execution with planningComplete := true } = s.execution := by
    rw [← h.complete]
  have hkept : planEvaluations { s with progress := false } = .ok { s with progress := false } := by
    rw [planEvaluations, if_pos h.complete]
  cases hreopens : s.reopens with
  | false => rw [reopenPlanning_of_not (s := { s with progress := false }) hreopens, hkept]
  | true =>
    have hopened := reopenPlanning_of_reopens (s := { s with progress := false }) hreopens
    rcases hready.reopen with hsame | htargets
    · rw [hsame] at hopened
      cases congrArg AdvanceState.progress hopened
    · rw [hopened, planEvaluations_eq rfl, htargets]
      change Except.ok { s with
        execution := { s.execution with planningComplete := true }, progress := true } = _
      rw [hcomplete]

/-- A round at rest. -/
theorem Rest.round {s : AdvanceState} (h : Rest s) (limits : Limits) :
    ∃ x', advanceRound limits { s with progress := false }
        = .ok { s with execution := x', progress := s.stalls }
      ∧ (x' = s.execution ∨ x' = computeReports s.ensemble s.execution) := by
  cases h with
  | @waiting stage current declared quiet incomplete =>
    obtain ⟨hlt, hget⟩ := List.getElem?_eq_some_iff.mp current
    have hdispatch : dispatchStage stage { s with progress := false }
        = { s with progress := false } :=
      Quiet.dispatchStage (s := { s with progress := false }) quiet
    have hloop : stageLoop limits (s.stages.drop s.execution.stageIndex)
        { s with progress := false } = .ok { s with progress := false } := by
      rw [List.drop_eq_getElem_cons hlt, hget, stageLoop, declareStage, if_pos declared]
      simp only [bind, Except.bind, hdispatch, incomplete, Bool.false_eq_true, if_false]
      rfl
    have hstalls : s.stalls = false := by
      rw [stalls, decide_eq_false (Nat.not_le.mpr hlt), Bool.false_and]
    refine ⟨s.execution, ?_, .inl rfl⟩
    rw [hstalls]
    have hround : advanceRound limits { s with progress := false }
        = stageLoop limits (s.stages.drop s.execution.stageIndex)
            { s with progress := false } >>= fun m =>
          if m.stages.length ≤ m.execution.stageIndex then evaluationPhase m else .ok m := rfl
    rw [hround, hloop]
    exact if_neg (Nat.not_le.mpr hlt)
  | decided consumed ready passive decision =>
    have hround : advanceRound limits { s with progress := false }
        = evaluationPhase { s with progress := false } := by
      have hdrop : s.stages.drop s.execution.stageIndex = [] := List.drop_eq_nil_of_le consumed
      have hunfold : advanceRound limits { s with progress := false }
          = stageLoop limits (s.stages.drop s.execution.stageIndex)
              { s with progress := false } >>= fun m =>
            if m.stages.length ≤ m.execution.stageIndex then evaluationPhase m else .ok m := rfl
      rw [hunfold, hdrop]
      exact if_pos consumed
    have hplanned := ready.plans
    have hstalls : s.stalls = s.reopens := by
      rw [stalls, decide_eq_true (show s.stages.length ≤ s.execution.stageIndex from consumed),
        Bool.true_and]
    have hemitted : ({ s with progress := s.reopens } : AdvanceState).emitEvaluations
        = { s with progress := s.reopens } := emitEvaluations_at_rest passive
    refine ⟨computeReports s.ensemble s.execution, ?_, .inr rfl⟩
    let planned : AdvanceState := { s with progress := s.reopens }
    have hactivated : planned.report.activateFallback = planned.report := by
      have hnone : fallbackDecision planned.report.ensemble planned.report.execution = none :=
        decision
      rw [activateFallback, hnone]
    rw [hstalls, hround, evaluationPhase, hplanned]
    change Except.ok planned.emitEvaluations.report.activateFallback = _
    rw [hemitted, hactivated]
    rfl

/-- One execution is another with more reports. -/
abbrev Reported (e : EnsembleRecord) : ExecutionRecord → ExecutionRecord → Prop :=
  Relation.ReflTransGen fun x x' => x' = computeReports e x

/-- The rounds of an advance at rest. -/
theorem Rest.loop {s : AdvanceState} (h : Rest s) (limits : Limits) (fuel : Nat) :
    ∃ b x', advanceLoop limits fuel s = .ok { s with execution := x', progress := b }
      ∧ Reported s.ensemble s.execution x' ∧ Rest { s with execution := x', progress := b } := by
  induction fuel generalizing s with
  | zero => exact ⟨s.progress, s.execution, rfl, .refl, h⟩
  | succ fuel ih =>
    rw [advanceLoop]
    split
    · obtain ⟨x', hround, hx'⟩ := h.round limits
      have hrest : Rest { s with execution := x', progress := s.stalls } := by
        rcases hx' with rfl | rfl
        · exact h.progress s.stalls
        · exact h.report.progress s.stalls
      have hreported : Reported s.ensemble s.execution x' := by
        rcases hx' with rfl | rfl
        · exact .refl
        · exact .single rfl
      obtain ⟨b', x'', hloop, hreported', hrest'⟩ := ih hrest
      refine ⟨b', x'', ?_, hreported.trans hreported', hrest'⟩
      rw [hround]
      exact hloop
    · exact ⟨s.progress, s.execution, rfl, .refl, h⟩

/-! ## How a round ends -/

/-- The stages are used up, or one of them is not complete. -/
inductive StagesEnd (stages : List StageSpec) (s' : AdvanceState) : Prop
  | consumed (consumed : s'.Consumed)
  | waiting {stage} (mem : stage ∈ stages) (current : s'.currentStage = some stage)
      (declared : s'.execution.declaredCurrentStage = true)
      (incomplete : stageComplete stage s'.execution = false)
      (scanned : Quiet s'.core.epoch s'.ensemble s'.execution stage
        ∨ Interrupted s'.core.epoch s'.ensemble s'.execution stage ∧ s'.progress = true)

theorem StagesEnd.cons {stage : StageSpec} {stages : List StageSpec} {s' : AdvanceState}
    (h : StagesEnd stages s') : StagesEnd (stage :: stages) s' := by
  cases h with
  | consumed consumed => exact .consumed consumed
  | waiting mem current declared incomplete scanned =>
    exact .waiting (List.mem_cons_of_mem _ mem) current declared incomplete scanned

theorem stageLoop_ends {limits : Limits} {stages : List StageSpec} {s s' : AdvanceState}
    (hstages : stages = s.stages.drop s.execution.stageIndex)
    (h : stageLoop limits stages s = .ok s') : StagesEnd stages s' := by
  induction stages generalizing s with
  | nil =>
    obtain rfl := Except.ok.inj h
    exact .consumed (List.drop_eq_nil_iff.mp hstages.symm)
  | cons stage rest ih =>
    have hcurrent : s.currentStage = some stage := by
      rw [currentStage, ← List.head?_drop, ← hstages]
      rfl
    rw [stageLoop] at h
    obtain ⟨m, hm, hrest⟩ := Checks.bind_eq_ok.mp h
    obtain ⟨hsame, hdeclared⟩ := declareStage_same hm
    obtain ⟨-, hdispatchable, hsame'⟩ := dispatchStage_advances limits
      ⟨hsame.current.trans hcurrent, hdeclared⟩
    simp only at hrest
    split at hrest
    · have hplan := hsame.trans hsame'
      refine StagesEnd.cons (ih ?_ hrest)
      change rest = ((dispatchStage stage m).stages).drop
        ((dispatchStage stage m).execution.stageIndex + 1)
      rw [hplan.stages, hplan.stageIndex, ← List.tail_drop, ← hstages]
      rfl
    · rename_i hincomplete
      obtain rfl := Except.ok.inj hrest
      refine .waiting List.mem_cons_self hdispatchable.current hdispatchable.declared
        (by simpa using hincomplete) ?_
      rcases dispatchStage_scanned stage m with hquiet | ⟨hinterrupted, hprogress, -⟩
      · exact .inl hquiet
      · exact .inr ⟨hinterrupted, hprogress⟩

/-- A round ends at rest, with a dispatch in a sequential stage, or with the
activation of fallback. -/
inductive RoundEnds (limits : Limits) (s s' : AdvanceState) : Prop
  | rest (rest : Rest s')
  | interrupted {stage} (mem : stage ∈ s.stages.drop s.execution.stageIndex)
      (current : s'.currentStage = some stage)
      (declared : s'.execution.declaredCurrentStage = true)
      (interrupted : Interrupted s'.core.epoch s'.ensemble s'.execution stage)
      (progress : s'.progress = true)
  | activated {m trigger} (steps : AdvanceSteps limits s m) (consumed : m.Consumed)
      (decision : fallbackDecision m.ensemble m.execution = some trigger)
      (renewed : fallbackDecision m.ensemble (computeReports m.ensemble m.execution)
        = some trigger)
      (result : s' = m.activateFallback)

/-- An evaluation phase comes to its report. -/
theorem evaluationPhase_steps {limits : Limits} {s m : AdvanceState} (hconsumed : s.Consumed)
    (hm : planEvaluations s.reopenPlanning = .ok m) :
    AdvanceSteps limits s m.emitEvaluations.report ∧ SamePlan s m.emitEvaluations.report
      ∧ m.emitEvaluations.PlanReady := by
  have hreopened : s.reopenPlanning.Consumed := (reopenPlanning_same s).consumed hconsumed
  have hplan : SamePlan s m := by
    have hsame := planEvaluations_same s.reopenPlanning
    rw [hm] at hsame
    exact (reopenPlanning_same s).trans hsame
  have hplanned : m.Consumed := hplan.consumed hconsumed
  obtain ⟨hsteps, hsame, hemitted⟩ :=
    emitEvaluations_advances limits hplanned (planEvaluations_ready hm)
  have hplans : AdvanceSteps limits s m := by
    have hadvances := planEvaluations_advances limits hreopened
    rw [hm] at hadvances
    exact Relation.ReflTransGen.head (.reopened hconsumed) hadvances
  exact ⟨(hplans.trans hsteps).tail (.reported (hsame.consumed hplanned)),
    hplan.trans ⟨hsame.spec, hsame.extraStages, hsame.stageIndex⟩, hemitted⟩

theorem evaluationPhase_ends {limits : Limits} {s s' : AdvanceState} (hconsumed : s.Consumed)
    (h : evaluationPhase s = .ok s') : RoundEnds limits s s' := by
  obtain ⟨m, hm, hrest⟩ := Checks.bind_eq_ok.mp h
  obtain rfl := Except.ok.inj hrest
  obtain ⟨hsteps, hsame, hemitted⟩ := evaluationPhase_steps hconsumed hm
  have hreported : m.emitEvaluations.report.Consumed := hsame.consumed hconsumed
  cases hdecision : fallbackDecision m.emitEvaluations.report.ensemble
      m.emitEvaluations.report.execution with
  | none =>
    have hkept : m.emitEvaluations.report.activateFallback = m.emitEvaluations.report := by
      rw [activateFallback, hdecision]
    rw [hkept]
    refine .rest (.decided hreported hemitted.report (emitEvaluations_passive m) ?_)
    exact (fallbackDecision_reported (computeReports_unreported _ _)).trans hdecision
  | some trigger =>
    exact .activated hsteps hreported hdecision
      ((fallbackDecision_reported (computeReports_unreported _ _)).trans hdecision) rfl

theorem advanceRound_ends {limits : Limits} {s s' : AdvanceState}
    (h : advanceRound limits s = .ok s') : RoundEnds limits s s' := by
  obtain ⟨m, hm, hrest⟩ := Checks.bind_eq_ok.mp h
  have hsteps : AdvanceSteps limits s m := by
    have hadvances : Advances limits s
        (stageLoop limits (s.stages.drop s.execution.stageIndex) s) := stageLoop_advances _ rfl
    rw [hm] at hadvances
    exact hadvances
  split at hrest
  · rename_i hconsumed
    cases evaluationPhase_ends hconsumed hrest with
    | rest rest => exact .rest rest
    | interrupted mem =>
      rw [List.drop_eq_nil_of_le hconsumed] at mem
      cases mem
    | activated steps consumed decision renewed result =>
      exact .activated (hsteps.trans steps) consumed decision renewed result
  · rename_i hnot
    obtain rfl := Except.ok.inj hrest
    cases stageLoop_ends rfl hm with
    | consumed consumed => exact absurd consumed hnot
    | waiting mem current declared incomplete scanned =>
      rcases scanned with hquiet | ⟨hinterrupted, hprogress⟩
      · exact .rest (.waiting current declared hquiet incomplete)
      · exact .interrupted mem current declared hinterrupted hprogress

/-! ## The second round -/

/-- A stage with a dispatched candidate is not complete. -/
theorem Staged.incomplete {s : AdvanceState} (h : Staged s) {stage : StageSpec}
    (hcurrent : s.currentStage = some stage) {c : CandidateRecord}
    (hc : c ∈ s.execution.candidates) (hstate : c.state = .dispatched) :
    stageComplete stage s.execution = false := by
  by_contra hcomplete
  obtain ⟨other, hother, hasks, -⟩ := h.barrier.current c hc (inFlight_of_dispatched hstate)
  obtain rfl := Option.some.inj (hcurrent.symm.trans hother)
  have hresolved := hasks.resolved (by simpa using hcomplete) hc
  rw [inFlight_of_dispatched hstate] at hresolved
  cases hresolved

/-- After a dispatch in a sequential stage, one more round gives up the lost
candidates behind it. -/
theorem Interrupted.round {limits : Limits} {s s' : AdvanceState} {stage : StageSpec}
    (hs : Staged s) (hcurrent : s.currentStage = some stage)
    (hdeclared : s.execution.declaredCurrentStage = true)
    (h : Interrupted s.core.epoch s.ensemble s.execution stage)
    (hround : advanceRound limits { s with progress := false } = .ok s') : Rest s' := by
  obtain ⟨hlt, hget⟩ := List.getElem?_eq_some_iff.mp hcurrent
  obtain ⟨j, d, hguarded⟩ := h.guarded hs.barrier.ordered
  let s₀ : AdvanceState := { s with progress := false }
  have hguarded₀ : Guarded stage s₀ j d :=
    ⟨hguarded.at_, hguarded.named, hguarded.state, fun i c p htarget hserved =>
      hguarded.before i c p ⟨htarget.at_, htarget.stage, htarget.state, htarget.seat⟩ hserved⟩
  have hdispatchable₀ : Dispatchable stage s₀ := ⟨hcurrent, hdeclared⟩
  obtain ⟨hsteps, hdispatchable, -⟩ := dispatchStage_advances limits hdispatchable₀
  have hquiet := (dispatchStage_scanned stage s₀).resolve_right
    fun hinterrupted => hinterrupted.2.2 j d hguarded₀
  obtain ⟨hstaged, -, c, hc, hstate⟩ := advanceSteps_keep
    (P := fun m => Staged m ∧ m.execution.declaredCurrentStage = true
      ∧ ∃ c ∈ m.execution.candidates, c.state = .dispatched)
    (fun hstep ⟨hm, hmdeclared, c, hc, hstate⟩ =>
      ⟨hstep.staged hm, hstep.keeps_dispatched hm hmdeclared hc hstate⟩) hsteps
    ⟨⟨hs.barrier, hs.issued, hs.fallback⟩, hdeclared, d, List.mem_of_getElem? hguarded.at_,
      hguarded.state⟩
  have hincomplete := hstaged.incomplete hdispatchable.current hc hstate
  have hloop : stageLoop limits (s.stages.drop s.execution.stageIndex) s₀
      = .ok (dispatchStage stage s₀) := by
    rw [List.drop_eq_getElem_cons hlt, hget, stageLoop, declareStage, if_pos hdeclared]
    simp only [bind, Except.bind, hincomplete, Bool.false_eq_true, if_false]
    rfl
  have hunfold : advanceRound limits s₀
      = stageLoop limits (s.stages.drop s.execution.stageIndex) s₀ >>= fun m =>
        if m.stages.length ≤ m.execution.stageIndex then evaluationPhase m else .ok m := rfl
  rw [hunfold, hloop] at hround
  obtain ⟨hlt', -⟩ := List.getElem?_eq_some_iff.mp hdispatchable.current
  obtain rfl := Except.ok.inj ((if_neg (Nat.not_le.mpr hlt')).symm.trans hround)
  exact .waiting hdispatchable.current hdispatchable.declared hquiet hincomplete

/-- Fallback stays activated. -/
theorem AdvanceStep.keeps_activated {limits : Limits} {s s' : AdvanceState}
    (h : AdvanceStep limits s s') (hs : s.execution.fallbackActivated = true) :
    s'.execution.fallbackActivated = true := by
  have hsame : Undisturbed s s' → s'.execution.fallbackActivated = true :=
    fun hundisturbed => hundisturbed.keeps.fallbackActivated.trans hs
  cases h with
  | round | adopted | stranded | dispatched | completed | reported => exact hs
  | @declared _ stage _ undeclared result =>
    obtain ⟨m, hm, rfl⟩ := declareStage_eq_ok undeclared result
    have hmembers := declareMembers_same limits stage stage.participants s
    rw [hm, Threaded.final_ok] at hmembers
    change m.execution.fallbackActivated = true
    rw [hmembers.execution]
    exact hs
  | reopened => exact hsame (reopenPlanning_undisturbed s)
  | planned _ _ result =>
    have hplanned := planEvaluations_undisturbed s
    rw [result] at hplanned
    exact hsame hplanned
  | emitted index => exact hsame (emitOne_undisturbed s index)
  | activated _ decision => exact congrArg _ (activateFallback_eq decision).1

/-- After an activation, one more round works off the fallback stage. -/
theorem activated_round {limits : Limits} {m s' : AdvanceState} {trigger : FallbackTrigger}
    (hconsumed : m.Consumed) (hdecision : fallbackDecision m.ensemble m.execution = some trigger)
    (hround : advanceRound limits { m.activateFallback with progress := false } = .ok s') :
    Rest s' := by
  obtain ⟨hexecution, hspec, -⟩ := activateFallback_eq hdecision
  cases advanceRound_ends hround with
  | rest rest => exact rest
  | @interrupted stage mem _ _ interrupted =>
    have hstages : m.activateFallback.stages
        = m.stages ++ [fallbackStage m.ensemble.spec m.execution.fallbackDepth] := by
      rw [AdvanceState.stages, AdvanceState.stages, hspec, hexecution, List.append_assoc]
      rfl
    have hindex : m.activateFallback.execution.stageIndex = m.execution.stageIndex := by
      rw [hexecution]
      rfl
    change stage ∈ m.activateFallback.stages.drop m.activateFallback.execution.stageIndex at mem
    rw [hstages, hindex, List.drop_append, List.drop_eq_nil_of_le hconsumed,
      List.nil_append] at mem
    obtain rfl := List.mem_singleton.mp (List.mem_of_mem_drop mem)
    cases interrupted.1
  | activated steps _ decision =>
    have hactivated := advanceSteps_keep
      (P := fun m : AdvanceState => m.execution.fallbackActivated = true)
      AdvanceStep.keeps_activated steps (by rw [hexecution]; rfl)
    have hunused := (fallbackDecision_eq_some decision).2.1
    rw [hactivated] at hunused
    cases hunused

/-- Whatever an advance makes of an execution is at rest. -/
theorem advanceLoop_rests {limits : Limits} {s s' : AdvanceState} (hs : Staged s)
    (hprogress : s.progress = true) (fuel : Nat)
    (h : advanceLoop limits (fuel + 2) s = .ok s') : Rest s' := by
  have hrested : ∀ {m : AdvanceState} (n : Nat), Rest m → advanceLoop limits n m = .ok s' →
      Rest s' := by
    intro m n hm hloop
    obtain ⟨b, x', hresult, -, hrest⟩ := hm.loop limits n
    rw [hresult] at hloop
    exact Except.ok.inj hloop ▸ hrest
  rw [advanceLoop, if_pos hprogress] at h
  obtain ⟨m, hround, hloop⟩ := Checks.bind_eq_ok.mp h
  have hm : Staged m := by
    have hadvances := advanceRound_advances limits { s with progress := false }
    rw [hround] at hadvances
    exact advanceSteps_keep AdvanceStep.staged hadvances ⟨hs.barrier, hs.issued, hs.fallback⟩
  have hsecond : m.progress = true →
      (∀ m', advanceRound limits { m with progress := false } = .ok m' → Rest m') → Rest s' := by
    intro hprogress hnext
    rw [advanceLoop, if_pos hprogress] at hloop
    obtain ⟨m', hround', hloop'⟩ := Checks.bind_eq_ok.mp hloop
    exact hrested fuel (hnext m' hround') hloop'
  cases advanceRound_ends hround with
  | rest rest => exact hrested _ rest hloop
  | interrupted _ current declared interrupted progress =>
    exact hsecond progress fun m' hround' => interrupted.round hm current declared hround'
  | @activated n trigger _ consumed decision _ result =>
    subst result
    refine hsecond ?_ fun m' hround' => activated_round consumed decision hround'
    rw [activateFallback, decision]

end AdvanceState

end EnsembleFabric
