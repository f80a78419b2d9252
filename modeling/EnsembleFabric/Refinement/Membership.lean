import EnsembleFabric.Identity
import EnsembleFabric.Refinement.Advance
import EnsembleFabric.Refinement.Fences

/-!
# Definition and membership refine the lifecycle

`Refines` says that an operation is a sequence of moves on every ensemble
at once: on the ensemble it works on, and a tick of the shared allocators
on every other one. This module is about the operations that define,
supersede, seat, lose and invalidate.

Two rules reduce an operation to the ensemble it works on.
`refines_write` is for an operation that writes one ensemble and the
shared part, `refines_core` for one that writes the shared part only,
which is all that a rejection does (`refines_reject`).

The release of the candidates of a lost participant is a loop over
positions. `releaseLoop_moves` carries its invariant: the candidates the
loop has not reached yet are as they were, so each of them may still be
advanced within the bound.
-/

namespace EnsembleFabric

open List (Forall₂)
open Checks

/-! ## Refinement of an operation -/

/-- The operation is a sequence of moves on every ensemble, enters a new one under
its own identity only, and keeps the identities of all slots apart. -/
structure Refines (sc : Scope) (f f' : Fabric) : Prop where
  config : f'.config = f.config
  /-- A new ensemble is entered under its own identity. -/
  entered : ∀ id e, f.find id = none → f'.find id = some e → e.spec.id = id
  moves : ∀ id, Moves sc (f.view id) (f'.view id)
  /-- At most one ensemble takes fresh identities. -/
  apart : Apart f → Apart f'

/-- Every slot of the runtime may still be advanced: its generation is below the
bound. Words are always below 2^64. -/
def FitsBound (bound : Nat) (f : Fabric) : Prop :=
  ∀ id e, f.find id = some e →
    (∀ p ∈ e.participants, p.generation.value.toNat < bound)
      ∧ ∀ x, e.execution = some x → ∀ c ∈ x.candidates, c.generation.value.toNat < bound

/-- A generation is a 64-bit word. -/
theorem fitsBound_words (f : Fabric) : FitsBound (2 ^ 64) f :=
  fun _ _ _ => ⟨fun p _ => p.generation.value.toNat_lt,
    fun _ _ c _ => c.generation.value.toNat_lt⟩

variable {sc : Scope}

/-- Every ensemble is stored under its own identity. -/
def Named (f : Fabric) : Prop := ∀ id e, f.find id = some e → e.spec.id = id

/-- An ensemble keeps its identity. -/
def SameIdentity (v v' : View) : Prop :=
  ∀ e, v.entry = some e → ∃ e', v'.entry = some e' ∧ e'.spec.id = e.spec.id

theorem Move.sameIdentity {v v' : View} (h : Move sc v v') : SameIdentity v v' := by
  cases h with
  | tick => exact fun e he => ⟨e, he, rfl⟩
  | define => exact fun e he => by cases he
  | redefine _ _ _ identity =>
    rintro _ ⟨⟩
    exact ⟨_, rfl, identity⟩
  | _ =>
    rintro _ ⟨⟩
    exact ⟨_, rfl, rfl⟩

theorem Moves.sameIdentity {v v' : View} (h : Moves sc v v') : SameIdentity v v' := by
  refine h.related (R := SameIdentity) (fun _ e he => ⟨e, he, rfl⟩) (fun h h' e he => ?_)
    Move.sameIdentity
  obtain ⟨e', he', hid⟩ := h e he
  obtain ⟨e'', he'', hid'⟩ := h' e' he'
  exact ⟨e'', he'', hid'.trans hid⟩

theorem Refines.refl (f : Fabric) : Refines sc f f :=
  ⟨rfl, fun _ _ hn hs => (Option.some_ne_none _ (hs.symm.trans hn)).elim, fun _ => .refl,
    fun h => h⟩

theorem Refines.trans {a b c : Fabric} (h : Refines sc a b) (h' : Refines sc b c) :
    Refines sc a c := by
  refine ⟨h'.config.trans h.config, fun id e hn hs => ?_,
    fun id => (h.moves id).trans (h'.moves id), fun ha => h'.apart (h.apart ha)⟩
  cases hb : b.find id with
  | none => exact h'.entered id e hb hs
  | some e₁ =>
    obtain ⟨e₂, he₂, hid⟩ := (h'.moves id).sameIdentity e₁ hb
    obtain rfl : e = e₂ := Option.some.inj (hs.symm.trans he₂)
    exact hid.trans (h.entered id e₁ hn hb)

theorem Refines.named {f f' : Fabric} (h : Refines sc f f') (hf : Named f) : Named f' := by
  intro id e' he'
  cases hfind : f.find id with
  | none => exact h.entered id e' hfind he'
  | some e =>
    obtain ⟨e₁, he₁, hid⟩ := (h.moves id).sameIdentity e hfind
    obtain rfl : e' = e₁ := Option.some.inj (he'.symm.trans he₁)
    exact hid.trans (hf id e hfind)

/-- Only the shared part changes. -/
theorem refines_core {f : Fabric} {k : Core} (h : CoreStep f.core k) :
    Refines sc f { f with core := k } := by
  have hmoves : ∀ id, Moves sc (f.view id) (Fabric.view { f with core := k } id) :=
    fun _ => .single (.tick h)
  refine ⟨rfl, fun id e hn hs => ?_, hmoves, fun ha => ?_⟩
  · have hsame : f.find id = some e := hs
    exact (Option.some_ne_none _ (hsame.symm.trans hn)).elim
  · exact ha.of_fresh ⟨0⟩ (fun id => (hmoves id).numbered (ha.numbered id)) (hmoves _).freshIds
      fun _ _ => ⟨fun _ h => h, fun _ h => h⟩

theorem refines_reject {α : Type} (f : Fabric) (r : Refusal) :
    Refines sc f (f.reject (α := α) r).1 :=
  refines_core (count_step f.core r.tally)

theorem view_write (f : Fabric) (k : Core) (id other : EnsembleId) (e : EnsembleRecord) :
    ({ f with core := k }.store id e).view other
      = ⟨k, if id = other then some e else f.find other⟩ := by
  simp only [Fabric.view, Fabric.find_store]
  rfl

/-- One ensemble is written; the others see a tick. -/
theorem refines_write {f : Fabric} {k : Core} {id : EnsembleId} {e : EnsembleRecord}
    (hid : f.find id = none → e.spec.id = id) (h : Moves sc (f.view id) ⟨k, some e⟩) :
    Refines sc f ({ f with core := k }.store id e) := by
  have hmoves :
      ∀ other, Moves sc (f.view other) (({ f with core := k }.store id e).view other) := by
    intro other
    rw [view_write]
    by_cases heq : id = other
    · subst heq
      simpa using h
    · simpa [heq] using (Moves.single (.tick h.core) : Moves sc (f.view other) ⟨k, f.find other⟩)
  refine ⟨rfl, fun other e' hn hs => ?_, hmoves, fun ha => ?_⟩
  · rw [Fabric.find_store] at hs
    split at hs
    · rename_i heq
      subst heq
      obtain rfl := Option.some.inj hs
      exact hid hn
    · have hsame : f.find other = some e' := hs
      rw [hn] at hsame
      cases hsame
  · refine ha.of_fresh id (fun other => (hmoves other).numbered (ha.numbered other))
      (hmoves id).freshIds fun other hne => ?_
    rw [view_write, if_neg (Ne.symm hne)]
    exact ⟨fun _ h => h, fun _ h => h⟩

/-- An ensemble is written back. -/
theorem refines_store {f : Fabric} {k : Core} {id : EnsembleId} {e e' : EnsembleRecord}
    (hfind : f.find id = some e) (h : Moves sc ⟨f.core, some e⟩ ⟨k, some e'⟩) :
    Refines sc f ({ f with core := k }.store id e') := by
  refine refines_write (fun hn => by rw [hn] at hfind; cases hfind) ?_
  rwa [Fabric.view, hfind]

/-! ## Definition -/

theorem admitSpec_eq_ok {limits : Limits} {existing : Option EnsembleRecord}
    {requested spec : EnsembleSpec} (h : admitSpec limits existing requested = .ok spec) :
    Admitted limits spec ∧ spec.id = requested.id
      ∧ nextGeneration existing requested.generation = .ok spec.generation := by
  simp only [admitSpec, bind_eq_ok, pure_eq_ok] at h
  obtain ⟨generation, hgen, _, hvalid, heq⟩ := h
  -- the fingerprint is opaque here: unfolding it does not help
  generalize EnsembleSpec.computeSpecFingerprint _ = fingerprint at heq
  subst heq
  exact ⟨⟨{ requested with generation }, hvalid, rfl⟩, rfl, hgen⟩

theorem nextGeneration_some {e : EnsembleRecord} {requested generation : EnsembleGeneration}
    (h : nextGeneration (some e) requested = .ok generation) :
    e.spec.generation.value ≠ lastWord ∧ generation = e.spec.generation.next := by
  simp only [nextGeneration, bind_eq_ok, require_eq_ok, pure_eq_ok, bne_iff_ne] at h
  obtain ⟨_, hlast, _, -, rfl⟩ := h
  exact ⟨hlast, rfl⟩

theorem assignIdentity_step {k k' : Core} {requested id : EnsembleId}
    (h : assignIdentity k requested = .ok (id, k')) : CoreStep k k' := by
  unfold assignIdentity at h
  split at h
  · obtain ⟨-, rfl⟩ := Prod.mk.injEq .. |>.mp (Except.ok.inj h)
    exact ⟨rfl, Nat.le_refl _, Nat.le_refl _⟩
  · split at h
    · cases h
    · obtain ⟨-, rfl⟩ := Prod.mk.injEq .. |>.mp (Except.ok.inj h)
      exact ⟨rfl, Nat.le_refl _, Nat.le_refl _⟩

theorem countSupersession_step (k : Core) : CoreStep k (countSupersession k) :=
  ⟨rfl, Nat.le_refl _, Nat.le_refl _⟩

theorem defineEnsemble_refines {f : Fabric} (hlimits : sc.limits = f.config.limits)
    (hnamed : Named f) (requested : EnsembleSpec) :
    Refines sc f (defineEnsemble f requested).1 := by
  unfold defineEnsemble
  split
  · exact .refl f
  · rename_i id core hid
    have hcore : Refines sc f { f with core } := refines_core (assignIdentity_step hid)
    refine hcore.trans ?_
    simp only
    split
    · exact .refl _
    · rename_i spec hspec
      obtain ⟨hadmitted, hidentity, hgen⟩ := admitSpec_eq_ok hspec
      rw [← hlimits] at hadmitted
      split
      · rename_i hfind
        refine refines_write (k := core) (fun _ => hidentity) ?_
        rw [Fabric.view, hfind]
        exact .single (.define hadmitted)
      · rename_i e hfind
        have hsame : e.spec.id = id := hnamed id e hfind
        rw [hfind] at hgen
        obtain ⟨hlast, hnext⟩ := nextGeneration_some hgen
        have hmove : Move sc ⟨core, some e⟩
            ⟨core, some (redefinedRecord f.config.limits e spec)⟩ := by
          rw [← hlimits]
          exact .redefine hadmitted hlast hnext (hidentity.trans hsame.symm)
        split
        · exact refines_store (k := countSupersession core) hfind
            (.tail (.single hmove) (.tick (countSupersession_step core)))
        · exact refines_store (k := core) hfind (.single hmove)

/-! ## Supersession -/

theorem withdrawCandidates_steps {limits : Limits} {state : CandidateState}
    (hflight : permitsOutput state = false) (hcontent : isContentState state = false)
    (cs : List CandidateRecord) :
    Forall₂ (CandidateStep limits) cs (withdrawCandidates state cs) := by
  refine Slots.forall₂_map fun c _ => ?_
  split
  · rename_i h
    exact .closed ⟨rfl, rfl, rfl⟩ h hflight hcontent
  · exact .refl limits c

theorem supersededExecution_moves {k : Core} {e : EnsembleRecord} {x : ExecutionRecord} :
    Moves sc ⟨k, some (e.holding x)⟩ ⟨k, some (e.holding (supersededExecution x))⟩ := by
  unfold supersededExecution
  split
  · rename_i hopen
    have hcs : Moves sc ⟨k, some (e.holding x)⟩
        ⟨k, some (e.holding
          { x with candidates := withdrawCandidates .superseded x.candidates })⟩ :=
      .single (.work rfl (.candidates (withdrawCandidates_steps rfl rfl x.candidates)))
    exact hcs.tail (.work rfl (.close hopen (.inl rfl)))
  · exact .refl

/-- A record with its execution mapped by moves. -/
theorem moves_mapExecution {k : Core} {e : EnsembleRecord}
    {change : ExecutionRecord → ExecutionRecord}
    (h : ∀ x, e.execution = some x →
      Moves sc ⟨k, some (e.holding x)⟩ ⟨k, some (e.holding (change x))⟩) :
    Moves sc ⟨k, some e⟩ ⟨k, some { e with execution := e.execution.map change }⟩ := by
  cases hx : e.execution with
  | none =>
    have heq : ({ e with execution := none } : EnsembleRecord) = e := by rw [← hx]
    rw [Option.map_none, heq]
  | some x =>
    have hmoves := h x hx
    rwa [EnsembleRecord.holding_self hx] at hmoves

theorem supersedeEnsemble_refines (f : Fabric) (id : EnsembleId)
    (generation : EnsembleGeneration) :
    Refines sc f (supersedeEnsemble f id generation).1 := by
  unfold supersedeEnsemble
  split
  · exact .refl f
  · rename_i e hfind
    split
    · exact .refl f
    · refine refines_store (k := countSupersession f.core) hfind ?_
      have hflag : Moves sc ⟨f.core, some e⟩
          ⟨countSupersession f.core, some { e with superseded := true }⟩ :=
        .tail (.single .supersede) (.tick (countSupersession_step f.core))
      exact hflag.trans (moves_mapExecution (e := { e with superseded := true })
        fun _ _ => supersededExecution_moves)

/-! ## Registration -/

/-- Writing a seat back is a seat step. -/
theorem seat_write_moves {k : Core} {e : EnsembleRecord} {id : ParticipantId} {seat : Seat}
    {p : ParticipantRecord} (hseat : SeatAt e id seat)
    (h : SeatStep sc.bound seat.participant p) :
    Moves sc ⟨k, some e⟩ ⟨k, some (seat.write p)⟩ := by
  obtain rfl := hseat.ensemble
  exact .single (.seats (Slots.forall₂_set (.refl sc.bound) hseat.get h))

theorem registerParticipant_refines {f : Fabric} (hfits : FitsBound sc.bound f)
    (r : ParticipantRegistration) : Refines sc f (registerParticipant f r).1 := by
  unfold registerParticipant
  split
  · exact refines_reject f _
  · rename_i seat hadmit
    obtain ⟨-, -, hfind, hseat, hvacant⟩ := admitRegistration_eq_ok hadmit
    refine refines_store (k := f.core) hfind ?_
    refine seat_write_moves hseat (.seated rfl rfl hvacant ?_ rfl)
    exact (hfits _ _ hfind).1 _ (List.mem_of_getElem? hseat.get)

/-! ## Failure -/

/-- `rewind_candidate_for_retry` on a candidate in flight, whose serving
incarnation may have been noted in between. -/
theorem rewindCandidateForRetry_moves {k : Core} {e : EnsembleRecord} {x : ExecutionRecord}
    {index : Nat} {c noted : CandidateRecord} (hc : x.candidates[index]? = some c)
    (hflight : c.inFlight = true) (hnoted : SameSlot c noted)
    (hroom : c.generation.value.toNat < sc.bound) :
    Moves sc ⟨k, some (e.holding x)⟩
      ⟨k, some ((rewindCandidateForRetry e x index noted).1.holding
        (rewindCandidateForRetry e x index noted).2)⟩ := by
  have hseats : Moves sc ⟨k, some (e.holding x)⟩
      ⟨k, some ((rewindCandidateForRetry e x index noted).1.holding x)⟩ :=
    .single (.seats (tallyParticipant_seats fun p =>
      .kept ⟨rfl, rfl, rfl, rfl, rfl, rfl, rfl⟩ rfl rfl))
  have hgen : (rewoundCandidate noted).generation = c.generation.next :=
    congrArg StrongId.next hnoted.generation
  have hstep : ExecutionStep sc ((rewindCandidateForRetry e x index noted).1.holding x) x
      (rewindCandidateForRetry e x index noted).2 := by
    have h : ExecutionStep sc ((rewindCandidateForRetry e x index noted).1.holding x) x
        (supersedeCandidateEvidence
          { x with candidates := x.candidates.set index (rewoundCandidate noted) } c.id) :=
      .rewind hc hflight hnoted.id hnoted.participant hroom hgen rfl
    rwa [← hnoted.id] at h
  exact hseats.tail (.work rfl hstep)

theorem releaseCandidate_moves {k : Core} (participant : ParticipantRecord)
    (kind : ParticipantFailureKind) (detail : String) {work : EnsembleRecord × ExecutionRecord}
    {index : Nat}
    (hroom : ∀ c, work.2.candidates[index]? = some c → c.generation.value.toNat < sc.bound) :
    Moves sc ⟨k, some (work.1.holding work.2)⟩
      ⟨k, some ((releaseCandidate participant kind detail work index).1.holding
        (releaseCandidate participant kind detail work index).2)⟩ := by
  obtain ⟨e, x⟩ := work
  unfold releaseCandidate
  simp only
  split
  · exact .refl
  · rename_i c hc
    split
    · exact .refl
    · rename_i hmine
      have hflight : c.inFlight = true := by
        cases hf : c.inFlight with
        | true => rfl
        | false => exact absurd (Or.inr (Or.inr hf)) hmine
      split
      · exact rewindCandidateForRetry_moves hc hflight ⟨rfl, rfl, rfl⟩ (hroom c hc)
      · exact AdvanceState.failCandidate_moves _ _ hc hflight

/-- Releasing one candidate leaves the others alone. -/
theorem releaseCandidate_others (participant : ParticipantRecord) (kind : ParticipantFailureKind)
    (detail : String) (work : EnsembleRecord × ExecutionRecord) {index other : Nat}
    (hne : index ≠ other) :
    (releaseCandidate participant kind detail work index).2.candidates[other]?
      = work.2.candidates[other]? := by
  obtain ⟨e, x⟩ := work
  unfold releaseCandidate
  simp only
  split
  · rfl
  · split
    · rfl
    · split
      · exact List.getElem?_set_ne hne
      · exact List.getElem?_set_ne hne

/-- The loop from a position on: the candidates it has not reached yet are
as they were, so each of them may still be advanced. -/
theorem releaseLoop_moves {k : Core} (participant : ParticipantRecord)
    (kind : ParticipantFailureKind) (detail : String) (count start : Nat)
    (work : EnsembleRecord × ExecutionRecord)
    (hroom : ∀ index, start ≤ index → ∀ c, work.2.candidates[index]? = some c →
      c.generation.value.toNat < sc.bound) :
    let released := (List.range' start count).foldl
      (releaseCandidate participant kind detail) work
    Moves sc ⟨k, some (work.1.holding work.2)⟩ ⟨k, some (released.1.holding released.2)⟩ := by
  induction count generalizing start work with
  | zero => exact .refl
  | succ count ih =>
    rw [List.range'_succ, List.foldl_cons]
    refine (releaseCandidate_moves participant kind detail (hroom start (Nat.le_refl _))).trans
      (ih (start + 1) _ fun index hindex c hc => ?_)
    rw [releaseCandidate_others participant kind detail work (by omega)] at hc
    exact hroom index (by omega) c hc

theorem handleParticipantFailure_moves {k : Core} {e : EnsembleRecord} {x : ExecutionRecord}
    (participant : ParticipantRecord) (kind : ParticipantFailureKind) (detail : String)
    (hroom : ∀ c ∈ x.candidates, c.generation.value.toNat < sc.bound) :
    let handled := handleParticipantFailure e x participant kind detail
    Moves sc ⟨k, some (e.holding x)⟩ ⟨k, some (handled.1.holding handled.2)⟩ := by
  unfold handleParticipantFailure
  rw [List.range_eq_range']
  exact releaseLoop_moves participant kind detail _ 0 (e, x)
    fun index _ c hc => hroom c (List.mem_of_getElem? hc)

/-- Releasing candidates keeps the status of the execution. -/
theorem handleParticipantFailure_status (e : EnsembleRecord) (x : ExecutionRecord)
    (participant : ParticipantRecord) (kind : ParticipantFailureKind) (detail : String) :
    (handleParticipantFailure e x participant kind detail).2.status = x.status := by
  unfold handleParticipantFailure
  refine Threaded.foldl_related (σ := EnsembleRecord × ExecutionRecord)
    (R := fun w w' => w'.2.status = w.2.status) (fun _ => rfl) (fun h h' => h'.trans h)
    (fun work index _ => ?_) (e, x)
  obtain ⟨e, x⟩ := work
  unfold releaseCandidate
  simp only
  split
  · rfl
  · split
    · rfl
    · split <;> rfl

theorem reportParticipantFailure_refines {f : Fabric} (hfits : FitsBound sc.bound f)
    (a : ParticipantAuthority) (kind : ParticipantFailureKind) (detail : String) :
    Refines sc f (reportParticipantFailure f a kind detail).1 := by
  unfold reportParticipantFailure
  split
  · exact refines_reject f _
  · rename_i seat hadmit
    obtain ⟨hfind, hseat⟩ := admitFailureReport_eq_ok hadmit
    have hlost : Moves sc ⟨f.core, some seat.ensemble⟩
        ⟨f.core, some (seat.write (lostParticipant seat.participant kind detail))⟩ :=
      seat_write_moves hseat (.lost ⟨rfl, rfl, rfl, rfl, rfl, rfl, rfl⟩ rfl)
    simp only
    split
    · exact refines_store (k := f.core) hfind hlost
    · rename_i x hx
      split
      · exact refines_store (k := f.core) hfind hlost
      · rename_i hopen
        rw [← EnsembleRecord.holding_self hx] at hlost
        have hhandled := hlost.trans (handleParticipantFailure_moves
          (lostParticipant seat.participant kind detail) kind detail
          ((hfits _ _ hfind).2 x (by simpa [Seat.write] using hx)))
        split
        · refine refines_store (k := f.core) hfind
            (hhandled.tail (.work rfl (.close ?_ (.inr (.inl rfl)))))
          rw [handleParticipantFailure_status]
          exact not_not.mp hopen
        · exact refines_store (k := f.core) hfind hhandled

/-! ## Invalidation -/

theorem invalidatedParticipant_step (bound : Nat) (reason : String) (p : ParticipantRecord) :
    SeatStep bound p (invalidatedParticipant reason p) := by
  unfold invalidatedParticipant
  split
  · exact .refl bound p
  · exact .lost ⟨rfl, rfl, rfl, rfl, rfl, rfl, rfl⟩ rfl

theorem invalidatedCandidate_step (limits : Limits) (reason : String) (c : CandidateRecord) :
    CandidateStep limits c (invalidatedCandidate reason c) := by
  unfold invalidatedCandidate
  split
  · rename_i h
    exact .closed ⟨rfl, rfl, rfl⟩ h rfl rfl
  · exact .refl limits c

theorem invalidatedExecution_moves {k : Core} {e : EnsembleRecord} {x : ExecutionRecord}
    (reason : String) :
    Moves sc ⟨k, some (e.holding x)⟩ ⟨k, some (e.holding (invalidatedExecution reason x))⟩ := by
  unfold invalidatedExecution
  split
  · rename_i hopen
    let withdrawn : ExecutionRecord :=
      { x with candidates := x.candidates.map (invalidatedCandidate reason) }
    let expired : ExecutionRecord :=
      { withdrawn with evaluations := x.evaluations.map fun r => { r with current := false } }
    let abandoned : ExecutionRecord :=
      { expired with pending := x.pending.map fun p => { p with abandoned := true } }
    have hwithdrawn : ExecutionStep sc (e.holding x) x withdrawn :=
      .candidates (Slots.forall₂_map fun c _ => invalidatedCandidate_step _ reason c)
    have hexpired : ExecutionStep sc (e.holding withdrawn) withdrawn expired := .expire
    have habandoned : ExecutionStep sc (e.holding expired) expired abandoned :=
      .pendings (Slots.forall₂_map fun p _ => ⟨rfl, fun _ => rfl⟩)
    have hclosed : ExecutionStep sc (e.holding abandoned) abandoned
        { abandoned with status := .revalidationRequired } :=
      .close hopen (.inr (.inr rfl))
    exact (((Moves.single (.work rfl hwithdrawn)).tail (.work rfl hexpired)).tail
      (.work rfl habandoned)).tail (.work rfl hclosed)
  · exact .refl

theorem invalidatedEnsemble_moves {k : Core} (reason : String) (e : EnsembleRecord) :
    Moves sc ⟨k, some e⟩ ⟨k, some (invalidatedEnsemble reason e)⟩ := by
  have hseats : Moves sc ⟨k, some e⟩
      ⟨k, some { e with participants := e.participants.map (invalidatedParticipant reason) }⟩ :=
    .single (.seats (Slots.forall₂_map fun p _ => invalidatedParticipant_step _ reason p))
  exact hseats.trans (moves_mapExecution
    (e := { e with participants := e.participants.map (invalidatedParticipant reason) })
    fun _ _ => invalidatedExecution_moves reason)

theorem find_invalidate (f : Fabric) (reason : String) (id : EnsembleId) :
    (invalidateDynamicAuthority f reason).find id
      = (f.find id).map (invalidatedEnsemble reason) :=
  Std.TreeMap.getElem?_map

theorem invalidateDynamicAuthority_refines (f : Fabric) (reason : String) :
    Refines sc f (invalidateDynamicAuthority f reason) := by
  have hmoves : ∀ id, Moves sc (f.view id) ((invalidateDynamicAuthority f reason).view id) := by
    intro id
    have htick : Move sc ⟨f.core, (f.find id).map (invalidatedEnsemble reason)⟩
        ((invalidateDynamicAuthority f reason).view id) := by
      rw [Fabric.view, find_invalidate]
      exact .tick ⟨rfl, Nat.le_refl _, Nat.le_refl _⟩
    refine .tail ?_ htick
    rw [Fabric.view]
    cases f.find id with
    | none => exact .refl
    | some e => exact invalidatedEnsemble_moves reason e
  refine ⟨rfl, fun id e hn hs => ?_, hmoves, fun ha => ?_⟩
  · rw [find_invalidate, hn] at hs
    cases hs
  · -- the allocators stand still, so no ensemble takes an identity
    have hnumbered := fun id => (hmoves id).numbered (ha.numbered id)
    exact ha.of_fresh ⟨0⟩ hnumbered (hmoves _).freshIds fun id _ =>
      ⟨(hmoves id).freshIds.candidates.subset (hnumbered id).candidates,
        (hmoves id).freshIds.pending.subset (hnumbered id).pending⟩

end EnsembleFabric
