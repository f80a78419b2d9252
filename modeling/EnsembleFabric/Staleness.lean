import Mathlib.Data.Finset.Card
import EnsembleFabric.Refinement.Runs
import EnsembleFabric.Spent

/-!
# Stale authority stays stale

Over a run of fewer than 2^64 operations no 64-bit generation comes back to
a value it had: an operation moves each slot up by one generation at most,
and each restart moves the epoch by one. Under that bound every event of
the run is either a sequence of moves whose generations do not wrap, or a
new epoch, and an authority that stops being accepted is passed by or
belongs to an earlier epoch.

`Tracked` is the invariant: after so many operations and completed restarts
the generations are within the number of operations, and the epoch is the
one after that many restarts. Clients inside a restart account for the ones
still to come, as a restart is three sections. From one tracked state to a
later one an authority fades (`Fades`): it is accepted still, or stale, and
a stale one stays stale.

That an authority is accepted means that something submitted under it would
be, and an abstention is accepted whenever anything is (`accepts_iff`), so
acceptance is a property of the records. The other two parts of the claim,
at most one submission for a candidate generation and at most one answer for
a plan, are about the ledger of what a run accepted and rest on `Spent`.
-/

namespace EnsembleFabric

open List (Forall₂)
open EventSystem

/-! ## Accepted submissions -/

/-- The authority a candidate-scoped submission is made under. -/
def Event.candidateAuthority? : Event → Option CandidateAuthority
  | .submitCandidate submission => some submission.authority
  | .submitCandidateFailure submission => some submission.authority
  | .submitCandidateAbstention submission => some submission.authority
  | _ => none

/-- The authority of the content, failure or abstention the event submits,
when the runtime accepts it. -/
def System.acceptedCandidate (s : System) (event : Event) : Option CandidateAuthority :=
  match s.reply event with
  | .status (.ok ()) => event.candidateAuthority?
  | _ => none

/-- The planned evaluation that the event answers, when the runtime accepts
the answer. -/
def System.acceptedEvaluation (s : System) : Event → Option EvaluationId
  | .submitEvaluation submission =>
      match s.reply (.submitEvaluation submission) with
      | .evaluation (.ok _) => some submission.authority.evaluation
      | _ => none
  | _ => none

/-- The runtime would accept a submission under the authority. -/
def System.Accepts (s : System) (a : CandidateAuthority) : Prop :=
  ∃ event, s.acceptedCandidate event = some a

def CandidateAuthority.key (a : CandidateAuthority) : CandidateKey :=
  (a.candidate, a.candidateGeneration)

/-- The ensemble holds a slot of the authority's key that is passed. -/
def Consumed (f : Fabric) (a : CandidateAuthority) : Prop :=
  ∃ c ∈ (f.view a.participant.ensemble).candidates, c.id = a.candidate
    ∧ SlotPassed a.candidateGeneration c

theorem LocatedAt.accepts {f : Fabric} {a : CandidateAuthority} {l : Located}
    (h : LocatedAt f a l) (hstate : l.candidate.state = .dispatched) :
    (f.view a.participant.ensemble).Accepts a :=
  ⟨_, _, _, _, h.fenced, hstate⟩

/-- Writing a slot back passed consumes the authority. -/
theorem LocatedAt.consumed {f : Fabric} {a : CandidateAuthority} {l : Located}
    (h : LocatedAt f a l) {k : Core} {e : EnsembleRecord} {x : ExecutionRecord}
    {c : CandidateRecord} (hx : e.execution = some x)
    (hcandidates : x.candidates = l.execution.candidates.set l.index c)
    (hid : c.id = l.candidate.id) (hpassed : SlotPassed l.candidate.generation c) :
    Consumed ({ f with core := k }.store a.participant.ensemble e) a := by
  have hentry : (({ f with core := k }.store a.participant.ensemble e).view
      a.participant.ensemble).entry = some e := Fabric.find_store_self ..
  have hlt : l.index < l.execution.candidates.length :=
    (List.getElem?_eq_some_iff.mp h.at_).choose
  refine ⟨c, ?_, ?_, ?_⟩
  · rw [View.candidates_of hentry hx, hcandidates]
    exact List.mem_set hlt c
  · rw [hid]
    simpa using List.find?_some h.fenced.candidate
  · rwa [h.fenced.candidateGeneration] at hpassed

theorem submitCandidate_accepted {f : Fabric} {s : CandidateSubmission}
    (h : (submitCandidate f s).2 = .ok ()) :
    (f.view s.authority.participant.ensemble).Accepts s.authority
      ∧ Consumed (submitCandidate f s).1 s.authority := by
  unfold submitCandidate at h ⊢
  split at h
  · cases h
  · rename_i l haccept
    obtain ⟨hlocated, hstate⟩ := acceptCandidate_eq_ok haccept
    refine ⟨hlocated.accepts hstate, ?_⟩
    split at h
    · cases h
    · refine hlocated.consumed rfl rfl ?_ (.inr ⟨?_, ?_⟩) <;>
      · unfold classifiedCandidate
        split <;> rfl

theorem submitCandidateFailure_accepted {f : Fabric} {s : CandidateFailureSubmission}
    (h : (submitCandidateFailure f s).2 = .ok ()) :
    (f.view s.authority.participant.ensemble).Accepts s.authority
      ∧ ∀ bound, bound < 2 ^ 64 → FitsBound bound f →
        Consumed (submitCandidateFailure f s).1 s.authority := by
  unfold submitCandidateFailure at h ⊢
  split at h
  · cases h
  · rename_i l haccept
    obtain ⟨hlocated, hstate⟩ := acceptCandidate_eq_ok haccept
    refine ⟨hlocated.accepts hstate, fun bound hbound hfits => ?_⟩
    split at h
    · cases h
    · simp only
      split
      · have hroom := (hfits _ _ hlocated.fenced.ensemble).2 _ hlocated.fenced.execution _
          (List.mem_of_getElem? hlocated.at_)
        exact hlocated.consumed (k := f.core) rfl rfl rfl
          (.inl (StrongId.lt_next_of_room hbound hroom))
      · exact hlocated.consumed (k := f.core) rfl rfl rfl (.inr ⟨rfl, rfl⟩)

theorem submitCandidateAbstention_accepted {f : Fabric} {s : CandidateAbstentionSubmission}
    (h : (submitCandidateAbstention f s).2 = .ok ()) :
    (f.view s.authority.participant.ensemble).Accepts s.authority
      ∧ Consumed (submitCandidateAbstention f s).1 s.authority := by
  unfold submitCandidateAbstention at h ⊢
  split at h
  · cases h
  · rename_i l haccept
    obtain ⟨hlocated, hstate⟩ := acceptCandidate_eq_ok haccept
    exact ⟨hlocated.accepts hstate, hlocated.consumed rfl rfl rfl (.inr ⟨rfl, rfl⟩)⟩

/-- A submission is accepted through the fence, and consumes its slot. The
bound is for the generation of a retry. -/
theorem acceptedCandidate_spec {s : System} {event : Event} {a : CandidateAuthority}
    (h : s.acceptedCandidate event = some a) :
    (s.fabric.view a.participant.ensemble).Accepts a
      ∧ ∀ bound, bound < 2 ^ 64 → FitsBound bound s.fabric →
        Consumed (s.next event).fabric a := by
  unfold System.acceptedCandidate at h
  split at h
  · rename_i hreply
    cases event with
    | submitCandidate submission =>
      obtain rfl := Option.some.inj h
      obtain ⟨haccepts, hconsumed⟩ := submitCandidate_accepted (Response.status.inj hreply)
      exact ⟨haccepts, fun _ _ _ => hconsumed⟩
    | submitCandidateFailure submission =>
      obtain rfl := Option.some.inj h
      exact submitCandidateFailure_accepted (Response.status.inj hreply)
    | submitCandidateAbstention submission =>
      obtain rfl := Option.some.inj h
      obtain ⟨haccepts, hconsumed⟩ :=
        submitCandidateAbstention_accepted (Response.status.inj hreply)
      exact ⟨haccepts, fun _ _ _ => hconsumed⟩
    | _ => cases h
  · cases h

theorem acceptCandidate_isOk {f : Fabric} {a : CandidateAuthority} :
    (acceptCandidate f a).isOk = true ↔ (f.view a.participant.ensemble).Accepts a := by
  constructor
  · intro h
    cases haccept : acceptCandidate f a with
    | error refusal =>
      rw [haccept] at h
      cases h
    | ok l =>
      obtain ⟨hlocated, hstate⟩ := acceptCandidate_eq_ok haccept
      exact hlocated.accepts hstate
  · rintro ⟨e, x, p, c, hfenced, hstate⟩
    obtain ⟨l, hl, rfl⟩ := locateCandidate_of_fenced hfenced
    simp [acceptCandidate, hl, hstate, bind, Except.bind, pure, Except.pure, Except.isOk,
      Except.toBool]

/-- Something is accepted under an authority exactly when the fence lets it
through: an abstention is accepted whenever anything is. -/
theorem accepts_iff {s : System} {a : CandidateAuthority} :
    s.Accepts a ↔ (s.fabric.view a.participant.ensemble).Accepts a := by
  constructor
  · rintro ⟨event, h⟩
    exact (acceptedCandidate_spec h).1
  · intro h
    refine ⟨.submitCandidateAbstention { authority := a }, ?_⟩
    have hok := acceptCandidate_isOk.mpr h
    cases haccept : acceptCandidate s.fabric a with
    | error refusal =>
      rw [haccept] at hok
      cases hok
    | ok l =>
      simp [System.acceptedCandidate, System.reply, System.step, System.answer,
        submitCandidateAbstention, haccept, okStatus, Event.candidateAuthority?]

instance (s : System) (a : CandidateAuthority) : Decidable (s.Accepts a) :=
  decidable_of_iff _ (acceptCandidate_isOk.trans accepts_iff.symm)

/-! ## Answered evaluations -/

theorem submitEvaluation_accepted {f : Fabric} {s : EvaluationSubmission} {id : EvaluationId}
    (h : (submitEvaluation f s).2 = .ok id) :
    (∃ p ∈ (f.view s.authority.evaluator.ensemble).pending, p.id = s.authority.evaluation
        ∧ p.answered = false)
      ∧ ∃ p ∈ ((submitEvaluation f s).1.view s.authority.evaluator.ensemble).pending,
        p.id = s.authority.evaluation ∧ p.answered = true := by
  unfold submitEvaluation at h ⊢
  split at h
  · cases h
  · rename_i site haccept
    have haccepted := acceptEvaluation_eq_ok haccept
    have hid : site.pending.id = s.authority.evaluation := by
      simpa using List.find?_some haccepted.pending
    have hlt : site.pendingIndex < site.execution.pending.length :=
      (List.getElem?_eq_some_iff.mp haccepted.pendingAt).choose
    refine ⟨⟨site.pending, ?_, hid, haccepted.unanswered⟩,
      { site.pending with answered := true }, ?_, hid, rfl⟩
    · rw [View.pending_of haccepted.ensemble haccepted.execution]
      exact List.mem_of_getElem? haccepted.pendingAt
    · rw [View.pending_of (Fabric.find_store_self ..) rfl]
      exact List.mem_set hlt _

theorem acceptedEvaluation_spec {s : System} {event : Event} {id : EvaluationId}
    (h : s.acceptedEvaluation event = some id) :
    ∃ target, (∃ p ∈ (s.fabric.view target).pending, p.id = id ∧ p.answered = false)
      ∧ ∃ p ∈ ((s.next event).fabric.view target).pending, p.id = id ∧ p.answered = true := by
  cases event with
  | submitEvaluation submission =>
    simp only [System.acceptedEvaluation] at h
    split at h
    · rename_i hreply
      obtain rfl := Option.some.inj h
      exact ⟨_, submitEvaluation_accepted (Response.evaluation.inj hreply)⟩
    · cases h
  | _ => cases h

/-! ## Generations -/

/-- The generations of the view's slots are below the bound. -/
def View.Within (v : View) (bound : Nat) : Prop :=
  ∀ e, v.entry = some e → (∀ p ∈ e.participants, p.generation.value.toNat < bound)
    ∧ ∀ x, e.execution = some x → ∀ c ∈ x.candidates, c.generation.value.toNat < bound

theorem StrongId.next_le {domain : IdDomain} (id : StrongId domain) :
    id.next.value.toNat ≤ id.value.toNat + 1 := by
  rw [StrongId.next_value, UInt64.toNat_add]
  exact Nat.mod_le _ _

/-- Moves that advance slots below the bound only leave no generation above
it. -/
theorem Move.within {sc : Scope} {v v' : View} (hpos : 0 < sc.bound) (h : Move sc v v')
    (hv : v.Within (sc.bound + 1)) : v'.Within (sc.bound + 1) := by
  have hfresh : ∀ (spec : EnsembleSpec), ∀ p ∈ spec.participants.map freshParticipant,
      p.generation.value.toNat < sc.bound + 1 := by
    intro spec p hp
    obtain ⟨declaration, -, rfl⟩ := List.mem_map.mp hp
    exact Nat.succ_lt_succ hpos
  have hnone : ∀ (x : ExecutionRecord), x.candidates = [] →
      ∀ c ∈ x.candidates, c.generation.value.toNat < sc.bound + 1 := by
    intro x hx c hc
    rw [hx] at hc
    cases hc
  cases h with
  | tick => exact hv
  | define =>
    rintro _ ⟨⟩
    exact ⟨hfresh _, fun x hx => by cases hx⟩
  | redefine =>
    rintro _ ⟨⟩
    exact ⟨hfresh _, fun x hx => by cases hx⟩
  | supersede =>
    rintro _ ⟨⟩
    obtain ⟨hseats, hslots⟩ := hv _ rfl
    exact ⟨hseats, hslots⟩
  | seats steps =>
    rintro _ ⟨⟩
    obtain ⟨hseats, hslots⟩ := hv _ rfl
    refine ⟨fun p' hp' => ?_, hslots⟩
    obtain ⟨p, hp, hstep⟩ := Slots.exists_left steps hp'
    cases hstep with
    | kept same => rw [same.generation]; exact hseats p hp
    | lost same => rw [same.generation]; exact hseats p hp
    | seated _ _ _ room generation =>
      rw [generation]
      split
      · exact Nat.lt_of_le_of_lt p.generation.next_le (Nat.succ_lt_succ room)
      · exact hseats p hp
  | openFirst | openNext =>
    rintro _ ⟨⟩
    exact ⟨(hv _ rfl).1, fun x hx => hnone x (by cases hx; rfl)⟩
  | work before step =>
    rintro _ ⟨⟩
    obtain ⟨hseats, hslots⟩ := hv _ rfl
    refine ⟨hseats, ?_⟩
    rintro _ ⟨⟩ c' hc'
    obtain ⟨c, hc, hstep⟩ := Slots.exists_left step.slots hc'
    cases hstep with
    | kept slot => rw [slot.generation]; exact hslots _ before c hc
    | advanced _ room generation =>
      rw [generation]
      exact Nat.lt_of_le_of_lt c.generation.next_le (Nat.succ_lt_succ room)
  | declare before _ generation =>
    rintro _ ⟨⟩
    obtain ⟨hseats, hslots⟩ := hv _ rfl
    refine ⟨hseats, ?_⟩
    rintro _ ⟨⟩ c hc
    rcases List.mem_append.mp hc with hold | hnew
    · exact hslots _ before c hold
    · obtain rfl := List.mem_singleton.mp hnew
      rw [generation]
      exact Nat.succ_lt_succ hpos
  | plan before =>
    rintro _ ⟨⟩
    obtain ⟨hseats, hslots⟩ := hv _ rfl
    have hbefore := hslots _ before
    exact ⟨hseats, fun x hx => by cases hx; exact hbefore⟩

theorem Refines.fits {sc : Scope} {f f' : Fabric} (hpos : 0 < sc.bound) (h : Refines sc f f')
    (hfits : FitsBound (sc.bound + 1) f) : FitsBound (sc.bound + 1) f' :=
  fun id => (h.moves id).invariant (P := (View.Within · (sc.bound + 1))) (Move.within hpos)
    (hfits id)

theorem FitsBound.mono {bound bound' : Nat} {f : Fabric} (h : FitsBound bound f)
    (hle : bound ≤ bound') : FitsBound bound' f :=
  fun id e he => ⟨fun p hp => Nat.lt_of_lt_of_le ((h id e he).1 p hp) hle,
    fun x hx c hc => Nat.lt_of_lt_of_le ((h id e he).2 x hx c hc) hle⟩

/-! ## Operations and epochs -/

/-- An event that starts an operation; `resume` continues one. -/
def Event.starts : Event → Bool
  | .resume .. => false
  | _ => true

/-- The operations of a run. -/
def operations (events : List Event) : Nat := events.countP Event.starts

/-- The epoch after a number of restarts; the machine word wraps. -/
def epochAfter (start : CoordinatorEpoch) (restarts : Nat) : CoordinatorEpoch :=
  ⟨start.value + UInt64.ofNat restarts⟩

theorem epochAfter_succ (start : CoordinatorEpoch) (restarts : Nat) :
    (epochAfter start restarts).next = epochAfter start (restarts + 1) := by
  simp [epochAfter, StrongId.next, UInt64.ofNat_add, UInt64.add_assoc]

/-- Fewer than 2^64 restarts come back to no epoch. -/
theorem epochAfter_inj {start : CoordinatorEpoch} {j k : Nat} (hj : j < 2 ^ 64) (hk : k < 2 ^ 64)
    (h : epochAfter start j = epochAfter start k) : j = k := by
  have hword : UInt64.ofNat j = UInt64.ofNat k :=
    UInt64.add_right_inj _ |>.mp (congrArg StrongId.value h)
  have hnat := congrArg UInt64.toNat hword
  rwa [UInt64.toNat_ofNat_of_lt' hj, UInt64.toNat_ofNat_of_lt' hk] at hnat

/-- What is known after `n` operations and `k` completed restarts: the
clients that are inside an operation account for the restarts to come. It is
the invariant that carries the bound on the length of a run to its states. -/
structure Tracked (start : CoordinatorEpoch) (n k : Nat) (s : System) : Prop where
  named : Named s.fabric
  apart : Apart s.fabric
  fits : FitsBound (n + 1) s.fabric
  epoch : s.fabric.core.epoch = epochAfter start k
  clients : ∃ busy : Finset Nat, (∀ client, s.clients client ≠ .idle → client ∈ busy)
    ∧ k + busy.card ≤ n

/-- A step that wraps no generation: moves within one epoch, or the next
epoch. -/
inductive Steady (k : Nat) (s : System) (k' : Nat) (s' : System) : Prop
  | moves {sc : Scope} (bound : sc.bound < 2 ^ 64) (refines : Refines sc s.fabric s'.fabric)
      (same : k' = k)
  | epoch (bumps : Bumps s s') (next : k' = k + 1)

/-- An operation that starts changes the phase of at most one client. -/
theorem next_clients {s : System} {event : Event} (hstarts : event.starts = true) :
    ∃ client, ∀ other, other ≠ client → (s.next event).clients other = s.clients other := by
  cases event with
  | finalize client =>
    refine ⟨client, fun other hne => ?_⟩
    simp only [System.next, System.step]
    split
    · rfl
    · split
      · rfl
      · simp [System.setClient, Function.update_of_ne hne]
  | restart client =>
    refine ⟨client, fun other hne => ?_⟩
    simp only [System.next, System.step]
    split
    · rfl
    · split
      · rfl
      · simp [System.setClient, Function.update_of_ne hne]
  | prepareResult id generation =>
    refine ⟨0, fun other _ => ?_⟩
    simp only [System.next, System.step, System.remember]
    split <;> rfl
  | resume => cases hstarts
  | _ => exact ⟨0, fun _ _ => rfl⟩

/-- A section changes the phase of its client only, and a restart that bumps
the epoch is over. -/
theorem resume_clients (s : System) (client : Nat) (boot : WorkerBootId) :
    (∀ other, other ≠ client → (s.resume client boot).1.clients other = s.clients other)
      ∧ (s.clients client = .idle → (s.resume client boot).1 = s)
      ∧ (s.clients client = .restartBumping → (s.resume client boot).1.clients client = .idle) := by
  unfold System.resume
  split
  · rename_i hphase
    refine ⟨fun _ _ => rfl, fun _ => rfl, fun h => ?_⟩
    rw [hphase] at h
    cases h
  · rename_i hphase
    refine ⟨fun other hne => ?_, fun h => ?_, fun h => ?_⟩
    · simp only
      split <;> simp [System.setClient, Function.update_of_ne hne]
    · rw [hphase] at h
      cases h
    · rw [hphase] at h
      cases h
  · rename_i hphase
    refine ⟨fun other hne => by simp [System.setClient, Function.update_of_ne hne], fun h => ?_,
      fun h => ?_⟩ <;>
    · rw [hphase] at h
      cases h
  · rename_i hphase
    refine ⟨fun other hne => by simp [System.setClient, Function.update_of_ne hne], fun h => ?_,
      fun h => ?_⟩ <;>
    · rw [hphase] at h
      cases h
  · rename_i hphase
    refine ⟨fun other hne => by simp [System.setClient, Function.update_of_ne hne], fun h => ?_,
      fun _ => by simp [System.setClient]⟩
    rw [hphase] at h
    cases h

theorem Tracked.start {start : CoordinatorEpoch} {n k : Nat} {s : System} {event : Event}
    (h : Tracked start n k s) (hstarts : event.starts = true) (hn : n + 1 < 2 ^ 64) :
    Tracked start (n + 1) k (s.next event) ∧ Steady k s k (s.next event) := by
  -- slots of generation `n` and below may be advanced by the next operation
  let sc : Scope := { limits := s.fabric.config.limits, bound := n + 1 }
  have hallows : Allows sc s event := by
    cases event <;> first | trivial | exact fun _ _ => trivial
  have hrefines : Refines sc s.fabric (s.next event).fabric := by
    rcases next_refines rfl h.named h.fits hallows with hrefines | ⟨⟨_, _, rfl, -⟩, -⟩
    · exact hrefines
    · cases hstarts
  refine ⟨⟨hrefines.named h.named, hrefines.apart h.apart,
    hrefines.fits (Nat.succ_pos n) (h.fits.mono (Nat.le_succ _)), ?_, ?_⟩, .moves hn hrefines rfl⟩
  · exact (hrefines.moves ⟨0⟩).core.epoch.trans h.epoch
  · obtain ⟨busy, hbusy, hcard⟩ := h.clients
    obtain ⟨client, hother⟩ := next_clients (s := s) hstarts
    refine ⟨insert client busy, fun other hactive => ?_, ?_⟩
    · by_cases heq : other = client
      · exact heq ▸ Finset.mem_insert_self ..
      · exact Finset.mem_insert_of_mem (hbusy other (by rwa [← hother other heq]))
    · have hinsert := Finset.card_insert_le client busy
      omega

theorem Tracked.resume {start : CoordinatorEpoch} {n k : Nat} {s : System} (h : Tracked start n k s)
    (hn : n < 2 ^ 64) (client : Nat) (boot : WorkerBootId) :
    ∃ k', Tracked start n k' (s.resume client boot).1
      ∧ Steady k s k' (s.resume client boot).1 := by
  obtain ⟨busy, hbusy, hcard⟩ := h.clients
  obtain ⟨hother, hidle, hover⟩ := resume_clients s client boot
  let sc : Scope := { limits := s.fabric.config.limits, bound := n }
  by_cases hactive : s.clients client = .idle
  · rw [hidle hactive]
    have hrefl : Refines sc s.fabric s.fabric := .refl _
    exact ⟨k, h, .moves hn hrefl rfl⟩
  · have hmem := hbusy client hactive
    have hpos : 0 < busy.card := Finset.card_pos.mpr ⟨client, hmem⟩
    have hsc : sc.limits = s.fabric.config.limits := rfl
    rcases resume_refines hsc client boot with hrefines | ⟨hphase, boot', hbump⟩
    · refine ⟨k, ⟨hrefines.named h.named, hrefines.apart h.apart,
        hrefines.fits (show 0 < n by omega) h.fits, ?_, busy, fun other hactive' => ?_, hcard⟩,
        .moves hn hrefines rfl⟩
      · exact (hrefines.moves ⟨0⟩).core.epoch.trans h.epoch
      · by_cases heq : other = client
        · exact heq ▸ hmem
        · exact hbusy other (by rwa [← hother other heq])
    · refine ⟨k + 1, ⟨?_, ?_, ?_, ?_, busy.erase client, fun other hactive' => ?_, ?_⟩,
        .epoch ⟨boot', hbump⟩ rfl⟩
      · rw [hbump]
        exact h.named
      · rw [hbump]
        exact h.apart.bumpEpoch boot'
      · rw [hbump]
        exact h.fits
      · rw [hbump, ← epochAfter_succ, ← h.epoch]
        rfl
      · by_cases heq : other = client
        · rw [heq, hover hphase] at hactive'
          exact absurd rfl hactive'
        · exact Finset.mem_erase.mpr ⟨heq, hbusy other (by rwa [← hother other heq])⟩
      · rw [Finset.card_erase_of_mem hmem]
        omega

theorem Tracked.next {start : CoordinatorEpoch} {n k : Nat} {s : System} (h : Tracked start n k s)
    (event : Event) (hn : n + operations [event] < 2 ^ 64) :
    ∃ k', Tracked start (n + operations [event]) k' (s.next event)
      ∧ Steady k s k' (s.next event) := by
  cases hstarts : event.starts with
  | true =>
    have hone : operations [event] = 1 := by simp [operations, hstarts]
    rw [hone] at hn ⊢
    exact ⟨k, h.start hstarts hn⟩
  | false =>
    have hzero : operations [event] = 0 := by simp [operations, hstarts]
    rw [hzero] at hn ⊢
    cases event with
    | resume client boot => exact h.resume hn client boot
    | _ => cases hstarts

theorem operations_cons (event : Event) (events : List Event) :
    operations (event :: events) = operations [event] + operations events := by
  simp only [operations, List.countP_cons, List.countP_nil]
  omega

theorem initial_tracked (config : FabricConfig) :
    Tracked (Fabric.create config).core.epoch 0 0 (.initial config) := by
  refine ⟨initial_named config, reachable_apart config [], fun id e h => ?_, ?_, ∅,
    fun _ h => absurd rfl h, by simp⟩
  · cases h
  · simp [epochAfter, System.initial]

/-! ## Stale authority -/

/-- The authority is of an earlier epoch, or passed by. -/
def Stale (start : CoordinatorEpoch) (k : Nat) (s : System) (a : CandidateAuthority) : Prop :=
  (∃ j < k, a.participant.coordinatorEpoch = epochAfter start j)
    ∨ (s.fabric.view a.participant.ensemble).Passed a

/-- From one state to a later one a stale authority stays stale, and an
accepted one is accepted still or stale. -/
structure Fades (start : CoordinatorEpoch) (k : Nat) (s : System) (k' : Nat) (s' : System) :
    Prop where
  stale : ∀ a, Stale start k s a → Stale start k' s' a
  accepted : ∀ a, s.Accepts a → s'.Accepts a ∨ Stale start k' s' a

theorem Fades.refl (start : CoordinatorEpoch) (k : Nat) (s : System) : Fades start k s k s :=
  ⟨fun _ h => h, fun _ h => .inl h⟩

theorem Fades.trans {start : CoordinatorEpoch} {k k' k'' : Nat} {s s' s'' : System}
    (h : Fades start k s k' s') (h' : Fades start k' s' k'' s'') : Fades start k s k'' s'' := by
  refine ⟨fun a ha => h'.stale a (h.stale a ha), fun a ha => ?_⟩
  rcases h.accepted a ha with hstill | hstale
  · exact h'.accepted a hstill
  · exact .inr (h'.stale a hstale)

/-- What moves under the bound preserve, a steady step preserves. -/
theorem Moves.fades {sc : Scope} {v v' : View} (hbound : sc.bound < 2 ^ 64) (h : Moves sc v v')
    (a : CandidateAuthority) :
    (v.Passed a → v'.Passed a) ∧ (v.Accepts a → v'.Accepts a ∨ v'.Passed a) := by
  have hpassed : ∀ {v v'}, Move sc v v' → v.Passed a → v'.Passed a := fun h => h.passed hbound
  refine ⟨h.invariant hpassed, fun haccepts => ?_⟩
  refine h.invariant (P := fun v => v.Accepts a ∨ v.Passed a) (fun hmove hv => ?_) (.inl haccepts)
  rcases hv with hstill | hv
  · exact hmove.accepted hbound hstill
  · exact .inr (hpassed hmove hv)

theorem Steady.fades {start : CoordinatorEpoch} {k k' : Nat} {s s' : System}
    (h : Steady k s k' s') (hepoch : s.fabric.core.epoch = epochAfter start k) :
    Fades start k s k' s' := by
  cases h with
  | moves bound refines same =>
    subst same
    have hmoves := fun a : CandidateAuthority =>
      (refines.moves a.participant.ensemble).fades bound a
    refine ⟨fun a ha => ?_, fun a ha => ?_⟩
    · rcases ha with hearlier | hpassed
      · exact .inl hearlier
      · exact .inr ((hmoves a).1 hpassed)
    · rcases (hmoves a).2 (accepts_iff.mp ha) with hstill | hpassed
      · exact .inl (accepts_iff.mpr hstill)
      · exact .inr (.inr hpassed)
  | epoch bumps next =>
    obtain ⟨boot, hbump⟩ := bumps
    subst next
    refine ⟨fun a ha => ?_, fun a ha => ?_⟩
    · rcases ha with ⟨j, hj, hearlier⟩ | hpassed
      · exact .inl ⟨j, Nat.lt_succ_of_lt hj, hearlier⟩
      · refine .inr ?_
        rw [hbump]
        exact hpassed
    · obtain ⟨e, x, p, c, hfenced, -⟩ := accepts_iff.mp ha
      exact .inr (.inl ⟨k, Nat.lt_succ_self k, hfenced.epoch.trans hepoch⟩)

theorem Tracked.run {start : CoordinatorEpoch} {n k : Nat} {s : System} (h : Tracked start n k s)
    (events : List Event) (hn : n + operations events < 2 ^ 64) :
    ∃ k', Tracked start (n + operations events) k' (s.run events)
      ∧ Fades start k s k' (s.run events) := by
  induction events generalizing n k s with
  | nil => exact ⟨k, h, .refl start k s⟩
  | cons event events ih =>
    rw [operations_cons] at hn ⊢
    obtain ⟨k₁, hnext, hsteady⟩ := h.next event (by omega)
    obtain ⟨k₂, hrun, hfades⟩ := ih hnext (by omega)
    rw [Nat.add_assoc] at hrun
    exact ⟨k₂, hrun, (hsteady.fades h.epoch).trans hfades⟩

/-- A stale authority is refused. -/
theorem Tracked.refuses {start : CoordinatorEpoch} {n k : Nat} {s : System}
    (h : Tracked start n k s) (hn : n < 2 ^ 64) {a : CandidateAuthority} (ha : Stale start k s a) :
    ¬ s.Accepts a := by
  intro haccepts
  rcases ha with ⟨j, hj, hearlier⟩ | hpassed
  · obtain ⟨e, x, p, c, hfenced, -⟩ := accepts_iff.mp haccepts
    obtain ⟨busy, -, hcard⟩ := h.clients
    have heq : epochAfter start j = epochAfter start k :=
      hearlier.symm.trans (hfenced.epoch.trans h.epoch)
    have hjk := epochAfter_inj (by omega) (by omega) heq
    omega
  · exact hpassed.refused (accepts_iff.mp haccepts)

/-! ## Accepted once -/

/-- The keys of the submissions that a run accepts, in order. -/
def acceptedKeys (s : System) (events : List Event) : List CandidateKey :=
  outputs System.next (fun s event => (s.acceptedCandidate event).map (·.key)) s events

/-- The planned evaluations whose answers a run accepts, in order. -/
def acceptedEvaluations (s : System) (events : List Event) : List EvaluationId :=
  outputs System.next System.acceptedEvaluation s events

/-- The state is tracked, and the run still to come is short enough. -/
def Budgeted (s : System) (events : List Event) : Prop :=
  ∃ start n k, Tracked start n k s ∧ n + operations events < 2 ^ 64

theorem Budgeted.next {s : System} {event : Event} {events : List Event}
    (h : Budgeted s (event :: events)) :
    Budgeted (s.next event) events ∧ Apart (s.next event).fabric
      ∧ (event.starts = true → ∃ bound, bound < 2 ^ 64 ∧ FitsBound bound s.fabric)
      ∧ ∃ k k', Steady k s k' (s.next event) := by
  obtain ⟨start, n, k, htracked, hn⟩ := h
  rw [operations_cons] at hn
  obtain ⟨k', hnext, hsteady⟩ := htracked.next event (by omega)
  refine ⟨⟨start, _, k', hnext, by omega⟩, hnext.apart, fun hstarts => ?_, k, k', hsteady⟩
  have hone : operations [event] = 1 := by simp [operations, hstarts]
  exact ⟨n + 1, by omega, htracked.fits⟩

/-- No ensemble takes output under the key again. -/
def SpentKey (key : CandidateKey) (s : System) : Prop :=
  ∀ id, (s.fabric.view id).Spent key

/-- No ensemble waits for an answer under the identity again. -/
def AnsweredId (evaluation : EvaluationId) (s : System) : Prop :=
  ∀ id, (s.fabric.view id).Answered evaluation

theorem Steady.spent {k k' : Nat} {s s' : System} (h : Steady k s k' s') {key : CandidateKey}
    (hspent : SpentKey key s) : SpentKey key s' := by
  intro id
  cases h with
  | moves bound refines =>
    exact (refines.moves id).invariant (P := (View.Spent · key)) (fun hmove => hmove.spent bound)
      (hspent id)
  | epoch bumps =>
    obtain ⟨boot, hbump⟩ := bumps
    rw [hbump]
    exact hspent id

theorem Steady.answered {k k' : Nat} {s s' : System} (h : Steady k s k' s')
    {evaluation : EvaluationId} (hanswered : AnsweredId evaluation s) :
    AnsweredId evaluation s' := by
  intro id
  cases h with
  | moves bound refines =>
    exact (refines.moves id).invariant (P := (View.Answered · evaluation))
      (fun hmove => hmove.answered) (hanswered id)
  | epoch bumps =>
    obtain ⟨boot, hbump⟩ := bumps
    rw [hbump]
    exact hanswered id

/-- What is accepted is not spent, and is spent from then on. -/
theorem accepted_spends {s : System} {event : Event} {events : List Event}
    (h : Budgeted s (event :: events)) {a : CandidateAuthority}
    (haccepted : s.acceptedCandidate event = some a) :
    ¬ SpentKey a.key s ∧ SpentKey a.key (s.next event) := by
  obtain ⟨-, hapart, hfits, -⟩ := h.next
  obtain ⟨⟨e, x, p, c, hfenced, hstate⟩, hconsumes⟩ := acceptedCandidate_spec haccepted
  have hid : c.id = a.candidate := by simpa using List.find?_some hfenced.candidate
  constructor
  · intro hspent
    have hmem : c ∈ (s.fabric.view a.participant.ensemble).candidates := by
      rw [View.candidates_of hfenced.ensemble hfenced.execution]
      exact List.mem_of_find?_eq_some hfenced.candidate
    rcases (hspent a.participant.ensemble).done c hmem hid with hlater | ⟨-, hclosed⟩
    · rw [hfenced.candidateGeneration] at hlater
      exact UInt64.lt_irrefl _ hlater
    · simp [CandidateRecord.inFlight, hstate, permitsOutput] at hclosed
  · have hstarts : event.starts = true := by
      cases event with
      | resume =>
        unfold System.acceptedCandidate at haccepted
        split at haccepted <;> cases haccepted
      | _ => rfl
    obtain ⟨bound, hbound, hwithin⟩ := hfits hstarts
    obtain ⟨c', hmem, hid', hpassed⟩ := hconsumes bound hbound hwithin
    intro id
    have hspent := hapart.spent hmem hpassed id
    rwa [hid'] at hspent

theorem accepted_answers {s : System} {event : Event} {events : List Event}
    (h : Budgeted s (event :: events)) {evaluation : EvaluationId}
    (haccepted : s.acceptedEvaluation event = some evaluation) :
    ¬ AnsweredId evaluation s ∧ AnsweredId evaluation (s.next event) := by
  obtain ⟨-, hapart, -⟩ := h.next
  obtain ⟨target, ⟨p, hp, hid, hunanswered⟩, p', hp', hid', hanswered'⟩ :=
    acceptedEvaluation_spec haccepted
  constructor
  · intro hanswered
    have hdone := (hanswered target).done p hp hid
    rw [hunanswered] at hdone
    cases hdone
  · intro id
    have hretired := hapart.answered hp' hanswered' id
    rwa [hid'] at hretired

/-- Three states of a run that is short enough: what was accepted in the
first and is refused in the second is refused in the third. -/
theorem Tracked.never_again {start : CoordinatorEpoch} {n k : Nat} {s : System}
    (h : Tracked start n k s) {first second : List Event}
    (hn : n + operations (first ++ second) < 2 ^ 64) {a : CandidateAuthority}
    (haccepts : s.Accepts a) (hrefused : ¬ (s.run first).Accepts a) :
    ¬ (s.run (first ++ second)).Accepts a := by
  have hsum : operations (first ++ second) = operations first + operations second :=
    List.countP_append
  obtain ⟨k₁, hfirst, hfades⟩ := h.run first (by omega)
  obtain ⟨k₂, hsecond, hfades'⟩ := hfirst.run second (by omega)
  have hstale : Stale start k₁ (s.run first) a := (hfades.accepted a haccepts).resolve_left hrefused
  rw [System.run, run_append]
  exact hsecond.refuses (by omega) (hfades'.stale a hstale)

/-- In every run of fewer than 2^64 operations: an authority that would be
accepted and later would not is not accepted in any later state; under one
candidate and candidate generation at most one submission is accepted; and
at most one answer is accepted for a planned evaluation. -/
theorem stale_stays_stale (config : FabricConfig) (events : List Event)
    (hshort : operations events < 2 ^ 64) :
    (∀ (a : CandidateAuthority) (first second third : List Event),
        first ++ second ++ third <+: events →
        ((System.initial config).run first).Accepts a →
        ¬ ((System.initial config).run (first ++ second)).Accepts a →
        ¬ ((System.initial config).run (first ++ second ++ third)).Accepts a)
      ∧ (acceptedKeys (.initial config) events).Nodup
      ∧ (acceptedEvaluations (.initial config) events).Nodup := by
  have hbudgeted : Budgeted (.initial config) events :=
    ⟨_, 0, 0, initial_tracked config, by omega⟩
  refine ⟨fun a first second third hprefix haccepts hrefused => ?_, ?_, ?_⟩
  · have hbound : operations (first ++ second ++ third) ≤ operations events :=
      hprefix.sublist.countP_le
    have hsum : operations (first ++ second ++ third)
        = operations first + operations (second ++ third) := by
      rw [List.append_assoc]
      exact List.countP_append
    obtain ⟨k, htracked, -⟩ := (initial_tracked config).run first (by omega)
    rw [System.run, run_append] at hrefused
    rw [List.append_assoc, System.run, run_append]
    exact htracked.never_again (by omega) haccepts hrefused
  · refine (outputs_nodup (I := Budgeted) (U := SpentKey) (fun h => h.next.1)
      (fun h hspent => ?_) (fun h hout => ?_) (fun h hout => ?_) hbudgeted).1
    · obtain ⟨-, -, -, _, _, hsteady⟩ := h.next
      exact hsteady.spent hspent
    · obtain ⟨a, haccepted, rfl⟩ := Option.map_eq_some_iff.mp hout
      exact (accepted_spends h haccepted).1
    · obtain ⟨a, haccepted, rfl⟩ := Option.map_eq_some_iff.mp hout
      exact (accepted_spends h haccepted).2
  · refine (outputs_nodup (I := Budgeted) (U := AnsweredId) (fun h => h.next.1)
      (fun h hanswered => ?_) (fun h hout => (accepted_answers h hout).1)
      (fun h hout => (accepted_answers h hout).2) hbudgeted).1
    obtain ⟨-, -, -, _, _, hsteady⟩ := h.next
    exact hsteady.answered hanswered

namespace Sample

/-- One candidate and one judge. -/
def judgedSpec : EnsembleSpec where
  id := ⟨1⟩
  label := "judged"
  participants := [participant 1 candidateRole, participant 2 judgeRole]
  judgingCriteria := [⟨1, 1⟩]

/-- The candidate is lost before its content arrives. -/
def lost : Event := .reportParticipantFailure (authority 1) .unavailable "gone"

end Sample

open Sample in
/-- The authority of a candidate whose participant is lost and replaced. It was
accepted before the loss, and nobody gets it back. -/
theorem replaced_stays_stale :
    (reached (start judgedSpec)).Accepts (candidateAuthority 1 1)
      ∧ ¬ (reached (start judgedSpec ++ [lost, register 1])).Accepts (candidateAuthority 1 1)
      ∧ ¬ (reached (start judgedSpec ++ [lost, register 1] ++ [Sample.advance])).Accepts
          (candidateAuthority 1 1) := by
  have haccepts : (reached (start judgedSpec)).Accepts (candidateAuthority 1 1) := by
    decide +kernel
  have hrefused : ¬ (reached (start judgedSpec ++ [lost, register 1])).Accepts
      (candidateAuthority 1 1) := by
    decide +kernel
  have hstale := stale_stays_stale {} (start judgedSpec ++ [lost, register 1] ++ [Sample.advance])
    (by decide +kernel)
  exact ⟨haccepts, hrefused,
    hstale.1 (candidateAuthority 1 1) (start judgedSpec) [lost, register 1] [Sample.advance]
      (List.prefix_refl _)
      haccepts hrefused⟩

end EnsembleFabric
