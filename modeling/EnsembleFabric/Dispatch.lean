import EnsembleFabric.Refinement.Advance

/-!
# One step of the dispatch loop

`dispatchOne` looks at one position. `Dispatching` lists what it may do
there, with everything it checked; `dispatchOne_cases` is the inversion
that proofs about the loop use instead of its definition.

The cases are those of the source: the position is not a declared
candidate of the stage, or its participant is not on record (skipped);
the participant cannot serve it now and is not lost (kept), or is lost
without a replacement to wait for (stranded); it can serve it, and an
earlier candidate of a sequential stage is in the way (blocked), or the
candidate is dispatched. A candidate that is looked at takes over the
generation of the seat first (`adopt`), whatever becomes of it, which is
why most cases are about an adopted candidate.
-/

namespace EnsembleFabric

namespace AdvanceState

/-- A declared candidate of the stage, and the record of its participant. This is
what the loop has established when it starts to write. -/
structure DispatchTarget (stage : StageSpec) (s : AdvanceState) (index : Nat)
    (c : CandidateRecord) (p : ParticipantRecord) : Prop where
  at_ : s.execution.candidates[index]? = some c
  stage : c.stage = stage.id
  state : c.state = .declared
  seat : s.ensemble.participant? c.participant = some p

/-- The candidate once it took over the generation of the seat. -/
def adoptedCandidate (c : CandidateRecord) (p : ParticipantRecord) : CandidateRecord :=
  { c with participantGeneration := p.generation }

def adopt (s : AdvanceState) (index : Nat) (c : CandidateRecord) (p : ParticipantRecord) :
    AdvanceState :=
  s.setCandidate index (adoptedCandidate c p)

/-- The text of a candidate that is given up. -/
def strandedDetail (p : ParticipantRecord) : String :=
  s!"participant {p.id.toString} is {p.status.toString} and cannot serve this candidate"

/-- The state after a declared candidate was given up. -/
def strand (s : AdvanceState) (index : Nat) (c : CandidateRecord) (p : ParticipantRecord) :
    AdvanceState :=
  let work := failCandidate s.ensemble s.execution index c .participantUnavailable
    (strandedDetail p)
  { s with ensemble := work.1, execution := work.2, progress := true }

/-- What the loop does at one position. Each case keeps the conditions under which
the loop takes it, so no proof has to look into `dispatchOne` again. -/
inductive Dispatching (stage : StageSpec) (dispatchedAny : Bool) (s : AdvanceState) (index : Nat) :
    DispatchNext → Prop
  | skipped (idle : ∀ c p, ¬ DispatchTarget stage s index c p) :
      Dispatching stage dispatchedAny s index (.proceed dispatchedAny s)
  | kept {c p} (target : DispatchTarget stage s index c p)
      (away : p.authoritative s.core.epoch = false)
      (keeps : (p.capable || awaitingReplacement s.ensemble c) = true) :
      Dispatching stage dispatchedAny s index (.proceed dispatchedAny (s.adopt index c p))
  | stranded {c p} (target : DispatchTarget stage s index c p)
      (away : p.authoritative s.core.epoch = false)
      (gone : (p.capable || awaitingReplacement s.ensemble c) = false) :
      Dispatching stage dispatchedAny s index
        (.proceed dispatchedAny ((s.adopt index c p).strand index (adoptedCandidate c p) p))
  | blocked {c p} (target : DispatchTarget stage s index c p)
      (served : p.authoritative s.core.epoch = true) (mode : stage.mode = .sequential)
      (first : dispatchedAny = false)
      (earlier : earlierPending (s.adopt index c p).execution stage (adoptedCandidate c p) = true) :
      Dispatching stage dispatchedAny s index (.stop (s.adopt index c p))
  | last {c p} (target : DispatchTarget stage s index c p)
      (served : p.authoritative s.core.epoch = true) (mode : stage.mode = .sequential)
      (free : dispatchedAny = true
        ∨ earlierPending (s.adopt index c p).execution stage (adoptedCandidate c p) = false) :
      Dispatching stage dispatchedAny s index
        (.stop ((s.adopt index c p).dispatchCandidate index (adoptedCandidate c p) p))
  | sent {c p} (target : DispatchTarget stage s index c p)
      (served : p.authoritative s.core.epoch = true) (mode : stage.mode ≠ .sequential) :
      Dispatching stage dispatchedAny s index
        (.proceed true ((s.adopt index c p).dispatchCandidate index (adoptedCandidate c p) p))

theorem dispatchOne_cases (stage : StageSpec) (dispatchedAny : Bool) (s : AdvanceState)
    (index : Nat) :
    Dispatching stage dispatchedAny s index (dispatchOne stage dispatchedAny s index) := by
  unfold dispatchOne
  split
  · rename_i hnone
    refine .skipped fun c p htarget => ?_
    have hat := htarget.at_
    rw [hnone] at hat
    cases hat
  · rename_i c hc
    have hsame : ∀ {d p}, DispatchTarget stage s index d p → d = c := fun htarget =>
      Option.some.inj (htarget.at_.symm.trans hc)
    split
    · rename_i hguard
      refine .skipped fun d p htarget => ?_
      obtain rfl := hsame htarget
      exact hguard.elim (fun h => h htarget.stage) fun h => h htarget.state
    · rename_i hguard
      rw [not_or, not_not, not_not] at hguard
      split
      · rename_i hnone
        refine .skipped fun d p htarget => ?_
        obtain rfl := hsame htarget
        have hseat := htarget.seat
        rw [hnone] at hseat
        cases hseat
      · rename_i p hp
        have htarget : DispatchTarget stage s index c p := ⟨hc, hguard.1, hguard.2, hp⟩
        simp only
        split
        · rename_i haway
          have haway : p.authoritative s.core.epoch = false := by
            simpa [setCandidate] using haway
          unfold strandCandidate
          split
          · rename_i hkeeps
            exact .kept htarget haway hkeeps
          · rename_i hgone
            exact .stranded htarget haway (Bool.eq_false_iff.mpr hgone)
        · rename_i hserved
          have hserved : p.authoritative s.core.epoch = true := by
            simpa [setCandidate] using hserved
          split
          · rename_i hblocked
            exact .blocked htarget hserved hblocked.1 hblocked.2.1 hblocked.2.2
          · rename_i hfree
            split
            · rename_i hmode
              refine .last htarget hserved hmode ?_
              by_cases hany : dispatchedAny = true
              · exact .inl hany
              · refine .inr (Bool.eq_false_iff.mpr fun hearlier => hfree ⟨hmode, ?_, hearlier⟩)
                simpa using hany
            · rename_i hmode
              exact .sent htarget hserved hmode

end AdvanceState

end EnsembleFabric
