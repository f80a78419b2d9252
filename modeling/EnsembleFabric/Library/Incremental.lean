import Mathlib.Data.List.Basic

/-!
# Incremental decoders

A decoder looks at what has come in so far. It finds a value at the front,
or that nothing can come of it, or it needs more. A decoder is stable when
its verdicts are final: more input changes neither a value nor an error.

> What a stable decoder makes of a stream, value after value, does not depend
> on the pieces the stream comes in (`pulls_eq`).

`pull` adds pieces to a buffer until there is a verdict, and leaves what
the value did not use in the buffer. An error leaves the buffer as it is,
so the next pull finds it again. `reads` is the same computation on input
that is there at once, and is what `pulls` is compared with.

Pieces are of any type; `content` is what they add to the buffer. A piece
may add nothing, and a stream may end in the middle of a value, in which
case the last pull has no outcome.
-/

namespace Incremental

universe u v w x

variable {β : Type u} {γ : Type x} {α : Type v} {ε : Type w}

inductive Verdict (α : Type v) (ε : Type w) where
  | complete (value : α) (consumed : Nat)
  | failed (error : ε)
  | needsMore

/-- What a verdict says of the next value; nothing as long as more is needed. -/
def Verdict.outcome : Verdict α ε → Option (Except ε α)
  | .complete value _ => some (.ok value)
  | .failed error => some (.error error)
  | .needsMore => none

/-- More input changes no verdict: a value stays the value, with the same number
of elements used, and an error stays the error. -/
structure Stable (decode : List β → Verdict α ε) : Prop where
  complete : ∀ {input value consumed}, decode input = .complete value consumed →
    consumed ≤ input.length ∧ ∀ rest, decode (input ++ rest) = .complete value consumed
  failed : ∀ {input error}, decode input = .failed error →
    ∀ rest, decode (input ++ rest) = .failed error

/-! ## One value -/

section Pull

variable (decode : List β → Verdict α ε) (content : γ → List β)

/-- Pieces are added to the buffer until there is a verdict: the outcome, what
is left in the buffer, and the pieces that are left. -/
def pull : List γ → List β → Option (Except ε α) × List β × List γ
  | pieces, buffer =>
    match decode buffer with
    | .complete value consumed => (some (.ok value), buffer.drop consumed, pieces)
    | .failed error => (some (.error error), buffer, pieces)
    | .needsMore =>
      match pieces with
      | [] => (none, buffer, [])
      | piece :: rest => pull rest (buffer ++ content piece)

/-- What is left of the input after the value at its front. -/
def left (input : List β) : List β :=
  match decode input with
  | .complete _ consumed => input.drop consumed
  | _ => input

variable {decode content}

theorem pull_eq (h : Stable decode) (content : γ → List β) (pieces : List γ)
    (buffer : List β) :
    (pull decode content pieces buffer).1
        = (decode (buffer ++ pieces.flatMap content)).outcome
      ∧ (pull decode content pieces buffer).2.1
          ++ (pull decode content pieces buffer).2.2.flatMap content
        = left decode (buffer ++ pieces.flatMap content) := by
  induction pieces generalizing buffer with
  | nil =>
    rw [pull, left, List.flatMap_nil, List.append_nil]
    cases decode buffer with
    | complete value consumed => exact ⟨rfl, List.append_nil _⟩
    | failed error => exact ⟨rfl, List.append_nil _⟩
    | needsMore => exact ⟨rfl, List.append_nil _⟩
  | cons piece pieces ih =>
    rw [pull]
    cases hverdict : decode buffer with
    | complete value consumed =>
      obtain ⟨hle, hfinal⟩ := h.complete hverdict
      rw [left, hfinal]
      exact ⟨rfl, (List.drop_append_of_le_length hle).symm⟩
    | failed error =>
      rw [left, h.failed hverdict]
      exact ⟨rfl, rfl⟩
    | needsMore =>
      rw [List.flatMap_cons, ← List.append_assoc]
      exact ih (buffer ++ content piece)

end Pull

/-! ## A stream -/

section Stream

variable (decode : List β → Verdict α ε) (content : γ → List β)

/-- What successive pulls come to. -/
def pulls : Nat → List γ → List β → List (Option (Except ε α))
  | 0, _, _ => []
  | calls + 1, pieces, buffer =>
      (pull decode content pieces buffer).1
        :: pulls calls (pull decode content pieces buffer).2.2
            (pull decode content pieces buffer).2.1

/-- The same for input that is there at once. -/
def reads : Nat → List β → List (Option (Except ε α))
  | 0, _ => []
  | calls + 1, input => (decode input).outcome :: reads calls (left decode input)

variable {decode content}

theorem pulls_eq (h : Stable decode) (calls : Nat) (pieces : List γ) (buffer : List β) :
    pulls decode content calls pieces buffer
      = reads decode calls (buffer ++ pieces.flatMap content) := by
  induction calls generalizing pieces buffer with
  | zero => rfl
  | succ calls ih =>
    obtain ⟨houtcome, hleft⟩ := pull_eq h content pieces buffer
    rw [pulls, reads, houtcome, ih, hleft]

end Stream

end Incremental
