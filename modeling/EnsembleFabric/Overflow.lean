import EnsembleFabric.Codec
import EnsembleFabric.StateFile

/-!
# Encoders that overflow

An encoder that would grow past the configured size cuts or fills its buffer
to that size and appends the write all the same, so that a writer of files
finds a buffer that is too large and refuses it. A write of nothing brings
such a buffer back to the size, and what the encoder has lost is then no
longer seen.

`Call` lists what can be called on an encoder, and `taken` is the buffer
after any sequence of calls. `NeverSilent` asks that a buffer within the
size holds everything that was written, and that a buffer that lost
something is refused. It holds of a sequence of calls if and only if nothing
was lost, or the last call does not end with a run of no bytes
(`never_silent_iff`); an empty string is such a run, and the counterexample
writes one into a full encoder that has just lost a byte.
-/

namespace EnsembleFabric

open Write (flat)

namespace Encoder

/-! ## Calls -/

/-- A call of an encoder. -/
inductive Call where
  | u8 (value : UInt8)
  | u16 (value : UInt16)
  | u32 (value : UInt32)
  | u64 (value : UInt64)
  | i64 (value : Int)
  | f64 (value : Double)
  | boolean (value : Bool)
  | bytes (value : List UInt8)
  | string (value : List UInt8)
  | raw (value : List UInt8)

def Call.writes : Call → List Write
  | .u8 value => Encoder.u8 value
  | .u16 value => Encoder.u16 value
  | .u32 value => Encoder.u32 value
  | .u64 value => Encoder.u64 value
  | .i64 value => Encoder.i64 value
  | .f64 value => Encoder.f64 value
  | .boolean value => Encoder.boolean value
  | .bytes value => Encoder.bytes value
  | .string value => Encoder.string value
  | .raw value => [.raw value]

/-- The last thing the call appends is a run of no bytes. -/
def Call.endsEmpty : Call → Bool
  | .bytes value | .string value | .raw value => value.isEmpty
  | _ => false

/-- What the calls are to write. -/
def encoded (calls : List Call) : List UInt8 := flat (calls.flatMap Call.writes)

/-- The buffer that is taken after the calls. -/
def taken (limits : Limits) (calls : List Call) : List UInt8 :=
  buffer limits (calls.flatMap Call.writes)

/-! ## What an overflow leaves behind -/

section Overflow

variable {limits : Limits}

/-- Once something does not fit, the buffer stays too large until nothing is
appended. -/
theorem buffer_overflow {writes : List Write}
    (h : limits.maxPersistenceBytes.toNat < (flat writes).length) :
    limits.maxPersistenceBytes.toNat < (buffer limits writes).length
      ↔ writes.getLast? ≠ some (.raw []) := by
  induction writes using List.reverseRecOn with
  | nil => exact absurd h (Nat.not_lt_zero _)
  | append_singleton writes w _ =>
    rw [List.getLast?_append_of_ne_nil _ (List.cons_ne_nil _ _), List.getLast?_singleton,
      buffer_append]
    rw [Write.flat_append, List.length_append, Write.flat_cons, Write.flat_nil,
      List.append_nil] at h
    cases w with
    | byte value =>
      refine iff_of_true ?_ (by simp)
      rw [append, List.length_append, List.length_singleton]
      rw [Write.bytes, List.length_singleton] at h
      rcases @buffer_eq_or_full limits writes with heq | hfull
      · rwa [heq]
      · omega
    | raw value =>
      rw [Write.bytes] at h
      rw [append, requireCapacity, List.length_append]
      cases value with
      | nil =>
        refine iff_of_false ?_ (by simp)
        split
        · rw [resize_length]
          exact Nat.lt_irrefl _
        · rename_i hfits
          simp only [Bool.or_eq_true, decide_eq_true_eq, not_or, List.length_nil] at hfits ⊢
          omega
      | cons first rest =>
        refine iff_of_true ?_ (by simp)
        split
        · rw [resize_length, List.length_cons]
          omega
        · rename_i hfits
          simp only [Bool.or_eq_true, decide_eq_true_eq, not_or, List.length_cons] at hfits h
          have hfront : buffer limits writes = flat writes := buffer_eq_of_lt (by omega)
          rw [hfront] at hfits
          omega

theorem Call.getLast?_writes (call : Call) :
    call.writes.getLast? = some (.raw []) ↔ call.endsEmpty = true := by
  cases call <;>
    simp [Call.writes, Call.endsEmpty, Encoder.u8, Encoder.u16, Encoder.u32, Encoder.u64,
      Encoder.i64, Encoder.f64, Encoder.boolean, Encoder.bytes, Encoder.string,
      LittleEndian.bytes]

theorem Call.writes_ne_nil (call : Call) : call.writes ≠ [] := by
  cases call <;>
    simp [Call.writes, Encoder.u8, Encoder.u16, Encoder.u32, Encoder.u64, Encoder.i64,
      Encoder.f64, Encoder.boolean, Encoder.bytes, Encoder.string]

theorem getLast?_writes (calls : List Call) :
    (calls.flatMap Call.writes).getLast? = some (.raw [])
      ↔ ∃ last, calls.getLast? = some last ∧ last.endsEmpty = true := by
  induction calls using List.reverseRecOn with
  | nil => simp
  | append_singleton calls last _ =>
    rw [List.flatMap_append, List.flatMap_singleton,
      List.getLast?_append_of_ne_nil _ last.writes_ne_nil, Call.getLast?_writes,
      List.getLast?_append_of_ne_nil _ (List.cons_ne_nil _ _), List.getLast?_singleton]
    simp

end Overflow

/-- An overflow is seen: a buffer within the size holds everything, and one
that lost something is refused by the writer of state files. -/
structure NeverSilent (limits : Limits) (calls : List Call) : Prop where
  kept : (taken limits calls).length ≤ limits.maxPersistenceBytes.toNat →
    taken limits calls = encoded calls
  large : limits.maxPersistenceBytes.toNat < (encoded calls).length →
    limits.maxPersistenceBytes.toNat < (taken limits calls).length
  refused : limits.maxPersistenceBytes.toNat < (encoded calls).length →
    ∀ recordCount, ∃ error, writeStateFile (taken limits calls) recordCount limits = .error error

/-- An overflow goes unseen exactly if the last call ends with a run of no
bytes. -/
theorem never_silent_iff (limits : Limits) (calls : List Call) :
    NeverSilent limits calls
      ↔ (encoded calls).length ≤ limits.maxPersistenceBytes.toNat
        ∨ ∀ last, calls.getLast? = some last → last.endsEmpty = false := by
  by_cases hover : limits.maxPersistenceBytes.toNat < (encoded calls).length
  · have hlarge : limits.maxPersistenceBytes.toNat < (taken limits calls).length
        ↔ ∀ last, calls.getLast? = some last → last.endsEmpty = false := by
      rw [taken, buffer_overflow hover, Ne, getLast?_writes]
      simp only [not_exists, not_and, Bool.not_eq_true]
    constructor
    · exact fun h => .inr (hlarge.mp (h.large hover))
    · intro h
      have hsize := hlarge.mpr (h.resolve_left (Nat.not_le.mpr hover))
      refine ⟨fun hle => absurd hsize (Nat.not_lt.mpr hle), fun _ => hsize, fun _ _ => ?_⟩
      rw [writeStateFile, if_pos hsize]
      exact ⟨_, rfl⟩
  · have hfits := Nat.not_lt.mp hover
    exact iff_of_true ⟨fun _ => buffer_eq hfits, fun h => absurd h hover,
      fun h => absurd h hover⟩ (.inl hfits)

/-- A full encoder takes one more byte and an empty string, and is within the
size again. -/
theorem lost_byte_is_silent :
    let limits : Limits := { maxPersistenceBytes := 256 }
    let calls : List Call := [.raw (List.replicate 256 7), .u8 7, .string []]
    limits.validate = .ok () ∧ ¬ NeverSilent limits calls := by
  intro limits calls
  refine ⟨by decide +kernel, fun h => ?_⟩
  have hkept := h.kept (by decide +kernel)
  have hlost : (taken limits calls).length ≠ (encoded calls).length := by decide +kernel
  exact hlost (congrArg List.length hkept)

end Encoder

end EnsembleFabric
