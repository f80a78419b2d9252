import Mathlib.Data.List.Basic
import Mathlib.Data.List.Induction

/-!
# Hashing in blocks

A hash function that compresses blocks of `n` elements is defined on a whole
message: it is padded until its length is a multiple of `n`, cut into blocks
(`blocks`), and the blocks are compressed one after another into a chaining
value.

An implementation sees the message one element at a time and keeps those that
do not fill a block yet (`absorb`). It has then compressed the whole blocks of
what it has seen, and its buffer is the rest (`foldl_absorb`).

The padding is a mark, the fewest blanks and a trailer of fixed length
(`pad`). Where the buffer has room for the trailer, the padding ends the block
that is begun (`blocks_pad_short`); where it has not, the trailer is in a block
of its own (`blocks_pad_long`).
-/

namespace BlockHash

variable {α σ : Type*} {n : Nat}

/-! ## Blocks -/

/-- The whole blocks of a message. -/
def blocks (n : Nat) (data : List α) : List (List α) :=
  (List.range (data.length / n)).map fun index => (data.drop (n * index)).take n

/-- What follows the last whole block. -/
def remainder (n : Nat) (data : List α) : List α := data.drop (n * (data.length / n))

theorem remainder_length (data : List α) :
    n * (data.length / n) + (remainder n data).length = data.length := by
  have hwhole := Nat.mul_div_le data.length n
  rw [remainder, List.length_drop]
  omega

theorem remainder_lt (hn : 0 < n) (data : List α) : (remainder n data).length < n := by
  have hsplit := remainder_length (n := n) data
  have hmod := Nat.div_add_mod data.length n
  have hlt := Nat.mod_lt data.length hn
  omega

theorem length_of_mem_blocks {data block : List α} (h : block ∈ blocks n data) :
    block.length = n := by
  obtain ⟨index, hindex, rfl⟩ := List.mem_map.mp h
  have hend : n * (index + 1) ≤ n * (data.length / n) :=
    Nat.mul_le_mul_left n (List.mem_range.mp hindex)
  have hwhole := Nat.mul_div_le data.length n
  rw [Nat.mul_succ] at hend
  rw [List.length_take, List.length_drop]
  omega

theorem length_div_append (hn : 0 < n) (first second : List α) :
    (first ++ second).length / n
      = first.length / n + (remainder n first ++ second).length / n := by
  have hsplit := remainder_length (n := n) first
  rw [List.length_append, List.length_append, ← Nat.mul_add_div hn]
  congr 1
  omega

theorem remainder_append_eq_drop (first second : List α) :
    remainder n first ++ second = (first ++ second).drop (n * (first.length / n)) := by
  rw [remainder, List.drop_append_of_le_length (Nat.mul_div_le first.length n)]

/-- The whole blocks of the first part, then those of what is left of it and
of the second part. -/
theorem blocks_append (hn : 0 < n) (first second : List α) :
    blocks n (first ++ second) = blocks n first ++ blocks n (remainder n first ++ second) := by
  rw [blocks, length_div_append hn, List.range_add, List.map_append, List.map_map]
  congr 1
  · apply List.map_congr_left
    intro index hindex
    have hwhole := Nat.mul_div_le first.length n
    have hend : n * (index + 1) ≤ n * (first.length / n) :=
      Nat.mul_le_mul_left n (List.mem_range.mp hindex)
    rw [Nat.mul_succ] at hend
    rw [List.drop_append_of_le_length (by omega), List.take_append_of_le_length]
    rw [List.length_drop]
    omega
  · apply List.map_congr_left
    intro index _
    simp only [Function.comp_apply, remainder_append_eq_drop, List.drop_drop, Nat.mul_add]

theorem remainder_append (hn : 0 < n) (first second : List α) :
    remainder n (first ++ second) = remainder n (remainder n first ++ second) := by
  rw [remainder, length_div_append hn, Nat.mul_add, ← List.drop_drop, ← remainder_append_eq_drop,
    ← remainder]

theorem blocks_short {data : List α} (h : data.length < n) : blocks n data = [] := by
  rw [blocks, Nat.div_eq_of_lt h]
  rfl

theorem remainder_short {data : List α} (h : data.length < n) : remainder n data = data := by
  rw [remainder, Nat.div_eq_of_lt h]
  rfl

theorem blocks_whole (hn : 0 < n) {block : List α} (h : block.length = n) :
    blocks n block = [block] := by
  rw [blocks, h, Nat.div_self hn]
  simp [← h]

theorem remainder_whole (hn : 0 < n) {block : List α} (h : block.length = n) :
    remainder n block = [] := by
  rw [remainder, h, Nat.div_self hn]
  exact List.drop_of_length_le (by omega)

/-- A block that is full is the first one. -/
theorem blocks_cons (hn : 0 < n) {block : List α} (h : block.length = n) (rest : List α) :
    blocks n (block ++ rest) = block :: blocks n rest := by
  rw [blocks_append hn, blocks_whole hn h, remainder_whole hn h]
  rfl

/-! ## Absorbing -/

/-- One more element: it fills the buffer, which is compressed, or waits there. -/
def absorb (n : Nat) (compress : σ → List α → σ) (hasher : σ × List α) (a : α) : σ × List α :=
  if (hasher.2 ++ [a]).length = n then (compress hasher.1 (hasher.2 ++ [a]), [])
  else (hasher.1, hasher.2 ++ [a])

theorem absorb_short {compress : σ → List α → σ} {state : σ} {buffer : List α}
    (h : buffer.length < n) (a : α) :
    absorb n compress (state, buffer) a
      = ((blocks n (buffer ++ [a])).foldl compress state, remainder n (buffer ++ [a])) := by
  have hlength : (buffer ++ [a]).length = buffer.length + 1 := by simp
  rw [absorb]
  dsimp only
  split
  · rename_i hfull
    rw [blocks_whole (by omega) hfull, remainder_whole (by omega) hfull]
    rfl
  · rename_i hroom
    rw [blocks_short (by omega), remainder_short (by omega)]
    rfl

/-- After a message its whole blocks are compressed, and the rest is in the
buffer. -/
theorem foldl_absorb (hn : 0 < n) (compress : σ → List α → σ) (initial : σ) (data : List α) :
    data.foldl (absorb n compress) (initial, [])
      = ((blocks n data).foldl compress initial, remainder n data) := by
  induction data using List.reverseRecOn with
  | nil =>
    rw [blocks_short (by exact hn), remainder_short (by exact hn)]
    rfl
  | append_singleton data a ih =>
    rw [List.foldl_append, ih, List.foldl_cons, List.foldl_nil, absorb_short (remainder_lt hn data),
      blocks_append hn data, remainder_append hn data, List.foldl_append]

/-! ## Padding -/

/-- How many elements are missing to a multiple of `n`. -/
def missing (n used : Nat) : Nat := (n - used % n) % n

theorem dvd_add_missing (hn : 0 < n) (used : Nat) : n ∣ used + missing n used := by
  have hlt := Nat.mod_lt used hn
  have hsplit := Nat.div_add_mod used n
  rw [missing]
  rcases Nat.eq_zero_or_pos (used % n) with hzero | hpos
  · rw [hzero, Nat.sub_zero, Nat.mod_self]
    exact Nat.dvd_of_mod_eq_zero hzero
  · rw [Nat.mod_eq_of_lt (by omega)]
    refine ⟨used / n + 1, ?_⟩
    rw [Nat.mul_succ]
    omega

/-- Of the numbers that complete a block, one below `n` is the least. -/
theorem le_of_dvd_add {used least count : Nat} (hleast : n ∣ used + least)
    (hcount : n ∣ used + count) (hlt : least < n) : least ≤ count := by
  by_contra hless
  have hdiff : n ∣ least - count := by
    have hsub := Nat.dvd_sub hleast hcount
    rwa [Nat.add_sub_add_left] at hsub
  have hle := Nat.le_of_dvd (by omega) hdiff
  omega

theorem missing_eq {used count : Nat} (hn : 0 < n) (h : n ∣ used + count) (hlt : count < n) :
    missing n used = count :=
  Nat.le_antisymm (le_of_dvd_add (dvd_add_missing hn used) h (Nat.mod_lt _ hn))
    (le_of_dvd_add h (dvd_add_missing hn used) hlt)

/-- A mark, the fewest blanks and the trailer. -/
def pad (n : Nat) (mark blank : α) (trailer data : List α) : List α :=
  data ++ ([mark] ++ List.replicate (missing n (data.length + (1 + trailer.length))) blank
    ++ trailer)

variable {mark blank : α} {trailer : List α}

/-- The length of a padded message is a multiple of `n`. -/
theorem dvd_pad_length (hn : 0 < n) (mark blank : α) (trailer data : List α) :
    n ∣ (pad n mark blank trailer data).length := by
  have hdvd := dvd_add_missing hn (data.length + (1 + trailer.length))
  rw [pad]
  simp only [List.length_append, List.length_replicate, List.length_singleton]
  convert hdvd using 1
  omega

/-- The padding ends the block that is begun. -/
theorem blocks_pad_short (hn : 0 < n) (data : List α)
    (hroom : (remainder n data).length + (1 + trailer.length) ≤ n) :
    blocks n (pad n mark blank trailer data)
      = blocks n data ++ [remainder n data ++ [mark]
        ++ List.replicate (n - trailer.length - (remainder n data ++ [mark]).length) blank
        ++ trailer] := by
  have hsplit := remainder_length (n := n) data
  have hlength : (remainder n data ++ [mark]).length = (remainder n data).length + 1 := by simp
  have hmissing : missing n (data.length + (1 + trailer.length))
      = n - trailer.length - (remainder n data ++ [mark]).length := by
    refine missing_eq hn ⟨data.length / n + 1, ?_⟩ (by omega)
    rw [Nat.mul_succ]
    omega
  rw [pad, blocks_append hn, hmissing]
  congr 1
  rw [← List.append_assoc, ← List.append_assoc]
  refine blocks_whole hn ?_
  simp only [List.length_append, List.length_replicate, List.length_singleton]
  omega

/-- The trailer does not fit any more: it ends a block of its own. -/
theorem blocks_pad_long (data : List α) (htrailer : trailer.length < n)
    (hfull : n < (remainder n data).length + (1 + trailer.length)) :
    blocks n (pad n mark blank trailer data)
      = blocks n data ++ [remainder n data ++ [mark]
          ++ List.replicate (n - (remainder n data ++ [mark]).length) blank,
        List.replicate (n - trailer.length) blank ++ trailer] := by
  have hn : 0 < n := by omega
  have hsplit := remainder_length (n := n) data
  have hlt := remainder_lt hn data
  have hlength : (remainder n data ++ [mark]).length = (remainder n data).length + 1 := by simp
  have hmissing : missing n (data.length + (1 + trailer.length))
      = n - (remainder n data ++ [mark]).length + (n - trailer.length) := by
    refine missing_eq hn ⟨data.length / n + 2, ?_⟩ (by omega)
    rw [Nat.mul_add]
    omega
  have hcut : remainder n data ++ ([mark]
        ++ List.replicate (n - (remainder n data ++ [mark]).length + (n - trailer.length)) blank
        ++ trailer)
      = remainder n data ++ [mark]
          ++ List.replicate (n - (remainder n data ++ [mark]).length) blank
        ++ (List.replicate (n - trailer.length) blank ++ trailer) := by
    simp only [List.replicate_add, List.append_assoc]
  have hfirst : (remainder n data ++ [mark]
      ++ List.replicate (n - (remainder n data ++ [mark]).length) blank).length = n := by
    rw [List.length_append, List.length_replicate]
    omega
  have hlast : (List.replicate (n - trailer.length) blank ++ trailer).length = n := by
    rw [List.length_append, List.length_replicate]
    omega
  rw [pad, blocks_append hn, hmissing, hcut, blocks_cons hn hfirst, blocks_whole hn hlast]

end BlockHash
