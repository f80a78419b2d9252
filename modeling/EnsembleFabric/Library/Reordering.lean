import Mathlib.Data.List.Induction
import Mathlib.Data.List.Perm.Basic
import Mathlib.Data.List.Perm.Subperm
import EnsembleFabric.Library.Precedence

/-!
# Computations that do not see the order of a list

Counts, sums and extrema of a list are the same for every permutation of
it. `keepFirst` is the computation that does see the order: it keeps the
first element of every key. Which keys are kept does not depend on the
order, only which element stands for a key.

So a result that is computed from what `keepFirst` keeps depends on the
order in one way only. The lemmas say exactly how much:

- `keepFirst_length_perm`: as many elements are kept whatever the order;
- `keepFirst_length_iff`: everything is kept if no key comes twice;
- `exists_mem_keepFirst_append`: an element put at the front stands for
  its key, so some order lets any element stand for its key.
-/

namespace Reordering

/-! ## Extrema and distinct elements -/

section Distinct

variable {α : Type*}

/-- The fold of a list without a start value, by an operation that commutes. -/
theorem foldl_head_perm {op : α → α → α} (hcomm : ∀ a b, op a b = op b a)
    (hassoc : ∀ a b c, op (op a b) c = op a (op b c)) {xs ys : List α} (h : xs.Perm ys) (d : α) :
    xs.tail.foldl op (xs.headD d) = ys.tail.foldl op (ys.headD d) := by
  have hright : RightCommutative op :=
    ⟨fun a b c => by rw [hassoc, hcomm b c, ← hassoc]⟩
  induction h with
  | nil => rfl
  | cons x h _ => exact h.foldl_eq x
  | swap x y l => simp only [List.tail_cons, List.headD_cons, List.foldl_cons, hcomm y x]
  | trans _ _ ih ih' => exact ih.trans ih'

variable [BEq α] [LawfulBEq α]

theorem nodup_eraseDups : ∀ xs : List α, xs.eraseDups.Nodup
  | [] => by simp
  | a :: as => by
    rw [List.eraseDups_cons, List.nodup_cons]
    refine ⟨fun hmem => ?_, nodup_eraseDups _⟩
    rw [List.mem_eraseDups] at hmem
    simp at hmem
termination_by xs => xs.length
decreasing_by exact Nat.lt_succ_of_le (List.length_filter_le _ _)

theorem eraseDups_length_perm {xs ys : List α} (h : xs.Perm ys) :
    xs.eraseDups.length = ys.eraseDups.length := by
  have hperm : xs.eraseDups.Perm ys.eraseDups :=
    (List.perm_ext_iff_of_nodup (nodup_eraseDups xs) (nodup_eraseDups ys)).mpr fun a => by
      rw [List.mem_eraseDups, List.mem_eraseDups, h.mem_iff]
  exact hperm.length_eq

end Distinct

/-! ## The first element of every key -/

variable {α κ : Type*} [BEq κ] (key : α → κ)

/-- Keeps the first element of every key. -/
def keepFirst (xs : List α) : List α :=
  xs.foldl (fun kept x => if kept.any (key · == key x) then kept else kept ++ [x]) []

theorem keepFirst_concat (xs : List α) (x : α) :
    keepFirst key (xs ++ [x])
      = if (keepFirst key xs).any (key · == key x) then keepFirst key xs
        else keepFirst key xs ++ [x] := by
  rw [keepFirst, List.foldl_append]
  rfl

variable [LawfulBEq κ]

/-- An element is kept when it is the first of its key. -/
theorem mem_keepFirst {xs : List α} {x : α} :
    x ∈ keepFirst key xs ↔ xs.find? (key · == key x) = some x := by
  induction xs using List.reverseRecOn generalizing x with
  | nil => simp [keepFirst]
  | append_singleton xs y ih =>
    have hany : (keepFirst key xs).any (key · == key y) = true
        ↔ (xs.find? (key · == key y)).isSome = true := by
      rw [List.any_eq_true, List.find?_isSome]
      constructor
      · rintro ⟨z, hz, hkey⟩
        exact ⟨z, List.mem_of_find?_eq_some (ih.mp hz), hkey⟩
      · rintro ⟨z, hz, hkey⟩
        obtain ⟨w, hw⟩ := Option.isSome_iff_exists.mp
          (List.find?_isSome.mpr ⟨z, hz, by simp⟩ : (xs.find? (key · == key z)).isSome)
        have hwz : key w = key z := by simpa using List.find?_some hw
        exact ⟨w, ih.mpr (by rw [hwz]; exact hw), by rw [hwz]; exact hkey⟩
    rw [keepFirst_concat, List.find?_append]
    cases hfirst : (xs.find? (key · == key y)).isSome with
    | true =>
      rw [if_pos (hany.mpr hfirst), ih]
      cases hfound : xs.find? (key · == key x) with
      | some z => rfl
      | none =>
        have hother : (key y == key x) = false := by
          rw [beq_eq_false_iff_ne]
          rintro heq
          rw [heq, hfound] at hfirst
          cases hfirst
        simp [hother]
    | false =>
      rw [if_neg (by rw [hany, hfirst]; simp), List.mem_append, ih, List.mem_singleton]
      have hnone : xs.find? (key · == key y) = none := by
        simpa using hfirst
      cases hfound : xs.find? (key · == key x) with
      | some z =>
        have hne : x ≠ y := by
          rintro rfl
          rw [hnone] at hfound
          cases hfound
        simp [hne]
      | none =>
        by_cases hxy : x = y
        · simp [hxy]
        · have hyx : y ≠ x := fun heq => hxy heq.symm
          by_cases hkey : key y = key x <;> simp [hkey, hxy, hyx]

/-- No key is kept twice. -/
theorem keepFirst_nodup (xs : List α) : ((keepFirst key xs).map key).Nodup := by
  induction xs using List.reverseRecOn with
  | nil => simp [keepFirst]
  | append_singleton xs y ih =>
    rw [keepFirst_concat]
    split
    · exact ih
    · rename_i hnew
      simp only [List.any_eq_true, beq_iff_eq, not_exists, not_and] at hnew
      rw [List.map_append, List.nodup_append]
      refine ⟨ih, by simp, fun k hk k' hk' => ?_⟩
      obtain ⟨z, hz, rfl⟩ := List.mem_map.mp hk
      obtain rfl := List.mem_singleton.mp hk'
      exact hnew z hz

theorem mem_keepFirst_keys {xs : List α} {k : κ} :
    k ∈ (keepFirst key xs).map key ↔ k ∈ xs.map key := by
  simp only [List.mem_map, mem_keepFirst]
  constructor
  · rintro ⟨x, hx, rfl⟩
    exact ⟨x, List.mem_of_find?_eq_some hx, rfl⟩
  · rintro ⟨x, hx, rfl⟩
    obtain ⟨w, hw⟩ := Option.isSome_iff_exists.mp
      (List.find?_isSome.mpr ⟨x, hx, by simp⟩ : (xs.find? (key · == key x)).isSome)
    have hwx : key w = key x := by simpa using List.find?_some hw
    exact ⟨w, by rw [hwx]; exact hw, hwx⟩

/-- As many keys are kept whatever the order. -/
theorem keepFirst_length_perm {xs ys : List α} (h : xs.Perm ys) :
    (keepFirst key xs).length = (keepFirst key ys).length := by
  have hperm : ((keepFirst key xs).map key).Perm ((keepFirst key ys).map key) :=
    (List.perm_ext_iff_of_nodup (keepFirst_nodup key xs) (keepFirst_nodup key ys)).mpr fun k => by
      rw [mem_keepFirst_keys, mem_keepFirst_keys, (h.map key).mem_iff]
  simpa using hperm.length_eq

/-- Everything is kept exactly if no key comes twice. -/
theorem keepFirst_length_iff {xs : List α} :
    (keepFirst key xs).length = xs.length ↔ (xs.map key).Nodup := by
  have hsame : ∀ k, k ∈ (keepFirst key xs).map key ↔ k ∈ xs.map key :=
    fun k => mem_keepFirst_keys key
  constructor
  · intro hlength
    have hsub : ((keepFirst key xs).map key).Subperm (xs.map key) :=
      List.subperm_of_subset (keepFirst_nodup key xs) fun k hk => (hsame k).mp hk
    have hperm := hsub.perm_of_length_le (by rw [List.length_map, List.length_map, hlength])
    exact hperm.nodup_iff.mp (keepFirst_nodup key xs)
  · intro hnodup
    have hperm := (List.perm_ext_iff_of_nodup (keepFirst_nodup key xs) hnodup).mpr hsame
    simpa using hperm.length_eq

/-- Elements at the front stand for their keys. -/
theorem exists_mem_keepFirst_append {xs : List α} (ys : List α) {x : α} (hx : x ∈ xs) :
    ∃ w ∈ xs, key w = key x ∧ w ∈ keepFirst key (xs ++ ys) := by
  obtain ⟨w, hw⟩ := Option.isSome_iff_exists.mp
    (List.find?_isSome.mpr ⟨x, hx, by simp⟩ : (xs.find? (key · == key x)).isSome)
  have hkey : key w = key x := by simpa using List.find?_some hw
  refine ⟨w, List.mem_of_find?_eq_some hw, hkey, ?_⟩
  rw [mem_keepFirst, List.find?_append, hkey, hw]
  rfl

/-- An element that stands for its key from the back has no element of its
key in front of it. -/
theorem key_ne_of_mem_keepFirst_append {xs ys : List α} {x y : α}
    (h : x ∈ keepFirst key (xs ++ ys)) (hx : x ∉ xs) (hy : y ∈ xs) : key y ≠ key x := by
  intro hkey
  rw [mem_keepFirst, List.find?_append] at h
  obtain ⟨w, hw⟩ := Option.isSome_iff_exists.mp
    (List.find?_isSome.mpr ⟨y, hy, by simp [hkey]⟩ : (xs.find? (key · == key x)).isSome)
  rw [hw, Option.some_or] at h
  obtain rfl := Option.some.inj h
  exact hx (List.mem_of_find?_eq_some hw)

end Reordering
