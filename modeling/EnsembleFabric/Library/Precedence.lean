import Mathlib.Data.List.Sort

/-!
# Sorting by a precedence test

A comparison sort is given a strict test `precedes a b`, "a comes before
b". `sortBy` is such a sort; when the test is a strict weak order, its
output never has an element before one that precedes it, and its head is
preceded by nothing. `lexPrecedes` is the usual way to build such a test:
keys compared in order, the first difference decides.

Where the test is no order, the output of a sort is whatever its
comparisons made it, and little is left to say. Two facts hold for every
test: a key that the test compares first does not fall along the output
(`sortBy_monotone`), and a group that precedes all other elements is
sorted in front of them (`sortBy_split`).

Stability is not promised and not used. Where elements that tie are equal,
the output does not depend on the order of the input at all
(`sortBy_eq_of_perm`).
-/

namespace Precedence

variable {α ι κ : Type*}

/-- Sorts by a strict precedence test. -/
def sortBy (precedes : α → α → Bool) (xs : List α) : List α :=
  xs.insertionSort fun a b => precedes b a = false

@[simp] theorem mem_sortBy {precedes : α → α → Bool} {xs : List α} {a : α} :
    a ∈ sortBy precedes xs ↔ a ∈ xs :=
  List.mem_insertionSort _

theorem perm_sortBy (precedes : α → α → Bool) (xs : List α) :
    (sortBy precedes xs).Perm xs :=
  List.perm_insertionSort _ xs

/-- A test that orders its arguments strictly, up to ties: it is asymmetric, and
what does not precede is transitive. -/
structure StrictWeak (precedes : α → α → Bool) : Prop where
  asymm : ∀ {a b}, precedes a b = true → precedes b a = false
  trans_ties : ∀ {a b c}, precedes a b = false → precedes b c = false → precedes a c = false

theorem sortBy_pairwise {precedes : α → α → Bool} (h : StrictWeak precedes) (xs : List α) :
    (sortBy precedes xs).Pairwise fun a b => precedes b a = false := by
  have : Std.Total fun a b => precedes b a = false := ⟨fun a b => by
    cases hab : precedes a b with
    | false => exact Or.inr rfl
    | true => exact Or.inl (h.asymm hab)⟩
  have : IsTrans α fun a b => precedes b a = false :=
    ⟨fun _ _ _ hab hbc => h.trans_ties hbc hab⟩
  exact List.pairwise_insertionSort _ xs

/-- Nothing precedes the head of a sorted list. -/
theorem sortBy_head {precedes : α → α → Bool} (h : StrictWeak precedes) {xs rest : List α}
    {a : α} (hs : sortBy precedes xs = a :: rest) : ∀ b ∈ xs, precedes b a = false := by
  intro b hb
  have hsorted := sortBy_pairwise h xs
  rw [hs] at hsorted
  have hmem : b ∈ a :: rest := by rw [← hs]; simpa using hb
  rcases List.mem_cons.mp hmem with rfl | hrest
  · cases hbb : precedes b b with
    | false => rfl
    | true => rw [h.asymm hbb] at hbb; cases hbb
  · exact List.rel_of_pairwise_cons hsorted hrest

theorem sortBy_eq_nil {precedes : α → α → Bool} {xs : List α} :
    sortBy precedes xs = [] ↔ xs = [] := by
  rw [← List.length_eq_zero_iff, ← List.length_eq_zero_iff, (perm_sortBy precedes xs).length_eq]

/-- Where ties are between equal elements only, the order of the input makes
no difference. -/
theorem sortBy_eq_of_perm {precedes : α → α → Bool} (h : StrictWeak precedes) {xs ys : List α}
    (hperm : xs.Perm ys)
    (hties : ∀ a ∈ xs, ∀ b ∈ xs, precedes a b = false → precedes b a = false → a = b) :
    sortBy precedes xs = sortBy precedes ys := by
  refine List.Perm.eq_of_pairwise ?_
    (sortBy_pairwise h xs) (sortBy_pairwise h ys)
    ((perm_sortBy precedes xs).trans (hperm.trans (perm_sortBy precedes ys).symm))
  intro a b ha hb hab hba
  exact hties a (mem_sortBy.mp ha) b (hperm.mem_iff.mpr (mem_sortBy.mp hb)) hba hab

/-- Tests that agree on a list sort it alike. -/
theorem sortBy_congr {precedes precedes' : α → α → Bool} {xs : List α}
    (h : ∀ a ∈ xs, ∀ b ∈ xs, precedes a b = precedes' a b) :
    sortBy precedes xs = sortBy precedes' xs := by
  have hsame := List.map_insertionSort (fun a b => precedes b a = false)
    (fun a b => precedes' b a = false) id xs fun a ha b hb => by rw [h b hb a ha]; exact Iff.rfl
  rwa [List.map_id, List.map_id] at hsame

/-! ## Tests that are no order

Some tests order part of a list only. Whatever the test is, the sort puts in
order what it does order all through: a key that it compares first, and a
group that it puts in front of all others. -/

section Partial

variable {precedes : α → α → Bool}

theorem orderedInsert_monotone [LinearOrder κ] {key : α → κ}
    (h : ∀ a b, key a < key b → precedes a b = true ∧ precedes b a = false) (a : α) :
    ∀ {xs : List α}, xs.Pairwise (fun x y => key x ≤ key y) →
      (xs.orderedInsert (fun x y => precedes y x = false) a).Pairwise fun x y => key x ≤ key y
  | [], _ => List.pairwise_singleton _ _
  | b :: xs, hsorted => by
    obtain ⟨hb, hxs⟩ := List.pairwise_cons.mp hsorted
    rw [List.orderedInsert_cons]
    split
    · rename_i hfirst
      have hle : key a ≤ key b := by
        by_contra hlt
        rw [(h _ _ (not_le.mp hlt)).1] at hfirst
        cases hfirst
      refine List.pairwise_cons.mpr ⟨fun c hc => ?_, hsorted⟩
      rcases List.mem_cons.mp hc with rfl | hc
      · exact hle
      · exact hle.trans (hb c hc)
    · rename_i hlater
      have hle : key b ≤ key a := by
        by_contra hlt
        exact hlater (h _ _ (not_le.mp hlt)).2
      refine List.pairwise_cons.mpr ⟨fun c hc => ?_, orderedInsert_monotone h a hxs⟩
      rcases (List.mem_orderedInsert _).mp hc with rfl | hc
      · exact hle
      · exact hb c hc

/-- A key that is compared first does not fall. -/
theorem sortBy_monotone [LinearOrder κ] {key : α → κ}
    (h : ∀ a b, key a < key b → precedes a b = true ∧ precedes b a = false) (xs : List α) :
    (sortBy precedes xs).Pairwise fun a b => key a ≤ key b := by
  induction xs with
  | nil => exact List.Pairwise.nil
  | cons a xs ih => exact orderedInsert_monotone h a ih

theorem orderedInsert_front {a : α} {rest : List α}
    (hrest : ∀ b ∈ rest, precedes b a = false) : ∀ group : List α,
    (group ++ rest).orderedInsert (fun x y => precedes y x = false) a
      = group.orderedInsert (fun x y => precedes y x = false) a ++ rest
  | [] => by
    cases rest with
    | nil => rfl
    | cons b rest => exact List.orderedInsert_cons_of_le _ _ (hrest b List.mem_cons_self)
  | b :: group => by
    rw [List.cons_append, List.orderedInsert_cons, List.orderedInsert_cons]
    split
    · rfl
    · rw [orderedInsert_front hrest group, List.cons_append]

theorem orderedInsert_behind {a : α} {rest : List α} :
    ∀ group : List α, (∀ b ∈ group, precedes b a = true) →
      (group ++ rest).orderedInsert (fun x y => precedes y x = false) a
        = group ++ rest.orderedInsert (fun x y => precedes y x = false) a
  | [], _ => rfl
  | b :: group, hgroup => by
    have hlater : ¬ precedes b a = false := by
      rw [hgroup b List.mem_cons_self]
      exact Bool.true_eq_false.mp
    rw [List.cons_append, List.orderedInsert_cons, if_neg hlater,
      orderedInsert_behind group fun c hc => hgroup c (List.mem_cons_of_mem _ hc),
      List.cons_append]

/-- A group that precedes all others of a list is sorted in front of them. -/
theorem sortBy_split {front : α → Bool} {xs : List α}
    (h : ∀ a ∈ xs, ∀ b ∈ xs, front a = true → front b = false →
      precedes a b = true ∧ precedes b a = false) :
    sortBy precedes xs
      = sortBy precedes (xs.filter front) ++ sortBy precedes (xs.filter (!front ·)) := by
  induction xs with
  | nil => rfl
  | cons a xs ih =>
    have hstep : sortBy precedes (a :: xs)
        = (sortBy precedes xs).orderedInsert (fun x y => precedes y x = false) a := rfl
    have hmem : ∀ {test : α → Bool} {b}, b ∈ sortBy precedes (xs.filter test) →
        b ∈ a :: xs ∧ test b = true := fun hb =>
      have hb := List.mem_filter.mp (mem_sortBy.mp hb)
      ⟨List.mem_cons_of_mem _ hb.1, hb.2⟩
    rw [hstep, ih fun b hb c hc => h b (List.mem_cons_of_mem _ hb) c (List.mem_cons_of_mem _ hc)]
    cases ha : front a with
    | true =>
      rw [List.filter_cons_of_pos ha, List.filter_cons_of_neg (by simp [ha])]
      refine orderedInsert_front (fun b hb => ?_) _
      obtain ⟨hb, hbehind⟩ := hmem hb
      exact (h a List.mem_cons_self b hb ha (by simpa using hbehind)).2
    | false =>
      rw [List.filter_cons_of_neg (by simp [ha]), List.filter_cons_of_pos (by simp [ha])]
      refine orderedInsert_behind _ fun b hb => ?_
      obtain ⟨hb, hfront⟩ := hmem hb
      exact (h b hb a List.mem_cons_self hfront ha).1

end Partial

/-! ## Keys in order -/

variable [LinearOrder κ]

/-- Compares keys in the order given; a later key, and at last `final`,
decides only between elements the earlier keys tie. -/
def lexPrecedes (key : ι → α → κ) (final : α → κ) (keys : List ι) (a b : α) : Bool :=
  match keys with
  | [] => decide (final a < final b)
  | i :: rest =>
      if key i a = key i b then lexPrecedes key final rest a b
      else decide (key i a < key i b)

theorem lexPrecedes_strictWeak (key : ι → α → κ) (final : α → κ) (keys : List ι) :
    StrictWeak (lexPrecedes key final keys) := by
  induction keys with
  | nil =>
    refine ⟨fun {a b} h => ?_, fun {a b c} hab hbc => ?_⟩
    · simpa [lexPrecedes] using le_of_lt (of_decide_eq_true h)
    · simp only [lexPrecedes, decide_eq_false_iff_not, not_lt] at hab hbc ⊢
      exact le_trans hbc hab
  | cons i rest ih =>
    refine ⟨fun {a b} h => ?_, fun {a b c} hab hbc => ?_⟩
    · unfold lexPrecedes at h ⊢
      by_cases heq : key i a = key i b
      · rw [if_pos heq] at h
        rw [if_pos heq.symm]
        exact ih.asymm h
      · rw [if_neg heq] at h
        rw [if_neg (Ne.symm heq)]
        simpa using le_of_lt (of_decide_eq_true h)
    · unfold lexPrecedes at hab hbc ⊢
      by_cases heq : key i a = key i b <;> by_cases heq' : key i b = key i c
      · rw [if_pos heq] at hab
        rw [if_pos heq'] at hbc
        rw [if_pos (heq.trans heq')]
        exact ih.trans_ties hab hbc
      · rw [if_neg heq'] at hbc
        rw [if_neg (heq ▸ heq'), heq]
        exact hbc
      · rw [if_neg heq] at hab
        rw [if_neg (fun h => heq (h.trans heq'.symm)), ← heq']
        exact hab
      · rw [if_neg heq, decide_eq_false_iff_not, not_lt] at hab
        rw [if_neg heq', decide_eq_false_iff_not, not_lt] at hbc
        have hlt : key i c < key i a :=
          lt_of_lt_of_le (lt_of_le_of_ne hbc (Ne.symm heq')) hab
        rw [if_neg (ne_of_gt hlt)]
        simpa using le_of_lt hlt

end Precedence
