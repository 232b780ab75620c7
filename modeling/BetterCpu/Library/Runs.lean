import Mathlib.Data.Finset.Sort
import Mathlib.Data.List.SplitBy
import Mathlib.Order.Interval.Finset.Nat

/-!
# Runs of neighbours

The pieces into which `List.splitBy` cuts a list, seen from their first
elements, and the sets of numbers whose ascending list has no two consecutive
numbers in it, or nothing else.
-/

namespace BetterCpu.Runs

variable {α : Type*} {r : α → α → Bool} {l : List α} {pieces : List (List α)}

theorem length_le_length_flatten (hne : [] ∉ pieces) : pieces.length ≤ pieces.flatten.length := by
  induction pieces with
  | nil => simp
  | cons piece pieces ih =>
      rw [List.mem_cons, not_or, eq_comm] at hne
      have hpiece := List.length_pos_of_ne_nil hne.1
      have htail := ih hne.2
      rw [List.flatten_cons, List.length_append, List.length_cons]
      omega

/-- The first elements of the pieces are all of them only if no piece has
another one. -/
theorem eq_map_singleton_of_heads (hne : [] ∉ pieces)
    (h : pieces.filterMap List.head? = pieces.flatten) : pieces = pieces.flatten.map ([·]) := by
  induction pieces with
  | nil => rfl
  | cons piece pieces ih =>
      rw [List.mem_cons, not_or, eq_comm] at hne
      obtain ⟨a, rest, rfl⟩ := List.exists_cons_of_ne_nil hne.1
      simp only [List.filterMap_cons, List.head?_cons, List.flatten_cons, List.cons_append,
        List.cons.injEq, true_and] at h
      have hrest : rest = [] := by
        have hlength := congrArg List.length h
        have hheads := List.length_filterMap_le List.head? pieces
        have hflatten := length_le_length_flatten hne.2
        rw [List.length_append] at hlength
        exact List.length_eq_zero_iff.mp (by omega)
      subst hrest
      rw [List.nil_append] at h
      calc
        [a] :: pieces = [a] :: pieces.flatten.map ([·]) := by rw [← ih hne.2 h]
        _ = (([a] :: pieces).flatten).map ([·]) := rfl

theorem head?_heads (hne : [] ∉ pieces) :
    (pieces.filterMap List.head?).head? = pieces.flatten.head? := by
  cases pieces with
  | nil => rfl
  | cons piece pieces =>
      rw [List.mem_cons, not_or, eq_comm] at hne
      obtain ⟨a, rest, rfl⟩ := List.exists_cons_of_ne_nil hne.1
      rfl

theorem length_heads (hne : [] ∉ pieces) :
    (pieces.filterMap List.head?).length = pieces.length := by
  induction pieces with
  | nil => rfl
  | cons piece pieces ih =>
      rw [List.mem_cons, not_or, eq_comm] at hne
      obtain ⟨a, rest, rfl⟩ := List.exists_cons_of_ne_nil hne.1
      exact congrArg Nat.succ (ih hne.2)

theorem heads_splitBy_eq_self_iff :
    (l.splitBy r).filterMap List.head? = l ↔ l.IsChain fun a b ↦ r a b = false := by
  have hsingletons : l.splitBy r = l.map ([·]) ↔ l.IsChain fun a b ↦ r a b = false := by
    rw [List.splitBy_eq_iff, List.isChain_map]
    simp [← List.flatMap_def]
  rw [← hsingletons]
  constructor
  · intro h
    have hflatten := List.flatten_splitBy r l
    have hpieces := eq_map_singleton_of_heads (List.nil_notMem_splitBy r l)
      (h.trans hflatten.symm)
    rwa [hflatten] at hpieces
  · intro h
    rw [h, List.filterMap_map]
    exact List.filterMap_some

theorem length_splitBy_eq_one_iff (hne : l ≠ []) :
    (l.splitBy r).length = 1 ↔ l.IsChain fun a b ↦ r a b = true := by
  constructor
  · intro h
    obtain ⟨piece, hpiece⟩ := List.length_eq_one_iff.mp h
    have hflatten := List.flatten_splitBy r l
    rw [hpiece, List.flatten_singleton] at hflatten
    have hmem : l ∈ l.splitBy r := by
      rw [hpiece, hflatten]
      exact List.mem_singleton_self l
    exact List.isChain_of_mem_splitBy hmem
  · intro h
    rw [List.splitBy_of_isChain hne h, List.length_singleton]

/-! ## Ascending lists of numbers -/

theorem isChain_ne_succ_iff {l : List ℕ} (h : l.Pairwise (· < ·)) :
    (l.IsChain fun a b ↦ b ≠ a + 1) ↔ ∀ a ∈ l, a + 1 ∉ l := by
  induction l with
  | nil => simp
  | cons a l ih =>
      obtain ⟨hhead, htail⟩ := List.pairwise_cons.mp h
      have hfirst : (∀ b ∈ l.head?, b ≠ a + 1) ↔ a + 1 ∉ l := by
        cases l with
        | nil => simp
        | cons b l =>
            have hb := hhead b List.mem_cons_self
            have hlater : ∀ c ∈ l, b < c := (List.pairwise_cons.mp htail).1
            constructor
            · intro hne hmem
              rcases List.mem_cons.mp hmem with rfl | hmem
              · exact hne _ rfl rfl
              · have hc := hlater _ hmem
                omega
            · rintro hnot c ⟨⟩ rfl
              exact hnot List.mem_cons_self
      rw [List.isChain_cons, hfirst, ih htail, List.forall_mem_cons]
      have hne : ∀ b ∈ l, b + 1 ≠ a := by
        intro b hb
        have hlt := hhead b hb
        omega
      refine and_congr ?_ ⟨fun hl b hb ↦ ?_, fun hl b hb ↦ ?_⟩
      · simp
      · simpa using ⟨hne b hb, hl b hb⟩
      · exact fun hmem ↦ hl b hb (List.mem_cons_of_mem _ hmem)

theorem eq_range'_of_isChain {a : ℕ} {l : List ℕ}
    (h : (a :: l).IsChain fun a b ↦ b = a + 1) : a :: l = List.range' a (l.length + 1) := by
  induction l generalizing a with
  | nil => rfl
  | cons b l ih =>
      obtain ⟨rfl, htail⟩ := List.isChain_cons_cons.mp h
      rw [List.length_cons, ih htail]
      exact List.range'_succ.symm

variable {S : Finset ℕ}

theorem toFinset_range' (a n : ℕ) : (List.range' a (n + 1)).toFinset = Finset.Icc a (a + n) := by
  ext b
  rw [List.mem_toFinset, List.mem_range'_1, Finset.mem_Icc]
  omega

theorem head?_sort (hS : S.Nonempty) : S.sort.head? = some (S.min' hS) := by
  have hlength : 0 < S.sort.length := by
    rw [Finset.length_sort]
    exact hS.card_pos
  rw [List.head?_eq_getElem?, List.getElem?_eq_getElem hlength, Finset.sorted_zero_eq_min']

theorem sort_isChain_ne_succ_iff :
    (S.sort.IsChain fun a b ↦ b ≠ a + 1) ↔ ∀ a ∈ S, a + 1 ∉ S := by
  rw [isChain_ne_succ_iff S.sortedLT_sort.pairwise]
  simp

/-- The ascending list is one run if and only if the set is an interval. -/
theorem sort_isChain_succ_iff (hS : S.Nonempty) :
    (S.sort.IsChain fun a b ↦ b = a + 1) ↔ ∃ a n, S = Finset.Icc a (a + n) := by
  constructor
  · intro h
    have hne : S.sort ≠ [] := by
      rw [← List.length_pos_iff, Finset.length_sort]
      exact hS.card_pos
    obtain ⟨a, l, hl⟩ := List.exists_cons_of_ne_nil hne
    rw [hl] at h
    refine ⟨a, l.length, ?_⟩
    rw [← toFinset_range', ← eq_range'_of_isChain h, ← hl, Finset.sort_toFinset]
  · rintro ⟨a, n, rfl⟩
    have hsort : (Finset.Icc a (a + n)).sort = List.range' a (n + 1) := by
      rw [← toFinset_range']
      exact (List.toFinset_sort _ List.nodup_range').mpr (List.pairwise_le_range')
    rw [hsort]
    exact List.isChain_range' a (n + 1) 1

end BetterCpu.Runs
