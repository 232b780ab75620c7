import Mathlib.Data.List.Nodup
import Mathlib.Data.List.Perm.Basic
import Mathlib.Data.List.Sort
import Mathlib.Logic.Equiv.Basic

/-!
# Rankings

A list sorted from the highest to the lowest key by a sort that need not be
stable.  Elements with equal keys may stand in any order, so a position is
determined only for an element that is untied.
-/

namespace BetterCpu.Ranking

variable {α β : Type*} [LinearOrder α] {key : β → α} {l xs : List β} {a b : β} {n : ℕ}

/-- A possible result of sorting `l` by `key`, highest first. -/
structure IsRanking (key : β → α) (l xs : List β) : Prop where
  perm : xs.Perm l
  sorted : xs.Pairwise fun x y ↦ key y ≤ key x

instance [DecidableEq β] : Decidable (IsRanking key l xs) :=
  decidable_of_iff (xs.Perm l ∧ xs.Pairwise fun x y ↦ key y ≤ key x)
    ⟨fun h ↦ ⟨h.1, h.2⟩, fun h ↦ ⟨h.perm, h.sorted⟩⟩

def above (key : β → α) (l : List β) (a : β) : ℕ :=
  l.countP fun x ↦ key a < key x

def atLeast (key : β → α) (l : List β) (a : β) : ℕ :=
  l.countP fun x ↦ key a ≤ key x

/-- The positions of the elements whose key is that of `a`. -/
def MayBeAt (key : β → α) (l : List β) (a : β) (n : ℕ) : Prop :=
  above key l a ≤ n ∧ n < atLeast key l a

def Untied (key : β → α) (l : List β) (a : β) : Prop :=
  ∀ x ∈ l, key x = key a → x = a

theorem exists_isRanking (key : β → α) (l : List β) : ∃ xs, IsRanking key l xs := by
  let le : β → β → Bool := fun x y ↦ decide (key y ≤ key x)
  have htrans : ∀ x y z, le x y = true → le y z = true → le x z = true := by
    simp only [le, decide_eq_true_eq]
    exact fun x y z hxy hyz ↦ hyz.trans hxy
  have htotal : ∀ x y, (le x y || le y x) = true := by
    simpa [le] using fun x y ↦ le_total (key y) (key x)
  refine ⟨l.mergeSort le, List.mergeSort_perm _ _, ?_⟩
  simpa [le] using List.pairwise_mergeSort htrans htotal l

/-- In a sorted list a predicate that is closed towards the front holds of a
prefix, whose length is the number of elements with it. -/
theorem lt_countP_iff {r : β → β → Prop} {p : β → Bool} (hsorted : xs.Pairwise r)
    (hp : ∀ x y, r x y → p y = true → p x = true) (hn : xs[n]? = some b) :
    n < xs.countP p ↔ p b = true := by
  induction xs generalizing n with
  | nil => simp at hn
  | cons x xs ih =>
      obtain ⟨hhead, htail⟩ := List.pairwise_cons.mp hsorted
      cases hx : p x with
      | true =>
          rw [List.countP_cons_of_pos hx]
          cases n with
          | zero =>
              obtain rfl : x = b := by simpa using hn
              simp [hx]
          | succ n => rw [Nat.succ_lt_succ_iff, ih htail (by simpa using hn)]
      | false =>
          have hnone : ∀ y ∈ x :: xs, ¬ p y = true := by
            intro y hy hpy
            rcases List.mem_cons.mp hy with rfl | hy
            · simp [hx] at hpy
            · simp [hp x y (hhead y hy) hpy] at hx
          rw [List.countP_eq_zero.mpr hnone]
          simpa using hnone b (List.mem_of_getElem? hn)

namespace IsRanking

theorem above_le_iff (h : IsRanking key l xs) (hn : xs[n]? = some b) (a : β) :
    above key l a ≤ n ↔ key b ≤ key a := by
  rw [above, ← h.perm.countP_eq, ← not_lt, lt_countP_iff h.sorted ?_ hn]
  · simp
  · simp only [decide_eq_true_eq]
    exact fun x y hxy hy ↦ hy.trans_le hxy

theorem lt_atLeast_iff (h : IsRanking key l xs) (hn : xs[n]? = some b) (a : β) :
    n < atLeast key l a ↔ key a ≤ key b := by
  rw [atLeast, ← h.perm.countP_eq, lt_countP_iff h.sorted ?_ hn]
  · simp
  · simp only [decide_eq_true_eq]
    exact fun x y hxy hy ↦ hy.trans hxy

theorem mayBeAt_iff (h : IsRanking key l xs) (hn : xs[n]? = some b) (a : β) :
    MayBeAt key l a n ↔ key a = key b := by
  rw [MayBeAt, h.above_le_iff hn, h.lt_atLeast_iff hn, and_comm, le_antisymm_iff]

theorem of_perm {l' : List β} (h : IsRanking key l xs) (hperm : l.Perm l') :
    IsRanking key l' xs :=
  ⟨h.perm.trans hperm, h.sorted⟩

theorem exists_getElem? (h : IsRanking key l xs) (ha : a ∈ l) : ∃ n : ℕ, xs[n]? = some a :=
  List.mem_iff_getElem?.mp (h.perm.mem_iff.mpr ha)

theorem swap (hnodup : l.Nodup) (h : IsRanking key l xs) (hn : xs[n]? = some b) (ha : a ∈ l)
    (hkey : key a = key b) : ∃ ys, IsRanking key l ys ∧ ys[n]? = some a := by
  classical
  have hb : b ∈ l := h.perm.mem_iff.mp (List.mem_of_getElem? hn)
  have hkeys (x : β) : key (Equiv.swap a b x) = key x := by
    rcases eq_or_ne x a with rfl | hxa
    · rw [Equiv.swap_apply_left, hkey]
    · rcases eq_or_ne x b with rfl | hxb
      · rw [Equiv.swap_apply_right, hkey]
      · rw [Equiv.swap_apply_of_ne_of_ne hxa hxb]
  have hmem (x : β) : x ∈ l.map (Equiv.swap a b) ↔ x ∈ l := by
    simp only [List.mem_map, Equiv.swap_apply_eq_iff, exists_eq_right]
    rcases eq_or_ne x a with rfl | hxa
    · simp [ha, hb]
    · rcases eq_or_ne x b with rfl | hxb
      · simp [ha, hb]
      · rw [Equiv.swap_apply_of_ne_of_ne hxa hxb]
  have hperm : (l.map (Equiv.swap a b)).Perm l :=
    (List.perm_ext_iff_of_nodup (hnodup.map (Equiv.injective _)) hnodup).mpr hmem
  refine ⟨xs.map (Equiv.swap a b), ⟨(h.perm.map _).trans hperm, ?_⟩, by simp [hn]⟩
  simpa only [List.pairwise_map, hkeys] using h.sorted

theorem getElem?_iff_of_untied (hnodup : l.Nodup) (h : IsRanking key l xs) (ha : a ∈ l)
    (huntied : Untied key l a) : xs[n]? = some a ↔ n = above key l a := by
  have hposition {m : ℕ} (hm : xs[m]? = some a) : m = above key l a := by
    have hle := (h.above_le_iff hm a).mpr le_rfl
    have hlt := (h.lt_atLeast_iff hm a).mpr le_rfl
    obtain ⟨hlength, -⟩ := List.getElem?_eq_some_iff.mp hm
    have habove : above key l a < xs.length := hle.trans_lt hlength
    have hc : xs[above key l a]? = some xs[above key l a] := List.getElem?_eq_getElem habove
    have hkey := (h.mayBeAt_iff hc a).mp ⟨le_rfl, hle.trans_lt hlt⟩
    have heq := huntied _ (h.perm.mem_iff.mp (List.getElem_mem _)) hkey.symm
    rw [heq] at hc
    exact (List.getElem?_inj hlength (h.perm.nodup_iff.mpr hnodup)).mp (hm.trans hc.symm)
  constructor
  · exact hposition
  · rintro rfl
    obtain ⟨m, hm⟩ := h.exists_getElem? ha
    rwa [hposition hm] at hm

/-! ### The first elements of a ranking -/

theorem subperm_take (h : IsRanking key l xs) (n : ℕ) : (xs.take n).Subperm l :=
  (List.take_sublist n xs).subperm.trans h.perm.subperm

theorem length_take (h : IsRanking key l xs) (n : ℕ) : (xs.take n).length = min n l.length := by
  rw [List.length_take, h.perm.length_eq]

/-- Whatever the ranking leaves out is at most what it keeps. -/
theorem le_of_left_out (h : IsRanking key l xs) {rest : List β}
    (hrest : (xs.take n ++ rest).Perm l) (ha : a ∈ xs.take n) (hb : b ∈ rest) : key b ≤ key a := by
  have hsplit : (xs.take n ++ rest).Perm (xs.take n ++ xs.drop n) := by
    rw [List.take_append_drop]
    exact hrest.trans h.perm.symm
  have hdrop : b ∈ xs.drop n := ((List.perm_append_left_iff _).mp hsplit).mem_iff.mp hb
  have hsorted := h.sorted
  rw [← List.take_append_drop n xs] at hsorted
  exact (List.pairwise_append.mp hsorted).2.2 a ha b hdrop

theorem le_head (h : IsRanking key l (a :: xs)) (hb : b ∈ l) : key b ≤ key a := by
  rcases List.mem_cons.mp (h.perm.mem_iff.mpr hb) with rfl | hb
  · exact le_rfl
  · exact (List.pairwise_cons.mp h.sorted).1 b hb

end IsRanking

theorem isRanking_map_iff {γ : Type*} {f : γ → β} {m : List γ} :
    IsRanking key (m.map f) xs ↔ ∃ ys, IsRanking (fun c ↦ key (f c)) m ys ∧ ys.map f = xs := by
  constructor
  · intro h
    obtain ⟨ys, hys, hperm⟩ : ∃ ys : List γ, xs = ys.map f ∧ ys.Perm m := by
      have hcomp := congrFun₂ (List.eq_map_comp_perm f) xs m
      exact hcomp.mpr h.perm
    subst hys
    exact ⟨ys, ⟨hperm, List.pairwise_map.mp h.sorted⟩, rfl⟩
  · rintro ⟨ys, hys, rfl⟩
    exact ⟨hys.perm.map f, List.pairwise_map.mpr hys.sorted⟩

theorem exists_isRanking_getElem? (hnodup : l.Nodup) (ha : a ∈ l) (h : MayBeAt key l a n) :
    ∃ xs, IsRanking key l xs ∧ xs[n]? = some a := by
  obtain ⟨xs, hxs⟩ := exists_isRanking key l
  have hlength : n < xs.length := by
    rw [hxs.perm.length_eq]
    exact h.2.trans_le List.countP_le_length
  have hn : xs[n]? = some xs[n] := List.getElem?_eq_getElem hlength
  exact hxs.swap hnodup hn ha ((hxs.mayBeAt_iff hn a).mp h)

theorem exists_mayBeAt (key : β → α) (ha : a ∈ l) : ∃ n, MayBeAt key l a n := by
  obtain ⟨xs, hxs⟩ := exists_isRanking key l
  obtain ⟨n, hn⟩ := hxs.exists_getElem? ha
  exact ⟨n, (hxs.mayBeAt_iff hn a).mpr rfl⟩

/-! ## Two rankings -/

variable {key₁ key₂ : β → α} {l₁ l₂ : List β}

/-- The element is untied in both rankings and has the same number of elements
above it. -/
structure SameRank (key₁ key₂ : β → α) (l₁ l₂ : List β) (a : β) : Prop where
  mem : a ∈ l₂
  untied₁ : Untied key₁ l₁ a
  untied₂ : Untied key₂ l₂ a
  above_eq : above key₁ l₁ a = above key₂ l₂ a

/-- All rankings by the first key and all rankings by the second have the same
element at a position if and only if whatever may be there has the same rank. -/
theorem agree_iff (hl₁ : l₁.Nodup) (hl₂ : l₂.Nodup) :
    (∀ xs ys, IsRanking key₁ l₁ xs → IsRanking key₂ l₂ ys →
        ∀ a, xs[n]? = some a → ys[n]? = some a) ↔
      ∀ a ∈ l₁, MayBeAt key₁ l₁ a n → SameRank key₁ key₂ l₁ l₂ a := by
  constructor
  · intro h a ha hmay
    obtain ⟨xs, hxs, hn⟩ := exists_isRanking_getElem? hl₁ ha hmay
    obtain ⟨ys, hys⟩ := exists_isRanking key₂ l₂
    have hny := h xs ys hxs hys a hn
    have hmem : a ∈ l₂ := hys.perm.mem_iff.mp (List.mem_of_getElem? hny)
    have huntied₁ : Untied key₁ l₁ a := by
      intro b hb hkey
      obtain ⟨xs', hxs', hn'⟩ := hxs.swap hl₁ hn hb hkey
      exact Option.some.inj ((h xs' ys hxs' hys b hn').symm.trans hny)
    have huntied₂ : Untied key₂ l₂ a := by
      intro b hb hkey
      obtain ⟨ys', hys', hny'⟩ := hys.swap hl₂ hny hb hkey
      exact Option.some.inj (hny'.symm.trans (h xs ys' hxs hys' a hn))
    refine ⟨hmem, huntied₁, huntied₂, ?_⟩
    rw [← (hxs.getElem?_iff_of_untied hl₁ ha huntied₁).mp hn]
    exact (hys.getElem?_iff_of_untied hl₂ hmem huntied₂).mp hny
  · intro h xs ys hxs hys a hn
    have ha : a ∈ l₁ := hxs.perm.mem_iff.mp (List.mem_of_getElem? hn)
    have hsame := h a ha ((hxs.mayBeAt_iff hn a).mpr rfl)
    rw [hys.getElem?_iff_of_untied hl₂ hsame.mem hsame.untied₂, ← hsame.above_eq]
    exact (hxs.getElem?_iff_of_untied hl₁ ha hsame.untied₁).mp hn

/-- The same for keys of which only a set is known: whatever may be there by some
of them has the same rank by all of them. -/
theorem agree_among_iff (hl₁ : l₁.Nodup) (hl₂ : l₂.Nodup) {keys₁ keys₂ : Set (β → α)}
    (hkeys₂ : keys₂.Nonempty) :
    (∀ key₁ ∈ keys₁, ∀ key₂ ∈ keys₂, ∀ xs ys, IsRanking key₁ l₁ xs → IsRanking key₂ l₂ ys →
        ∀ a, xs[n]? = some a → ys[n]? = some a) ↔
      ∀ a ∈ l₁, (∃ key₁ ∈ keys₁, MayBeAt key₁ l₁ a n) →
        ∀ key₁ ∈ keys₁, ∀ key₂ ∈ keys₂, SameRank key₁ key₂ l₁ l₂ a := by
  constructor
  · rintro h a ha ⟨key, hkey, hmay⟩ key₁ hkey₁ key₂ hkey₂
    have hagree := (agree_iff hl₁ hl₂).mp (h key₁ hkey₁ key₂ hkey₂)
    apply hagree a ha
    -- a third ranking shows what is at this position by every key
    obtain ⟨key₃, hkey₃⟩ := hkeys₂
    obtain ⟨ys, hys⟩ := exists_isRanking key₃ l₂
    obtain ⟨zs, hzs, hnz⟩ := exists_isRanking_getElem? hl₁ ha hmay
    have hny := h key hkey key₃ hkey₃ zs ys hzs hys a hnz
    obtain ⟨xs, hxs⟩ := exists_isRanking key₁ l₁
    obtain ⟨hlength, -⟩ := List.getElem?_eq_some_iff.mp hnz
    rw [hzs.perm.length_eq, ← hxs.perm.length_eq] at hlength
    have hnx : xs[n]? = some xs[n] := List.getElem?_eq_getElem hlength
    have heq : a = xs[n] :=
      Option.some.inj (hny.symm.trans (h key₁ hkey₁ key₃ hkey₃ xs ys hxs hys _ hnx))
    exact (hxs.mayBeAt_iff hnx a).mpr (congrArg key₁ heq)
  · intro h key₁ hkey₁ key₂ hkey₂
    exact (agree_iff hl₁ hl₂).mpr fun a ha hmay ↦ h a ha ⟨key₁, hkey₁, hmay⟩ key₁ hkey₁ key₂ hkey₂

end BetterCpu.Ranking
