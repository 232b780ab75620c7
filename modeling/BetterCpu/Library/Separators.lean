import Mathlib.Data.List.Basic

/-!
# Separators

A separator that occurs on one side of itself only cuts a list in one place.
-/

namespace BetterCpu.Separators

variable {α β γ : Type*} {c : α} {a b x y : List α}

/-- The first separators stand in the same place. -/
theorem first_inj (ha : c ∉ a) (hb : c ∉ b) (h : a ++ c :: x = b ++ c :: y) : a = b ∧ x = y := by
  induction a generalizing b with
  | nil =>
      cases b with
      | nil => exact ⟨rfl, List.tail_eq_of_cons_eq h⟩
      | cons d b => exact absurd (List.mem_cons.mpr (Or.inl (List.head_eq_of_cons_eq h))) hb
  | cons d a ih =>
      cases b with
      | nil => exact absurd (List.mem_cons.mpr (Or.inl (List.head_eq_of_cons_eq h).symm)) ha
      | cons e b =>
          obtain ⟨rfl, htail⟩ := List.cons_eq_cons.mp h
          obtain ⟨rfl, hxy⟩ := ih (List.not_mem_of_not_mem_cons ha)
            (List.not_mem_of_not_mem_cons hb) htail
          exact ⟨rfl, hxy⟩

/-- The last separators stand in the same place. -/
theorem last_inj (hx : c ∉ x) (hy : c ∉ y) (h : a ++ c :: x = b ++ c :: y) : a = b ∧ x = y := by
  have hreverse : x.reverse ++ c :: a.reverse = y.reverse ++ c :: b.reverse := by
    simpa using congrArg List.reverse h
  obtain ⟨hxy, hab⟩ := first_inj (by simpa using hx) (by simpa using hy) hreverse
  exact ⟨List.reverse_injective hab, List.reverse_injective hxy⟩

/-- The list has the separator at its end, and nowhere else. -/
def Ended (c : α) (line : List α) : Prop :=
  ∃ content, c ∉ content ∧ line = content ++ [c]

/-- Such lines are found in what they make together. -/
theorem flatten_inj {lines lines' : List (List α)} (h : ∀ line ∈ lines, Ended c line)
    (h' : ∀ line ∈ lines', Ended c line) (heq : lines.flatten = lines'.flatten) :
    lines = lines' := by
  induction lines generalizing lines' with
  | nil =>
      cases lines' with
      | nil => rfl
      | cons line' lines' =>
          obtain ⟨content', -, rfl⟩ := h' line' List.mem_cons_self
          simp at heq
  | cons line lines ih =>
      obtain ⟨content, hcontent, rfl⟩ := h line List.mem_cons_self
      cases lines' with
      | nil => simp at heq
      | cons line' lines' =>
          obtain ⟨content', hcontent', rfl⟩ := h' line' List.mem_cons_self
          have hcut : content ++ c :: lines.flatten = content' ++ c :: lines'.flatten := by
            simpa using heq
          obtain ⟨rfl, hrest⟩ := first_inj hcontent hcontent' hcut
          rw [ih (fun l hl ↦ h l (List.mem_cons_of_mem _ hl))
            (fun l hl ↦ h' l (List.mem_cons_of_mem _ hl)) hrest]

/-- A map that respects another one respects the images of this. -/
theorem mapIdx_eq_mapIdx {f : α → β} {g : ℕ → α → γ} {xs ys : List α}
    (h : ∀ n, ∀ x ∈ xs, ∀ y ∈ ys, f x = f y → g n x = g n y) (heq : xs.map f = ys.map f) :
    xs.mapIdx g = ys.mapIdx g := by
  apply List.ext_getElem?
  intro n
  have hn := congrArg (fun images ↦ images[n]?) heq
  simp only [List.getElem?_map] at hn
  rw [List.getElem?_mapIdx, List.getElem?_mapIdx]
  cases hx : xs[n]? with
  | none =>
      rw [hx, Option.map_none, eq_comm, Option.map_eq_none_iff] at hn
      rw [hn]
  | some x =>
      rw [hx, Option.map_some, eq_comm, Option.map_eq_some_iff] at hn
      obtain ⟨y, hy, hxy⟩ := hn
      rw [hy, Option.map_some, Option.map_some,
        h n x (List.mem_of_getElem? hx) y (List.mem_of_getElem? hy) hxy.symm]

theorem map_eq_map {f : α → β} {g : α → γ} {xs ys : List α}
    (h : ∀ x ∈ xs, ∀ y ∈ ys, f x = f y → g x = g y) (heq : xs.map f = ys.map f) :
    xs.map g = ys.map g := by
  have hindexed (zs : List α) : zs.map g = zs.mapIdx fun _ z ↦ g z := by
    apply List.ext_getElem? fun n ↦ ?_
    rw [List.getElem?_map, List.getElem?_mapIdx]
  rw [hindexed, hindexed]
  exact mapIdx_eq_mapIdx (fun _ ↦ h) heq

end BetterCpu.Separators
