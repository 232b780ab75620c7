import BetterCpu.Library.InputStream

/-!
# Searching a text

`find`, `rfind` and `substr` of `std::string`.  The first occurrence is
`List.idxOf?`; the last one is the first of the reversed text.
-/

namespace BetterCpu.Text

def rfind (c : Char) (t : Text) : Option ℕ :=
  (t.reverse.idxOf? c).map fun i ↦ t.length - 1 - i

/-- `t.substr(position)`, which may start at the end of the text. -/
def substr (t : Text) (position : ℕ) : Except StdException Text :=
  if position ≤ t.length then .ok (t.drop position) else .error .outOfRange

variable {c : Char} {t u : Text}

theorem find_append_of_notMem (h : c ∉ t) :
    (t ++ u).idxOf? c = (u.idxOf? c).map (· + t.length) := by
  have hnone : t.idxOf? c = none := List.idxOf?_eq_none_iff.mpr h
  rw [List.idxOf?] at hnone ⊢
  rw [List.findIdx?_append, hnone, Option.none_or]

theorem find_append_cons (h : c ∉ t) : (t ++ c :: u).idxOf? c = some t.length := by
  rw [find_append_of_notMem h]
  simp [List.idxOf?, List.findIdx?_cons]

theorem rfind_append_cons (h : c ∉ u) : rfind c (t ++ c :: u) = some t.length := by
  have hfirst : (t ++ c :: u).reverse.idxOf? c = some u.length := by
    rw [List.reverse_append, List.reverse_cons, List.append_assoc, List.singleton_append,
      find_append_cons (by simpa using h), List.length_reverse]
  rw [rfind, hfirst, Option.map_some, List.length_append, List.length_cons]
  congr 1
  omega

theorem exists_find_append_cons (h : c ∈ t) : ∃ a b, t = a ++ c :: b ∧ c ∉ a := by
  induction t with
  | nil => simp at h
  | cons d t ih =>
      by_cases hd : d = c
      · exact ⟨[], t, by simp [hd], by simp⟩
      · obtain ⟨a, b, rfl, ha⟩ := ih (by simpa [Ne.symm hd] using h)
        exact ⟨d :: a, b, rfl, by simp [Ne.symm hd, ha]⟩

theorem exists_rfind_append_cons (h : c ∈ t) : ∃ a b, t = a ++ c :: b ∧ c ∉ b := by
  obtain ⟨a, b, hab, ha⟩ := exists_find_append_cons (t := t.reverse) (by simpa using h)
  refine ⟨b.reverse, a.reverse, ?_, by simpa using ha⟩
  have hreverse := congrArg List.reverse hab
  simpa using hreverse

theorem rfind_eq_none (h : c ∉ t) : rfind c t = none := by
  have hnone : t.reverse.idxOf? c = none := List.idxOf?_eq_none_iff.mpr (by simpa using h)
  rw [rfind, hnone, Option.map_none]

theorem substr_append (t u : Text) (n : ℕ) : substr (t ++ u) (t.length + n) = substr u n := by
  have hle : t.length + n ≤ (t ++ u).length ↔ n ≤ u.length := by
    rw [List.length_append]
    omega
  simp only [substr, hle, List.drop_append, List.drop_eq_nil_of_le (Nat.le_add_right _ n),
    List.nil_append, Nat.add_sub_cancel_left]

/-- The first line of what is written as a line. -/
theorem takeWhile_ne_append_cons (h : c ∉ t) : (t ++ c :: u).takeWhile (· ≠ c) = t := by
  have hall : ∀ d ∈ t, (decide (d ≠ c)) = true := by
    intro d hd
    simpa using fun heq : d = c ↦ h (heq ▸ hd)
  rw [List.takeWhile_append_of_pos hall]
  simp

/-- The only element that is searched for is found. -/
theorem find?_eq_some_of_unique {α : Type*} {p : α → Bool} {a : α} {l : List α} (ha : a ∈ l)
    (hp : p a = true) (hunique : ∀ b ∈ l, p b = true → b = a) : l.find? p = some a := by
  obtain ⟨b, hb⟩ := Option.isSome_iff_exists.mp (List.find?_isSome.mpr ⟨a, ha, hp⟩)
  rw [hb, hunique b (List.mem_of_find?_eq_some hb) (List.find?_some hb)]

theorem findSome?_eq_some_of_unique {α β : Type*} {f : α → Option β} {a : α} {b : β} {l : List α}
    (ha : a ∈ l) (hb : f a = some b) (hunique : ∀ x ∈ l, f x ≠ none → x = a) :
    l.findSome? f = some b := by
  have hsome : (l.findSome? f).isSome := List.findSome?_isSome_iff.mpr ⟨a, ha, by simp [hb]⟩
  obtain ⟨c, hc⟩ := Option.isSome_iff_exists.mp hsome
  obtain ⟨x, hx, hfx⟩ := List.exists_of_findSome?_eq_some hc
  rw [hc, ← hfx, hunique x hx (by simp [hfx]), hb]

end BetterCpu.Text
