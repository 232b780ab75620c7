import BetterCpu.Library.InputStream

/-!
# Loops that may throw

A loop over a list that makes a result of each element, skips it or throws, and
its forms without skipping.  Such a loop returns exactly if none of its turns
throws.
-/

namespace BetterCpu

variable {ε α β γ : Type} {l : List α}

/-- Two computations that do not depend on each other. -/
theorem returns_both_iff {x : Except ε α} {y : Except ε β} {g : α → β → γ} :
    (∃ c, (x >>= fun a ↦ y >>= fun b ↦ return g a b) = .ok c) ↔
      (∃ a, x = .ok a) ∧ ∃ b, y = .ok b := by
  rw [bind_returns_iff]
  constructor
  · rintro ⟨a, ha, hrest⟩
    obtain ⟨b, hb, -⟩ := bind_returns_iff.mp hrest
    exact ⟨⟨a, ha⟩, b, hb⟩
  · rintro ⟨⟨a, ha⟩, b, hb⟩
    exact ⟨a, ha, bind_returns_iff.mpr ⟨b, hb, _, rfl⟩⟩

def collect (f : α → Except ε (Option β)) : List α → Except ε (List β)
  | [] => return []
  | a :: l => do
      let b ← f a
      let bs ← collect f l
      return b.toList ++ bs

theorem collect_map (f : α → Except ε (Option β)) (g : γ → α) (l : List γ) :
    collect f (l.map g) = collect (fun c ↦ f (g c)) l := by
  induction l with
  | nil => rfl
  | cons c l ih => rw [List.map_cons, collect, collect, ih]

theorem collect_eq_ok {f : α → Except ε (Option β)} {g : α → Option β}
    (h : ∀ a ∈ l, f a = .ok (g a)) : collect f l = .ok (l.filterMap g) := by
  induction l with
  | nil => rfl
  | cons a l ih =>
      rw [collect, h a List.mem_cons_self, ih fun b hb ↦ h b (List.mem_cons_of_mem _ hb)]
      cases hg : g a with
      | none =>
          rw [List.filterMap_cons_none hg]
          rfl
      | some b =>
          rw [List.filterMap_cons_some hg]
          rfl

theorem collect_returns_iff {f : α → Except ε (Option β)} :
    (∃ bs, collect f l = .ok bs) ↔ ∀ a ∈ l, ∃ b, f a = .ok b := by
  induction l with
  | nil => simpa using ⟨[], rfl⟩
  | cons a l ih =>
      rw [collect, returns_both_iff, List.forall_mem_cons, ← ih]

/-- The results are those of the turns. -/
theorem mem_collect_iff {f : α → Except ε (Option β)} {bs : List β} (h : collect f l = .ok bs)
    {b : β} : b ∈ bs ↔ ∃ a ∈ l, f a = .ok (some b) := by
  induction l generalizing bs with
  | nil =>
      cases h
      simp
  | cons a l ih =>
      obtain ⟨b', hb', hrest⟩ := bind_eq_ok_iff.mp h
      obtain ⟨bs', hbs', hbs⟩ := bind_eq_ok_iff.mp hrest
      cases hbs
      have hhead : b ∈ b'.toList ↔ f a = .ok (some b) := by
        rw [hb', Option.mem_toList, Except.ok.injEq]
      rw [List.mem_append, hhead, ih hbs']
      simp

theorem mapM_eq_ok {f : α → Except ε β} {g : α → β} (h : ∀ a ∈ l, f a = .ok (g a)) :
    l.mapM f = .ok (l.map g) := by
  induction l with
  | nil => rfl
  | cons a l ih =>
      rw [List.mapM_cons, h a List.mem_cons_self, ih fun b hb ↦ h b (List.mem_cons_of_mem _ hb)]
      rfl

theorem mapM_returns_iff {f : α → Except ε β} :
    (∃ bs, l.mapM f = .ok bs) ↔ ∀ a ∈ l, ∃ b, f a = .ok b := by
  induction l with
  | nil => simpa using ⟨[], rfl⟩
  | cons a l ih =>
      rw [List.mapM_cons, returns_both_iff, List.forall_mem_cons, ← ih]

/-- A fold whose turns throw whatever the state is, or never. -/
theorem foldlM_returns_iff {f : β → α → Except ε β} {p : α → Prop}
    (h : ∀ a b, (∃ c, f b a = .ok c) ↔ p a) (b : β) :
    (∃ c, l.foldlM f b = .ok c) ↔ ∀ a ∈ l, p a := by
  induction l generalizing b with
  | nil => simpa using ⟨b, rfl⟩
  | cons a l ih =>
      rw [List.foldlM_cons, bind_returns_iff, List.forall_mem_cons, ← h a b]
      constructor
      · rintro ⟨c, hc, hrest⟩
        exact ⟨⟨c, hc⟩, (ih c).mp hrest⟩
      · rintro ⟨⟨c, hc⟩, hrest⟩
        exact ⟨c, hc, (ih c).mpr hrest⟩

end BetterCpu
