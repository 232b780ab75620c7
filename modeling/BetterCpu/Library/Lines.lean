import BetterCpu.Library.InputStream

/-!
# Lines

What repeated `std::getline` takes from a text: the pieces between the
delimiters, without the empty piece behind one that ends the text.
-/

namespace BetterCpu.Text

def getlines (delim : Char) (t : Text) : List Text :=
  let pieces := t.splitOn delim
  if pieces.getLast? = some [] then pieces.dropLast else pieces

variable {delim : Char} {line t : Text} {lines : List Text}

@[simp] theorem getlines_nil (delim : Char) : getlines delim [] = [] := rfl

theorem getlines_append_cons (h : delim ∉ line) (t : Text) :
    getlines delim (line ++ delim :: t) = line :: getlines delim t := by
  obtain ⟨piece, pieces, hpieces⟩ := List.exists_cons_of_ne_nil (List.splitOn_ne_nil delim t)
  simp only [getlines, List.splitOn_append_cons_self_of_not_mem h, hpieces,
    List.getLast?_cons_cons, List.dropLast_cons_cons]
  split <;> rfl

/-- The lines of what is written line by line, and of what stands behind. -/
theorem getlines_flatMap_append (h : ∀ line ∈ lines, delim ∉ line) (t : Text) :
    getlines delim ((lines.flatMap fun line ↦ line ++ [delim]) ++ t) =
      lines ++ getlines delim t := by
  induction lines with
  | nil => rfl
  | cons line lines ih =>
      rw [List.flatMap_cons, List.append_assoc, List.append_assoc, List.singleton_append,
        getlines_append_cons (h line List.mem_cons_self),
        ih fun l hl ↦ h l (List.mem_cons_of_mem _ hl), List.cons_append]

theorem getlines_flatMap (h : ∀ line ∈ lines, delim ∉ line) :
    getlines delim (lines.flatMap fun line ↦ line ++ [delim]) = lines := by
  simpa using getlines_flatMap_append h []

/-- The tokens of a list with the delimiter between them. -/
theorem getlines_intercalate {tokens : List Text} (h : ∀ token ∈ tokens, delim ∉ token)
    (hne : ∀ token ∈ tokens, token ≠ []) :
    getlines delim ([delim].intercalate tokens) = tokens := by
  cases tokens with
  | nil => rfl
  | cons token tokens =>
      have hsplit : ([delim].intercalate (token :: tokens)).splitOn delim = token :: tokens :=
        List.splitOn_intercalate delim h (by simp)
      have hlast : (token :: tokens).getLast? ≠ some [] := by
        intro hlast
        exact hne [] (List.mem_of_getLast? hlast) rfl
      simp only [getlines, hsplit, if_neg hlast]

theorem mem_intercalate {c : Char} {tokens : List Text} (h : c ∈ [delim].intercalate tokens) :
    c = delim ∨ ∃ token ∈ tokens, c ∈ token := by
  induction tokens with
  | nil => cases h
  | cons token tokens ih =>
      cases tokens with
      | nil => exact Or.inr ⟨token, List.mem_cons_self, by simpa using h⟩
      | cons next tokens =>
          rw [List.intercalate_cons_cons, List.append_assoc, List.mem_append] at h
          rcases h with htoken | htail
          · exact Or.inr ⟨token, List.mem_cons_self, htoken⟩
          · rcases List.mem_append.mp htail with hdelim | htail
            · exact Or.inl (List.mem_singleton.mp hdelim)
            · exact (ih htail).imp_right fun ⟨other, hother, hc⟩ ↦
                ⟨other, List.mem_cons_of_mem _ hother, hc⟩

end BetterCpu.Text
