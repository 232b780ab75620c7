import Mathlib.Data.List.Basic
import Mathlib.Logic.Function.Basic

/-!
# Descriptor tables

What the open descriptors of a process refer to.  A file is opened under the
least free descriptor below the limit, and `dup2` refuses what is not below
it.  Redirecting the first descriptors one after the other to a file that has
just been opened changes these descriptors and no other.
-/

namespace BetterCpu.Descriptors

variable {φ : Type*}

abbrev Table (φ : Type*) := ℕ → Option φ

/-- The descriptor under which the next file is opened. -/
def lowestFree (limit : ℕ) (table : Table φ) : Option ℕ :=
  (List.range limit).find? fun fd ↦ (table fd).isNone

def openAt (fd : ℕ) (file : φ) (table : Table φ) : Table φ :=
  Function.update table fd (some file)

def dup2 (limit oldFd newFd : ℕ) (table : Table φ) : Table φ :=
  if (table oldFd).isSome ∧ newFd < limit then Function.update table newFd (table oldFd) else table

def close (fd : ℕ) (table : Table φ) : Table φ :=
  Function.update table fd none

variable {limit fd : ℕ} {file : φ} {table : Table φ}

theorem lowestFree_eq_some (h : lowestFree limit table = some fd) :
    table fd = none ∧ fd < limit := by
  constructor
  · simpa using List.find?_some h
  · exact List.mem_range.mp (List.mem_of_find?_eq_some h)

/-- The table with the first `n` descriptors referring to the file, as far as the
limit lets them. -/
def overlaid (limit : ℕ) (file : φ) (table : Table φ) (n : ℕ) : Table φ :=
  fun m ↦ if m < n ∧ m < limit then some file else table m

@[simp] theorem overlaid_zero : overlaid limit file table 0 = table := by
  funext m
  simp [overlaid]

/-- One more descriptor is redirected to the file, which is open under `fd`. -/
theorem dup2_openAt_overlaid (n : ℕ) :
    dup2 limit fd n (openAt fd file (overlaid limit file table n)) =
      openAt fd file (overlaid limit file table (n + 1)) := by
  have hopen : openAt fd file (overlaid limit file table n) fd = some file :=
    Function.update_self ..
  by_cases hn : n < limit
  · rw [dup2, hopen, if_pos ⟨rfl, hn⟩]
    funext m
    rw [Function.update_apply]
    by_cases hm : m = n
    · subst hm
      simp [openAt, overlaid, Function.update_apply, hn]
    · have hiff : m < n + 1 ↔ m < n := by omega
      simp only [hm, openAt, overlaid, Function.update_apply, hiff, if_false]
  · have hsame : overlaid limit file table (n + 1) = overlaid limit file table n := by
      funext m
      have hiff : m < n + 1 ∧ m < limit ↔ m < n ∧ m < limit := by omega
      simp only [overlaid, hiff]
    rw [dup2, if_neg fun h ↦ hn h.2, hsame]

/-- A descriptor behind the redirected ones is closed again. -/
theorem close_openAt_overlaid {n : ℕ} (hfree : table fd = none) (hn : n ≤ fd) :
    close fd (openAt fd file (overlaid limit file table n)) = overlaid limit file table n := by
  have hfd : overlaid limit file table n fd = none := by
    rw [overlaid, if_neg (by omega), hfree]
  rw [close, openAt, Function.update_idem, ← hfd, Function.update_eq_self]

/-- A descriptor among the redirected ones stays open. -/
theorem openAt_overlaid_of_lt {n : ℕ} (hlimit : fd < limit) (hn : fd < n) :
    openAt fd file (overlaid limit file table n) = overlaid limit file table n := by
  have hfd : overlaid limit file table n fd = some file := if_pos ⟨hn, hlimit⟩
  rw [openAt, ← hfd, Function.update_eq_self]

end BetterCpu.Descriptors
