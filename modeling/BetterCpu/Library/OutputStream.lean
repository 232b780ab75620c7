import BetterCpu.Library.Text

/-!
# Buffered output

A stream that collects characters in a buffer of a fixed size.  The buffer is
written to the file when it is full and once more when the stream is closed,
and the stream is good until a write has failed.  What each write takes is up
to the medium, so a failure may come at any of them.
-/

namespace BetterCpu

open Text

/-- How many characters of a text the file takes from the write of that
number. -/
abbrev Medium := ℕ → Text → ℕ

structure OStream where
  file : Text
  pending : Text
  writes : ℕ
  good : Bool
  deriving DecidableEq

namespace OStream

def truncated : OStream := ⟨[], [], 0, true⟩

variable (medium : Medium) (size : ℕ)

/-- A write that takes less than the buffer fails, and the buffer stays. -/
def flush (s : OStream) : OStream :=
  if s.pending.length ≤ medium s.writes s.pending then
    { s with file := s.file ++ s.pending, pending := [], writes := s.writes + 1 }
  else
    { s with
      file := s.file ++ s.pending.take (medium s.writes s.pending)
      writes := s.writes + 1
      good := false }

def put (s : OStream) (c : Char) : OStream :=
  if s.good then
    let s := { s with pending := s.pending ++ [c] }
    if s.pending.length < size then s else s.flush medium
  else s

def insert (s : OStream) (t : Text) : OStream :=
  t.foldl (put medium size) s

/-- What the file holds once the destructor has run.  An empty buffer makes
no write. -/
def close (s : OStream) : Text :=
  if s.pending = [] then s.file else (s.flush medium).file

theorem insert_append (s : OStream) (t u : Text) :
    s.insert medium size (t ++ u) = (s.insert medium size t).insert medium size u :=
  List.foldl_append

theorem insert_insert_all (s : OStream) (pieces : List Text) :
    pieces.foldl (insert medium size) s = s.insert medium size pieces.flatten := by
  induction pieces generalizing s with
  | nil => rfl
  | cons piece pieces ih => rw [List.foldl_cons, ih, List.flatten_cons, insert_append]

theorem put_of_not_good {s : OStream} (h : s.good = false) (c : Char) :
    s.put medium size c = s := by
  simp [put, h]

end OStream

/-! ## Blocks -/

/-- The characters of a text that the buffer holds when it is full for the
time of that number. -/
def block (size i : ℕ) (t : Text) : Text :=
  (t.drop (size * i)).take size

/-- The characters behind the last full block. -/
def remainder (size : ℕ) (t : Text) : Text :=
  t.drop (size * (t.length / size))

theorem length_remainder (size : ℕ) (t : Text) : (remainder size t).length = t.length % size := by
  rw [remainder, List.length_drop, Nat.mod_def]

theorem take_append_remainder (size : ℕ) (t : Text) :
    t.take (size * (t.length / size)) ++ remainder size t = t :=
  List.take_append_drop _ t

theorem block_append {size i : ℕ} {t : Text} (h : i < t.length / size) (u : Text) :
    block size i (t ++ u) = block size i t := by
  have hle : size * i + size ≤ t.length := by
    calc size * i + size = size * (i + 1) := by ring
      _ ≤ size * (t.length / size) := Nat.mul_le_mul_left size h
      _ ≤ t.length := Nat.mul_div_le _ _
  unfold block
  rw [List.drop_append_of_le_length (by omega), List.take_append_of_le_length]
  rw [List.length_drop]
  omega

namespace Medium

variable (medium : Medium) (size : ℕ) (t : Text)

/-- Every write of a full buffer takes all of it. -/
def TakesBlocks : Prop :=
  ∀ i < t.length / size, size ≤ medium i (block size i t)

/-- The write of the characters that the last full block leaves takes all of
them. -/
def TakesRemainder : Prop :=
  t.length % size ≤ medium (t.length / size) (remainder size t)

instance instDecidableTakesBlocks : Decidable (medium.TakesBlocks size t) :=
  inferInstanceAs (Decidable (∀ i < t.length / size, size ≤ medium i (block size i t)))

end Medium

namespace OStream

/-- The stream after the text when no write has failed so far. -/
def settled (size : ℕ) (t : Text) : OStream :=
  ⟨t.take (size * (t.length / size)), remainder size t, t.length / size, true⟩

variable {medium : Medium} {size : ℕ} {t : Text} {c : Char}

theorem length_div_of_lt (h : t.length % size + 1 < size) :
    (t ++ [c]).length / size = t.length / size := by
  have hlength : (t ++ [c]).length = t.length % size + 1 + size * (t.length / size) := by
    have hsplit := Nat.div_add_mod t.length size
    rw [List.length_append, List.length_singleton]
    omega
  rw [hlength, Nat.add_mul_div_left _ _ (by omega), Nat.div_eq_of_lt h, Nat.zero_add]

theorem length_append_of_full (h : t.length % size + 1 = size) :
    (t ++ [c]).length = size * (t.length / size + 1) := by
  have hsplit := Nat.div_add_mod t.length size
  rw [List.length_append, List.length_singleton, Nat.mul_succ]
  omega

theorem length_div_of_full (h : t.length % size + 1 = size) :
    (t ++ [c]).length / size = t.length / size + 1 := by
  rw [length_append_of_full h, Nat.mul_div_cancel_left _ (by omega)]

/-- A character that fills the buffer completes a block. -/
theorem block_of_full (h : t.length % size + 1 = size) :
    block size (t.length / size) (t ++ [c]) = remainder size t ++ [c] := by
  rw [block, List.drop_append_of_le_length (Nat.mul_div_le _ _)]
  apply List.take_of_length_le
  rw [← remainder, List.length_append, length_remainder, List.length_singleton]
  omega

theorem takesBlocks_append_of_lt (h : t.length % size + 1 < size) :
    medium.TakesBlocks size (t ++ [c]) ↔ medium.TakesBlocks size t := by
  unfold Medium.TakesBlocks
  rw [length_div_of_lt h]
  apply forall₂_congr
  intro i hi
  rw [block_append hi]

theorem takesBlocks_append_of_full (h : t.length % size + 1 = size) :
    medium.TakesBlocks size (t ++ [c]) ↔ medium.TakesBlocks size t ∧
      size ≤ medium (t.length / size) (remainder size t ++ [c]) := by
  unfold Medium.TakesBlocks
  rw [length_div_of_full h, Nat.forall_lt_succ_right, block_of_full h]
  apply and_congr_left
  intro _
  apply forall₂_congr
  intro i hi
  rw [block_append hi]

theorem put_settled_of_lt (h : t.length % size + 1 < size) :
    (settled size t).put medium size c = settled size (t ++ [c]) := by
  have hle : size * (t.length / size) ≤ t.length := Nat.mul_div_le _ _
  have hpending : (remainder size t ++ [c]).length < size := by
    rwa [List.length_append, length_remainder, List.length_singleton]
  have hput : (settled size t).put medium size c =
      { settled size t with pending := remainder size t ++ [c] } := by
    simp only [put, settled, if_true]
    exact if_pos hpending
  have hremainder : remainder size (t ++ [c]) = remainder size t ++ [c] := by
    rw [remainder, length_div_of_lt h, List.drop_append_of_le_length hle, ← remainder]
  rw [hput]
  simp only [settled, hremainder, length_div_of_lt h, List.take_append_of_le_length hle]

variable (medium c) in
theorem put_settled_of_full (h : t.length % size + 1 = size) :
    (size ≤ medium (t.length / size) (remainder size t ++ [c]) →
        (settled size t).put medium size c = settled size (t ++ [c])) ∧
      (¬ size ≤ medium (t.length / size) (remainder size t ++ [c]) →
        ((settled size t).put medium size c).good = false) := by
  have hpending : (remainder size t ++ [c]).length = size := by
    rwa [List.length_append, length_remainder, List.length_singleton]
  have hput : (settled size t).put medium size c =
      ({ settled size t with pending := remainder size t ++ [c] } : OStream).flush medium := by
    simp [put, settled, hpending]
  rw [hput]
  constructor
  · intro htakes
    have hsettled : settled size (t ++ [c]) = ⟨t ++ [c], [], t.length / size + 1, true⟩ := by
      simp only [settled, remainder, length_div_of_full h, ← length_append_of_full (c := c) h,
        List.take_length, List.drop_length]
    simp only [flush, settled, hpending, if_pos htakes]
    rw [← List.append_assoc, take_append_remainder]
    exact hsettled.symm
  · intro hfails
    simp only [flush, settled, hpending, if_neg hfails]

variable (medium) in
/-- The stream is good after the text exactly when every full buffer has been
taken, and it then keeps the remainder. -/
theorem insert_truncated_cases (hsize : 0 < size) (t : Text) :
    (medium.TakesBlocks size t ∧ truncated.insert medium size t = settled size t) ∨
      (¬ medium.TakesBlocks size t ∧ (truncated.insert medium size t).good = false) := by
  induction t using List.reverseRecOn with
  | nil =>
      left
      exact ⟨by simp [Medium.TakesBlocks], by simp [insert, settled, remainder, truncated]⟩
  | append_singleton t c ih =>
      have hmod : t.length % size < size := Nat.mod_lt _ hsize
      rw [insert_append]
      change _ ∧ (truncated.insert medium size t).put medium size c = _ ∨
        _ ∧ ((truncated.insert medium size t).put medium size c).good = false
      rcases ih with ⟨htakes, hsettled⟩ | ⟨hfails, hbad⟩
      · rw [hsettled]
        rcases Nat.lt_or_ge (t.length % size + 1) size with hlt | hge
        · exact Or.inl ⟨(takesBlocks_append_of_lt hlt).mpr htakes, put_settled_of_lt hlt⟩
        · have hfull : t.length % size + 1 = size := by omega
          obtain ⟨hgood, hbad⟩ := put_settled_of_full medium c hfull
          rw [takesBlocks_append_of_full hfull]
          by_cases hlast : size ≤ medium (t.length / size) (remainder size t ++ [c])
          · exact Or.inl ⟨⟨htakes, hlast⟩, hgood hlast⟩
          · exact Or.inr ⟨fun h ↦ hlast h.2, hbad hlast⟩
      · refine Or.inr ⟨fun h ↦ hfails ?_, by rw [put_of_not_good medium size hbad]; exact hbad⟩
        rcases Nat.lt_or_ge (t.length % size + 1) size with hlt | hge
        · exact (takesBlocks_append_of_lt hlt).mp h
        · exact ((takesBlocks_append_of_full (by omega)).mp h).1

theorem good_insert_iff (hsize : 0 < size) :
    (truncated.insert medium size t).good = true ↔ medium.TakesBlocks size t := by
  rcases insert_truncated_cases medium hsize t with ⟨htakes, hsettled⟩ | ⟨hfails, hbad⟩
  · exact iff_of_true (by rw [hsettled]; rfl) htakes
  · exact iff_of_false (by simp [hbad]) hfails

theorem close_settled_iff : (settled size t).close medium = t ↔ medium.TakesRemainder size t := by
  have hlength := length_remainder size t
  unfold close Medium.TakesRemainder
  split
  · next hempty =>
      have hzero : t.length % size = 0 := by
        rw [← hlength, show remainder size t = [] from hempty, List.length_nil]
      have hfile : (settled size t).file = t := by
        have hsplit := take_append_remainder size t
        rwa [show remainder size t = [] from hempty, List.append_nil] at hsplit
      exact iff_of_true hfile (by omega)
  · unfold flush
    split
    · next htakes =>
        exact iff_of_true (take_append_remainder size t) (by rwa [← hlength])
    · next hfails =>
        refine iff_of_false ?_ (by rwa [← hlength])
        intro hall
        have hshort := congrArg List.length hall
        have htaken := congrArg List.length (take_append_remainder size t)
        simp only [settled, List.length_append, List.length_take] at hshort htaken hfails
        omega

end OStream

/-! ## Writing a whole file -/

/-- What a file that is opened for writing meets: whether it opens, the size
of the buffer, and the medium.  It is assumed that the buffer is written exactly
when it is full. -/
structure Destination where
  opens : Bool
  bufferSize : ℕ
  bufferSize_pos : 0 < bufferSize
  medium : Medium

namespace Destination

variable (d : Destination)

/-- The pieces are inserted into a stream that truncates the file, and `good()`
is the result; the second component is the file once the stream is closed. -/
def writeFile (pieces : List Text) (before : Option Text) : Bool × Option Text :=
  if d.opens then
    let s := pieces.foldl (OStream.insert d.medium d.bufferSize) OStream.truncated
    (s.good, some (s.close d.medium))
  else (false, before)

def TakesBlocks (t : Text) : Prop :=
  d.medium.TakesBlocks d.bufferSize t

def TakesRemainder (t : Text) : Prop :=
  d.medium.TakesRemainder d.bufferSize t

instance instDecidableTakesBlocks (t : Text) : Decidable (d.TakesBlocks t) :=
  inferInstanceAs (Decidable (d.medium.TakesBlocks d.bufferSize t))

/-- What the file holds after the text has been inserted and the stream has
been closed. -/
def written (t : Text) : Text :=
  (OStream.truncated.insert d.medium d.bufferSize t).close d.medium

theorem writeFile_eq (pieces : List Text) (before : Option Text) :
    d.writeFile pieces before =
      if d.opens then (decide (d.TakesBlocks pieces.flatten), some (d.written pieces.flatten))
      else (false, before) := by
  unfold writeFile written
  rw [OStream.insert_insert_all]
  have hgood : (OStream.truncated.insert d.medium d.bufferSize pieces.flatten).good =
      decide (d.TakesBlocks pieces.flatten) :=
    Bool.eq_iff_iff.mpr ((OStream.good_insert_iff d.bufferSize_pos).trans decide_eq_true_iff.symm)
  simp only [hgood]

theorem written_eq_iff {t : Text} (h : d.TakesBlocks t) : d.written t = t ↔ d.TakesRemainder t := by
  have hsettled : OStream.truncated.insert d.medium d.bufferSize t =
      OStream.settled d.bufferSize t := by
    rcases OStream.insert_truncated_cases d.medium d.bufferSize_pos t with hs | hs
    · exact hs.2
    · exact absurd h hs.1
  rw [written, hsettled]
  exact OStream.close_settled_iff

/-- A result of `true` stands for a complete file if and only if the writes of
the full buffers show a failure, or there is none at the close either. -/
theorem writeFile_complete_iff (pieces : List Text) (before : Option Text) :
    ((d.writeFile pieces before).1 = true →
        (d.writeFile pieces before).2 = some pieces.flatten) ↔
      d.opens = false ∨ ¬ d.TakesBlocks pieces.flatten ∨ d.TakesRemainder pieces.flatten := by
  rw [writeFile_eq]
  by_cases hopens : d.opens = true
  · by_cases hblocks : d.TakesBlocks pieces.flatten
    · simp only [hopens, hblocks, if_true, decide_true, true_imp_iff, Option.some.injEq,
        Bool.true_eq_false, not_true_eq_false, false_or]
      exact d.written_eq_iff hblocks
    · simp [hblocks, hopens]
  · simp [hopens]

end Destination
end BetterCpu
