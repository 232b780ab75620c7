import BetterCpu.Library.InputStream

/-!
# Decoding a text that has been cut off

Formatted extraction goes on behind the end of a text: from there on every
extraction leaves the default in its target.  So a decoder returns the value
that was written also from a truncated text, as long as only defaults are
missing.  `ReadsBack` says how much of the text is needed, and decoders that run
one after the other need the text up to the last part that is no default.
-/

namespace BetterCpu.Truncation

open Text

abbrev Decoder (α : Type) := IStream → Except StdException (α × IStream)

def Blank (ws : Text) : Prop :=
  ∀ c ∈ ws, isSpace c = true

/-- The text is left in the stream, behind white space; of the empty text also
a stream that has ended may be left. -/
inductive Shows : IStream → Text → Prop
  | text {ws : Text} (p : Text) (hws : Blank ws) : Shows ⟨ws ++ p, false⟩ p
  | ended {s : IStream} (hs : s.sentry = none) : Shows s []

/-- The decoder reads `a` back from `text`, and from a cut text exactly if
`needed` is left. -/
structure ReadsBack {α : Type} (D : Decoder α) (a : α) (text needed : Text) : Prop where
  needed_isPrefix : needed <+: text
  whole : ∀ ws r, Blank ws →
    ∃ us, Blank us ∧ D ⟨ws ++ (text ++ r), false⟩ = .ok (a, ⟨us ++ r, false⟩)
  enough : ∀ {s p}, Shows s p → p <+: text → needed <+: p →
    ∃ s', D s = .ok (a, s') ∧ s'.sentry = none
  missing : ∀ {s p s'}, Shows s p → p <+: text → D s = .ok (a, s') → needed <+: p

theorem sentry_blank {ws : Text} (hws : Blank ws) : IStream.sentry ⟨ws, false⟩ = none := by
  have hdrop : ws.dropWhile isSpace = [] := List.dropWhile_eq_nil_iff.mpr hws
  simp [IStream.sentry, hdrop]

theorem Shows.sentry_eq_none {s : IStream} (hs : Shows s []) : s.sentry = none := by
  cases hs with
  | ended hs => exact hs
  | text _ hws =>
      rw [List.append_nil]
      exact sentry_blank hws

/-- A cut text ends in its first part, or shows all of it. -/
theorem Shows.cases_append {s : IStream} {p t u : Text} (hs : Shows s p) (hp : p <+: t ++ u) :
    p <+: t ∨ ∃ ws p', Blank ws ∧ s = ⟨ws ++ (t ++ p'), false⟩ ∧ p = t ++ p' ∧ p' <+: u := by
  cases hs with
  | ended _ => exact Or.inl List.nil_prefix
  | @text ws _ hws =>
      rcases List.prefix_or_prefix_of_prefix hp (List.prefix_append t u) with hfirst | ⟨p', rfl⟩
      · exact Or.inl hfirst
      · exact Or.inr ⟨ws, p', hws, rfl, rfl, (List.prefix_append_right_inj t).mp hp⟩

/-! ## One decoder after the other -/

section Combinators

variable {α β : Type} {D : Decoder α} {E : α → Decoder β} {a : α} {b : β}
  {text text' needed needed' : Text}

def seq (D : Decoder α) (E : α → Decoder β) : Decoder (α × β) := fun s ↦ do
  let (a, s) ← D s
  let (b, s) ← E a s
  return ((a, b), s)

theorem seq_eq_ok_iff {s s' : IStream} :
    seq D E s = .ok ((a, b), s') ↔ ∃ t, D s = .ok (a, t) ∧ E a t = .ok (b, s') := by
  simp only [seq, bind_eq_ok_iff]
  constructor
  · rintro ⟨⟨_, t⟩, hD, ⟨_, _⟩, hE, ⟨⟩⟩
    exact ⟨t, hD, hE⟩
  · rintro ⟨t, hD, hE⟩
    exact ⟨(a, t), hD, (b, s'), hE, rfl⟩

/-- If the second part is all defaults, only the first one is needed. -/
def neededBoth (text needed needed' : Text) : Text :=
  if needed' = [] then needed else text ++ needed'

theorem neededBoth_prefix_iff (h : needed <+: text) {p : Text} :
    neededBoth text needed needed' <+: text ++ p ↔ needed' <+: p := by
  unfold neededBoth
  split
  · next hnil => simp [hnil, h.trans (List.prefix_append text p)]
  · exact List.prefix_append_right_inj text

theorem neededBoth_prefix_left_iff {p : Text} (hp : p <+: text) :
    neededBoth text needed needed' <+: p ↔ needed' = [] ∧ needed <+: p := by
  unfold neededBoth
  split
  · next hnil => simp [hnil]
  · next hne =>
      refine iff_of_false (fun hlong ↦ ?_) (fun h ↦ hne h.1)
      have hlength := (hlong.trans hp).length_le
      have hpos := List.length_pos_of_ne_nil hne
      rw [List.length_append] at hlength
      omega

theorem ReadsBack.seq (h : ReadsBack D a text needed) (h' : ReadsBack (E a) b text' needed') :
    ReadsBack (seq D E) (a, b) (text ++ text') (neededBoth text needed needed') where
  needed_isPrefix := (neededBoth_prefix_iff h.needed_isPrefix).mpr h'.needed_isPrefix
  whole ws r hws := by
    obtain ⟨us, hus, hD⟩ := h.whole ws (text' ++ r) hws
    obtain ⟨vs, hvs, hE⟩ := h'.whole us r hus
    refine ⟨vs, hvs, seq_eq_ok_iff.mpr ⟨_, ?_, hE⟩⟩
    rw [List.append_assoc]
    exact hD
  enough hs hp hneeded := by
    rcases hs.cases_append hp with hfirst | ⟨ws, p', hws, rfl, rfl, hsecond⟩
    · obtain ⟨hnil, hneeded⟩ := (neededBoth_prefix_left_iff hfirst).mp hneeded
      obtain ⟨t, hD, ht⟩ := h.enough hs hfirst hneeded
      obtain ⟨s', hE, hs'⟩ := h'.enough (.ended ht) List.nil_prefix (by rw [hnil])
      exact ⟨s', seq_eq_ok_iff.mpr ⟨t, hD, hE⟩, hs'⟩
    · obtain ⟨us, hus, hD⟩ := h.whole ws p' hws
      obtain ⟨s', hE, hs'⟩ := h'.enough (.text p' hus) hsecond
        ((neededBoth_prefix_iff h.needed_isPrefix).mp hneeded)
      exact ⟨s', seq_eq_ok_iff.mpr ⟨_, hD, hE⟩, hs'⟩
  missing hs hp hD := by
    obtain ⟨t, hD, hE⟩ := seq_eq_ok_iff.mp hD
    rcases hs.cases_append hp with hfirst | ⟨ws, p', hws, rfl, rfl, hsecond⟩
    · have hneeded := h.missing hs hfirst hD
      obtain ⟨t', hD', ht'⟩ := h.enough hs hfirst hneeded
      obtain rfl : t = t' := by
        rw [hD] at hD'
        exact congrArg Prod.snd (Except.ok.inj hD')
      have hnil := h'.missing (.ended ht') List.nil_prefix hE
      exact (neededBoth_prefix_left_iff hfirst).mpr ⟨List.prefix_nil.mp hnil, hneeded⟩
    · obtain ⟨us, hus, hD'⟩ := h.whole ws p' hws
      obtain rfl : t = ⟨us ++ p', false⟩ := by
        rw [hD] at hD'
        exact congrArg Prod.snd (Except.ok.inj hD')
      exact (neededBoth_prefix_iff h.needed_isPrefix).mpr (h'.missing (.text p' hus) hsecond hE)

def map (f : α → β) (D : Decoder α) : Decoder β := fun s ↦ do
  let (a, s) ← D s
  return (f a, s)

theorem map_eq_ok_iff {f : α → β} {s s' : IStream} :
    map f D s = .ok (b, s') ↔ ∃ a, D s = .ok (a, s') ∧ f a = b := by
  simp only [map, bind_eq_ok_iff]
  constructor
  · rintro ⟨⟨a, _⟩, hD, ⟨⟩⟩
    exact ⟨a, hD, rfl⟩
  · rintro ⟨a, hD, rfl⟩
    exact ⟨(a, s'), hD, rfl⟩

theorem ReadsBack.map (h : ReadsBack D a text needed) {f : α → β}
    (hf : ∀ s a' s', D s = .ok (a', s') → f a' = f a → a' = a) :
    ReadsBack (map f D) (f a) text needed where
  needed_isPrefix := h.needed_isPrefix
  whole ws r hws := by
    obtain ⟨us, hus, hD⟩ := h.whole ws r hws
    exact ⟨us, hus, map_eq_ok_iff.mpr ⟨a, hD, rfl⟩⟩
  enough hs hp hneeded := by
    obtain ⟨s', hD, hs'⟩ := h.enough hs hp hneeded
    exact ⟨s', map_eq_ok_iff.mpr ⟨a, hD, rfl⟩, hs'⟩
  missing hs hp hmap := by
    obtain ⟨a', hD, hfa⟩ := map_eq_ok_iff.mp hmap
    obtain rfl := hf _ _ _ hD hfa
    exact h.missing hs hp hD

end Combinators

/-! ## Words and numbers -/

theorem needed_isPrefix_token {token needed : Text}
    (h : needed = token ∨ needed = [] ∧ token.length = 1) : needed <+: token := by
  rcases h with rfl | ⟨rfl, -⟩
  · exact List.prefix_refl _
  · exact List.nil_prefix

theorem eq_token_of_needed {p token needed : Text}
    (h : needed = token ∨ needed = [] ∧ token.length = 1) (hp : p <+: token)
    (hleft : needed <+: p) (hnil : p ≠ []) : p = token := by
  apply hp.eq_of_length
  have hle := hp.length_le
  rcases h with rfl | ⟨-, hlength⟩
  · exact le_antisymm hle hleft.length_le
  · have hpos := List.length_pos_of_ne_nil hnil
    omega

/-- A token that is delimited by white space and needed as a whole, unless it
is a single character that the decoder also leaves as the default.  Behind the
token the decoder may skip the delimiter. -/
theorem ReadsBack.of_token {α : Type} {D : Decoder α} {a : α} {token needed : Text}
    {delimiter : Char} {skip : Text → Text} (hdelimiter : isSpace delimiter = true)
    (hskip : ∀ r, ∃ us, Blank us ∧ skip (delimiter :: r) = us ++ r) (hend : skip [] = [])
    (hneeded : needed = token ∨ needed = [] ∧ token.length = 1)
    (hwhole : ∀ ws r, Blank ws → Delimited r →
      D ⟨ws ++ (token ++ r), false⟩ = .ok (a, ⟨skip r, false⟩))
    (hended : ∀ s, s.sentry = none → needed = [] → ∃ s', D s = .ok (a, s') ∧ s'.sentry = none)
    (hdefault : ∀ s s', s.sentry = none → D s = .ok (a, s') → needed = [])
    (hcut : ∀ ws p s', Blank ws → p <+: token → p ≠ [] → D ⟨ws ++ p, false⟩ = .ok (a, s') →
      p = token) :
    ReadsBack D a (token ++ [delimiter]) needed where
  needed_isPrefix := (needed_isPrefix_token hneeded).trans (List.prefix_append _ _)
  whole ws r hws := by
    obtain ⟨us, hus, hskip⟩ := hskip r
    refine ⟨us, hus, ?_⟩
    rw [List.append_assoc, ← hskip]
    exact hwhole ws _ hws (by simpa using hdelimiter)
  enough := by
    intro s p hs hp hleft
    cases hs with
    | ended hs => exact hended s hs (List.prefix_nil.mp hleft)
    | @text ws _ hws =>
        rcases List.prefix_concat_iff.mp hp with rfl | hp
        · obtain ⟨us, hus, hskip⟩ := hskip []
          refine ⟨_, hwhole ws [delimiter] hws (by simpa using hdelimiter), ?_⟩
          rw [hskip, List.append_nil]
          exact sentry_blank hus
        · by_cases hnil : p = []
          · subst hnil
            exact hended _ (Shows.text [] hws).sentry_eq_none (List.prefix_nil.mp hleft)
          · obtain rfl := eq_token_of_needed hneeded hp hleft hnil
            have hread := hwhole ws [] hws delimited_nil
            rw [List.append_nil, hend] at hread
            exact ⟨_, hread, sentry_blank (by simp [Blank])⟩
  missing := by
    intro s p s' hs hp hD
    have hfront := needed_isPrefix_token hneeded
    cases hs with
    | ended hs => rw [hdefault s s' hs hD]
    | @text ws _ hws =>
        rcases List.prefix_concat_iff.mp hp with rfl | hp
        · exact hfront.trans (List.prefix_append _ _)
        · by_cases hnil : p = []
          · subst hnil
            rw [hdefault _ _ (Shows.text [] hws).sentry_eq_none hD]
          · rwa [hcut ws p s' hws hp hnil hD]

theorem skip_none {delimiter : Char} (hdelimiter : isSpace delimiter = true) (r : Text) :
    ∃ us, Blank us ∧ id (delimiter :: r) = us ++ r :=
  ⟨[delimiter], by simpa [Blank] using hdelimiter, rfl⟩

theorem skip_one (delimiter : Char) (r : Text) :
    ∃ us, Blank us ∧ (delimiter :: r).tail = us ++ r :=
  ⟨[], by simp [Blank], rfl⟩

/-- An extraction that cannot throw. -/
def extract {α : Type} (read : IStream → α × IStream) : Decoder α := fun s ↦ .ok (read s)

theorem sentry_of_failed {s : IStream} (h : s.failed = true) : s.sentry = none := by
  simp [IStream.sentry, h]

theorem sentry_word_isPrefix {ws token p : Text} (hws : Blank ws) (htoken : Spaceless token)
    (hp : p <+: token) (hnil : p ≠ []) : IStream.sentry ⟨ws ++ p, false⟩ = some p := by
  have hword : IsWord p := ⟨hnil, fun c hc ↦ htoken c (hp.subset hc)⟩
  have hsentry := IStream.sentry_of_word (r := []) hws hword
  rwa [List.append_nil] at hsentry

theorem readsBack_word {delimiter : Char} (hdelimiter : isSpace delimiter = true) {w : Text}
    (hw : IsWord w) : ReadsBack (extract (IStream.word [])) w (w ++ [delimiter]) w := by
  apply ReadsBack.of_token hdelimiter (skip_none hdelimiter) rfl (Or.inl rfl)
  · intro ws r hws hr
    rw [extract, IStream.word_of_word ws [] hws hw hr]
    rfl
  · exact fun _ _ hnil ↦ absurd hnil hw.1
  · intro s s' hs hD
    simp only [extract, IStream.word, hs, Except.ok.injEq, Prod.mk.injEq] at hD
    exact hD.1.symm
  · intro ws p s' hws hp hnil hD
    have hspaceless : Spaceless p := fun c hc ↦ hw.2 c (hp.subset hc)
    have htake := takeWord_append hspaceless delimited_nil
    rw [List.append_nil] at htake
    simp only [extract, IStream.word, sentry_word_isPrefix hws hw.2 hp hnil, Except.ok.injEq,
      Prod.mk.injEq, htake] at hD
    exact hD.1

theorem scanDigits_isPrefix {n : ℕ} {ds : Text} (negative : Bool) (h : ds <+: decimal n) :
    scanDigits negative ds = ⟨negative, ds, []⟩ := by
  have hscan := scanDigits_append (b := negative)
    (fun c hc ↦ isDigit_of_mem_decimal (h.subset hc)) delimited_nil.isDigit_head
  rwa [List.append_nil] at hscan

theorem scanNumber_digits {n : ℕ} {ds : Text} (h : ds <+: decimal n) (hnil : ds ≠ []) :
    scanNumber ds = ⟨false, ds, []⟩ := by
  obtain ⟨c, tail, rfl⟩ := List.exists_cons_of_ne_nil hnil
  have hc : c.isDigit = true := isDigit_of_mem_decimal (h.subset List.mem_cons_self)
  have hminus : c ≠ '-' := by rintro rfl; simp at hc
  have hplus : c ≠ '+' := by rintro rfl; simp at hc
  rw [← scanDigits_isPrefix false h]
  simp [scanNumber, hminus, hplus]

/-- An extraction of a number, and what is done to the stream behind it. -/
def extractThen (after : IStream → IStream) : Decoder UInt64 := fun s ↦
  .ok ((s.uint64 0).1, after (s.uint64 0).2)

theorem readsBack_extractThen {after : IStream → IStream} {skip : Text → Text} {delimiter : Char}
    (hdelimiter : isSpace delimiter = true)
    (hskip : ∀ r, ∃ us, Blank us ∧ skip (delimiter :: r) = us ++ r) (hend : skip [] = [])
    (hafter : ∀ r, after ⟨r, false⟩ = ⟨skip r, false⟩)
    (hfailed : ∀ s : IStream, s.failed = true → (after s).sentry = none) (n : UInt64) :
    ReadsBack (extractThen after) n (decimal n.toNat ++ [delimiter])
      (if n = 0 then [] else decimal n.toNat) := by
  apply ReadsBack.of_token hdelimiter hskip hend
  · split
    · next hzero => exact Or.inr ⟨rfl, by simp [hzero]; decide⟩
    · exact Or.inl rfl
  · intro ws r hws hr
    rw [extractThen, IStream.uint64_of_decimal ws 0 n hws hr, hafter]
  · intro s hs hnil
    obtain rfl : n = 0 := by
      by_contra hne
      exact decimal_ne_nil _ (by simpa [hne] using hnil)
    exact ⟨after s.fail, by simp [extractThen, IStream.uint64, hs], hfailed _ rfl⟩
  · intro s s' hs hD
    simp only [extractThen, IStream.uint64, hs, Except.ok.injEq, Prod.mk.injEq] at hD
    simp [← hD.1]
  · intro ws p s' hws hp hnil hD
    have hle := ofDigits_le_of_isPrefix hp
    have hsmall : ofDigits p < 2 ^ 64 := hle.trans_lt n.toNat_lt
    simp only [extractThen, IStream.uint64, sentry_word_isPrefix hws (spaceless_decimal _) hp hnil,
      scanNumber_digits hp hnil, hnil, hsmall, if_false, if_true, Except.ok.injEq,
      Prod.mk.injEq, Bool.false_eq_true] at hD
    apply eq_decimal_of_isPrefix hp hnil
    rw [← hD.1, UInt64.toNat_ofNat_of_lt' hsmall]

theorem readsBack_uint64 {delimiter : Char} (hdelimiter : isSpace delimiter = true) (n : UInt64) :
    ReadsBack (extractThen id) n (decimal n.toNat ++ [delimiter])
      (if n = 0 then [] else decimal n.toNat) :=
  readsBack_extractThen hdelimiter (skip_none hdelimiter) rfl (fun _ ↦ rfl)
    (fun _ ↦ sentry_of_failed) n

theorem readsBack_uint64_ignore {delimiter : Char} (hdelimiter : isSpace delimiter = true)
    (n : UInt64) :
    ReadsBack (extractThen IStream.ignore) n (decimal n.toNat ++ [delimiter])
      (if n = 0 then [] else decimal n.toNat) :=
  readsBack_extractThen hdelimiter (skip_one delimiter) rfl (fun _ ↦ rfl)
    (fun s hs ↦ by simp [IStream.ignore, hs, sentry_of_failed]) n

/-- A prefix of the decimal of an integer has its sign and its first digits. -/
theorem scanNumber_decimalInt_isPrefix {z : ℤ} {p : Text} (hp : p <+: decimalInt z)
    (hnil : p ≠ []) :
    ∃ ds, ds <+: decimal z.natAbs ∧ scanNumber p = ⟨decide (z < 0), ds, []⟩ ∧
      (ds = [] → z < 0) ∧ (ds = decimal z.natAbs → p = decimalInt z) := by
  by_cases hz : z < 0
  · simp only [decimalInt, hz, if_true] at hp
    rcases List.prefix_cons_iff.mp hp with rfl | ⟨ds, rfl, hds⟩
    · exact absurd rfl hnil
    · refine ⟨ds, hds, ?_, fun _ ↦ hz, fun hall ↦ by simp [decimalInt, hz, hall]⟩
      simpa [scanNumber, hz] using scanDigits_isPrefix true hds
  · simp only [decimalInt, hz, if_false] at hp
    refine ⟨p, hp, ?_, fun h ↦ absurd h hnil, fun hall ↦ by simp [decimalInt, hz, hall]⟩
    simpa [hz] using scanNumber_digits hp hnil

theorem toInt_ofInt_isPrefix {z : Int32} {n : Scanned} {ds : Text}
    (hds : ds <+: decimal z.toInt.natAbs)
    (hn : n = ⟨decide (z.toInt < 0), ds, []⟩) (hnil : ds ≠ []) :
    -2 ^ 31 ≤ n.value ∧ n.value < 2 ^ 31 ∧
      (n.value = z.toInt → ds = decimal z.toInt.natAbs) := by
  have hle := ofDigits_le_of_isPrefix hds
  have hlow := z.le_toInt
  have hhigh := z.toInt_lt
  have hvalue : n.value = if z.toInt < 0 then -(ofDigits ds : ℤ) else ofDigits ds := by
    simp [Scanned.value, hn]
  by_cases hz : z.toInt < 0
  · rw [if_pos hz] at hvalue
    exact ⟨by omega, by omega, fun heq ↦ eq_decimal_of_isPrefix hds hnil (by omega)⟩
  · rw [if_neg hz] at hvalue
    exact ⟨by omega, by omega, fun heq ↦ eq_decimal_of_isPrefix hds hnil (by omega)⟩

theorem decimalInt_toInt_ne_nil (z : Int32) : decimalInt z.toInt ≠ [] :=
  (isWord_decimalInt _).1

theorem readsBack_int32 {delimiter : Char} (hdelimiter : isSpace delimiter = true) (z : Int32) :
    ReadsBack (extract (IStream.int32 0)) z (decimalInt z.toInt ++ [delimiter])
      (if z = 0 then [] else decimalInt z.toInt) := by
  apply ReadsBack.of_token hdelimiter (skip_none hdelimiter) rfl
  · split
    · next hzero => exact Or.inr ⟨rfl, by simp [hzero]; decide⟩
    · exact Or.inl rfl
  · intro ws r hws hr
    rw [extract, IStream.int32_of_decimalInt ws 0 z hws hr]
    rfl
  · intro s hs hnil
    obtain rfl : z = 0 := by
      by_contra hne
      exact decimalInt_toInt_ne_nil z (by simpa [hne] using hnil)
    exact ⟨s.fail, by simp [extract, IStream.int32, hs], sentry_of_failed rfl⟩
  · intro s s' hs hD
    simp only [extract, IStream.int32, hs, Except.ok.injEq, Prod.mk.injEq] at hD
    simp [← hD.1]
  · intro ws p s' hws hp hnil hD
    obtain ⟨ds, hds, hscan, hsign, hwhole⟩ := scanNumber_decimalInt_isPrefix hp hnil
    simp only [extract, IStream.int32, sentry_word_isPrefix hws (isWord_decimalInt _).2 hp hnil]
      at hD
    by_cases hdigits : ds = []
    · -- a sign alone is read as zero
      have hz : z.toInt < 0 := hsign hdigits
      rw [if_pos (by rw [hscan]; exact hdigits), Except.ok.injEq, Prod.mk.injEq] at hD
      rw [← hD.1] at hz
      exact absurd hz (by decide)
    · obtain ⟨hlow, hhigh, hall⟩ := toInt_ofInt_isPrefix hds hscan hdigits
      rw [if_neg (by rw [hscan]; exact hdigits), if_neg (not_lt.mpr hlow),
        if_neg (not_le.mpr hhigh), Except.ok.injEq, Prod.mk.injEq] at hD
      apply hwhole
      apply hall
      rw [← hD.1, Int32.toInt_ofInt_of_le hlow hhigh]

theorem eq_of_stoi_isPrefix {z : Int32} {p : Text} (hp : p <+: decimalInt z.toInt) (hnil : p ≠ [])
    (h : stoi p = .ok z) : p = decimalInt z.toInt := by
  obtain ⟨ds, hds, hscan, -, hwhole⟩ := scanNumber_decimalInt_isPrefix hp hnil
  have hdrop : p.dropWhile isSpace = p := by
    obtain ⟨c, t, rfl⟩ := List.exists_cons_of_ne_nil hnil
    have hc : isSpace c = false := (isWord_decimalInt z.toInt).2 c (hp.subset List.mem_cons_self)
    simp [hc]
  simp only [stoi, hdrop] at h
  split at h
  · cases h
  · next hdigits =>
      obtain ⟨hlow, hhigh, hall⟩ := toInt_ofInt_isPrefix hds hscan (by simpa [hscan] using hdigits)
      rw [if_neg (not_or.mpr ⟨not_lt.mpr hlow, not_le.mpr hhigh⟩), Except.ok.injEq] at h
      apply hwhole
      apply hall
      rw [← h, Int32.toInt_ofInt_of_le hlow hhigh]

/-! ## Several parts -/

/-- A part of a text, and what is needed of it. -/
structure Segment where
  text : Text
  needed : Text

def texts (segments : List Segment) : Text :=
  segments.flatMap Segment.text

/-- The text up to the last segment that is needed. -/
def required : List Segment → Text
  | [] => []
  | segment :: segments => neededBoth segment.text segment.needed (required segments)

theorem required_append (xs ys : List Segment) :
    required (xs ++ ys) = neededBoth (texts xs) (required xs) (required ys) := by
  induction xs with
  | nil =>
      unfold neededBoth
      split
      · next hnil => exact hnil
      · rfl
  | cons x xs ih =>
      rw [List.cons_append, required, required, ih]
      unfold neededBoth
      by_cases hys : required ys = []
      · simp [hys]
      · simp [hys, texts]

section Segments

variable {α β : Type} {D : Decoder α} {E : α → Decoder β} {a : α} {b : β}

def ReadsSegments (D : Decoder α) (a : α) (segments : List Segment) : Prop :=
  ReadsBack D a (texts segments) (required segments)

theorem ReadsBack.segment {text needed : Text} (h : ReadsBack D a text needed) :
    ReadsSegments D a [⟨text, needed⟩] := by
  simpa [ReadsSegments, texts, required, neededBoth] using h

theorem ReadsSegments.merge {xs : List Segment} (h : ReadsSegments D a xs) :
    ReadsSegments D a [⟨texts xs, required xs⟩] :=
  ReadsBack.segment h

theorem ReadsSegments.seq {xs ys : List Segment} (h : ReadsSegments D a xs)
    (h' : ReadsSegments (E a) b ys) :
    ReadsSegments (Truncation.seq D E) (a, b) (xs ++ ys) := by
  have hboth := ReadsBack.seq h h'
  rw [← required_append] at hboth
  simpa [ReadsSegments, texts] using hboth

theorem ReadsSegments.map {xs : List Segment} (h : ReadsSegments D a xs) {f : α → β}
    (hf : ∀ s a' s', D s = .ok (a', s') → f a' = f a → a' = a) :
    ReadsSegments (Truncation.map f D) (f a) xs :=
  ReadsBack.map h hf

/-- The decoder, as often as a count says. -/
def repeated (D : Decoder α) : ℕ → Decoder (List α)
  | 0 => fun s ↦ .ok ([], s)
  | count + 1 => fun s ↦ do
      let (a, s) ← D s
      let (as, s) ← repeated D count s
      return (a :: as, s)

theorem repeated_succ (D : Decoder α) (count : ℕ) :
    repeated D (count + 1) =
      Truncation.map (fun pair ↦ pair.1 :: pair.2) (Truncation.seq D fun _ ↦ repeated D count) := by
  funext s
  simp only [repeated, Truncation.map, Truncation.seq]
  cases D s with
  | error e => rfl
  | ok first =>
      simp only [bind, Except.bind]
      cases repeated D count first.2 <;> rfl

theorem ReadsSegments.nil : ReadsSegments (fun s ↦ .ok (([] : List α), s)) [] [] where
  needed_isPrefix := List.prefix_refl _
  whole ws r hws := ⟨ws, hws, rfl⟩
  enough hs hp _ := by
    obtain rfl := List.prefix_nil.mp hp
    exact ⟨_, rfl, hs.sentry_eq_none⟩
  missing _ _ _ := List.nil_prefix

theorem ReadsSegments.repeated {segment : α → Segment} {as : List α}
    (h : ∀ a ∈ as, ReadsSegments D a [segment a]) :
    ReadsSegments (Truncation.repeated D as.length) as (as.map segment) := by
  induction as with
  | nil => exact ReadsSegments.nil
  | cons a as ih =>
      have htail := ih fun x hx ↦ h x (List.mem_cons_of_mem a hx)
      have hboth := (h a List.mem_cons_self).seq
        (E := fun _ ↦ Truncation.repeated D as.length) htail
      rw [List.length_cons, repeated_succ]
      refine hboth.map fun _ a' _ _ heq ↦ ?_
      simpa [Prod.ext_iff] using heq

end Segments

end BetterCpu.Truncation
