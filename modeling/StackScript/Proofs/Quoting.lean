import Mathlib.Data.List.Basic
import StackScript.Text.Quoted

/-!
# Quoted texts can be read off

No quoted text is the beginning of another one, so whatever stands behind it, a quoted text ends
where it ends and is the quoted form of one text only (`Text.quote_append_inj`).  And whatever the
text, its quoted form stays on one line (`Text.newline_not_mem_quote`).

Both facts are facts about one character.  A character stands for itself only if it is neither the
quote nor the backslash, so what stands for it tells by its first character whether it is an escape,
and by the second which of the two kinds; the braces bound the digits of a code point.
-/

namespace StackScript.Text

/-- Where a test stops holding, a text falls into two parts in one way only. -/
theorem append_inj_of_test {p : Char → Bool} {xs ys xs' ys' : List Char}
    (h : xs ++ xs' = ys ++ ys') (hxs : ∀ c ∈ xs, p c = true) (hys : ∀ c ∈ ys, p c = true)
    (hxs' : ∀ c ∈ xs'.head?, p c = false) (hys' : ∀ c ∈ ys'.head?, p c = false) :
    xs = ys ∧ xs' = ys' := by
  have hsplit : ∀ {zs zs' : List Char}, (∀ c ∈ zs, p c = true) → (∀ c ∈ zs'.head?, p c = false) →
      (zs ++ zs').takeWhile p = zs := by
    intro zs zs' hzs hzs'
    rw [List.takeWhile_append_of_pos hzs]
    cases zs' with
    | nil => rw [List.takeWhile_nil, List.append_nil]
    | cons c zs' => rw [List.takeWhile_cons_of_neg (by simp [hzs' c rfl]), List.append_nil]
  have hfront : xs = ys := by rw [← hsplit hxs hxs', h, hsplit hys hys']
  exact ⟨hfront, List.append_cancel_left (hfront ▸ h)⟩

/-! ## Hexadecimal digits -/

theorem exists_digitChar_of_mem_toDigits {n : Nat} {c : Char} (h : c ∈ Nat.toDigits 16 n) :
    ∃ k, c = Nat.digitChar k := by
  induction n using Nat.strongRecOn with
  | _ n ih =>
    rw [Nat.toDigits_eq_if (by decide)] at h
    split at h
    · exact ⟨n, List.mem_singleton.mp h⟩
    · rcases List.mem_append.mp h with h | h
      · exact ih (n / 16) (by omega) h
      · exact ⟨n % 16, List.mem_singleton.mp h⟩

theorem ne_of_mem_toDigits {n : Nat} {c : Char} (h : c ∈ Nat.toDigits 16 n) :
    c ≠ '\x7d' ∧ c ≠ '\n' := by
  obtain ⟨k, rfl⟩ := exists_digitChar_of_mem_toDigits h
  exact ⟨Nat.digitChar_ne _ (by decide), Nat.digitChar_ne _ (by decide)⟩

theorem digitChar_injOn : ∀ k < 16, ∀ l < 16, Nat.digitChar k = Nat.digitChar l → k = l := by
  decide

/-- Different numbers have different hexadecimal digits. -/
theorem toDigits_inj {n m : Nat} (h : Nat.toDigits 16 n = Nat.toDigits 16 m) : n = m := by
  induction n using Nat.strongRecOn generalizing m with
  | _ n ih =>
    rw [Nat.toDigits_eq_if (by decide) (n := n), Nat.toDigits_eq_if (by decide) (n := m)] at h
    split at h <;> split at h
    · exact digitChar_injOn n ‹_› m ‹_› (List.singleton_inj.mp h)
    · simpa using congrArg List.length h
    · simpa using congrArg List.length h
    · obtain ⟨hfront, hlast⟩ := List.append_inj' h rfl
      have hrest : n / 16 = m / 16 := ih (n / 16) (by omega) hfront
      have hdigit : n % 16 = m % 16 :=
        digitChar_injOn _ (by omega) _ (by omega) (List.singleton_inj.mp hlast)
      omega

/-! ## One character -/

theorem escapeLetter?_inj {c d letter : Char} (hc : escapeLetter? c = some letter)
    (hd : escapeLetter? d = some letter) : c = d := by
  unfold escapeLetter? at hc hd
  split at hc <;> cases hc <;> split at hd <;> simp_all

theorem ne_of_escapeLetter? {c letter : Char} (h : escapeLetter? c = some letter) :
    letter ≠ 'u' ∧ letter ≠ '\n' := by
  unfold escapeLetter? at h
  split at h <;> cases h <;> decide

/-- What may stand for a character inside quotes. -/
inductive QuotedAs (c : Char) : List Char → Prop
  | letter {letter : Char} (h : escapeLetter? c = some letter) : QuotedAs c ['\\', letter]
  | codePoint : QuotedAs c ('\\' :: 'u' :: '\x7b' :: (Nat.toDigits 16 c.toNat ++ ['\x7d']))
  | self (h : escapeLetter? c = none) : QuotedAs c [c]

theorem quotedAs_quoteChar (c : Char) : QuotedAs c (quoteChar c) := by
  unfold quoteChar
  split
  · next h => exact .letter h
  · next h =>
    split
    · exact .codePoint
    · exact .self h

namespace QuotedAs

variable {c d : Char} {cs ds xs ys : List Char}

theorem newline_not_mem (h : QuotedAs c cs) : '\n' ∉ cs := by
  cases h with
  | letter h => simp [(ne_of_escapeLetter? h).2.symm]
  | codePoint => simpa using fun h => (ne_of_mem_toDigits h).2 rfl
  | self h =>
    rw [List.mem_singleton]
    rintro rfl
    cases h

/-- Nothing that stands for a character looks like the closing quote. -/
theorem append_ne (h : QuotedAs c cs) : cs ++ xs ≠ '"' :: ys := by
  cases h with
  | letter => simp
  | codePoint => simp
  | self h =>
    rintro heq
    obtain ⟨rfl, -⟩ := List.cons.inj heq
    cases h

/-- Nothing that stands for a character is the beginning of what stands for another one. -/
theorem append_inj (hc : QuotedAs c cs) (hd : QuotedAs d ds) (h : cs ++ xs = ds ++ ys) :
    c = d ∧ xs = ys := by
  cases hc with
  | letter hc =>
    cases hd with
    | letter hd =>
      simp only [List.cons_append, List.nil_append, List.cons.injEq, true_and] at h
      obtain ⟨rfl, rfl⟩ := h
      exact ⟨escapeLetter?_inj hc hd, rfl⟩
    | codePoint =>
      simp only [List.cons_append, List.cons.injEq, true_and] at h
      exact absurd h.1 (ne_of_escapeLetter? hc).1
    | self hd =>
      obtain ⟨rfl, -⟩ := List.cons.inj h
      cases hd
  | codePoint =>
    cases hd with
    | letter hd =>
      simp only [List.cons_append, List.cons.injEq, true_and] at h
      exact absurd h.1.symm (ne_of_escapeLetter? hd).1
    | codePoint =>
      simp only [List.cons_append, List.append_assoc, List.cons.injEq, true_and] at h
      have hdigits : ∀ n, ∀ e ∈ Nat.toDigits 16 n, (e != '\x7d') = true :=
        fun n e he => bne_iff_ne.mpr (ne_of_mem_toDigits he).1
      obtain ⟨hpoint, hrest⟩ := append_inj_of_test h (hdigits _) (hdigits _) (by simp) (by simp)
      exact ⟨Char.toNat_inj.mp (toDigits_inj hpoint), (List.cons.inj hrest).2⟩
    | self hd =>
      obtain ⟨rfl, -⟩ := List.cons.inj h
      cases hd
  | self hc =>
    cases hd with
    | letter | codePoint =>
      obtain ⟨rfl, -⟩ := List.cons.inj h
      cases hc
    | self => exact List.cons.inj h

end QuotedAs

/-! ## Texts -/

/-- Up to the closing quote there is one text that may be meant. -/
theorem quoteChars_inj : ∀ {cs ds xs ys : List Char},
    cs.flatMap quoteChar ++ '"' :: xs = ds.flatMap quoteChar ++ '"' :: ys → cs = ds ∧ xs = ys
  | [], [], _, _, h => ⟨rfl, (List.cons.inj h).2⟩
  | [], d :: ds, _, _, h => by
      rw [List.flatMap_cons, List.append_assoc] at h
      exact absurd h.symm (quotedAs_quoteChar d).append_ne
  | c :: cs, [], _, _, h => by
      rw [List.flatMap_cons, List.append_assoc] at h
      exact absurd h (quotedAs_quoteChar c).append_ne
  | c :: cs, d :: ds, xs, ys, h => by
      rw [List.flatMap_cons, List.flatMap_cons, List.append_assoc, List.append_assoc] at h
      obtain ⟨rfl, hrest⟩ := (quotedAs_quoteChar c).append_inj (quotedAs_quoteChar d) h
      obtain ⟨rfl, rfl⟩ := quoteChars_inj hrest
      exact ⟨rfl, rfl⟩

theorem toList_quote (s : String) :
    (quote s).toList = '"' :: (s.toList.flatMap quoteChar ++ ['"']) := by
  rw [quote, String.toList_ofList, List.cons_append]

/-- **A quoted text can be read off**, whatever stands behind it. -/
theorem quote_append_inj {s t : String} {xs ys : List Char}
    (h : (quote s).toList ++ xs = (quote t).toList ++ ys) : s = t ∧ xs = ys := by
  rw [toList_quote, toList_quote, List.cons_append, List.cons_append, List.append_assoc,
    List.append_assoc] at h
  obtain ⟨hst, hrest⟩ := quoteChars_inj (List.cons.inj h).2
  exact ⟨String.toList_inj.mp hst, hrest⟩

/-- A quoted text has one line. -/
theorem newline_not_mem_quote (s : String) : '\n' ∉ (quote s).toList := by
  have hchars : '\n' ∉ s.toList.flatMap quoteChar := by
    rw [List.mem_flatMap]
    rintro ⟨c, -, hc⟩
    exact (quotedAs_quoteChar c).newline_not_mem hc
  simp [toList_quote, hchars]

end StackScript.Text
