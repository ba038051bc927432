import OverloadDispatch.Text.Printable

/-!
# Quoted literals

A quoted literal shows a text on one line between two equal marks. The apostrophe is the mark
unless the text holds apostrophes and no double quote. The backslash, the mark in use and every
character that is not printable are written as escapes; all other characters stand for themselves.
-/

namespace OverloadDispatch.Text

/-- The apostrophe, the usual mark around a literal. -/
def apostrophe : Char := '\x27'

/-- The double quote, the mark around a literal that holds apostrophes only. -/
def doubleQuote : Char := '\x22'

/-- The backslash, which opens every escape. -/
def backslash : Char := '\x5C'

/-- The last `width` hexadecimal digits of a number, in lower case, most significant first. -/
def hexDigits : Nat → Nat → List Char
  | 0, _ => []
  | width + 1, n => hexDigits width (n / 16) ++ [Nat.digitChar (n % 16)]

/-- Exactly the requested number of digits is written. -/
@[simp] theorem length_hexDigits (width n : Nat) : (hexDigits width n).length = width := by
  induction width generalizing n with
  | zero => rfl
  | succ width ih => simp [hexDigits, ih]

/-- The mark that is put around a text. -/
def quoteMark (s : List Char) : Char :=
  if s.contains apostrophe && !s.contains doubleQuote then doubleQuote else apostrophe

/-- A code point as the shortest of the three numeric escapes that can hold it. -/
def numericEscape (n : Nat) : List Char :=
  if n < 0x100 then backslash :: 'x' :: hexDigits 2 n
  else if n < 0x10000 then backslash :: 'u' :: hexDigits 4 n
  else backslash :: 'U' :: hexDigits 8 n

/-- One character as it stands between the given marks. -/
def escapeChar (mark c : Char) : List Char :=
  if c = backslash ∨ c = mark then [backslash, c]
  else if c = '\n' then [backslash, 'n']
  else if c = '\r' then [backslash, 'r']
  else if c = '\t' then [backslash, 't']
  else if isPrintable c then [c]
  else numericEscape c.toNat

/-- The characters of a quoted literal. -/
def quoteChars (s : List Char) : List Char :=
  quoteMark s :: (s.flatMap (escapeChar (quoteMark s)) ++ [quoteMark s])

/-- A text as a quoted literal. -/
def quoted (s : String) : String := String.ofList (quoteChars s.toList)

/-- The mark is one of the two. -/
theorem quoteMark_eq (s : List Char) : quoteMark s = apostrophe ∨ quoteMark s = doubleQuote := by
  unfold quoteMark
  split
  · exact Or.inr rfl
  · exact Or.inl rfl

/-- The characters of a quoted text are those of its literal. -/
@[simp] theorem toList_quoted (s : String) : (quoted s).toList = quoteChars s.toList := by
  simp [quoted]

/-! ## The characters of a literal -/

/-- Every digit is that of a number below sixteen. -/
theorem mem_hexDigits {width n : Nat} {c : Char} (h : c ∈ hexDigits width n) :
    ∃ digit < 16, c = Nat.digitChar digit := by
  induction width generalizing n with
  | zero => cases h
  | succ width ih =>
    rw [hexDigits, List.mem_append, List.mem_singleton] at h
    rcases h with h | rfl
    · exact ih h
    · exact ⟨n % 16, Nat.mod_lt n (by decide), rfl⟩

/-- The digits are printable, and none of them has a role in a literal. -/
theorem hexDigits_plain {width n : Nat} {c : Char} (h : c ∈ hexDigits width n) :
    isPrintable c = true ∧ c ≠ backslash ∧ c ≠ apostrophe ∧ c ≠ doubleQuote := by
  have hdigit : ∀ digit < 16, isPrintable (Nat.digitChar digit) = true ∧
      Nat.digitChar digit ≠ backslash ∧ Nat.digitChar digit ≠ apostrophe ∧
        Nat.digitChar digit ≠ doubleQuote := by decide
  obtain ⟨digit, hlt, rfl⟩ := mem_hexDigits h
  exact hdigit digit hlt

/-- A numeric escape is a backslash, one of three letters, and digits. -/
theorem numericEscape_eq (n : Nat) :
    ∃ letter ∈ ['x', 'u', 'U'], ∃ width,
      numericEscape n = backslash :: letter :: hexDigits (width + 1) n := by
  unfold numericEscape
  split
  · exact ⟨'x', by simp, 1, rfl⟩
  · split
    · exact ⟨'u', by simp, 3, rfl⟩
    · exact ⟨'U', by simp, 7, rfl⟩

/-- The letters that open an escape stand for themselves elsewhere. -/
theorem letter_plain {c : Char} (h : c ∈ ['n', 'r', 't', 'x', 'u', 'U']) :
    isPrintable c = true ∧ c ≠ backslash := by
  simp only [List.mem_cons, List.not_mem_nil, or_false] at h
  rcases h with rfl | rfl | rfl | rfl | rfl | rfl <;> decide

/-- A character is written as itself, or behind a backslash, or as a letter and digits behind
one. -/
theorem escapeChar_cases (mark c : Char) :
    (escapeChar mark c = [c] ∧ c ≠ backslash ∧ c ≠ mark ∧ isPrintable c = true) ∨
      (escapeChar mark c = [backslash, c] ∧ (c = backslash ∨ c = mark)) ∨
      ∃ letter ∈ ['n', 'r', 't', 'x', 'u', 'U'], ∃ width,
        escapeChar mark c = backslash :: letter :: hexDigits width c.toNat := by
  obtain ⟨letter, hletter, width, hnumeric⟩ := numericEscape_eq c.toNat
  have hletters : letter ∈ ['n', 'r', 't', 'x', 'u', 'U'] := by grind
  unfold escapeChar
  split
  · next hc => exact .inr (.inl ⟨rfl, hc⟩)
  next hspecial =>
  split
  · exact .inr (.inr ⟨'n', by simp, 0, rfl⟩)
  split
  · exact .inr (.inr ⟨'r', by simp, 0, rfl⟩)
  split
  · exact .inr (.inr ⟨'t', by simp, 0, rfl⟩)
  split
  · next hprintable => exact .inl ⟨rfl, (not_or.mp hspecial).1, (not_or.mp hspecial).2, hprintable⟩
  · exact .inr (.inr ⟨letter, hletters, width + 1, hnumeric⟩)

/-- A character that is not printable is never written as itself. -/
theorem isPrintable_of_mem_escapeChar {mark c d : Char} (hmark : isPrintable mark = true)
    (h : d ∈ escapeChar mark c) : isPrintable d = true := by
  have hbackslash : isPrintable backslash = true := by decide
  rcases escapeChar_cases mark c with ⟨hc, -, -, hplain⟩ | ⟨hc, hspecial⟩ |
    ⟨letter, hletter, width, hc⟩ <;> rw [hc] at h
  · rwa [List.mem_singleton.mp h]
  · grind
  · rcases List.mem_cons.mp h with rfl | h
    · exact hbackslash
    rcases List.mem_cons.mp h with rfl | h
    · exact (letter_plain hletter).1
    · exact (hexDigits_plain h).1

/-- Every character of a literal is printable, whatever the text. -/
theorem isPrintable_of_mem_quoteChars {s : List Char} {c : Char} (h : c ∈ quoteChars s) :
    isPrintable c = true := by
  have hmark : isPrintable (quoteMark s) = true := by
    rcases quoteMark_eq s with hs | hs <;> rw [hs] <;> decide
  rw [quoteChars, List.mem_cons, List.mem_append, List.mem_singleton] at h
  rcases h with rfl | h | rfl
  · exact hmark
  · obtain ⟨d, -, hc⟩ := List.mem_flatMap.mp h
    exact isPrintable_of_mem_escapeChar hmark hc
  · exact hmark

/-! ## Marks and escapes -/

/-- The backslashes at the end of a text. -/
def lastBackslashes (s : List Char) : List Char := s.reverse.takeWhile (· == backslash)

/-- Whether a character behind the text would be part of an escape: an odd number of backslashes
stands directly in front of it. -/
def EndsInEscape (front : List Char) : Prop := (lastBackslashes front).length % 2 = 1

instance (front : List Char) : Decidable (EndsInEscape front) :=
  inferInstanceAs (Decidable (_ = _))

theorem lastBackslashes_append_singleton {c : Char} (s : List Char) (h : c ≠ backslash) :
    lastBackslashes (s ++ [c]) = [] := by
  simp [lastBackslashes, h]

/-- Behind complete escapes backslashes count anew. -/
theorem endsInEscape_append {front back : List Char} (h : (lastBackslashes front).length % 2 = 0) :
    EndsInEscape (front ++ back) ↔ EndsInEscape back := by
  unfold EndsInEscape lastBackslashes
  rw [List.reverse_append, List.takeWhile_append]
  split
  · next hall =>
    rw [lastBackslashes] at h
    rw [List.length_append, List.length_reverse, hall, List.length_reverse]
    omega
  · rfl

/-- A character as it is written leaves no escape open. -/
theorem even_lastBackslashes_escapeChar {mark : Char} (hmark : mark ≠ backslash) (c : Char) :
    (lastBackslashes (escapeChar mark c)).length % 2 = 0 := by
  have hnone (s : List Char) {d : Char} (hd : d ≠ backslash) :
      (lastBackslashes (s ++ [d])).length % 2 = 0 := by
    rw [lastBackslashes_append_singleton s hd]
    rfl
  rcases escapeChar_cases mark c with ⟨hc, hplain, -, -⟩ | ⟨hc, rfl | rfl⟩ |
    ⟨letter, hletter, width, hc⟩ <;> rw [hc]
  · exact hnone [] hplain
  · decide
  · exact hnone [backslash] hmark
  · cases width with
    | zero => exact hnone [backslash] (letter_plain hletter).2
    | succ width =>
      have hlast : Nat.digitChar (c.toNat % 16) ∈ hexDigits (width + 1) c.toNat := by
        simp [hexDigits]
      exact hnone (backslash :: letter :: hexDigits width (c.toNat / 16))
        (hexDigits_plain hlast).2.1

section Marks

variable {mark : Char} (hmark : mark = apostrophe ∨ mark = doubleQuote)
include hmark

theorem mark_ne_backslash : mark ≠ backslash := by
  rcases hmark with rfl | rfl <;> decide

/-- Where a character as it is written holds the mark, a backslash stands in front. -/
theorem endsInEscape_of_escapeChar_eq {c : Char} {front back : List Char}
    (h : escapeChar mark c = front ++ mark :: back) : EndsInEscape front := by
  have hbackslash := mark_ne_backslash hmark
  have hdigits {width n : Nat} : mark ∉ hexDigits width n := by
    intro hmem
    obtain ⟨-, -, happ, hdouble⟩ := hexDigits_plain hmem
    exact hmark.elim happ hdouble
  have hopen : EndsInEscape [backslash] := by decide
  rcases escapeChar_cases mark c with ⟨hc, -, hplain, -⟩ | ⟨hc, -⟩ | ⟨letter, -, width, hc⟩ <;>
    rw [hc] at h
  -- The mark is neither the first character of an escape nor a digit at its end.
  · rcases front with _ | ⟨d, front⟩
    · exact absurd (List.cons.inj h).1 hplain
    · simp at h
  · rcases front with _ | ⟨d, _ | ⟨e, front⟩⟩
    · exact absurd (List.cons.inj h).1.symm hbackslash
    · rwa [← (List.cons.inj h).1]
    · simp at h
  · rcases front with _ | ⟨d, _ | ⟨e, front⟩⟩
    · exact absurd (List.cons.inj h).1.symm hbackslash
    · rwa [← (List.cons.inj h).1]
    · have hmem : mark ∈ hexDigits width c.toNat := by
        rw [(List.cons.inj (List.cons.inj h).2).2]
        simp
      exact absurd hmem hdigits

/-- In the text between the marks, every mark is part of an escape. -/
theorem endsInEscape_of_flatMap_eq {s front back : List Char}
    (h : s.flatMap (escapeChar mark) = front ++ mark :: back) : EndsInEscape front := by
  induction s generalizing front with
  | nil => simp at h
  | cons c s ih =>
    have heven := even_lastBackslashes_escapeChar (mark_ne_backslash hmark) c
    rw [List.flatMap_cons] at h
    rcases List.append_eq_append_iff.mp h with ⟨w, rfl, hs⟩ | ⟨w, hc, hw⟩
    · exact (endsInEscape_append heven).mpr (ih hs)
    · cases w with
      | nil =>
        rw [List.append_nil] at hc
        rw [← hc, ← List.append_nil (escapeChar mark c), endsInEscape_append heven]
        exact ih hw.symm
      | cons d w =>
        obtain ⟨rfl, -⟩ := List.cons.inj hw
        exact endsInEscape_of_escapeChar_eq hmark hc

end Marks

end OverloadDispatch.Text
