import Mathlib.Algebra.Group.Nat.Defs
import OverloadDispatch.Text.Pieces
import OverloadDispatch.Text.Quoted

/-!
# Reading quoted literals

A literal is read back by the rules of its escapes: a backslash in front of itself or of a mark
stands for that character, three letters stand for control characters, and three more announce a
code point of two, four or eight hexadecimal digits. The literal has to end at its first mark that
is not part of an escape, and on the line on which it begins.
-/

namespace OverloadDispatch.Text

/-- The value of a hexadecimal digit in lower case. -/
def hexValue? (c : Char) : Option Nat := (List.range 16).find? fun n => Nat.digitChar n == c

/-- The number that hexadecimal digits spell behind what has been read of it. -/
def readHex? (value : Nat) : List Char → Option Nat
  | [] => some value
  | c :: rest => (hexValue? c).bind fun digit => readHex? (16 * value + digit) rest

/-- The character of a code point, if it has one. -/
def charOfCode? (n : Nat) : Option Char := if n.isValidChar then some (Char.ofNat n) else none

/-- The character whose code point stands in front with so many digits, and the rest. -/
def readCode? (width : Nat) (s : List Char) : Option (Char × List Char) :=
  if width ≤ s.length then
    ((readHex? 0 (s.take width)).bind charOfCode?).map fun c => (c, s.drop width)
  else none

/-- The character that an escape stands for, read behind its backslash, and the rest. -/
def readEscape? : List Char → Option (Char × List Char)
  | [] => none
  | 'n' :: rest => some ('\n', rest)
  | 'r' :: rest => some ('\r', rest)
  | 't' :: rest => some ('\t', rest)
  | 'x' :: rest => readCode? 2 rest
  | 'u' :: rest => readCode? 4 rest
  | 'U' :: rest => readCode? 8 rest
  | c :: rest =>
    if c = backslash ∨ c = apostrophe ∨ c = doubleQuote then some (c, rest) else none

/-- What is left behind a code point is no longer than what was there. -/
theorem length_le_of_readCode? {width : Nat} {s rest : List Char} {c : Char}
    (h : readCode? width s = some (c, rest)) : rest.length ≤ s.length := by
  unfold readCode? at h
  split at h
  · obtain ⟨d, _, hd⟩ := Option.map_eq_some_iff.mp h
    cases hd
    simp
  · exact absurd h (by simp)

/-- An escape takes at least one character behind its backslash. -/
theorem length_lt_of_readEscape? {s rest : List Char} {c : Char}
    (h : readEscape? s = some (c, rest)) : rest.length < s.length := by
  unfold readEscape? at h
  split at h
  · exact absurd h (by simp)
  · cases h; simp
  · cases h; simp
  · cases h; simp
  · exact Nat.lt_succ_of_le (length_le_of_readCode? h)
  · exact Nat.lt_succ_of_le (length_le_of_readCode? h)
  · exact Nat.lt_succ_of_le (length_le_of_readCode? h)
  · split at h
    · cases h; simp
    · exact absurd h (by simp)

/-- The text up to the closing mark, which has to be the last character. -/
def readBody? (mark : Char) (s : List Char) : Option (List Char) :=
  match s with
  | [] => none
  | c :: rest =>
    if c = mark then if rest = [] then some [] else none
    else if c = '\n' then none
    else if c = backslash then
      match _h : readEscape? rest with
      | some (d, behind) => (readBody? mark behind).map (List.cons d)
      | none => none
    else (readBody? mark rest).map (List.cons c)
termination_by s.length
decreasing_by
  · exact Nat.lt_succ_of_lt (length_lt_of_readEscape? _h)
  · simp

/-- The text that a quoted literal stands for. -/
def unquote? : List Char → Option (List Char)
  | [] => none
  | mark :: rest => if mark = apostrophe ∨ mark = doubleQuote then readBody? mark rest else none

/-! ## Reading what was quoted -/

/-- Every digit is read as its value. -/
theorem hexValue?_digitChar {digit : Nat} (h : digit < 16) :
    hexValue? (Nat.digitChar digit) = some digit := by
  have hall : ∀ digit < 16, hexValue? (Nat.digitChar digit) = some digit := by decide
  exact hall digit h

/-- Digits are read one after the other. -/
theorem readHex?_append (value : Nat) (front back : List Char) :
    readHex? value (front ++ back) =
      (readHex? value front).bind fun read => readHex? read back := by
  induction front generalizing value with
  | nil => rfl
  | cons c front ih =>
    rw [List.cons_append, readHex?, readHex?]
    cases hexValue? c with
    | none => rfl
    | some digit => exact ih _

/-- Digits are read as the number that was written with them, as far as they hold it. -/
theorem readHex?_hexDigits (width value n : Nat) :
    readHex? value (hexDigits width n) = some (value * 16 ^ width + n % 16 ^ width) := by
  induction width generalizing n with
  | zero => simp [hexDigits, readHex?, Nat.mod_one]
  | succ width ih =>
    have hlast := hexValue?_digitChar (Nat.mod_lt n (by decide : 16 > 0))
    have hsplit : n % 16 ^ (width + 1) = n % 16 + 16 * (n / 16 % 16 ^ width) := by
      rw [Nat.pow_succ', Nat.mod_mul]
    rw [hexDigits, readHex?_append, ih, Option.bind_some, readHex?, hlast, Option.bind_some,
      readHex?, hsplit, Nat.pow_succ']
    congr 1
    grind

/-- A code point is read back as its character, if the digits hold it. -/
theorem readCode?_hexDigits {width : Nat} {c : Char} (h : c.toNat < 16 ^ width)
    (rest : List Char) : readCode? width (hexDigits width c.toNat ++ rest) = some (c, rest) := by
  have hlength := length_hexDigits width c.toNat
  have hcode : charOfCode? c.toNat = some c := by
    have hvalid : c.toNat.isValidChar := c.valid
    rw [charOfCode?, if_pos hvalid, Char.ofNat_toNat]
  have hread : readHex? 0 (hexDigits width c.toNat) = some c.toNat := by
    rw [readHex?_hexDigits, Nat.zero_mul, Nat.zero_add, Nat.mod_eq_of_lt h]
  rw [readCode?, if_pos (by simp), List.take_left' hlength, List.drop_left' hlength, hread,
    Option.bind_some, hcode, Option.map_some]

/-- A numeric escape stands for its character. -/
theorem readEscape?_numericEscape (c : Char) (rest : List Char) :
    ∃ escape, numericEscape c.toNat = backslash :: escape ∧
      readEscape? (escape ++ rest) = some (c, rest) := by
  have hcode : c.toNat < 16 ^ 8 := by
    have hvalid := c.valid
    simp only [UInt32.isValidChar, Nat.isValidChar] at hvalid
    simp only [Char.toNat]
    omega
  unfold numericEscape
  split
  · next htwo =>
    have hread : c.toNat < 16 ^ 2 := htwo
    exact ⟨_, rfl, readCode?_hexDigits hread rest⟩
  · split
    · next hfour =>
      have hread : c.toNat < 16 ^ 4 := hfour
      exact ⟨_, rfl, readCode?_hexDigits hread rest⟩
    · exact ⟨_, rfl, readCode?_hexDigits hcode rest⟩

section Body

variable {mark : Char}

/-- Behind a backslash an escape is read. -/
theorem readBody?_backslash (hmark : mark = apostrophe ∨ mark = doubleQuote) {c : Char}
    {s rest : List Char} (h : readEscape? s = some (c, rest)) :
    readBody? mark (backslash :: s) = (readBody? mark rest).map (List.cons c) := by
  have hne : backslash ≠ mark := by rcases hmark with rfl | rfl <;> decide
  rw [readBody?, if_neg hne, if_neg (by decide), if_pos rfl]
  split
  · next d behind hread =>
    obtain ⟨rfl, rfl⟩ := Prod.mk.inj (Option.some.inj (hread.symm.trans h))
    rfl
  · next hread => rw [h] at hread; cases hread

/-- A character is read back from the way in which it is written. -/
theorem readBody?_escapeChar (hmark : mark = apostrophe ∨ mark = doubleQuote) (c : Char)
    (rest : List Char) :
    readBody? mark (escapeChar mark c ++ rest) = (readBody? mark rest).map (List.cons c) := by
  unfold escapeChar
  split
  · next hc =>
    refine readBody?_backslash hmark ?_
    rcases hc with rfl | rfl
    · rfl
    · rcases hmark with rfl | rfl <;> rfl
  split
  · next hc => exact readBody?_backslash hmark (by rw [hc]; rfl)
  split
  · next hc => exact readBody?_backslash hmark (by rw [hc]; rfl)
  split
  · next hc => exact readBody?_backslash hmark (by rw [hc]; rfl)
  split
  · next hspecial hnewline _ _ _ =>
    rw [List.singleton_append, readBody?, if_neg (not_or.mp hspecial).2, if_neg hnewline,
      if_neg (not_or.mp hspecial).1]
  · obtain ⟨escape, hescape, hread⟩ := readEscape?_numericEscape c rest
    rw [hescape]
    exact readBody?_backslash hmark hread

/-- A text is read up to its closing mark, and only if nothing stands behind it. -/
theorem readBody?_flatMap (hmark : mark = apostrophe ∨ mark = doubleQuote) (s behind : List Char) :
    readBody? mark (s.flatMap (escapeChar mark) ++ mark :: behind) =
      if behind = [] then some s else none := by
  induction s with
  | nil => rw [List.flatMap_nil, List.nil_append, readBody?, if_pos rfl]
  | cons c s ih =>
    rw [List.flatMap_cons, List.append_assoc, readBody?_escapeChar hmark, ih]
    split <;> rfl

end Body

/-- Quoting is undone by reading. -/
theorem unquote?_quoteChars (s : List Char) : unquote? (quoteChars s) = some s := by
  have hmark := quoteMark_eq s
  rw [quoteChars, unquote?, if_pos hmark, readBody?_flatMap hmark, if_pos rfl]

/-- A literal is not the beginning of another one. -/
theorem eq_of_quoteChars_eq_append {s t w : List Char} (h : quoteChars t = quoteChars s ++ w) :
    s = t ∧ w = [] := by
  rw [quoteChars, quoteChars, List.cons_append, List.cons.injEq] at h
  obtain ⟨hmark, hbody⟩ := h
  rw [hmark, List.append_assoc, List.singleton_append] at hbody
  have hread := readBody?_flatMap (quoteMark_eq s) t []
  rw [if_pos rfl, hbody, readBody?_flatMap (quoteMark_eq s)] at hread
  split at hread
  · next hw => exact ⟨Option.some.inj hread, hw⟩
  · cases hread

/-- Where a literal ends is told by the literal, whatever stands behind it. -/
theorem quoteChars_append_inj {s t u v : List Char} (h : quoteChars s ++ u = quoteChars t ++ v) :
    s = t ∧ u = v := by
  rcases List.append_eq_append_iff.mp h with ⟨w, ht, rfl⟩ | ⟨w, hs, rfl⟩
  · obtain ⟨rfl, rfl⟩ := eq_of_quoteChars_eq_append ht
    exact ⟨rfl, rfl⟩
  · obtain ⟨rfl, rfl⟩ := eq_of_quoteChars_eq_append hs
    exact ⟨rfl, rfl⟩

/-- A text that shows another one between two marks: the marks bound it, nothing in it is read as
the end before its end, nothing in it is invisible, and reading it gives back what it shows. -/
structure Shows (literal s : List Char) : Prop where
  /-- The same mark stands at both ends, and within only as part of an escape. -/
  bounded : ∃ mark ∈ [apostrophe, doubleQuote], ∃ body, literal = mark :: (body ++ [mark]) ∧
    ∀ front back, body = front ++ mark :: back → EndsInEscape front
  /-- Every character is printable. -/
  printable : ∀ c ∈ literal, isPrintable c = true
  /-- So the line on which the literal begins is not broken. -/
  unbroken : '\n' ∉ literal ∧ '\r' ∉ literal
  /-- The literal is read as the text. -/
  read : unquote? literal = some s

/-- A quoted literal shows its text. -/
theorem shows_quoteChars (s : List Char) : Shows (quoteChars s) s where
  bounded := by
    have hmark := quoteMark_eq s
    exact ⟨quoteMark s, by simpa using hmark, _, rfl, fun _ _ => endsInEscape_of_flatMap_eq hmark⟩
  printable _ := isPrintable_of_mem_quoteChars
  unbroken := by
    have hcontrol (c : Char) (h : isPrintable c = false) : c ∉ quoteChars s := by
      intro hmem
      rw [isPrintable_of_mem_quoteChars hmem] at h
      cases h
    exact ⟨hcontrol _ (by decide), hcontrol _ (by decide)⟩
  read := unquote?_quoteChars s

/-- A literal has a first character. -/
theorem quoted_ne_empty (s : String) : quoted s ≠ "" := by
  intro h
  have hchars := congrArg String.toList h
  rw [toList_quoted, quoteChars] at hchars
  cases hchars

/-- Where a quoted text ends is told by its literal, whatever stands behind it. -/
theorem quoted_append_inj {s t u v : String} (h : quoted s ++ u = quoted t ++ v) :
    s = t ∧ u = v := by
  have hchars := congrArg String.toList h
  rw [String.toList_append, String.toList_append, toList_quoted, toList_quoted] at hchars
  obtain ⟨htext, hbehind⟩ := quoteChars_append_inj hchars
  exact ⟨String.toList_inj.mp htext, String.toList_inj.mp hbehind⟩

/-- Literals with a separator in front of each tell the texts, whatever the texts hold. -/
theorem join_quoted_inj {separator : String} {names others : List String}
    (h : String.join (names.map (separator ++ quoted ·)) =
      String.join (others.map (separator ++ quoted ·))) : names = others := by
  have hnonempty (s : String) (rest : List String) :
      String.join ((s :: rest).map (separator ++ quoted ·)) ≠ "" := by
    simp [String.join_cons, quoted_ne_empty]
  induction names generalizing others with
  | nil =>
    cases others with
    | nil => rfl
    | cons t others => exact absurd h.symm (hnonempty t others)
  | cons s names ih =>
    cases others with
    | nil => exact absurd h (hnonempty s names)
    | cons t others =>
      simp only [List.map_cons, String.join_cons, String.append_assoc, String.append_right_inj] at h
      obtain ⟨rfl, hrest⟩ := quoted_append_inj h
      rw [ih hrest]

/-- The same holds of literals with a separator between them. -/
theorem intercalate_quoted_inj {separator : String} {names others : List String}
    (h : String.intercalate separator (names.map quoted) =
      String.intercalate separator (others.map quoted)) : names = others := by
  cases names with
  | nil =>
    cases others with
    | nil => rfl
    | cons t others => simp [intercalate_cons, quoted_ne_empty] at h
  | cons s names =>
    cases others with
    | nil => simp [intercalate_cons, quoted_ne_empty] at h
    | cons t others =>
      rw [List.map_cons, List.map_cons, intercalate_cons, intercalate_cons, List.map_map,
        List.map_map] at h
      obtain ⟨rfl, hrest⟩ := quoted_append_inj h
      rw [join_quoted_inj hrest]

end OverloadDispatch.Text
