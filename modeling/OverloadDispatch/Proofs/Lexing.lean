import OverloadDispatch.Signature.Grammar

/-!
# Lexing

A word goes on as far as its characters do, so a token is the longest one in front of a text
exactly if it is no word or the rest does not go on with a character of a word. The scan finds
these tokens and no others: it reads a text to its end exactly if the text is lexed into tokens,
and these are the tokens it finds.
-/

namespace OverloadDispatch.Signature

open Text

/-- Whether a word ends in front of a text. -/
def EndsWord (rest : List Char) : Prop := ∀ c, rest.head? = some c → isWordPart c = false

theorem endsWord_nil : EndsWord [] := by
  intro c hc
  cases hc

theorem endsWord_cons {c : Char} {rest : List Char} (h : isWordPart c = false) :
    EndsWord (c :: rest) := by
  intro d hd
  obtain rfl := Option.some.inj hd
  exact h

/-- A word ends where the characters of a word are dropped. -/
theorem endsWord_dropWhile (rest : List Char) : EndsWord (rest.dropWhile isWordPart) := by
  intro c hc
  have hnot := List.head?_dropWhile_not isWordPart rest
  rw [hc] at hnot
  exact hnot

/-- No character that may continue a word is layout. -/
theorem isLayout_eq_false_of_isWordPart {c : Char} (h : isWordPart c = true) :
    isLayout c = false := by
  refine Bool.eq_false_iff.mpr fun hlayout => ?_
  simp only [isLayout, Bool.or_eq_true, beq_iff_eq] at hlayout
  rcases hlayout with (((rfl | rfl) | rfl) | rfl) | rfl <;> exact absurd h (by decide)

/-- No character that may open a word is layout. -/
theorem isLayout_eq_false_of_isWordStart {c : Char} (h : isWordStart c = true) :
    isLayout c = false :=
  isLayout_eq_false_of_isWordPart (isWordPart_of_isWordStart h)

/-- The word in front of a text is found where it ends. -/
theorem frontToken?_of_isIdentifier {word rest : List Char} (h : isIdentifier word = true)
    (hends : EndsWord rest) :
    frontToken? (word ++ rest) =
      some (.ofWord ⟨String.ofList word, by rw [String.toList_ofList]; exact h⟩, rest) := by
  obtain ⟨c, cs, rfl, hc, hcs⟩ := isIdentifier_iff.mp h
  have htake : (cs ++ rest).takeWhile isWordPart = cs := by
    rw [List.takeWhile_append_of_pos hcs]
    cases rest with
    | nil => simp
    | cons d ds => rw [List.takeWhile_cons_of_neg (by simp [hends d rfl]), List.append_nil]
  have hdrop : (cs ++ rest).dropWhile isWordPart = rest := by
    rw [List.dropWhile_append_of_pos hcs]
    cases rest with
    | nil => rfl
    | cons d ds => exact List.dropWhile_cons_of_neg (by simp [hends d rfl])
  rw [List.cons_append]
  unfold frontToken?
  split
  · next h' => cases h'
  · next h' => obtain ⟨rfl, -⟩ := List.cons.inj h'; exact absurd hc (by decide)
  · next h' => obtain ⟨rfl, -⟩ := List.cons.inj h'; exact absurd hc (by decide)
  · next h' => obtain ⟨rfl, -⟩ := List.cons.inj h'; exact absurd hc (by decide)
  · next h' => obtain ⟨rfl, -⟩ := List.cons.inj h'; exact absurd hc (by decide)
  · next h' =>
    obtain ⟨rfl, rfl⟩ := List.cons.inj h'
    rw [dif_pos hc]
    simp only [htake, hdrop]

namespace Token

/-- Whether a token is spelled as a word. -/
def isWord (t : Token) : Bool := isIdentifier t.text.toList

/-- A token that is a word is the token of its word. -/
theorem ofWord_of_isWord {t : Token} (hlexeme : t.IsLexeme) (hword : t.isWord = true) :
    ofWord ⟨t.text, hword⟩ = t := by
  cases t with
  | const => rfl
  | unsigned => rfl
  | name word => exact hlexeme word rfl
  | ref => exact absurd hword (by decide)
  | ptr => exact absurd hword (by decide)
  | comma => exact absurd hword (by decide)
  | scope => exact absurd hword (by decide)

theorem isLexeme_ofWord (word : Identifier) : (ofWord word).IsLexeme := by
  intro other h
  have htext : word.text = other.text := by rw [← text_ofWord word, h]; rfl
  obtain ⟨text, hvalid⟩ := word
  obtain ⟨otherText, hother⟩ := other
  subst htext
  rfl

/-- The tokens that are no words. -/
theorem isWord_eq_false_iff {t : Token} :
    t.isWord = false ↔ t = ref ∨ t = ptr ∨ t = comma ∨ t = scope := by
  cases t with
  | name word =>
    have hword : (name word).isWord = true := word.valid
    simp [hword]
  | _ => decide

/-- The first character of a token says whether it is a word. -/
theorem exists_text_eq_cons (t : Token) :
    ∃ c rest, t.text.toList = c :: rest ∧ isWordStart c = t.isWord := by
  cases hword : t.isWord with
  | true =>
    obtain ⟨c, rest, htext, hc, _⟩ := isIdentifier_iff.mp hword
    exact ⟨c, rest, htext, hc⟩
  | false =>
    rcases isWord_eq_false_iff.mp hword with rfl | rfl | rfl | rfl <;> exact ⟨_, _, rfl, rfl⟩

/-- Two tokens in front of one text begin with the same character. -/
theorem head?_text_eq {t u : Token} {rest behind : List Char}
    (h : u.text.toList ++ behind = t.text.toList ++ rest) :
    u.text.toList.head? = t.text.toList.head? := by
  obtain ⟨c, cs, htext, _⟩ := t.exists_text_eq_cons
  obtain ⟨d, ds, hutext, _⟩ := u.exists_text_eq_cons
  rw [htext, hutext] at h ⊢
  exact congrArg some (List.cons.inj h).1

/-- Two tokens in front of one text are both words or both none. -/
theorem isWord_eq_of_append_eq {t u : Token} {rest behind : List Char}
    (h : u.text.toList ++ behind = t.text.toList ++ rest) : u.isWord = t.isWord := by
  obtain ⟨c, cs, htext, hc⟩ := t.exists_text_eq_cons
  obtain ⟨d, ds, hutext, hd⟩ := u.exists_text_eq_cons
  rw [htext, hutext] at h
  rw [← hc, ← hd, (List.cons.inj h).1]

/-- Of the tokens that are no words only one stands in front of a text. -/
theorem eq_of_append_eq {t u : Token} (ht : t.isWord = false) {rest behind : List Char}
    (h : u.text.toList ++ behind = t.text.toList ++ rest) : u = t := by
  have hu : u.isWord = false := (isWord_eq_of_append_eq h).trans ht
  have hhead := head?_text_eq h
  rcases isWord_eq_false_iff.mp ht with rfl | rfl | rfl | rfl <;>
    rcases isWord_eq_false_iff.mp hu with rfl | rfl | rfl | rfl <;> revert hhead <;> decide

/-- No word goes on with the token in front of the rest, if that is no word. -/
theorem endsWord_append {t : Token} (h : t.isWord = false) (rest : List Char) :
    EndsWord (t.text.toList ++ rest) := by
  rcases isWord_eq_false_iff.mp h with rfl | rfl | rfl | rfl <;> exact endsWord_cons rfl

/-- A token is the longest one exactly if it is no word or its word ends in front of the rest. -/
theorem longest_iff {t : Token} {rest : List Char} :
    t.Longest rest ↔ (t.isWord = true → EndsWord rest) := by
  constructor
  · intro hlongest hword c hc
    obtain ⟨behind, rfl⟩ := List.head?_eq_some_iff.mp hc
    refine Bool.eq_false_iff.mpr fun hpart => ?_
    -- With the next character the word would be a longer token.
    have hlonger : isIdentifier (String.ofList (t.text.toList ++ [c])).toList = true := by
      rw [String.toList_ofList]
      exact isIdentifier_append hword (by simpa using hpart)
    have hlength := hlongest (.name ⟨_, hlonger⟩) behind (by simp [text])
    rw [text, String.length_ofList, List.length_append, String.length_toList] at hlength
    exact Nat.not_succ_le_self _ hlength
  · intro hends u behind h
    refine Nat.le_of_not_lt fun hlt => ?_
    cases hword : t.isWord with
    | false =>
      rw [eq_of_append_eq hword h] at hlt
      exact Nat.lt_irrefl _ hlt
    | true =>
      have hu : u.isWord = true := (isWord_eq_of_append_eq h).trans hword
      have hprefix : t.text.toList <+: u.text.toList :=
        List.prefix_of_prefix_length_le ⟨rest, h.symm⟩ ⟨behind, rfl⟩
          (by rw [String.length_toList, String.length_toList]; exact Nat.le_of_lt hlt)
      -- A longer word goes on with the first character of the rest.
      obtain ⟨more, hmore⟩ := hprefix
      rw [← hmore, List.append_assoc, List.append_cancel_left_eq] at h
      cases more with
      | nil =>
        rw [List.append_nil] at hmore
        rw [← String.length_toList, ← String.length_toList, hmore] at hlt
        exact Nat.lt_irrefl _ hlt
      | cons c more =>
        have hpart : isWordPart c = true :=
          isWordPart_of_isIdentifier hu c (hmore ▸ by simp)
        rw [hends hword c (h ▸ rfl)] at hpart
        cases hpart

/-- The first character of a token is no layout. -/
theorem isLayout_eq_false {t : Token} {c : Char} {rest : List Char}
    (h : t.text.toList = c :: rest) : isLayout c = false := by
  cases hword : t.isWord with
  | true =>
    obtain ⟨d, _, htext, hd⟩ := t.exists_text_eq_cons
    obtain ⟨rfl, -⟩ := List.cons.inj (h.symm.trans htext)
    exact isLayout_eq_false_of_isWordStart (hd.trans hword)
  | false =>
    rcases isWord_eq_false_iff.mp hword with rfl | rfl | rfl | rfl <;>
      · obtain ⟨rfl, -⟩ := List.cons.inj h
        rfl

/-- A token that is no word is what its spelling stands for. -/
theorem isLexeme_of_isWord_eq_false {t : Token} (h : t.isWord = false) : t.IsLexeme := by
  rintro word rfl
  have hword : (name word).isWord = true := word.valid
  cases h.symm.trans hword

/-- A token that is no word is the longest one, whatever comes behind it. -/
theorem longest_of_isWord_eq_false {t : Token} (h : t.isWord = false) (rest : List Char) :
    t.Longest rest :=
  longest_iff.mpr fun hword => absurd (h.symm.trans hword) Bool.false_ne_true

/-- The token that is found in front of a text is a lexeme and the longest token there. -/
theorem isLexeme_and_longest {s rest : List Char} {t : Token}
    (h : frontToken? s = some (t, rest)) : t.IsLexeme ∧ t.Longest rest := by
  unfold frontToken? at h
  split at h
  · cases h
  · cases h; exact ⟨isLexeme_of_isWord_eq_false rfl, longest_of_isWord_eq_false rfl _⟩
  · cases h; exact ⟨isLexeme_of_isWord_eq_false rfl, longest_of_isWord_eq_false rfl _⟩
  · cases h; exact ⟨isLexeme_of_isWord_eq_false rfl, longest_of_isWord_eq_false rfl _⟩
  · cases h; exact ⟨isLexeme_of_isWord_eq_false rfl, longest_of_isWord_eq_false rfl _⟩
  · split at h
    · cases h
      exact ⟨isLexeme_ofWord _, longest_iff.mpr fun _ => endsWord_dropWhile _⟩
    · cases h

/-- A lexeme that is the longest token in front of a text is found there. -/
theorem frontToken?_append {t : Token} {rest : List Char} (hlexeme : t.IsLexeme)
    (hlongest : t.Longest rest) : frontToken? (t.text.toList ++ rest) = some (t, rest) := by
  rw [longest_iff] at hlongest
  cases hword : t.isWord with
  | true =>
    rw [frontToken?_of_isIdentifier hword (hlongest hword)]
    simp only [String.ofList_toList]
    rw [ofWord_of_isWord hlexeme hword]
  | false => rcases isWord_eq_false_iff.mp hword with rfl | rfl | rfl | rfl <;> rfl

end Token

/-- A scan passes over layout. -/
theorem scan_layout {offset : Nat} {c : Char} {rest : List Char} (h : isLayout c = true) :
    scan offset (c :: rest) = scan (offset + 1) rest := by
  rw [scan, if_pos h]

/-- A scan takes the token in front of a text. -/
theorem scan_token {offset : Nat} {t : Token} {rest : List Char} (hlexeme : t.IsLexeme)
    (hlongest : t.Longest rest) :
    scan offset (t.text.toList ++ rest) =
      (scan (offset + t.text.length) rest).cons ⟨offset, t⟩ := by
  have hfront := Token.frontToken?_append hlexeme hlongest
  obtain ⟨c, cs, htext, -⟩ := t.exists_text_eq_cons
  rw [htext, List.cons_append] at hfront ⊢
  rw [scan, if_neg (by rw [Token.isLayout_eq_false htext]; exact Bool.false_ne_true)]
  split
  · next h => cases h.symm.trans hfront
  · next u behind h =>
    cases h.symm.trans hfront
    rfl

/-- A scan stops at a character that is no layout and opens no token. -/
theorem scan_stop {offset : Nat} {c : Char} {rest : List Char} (hlayout : isLayout c = false)
    (hnone : frontToken? (c :: rest) = none) :
    scan offset (c :: rest) = ⟨[], some ⟨offset, c⟩⟩ := by
  rw [scan, if_neg (Bool.eq_false_iff.mp hlayout)]
  split
  · rfl
  · next h => cases hnone.symm.trans h

/-- The tokens of a text that is scanned to its end are those that it is lexed into. -/
theorem lexed_of_scan {offset : Nat} {s : List Char} (h : (scan offset s).stop = none) :
    Lexed s ((scan offset s).tokens.map Located.value) := by
  induction offset, s using scan.induct with
  | case1 offset => rw [scan]; exact .nil
  | case2 offset c rest hlayout ih =>
    rw [scan_layout hlayout] at h ⊢
    exact .layout hlayout (ih h)
  | case3 offset c rest hlayout hfront =>
    rw [scan_stop (Bool.eq_false_iff.mpr hlayout) hfront] at h
    cases h
  | case4 offset c rest hlayout t behind hfront ih =>
    obtain ⟨hlexeme, hlongest⟩ := Token.isLexeme_and_longest hfront
    rw [eq_of_frontToken? hfront, scan_token hlexeme hlongest] at h ⊢
    exact .token hlexeme hlongest (ih h)

/-- A text that is lexed into tokens is scanned to its end, and these tokens are found. -/
theorem scan_of_lexed {s : List Char} {tokens : List Token} (h : Lexed s tokens) (offset : Nat) :
    (scan offset s).stop = none ∧ (scan offset s).tokens.map Located.value = tokens := by
  induction h generalizing offset with
  | nil => rw [scan]; exact ⟨rfl, rfl⟩
  | layout hlayout _ ih =>
    rw [scan_layout hlayout]
    exact ih (offset + 1)
  | @token t rest tokens hlexeme hlongest _ ih =>
    obtain ⟨hstop, htokens⟩ := ih (offset + t.text.length)
    rw [scan_token hlexeme hlongest]
    exact ⟨hstop, congrArg (t :: ·) htokens⟩

/-- A text is lexed into tokens exactly if it is scanned to its end and these are the tokens. -/
theorem lexed_iff {s : List Char} {tokens : List Token} :
    Lexed s tokens ↔ (scan 0 s).stop = none ∧ (scan 0 s).tokens.map Located.value = tokens :=
  ⟨fun h => scan_of_lexed h 0, fun h => h.2 ▸ lexed_of_scan h.1⟩

/-- A text is lexed into tokens in one way. -/
theorem Lexed.unique {s : List Char} {tokens others : List Token} (h : Lexed s tokens)
    (hothers : Lexed s others) : tokens = others :=
  (scan_of_lexed h 0).2.symm.trans (scan_of_lexed hothers 0).2

/-- Every token of a text is a lexeme. -/
theorem Lexed.isLexeme {s : List Char} {tokens : List Token} (h : Lexed s tokens) :
    ∀ t ∈ tokens, t.IsLexeme := by
  induction h with
  | nil => exact List.forall_mem_nil _
  | layout _ _ ih => exact ih
  | token hlexeme _ _ ih => exact List.forall_mem_cons.mpr ⟨hlexeme, ih⟩

/-- Nothing but layout is lexed into no token. -/
theorem Lexed.isLayout_of_nil {s : List Char} (h : Lexed s []) : ∀ c ∈ s, isLayout c = true := by
  generalize htokens : ([] : List Token) = tokens at h
  induction h with
  | nil => exact List.forall_mem_nil _
  | layout hlayout _ ih => exact List.forall_mem_cons.mpr ⟨hlayout, ih htokens⟩
  | token _ _ _ _ => cases htokens

/-- A text that is lexed into tokens begins with layout and the first of them. -/
theorem Lexed.exists_of_cons {s : List Char} {t : Token} {tokens : List Token}
    (h : Lexed s (t :: tokens)) :
    ∃ gap rest, s = gap ++ (t.text.toList ++ rest) ∧ (∀ c ∈ gap, isLayout c = true) ∧
      Lexed rest tokens := by
  generalize hall : t :: tokens = all at h
  induction h with
  | nil => cases hall
  | @layout c rest all hlayout _ ih =>
    obtain ⟨gap, behind, rfl, hgap, hbehind⟩ := ih hall
    exact ⟨c :: gap, behind, rfl, List.forall_mem_cons.mpr ⟨hlayout, hgap⟩, hbehind⟩
  | @token u rest others _ _ hrest _ =>
    obtain ⟨rfl, rfl⟩ := List.cons.inj hall
    exact ⟨[], rest, rfl, List.forall_mem_nil _, hrest⟩

end OverloadDispatch.Signature
