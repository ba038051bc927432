import OverloadDispatch.Proofs.Refusal

/-!
# Layout

A text is parted at a seam: a place that is not within a run of word characters and not between the
two colons of a scope mark. No token stands across a seam, so a scan finds in the text what it finds
in the two parts by themselves, as far as it is not stopped in the first one. Layout has seams on
both sides and is passed over. What is found in a text, and hence whether and how it is read, is
therefore the same with layout at a seam, and with other layout in the place of layout.
-/

namespace OverloadDispatch.Signature

open Text

/-! ## What a scan finds, wherever it stands -/

/-- The tokens of a text, and the character that stops the scan of it, without their offsets. -/
structure Content where
  /-- The tokens before the stop, in order. -/
  tokens : List Token
  /-- The first character that belongs to no token. -/
  stop : Option Char
  deriving DecidableEq, Repr

/-- What a scan has found. -/
def Scan.content (s : Scan) : Content := ⟨s.tokens.map Located.value, s.stop.map Located.value⟩

/-- What is found in a text. -/
def content (s : List Char) : Content := (scan 0 s).content

namespace Content

/-- A token in front of what is found. -/
def cons (t : Token) (found : Content) : Content := ⟨t :: found.tokens, found.stop⟩

/-- What is found in a first part and then, if nothing stops the scan there, in a second one. -/
def append (first second : Content) : Content :=
  match first.stop with
  | none => ⟨first.tokens ++ second.tokens, second.stop⟩
  | some _ => first

theorem append_cons (t : Token) (first second : Content) :
    (first.cons t).append second = (first.append second).cons t := by
  obtain ⟨tokens, stop⟩ := first
  cases stop <;> rfl

end Content

theorem Scan.content_cons (t : Located Token) (s : Scan) :
    (s.cons t).content = s.content.cons t.value := rfl

/-- What is found in a text does not depend on the place of the text. -/
theorem content_scan (offset : Nat) (s : List Char) : (scan offset s).content = content s := by
  suffices h : ∀ other, (scan offset s).content = (scan other s).content from h 0
  induction offset, s using scan.induct with
  | case1 offset =>
    intro other
    rw [scan, scan]
  | case2 offset c rest hlayout ih =>
    intro other
    rw [scan_layout hlayout, scan_layout hlayout]
    exact ih (other + 1)
  | case3 offset c rest hlayout hnone =>
    intro other
    have hc := Bool.eq_false_iff.mpr hlayout
    rw [scan_stop hc hnone, scan_stop hc hnone]
    rfl
  | case4 offset c rest hlayout t behind hfound ih =>
    intro other
    obtain ⟨hlexeme, hlongest⟩ := Token.isLexeme_and_longest hfound
    rw [eq_of_frontToken? hfound, scan_token hlexeme hlongest, scan_token hlexeme hlongest,
      Scan.content_cons, Scan.content_cons, ih (other + t.text.length)]

theorem content_nil : content [] = ⟨[], none⟩ := by
  rw [content, scan]
  rfl

/-- Nothing is found in layout. -/
theorem content_layout {c : Char} (h : isLayout c = true) (rest : List Char) :
    content (c :: rest) = content rest := by
  rw [content, scan_layout h, content_scan]

/-- Nothing is found in layout of any length. -/
theorem content_gap {gap : List Char} (h : ∀ c ∈ gap, isLayout c = true) (rest : List Char) :
    content (gap ++ rest) = content rest := by
  induction gap with
  | nil => rfl
  | cons c gap ih =>
    obtain ⟨hc, hgap⟩ := List.forall_mem_cons.mp h
    rw [List.cons_append, content_layout hc, ih hgap]

/-- A token in front of a text is found first. -/
theorem content_token {t : Token} {rest : List Char} (hlexeme : t.IsLexeme)
    (hlongest : t.Longest rest) :
    content (t.text.toList ++ rest) = (content rest).cons t := by
  rw [content, scan_token hlexeme hlongest, Scan.content_cons, content_scan]

/-- A text is lexed into tokens exactly if they are found in it and nothing stops the scan. -/
theorem lexed_iff_content {s : List Char} {tokens : List Token} :
    Lexed s tokens ↔ content s = ⟨tokens, none⟩ := by
  rw [lexed_iff, content, Scan.content, Content.mk.injEq, Option.map_eq_none_iff]
  exact and_comm

/-- Layout in front of a text makes no difference to its tokens. -/
theorem lexed_layout_iff {c : Char} (h : isLayout c = true) {rest : List Char}
    {tokens : List Token} : Lexed (c :: rest) tokens ↔ Lexed rest tokens := by
  rw [lexed_iff_content, lexed_iff_content, content_layout h]

/-- A token in front of a text is the first of its tokens. -/
theorem lexed_token_iff {t : Token} {rest : List Char} (hlexeme : t.IsLexeme)
    (hlongest : t.Longest rest) {tokens : List Token} :
    Lexed (t.text.toList ++ rest) tokens ↔ ∃ others, Lexed rest others ∧ tokens = t :: others := by
  constructor
  · intro h
    rw [lexed_iff_content, content_token hlexeme hlongest] at h
    obtain ⟨rfl, hstop⟩ := Content.mk.inj h
    exact ⟨_, lexed_iff_content.mpr (Content.mk.injEq .. ▸ ⟨rfl, hstop⟩), rfl⟩
  · rintro ⟨others, hothers, rfl⟩
    exact .token hlexeme hlongest hothers

/-! ## Seams -/

/-- Whether a text may be parted between a front and what comes behind it. -/
structure IsSeam (front behind : List Char) : Prop where
  /-- The place is not within a run of word characters. -/
  word : ∀ c d, front.getLast? = some c → behind.head? = some d →
    ¬(isWordPart c = true ∧ isWordPart d = true)
  /-- The place is not between the two colons of a scope mark that is found in the text. -/
  scope : ∀ before tokens, front = before ++ [':'] →
    ¬FoundBehind .scope before tokens (front ++ behind)

namespace IsSeam

variable {front behind : List Char}

/-- A text may be parted in front of a character that is no colon and does not go on with a word. -/
theorem of_head {c : Char} {rest : List Char} (hcolon : c ≠ ':')
    (hword : ∀ d, front.getLast? = some d → ¬(isWordPart d = true ∧ isWordPart c = true)) :
    IsSeam front (c :: rest) where
  word := by
    intro d e hd he
    obtain rfl := Option.some.inj he
    exact hword d hd
  scope := by
    rintro before tokens rfl hfound
    generalize htext : before ++ [':'] ++ c :: rest = text at hfound
    obtain ⟨-, -, -⟩ := hfound
    rw [List.append_assoc, List.append_cancel_left_eq] at htext
    exact hcolon (List.cons.inj (List.cons.inj htext).2).1

/-- A text may be parted in front of a character that is neither a word character nor a colon. -/
theorem of_not_isWordPart {c : Char} {rest : List Char} (hcolon : c ≠ ':')
    (hc : isWordPart c = false) : IsSeam front (c :: rest) :=
  of_head hcolon fun _ _ h => Bool.false_ne_true (hc.symm.trans h.2)

/-- Layout may be parted from what stands before it. -/
theorem of_layout {c : Char} {rest : List Char} (h : isLayout c = true) :
    IsSeam front (c :: rest) := by
  refine of_not_isWordPart ?_ (Bool.eq_false_iff.mpr fun hpart => ?_)
  · rintro rfl
    cases h
  · cases h.symm.trans (isLayout_eq_false_of_isWordPart hpart)

/-- A seam behind layout is one behind what follows the layout. -/
theorem of_layout_cons {c : Char} (hc : isLayout c = true) (h : IsSeam (c :: front) behind) :
    IsSeam front behind where
  word d e hd he := by
    refine h.word d e ?_ he
    cases front with
    | nil => cases hd
    | cons f front => rwa [List.getLast?_cons_cons]
  scope := by
    rintro before tokens rfl hfound
    refine h.scope (c :: before) tokens rfl ?_
    generalize htext : before ++ [':'] ++ behind = text at hfound
    obtain ⟨hlexeme, hlongest, hbefore⟩ := hfound
    rw [List.cons_append, htext]
    exact .intro hlexeme hlongest (.layout hc hbefore)

/-- A seam behind a token is one behind what follows the token. -/
theorem of_token_append {t : Token} (hlexeme : t.IsLexeme) (hlongest : t.Longest (front ++ behind))
    (h : IsSeam (t.text.toList ++ front) behind) : IsSeam front behind where
  word d e hd he := by
    refine h.word d e ?_ he
    rw [List.getLast?_append, hd]
    rfl
  scope := by
    rintro before tokens rfl hfound
    refine h.scope (t.text.toList ++ before) (t :: tokens) (by rw [List.append_assoc]) ?_
    generalize htext : before ++ [':'] ++ behind = text at hfound hlongest
    obtain ⟨hmark, hlongestMark, hbefore⟩ := hfound
    rw [List.append_assoc, htext, ← List.append_assoc]
    exact .intro hmark hlongestMark (.token hlexeme hlongest hbefore)

/-- A token in front of a seam does not go on behind it. -/
theorem longest {t : Token} {rest : List Char} (h : IsSeam (t.text.toList ++ rest) behind)
    (hlongest : t.Longest rest) : t.Longest (rest ++ behind) := by
  rw [Token.longest_iff] at hlongest ⊢
  intro hword d hd
  cases rest with
  | cons c rest => exact hlongest hword d hd
  | nil =>
    -- The last character of the word stands in front of the seam.
    obtain ⟨c, hc⟩ := List.getLast?_isSome.mpr (List.ne_nil_of_length_pos t.text_toList_length_pos)
      |> Option.isSome_iff_exists.mp
    have hpart := isWordPart_of_isIdentifier hword c (List.mem_of_getLast? hc)
    refine Bool.eq_false_iff.mpr fun hd' => h.word c d ?_ hd ⟨hpart, hd'⟩
    rwa [List.append_nil]

/-- A token does not stand across a seam. -/
theorem not_across {t : Token} {c d : Char} {before more rest : List Char}
    (h : IsSeam (c :: before) (d :: more ++ rest)) (ht : t.text.toList = c :: before ++ d :: more) :
    False := by
  cases hword : t.isWord with
  | true =>
    have hparts := isWordPart_of_isIdentifier hword
    obtain ⟨e, he⟩ : ∃ e, (c :: before).getLast? = some e := ⟨_, List.getLast?_cons⟩
    have hefront : e ∈ t.text.toList := by
      rw [ht]
      exact List.mem_append_left _ (List.mem_of_getLast? he)
    exact h.word e d he rfl ⟨hparts e hefront, hparts d (by simp [ht])⟩
  | false =>
    rcases Token.isWord_eq_false_iff.mp hword with rfl | rfl | rfl | rfl
    · exact absurd (congrArg List.length ht) (by simp [Token.text])
    · exact absurd (congrArg List.length ht) (by simp [Token.text])
    · exact absurd (congrArg List.length ht) (by simp [Token.text])
    · cases before with
      | nil =>
        obtain ⟨rfl, htail⟩ := List.cons.inj ht
        obtain ⟨rfl, rfl⟩ := List.cons.inj htail
        exact h.scope [] [] rfl (.intro (Token.isLexeme_of_isWord_eq_false rfl)
          (Token.longest_of_isWord_eq_false rfl _) .nil)
      | cons e before => exact absurd (congrArg List.length ht) (by simp [Token.text])

/-- Where no token is found in front of a seam, none is found there in the whole text. -/
theorem frontToken?_eq_none {c : Char} {rest : List Char} (h : IsSeam (c :: rest) behind)
    (hnone : frontToken? (c :: rest) = none) : frontToken? (c :: (rest ++ behind)) = none := by
  rw [frontToken?_eq_none_iff] at hnone ⊢
  intro t left htext
  rw [← List.cons_append] at htext
  rcases List.append_eq_append_iff.mp htext with ⟨more, ht, rfl⟩ | ⟨more, hfront, -⟩
  · cases more with
    | nil => exact hnone t [] (by simpa using ht.symm)
    | cons d more => exact h.not_across ht
  · exact hnone t more hfront

end IsSeam

/-- What is found in a text is what is found in its parts on the two sides of a seam. -/
theorem content_append {front behind : List Char} (h : IsSeam front behind) :
    content (front ++ behind) = (content front).append (content behind) := by
  rw [← content_scan 0 (front ++ behind), ← content_scan 0 front]
  generalize (0 : Nat) = offset
  induction offset, front using scan.induct with
  | case1 offset =>
    rw [scan, List.nil_append, content_scan]
    rfl
  | case2 offset c rest hlayout ih =>
    rw [List.cons_append, scan_layout hlayout, scan_layout hlayout]
    exact ih (h.of_layout_cons hlayout)
  | case3 offset c rest hlayout hnone =>
    have hc := Bool.eq_false_iff.mpr hlayout
    rw [scan_stop hc hnone, List.cons_append, scan_stop hc (h.frontToken?_eq_none hnone)]
    rfl
  | case4 offset c rest hlayout t left hfound ih =>
    obtain ⟨hlexeme, hlongest⟩ := Token.isLexeme_and_longest hfound
    rw [eq_of_frontToken? hfound] at h ⊢
    have hacross := h.longest hlongest
    rw [List.append_assoc, scan_token hlexeme hacross, scan_token hlexeme hlongest,
      Scan.content_cons, Scan.content_cons, Content.append_cons,
      ih (h.of_token_append hlexeme hacross)]

/-- A text is lexed on the two sides of a seam by itself. -/
theorem lexed_append_iff {front behind : List Char} (h : IsSeam front behind)
    {tokens : List Token} :
    Lexed (front ++ behind) tokens ↔
      ∃ first second, Lexed front first ∧ Lexed behind second ∧ tokens = first ++ second := by
  simp only [lexed_iff_content, content_append h]
  obtain ⟨first, stop⟩ := content front
  obtain ⟨second, last⟩ := content behind
  constructor
  · intro hfound
    cases stop with
    | none =>
      obtain ⟨rfl, rfl⟩ := Content.mk.inj hfound
      exact ⟨first, second, rfl, rfl, rfl⟩
    | some c => cases hfound
  · rintro ⟨_, _, hfirst, hsecond, rfl⟩
    cases hfirst
    cases hsecond
    rfl

/-- Layout at a seam changes nothing of what is found. -/
theorem content_append_gap {front gap behind : List Char} (h : IsSeam front behind)
    (hgap : ∀ c ∈ gap, isLayout c = true) :
    content (front ++ (gap ++ behind)) = content (front ++ behind) := by
  cases gap with
  | nil => rfl
  | cons c gap =>
    have hseam : IsSeam front (c :: gap ++ behind) := .of_layout (hgap c List.mem_cons_self)
    rw [content_append hseam, content_gap hgap, content_append h]

/-- What is found around layout does not depend on the layout. -/
theorem content_append_gaps {gap other : List Char} (hne : gap ≠ []) (hother : other ≠ [])
    (hgap : ∀ c ∈ gap, isLayout c = true) (hlayout : ∀ c ∈ other, isLayout c = true)
    (front behind : List Char) :
    content (front ++ (gap ++ behind)) = content (front ++ (other ++ behind)) := by
  obtain ⟨c, gap, rfl⟩ := List.exists_cons_of_ne_nil hne
  obtain ⟨d, other, rfl⟩ := List.exists_cons_of_ne_nil hother
  have hseam : IsSeam front (c :: gap ++ behind) := .of_layout (hgap c List.mem_cons_self)
  have hseam' : IsSeam front (d :: other ++ behind) := .of_layout (hlayout d List.mem_cons_self)
  rw [content_append hseam, content_append hseam', content_gap hgap, content_gap hlayout]

/-! ## Texts that are read alike -/

/-- Whether two reports name the same offence: a character, or a token or the end of the text. -/
inductive SameOffence : ReadError → ReadError → Prop where
  /-- The same character opens no token. -/
  | character (found : Char) (place other : Position) :
    SameOffence (.character found place) (.character found other)
  /-- The same token, or the end of the text, stands where the grammar does not admit it. -/
  | token (found : Option Token) (place other : Position) :
    SameOffence (.token found place) (.token found other)

/-- Whether two texts are read as the same signature, or refused for the same offence. -/
inductive ReadAlike (text other : String) : Prop where
  /-- Both are read. -/
  | read {s : Signature} : ofText text = .ok s → ofText other = .ok s → ReadAlike text other
  /-- Both are refused. -/
  | refused {reason reason' : ReadError} : ofText text = .error (.unreadable text reason) →
    ofText other = .error (.unreadable other reason') → SameOffence reason reason' →
    ReadAlike text other

/-- The reader ends with the same result or at the same token, wherever its tokens stand. -/
theorem Reader.run_alike {r : Reader} {tokens others : List (Located Token)}
    (h : tokens.map Located.value = others.map Located.value) :
    (∃ last, r.run tokens = .ok last ∧ r.run others = .ok last) ∨
      ∃ t u, r.run tokens = .error t ∧ r.run others = .error u ∧ t.value = u.value := by
  induction tokens generalizing r others with
  | nil =>
    obtain rfl := List.map_eq_nil_iff.mp h.symm
    exact .inl ⟨r, rfl, rfl⟩
  | cons t tokens ih =>
    cases others with
    | nil => cases h
    | cons u others =>
      obtain ⟨hvalue, hrest⟩ := List.cons.inj h
      rw [run, run, ← hvalue]
      cases r.feed? t.value with
      | none => exact .inr ⟨t, u, rfl, rfl, hvalue⟩
      | some next => exact ih hrest

/-- A text is refused at the first token that may not stand where it does. -/
theorem ofText_of_run_eq_error {text : String} {t : Located Token}
    (h : Reader.initial.run (scan 0 text.toList).tokens = .error t) :
    ofText text = .error (.unreadable text
      (.token (some t.value) (Position.ofOffset text.toList t.offset))) := by
  simp only [ofText, h]

/-- A text is refused at the character that stops the scan, if all tokens before it are read. -/
theorem ofText_of_stop {text : String} {r : Reader} {c : Located Char}
    (h : Reader.initial.run (scan 0 text.toList).tokens = .ok r)
    (hstop : (scan 0 text.toList).stop = some c) :
    ofText text = .error (.unreadable text
      (.character c.value (Position.ofOffset text.toList c.offset))) := by
  simp only [ofText, h, hstop]

/-- A text that is scanned to its end is read if the reader may end behind all tokens. -/
theorem ofText_of_end {text : String} {r : Reader}
    (h : Reader.initial.run (scan 0 text.toList).tokens = .ok r)
    (hstop : (scan 0 text.toList).stop = none) :
    (r.stage.isFinal = true → ofText text = .ok r.parameters) ∧
      (r.stage.isFinal = false →
        ∃ place, ofText text = .error (.unreadable text (.token none place))) := by
  simp only [ofText, h, hstop]
  cases r.stage.isFinal <;> simp

/-- Texts in which the same is found are read alike. -/
theorem readAlike_of_content_eq {text other : String}
    (h : content text.toList = content other.toList) : ReadAlike text other := by
  obtain ⟨htokens, hstop⟩ := Content.mk.inj h
  rcases Reader.run_alike (r := .initial) htokens with ⟨r, hrun, hrun'⟩ | ⟨t, u, ht, hu, hvalue⟩
  · cases hfound : (scan 0 text.toList).stop with
    | some c =>
      rw [hfound] at hstop
      obtain ⟨d, hd, hvalue⟩ := Option.map_eq_some_iff.mp hstop.symm
      refine .refused (ofText_of_stop hrun hfound) (ofText_of_stop hrun' hd) ?_
      rw [hvalue]
      exact .character _ _ _
    | none =>
      rw [hfound] at hstop
      have hfound' := Option.map_eq_none_iff.mp hstop.symm
      obtain ⟨hread, hrefused⟩ := ofText_of_end hrun hfound
      obtain ⟨hread', hrefused'⟩ := ofText_of_end hrun' hfound'
      cases hfinal : r.stage.isFinal with
      | true => exact .read (hread hfinal) (hread' hfinal)
      | false =>
        obtain ⟨place, h⟩ := hrefused hfinal
        obtain ⟨place', h'⟩ := hrefused' hfinal
        exact .refused h h' (.token _ _ _)
  · refine .refused (ofText_of_run_eq_error ht) (ofText_of_run_eq_error hu) ?_
    rw [hvalue]
    exact .token _ _ _

/-- Layout that is put in at a seam, or in the place of other layout, changes nothing of how a text
is read: it is read as the same signature, or refused for the same offence. -/
theorem layout_makes_no_difference (front behind : String) :
    (∀ gap : String, (∀ c ∈ gap.toList, isLayout c = true) → IsSeam front.toList behind.toList →
      ReadAlike (front ++ behind) (front ++ gap ++ behind)) ∧
    ∀ gap other : String, (∀ c ∈ gap.toList, isLayout c = true) →
      (∀ c ∈ other.toList, isLayout c = true) → gap ≠ "" → other ≠ "" →
      ReadAlike (front ++ gap ++ behind) (front ++ other ++ behind) := by
  constructor
  · intro gap hgap hseam
    refine readAlike_of_content_eq ?_
    simp only [String.toList_append, List.append_assoc]
    exact (content_append_gap hseam hgap).symm
  · intro gap other hgap hother hne hne'
    refine readAlike_of_content_eq ?_
    simp only [String.toList_append, List.append_assoc]
    refine content_append_gaps ?_ ?_ hgap hother _ _
    · simpa using hne
    · simpa using hne'

/-- A line break behind a scope mark, and other layout in front of a character that is refused. -/
theorem scatteredPoint_readAlike :
    ReadAlike "gtsam::Point3&p" "gtsam::\n\tPoint3&p" ∧ ReadAlike "int a\t$" "int a \r\n$" := by
  constructor
  · have hseam : IsSeam "gtsam::".toList "Point3&p".toList :=
      .of_head (by decide) fun c hc h => by
        obtain rfl := Option.some.inj hc
        exact absurd h.1 (by decide)
    exact (layout_makes_no_difference "gtsam::" "Point3&p").1 "\n\t" (by simp [isLayout]) hseam
  · exact (layout_makes_no_difference "int a" "$").2 "\t" " \r\n" (by simp [isLayout])
      (by simp [isLayout]) (by simp) (by simp)

end OverloadDispatch.Signature
