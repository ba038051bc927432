import OverloadDispatch.Proofs.Reading

/-!
# Refused texts

A text is refused at the first place where no parameter list goes on as the text does. The scan
hands the reader the tokens in front of that place, each with the offset behind a front that is
lexed into the tokens before it. The reader has a next stage exactly as long as some parameter list
begins with what it has read, since every stage can be completed. What stands at the place is
therefore a token with which no list goes on, a character that opens no token, or the end of a text
whose tokens only begin a list.
-/

namespace OverloadDispatch.Signature

open Text

/-! ## The scan up to a place -/

namespace LexedBefore

/-- The scan passes the front of a text and goes on with what comes behind it. -/
theorem scan_append {behind front : List Char} {tokens : List Token}
    (h : LexedBefore behind front tokens) (offset : Nat) :
    ∃ located : List (Located Token), located.map Located.value = tokens ∧
      (scan offset (front ++ behind)).tokens =
        located ++ (scan (offset + front.length) behind).tokens ∧
      (scan offset (front ++ behind)).stop = (scan (offset + front.length) behind).stop := by
  induction h generalizing offset with
  | nil => exact ⟨[], rfl, rfl, rfl⟩
  | @layout c rest tokens hlayout _ ih =>
    obtain ⟨located, hvalues, htokens, hstop⟩ := ih (offset + 1)
    have hoffset : offset + (c :: rest).length = offset + 1 + rest.length := by
      rw [List.length_cons]
      omega
    rw [List.cons_append, scan_layout hlayout, hoffset]
    exact ⟨located, hvalues, htokens, hstop⟩
  | @token t rest tokens hlexeme hlongest _ ih =>
    obtain ⟨located, hvalues, htokens, hstop⟩ := ih (offset + t.text.length)
    have hoffset : offset + (t.text.toList ++ rest).length =
        offset + t.text.length + rest.length := by
      rw [List.length_append, String.length_toList]
      omega
    rw [List.append_assoc, scan_token hlexeme hlongest, hoffset]
    refine ⟨⟨offset, t⟩ :: located, ?_, ?_, hstop⟩
    · rw [List.map_cons, hvalues]
    · rw [List.cons_append, ← htokens]
      rfl

end LexedBefore

/-- The scan finds a token at the offset of its front, behind the tokens of the front. -/
theorem FoundBehind.scan_eq {t : Token} {front text : List Char} {tokens : List Token}
    (h : FoundBehind t front tokens text) :
    ∃ before after : List (Located Token), before.map Located.value = tokens ∧
      (scan 0 text).tokens = before ++ ⟨front.length, t⟩ :: after := by
  obtain ⟨hlexeme, hlongest, hfront⟩ := h
  obtain ⟨located, hvalues, htokens, -⟩ := hfront.scan_append 0
  rw [Nat.zero_add, scan_token hlexeme hlongest] at htokens
  exact ⟨located, _, hvalues, htokens⟩

/-- Where the tokens of a scan are parted, the text is: its front is lexed into the first of them,
and the scan goes on with the others at once. -/
theorem exists_lexedBefore_of_tokens_eq {offset : Nat} {s : List Char}
    {before after : List (Located Token)} (h : (scan offset s).tokens = before ++ after) :
    ∃ front behind, s = front ++ behind ∧
      LexedBefore behind front (before.map Located.value) ∧
      scan (offset + front.length) behind = ⟨after, (scan offset s).stop⟩ ∧
      ∀ c ∈ behind.head?, isLayout c = false := by
  induction offset, s using scan.induct generalizing before with
  | case1 offset =>
    rw [scan] at h ⊢
    obtain ⟨rfl, rfl⟩ := List.append_eq_nil_iff.mp h.symm
    refine ⟨[], [], rfl, .nil, ?_, by simp⟩
    rw [scan]
  | case2 offset c rest hlayout ih =>
    rw [scan_layout hlayout] at h ⊢
    obtain ⟨front, behind, rfl, hfront, hscan, hhead⟩ := ih h
    refine ⟨c :: front, behind, rfl, .layout hlayout hfront, ?_, hhead⟩
    have hoffset : offset + (c :: front).length = offset + 1 + front.length := by
      rw [List.length_cons]
      omega
    rw [hoffset]
    exact hscan
  | case3 offset c rest hlayout hnone =>
    have hc := Bool.eq_false_iff.mpr hlayout
    rw [scan_stop hc hnone] at h ⊢
    obtain ⟨rfl, rfl⟩ := List.append_eq_nil_iff.mp h.symm
    exact ⟨[], c :: rest, rfl, .nil, scan_stop hc hnone, by simpa using hc⟩
  | case4 offset c rest hlayout t behind hfound ih =>
    obtain ⟨hlexeme, hlongest⟩ := Token.isLexeme_and_longest hfound
    have htext := eq_of_frontToken? hfound
    cases before with
    | nil =>
      refine ⟨[], c :: rest, rfl, .nil, ?_, by simpa using hlayout⟩
      rw [List.nil_append] at h
      rw [← h]
      rfl
    | cons first before =>
      rw [htext, scan_token hlexeme hlongest] at h ⊢
      obtain ⟨rfl, hrest⟩ := List.cons.inj h
      obtain ⟨front, last, rfl, hfront, hscan, hhead⟩ := ih hrest
      refine ⟨t.text.toList ++ front, last, (List.append_assoc _ _ _).symm,
        .token hlexeme hlongest hfront, ?_, hhead⟩
      have hoffset : offset + (t.text.toList ++ front).length =
          offset + t.text.length + front.length := by
        rw [List.length_append, String.length_toList]
        omega
      rw [hoffset]
      exact hscan

/-- A token among those of the scan is found in the text. -/
theorem foundBehind_of_tokens_eq {text : List Char} {before after : List (Located Token)}
    {t : Located Token} (h : (scan 0 text).tokens = before ++ t :: after) :
    ∃ front, t.offset = front.length ∧
      FoundBehind t.value front (before.map Located.value) text := by
  obtain ⟨front, behind, rfl, hfront, hscan, hhead⟩ := exists_lexedBefore_of_tokens_eq h
  rw [Nat.zero_add] at hscan
  cases behind with
  | nil =>
    rw [scan] at hscan
    cases hscan
  | cons c rest =>
    have hlayout := hhead c rfl
    cases hfound : frontToken? (c :: rest) with
    | none =>
      rw [scan_stop hlayout hfound] at hscan
      cases hscan
    | some found =>
      obtain ⟨u, last⟩ := found
      obtain ⟨hlexeme, hlongest⟩ := Token.isLexeme_and_longest hfound
      rw [eq_of_frontToken? hfound] at hfront hscan ⊢
      rw [scan_token hlexeme hlongest] at hscan
      obtain ⟨rfl, -⟩ := List.cons.inj (Scan.mk.inj hscan).1
      exact ⟨front, rfl, .intro hlexeme hlongest hfront⟩

/-- No token is found in front of a text exactly if the text begins with the spelling of none. -/
theorem frontToken?_eq_none_iff {s : List Char} :
    frontToken? s = none ↔ ∀ (t : Token) (rest : List Char), s ≠ t.text.toList ++ rest := by
  constructor
  · rintro hnone t rest rfl
    cases hword : t.isWord with
    | true =>
      obtain ⟨c, cs, htext, hc⟩ := t.exists_text_eq_cons
      -- The longest word there may be longer than the token.
      have hlongest := isIdentifier_longestWord (hc.trans hword) (cs ++ rest)
      rw [String.toList_ofList] at hlongest
      have hfound := frontToken?_of_isIdentifier hlongest (endsWord_dropWhile (cs ++ rest))
      rw [List.cons_append, List.takeWhile_append_dropWhile, ← List.cons_append, ← htext,
        hnone] at hfound
      cases hfound
    | false =>
      have hfound := Token.frontToken?_append (Token.isLexeme_of_isWord_eq_false hword)
        (Token.longest_of_isWord_eq_false hword rest)
      cases hnone.symm.trans hfound
  · intro hnone
    cases hfound : frontToken? s with
    | none => rfl
    | some found => exact absurd (eq_of_frontToken? hfound) (hnone found.1 found.2)

/-- The character that stops the scan opens no token, and all tokens stand before it. -/
theorem exists_lexedBefore_of_stop {text : List Char} {c : Located Char}
    (h : (scan 0 text).stop = some c) :
    ∃ front rest, text = front ++ c.value :: rest ∧ c.offset = front.length ∧
      isLayout c.value = false ∧ frontToken? (c.value :: rest) = none ∧
      LexedBefore (c.value :: rest) front ((scan 0 text).tokens.map Located.value) := by
  have htokens : (scan 0 text).tokens = (scan 0 text).tokens ++ [] := (List.append_nil _).symm
  obtain ⟨front, behind, htext, hfront, hscan, hhead⟩ := exists_lexedBefore_of_tokens_eq htokens
  rw [h, Nat.zero_add] at hscan
  cases behind with
  | nil =>
    rw [scan] at hscan
    cases hscan
  | cons d rest =>
    have hlayout := hhead d rfl
    cases hfound : frontToken? (d :: rest) with
    | none =>
      rw [scan_stop hlayout hfound] at hscan
      obtain rfl := Option.some.inj (Scan.mk.inj hscan).2
      exact ⟨front, rest, htext, rfl, hlayout, hfound, hfront⟩
    | some found =>
      obtain ⟨hlexeme, hlongest⟩ := Token.isLexeme_and_longest hfound
      rw [eq_of_frontToken? hfound, scan_token hlexeme hlongest] at hscan
      cases hscan

/-- The scan stops at a character that opens no token, with the tokens in front of it. -/
theorem LexedBefore.scan_eq {front rest : List Char} {tokens : List Token} {c : Char}
    (h : LexedBefore (c :: rest) front tokens) (hlayout : isLayout c = false)
    (hnone : frontToken? (c :: rest) = none) :
    (scan 0 (front ++ c :: rest)).tokens.map Located.value = tokens ∧
      (scan 0 (front ++ c :: rest)).stop = some ⟨front.length, c⟩ := by
  obtain ⟨located, hvalues, htokens, hstop⟩ := h.scan_append 0
  rw [scan_stop hlayout hnone] at htokens hstop
  rw [htokens, hstop, List.append_nil, Nat.zero_add]
  exact ⟨hvalues, rfl⟩

/-! ## What a list may begin with -/

namespace Reader

/-- The reader stops at the first token that it has no next stage for. -/
theorem run_eq_error_iff {r : Reader} {tokens : List (Located Token)} {t : Located Token} :
    r.run tokens = .error t ↔ ∃ before after next, tokens = before ++ t :: after ∧
      r.feedAll? (before.map Located.value) = some next ∧ next.feed? t.value = none := by
  induction tokens generalizing r with
  | nil =>
    constructor
    · intro h
      cases h
    · rintro ⟨before, after, _, h, -⟩
      exact absurd h.symm (by simp)
  | cons u rest ih =>
    rw [run]
    cases hnext : r.feed? u.value with
    | none =>
      constructor
      · intro h
        obtain rfl := Except.error.inj h
        exact ⟨[], rest, r, rfl, rfl, hnext⟩
      · rintro ⟨before, after, next, h, hbefore, ht⟩
        cases before with
        | nil =>
          obtain ⟨rfl, -⟩ := List.cons.inj h
          rfl
        | cons first before =>
          obtain ⟨rfl, -⟩ := List.cons.inj h
          rw [List.map_cons, feedAll?_cons, hnext] at hbefore
          cases hbefore
    | some r' =>
      refine ih.trans ⟨?_, ?_⟩
      · rintro ⟨before, after, next, rfl, hbefore, ht⟩
        refine ⟨u :: before, after, next, rfl, ?_, ht⟩
        rw [List.map_cons, feedAll?_cons, hnext, Option.bind_some, hbefore]
      · rintro ⟨before, after, next, h, hbefore, ht⟩
        cases before with
        | nil =>
          obtain ⟨rfl, -⟩ := List.cons.inj h
          cases hbefore
          cases ht.symm.trans hnext
        | cons first before =>
          obtain ⟨rfl, rfl⟩ := List.cons.inj h
          rw [List.map_cons, feedAll?_cons, hnext, Option.bind_some] at hbefore
          exact ⟨before, after, next, rfl, hbefore, ht⟩

end Reader

/-- A name to complete a parameter with. -/
def sampleName : Token := .name ⟨"x", by decide⟩

theorem isLexeme_sampleName : sampleName.IsLexeme :=
  Token.isLexeme_name_iff.mpr ⟨by decide, by decide⟩

/-- The tokens that complete the parameter at hand, if one has to follow. -/
def Stage.completion : Stage → List Token
  | start => []
  | comma => [sampleName, sampleName]
  | const => [sampleName, sampleName]
  | unsigned _ => [sampleName, sampleName]
  | type _ => [sampleName]
  | scope _ => [sampleName, sampleName]
  | marked _ _ => [sampleName]
  | complete _ => []

/-- Every stage can be completed. -/
theorem Reader.feedAll?_completion (r : Reader) :
    ∃ last, r.feedAll? r.stage.completion = some last ∧ last.stage.isFinal = true := by
  obtain ⟨done, stage⟩ := r
  cases stage <;> exact ⟨_, rfl, rfl⟩

theorem Stage.isLexeme_completion (stage : Stage) : ∀ t ∈ stage.completion, t.IsLexeme := by
  intro t ht
  have hsample : t = sampleName := by cases stage <;> simp_all [completion]
  rw [hsample]
  exact isLexeme_sampleName

/-- Tokens that go on to a derived sequence in any way are read. -/
theorem Derived.exists_feedAll? {tokens more : List Token} {trees : List ParameterTree}
    (h : Derived (tokens ++ more) trees) : ∃ r, Reader.initial.feedAll? tokens = some r := by
  obtain ⟨last, hlast, -⟩ := exists_feedAll?_iff.mpr ⟨trees, h, rfl⟩
  rw [Reader.feedAll?_append, Option.bind_eq_some_iff] at hlast
  obtain ⟨r, hr, -⟩ := hlast
  exact ⟨r, hr⟩

/-- A list may begin with exactly the tokens that are read. -/
theorem viable_iff {tokens : List Token} :
    Viable tokens ↔ ∃ r, Reader.initial.feedAll? tokens = some r := by
  constructor
  · rintro ⟨more, trees, -, hderived⟩
    exact hderived.exists_feedAll?
  · rintro ⟨r, hr⟩
    obtain ⟨last, hlast, hfinal⟩ := r.feedAll?_completion
    have hall : Reader.initial.feedAll? (tokens ++ r.stage.completion) = some last := by
      rw [Reader.feedAll?_append, hr, Option.bind_some, hlast]
    obtain ⟨trees, hderived, -⟩ := exists_feedAll?_iff.mp ⟨last, hall, hfinal, rfl⟩
    exact ⟨_, trees, r.stage.isLexeme_completion, hderived⟩

/-- The reader has no next stage for a token exactly if no list goes on with it. -/
theorem feed?_eq_none_iff {tokens : List Token} {r : Reader}
    (h : Reader.initial.feedAll? tokens = some r) (t : Token) :
    r.feed? t = none ↔ ∀ more trees, ¬Derived (tokens ++ t :: more) trees := by
  have hnext : Reader.initial.feedAll? (tokens ++ [t]) = r.feed? t := by
    rw [Reader.feedAll?_append, h, Option.bind_some, Reader.feedAll?_cons]
    cases r.feed? t <;> rfl
  constructor
  · intro hnone more trees hderived
    rw [← List.singleton_append, ← List.append_assoc] at hderived
    obtain ⟨next, hread⟩ := hderived.exists_feedAll?
    cases hread.symm.trans (hnext.trans hnone)
  · intro hstuck
    cases hread : r.feed? t with
    | none => rfl
    | some next =>
      obtain ⟨more, trees, -, hderived⟩ := viable_iff.mpr ⟨next, hnext.trans hread⟩
      rw [List.append_assoc] at hderived
      exact absurd hderived (hstuck more trees)

/-- Tokens that have been read have a derivation exactly if the reader may end. -/
theorem isFinal_iff_exists_derived {tokens : List Token} {r : Reader}
    (h : Reader.initial.feedAll? tokens = some r) :
    r.stage.isFinal = true ↔ ∃ trees, Derived tokens trees := by
  constructor
  · intro hfinal
    obtain ⟨trees, hderived, -⟩ := exists_feedAll?_iff.mp ⟨r, h, hfinal, rfl⟩
    exact ⟨trees, hderived⟩
  · rintro ⟨trees, hderived⟩
    obtain ⟨last, hlast, hfinal, -⟩ := exists_feedAll?_iff.mpr ⟨trees, hderived, rfl⟩
    obtain rfl := Option.some.inj (h.symm.trans hlast)
    exact hfinal

/-! ## The report -/

/-- What a text is like that is refused for a reason. -/
inductive Refused (text : List Char) : ReadError → Prop where
  /-- Some list begins with the tokens before the one that is found, but none goes on with it. -/
  | token {t : Token} {front : List Char} {tokens : List Token} {place : Position} :
    FoundBehind t front tokens text → Viable tokens →
    (∀ more trees, ¬Derived (tokens ++ t :: more) trees) → place.Follows front →
    Refused text (.token (some t) place)
  /-- The tokens of the whole text only begin a list; the last of them is pointed at. -/
  | ending {last : Token} {front : List Char} {tokens : List Token} {place : Position} :
    FoundBehind last front tokens text → Lexed text (tokens ++ [last]) →
    Viable (tokens ++ [last]) → (¬∃ trees, Derived (tokens ++ [last]) trees) →
    place.Follows front → Refused text (.token none place)
  /-- Some list begins with the tokens before a character that is no layout and opens no token. -/
  | character {c : Char} {front rest : List Char} {tokens : List Token} {place : Position} :
    text = front ++ c :: rest → LexedBefore (c :: rest) front tokens → isLayout c = false →
    (∀ (t : Token) (behind : List Char), c :: rest ≠ t.text.toList ++ behind) → Viable tokens →
    place.Follows front → Refused text (.character c place)

/-- The position of the token behind a front is worked out from the length of the front. -/
theorem FoundBehind.follows_iff {t : Token} {front text : List Char} {tokens : List Token}
    (h : FoundBehind t front tokens text) {place : Position} :
    place.Follows front ↔ place = Position.ofOffset text front.length := by
  cases h with
  | intro => exact Position.follows_iff _

/-- A refused text is what its report says. -/
theorem refused_of_ofText {text : String} {reason : ReadError}
    (h : ofText text = .error (.unreadable text reason)) : Refused text.toList reason := by
  simp only [ofText] at h
  cases hrun : Reader.initial.run (scan 0 text.toList).tokens with
  | error t =>
    rw [hrun] at h
    obtain rfl := (Fault.unreadable.inj (Except.error.inj h)).2
    obtain ⟨before, after, r, htokens, hread, hnext⟩ := Reader.run_eq_error_iff.mp hrun
    obtain ⟨front, hoffset, hfound⟩ := foundBehind_of_tokens_eq htokens
    refine .token hfound (viable_iff.mpr ⟨r, hread⟩) ((feed?_eq_none_iff hread _).mp hnext) ?_
    rw [hfound.follows_iff, hoffset]
  | ok r =>
    have hread := Reader.run_eq_ok_iff.mp hrun
    rw [hrun] at h
    cases hstop : (scan 0 text.toList).stop with
    | some c =>
      rw [hstop] at h
      obtain rfl := (Fault.unreadable.inj (Except.error.inj h)).2
      obtain ⟨front, rest, htext, hoffset, hlayout, hnone, hfront⟩ :=
        exists_lexedBefore_of_stop hstop
      refine .character htext hfront hlayout (frontToken?_eq_none_iff.mp hnone)
        (viable_iff.mpr ⟨r, hread⟩) ?_
      rw [Position.follows_iff (c.value :: rest), ← htext, hoffset]
    | none =>
      rw [hstop] at h
      dsimp only at h
      cases hfinal : r.stage.isFinal with
      | true =>
        rw [if_pos hfinal] at h
        cases h
      | false =>
        rw [hfinal] at h
        obtain rfl := (Fault.unreadable.inj (Except.error.inj h)).2
        -- The list of no tokens is a whole one, so there is a last token.
        rcases List.eq_nil_or_concat (scan 0 text.toList).tokens with hnil | ⟨before, last, htokens⟩
        · rw [hnil] at hread
          cases hread
          cases hfinal
        · rw [List.concat_eq_append] at htokens
          obtain ⟨front, hoffset, hfound⟩ := foundBehind_of_tokens_eq htokens
          have hlexed := lexed_iff.mpr ⟨hstop, Eq.refl _⟩
          rw [htokens] at hread hlexed
          rw [List.map_append, List.map_singleton] at hread hlexed
          refine .ending hfound hlexed (viable_iff.mpr ⟨r, hread⟩) ?_ ?_
          · rw [← isFinal_iff_exists_derived hread, hfinal]
            exact Bool.false_ne_true
          · rw [hfound.follows_iff, htokens, List.getLast?_concat, Option.map_some,
              Option.getD_some, hoffset]

/-- A text is refused with the report that says what it is like. -/
theorem ofText_of_refused {text : String} {reason : ReadError}
    (h : Refused text.toList reason) : ofText text = .error (.unreadable text reason) := by
  simp only [ofText]
  cases h with
  | @token t front tokens place hfound hviable hstuck hplace =>
    obtain ⟨before, after, hbefore, htokens⟩ := hfound.scan_eq
    obtain ⟨r, hread⟩ := viable_iff.mp hviable
    have hnext := (feed?_eq_none_iff hread t).mpr hstuck
    rw [← hbefore] at hread
    have hrun := Reader.run_eq_error_iff.mpr ⟨before, after, r, htokens, hread, hnext⟩
    rw [hrun, hfound.follows_iff.mp hplace]
  | @ending last front tokens place hfound hlexed hviable hderived hplace =>
    obtain ⟨before, after, hbefore, htokens⟩ := hfound.scan_eq
    obtain ⟨hstop, hvalues⟩ := lexed_iff.mp hlexed
    obtain ⟨r, hread⟩ := viable_iff.mp hviable
    have hfinal := mt (isFinal_iff_exists_derived hread).mp hderived
    have hafter : after = [] := by
      rw [htokens, List.map_append, hbefore, List.append_cancel_left_eq] at hvalues
      exact List.map_eq_nil_iff.mp (List.cons.inj hvalues).2
    have hrun : Reader.initial.run (scan 0 text.toList).tokens = .ok r :=
      Reader.run_eq_ok_iff.mpr (hvalues ▸ hread)
    rw [hrun, hstop, htokens, hafter, List.getLast?_concat, Option.map_some, Option.getD_some,
      hfound.follows_iff.mp hplace]
    exact if_neg hfinal
  | @character c front rest tokens place htext hfront hlayout hnone hviable hplace =>
    obtain ⟨hvalues, hstop⟩ := hfront.scan_eq hlayout (frontToken?_eq_none_iff.mpr hnone)
    obtain ⟨r, hread⟩ := viable_iff.mp hviable
    rw [← htext] at hvalues hstop
    have hrun : Reader.initial.run (scan 0 text.toList).tokens = .ok r :=
      Reader.run_eq_ok_iff.mpr (hvalues ▸ hread)
    rw [hrun, hstop, (Position.follows_iff (c :: rest)).mp hplace, ← htext]

/-- A text is refused exactly if it is what the report says: the tokens in front of the place begin
some parameter list, and no list has behind them what stands there. -/
theorem ofText_refuses_earliest (text : String) (fault : Fault) :
    ofText text = .error fault ↔
      ∃ reason, fault = .unreadable text reason ∧ Refused text.toList reason := by
  constructor
  · intro h
    obtain ⟨reason, rfl⟩ := ofText_eq_error h
    exact ⟨reason, rfl, refused_of_ofText h⟩
  · rintro ⟨reason, rfl, hrefused⟩
    exact ofText_of_refused hrefused

/-- The end of a text is reported at its last token. -/
example :
    ofText "int a,\n Point " =
      .error (.unreadable "int a,\n Point " (.token none ⟨2, 2⟩)) := by
  decide +kernel

end OverloadDispatch.Signature
