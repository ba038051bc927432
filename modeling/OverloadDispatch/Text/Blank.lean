/-!
# Blank characters around a spelling

Blank characters are the white space of Unicode together with the four information separators.
A spelling loses them at both ends and keeps those that stand inside it: it is what is left with
blanks around it, and what is left has none at its ends.
-/

namespace OverloadDispatch.Text

/-- The blank characters, by their code points. -/
def isBlank (c : Char) : Bool :=
  let n := c.toNat
  (0x09 ≤ n && n ≤ 0x0D) || (0x1C ≤ n && n ≤ 0x20) || n == 0x85 || n == 0xA0 || n == 0x1680 ||
    (0x2000 ≤ n && n ≤ 0x200A) || n == 0x2028 || n == 0x2029 || n == 0x202F || n == 0x205F ||
    n == 0x3000

/-- A text without the blank characters at its two ends. -/
def strip (s : List Char) : List Char :=
  ((s.dropWhile isBlank).reverse.dropWhile isBlank).reverse

/-- Dropping leaves nothing exactly when every element is dropped. -/
theorem dropWhile_isBlank_eq_nil_iff {s : List Char} :
    s.dropWhile isBlank = [] ↔ ∀ c ∈ s, isBlank c = true := by
  induction s with
  | nil => simp
  | cons c rest ih => by_cases h : isBlank c = true <;> simp_all

/-- Nothing is left of a text exactly when it holds blank characters only. -/
theorem strip_eq_nil_iff {s : List Char} : strip s = [] ↔ ∀ c ∈ s, isBlank c = true := by
  rw [strip, List.reverse_eq_nil_iff, dropWhile_isBlank_eq_nil_iff]
  constructor
  · intro h c hc
    rw [← List.takeWhile_append_dropWhile (p := isBlank) (l := s), List.mem_append] at hc
    rcases hc with hc | hc
    · exact List.all_eq_true.mp List.all_takeWhile c hc
    · exact h c (List.mem_reverse.mpr hc)
  · intro h c hc
    exact h c ((List.dropWhile_sublist _).mem (List.mem_reverse.mp hc))

/-- Whether no blank stands at the ends of a text. -/
def Bare (s : List Char) : Prop :=
  ∀ c, s.head? = some c ∨ s.getLast? = some c → isBlank c = false

/-- A text whose characters are not blank is bare. -/
theorem bare_of_forall {s : List Char} (h : ∀ c ∈ s, isBlank c = false) : Bare s := by
  rintro c (hhead | hlast)
  · exact h c (List.mem_of_head? hhead)
  · exact h c (List.mem_of_getLast? hlast)

/-- Blanks are dropped up to the first character that is none. -/
theorem dropWhile_isBlank_append {front s : List Char} (hfront : ∀ c ∈ front, isBlank c = true)
    (hs : ∀ c, s.head? = some c → isBlank c = false) : (front ++ s).dropWhile isBlank = s := by
  rw [List.dropWhile_append_of_pos hfront]
  cases s with
  | nil => rfl
  | cons c s => exact List.dropWhile_cons_of_neg (by simp [hs c rfl])

/-- Stripping takes off the blanks around a bare text and nothing else. -/
theorem strip_append {front s back : List Char} (hfront : ∀ c ∈ front, isBlank c = true)
    (hs : Bare s) (hback : ∀ c ∈ back, isBlank c = true) : strip (front ++ (s ++ back)) = s := by
  cases s with
  | nil =>
    rw [List.nil_append, strip_eq_nil_iff]
    exact List.forall_mem_append.mpr ⟨hfront, hback⟩
  | cons c s =>
    have hhead : ∀ d, (c :: s ++ back).head? = some d → isBlank d = false :=
      fun d hd => hs d (.inl hd)
    have hlast : ∀ d, (c :: s).reverse.head? = some d → isBlank d = false :=
      fun d hd => hs d (.inr (List.head?_reverse ▸ hd))
    have hback' : ∀ d ∈ back.reverse, isBlank d = true :=
      fun d hd => hback d (List.mem_reverse.mp hd)
    rw [strip, dropWhile_isBlank_append hfront hhead, List.reverse_append,
      dropWhile_isBlank_append hback' hlast, List.reverse_reverse]

/-- A text is what is left of it when it is stripped, with blanks around it. -/
theorem exists_eq_strip (s : List Char) :
    ∃ front back, s = front ++ (strip s ++ back) ∧ (∀ c ∈ front, isBlank c = true) ∧
      (∀ c ∈ back, isBlank c = true) ∧ Bare (strip s) := by
  let inner := s.dropWhile isBlank
  have htake (t : List Char) : ∀ c ∈ t.takeWhile isBlank, isBlank c = true :=
    List.all_eq_true.mp List.all_takeWhile
  have hinner : inner = strip s ++ (inner.reverse.takeWhile isBlank).reverse := by
    rw [strip, ← List.reverse_append, List.takeWhile_append_dropWhile, List.reverse_reverse]
  refine ⟨s.takeWhile isBlank, (inner.reverse.takeWhile isBlank).reverse, ?_, htake s, ?_, ?_⟩
  · rw [← hinner, List.takeWhile_append_dropWhile]
  · exact fun c hc => htake _ c (List.mem_reverse.mp hc)
  · rintro c (hhead | hlast)
    · have hfirst : inner.head? = some c := by rw [hinner, List.head?_append, hhead]; rfl
      have hnot := List.head?_dropWhile_not isBlank s
      rw [show s.dropWhile isBlank = inner from rfl, hfirst] at hnot
      exact hnot
    · rw [strip, List.getLast?_reverse] at hlast
      have hnot := List.head?_dropWhile_not isBlank inner.reverse
      rw [hlast] at hnot
      exact hnot

/-- A bare text is left as it is. -/
theorem strip_of_bare {s : List Char} (h : Bare s) : strip s = s := by
  have hnil : ∀ c ∈ ([] : List Char), isBlank c = true := List.forall_mem_nil _
  simpa using strip_append hnil h hnil

/-- Stripping twice takes off no more than stripping once. -/
theorem strip_strip (s : List Char) : strip (strip s) = strip s := by
  obtain ⟨_, _, -, -, -, hbare⟩ := exists_eq_strip s
  exact strip_of_bare hbare

/-- What is left of a text stands in it as it is. -/
theorem strip_isPart (s : List Char) : strip s <:+: s := by
  obtain ⟨front, back, hs, -⟩ := exists_eq_strip s
  exact ⟨front, back, by rw [List.append_assoc, ← hs]⟩

end OverloadDispatch.Text
