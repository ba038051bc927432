import OverloadDispatch.Host.Leaf
import OverloadDispatch.Host.Options
import OverloadDispatch.Text.Unquoted

/-!
# Literals in generated code

The messages of exceptions and the names of parameters may be any texts. Generated code shows them
as quoted literals, which are faithful and stay on their line whatever the texts are. Which texts a
guard or an entry point shows is told by its steps without parts, and the texts are told apart by
the lines that show them.
-/

namespace OverloadDispatch

open Text

/-- The texts that a statement shows as literals. -/
def Statement.literals : Statement → List String
  | raise _ message => [message]
  | bindNames names => names
  | fetchChecked name _ => [name]
  | fetch name => [name]
  | raiseValue name => [name]
  | raiseNoOverload name => [noOverloadMessage name]
  | _ => []

/-- The texts that the lines of a step without parts show: the message of an exception, and the
names of the parameters that are bound or coerced. -/
def Node.literals : Node → List String
  | raise _ message => [message]
  | bindParams names => names
  | coerce name _ => [name]
  | _ => []

/-- Every one of joined texts stands somewhere in the whole. -/
theorem exists_intercalate_eq (separator : String) {s : String} {texts : List String}
    (h : s ∈ texts) :
    ∃ front back, String.intercalate separator texts = front ++ s ++ back := by
  induction texts with
  | nil => cases h
  | cons first rest ih =>
    rcases List.mem_cons.mp h with rfl | hrest
    · exact ⟨"", _, by rw [intercalate_cons, String.empty_append]⟩
    · obtain ⟨front, back, hsplit⟩ := ih hrest
      cases rest with
      | nil => cases hrest
      | cons second rest =>
        refine ⟨first ++ separator ++ front, back, ?_⟩
        rw [String.intercalate_cons_cons, hsplit]
        simp only [String.append_assoc]

/-- A text that a statement shows stands in it as a quoted literal. -/
theorem Statement.exists_text_eq_of_mem_literals {s : Statement} {text : String}
    (h : text ∈ s.literals) : ∃ front back, s.text = front ++ quoted text ++ back := by
  cases s with
  | raise exception message =>
    obtain rfl := List.mem_singleton.mp h
    exact ⟨"raise " ++ exception ++ "(", ")", rfl⟩
  | bindNames names =>
    have hmem : quoted text ∈ names.map quoted := List.mem_map_of_mem h
    obtain ⟨front, back, hsplit⟩ := exists_intercalate_eq ", " hmem
    refine ⟨"__names = [" ++ front, back ++ "]", ?_⟩
    change "__names = [" ++ String.intercalate ", " (names.map quoted) ++ "]" = _
    simp only [hsplit, String.append_assoc]
  | fetchChecked name className =>
    obtain rfl := List.mem_singleton.mp h
    refine ⟨text ++ " = <" ++ className ++ "?>(" ++ "__params[", "]" ++ ")", ?_⟩
    change text ++ " = <" ++ className ++ "?>(" ++ ("__params[" ++ quoted text ++ "]") ++ ")" = _
    simp only [String.append_assoc]
  | fetch name =>
    obtain rfl := List.mem_singleton.mp h
    refine ⟨text ++ " = " ++ "__params[", "]", ?_⟩
    change text ++ " = " ++ ("__params[" ++ quoted text ++ "]") = _
    simp only [String.append_assoc]
  | raiseValue name =>
    obtain rfl := List.mem_singleton.mp h
    exact ⟨"raise TypeError(", ")", rfl⟩
  | raiseNoOverload name =>
    obtain rfl := List.mem_singleton.mp h
    exact ⟨"raise TypeError(", ")", rfl⟩
  | _ => cases h

/-- A line holds the literals of the texts that its statement shows. -/
theorem Line.exists_text_eq_of_mem_literals (unit : String) {l : Line} {text : String}
    (h : text ∈ l.statement.literals) :
    ∃ front back, l.text unit = front ++ quoted text ++ back := by
  obtain ⟨front, back, hsplit⟩ := Statement.exists_text_eq_of_mem_literals h
  refine ⟨indent unit l.depth ++ front, back, ?_⟩
  rw [Line.text, hsplit]
  simp only [String.append_assoc]

/-- Lines of names behind the same indentation are equal exactly if the names are. -/
theorem Line.text_bindNames_eq_iff {unit : String} {l m : Line} {names others : List String}
    (hl : l.statement = .bindNames names) (hm : m.statement = .bindNames others)
    (hindent : indent unit l.depth = indent unit m.depth) :
    l.text unit = m.text unit ↔ names = others := by
  rw [Line.text, Line.text, hindent, String.append_right_inj, hl, hm]
  constructor
  · intro h
    change "__names = [" ++ String.intercalate ", " (names.map quoted) ++ "]" =
      "__names = [" ++ String.intercalate ", " (others.map quoted) ++ "]" at h
    exact intercalate_quoted_inj ((String.append_right_inj _).mp ((String.append_left_inj _).mp h))
  · rintro rfl
    rfl

/-- The lines of a guard show the texts of its steps. -/
theorem Renderer.reflects_literals (text : String) :
    Reflects (fun s => text ∈ s.literals) (fun node => text ∈ node.literals) where
  frame s hs := by cases s <;> simp [Statement.isFrame, Statement.literals] at hs ⊢
  noMatch isVoid := Iff.rfl
  raise exception message := Iff.rfl
  bindParams names := by simp [Statement.literals, Node.literals]
  wrapped d level name t _ := by
    cases d <;> simp [Dialect.wrappedLines, Statement.literals, Node.literals]
  checked name t check _ := by simp [Statement.literals, Node.literals]
  conversion name other := ⟨List.not_mem_nil, List.not_mem_nil⟩
  invoke level index names isVoid callee := by
    cases isVoid <;> simp [invokeLines, Statement.literals, Node.literals]

/-- Every text is shown faithfully, on one line, by the literal that is made of it, and the lines of
guards and entry points show the texts of their nodes and nothing else. -/
theorem Renderer.literals_show_texts (r : Renderer) :
    (∀ text : String, Shows (quoted text).toList text.toList) ∧
    (∀ l : Line, ∀ text ∈ l.statement.literals,
      ∃ front back, l.text r.unit = front ++ quoted text ++ back) ∧
    (∀ level g lines, r.guardLines level g = .ok lines → ∀ text : String,
      Line.Hold (fun s => text ∈ s.literals) lines ↔
        ∃ leaf ∈ Node.leavesAll g, text ∈ leaf.literals) ∧
    (∀ level d lines, r.dispatcherLines level d = .ok lines → ∀ text : String,
      Line.Hold (fun s => text ∈ s.literals) lines ↔
        (∃ leaf ∈ d.leaves, text ∈ leaf.literals) ∨ text = Statement.noOverloadMessage d.name) ∧
    ∀ (l m : Line) (names others : List String), l.statement = .bindNames names →
      m.statement = .bindNames others →
      Line.indent r.unit l.depth = Line.indent r.unit m.depth →
      (l.text r.unit = m.text r.unit ↔ names = others) := by
  refine ⟨fun text => ?_, fun l text htext => ?_, fun level g lines h text => ?_,
    fun level d lines h text => ?_, fun l m names others hl hm hindent => ?_⟩
  · rw [toList_quoted]
    exact shows_quoteChars text.toList
  · exact Line.exists_text_eq_of_mem_literals r.unit htext
  · exact (reflects_literals text).hold_guardLines g h
  · rw [(reflects_literals text).hold_dispatcherLines h]
    simp only [Statement.literals, List.mem_singleton]
  · exact Line.text_bindNames_eq_iff hl hm hindent

/-- An entry point whose texts hold marks, a separator and a line feed. -/
def Dispatcher.awkward : Dispatcher where
  name := "f"
  isVoid := false
  ambiguity := [.bindParams ["a', 'b"], .raise "ValueError" "it's\nlate"]
  resolvers := []

/-- A name that holds a separator is not taken for two, and a message with a line feed is shown. -/
theorem Renderer.awkward_texts_shown :
    (∃ lines,
      Dialect.interpreted.ownRenderer.guardLines 1 Dispatcher.awkward.ambiguity = .ok lines ∧
      Line.Hold (fun s => "it's\nlate" ∈ s.literals) lines) ∧
    (∃ lines, Dialect.interpreted.ownRenderer.dispatcherLines 0 Dispatcher.awkward = .ok lines ∧
      Line.Hold (fun s => Statement.noOverloadMessage "f" ∈ s.literals) lines) ∧
    (⟨1, 0, .bindNames ["a', 'b"]⟩ : Line).text "    " ≠
      (⟨1, 0, .bindNames ["a", "b"]⟩ : Line).text "    " := by
  obtain ⟨-, -, hguard, hentry, hnames⟩ := literals_show_texts Dialect.interpreted.ownRenderer
  refine ⟨⟨_, rfl, ?_⟩, ⟨_, rfl, ?_⟩, ?_⟩
  · exact (hguard 1 Dispatcher.awkward.ambiguity _ rfl _).mpr
      ⟨.raise "ValueError" "it's\nlate", by simp [Dispatcher.awkward, Node.leavesAll, Node.leaves],
        List.mem_singleton.mpr rfl⟩
  · exact (hentry 0 Dispatcher.awkward _ rfl _).mpr (.inr rfl)
  · intro h
    have heq := (hnames ⟨1, 0, .bindNames ["a', 'b"]⟩ ⟨1, 0, .bindNames ["a", "b"]⟩ _ _ rfl rfl
      rfl).mp h
    exact absurd heq (by decide)

end OverloadDispatch
