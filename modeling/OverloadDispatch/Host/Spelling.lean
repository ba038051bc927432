import OverloadDispatch.Host.Statement
import OverloadDispatch.Text.FirstWord

/-!
# How statements are spelled

A statement is written on one line if what is spliced into it can open one, since all other texts
appear in it as quoted literals. Its last character is fixed by its kind: the statements that
announce a block end with a colon, and no others do. Its first word is a word of the host language,
or the name to which it assigns or which it calls.
-/

namespace OverloadDispatch

open Text

namespace Statement

/-- Whether a statement announces a block. -/
def opens : Statement → Bool
  | ifAmbiguous _ _ => true
  | ifArity _ _ => true
  | openTry => true
  | openExcept => true
  | ifNotInstance _ _ => true
  | ifFails _ _ => true
  | defineEntry _ => true
  | defineResolver _ => true
  | openLoop _ => true
  | ifResolved => true
  | ifMatched => true
  | _ => false

/-- The texts that a statement holds as they are. -/
def spliced : Statement → List String
  | raise exception _ => [exception]
  | fetchChecked name className => [name, className]
  | fetch name => [name]
  | ifNotInstance name className => [name, className]
  | ifFails name check => name :: (check.accepts ++ check.rejects)
  | cast name typeName => [name, typeName]
  | convert name converter => [name, converter]
  | call callee _ names => callee :: names
  | returnCall callee _ names => callee :: names
  | defineEntry name => [name]
  | defineResolver name => [name]
  | openLoop names => names
  | _ => []

/-- Whether a text ends with a colon is told by its last part. -/
theorem endsWithColon_append {s t : String} {c : Char} (h : t.toList.getLast? = some c) :
    ((s ++ t).toList.getLast? == some ':') = (c == ':') := by
  rw [String.toList_append, List.getLast?_append, h]
  rfl

/-- A statement ends with a colon exactly if it announces a block. -/
theorem endsWithColon_text (s : Statement) :
    (s.text.toList.getLast? == some ':') = s.opens := by
  cases s with
  | ifAmbiguous spaced _ => cases spaced <;> exact endsWithColon_append (c := ':') (by decide)
  | ifArity spaced _ => cases spaced <;> exact endsWithColon_append (c := ':') (by decide)
  | returnNoMatch isVoid => cases isVoid <;> decide
  | ifNotInstance _ _ | ifFails _ _ | defineEntry _ | defineResolver _ | openLoop _ =>
    exact endsWithColon_append (c := ':') (by decide)
  | raise _ _ | fetchChecked _ _ | raiseValue _ | cast _ _ | convert _ _ | call _ _ _
  | raiseNoOverload _ =>
    exact endsWithColon_append (c := ')') (by decide)
  | returnCall callee index names =>
    have hcall : (nativeCall callee index names).toList.getLast? = some ')' := by
      simp [nativeCall, List.getLast?_append, List.getLast?_cons]
    exact endsWithColon_append hcall
  | fetch name =>
    have hslot : (slot name).toList.getLast? = some ']' := by
      simp [slot, List.getLast?_append, List.getLast?_cons]
    exact endsWithColon_append hslot
  | bindNames _ => exact endsWithColon_append (c := ']') (by decide)
  | _ => decide

/-- The native call opens a line and stays on it. -/
theorem opensLine_nativeCall {callee : String} {index : Int} {names : List String}
    (hcallee : OpensLine callee) (hnames : ∀ name ∈ names, OpensLine name) :
    OpensLine (nativeCall callee index names) := by
  have hvalues : ∀ value ∈ toString index :: names, OnOneLine value :=
    List.forall_mem_cons.mpr
      ⟨onOneLine_toString_int index, fun name hname => (hnames name hname).onOneLine⟩
  exact ((hcallee.append (by decide)).append (onOneLine_intercalate (by decide) hvalues)).append
    (by decide)

theorem onOneLine_slot (name : String) : OnOneLine (slot name) := by
  simp only [slot, onOneLine_append, onOneLine_quoted]
  decide

theorem opensLine_typeError (message : String) : OpensLine (typeError message) :=
  (OpensLine.append (by decide) (onOneLine_quoted message)).append (by decide)

theorem onOneLine_classes {classes : List String} (h : ∀ c ∈ classes, OpensLine c) :
    OnOneLine (HostCheck.classes classes) := by
  have hline : ∀ c ∈ classes, OnOneLine c := fun c hc => (h c hc).onOneLine
  unfold HostCheck.classes
  split
  · exact hline _ List.mem_cons_self
  · simp only [onOneLine_append]
    exact ⟨⟨by decide, onOneLine_intercalate (by decide) hline⟩, by decide⟩

theorem onOneLine_condition {check : HostCheck} {name : String}
    (h : ∀ t ∈ name :: (check.accepts ++ check.rejects), OpensLine t) :
    OnOneLine (check.condition name) := by
  obtain ⟨hname, hclasses⟩ := List.forall_mem_cons.mp h
  obtain ⟨haccepts, hrejects⟩ := List.forall_mem_append.mp hclasses
  have hline := hname.onOneLine
  unfold HostCheck.condition
  split <;> simp only [onOneLine_append, onOneLine_classes haccepts, onOneLine_classes hrejects,
    hline, and_true] <;> decide

/-- A statement is written on one line if everything that is spliced into it can open one. -/
theorem opensLine_text (s : Statement) (h : ∀ t ∈ s.spliced, OpensLine t) : OpensLine s.text := by
  have hnumbers (separator : String) (hseparator : OnOneLine separator) (numbers : List Int) :
      OnOneLine (integers separator numbers) := by
    refine onOneLine_intercalate hseparator fun s hs => ?_
    obtain ⟨n, -, rfl⟩ := List.mem_map.mp hs
    exact onOneLine_toString_int n
  cases s with
  | ifAmbiguous spaced arities =>
    cases spaced <;>
      exact (OpensLine.append (by decide) (hnumbers _ (by decide) arities)).append (by decide)
  | ifArity spaced arity =>
    cases spaced <;>
      exact (OpensLine.append (by decide) (onOneLine_toString_int arity)).append (by decide)
  | returnNoMatch isVoid => cases isVoid <;> decide
  | raise exception message =>
    have hexception := (h exception List.mem_cons_self).onOneLine
    exact (((OpensLine.append (by decide) hexception).append (by decide)).append
      (onOneLine_quoted message)).append (by decide)
  | bindNames names =>
    have hquoted : ∀ s ∈ names.map quoted, OnOneLine s := by simp
    exact (OpensLine.append (by decide) (onOneLine_intercalate (by decide) hquoted)).append
      (by decide)
  | fetchChecked name className =>
    have hclass := (h className (by simp [spliced])).onOneLine
    exact (((((h name List.mem_cons_self).append (by decide)).append hclass).append
      (by decide)).append (onOneLine_slot name)).append (by decide)
  | fetch name =>
    exact ((h name List.mem_cons_self).append (by decide)).append (onOneLine_slot name)
  | ifNotInstance name className =>
    have hname := (h name List.mem_cons_self).onOneLine
    have hclass := (h className (by simp [spliced])).onOneLine
    exact (((OpensLine.append (by decide) hname).append (by decide)).append hclass).append
      (by decide)
  | ifFails name check =>
    exact (OpensLine.append (by decide) (onOneLine_condition h)).append (by decide)
  | raiseValue name => exact opensLine_typeError name
  | cast name typeName =>
    have hname := h name List.mem_cons_self
    have htype := (h typeName (by simp [spliced])).onOneLine
    exact ((((hname.append (by decide)).append htype).append (by decide)).append
      hname.onOneLine).append (by decide)
  | convert name converter =>
    have hname := h name List.mem_cons_self
    have hconverter := (h converter (by simp [spliced])).onOneLine
    exact ((((hname.append (by decide)).append hconverter).append (by decide)).append
      hname.onOneLine).append (by decide)
  | call callee index names =>
    obtain ⟨hcallee, hnames⟩ := List.forall_mem_cons.mp h
    exact opensLine_nativeCall hcallee hnames
  | returnCall callee index names =>
    obtain ⟨hcallee, hnames⟩ := List.forall_mem_cons.mp h
    exact OpensLine.append (by decide) (opensLine_nativeCall hcallee hnames).onOneLine
  | defineEntry name | defineResolver name =>
    exact (OpensLine.append (by decide) (h name List.mem_cons_self).onOneLine).append (by decide)
  | openLoop names =>
    have hentries : ∀ s ∈ names.map (· ++ ","), OnOneLine s := by
      intro s hs
      obtain ⟨name, hname, rfl⟩ := List.mem_map.mp hs
      exact onOneLine_append.mpr ⟨(h name hname).onOneLine, by decide⟩
    exact (OpensLine.append (by decide) (onOneLine_intercalate (by decide) hentries)).append
      (by decide)
  | raiseNoOverload name => exact opensLine_typeError _
  | _ => decide

/-- The first word of a statement. -/
def leading : Statement → String
  | ifAmbiguous _ _ => "if"
  | ifArity _ _ => "if"
  | returnNoMatch _ => "return"
  | raise _ _ => "raise"
  | bindNames _ => "__names"
  | bindPositional => "__params"
  | bindKeywords => "__params"
  | openTry => "try"
  | openExcept => "except"
  | fetchChecked name _ => name
  | fetch name => name
  | ifNotInstance _ _ => "if"
  | ifFails _ _ => "if"
  | raiseValue _ => "raise"
  | cast name _ => name
  | convert name _ => name
  | call callee _ _ => callee
  | returnMatch => "return"
  | returnCall _ _ _ => "return"
  | defineEntry _ => "def"
  | defineResolver _ => "def"
  | openLoop _ => "for"
  | ifResolved => "if"
  | leave => "return"
  | resolve => "__matched"
  | ifMatched => "if"
  | leaveWithResult => "return"
  | raiseNoOverload _ => "raise"

/-- An assignment is led by the name in front of its first space. -/
theorem leads_assigned (name : String) {s : String} (h : s.toList.head? = some ' ') :
    Leads name (name ++ s) :=
  leads_append name ⟨' ', h, by decide⟩

theorem leads_nativeCall (callee : String) (index : Int) (names : List String) :
    Leads callee (nativeCall callee index names) :=
  ((leads_append callee ⟨'(', rfl, by decide⟩).append _).append _

/-- A statement begins with its first word, if that is an identifier. -/
theorem firstWord_text (s : Statement) (h : isIdentifier s.leading.toList = true) :
    firstWord s.text = s.leading := by
  cases s with
  | ifAmbiguous spaced arities =>
    cases spaced with
    | false =>
      have hif : Leads "if" "if len(kwargs)==0 and len(args)+len(kwargs) in [" := by decide
      exact ((hif.append _).append _).firstWord_eq h
    | true =>
      have hif : Leads "if" "if len(kwargs) == 0 and len(args) + len(kwargs) in [" := by decide
      exact ((hif.append _).append _).firstWord_eq h
  | ifArity spaced arity =>
    cases spaced with
    | false =>
      have hif : Leads "if" "if len(args)+len(kwargs) != " := by decide
      exact ((hif.append _).append _).firstWord_eq h
    | true =>
      have hif : Leads "if" "if len(args) + len(kwargs) != " := by decide
      exact ((hif.append _).append _).firstWord_eq h
  | returnNoMatch isVoid => cases isVoid <;> decide
  | raise exception message =>
    have hraise : Leads "raise" "raise " := by decide
    exact ((((hraise.append _).append _).append _).append _).firstWord_eq h
  | bindNames names =>
    have hnames : Leads "__names" "__names = [" := by decide
    exact ((hnames.append _).append _).firstWord_eq h
  | fetchChecked name className =>
    have hname : Leads name (name ++ " = <") := leads_assigned name rfl
    exact ((((hname.append _).append _).append _).append _).firstWord_eq h
  | fetch name =>
    have hname : Leads name (name ++ " = ") := leads_assigned name rfl
    exact (hname.append _).firstWord_eq h
  | ifNotInstance name className =>
    have hif : Leads "if" "if not isinstance(" := by decide
    exact ((((hif.append _).append _).append _).append _).firstWord_eq h
  | ifFails name check =>
    have hif : Leads "if" "if " := by decide
    exact ((hif.append _).append _).firstWord_eq h
  | raiseValue _ | raiseNoOverload _ =>
    have hraise : Leads "raise" "raise TypeError(" := by decide
    exact ((hraise.append _).append _).firstWord_eq h
  | cast name typeName =>
    have hname : Leads name (name ++ " = <") := leads_assigned name rfl
    exact ((((hname.append _).append _).append _).append _).firstWord_eq h
  | convert name converter =>
    have hname : Leads name (name ++ " = ") := leads_assigned name rfl
    exact ((((hname.append _).append _).append _).append _).firstWord_eq h
  | call callee index names => exact (leads_nativeCall callee index names).firstWord_eq h
  | returnCall callee index names =>
    have hreturn : Leads "return" "return True, " := by decide
    exact (hreturn.append _).firstWord_eq h
  | defineEntry _ | defineResolver _ =>
    have hdef : Leads "def" "def " := by decide
    exact ((hdef.append _).append _).firstWord_eq h
  | openLoop names =>
    have hfor : Leads "for" "for __resolve in (" := by decide
    exact ((hfor.append _).append _).firstWord_eq h
  | _ => decide

end Statement

end OverloadDispatch
