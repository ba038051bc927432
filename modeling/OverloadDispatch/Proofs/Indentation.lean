import OverloadDispatch.Guard.Build
import OverloadDispatch.Host.Renderer
import OverloadDispatch.Host.Spelling
import OverloadDispatch.Proofs.Reading
import OverloadDispatch.QualifiedType.Spelling
import OverloadDispatch.Text.Row

/-!
# Indentation of generated code

The host reads a block off the indentation of its lines, so every line that announces a block has to
be followed by a deeper one. Each node of a guard is written as a block at its level: its parts are
written one level deeper behind the line that announces them. Only a list of coercions may be empty,
which would leave nothing behind `try`; a guard that is built of a signature has no empty one. The
lines around the guards of an entry point keep the rule, whatever overloads there are.
-/

namespace OverloadDispatch

open Text

/-! ## What is spliced into the code of declared signatures -/

/-- Everything that a host check splices into statements. -/
def HostCheck.spliced (check : HostCheck) : List String :=
  check.accepts ++ check.rejects ++ check.converter.toList

/-- Whether everything that the checks of a table splice in can open a line. -/
def HostTable.OpensLines (table : HostTable) : Prop :=
  ∀ entry ∈ table, ∀ s ∈ entry.2.spliced, OpensLine s

theorem HostTable.opensLines_standard : HostTable.standard.OpensLines := by
  unfold HostTable.OpensLines
  decide +kernel

/-- A check that is found splices in what can open a line. -/
theorem HostTable.OpensLines.check {table : HostTable} (htable : table.OpensLines)
    {t : QualifiedType} {check : HostCheck} (h : table.check t = .ok check) :
    ∀ s ∈ check.spliced, OpensLine s := by
  have hfound := HostTable.check_eq_ok_iff.mp h
  unfold HostTable.check? at hfound
  cases hcategory : t.category with
  | array =>
    rw [hcategory] at hfound
    obtain rfl := Option.some.inj hfound
    decide
  | basic =>
    rw [hcategory] at hfound
    obtain ⟨before, after, rfl, -⟩ := List.lookup_eq_some_iff.mp hfound
    exact htable _ (List.mem_append_right _ List.mem_cons_self)
  | wrapped =>
    rw [hcategory] at hfound
    cases hfound
  | void =>
    rw [hcategory] at hfound
    cases hfound

/-- Whether every part of the name of a type can open a line. -/
def QualifiedType.OpensLines (t : QualifiedType) : Prop := ∀ part ∈ t.components, OpensLine part

/-- A type of identifiers opens lines. -/
theorem QualifiedType.opensLines_of_isIdentifier {t : QualifiedType}
    (h : ∀ part ∈ t.components, isIdentifier part.toList = true) : t.OpensLines :=
  fun part hpart => opensLine_of_isIdentifier (h part hpart)

/-- The name on the host side opens a line if the parts of the name do. -/
theorem QualifiedType.OpensLines.hostSpelling {t : QualifiedType} (h : t.OpensLines) :
    OpensLine t.hostSpelling := by
  have hname : OpensLine t.name := h t.name (by simp [components])
  have hspaces : ∀ part ∈ t.namespaces.drop 1 ++ [t.name], OpensLine part := by
    intro part hpart
    refine h part ?_
    rcases List.mem_append.mp hpart with hspace | hlast
    · exact List.mem_append_left _ (List.mem_of_mem_drop hspace)
    · exact List.mem_append_right _ hlast
  unfold QualifiedType.hostSpelling
  cases t.category with
  | wrapped =>
    cases hparts : t.namespaces.drop 1 ++ [t.name] with
    | nil => exact absurd hparts (by simp)
    | cons first rest =>
      rw [hparts] at hspaces
      obtain ⟨hfirst, hrest⟩ := List.forall_mem_cons.mp hspaces
      exact opensLine_intercalate hfirst (by decide) fun part hpart => (hrest part hpart).onOneLine
  | array => exact (by decide : OpensLine arrayClass)
  | basic => exact hname
  | void => exact hname

namespace Signature

/-- Whether the names of the parameters can open a line, and those of their types as well. -/
def OpensLines (s : Signature) : Prop := ∀ p ∈ s, OpensLine p.name ∧ p.type.OpensLines

/-- The type that is drafted while a text is read opens lines. -/
theorem TypeDraft.opensLines_type (d : TypeDraft) : d.type.OpensLines := by
  have hword : ∀ word : Identifier, OpensLine word.text :=
    fun word => opensLine_of_isIdentifier word.valid
  unfold TypeDraft.type
  split
  · have hbehind : OnOneLine (String.join (d.words.map fun word => " " ++ word)) := by
      intro hnewline
      rw [String.toList_join] at hnewline
      obtain ⟨s, hs, hmem⟩ := List.mem_flatMap.mp hnewline
      obtain ⟨text, htext, rfl⟩ := List.mem_map.mp hs
      obtain ⟨word, -, rfl⟩ := List.mem_map.mp htext
      exact onOneLine_append.mpr ⟨by decide, (hword word).onOneLine⟩ hmem
    intro part hpart
    obtain rfl := List.mem_singleton.mp hpart
    exact OpensLine.append (by decide) hbehind
  · intro part hpart
    rcases List.mem_append.mp hpart with hscope | hlast
    · obtain ⟨word, -, rfl⟩ := List.mem_map.mp hscope
      exact hword word
    · obtain rfl := List.mem_singleton.mp hlast
      exact hword d.last

/-- A signature that is read opens lines. -/
theorem opensLines_of_ofText {text : String} {s : Signature} (h : ofText text = .ok s) :
    s.OpensLines := by
  obtain ⟨tokens, trees, -, -, rfl⟩ := ofText_eq_ok_iff.mp h
  intro p hp
  obtain ⟨tree, -, rfl⟩ := List.mem_map.mp hp
  exact ⟨opensLine_of_isIdentifier tree.name.valid, tree.draft.opensLines_type⟩

/-- So does its instance at types that do. -/
theorem OpensLines.expand {s : Signature} (h : s.OpensLines) {t : Substitution}
    (htarget : t.target.OpensLines) (hclass : ∀ c ∈ t.thisClass, c.OpensLines) :
    (s.expand t).OpensLines := by
  intro p hp
  obtain ⟨q, hq, rfl⟩ := List.mem_map.mp hp
  obtain ⟨hname, htype⟩ := h q hq
  refine ⟨hname, ?_⟩
  change (t.apply q.type).OpensLines
  unfold Substitution.apply
  split
  · exact htype
  · split
    · exact htarget
    · split
      · cases hthis : t.thisClass with
        | none => exact htype
        | some c => exact hclass c hthis
      · exact htype

end Signature

/-! ## Nodes are written as blocks -/

/-- A line as a row. -/
def Line.row (l : Line) : Row := ⟨l.depth, l.statement.text⟩

/-- A row announces a block where its statement does. -/
theorem Line.opens_row (l : Line) : l.row.opens = l.statement.opens :=
  l.statement.endsWithColon_text

/-- The text of lines is that of their rows. -/
theorem Line.blockText_eq_texts (unit : String) (lines : List Line) :
    Line.blockText unit lines = Row.texts unit (lines.map Line.row) := by
  unfold Line.blockText Row.texts
  rw [List.map_map]
  refine congrArg String.join (List.map_congr_left fun l _ => ?_)
  change indent unit l.depth ++ l.statement.text ++ "\n" = _
  rw [indent_eq_join]
  rfl

/-- A statement that announces nothing makes a block by itself. -/
theorem Line.block_simple (l : Line) (hopens : l.statement.opens = false)
    (h : ∀ s ∈ l.statement.spliced, OpensLine s) : Row.Block l.depth [l.row] :=
  .simple (l.statement.opensLine_text h) (l.opens_row.trans hopens)

/-- A statement that announces a block makes one with it. -/
theorem Line.block_compound (header : Line) (hopens : header.statement.opens = true)
    (h : ∀ s ∈ header.statement.spliced, OpensLine s) {body : List Row}
    (hbody : Row.Block (header.depth + 1) body) :
    Row.Block header.depth (header.row :: body) :=
  .compound (header.statement.opensLine_text h) (header.opens_row.trans hopens) hbody

mutual

/-- Whether a node makes a block: what it splices in can open a line, and where it announces
coercions there are some. -/
def Node.MakesBlock : Node → Prop
  | .noMatch _ => True
  | .raise exception _ => OpensLine exception
  | .ambiguityCheck _ onHit => onHit.MakesBlock
  | .arityCheck _ onMismatch => onMismatch.MakesBlock
  | .bindParams _ => True
  | .coerce name type => OpensLine name ∧ type.OpensLines
  | .coerceAll coercions onFailure =>
    coercions ≠ [] ∧ Node.MakeBlocks coercions ∧ onFailure.MakesBlock
  | .invoke _ names _ callee => ∀ s ∈ callee :: names, OpensLine s
  | .placeholder => True
  | .fragment _ => True

/-- Whether each of several nodes makes a block. -/
def Node.MakeBlocks : List Node → Prop
  | [] => True
  | node :: rest => node.MakesBlock ∧ Node.MakeBlocks rest

end

/-- A conversion announces nothing, and what it splices in can open a line. -/
theorem Dialect.conversion?_simple (d : Dialect) {name : String} {t : QualifiedType}
    {check : HostCheck} {statement : Statement} (hname : OpensLine name) (ht : t.OpensLines)
    (hconverter : ∀ s ∈ check.converter.toList, OpensLine s)
    (h : d.conversion? name t check = some statement) :
    statement.opens = false ∧ ∀ s ∈ statement.spliced, OpensLine s := by
  cases d with
  | compiled =>
    obtain ⟨-, hcast⟩ := Option.ite_none_right_eq_some.mp h
    obtain rfl := Option.some.inj hcast
    exact ⟨rfl, by simp [Statement.spliced, hname, ht.hostSpelling]⟩
  | interpreted =>
    obtain ⟨converter, hfound, rfl⟩ := Option.map_eq_some_iff.mp h
    have hopens := hconverter converter (by rw [hfound]; exact List.mem_cons_self)
    exact ⟨rfl, by simp [Statement.spliced, hname, hopens]⟩

namespace Renderer

variable {r : Renderer}

/-- Fetching a value, and the test that refuses it, are written as a block. -/
theorem block_tested {level : Nat} {name : String} (hname : OpensLine name) (test : Statement)
    (hopens : test.opens = true) (htest : ∀ s ∈ test.spliced, OpensLine s) :
    Row.Block level ([⟨level, 0, .fetch name⟩, ⟨level, 0, test⟩,
      ⟨level, 1, .raiseValue name⟩].map Line.row) := by
  have hfetch := Line.block_simple ⟨level, 0, .fetch name⟩ rfl
    (List.forall_mem_singleton.mpr hname)
  have hraise := Line.block_simple ⟨level, 1, .raiseValue name⟩ rfl (List.forall_mem_nil _)
  have hrefused := Line.block_compound ⟨level, 0, test⟩ hopens htest hraise
  exact hfetch.append hrefused

/-- A host check and the conversion behind it are written as a block. -/
theorem block_checkedLines (hchecks : r.checks.OpensLines) {level : Nat} {name : String}
    {t : QualifiedType} {lines : List Line} (hname : OpensLine name) (ht : t.OpensLines)
    (h : r.checkedLines level name t = .ok lines) : Row.Block level (lines.map Line.row) := by
  obtain ⟨check, hcheck, h⟩ := bind_eq_ok_iff.mp h
  obtain ⟨d, -, h⟩ := bind_eq_ok_iff.mp h
  obtain rfl := Except.ok.inj h
  obtain ⟨hclasses, hconverter⟩ := List.forall_mem_append.mp (hchecks.check hcheck)
  have hspliced : ∀ s ∈ (Statement.ifFails name check).spliced, OpensLine s :=
    List.forall_mem_cons.mpr ⟨hname, hclasses⟩
  have htested : Row.Block level _ := block_tested hname (.ifFails name check) rfl hspliced
  cases hconversion : d.conversion? name t check with
  | none => exact htested
  | some statement =>
    obtain ⟨hsimple, hconverted⟩ := d.conversion?_simple hname ht hconverter hconversion
    exact htested.append (Line.block_simple ⟨level, 0, statement⟩ hsimple hconverted)

/-- A coercion is written as a block. -/
theorem block_coercionLines (hchecks : r.checks.OpensLines) {level : Nat} {name : String}
    {t : QualifiedType} {lines : List Line} (hname : OpensLine name) (ht : t.OpensLines)
    (h : r.coercionLines level name t = .ok lines) : Row.Block level (lines.map Line.row) := by
  unfold coercionLines at h
  split at h
  · obtain ⟨d, -, h⟩ := bind_eq_ok_iff.mp h
    obtain rfl := Except.ok.inj h
    have hboth : ∀ s ∈ [name, t.hostSpelling], OpensLine s := by simp [hname, ht.hostSpelling]
    cases d with
    | compiled => exact Line.block_simple ⟨level, 0, .fetchChecked name t.hostSpelling⟩ rfl hboth
    | interpreted => exact block_tested hname (.ifNotInstance name t.hostSpelling) rfl hboth
  · exact block_checkedLines hchecks hname ht h

/-- The report of a match is written as a block. -/
theorem block_invokeLines {level : Nat} {index : Int} {names : List String} {isVoid : Bool}
    {callee : String} (h : ∀ s ∈ callee :: names, OpensLine s) :
    Row.Block level ((invokeLines level index names isVoid callee).map Line.row) := by
  cases isVoid with
  | true =>
    have hcall := Line.block_simple ⟨level, 0, .call callee index names⟩ rfl h
    have hmatch := Line.block_simple ⟨level, 0, .returnMatch⟩ rfl (List.forall_mem_nil _)
    exact hcall.append hmatch
  | false => exact Line.block_simple ⟨level, 0, .returnCall callee index names⟩ rfl h

mutual

/-- A node that makes a block is written as one. -/
theorem block_nodeLines (hchecks : r.checks.OpensLines) (level : Nat) (node : Node)
    {lines : List Line} (hnode : node.MakesBlock) (h : r.nodeLines level node = .ok lines) :
    Row.Block level (lines.map Line.row) := by
  unfold nodeLines at h
  obtain ⟨_, -, h⟩ := bind_eq_ok_iff.mp h
  cases node with
  | noMatch isVoid =>
    obtain rfl := Except.ok.inj h
    exact Line.block_simple ⟨level, 0, .returnNoMatch isVoid⟩ rfl (List.forall_mem_nil _)
  | raise exception message =>
    obtain rfl := Except.ok.inj h
    exact Line.block_simple ⟨level, 0, .raise exception message⟩ rfl
      (List.forall_mem_singleton.mpr hnode)
  | ambiguityCheck arities onHit =>
    obtain ⟨d, -, h⟩ := bind_eq_ok_iff.mp h
    obtain ⟨body, hbody, h⟩ := bind_eq_ok_iff.mp h
    obtain rfl := Except.ok.inj h
    exact Line.block_compound ⟨level, 0, .ifAmbiguous d.spaced arities⟩ rfl
      (List.forall_mem_nil _) (block_nodeLines hchecks (level + 1) onHit hnode hbody)
  | arityCheck arity onMismatch =>
    obtain ⟨d, -, h⟩ := bind_eq_ok_iff.mp h
    obtain ⟨body, hbody, h⟩ := bind_eq_ok_iff.mp h
    obtain rfl := Except.ok.inj h
    exact Line.block_compound ⟨level, 0, .ifArity d.spaced arity⟩ rfl
      (List.forall_mem_nil _) (block_nodeLines hchecks (level + 1) onMismatch hnode hbody)
  | bindParams names =>
    obtain rfl := Except.ok.inj h
    have hnames := Line.block_simple ⟨level, 0, .bindNames names⟩ rfl (List.forall_mem_nil _)
    have hpositional := Line.block_simple ⟨level, 0, .bindPositional⟩ rfl (List.forall_mem_nil _)
    have hkeywords := Line.block_simple ⟨level, 0, .bindKeywords⟩ rfl (List.forall_mem_nil _)
    exact hnames.append (hpositional.append hkeywords)
  | coerce name type => exact block_coercionLines hchecks hnode.1 hnode.2 h
  | coerceAll coercions onFailure =>
    obtain ⟨hne, hcoercions, hfailure⟩ := hnode
    obtain ⟨body, hbody, h⟩ := bind_eq_ok_iff.mp h
    obtain ⟨answer, hanswer, h⟩ := bind_eq_ok_iff.mp h
    obtain rfl := Except.ok.inj h
    have htry := Line.block_compound ⟨level, 0, .openTry⟩ rfl (List.forall_mem_nil _)
      (block_guardLines hchecks (level + 1) coercions hne hcoercions hbody)
    have hexcept := Line.block_compound ⟨level, 0, .openExcept⟩ rfl (List.forall_mem_nil _)
      (block_nodeLines hchecks (level + 1) onFailure hfailure hanswer)
    rw [List.map_append]
    exact htry.append hexcept
  | invoke index names isVoid callee =>
    obtain rfl := Except.ok.inj h
    exact block_invokeLines hnode
  | placeholder => cases h
  | fragment nodes => cases h

/-- Nodes that make blocks are written as one, unless there are none. -/
theorem block_guardLines (hchecks : r.checks.OpensLines) (level : Nat) (nodes : List Node)
    {lines : List Line} (hne : nodes ≠ []) (hnodes : Node.MakeBlocks nodes)
    (h : r.guardLines level nodes = .ok lines) : Row.Block level (lines.map Line.row) := by
  unfold guardLines at h
  cases nodes with
  | nil => exact absurd rfl hne
  | cons node rest =>
    obtain ⟨first, hfirst, h⟩ := bind_eq_ok_iff.mp h
    obtain ⟨others, hothers, h⟩ := bind_eq_ok_iff.mp h
    obtain rfl := Except.ok.inj h
    have hblock := block_nodeLines hchecks level node hnodes.1 hfirst
    cases rest with
    | nil =>
      obtain rfl := Except.ok.inj hothers
      rwa [List.append_nil]
    | cons next rest =>
      rw [List.map_append]
      exact hblock.append
        (block_guardLines hchecks level (next :: rest) (List.cons_ne_nil _ _) hnodes.2 hothers)

end

end Renderer

/-! ## Guards and entry points of declared signatures -/

theorem Node.makeBlocks_iff {nodes : List Node} :
    Node.MakeBlocks nodes ↔ ∀ node ∈ nodes, node.MakesBlock := by
  induction nodes with
  | nil => exact iff_of_true trivial (List.forall_mem_nil _)
  | cons node rest ih =>
    rw [List.forall_mem_cons, ← ih]
    rfl

/-- The check for calls that several signatures would take makes a block, if there is one. -/
theorem Guard.makeBlocks_ambiguity (signatures : List Signature) :
    Node.MakeBlocks (Guard.ambiguity signatures) := by
  have hexception : OpensLine "TypeError" := by decide
  unfold Guard.ambiguity
  split
  · trivial
  · exact ⟨hexception, trivial⟩

/-- The checks of a signature make a block, since coercions are listed only where there are some. -/
theorem Guard.makeBlocks_dispatch {s : Signature} (h : s.OpensLines) (isVoid : Bool) :
    Node.MakeBlocks (Guard.dispatch s isVoid) := by
  cases s with
  | nil => exact ⟨trivial, trivial⟩
  | cons p params =>
    have hcoercions : Node.MakeBlocks ((p :: params).map Guard.coercion) := by
      refine Node.makeBlocks_iff.mpr fun node hnode => ?_
      obtain ⟨q, hq, rfl⟩ := List.mem_map.mp hnode
      exact h q hq
    exact ⟨trivial, trivial, ⟨List.cons_ne_nil _ _, hcoercions, trivial⟩, trivial⟩

namespace Renderer

variable {r : Renderer} {level : Nat} {name callee : String}

theorem opensLine_resolverName (hname : OpensLine name) (index : Nat) :
    OpensLine (name ++ "_" ++ toString index) :=
  (hname.append (by decide)).append (onOneLine_toString_nat index)

/-- A resolver is written as a block. -/
theorem block_resolverLines (hchecks : r.checks.OpensLines) (hname : OpensLine name)
    (hcallee : OpensLine callee) {s : Signature} (hs : s.OpensLines) {isVoid : Bool} {index : Nat}
    {lines : List Line}
    (h : r.resolverLines level (Resolver.build name isVoid callee s index) = .ok lines) :
    Row.Block level (lines.map Line.row) := by
  obtain ⟨guard, hguard, h⟩ := bind_eq_ok_iff.mp h
  obtain ⟨report, hreport, h⟩ := bind_eq_ok_iff.mp h
  obtain rfl := Except.ok.inj h
  have hresolver : OpensLine (Resolver.build name isVoid callee s index).name :=
    opensLine_resolverName hname index
  have hinvoke : (Resolver.build name isVoid callee s index).invoke.MakesBlock := by
    refine List.forall_mem_cons.mpr ⟨hcallee, fun n hn => ?_⟩
    obtain ⟨p, hp, rfl⟩ := List.mem_map.mp hn
    exact (hs p hp).1
  have hchecked := block_guardLines hchecks (level + 1) _ (List.cons_ne_nil _ _)
    (Guard.makeBlocks_dispatch hs isVoid) hguard
  have hreported := block_nodeLines hchecks (level + 1) _ hinvoke hreport
  have hbody := hchecked.append hreported
  rw [← List.map_append] at hbody
  exact Line.block_compound ⟨level, 0, .defineResolver _⟩ rfl
    (List.forall_mem_singleton.mpr hresolver) hbody

/-- Resolvers that are written as blocks make up a block, unless there are none. -/
theorem block_resolversLines {resolvers : List Resolver}
    (hresolvers : ∀ resolver ∈ resolvers, ∀ lines, r.resolverLines level resolver = .ok lines →
      Row.Block level (lines.map Line.row))
    {lines : List Line} (h : r.resolversLines level resolvers = .ok lines) :
    lines = [] ∨ Row.Block level (lines.map Line.row) := by
  induction resolvers generalizing lines with
  | nil => exact .inl (Except.ok.inj h).symm
  | cons resolver rest ih =>
    obtain ⟨first, hfirst, h⟩ := bind_eq_ok_iff.mp h
    obtain ⟨others, hothers, h⟩ := bind_eq_ok_iff.mp h
    obtain rfl := Except.ok.inj h
    obtain ⟨hresolver, hrest⟩ := List.forall_mem_cons.mp hresolvers
    have hblock := hresolver first hfirst
    refine .inr ?_
    rcases ih hrest hothers with rfl | hblocks
    · rwa [List.append_nil]
    · rw [List.map_append]
      exact hblock.append hblocks

/-- The loop over the resolvers is written as a block, even over none. -/
theorem block_loopLines (isVoid : Bool) {names : List String} (h : ∀ n ∈ names, OpensLine n) :
    Row.Block level ((loopLines level isVoid names).map Line.row) := by
  refine Line.block_compound ⟨level, 0, .openLoop names⟩ rfl h ?_
  let inner : Int := (level + 1 : Nat)
  cases isVoid with
  | true =>
    have hleave := Line.block_simple ⟨inner, 1, .leave⟩ rfl (List.forall_mem_nil _)
    exact Line.block_compound ⟨inner, 0, .ifResolved⟩ rfl (List.forall_mem_nil _) hleave
  | false =>
    have hresolve := Line.block_simple ⟨inner, 0, .resolve⟩ rfl (List.forall_mem_nil _)
    have hleave := Line.block_simple ⟨inner, 1, .leaveWithResult⟩ rfl (List.forall_mem_nil _)
    have hmatched := Line.block_compound ⟨inner, 0, .ifMatched⟩ rfl (List.forall_mem_nil _) hleave
    exact hresolve.append hmatched

/-- A part that may be missing leaves the block behind it as it is. -/
theorem block_append_of_eq_nil_or {front : List Line} {back : List Row}
    (hfront : front = [] ∨ Row.Block level (front.map Line.row)) (hback : Row.Block level back) :
    Row.Block level (front.map Line.row ++ back) := by
  rcases hfront with rfl | hblock
  · exact hback
  · exact hblock.append hback

/-- An entry point is written as a block. -/
theorem block_dispatcherLines (hchecks : r.checks.OpensLines) (hname : OpensLine name)
    (hcallee : OpensLine callee) {signatures : List Signature}
    (hsignatures : ∀ s ∈ signatures, s.OpensLines) {isVoid : Bool} {lines : List Line}
    (h : r.dispatcherLines level (Dispatcher.build name signatures isVoid callee) = .ok lines) :
    Row.Block level (lines.map Line.row) := by
  obtain ⟨_, -, h⟩ := bind_eq_ok_iff.mp h
  obtain ⟨_, -, h⟩ := bind_eq_ok_iff.mp h
  obtain ⟨ambiguity, hambiguity, h⟩ := bind_eq_ok_iff.mp h
  obtain ⟨resolvers, hresolvers, h⟩ := bind_eq_ok_iff.mp h
  obtain ⟨_, -, h⟩ := bind_eq_ok_iff.mp h
  obtain rfl := Except.ok.inj h
  have hbuilt : ∀ resolver ∈ (Dispatcher.build name signatures isVoid callee).resolvers,
      ∃ s ∈ signatures, ∃ i, resolver = Resolver.build name isVoid callee s i := by
    intro resolver hmem
    obtain ⟨⟨s, i⟩, hs, rfl⟩ := List.mem_map.mp hmem
    exact ⟨s, List.fst_mem_of_mem_zipIdx hs, i, rfl⟩
  have hguard : ambiguity = [] ∨ Row.Block (level + 1) (ambiguity.map Line.row) := by
    by_cases hempty : Guard.ambiguity signatures = []
    · have hnone := hambiguity
      rw [Dispatcher.build, hempty] at hnone
      exact .inl (Except.ok.inj hnone).symm
    · exact .inr (block_guardLines hchecks (level + 1) _ hempty
        (Guard.makeBlocks_ambiguity signatures) hambiguity)
  have hblocks : resolvers = [] ∨ Row.Block (level + 1) (resolvers.map Line.row) := by
    refine block_resolversLines (fun resolver hmem lines hlines => ?_) hresolvers
    obtain ⟨s, hs, i, rfl⟩ := hbuilt resolver hmem
    exact block_resolverLines hchecks hname hcallee (hsignatures s hs) hlines
  have hnames : ∀ n ∈ (Dispatcher.build name signatures isVoid callee).resolvers.map Resolver.name,
      OpensLine n := by
    intro n hn
    obtain ⟨resolver, hmem, rfl⟩ := List.mem_map.mp hn
    obtain ⟨s, -, i, rfl⟩ := hbuilt resolver hmem
    exact opensLine_resolverName hname i
  let inner : Int := (level + 1 : Nat)
  have hraise : Row.Block (level + 1) [Line.row ⟨inner, 0, .raiseNoOverload name⟩] :=
    Line.block_simple ⟨inner, 0, .raiseNoOverload name⟩ rfl (List.forall_mem_nil _)
  have hloop := (block_loopLines isVoid hnames).append hraise
  have hbody := block_append_of_eq_nil_or hguard (block_append_of_eq_nil_or hblocks hloop)
  have hentry := Line.block_compound ⟨level, 0, .defineEntry name⟩ rfl
    (List.forall_mem_singleton.mpr hname) hbody
  simp only [List.cons_append, List.map_cons, List.map_append, List.map_nil, List.append_assoc]
  exact hentry

/-- Lines that make a block are written as an indented text. -/
theorem indented_blockText {unit : String} (hunit : IsIndentUnit unit) {lines : List Line}
    (h : Row.Block level (lines.map Line.row)) :
    Row.Indented unit level (Line.blockText unit lines) := by
  rw [Line.blockText_eq_texts]
  exact h.indented hunit

/-- A guard whose nodes make blocks is written as an indented text, unless it is empty. -/
theorem indented_guardText (hchecks : r.checks.OpensLines) (hunit : IsIndentUnit r.unit)
    {own : Option Int} (hown : own.getD r.level = level) {g : Guard} (hne : g ≠ [])
    (hg : Node.MakeBlocks g) {text : String} (h : r.guardText g own = .ok text) :
    Row.Indented r.unit level text := by
  obtain ⟨lines, hlines, h⟩ := bind_eq_ok_iff.mp h
  obtain rfl := Except.ok.inj h
  rw [hown] at hlines
  exact indented_blockText hunit (block_guardLines hchecks level g hne hg hlines)

/-- Entry points and guards of declared signatures obey the rule of indentation from their level on,
line by line, since no name and no spelling of a type breaks a line or begins with a blank. -/
theorem generated_code_indented (hchecks : r.checks.OpensLines) (hunit : IsIndentUnit r.unit)
    (level : Nat) (hname : OpensLine name) (hcallee : OpensLine callee)
    {signatures : List Signature} (hsignatures : ∀ s ∈ signatures, s.OpensLines) (isVoid : Bool) :
    (∀ text, r.dispatcherText (Dispatcher.build name signatures isVoid callee) level = .ok text →
      Row.Indented r.unit level text) ∧
    ∀ own : Option Int, own.getD r.level = level →
      (∀ text, Guard.ambiguity signatures ≠ [] →
        r.guardText (Guard.ambiguity signatures) own = .ok text →
        Row.Indented r.unit level text) ∧
      ∀ s ∈ signatures, ∀ text, r.guardText (Guard.dispatch s isVoid) own = .ok text →
        Row.Indented r.unit level text := by
  refine ⟨fun text h => ?_, fun own hown => ⟨fun text hne h => ?_, fun s hs text h => ?_⟩⟩
  · obtain ⟨lines, hlines, h⟩ := bind_eq_ok_iff.mp h
    obtain rfl := Except.ok.inj h
    have hblock := block_dispatcherLines hchecks hname hcallee hsignatures hlines
    exact indented_blockText hunit hblock
  · exact indented_guardText hchecks hunit hown hne (Guard.makeBlocks_ambiguity signatures) h
  · exact indented_guardText hchecks hunit hown (List.cons_ne_nil _ _)
      (Guard.makeBlocks_dispatch (hsignatures s hs) isVoid) h

/-- The entry point of an instantiated overload and of one without parameters is indented. -/
theorem instantiated_code_indented :
    ∃ declared target text,
      Signature.ofText "const T& value, unsigned char flag" = .ok declared ∧
      QualifiedType.ofSpelling "geometry::Point" = .ok target ∧
      dispatcherText ⟨some .interpreted, "  ", 0, HostTable.standard, none⟩
        (Dispatcher.build "f" [declared.expand ⟨"T", target, none⟩, []] false nativeCallee) 1 =
          .ok text ∧
      Row.Indented "  " 1 text := by
  let r : Renderer := ⟨some .interpreted, "  ", 0, HostTable.standard, none⟩
  let target : QualifiedType := ⟨"Point", ["geometry"], .wrapped, by decide⟩
  let declared : Signature :=
    [{ name := "value", type := ⟨"T", [], .wrapped, by decide⟩, isConst := true, isRef := true },
      { name := "flag", type := ⟨"unsigned char", [], .basic, by decide⟩ }]
  have hread : Signature.ofText "const T& value, unsigned char flag" = .ok declared :=
    eq_ok_of_toOption (by decide +kernel)
  have hspelled : QualifiedType.ofSpelling "geometry::Point" = .ok target :=
    eq_ok_of_toOption (by decide +kernel)
  have htarget : target.OpensLines := by
    refine QualifiedType.opensLines_of_isIdentifier fun part hpart => ?_
    rw [QualifiedType.components_of_ofSpelling hspelled] at hpart
    revert part
    decide +kernel
  have hexpanded := (Signature.opensLines_of_ofText hread).expand (t := ⟨"T", target, none⟩) htarget
    (by simp)
  have hsignatures : ∀ s ∈ [declared.expand ⟨"T", target, none⟩, []], Signature.OpensLines s := by
    simpa [Signature.OpensLines] using hexpanded
  have hunit : IsIndentUnit r.unit := ⟨by decide, .inl (by simp [r])⟩
  have hname : OpensLine "f" := opensLine_of_isIdentifier (by decide)
  have hcallee : OpensLine nativeCallee := opensLine_of_isIdentifier (by decide)
  obtain ⟨text, htext⟩ : ∃ text,
      dispatcherText ⟨some .interpreted, "  ", 0, HostTable.standard, none⟩
      (Dispatcher.build "f" [declared.expand ⟨"T", target, none⟩, []] false nativeCallee) 1 =
        .ok text := ⟨_, rfl⟩
  obtain ⟨hindented, -⟩ := generated_code_indented (r := r) HostTable.opensLines_standard hunit 1
    hname hcallee hsignatures false
  exact ⟨declared, target, text, hread, hspelled, htext, hindented text htext⟩

end Renderer

end OverloadDispatch
