import Mathlib.Data.List.Forall2
import OverloadDispatch.Proofs.Reading
import OverloadDispatch.Workspace

/-!
# Building callables and tables of texts

A callable is built of texts one by one: each is read and declared before the next one is looked at.
Behind the first declaration the name and the identity are known to be right, so from there on only
a text can be at fault, and the first one that is decides. A table is built in the same manner, row
by row. Nothing is built in part, and no identity is ever in conflict with itself.
-/

namespace OverloadDispatch

/-! ## The first fault of several computations -/

/-- Whether the first computation over a list that has no result ends with a fault. -/
def FailsFirst {ε α β : Type} (f : α → Except ε β) (xs : List α) (fault : ε) : Prop :=
  ∃ before x after, xs = before ++ x :: after ∧ (∀ y ∈ before, ∃ b, f y = .ok b) ∧
    f x = .error fault

/-- A computation has no fault exactly if it has a result. -/
theorem faultOf?_eq_none_iff {ε α : Type} {x : Except ε α} :
    faultOf? x = none ↔ ∃ a, x = .ok a := by
  cases x <;> simp [faultOf?]

/-- Several computations end with the fault of the first one that fails. -/
theorem mapM_eq_error_iff {ε α β : Type} {f : α → Except ε β} {xs : List α} {fault : ε} :
    xs.mapM f = .error fault ↔ FailsFirst f xs fault := by
  rw [← faultOf?_eq_some_iff, faultOf?_mapM, List.findSome?_map, List.findSome?_eq_some_iff]
  simp only [Function.comp_apply, faultOf?_eq_some_iff, faultOf?_eq_none_iff]
  constructor
  · rintro ⟨before, x, after, hxs, hx, hbefore⟩
    exact ⟨before, x, after, hxs, hbefore, hx⟩
  · rintro ⟨before, x, after, hxs, hbefore, hx⟩
    exact ⟨before, x, after, hxs, hx, hbefore⟩

/-- A computation that has a result is passed over. -/
theorem failsFirst_cons_of_ok {ε α β : Type} {f : α → Except ε β} {x : α} {y : β}
    (hx : f x = .ok y) {xs : List α} {fault : ε} :
    FailsFirst f (x :: xs) fault ↔ FailsFirst f xs fault := by
  rw [← mapM_eq_error_iff, ← mapM_eq_error_iff, List.mapM_cons, hx]
  cases xs.mapM f <;> simp [bind, Except.bind, pure, Except.pure]

/-- What is made of the results changes nothing of the first fault. -/
theorem failsFirst_map_iff {ε α β γ : Type} {f : α → Except ε β} {g : α → β → γ} {xs : List α}
    {fault : ε} :
    FailsFirst (fun x => (f x).map (g x)) xs fault ↔ FailsFirst f xs fault := by
  simp [FailsFirst, map_eq_ok_iff, map_eq_error_iff]

/-- Several computations have the results of each. -/
theorem mapM_eq_ok_iff_forall₂ {ε α β : Type} {f : α → Except ε β} {xs : List α} {ys : List β} :
    xs.mapM f = .ok ys ↔ List.Forall₂ (fun x y => f x = .ok y) xs ys := by
  rw [mapM_eq_ok_iff, ← List.forall₂_eq_eq_eq, List.forall₂_map_left_iff,
    List.forall₂_map_right_iff]

/-- Several computations have results exactly if each of them has one. -/
theorem exists_mapM_eq_ok_iff {ε α β : Type} {f : α → Except ε β} {xs : List α} :
    (∃ ys, xs.mapM f = .ok ys) ↔ ∀ x ∈ xs, ∃ y, f x = .ok y := by
  rw [← faultOf?_eq_none_iff, faultOf?_mapM, List.findSome?_map, List.findSome?_eq_none_iff]
  simp only [Function.comp_apply, faultOf?_eq_none_iff]

namespace Callable

variable {name : String} {inst : Option QualifiedType}

/-- The callable of an identity with the signatures that were declared, none of them
instantiated. -/
def ofSignatures (identity : Identity) (signatures : List Signature) : Callable where
  identity := some identity
  overloads := ⟨signatures, signatures⟩

/-- The first signature that is declared comes with the identity. -/
theorem add_first (hname : name ≠ "") (inst : Option QualifiedType) (s : Signature) :
    add {} name s inst false = .ok ⟨ofSignatures ⟨name, inst⟩ [s], true, []⟩ := by
  rw [add, declare, if_neg hname]
  rfl

/-- A further signature that is declared under the same identity is put behind the others. -/
theorem add_again (hname : name ≠ "") (signatures : List Signature) (s : Signature) :
    (ofSignatures ⟨name, inst⟩ signatures).add name s inst false =
      .ok ⟨ofSignatures ⟨name, inst⟩ (signatures ++ [s]), false, []⟩ := by
  have hknown : (ofSignatures ⟨name, inst⟩ signatures).identity = some ⟨name, inst⟩ := rfl
  rw [add, declare, if_neg hname, hknown]
  simp only [if_pos]
  rfl

/-- Behind the first declaration texts are added as they are read, up to one that cannot be. -/
theorem addTexts_ofSignatures (hname : name ≠ "") (signatures : List Signature)
    (texts : List String) :
    (ofSignatures ⟨name, inst⟩ signatures).addTexts name inst texts =
      (texts.mapM Signature.ofText).map fun others =>
        ofSignatures ⟨name, inst⟩ (signatures ++ others) := by
  induction texts generalizing signatures with
  | nil =>
    have hnone : [].mapM Signature.ofText = .ok [] := rfl
    rw [addTexts, hnone, Except.map, List.append_nil]
  | cons text texts ih =>
    rw [addTexts, List.mapM_cons]
    cases Signature.ofText text with
    | error fault => rfl
    | ok s =>
      change ((ofSignatures ⟨name, inst⟩ signatures).add name s inst false >>= _) = _
      rw [add_again hname]
      change addTexts _ name inst texts = _
      rw [ih]
      cases texts.mapM Signature.ofText with
      | error fault => rfl
      | ok others =>
        rw [Except.map, List.append_assoc]
        rfl

/-- Under an empty name nothing is built, and the first text is read before the name is looked
at. -/
theorem ofTexts_unnamed (text : String) (texts : List String) (inst : Option QualifiedType) :
    ofTexts "" (text :: texts) inst =
      (Signature.ofText text).bind fun _ => .error .unnamedCallable := by
  rw [ofTexts, addTexts]
  cases Signature.ofText text <;> rfl

/-- Under a name the texts are read one by one, and their signatures are held. -/
theorem ofTexts_named (hname : name ≠ "") (text : String) (texts : List String)
    (inst : Option QualifiedType) :
    ofTexts name (text :: texts) inst =
      ((text :: texts).mapM Signature.ofText).map (ofSignatures ⟨name, inst⟩) := by
  rw [ofTexts, addTexts, List.mapM_cons]
  cases Signature.ofText text with
  | error fault => rfl
  | ok s =>
    change (add {} name s inst false >>= _) = _
    rw [add_first hname]
    change (ofSignatures ⟨name, inst⟩ [s]).addTexts name inst texts = _
    rw [addTexts_ofSignatures hname]
    cases texts.mapM Signature.ofText <;> rfl

/-- Whether texts of which there is at least one are refused under a name with a fault. -/
inductive RefusedTexts (name : String) : List String → Fault → Prop where
  /-- The first text cannot be read. -/
  | first {text : String} {texts : List String} {fault : Fault} :
    Signature.ofText text = .error fault → RefusedTexts name (text :: texts) fault
  /-- The first text is read, and the name is empty. -/
  | unnamed {text : String} {texts : List String} {s : Signature} :
    Signature.ofText text = .ok s → name = "" → RefusedTexts name (text :: texts) .unnamedCallable
  /-- The first text is read, the name is not empty, and a later text cannot be read. -/
  | later {text : String} {texts : List String} {s : Signature} {fault : Fault} :
    Signature.ofText text = .ok s → name ≠ "" → FailsFirst Signature.ofText texts fault →
    RefusedTexts name (text :: texts) fault

variable {text : String} {texts : List String}

/-- A callable is built of texts exactly if it has a name and all of them are read, and it holds
what they are read as. -/
theorem ofTexts_cons_eq_ok_iff {c : Callable} :
    ofTexts name (text :: texts) inst = .ok c ↔ name ≠ "" ∧ ∃ signatures,
      List.Forall₂ (fun text s => Signature.ofText text = .ok s) (text :: texts) signatures ∧
        c = ofSignatures ⟨name, inst⟩ signatures := by
  by_cases hname : name = ""
  · subst hname
    rw [ofTexts_unnamed]
    cases Signature.ofText text <;> simp [Except.bind]
  · simp only [ofTexts_named hname, map_eq_ok_iff, mapM_eq_ok_iff_forall₂]
    constructor
    · rintro ⟨signatures, hread, rfl⟩
      exact ⟨hname, signatures, hread, rfl⟩
    · rintro ⟨-, signatures, hread, rfl⟩
      exact ⟨signatures, hread, rfl⟩

/-- The first text decides before anything else does. -/
theorem ofTexts_of_first {fault : Fault} (h : Signature.ofText text = .error fault) :
    ofTexts name (text :: texts) inst = .error fault := by
  rw [ofTexts, addTexts, h]
  rfl

/-- A callable is refused with the fault of the first text, of the name, or of a later text. -/
theorem ofTexts_cons_eq_error_iff {fault : Fault} :
    ofTexts name (text :: texts) inst = .error fault ↔ RefusedTexts name (text :: texts) fault := by
  constructor
  · intro h
    cases hfirst : Signature.ofText text with
    | error f =>
      obtain rfl := Except.error.inj (h.symm.trans (ofTexts_of_first hfirst))
      exact .first hfirst
    | ok s =>
      by_cases hname : name = ""
      · subst hname
        rw [ofTexts_unnamed, hfirst] at h
        obtain rfl := Except.error.inj h
        exact .unnamed hfirst rfl
      · rw [ofTexts_named hname, map_eq_error_iff, mapM_eq_error_iff,
          failsFirst_cons_of_ok hfirst] at h
        exact .later hfirst hname h
  · intro h
    cases h with
    | first hfirst => exact ofTexts_of_first hfirst
    | unnamed hfirst hname =>
      subst hname
      rw [ofTexts_unnamed, hfirst]
      rfl
    | later hfirst hname hlater =>
      rw [ofTexts_named hname, map_eq_error_iff, mapM_eq_error_iff, failsFirst_cons_of_ok hfirst]
      exact hlater

/-- A refusal is a text that cannot be read or a missing name, and no issue of the interface. -/
theorem RefusedTexts.ne_issue {fault : Fault} (h : RefusedTexts name texts fault) (issue : Issue) :
    fault ≠ .issue issue := by
  have hread {text : String} {fault : Fault} (h : Signature.ofText text = .error fault) :
      fault ≠ .issue issue := by
    obtain ⟨reason, rfl⟩ := Signature.ofText_eq_error h
    simp
  cases h with
  | first hfirst => exact hread hfirst
  | unnamed _ _ => simp
  | later _ _ hlater =>
    obtain ⟨_, text, _, _, _, htext⟩ := hlater
    exact hread htext

end Callable

namespace Workspace

/-- The callables of a table are built row by row. -/
theorem callablesOfTexts_eq_mapM (table : Table (List String)) :
    callablesOfTexts table =
      table.mapM fun row => (Callable.ofTexts row.1 row.2 none).map fun c => (row.1, c) := by
  induction table with
  | nil => rfl
  | cons row table ih =>
    rw [callablesOfTexts, List.mapM_cons, ih]
    cases Callable.ofTexts row.1 row.2 none <;> rfl

/-- A table is built with every row under its key, in order, or not at all. -/
theorem callablesOfTexts_eq_ok_iff {table : Table (List String)} {callables : Table Callable} :
    callablesOfTexts table = .ok callables ↔
      List.Forall₂ (fun row entry => entry.1 = row.1 ∧ Callable.ofTexts row.1 row.2 none = .ok entry.2)
        table callables := by
  rw [callablesOfTexts_eq_mapM, mapM_eq_ok_iff_forall₂]
  have hrow (row : String × List String) (entry : String × Callable) :
      ((Callable.ofTexts row.1 row.2 none).map fun c => (row.1, c)) = .ok entry ↔
        entry.1 = row.1 ∧ Callable.ofTexts row.1 row.2 none = .ok entry.2 := by
    rw [map_eq_ok_iff]
    constructor
    · rintro ⟨c, hc, rfl⟩
      exact ⟨rfl, hc⟩
    · rintro ⟨hkey, hc⟩
      exact ⟨entry.2, hc, by rw [← hkey]⟩
  simp only [hrow]

/-- A table is built exactly if the callable of every row is. -/
theorem exists_callablesOfTexts_eq_ok_iff {table : Table (List String)} :
    (∃ callables, callablesOfTexts table = .ok callables) ↔
      ∀ row ∈ table, ∃ c, Callable.ofTexts row.1 row.2 none = .ok c := by
  rw [callablesOfTexts_eq_mapM, exists_mapM_eq_ok_iff]
  simp [map_eq_ok_iff]

/-- A table is refused with the fault of the first row that fails. -/
theorem callablesOfTexts_eq_error_iff {table : Table (List String)} {fault : Fault} :
    callablesOfTexts table = .error fault ↔
      FailsFirst (fun row => Callable.ofTexts row.1 row.2 none) table fault := by
  rw [callablesOfTexts_eq_mapM, mapM_eq_error_iff, failsFirst_map_iff]

/-- Rows under distinct names are the table that is built. -/
theorem ofTexts_of_nodup {table : Table (List String)} (h : table.keys.Nodup) :
    ofTexts table = callablesOfTexts table := by
  have hall : Table.insertAll [] table = [] ++ table := Table.insertAll_of_nodup h
  rw [ofTexts, hall, List.nil_append]

/-- A callable of some texts is built exactly if its name is not empty and all of them are read,
and a table exactly if all its rows are. Otherwise the first text or row that fails decides the
fault. -/
theorem building_all_or_nothing (name : String) (inst : Option QualifiedType)
    (table : Table (List String)) :
    Callable.ofTexts name [] inst = .ok { identity := none, overloads := ⟨[], []⟩ } ∧
    (∀ text texts,
      (∀ c, Callable.ofTexts name (text :: texts) inst = .ok c ↔ name ≠ "" ∧ ∃ signatures,
        List.Forall₂ (fun text s => Signature.ofText text = .ok s) (text :: texts) signatures ∧
          c = .ofSignatures ⟨name, inst⟩ signatures) ∧
      ∀ fault, Callable.ofTexts name (text :: texts) inst = .error fault ↔
        Callable.RefusedTexts name (text :: texts) fault) ∧
    (∀ texts issue, Callable.ofTexts name texts inst ≠ .error (.issue issue)) ∧
    (∀ spelling, spelling.mapM QualifiedType.ofSpelling = .ok inst → ∀ texts,
      Callable.ofSpelledTexts name texts spelling = Callable.ofTexts name texts inst) ∧
    (table.keys.Nodup →
      (∀ callables, ofTexts table = .ok callables ↔
        List.Forall₂ (fun row entry =>
          entry.1 = row.1 ∧ Callable.ofTexts row.1 row.2 none = .ok entry.2) table callables) ∧
      ((∃ callables, ofTexts table = .ok callables) ↔
        ∀ row ∈ table, ∃ c, Callable.ofTexts row.1 row.2 none = .ok c) ∧
      ∀ fault, ofTexts table = .error fault ↔
        FailsFirst (fun row => Callable.ofTexts row.1 row.2 none) table fault) := by
  refine ⟨rfl, fun text texts => ⟨fun c => Callable.ofTexts_cons_eq_ok_iff,
    fun fault => Callable.ofTexts_cons_eq_error_iff⟩, ?_, ?_, ?_⟩
  · intro texts issue h
    cases texts with
    | nil => cases h
    | cons text texts => exact (Callable.ofTexts_cons_eq_error_iff.mp h).ne_issue issue rfl
  · intro spelling hspelling texts
    rw [Callable.ofSpelledTexts, hspelling]
    rfl
  · intro hkeys
    rw [ofTexts_of_nodup hkeys]
    exact ⟨fun callables => callablesOfTexts_eq_ok_iff, exists_callablesOfTexts_eq_ok_iff,
      fun fault => callablesOfTexts_eq_error_iff⟩

/-- Behind a row without texts comes one without a name, with a text in it that cannot be read. -/
def namelessRows : Table (List String) :=
  [("idle", []), ("", ["int a", "int"]), ("late", ["int"])]

/-- The missing name is found behind the first text of its row and before the later ones. -/
theorem namelessRows_refused :
    ofTexts namelessRows = .error .unnamedCallable ∧
      Callable.ofSpelledTexts "" ["int a", "int"] (some "gtsam::Point3") =
        .error .unnamedCallable := by
  have hspelled : ((some "gtsam::Point3").mapM QualifiedType.ofSpelling).toOption.isSome := by
    decide +kernel
  obtain ⟨inst, hinst⟩ := Option.isSome_iff_exists.mp hspelled
  have hread : (Signature.ofText "int a").toOption.isSome := by decide +kernel
  obtain ⟨s, hs⟩ := Option.isSome_iff_exists.mp hread
  have hrefused : Callable.RefusedTexts "" ["int a", "int"] .unnamedCallable :=
    .unnamed (eq_ok_of_toOption hs) rfl
  obtain ⟨-, hrow, -, -, htable⟩ := building_all_or_nothing "" none namelessRows
  obtain ⟨-, hspelledRow, -, hspelling, -⟩ := building_all_or_nothing "" inst namelessRows
  constructor
  · refine ((htable (by decide)).2.2 _).mpr
      ⟨[("idle", [])], ("", ["int a", "int"]), [("late", ["int"])], rfl, ?_, ?_⟩
    · intro row hmem
      obtain rfl := List.mem_singleton.mp hmem
      exact ⟨{}, rfl⟩
    · exact ((hrow "int a" ["int"]).2 _).mpr hrefused
  · rw [hspelling _ (eq_ok_of_toOption hinst)]
    exact ((hspelledRow "int a" ["int"]).2 _).mpr hrefused

end Workspace

end OverloadDispatch
