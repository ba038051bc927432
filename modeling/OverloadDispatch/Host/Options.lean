import OverloadDispatch.Host.Renderer

/-!
# Options of generated source

The options choose a dialect by name and may override its indentation and the host checks. Zero
and the empty text are choices like any other; only an absent option leaves the dialect's own. How
much memory there is for an indentation is not an option, so it is given beside them.
-/

namespace OverloadDispatch

/-- What the caller decides about generated source. -/
structure SourceOptions where
  /-- The name of the dialect. -/
  dialectName : String := Dialect.compiled.name
  /-- The level, if it is not the usual one. -/
  level : Option Int := none
  /-- The unit of indentation, if it is not the usual one. -/
  unit : Option String := none
  /-- The checks of the basic types. -/
  checks : HostTable := HostTable.standard
  deriving Repr

namespace SourceOptions

/-- The renderer that the options describe. -/
def renderer (o : SourceOptions) (capacity : Option Nat) : Except Fault Renderer := do
  let dialect ← Dialect.ofName o.dialectName
  return ⟨some dialect, o.unit.getD dialect.unit, o.level.getD dialect.level, o.checks, capacity⟩

/-- The renderer without a dialect that the options describe; the dialect's name is not read. -/
def bareRenderer (o : SourceOptions) (capacity : Option Nat) : Renderer :=
  ⟨none, o.unit.getD Dialect.compiled.unit, o.level.getD Dialect.compiled.level, o.checks, capacity⟩

end SourceOptions

/-- The renderer of a dialect with the dialect's own indentation and the standard checks, where
memory is not bounded. -/
def Dialect.ownRenderer (d : Dialect) : Renderer :=
  ⟨some d, d.unit, d.level, HostTable.standard, none⟩

/-- The source of a guard at the level of the options. -/
def Guard.source (g : Guard) (o : SourceOptions) (capacity : Option Nat) : Except Fault String := do
  (← o.renderer capacity).guardText g none

/-- The source of an entry point at the level of the options, or at level zero. -/
def Dispatcher.source (d : Dispatcher) (o : SourceOptions) (capacity : Option Nat) :
    Except Fault String := do
  (← o.renderer capacity).dispatcherText d (o.level.getD 0)

end OverloadDispatch
