import SqlScan.Log

/-!
# Settings from variables

Two variables say the mode and the limit. Each is read on its own: one that is missing or cannot
be read leaves its setting at the default and does not touch the other, and one that cannot be read
is reported.
-/

namespace SqlScan.Settings

def modeVariable : String := "OPTI_SQL_LEX_MODE"

def limitVariable : String := "OPTI_SQL_MAX_ERRORS"

/-- The mode that a variable's value names, and a warning if it names none. -/
def modeOfValue (value : String) : Mode × List Event :=
  match Mode.ofText? value.toList with
  | some mode => (mode, [])
  | none => (default.mode, [.unknownMode modeVariable value])

/-- The limit that a variable's value says, and a warning if it says none. -/
def limitOfValue (value : String) : Option FaultLimit × List Event :=
  match FaultLimit.ofText value.toList with
  | .ok limit => (some limit, [])
  | .error fault => (default.limit, [.invalidLimit limitVariable value fault])

/-- The settings that some variables say, and the warnings about them, the mode's first. -/
def ofVariables (lookup : String → Option String) : Settings × List Event :=
  let mode := ((lookup modeVariable).map modeOfValue).getD (default.mode, [])
  let limit := ((lookup limitVariable).map limitOfValue).getD (default.limit, [])
  (⟨mode.1, limit.1⟩, mode.2 ++ limit.2)

end SqlScan.Settings
