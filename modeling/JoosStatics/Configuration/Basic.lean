/-
JoosStatics.Configuration.Basic — the settings of the analyzer.

* `Configuration.ofText?` — from the text of a settings file. Unknown
  settings, values of the wrong form and settings given twice are refused;
  the table `logging` may be written below a header, as one value or with
  dotted keys, but only in one of these ways.
* `Configuration.ofJson?` — from JSON, with the same strictness.
* `Logging.filter` — the log filter that a level setting selects.
-/
import JoosStatics.Configuration.SettingsText
import JoosStatics.Json.Basic
import JoosStatics.Logging.Filter

namespace JoosStatics

/-- The settings of the log. -/
structure Logging where
  level : String := "warn"
  json : Bool := false
  deriving DecidableEq, Repr

/-- The settings of the analyzer. `includeStdlib` adds the library;
`collectAll` keeps checking other bodies after the first violation. -/
structure Configuration where
  includeStdlib : Bool := true
  collectAll : Bool := true
  logging : Logging := {}
  deriving DecidableEq, Repr

instance : Inhabited Configuration := ⟨{}⟩

/-! ## Settings as they are read -/

/-- How the table `logging` has been opened. -/
inductive LoggingForm where
  /-- By dotted keys; further ones may follow. -/
  | dotted
  /-- By a header or as one value; it may not be opened again. -/
  | closed
  deriving DecidableEq, Repr

/-- The settings given so far. `inLogging` is set below the header
`[logging]`. -/
structure Settings where
  includeStdlib : Option Bool := none
  collectAll : Option Bool := none
  level : Option String := none
  json : Option Bool := none
  loggingForm : Option LoggingForm := none
  inLogging : Bool := false

namespace Settings

open SettingsText (Key Value Item)

/-- Gives a setting that has no value yet. -/
def give {α : Type} (current : Option α) (value : α) : Option (Option α) :=
  match current with
  | none => some (some value)
  | some _ => none

/-- Gives a setting of the table `logging`. -/
def giveLogging (s : Settings) : Key × Value → Option Settings
  | (["level"], .text value) => do return { s with level := ← give s.level value }
  | (["json"], .flag value) => do return { s with json := ← give s.json value }
  | _ => none

/-- Gives the settings of the table `logging` as the array of its first
values; further items do not count. -/
def giveLoggingItems (s : Settings) : List Value → Option Settings
  | [] => some s
  | [.text level] => some { s with level := some level }
  | .text level :: .flag json :: _ => some { s with level := some level, json := some json }
  | _ => none

/-- Gives settings of the table `logging` in order. -/
def giveLoggings (s : Settings) : List (Key × Value) → Option Settings
  | [] => some s
  | entry :: rest => do (← s.giveLogging entry).giveLoggings rest

/-- Gives a setting outside every table. -/
def giveTop (s : Settings) : Key → Value → Option Settings
  | ["include_stdlib"], .flag value => do
    return { s with includeStdlib := ← give s.includeStdlib value }
  | ["collect_all"], .flag value => do return { s with collectAll := ← give s.collectAll value }
  | ["logging"], .table entries =>
    if s.loggingForm.isSome then none
    else { s with loggingForm := some .closed }.giveLoggings entries
  | ["logging"], .array items =>
    if s.loggingForm.isSome then none
    else { s with loggingForm := some .closed }.giveLoggingItems items
  | ["logging", name], value =>
    if s.loggingForm = some .closed then none
    else { s with loggingForm := some .dotted }.giveLogging ([name], value)
  | _, _ => none

/-- Takes a line into account. -/
def take (s : Settings) : Item → Option Settings
  | .header ["logging"] =>
    if s.loggingForm.isSome then none
    else some { s with loggingForm := some .closed, inLogging := true }
  | .header _ => none
  | .pair key value => if s.inLogging then s.giveLogging (key, value) else s.giveTop key value

/-- Takes lines into account in order. -/
def takeAll (s : Settings) : List Item → Option Settings
  | [] => some s
  | item :: rest => do (← s.take item).takeAll rest

/-- The configuration with the given settings; the others have their default. -/
def toConfiguration (s : Settings) : Configuration :=
  let base : Configuration := {}
  { includeStdlib := s.includeStdlib.getD base.includeStdlib
    collectAll := s.collectAll.getD base.collectAll
    logging := {
      level := s.level.getD base.logging.level
      json := s.json.getD base.logging.json } }

end Settings

namespace Configuration

/-- The configuration written in a settings file. -/
def ofText? (text : String) : Option Configuration := do
  let items ← SettingsText.read? text
  let settings ← Settings.takeAll {} items
  return settings.toConfiguration

/-- Whether an object has fields of the given names only. -/
def hasOnly (names : List String) (members : List (String × Json)) : Bool :=
  members.all (fun member => names.contains member.1)

/-- The settings of the log from JSON. -/
def loggingOfJson? (j : Json) : Option Logging := do
  let names := ["level", "json"]
  let members ← j.record? names 0
  if !hasOnly names members then none
  else
    let base : Logging := {}
    return {
      level := ← Json.defaulted members "level" base.level Json.str?
      json := ← Json.defaulted members "json" base.json Json.bool? }

/-- The configuration from JSON. -/
def ofJson? (j : Json) : Option Configuration := do
  let names := ["include_stdlib", "collect_all", "logging"]
  let members ← j.record? names 0
  if !hasOnly names members then none
  else
    let base : Configuration := {}
    return {
      includeStdlib := ← Json.defaulted members "include_stdlib" base.includeStdlib Json.bool?
      collectAll := ← Json.defaulted members "collect_all" base.collectAll Json.bool?
      logging := ← Json.defaulted members "logging" base.logging loggingOfJson? }

end Configuration

namespace Logging

/-- The filter that the level setting selects. Blanks around the setting do not
count; nothing means `warn`, and so does a setting that is no filter. A level
may also be called `warning`. -/
def filter (l : Logging) : Filter :=
  let text := Text.trimText l.level
  let warnings := Filter.ofDirectives [{ level := .warn }]
  if text.isEmpty || text.toLower == "warning" then warnings
  else (Filter.ofText? text).getD warnings

end Logging

end JoosStatics
