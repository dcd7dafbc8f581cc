/-
JoosStatics.Logging.Level — how much is logged.

* `Level.name` — the name of a level.
* `Level.ofWord?` — the level that a word stands for; `ofWord?_name` says
  that it reads every name back.
-/
import JoosStatics.Text.Digits

namespace JoosStatics.Logging

/-- The levels, from silence to the most detailed. -/
inductive Level where
  | off | error | warn | info | debug | trace
  deriving DecidableEq, Repr, Inhabited

namespace Level

/-- Every level in order. -/
def all : List Level := [.off, .error, .warn, .info, .debug, .trace]

/-- The name of a level. -/
def name : Level → String
  | .off => "off"
  | .error => "error"
  | .warn => "warn"
  | .info => "info"
  | .debug => "debug"
  | .trace => "trace"

/-- The level with a given name, in any case. -/
def ofName? (text : String) : Option Level := all.find? (fun level => level.name == text.toLower)

/-- The level that a word stands for: by its place among the levels, or by its
name. -/
def ofWord? (text : String) : Option Level :=
  ((Text.unsigned? text.toList).bind (fun place => all[place]?)).or (ofName? text)

/-- Every level is read back from its name. -/
theorem ofWord?_name (level : Level) : ofWord? level.name = some level := by
  cases level <;> decide +kernel

end Level

end JoosStatics.Logging
