import TrapStub.Text

/-!
# Settings

The settings of a run and their defaults.

* `Value`: what a setting is set to. A command line can leave an empty list where a text should be;
  what becomes of it depends on where the value is used.
* `Settings`: all settings, with `Settings.default`.
-/

namespace TrapStub

/-- What a setting is set to. -/
inductive Value where
  | text (text : Text)
  /-- An empty list, which is left of a value that was dropped as a separator. -/
  | dropped
  deriving DecidableEq, Repr

namespace Value

instance : Coe Text Value := ⟨text⟩

/-- The text of a value that is one. -/
def text? : Value → Option Text
  | text t => some t
  | dropped => none

/-- A value as it is printed: a list that is empty stands as its brackets. -/
def shown : Value → Text
  | text t => t
  | dropped => "[]"

/-- The value that an argument of the command line gives: a separator gives none. -/
def ofArgument (t : Text) : Value := if t = "--" then dropped else text t

end Value

/-- The settings of a run. -/
structure Settings where
  /-- The target types are laid out for. -/
  target : Value
  /-- Preprocessor definitions, each a name or a name with a value. -/
  defines : List Value
  /-- Names of header files that are not read. -/
  exclude : List Value
  /-- Headers that are provided empty. -/
  emptyHeaders : List Value
  /-- The macro that marks trap functions. -/
  marker : Value
  /-- Further arguments for the C parser. -/
  clangArgs : List Value
  /-- The include guard; made from the output's name if absent, empty or dropped. -/
  guard : Option Value
  /-- Text at the top of the output. -/
  preamble : Text
  /-- Header comments are copied. -/
  comments : Bool
  /-- Progress is printed. -/
  verbose : Bool
  deriving DecidableEq, Repr

/-- Some texts as values. -/
def Value.ofTexts (texts : List Text) : List Value := texts.map Value.text

/-- The settings that hold unless others are given. -/
def Settings.default : Settings where
  target := .text "thumbv7em-none-eabi"
  defines := Value.ofTexts ["SVCALL_AS_NORMAL_FUNCTION", "__STATIC_INLINE="]
  exclude := Value.ofTexts ["nrf_nvic.h"]
  emptyHeaders := Value.ofTexts ["nrf.h"]
  marker := .text "SVCALL"
  clangArgs := []
  guard := none
  preamble := []
  comments := true
  verbose := true

/-- The include guard that is asked for: a text that is not empty. -/
def Settings.guard? (settings : Settings) : Option Text :=
  (settings.guard.bind Value.text?).filter (!·.isEmpty)

end TrapStub
