import TrapStub.Text.Quoted
import TrapStub.Text.Word

/-!
# Options of the command line

* `OptionName`: the options, with their spellings and whether they take a value.
* `UsageError`: what can be wrong with a command line, and the wording of it.
* `Argument.read`: what one argument is, taken by itself. A long option may be cut short as long as
  one option only starts that way, and its value may follow an equals sign; a short option's value
  may follow it at once.
-/

namespace TrapStub

/-- The options. -/
inductive OptionName where
  | help
  | target
  | define
  | exclude
  | emptyHeader
  | annotate
  | guard
  | preamble
  | noComments
  | clangArg
  | dumpPlan
  | quiet
  | version
  deriving DecidableEq, Repr

namespace OptionName

/-- The spellings of all options, in the order in which they are listed. -/
def spellings : List (Text × OptionName) :=
  [("-h", help), ("--help", help), ("--target", target), ("-D", define), ("--exclude", exclude),
   ("--empty-header", emptyHeader), ("--annotation", annotate), ("--guard", guard),
   ("--preamble", preamble), ("--no-comments", noComments), ("--clang-arg", clangArg),
   ("--dump-plan", dumpPlan), ("-q", quiet), ("--quiet", quiet), ("--version", version)]

/-- The option with a spelling. -/
def ofSpelling? (spelling : Text) : Option OptionName := spellings.lookup spelling

/-- How an option is called in messages: by all its spellings. -/
def label (name : OptionName) : Text :=
  Text.join "/" ((spellings.filter (·.2 = name)).map (·.1))

/-- The option has a value. -/
def takesValue : OptionName → Bool
  | target | define | exclude | emptyHeader | annotate | guard | preamble | clangArg => true
  | help | noComments | dumpPlan | quiet | version => false

end OptionName

/-- What is wrong with a command line. -/
inductive UsageError where
  /-- An option cut short that several options start with. -/
  | ambiguous (argument : Text) (candidates : List Text)
  /-- An option without its value. -/
  | valueMissing (name : OptionName)
  /-- A value for an option that takes none. -/
  | valueIgnored (name : OptionName) (value : Text)
  /-- Operands that are missing. -/
  | operandsMissing (names : List Text)
  /-- Arguments that mean nothing. -/
  | unrecognized (arguments : List Text)
  deriving DecidableEq, Repr

/-- The wording of an error. -/
def UsageError.message : UsageError → Text
  | ambiguous argument candidates =>
    "ambiguous option: " ++ argument ++ " could match " ++ Text.join ", " candidates
  | valueMissing name => "argument " ++ name.label ++ ": expected one argument"
  | valueIgnored name value =>
    "argument " ++ name.label ++ ": ignored explicit argument " ++ Text.quote value
  | operandsMissing names => "the following arguments are required: " ++ Text.join ", " names
  | unrecognized arguments => "unrecognized arguments: " ++ Text.join " " arguments

/-- What one argument of the command line is. -/
inductive Argument where
  /-- What the program works on, or the value of an option. -/
  | operand (text : Text)
  /-- An option, by a spelling of one letter or of more, with what is attached to it: the text
  behind an equals sign, or behind the letter. -/
  | option (name : OptionName) (short : Bool) (attached : Option Text)
  /-- It looks like an option but is none. -/
  | unknown (text : Text)
  /-- All arguments behind it are operands. -/
  | separator
  deriving DecidableEq, Repr

namespace Argument

/-- The text in front of the first equals sign, and the text behind it if there is one. -/
def cutEquals (t : Text) : Text × Option Text :=
  match t.dropWhile (!·.is '=') with
  | [] => (t, none)
  | _ :: behind => (t.takeWhile (!·.is '='), some behind)

/-- The text is a negative number: digits, or digits behind a point, behind a minus sign. A line
feed may end it. -/
def isNegativeNumber (t : Text) : Bool :=
  let body := if Text.endsWith t [Glyph.newline] then t.dropLast else t
  match body with
  | minus :: rest =>
    let fraction := rest.dropWhile Glyph.isDigit
    minus.is '-' &&
      match fraction with
      | [] => !rest.isEmpty
      | point :: digits => point.is '.' && !digits.isEmpty && digits.all Glyph.isDigit
  | [] => false

/-- The text starts with two dashes. -/
def isLong (t : Text) : Bool := Text.startsWith t "--"

/-- The options that an argument may mean when it is no spelling itself, each with its spelling. -/
def candidates (t : Text) : List (Text × Argument) :=
  if isLong t then
    let (stem, value) := cutEquals t
    (OptionName.spellings.filter fun (spelling, _) => Text.startsWith spelling stem).map
      fun (spelling, name) => (spelling, option name false value)
  else
    (OptionName.spellings.filter fun (spelling, _) => spelling = t.take 2).map
      fun (spelling, name) => (spelling, option name true (some (t.drop 2)))

/-- An argument that is no option: a negative number or a text with a space is an operand. -/
def notOption (t : Text) : Argument :=
  if isNegativeNumber t || t.any (·.is ' ') then operand t else unknown t

/-- What an argument in front of any separator is. -/
def read (t : Text) : Except UsageError Argument :=
  if t = "--" then .ok separator
  else if !Text.startsWith t "-" || t.length = 1 then .ok (operand t)
  else
    let (stem, value) := cutEquals t
    match OptionName.ofSpelling? t, value, OptionName.ofSpelling? stem with
    | some name, _, _ => .ok (option name (!isLong t) none)
    | none, some value, some name => .ok (option name (!isLong stem) (some value))
    | none, _, _ =>
      match candidates t with
      | [] => .ok (notOption t)
      | [(_, argument)] => .ok argument
      | several => .error (.ambiguous t (several.map (·.1)))

/-- What the arguments of a command line are. -/
def readAll : List Text → Except UsageError (List Argument)
  | [] => .ok []
  | t :: rest =>
    if t = "--" then .ok (separator :: rest.map operand)
    else do
      let argument ← read t
      return argument :: (← readAll rest)

end Argument

end TrapStub
