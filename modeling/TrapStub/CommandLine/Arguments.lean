import TrapStub.CommandLine.Option
import TrapStub.Settings

/-!
# Reading the command line

Options and operands may stand in any order. A value follows its option, in the same argument or in
the next one; short options without values may share an argument. The operands are the directory to
read and the file to write.

* `Expansion.ofOption`: the options that one argument stands for.
* `Request.ofArguments`: the command line as a request, or what stops it.
* `Request.settings`: the settings it asks for.
-/

namespace TrapStub

/-- What stops the program before it does anything. -/
inductive Stop where
  | usage (error : UsageError)
  | version
  | help
  deriving DecidableEq, Repr

/-- The options that one argument stands for. -/
structure Expansion where
  /-- Options without value. -/
  flags : List OptionName
  /-- The option with a value that ends the argument, and the value if the argument has it. -/
  valued : Option (OptionName × Option Text)
  deriving DecidableEq, Repr

namespace Expansion

/-- One option. -/
def single (name : OptionName) : Expansion :=
  if name.takesValue then ⟨[], some (name, none)⟩ else ⟨[name], none⟩

/-- An option with the value attached to it. -/
def withValue (name : OptionName) (value : Text) : Expansion := ⟨[], some (name, some value)⟩

/-- This expansion behind one more option without value. -/
def behind (name : OptionName) (more : Expansion) : Expansion :=
  { more with flags := name :: more.flags }

/-- An option with the text attached to it. Behind a short option without value, the text holds
further short options. -/
def ofText (name : OptionName) (short : Bool) : Text → Except UsageError Expansion
  | [] => if name.takesValue then .ok (withValue name []) else .error (.valueIgnored name [])
  | letter :: rest =>
    if name.takesValue then .ok (withValue name (letter :: rest))
    else match if short then OptionName.ofSpelling? [.char '-', letter] else none, rest with
      | none, _ => .error (.valueIgnored name (letter :: rest))
      | some next, [] => .ok (behind name (single next))
      | some next, g :: more => behind name <$> ofText next true (g :: more)

/-- The options of an option argument. -/
def ofOption (name : OptionName) (short : Bool) : Option Text → Except UsageError Expansion
  | none => .ok (single name)
  | some attached => ofText name short attached

end Expansion

/-- What a command line asks for. -/
structure Request where
  /-- The operands in order. -/
  operands : List Value
  /-- The options in order; those without value have an empty one. -/
  options : List (OptionName × Value)
  /-- Arguments that mean nothing. -/
  unknown : List Text
  deriving DecidableEq, Repr

namespace Request

/-- The names of the operands in messages. -/
def operandNames : List Text := ["SRC_DIR", "OUTPUT"]

/-- The request before any argument is read. -/
def empty : Request := ⟨[], [], []⟩

/-- There is room for another operand. -/
def hasRoom (r : Request) : Bool := r.operands.length < operandNames.length

/-- The request with one more operand; one too many means nothing. -/
def addOperand (r : Request) (value : Value) (text : Text) : Request :=
  if r.hasRoom then { r with operands := r.operands ++ [value] }
  else { r with unknown := r.unknown ++ [text] }

/-- The request with one more option. -/
def addOption (r : Request) (name : OptionName) (value : Text) : Except Stop Request :=
  match name with
  | .version => .error .version
  | .help => .error .help
  | _ => .ok { r with options := r.options ++ [(name, .ofArgument value)] }

/-- The text of an operand. -/
def operandText : Argument → Text
  | .operand t => t
  | _ => []

/-- The request with the operands behind a separator. The separator itself goes with the operand
next to it (`beside`: the one in front of it); where there is none, it means nothing. Any further
separator in the place of an operand is dropped, but not the one that the first has gone with. -/
def addSeparated (r : Request) (beside : Bool) (rest : List Text) : Request :=
  let addAll (r : Request) (rest : List Text) :=
    rest.foldl (fun r t => r.addOperand (.ofArgument t) t) r
  match rest with
  | [] => if beside then r else { r with unknown := r.unknown ++ [("--" : Text)] }
  | first :: more =>
    if beside then addAll r rest
    else if r.hasRoom then addAll (r.addOperand (.text first) first) more
    else { r with unknown := r.unknown ++ [("--" : Text)] ++ rest }

/-- The request with all flags of an argument. -/
def addFlags (r : Request) (flags : List OptionName) : Except Stop Request :=
  flags.foldlM (fun r name => r.addOption name []) r

/-- The request after some arguments; `beside` tells that an operand was read last. -/
def addAll (r : Request) (beside : Bool) : List Argument → Except Stop Request
  | [] => .ok r
  | .operand t :: rest => addAll (r.addOperand (.text t) t) r.hasRoom rest
  | .unknown t :: rest => addAll { r with unknown := r.unknown ++ [t] } false rest
  | .separator :: rest => .ok (r.addSeparated beside (rest.map operandText))
  | .option name short attached :: rest =>
    match Expansion.ofOption name short attached with
    | .error error => .error (.usage error)
    | .ok ⟨flags, none⟩ => do addAll (← r.addFlags flags) false rest
    | .ok ⟨flags, some (valued, some value)⟩ => do
      let r ← r.addFlags flags
      addAll (← r.addOption valued value) false rest
    | .ok ⟨flags, some (valued, none)⟩ =>
      match rest with
      | .operand value :: rest => do
        let r ← r.addFlags flags
        addAll (← r.addOption valued value) false rest
      | _ => .error (.usage (.valueMissing valued))

/-- The request of a command line. All operands must be there, and nothing may be left over. -/
def ofArguments (arguments : List Text) : Except Stop Request :=
  match Argument.readAll arguments with
  | .error error => .error (.usage error)
  | .ok arguments => do
    let r ← empty.addAll false arguments
    if r.hasRoom then .error (.usage (.operandsMissing (operandNames.drop r.operands.length)))
    else if !r.unknown.isEmpty then .error (.usage (.unrecognized r.unknown))
    else .ok r

/-- The directory to read. -/
def source (r : Request) : Value := r.operands.getD 0 .dropped

/-- The file to write. -/
def output (r : Request) : Value := r.operands.getD 1 .dropped

/-- The values of an option in order. -/
def values (r : Request) (name : OptionName) : List Value :=
  (r.options.filter (·.1 = name)).map (·.2)

/-- The last value of an option. -/
def value? (r : Request) (name : OptionName) : Option Value := (r.values name).getLast?

/-- The option was given. -/
def has (r : Request) (name : OptionName) : Bool := r.options.any (·.1 = name)

/-- The values of an option, or others if it was not given. -/
def valuesOr (r : Request) (name : OptionName) (default : List Value) : List Value :=
  if r.has name then r.values name else default

/-- The settings that a request asks for, without the preamble. -/
def settings (r : Request) : Settings where
  target := (r.value? .target).getD Settings.default.target
  defines := r.valuesOr .define Settings.default.defines
  exclude := r.valuesOr .exclude Settings.default.exclude
  emptyHeaders := r.valuesOr .emptyHeader Settings.default.emptyHeaders
  marker := (r.value? .annotate).getD Settings.default.marker
  clangArgs := r.values .clangArg
  guard := r.value? .guard
  preamble := []
  comments := !r.has .noComments
  verbose := !r.has .quiet

/-- The file with the preamble. -/
def preamble (r : Request) : Option Value := r.value? .preamble

/-- The plans are printed. -/
def dumpPlan (r : Request) : Bool := r.has .dumpPlan

end Request

end TrapStub
