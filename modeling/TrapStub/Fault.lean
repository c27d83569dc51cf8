import TrapStub.Text.Number
import TrapStub.Text.Quoted

/-!
# Faults

Why a run stops, kept as causes; the wording is in the `message` functions only.

* `Malformed`, `Unsupported`, `Cause`: what is wrong with a header, a signature or the output.
* `Report`: a cause with the declaration and the place it concerns.
* `Fault`: everything that ends a run. Besides reports these are conditions that concern no
  declaration: a write to a finished table, a member list that is not there, a recursion without
  end, and the like.
-/

namespace TrapStub

/-- Why the file system refused an operation. -/
inductive FileProblem where
  | missing
  | alreadyExists
  | notDirectory
  | isDirectory
  | nameTooLong
  | tooManyLinks
  /-- The path holds a null character, which no system call takes. -/
  | nullCharacter
  deriving DecidableEq, Repr

/-- The number the system knows a problem by. -/
def FileProblem.number : FileProblem → Nat
  | missing => 2
  | alreadyExists => 17
  | notDirectory => 20
  | isDirectory => 21
  | nullCharacter => 22
  | nameTooLong => 36
  | tooManyLinks => 40

/-- The system's words for a problem. -/
def FileProblem.message : FileProblem → Text
  | missing => "No such file or directory"
  | alreadyExists => "File exists"
  | notDirectory => "Not a directory"
  | isDirectory => "Is a directory"
  | nullCharacter => "Invalid argument"
  | nameTooLong => "File name too long"
  | tooManyLinks => "Too many levels of symbolic links"

/-- A place in a signature where a type is used by value. -/
inductive SignaturePart where
  | returnType
  | parameter (name : Text)
  deriving DecidableEq, Repr

/-- How a part of a signature is called in messages. -/
def SignaturePart.label : SignaturePart → Text
  | returnType => "return type"
  | parameter name => "parameter " ++ Text.quoted name

/-- What keeps a header corpus from being understood. -/
inductive Malformed where
  /-- The directory to read headers from is not there. -/
  | directoryNotFound (directory : Text)
  /-- A header that was found cannot be read. -/
  | unreadable (problem : FileProblem) (path : Text)
  /-- A statement starts like an annotation but has not the full form. -/
  | incompleteMark (marker statement : Text)
  /-- The C parser reported an error; the symbol is that of the annotation on the line. -/
  | diagnostic (message : Text) (symbol : Option Text)
  /-- The C parser gave no answer. -/
  | unparsable (reason : Text)
  /-- Two different definitions of one key. -/
  | redefined (key firstSeen : Text)
  /-- Following typedefs came back to a key. -/
  | typedefCycle (key : Text)
  /-- A key that no definition has. -/
  | unknownType (key : Text)
  /-- An enum that only carries trap numbers was used as a type. -/
  | trapEnumAsType (spelling : Text)
  /-- A kind of type that stubs cannot use. -/
  | unsupportedType (spelling kind : Text)
  /-- No constant holds the trap number of an annotation. -/
  | unresolvedTrap (symbol : Text)
  /-- The trap number does not fit the immediate of the instruction. -/
  | trapOutOfRange (number : Int) (symbol : Text)
  /-- The same function is annotated twice. -/
  | declaredTwice (location : Text)
  /-- Two functions have one trap number. -/
  | trapCollision (number : Int) (symbol otherName otherSymbol otherLocation : Text)
  /-- A type of the signature does not resolve. -/
  | inPart (part : SignaturePart) (cause : Malformed)
  /-- A type without a definition is used by value. -/
  | incompletePart (part : SignaturePart) (key : Text)
  deriving DecidableEq, Repr

/-- The largest trap number the instruction can carry. -/
def largestTrapNumber : Int := 255

/-- The wording of a cause, without the place. -/
def Malformed.message : Malformed → Text
  | directoryNotFound directory => "header directory not found: " ++ directory
  | unreadable problem path =>
    "cannot read header: [Errno " ++ Text.natural problem.number ++ "] " ++ problem.message ++ ": "
      ++ Text.quote path
  | incompleteMark marker statement =>
    "incomplete " ++ marker ++ " annotation: " ++ statement
  | diagnostic message none => message
  | diagnostic message (some symbol) => message ++ " (trap number symbol " ++ symbol ++ ")"
  | unparsable reason => "clang could not parse the corpus: " ++ reason
  | redefined key firstSeen =>
    "type " ++ Text.quoted key ++ " redefined with a different shape (first seen in "
      ++ (if firstSeen.isEmpty then ("?" : Text) else firstSeen) ++ ")"
  | typedefCycle key => "typedef cycle through " ++ Text.quoted key
  | unknownType key => "unknown type " ++ Text.quoted key
  | trapEnumAsType spelling => "trap constant enum used as a type: " ++ spelling
  | unsupportedType spelling kind =>
    "unsupported type " ++ Text.quoted spelling ++ " (" ++ kind ++ ")"
  | unresolvedTrap symbol =>
    "trap number symbol " ++ Text.quoted symbol ++ " could not be resolved"
  | trapOutOfRange number symbol =>
    "trap number " ++ Text.decimal number ++ " (" ++ symbol
      ++ ") does not fit the svc immediate (0.." ++ Text.decimal largestTrapNumber ++ ")"
  | declaredTwice location => "declared twice (also at " ++ location ++ ")"
  | trapCollision number symbol otherName otherSymbol otherLocation =>
    "trap number 0x" ++ Text.hexByte number ++ " (" ++ symbol ++ ") collides with "
      ++ Text.quoted otherName ++ " (" ++ otherSymbol ++ ", " ++ otherLocation ++ ")"
  | inPart part cause => part.label ++ ": " ++ cause.message
  | incompletePart part key =>
    part.label ++ " uses incomplete type " ++ Text.quoted key ++ " by value"

/-- Why a signature cannot cross the trap in registers. -/
inductive Unsupported where
  | variadic
  | returnSize (bytes : Int)
  | compositeByValue (parameter : Text) (bytes : Int)
  | parameterSize (parameter : Text) (bytes : Int)
  deriving DecidableEq, Repr

/-- The wording of a cause. -/
def Unsupported.message : Unsupported → Text
  | variadic => "variadic prototypes cannot be passed through registers"
  | returnSize bytes =>
    "return type of " ++ Text.decimal bytes ++ " bytes has no register convention"
  | compositeByValue parameter bytes =>
    "parameter " ++ Text.quoted parameter ++ " passes a " ++ Text.decimal bytes
      ++ "-byte composite by value; the header must pass it by pointer"
  | parameterSize parameter bytes =>
    "parameter " ++ Text.quoted parameter ++ " of " ++ Text.decimal bytes
      ++ " bytes has no register convention"

/-- The kinds of report. -/
inductive ReportKind where
  | malformedDeclaration
  | unsupportedParameterShape
  | registerPressureExceeded
  | emissionError
  deriving DecidableEq, Repr

/-- The name of a kind, as it stands in error lines. -/
def ReportKind.name : ReportKind → Text
  | malformedDeclaration => "MalformedDeclaration"
  | unsupportedParameterShape => "UnsupportedParameterShape"
  | registerPressureExceeded => "RegisterPressureExceeded"
  | emissionError => "EmissionError"

/-- What a report is about. -/
inductive Cause where
  | malformed (cause : Malformed)
  | unsupported (cause : Unsupported)
  /-- More argument registers are needed than there are. -/
  | pressure (needed available : Nat)
  /-- The output file cannot be written. -/
  | unwritable (problem : FileProblem)
  deriving DecidableEq, Repr

/-- The kind of report a cause leads to. -/
def Cause.kind : Cause → ReportKind
  | malformed _ => .malformedDeclaration
  | unsupported _ => .unsupportedParameterShape
  | pressure _ _ => .registerPressureExceeded
  | unwritable _ => .emissionError

/-- The wording of a cause, without the place. -/
def Cause.message : Cause → Text
  | malformed cause => cause.message
  | unsupported cause => cause.message
  | pressure needed available =>
    "needs " ++ Text.natural needed ++ " argument registers, only " ++ Text.natural available
      ++ " are available"
  | unwritable problem => "cannot write output: " ++ problem.message

/-- A cause with the declaration and the place it concerns. -/
structure Report where
  cause : Cause
  declaration : Option Text
  origin : Option Text
  deriving DecidableEq, Repr

/-- A message behind the place and the quoted declaration it concerns; what is absent or empty is
left out. -/
def located (origin declaration : Option Text) (message : Text) : Text :=
  let place := (origin.filter (!·.isEmpty)).toList
  let name := ((declaration.filter (!·.isEmpty)).map Text.quoted).toList
  match place ++ name with
  | [] => message
  | context => Text.join " " context ++ ": " ++ message

/-- The full text of a report. -/
def Report.text (r : Report) : Text := located r.origin r.declaration r.cause.message

/-- Everything that ends a run. -/
inductive Fault where
  /-- A header, signature or output is at fault. -/
  | report (report : Report)
  /-- A definition was added to a finished table. -/
  | frozenTable (key : Text)
  /-- A key was asked for that the table lacks. -/
  | absentKey (key : Text)
  /-- The members were asked of a record that has none. -/
  | incompleteBody (key : Text)
  /-- A decimal alignment other than zero is written with leading zeros. -/
  | leadingZeros (literal : Text)
  /-- A decimal alignment has more digits than are read. -/
  | literalTooLong (literal : Text)
  /-- The system refuses a path in a way that is no report: a header has no place in the staged
  corpus, or a path cannot be a path at all. -/
  | refused (problem : FileProblem) (path : Text)
  /-- The preamble file is not valid UTF-8. -/
  | preambleNotUtf8
  /-- The file that includes the headers would not be valid UTF-8, as the name of a header is not. -/
  | includerNotUtf8
  /-- A value of the command line was dropped as a separator, and a text is needed in its place. -/
  | valueDropped
  /-- There is no C parser. -/
  | parserUnavailable (reason : Text)
  /-- The types lead back to themselves, so following them does not end. -/
  | endless
  deriving DecidableEq, Repr

namespace Fault

/-- A malformed header that concerns no known declaration or place. -/
def malformed (cause : Malformed) : Fault := .report ⟨.malformed cause, none, none⟩

/-- A malformed header at a place. -/
def malformedAt (cause : Malformed) (origin : Text) : Fault :=
  .report ⟨.malformed cause, none, some origin⟩

/-- A malformed declaration at a place. -/
def malformedIn (cause : Malformed) (declaration origin : Text) : Fault :=
  .report ⟨.malformed cause, some declaration, some origin⟩

/-- The full text of a fault that carries one. -/
def text? : Fault → Option Text
  | report r => some r.text
  | frozenTable key => some ("type table is frozen; cannot add " ++ Text.quoted key)
  | _ => none

end Fault

end TrapStub
