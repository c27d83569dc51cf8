import TrapStub.Survey.Convert

/-!
# The walk

The first pass over a parsed unit: its top-level declarations, in order, as far as they are in
staged headers.
-/

namespace TrapStub.Source

variable (source : Source)

/-- Notes the macro that a definition in a header makes. -/
def noteMacro (c : Cursor) (origin : Text) : Survey Unit :=
  match Macro.ofTokens? ((source.staged.bytes? origin).getD []) c.tokens with
  | some m => modify fun state => { state with macros := Macro.insert state.macros m }
  | none => return ()

/-- One declaration at the top of the parsed unit. -/
def visit (id : CursorId) : Survey Unit := do
  let c := source.unit.cursor id
  match source.originOf? c with
  | none => return ()
  | some origin =>
    match c.kind with
    | .structDecl | .unionDecl =>
      if c.isDefinition then discard (source.record source.base c)
      else discard (source.recordNamed source.base c)
    | .enumDecl => discard (source.enumeration c)
    | .typedefDecl => discard (source.typedef source.base c true)
    | .functionDecl =>
      if (source.unit.trapSymbol? c).isSome then
        modify fun state => { state with prototypes := state.prototypes ++ [id] }
    | .macroDefinition => source.noteMacro c origin
    | _ => return ()

/-- All declarations at the top of the parsed unit. -/
def visitAll : Survey Unit := source.unit.top.forM source.visit

end TrapStub.Source
