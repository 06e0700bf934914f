import WhereClause.Condition.Validate
import WhereClause.Settings

/-!
# Compiler: from conditions to clauses

A compiler holds settings and the comparison for maps of fields. It validates a condition, if the settings want that, and
renders it; a condition that is rejected is not rendered. What a compilation reports, first to last, is part of its result.
-/

namespace WhereClause

/-- What conditions are compiled with. -/
structure Compiler where
  settings : Settings
  /-- The operator between each field of a map and its value. -/
  comparison : Operator

/-- A compiler that compares the fields of maps by equality. -/
def Compiler.new (settings : Settings) : Compiler := ⟨settings, .eq⟩

/-- A compiler with another comparison for the fields of maps. -/
def Compiler.withComparison (c : Compiler) (comparison : Operator) : Compiler := { c with comparison := comparison }

/-- A clause, and the parameters of its placeholders in order. -/
structure Compiled where
  clause : String
  params : List Parameter

/-- The bound values, in order. -/
def Compiled.values (c : Compiled) : List Value := c.params.map (·.value)

/-- Whether the clause says nothing. -/
def Compiled.isEmpty (c : Compiled) : Bool := c.clause.isEmpty

/-- Why there is no clause: the condition is rejected, or the settings are not read. -/
inductive CompileError where
  | rejected (reason : Rejection)
  | settings (fault : Fault)
  deriving DecidableEq

/-- What went wrong, in words, if it has a wording. -/
def CompileError.message? : CompileError → Option String
  | .rejected reason => some ("Schema error: " ++ reason.message)
  | .settings fault => fault.message?.map fun m => "Invalid compiler settings: " ++ m

/-- The renderer that a compilation starts from. -/
def Compiler.renderer (c : Compiler) (s : Schema) : Renderer :=
  (Renderer.new c.settings.dialect s).withComparison c.comparison

/-- A condition compiled for the entity of a schema, with what is reported. -/
def Compiler.compileLogged (c : Compiler) (condition : Condition) (s : Schema) : Logged (Except CompileError Compiled) :=
  let start := Event.compiling condition.kind s.entityName c.settings.dialect
  let checked : Logged (Except Rejection Unit) :=
    if c.settings.validates then condition.validateLogged s else ⟨[], .ok ()⟩
  match checked.result with
  | .error reason => ⟨start :: checked.log, .error (.rejected reason)⟩
  | .ok () =>
    let done := condition.render (c.renderer s)
    ⟨start :: checked.log ++ done.log ++ [.compiled done.params.length], .ok ⟨done.sql, done.params⟩⟩

/-- A condition compiled for the entity of a schema. -/
def Compiler.compile (c : Compiler) (condition : Condition) (s : Schema) : Except CompileError Compiled :=
  (c.compileLogged condition s).result

end WhereClause
