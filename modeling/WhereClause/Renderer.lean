import WhereClause.Event
import WhereClause.Schema

/-!
# Renderer: a clause in the making

A renderer holds the text written so far, the parameters bound so far and the events so far, with the dialect, the schema and
the comparison that stay the same throughout. Text is only added at the end, and a parameter is bound in the same step in
which its placeholder is written, so that placeholders and parameters cannot drift apart.
-/

namespace WhereClause

/-- A value bound to a placeholder, with the field it is compared with where the schema declares that. -/
structure Parameter where
  field : Option Field
  value : Value

/-- The name of the field that a parameter is compared with. -/
def Parameter.fieldName? (p : Parameter) : Option String := p.field.map (·.name)

/-- Whether two parameters have the same field and the same value. -/
def Parameter.same (p q : Parameter) : Bool := p.field == q.field && p.value.same q.value

/-- A clause in the making. -/
structure Renderer where
  sql : String
  params : List Parameter
  log : List Event
  dialect : Dialect
  schema : Schema
  /-- The operator between each field of a map and its value. -/
  comparison : Operator

/-- A renderer with nothing written, which compares the fields of maps by equality. -/
def Renderer.new (dialect : Dialect) (schema : Schema) : Renderer := ⟨"", [], [], dialect, schema, .eq⟩

/-- A renderer in the standard dialect, used for its parameters alone. -/
def Renderer.forCounting (schema : Schema) : Renderer := Renderer.new .standard schema

/-- A renderer with another comparison for the fields of maps. -/
def Renderer.withComparison (r : Renderer) (comparison : Operator) : Renderer := { r with comparison := comparison }

/-- Text added as it is. -/
def Renderer.push (r : Renderer) (text : String) : Renderer := { r with sql := r.sql ++ text }

/-- An identifier added, as the dialect writes it. -/
def Renderer.pushName (r : Renderer) (name : String) : Renderer := r.push (r.dialect.identifier name)

/-- The code of an operator added, between spaces. -/
def Renderer.pushCode (r : Renderer) (code : String) : Renderer := r.push (" " ++ code ++ " ")

/-- A value bound, and its placeholder added. -/
def Renderer.bindValue (r : Renderer) (field : Option Field) (value : Value) : Renderer :=
  { r with
    sql := r.sql ++ r.dialect.placeholder r.params.length
    params := r.params ++ [⟨field, value⟩] }

/-- An event reported. -/
def Renderer.record (r : Renderer) (event : Event) : Renderer := { r with log := r.log ++ [event] }

/-- The text and the parameters. -/
def Renderer.output (r : Renderer) : String × List Parameter := (r.sql, r.params)

/-! ## Maps of fields -/

/-- A field compared with its value; null stands for a value that is not given. -/
def Renderer.pushField (comparison : Operator) (values : Bindings Value) (r : Renderer) (f : Field) : Renderer :=
  ((r.pushName f.name).pushCode comparison.code).bindValue (some f) ((values.get? f.name).getD .null)

/-- Fields compared with their values, in the order given, a code between each and the next. -/
def Renderer.pushFields (comparison : Operator) (values : Bindings Value) (code : String) (r : Renderer) :
    List Field → Renderer
  | [] => r
  | f :: rest =>
    rest.foldl (fun r f => Renderer.pushField comparison values (r.pushCode code) f)
      (Renderer.pushField comparison values r f)

end WhereClause
