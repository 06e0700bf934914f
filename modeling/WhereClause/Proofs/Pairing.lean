import WhereClause.Proofs.Counting
import WhereClause.Proofs.Omissions

/-!
# Pairing: every field compared has its clause and its parameter

Comparing fields with their values writes a clause for each and binds a parameter for each, in the order in which the fields are
given, and the clause has the number of the parameter (`Renderer.pushFields_paired`). The fields need not be those of a map: a
name may be given twice, and where no value is given for a name null is bound, so that a clause never lacks its parameter.
-/

namespace WhereClause

/-- A field compared with the parameter at a position, as a dialect writes it. -/
def Field.clause (d : Dialect) (comparison : Operator) (f : Field) (position : Nat) : String :=
  d.identifier f.name ++ (" " ++ comparison.code ++ " ") ++ d.placeholder position

/-- The parameter of a field compared: the value given for its name, or null. -/
def Field.parameter (values : Bindings Value) (f : Field) : Parameter := ⟨some f, (values.get? f.name).getD .null⟩

/-! ## Clauses one after the other -/

/-- Parts with one slot each and a code between each and the next are spelled one after the other, the slot of each with the
number after that of the part before. -/
theorem Piece.spell_intercalate (d : Dialect) (code : String) {pss : List (List Piece)}
    (h : ∀ ps ∈ pss, (Piece.parameters ps).length = 1) (next : Nat) :
    Piece.spell d next ([Piece.operator code].intercalate pss) =
      (" " ++ code ++ " ").intercalate ((pss.zipIdx next).map fun (ps, position) => Piece.spell d position ps) := by
  -- The number of the first slot is free: the parts after the first are numbered from the next on.
  induction pss generalizing next with
  | nil => simp [Piece.spell]
  | cons ps pss ih =>
    have hps : (Piece.parameters ps).length = 1 := h ps (by simp)
    have hpss := ih (fun qs hqs => h qs (by simp [hqs])) (next + 1)
    cases pss with
    | nil => simp
    | cons qs pss =>
      have hcode : Piece.spell d (next + 1) (.operator code :: [Piece.operator code].intercalate (qs :: pss)) =
          (" " ++ code ++ " ") ++ Piece.spell d (next + 1) ([Piece.operator code].intercalate (qs :: pss)) := rfl
      rw [List.intercalate_cons_cons, List.append_assoc, List.singleton_append, Piece.spell_append, hps, hcode, hpss]
      simp only [List.zipIdx_cons, List.map_cons, String.intercalate_cons_cons, String.append_assoc]

/-- The comparison of a field is spelled as its clause. -/
theorem FieldMap.spell_comparison (d : Dialect) (next : Nat) (m : FieldMap) (comparison : Operator) (f : Field) :
    Piece.spell d next (m.comparison comparison f) = f.clause d comparison next := by
  simp [FieldMap.comparison, Field.clause, Piece.spell, Piece.operator, String.append_assoc]

/-- Comparisons of fields with a code between each and the next are spelled as the clauses of the fields, numbered on. -/
theorem FieldMap.spell_comparisons (d : Dialect) (next : Nat) (m : FieldMap) (comparison : Operator) (code : String)
    (fs : List Field) :
    Piece.spell d next ([Piece.operator code].intercalate (fs.map (m.comparison comparison))) =
      (" " ++ code ++ " ").intercalate ((fs.zipIdx next).map fun (f, position) => f.clause d comparison position) := by
  have hslot : ∀ ps ∈ fs.map (m.comparison comparison), (Piece.parameters ps).length = 1 := by
    intro ps hps
    obtain ⟨f, -, rfl⟩ := List.mem_map.1 hps
    rfl
  rw [Piece.spell_intercalate d code hslot, List.zipIdx_map, List.map_map]
  congr 1
  refine List.map_congr_left fun p _ => ?_
  exact m.spell_comparison d p.2 comparison p.1

/-! ## Clauses with their parameters -/

/-- A renderer with pieces added and nothing reported differs in its text and its parameters only. -/
theorem Renderer.Adds.eq_of_log {r r' : Renderer} {ps : List Piece} (h : r.Adds ps r') (hlog : r'.log = r.log) :
    r' = { r with
      sql := r.sql ++ Piece.spell r.dialect r.params.length ps
      params := r.params ++ Piece.parameters ps } := by
  obtain ⟨hsql, hparams, hdialect, hschema, hcomparison⟩ := h
  cases r'
  simp only at hsql hparams hdialect hschema hcomparison hlog
  subst hsql hparams hdialect hschema hcomparison hlog
  rfl

/-- Fields compared with their values add to the text of a renderer a clause for each, in their order, with the code between
each and the next, and to its parameters the parameter of each in the same order; the placeholder of a clause has the number that
its parameter gets after those that are there. Nothing else changes. -/
theorem Renderer.pushFields_paired (comparison : Operator) (values : Bindings Value) (code : String) (r : Renderer)
    (fs : List Field) :
    Renderer.pushFields comparison values code r fs =
      { r with
        sql := r.sql ++ (" " ++ code ++ " ").intercalate
          ((fs.zipIdx r.params.length).map fun (f, position) => f.clause r.dialect comparison position)
        params := r.params ++ fs.map (Field.parameter values) } := by
  -- Of a map only its values count here; the code stands for its operator.
  have h := Renderer.adds_pushFields comparison ⟨values, .and⟩ code r fs
  rw [h.eq_of_log (Renderer.log_pushFields comparison values code r fs), FieldMap.spell_comparisons,
    FieldMap.parameters_comparisons]
  rfl

/-- A name given twice is compared twice, and one without a value with null, after a parameter that is there already. -/
example :
    let r : Renderer := ⟨"x OR ", [⟨none, .null⟩], [], .postgres, .listed "t" [], .eq⟩
    let fs : List Field := [⟨"a", .int⟩, ⟨"b", .int⟩, ⟨"a", .int⟩]
    let r' := Renderer.pushFields .like (.ofList [("a", .int 1), ("c", .int 2)]) "AND" r fs
    r'.sql = "x OR \"a\" LIKE $2 AND \"b\" LIKE $3 AND \"a\" LIKE $4" ∧
      r'.params = [⟨none, .null⟩, ⟨some ⟨"a", .int⟩, .int 1⟩, ⟨some ⟨"b", .int⟩, .null⟩, ⟨some ⟨"a", .int⟩, .int 1⟩] :=
  ⟨by decide +kernel, rfl⟩

end WhereClause
