import Concordance.Statistics.Table

/-!
# Concordance.Statistics.Session

The table of one field, built when it is first needed and kept for as long as the source stays at
the same generation.  A failed build keeps nothing.
-/

namespace Concordance.Statistics

/-- The table of one field, if it has been built, with the generation it was built from. -/
structure Session where
  field : String
  kept : Option (Nat × Table) := none

/-- Build the table of a field over all documents of a source. -/
def buildAll (r : Source σ) (field : String) : Asking σ Table := do
  let total ← .ask r.total
  build r total field

namespace Session

/-- Whether a table is kept. -/
def holdsTable (s : Session) : Bool := s.kept.isSome

/-- Drop the table. -/
def forget (s : Session) : Session := { s with kept := none }

/-- Keep a table that was built from a generation. -/
def keep (s : Session) (generation : Nat) (table : Table) : Session :=
  { s with kept := some (generation, table) }

/-- The kept table, if it is of the given generation. -/
def fresh? (s : Session) (generation : Nat) : Option Table :=
  match s.kept with
  | some (g, table) => if g = generation then some table else none
  | none => none

/-- The table for the source's generation, and the session that keeps it. -/
def table (s : Session) (r : Source σ) (state : σ) : (Except Fault Table × Session) × σ :=
  let (generation, state) := r.generation state
  match s.fresh? generation with
  | some table => ((.ok table, s), state)
  | none =>
    match ExceptT.run (buildAll r s.field) state with
    | (.ok table, state) => ((.ok table, s.keep generation table), state)
    | (.error e, state) => ((.error e, s.forget), state)

end Session

end Concordance.Statistics
