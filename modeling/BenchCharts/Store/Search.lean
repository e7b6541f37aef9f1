import BenchCharts.Filter
import BenchCharts.Json.Reread
import BenchCharts.Sorting
import BenchCharts.Store.Basic
import BenchCharts.Store.Cell
import BenchCharts.Store.Lookup
import BenchCharts.Time.Spelling

/-!
# Searching runs

`Store.findRuns` lists the runs that contain the pattern of a filter, in the order of the texts of
their times, and of their ids where these agree. The runs are first narrowed down by the clauses of
the filter: at the path of each clause there has to be an equal cell or an array. A clause is only
looked at for runs that satisfy the clauses before it.

The parameters of a run are kept as text, so a run that is found has them as they are read from
there (`Run.loaded`). The clauses look at the text, and containment at what is read. Each of the
three steps can fail: the store takes no more than `clauseLimit` clauses, it cannot search what is
nested too deeply, and not everything that it keeps can be read again (`Run.loaded?`).
-/

namespace BenchCharts

namespace LeafClause

/-- Whether the parameters of a run satisfy a clause, or `none` if the store cannot search them for
its path. -/
def accepts? (c : LeafClause) (params : Json.Fields) : Option Bool :=
  (params.search? c.keys).map fun found =>
    found.any fun value => value.cell.equal c.value.cell || value.isArray

end LeafClause

/-- Whether the parameters of a run satisfy all clauses, or `none` if they cannot be searched for
one. -/
def acceptsAll? (params : Json.Fields) : List LeafClause → Option Bool
  | [] => some true
  | clause :: rest =>
    match clause.accepts? params with
    | some true => acceptsAll? params rest
    | some false => some false
    | none => none

/-- The runs that satisfy all clauses, or `none` if one cannot be searched. -/
def candidates? (clauses : List LeafClause) : List Run → Option (List Run)
  | [] => some []
  | run :: rest =>
    match acceptsAll? run.params clauses, candidates? clauses rest with
    | some true, some runs => some (run :: runs)
    | some false, some runs => some runs
    | _, _ => none

/-- The order of stored runs: by the texts of their times, then by their ids. -/
def Run.compareStored (a b : Run) : Ordering :=
  (a.datetime.compareStored b.datetime).then (compare a.id b.id)

/-- A stored run with its parameters as they are read. -/
def Run.loaded (run : Run) : Run := { run with params := Json.rereadFields run.params }

/-- A stored run as it is found, if its parameters can be read. -/
def Run.loaded? (run : Run) : Option Run :=
  if (Json.obj run.params).readable then some run.loaded else none

/-- A run that is found has what is read of its parameters. -/
theorem Run.loaded?_eq_some_iff {stored run : Run} :
    stored.loaded? = some run ↔
      (Json.obj stored.params).readable = true ∧ run = stored.loaded := by
  rw [loaded?]
  split
  · next h => simp [h, eq_comm]
  · next h => simp [h]

/-- The store takes this many clauses at once. -/
def clauseLimit : Nat := 997

namespace Store

/-- The runs of a store that contain the pattern of a filter, in stored order. -/
def search? (filter : CompiledFilter) (runs : List Run) : Option (List Run) :=
  if filter.clauses.length ≤ clauseLimit then do
    let found ← candidates? filter.clauses runs
    -- Every candidate is read, also one that does not contain the pattern.
    let loaded ← (stableSort Run.compareStored found).mapM Run.loaded?
    return loaded.filter filter.contains
  else none

/-- The runs whose parameters contain the pattern of a filter, in stored order. -/
def findRuns (s : Store) (filter : CompiledFilter) : Except ChartError (List Run) :=
  s.query .findRuns fun t => answer .findRuns (search? filter t.runs)

/-- The run with an id. -/
def run? (s : Store) (id : String) : Except ChartError (Option Run) :=
  s.query (.loadRun id) fun t =>
    match t.runs.find? (·.id == id) with
    | some run => answer (.loadRun id) (run.loaded?.map some)
    | none => .ok none

end Store

end BenchCharts
