import TableExport.Export.Output

/-!
# Projections

The four kinds of CSV artifacts. Each starts with a header and has one record per
item after it.
-/
namespace TableExport

def tableNamesHeader : List String := ["Table name"]
def metadataHeader : List String := ["Table name", "Records"]
def disabledRulesHeader : List String := ["Rule", "Count"]

namespace Project

/-- Writes a table and gives the number of its rows. The columns are asked for once;
nothing is written before they are known. -/
def table (storage : Storage) (name : TableName) (limit : Option UInt32) : Writing Nat := do
  let columns ← Writing.run (Run.ask storage (.describe name))
  Writing.guarded do
    Writing.record name.text (columns.map Column.name)
    let rows ← Writing.run (Run.ask storage (.readRows name columns limit))
    Writing.records name.text (rows.map fun row => row.project columns)
    Writing.finish name.text
    Writing.run <| Run.report ⟨.debug, Log.projectionTarget, "Table exported",
      [("table", .shown name.text), ("rows", .number rows.length)]⟩
    pure rows.length

def tableNames (names : List TableName) : Writing Unit :=
  Writing.guarded do
    Writing.record "list of tables" tableNamesHeader
    Writing.records "list of tables" (names.map fun name => [name.text])
    Writing.finish "list of tables"

/-- Writes one count per table; stops at the first table that cannot be counted. -/
def counts (storage : Storage) : List TableName → Writing Unit
  | [] => pure ()
  | name :: rest => do
    let count ← Writing.run (Run.ask storage (.countRecords name))
    Writing.record "table metadata" [name.text, Decimal.integer count]
    counts storage rest

def tableMetadata (storage : Storage) (names : List TableName) : Writing Unit :=
  Writing.guarded do
    Writing.record "table metadata" metadataHeader
    counts storage names
    Writing.finish "table metadata"

/-- Writes the rules disabled more than once. Nothing is written before they are known. -/
def disabledRules (storage : Storage) : Writing Unit := do
  let rules ← Writing.run (Run.ask storage .disabledRules)
  Writing.guarded do
    Writing.record "disabled rules" disabledRulesHeader
    Writing.records "disabled rules"
      (rules.map fun rule => [rule.rule, Decimal.integer rule.count])
    Writing.finish "disabled rules"

end Project

end TableExport
