import TableExport.Main
import TableExport.Proofs.Export.KeptArtifacts
import TableExport.Proofs.Export.ReadingBack
import TableExport.Proofs.Export.Failures
import TableExport.Proofs.Export.Order
import TableExport.Proofs.Export.Repeats
import TableExport.Proofs.Postgres.Extremes
import TableExport.Proofs.Sqlite.Counts
import TableExport.Proofs.Sql.Tokens
import TableExport.Proofs.Export.Containment
import TableExport.Proofs.Export.FullSinks
import TableExport.Proofs.Export.Limits
import TableExport.Proofs.Sqlite.DisabledRules
import TableExport.Proofs.CommandLine.Endings
import TableExport.Proofs.Settings.Orders
import TableExport.Proofs.Postgres.Credentials
import TableExport.Proofs.Url.Redaction
import TableExport.Proofs.Table.Positions
import TableExport.Proofs.Sqlite.DisablingUsers
import TableExport.Proofs.Postgres.Timestamps
import TableExport.Proofs.Postgres.Targets
import TableExport.Proofs.Postgres.Distinctness
import TableExport.Proofs.Table.Requests
