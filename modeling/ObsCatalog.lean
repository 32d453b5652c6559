import ObsCatalog.Main
import ObsCatalog.Proofs.Calendar.CivilDate
import ObsCatalog.Proofs.Calendar.Stamp
import ObsCatalog.Proofs.Catalog.Ledger
import ObsCatalog.Proofs.Catalog.Operation
import ObsCatalog.Proofs.Catalog.Sequence
import ObsCatalog.Proofs.Catalog.Store
import ObsCatalog.Proofs.Obsid.Second
import ObsCatalog.Proofs.Catalog.Integrity
import ObsCatalog.Proofs.Catalog.Ownership
import ObsCatalog.Proofs.Sql.Condition
import ObsCatalog.Proofs.Sql.Token
import ObsCatalog.Proofs.Catalog.Filter
import ObsCatalog.Proofs.Record.Source
import ObsCatalog.Proofs.Settings.File
import ObsCatalog.Proofs.CommandLine.Processes
import ObsCatalog.Proofs.CommandLine.Outcome
import ObsCatalog.Proofs.Catalog.Insertion
import ObsCatalog.Proofs.Catalog.LastError
import ObsCatalog.Proofs.Catalog.Placeholder
import ObsCatalog.Proofs.Catalog.Joining
import ObsCatalog.Proofs.Catalog.Scan
import ObsCatalog.Proofs.Record.Observation
import ObsCatalog.Proofs.Catalog.Authenticator
import ObsCatalog.Proofs.CommandLine.Listing
import ObsCatalog.Proofs.Sql.Column
import ObsCatalog.Proofs.Catalog.Mapping
import ObsCatalog.Proofs.Catalog.Widening
import ObsCatalog.Proofs.Catalog.Opening
import ObsCatalog.Proofs.Settings.Locations
import ObsCatalog.Proofs.Json.Record
import ObsCatalog.Proofs.Settings.Member
import ObsCatalog.Proofs.Settings.Partial
import ObsCatalog.Proofs.Calendar.Order
import ObsCatalog.Proofs.Sql.TextOrder
import ObsCatalog.Proofs.Catalog.Chronology
import ObsCatalog.Proofs.Catalog.Frozen
import ObsCatalog.Proofs.Catalog.LastInsert
import ObsCatalog.Proofs.Catalog.Printed
