import Schemaless.Main
import Schemaless.Proofs.Effect
import Schemaless.Proofs.Value.Equality
import Schemaless.Proofs.Store.Catalog
import Schemaless.Proofs.Store.Operations
import Schemaless.Proofs.Store.Step
import Schemaless.Proofs.Client.Store
import Schemaless.Proofs.Store.Modification
import Schemaless.Proofs.Store.Reachable
import Schemaless.Proofs.Binding.Condition
import Schemaless.Proofs.Store.Keys
import Schemaless.Proofs.Binding.Meaning
import Schemaless.Proofs.Store.Update
import Schemaless.Proofs.Client.Atomicity
import Schemaless.Proofs.Client.Literals
import Schemaless.Proofs.Client.KeyColumn
import Schemaless.Proofs.Binding.Accounting
import Schemaless.Proofs.Store.Combination
import Schemaless.Proofs.Client.Membership
import Schemaless.Proofs.Client.Removal
import Schemaless.Proofs.Client.Retrieval
import Schemaless.Proofs.Sql.Script
import Schemaless.Proofs.Client.MixedList
import Schemaless.Proofs.Client.ColumnNames
import Schemaless.Proofs.Sql.Composition
import Schemaless.Proofs.Client.Sessions
import Schemaless.Proofs.Client.Order
import Schemaless.Proofs.Client.Seeding
import Schemaless.Proofs.Client.Login
import Schemaless.Proofs.Client.Freshness
import Schemaless.Proofs.Store.Projection
import Schemaless.Proofs.Client.KeylessRecords
import Schemaless.Proofs.Client.NormalForm
import Schemaless.Proofs.Client.Validity
import Schemaless.Proofs.Value.Order
import Schemaless.Proofs.Client.ReadOnly
import Schemaless.Proofs.Client.Negation
import Schemaless.Proofs.Client.Templates
import Schemaless.Proofs.Client.Sampling
import Schemaless.Proofs.Sql.Quoting
import Schemaless.Proofs.Sql.Cuts
import Schemaless.Proofs.Config.Parameters
