import ObsCatalog.Catalog.Deployment
import ObsCatalog.Obsid.Fault
import ObsCatalog.Sql.Fault

/-! Failures of a catalog.

That nothing was found is no failure; look-ups say it in their result.
-/

set_option autoImplicit false

namespace ObsCatalog

inductive CatalogFault where
  /-- The database of a deployment could not be opened. -/
  | connection (deployment : Deployment) (reason : String)
  | query (fault : Sql.Fault)
  | invalidFilter (reason : String)
  /-- A row is not the row of a record. -/
  | rowMapping (table column reason : String)
  /-- The caller has to choose an id and has chosen none. -/
  | missingId
  /-- A task failed while it held the handle. -/
  | lock (reason : String)
  | obsid (fault : ObsidFault)

namespace CatalogFault

def message : CatalogFault → String
  | .connection deployment reason =>
    "Failed to connect to the " ++ deployment.name ++ " database: " ++ reason
  | .query fault => "Query failed: " ++ fault.message
  | .invalidFilter reason => "Invalid filter: " ++ reason
  | .rowMapping table column reason =>
    "Cannot map column '" ++ column ++ "' of table '" ++ table ++ "': " ++ reason
  | .missingId => "An explicit identifier is required for this insert"
  | .lock reason => "Failed to acquire database lock: " ++ reason
  | .obsid fault => fault.message

def bareMessage : CatalogFault → String
  | .query fault => fault.message
  | fault => fault.message

def causes : CatalogFault → List String
  | .query fault => fault.message :: fault.causes
  | _ => []

def isConnection : CatalogFault → Bool
  | .connection _ _ => true
  | _ => false

end CatalogFault

end ObsCatalog
