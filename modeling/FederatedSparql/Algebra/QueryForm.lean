/-!
The four forms of a query.
-/

namespace FederatedSparql

/-- The form of a query. -/
inductive QueryForm where
  | select
  | ask
  | construct
  | describe
deriving DecidableEq, Repr, Inhabited

/-- The form's name. -/
def QueryForm.name : QueryForm → String
  | .select => "Select"
  | .ask => "Ask"
  | .construct => "Construct"
  | .describe => "Describe"

end FederatedSparql
