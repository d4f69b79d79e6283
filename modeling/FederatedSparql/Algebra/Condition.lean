import FederatedSparql.Algebra.Expr
import FederatedSparql.Text.Regex.Reader

/-!
Conditions on solutions, with the dialect of regular expressions that filters use.
-/

namespace FederatedSparql.Expr

/-- The effective Boolean value of an expression. -/
def truth? (b : Bindings) (e : Expr) : Option Bool := e.truthWith Text.Regex.search? b

/-- The value of an expression. -/
def value? (b : Bindings) (e : Expr) : Option Term := e.valueWith Text.Regex.search? b

/-- Whether a condition accepts a solution: it has to be true, so an error rejects it. -/
def accepts (e : Expr) (b : Bindings) : Bool := e.truth? b == some true

/-- Whether a condition, if there is one, accepts a solution. -/
def acceptsAll (e : Option Expr) (b : Bindings) : Bool := e.all (·.accepts b)

end FederatedSparql.Expr
