/-
Findings: every path expression of a file with its category, its owner and
the decision about it.
-/
import ComponentPaths.Decision.Basic
import ComponentPaths.Edit
import ComponentPaths.PathExpression.Find
import ComponentPaths.Tree.Resolve

namespace ComponentPaths

/-- One path expression and what is decided about it. -/
structure Finding where
  file : Text
  fileOwner : Owner
  expression : PathExpression
  category : Option Category
  /-- None when the owner cannot be determined. -/
  target : Option Owner
  decision : Decision
  deriving DecidableEq, Repr

namespace Finding

/-- Whether somebody should look at a finding. -/
def needsReview (f : Finding) : Bool :=
  f.decision.worthInvestigating

/-- The edit that carries out the decision, if it changes anything. -/
def edit? (f : Finding) : Option Edit :=
  f.decision.replacement.map fun code => ⟨f.expression.span, code⟩

/-- The finding for one path expression of a file. -/
def ofExpression (tree : ComponentTree) (api file : Text) (expression : PathExpression) :
    Except Fault Finding :=
  let owner := tree.fileOwner file
  let category := Category.ofPath? expression.symbolic
  let target := tree.resolve? expression.symbolic
  (Decision.decide
    ⟨expression.symbolic, expression.flags, category, target, owner.component, file, api⟩).map
    fun decision => ⟨file, owner, expression, category, target, decision⟩

/-- The findings of a file, in document order. -/
def analyze (tree : ComponentTree) (api : Text) (a : Arena) (file : Text) :
    Except Fault (List Finding) :=
  (PathExpression.find a file).mapM (ofExpression tree api file)

/-- The edits that carry out the decisions. -/
def edits (findings : List Finding) : List Edit :=
  findings.filterMap edit?

end Finding

end ComponentPaths
