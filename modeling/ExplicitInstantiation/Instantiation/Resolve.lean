import ExplicitInstantiation.Arithmetic.Evaluate
import ExplicitInstantiation.Constant.Basic
import ExplicitInstantiation.Instantiation.Basic
import ExplicitInstantiation.Site.Line

/-!
# From sites to instantiations

The arguments of a site are resolved in three steps: constants are replaced by their texts, the
list is cut into its arguments, and an argument that contains an arithmetic operator is replaced
by its value. An argument without an operator stays as it is. An argument with an operator that is
not a constant expression is an error, and the first such argument is the one reported.
-/

namespace ExplicitInstantiation

/-- An argument contains an operator but has no value. -/
structure Unfoldable where
  /-- The argument. -/
  expression : Text
  /-- Why it has no value. -/
  reason : Reason
  deriving Repr

/-- The message for an argument without a value. -/
def Unfoldable.message (fault : Unfoldable) : Text :=
  "Cannot fold template argument '".toList ++ fault.expression ++ "': ".toList
    ++ fault.reason.message

/-- The value of an argument that is a constant expression. -/
def valueOf (argument : Text) : Except Unfoldable Number :=
  (evaluate argument).mapError (⟨argument, ·⟩)

/-- Whether `c` is an arithmetic operator. -/
def isOperatorChar (c : Char) : Bool :=
  c == '+' || c == '-' || c == '*' || c == '/'

/-- An argument, replaced by its value if it contains an operator. -/
def foldArgument (argument : Text) : Except Unfoldable Text :=
  if argument.any isOperatorChar then (valueOf argument).map Number.toText else .ok argument

/-- The arguments of a list, trimmed and folded; the empty list has none. -/
def foldArguments (arguments : Text) : Except Unfoldable (List Text) :=
  if arguments.isEmpty then .ok []
  else (topLevelParts arguments).mapM fun argument => foldArgument (Text.trim argument)

/-- The instantiation that a site stands for. -/
def Site.resolve (constants : Constants) (site : Site) : Except Unfoldable Instantiation := do
  let arguments ← foldArguments (constants.substitute site.arguments)
  return ⟨site.templateClass.name, arguments⟩

/-- The instantiations that the sites stand for, each one once. -/
def resolveSites (constants : Constants) (sites : List Site) :
    Except Unfoldable Instantiations := do
  let instantiations ← sites.mapM (Site.resolve constants)
  return .ofList instantiations

end ExplicitInstantiation
