import Listing.Field.Template
import Listing.Ident
import Listing.Search.Operator
import Listing.Term.Wire

namespace Listing

/-!
# Errors

The causes for which a request is refused or a statement cannot be run, with their wording.

* `ParamFault` — parameters of the wrong shape;
* `ValidationFault` — names that are no identifiers, and queries that name what is not registered;
* `Error` — all causes, with `Error.message`;
* `Error.isConfiguration` — the causes that lie in configuration or parameters.
-/

/-- Why parameters have the wrong shape. -/
inductive ParamFault
  | decoding (cause : DecodeError)
  | unknownJoinKind (name : String)
  | unknownDirection (name : String)
  | templateArity (template : Template) (got : Nat)
  | templateMissing
  | templateArgsMissing
  | templateArgNotName
  | notAField (got : Json)
  | stepWithoutRelation (kind : String)
  | notAStep (got : Json)
  | notAPath (got : Json)
  | notAnObject (hook : String) (got : Json)
  | notAnObjectOrList (hook : String) (got : Json)
  | notAnInteger (key : String) (got : Json)
  | scopeNotName
  | termMisfit (term : Term) (operator : SearchOperator)
  | needsBoolean
  | needsList (operator : SearchOperator)
  | needsBounds
  | operatorNotText
  | unknownCombine (got : Json)
  | directionNotText
  | caseFlagNotBool (got : Json)
  | keyNotColumn (got : Json)
  | notUniqueKey (column entity : String)
  | notParams (got : Json)
  | stated (message : String)

/-- What is wrong with a join. -/
inductive JoinFault
  | unknownRelation (relation entity : String)
  | unknownTarget (relation entity target : String)
  deriving DecidableEq, Repr

/-- What is wrong with a name or a query. -/
inductive ValidationFault
  | ident (fault : IdentFault)
  | unknownEntity (name : String)
  | join (fault : JoinFault)
  | stated (message : String)
  deriving DecidableEq, Repr

/-- The stages that have named scopes. -/
inductive ScopeKind
  | search
  | sort
  | paginate
  deriving DecidableEq, Repr

/-- Why a request is refused or a statement cannot be run. -/
inductive Error
  | missingKey (hook key : String)
  | unknownScope (kind : ScopeKind) (name entity : String)
  | unsupportedTemplate (name : String)
  | unsupportedOperator (name : String)
  | invalidParams (fault : ParamFault)
  | notImplemented (hook operation : String)
  | unknownHook (stage : String)
  | validation (fault : ValidationFault)
  | connection (message : String)
  | query (message : String)
  | pool (message : String)

namespace ParamFault

/-- An integer parameter as messages show it: a string is quoted, anything else is a document. -/
def shown : Json → String
  | .str s => Text.quoted s
  | other => other.text

/-- The wording of the fault. -/
def message : ParamFault → String
  | decoding cause => cause.message
  | unknownJoinKind name => "unknown join kind `" ++ name ++ "`"
  | unknownDirection name => "unknown sort direction `" ++ name ++ "`"
  | templateArity template got =>
    "template `" ++ template.wireName ++ "` takes " ++ Number.natText template.arity ++
      " column(s), got " ++ Number.natText got
  | templateMissing => "computed field needs a `template`"
  | templateArgsMissing => "computed field needs an `args` list"
  | templateArgNotName => "computed field args must be column names"
  | notAField got => "field must be a name or a computed field, got " ++ got.text
  | stepWithoutRelation kind => "association `" ++ kind ++ "` must name a relation"
  | notAStep got =>
    "association step must be a string or a single-key object, got " ++ got.text
  | notAPath got => "assoc must be a list, got " ++ got.text
  | notAnObject hook got => hook ++ " params must be an object, got " ++ got.text
  | notAnObjectOrList hook got =>
    hook ++ " params must be an object or a list, got " ++ got.text
  | notAnInteger key got => "`" ++ key ++ "` must be an integer, got " ++ shown got
  | scopeNotName => "`scope` must be a scope name"
  | termMisfit term operator =>
    "search_term " ++ term.outline ++ " does not fit operator " ++ operator.outline
  | needsBoolean => "is_null needs a boolean term"
  | needsList operator => operator.wireName ++ " needs a list term"
  | needsBounds => "between needs a [low, high] term"
  | operatorNotText => "search_type must be a string"
  | unknownCombine got => "unknown search_expr " ++ got.text
  | directionNotText => "order must be \"asc\" or \"desc\""
  | caseFlagNotBool got => "ci must be a boolean, got " ++ got.text
  | keyNotColumn got => "key_field must be a column name, got " ++ got.text
  | notUniqueKey column entity =>
    "`" ++ column ++ "` is not a unique key of `" ++ entity ++ "`"
  | notParams got => "rummage params must be an object, got " ++ got.text
  | stated text => text

end ParamFault

namespace JoinFault

/-- The wording of the fault. -/
def message : JoinFault → String
  | unknownRelation relation entity =>
    "unknown association `" ++ relation ++ "` on `" ++ entity ++ "`"
  | unknownTarget relation entity target =>
    "association `" ++ relation ++ "` on `" ++ entity ++ "` targets unknown entity `" ++ target ++
      "`"

end JoinFault

namespace ValidationFault

/-- The wording of the fault. -/
def message : ValidationFault → String
  | ident fault => fault.message
  | unknownEntity name => "unknown entity `" ++ name ++ "`"
  | join fault => fault.message
  | stated text => text

end ValidationFault

namespace ScopeKind

/-- The name of the stage. -/
def name : ScopeKind → String
  | search => "search"
  | sort => "sort"
  | paginate => "paginate"

end ScopeKind

namespace Error

/-- The wording of the error. -/
def message : Error → String
  | missingKey hook key => "Missing required key `" ++ key ++ "` in " ++ hook ++ " params"
  | unknownScope kind name entity =>
    "Unknown " ++ kind.name ++ " scope `" ++ name ++ "` on `" ++ entity ++ "`"
  | unsupportedTemplate name => "Unsupported template: " ++ name
  | unsupportedOperator name => "Unsupported operator: " ++ name
  | invalidParams fault => "Invalid params: " ++ fault.message
  | notImplemented hook operation => "Hook `" ++ hook ++ "` does not implement " ++ operation
  | unknownHook stage => "No hook registered for stage `" ++ stage ++ "`"
  | validation fault => "Validation error: " ++ fault.message
  | connection text => "Connection error: " ++ text
  | query text => "Query error: " ++ text
  | pool text => "Pool error: " ++ text

/-- Whether the error lies in configuration or parameters, not in running a statement. -/
def isConfiguration : Error → Bool
  | missingKey .. | unknownScope .. | unsupportedTemplate _ | unsupportedOperator _
  | invalidParams _ | notImplemented .. | unknownHook _ => true
  | validation _ | connection _ | query _ | pool _ => false

/-- Whether the error is that of a scope nobody registered. -/
def isUnknownScope : Error → Bool
  | unknownScope .. => true
  | _ => false

/-- The error of a name that is no identifier. -/
def ofIdent (fault : IdentFault) : Error := .validation (.ident fault)

/-- The error of a document that cannot be decoded. -/
def ofDecoding (cause : DecodeError) : Error := .invalidParams (.decoding cause)

end Error

end Listing
