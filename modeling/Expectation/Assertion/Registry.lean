import Expectation.Pattern.Expansion
import Expectation.Classifier.Registry

/-!
# Assertion rules

A rule is what an assertion's name stands for on one type: a handler, the flags of the expansion
that gave the name and the pattern it was expanded from. Rules are registered for several types and
patterns at once, all of them or none. A name that is not found on a type is looked for on the
types that it is derived from.
-/

namespace Expectation

/-- What a name stands for on a type. Follows `AssertionRule`, `assertive.registry:19–34`. -/
structure Rule where
  handler : HandlerId
  flags : Flags
  pattern : Text
  deriving Repr, DecidableEq

/-- The rules of a type by name, oldest first. -/
abbrev RuleTable := Table Text Rule

/-- The rule tables of the registered types. Follows `AssertionRegistry`,
`assertive.registry:37–44`. -/
structure AssertionRegistry where
  tables : Table Text RuleTable
  deriving Repr, DecidableEq

namespace AssertionRegistry

/-- The registry without rules, for the universal type. -/
def initial : AssertionRegistry := ⟨Table.empty.set Classifier.universalName .empty⟩

/-- The rules of a type's name. -/
def rules (registry : AssertionRegistry) (typeName : Text) : RuleTable :=
  (registry.tables.get? typeName).getD .empty

/-- Make room for the rules of a type. Follows `AssertionRegistry.add_type`,
`assertive.registry:46–47`. -/
def addType (registry : AssertionRegistry) (typeName : Text) : AssertionRegistry :=
  ⟨registry.tables.setNew typeName .empty⟩

/-- The expansions of patterns, each with its pattern; `none` stands for a pattern that is no text.
Follows `assertive.registry:65–68`. -/
def expandAll : List (Option Text) → Except ConfigurationFault (List (Text × Expansion))
  | [] => .ok []
  | none :: _ => .error (.pattern .empty)
  | some pattern :: rest =>
    match Pattern.fault? pattern with
    | some fault => .error (.pattern fault)
    | none =>
      match Pattern.expand? pattern with
      | none => .error (.pattern .onlyFlags)
      | some expansions =>
        match expandAll rest with
        | .ok others => .ok (expansions.map (fun expansion => (pattern, expansion)) ++ others)
        | .error cause => .error cause

/-- The rules that expansions add to a table: one for each name, from the first expansion that gives
it; none of the names may be in the table. Follows `assertive.registry:76–84`. -/
def newRules (table : RuleTable) (owner : Option Text) (handler : HandlerId) :
    (seen : List Text) → List (Text × Expansion) → Except ConfigurationFault (List (Text × Rule))
  | _, [] => .ok []
  | seen, (pattern, expansion) :: rest =>
    if table.contains expansion.text then .error (.redefined expansion.text owner)
    else if expansion.text ∈ seen then newRules table owner handler seen rest
    else
      match newRules table owner handler (expansion.text :: seen) rest with
      | .ok others => .ok ((expansion.text, ⟨handler, expansion.flags, pattern⟩) :: others)
      | .error cause => .error cause

/-- The rules that expansions add for each of some types: the name of the type, the name of the
assertion and the rule. Follows `assertive.registry:70–84`. -/
def pending (registry : AssertionRegistry) (handler : HandlerId)
    (expansions : List (Text × Expansion)) :
    List Classifier → Except ConfigurationFault (List (Text × Text × Rule))
  | [] => .ok []
  | type :: types =>
    match registry.tables.get? type.name with
    | none => .error (.noSuchType type.name)
    | some table =>
      let owner := if type.isUniversal then none else some type.name
      match newRules table owner handler [] expansions with
      | .error cause => .error cause
      | .ok rules =>
        match registry.pending handler expansions types with
        | .ok others => .ok (rules.map (fun rule => (type.name, rule)) ++ others)
        | .error cause => .error cause

/-- Add a rule to the table of a type, unless the table has the name. -/
def addRule (registry : AssertionRegistry) (typeName name : Text) (rule : Rule) :
    AssertionRegistry :=
  ⟨registry.tables.set typeName ((registry.rules typeName).setNew name rule)⟩

/-- Add rules, in order. -/
def addRules (registry : AssertionRegistry) (rules : List (Text × Text × Rule)) :
    AssertionRegistry :=
  rules.foldl (fun registry rule => registry.addRule rule.1 rule.2.1 rule.2.2) registry

/-- Register a handler for every expansion of some patterns on some types. Follows
`AssertionRegistry.register`, `assertive.registry:49–92`. -/
def register (registry : AssertionRegistry) (types : List Classifier)
    (patterns : List (Option Text)) (handler : Option HandlerId) :
    Except ConfigurationFault AssertionRegistry := do
  match handler with
  | none => throw .handlerNotCallable
  | some handler =>
    let expansions ← expandAll patterns
    let rules ← registry.pending handler expansions types
    pure (registry.addRules rules)

/-- The rule of a name on a type itself. Follows `AssertionRegistry.find`,
`assertive.registry:94–95`. -/
def find? (registry : AssertionRegistry) (type : Classifier) (name : Text) : Option Rule :=
  (registry.rules type.name).get? name

/-- The rule of a name on the first of some types that has one. -/
def findOn? (registry : AssertionRegistry) (name : Text) :
    List Classifier → Option (Classifier × Rule)
  | [] => none
  | type :: types =>
    match registry.find? type name with
    | some rule => some (type, rule)
    | none => registry.findOn? name types

/-- The rule of a name on a type or the nearest type that it is derived from. Follows
`AssertionRegistry.resolve`, `assertive.registry:97–103`. -/
def resolve? (registry : AssertionRegistry) (type : Classifier) (name : Text) :
    Option (Classifier × Rule) :=
  registry.findOn? name type.lineage

/-- The names registered for a type, oldest first. Follows `AssertionRegistry.names`,
`assertive.registry:105–106`. -/
def names (registry : AssertionRegistry) (typeName : Text) : List Text :=
  (registry.rules typeName).keys

/-- The types, of those given, that a name is registered for. Follows
`AssertionRegistry.defined_for`, `assertive.registry:108–109`. -/
def definedFor (registry : AssertionRegistry) (name : Text) (types : List Classifier) :
    List Classifier :=
  types.filter fun type => (registry.rules type.name).contains name

/-- Put a name in its place among names in ascending order, unless it is there. -/
def insertName (name : Text) : List Text → List Text
  | [] => [name]
  | other :: others =>
    if name = other then other :: others
    else if Text.precedes name other then name :: other :: others
    else other :: insertName name others

/-- Every name registered for any type, in ascending order and once. Follows
`AssertionRegistry.all_names`, `assertive.registry:111–113`. -/
def allNames (registry : AssertionRegistry) : List Text :=
  (registry.tables.entries.flatMap fun entry => entry.2.keys).foldr insertName []

/-- A registry of the same rules. Follows `AssertionRegistry.copy`, `assertive.registry:115–116`. -/
def copy (registry : AssertionRegistry) : AssertionRegistry := ⟨.ofList registry.tables.entries⟩

end AssertionRegistry

end Expectation
