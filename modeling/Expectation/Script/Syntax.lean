import Expectation.Document.Edit
import Expectation.Handler.Program

/-!
# Scripts

A handler may be written as a script: steps that evaluate, branch, repeat, catch failures and fail,
with expressions for values. The invocation remembers the item of a repetition and the failure that
was caught last.
-/

namespace Expectation.Script

/-- What an expression may take from the context. -/
inductive ContextField where
  | name
  | typeName
  | flags
  | arguments
  | nesting
  | errorMode
  | subject
  | shown
  | newDocument
  | format
  deriving Repr, DecidableEq

/-- An expression for a value. -/
inductive Expression where
  | literal (template : Template)
  | subject
  | argument (position : Int)
  | item
  | flag (name : Text)
  | negation (e : Expression)
  | truth (e : Expression)
  | sameTruth (a b : Expression)
  | length (e : Expression)
  | exceeds (a b : Expression)
  | isElement (part whole : Expression)
  | equal (a b : Expression)
  | inspect (e : Expression)
  | inspectTo (e depth : Expression)
  | difference (actual expected : Expression)
  | standardMessage
  | unmarked (name : Text)
  | failureMessage
  | context (field : ContextField)

mutual

/-- A step of a script. -/
inductive Step where
  | call (route : Route) (target : Expression) (name : Template) (arguments : List Expression)
  | callArguments (target : Expression)
  | bind (target : Option Expression) (name : Template) (arguments : List Expression)
  | fail (route : Route) (message : Message) (arguments : List Expression)
    (actual expected : Option Expression)
  | setMode (e : Expression)
  | setFlag (name : Text) (e : Expression)
  | setSubject (e : Expression)
  | setName (name : Text)
  | pushArgument (e : Expression)
  | setFormat (value : Template)
  | branch (condition : Expression) (yes no : List Step)
  | each (e : Expression) (body : List Step)
  | attempt (body caught otherwise : List Step)
  | attach (actual expected : Expression)
  | reraise
  | raise (cause : Fault)
  | log (values : List Expression)

/-- The message of a failing step. -/
inductive Message where
  | absent
  | value (template : Template)
  | fault (cause : Fault)
  | caught
  | written (edits : List (Edit Text)) (steps : List Step) (replacement : Option Document)

end

end Expectation.Script
