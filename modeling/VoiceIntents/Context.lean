import VoiceIntents.Grammar.Build
import VoiceIntents.TypedModule.Render
import VoiceIntents.Yaml.Document

/-!
# Contexts

From the YAML text of a voice context to its document, its grammar and the text of its module.
-/

namespace VoiceIntents

/-- Why a text is no context document. -/
inductive DocumentFault where
  | empty
  | illegal (detail : String)
  deriving DecidableEq, Repr

def DocumentFault.describe : DocumentFault → String
  | .empty => "Document is empty"
  | .illegal detail => "Illegal yaml syntax: " ++ detail

/-- Why a context is not compiled. Scalars that their tag cannot read and values without a
text are not reported as faults of the context. -/
inductive ContextError where
  | document (fault : DocumentFault) (location : Location)
  | unreadable (cause : Yaml.Unreadable)
  | build (error : BuildError)
  deriving DecidableEq, Repr

namespace ContextError

/-- The message of a fault that is reported. -/
def report? : ContextError → Option String
  | .document fault location => some (location.label fault.describe)
  | .build (.invalid fault location) => some (location.label fault.describe)
  | .unreadable _ | .build (.unprintable _) => none

end ContextError

namespace Context

variable [Host] [Listing]

/-- The document of a context. Bare truth words stay text, and no mapping repeats a key. -/
def load (source : Option String) (text : String) : Except ContextError Yaml.Document :=
  match Yaml.readDocument Yaml.ImplicitRule.literal .refused text with
  | .ok (some d) =>
      if d.root = .scalar .null then .error (.document .empty (Grammar.inSource source)) else .ok d
  | .ok none => .error (.document .empty (Grammar.inSource source))
  | .error (.unreadable cause) => .error (.unreadable cause)
  | .error error => .error (.document (.illegal (error.describe text)) (Grammar.inSource source))

/-- The keys on the way to the lists of a context: the context in the document, the slots and
expressions in it, and every name in these. -/
def keys : List (Scalar → Bool) :=
  [(· = .text "context"), fun key => key = .text "slots" || key = .text "expressions",
    fun _ => true]

/-- The value of a document as a grammar is built from it. -/
def value (d : Yaml.Document) : Value := d.select keys d.root

def grammar (source : Option String) (text : String) : Except ContextError Grammar := do
  let d ← load source text
  match Grammar.ofValue source (value d) with
  | .ok g => return g
  | .error e => throw (.build e)

/-- The text of the module of a context, for a project if one is named. -/
def compile (source project : Option String) (text : String) : Except ContextError String := do
  let g ← grammar source text
  return (g.toModule project).render

end Context

end VoiceIntents
