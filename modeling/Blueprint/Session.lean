import Blueprint.Document.Edit
import Blueprint.Lookup.Output

/-! # Sessions

In a session, edits and questions come in any order. What is remembered is forgotten
with every edit that may change it, and kept through the others: a new schema, a new
entity that no lost reference waits for, and attempts to resolve what is not open.
-/

namespace Blueprint

/-- A question about the columns of a document. -/
inductive Query where
  | flatten (entity : EntityId)
  | primary (entity : EntityId)
  | isComposite (entity : EntityId)
  | uniqueGroups (entity : EntityId)
  | fields (entity : EntityId)
  | relations
  | generate (b : Output.Backend)
deriving DecidableEq, Repr

/-- What a question is answered with. -/
inductive View where
  | entries (entries : List Entry)
  | isComposite (b : Bool)
  | groups (groups : List (String × List Entry))
  | fields (fields : List Entry.Field)
  | relations (relations : List Relation)
  | files (files : Output.Files)
deriving DecidableEq, Repr

/-- The answer from a memo and lookups by handle. -/
def Query.lookup (d : Document) : Query → Lookup View
  | flatten entity => View.entries <$> Lookup.flatten d entity
  | primary entity => View.entries <$> Lookup.primary d entity
  | isComposite entity => View.isComposite <$> Lookup.isComposite d entity
  | uniqueGroups entity => View.groups <$> Lookup.uniqueGroups d entity
  | fields entity => View.fields <$> Lookup.fields d entity
  | relations => View.relations <$> Lookup.relations d
  | generate b => View.files <$> Lookup.generate d b

/-- Whether a successful edit of the document makes it forget. To retry or to resolve a
reference does, whether or not a target is found. -/
def Document.forgets (d : Document) : Edit → Bool
  | .addSchema _ => false
  | .addEntity _ _ => !d.lostReferences.isEmpty
  | .resolveReference id => (d.member? id).any fun m => m.isOpen
  | .resolveReferences => d.members.any fun m => m.isOpen && !m.isLost
  | _ => true

/-- A document and what it remembers. -/
structure Session where
  document : Document
  memo : Memo
deriving DecidableEq, Repr

inductive Action where
  | edit (e : Edit)
  | ask (q : Query)
deriving DecidableEq, Repr

namespace Session

/-- A document that remembers nothing yet. -/
def start (d : Document) : Session := ⟨d, []⟩

/-- The session after an action. An edit that fails leaves it as it was. -/
def act (s : Session) : Action → Session
  | .edit e =>
    match s.document.edit e with
    | .ok (next, _) => ⟨next, if s.document.forgets e then [] else s.memo⟩
    | .error _ => s
  | .ask q => ⟨s.document, ((q.lookup s.document).run.run s.memo).2⟩

def run (s : Session) (actions : List Action) : Session :=
  actions.foldl act s

/-- What a question is answered in the session. -/
def answer (s : Session) (q : Query) : Except Fault View :=
  ((q.lookup s.document).run.run s.memo).1

end Session

end Blueprint
