import QueryShaping.Request.Read
import QueryShaping.Shaping.Patch
import QueryShaping.Statement.Read

/-!
# Documents

A document holds a statement under `queryAST` and beside it the parts of a request. Shaping a
document gives the written form of the statement that the request makes of its statement.

## What this module delivers

- `readString`: a text read as anything that has a reader.
- `Document.read`: the reader of documents.
- `Document.shapeText`: the text of the shaped statement, or why there is none.
-/

set_option autoImplicit false

namespace QueryShaping

/-- A statement and a request for it. -/
structure Document where
  request : Request
  statement : Statement

/-- Reads a text that holds one value and nothing else. -/
def readChars {α : Type} (read : Reading → Source → Except ReadError α) (cs : List Char) :
    Except ReadError α := do
  let (src, surplus) := Source.ofChars cs
  let a ← read .whole src
  if surplus then .error (.malformed .trailingCharacters) else return a

/-- Reads a text that holds one value and nothing else. -/
def readString {α : Type} (read : Reading → Source → Except ReadError α) (s : String) :
    Except ReadError α :=
  readChars read s.toList

/-- Why a document gives no statement. -/
inductive Document.Failure where
  | unreadable (cause : ReadError)
  | rejected (cause : Rejection)

namespace Document

def statementField : Field := .named 0 "queryAST"

/-- The only field of a document that is read straight from its text. -/
def outline : Outline := .record "QueryDocument" [statementField]

/-- Reads a document. The statement is read where it stands; the request is read from what was
stored, after the end of the document. -/
def read (way : Reading) (src : Source) : Except ReadError Document := do
  let st ← Record.readMap outline (fun way r _ =>
    r.required statementField (Statement.read way)) way src
  let req ← Request.read .stored src
  return ⟨req, st⟩

/-- The text of a statement. -/
def text (pretty : Bool) (st : Statement) : String :=
  if pretty then st.toJson.pretty else st.toJson.compact

/-- Reads the text of a document. -/
def ofText (s : String) : Except Failure Document :=
  (readString read s).mapError .unreadable

/-- The statement that a document asks for. -/
def shape (d : Document) : Except Failure Statement :=
  (d.request.shape d.statement).mapError .rejected

/-- The text of the statement that the text of a document asks for. -/
def shapeText (pretty : Bool) (s : String) : Except Failure String := do
  let d ← ofText s
  return text pretty (← d.shape)

namespace Failure

/-- What could not be done. -/
def context : Failure → String
  | .unreadable _ => "failed to parse query document"
  | .rejected _ => "failed to compile query shape"

/-- Why it could not be done. -/
def cause : Failure → String
  | .unreadable e => e.message
  | .rejected r => r.message

end Failure

end Document

end QueryShaping
