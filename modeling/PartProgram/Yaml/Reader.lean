/-
What is asked of a reader of documents.

The language of the documents has a reader of its own, which the work on settings and jobs is not concerned
with: it takes whatever value comes out, and tells documents that are malformed from those that spell a value
that does not exist.  So the reader is a parameter of that work.  The one that the command is run with reads a
part of the language and stands in `Yaml.Document`.

The language knows kinds of values that none of the values here stands for, such as days, or texts with half of a
pair of surrogates in them.  A reader says of a document with one of these that it is beyond what can be said here,
and so does the work on it.
-/
import PartProgram.Value.Basic
import PartProgram.Yaml.Cursor

namespace PartProgram.Yaml

/-- What reads documents. -/
class Reader where
  /-- The value of the document that a text holds. -/
  read : String → Except Error Value

/-- Whether a document was refused as malformed, and not for a value in it. -/
def Error.isSyntax : Error → Bool
  | value _ | beyond => false
  | _ => true

end PartProgram.Yaml
