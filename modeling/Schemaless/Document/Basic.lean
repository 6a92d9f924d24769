import Schemaless.Value.Basic

/-!
# Documents

A document is a map from field names to values, and a predicate is a document that is read as a
condition. Every stored document has a value under the native key field.
-/

namespace Schemaless

/-- One record without a schema. -/
abbrev Document := SortedMap Value

/-- A condition on documents, itself written as a document. -/
abbrev Predicate := SortedMap Value

/-- The field that tells the documents of a collection apart. -/
def nativeKey : String := "_id"

namespace Document

/-- A document as a value. -/
def toValue (d : Document) : Value := .obj d.entries

/-- The document of an object; the last field of a name counts. -/
def ofValue? : Value → Option Document
  | .obj fields => some (SortedMap.ofList fields)
  | _ => none

/-- The fields of `new`, and those of `old` that `new` lacks. -/
def overlay (old new : Document) : Document :=
  old.entries.foldl (fun d f => d.insertNew f.1 f.2) new

end Document

end Schemaless
