import ExprTyping.Libraries
import ExprTyping.Yaml.Decode
import ExprTyping.Yaml.Document

/-!
# Fields of session files

A session file is a mapping that has fields for the domain, for the time pattern and for the
declared symbols. Every field may be missing or null. Other fields are ignored.
-/

namespace ExprTyping.Yaml.SessionFile

/-- Declares a symbol by an entry. Null stands for an empty annotation, and a merge key does not
replace another annotation by it. -/
def putAnnotation (o : Occurrence) (env : Bindings Text) (name : Text) (value : Node) :
    Decode (Bindings Text) := do
  match ← Decode.text value with
  | some source => return env.insert name source
  | none => return if o.merged && (env.get? name).isSome then env else env.insert name []

/-- Sets a field by an entry. A field cannot be set twice, and null does not set it. -/
def putField (o : Occurrence) (fields : SessionFields) (name : Text) (value : Node) :
    Decode SessionFields := do
  let isField := [Text.ofString "domain", "time_format", "env"].contains name
  if isField && o.again then
    Decode.mismatch
    return fields
  if name = Text.ofString "domain" then
    return { fields with domain := (← Decode.text value).getD fields.domain }
  if name = Text.ofString "time_format" then
    return { fields with timeFormat := (← Decode.text value).getD fields.timeFormat }
  if name = Text.ofString "env" then
    return { fields with env := ← Decode.mapping putAnnotation fields.env value }
  return fields

/-- What is said of a file that is no session file. -/
def refusal : Text := "the session file has another form than expected"

/-- The fields that a file sets. A mapping with a merge key that has a collection as a key is a
crash. -/
def decode (content : Text) : Except DecodeFailure SessionFields :=
  match Node.ofText? content with
  | none => .error (.refused refusal)
  | some node =>
    (Decode.run (Decode.mapping putField ⟨[], [], .empty⟩ node)).mapError fun
      | .malformed => .refused refusal
      | .collectionKey => .crashed

end ExprTyping.Yaml.SessionFile
