/-!
# The fields of a record

Both text formats write a record either by name or by position.  Once its fields are found, reading
a record is the same in both: a field is required, or it has a value that stands for its absence.

* `Fields` — where each field's value is found.
* `Fields.named`, `Fields.listed` — the fields of the two spellings.
* `Fields.required`, `Fields.optional` — reading one field.
-/

namespace Netscribe

/-- **The fields of a record**: the value written for a name, if any. -/
structure Fields (α : Type) where
  /-- The value written for a field. -/
  get? : String → Option α

namespace Fields

variable {α β : Type}

/-- Fields written by name; the first entry of a name counts. -/
def named (entries : List (String × α)) : Fields α :=
  ⟨fun name => entries.lookup name⟩

/-- Fields written by position, in the order of `names`. -/
def listed (names : List String) (items : List α) : Fields α :=
  ⟨fun name => (names.zip items).lookup name⟩

/-- Reads a field that must be there. -/
def required (fields : Fields α) (name : String) (read : α → Option β) : Option β :=
  (fields.get? name).bind read

/-- Reads a field that may be missing. -/
def optional (fields : Fields α) (name : String) (absent : β) (read : α → Option β) : Option β :=
  match fields.get? name with
  | none => some absent
  | some a => read a

end Fields

end Netscribe
