import DashboardScript.Json.Record

namespace DashboardScript.Json

-- The property holds of the decoder of each field.
def Record.Every (P : {α : Type} → Decoder α → Prop) : (types : List Type) → Row Field types → Prop
  | [], _ => True
  | _ :: types, (field, fields) => P field.value ∧ Every P types fields

theorem Record.Every.mono {P Q : {α : Type} → Decoder α → Prop}
    (hpq : ∀ {α : Type} {decoder : Decoder α}, P decoder → Q decoder) {types : List Type}
    {fields : Row Field types} (h : Every P types fields) : Every Q types fields := by
  induction types with
  | nil => trivial
  | cons α types ih =>
      obtain ⟨field, fields⟩ := fields
      exact ⟨hpq h.1, ih h.2⟩

-- What passes from decoders to the decoders that are made of them.
structure Decoder.Closed (P : {α : Type} → Decoder α → Prop) : Prop where
  text : P text
  flag : P flag
  word : P word
  number : P number
  any : P any
  optional {α : Type} {value : Decoder α} : P value → P (optional value)
  list {α : Type} {item : Decoder α} : P item → P (list item)
  record {α : Type} {shape : Shape α} :
    Record.Every P shape.types shape.fields → P shape.decoder

end DashboardScript.Json
