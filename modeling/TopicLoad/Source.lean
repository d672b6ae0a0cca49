import TopicLoad.Json.Basic
import TopicLoad.Mismatch

/-! What a document format has to offer so that typed values can be read from it. The shape of a
script is described once, in these terms, and read from JSON text, from JSON values and from YAML. -/
namespace TopicLoad

/-- A document format: `ρ α` reads an `α` from it. -/
class Source (ρ : Type → Type) extends Functor ρ where
  text : ρ String
  flag : ρ Bool
  decimal : ρ Float
  /-- A whole number of 64 bits with a sign. -/
  whole : ρ Int
  /-- Anything at all. -/
  any : ρ Json
  /-- Reads and then accepts or refuses. -/
  checked {α β : Type} (accept : α → Except Mismatch β) (read : ρ α) : ρ β
  /-- An absent value is written as `null` or left out. -/
  optional {α : Type} (read : ρ α) : ρ (Option α)
  list {α : Type} (read : ρ α) : ρ (List α)
  table {α : Type} (read : ρ α) : ρ (Keyed α)
  /-- Named fields; one that is missing leaves `start` as it is, an unknown one is passed over. -/
  record {α : Type} (name : String) (start : α) (fields : List (String × ρ (α → α))) : ρ α

namespace Source

variable {ρ : Type → Type} [Source ρ] {α β : Type}

def field (name : String) (read : ρ β) (store : β → α → α) : String × ρ (α → α) :=
  (name, store <$> read)

end Source
end TopicLoad
