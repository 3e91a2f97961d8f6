import BuildOrder.Json
import Mathlib.Data.List.Nodup

/-! What stands where in a JSON document: members by their names, strings and lists. -/
namespace BuildOrder.Json

/-- The member of an object with a name. -/
def member? (name : String) : Json → Option Json
  | .object members => members.lookup name
  | _ => none

def string? : Json → Option String
  | .string s => some s
  | _ => none

/-- The items of an array, where each is one for `item?`. -/
def list? {α : Type} (item? : Json → Option α) : Json → Option (List α)
  | .array items => items.mapM item?
  | _ => none

def stringMember? (name : String) (json : Json) : Option String :=
  (json.member? name).bind string?

/-- Whether no object in a document has two members of one name. -/
inductive DistinctNames : Json → Prop
  | string (s : String) : DistinctNames (.string s)
  | array {items : List Json} (hitems : ∀ item ∈ items, DistinctNames item) :
      DistinctNames (.array items)
  | object {members : List (String × Json)} (hnodup : (members.map (·.1)).Nodup)
      (hmembers : ∀ member ∈ members, DistinctNames member.2) : DistinctNames (.object members)

theorem string?_string (s : String) : string? (.string s) = some s :=
  rfl

theorem list?_map {α : Type} {item? : Json → Option α} {toJson : α → Json}
    (h : ∀ x, item? (toJson x) = some x) (xs : List α) :
    list? item? (.array (xs.map toJson)) = some xs := by
  unfold list?
  induction xs with
  | nil => rfl
  | cons x xs ih => simp [h, ih]

theorem distinctNames_strings (items : List String) : (Json.strings items).DistinctNames := by
  refine .array fun item hitem => ?_
  obtain ⟨s, -, rfl⟩ := List.mem_map.mp hitem
  exact .string s

end BuildOrder.Json
