/-! JSON values. -/
namespace Scribe
namespace Json

/-- Numbers as they are written: an integer has neither a fraction nor an exponent. -/
inductive Number where
  | integer (value : Int)
  /-- The mantissa times a power of ten. -/
  | decimal (negative : Bool) (mantissa : Nat) (exponent : Int)
  | infinity (negative : Bool)
  | undefined

inductive Value where
  | null
  | bool (value : Bool)
  | number (value : Number)
  | string (value : String)
  | array (elements : List Value)
  | object (members : List (String × Value))

/-- Of members with the same name the last one counts. -/
def member? {α : Type} (name : String) : List (String × α) → Option α
  | [] => none
  | (key, value) :: rest =>
    match member? name rest with
    | some later => some later
    | none => if key = name then some value else none

theorem mem_of_member? {α : Type} {name : String} {v : α} {ms : List (String × α)}
    (h : member? name ms = some v) : (name,v) ∈ ms := by
  induction ms with
  | nil => simp [member?] at h
  | cons m ms ih =>
    rcases m with ⟨key,u⟩
    rw [member?] at h
    cases hlater : member? name ms with
    | some later =>
      rw [hlater] at h
      exact .tail _ (ih (hlater.trans h))
    | none =>
      rw [hlater] at h
      obtain ⟨rfl,rfl⟩ : key = name ∧ u = v := by simpa using h
      exact .head _

end Json
end Scribe
