/-!
# JSON Values

The values that a JSON text stands for, as far as its numbers are integers, and the names of an object
looked up in it.  A name that is missing and one whose value is `null` are not told apart.
-/

namespace Json

inductive Value
  | null
  | bool (b : Bool)
  | int (n : Int)
  | str (s : String)
  | list (items : List Value)
  | map (fields : List (String × Value))

namespace Value

/-- What a name of an object stands for. -/
def get (name : String) (fields : List (String × Value)) : Value := (fields.lookup name).getD null

/-- A name that is not there. -/
theorem get_eq_null {name : String} {fields : List (String × Value)}
    (h : name ∉ fields.map Prod.fst) : get name fields = null := by
  have hnone : fields.lookup name = none := by
    rw [List.lookup_eq_none_iff]
    rintro field hfield
    rw [bne_iff_ne]
    rintro rfl
    exact h (List.mem_map.mpr ⟨field, hfield, rfl⟩)
  rw [get, hnone, Option.getD_none]

/-- A name that is there only once. -/
theorem get_eq_of_mem {name : String} {value : Value} {fields : List (String × Value)}
    (hnodup : (fields.map Prod.fst).Nodup) (hmem : (name, value) ∈ fields) :
    get name fields = value := by
  have hsome : fields.lookup name = some value := by
    induction fields with
    | nil => cases hmem
    | cons field fields ih =>
      rw [List.map_cons, List.nodup_cons] at hnodup
      rcases List.mem_cons.mp hmem with rfl | hmem
      · exact List.lookup_cons_self
      · have hne : name ≠ field.1 := by
          rintro rfl
          exact hnodup.1 (List.mem_map.mpr ⟨_, hmem, rfl⟩)
        rw [List.lookup_cons, beq_false_of_ne hne]
        exact ih hnodup.2 hmem
  rw [get, hsome, Option.getD_some]

end Value

end Json
