import Std.Data.ExtTreeMap
namespace Phrasebook

-- Tables that are filled row by row. The last row of a key decides, so the order
-- of the rows matters only where a key has several values.

def SingleValued (rows : List (α × β)) : Prop :=
  ∀ key value value', (key,value) ∈ rows → (key,value') ∈ rows → value = value'

theorem lookup_member [BEq α] [LawfulBEq α] {rows : List (α × β)} (found : rows.lookup key = some value) :
    (key,value) ∈ rows := by
  obtain ⟨before,after,rfl,_⟩ := List.lookup_eq_some_iff.mp found
  simp

theorem member_lookup [BEq α] [LawfulBEq α] {rows : List (α × β)} (member : (key,value) ∈ rows) :
    (rows.lookup key).isSome := by
  rw [Option.isSome_iff_ne_none]
  intro missing
  simpa using List.lookup_eq_none_iff.mp missing (key,value) member

section
variable [Ord α] [Std.TransOrd α] [Std.LawfulEqOrd α] [BEq α] [LawfulBEq α]

def addRow (table : Std.ExtTreeMap α β) (row : α × β) : Std.ExtTreeMap α β := table.insert row.1 row.2

theorem getElem?_addRow (table : Std.ExtTreeMap α β) (row : α × β) (key : α) :
    (addRow table row)[key]? = ([row].lookup key).or table[key]? := by
  obtain ⟨own,value⟩ := row
  rw [addRow,Std.ExtTreeMap.getElem?_insert,List.lookup_cons]
  by_cases same : key = own
  · simp [same]
  · have apart : compare own key ≠ .eq := fun equal => same (Std.LawfulEqOrd.eq_of_compare equal).symm
    simp [beq_false_of_ne same,apart]

theorem getElem?_addRows (rows : List (α × β)) (table : Std.ExtTreeMap α β) (key : α) :
    (rows.foldl addRow table)[key]? = (rows.reverse.lookup key).or table[key]? := by
  induction rows generalizing table with
  | nil => rfl
  | cons row rows ih =>
    rw [List.foldl_cons,ih,getElem?_addRow,List.reverse_cons,List.lookup_append,Option.or_assoc]

theorem addRows_last (rows : List (α × β)) (key : α) :
    (rows.foldl addRow ∅)[key]? = rows.reverse.lookup key := by
  rw [getElem?_addRows,Std.ExtTreeMap.getElem?_empty,Option.or_none]

theorem addRows_keys (rows : List (α × β)) (key : α) :
    (rows.foldl addRow ∅)[key]?.isSome ↔ ∃ value, (key,value) ∈ rows := by
  rw [addRows_last]
  constructor
  · intro present
    obtain ⟨value,found⟩ := Option.isSome_iff_exists.mp present
    exact ⟨value,List.mem_reverse.mp (lookup_member found)⟩
  · rintro ⟨value,member⟩
    exact member_lookup (List.mem_reverse.mpr member)

theorem addRows_value {rows : List (α × β)} (single : SingleValued rows) (key : α) (value : β) :
    (rows.foldl addRow ∅)[key]? = some value ↔ (key,value) ∈ rows := by
  rw [addRows_last]
  constructor
  · exact fun found => List.mem_reverse.mp (lookup_member found)
  · intro member
    obtain ⟨other,found⟩ := Option.isSome_iff_exists.mp (member_lookup (List.mem_reverse.mpr member))
    rw [found,single key other value (List.mem_reverse.mp (lookup_member found)) member]

end

end Phrasebook
