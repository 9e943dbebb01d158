import Phrasebook.Json.Value
namespace Phrasebook.Json

-- What a value looks like as text, apart from how it is laid out: blanks may stand
-- between any two of its tokens.

def Spaces (gap : List Char) : Prop := ∀ c ∈ gap, isSpace c = true

inductive Gap : Bool → List Char → Prop where
  | first (spaces : Spaces gap) : Gap true gap
  | later (spaces : Spaces before) (spaces' : Spaces after) : Gap false (before ++ ',' :: after)

inductive Series (item : α → List Char → Prop) (close : Char) : Bool → List α → List Char → Prop where
  | close (spaces : Spaces gap) : Series item close first [] (gap ++ [close])
  | item (between : Gap first gap) (here : item a form) (later : Series item close false items rest) :
      Series item close first (a :: items) (gap ++ (form ++ rest))

mutual
inductive Written : Value → List Char → Prop where
  | scalar (value : Scalar) : Written (.scalar value) value.write
  | array (series : Series Written ']' true values text) : Written (.array values) ('[' :: text)
  | object (series : Series WrittenMember '}' true members text) : Written (.object members) ('{' :: text)
inductive WrittenMember : String × Value → List Char → Prop where
  | member (spaces : Spaces before) (spaces' : Spaces after) (written : Written value form) :
      WrittenMember (name,value) (quote name ++ (before ++ ':' :: (after ++ form)))
end

mutual
def Value.nesting : Value → Nat
  | .scalar _ => 0
  | .array values => nestingValues values + 1
  | .object members => nestingMembers members + 1
def nestingValues : List Value → Nat
  | [] => 0
  | value :: rest => max value.nesting (nestingValues rest)
def nestingMembers : List (String × Value) → Nat
  | [] => 0
  | (_,value) :: rest => max value.nesting (nestingMembers rest)
end

theorem nesting_value (member : value ∈ values) : value.nesting ≤ nestingValues values := by
  induction values with
  | nil => cases member
  | cons first values ih =>
    rw [nestingValues]
    rcases List.mem_cons.mp member with rfl | member
    · exact Nat.le_max_left _ _
    · exact Nat.le_trans (ih member) (Nat.le_max_right _ _)

theorem nestingMembers_append (one two : List (String × Value)) :
    nestingMembers (one ++ two) = max (nestingMembers one) (nestingMembers two) := by
  induction one with
  | nil => rw [List.nil_append,nestingMembers,Nat.zero_max]
  | cons member one ih => rw [List.cons_append,nestingMembers,nestingMembers,ih,Nat.max_assoc]

theorem spaces_newLine (level : Nat) : Spaces (newLine level) := by
  intro c member
  rcases List.mem_cons.mp member with rfl | member
  · rfl
  · rw [List.eq_of_mem_replicate member]
    rfl

theorem spaces_none : Spaces [] := nofun

theorem pretty_member (name : String) (written : Written value form) :
    WrittenMember (name,value) (quote name ++ ([':',' '] ++ form)) :=
  .member spaces_none (fun c member => by rw [List.mem_singleton.mp member]; rfl) written

mutual
theorem pretty_written (level : Nat) : (value : Value) → Written value (value.prettyAt level)
  | .scalar value => .scalar value
  | .array [] => .array (.close spaces_none)
  | .array (value :: rest) => by
    have series := Series.item (.first (spaces_newLine (level + 1))) (pretty_written (level + 1) value)
      (pretty_values (level + 1) rest (spaces_newLine level))
    rw [Value.prettyAt]
    simpa using Written.array series
  | .object [] => .object (.close spaces_none)
  | .object ((name,value) :: rest) => by
    have series := Series.item (.first (spaces_newLine (level + 1)))
      (pretty_member name (pretty_written (level + 1) value))
      (pretty_members (level + 1) rest (spaces_newLine level))
    rw [Value.prettyAt]
    simpa using Written.object series
theorem pretty_values (level : Nat) : (values : List Value) → Spaces gap →
    Series Written ']' false values (prettyValues level values ++ (gap ++ [']']))
  | [],spaces => .close spaces
  | value :: rest,spaces => by
    have series := Series.item (.later spaces_none (spaces_newLine level)) (pretty_written level value)
      (pretty_values level rest spaces)
    rw [prettyValues]
    simpa using series
theorem pretty_members (level : Nat) : (members : List (String × Value)) → Spaces gap →
    Series WrittenMember '}' false members (prettyMembers level members ++ (gap ++ ['}']))
  | [],spaces => .close spaces
  | (name,value) :: rest,spaces => by
    have series := Series.item (.later spaces_none (spaces_newLine level))
      (pretty_member name (pretty_written level value)) (pretty_members level rest spaces)
    rw [prettyMembers]
    simpa using series
end

end Phrasebook.Json
