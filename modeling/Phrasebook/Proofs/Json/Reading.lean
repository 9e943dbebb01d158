import Mathlib.Data.List.Forall2
import Phrasebook.Json.Record
import Phrasebook.Proofs.Json.Written
namespace Phrasebook.Json

-- Readers take what was written off the front of a text, however it is laid out.

-- Neither a blank nor the end of an array comes first.
def Solid (form : List Char) : Prop := ∃ c tail, form = c :: tail ∧ isSpace c = false ∧ c ≠ ']'

structure ReadAs (reader : Reader α) (form : List Char) (value : α) : Prop where
  solid : Solid form
  taken : ∀ gap rest, Spaces gap → reader (gap ++ (form ++ rest)) = .ok (value,rest)

theorem readAs_mapped {reader : Reader α} (reads : ReadAs reader form a) (f : α → β) :
    ReadAs (fun text => do let (value,rest) ← reader text; .ok (f value,rest)) form (f a) where
  solid := reads.solid
  taken gap rest spaces := by
    rw [reads.taken gap rest spaces]
    rfl

theorem skipSpace_gap (spaces : Spaces gap) (visible : isSpace c = false) (rest : List Char) :
    skipSpace (gap ++ c :: rest) = c :: rest := by
  rw [skipSpace,List.dropWhile_append_of_pos spaces,List.dropWhile_cons_of_neg (by simp [visible])]

theorem hexFour_read (small : code < 0x20) : Text.hexValue? (Text.hexFour code) = some code := by
  have all : ∀ code : Fin 0x20, Text.hexValue? (Text.hexFour code) = some code.val := by decide
  exact all ⟨code,small⟩

theorem decode_char (c : Char) (later : List Piece) :
    decodePieces (.char c :: later) = (decodePieces later).map fun (text,rest) => (c :: text,rest) := rfl

theorem decode_control (small : c.toNat < 0x20) (later : List Piece) :
    decodePieces (.unit c.toNat :: later) = (decodePieces later).map fun (text,rest) => (c :: text,rest) := by
  have high : Text.isHighSurrogate c.toNat = false := by
    simp only [Text.isHighSurrogate,Bool.and_eq_false_iff,decide_eq_false_iff_not]
    omega
  have low : Text.isLowSurrogate c.toNat = false := by
    simp only [Text.isLowSurrogate,Bool.and_eq_false_iff,decide_eq_false_iff_not]
    omega
  rcases later with _ | ⟨_ | _ | _ | _,later⟩ <;> simp [decodePieces,high,low]

theorem pieces_plain (quote : c ≠ '"') (backslash : c ≠ '\\') (printed : ¬c.toNat < 0x20) (rest : List Char) :
    pieces (c :: rest) = .char c :: pieces rest := by
  rw [pieces.eq_def]
  split <;> simp_all

theorem decode_escaped (c : Char) (rest : List Char) : decodePieces (pieces (escapeChar c ++ rest)) =
    (decodePieces (pieces rest)).map fun (text,rest) => (c :: text,rest) := by
  rw [← decode_char]
  unfold escapeChar
  split
  · subst c; rfl
  split
  · subst c; rfl
  split
  · subst c; rfl
  split
  · subst c; rfl
  split
  · subst c; rfl
  split
  · subst c; rfl
  split
  · subst c; rfl
  split
  · rename_i small
    have read := hexFour_read small
    rw [decode_char,← decode_control small]
    simp only [Text.hexFour,List.cons_append,List.nil_append,pieces] at read ⊢
    rw [read]
  · rename_i quote backslash _ _ _ _ _ printed
    rw [List.singleton_append,pieces_plain quote backslash printed]

theorem readString_quoted (content : String) (rest : List Char) :
    readString (content.toList.flatMap escapeChar ++ '"' :: rest) = .ok (content,rest) := by
  have decoded : ∀ text : List Char,
      decodePieces (pieces (text.flatMap escapeChar ++ '"' :: rest)) = .ok (text,rest) := by
    intro text
    induction text with
    | nil => rfl
    | cons c text ih => rw [List.flatMap_cons,List.append_assoc,decode_escaped,ih]; rfl
  rw [readString,decoded]
  simp [Except.map]

theorem quote_append (content : String) (rest : List Char) :
    quote content ++ rest = '"' :: (content.toList.flatMap escapeChar ++ '"' :: rest) := by
  simp [quote]

theorem quote_solid (content : String) : Solid (quote content) := ⟨_,_,rfl,rfl,by decide⟩

theorem readScalar_quoted (spaces : Spaces gap) (content : String) (rest : List Char) :
    readScalar (gap ++ (quote content ++ rest)) = .ok (some (.string content),rest) := by
  rw [quote_append,readScalar,skipSpace_gap spaces rfl]
  simp [readString_quoted,Except.map]

theorem readText_written (written : Written (.scalar (.string content)) form) : ReadAs readText form content := by
  cases written with
  | scalar =>
    refine ⟨quote_solid content,fun gap rest spaces => ?_⟩
    rw [Scalar.write,readText,readScalarAs,readScalar_quoted spaces]
    rfl

theorem readVariant_quoted (known : ofName? name = some value) :
    ReadAs (readVariant depth ofName?) (quote name) value where
  solid := quote_solid name
  taken gap rest spaces := by
    rw [quote_append,readVariant,skipSpace_gap spaces rfl]
    simp [readString_quoted,readVariant.known,known,bind,Except.bind]

theorem readOptional_quoted (reads : ReadAs reader (quote name) value) :
    ReadAs (readOptional reader) (quote name) (some value) where
  solid := quote_solid name
  taken gap rest spaces := by
    have own := reads.taken [] rest nofun
    rw [quote_append] at own ⊢
    rw [readOptional,skipSpace_gap spaces rfl]
    simp only [List.nil_append] at own
    simp [own,Except.map]

-- Arrays. Every item takes a character at least, so the length of the text is
-- fuel enough.
theorem nextElement_item (between : Gap first gap) (solid : Solid form) (rest : List Char) :
    nextElement first (gap ++ (form ++ rest)) = .ok (true,form ++ rest) := by
  obtain ⟨c,tail,rfl,visible,stays⟩ := solid
  cases between with
  | first spaces =>
    rw [List.cons_append,nextElement,skipSpace_gap spaces visible]
    simp
  | later spaces spaces' =>
    rw [List.append_assoc,List.cons_append,List.cons_append,nextElement,skipSpace_gap spaces rfl]
    simp [skipSpace_gap spaces' visible,stays]

theorem nextElement_close (spaces : Spaces gap) (first : Bool) (rest : List Char) :
    nextElement first (gap ++ ']' :: rest) = .ok (false,']' :: rest) := by
  rw [nextElement,skipSpace_gap spaces rfl]
  rfl

theorem readElements_series
    (reads : List.Forall₂ (fun value a => ∀ form, Written value form → ReadAs reader form a) values items)
    (series : Series Written ']' first values text) (enough : text.length < fuel) (rest : List Char) :
    readElements reader fuel first (text ++ rest) = .ok (items,rest) := by
  induction series generalizing items fuel with
  | close spaces =>
    cases reads
    obtain ⟨fuel,rfl⟩ := Nat.exists_eq_add_one_of_ne_zero (Nat.ne_zero_of_lt enough)
    rw [List.append_assoc,List.singleton_append,readElements,nextElement_close spaces]
    rfl
  | @item first gap value form values text between here later ih =>
    obtain ⟨fuel,rfl⟩ := Nat.exists_eq_add_one_of_ne_zero (Nat.ne_zero_of_lt enough)
    cases reads with
    | @cons _ value _ items head tail =>
      have own := head form here
      have nonempty : 0 < form.length := by
        obtain ⟨_,_,rfl,_⟩ := own.solid
        exact Nat.succ_pos _
      simp only [List.length_append] at enough
      have onward : readElements reader fuel false (text ++ rest) = .ok (items,rest) := ih tail (by omega)
      have taken := own.taken [] (text ++ rest) nofun
      rw [List.nil_append] at taken
      rw [List.append_assoc,List.append_assoc,readElements,nextElement_item between own.solid]
      simp [taken,onward,bind,Except.bind]

theorem readScalar_open (spaces : Spaces gap) (bracket : c = '[' ∨ c = '{') (rest : List Char) :
    readScalar (gap ++ c :: rest) = .ok (none,c :: rest) := by
  rcases bracket with rfl | rfl <;> rw [readScalar,skipSpace_gap spaces rfl] <;> rfl

theorem readArray_written (deep : depth ≠ 0)
    (reads : List.Forall₂ (fun value a => ∀ form, Written value form → ReadAs reader form a) values items)
    (written : Written (.array values) form) : ReadAs (readArray depth reader) form items := by
  cases written with
  | @array _ text series =>
    refine ⟨⟨_,_,rfl,rfl,by decide⟩,fun gap rest spaces => ?_⟩
    have enough : text.length < (text ++ rest).length.succ := by rw [List.length_append]; omega
    have inside := readElements_series reads series enough rest
    rw [List.cons_append,readArray,readScalar_open spaces (.inl rfl)]
    simp only [bind,Except.bind,if_neg deep,inside]

theorem readColon_gap (spaces : Spaces gap) (rest : List Char) : readColon (gap ++ ':' :: rest) = .ok rest := by
  rw [readColon,skipSpace_gap spaces rfl]
  rfl

theorem nextKey_item (between : Gap first gap) (name : String) (rest : List Char) :
    nextKey first (gap ++ (quote name ++ rest)) = .ok (true,name.toList.flatMap escapeChar ++ '"' :: rest) := by
  rw [quote_append]
  cases between with
  | first spaces =>
    rw [nextKey,skipSpace_gap spaces rfl]
    rfl
  | later spaces spaces' =>
    rw [List.append_assoc,List.cons_append,nextKey,skipSpace_gap spaces rfl]
    simp [skipSpace_gap spaces' (show isSpace '"' = false from rfl)]

theorem nextKey_close (spaces : Spaces gap) (first : Bool) (rest : List Char) :
    nextKey first (gap ++ '}' :: rest) = .ok (false,rest) := by
  rw [nextKey,skipSpace_gap spaces rfl]
  rfl

inductive Fills (member : σ → String → Reader σ) : σ → List (String × Value) → σ → Prop where
  | nil : Fills member state [] state
  | cons (here : ∀ before after form rest, Spaces before → Spaces after → Written value form →
        member state name (before ++ ':' :: (after ++ (form ++ rest))) = .ok (state',rest))
      (later : Fills member state' members state'') : Fills member state ((name,value) :: members) state''

theorem readMembers_series (fills : Fills member state members state')
    (series : Series WrittenMember '}' first members text) (enough : text.length < fuel) (rest : List Char) :
    readMembers member fuel first state (text ++ rest) = .ok (state',rest) := by
  induction series generalizing state fuel with
  | close spaces =>
    cases fills
    obtain ⟨fuel,rfl⟩ := Nat.exists_eq_add_one_of_ne_zero (Nat.ne_zero_of_lt enough)
    rw [List.append_assoc,List.singleton_append,readMembers,nextKey_close spaces]
    rfl
  | @item first gap named form members text between here later ih =>
    obtain ⟨fuel,rfl⟩ := Nat.exists_eq_add_one_of_ne_zero (Nat.ne_zero_of_lt enough)
    cases here with
    | member spaces spaces' written =>
      cases fills with
      | cons own tail =>
        simp only [List.length_append,List.length_cons,quote] at enough
        have onward : readMembers member fuel false _ (text ++ rest) = .ok (state',rest) := ih tail (by omega)
        have filled := own _ _ _ (text ++ rest) spaces spaces' written
        simp only [List.append_assoc,List.cons_append]
        rw [readMembers,nextKey_item between]
        simp [readString_quoted,filled,onward,bind,Except.bind]

theorem fills_append (one : Fills member state members state') (two : Fills member state' members' state'') :
    Fills member state (members ++ members') state'' := by
  induction one with
  | nil => exact two
  | cons here _ ih => exact .cons here (ih two)

theorem readOnce_member (reads : ReadAs reader form value) (spaces : Spaces before) (spaces' : Spaces after)
    (rest : List Char) : readOnce none reader (before ++ ':' :: (after ++ (form ++ rest))) = .ok (some value,rest) := by
  simp [readOnce,readColon_gap spaces,reads.taken after rest spaces',bind,Except.bind]

theorem readRecord_written (deep : depth ≠ 0) (fills : Fills member start members state)
    (written : Written (.object members) form) : ReadAs (readRecord depth start member elements) form state := by
  cases written with
  | @object _ text series =>
    refine ⟨⟨_,_,rfl,rfl,by decide⟩,fun gap rest spaces => ?_⟩
    have enough : text.length < (text ++ rest).length.succ := by rw [List.length_append]; omega
    have inside := readMembers_series fills series enough rest
    have brace : ('{' = '[') = False := by decide
    rw [List.cons_append,readRecord,readScalar_open spaces (.inr rfl)]
    simp only [bind,Except.bind,if_neg deep,brace,if_false,inside]

end Phrasebook.Json
