import Phrasebook.Properties.Parse
import Phrasebook.Proofs.Properties.Lines
import Phrasebook.Proofs.Properties.Spelling
import Phrasebook.Proofs.Rows
namespace Phrasebook.Properties

-- Pairs written one to a line are read back, whatever strings they are and
-- however they are spelled. So every map of messages has a file.

def IsLiteral (c : Char) : Prop := c ≠ '\\' ∧ c ≠ '\r' ∧ c ≠ '\n'

def BareInKey (c : Char) : Prop := IsLiteral c ∧ isGap c = false ∧ isSeparator c = false

def BareStartsKey (c : Char) : Prop :=
  BareInKey c ∧ Text.isBlank c = false ∧ c ≠ '#' ∧ c ≠ '!'

def BareStartsValue (c : Char) : Prop := IsLiteral c ∧ isGap c = false

inductive WritesLine (key value : List Char) : List Char → Prop where
  | line (indented : ∀ c ∈ indentation, Text.isBlank c = true ∧ c ≠ '\n')
      (keySpelled : SpellsText BareStartsKey BareInKey key keyForm)
      (before : ∀ c ∈ gap, isGap c = true) (separator : isSeparator mark = true)
      (after : ∀ c ∈ gap', isGap c = true)
      (valueSpelled : SpellsText BareStartsValue IsLiteral value valueForm) :
      WritesLine key value (indentation ++ (keyForm ++ (gap ++ mark :: (gap' ++ valueForm))))

inductive WritesFile : List (String × String) → List Char → Prop where
  | empty : WritesFile [] []
  | last (written : WritesLine key.toList value.toList line) : WritesFile [(key,value)] line
  | line (written : WritesLine key.toList value.toList line)
      (ends : ending = ['\n'] ∨ ending = ['\r','\n']) (later : WritesFile rows rest) :
      WritesFile ((key,value) :: rows) (line ++ (ending ++ rest))

theorem file_exists (rows : List (String × String)) : ∃ content, WritesFile rows content := by
  induction rows with
  | nil => exact ⟨[],.empty⟩
  | cons row rows ih =>
    obtain ⟨rest,later⟩ := ih
    obtain ⟨keyForm,keySpelled⟩ := text_spelled BareStartsKey BareInKey row.1.toList
    obtain ⟨valueForm,valueSpelled⟩ := text_spelled BareStartsValue IsLiteral row.2.toList
    have written : WritesLine row.1.toList row.2.toList ([] ++ (keyForm ++ ([] ++ '=' :: ([] ++ valueForm)))) :=
      .line nofun keySpelled nofun rfl nofun valueSpelled
    exact ⟨_,.line written (.inl rfl) later⟩

-- What a spelling consists of: whole escapes, which need no line break, and
-- characters and digits that stand outside of them.
def Unbroken (c : Char) : Prop := c ≠ '\r' ∧ c ≠ '\n'

instance : DecidablePred Unbroken := fun _ => inferInstanceAs (Decidable (_ ∧ _))

section
variable {Bare Plain First Later : Char → Prop}

theorem units_whole (digit : ∀ {c}, (Text.hexDigit? c).isSome → Plain c)
    (small : ∀ code ∈ codes, code < 0x10000) (spelled : SpellsUnits codes form) :
    Whole Plain Unbroken form := by
  induction spelled with
  | nil => exact .nil
  | cons digits _ ih =>
    obtain ⟨_,_,hexadecimal⟩ := digits_read (small _ List.mem_cons_self) digits
    have onward := ih fun code member => small code (List.mem_cons_of_mem _ member)
    exact .escape (by decide) (whole_append (whole_plain fun c member => digit (hexadecimal c member)) onward)

theorem spells_whole (bare : ∀ {c}, Bare c → Plain c) (digit : ∀ {c}, (Text.hexDigit? c).isSome → Plain c)
    (spelled : Spells Bare c form) : Whole Plain Unbroken form := by
  cases spelled with
  | bare allowed => exact .plain (bare allowed) .nil
  | escaped ordinary =>
    simp only [List.mem_cons,List.not_mem_nil,or_false,not_or] at ordinary
    exact .escape ordinary.2.2.2.2.2 .nil
  | units written => exact units_whole digit (codeUnits_small c) written
  | _ => exact .escape (by decide) .nil

theorem all_whole (bare : ∀ {c}, Bare c → Plain c) (digit : ∀ {c}, (Text.hexDigit? c).isSome → Plain c)
    (spelled : SpellsAll Bare text form) : Whole Plain Unbroken form := by
  induction spelled with
  | nil => exact .nil
  | cons spelled _ ih => exact whole_append (spells_whole bare digit spelled) ih

theorem text_whole (first : ∀ {c}, First c → Plain c) (later : ∀ {c}, Later c → Plain c)
    (digit : ∀ {c}, (Text.hexDigit? c).isSome → Plain c) (spelled : SpellsText First Later text form) :
    Whole Plain Unbroken form := by
  cases spelled with
  | empty => exact .nil
  | starts spelled others => exact whole_append (spells_whole first digit spelled) (all_whole later digit others)

theorem spells_head (spelled : Spells Bare c form) :
    ∃ head rest, form = head :: rest ∧ (head = '\\' ∨ Bare head) := by
  cases spelled with
  | bare allowed => exact ⟨_,_,rfl,.inr allowed⟩
  | units written =>
    unfold codeUnits at written
    split at written <;> cases written <;> exact ⟨_,_,rfl,.inl rfl⟩
  | _ => exact ⟨_,_,rfl,.inl rfl⟩

end

theorem digit_differs (digit : (Text.hexDigit? c).isSome) (other : Text.hexDigit? c' = none) : c ≠ c' := by
  rintro rfl
  simp [other] at digit

theorem digit_inner (digit : (Text.hexDigit? c).isSome) : IsInner c := by
  have gap : isGap c = false := by
    rw [isGap,Bool.or_eq_false_iff,Bool.or_eq_false_iff]
    exact ⟨⟨beq_false_of_ne (digit_differs digit rfl),beq_false_of_ne (digit_differs digit rfl)⟩,
      beq_false_of_ne (digit_differs digit rfl)⟩
  have separator : isSeparator c = false := by
    rw [isSeparator,Bool.or_eq_false_iff]
    exact ⟨beq_false_of_ne (digit_differs digit rfl),beq_false_of_ne (digit_differs digit rfl)⟩
  exact ⟨digit_differs digit rfl,gap,separator⟩

theorem digit_literal (digit : (Text.hexDigit? c).isSome) : IsLiteral c :=
  ⟨digit_differs digit rfl,digit_differs digit rfl,digit_differs digit rfl⟩

theorem gap_literal (gap : isGap c = true) : IsLiteral c := by
  simp only [isGap,Bool.or_eq_true,beq_iff_eq] at gap
  rcases gap with (rfl | rfl) | rfl <;> exact ⟨by decide,by decide,by decide⟩

theorem separator_literal (separator : isSeparator c = true) : IsLiteral c := by
  simp only [isSeparator,Bool.or_eq_true,beq_iff_eq] at separator
  rcases separator with rfl | rfl <;> exact ⟨by decide,by decide,by decide⟩

theorem key_inner (spelled : SpellsText BareStartsKey BareInKey key form) : Whole IsInner Unbroken form := by
  have inner : ∀ {c}, BareInKey c → IsInner c := fun bare => ⟨bare.1.1,bare.2⟩
  exact text_whole (fun bare => inner bare.1) inner digit_inner spelled

theorem key_literal (spelled : SpellsText BareStartsKey BareInKey key form) : Whole IsLiteral Unbroken form :=
  text_whole (fun bare => bare.1.1) (fun bare => bare.1) digit_literal spelled

theorem value_literal (spelled : SpellsText BareStartsValue IsLiteral value form) :
    Whole IsLiteral Unbroken form :=
  text_whole (fun bare => bare.1) id digit_literal spelled

theorem value_clear (spelled : SpellsText BareStartsValue IsLiteral value form) : StartsClear isGap form := by
  cases spelled with
  | empty => exact nofun
  | starts spelled later =>
    obtain ⟨head,rest,rfl,starts⟩ := spells_head spelled
    rintro _ ⟨⟩
    rcases starts with rfl | bare
    · rfl
    · exact bare.2

theorem entry_whole (keySpelled : SpellsText BareStartsKey BareInKey key keyForm)
    (before : ∀ c ∈ gap, isGap c = true) (separator : isSeparator mark = true)
    (after : ∀ c ∈ gap', isGap c = true) (valueSpelled : SpellsText BareStartsValue IsLiteral value valueForm) :
    Whole IsLiteral Unbroken (keyForm ++ (gap ++ mark :: (gap' ++ valueForm))) := by
  have gaps : Whole IsLiteral Unbroken gap := whole_plain fun c member => gap_literal (before c member)
  have gaps' : Whole IsLiteral Unbroken gap' := whole_plain fun c member => gap_literal (after c member)
  have rest : Whole IsLiteral Unbroken (mark :: (gap' ++ valueForm)) :=
    .plain (separator_literal separator) (whole_append gaps' (value_literal valueSpelled))
  exact whole_append (key_literal keySpelled) (whole_append gaps rest)

theorem skipped_cons (comment : c ≠ '#' ∧ c ≠ '!') (rest : List Char) : isSkipped (c :: rest) = false := by
  simp [isSkipped,comment]

theorem line_trimmed (indented : ∀ c ∈ indentation, Text.isBlank c = true)
    (keySpelled : SpellsText BareStartsKey BareInKey key keyForm)
    (before : ∀ c ∈ gap, isGap c = true) (separator : isSeparator mark = true) (rest : List Char) :
    ∃ kept, (∀ c ∈ kept, isGap c = true) ∧
      Text.trimStart (indentation ++ (keyForm ++ (gap ++ mark :: rest))) = keyForm ++ (kept ++ mark :: rest) ∧
      isSkipped (keyForm ++ (kept ++ mark :: rest)) = false := by
  cases keySpelled with
  | empty =>
    have marked : Text.isBlank mark = false ∧ mark ≠ '#' ∧ mark ≠ '!' := by
      simp only [isSeparator,Bool.or_eq_true,beq_iff_eq] at separator
      rcases separator with rfl | rfl <;> decide
    have blank : ∀ c ∈ indentation ++ gap, Text.isBlank c = true :=
      List.forall_mem_append.mpr ⟨indented,fun c member => gap_blank (before c member)⟩
    have clear : StartsClear Text.isBlank (mark :: rest) := by
      rintro _ ⟨⟩
      exact marked.1
    refine ⟨[],List.forall_mem_nil _,?_,skipped_cons marked.2 rest⟩
    rw [List.nil_append,← List.append_assoc]
    exact dropWhile_front blank clear
  | @starts c form text forms spelled later =>
    obtain ⟨head,tail,rfl,starts⟩ := spells_head spelled
    have visible : Text.isBlank head = false ∧ head ≠ '#' ∧ head ≠ '!' := by
      rcases starts with rfl | bare
      · decide
      · exact bare.2
    refine ⟨gap,before,dropWhile_front indented ?_,skipped_cons visible.2 _⟩
    rintro _ ⟨⟩
    exact visible.1

theorem line_clean (written : WritesLine key value line) :
    '\n' ∉ line ∧ line.getLast? ≠ some '\r' ∧ line ≠ [] := by
  obtain ⟨indented,keySpelled,before,separator,after,valueSpelled⟩ := written
  rename_i indentation keyForm gap mark gap' valueForm
  have unbroken : ∀ c ∈ keyForm ++ (gap ++ mark :: (gap' ++ valueForm)), Unbroken c :=
    whole_chars (fun literal => literal.2) id (by decide)
      (entry_whole keySpelled before separator after valueSpelled)
  have filled : keyForm ++ (gap ++ mark :: (gap' ++ valueForm)) ≠ [] := by simp
  refine ⟨?_,?_,List.append_ne_nil_of_right_ne_nil _ filled⟩
  · intro member
    rcases List.mem_append.mp member with member | member
    · exact (indented _ member).2 rfl
    · exact (unbroken _ member).2 rfl
  · intro last
    rw [List.getLast?_append_of_ne_nil _ filled] at last
    exact (unbroken _ (List.mem_of_getLast? last)).1 rfl

theorem line_entry (written : WritesLine key value line) (number : Nat) (rest : List (List Char)) :
    ∃ entry, gather number none (line :: rest) = entry :: gather (number + 1) none rest ∧
      readEntry entry = .ok (String.ofList key,String.ofList value) := by
  obtain ⟨indented,keySpelled,before,separator,after,valueSpelled⟩ := written
  rename_i indentation keyForm gap mark gap' valueForm
  obtain ⟨kept,keptGap,trimmed,starts⟩ :=
    line_trimmed (fun c member => (indented c member).1) keySpelled before separator (gap' ++ valueForm)
  have ends := whole_ends (fun literal => literal.1)
    (entry_whole keySpelled keptGap separator after valueSpelled)
  rw [← trimmed] at starts ends
  refine ⟨_,gather_entry number starts ends rest,?_⟩
  have parts := splitEntry_parts (key_inner keySpelled) keptGap separator after (value_clear valueSpelled)
  have keyRead := unescape_text (fun bare => bare.1.1.1) (fun bare => bare.1.1) keySpelled
  have valueRead := unescape_text (fun bare => bare.1.1) (fun bare => bare.1) valueSpelled
  simp only [readEntry,trimmed,parts,keyRead,valueRead]

theorem lines_read (written : WritesFile rows content) (number : Nat) :
    (gather number none (physicalLines content)).mapM readEntry = .ok rows := by
  induction written generalizing number with
  | empty => rfl
  | last written =>
    obtain ⟨clean,_,filled⟩ := line_clean written
    obtain ⟨entry,gathered,read⟩ := line_entry written number []
    rw [physicalLines_single clean filled,gathered,List.mapM_cons,read]
    simp only [String.ofList_toList]
    rfl
  | @line line ending rows rest key value written ends later ih =>
    obtain ⟨clean,unreturned,_⟩ := line_clean written
    have cut : physicalLines (line ++ (ending ++ rest)) = line :: physicalLines rest := by
      rcases ends with rfl | rfl
      · rw [List.singleton_append,physicalLines_cons clean,stripReturn_plain unreturned]
      · have cleanReturn : '\n' ∉ line ++ ['\r'] := by simp [clean]
        have joined : line ++ (['\r','\n'] ++ rest) = (line ++ ['\r']) ++ '\n' :: rest := by simp
        rw [joined,physicalLines_cons cleanReturn,stripReturn_return]
    obtain ⟨entry,gathered,read⟩ := line_entry written number (physicalLines rest)
    rw [cut,gathered,List.mapM_cons,read,ih (number + 1)]
    simp only [String.ofList_toList]
    rfl

-- Every list of pairs has a file, and every file written for it holds exactly
-- the last value of each key.
theorem parse_written_rows (rows : List (String × String)) :
    (∃ content : String, WritesFile rows content.toList) ∧
    ∀ content : String, WritesFile rows content.toList →
      ∃ messages, parse content = .ok messages ∧ ∀ key, messages[key]? = rows.reverse.lookup key := by
  constructor
  · obtain ⟨content,written⟩ := file_exists rows
    exact ⟨String.ofList content,by rwa [String.toList_ofList]⟩
  · intro content written
    refine ⟨rows.foldl addRow ∅,?_,addRows_last rows⟩
    rw [parse,logicalLines,lines_read written 1]
    rfl

def mixedRows : List (String × String) := [("a","😀"),("","=\\"),("a"," ")]

def mixedFile : String := "  \\u0061 : \\uD83d\\uDe00\r\n==\\\\\n\\u0061=\\ "

theorem mixed_written : WritesFile mixedRows mixedFile.toList := by
  have letter : SpellsUnits (codeUnits 'a') ['\\','u','0','0','6','1'] :=
    .cons (eitherCase_self _) .nil
  have high : List.Forall₂ EitherCase (Text.hexFour 0xD83D) ['D','8','3','d'] :=
    .cons (.inr rfl) (.cons (.inl rfl) (.cons (.inl rfl) (.cons (.inl rfl) .nil)))
  have low : List.Forall₂ EitherCase (Text.hexFour 0xDE00) ['D','e','0','0'] :=
    .cons (.inr rfl) (.cons (.inl rfl) (.cons (.inl rfl) (.cons (.inl rfl) .nil)))
  have face : SpellsUnits (codeUnits '😀') (['\\','u','D','8','3','d'] ++ ['\\','u','D','e','0','0']) :=
    .cons high (.cons low .nil)
  have blank : Text.isBlank ' ' = true ∧ ' ' ≠ '\n' := by decide
  have indented : ∀ c ∈ [' ',' '], Text.isBlank c = true ∧ c ≠ '\n' :=
    List.forall_mem_cons.mpr ⟨blank,List.forall_mem_singleton.mpr blank⟩
  have gap : ∀ c ∈ [' '], isGap c = true := List.forall_mem_singleton.mpr rfl
  have first : WritesLine "a".toList "😀".toList ([' ',' '] ++ (_ ++ ([' '] ++ ':' :: ([' '] ++ _)))) :=
    .line indented (.starts (.units letter) .nil) gap rfl gap (.starts (.units face) .nil)
  have second : WritesLine "".toList "=\\".toList ([] ++ ([] ++ ([] ++ '=' :: ([] ++ _)))) :=
    .line nofun .empty nofun rfl nofun (.starts (.bare ⟨⟨by decide,by decide,by decide⟩,rfl⟩)
      (.cons (.escaped (by decide)) .nil))
  have third : WritesLine "a".toList " ".toList ([] ++ (_ ++ ([] ++ '=' :: ([] ++ _)))) :=
    .line nofun (.starts (.units letter) .nil) nofun rfl nofun (.starts (.escaped (by decide)) .nil)
  exact .line first (.inr rfl) (.line second (.inl rfl) (.last third))

theorem parse_written_rows_mixed : WritesFile mixedRows mixedFile.toList ∧
    ∃ messages, parse mixedFile = .ok messages ∧ messages["a"]? = some " " ∧
      messages[""]? = some "=\\" ∧ messages["b"]? = none := by
  obtain ⟨messages,parsed,last⟩ := (parse_written_rows mixedRows).2 mixedFile mixed_written
  exact ⟨mixed_written,messages,parsed,last "a",last "",last "b"⟩

end Phrasebook.Properties
