import Phrasebook.Properties.Parse
import Phrasebook.Proofs.Properties.Parting
import Phrasebook.Proofs.Rows
namespace Phrasebook.Properties

-- Where a file cannot be read: at the first entry with a broken escape, by the
-- number of its first line. A file without one holds the keys of its entries.

def Entry.Broken (entry : Entry) : Prop :=
  ∃ key value, Parted entry.text key value ∧ (Faulty key ∨ Faulty value)

def Entry.HasKey (entry : Entry) (key : String) : Prop :=
  ∃ raw value, Parted entry.text raw value ∧ Decodes raw key.toList

theorem parted_unique (one : Parted text key value) (two : Parted text key' value') : key = key' ∧ value = value' := by
  have same := splitEntry_parted one
  rw [splitEntry_parted two] at same
  cases same
  exact ⟨rfl,rfl⟩

theorem decodes_sound (decodes : Decodes raw text) : ¬Faulty raw := by
  intro faulty
  obtain ⟨fault,stopped⟩ := unescape_faulty faulty
  cases (unescape_decodes decodes).symm.trans stopped

theorem hasKey_unique {entry : Entry} (one : entry.HasKey key) (two : entry.HasKey key') : key = key' := by
  obtain ⟨raw,value,parted,decodes⟩ := one
  obtain ⟨raw',value',parted',decodes'⟩ := two
  obtain ⟨rfl,_⟩ := parted_unique parted parted'
  have same := unescape_decodes decodes
  rw [unescape_decodes decodes'] at same
  exact String.toList_inj.mp (Except.ok.inj same).symm

theorem readEntry_outcome (entry : Entry) :
    (∃ row, readEntry entry.logical = .ok row ∧ ¬entry.Broken ∧ entry.HasKey row.1) ∨
    ∃ message, readEntry entry.logical = .error ⟨entry.number,message⟩ ∧ entry.Broken := by
  obtain ⟨key,value,parted,uncut,uncut'⟩ := entry_parted entry
  have split : splitEntry entry.logical.text = (key,value) := splitEntry_parted parted
  unfold readEntry
  rw [split]
  dsimp only
  rcases uncut_read uncut with ⟨text,decodes⟩ | faulty
  · rcases uncut_read uncut' with ⟨text',decodes'⟩ | faulty
    · rw [unescape_decodes decodes,unescape_decodes decodes']
      refine .inl ⟨_,rfl,?_,key,value,parted,?_⟩
      · rintro ⟨key',value',other,faulty⟩
        obtain ⟨rfl,rfl⟩ := parted_unique parted other
        rcases faulty with faulty | faulty
        · exact decodes_sound decodes faulty
        · exact decodes_sound decodes' faulty
      · rwa [String.toList_ofList]
    · obtain ⟨fault,stopped⟩ := unescape_faulty faulty
      rw [unescape_decodes decodes,stopped]
      exact .inr ⟨_,rfl,key,value,parted,.inr faulty⟩
  · obtain ⟨fault,stopped⟩ := unescape_faulty faulty
    rw [stopped]
    exact .inr ⟨_,rfl,key,value,parted,.inl faulty⟩

theorem readEntries_outcome (entries : List Entry) :
    (∃ rows, (entries.map Entry.logical).mapM readEntry = .ok rows ∧ (∀ entry ∈ entries, ¬entry.Broken) ∧
      (∀ entry ∈ entries, ∃ row ∈ rows, entry.HasKey row.1) ∧ ∀ row ∈ rows, ∃ entry ∈ entries, entry.HasKey row.1) ∨
    ∃ earlier entry later message, entries = earlier ++ entry :: later ∧ (∀ other ∈ earlier, ¬other.Broken) ∧
      entry.Broken ∧ (entries.map Entry.logical).mapM readEntry = .error ⟨entry.number,message⟩ := by
  induction entries with
  | nil => exact .inl ⟨[],rfl,nofun,nofun,nofun⟩
  | cons entry entries ih =>
    rw [List.map_cons,List.mapM_cons]
    rcases readEntry_outcome entry with ⟨row,read,sound,named⟩ | ⟨message,stopped,broken⟩
    · rw [read]
      rcases ih with ⟨rows,later,allSound,forth,back⟩ | ⟨earlier,bad,later,message,rfl,before,broken,stopped⟩
      · refine .inl ⟨row :: rows,by rw [later]; rfl,List.forall_mem_cons.mpr ⟨sound,allSound⟩,?_,?_⟩
        · refine List.forall_mem_cons.mpr ⟨⟨row,List.mem_cons_self,named⟩,fun other member => ?_⟩
          obtain ⟨found,inside,named'⟩ := forth other member
          exact ⟨found,List.mem_cons_of_mem _ inside,named'⟩
        · refine List.forall_mem_cons.mpr ⟨⟨entry,List.mem_cons_self,named⟩,fun other member => ?_⟩
          obtain ⟨found,inside,named'⟩ := back other member
          exact ⟨found,List.mem_cons_of_mem _ inside,named'⟩
      · exact .inr ⟨entry :: earlier,bad,later,message,rfl,List.forall_mem_cons.mpr ⟨sound,before⟩,broken,
          by rw [stopped]; rfl⟩
    · exact .inr ⟨[],entry,entries,message,rfl,nofun,broken,by rw [stopped]; rfl⟩

-- Files fail by their first broken entry and not otherwise.
theorem parse_locates (content : String) :
    (∃ entries, Grouped 1 (physicalLines content.toList) entries) ∧
    ∀ entries, Grouped 1 (physicalLines content.toList) entries →
      ((∃ fault, parse content = .error fault) ↔ ∃ entry ∈ entries, entry.Broken) ∧
      (∀ fault, parse content = .error fault → ∃ earlier entry later, entries = earlier ++ entry :: later ∧
        (∀ other ∈ earlier, ¬other.Broken) ∧ entry.Broken ∧ fault.line = entry.number) ∧
      ∀ messages, parse content = .ok messages → ∀ key, key ∈ messages ↔ ∃ entry ∈ entries, entry.HasKey key := by
  refine ⟨grouped_exists content.toList,fun entries grouped => ?_⟩
  unfold parse logicalLines
  rw [gather_grouped grouped]
  rcases readEntries_outcome entries with
    ⟨rows,read,sound,forth,back⟩ | ⟨earlier,bad,later,message,rfl,before,broken,stopped⟩
  · rw [read]
    refine ⟨⟨nofun,fun ⟨entry,member,broken⟩ => absurd broken (sound entry member)⟩,nofun,?_⟩
    rintro messages ⟨⟩ key
    have filled := addRows_keys rows key
    rw [← Std.ExtTreeMap.mem_iff_isSome_getElem?] at filled
    refine filled.trans ⟨?_,?_⟩
    · rintro ⟨value,member⟩
      exact back _ member
    · rintro ⟨entry,member,named⟩
      obtain ⟨row,inside,named'⟩ := forth entry member
      obtain rfl := hasKey_unique named named'
      exact ⟨row.2,inside⟩
  · rw [stopped]
    refine ⟨⟨fun _ => ⟨bad,by simp,broken⟩,fun _ => ⟨_,rfl⟩⟩,?_,nofun⟩
    rintro fault ⟨⟩
    exact ⟨earlier,bad,later,rfl,before,broken,rfl⟩

def brokenFile : String := "a\\u0041=1\\\n  \\ud83d\\ude00\n# \\ud800\nb=\\ud83d\\\n\\u0041\n"

def brokenEntries : List Entry :=
  [⟨1,["a\\u0041=1\\".toList,"  \\ud83d\\ude00".toList]⟩,⟨4,["b=\\ud83d\\".toList,"\\u0041".toList]⟩]

theorem brokenFile_grouped : Grouped 1 (physicalLines brokenFile.toList) brokenEntries := by
  have cut : physicalLines brokenFile.toList = ["a\\u0041=1\\".toList,"  \\ud83d\\ude00".toList,"# \\ud800".toList,
      "b=\\ud83d\\".toList,"\\u0041".toList] := by decide
  have first : Chained ["# \\ud800".toList,"b=\\ud83d\\".toList,"\\u0041".toList]
      ["a\\u0041=1\\".toList,"  \\ud83d\\ude00".toList] := .next (by decide) (.last (by decide))
  have second : Chained [] ["b=\\ud83d\\".toList,"\\u0041".toList] := .next (by decide) (.last (by decide))
  rw [cut]
  exact .entry (by decide) first (.idle (by decide) (.entry (by decide) second .nil))

theorem parse_locates_unpaired : Grouped 1 (physicalLines brokenFile.toList) brokenEntries ∧
    parse brokenFile = .error ⟨4,"Unpaired surrogate \\ud83d"⟩ ∧
    ∃ earlier entry later, brokenEntries = earlier ++ entry :: later ∧
      (∀ other ∈ earlier, ¬other.Broken) ∧ entry.Broken ∧ 4 = entry.number := by
  have stopped : parse brokenFile = .error ⟨4,"Unpaired surrogate \\ud83d"⟩ := by decide +kernel
  have located := (parse_locates brokenFile).2 brokenEntries brokenFile_grouped
  exact ⟨brokenFile_grouped,stopped,located.2.1 _ stopped⟩

end Phrasebook.Properties
