import Phrasebook.Proofs.Locale.Agreement
namespace Phrasebook.Locale
open Text LanguageTag

-- A language tag is read by its characters up to case and the choice of separator, so
-- all its spellings name one locale, and the text of that locale is one of them.

theorem dashed_common (c : Char) : (dashed c).toLower = dashed (common c) := by
  by_cases ascii : c.toNat < 0x80
  · revert ascii
    apply ascii_all
    decide +kernel
  · have plain : dashed c = c := by
      apply if_neg
      intro underscore
      exact ascii (underscore ▸ by decide)
    simp only [common_high ascii,plain,toLower_high ascii]

theorem common_interchanges (same : common c = common d) : Interchanges c d := by
  have underscore {e : Char} (lowered : e.toLower = '_') : e = '_' := by
    by_cases ascii : e.toNat < 0x80
    · revert lowered
      revert ascii
      apply ascii_all
      decide +kernel
    · rwa [toLower_high ascii] at lowered
  unfold common at same
  split at same <;> split at same
  · exact .separator (.inl ‹_›) (.inl ‹_›)
  · exact .separator (.inl ‹_›) (.inr (underscore same.symm))
  · exact .separator (.inr (underscore same)) (.inl ‹_›)
  · exact .letter same

theorem interchange_commons {one two : List Char} :
    List.Forall₂ Interchanges one two ↔ one.map common = two.map common := by
  refine ⟨commons_interchange,fun same => ?_⟩
  simp only [← List.forall₂_eq_eq_eq,List.forall₂_map_left_iff,List.forall₂_map_right_iff] at same
  exact same.imp fun _ _ => common_interchanges

theorem lowercased_common (spelling : String) :
    lowercased spelling = (trim (spelling.toList.map common)).map dashed := by
  rw [trim_map fun c => (common_unchanged c).blank]
  simp [lowercased,dashed_common]

theorem lowercased_respelled (respells : Respells spelling other) : lowercased other = lowercased spelling := by
  obtain ⟨before,body,after,before',body',after',whole,whole',interchange,front,back,front',back'⟩ := respells
  have blanks {blank : List Char} (each : Blanks blank) : Blanks (blank.map common) := by
    intro c member
    obtain ⟨d,inside,rfl⟩ := List.mem_map.mp member
    rw [(common_unchanged d).blank]
    exact each d inside
  simp only [lowercased_common,whole,whole',List.map_append,interchange_commons.mp interchange,
    trim_padded _ (blanks front) (blanks back),trim_padded _ (blanks front') (blanks back')]

theorem readTag_congr {one two : List Char} (same : subtags one = subtags two) : readTag one = readTag two := by
  rw [readTag,readTag,same]

theorem parseTag_lowercased (same : lowercased other = lowercased spelling)
    (accepted : parseTag spelling = .ok locale) : parseTag other = .ok locale := by
  obtain ⟨tag,read,named⟩ := parseTag_iff.mp accepted
  have alike : readTag ((trim other.toList).map dashed) = readTag ((trim spelling.toList).map dashed) :=
    readTag_congr (congrArg (splitOn '-') same)
  exact parseTag_iff.mpr ⟨tag,alike.trans read,named⟩

theorem lowercased_normalized {spelling : String} (ascii : ∀ c ∈ trim spelling.toList, c.toNat < 0x80) :
    lowercased (normalize spelling) = lowercased spelling := by
  have trimmed : trim (normalizeChars spelling.toList) = normalizeChars spelling.toList :=
    trim_fixed (normalizeChars_normalized spelling.toList).trimmed
  have again : (lowercased spelling).map Char.toLower = lowercased spelling := by
    rw [lowercased,List.map_map]
    exact List.map_congr_left fun c _ => toLower_again c
  rw [lowercased,normalize,String.toList_ofList,trimmed,← lowercased_ascii ascii,again]

-- What a tag is parsed to is parsed to itself, and every other spelling of the tag is
-- parsed to the same.
theorem parseTag_stable (accepted : parseTag spelling = .ok locale) :
    parseTag locale.text = .ok locale ∧ normalize locale.text = locale.text ∧
      ∀ other, Respells spelling other → parseTag other = .ok locale := by
  refine ⟨?_,?_,fun other respells => parseTag_lowercased (lowercased_respelled respells) accepted⟩
  · obtain ⟨tag,read,rfl⟩ := parseTag_iff.mp accepted
    have canonical := (readTag_reads read).1
    have ascii : ∀ c ∈ trim (written tag).toList, c.toNat < 0x80 := by
      rw [trim_written canonical]
      exact fun c member => (written_clear canonical c member).ascii
    have order : InOrder (written tag) := ⟨tag,canonical,spelled_written read⟩
    exact parseTag_lowercased (lowercased_normalized ascii) (in_order_accepted order)
  · obtain ⟨tag,_,rfl⟩ := parseTag_iff.mp accepted
    exact (normalize_canonical (written tag)).1

theorem parseTag_stable_reordered :
    parseTag " DE-1996-1901-u-KN-true-ca-Buddhist" = .ok ⟨"de_1901_1996_u_ca_buddhist_kn"⟩ ∧
    parseTag "de_1901_1996_u_ca_buddhist_kn" = .ok ⟨"de_1901_1996_u_ca_buddhist_kn"⟩ ∧
    Respells " DE-1996-1901-u-KN-true-ca-Buddhist" "de_1996-1901_U_kn_TRUE_ca_buddhist\u3000" ∧
    parseTag "de_1996-1901_U_kn_TRUE_ca_buddhist\u3000" = .ok ⟨"de_1901_1996_u_ca_buddhist_kn"⟩ := by
  have accepted : parseTag " DE-1996-1901-u-KN-true-ca-Buddhist" = .ok ⟨"de_1901_1996_u_ca_buddhist_kn"⟩ := by
    decide +kernel
  have respells : Respells " DE-1996-1901-u-KN-true-ca-Buddhist" "de_1996-1901_U_kn_TRUE_ca_buddhist\u3000" := by
    refine ⟨[' '],"DE-1996-1901-u-KN-true-ca-Buddhist".toList,[],[],"de_1996-1901_U_kn_TRUE_ca_buddhist".toList,
      ['\u3000'],rfl,rfl,interchange_commons.mpr (by decide),?_,nofun,nofun,?_⟩
    · exact List.forall_mem_singleton.mpr rfl
    · exact List.forall_mem_singleton.mpr rfl
  obtain ⟨again,_,others⟩ := parseTag_stable accepted
  exact ⟨accepted,again,respells,others _ respells⟩

end Phrasebook.Locale
