import Phrasebook.Proofs.Template.Spelling
import Phrasebook.Template.Engine
namespace Phrasebook.RichText.Color

-- The texts that are read as a colour name, each occurrence of gray in both spellings.
def spellings : List Char → List (List Char)
  | 'g' :: 'r' :: 'a' :: 'y' :: rest =>
    (spellings rest).flatMap fun later => ['g' :: 'r' :: 'a' :: 'y' :: later,'g' :: 'r' :: 'e' :: 'y' :: later]
  | c :: rest => (spellings rest).map (c :: ·)
  | [] => [[]]

theorem respell_cons (respelled : respell text = c :: rest) (other : c ≠ 'g') :
    ∃ later, text = c :: later ∧ respell later = rest := by
  unfold respell at respelled
  split at respelled
  · cases respelled
    exact absurd rfl other
  · cases respelled
    exact ⟨_,rfl,rfl⟩
  · cases respelled

theorem respell_gray (respelled : respell text = 'r' :: 'a' :: 'y' :: rest) :
    ∃ later, text = 'r' :: 'a' :: 'y' :: later ∧ respell later = rest := by
  obtain ⟨_,rfl,behind⟩ := respell_cons respelled (by decide)
  obtain ⟨_,rfl,further⟩ := respell_cons behind (by decide)
  obtain ⟨later,rfl,same⟩ := respell_cons further (by decide)
  exact ⟨later,rfl,same⟩

theorem mem_spellings (text : List Char) : text ∈ spellings (respell text) := by
  fun_induction respell text with
  | case1 rest ih =>
    rw [spellings]
    exact List.mem_flatMap.mpr ⟨rest,ih,by simp⟩
  | case2 c rest notGrey ih =>
    by_cases gray : ∃ later, c = 'g' ∧ respell rest = 'r' :: 'a' :: 'y' :: later
    · obtain ⟨later,rfl,respelled⟩ := gray
      obtain ⟨tail,rfl,same⟩ := respell_gray respelled
      have member : tail ∈ spellings later := by
        rw [respelled] at ih
        simpa [spellings] using ih
      rw [respelled,spellings]
      exact List.mem_flatMap.mpr ⟨tail,member,by simp⟩
    · rw [spellings]
      · exact List.mem_map_of_mem ih
      · exact fun later first respelled => gray ⟨later,first,respelled⟩
  | case3 => exact List.mem_singleton_self []

end Phrasebook.RichText.Color
namespace Phrasebook.Template
open RichText

-- Spellings that open the same span but do not close it for one another.
def GrayTwins (one two : String) : Prop :=
  (one,two) ∈ [("gray","grey"),("grey","gray"),("dark_gray","dark_grey"),("dark_grey","dark_gray")]

instance (one two : String) : Decidable (GrayTwins one two) := inferInstanceAs (Decidable (_ ∈ _))

theorem twins_differ (twins : GrayTwins one two) : canonicalName one ≠ canonicalName two := by
  simp only [GrayTwins,List.mem_cons,List.not_mem_nil,or_false,Prod.mk.injEq] at twins
  rcases twins with ⟨rfl,rfl⟩ | ⟨rfl,rfl⟩ | ⟨rfl,rfl⟩ | ⟨rfl,rfl⟩ <;> decide

theorem spelled_twice (color : Color) : ∀ one ∈ Color.spellings color.name.toList,
    ∀ two ∈ Color.spellings color.name.toList, one = two ∨ GrayTwins (String.ofList one) (String.ofList two) := by
  cases color <;> decide +kernel

inductive Named (name : String) : Style → Prop where
  | decoration (decoration : Decoration) (canonical : canonicalName name = decoration.name) :
      Named name (.decorated decoration)
  | color (color : Color) (canonical : canonicalName name = name)
      (spelled : name.toList ∈ Color.spellings color.name.toList) : Named name (.colored color)

theorem color_spelled (valid : isTagName name.toList = true) (read : Color.ofName? name = some color) :
    name.toList ∈ Color.spellings color.name.toList := by
  have same := List.find?_some read
  rw [beq_iff_eq,(name_ordinary valid).1] at same
  rw [same,String.toList_ofList]
  exact Color.mem_spellings name.toList

theorem named_style (valid : isTagName name.toList = true) (styled : builtinStyle name [] = some style) :
    Named name style := by
  unfold builtinStyle at styled
  cases decorated : Decoration.ofName? name with
  | some decoration =>
    rw [decorated] at styled
    cases styled
    have uncolored : ¬(name = "colour" ∨ name = "c") := by
      rintro (rfl | rfl) <;> cases decorated
    refine .decoration decoration ?_
    rw [canonicalName,if_neg uncolored,decorated]
  | none =>
    rw [decorated] at styled
    by_cases colors : isColorTag name = true
    · rw [if_pos colors] at styled
      cases styled
    · rw [if_neg colors] at styled
      obtain ⟨color,read,rfl⟩ := Option.map_eq_some_iff.mp styled
      refine .color color ?_ (color_spelled valid read)
      have uncolored : ¬(name = "colour" ∨ name = "c") := by
        rintro (rfl | rfl) <;> exact colors rfl
      rw [canonicalName,if_neg uncolored,decorated]

theorem canonical_iff (valid : isTagName one.toList = true) (valid' : isTagName two.toList = true)
    (styled : builtinStyle one [] = some style) (styled' : builtinStyle two [] = some style) :
    canonicalName one = canonicalName two ↔ ¬GrayTwins one two := by
  refine ⟨fun same twins => twins_differ twins same,?_⟩
  intro apart
  have named' := named_style valid' styled'
  cases named_style valid styled with
  | decoration decoration canonical =>
    generalize equal : Style.decorated decoration = style at named'
    cases named' with
    | color color canonical' spelled' => cases equal
    | decoration other canonical' =>
      have same : decoration = other := by
        revert equal
        cases decoration <;> cases other <;> decide
      rw [canonical,canonical',same]
  | color color canonical spelled =>
    generalize equal : Style.colored color = style at named'
    cases named' with
    | decoration other canonical' => cases equal
    | color other canonical' spelled' =>
      cases equal
      rcases spelled_twice color _ spelled _ spelled' with same | twins
      · rw [String.toList_inj.mp same]
      · rw [String.ofList_toList,String.ofList_toList] at twins
        exact absurd twins apart

end Phrasebook.Template
