import Phrasebook.Proofs.Template.Spelling
namespace Phrasebook.Template

-- Where the tags of a template stand in it. A tag is the text at the byte its site
-- names, and what goes before it reads the same without it.

-- The arguments end before `rest`, and with anything else there they are the same.
def EndsBefore (rest : List Char) (quote : Option Char) (value text : List Char)
    (arguments : List (List Char)) : Prop :=
  ∃ body, text = body ++ rest ∧
    ∀ other, scanArguments quote value (body ++ other) = some (arguments,other)

theorem ends_cons (step : ∀ other, scanArguments quote value (c :: other) = scanArguments quote' value' other)
    (ends : EndsBefore rest quote' value' text arguments) :
    EndsBefore rest quote value (c :: text) arguments := by
  obtain ⟨body,split,same⟩ := ends
  refine ⟨c :: body,congrArg (c :: ·) split,?_⟩
  intro other
  rw [List.cons_append,step]
  exact same other

theorem arguments_end (scanned : scanArguments quote value text = some (arguments,rest)) :
    EndsBefore rest quote value text arguments := by
  fun_induction scanArguments quote value text generalizing arguments rest with
  | case1 => cases scanned
  | case2 => cases scanned
  | case3 value mark next later special ih =>
    obtain ⟨body,split,same⟩ := ih scanned
    refine ⟨'\\' :: next :: body,congrArg ('\\' :: next :: ·) split,?_⟩
    intro other
    rw [← same other]
    exact scan_escaped special.symm value _
  | case4 value mark next later plain ih =>
    have shorter := arguments_consume scanned
    obtain ⟨body,split,same⟩ := ih scanned
    -- the character behind the backslash belongs to the body, as the rest is shorter
    cases body with
    | nil =>
      rw [List.nil_append] at split
      rw [split] at shorter
      exact absurd shorter (Nat.lt_irrefl _)
    | cons first body =>
      cases split
      refine ⟨'\\' :: next :: body,rfl,?_⟩
      intro other
      rw [← same other,List.cons_append,scanArguments.eq_def]
      simp [plain]
  | case5 value later mark notBackslash ih =>
    exact ends_cons (scan_unquoted notBackslash value) (ih scanned)
  | case6 value c later mark notBackslash notMark ih =>
    apply ends_cons _ (ih scanned)
    exact scan_literal (not_or.mpr ⟨notBackslash,notMark⟩) value
  | case7 value c later opens ih =>
    apply ends_cons _ (ih scanned)
    intro other
    rw [scanArguments,opens]
    rfl
  | case8 value later fresh ih =>
    obtain ⟨⟨values,left⟩,inner,equal⟩ := Option.map_eq_some_iff.mp scanned
    cases equal
    obtain ⟨body,split,same⟩ := ih inner
    refine ⟨':' :: body,congrArg (':' :: ·) split,?_⟩
    intro other
    rw [List.cons_append,scanArguments.eq_def]
    simp [fresh,same other]
  | case9 value later fresh notColon =>
    cases scanned
    refine ⟨['>'],rfl,?_⟩
    intro other
    rw [List.cons_append,scanArguments.eq_def]
    simp [fresh,notColon]
  | case10 => cases scanned
  | case11 value c later fresh notColon notEnd plain ih =>
    apply ends_cons _ (ih scanned)
    intro other
    rw [scanArguments.eq_def]
    simp [fresh,notColon,notEnd,plain]

theorem parts_end (scanned : scanParts text = some (head,arguments,rest)) :
    ∃ body, text = body ++ rest ∧ ∀ other, scanParts (body ++ other) = some (head,arguments,other) := by
  have plain : ∀ c ∈ text.takeWhile isHeadChar, isHeadChar c = true :=
    List.all_eq_true.mp List.all_takeWhile
  have whole : text.takeWhile isHeadChar ++ text.dropWhile isHeadChar = text :=
    List.takeWhile_append_dropWhile
  unfold scanParts at scanned
  split at scanned
  · rename_i after found
    cases scanned
    refine ⟨text.takeWhile isHeadChar ++ ['>'],?_,?_⟩
    · rw [List.append_assoc,List.singleton_append,← found,whole]
    · intro other
      unfold scanParts
      rw [List.append_assoc,List.dropWhile_append_of_pos plain,List.takeWhile_append_of_pos plain]
      simp [isHeadChar]
  · rename_i after found
    obtain ⟨⟨values,left⟩,inner,equal⟩ := Option.map_eq_some_iff.mp scanned
    cases equal
    obtain ⟨body,split,same⟩ := arguments_end inner
    refine ⟨text.takeWhile isHeadChar ++ ':' :: body,?_,?_⟩
    · rw [List.append_assoc,List.cons_append,← split,← found,whole]
    · intro other
      unfold scanParts
      rw [List.append_assoc,List.dropWhile_append_of_pos plain,List.takeWhile_append_of_pos plain]
      simp [isHeadChar,same other]
  · cases scanned

theorem tag_ends {tag : Lexeme} (scanned : scanTag text = some tag) :
    ∃ body, text = body ++ tag.rest ∧ tag.source = '<' :: body ∧
      ∀ other, scanTag (body ++ other) = some { tag with rest := other } := by
  have found := scanned
  unfold scanTag at found
  split at found
  · cases found
  · rename_i head arguments rest parts
    obtain ⟨body,rfl,same⟩ := parts_end parts
    split at found
    · rename_i valid
      rw [tag_of_parts (same rest) valid] at scanned
      cases scanned
      exact ⟨body,rfl,rfl,fun other => tag_of_parts (same other) valid⟩
    · cases found

theorem tag_missing (missing : scanTag (text ++ more) = none) : scanTag text = none := by
  apply Option.eq_none_iff_forall_ne_some.mpr
  intro tag scanned
  obtain ⟨body,split,_,same⟩ := tag_ends scanned
  rw [split,List.append_assoc,same] at missing
  cases missing

theorem tokens_bracket (missing : scanTag rest = none) (position : Nat) (run : List Char) :
    tokensFrom position run ('<' :: rest) = tokensFrom (position + 1) ('<' :: run) rest := by
  rw [tokensFrom]
  split
  · rename_i found
    rw [missing] at found
    cases found
  · rfl

theorem tag_behind_text (found : textToken run ++ token :: tokens = earlier ++ .opening site arguments :: later) :
    (earlier = textToken run ∧ token = .opening site arguments) ∨
      ∃ between, earlier = textToken run ++ token :: between ∧
        tokens = between ++ .opening site arguments :: later := by
  cases run with
  | nil =>
    rw [textToken,List.nil_append] at found
    cases earlier with
    | nil => exact .inl ⟨rfl,(List.cons.inj found).1⟩
    | cons first between =>
      obtain ⟨rfl,behind⟩ := List.cons.inj found
      exact .inr ⟨between,rfl,behind⟩
  | cons c run =>
    cases earlier with
    | nil => cases found
    | cons first between =>
      obtain ⟨rfl,behind⟩ := List.cons.inj found
      cases between with
      | nil => exact .inl ⟨rfl,(List.cons.inj behind).1⟩
      | cons next between =>
        obtain ⟨same,behind⟩ := List.cons.inj behind
        exact .inr ⟨between,by rw [same]; rfl,behind⟩

-- The reader has come to this byte with this run when the text begins.
def StandsFrom (position : Nat) (run text : List Char) (earlier : List Token) (site : Site) : Prop :=
  ∃ before after, text = before ++ (site.source.toList ++ after) ∧
    position + Text.byteLength before = site.position ∧ tokensFrom position run before = earlier

theorem stands_later (consumed : List Char) (shown : List Token)
    (stands : StandsFrom next run' rest earlier site)
    (width : position + Text.byteLength consumed = next)
    (step : ∀ before after, rest = before ++ (site.source.toList ++ after) →
      tokensFrom position run (consumed ++ before) = shown ++ tokensFrom next run' before) :
    StandsFrom position run (consumed ++ rest) (shown ++ earlier) site := by
  obtain ⟨before,after,split,located,same⟩ := stands
  refine ⟨consumed ++ before,after,?_,?_,?_⟩
  · rw [split,List.append_assoc]
  · rw [byteLength_append]
    omega
  · rw [step before after split,same]

theorem stands_tag {tag : Lexeme} (scanned : scanTag rest = some tag)
    (opens : tag.token position = .opening site arguments) :
    StandsFrom position run ('<' :: rest) (textToken run) site := by
  obtain ⟨body,split,source,_⟩ := tag_ends scanned
  unfold Lexeme.token at opens
  split at opens
  · cases opens
  · cases opens
    refine ⟨[],tag.rest,?_,rfl,?_⟩
    · rw [List.nil_append,String.toList_ofList,source,List.cons_append,split]
    · rw [tokensFrom]

theorem stands_behind {tag : Lexeme} (scanned : scanTag rest = some tag)
    (stands : StandsFrom (position + Text.byteLength tag.source) [] tag.rest between site) :
    StandsFrom position run ('<' :: rest) (textToken run ++ tag.token position :: between) site := by
  obtain ⟨body,split,source,same⟩ := tag_ends scanned
  have whole (other : List Char) : tag.source ++ other = '<' :: (body ++ other) := by
    rw [source,List.cons_append]
  rw [split,← whole,← List.singleton_append,← List.append_assoc]
  apply stands_later _ _ stands rfl
  intro before after _
  rw [whole,tokens_tag (same before),List.append_assoc]
  rfl

-- Induction follows the reader, which stops at a tag, goes on behind one, or takes
-- one unit of text.
theorem stands_from (found : tokensFrom position run text = earlier ++ .opening site arguments :: later) :
    StandsFrom position run text earlier site := by
  fun_induction tokensFrom position run text generalizing earlier with
  | case1 position run =>
    have tagged : Token.opening site arguments ∈ textToken run := by
      rw [found]
      exact List.mem_append_right _ (List.mem_cons_self ..)
    cases run with
    | nil => cases tagged
    | cons c run => cases List.mem_singleton.mp tagged
  | case2 position run rest ih =>
    apply stands_later ['\\','<'] [] (ih found) rfl
    intro before after _
    exact tokens_escaped (.inr rfl) position run before
  | case3 position run rest ih =>
    apply stands_later ['\\','\\'] [] (ih found) rfl
    intro before after _
    exact tokens_escaped (.inl rfl) position run before
  | case4 position run rest tag scanned ih =>
    rcases tag_behind_text found with ⟨rfl,opens⟩ | ⟨between,rfl,behind⟩
    · exact stands_tag scanned opens
    · exact stands_behind scanned (ih behind)
  | case5 position run rest missing ih =>
    apply stands_later ['<'] [] (ih found) rfl
    intro before after split
    rw [split] at missing
    exact tokens_bracket (tag_missing missing) position run
  | case6 position run c rest noBracket noBackslash notBracket ih =>
    apply stands_later [c] [] (ih found) rfl
    intro before after split
    rw [List.singleton_append,tokensFrom,List.nil_append]
    · intro more backslash same
      exact noBracket (more ++ _) backslash (by rw [split,same]; rfl)
    · intro more backslash same
      exact noBackslash (more ++ _) backslash (by rw [split,same]; rfl)
    · exact notBracket

-- A tag is the text at the byte its site names. The tokens before it are those of the
-- text before it.
def Site.Stands (site : Site) (text : String) (earlier : List Token) : Prop :=
  ∃ before after, text = before ++ site.source ++ after ∧ before.utf8ByteSize = site.position ∧
    tokenize before = earlier

theorem site_stands (found : tokenize text = earlier ++ .opening site arguments :: later) :
    site.Stands text earlier := by
  obtain ⟨before,after,split,located,same⟩ := stands_from found
  refine ⟨String.ofList before,String.ofList after,?_,?_,?_⟩
  · apply String.toList_injective
    simp [split]
  · rw [← byteLength_size,← located,Nat.zero_add]
  · rw [tokenize,String.toList_ofList,same]

end Phrasebook.Template
