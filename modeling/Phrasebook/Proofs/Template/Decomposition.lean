import Phrasebook.Proofs.Template.LineBreaks
namespace Phrasebook.Template

-- A template as stretches of text with the tags between them. Tokenizing finds the one
-- way to cut it at which no bracket in a stretch could have begun a tag.

-- A character of text, or an escape that stands for its second character.
inductive Stroke where
  | plain (c : Char)
  | escaped (c : Char)
  deriving DecidableEq, Repr

namespace Stroke

def char : Stroke → Char
  | .plain c => c
  | .escaped c => c

def written : Stroke → List Char
  | .plain c => [c]
  | .escaped c => ['\\',c]

end Stroke

def strokes : List Char → List Stroke
  | '\\' :: '<' :: rest => .escaped '<' :: strokes rest
  | '\\' :: '\\' :: rest => .escaped '\\' :: strokes rest
  | c :: rest => .plain c :: strokes rest
  | [] => []

def unescaped (text : List Char) : List Char := (strokes text).map Stroke.char

def stretchTokens : List Char → List Token
  | [] => []
  | stretch => [.text (String.ofList (unescaped stretch))]

-- A stretch before `rest`, which is the next tag or the end of the template.
structure Stretch (stretch rest : List Char) : Prop where
  tagless : ∀ earlier later, strokes stretch = earlier ++ .plain '<' :: later →
    scanTag (later.flatMap Stroke.written ++ rest) = none
  -- before a tag a backslash at the end would be an escape
  closed : ∀ earlier, strokes stretch = earlier ++ [.plain '\\'] → rest = []

inductive Decomposed : Nat → List Char → List Token → Prop where
  | last (clear : Stretch stretch []) : Decomposed position stretch (stretchTokens stretch)
  | tag {tag : Lexeme} (clear : Stretch stretch (tag.source ++ tag.rest))
      (opens : tag.source = '<' :: body) (scanned : scanTag (body ++ tag.rest) = some tag)
      (later : Decomposed (position + Text.byteLength stretch + Text.byteLength tag.source) tag.rest tokens) :
      Decomposed position (stretch ++ (tag.source ++ tag.rest))
        (stretchTokens stretch ++ tag.token (position + Text.byteLength stretch) :: tokens)

theorem strokes_written (text : List Char) : (strokes text).flatMap Stroke.written = text := by
  fun_induction strokes text with
  | case1 rest ih => simp [Stroke.written,ih]
  | case2 rest ih => simp [Stroke.written,ih]
  | case3 c rest notBracket notBackslash ih => simp [Stroke.written,ih]
  | case4 => rfl

theorem strokes_escaped (special : c = '\\' ∨ c = '<') (rest : List Char) :
    strokes ('\\' :: c :: rest) = .escaped c :: strokes rest := by
  cases special with
  | inl same => subst same; rfl
  | inr same => subst same; rfl

theorem strokes_plain (unescaping : ∀ next more, c = '\\' → rest = next :: more → ¬(next = '\\' ∨ next = '<')) :
    strokes (c :: rest) = .plain c :: strokes rest := by
  rw [strokes]
  · exact fun more backslash same => unescaping '<' more backslash same (.inr rfl)
  · exact fun more backslash same => unescaping '\\' more backslash same (.inl rfl)

theorem unescaped_filled (c : Char) (rest : List Char) : unescaped (c :: rest) ≠ [] := by
  intro empty
  have written := strokes_written (c :: rest)
  rw [List.map_eq_nil_iff.mp empty] at written
  cases written

theorem textToken_unescaped (stretch : List Char) :
    textToken (unescaped stretch).reverse = stretchTokens stretch := by
  cases stretch with
  | nil => rfl
  | cons c rest =>
    have filled := unescaped_filled c rest
    rw [textToken,List.reverse_reverse,stretchTokens]
    · exact List.cons_ne_nil c rest
    · exact fun empty => filled (List.reverse_eq_nil_iff.mp empty)

theorem stretch_cons (shape : strokes whole = stroke :: strokes stretch) :
    Stretch whole rest ↔ Stretch stretch rest ∧ (stroke = .plain '<' → scanTag (stretch ++ rest) = none) ∧
      (stroke = .plain '\\' → stretch = [] → rest = []) := by
  constructor
  · intro clear
    refine ⟨⟨?_,?_⟩,?_,?_⟩
    · intro earlier later split
      exact clear.tagless (stroke :: earlier) later (by rw [shape,split]; rfl)
    · intro earlier split
      exact clear.closed (stroke :: earlier) (by rw [shape,split]; rfl)
    · intro bracket
      have missing := clear.tagless [] (strokes stretch) (by rw [shape,bracket]; rfl)
      rwa [strokes_written] at missing
    · intro backslash empty
      exact clear.closed [] (by rw [shape,backslash,empty]; rfl)
  · intro ⟨clear,bracket,backslash⟩
    refine ⟨?_,?_⟩
    · intro earlier later split
      rw [shape] at split
      cases earlier with
      | nil =>
        obtain ⟨same,behind⟩ := List.cons.inj split
        rw [← behind,strokes_written]
        exact bracket same
      | cons first earlier => exact clear.tagless earlier later (List.cons.inj split).2
    · intro earlier split
      rw [shape] at split
      cases earlier with
      | nil =>
        obtain ⟨same,behind⟩ := List.cons.inj split
        have written := strokes_written stretch
        rw [behind] at written
        exact backslash same written.symm
      | cons first earlier => exact clear.closed earlier (List.cons.inj split).2

theorem stretch_nil (rest : List Char) : Stretch [] rest := by
  refine ⟨?_,?_⟩
  · intro earlier later split
    cases earlier <;> cases split
  · intro earlier split
    cases earlier <;> cases split

theorem bare_stretched (bare : Bare c more) (ended : c = '\\' → more = [] → rest = []) : Bare c (more ++ rest) := by
  refine ⟨?_,bare.notBracket⟩
  intro next behind backslash split
  cases more with
  | nil =>
    rw [List.nil_append,ended backslash rfl] at split
    cases split
  | cons first more =>
    cases split
    exact bare.unescaping next more backslash rfl

-- The reader has taken this text and come out behind it.
def Takes (text rest : List Char) : Prop := ∀ position run,
  tokensFrom position run (text ++ rest) =
    tokensFrom (position + Text.byteLength text) ((unescaped text).reverse ++ run) rest

theorem takes_stroke (shape : strokes whole = stroke :: strokes more)
    (step : ∀ position run, tokensFrom position run (whole ++ rest) =
      tokensFrom (position + Text.byteLength stroke.written) (stroke.char :: run) (more ++ rest))
    (later : Takes more rest) : Takes whole rest := by
  have split : whole = stroke.written ++ more := by
    rw [← strokes_written whole,shape,List.flatMap_cons,strokes_written]
  have read : unescaped whole = stroke.char :: unescaped more := by rw [unescaped,shape,List.map_cons,unescaped]
  intro position run
  rw [step,later,read,split,byteLength_append,List.reverse_cons,List.append_assoc,Nat.add_assoc]
  rfl

theorem takes_escaped (special : c = '\\' ∨ c = '<') (later : Takes more rest) : Takes ('\\' :: c :: more) rest := by
  apply takes_stroke (strokes_escaped special more) _ later
  intro position run
  have width : Text.byteLength ['\\',c] = 2 := by rcases special with rfl | rfl <;> rfl
  exact width ▸ tokens_escaped special position run _

theorem takes_stretch (clear : Stretch stretch rest) : Takes stretch rest := by
  fun_induction strokes stretch with
  | case1 more ih => exact takes_escaped (.inr rfl) (ih ((stretch_cons rfl).mp clear).1)
  | case2 more ih => exact takes_escaped (.inl rfl) (ih ((stretch_cons rfl).mp clear).1)
  | case3 c more noBracket noBackslash ih =>
    have shape : strokes (c :: more) = .plain c :: strokes more := strokes.eq_3 c more noBracket noBackslash
    obtain ⟨inner,bracket,backslash⟩ := (stretch_cons shape).mp clear
    apply takes_stroke shape _ (ih inner)
    intro position run
    have width : Text.byteLength [c] = c.utf8Size := rfl
    by_cases opens : c = '<'
    · subst opens
      exact tokens_bracket (bracket rfl) position run
    · have bare := bare_of noBracket noBackslash opens
      apply tokens_bare (bare_stretched bare _) position run
      intro same
      exact backslash (congrArg Stroke.plain same)
  | case4 =>
    intro position run
    rfl

inductive Begins : List Char → Prop where
  | text (clear : Stretch text []) : Begins text
  | tag {tag : Lexeme} (clear : Stretch stretch ('<' :: rest)) (scanned : scanTag rest = some tag) :
      Begins (stretch ++ '<' :: rest)

theorem begins_escaped (special : c = '\\' ∨ c = '<') (begins : Begins rest) : Begins ('\\' :: c :: rest) := by
  have longer (stretch behind : List Char) (clear : Stretch stretch behind) : Stretch ('\\' :: c :: stretch) behind :=
    (stretch_cons (strokes_escaped special stretch)).mpr ⟨clear,(nomatch ·),(nomatch ·)⟩
  cases begins with
  | text clear => exact .text (longer _ _ clear)
  | tag clear scanned => exact .tag (longer _ _ clear) scanned

theorem begins_bracket (missing : scanTag rest = none) (begins : Begins rest) : Begins ('<' :: rest) := by
  have shape (stretch : List Char) : strokes ('<' :: stretch) = .plain '<' :: strokes stretch :=
    strokes_plain fun _ _ same => absurd same (by decide)
  cases begins with
  | text clear =>
    apply Begins.text
    apply (stretch_cons (shape _)).mpr
    exact ⟨clear,fun _ => by rwa [List.append_nil],fun _ _ => rfl⟩
  | @tag stretch behind tag clear scanned =>
    have longer : Stretch ('<' :: stretch) ('<' :: behind) := by
      apply (stretch_cons (shape _)).mpr
      exact ⟨clear,fun _ => missing,fun same => absurd (Stroke.plain.inj same) (by decide)⟩
    exact .tag longer scanned

theorem begins_bare (bare : Bare c rest) (begins : Begins rest) : Begins (c :: rest) := by
  cases begins with
  | text clear =>
    apply Begins.text
    apply (stretch_cons (strokes_plain bare.unescaping)).mpr
    exact ⟨clear,fun same => absurd (Stroke.plain.inj same) bare.notBracket,fun _ _ => rfl⟩
  | @tag stretch behind tag clear scanned =>
    have shape : strokes (c :: stretch) = .plain c :: strokes stretch := by
      apply strokes_plain
      intro next more backslash split
      exact bare.unescaping next (more ++ '<' :: behind) backslash (by rw [split]; rfl)
    have longer : Stretch (c :: stretch) ('<' :: behind) := by
      apply (stretch_cons shape).mpr
      refine ⟨clear,fun same => absurd (Stroke.plain.inj same) bare.notBracket,?_⟩
      intro same empty
      exact absurd (.inr rfl) (bare.unescaping '<' behind (Stroke.plain.inj same) (by rw [empty]; rfl))
    exact .tag longer scanned

theorem text_begins (text : List Char) : Begins text := by
  fun_induction tokensFrom 0 [] text with
  | case1 => exact .text (stretch_nil [])
  | case2 position run rest ih => exact begins_escaped (.inr rfl) ih
  | case3 position run rest ih => exact begins_escaped (.inl rfl) ih
  | case4 position run rest tag scanned ih => exact .tag (stretch_nil _) scanned
  | case5 position run rest missing ih => exact begins_bracket missing ih
  | case6 position run c rest noBracket noBackslash notBracket ih =>
    exact begins_bare (bare_of noBracket noBackslash notBracket) ih

theorem text_decomposed (position : Nat) (text : List Char) : ∃ tokens, Decomposed position text tokens := by
  cases text_begins text with
  | text clear => exact ⟨_,.last clear⟩
  | @tag stretch rest tag clear scanned =>
    have shorter := tag_consumes scanned
    obtain ⟨tokens,later⟩ := text_decomposed (position + Text.byteLength stretch + Text.byteLength tag.source) tag.rest
    obtain ⟨body,split,source,_⟩ := tag_ends scanned
    have whole : '<' :: rest = tag.source ++ tag.rest := by rw [source,split]; rfl
    rw [whole] at clear ⊢
    exact ⟨_,.tag clear source (split ▸ scanned) later⟩
termination_by text.length
decreasing_by
  rw [List.length_append,List.length_cons]
  omega

theorem decomposed_read (decomposed : Decomposed position text tokens) : tokensFrom position [] text = tokens := by
  induction decomposed with
  | @last stretch position clear =>
    have read := takes_stretch clear position []
    rw [List.append_nil,List.append_nil,tokensFrom,textToken_unescaped] at read
    exact read
  | @tag stretch body position tokens tag clear opens scanned later ih =>
    have bracket : tag.source ++ tag.rest = '<' :: (body ++ tag.rest) := by rw [opens]; rfl
    rw [takes_stretch clear,List.append_nil,bracket,tokens_tag scanned,ih,textToken_unescaped]

theorem decomposed_iff : tokensFrom position [] text = tokens ↔ Decomposed position text tokens := by
  constructor
  · intro read
    obtain ⟨found,decomposed⟩ := text_decomposed position text
    rw [← read,decomposed_read decomposed]
    exact decomposed
  · exact decomposed_read

def Token.isText : Token → Bool
  | .text _ => true
  | _ => false

def Token.site? : Token → Option Site
  | .text _ => none
  | .opening site _ => some site
  | .closing site => some site

def sites (tokens : List Token) : List Site := tokens.filterMap Token.site?

def Site.Before (one two : Site) : Prop :=
  one.position < two.position ∧ one.position + one.source.utf8ByteSize ≤ two.position

theorem stretchTokens_cases (stretch : List Char) : stretchTokens stretch = [] ∨
    ∃ content, content ≠ "" ∧ stretchTokens stretch = [.text content] := by
  cases stretch with
  | nil => exact .inl rfl
  | cons c rest =>
    refine .inr ⟨_,?_,rfl⟩
    intro empty
    exact unescaped_filled c rest (String.ofList_eq_empty_iff.mp empty)

theorem sites_stretch (stretch : List Char) (tokens : List Token) :
    sites (stretchTokens stretch ++ tokens) = sites tokens := by
  cases stretchTokens_cases stretch with
  | inl untold => rw [untold,List.nil_append]
  | inr told =>
    obtain ⟨content,_,shown⟩ := told
    rw [shown]
    rfl

theorem sites_tag (tag : Lexeme) (position : Nat) (tokens : List Token) :
    sites (tag.token position :: tokens) = ⟨String.ofList tag.name,String.ofList tag.source,position⟩ :: sites tokens := by
  unfold Lexeme.token
  split <;> rfl

theorem token_tag (tag : Lexeme) (position : Nat) : (tag.token position).isText = false := by
  unfold Lexeme.token
  split <;> rfl

theorem sites_within (decomposed : Decomposed position text tokens) (found : site ∈ sites tokens) :
    ∃ before after, text = before ++ (site.source.toList ++ after) ∧
      position + Text.byteLength before = site.position := by
  induction decomposed with
  | @last stretch position clear =>
    have silent := sites_stretch stretch []
    rw [List.append_nil] at silent
    rw [silent] at found
    cases found
  | @tag stretch body position tokens tag clear opens scanned later ih =>
    rw [sites_stretch,sites_tag] at found
    cases List.mem_cons.mp found with
    | inl same =>
      subst same
      refine ⟨stretch,tag.rest,?_,rfl⟩
      rw [String.toList_ofList]
    | inr behind =>
      obtain ⟨before,after,same,located⟩ := ih behind
      refine ⟨stretch ++ (tag.source ++ before),after,?_,?_⟩
      · rw [same]
        simp only [List.append_assoc]
      · rw [byteLength_append,byteLength_append]
        omega

theorem sites_ordered (decomposed : Decomposed position text tokens) : (sites tokens).Pairwise Site.Before := by
  induction decomposed with
  | @last stretch position clear =>
    have silent := sites_stretch stretch []
    rw [List.append_nil] at silent
    rw [silent]
    exact .nil
  | @tag stretch body position tokens tag clear opens scanned later ih =>
    have width := byteLength_size tag.source
    have filled : 0 < Text.byteLength tag.source := by
      rw [opens]
      exact Nat.lt_of_lt_of_le (Char.utf8Size_pos '<') (Nat.le_add_right _ _)
    rw [sites_stretch,sites_tag]
    refine .cons ?_ ih
    intro site behind
    obtain ⟨before,_,_,located⟩ := sites_within later behind
    refine ⟨?_,?_⟩
    · change position + Text.byteLength stretch < site.position
      omega
    · change position + Text.byteLength stretch + (String.ofList tag.source).utf8ByteSize ≤ site.position
      omega

theorem texts_filled (decomposed : Decomposed position text tokens) : ∀ token ∈ tokens, token ≠ .text "" := by
  have stretch_filled (stretch : List Char) : ∀ token ∈ stretchTokens stretch, token ≠ .text "" := by
    intro token member empty
    cases stretchTokens_cases stretch with
    | inl untold => rw [untold] at member; cases member
    | inr told =>
      obtain ⟨content,filled,shown⟩ := told
      rw [shown,List.mem_singleton] at member
      exact filled (Token.text.inj (member.symm.trans empty))
  induction decomposed with
  | last clear => exact stretch_filled _
  | @tag stretch body position tokens tag clear opens scanned later ih =>
    intro token member
    cases List.mem_append.mp member with
    | inl here => exact stretch_filled _ token here
    | inr behind =>
      cases List.mem_cons.mp behind with
      | inl same =>
        intro empty
        have tagged := token_tag tag (position + Text.byteLength stretch)
        rw [← same,empty] at tagged
        cases tagged
      | inr further => exact ih token further

theorem texts_apart (decomposed : Decomposed position text tokens) :
    tokens.IsChain fun one two => (one.isText && two.isText) = false := by
  induction decomposed with
  | @last stretch position clear =>
    cases stretchTokens_cases stretch with
    | inl untold => rw [untold]; exact .nil
    | inr told =>
      obtain ⟨content,_,shown⟩ := told
      rw [shown]
      exact .singleton _
  | @tag stretch body position tokens tag clear opens scanned later ih =>
    have tagged := token_tag tag (position + Text.byteLength stretch)
    have behind : (tag.token (position + Text.byteLength stretch) :: tokens).IsChain
        fun one two => (one.isText && two.isText) = false :=
      List.isChain_cons.mpr ⟨fun next _ => by rw [tagged]; rfl,ih⟩
    cases stretchTokens_cases stretch with
    | inl untold => rwa [untold,List.nil_append]
    | inr told =>
      obtain ⟨content,_,shown⟩ := told
      rw [shown]
      exact List.isChain_cons.mpr ⟨fun next first => by cases first; rw [tagged]; rfl,behind⟩

-- The tokens are those of the one decomposition. Its tags stand in the template where
-- they say, one behind the other, and its texts are as long as they can be.
theorem tokenize_decomposes (template : String) :
    (∀ tokens, tokenize template = tokens ↔ Decomposed 0 template.toList tokens) ∧
    (∀ site ∈ sites (tokenize template), ∃ before after,
      template = before ++ site.source ++ after ∧ before.utf8ByteSize = site.position) ∧
    (sites (tokenize template)).Pairwise Site.Before ∧
    (∀ token ∈ tokenize template, token ≠ .text "") ∧
    (tokenize template).IsChain fun one two => (one.isText && two.isText) = false := by
  have decomposed : Decomposed 0 template.toList (tokenize template) := decomposed_iff.mp rfl
  refine ⟨fun tokens => decomposed_iff,?_,sites_ordered decomposed,texts_filled decomposed,texts_apart decomposed⟩
  intro site found
  obtain ⟨before,after,split,located⟩ := sites_within decomposed found
  refine ⟨String.ofList before,String.ofList after,?_,?_⟩
  · apply String.toList_injective
    simp [split]
  · rw [← byteLength_size,← located,Nat.zero_add]

-- A backslash escapes a bracket only if nothing has escaped the backslash. What begins no
-- tag is text, and a tag may begin inside of it.
example : tokenize "é\\\\<b>\\<b><c:<d>" =
    [.text "é\\",.opening ⟨"b","<b>",4⟩ [],.text "<b><c:",.opening ⟨"d","<d>",14⟩ []] := by
  cbv

end Phrasebook.Template
