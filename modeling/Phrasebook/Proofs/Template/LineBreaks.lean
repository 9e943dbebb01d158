import Phrasebook.Proofs.Template.Positions
import Phrasebook.Proofs.Text.Splitting
namespace Phrasebook.Template

-- Reading a template line by line. Apart from the places of tags, and from where text
-- is cut into tokens, the lines read as the template does, unless a tag goes on over
-- the end of a line.

inductive Symbol where
  | char (c : Char)
  | opening (name source : String) (arguments : List String)
  | closing (name source : String)
  deriving DecidableEq, Repr

def Token.symbols : Token → List Symbol
  | .text content => content.toList.map .char
  | .opening site arguments => [.opening site.name site.source arguments]
  | .closing site => [.closing site.name site.source]

def Symbol.source : Symbol → List Char
  | .char _ => []
  | .opening _ source _ => source.toList
  | .closing _ source => source.toList

def Token.source : Token → List Char
  | .text _ => []
  | .opening site _ => site.source.toList
  | .closing site => site.source.toList

def symbols (text : List Char) : List Symbol := (tokensFrom 0 [] text).flatMap Token.symbols

-- No tag goes on over the end of a line.
def Unbroken (symbols : List Symbol) : Prop := ∀ symbol ∈ symbols, '\n' ∉ symbol.source

theorem unbroken_tokens {tokens : List Token} (unbroken : ∀ token ∈ tokens, '\n' ∉ token.source) :
    Unbroken (tokens.flatMap Token.symbols) := by
  intro symbol member
  obtain ⟨token,present,inside⟩ := List.mem_flatMap.mp member
  cases token with
  | text content =>
    obtain ⟨c,_,rfl⟩ := List.mem_map.mp inside
    exact List.not_mem_nil
  | opening site arguments => exact List.mem_singleton.mp inside ▸ unbroken _ present
  | closing site => exact List.mem_singleton.mp inside ▸ unbroken _ present

theorem textToken_symbols (run : List Char) : (textToken run).flatMap Token.symbols = run.reverse.map .char := by
  cases run with
  | nil => rfl
  | cons c run => simp [textToken,Token.symbols]

theorem tag_symbols (tag : Lexeme) (position other : Nat) :
    (tag.token position).symbols = (tag.token other).symbols := by
  unfold Lexeme.token
  split <;> rfl

structure Bare (c : Char) (rest : List Char) : Prop where
  unescaping : ∀ next more, c = '\\' → rest = next :: more → ¬(next = '\\' ∨ next = '<')
  notBracket : c ≠ '<'

theorem bare_of (noBracket : ∀ more, c = '\\' → rest = '<' :: more → False)
    (noBackslash : ∀ more, c = '\\' → rest = '\\' :: more → False) (notBracket : c ≠ '<') : Bare c rest := by
  refine ⟨?_,notBracket⟩
  intro next more backslash split special
  cases special with
  | inl same => exact noBackslash more backslash (same ▸ split)
  | inr same => exact noBracket more backslash (same ▸ split)

theorem tokens_bare (bare : Bare c rest) (position : Nat) (run : List Char) :
    tokensFrom position run (c :: rest) = tokensFrom (position + c.utf8Size) (c :: run) rest := by
  rw [tokensFrom]
  · exact fun more backslash same => bare.unescaping '<' more backslash same (.inr rfl)
  · exact fun more backslash same => bare.unescaping '\\' more backslash same (.inl rfl)
  · exact bare.notBracket

theorem symbols_anywhere (position : Nat) (run text : List Char) :
    ∃ later, ∀ position run, (tokensFrom position run text).flatMap Token.symbols = run.reverse.map .char ++ later := by
  fun_induction tokensFrom position run text with
  | case1 position run =>
    refine ⟨[],?_⟩
    intro position run
    rw [tokensFrom,textToken_symbols,List.append_nil]
  | case2 position run rest ih =>
    obtain ⟨later,same⟩ := ih
    refine ⟨.char '<' :: later,?_⟩
    intro position run
    rw [tokens_escaped (.inr rfl),same]
    simp
  | case3 position run rest ih =>
    obtain ⟨later,same⟩ := ih
    refine ⟨.char '\\' :: later,?_⟩
    intro position run
    rw [tokens_escaped (.inl rfl),same]
    simp
  | case4 position run rest tag scanned ih =>
    obtain ⟨later,same⟩ := ih
    refine ⟨(tag.token 0).symbols ++ later,?_⟩
    intro position run
    rw [tokens_tag scanned,List.flatMap_append,List.flatMap_cons,textToken_symbols,same,tag_symbols tag position 0]
    rfl
  | case5 position run rest missing ih =>
    obtain ⟨later,same⟩ := ih
    refine ⟨.char '<' :: later,?_⟩
    intro position run
    rw [tokens_bracket missing,same]
    simp
  | case6 position run c rest noBracket noBackslash notBracket ih =>
    obtain ⟨later,same⟩ := ih
    have bare := bare_of noBracket noBackslash notBracket
    refine ⟨.char c :: later,?_⟩
    intro position run
    rw [tokens_bare bare,same]
    simp

theorem symbols_from (position : Nat) (run text : List Char) :
    (tokensFrom position run text).flatMap Token.symbols = run.reverse.map .char ++ symbols text := by
  obtain ⟨later,same⟩ := symbols_anywhere position run text
  rw [same,symbols,same]
  rfl

theorem symbols_nil : symbols [] = [] := by
  rw [symbols,tokensFrom]
  rfl

theorem symbols_escaped (special : c = '\\' ∨ c = '<') (rest : List Char) :
    symbols ('\\' :: c :: rest) = .char c :: symbols rest := by
  rw [symbols,tokens_escaped special,symbols_from]
  rfl

theorem symbols_bare (bare : Bare c rest) : symbols (c :: rest) = .char c :: symbols rest := by
  rw [symbols,tokens_bare bare,symbols_from]
  rfl

theorem symbols_bracket (missing : scanTag rest = none) : symbols ('<' :: rest) = .char '<' :: symbols rest := by
  rw [symbols,tokens_bracket missing,symbols_from]
  rfl

theorem symbols_tag {tag : Lexeme} (scanned : scanTag rest = some tag) :
    symbols ('<' :: rest) = (tag.token 0).symbols ++ symbols tag.rest := by
  rw [symbols,tokens_tag scanned,List.flatMap_append,List.flatMap_cons,symbols_from]
  rfl

theorem tag_source (tag : Lexeme) : ∃ symbol ∈ (tag.token 0).symbols, symbol.source = tag.source := by
  unfold Lexeme.token
  split
  · exact ⟨_,List.mem_singleton_self _,String.toList_ofList⟩
  · exact ⟨_,List.mem_singleton_self _,String.toList_ofList⟩

theorem tag_on_line (missing : scanTag line = none)
    (unbroken : Unbroken (symbols ('<' :: (line ++ '\n' :: rest)))) :
    scanTag (line ++ '\n' :: rest) = none := by
  rw [Option.eq_none_iff_forall_ne_some]
  intro tag scanned
  obtain ⟨body,split,source,same⟩ := tag_ends scanned
  have clean : '\n' ∉ body := by
    rw [symbols_tag scanned] at unbroken
    obtain ⟨symbol,member,written⟩ := tag_source tag
    have clean := unbroken symbol (List.mem_append_left _ member)
    rw [written,source] at clean
    exact fun inside => clean (List.mem_cons_of_mem _ inside)
  have present : ∃ more, line = body ++ more := by
    cases List.append_eq_append_iff.mp split with
    | inl longer =>
      obtain ⟨more,rfl,left⟩ := longer
      cases more with
      | nil => exact ⟨[],by simp⟩
      | cons c more =>
        cases left
        exact absurd (List.mem_append_right _ (List.mem_cons_self ..)) clean
    | inr shorter =>
      obtain ⟨more,whole,_⟩ := shorter
      exact ⟨more,whole⟩
  obtain ⟨more,rfl⟩ := present
  rw [same more] at missing
  cases missing

theorem unbroken_later (earlier : List Symbol) (same : symbols whole = earlier ++ symbols later)
    (unbroken : Unbroken (symbols whole)) :
    Unbroken (symbols later) := by
  intro symbol member
  apply unbroken symbol
  rw [same]
  exact List.mem_append_right _ member

theorem bare_extended (bare : Bare c line) (plain : Bare d rest) (notBackslash : d ≠ '\\') :
    Bare c (line ++ d :: rest) := by
  refine ⟨?_,bare.notBracket⟩
  intro next more backslash split
  cases line with
  | nil =>
    cases split
    exact not_or.mpr ⟨notBackslash,plain.notBracket⟩
  | cons first line =>
    cases split
    exact bare.unescaping next line backslash rfl

-- The induction follows the reader over the line. A backslash at its end escapes nothing,
-- and a bracket whose tag is not complete on it stays a bracket.
theorem symbols_split (position : Nat) (run line : List Char)
    (unbroken : Unbroken (symbols (line ++ '\n' :: rest))) :
    symbols (line ++ '\n' :: rest) = symbols line ++ .char '\n' :: symbols rest := by
  have bare_break : Bare '\n' rest := ⟨fun _ _ backslash => absurd backslash (by decide),by decide⟩
  fun_induction tokensFrom position run line with
  | case1 position run => rw [List.nil_append,symbols_bare bare_break,symbols_nil,List.nil_append]
  | case2 position run line ih =>
    have whole := symbols_escaped (.inr rfl) (line ++ '\n' :: rest)
    rw [symbols_escaped (.inr rfl),List.cons_append,List.cons_append,whole]
    exact congrArg (Symbol.char '<' :: ·) (ih (unbroken_later [_] whole unbroken))
  | case3 position run line ih =>
    have whole := symbols_escaped (.inl rfl) (line ++ '\n' :: rest)
    rw [symbols_escaped (.inl rfl),List.cons_append,List.cons_append,whole]
    exact congrArg (Symbol.char '\\' :: ·) (ih (unbroken_later [_] whole unbroken))
  | case4 position run line tag scanned ih =>
    obtain ⟨body,split,_,same⟩ := tag_ends scanned
    have scanned' : scanTag (line ++ '\n' :: rest) = some { tag with rest := tag.rest ++ '\n' :: rest } := by
      rw [split,List.append_assoc,same]
    have whole := symbols_tag scanned'
    rw [symbols_tag scanned,List.cons_append,whole,List.append_assoc]
    exact congrArg _ (ih (unbroken_later _ whole unbroken))
  | case5 position run line missing ih =>
    have whole := symbols_bracket (tag_on_line missing unbroken)
    rw [symbols_bracket missing,List.cons_append,whole]
    exact congrArg (Symbol.char '<' :: ·) (ih (unbroken_later [_] whole unbroken))
  | case6 position run c line noBracket noBackslash notBracket ih =>
    have bare := bare_of noBracket noBackslash notBracket
    have whole := symbols_bare (bare_extended bare bare_break (by decide))
    rw [symbols_bare bare,List.cons_append,whole]
    exact congrArg (Symbol.char c :: ·) (ih (unbroken_later [_] whole unbroken))

theorem symbols_line (line rest : List Char) (unbroken : Unbroken (symbols (line ++ '\n' :: rest))) :
    symbols (line ++ '\n' :: rest) = symbols line ++ .char '\n' :: symbols rest :=
  symbols_split 0 [] line unbroken

theorem symbols_joined {lines : List (List Char)} (filled : lines ≠ [])
    (unbroken : Unbroken (symbols (['\n'].intercalate lines))) :
    symbols (['\n'].intercalate lines) = [Symbol.char '\n'].intercalate (lines.map symbols) := by
  induction lines with
  | nil => contradiction
  | cons line later ih =>
    cases later with
    | nil => rw [List.intercalate_singleton,List.map_singleton,List.intercalate_singleton]
    | cons next later =>
      rw [List.intercalate_cons_cons,List.append_assoc,List.singleton_append] at unbroken ⊢
      have whole := symbols_line line _ unbroken
      have behind : Unbroken (symbols (['\n'].intercalate (next :: later))) :=
        unbroken_later (symbols line ++ [.char '\n']) (by simp [whole]) unbroken
      rw [whole,ih (List.cons_ne_nil _ _) behind]
      simp only [List.map_cons,List.intercalate_cons_cons,List.append_assoc,List.singleton_append]

theorem symbols_lines (text : List Char) (unbroken : Unbroken (symbols text)) :
    symbols text = [Symbol.char '\n'].intercalate ((Text.splitOn '\n' text).map symbols) := by
  have joined := symbols_joined (Text.splitOn_ne_nil '\n' text)
  rw [Text.intercalate_splitOn] at joined
  exact joined unbroken

-- The quote that is open at the end of the first line opens no argument, and the
-- backslash there does not escape the bracket behind it.
example : symbols "a<b:'c\\\n<d>".toList =
    [.char 'a',.char '<',.char 'b',.char ':',.char '\'',.char 'c',.char '\\',.char '\n',.opening "d" "<d>" []] := by
  cbv

end Phrasebook.Template
