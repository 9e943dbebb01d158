import Mathlib.Logic.Relation
import Phrasebook.Proofs.Template.FlatReading
import Phrasebook.Tags.Registry
namespace Phrasebook.Tags
open RichText Template

-- Messages that stand in one another: the message a phrase tag names, the graph
-- of these references, and what a message amounts to once all are followed.

structure Address where
  key : String
  locale : Locale
  deriving DecidableEq, Repr

def templateAt (catalog : Catalog) (address : Address) : Option String :=
  catalog.get? address.key address.locale

-- A tag without a locale of its own names a message of the target locale, in
-- whatever locale the tag itself stands.
def addressed (target : Locale) : List String → Option Address
  | [] => none
  | [key] => some ⟨key,target⟩
  | key :: tag :: _ => (Locale.parseTag tag).toOption.map (Address.mk key)

def named (target : Locale) : Token → Option Address
  | .opening site arguments => if site.name = phraseName then addressed target arguments else none
  | _ => none

-- A phrase tag needs a key, and a language tag if there is a second argument.
def sound (target : Locale) : Token → Bool
  | .opening site arguments => site.name != phraseName || (addressed target arguments).isSome
  | _ => true

section
variable (catalog : Catalog) (target : Locale)

def tokensAt (address : Address) : List Token := (templateAt catalog address).elim [] tokenize

def references (source : Address) : List Address :=
  ((tokensAt catalog source).filterMap (named target)).filter fun referent =>
    (templateAt catalog referent).isSome

def Refers (source referent : Address) : Prop := referent ∈ references catalog target source

def Reaches : Address → Address → Prop := Relation.ReflTransGen (Refers catalog target)

def Cyclic (address : Address) : Prop := Relation.TransGen (Refers catalog target) address address

inductive Chain : Nat → Address → Prop where
  | here (address : Address) : Chain 0 address
  | onward (refers : Refers catalog target source referent) (later : Chain count referent) :
      Chain (count + 1) source

def SoundFrom (start : Address) : Prop :=
  ∀ reached, Reaches catalog target start reached →
    ∀ token ∈ tokensAt catalog reached, sound target token

-- Reading on to the end of a template, with no limit on how deep references go.
inductive Expands : Reading → List Token → Reading → Prop where
  | done : Expands reading [] reading
  | text (later : Expands (reading.say content) rest final) :
      Expands reading (.text content :: rest) final
  | closing (later : Expands (reading.close site) rest final) :
      Expands reading (.closing site :: rest) final
  | builtin (other : site.name ≠ phraseName)
      (later : Expands (reading.fallback site arguments) rest final) :
      Expands reading (.opening site arguments :: rest) final
  -- The key itself, whatever it would be as markup.
  | missing (phrase : site.name = phraseName) (names : addressed target arguments = some referent)
      (absent : templateAt catalog referent = none)
      (later : Expands (reading.say referent.key) rest final) :
      Expands reading (.opening site arguments :: rest) final
  | entry (phrase : site.name = phraseName) (names : addressed target arguments = some referent)
      (found : templateAt catalog referent = some template)
      (inside : Expands ⟨[],[]⟩ (tokenize template) own)
      (later : Expands (reading.emit own.emitted) rest final) :
      Expands reading (.opening site arguments :: rest) final

def Expansion (address : Address) (glyphs : List Glyph) : Prop :=
  ∃ template final, templateAt catalog address = some template ∧
    Expands catalog target ⟨[],[]⟩ (tokenize template) final ∧ final.emitted = glyphs

end

section
variable {catalog : Catalog} {target : Locale}

theorem expands_unique (one : Expands catalog target reading tokens final)
    (two : Expands catalog target reading tokens final') : final = final' := by
  induction one generalizing final' with
  | done =>
    cases two
    rfl
  | text _ ih => cases two with | text later => exact ih later
  | closing _ ih => cases two with | closing later => exact ih later
  | builtin other _ ih => cases two with
    | builtin _ later => exact ih later
    | missing phrase => exact absurd phrase other
    | entry phrase => exact absurd phrase other
  | missing phrase names absent _ ih => cases two with
    | builtin other => exact absurd phrase other
    | missing _ names' _ later =>
      cases names.symm.trans names'
      exact ih later
    | entry _ names' found =>
      cases names.symm.trans names'
      exact absurd (absent.symm.trans found) nofun
  | entry phrase names found _ _ own ih => cases two with
    | builtin other => exact absurd phrase other
    | missing _ names' absent =>
      cases names.symm.trans names'
      exact absurd (absent.symm.trans found) nofun
    | entry _ names' found' inside later =>
      cases names.symm.trans names'
      cases found.symm.trans found'
      cases own inside
      exact ih later

theorem expansion_unique (one : Expansion catalog target address glyphs)
    (two : Expansion catalog target address glyphs') : glyphs = glyphs' := by
  obtain ⟨template,final,found,expands,rfl⟩ := one
  obtain ⟨template',final',found',expands',rfl⟩ := two
  cases found.symm.trans found'
  rw [expands_unique expands expands']

theorem refers_iff : Refers catalog target source referent ↔
    ∃ token ∈ tokensAt catalog source, named target token = some referent ∧
      (templateAt catalog referent).isSome := by
  simp only [Refers,references,List.mem_filter,List.mem_filterMap]
  constructor
  · rintro ⟨⟨token,inside,names⟩,present⟩
    exact ⟨token,inside,names,present⟩
  · rintro ⟨token,inside,names,present⟩
    exact ⟨⟨token,inside,names⟩,present⟩

-- A token with so many references ahead, its own not counted.
def Leads (catalog : Catalog) (target : Locale) (count : Nat) (token : Token) : Prop :=
  ∃ referent, named target token = some referent ∧ (templateAt catalog referent).isSome ∧
    Chain catalog target count referent

theorem leads_unnamed (unnamed : named target token = none) : ¬Leads catalog target count token := by
  rintro ⟨referent,names,_⟩
  cases unnamed.symm.trans names

theorem leads_named (names : named target token = some referent) :
    Leads catalog target count token ↔
      (templateAt catalog referent).isSome ∧ Chain catalog target count referent := by
  constructor
  · rintro ⟨other,names',present,chain⟩
    cases names.symm.trans names'
    exact ⟨present,chain⟩
  · rintro ⟨present,chain⟩
    exact ⟨referent,names,present,chain⟩

theorem chain_succ : Chain catalog target (count + 1) source ↔
    ∃ referent ∈ references catalog target source, Chain catalog target count referent := by
  constructor
  · intro chain
    cases chain with
    | onward refers later => exact ⟨_,refers,later⟩
  · rintro ⟨referent,refers,later⟩
    exact .onward refers later

theorem chain_leads : Chain catalog target (count + 1) source ↔
    ∃ token ∈ tokensAt catalog source, Leads catalog target count token := by
  rw [chain_succ]
  constructor
  · rintro ⟨referent,refers,later⟩
    obtain ⟨token,inside,names,present⟩ := refers_iff.mp refers
    exact ⟨token,inside,referent,names,present,later⟩
  · rintro ⟨token,inside,referent,names,present,later⟩
    exact ⟨referent,refers_iff.mpr ⟨token,inside,names,present⟩,later⟩

theorem cyclic_chain (count : Nat) (cyclic : Cyclic catalog target address) :
    Chain catalog target count address := by
  induction count generalizing address with
  | zero => exact .here address
  | succ count ih =>
    obtain ⟨next,refers,back⟩ := Relation.TransGen.head'_iff.mp cyclic
    exact .onward refers (ih (Relation.TransGen.tail' back refers))

theorem reaching_chain (reaches : Reaches catalog target start address)
    (endless : ∀ count, Chain catalog target count address) (count : Nat) :
    Chain catalog target count start := by
  induction reaches using Relation.ReflTransGen.head_induction_on generalizing count with
  | refl => exact endless count
  | head refers _ ih =>
    cases count with
    | zero => exact .here _
    | succ count => exact .onward refers (ih count)

theorem sound_onward (accepted : SoundFrom catalog target source)
    (refers : Refers catalog target source referent) : SoundFrom catalog target referent :=
  fun reached reaches => accepted reached (.head refers reaches)

end
end Phrasebook.Tags
