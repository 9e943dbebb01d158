import Phrasebook.Proofs.Tags.References
import Phrasebook.Proofs.Tags.Resolution
import Phrasebook.Renderer
namespace Phrasebook.Tags
open RichText Template

-- The renderer follows references as deep as its limit allows. What counts is
-- the length of the chains, not the number of references on the way.

-- What a reading comes to: it is cut off at the limit when `cut` holds, and else
-- arrives at a value of the kind wanted.
inductive Ends (limit : Nat) (cut : Prop) (wanted : α → Prop) : Traced Failure α → Prop where
  | cut (site : Site) (holds : cut) : Ends limit cut wanted (.fail (.depthExceeded limit site))
  | whole (clear : ¬cut) (value : α) (arrived : wanted value) : Ends limit cut wanted (.ok value)

theorem ends_bind {wanted : α → Prop} {wanted' : β → Prop} {first : Traced Failure α}
    {next : α → Traced Failure β} (ends : Ends limit cut wanted first)
    (continued : ∀ value, wanted value → Ends limit cut' wanted' (next value)) :
    Ends limit (cut ∨ cut') wanted' (first >>= next) := by
  cases ends with
  | cut site holds => exact .cut site (.inl holds)
  | whole clear value arrived =>
    rw [Traced.ok_bind]
    have later := continued value arrived
    revert later
    generalize next value = traced
    intro later
    cases later with
    | cut site holds => exact .cut site (.inr holds)
    | whole clear' value arrived => exact .whole (not_or.mpr ⟨clear,clear'⟩) value arrived

theorem ends_map {wanted : α → Prop} {wanted' : β → Prop} {first : Traced Failure α}
    (ends : Ends limit cut wanted first) (view : α → β)
    (kept : ∀ value, wanted value → wanted' (view value)) :
    Ends limit cut wanted' (do return view (← first)) := by
  cases ends with
  | cut site holds => exact .cut site holds
  | whole clear value arrived => exact .whole clear (view value) (kept value arrived)

theorem ends_iff {wanted : α → Prop} {traced : Traced Failure α} (same : cut ↔ cut')
    (ends : Ends limit cut wanted traced) : Ends limit cut' wanted traced := by
  rwa [← propext same]

theorem ends_weaken {wanted wanted' : α → Prop} {traced : Traced Failure α}
    (ends : Ends limit cut wanted traced) (kept : ∀ value, wanted value → wanted' value) :
    Ends limit cut wanted' traced := by
  cases ends with
  | cut site holds => exact .cut site holds
  | whole clear value arrived => exact .whole clear value (kept value arrived)

def phraseTags (catalog : Catalog) (fallback target : Locale) : Registry :=
  ⟨[.named phraseName (.phrase ⟨catalog,fallback,some target⟩)]⟩

def contributed (catalog : Catalog) (referent : Address) : Tag :=
  match templateAt catalog referent with
  | some template => .markup template
  | none => .text referent.key

section
variable {catalog : Catalog} {fallback target : Locale} {limit depth : Nat}
  {nested : Site → String → Traced Failure (List Glyph)}

theorem ok_contributed (referent : Address) :
    (.ok (contributed catalog referent) : Except Failure Tag) = match templateAt catalog referent with
      | some template => .ok (.markup template)
      | none => .ok (.text referent.key) := by
  unfold contributed
  cases templateAt catalog referent <;> rfl

theorem language_tag (accepted : (Locale.parseTag tag).toOption = some locale) :
    Locale.parseTag tag = .ok locale := by
  cases outcome : Locale.parseTag tag with
  | error fault => simp [outcome,Except.toOption] at accepted
  | ok other => simpa [outcome,Except.toOption] using accepted

theorem phrase_answers (names : addressed target arguments = some referent) (site : Site)
    (occurrence : Occurrence) :
    (Phrase.mk catalog fallback (some target)).resolve (Arguments.ofList site arguments) occurrence =
      .ok (contributed catalog referent) := by
  rw [ok_contributed]
  match arguments with
  | [] => cases names
  | [key] =>
    cases names
    rfl
  | key :: tag :: rest =>
    obtain ⟨locale,accepted,rfl⟩ := Option.map_eq_some_iff.mp names
    have explicit : Phrase.explicitLocale ⟨key :: tag :: rest,1,site⟩ occurrence = .ok (some locale) := by
      simp [Phrase.explicitLocale,Arguments.peek,language_tag accepted]
    change (Phrase.explicitLocale ⟨key :: tag :: rest,1,site⟩ occurrence >>= _) = _
    rw [explicit]
    rfl

theorem request_other (other : site.name ≠ phraseName) :
    (phraseTags catalog fallback target).resolver.request depth site arguments = .ok none := by
  have unclaimed : (phraseTags catalog fallback target).resolver.has site.name = false := by
    simpa [phraseTags,Registry.resolver,Registry.has,claimed,Entry.claims] using Ne.symm other
  simp [Resolver.request,unclaimed]

theorem request_phrase (phrase : site.name = phraseName)
    (names : addressed target arguments = some referent) :
    (phraseTags catalog fallback target).resolver.request depth site arguments =
      .ok (some (contributed catalog referent)) := by
  have claims : (phraseTags catalog fallback target).resolver.has site.name = true := by
    simp [phraseTags,Registry.resolver,Registry.has,claimed,Entry.claims,phrase]
  have own : (Entry.named phraseName (.phrase ⟨catalog,fallback,some target⟩)).claims site.name = true := by
    simp [Entry.claims,phrase]
  rw [Resolver.request,if_pos claims]
  simp only [phraseTags,Registry.resolver,resolve_cons,if_pos own,Entry.resolve,
    Definition.resolve,phrase_answers names]
  rfl

-- What is inserted for the messages that a token may name, when `count` more
-- references are too many.
def Inserts (catalog : Catalog) (target : Locale) (limit count : Nat)
    (nested : Site → String → Traced Failure (List Glyph)) (token : Token) : Prop :=
  ∀ referent template site, named target token = some referent →
    templateAt catalog referent = some template →
    Ends limit (Chain catalog target count referent) (Expansion catalog target referent)
      (nested site template)

theorem sound_phrase (phrase : site.name = phraseName) (accepted : sound target (.opening site arguments)) :
    (addressed target arguments).isSome := by
  simpa [sound,phrase] using accepted

theorem token_ends (reading : Reading) (token : Token) (accepted : sound target token)
    (inserts : Inserts catalog target limit count nested token) :
    Ends limit (Leads catalog target count token)
      (fun later => ∀ rest final, Expands catalog target later rest final →
        Expands catalog target reading (token :: rest) final)
      (readToken (phraseTags catalog fallback target).resolver depth nested reading token) := by
  cases token with
  | text content => exact .whole (leads_unnamed rfl) _ fun rest final later => .text later
  | closing site => exact .whole (leads_unnamed rfl) _ fun rest final later => .closing later
  | opening site arguments =>
    by_cases phrase : site.name = phraseName
    · obtain ⟨referent,names⟩ := Option.isSome_iff_exists.mp (sound_phrase phrase accepted)
      have naming : named target (.opening site arguments) = some referent := by
        rw [named,if_pos phrase,names]
      have leads : Leads catalog target count (.opening site arguments) ↔
          (templateAt catalog referent).isSome ∧ Chain catalog target count referent := leads_named naming
      rw [readToken_opening,request_phrase phrase names,Traced.ok_bind,contributed]
      cases found : templateAt catalog referent with
      | none =>
        rw [found] at leads
        refine .whole (by simp [leads]) _ fun rest final later => .missing phrase names found ?_
        rwa [Node.glyphs_text] at later
      | some template =>
        rw [found] at leads
        have same : Chain catalog target count referent ↔
            Leads catalog target count (.opening site arguments) := by simp [leads]
        refine ends_iff same (ends_map (inserts referent template site naming found) reading.emit ?_)
        rintro _ ⟨template',inner,found',inside,rfl⟩ rest final later
        cases found.symm.trans found'
        exact .entry phrase names found inside later
    · have unnamed : named target (.opening site arguments) = none := if_neg phrase
      rw [readToken_opening,request_other phrase,Traced.ok_bind]
      exact .whole (leads_unnamed unnamed) _ fun rest final later => .builtin phrase later

theorem tokens_end (tokens : List Token) (accepted : ∀ token ∈ tokens, sound target token)
    (inserts : ∀ token ∈ tokens, Inserts catalog target limit count nested token) (reading : Reading) :
    Ends limit (∃ token ∈ tokens, Leads catalog target count token)
      (Expands catalog target reading tokens)
      (tokens.foldlM (readToken (phraseTags catalog fallback target).resolver depth nested) reading) := by
  induction tokens generalizing reading with
  | nil => exact .whole nofun reading .done
  | cons token rest ih =>
    rw [List.foldlM_cons]
    have leads : Leads catalog target count token ∨ (∃ later ∈ rest, Leads catalog target count later) ↔
        ∃ any ∈ token :: rest, Leads catalog target count any := by simp
    refine ends_iff leads (ends_bind (token_ends reading token ?_ ?_) ?_)
    · exact accepted token List.mem_cons_self
    · exact inserts token List.mem_cons_self
    · intro later places
      refine ends_weaken (ih ?_ ?_ later) (places rest)
      · exact fun any inside => accepted any (List.mem_cons_of_mem _ inside)
      · exact fun any inside => inserts any (List.mem_cons_of_mem _ inside)

theorem template_ends (found : templateAt catalog address = some template)
    (accepted : ∀ token ∈ tokensAt catalog address, sound target token)
    (inserts : ∀ token ∈ tokensAt catalog address, Inserts catalog target limit count nested token) :
    Ends limit (Chain catalog target (count + 1) address) (Expansion catalog target address)
      (readTemplate (phraseTags catalog fallback target).resolver depth nested template) := by
  have tokens : tokenize template = tokensAt catalog address := by rw [tokensAt,found,Option.elim_some]
  rw [readTemplate,tokens]
  refine ends_map (ends_iff chain_leads.symm (tokens_end _ accepted inserts _)) Reading.emitted ?_
  intro final expands
  exact ⟨template,final,found,by rwa [tokens],rfl⟩

theorem reading_ends (levels : depth + count = limit) (found : templateAt catalog address = some template)
    (accepted : SoundFrom catalog target address) :
    Ends limit (Chain catalog target (count + 1) address) (Expansion catalog target address)
      (readFlat (phraseTags catalog fallback target).resolver limit depth template) := by
  induction count generalizing address template depth with
  | zero =>
    rw [readFlat]
    refine template_ends found (accepted address .refl) ?_
    intro token inside referent inserted site names present
    have full : limit < depth + 1 := by omega
    simp only [if_pos full]
    exact .cut site (.here referent)
  | succ count ih =>
    rw [readFlat]
    refine template_ends found (accepted address .refl) ?_
    intro token inside referent inserted site names present
    have refers : Refers catalog target address referent :=
      refers_iff.mpr ⟨token,inside,names,Option.isSome_iff_exists.mpr ⟨_,present⟩⟩
    have room : ¬limit < depth + 1 := by omega
    simp only [if_neg room]
    exact ih (by omega) present (sound_onward accepted refers)

theorem ends_related {wanted : β → Prop} {relation : α → β → Prop} {one : Traced Failure α}
    {two : Traced Failure β} (related : Traced.Related relation one two) (ends : Ends limit cut wanted two) :
    Ends limit cut (fun value => ∃ other, relation value other ∧ wanted other) one := by
  cases ends with
  | cut site holds =>
    cases related
    exact .cut site holds
  | whole clear other arrived =>
    cases related with
    | ok _ related => exact .whole clear _ ⟨other,related,arrived⟩

theorem parse_ends (engine : Engine) (fallback : Locale)
    (found : templateAt catalog address = some template) (accepted : SoundFrom catalog target address) :
    Ends engine.maxDepth (Chain catalog target (engine.maxDepth + 1) address)
      (fun node => Expansion catalog target address (node.glyphs .plain))
      (engine.parse template (phraseTags catalog fallback target).resolver) := by
  refine ends_weaken (ends_related (parse_follows engine template _) (reading_ends ?_ found accepted)) ?_
  · exact Nat.zero_add engine.maxDepth
  · rintro node ⟨glyphs,rfl,expansion⟩
    exact expansion

end

theorem registry_phrases (renderer : Renderer) (target : Locale)
    (installed : renderer.includePhraseTag = true) :
    renderer.registry target id =
      .ok (phraseTags renderer.store.catalog renderer.defaultLocale target) := by
  have valid : isTagName phraseName.toList = true := by decide
  simp only [Renderer.registry,installed,if_true,id,Renderer.tags,Builder.withPhrases,
    Builder.withPhraseTag,Builder.define,if_pos valid]
  rfl

theorem template_present (renderer : Renderer) (key : String) (locale : Locale)
    (found : templateAt renderer.store.catalog ⟨key,locale⟩ = some template) :
    renderer.template key locale = some template := by
  have stored : renderer.store.lookup key locale = some template := found
  simp only [Renderer.template,Renderer.templateOrDefault,stored,Option.some_or,ite_self]

theorem render_found (renderer : Renderer)
    (found : renderer.template key (renderer.targetLocale locale) = some template)
    (built : renderer.registry (renderer.targetLocale locale) configure = .ok registry) :
    renderer.render key locale configure = renderer.parse registry template := by
  have parsed : renderer.renderOrNone key locale configure =
      renderer.parse registry template >>= fun node => pure (some node) := by
    simp only [Renderer.renderOrNone,found,built]
  rw [Renderer.render,parsed,Traced.bind_assoc]
  simp only [Traced.pure_bind,Option.getD_some]
  exact Traced.bind_pure _

def DepthExceeded (limit : Nat) (outcome : Except RenderFault Node) : Prop :=
  ∃ site, outcome = .error (.template (.depthExceeded limit site))

theorem ends_exceeds {wanted : Node → Prop} {traced : Traced Failure Node}
    (ends : Ends limit cut wanted traced) :
    DepthExceeded limit (traced.outcome.mapError .template) ↔ cut := by
  cases ends with
  | cut site holds => exact ⟨fun _ => holds,fun _ => ⟨site,rfl⟩⟩
  | whole clear value arrived =>
    refine ⟨?_,fun holds => absurd holds clear⟩
    rintro ⟨site,exceeded⟩
    cases exceeded

theorem ends_clear {wanted : Node → Prop} {traced : Traced Failure Node}
    (ends : Ends limit cut wanted traced) (clear : ¬cut) :
    ∃ node, traced.outcome.mapError RenderFault.template = .ok node ∧ wanted node := by
  cases ends with
  | cut site holds => exact absurd holds clear
  | whole _ node arrived => exact ⟨node,rfl,arrived⟩

-- Rendering fails at the limit exactly when references go deeper than that, and
-- otherwise shows the message with every reference followed.
theorem render_expands (renderer : Renderer) (key : String) (locale : Option Locale)
    (installed : renderer.includePhraseTag = true)
    (present : (templateAt renderer.store.catalog ⟨key,renderer.targetLocale locale⟩).isSome)
    (accepted : SoundFrom renderer.store.catalog (renderer.targetLocale locale)
      ⟨key,renderer.targetLocale locale⟩) :
    let catalog := renderer.store.catalog
    let target := renderer.targetLocale locale
    let limit := renderer.engine.maxDepth
    let outcome := (renderer.render key locale id).outcome
    (DepthExceeded limit outcome ↔ Chain catalog target (limit + 1) ⟨key,target⟩) ∧
    (¬Chain catalog target (limit + 1) ⟨key,target⟩ → ∃ node, outcome = .ok node ∧
      ∀ glyphs, Expansion catalog target ⟨key,target⟩ glyphs ↔ glyphs = node.glyphs .plain) ∧
    ∀ address, Reaches catalog target ⟨key,target⟩ address → Cyclic catalog target address →
      DepthExceeded limit outcome := by
  intro catalog target limit outcome
  obtain ⟨template,found⟩ := Option.isSome_iff_exists.mp present
  have ends := parse_ends renderer.engine renderer.defaultLocale found accepted
  have rendered : outcome = ((renderer.engine.parse template
      (phraseTags catalog renderer.defaultLocale target).resolver).outcome.mapError .template) :=
    congrArg Traced.outcome (render_found renderer (template_present renderer key target found)
      (registry_phrases renderer target installed))
  have exceeds : DepthExceeded limit outcome ↔ Chain catalog target (limit + 1) ⟨key,target⟩ := by
    rw [rendered]
    exact ends_exceeds ends
  refine ⟨exceeds,?_,?_⟩
  · intro clear
    obtain ⟨node,shown,expansion⟩ := ends_clear ends clear
    refine ⟨node,rendered.trans shown,fun glyphs => ⟨fun other => expansion_unique other expansion,?_⟩⟩
    rintro rfl
    exact expansion
  · intro address reaches cyclic
    exact exceeds.mpr (reaching_chain reaches (fun count => cyclic_chain count cyclic) (limit + 1))

def english : Locale := ⟨"en"⟩

def french : Locale := ⟨"fr"⟩

def notes : Catalog := .ofRows [(english,"a","x<phrase:b:fr>"),
  (french,"b","<bold><phrase:c><phrase:d>"),(english,"c","!")]

theorem notes_from_a : references notes english ⟨"a",english⟩ = [⟨"b",french⟩] := by decide +kernel

theorem notes_from_b : references notes english ⟨"b",french⟩ = [⟨"c",english⟩] := by decide +kernel

theorem notes_from_c : references notes english ⟨"c",english⟩ = [] := by decide +kernel

theorem notes_reached (reaches : Reaches notes english ⟨"a",english⟩ reached) :
    reached = ⟨"a",english⟩ ∨ reached = ⟨"b",french⟩ ∨ reached = ⟨"c",english⟩ := by
  induction reaches with
  | refl => exact .inl rfl
  | tail _ refers ih =>
    rcases ih with rfl | rfl | rfl
    · rw [Refers,notes_from_a,List.mem_singleton] at refers
      exact .inr (.inl refers)
    · rw [Refers,notes_from_b,List.mem_singleton] at refers
      exact .inr (.inr refers)
    · rw [Refers,notes_from_c] at refers
      cases refers

theorem notes_sound : SoundFrom notes english ⟨"a",english⟩ := by
  have acceptedA : (tokensAt notes ⟨"a",english⟩).all (sound english) := by decide +kernel
  have acceptedB : (tokensAt notes ⟨"b",french⟩).all (sound english) := by decide +kernel
  have acceptedC : (tokensAt notes ⟨"c",english⟩).all (sound english) := by decide +kernel
  intro reached reaches
  rcases notes_reached reaches with rfl | rfl | rfl
  · exact List.all_eq_true.mp acceptedA
  · exact List.all_eq_true.mp acceptedB
  · exact List.all_eq_true.mp acceptedC

def notesRenderer (limit : Nat) : Renderer :=
  { Renderer.ofStore ⟨.supplied fun _ => .ok notes,1,notes⟩ with engine := ⟨limit⟩ }

theorem render_expands_notes :
    (templateAt notes ⟨"a",english⟩).isSome ∧ SoundFrom notes english ⟨"a",english⟩ ∧
    DepthExceeded 1 ((notesRenderer 1).render "a" (some english) id).outcome ∧
    ∃ node, ((notesRenderer 2).render "a" (some english) id).outcome = .ok node ∧
      ∀ glyphs, Expansion notes english ⟨"a",english⟩ glyphs ↔ glyphs = node.glyphs .plain := by
  have present : (templateAt notes ⟨"a",english⟩).isSome := by decide +kernel
  have two : Chain notes english 2 ⟨"a",english⟩ := by
    simp [chain_succ,notes_from_a,notes_from_b,Chain.here]
  have notThree : ¬Chain notes english 3 ⟨"a",english⟩ := by
    simp [chain_succ,notes_from_a,notes_from_b,notes_from_c]
  refine ⟨present,notes_sound,?_,?_⟩
  · exact (render_expands (notesRenderer 1) "a" (some english) rfl present notes_sound).1.mpr two
  · exact (render_expands (notesRenderer 2) "a" (some english) rfl present notes_sound).2.1 notThree

end Phrasebook.Tags
