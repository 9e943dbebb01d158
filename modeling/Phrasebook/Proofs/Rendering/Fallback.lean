import Phrasebook.Proofs.Rendering.EntryPoints
import Phrasebook.Proofs.Tags.Operations
import Phrasebook.Proofs.Template.Agreement
namespace Phrasebook.Tags
open Template

def Last (word : String) (arguments : Arguments) : Prop :=
  ∃ rest, arguments.popOr "No key provided." = .ok (word,rest) ∧ rest.peek = none

theorem phrase_bare (bare : Last word arguments) (catalog : Catalog) (fallback target : Locale)
    (occurrence : Occurrence) :
    (Phrase.mk catalog fallback (some target)).resolve arguments occurrence =
      .ok (contributed catalog ⟨word,target⟩) := by
  obtain ⟨rest,taken,ended⟩ := bare
  have explicit : Phrase.explicitLocale rest occurrence = .ok none := by
    rw [Phrase.explicitLocale,ended]
  rw [ok_contributed,Phrase.resolve,taken]
  change (Phrase.explicitLocale rest occurrence >>= _) = _
  rw [explicit]
  rfl

theorem phrase_congr (same : ∀ word, Last word arguments →
      contributed catalog ⟨word,target⟩ = contributed catalog ⟨word,target'⟩) (fallback : Locale)
    (occurrence : Occurrence) :
    (Phrase.mk catalog fallback (some target)).resolve arguments occurrence =
      (Phrase.mk catalog fallback (some target')).resolve arguments occurrence := by
  by_cases bare : ∃ word, Last word arguments
  · obtain ⟨word,bare⟩ := bare
    rw [phrase_bare bare,phrase_bare bare,same word bare]
  · unfold Phrase.resolve
    cases taken : arguments.popOr "No key provided." with
    | error fault => rfl
    | ok parts =>
      obtain ⟨key,rest⟩ := parts
      change (Phrase.explicitLocale rest occurrence >>= _) = (Phrase.explicitLocale rest occurrence >>= _)
      cases peek : rest.peek with
      | none => exact absurd ⟨key,rest,taken,peek⟩ bare
      | some value =>
        unfold Phrase.explicitLocale
        rw [peek]
        dsimp only
        cases Locale.parseTag value <;> rfl

end Phrasebook.Tags
namespace Phrasebook.Renderer
open RichText Tags Template

-- A locale without messages, when a missing message is looked up in the default locale.
-- The template is the same then, but the phrase tag in it does not look there.

-- The tag that a renderer installs before the configuration is made.
def installed (renderer : Renderer) (target : Locale) : List Entry :=
  if renderer.includePhraseTag then
    [.named phraseName (.phrase ⟨renderer.store.catalog,renderer.defaultLocale,some target⟩)]
  else []

def own (renderer : Renderer) (operations : List Operation) : Except BuildFault Registry :=
  (renderer.tags.performAll operations).build

theorem start_backed (renderer : Renderer) (target : Locale) :
    Builder.Backed ((renderer.installed target).map Entry.record) renderer.tags
      (if renderer.includePhraseTag then renderer.tags.withPhraseTag (some target) else renderer.tags) := by
  unfold installed
  split
  · exact ⟨rfl,rfl,[],.nil,.all [_]⟩
  · exact ⟨rfl,rfl,[],.nil,.nil⟩

section
variable {renderer : Renderer} {operations : List Operation} {own : Registry} {locale : Locale} {request : Request}

theorem registry_refused (refused : renderer.own operations = .error fault) (target : Locale) :
    renderer.registry target (Builder.performAll · operations) = .error fault := by
  obtain ⟨other,refused',fails⟩ | ⟨made,_,built,_⟩ :=
    backed_built ((start_backed renderer target).performs_all operations)
  · cases refused.symm.trans refused'
    exact fails
  · cases refused.symm.trans built

theorem registry_layers (made : renderer.own operations = .ok own) (target : Locale) :
    ∃ registry, renderer.registry target (Builder.performAll · operations) = .ok registry ∧
      registry.resolver = (Registry.mk (own.entries ++ renderer.installed target)).resolver := by
  obtain ⟨_,refused,_⟩ | ⟨_,registry,made',built,same⟩ :=
    backed_built ((start_backed renderer target).performs_all operations)
  · cases made.symm.trans refused
  · cases made.symm.trans made'
    exact ⟨registry,built,same⟩

-- The phrase tag is asked for a message of the default locale, by its key alone, and
-- nothing that the configuration made answers in its place.
structure Missed (renderer : Renderer) (own : Registry) (request : Request) (word : String) : Prop where
  installed : renderer.includePhraseTag = true
  phrase : request.name = phraseName
  passed : (own.resolver.resolve request.name request.arguments request.occurrence).outcome = .ok none
  bare : Last word (own.resolver.resolve request.name request.arguments request.occurrence).arguments
  present : (renderer.store.lookup word renderer.defaultLocale).isSome

theorem installed_claims (renderer : Renderer) (name : String) (target other : Locale) :
    claimed name (renderer.installed target) = claimed name (renderer.installed other) := by
  unfold installed
  split <;> rfl

theorem installed_reply (installs : renderer.includePhraseTag = true) (target : Locale) (arguments : Arguments)
    (occurrence : Occurrence) :
    resolveNewest phraseName arguments occurrence (renderer.installed target) =
      ⟨[],((Phrase.mk renderer.store.catalog renderer.defaultLocale (some target)).resolve arguments occurrence).map some,
        arguments⟩ := by
  rw [installed,if_pos installs,resolve_cons,followedBy_named]
  rfl

theorem installed_declines (apart : ¬(renderer.includePhraseTag = true ∧ name = phraseName)) (target : Locale)
    (arguments : Arguments) (occurrence : Occurrence) :
    resolveNewest name arguments occurrence (renderer.installed target) = declined arguments := by
  apply resolve_unclaimed
  unfold installed
  split
  · rename_i installs
    have differ : phraseName ≠ name := fun same => apart ⟨installs,same.symm⟩
    simp [claimed,Entry.claims,differ]
  · rfl

-- What the configuration declines is answered by the installed tag with the message of
-- its locale, or with the key.
theorem missed_answers (missed : Missed renderer own request word) (target : Locale) :
    (Registry.mk (own.entries ++ renderer.installed target)).resolver.answer request =
      .ok (some (contributed renderer.store.catalog ⟨word,target⟩)) := by
  obtain ⟨installs,phrase,passed,bare,_⟩ := missed
  change (resolveNewest request.name request.arguments request.occurrence _).outcome = _
  change (resolveNewest request.name request.arguments request.occurrence own.entries).outcome = _ at passed
  rw [resolve_append,followedBy_passed passed,phrase,installed_reply installs]
  rw [phrase] at bare
  exact congrArg (Except.map some) (phrase_bare bare _ _ target _)

theorem silent_contributes (silent : ∀ key, renderer.store.lookup key locale = none) (word : String) :
    contributed renderer.store.catalog ⟨word,locale⟩ = .text word := by
  have nothing : templateAt renderer.store.catalog ⟨word,locale⟩ = none := silent word
  rw [contributed,nothing]

theorem kept_agrees (silent : ∀ key, renderer.store.lookup key locale = none)
    (kept : ∀ word, ¬Missed renderer own request word) :
    Agree (Registry.mk (own.entries ++ renderer.installed renderer.defaultLocale)).resolver
      (Registry.mk (own.entries ++ renderer.installed locale)).resolver request := by
  change resolveNewest request.name request.arguments request.occurrence _ =
    resolveNewest request.name request.arguments request.occurrence _
  rw [resolve_append,resolve_append]
  apply followedBy_congr
  intro passed
  by_cases phrase : renderer.includePhraseTag = true ∧ request.name = phraseName
  · obtain ⟨installs,named⟩ := phrase
    have same (word : String)
        (bare : Last word (resolveNewest request.name request.arguments request.occurrence own.entries).arguments) :
        contributed renderer.store.catalog ⟨word,renderer.defaultLocale⟩ =
          contributed renderer.store.catalog ⟨word,locale⟩ := by
      have absent : templateAt renderer.store.catalog ⟨word,renderer.defaultLocale⟩ = none :=
        Option.not_isSome_iff_eq_none.mp fun present => kept word ⟨installs,named,passed,bare,present⟩
      rw [silent_contributes silent,contributed,absent]
    have equal := phrase_congr same renderer.defaultLocale request.occurrence
    rw [named] at equal ⊢
    rw [installed_reply installs,installed_reply installs,equal]
  · rw [installed_declines phrase,installed_declines phrase]

def Misses (renderer : Renderer) (operations : List Operation) (key word : String) : Prop :=
  ∃ message own registry visits ending, renderer.store.lookup key renderer.defaultLocale = some message ∧
    renderer.own operations = .ok own ∧
    renderer.registry renderer.defaultLocale (Builder.performAll · operations) = .ok registry ∧
    Asks registry.resolver renderer.engine.maxDepth [] (tokenize message) visits ending ∧
    ∃ visit ∈ visits, Missed renderer own visit.request word

theorem template_silent (enabled : renderer.fallbackToDefault = true)
    (silent : ∀ key, renderer.store.lookup key locale = none) (key : String) :
    renderer.template key locale = renderer.store.lookup key renderer.defaultLocale ∧
      renderer.template key renderer.defaultLocale = renderer.store.lookup key renderer.defaultLocale := by
  rw [template,template,if_pos enabled,if_pos enabled,templateOrDefault,templateOrDefault,silent,Option.none_or,
    Option.or_self]
  exact ⟨rfl,rfl⟩

theorem kept_reads {there here : Registry} (silent : ∀ key, renderer.store.lookup key locale = none)
    (found : renderer.store.lookup key renderer.defaultLocale = some message)
    (made : renderer.own operations = .ok own) (kept : ∀ word, ¬renderer.Misses operations key word)
    (built : renderer.registry renderer.defaultLocale (Builder.performAll · operations) = .ok there)
    (built' : renderer.registry locale (Builder.performAll · operations) = .ok here) :
    renderer.engine.parse message there.resolver = renderer.engine.parse message here.resolver := by
  obtain ⟨_,builds,same⟩ := registry_layers made renderer.defaultLocale
  obtain ⟨_,builds',same'⟩ := registry_layers made locale
  cases built.symm.trans builds
  cases built'.symm.trans builds'
  obtain ⟨visits,asks,_⟩ := parse_visits renderer.engine.maxDepth message there.resolver
  have claims (name : String) : there.resolver.has name = here.resolver.has name := by
    rw [same,same']
    change claimed name (_ ++ _) = claimed name (_ ++ _)
    rw [claimed_append,claimed_append,installed_claims]
  have agree : ∀ visit ∈ visits, Agree there.resolver here.resolver visit.request := by
    intro visit member
    rw [same,same']
    apply kept_agrees silent
    exact fun word missed => kept word ⟨message,own,there,visits,_,found,made,built,asks,visit,member,missed⟩
  exact parse_agrees claims asks agree

end

-- A locale without messages renders as the default locale does, unless the phrase tag is
-- asked for a message of the default locale by its key alone. There the key itself is
-- inserted, and not the message.
theorem silent_like_default (renderer : Renderer) (enabled : renderer.fallbackToDefault = true) (locale : Locale)
    (silent : ∀ key, renderer.store.lookup key locale = none) (key : String) (operations : List Operation) :
    let configure := (Builder.performAll · operations)
    ((∀ word, ¬renderer.Misses operations key word) →
      renderer.render key (some locale) configure = renderer.render key (some renderer.defaultLocale) configure) ∧
    ∀ own here there, renderer.own operations = .ok own → renderer.registry locale configure = .ok here →
      renderer.registry renderer.defaultLocale configure = .ok there →
      ∀ request word, Missed renderer own request word →
        here.resolver.answer request = .ok (some (.text word)) ∧
          ∃ message, renderer.store.lookup word renderer.defaultLocale = some message ∧
            there.resolver.answer request = .ok (some (.markup message)) := by
  intro configure
  constructor
  · intro kept
    obtain ⟨here,there⟩ := template_silent enabled silent key
    cases found : renderer.store.lookup key renderer.defaultLocale with
    | none =>
      rw [found] at here there
      rw [(render_missing here).1,(render_missing there).1]
    | some message =>
      rw [found] at here there
      cases made : renderer.own operations with
      | error fault =>
        rw [(render_refused here (registry_refused made locale)).1,
          (render_refused there (registry_refused made renderer.defaultLocale)).1]
      | ok own =>
        obtain ⟨registry,built,_⟩ := registry_layers made locale
        obtain ⟨registry',built',_⟩ := registry_layers made renderer.defaultLocale
        have read : renderer.render key (some locale) configure = renderer.parse registry message :=
          render_found renderer here built
        have read' : renderer.render key (some renderer.defaultLocale) configure = renderer.parse registry' message :=
          render_found renderer there built'
        rw [read,read',parse,parse,kept_reads silent found made kept built' built]
  · intro own here there made built built' request word missed
    obtain ⟨registry,builds,same⟩ := registry_layers made locale
    obtain ⟨registry',builds',same'⟩ := registry_layers made renderer.defaultLocale
    cases built.symm.trans builds
    cases built'.symm.trans builds'
    obtain ⟨message,found⟩ := Option.isSome_iff_exists.mp missed.present
    refine ⟨?_,message,found,?_⟩
    · rw [same,missed_answers missed locale,silent_contributes silent]
    · have present : templateAt renderer.store.catalog ⟨word,renderer.defaultLocale⟩ = some message := found
      rw [same',missed_answers missed renderer.defaultLocale,contributed,present]

theorem unknown_silent {catalog : Catalog} (unknown : catalog.entries[locale]? = none) (key : String) :
    catalog.get? key locale = none := by
  rw [Catalog.get?,unknown]
  rfl

def englishOnly (catalog : Catalog) : Renderer :=
  { ofStore ⟨.supplied fun _ => .ok catalog,1,catalog⟩ with fallbackToDefault := true }

def letters : Catalog := .ofRows [(english,"a","<name>: see <phrase:b:en>, <phrase:c>"),(english,"b","the <bold>manual")]

def named : List Operation := [.give "name" (.unparsed "Ann")]

def lettersTags : Registry :=
  ⟨[.named "name" (.fixed (.text "Ann")),.named phraseName (.phrase ⟨letters,english,some english⟩)]⟩

theorem letters_asks : Asks lettersTags.resolver 16 [] (tokenize "<name>: see <phrase:b:en>, <phrase:c>")
    [⟨[],asked [] ⟨"name","<name>",0⟩ []⟩,⟨[],asked [] ⟨"phrase","<phrase:b:en>",12⟩ ["b","en"]⟩,
      ⟨[],asked [] ⟨"phrase","<phrase:c>",27⟩ ["c"]⟩] none := by
  have tokens : tokenize "<name>: see <phrase:b:en>, <phrase:c>" = [.opening ⟨"name","<name>",0⟩ [],.text ": see ",
      .opening ⟨"phrase","<phrase:b:en>",12⟩ ["b","en"],.text ", ",.opening ⟨"phrase","<phrase:c>",27⟩ ["c"]] := by
    decide +kernel
  have inner : tokenize "the <bold>manual" = [.text "the ",.opening ⟨"bold","<bold>",4⟩ [],.text "manual"] := by
    decide +kernel
  have ann : lettersTags.resolver.answer (asked [] ⟨"name","<name>",0⟩ []) = .ok (some (.text "Ann")) := rfl
  have b : lettersTags.resolver.answer (asked [] ⟨"phrase","<phrase:b:en>",12⟩ ["b","en"]) =
      .ok (some (.markup "the <bold>manual")) := rfl
  have c : lettersTags.resolver.answer (asked [] ⟨"phrase","<phrase:c>",27⟩ ["c"]) = .ok (some (.text "c")) := rfl
  have inside : Asks lettersTags.resolver 16 [asked [] ⟨"phrase","<phrase:b:en>",12⟩ ["b","en"]]
      (tokenize "the <bold>manual") [] none := by
    rw [inner]
    exact .text (.unclaimed rfl (.text .done))
  have last := Asks.answered rfl c nofun (@Asks.done lettersTags.resolver 16 [])
  rw [tokens]
  exact .answered rfl ann nofun (.text (.inserted rfl b (by decide) inside (.text last)))

theorem letters_kept (word : String) : ¬(englishOnly letters).Misses named "a" word := by
  rintro ⟨message,own,registry,visits,ending,found,made,built,asks,visit,member,missed⟩
  have stored : (englishOnly letters).store.lookup "a" english = some "<name>: see <phrase:b:en>, <phrase:c>" := by
    decide +kernel
  cases found.symm.trans stored
  cases made
  cases built
  obtain ⟨rfl,_⟩ := asks_unique asks letters_asks
  obtain ⟨_,phrase,_,⟨rest,taken,ended⟩,present⟩ := missed
  rcases List.mem_cons.mp member with rfl | later
  · exact absurd phrase (by decide)
  · rcases List.mem_cons.mp later with rfl | last
    · cases taken
      cases ended
    · rw [List.mem_singleton.mp last] at taken
      cases taken
      exact absurd present (by decide +kernel)

theorem letters_missed : Missed (englishOnly letters) ⟨[.named "name" (.fixed (.text "Ann"))]⟩
    (asked [] ⟨"phrase","<phrase:b>",0⟩ ["b"]) "b" :=
  ⟨rfl,rfl,rfl,⟨_,rfl,rfl⟩,by decide +kernel⟩

theorem silent_like_default_letters :
    let renderer := englishOnly letters
    let request := asked [] ⟨"phrase","<phrase:b>",0⟩ ["b"]
    (∀ key, renderer.store.lookup key french = none) ∧ (∀ word, ¬renderer.Misses named "a" word) ∧
    renderer.render "a" (some french) (Builder.performAll · named) =
      renderer.render "a" (some english) (Builder.performAll · named) ∧
    ∃ own here there, renderer.own named = .ok own ∧
      renderer.registry french (Builder.performAll · named) = .ok here ∧
      renderer.registry english (Builder.performAll · named) = .ok there ∧ Missed renderer own request "b" ∧
      here.resolver.answer request = .ok (some (.text "b")) ∧
      there.resolver.answer request = .ok (some (.markup "the <bold>manual")) := by
  intro renderer request
  have silent : ∀ key, renderer.store.lookup key french = none := unknown_silent (by decide +kernel)
  obtain ⟨same,apart⟩ := silent_like_default renderer rfl french silent "a" named
  obtain ⟨text,message,found,markup⟩ := apart _ _ _ rfl rfl rfl request "b" letters_missed
  have stored : renderer.store.lookup "b" english = some "the <bold>manual" := by decide +kernel
  cases found.symm.trans stored
  exact ⟨silent,letters_kept,same letters_kept,_,_,_,rfl,rfl,rfl,letters_missed,text,markup⟩

def handbook : Catalog := .ofRows [(english,"a","See <phrase:b>"),(english,"b","the manual")]

theorem silent_inserts_keys :
    (englishOnly handbook).fallbackToDefault = true ∧
    (∀ key, (englishOnly handbook).store.lookup key french = none) ∧
    (englishOnly handbook).render "a" (some french) (Builder.performAll · []) = ⟨[],.ok (.text "See b")⟩ ∧
    (englishOnly handbook).render "a" (some english) (Builder.performAll · []) = ⟨[],.ok (.text "See the manual")⟩ ∧
    (englishOnly handbook).render "a" (some french) (Builder.performAll · []) ≠
      (englishOnly handbook).render "a" (some english) (Builder.performAll · []) := by
  have silent : ∀ key, (englishOnly handbook).store.lookup key french = none := unknown_silent (by decide +kernel)
  have away : (englishOnly handbook).render "a" (some french) (Builder.performAll · []) = ⟨[],.ok (.text "See b")⟩ := by
    refine Traced.of_result ?_ ?_
    · decide +kernel
    · decide +kernel
  have home : (englishOnly handbook).render "a" (some english) (Builder.performAll · []) =
      ⟨[],.ok (.text "See the manual")⟩ := by
    refine Traced.of_result ?_ ?_
    · decide +kernel
    · decide +kernel
  refine ⟨rfl,silent,away,home,?_⟩
  rw [away,home]
  simp [Node.text]

end Phrasebook.Renderer
