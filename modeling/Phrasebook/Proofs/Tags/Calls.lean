import Phrasebook.Proofs.Tags.Declining
import Phrasebook.Proofs.Template.Requests
namespace Phrasebook.Tags
open Template

-- Which suppliers and functions a template calls, and when. Definitions of one name
-- are told apart by a word that each of them leaves in the log.

inductive Source where
  | single (name word : String) (definition : Definition)
  | nested (sources : List Source)

mutual
-- The newest definition of a name, with its word.
def Source.winner (name : String) : Source → Option (String × Definition)
  | .single own word definition => if own = name then some (word,definition) else none
  | .nested sources => winner name sources
def winner (name : String) : List Source → Option (String × Definition)
  | [] => none
  | source :: older => (source.winner name).or (winner name older)
end

def Definition.calls (word : String) : Definition → List String
  | .deferred _ => [word]
  | .function _ => [word]
  | _ => []

abbrev Form := String → String → Definition → Entry

mutual
def Source.entry (form : Form) : Source → Entry
  | .single name word definition => form name word definition
  | .nested sources => .nested (entriesOf form sources)
def entriesOf (form : Form) : List Source → List Entry
  | [] => []
  | source :: older => source.entry form :: entriesOf form older
end

def plainForm : Form := fun name _ definition => .named name definition

-- The same definition, logging its own word in place of the name of the tag.
def loggingForm : Form := fun name word definition => .custom
  { has := fun asked => name == asked
    resolve := fun asked arguments occurrence =>
      ⟨definition.calls word,(definition.resolve asked arguments occurrence).outcome.map some,arguments⟩ }

def resolverOf (form : Form) (sources : List Source) : Resolver := (Registry.mk (entriesOf form sources)).resolver

-- Entries that answer as the definitions they stand for, and note this of each use.
structure Represents (form : Form) (note : String → String → Definition → List String) : Prop where
  claims : (form own word definition).claims name = (own == name)
  answers : (form own word definition).resolve name arguments occurrence =
    ⟨note name word definition,(definition.resolve name arguments occurrence).outcome.map some,arguments⟩

theorem plain_represents : Represents plainForm fun name _ definition => definition.calls name := by
  constructor
  · intro own word definition name
    rw [plainForm,Entry.claims]
  · intro own word definition name arguments occurrence
    rw [plainForm,Entry.resolve]
    cases definition <;> rfl

theorem logging_represents : Represents loggingForm fun _ word definition => definition.calls word := by
  constructor
  · intro own word definition name
    rw [loggingForm,Entry.claims]
  · intro own word definition name arguments occurrence
    rw [loggingForm,Entry.resolve]

def winnerReply (note : String → String → Definition → List String) (name : String) (arguments : Arguments)
    (occurrence : Occurrence) : Option (String × Definition) → Reply
  | some (word,definition) =>
    ⟨note name word definition,(definition.resolve name arguments occurrence).outcome.map some,arguments⟩
  | none => declined arguments

theorem map_answers (outcome : Except Failure Tag) : outcome.map some ≠ .ok none := by
  cases outcome <;> exact nofun

-- A winner answers for good, so that what stands behind it is not looked at.
theorem winner_final (found : Option.isSome given = true) (next : Arguments → Reply) :
    followedBy (winnerReply note name arguments occurrence given) next =
      winnerReply note name arguments occurrence given := by
  obtain ⟨⟨word,definition⟩,rfl⟩ := Option.isSome_iff_exists.mp found
  exact followedBy_decided (map_answers _) next

mutual
theorem source_wins (represents : Represents form note) (name : String) (arguments : Arguments)
    (occurrence : Occurrence) :
    ∀ source : Source, (source.entry form).claims name = (source.winner name).isSome ∧
      ((source.winner name).isSome = true → (source.entry form).resolve name arguments occurrence =
        winnerReply note name arguments occurrence (source.winner name))
  | .single own word definition => by
    rw [Source.entry,Source.winner,represents.claims,represents.answers]
    by_cases same : own = name <;> simp [same,winnerReply]
  | .nested sources => by
    obtain ⟨claims,answers⟩ := sources_win represents name arguments occurrence sources
    rw [Source.entry,Source.winner,Entry.claims,Entry.resolve]
    exact ⟨claims,fun _ => answers⟩
theorem sources_win (represents : Represents form note) (name : String) (arguments : Arguments)
    (occurrence : Occurrence) :
    ∀ sources : List Source, claimed name (entriesOf form sources) = (winner name sources).isSome ∧
      resolveNewest name arguments occurrence (entriesOf form sources) =
        winnerReply note name arguments occurrence (winner name sources)
  | [] => by
    rw [entriesOf,winner,claimed,resolve_nil]
    exact ⟨rfl,rfl⟩
  | source :: older => by
    obtain ⟨claims,answers⟩ := source_wins represents name arguments occurrence source
    obtain ⟨claims',answers'⟩ := sources_win represents name arguments occurrence older
    rw [entriesOf,winner,claimed_cons,resolve_cons,claims,claims',answers']
    cases found : source.winner name with
    | none => exact ⟨rfl,rfl⟩
    | some given =>
      rw [found] at answers
      rw [Option.isSome_some,if_pos rfl,answers rfl]
      exact ⟨rfl,winner_final rfl _⟩
end

def noting (note : String → String → Definition → List String) (sources : List Source) (request : Request) :
    List String :=
  (winner request.name sources).elim [] fun found => note request.name found.1 found.2

theorem registry_notes (represents : Represents form note) (sources : List Source) (engine : Engine)
    (template : String) : engine.parse template (resolverOf form sources) =
      engine.parse template ((resolverOf plainForm sources).marked (noting note sources)) := by
  apply parse_congr
  intro depth site arguments
  obtain ⟨claims,answers⟩ :=
    sources_win represents site.name (Arguments.ofList site arguments) ⟨site,depth⟩ sources
  obtain ⟨claims',answers'⟩ :=
    sources_win plain_represents site.name (Arguments.ofList site arguments) ⟨site,depth⟩ sources
  simp only [Resolver.request,Resolver.marked,Registry.resolver,Registry.has,resolverOf,noting,claims,claims',
    answers,answers']
  cases winner site.name sources with
  | none => rfl
  | some given => rfl

theorem claims_won (sources : List Source) (name : String) :
    (resolverOf plainForm sources).has name = (winner name sources).isSome := by
  let site : Site := ⟨name,"",0⟩
  obtain ⟨found,_⟩ := sources_win plain_represents name (Arguments.ofList site []) ⟨site,0⟩ sources
  exact found

def Wins (sources : List Source) (request : Request) : Prop :=
  ∃ word definition, winner request.name sources = some (word,definition) ∧
    (resolverOf plainForm sources).answer request =
      (definition.resolve request.name request.arguments request.occurrence).outcome.map some

theorem request_wins {request : Request} (claims : (resolverOf plainForm sources).has request.name = true) :
    Wins sources request := by
  obtain ⟨name,arguments,occurrence⟩ := request
  obtain ⟨_,answers⟩ := sources_win plain_represents name arguments occurrence sources
  have wins : (winner name sources).isSome = true := (claims_won sources name).symm.trans claims
  obtain ⟨⟨word,definition⟩,given⟩ := Option.isSome_iff_exists.mp wins
  refine ⟨word,definition,given,?_⟩
  rw [given] at answers
  exact congrArg Reply.outcome answers

-- A tag is visited when its name has a winner, and passed over otherwise. The visits of
-- a template are settled by its tags and by what the winners answer. The log has the
-- words of the winners, visit by visit, and of nothing else; in case of a failure the
-- last of them is the one that failed.
theorem parse_logs_winners (sources : List Source) (limit : Nat) (template : String) :
    (∀ name, (resolverOf plainForm sources).has name = (winner name sources).isSome) ∧
    ∃ visits, (∀ other ending,
        Asks (resolverOf plainForm sources) limit [] (tokenize template) other ending ↔ other = visits ∧
          ending = failed ((Engine.mk limit).parse template (resolverOf plainForm sources)).outcome) ∧
      (∀ visit ∈ visits, visit.Stands (resolverOf plainForm sources) limit template ∧
        Wins sources visit.request) ∧
      (∀ fault, ((Engine.mk limit).parse template (resolverOf plainForm sources)).outcome = .error fault →
        ∃ earlier last, visits = earlier ++ [last] ∧
          last.Fails (resolverOf plainForm sources) limit fault) ∧
      (Engine.mk limit).parse template (resolverOf loggingForm sources) =
        ⟨visits.flatMap fun visit => noting (fun _ word definition => definition.calls word) sources visit.request,
          ((Engine.mk limit).parse template (resolverOf plainForm sources)).outcome⟩ ∧
      ((Engine.mk limit).parse template (resolverOf plainForm sources)).calls =
        visits.flatMap fun visit =>
          noting (fun name _ definition => definition.calls name) sources visit.request := by
  obtain ⟨visits,asks,logs⟩ := parse_visits limit template (resolverOf plainForm sources)
  have stand := asks_stand asks (Nat.zero_le limit) .whole (List.Subset.refl _)
  have claims := asks_claimed asks
  refine ⟨claims_won sources,visits,?_,?_,?_,?_,?_⟩
  · intro other ending
    constructor
    · exact fun asked => asks_unique asked asks
    · intro same
      obtain ⟨rfl,rfl⟩ := same
      exact asks
  · exact fun visit member => ⟨stand visit member,request_wins (claims visit member)⟩
  · intro fault fails
    rw [fails] at asks
    exact asks_end asks
  · rw [registry_notes logging_represents]
    exact logs _
  · rw [registry_notes plain_represents]
    exact congrArg Traced.calls (logs _)

example :
    let older := Source.single "a" "old" (.deferred fun _ => .text "shadowed")
    let outer := Source.single "a" "new" (.function fun _ _ => .ok (.markup "<b><b>"))
    let inner := Source.single "b" "inner" (.deferred fun _ => .text "b")
    ((Engine.mk 1).parse "\\<b><b><a:'<b>'></b><b>"
      (resolverOf loggingForm [.nested [outer,inner],older])).calls =
        ["inner","new","inner","inner","inner"] := by
  decide +kernel

end Phrasebook.Tags
