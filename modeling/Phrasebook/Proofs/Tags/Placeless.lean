import Phrasebook.Proofs.Outcome
import Phrasebook.Proofs.Tags.Resolution
namespace Phrasebook.Template

-- The same tag somewhere else in a template.

def Site.movedTo (site : Site) (position : Nat) : Site := { site with position := position }

def Arguments.movedTo (arguments : Arguments) (position : Nat) : Arguments :=
  { arguments with site := arguments.site.movedTo position }

def Occurrence.movedTo (occurrence : Occurrence) (position : Nat) : Occurrence :=
  { occurrence with site := occurrence.site.movedTo position }

-- Two replies give the same tag, decline together, or both fail. What is handed on
-- differs in the place only.
structure Reply.Moved (position : Nat) (moved here : Reply) : Prop where
  outcome : moved.outcome.toOption = here.outcome.toOption
  arguments : here.outcome = .ok none → moved.arguments = here.arguments.movedTo position

-- The place of a tag is no matter to a resolver.
def Resolver.Placeless (resolver : Resolver) : Prop :=
  ∀ name arguments occurrence position, resolver.has name = true →
    (resolver.resolve name (arguments.movedTo position) (occurrence.movedTo position)).Moved position
      (resolver.resolve name arguments occurrence)

theorem request_placeless {resolver : Resolver} (placeless : resolver.Placeless) (depth : Nat) (site : Site)
    (arguments : List String) (position : Nat) :
    (resolver.request depth (site.movedTo position) arguments).outcome.toOption =
      (resolver.request depth site arguments).outcome.toOption := by
  unfold Resolver.request
  change (if resolver.has site.name then _ else _ : Traced Failure (Option Tag)).outcome.toOption = _
  by_cases claimed : resolver.has site.name = true
  · rw [if_pos claimed,if_pos claimed]
    exact (placeless site.name (Arguments.ofList site arguments) ⟨site,depth⟩ position claimed).outcome
  · rw [if_neg claimed,if_neg claimed]

end Phrasebook.Template
namespace Phrasebook.Tags
open Outcome Template

-- A tag function may fail elsewhere, but makes the same tag wherever it does not.
def Definition.Placeless : Definition → Prop
  | .function run => ∀ arguments occurrence position,
    (run (arguments.movedTo position) (occurrence.movedTo position)).toOption = (run arguments occurrence).toOption
  | _ => True

inductive Entry.Placeless : Entry → Prop where
  | named (name : String) {definition : Definition} (placeless : definition.Placeless) : Placeless (.named name definition)
  | nested {entries : List Entry} (each : ∀ entry ∈ entries, Placeless entry) : Placeless (.nested entries)
  | custom {resolver : Resolver} (placeless : resolver.Placeless) : Placeless (.custom resolver)

theorem explicit_placeless (arguments : Arguments) (occurrence : Occurrence) (position : Nat) :
    (Phrase.explicitLocale (arguments.movedTo position) (occurrence.movedTo position)).toOption =
      (Phrase.explicitLocale arguments occurrence).toOption := by
  have peek : (arguments.movedTo position).peek = arguments.peek := rfl
  unfold Phrase.explicitLocale
  rw [peek]
  cases arguments.peek with
  | none => rfl
  | some value =>
    dsimp only
    cases Locale.parseTag value with
    | ok locale => rfl
    | error fault => rfl

theorem phrase_placeless (phrase : Phrase) (arguments : Arguments) (occurrence : Occurrence) (position : Nat) :
    (phrase.resolve (arguments.movedTo position) (occurrence.movedTo position)).toOption =
      (phrase.resolve arguments occurrence).toOption := by
  have peek : (arguments.movedTo position).peek = arguments.peek := rfl
  unfold Phrase.resolve Arguments.popOr Arguments.pop
  rw [peek]
  cases arguments.peek with
  | none => rfl
  | some key =>
    apply bind_toOption (explicit_placeless { arguments with position := arguments.position + 1 } occurrence position)
    intro explicit
    rfl

theorem definition_placeless {definition : Definition} (placeless : definition.Placeless) (name : String)
    (arguments : Arguments) (occurrence : Occurrence) (position : Nat) :
    (definition.resolve name (arguments.movedTo position) (occurrence.movedTo position)).outcome.toOption =
      (definition.resolve name arguments occurrence).outcome.toOption := by
  cases definition with
  | fixed tag => rfl
  | deferred supplier => rfl
  | function run => exact placeless arguments occurrence position
  | phrase installed => exact phrase_placeless installed arguments occurrence position

theorem followedBy_moved {moved here : Reply} {next next' : Arguments → Reply} (first : moved.Moved position here)
    (behind : ∀ left, (next' (left.movedTo position)).Moved position (next left)) :
    (followedBy moved next').Moved position (followedBy here next) := by
  have same : moved.outcome = .ok none ↔ here.outcome = .ok none := by
    rw [← toOption_ok,← toOption_ok,first.outcome]
  by_cases passed : here.outcome = .ok none
  · have passed' := same.mpr passed
    have later := behind here.arguments
    rw [← first.arguments passed] at later
    constructor
    · rw [followedBy_passed passed,followedBy_passed passed']
      exact later.outcome
    · intro declines
      rw [followedBy_passed passed] at declines
      simp only [followedBy,passed,passed']
      exact later.arguments declines
  · rw [followedBy_decided passed,followedBy_decided (passed ∘ same.mp)]
    exact first

theorem resolve_placeless (each : ∀ entry ∈ entries, ∀ arguments, entry.claims name = true →
      (entry.resolve name (arguments.movedTo position) (occurrence.movedTo position)).Moved position
        (entry.resolve name arguments occurrence)) (arguments : Arguments) :
    (resolveNewest name (arguments.movedTo position) (occurrence.movedTo position) entries).Moved position
      (resolveNewest name arguments occurrence entries) := by
  induction entries generalizing arguments with
  | nil =>
    rw [resolve_nil,resolve_nil]
    exact ⟨rfl,fun _ => rfl⟩
  | cons entry older ih =>
    obtain ⟨first,rest⟩ := List.forall_mem_cons.mp each
    rw [resolve_cons,resolve_cons]
    by_cases claims : entry.claims name = true
    · rw [if_pos claims,if_pos claims]
      apply followedBy_moved (first arguments claims)
      intro left
      exact ih rest left.reset
    · rw [if_neg claims,if_neg claims]
      exact ih rest arguments

theorem entry_placeless {entry : Entry} (placeless : entry.Placeless) (arguments : Arguments)
    (claims : entry.claims name = true) :
    (entry.resolve name (arguments.movedTo position) (occurrence.movedTo position)).Moved position
      (entry.resolve name arguments occurrence) := by
  induction placeless generalizing arguments with
  | named own placeless =>
    rw [Entry.resolve,Entry.resolve]
    refine ⟨?_,fun _ => rfl⟩
    have same := definition_placeless placeless name arguments occurrence position
    rw [map_toOption,map_toOption,same]
  | nested each ih =>
    rw [Entry.resolve,Entry.resolve]
    exact resolve_placeless ih arguments
  | custom placeless =>
    rw [Entry.claims] at claims
    rw [Entry.resolve,Entry.resolve]
    exact placeless name arguments occurrence position claims

theorem registry_placeless {registry : Registry} (placeless : ∀ entry ∈ registry.entries, entry.Placeless) :
    registry.resolver.Placeless := by
  intro name arguments occurrence position _
  apply resolve_placeless
  exact fun entry member => entry_placeless (placeless entry member)

end Phrasebook.Tags
