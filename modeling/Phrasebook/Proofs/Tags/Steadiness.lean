import Phrasebook.Proofs.Template.SymbolReading
namespace Phrasebook.Tags
open Outcome Template

-- Registries that answer a tag in the same way wherever it stands, with the same calls.
-- Only a function of its own can make a difference.

def Definition.Steady : Definition → Prop
  | .function run => ∀ arguments occurrence position,
    (run (arguments.movedTo position) (occurrence.movedTo position)).mapError Failure.unplaced =
      (run arguments occurrence).mapError Failure.unplaced
  | _ => True

structure Reply.Displaced (position : Nat) (moved here : Reply) : Prop where
  calls : moved.calls = here.calls
  outcome : moved.outcome.mapError Failure.unplaced = here.outcome.mapError Failure.unplaced
  arguments : here.outcome = .ok none → moved.arguments = here.arguments.movedTo position

inductive Entry.Steady : Entry → Prop where
  | named (name : String) {definition : Definition} (steady : definition.Steady) : Steady (.named name definition)
  | nested {entries : List Entry} (each : ∀ entry ∈ entries, Steady entry) : Steady (.nested entries)
  | custom {resolver : Resolver} (steady : ∀ name arguments occurrence position, resolver.has name = true →
      Reply.Displaced position (resolver.resolve name (arguments.movedTo position) (occurrence.movedTo position))
        (resolver.resolve name arguments occurrence)) : Steady (.custom resolver)

theorem explicit_steady (arguments : Arguments) (occurrence : Occurrence) (position : Nat) :
    (Phrase.explicitLocale (arguments.movedTo position) (occurrence.movedTo position)).mapError Failure.unplaced =
      (Phrase.explicitLocale arguments occurrence).mapError Failure.unplaced := by
  have peek : (arguments.movedTo position).peek = arguments.peek := rfl
  unfold Phrase.explicitLocale
  rw [peek]
  cases arguments.peek with
  | none => rfl
  | some value =>
    dsimp only
    cases Locale.parseTag value <;> rfl

theorem phrase_steady (phrase : Phrase) (arguments : Arguments) (occurrence : Occurrence) (position : Nat) :
    (phrase.resolve (arguments.movedTo position) (occurrence.movedTo position)).mapError Failure.unplaced =
      (phrase.resolve arguments occurrence).mapError Failure.unplaced := by
  have peek : (arguments.movedTo position).peek = arguments.peek := rfl
  unfold Phrase.resolve Arguments.popOr Arguments.pop
  rw [peek]
  cases arguments.peek with
  | none => rfl
  | some key =>
    apply bind_mapError (explicit_steady { arguments with position := arguments.position + 1 } occurrence position)
    intro explicit
    rfl

theorem named_steady {definition : Definition} (steady : definition.Steady) (name own : String) (arguments : Arguments)
    (occurrence : Occurrence) (position : Nat) :
    Reply.Displaced position
      ((Entry.named own definition).resolve name (arguments.movedTo position) (occurrence.movedTo position))
      ((Entry.named own definition).resolve name arguments occurrence) := by
  rw [Entry.resolve,Entry.resolve]
  cases definition with
  | fixed tag => exact ⟨rfl,rfl,fun _ => rfl⟩
  | deferred supplier => exact ⟨rfl,rfl,fun _ => rfl⟩
  | function run =>
    refine ⟨rfl,?_,fun _ => rfl⟩
    rw [map_mapError,map_mapError]
    exact congrArg _ (steady arguments occurrence position)
  | phrase installed =>
    refine ⟨rfl,?_,fun _ => rfl⟩
    rw [map_mapError,map_mapError]
    exact congrArg _ (phrase_steady installed arguments occurrence position)

theorem followedBy_displaced {moved here : Reply} {next next' : Arguments → Reply}
    (first : Reply.Displaced position moved here)
    (behind : ∀ left, Reply.Displaced position (next' (left.movedTo position)) (next left)) :
    Reply.Displaced position (followedBy moved next') (followedBy here next) := by
  have same : moved.outcome = .ok none ↔ here.outcome = .ok none := by
    constructor
    · intro passed
      exact mapError_ok_iff.mp (first.outcome.symm.trans (mapError_ok_iff.mpr passed))
    · intro passed
      exact mapError_ok_iff.mp (first.outcome.trans (mapError_ok_iff.mpr passed))
  by_cases passed : here.outcome = .ok none
  · have later := behind here.arguments
    rw [← first.arguments passed] at later
    simp only [followedBy,passed,same.mpr passed]
    exact ⟨by rw [first.calls,later.calls],later.outcome,later.arguments⟩
  · rw [followedBy_decided passed,followedBy_decided (passed ∘ same.mp)]
    exact first

theorem resolve_steady (each : ∀ entry ∈ entries, ∀ arguments, entry.claims name = true → Reply.Displaced position
      (entry.resolve name (arguments.movedTo position) (occurrence.movedTo position))
      (entry.resolve name arguments occurrence)) (arguments : Arguments) :
    Reply.Displaced position (resolveNewest name (arguments.movedTo position) (occurrence.movedTo position) entries)
      (resolveNewest name arguments occurrence entries) := by
  induction entries generalizing arguments with
  | nil =>
    rw [resolve_nil,resolve_nil]
    exact ⟨rfl,rfl,fun _ => rfl⟩
  | cons entry older ih =>
    obtain ⟨first,rest⟩ := List.forall_mem_cons.mp each
    rw [resolve_cons,resolve_cons]
    by_cases claims : entry.claims name = true
    · rw [if_pos claims,if_pos claims]
      exact followedBy_displaced (first arguments claims) fun left => ih rest left.reset
    · rw [if_neg claims,if_neg claims]
      exact ih rest arguments

theorem entry_steady {entry : Entry} (steady : entry.Steady) (arguments : Arguments) (claims : entry.claims name = true) :
    Reply.Displaced position (entry.resolve name (arguments.movedTo position) (occurrence.movedTo position))
      (entry.resolve name arguments occurrence) := by
  induction steady generalizing arguments with
  | named own steady => exact named_steady steady name own arguments occurrence position
  | nested each ih =>
    rw [Entry.resolve,Entry.resolve]
    exact resolve_steady ih arguments
  | custom steady =>
    rw [Entry.claims] at claims
    rw [Entry.resolve,Entry.resolve]
    exact steady name arguments occurrence position claims

theorem registry_steady {registry : Registry} (steady : ∀ entry ∈ registry.entries, entry.Steady)
    (symbols : List Symbol) : registry.resolver.Steady symbols := by
  intro site arguments _
  unfold Resolver.request
  change _ = Traced.mapError Failure.unplaced (if registry.resolver.has site.name then _ else _)
  by_cases claims : registry.resolver.has site.name = true
  · rw [if_pos claims,if_pos claims]
    let asked := Arguments.ofList site arguments
    let here : Occurrence := ⟨site,0⟩
    have moved : Reply.Displaced 0 (resolveNewest site.name (asked.movedTo 0) (here.movedTo 0) registry.entries)
        (resolveNewest site.name asked here registry.entries) :=
      resolve_steady (fun entry member arguments => entry_steady (steady entry member) arguments) asked
    simp only [Traced.mapError,Traced.mk.injEq]
    exact ⟨moved.calls.symm,moved.outcome.symm⟩
  · rw [if_neg claims,if_neg claims]

end Phrasebook.Tags
