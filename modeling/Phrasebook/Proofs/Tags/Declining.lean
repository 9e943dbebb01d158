import Phrasebook.Proofs.Tags.Resolution
import Phrasebook.Proofs.Traced
import Phrasebook.Template.Engine
namespace Phrasebook.Template

-- Resolvers that claim names, look at arguments and then decline. Wherever they
-- stand, a template is read as if they were not there.

def Arguments.popped : Nat → Arguments → Arguments
  | 0,arguments => arguments
  | count + 1,arguments => popped count arguments.pop.2

theorem Arguments.reset_popped (count : Nat) (arguments : Arguments) :
    (arguments.popped count).reset = arguments.reset := by
  induction count generalizing arguments with
  | zero => rfl
  | succ count ih =>
    rw [Arguments.popped,ih,Arguments.pop]
    cases arguments.peek <;> rfl

-- How many arguments are taken may depend on the request.
def Resolver.Declines (resolver : Resolver) : Prop :=
  ∀ name arguments occurrence, resolver.has name = true → ∃ count,
    resolver.resolve name arguments occurrence = ⟨[],.ok none,arguments.popped count⟩

theorem step_congr {one two : Resolver} {depth : Nat}
    (same : ∀ site arguments, one.request depth site arguments = two.request depth site arguments) :
    step one depth = step two depth := by
  funext insertion spans token
  cases token with
  | text content => rfl
  | closing site => rfl
  | opening site arguments => rw [step,step,same]

theorem nodes_congr {one two : Resolver} {limit : Nat}
    (same : ∀ depth site arguments, one.request depth site arguments = two.request depth site arguments)
    (remaining : Nat) (template : String) :
    readNodes one limit remaining template = readNodes two limit remaining template := by
  induction remaining generalizing template with
  | zero => rw [readNodes,readNodes,readTokens,readTokens,step_congr (same _)]
  | succ remaining ih =>
    have deeper : readNodes one limit remaining = readNodes two limit remaining := funext ih
    rw [readNodes,readNodes,deeper,readTokens,readTokens,step_congr (same _)]

theorem parse_congr {one two : Resolver}
    (same : ∀ depth site arguments, one.request depth site arguments = two.request depth site arguments)
    (engine : Engine) (template : String) : engine.parse template one = engine.parse template two := by
  rw [Engine.parse,Engine.parse,nodes_congr same]

end Phrasebook.Template

namespace Phrasebook.Tags
open Template

inductive Declining : Entry → Prop where
  | custom {resolver : Resolver} (declines : resolver.Declines) : Declining (.custom resolver)
  | nested {entries : List Entry} (each : ∀ entry ∈ entries, Declining entry) : Declining (.nested entries)

-- The second list is the first with entries that decline put in, also inside of
-- nested registries.
inductive Padded : List Entry → List Entry → Prop where
  | nil : Padded [] []
  | keep (entry : Entry) (older : Padded plain padded) : Padded (entry :: plain) (entry :: padded)
  | inside (inner : Padded within within') (older : Padded plain padded) :
      Padded (.nested within :: plain) (.nested within' :: padded)
  | insert (declining : Declining entry) (older : Padded plain padded) : Padded plain (entry :: padded)

theorem padded_self (entries : List Entry) : Padded entries entries := by
  induction entries with
  | nil => exact .nil
  | cons entry rest ih => exact .keep entry ih

theorem padded_claims (padded : Padded plain padding) (name : String) :
    claimed name plain = true → claimed name padding = true := by
  induction padded with
  | nil => exact id
  | keep entry older ih =>
    rw [claimed_cons,claimed_cons,Bool.or_eq_true,Bool.or_eq_true]
    exact Or.imp_right ih
  | inside inner older ihInner ih =>
    rw [claimed_cons,claimed_cons,Bool.or_eq_true,Bool.or_eq_true]
    simp only [Entry.claims]
    exact Or.imp ihInner ih
  | insert declining older ih =>
    intro found
    rw [claimed_cons,ih found,Bool.or_true]

-- An entry that declines leaves the arguments where a reset finds their start.
def LeavesStart (name : String) (occurrence : Occurrence) (entry : Entry) : Prop :=
  ∀ arguments, entry.claims name = true → ∃ left,
    entry.resolve name arguments occurrence = declined left ∧ left.reset = arguments.reset

theorem search_leaves (each : ∀ entry ∈ entries, LeavesStart name occurrence entry) (arguments : Arguments) :
    ∃ left, resolveNewest name arguments occurrence entries = declined left ∧
      left.reset = arguments.reset := by
  induction entries generalizing arguments with
  | nil => exact ⟨arguments,resolve_nil name arguments occurrence,rfl⟩
  | cons entry older ih =>
    have later := ih fun other member => each other (by simp [member])
    rw [resolve_cons]
    by_cases claims : entry.claims name = true
    · obtain ⟨left,answer,back⟩ := each entry (by simp) arguments claims
      obtain ⟨last,rest,again⟩ := later left.reset
      refine ⟨last,?_,?_⟩
      · rw [if_pos claims,answer,followedBy_declined]
        exact rest
      · rw [again]
        exact back
    · rw [if_neg claims]
      exact later arguments

theorem declining_leaves (declining : Declining entry) (name : String) (occurrence : Occurrence) :
    LeavesStart name occurrence entry := by
  induction declining with
  | @custom resolver declines =>
    intro arguments claims
    obtain ⟨count,answer⟩ := declines name arguments occurrence claims
    refine ⟨arguments.popped count,?_,Arguments.reset_popped count arguments⟩
    rw [Entry.resolve]
    exact answer
  | @nested entries each ih =>
    intro arguments _
    rw [Entry.resolve]
    exact search_leaves ih arguments

theorem resolve_padded (padded : Padded plain padding) (name : String) {arguments : Arguments}
    (occurrence : Occurrence) (start : arguments.reset = arguments) :
    resolveNewest name arguments occurrence padding = resolveNewest name arguments occurrence plain := by
  induction padded generalizing arguments with
  | nil => rfl
  | keep entry older ih =>
    rw [resolve_cons,resolve_cons,ih start]
    have later (left : Arguments) := @ih left.reset rfl
    simp only [later]
  | @inside within within' plain padding inner older ihInner ih =>
    have later (left : Arguments) := @ih left.reset rfl
    rw [resolve_cons,resolve_cons,ih start,Entry.resolve,Entry.resolve,ihInner start]
    simp only [later]
    by_cases claims : (Entry.nested within).claims name = true
    · have claims' : (Entry.nested within').claims name = true := by
        rw [Entry.claims] at claims ⊢
        exact padded_claims inner name claims
      rw [if_pos claims,if_pos claims']
    · -- only inserted entries can claim the name then
      have free : claimed name within = false := by
        rw [Entry.claims] at claims
        exact Bool.eq_false_iff.mpr claims
      rw [if_neg claims,resolve_unclaimed free,followedBy_declined,start,ite_self]
  | @insert entry plain padding declining older ih =>
    rw [resolve_cons]
    by_cases claims : entry.claims name = true
    · obtain ⟨left,answer,back⟩ := declining_leaves declining name occurrence arguments claims
      rw [if_pos claims,answer,followedBy_declined,back,start]
      exact ih start
    · rw [if_neg claims]
      exact ih start

theorem request_padded (padded : Padded plain padding) (depth : Nat) (site : Site) (arguments : List String) :
    (Registry.mk padding).resolver.request depth site arguments =
      (Registry.mk plain).resolver.request depth site arguments := by
  have start : (Arguments.ofList site arguments).reset = Arguments.ofList site arguments := rfl
  have answer : (Registry.mk padding).resolver.resolve site.name (Arguments.ofList site arguments) ⟨site,depth⟩ =
      (Registry.mk plain).resolver.resolve site.name (Arguments.ofList site arguments) ⟨site,depth⟩ :=
    resolve_padded padded site.name ⟨site,depth⟩ start
  rw [Resolver.request,Resolver.request,answer]
  by_cases claims : (Registry.mk plain).resolver.has site.name = true
  · have claims' : (Registry.mk padding).resolver.has site.name = true := padded_claims padded site.name claims
    rw [if_pos claims,if_pos claims']
  · have free : (Registry.mk plain).resolver.resolve site.name (Arguments.ofList site arguments) ⟨site,depth⟩ =
        declined (Arguments.ofList site arguments) := resolve_unclaimed (Bool.eq_false_iff.mpr claims) _ _
    rw [if_neg claims,free]
    exact ite_self _

-- The tree or the failure, and the calls in their order, are those without the
-- entries that decline.
theorem parse_padded (padded : Padded plain padding) (engine : Engine) (template : String) :
    engine.parse template (Registry.mk padding).resolver =
      engine.parse template (Registry.mk plain).resolver :=
  parse_congr (request_padded padded) engine template

theorem parse_padded_popping :
    let greedy : Resolver := ⟨fun _ => true,fun _ arguments _ => ⟨[],.ok none,arguments.popped 2⟩⟩
    let pick : Entry := .named "pick" (.function fun arguments _ => .ok (.text (arguments.peek.getD "?")))
    let plain := [.nested [pick]]
    let padding := [.custom greedy,.nested [.custom greedy,pick],.nested [.custom greedy]]
    Padded plain padding ∧ Engine.standard.parse "<pick:x><color:red>y<reset>z" (Registry.mk padding).resolver =
      ⟨["pick"],.ok ⟨"x",.plain,[⟨"y",.colored .red,[]⟩,.text "z"]⟩⟩ := by
  intro greedy pick plain padding
  have declines : greedy.Declines := fun _ _ _ _ => ⟨2,rfl⟩
  have alone : Declining (.nested [.custom greedy]) := .nested fun entry member => by
    rw [List.mem_singleton.mp member]
    exact .custom declines
  have inner : Padded [pick] [.custom greedy,pick] := .insert (.custom declines) (padded_self [pick])
  have padded : Padded plain padding := .insert (.custom declines) (.inside inner (.insert alone .nil))
  refine ⟨padded,?_⟩
  rw [parse_padded padded]
  refine Traced.of_result ?_ ?_
  · decide +kernel
  · decide +kernel

end Phrasebook.Tags
