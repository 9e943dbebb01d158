import Phrasebook.Delivery.FanOut
namespace Phrasebook.Delivery
open RichText Tags

-- A fan-out comes to what becomes of each recipient by itself, one behind the
-- other. Neither the groups nor the other recipients leave a trace in it.

mutual
-- In the order they are reached. Whoever is listed twice is reached twice.
def Audience.leaves : Audience ρ → List (Recipient ρ)
  | .single recipient => [recipient]
  | .group members => leavesAll members
def leavesAll : List (Member ρ) → List (Recipient ρ)
  | [] => []
  | .itself :: rest => leavesAll rest
  | .other audience :: rest => audience.leaves ++ leavesAll rest
end

inductive Fate where
  | skipped
  | unrendered
  | refused (message : Node)
  | delivered (message : Node)
  deriving DecidableEq

namespace Fate

def message : Fate → Option Node
  | .refused message => some message
  | .delivered message => some message
  | _ => none

def isDelivered : Fate → Bool
  | .delivered _ => true
  | _ => false

def isSkipped : Fate → Bool
  | .skipped => true
  | _ => false

def isFailed : Fate → Bool
  | .unrendered => true
  | .refused _ => true
  | _ => false

def count (report : Report) : Fate → Report
  | .skipped => report.skip
  | .unrendered => report.fail
  | .refused _ => report.fail
  | .delivered _ => report.deliver

end Fate

def localeFor (renderer : Renderer) (override : Option Locale) (leaf : Recipient ρ) : Locale :=
  (override.or leaf.locale).getD renderer.defaultLocale

section
variable (renderer : Renderer) (key : String) (override : Option Locale) (select : Recipient ρ → Bool)
  (configure : Recipient ρ → Builder → Builder) (leaf : Recipient ρ)

def fate : Fate :=
  if select leaf then
    match (renderer.render key (some (localeFor renderer override leaf)) (configure leaf)).outcome with
    | .error _ => .unrendered
    | .ok message => match leaf.refusal with
      | some _ => .refused message
      | none => .delivered message
  else .skipped

def isConfigured : Bool :=
  select leaf && (renderer.template key (localeFor renderer override leaf)).isSome

end

def FanOut.add (sofar : FanOut ρ) (leaf : Recipient ρ) (fate : Fate) (configured : Bool) : FanOut ρ :=
  ⟨fate.count sofar.report,sofar.receipts ++ (fate.message.map (Receipt.mk leaf)).toList,
   sofar.configured + configured.toNat⟩

-- Every recipient counts once, and receives at most one message.
structure Tallies (sent : FanOut ρ) (leaves : List (Recipient ρ)) (fate : Recipient ρ → Fate)
    (configured : Recipient ρ → Bool) : Prop where
  delivered : sent.report.delivered = leaves.countP fun leaf => (fate leaf).isDelivered
  skipped : sent.report.skipped = leaves.countP fun leaf => (fate leaf).isSkipped
  failed : sent.report.failed = leaves.countP fun leaf => (fate leaf).isFailed
  total : sent.report.total = leaves.length
  received : sent.receipts = leaves.filterMap fun leaf => (fate leaf).message.map (Receipt.mk leaf)
  configured : sent.configured = leaves.countP configured

namespace Tallies

variable {fate : Recipient ρ → Fate} {configured : Recipient ρ → Bool}

theorem nothing : Tallies FanOut.nothing [] fate configured := ⟨rfl,rfl,rfl,rfl,rfl,rfl⟩

theorem add (tallies : Tallies sofar leaves fate configured) (leaf : Recipient ρ) :
    Tallies (sofar.add leaf (fate leaf) (configured leaf)) (leaves ++ [leaf]) fate configured := by
  obtain ⟨delivered,skipped,failed,total,received,ran⟩ := tallies
  unfold Report.total at total
  constructor
  · rw [List.countP_append,← delivered,List.countP_singleton]
    cases h : fate leaf <;> rfl
  · rw [List.countP_append,← skipped,List.countP_singleton]
    cases h : fate leaf <;> rfl
  · rw [List.countP_append,← failed,List.countP_singleton]
    cases h : fate leaf <;> rfl
  · rw [List.length_append,List.length_singleton,← total]
    unfold Report.total FanOut.add
    cases fate leaf <;> simp only [Fate.count,Report.deliver,Report.skip,Report.fail] <;> omega
  · rw [List.filterMap_append,← received,FanOut.add]
    cases h : (fate leaf).message <;> simp [h]
  · rw [List.countP_append,← ran,List.countP_singleton]
    cases h : configured leaf <;> rfl

end Tallies

namespace Errand

variable (errand : Errand ρ)

def fate (leaf : Recipient ρ) : Fate :=
  Delivery.fate errand.renderer errand.key errand.locale (fun one => errand.select (.single one))
    (fun one => errand.configure (.single one)) leaf

def isConfigured (leaf : Recipient ρ) : Bool :=
  Delivery.isConfigured errand.renderer errand.key errand.locale (fun one => errand.select (.single one)) leaf

theorem attempt_fate (sofar : FanOut ρ) (leaf : Recipient ρ) :
    errand.attempt sofar (.single leaf) = sofar.add leaf (errand.fate leaf) (errand.isConfigured leaf) := by
  have target : errand.renderer.render errand.key (errand.locale.or (Audience.single leaf).locale) =
      errand.renderer.render errand.key (some (localeFor errand.renderer errand.locale leaf)) := rfl
  have ran : errand.configures (errand.locale.or (Audience.single leaf).locale) =
      (errand.renderer.template errand.key (localeFor errand.renderer errand.locale leaf)).isSome := rfl
  unfold attempt fate isConfigured Delivery.fate Delivery.isConfigured FanOut.add
  dsimp only
  rw [target,ran]
  by_cases selected : errand.select (.single leaf) = true
  · simp only [selected,if_true,Bool.true_and]
    cases (errand.renderer.render errand.key (some (localeFor errand.renderer errand.locale leaf))
        (errand.configure (.single leaf))).outcome with
    | error fault => simp [Fate.count,Fate.message]
    | ok message =>
      unfold hand
      cases leaf.refusal with
      | none => rfl
      | some reason => rfl
  · simp [selected,Fate.count,Fate.message]

mutual
theorem dispatch_leaves (splits : errand.splits = true) (sofar : FanOut ρ) : ∀ audience : Audience ρ,
    errand.dispatch sofar audience =
      audience.leaves.foldl (fun sofar leaf => errand.attempt sofar (.single leaf)) sofar
  | .single recipient => by rw [dispatch,Audience.leaves,List.foldl_cons,List.foldl_nil]
  | .group members => by
    rw [dispatch,if_pos splits,Audience.leaves]
    exact dispatchAll_leaves splits sofar members
theorem dispatchAll_leaves (splits : errand.splits = true) (sofar : FanOut ρ) : ∀ members : List (Member ρ),
    errand.dispatchAll sofar members =
      (leavesAll members).foldl (fun sofar leaf => errand.attempt sofar (.single leaf)) sofar
  | [] => by rw [dispatchAll,leavesAll,List.foldl_nil]
  | .itself :: rest => by
    rw [dispatchAll,leavesAll]
    exact dispatchAll_leaves splits sofar rest
  | .other audience :: rest => by
    rw [dispatchAll,leavesAll,List.foldl_append,dispatch_leaves splits sofar audience]
    exact dispatchAll_leaves splits _ rest
end

theorem attempts_tally (later : List (Recipient ρ))
    (tallies : Tallies sofar leaves errand.fate errand.isConfigured) :
    Tallies (later.foldl (fun sofar leaf => errand.attempt sofar (.single leaf)) sofar)
      (leaves ++ later) errand.fate errand.isConfigured := by
  induction later generalizing sofar leaves with
  | nil =>
    rw [List.foldl_nil,List.append_nil]
    exact tallies
  | cons leaf rest ih =>
    rw [List.foldl_cons,errand.attempt_fate,List.append_cons]
    exact ih (tallies.add leaf)

theorem dispatch_tallies (splits : errand.splits = true) (audience : Audience ρ) :
    Tallies (errand.dispatch .nothing audience) audience.leaves errand.fate errand.isConfigured := by
  rw [errand.dispatch_leaves splits]
  exact errand.attempts_tally audience.leaves .nothing

end Errand

-- Both ways of sending reach every recipient by itself: without an override each
-- in its own locale, and for chosen recipients with an override as well.
theorem sends_concatenate (renderer : Renderer) (key : String) (audience : Audience ρ) :
    (∀ configure, Tallies (send renderer key none configure audience) audience.leaves
      (fate renderer key none (fun _ => true) fun _ => configure)
      (isConfigured renderer key none fun _ => true)) ∧
    ∀ override select configure, Tallies (sendContextual renderer key override select configure audience)
      audience.leaves (fate renderer key override select configure)
      (isConfigured renderer key override select) := by
  constructor
  · intro configure
    apply Errand.dispatch_tallies
    rfl
  · intro override select configure
    apply Errand.dispatch_tallies
    unfold Errand.splits
    exact Bool.or_true _

end Phrasebook.Delivery
