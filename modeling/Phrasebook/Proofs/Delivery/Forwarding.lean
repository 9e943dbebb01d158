import Mathlib.Data.List.Basic
import Phrasebook.Proofs.Delivery.Recipients
namespace Phrasebook.Delivery
open RichText Tags

-- A group forwards one message to all its recipients. Where they all want the
-- same locale, each of them gets what a render of its own would have been.

mutual
theorem hand_leaves (message : Node) (receipts : List (Receipt ρ)) : ∀ audience : Audience ρ,
    hand message receipts audience = ⟨audience.leaves.findSome? Recipient.refusal,
      receipts ++ audience.leaves.map fun leaf => ⟨leaf,message⟩⟩
  | .single recipient => by
    rw [hand,Audience.leaves,List.findSome?_singleton]
    rfl
  | .group members => by
    rw [hand,Audience.leaves,handAll_leaves message _ members,Option.none_or]
theorem handAll_leaves (message : Node) (handed : Handover ρ) : ∀ members : List (Member ρ),
    handAll message handed members = ⟨handed.refusal.or ((leavesAll members).findSome? Recipient.refusal),
      handed.receipts ++ (leavesAll members).map fun leaf => ⟨leaf,message⟩⟩
  | [] => by
    rw [handAll,leavesAll,List.findSome?_nil,Option.or_none,List.map_nil,List.append_nil]
  | .itself :: rest => by
    rw [handAll,leavesAll]
    exact handAll_leaves message handed rest
  | .other audience :: rest => by
    rw [handAll,leavesAll,hand_leaves message handed.receipts audience,handAll_leaves message _ rest,
      List.findSome?_append,Option.or_assoc,List.map_append,List.append_assoc]
end

theorem refusal_found {leaves : List (Recipient ρ)} :
    (leaves.findSome? Recipient.refusal).isSome = true ↔ ∃ leaf ∈ leaves, leaf.refusal.isSome = true :=
  List.findSome?_isSome_iff

theorem dispatch_whole (errand : Errand ρ) (whole : errand.splits = false) (sofar : FanOut ρ)
    (audience : Audience ρ) : errand.dispatch sofar audience = errand.attempt sofar audience := by
  cases audience with
  | single recipient => rw [Errand.dispatch]
  | group members =>
    rw [Errand.dispatch,whole]
    rfl

section
variable (renderer : Renderer) (key : String) (configure : Builder → Builder)

def rendered (locale : Locale) : Except RenderFault Node := (renderer.render key (some locale) configure).outcome

theorem send_whole (locale : Locale) (audience : Audience ρ) :
    (send renderer key (some locale) configure audience).receipts = audience.leaves.filterMap (fun leaf =>
      (rendered renderer key configure locale).toOption.map (Receipt.mk leaf)) ∧
    (send renderer key (some locale) configure audience).report =
      if (rendered renderer key configure locale).toOption.isSome &&
          (audience.leaves.findSome? Recipient.refusal).isNone then ⟨1,0,0⟩ else ⟨0,0,1⟩ := by
  have whole := dispatch_whole (ρ := ρ) ⟨renderer,key,some locale,.withoutLocale,fun _ => true,
    fun _ => configure⟩ rfl .nothing audience
  rw [send,whole,Errand.attempt]
  simp only [if_true,Option.some_or]
  rw [← rendered]
  cases rendered renderer key configure locale with
  | error fault => simp [FanOut.nothing,Except.toOption,Report.fail]
  | ok message =>
    simp only [hand_leaves]
    cases audience.leaves.findSome? Recipient.refusal with
    | none => simp [FanOut.nothing,Except.toOption,Report.deliver]
    | some reason => simp [FanOut.nothing,Except.toOption,Report.fail]

theorem send_each (audience : Audience ρ) :
    (send renderer key none configure audience).receipts = audience.leaves.filterMap fun leaf =>
      (rendered renderer key configure (localeFor renderer none leaf)).toOption.map (Receipt.mk leaf) := by
  have tallies := Errand.dispatch_tallies (ρ := ρ) ⟨renderer,key,none,.withoutLocale,fun _ => true,
    fun _ => configure⟩ rfl audience
  rw [send,tallies.received]
  congr 1
  funext leaf
  unfold Errand.fate fate rendered
  simp only [if_true]
  cases (renderer.render key (some (localeFor renderer none leaf)) configure).outcome with
  | error fault => rfl
  | ok message => cases leaf.refusal <;> rfl

def AtHome (locale : Locale) (leaf : Recipient ρ) : Prop :=
  leaf.locale = some locale ∨ leaf.locale = none ∧ renderer.defaultLocale = locale

theorem home_locale (home : AtHome renderer locale leaf) : localeFor renderer none leaf = locale := by
  unfold localeFor
  rcases home with own | ⟨silent,standard⟩
  · rw [own]
    rfl
  · rw [silent]
    exact standard

end

-- Sent as a whole or one by one, every recipient gets the same messages. As a
-- whole the audience counts once, and the first refusal is the one reported.
theorem override_agrees (renderer : Renderer) (key : String) (configure : Builder → Builder) (locale : Locale)
    (audience : Audience ρ) (home : ∀ leaf ∈ audience.leaves, AtHome renderer locale leaf) :
    let whole := send renderer key (some locale) configure audience
    whole.receipts = (send renderer key none configure audience).receipts ∧
    whole.report.total = 1 ∧ whole.report.skipped = 0 ∧
    (whole.report.failed = 1 ↔ (∃ fault, rendered renderer key configure locale = .error fault) ∨
      ∃ leaf ∈ audience.leaves, leaf.refusal.isSome = true) ∧
    ∀ message receipts, hand message receipts audience = ⟨audience.leaves.findSome? Recipient.refusal,
      receipts ++ audience.leaves.map fun leaf => ⟨leaf,message⟩⟩ := by
  obtain ⟨receipts,report⟩ := send_whole renderer key configure locale audience
  have same : (send renderer key (some locale) configure audience).receipts =
      (send renderer key none configure audience).receipts := by
    rw [receipts,send_each]
    apply List.filterMap_congr
    intro leaf member
    rw [home_locale renderer (home leaf member)]
  have failing : (∃ fault, rendered renderer key configure locale = .error fault) ↔
      (rendered renderer key configure locale).toOption.isSome = false := by
    cases rendered renderer key configure locale <;> simp [Except.toOption]
  dsimp only
  rw [report,failing,← refusal_found]
  refine ⟨same,?_,?_,?_,fun message received => hand_leaves message received audience⟩
  · split <;> rfl
  · split <;> rfl
  · cases (rendered renderer key configure locale).toOption.isSome <;>
      cases audience.leaves.findSome? Recipient.refusal <;> simp

theorem override_agrees_refused :
    let french : Locale := ⟨"fr"⟩
    let catalog : Catalog := .ofRows [(french,"hi","Salut <name>")]
    let renderer : Renderer :=
      { Renderer.ofStore ⟨.supplied fun _ => .ok catalog,1,catalog⟩ with defaultLocale := french }
    let ann : Recipient String := ⟨"ann",some french,none⟩
    let bob : Recipient String := ⟨"bob",none,some "closed"⟩
    let everyone : Audience String :=
      .group [.other (.single ann),.other (.group [.itself,.other (.single bob)]),.other (.single ann)]
    let configure : Builder → Builder := (·.unparsed "name" "<you>")
    (∀ leaf ∈ everyone.leaves, AtHome renderer french leaf) ∧
    (send renderer "hi" none configure everyone).receipts =
      [⟨ann,.text "Salut <you>"⟩,⟨bob,.text "Salut <you>"⟩,⟨ann,.text "Salut <you>"⟩] ∧
    (send renderer "hi" (some french) configure everyone).receipts =
      (send renderer "hi" none configure everyone).receipts ∧
    (send renderer "hi" (some french) configure everyone).report.failed = 1 := by
  intro french catalog renderer ann bob everyone configure
  have home : ∀ leaf ∈ everyone.leaves, AtHome renderer french leaf := by
    intro leaf member
    have listed : everyone.leaves = [ann,bob,ann] := by decide +kernel
    rw [listed] at member
    simp only [List.mem_cons,List.not_mem_nil,or_false] at member
    rcases member with rfl | rfl | rfl
    · exact .inl rfl
    · exact .inr ⟨rfl,rfl⟩
    · exact .inl rfl
  obtain ⟨same,_,_,failed,_⟩ := override_agrees renderer "hi" configure french everyone home
  refine ⟨home,?_,same,failed.mpr (.inr ⟨bob,?_,rfl⟩)⟩
  · decide +kernel
  · decide +kernel

end Phrasebook.Delivery
