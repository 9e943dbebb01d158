import Phrasebook.Locale
import Phrasebook.Renderer
import Phrasebook.RichText.Node
namespace Phrasebook.Delivery
open RichText Tags

-- Whoever a message may go to. `ρ` is what is known of a recipient besides its
-- locale, and `refusal` the reason it gives when it takes no message.
structure Recipient (ρ : Type) where
  self : ρ
  locale : Option Locale
  refusal : Option String
  deriving DecidableEq, Repr

-- A group forwards to its members. It may list itself among them, which adds
-- nobody.
mutual
inductive Audience (ρ : Type) where
  | single (recipient : Recipient ρ)
  | group (members : List (Member ρ))
inductive Member (ρ : Type) where
  | itself
  | other (audience : Audience ρ)
end

namespace Audience

instance : Inhabited (Audience ρ) := ⟨.group []⟩

def members : Audience ρ → List (Audience ρ)
  | .single _ => []
  | .group members => members.filterMap fun
    | .itself => none
    | .other audience => some audience

def recipient? : Audience ρ → Option (Recipient ρ)
  | .single recipient => some recipient
  | .group _ => none

def locale (audience : Audience ρ) : Option Locale := audience.recipient?.bind Recipient.locale

end Audience

structure Receipt (ρ : Type) where
  recipient : Recipient ρ
  message : Node
  deriving DecidableEq

def refusalText (reason : String) : String := "Delivery failed: " ++ reason

structure Handover (ρ : Type) where
  refusal : Option String
  receipts : List (Receipt ρ)
  deriving DecidableEq

mutual
-- A group hands the message to every member, whatever the others do, and
-- reports the first refusal.
def hand (message : Node) (receipts : List (Receipt ρ)) : Audience ρ → Handover ρ
  | .single recipient => ⟨recipient.refusal,receipts ++ [⟨recipient,message⟩]⟩
  | .group members => handAll message ⟨none,receipts⟩ members
def handAll (message : Node) (handed : Handover ρ) : List (Member ρ) → Handover ρ
  | [] => handed
  | .itself :: rest => handAll message handed rest
  | .other audience :: rest =>
    let own := hand message handed.receipts audience
    handAll message ⟨handed.refusal.or own.refusal,own.receipts⟩ rest
end

structure Report where
  delivered : Nat
  -- Recipients that were not meant.
  skipped : Nat
  -- Recipients whose render or delivery failed.
  failed : Nat
  deriving DecidableEq, Repr

namespace Report

def total (report : Report) : Nat := report.delivered + report.skipped + report.failed

def deliver (report : Report) : Report := { report with delivered := report.delivered + 1 }

def skip (report : Report) : Report := { report with skipped := report.skipped + 1 }

def fail (report : Report) : Report := { report with failed := report.failed + 1 }

end Report

-- What a dispatch did: the count, the messages in order of arrival, and how
-- often the caller's configuration ran.
structure FanOut (ρ : Type) where
  report : Report
  receipts : List (Receipt ρ)
  configured : Nat
  deriving DecidableEq

def FanOut.nothing : FanOut ρ := ⟨⟨0,0,0⟩,[],0⟩

inductive Flatten where
  -- With a locale override the group is one recipient.
  | withoutLocale
  | always
  deriving DecidableEq, Repr

structure Errand (ρ : Type) where
  renderer : Renderer
  key : String
  locale : Option Locale
  flatten : Flatten
  select : Audience ρ → Bool
  configure : Audience ρ → Builder → Builder

namespace Errand

def splits (errand : Errand ρ) : Bool := errand.locale.isNone || errand.flatten == .always

def configures (errand : Errand ρ) (locale : Option Locale) : Bool :=
  (errand.renderer.template errand.key (errand.renderer.targetLocale locale)).isSome

def attempt (errand : Errand ρ) (sofar : FanOut ρ) (audience : Audience ρ) : FanOut ρ :=
  if errand.select audience then
    let locale := errand.locale.or audience.locale
    let configured := sofar.configured + (errand.configures locale).toNat
    match (errand.renderer.render errand.key locale (errand.configure audience)).outcome with
    | .error _ => ⟨sofar.report.fail,sofar.receipts,configured⟩
    | .ok message =>
      let handed := hand message sofar.receipts audience
      match handed.refusal with
      | some _ => ⟨sofar.report.fail,handed.receipts,configured⟩
      | none => ⟨sofar.report.deliver,handed.receipts,configured⟩
  else { sofar with report := sofar.report.skip }

mutual
def dispatch (errand : Errand ρ) (sofar : FanOut ρ) : Audience ρ → FanOut ρ
  | .single recipient => errand.attempt sofar (.single recipient)
  | .group members =>
    if errand.splits then errand.dispatchAll sofar members
    else errand.attempt sofar (.group members)
def dispatchAll (errand : Errand ρ) (sofar : FanOut ρ) : List (Member ρ) → FanOut ρ
  | [] => sofar
  | .itself :: rest => errand.dispatchAll sofar rest
  | .other audience :: rest => errand.dispatchAll (errand.dispatch sofar audience) rest
end

end Errand

-- Without an override every recipient gets a render in its own locale; with one
-- the whole audience gets a single render.
def send (renderer : Renderer) (key : String) (locale : Option Locale)
    (configure : Builder → Builder) (audience : Audience ρ) : FanOut ρ :=
  Errand.dispatch ⟨renderer,key,locale,.withoutLocale,fun _ => true,fun _ => configure⟩ .nothing audience

-- Only the recipients that are meant, each with tags of its own. An override
-- applies to every one of them.
def sendContextual (renderer : Renderer) (key : String) (locale : Option Locale)
    (select : Recipient ρ → Bool) (configure : Recipient ρ → Builder → Builder)
    (audience : Audience ρ) : FanOut ρ :=
  Errand.dispatch ⟨renderer,key,locale,.always,fun audience => audience.recipient?.any select,
    fun audience => audience.recipient?.elim id configure⟩ .nothing audience

end Phrasebook.Delivery
