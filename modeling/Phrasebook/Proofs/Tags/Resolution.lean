import Phrasebook.Tags.Registry
namespace Phrasebook.Tags
open Template

-- How the answers of entries that stand one behind the other combine. An entry
-- that declines hands the arguments on; an answer ends the search.

def declined (arguments : Arguments) : Reply := ⟨[],.ok none,arguments⟩

def followedBy (reply : Reply) (next : Arguments → Reply) : Reply :=
  match reply.outcome with
  | .ok none => { next reply.arguments with calls := reply.calls ++ (next reply.arguments).calls }
  | _ => reply

theorem followedBy_declined (arguments : Arguments) (next : Arguments → Reply) :
    followedBy (declined arguments) next = next arguments := by
  simp [followedBy,declined]

theorem followedBy_passed {reply : Reply} (passed : reply.outcome = .ok none) (next : Arguments → Reply) :
    (followedBy reply next).outcome = (next reply.arguments).outcome := by
  simp only [followedBy,passed]

theorem followedBy_decided {reply : Reply} (decided : reply.outcome ≠ .ok none) (next : Arguments → Reply) :
    followedBy reply next = reply := by
  unfold followedBy
  split
  · rename_i passed
    exact absurd passed decided
  · rfl

theorem followedBy_assoc (reply : Reply) (next last : Arguments → Reply) :
    followedBy (followedBy reply next) last = followedBy reply fun left => followedBy (next left) last := by
  rcases reply with ⟨calls,failure | tag,left⟩
  · rfl
  · cases tag with
    | some tag => rfl
    | none =>
      simp only [followedBy]
      cases outcome : (next left).outcome with
      | error failure => simp [outcome]
      | ok answer => cases answer <;> simp [outcome,List.append_assoc]

theorem followedBy_named (name : String) (arguments : Arguments) (occurrence : Occurrence)
    (own : String) (definition : Definition) (next : Arguments → Reply) :
    followedBy ((Entry.named own definition).resolve name arguments occurrence) next =
      (Entry.named own definition).resolve name arguments occurrence := by
  simp only [followedBy,Entry.resolve]
  cases (definition.resolve name arguments occurrence).outcome <;> rfl

theorem resolve_nil (name : String) (arguments : Arguments) (occurrence : Occurrence) :
    resolveNewest name arguments occurrence [] = declined arguments := by
  simp only [resolveNewest,declined]

theorem resolve_cons (name : String) (arguments : Arguments) (occurrence : Occurrence)
    (entry : Entry) (older : List Entry) :
    resolveNewest name arguments occurrence (entry :: older) =
      if entry.claims name then followedBy (entry.resolve name arguments occurrence) fun left =>
        resolveNewest name left.reset occurrence older
      else resolveNewest name arguments occurrence older := by
  rw [resolveNewest]
  cases entry.claims name with
  | false => rfl
  | true =>
    simp only [if_true,followedBy]
    rcases entry.resolve name arguments occurrence with ⟨calls,failure | tag,left⟩
    · rfl
    · cases tag <;> rfl

theorem claimed_cons (name : String) (entry : Entry) (older : List Entry) :
    claimed name (entry :: older) = (entry.claims name || claimed name older) := by
  rw [claimed]

theorem claimed_append (name : String) (newer older : List Entry) :
    claimed name (newer ++ older) = (claimed name newer || claimed name older) := by
  induction newer with
  | nil => simp [claimed]
  | cons entry rest ih => simp [claimed_cons,ih,Bool.or_assoc]

theorem resolve_unclaimed {name : String} {entries : List Entry} (free : claimed name entries = false)
    (arguments : Arguments) (occurrence : Occurrence) :
    resolveNewest name arguments occurrence entries = declined arguments := by
  induction entries with
  | nil => exact resolve_nil name arguments occurrence
  | cons entry older ih =>
    rw [claimed_cons,Bool.or_eq_false_iff] at free
    rw [resolve_cons,free.1]
    exact ih free.2

theorem resolve_append (name : String) (arguments : Arguments) (occurrence : Occurrence)
    (newer older : List Entry) :
    resolveNewest name arguments occurrence (newer ++ older) =
      followedBy (resolveNewest name arguments occurrence newer) fun left =>
        resolveNewest name left occurrence older := by
  induction newer generalizing arguments with
  | nil => rw [List.nil_append,resolve_nil,followedBy_declined]
  | cons entry rest ih =>
    rw [List.cons_append,resolve_cons,resolve_cons]
    cases entry.claims name with
    | false => exact ih arguments
    | true =>
      simp only [if_true,followedBy_assoc]
      congr 1
      funext left
      exact ih left.reset

end Phrasebook.Tags
