import Phrasebook.Proofs.Template.Positions
import Phrasebook.Proofs.Traced
import Phrasebook.Template.Engine
namespace Phrasebook.Template
open RichText

-- Which tag a template fails at: the innermost one that could not be handled, found
-- by going from one markup to the next.

def readInside (resolver : Resolver) (limit : Nat) : Nat → Site → String → Traced Failure (List Node)
  | 0,site,_ => .fail (.depthExceeded limit site)
  | remaining + 1,_,markup => readNodes resolver limit remaining markup

theorem nodes_tokens (resolver : Resolver) (limit remaining : Nat) (template : String) :
    readNodes resolver limit remaining template =
      readTokens resolver (limit - remaining) (readInside resolver limit remaining) template := by
  cases remaining <;> rfl

def Handles (resolver : Resolver) (limit depth : Nat) (tokens : List Token) : Prop :=
  ∃ spans, (tokens.foldlM (step resolver depth (readInside resolver limit (limit - depth)))
    [Span.root]).outcome = .ok spans

-- Reading the text comes to this tag, with all tags before it handled.
def Meets (resolver : Resolver) (limit depth : Nat) (text : String) (site : Site) (arguments : List String) : Prop :=
  ∃ earlier later, tokenize text = earlier ++ .opening site arguments :: later ∧
    site.Stands text earlier ∧ Handles resolver limit depth earlier

-- A text that is read for a template, inside so many insertions.
inductive Descends (resolver : Resolver) (limit : Nat) (template : String) : Nat → String → Prop where
  | whole : Descends resolver limit template 0 template
  | inserted (outer : Descends resolver limit template depth text)
      (meets : Meets resolver limit depth text site arguments)
      (answer : (resolver.request depth site arguments).outcome = .ok (some (.markup markup))) :
      Descends resolver limit template (depth + 1) markup

inductive Stops (resolver : Resolver) (limit depth : Nat) (site : Site) (arguments : List String) :
    Failure → Prop where
  | refused (answer : (resolver.request depth site arguments).outcome = .error fault) :
      Stops resolver limit depth site arguments fault
  | tooDeep (answer : (resolver.request depth site arguments).outcome = .ok (some (.markup markup)))
      (full : depth = limit) : Stops resolver limit depth site arguments (.depthExceeded limit site)

structure FailsAt (resolver : Resolver) (limit : Nat) (template : String) (fault : Failure) (depth : Nat)
    (text : String) (site : Site) (arguments : List String) : Prop where
  allowed : depth ≤ limit
  descends : Descends resolver limit template depth text
  meets : Meets resolver limit depth text site arguments
  stops : Stops resolver limit depth site arguments fault

def Breaks (resolver : Resolver) (depth : Nat) (reading : Site → String → Traced Failure (List Node)) (site : Site)
    (arguments : List String) (fault : Failure) : Prop :=
  (resolver.request depth site arguments).outcome = .error fault ∨
    ∃ markup, (resolver.request depth site arguments).outcome = .ok (some (.markup markup)) ∧
      (reading site markup).outcome = .error fault

theorem step_breaks {reading : Site → String → Traced Failure (List Node)}
    (fails : (step resolver depth reading spans token).outcome = .error fault) :
    ∃ site arguments, token = .opening site arguments ∧ Breaks resolver depth reading site arguments fault := by
  cases token with
  | text content => cases fails
  | closing site => cases fails
  | opening site arguments =>
    refine ⟨site,arguments,rfl,?_⟩
    rcases Traced.bind_fails fails with refused | ⟨tag,answer,placed⟩
    · exact .inl refused
    · cases tag with
      | none => cases placed
      | some tag =>
        cases tag with
        | insert node => cases placed
        | span style => cases placed
        | markup markup =>
          rcases Traced.bind_fails placed with inside | ⟨nodes,_,kept⟩
          · exact .inr ⟨markup,answer,inside⟩
          · cases kept

theorem tokens_break
    (fails : (readTokens resolver depth (readInside resolver limit (limit - depth)) text).outcome = .error fault) :
    ∃ site arguments, Meets resolver limit depth text site arguments ∧
      Breaks resolver depth (readInside resolver limit (limit - depth)) site arguments fault := by
  unfold readTokens at fails
  rcases Traced.bind_fails fails with broken | ⟨spans,_,finished⟩
  · obtain ⟨earlier,token,later,reached,split,run,stopped⟩ := Traced.foldlM_fails broken
    obtain ⟨site,arguments,rfl,breaks⟩ := step_breaks stopped
    exact ⟨site,arguments,⟨earlier,later,split,site_stands split,reached,run⟩,breaks⟩
  · cases finished

theorem nodes_fail (level : depth + remaining = limit) (descends : Descends resolver limit template depth text)
    (fails : (readNodes resolver limit remaining text).outcome = .error fault) :
    ∃ depth text site arguments, FailsAt resolver limit template fault depth text site arguments := by
  induction remaining generalizing depth text with
  | zero =>
    obtain rfl : depth = limit := level
    have here : readInside resolver depth 0 = readInside resolver depth (depth - depth) := by rw [Nat.sub_self]
    rw [nodes_tokens,Nat.sub_zero,here] at fails
    obtain ⟨site,arguments,meets,refused | ⟨markup,answer,cut⟩⟩ := tokens_break fails
    · exact ⟨depth,text,site,arguments,Nat.le_refl _,descends,meets,.refused refused⟩
    · rw [← here] at cut
      cases cut
      exact ⟨depth,text,site,arguments,Nat.le_refl _,descends,meets,.tooDeep answer rfl⟩
  | succ remaining ih =>
    have below : limit - depth = remaining + 1 := by omega
    have above : limit - (remaining + 1) = depth := by omega
    rw [nodes_tokens,above,← below] at fails
    obtain ⟨site,arguments,meets,refused | ⟨markup,answer,inside⟩⟩ := tokens_break fails
    · exact ⟨depth,text,site,arguments,by omega,descends,meets,.refused refused⟩
    · rw [below] at inside
      apply ih _ (.inserted descends meets answer) inside
      omega

theorem parse_fails (fails : ((Engine.mk limit).parse template resolver).outcome = .error fault) :
    ∃ depth text site arguments, FailsAt resolver limit template fault depth text site arguments := by
  rcases Traced.bind_fails fails with inside | ⟨nodes,_,finished⟩
  · exact nodes_fail (Nat.zero_add limit) .whole inside
  · cases finished

def Arguments.Moved (arguments left : Arguments) : Prop :=
  left.values = arguments.values ∧ left.site = arguments.site

-- What can be raised with no more than what a tag function is given.
inductive Raised (arguments : Arguments) (occurrence : Occurrence) : Failure → Prop where
  | failure (message : String) : Raised arguments occurrence (occurrence.failure message)
  | argument (message : String) (index : Nat) (value : String) :
      Raised arguments occurrence (occurrence.argumentFailure message index value)
  | missing (moved : arguments.Moved left) (popped : left.popOr message = .error fault) :
      Raised arguments occurrence fault

theorem popOr_fails {arguments : Arguments} (popped : arguments.popOr message = .error fault) :
    arguments.peek = none ∧ fault = .tag message arguments.site none := by
  unfold Arguments.popOr Arguments.pop at popped
  cases peek : arguments.peek with
  | none =>
    rw [peek] at popped
    cases popped
    exact ⟨rfl,rfl⟩
  | some value =>
    rw [peek] at popped
    cases popped

theorem raised_site (raised : Raised arguments occurrence fault) (own : arguments.site = occurrence.site) :
    ∃ message argument, fault = .tag message occurrence.site argument := by
  cases raised with
  | failure message => exact ⟨message,none,rfl⟩
  | argument message index value => exact ⟨message,some ⟨index,value⟩,rfl⟩
  | missing moved popped =>
    obtain ⟨_,equal⟩ := popOr_fails popped
    rw [moved.2,own] at equal
    exact ⟨_,none,equal⟩

structure Reply.Fair (arguments : Arguments) (occurrence : Occurrence) (reply : Reply) : Prop where
  moved : arguments.Moved reply.arguments
  raised : reply.outcome = .error fault → Raised arguments occurrence fault

def Resolver.Fair (resolver : Resolver) : Prop :=
  ∀ name arguments occurrence, resolver.has name = true →
    (resolver.resolve name arguments occurrence).Fair arguments occurrence

theorem request_free {resolver : Resolver} (free : resolver.has site.name = false) (depth : Nat)
    (arguments : List String) : resolver.request depth site arguments = .ok none := by
  rw [Resolver.request,free]
  rfl

theorem request_raised {resolver : Resolver} (fair : resolver.Fair)
    (refused : (resolver.request depth site arguments).outcome = .error fault) :
    ∃ message argument, fault = .tag message site argument := by
  unfold Resolver.request at refused
  split at refused
  · rename_i claims
    exact raised_site ((fair _ _ _ claims).raised refused) rfl
  · cases refused

theorem stops_site {resolver : Resolver} (fair : resolver.Fair)
    (stops : Stops resolver limit depth site arguments fault) : fault.site = site ∧
      ∀ stated named, fault = .depthExceeded stated named → stated = limit ∧ depth = limit := by
  cases stops with
  | refused refused =>
    obtain ⟨message,argument,rfl⟩ := request_raised fair refused
    exact ⟨rfl,nofun⟩
  | tooDeep _ full =>
    refine ⟨rfl,?_⟩
    intro stated named equal
    cases equal
    exact ⟨rfl,full⟩

end Phrasebook.Template
