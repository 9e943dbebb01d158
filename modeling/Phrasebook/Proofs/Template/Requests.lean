import Phrasebook.Proofs.Traced
import Phrasebook.Template.Engine
namespace Phrasebook.Template
open RichText

-- What a resolver is asked while a template is read, told from its tags alone: in
-- document order, and what an insertion asks right after the tag that made it.

structure Request where
  name : String
  arguments : Arguments
  occurrence : Occurrence
  deriving DecidableEq

-- The request for an opening tag. `around` are the tags whose insertions it stands
-- in, innermost first.
def asked (around : List Request) (site : Site) (arguments : List String) : Request :=
  ⟨site.name,Arguments.ofList site arguments,⟨site,around.length⟩⟩

structure Visit where
  around : List Request
  request : Request

abbrev Marking := Request → List String

namespace Resolver

def answer (resolver : Resolver) (request : Request) : Except Failure (Option Tag) :=
  (resolver.resolve request.name request.arguments request.occurrence).outcome

def marked (resolver : Resolver) (mark : Marking) : Resolver where
  has := resolver.has
  resolve name arguments occurrence :=
    { resolver.resolve name arguments occurrence with calls := mark ⟨name,arguments,occurrence⟩ }

end Resolver

-- Reading these tokens makes these visits, and then ends or fails.
inductive Asks (resolver : Resolver) (limit : Nat) :
    List Request → List Token → List Visit → Option Failure → Prop where
  | done : Asks resolver limit around [] [] none
  | text (later : Asks resolver limit around rest visits ending) :
      Asks resolver limit around (.text content :: rest) visits ending
  | closing (later : Asks resolver limit around rest visits ending) :
      Asks resolver limit around (.closing site :: rest) visits ending
  | unclaimed (unclaimed : resolver.has site.name = false)
      (later : Asks resolver limit around rest visits ending) :
      Asks resolver limit around (.opening site arguments :: rest) visits ending
  | answered (claimed : resolver.has site.name = true)
      (answer : resolver.answer (asked around site arguments) = .ok tag)
      (simple : ∀ markup, tag ≠ some (.markup markup)) (later : Asks resolver limit around rest visits ending) :
      Asks resolver limit around (.opening site arguments :: rest)
        (⟨around,asked around site arguments⟩ :: visits) ending
  | refused (claimed : resolver.has site.name = true)
      (answer : resolver.answer (asked around site arguments) = .error fault) :
      Asks resolver limit around (.opening site arguments :: rest)
        [⟨around,asked around site arguments⟩] (some fault)
  | tooDeep (claimed : resolver.has site.name = true)
      (answer : resolver.answer (asked around site arguments) = .ok (some (.markup markup)))
      (deep : limit < around.length + 1) :
      Asks resolver limit around (.opening site arguments :: rest)
        [⟨around,asked around site arguments⟩] (some (.depthExceeded limit site))
  | inserted (claimed : resolver.has site.name = true)
      (answer : resolver.answer (asked around site arguments) = .ok (some (.markup markup)))
      (shallow : around.length + 1 ≤ limit)
      (inside : Asks resolver limit (asked around site arguments :: around) (tokenize markup) visits none)
      (later : Asks resolver limit around rest visits' ending) :
      Asks resolver limit around (.opening site arguments :: rest)
        (⟨around,asked around site arguments⟩ :: visits ++ visits') ending
  | broken (claimed : resolver.has site.name = true)
      (answer : resolver.answer (asked around site arguments) = .ok (some (.markup markup)))
      (shallow : around.length + 1 ≤ limit)
      (inside : Asks resolver limit (asked around site arguments :: around) (tokenize markup) visits
        (some fault)) :
      Asks resolver limit around (.opening site arguments :: rest)
        (⟨around,asked around site arguments⟩ :: visits) (some fault)

inductive Encloses (resolver : Resolver) (template : String) : List Request → String → Prop where
  | whole : Encloses resolver template [] template
  | inserted (outer : Encloses resolver template around text)
      (tag : .opening site arguments ∈ tokenize text)
      (answer : resolver.answer (asked around site arguments) = .ok (some (.markup markup))) :
      Encloses resolver template (asked around site arguments :: around) markup

-- A visit is made for a tag of the markup it stands in, and is told how many
-- insertions there are around it.
structure Visit.Stands (resolver : Resolver) (limit : Nat) (template : String) (visit : Visit) : Prop where
  depth : visit.request.occurrence.depth = visit.around.length
  allowed : visit.around.length ≤ limit
  placed : ∃ text site arguments, Encloses resolver template visit.around text ∧
    .opening site arguments ∈ tokenize text ∧ visit.request = asked visit.around site arguments

theorem tag_stands (allowed : around.length ≤ limit) (encloses : Encloses resolver template around text)
    (tag : .opening site arguments ∈ tokenize text) :
    (Visit.mk around (asked around site arguments)).Stands resolver limit template :=
  ⟨rfl,allowed,text,site,arguments,encloses,tag,rfl⟩

theorem asks_stand (asks : Asks resolver limit around tokens visits ending) (allowed : around.length ≤ limit)
    (encloses : Encloses resolver template around text) (part : tokens ⊆ tokenize text) :
    ∀ visit ∈ visits, visit.Stands resolver limit template := by
  induction asks generalizing text with
  | done => exact nofun
  | text _ ih => exact ih allowed encloses (List.cons_subset.mp part).2
  | closing _ ih => exact ih allowed encloses (List.cons_subset.mp part).2
  | unclaimed _ _ ih => exact ih allowed encloses (List.cons_subset.mp part).2
  | answered _ _ _ _ ih =>
    obtain ⟨tag,behind⟩ := List.cons_subset.mp part
    exact List.forall_mem_cons.mpr ⟨tag_stands allowed encloses tag,ih allowed encloses behind⟩
  | refused =>
    obtain ⟨tag,_⟩ := List.cons_subset.mp part
    exact List.forall_mem_singleton.mpr (tag_stands allowed encloses tag)
  | tooDeep =>
    obtain ⟨tag,_⟩ := List.cons_subset.mp part
    exact List.forall_mem_singleton.mpr (tag_stands allowed encloses tag)
  | inserted _ answer shallow _ _ ih ih' =>
    obtain ⟨tag,behind⟩ := List.cons_subset.mp part
    have inside := ih shallow (.inserted encloses tag answer) (List.Subset.refl _)
    have here := List.forall_mem_cons.mpr ⟨tag_stands allowed encloses tag,inside⟩
    exact List.forall_mem_append.mpr ⟨here,ih' allowed encloses behind⟩
  | broken _ answer shallow _ ih =>
    obtain ⟨tag,_⟩ := List.cons_subset.mp part
    have inside := ih shallow (.inserted encloses tag answer) (List.Subset.refl _)
    exact List.forall_mem_cons.mpr ⟨tag_stands allowed encloses tag,inside⟩

def failed : Except ε α → Option ε
  | .ok _ => none
  | .error fault => some fault

def Logs (visits : List Visit) (outcome : Except ε α) (run : Marking → Traced ε α) : Prop :=
  ∀ mark, run mark = ⟨visits.flatMap fun visit => mark visit.request,outcome⟩

theorem logs_pure (value : α) : Logs [] (.ok value) fun _ => (pure value : Traced ε α) := fun _ => rfl

section
variable {run : Marking → Traced ε α} {next : Marking → α → Traced ε β}

theorem logs_ok (logs : Logs visits (.ok value) run) (later : Logs visits' outcome fun mark => next mark value) :
    Logs (visits ++ visits') outcome fun mark => run mark >>= next mark := by
  intro mark
  have here := logs mark
  have there : next mark value = _ := later mark
  simp [bind,Traced.andThen,here,there]

theorem logs_error (logs : Logs visits (.error fault) run) :
    Logs visits (.error fault) fun mark => run mark >>= next mark := by
  intro mark
  simp only [logs mark]
  rfl

end

section
variable {resolver : Resolver} {limit : Nat} {around : List Request}

def Starts (resolver : Resolver) (limit : Nat) (around : List Request) (token : Token) (visits : List Visit) :
    Except Failure (List Span) → Prop
  | .ok _ => ∀ rest later ending, Asks resolver limit around rest later ending →
      Asks resolver limit around (token :: rest) (visits ++ later) ending
  | .error fault => ∀ rest, Asks resolver limit around (token :: rest) visits (some fault)

def RunAsks (resolver : Resolver) (limit : Nat) (around : List Request) (tokens : List Token)
    (run : Marking → Traced Failure α) : Prop :=
  ∃ visits outcome, Asks resolver limit around tokens visits (failed outcome) ∧ Logs visits outcome run

def Inserts (resolver : Resolver) (limit : Nat) (around : List Request)
    (insertion : Marking → Site → String → Traced Failure (List Node)) : Prop :=
  ∀ site arguments markup,
    (around.length + 1 ≤ limit ∧ RunAsks resolver limit (asked around site arguments :: around)
      (tokenize markup) fun mark => insertion mark site markup) ∨
    (limit < around.length + 1 ∧ ∀ mark, insertion mark site markup = .fail (.depthExceeded limit site))

variable {insertion : Marking → Site → String → Traced Failure (List Node)}

theorem request_unclaimed (unclaimed : resolver.has site.name = false) :
    Logs [] (.ok none) fun mark => (resolver.marked mark).request around.length site arguments := by
  intro mark
  simp only [Resolver.request,Resolver.marked,unclaimed]
  rfl

theorem request_claimed (around : List Request) (arguments : List String)
    (claimed : resolver.has site.name = true) :
    Logs [⟨around,asked around site arguments⟩] (resolver.answer (asked around site arguments)) fun mark =>
      (resolver.marked mark).request around.length site arguments := by
  intro mark
  simp only [Resolver.request,Resolver.marked,claimed]
  simp [Resolver.answer,asked]

theorem simple_starts (claimed : resolver.has site.name = true)
    (answer : resolver.answer (asked around site arguments) = .ok tag)
    (simple : ∀ markup, tag ≠ some (.markup markup)) :
    Starts resolver limit around (.opening site arguments) [⟨around,asked around site arguments⟩] (.ok spans) :=
  fun _ _ _ later => .answered claimed answer simple later

theorem token_asks (inserts : Inserts resolver limit around insertion) (spans : List Span) (token : Token) :
    ∃ visits outcome, Starts resolver limit around token visits outcome ∧
      Logs visits outcome fun mark => step (resolver.marked mark) around.length (insertion mark) spans token := by
  cases token with
  | text content => exact ⟨[],.ok _,fun _ _ _ later => .text later,logs_pure _⟩
  | closing site => exact ⟨[],.ok _,fun _ _ _ later => .closing later,logs_pure _⟩
  | opening site arguments =>
    cases claimed : resolver.has site.name with
    | false =>
      refine ⟨[],.ok _,?_,logs_ok (request_unclaimed claimed) (logs_pure _)⟩
      exact fun _ _ _ later => .unclaimed claimed later
    | true =>
      have request := request_claimed around arguments claimed
      cases answer : resolver.answer (asked around site arguments) with
      | error fault =>
        rw [answer] at request
        exact ⟨_,.error fault,fun _ => .refused claimed answer,logs_error request⟩
      | ok tag =>
        rw [answer] at request
        cases tag with
        | none =>
          exact ⟨_,.ok _,simple_starts claimed answer nofun,logs_ok request (logs_pure _)⟩
        | some tag =>
          cases tag with
          | insert node =>
            exact ⟨_,.ok _,simple_starts claimed answer nofun,logs_ok request (logs_pure _)⟩
          | span style =>
            exact ⟨_,.ok _,simple_starts claimed answer nofun,logs_ok request (logs_pure _)⟩
          | markup markup =>
            rcases inserts site arguments markup with ⟨shallow,visits,outcome,inside,logs⟩ | ⟨deep,cut⟩
            · cases outcome with
              | ok nodes =>
                refine ⟨_,.ok _,?_,logs_ok request (logs_ok logs (logs_pure _))⟩
                intro rest later ending behind
                rw [List.append_nil]
                exact .inserted claimed answer shallow inside behind
              | error fault =>
                refine ⟨_,.error fault,?_,logs_ok request (logs_error logs)⟩
                exact fun _ => .broken claimed answer shallow inside
            · have logs : Logs [] (.error _) fun mark => insertion mark site markup := cut
              refine ⟨_,.error _,?_,logs_ok request (logs_error logs)⟩
              exact fun _ => .tooDeep claimed answer deep

theorem tokens_ask (inserts : Inserts resolver limit around insertion) (tokens : List Token)
    (spans : List Span) : RunAsks resolver limit around tokens fun mark =>
      tokens.foldlM (step (resolver.marked mark) around.length (insertion mark)) spans := by
  induction tokens generalizing spans with
  | nil => exact ⟨[],.ok spans,.done,logs_pure spans⟩
  | cons token tokens ih =>
    obtain ⟨visits,outcome,starts,logs⟩ := token_asks inserts spans token
    simp only [List.foldlM_cons]
    cases outcome with
    | error fault => exact ⟨visits,.error fault,starts tokens,logs_error logs⟩
    | ok next =>
      obtain ⟨later,outcome,asks,logs'⟩ := ih next
      exact ⟨visits ++ later,outcome,starts tokens later _ asks,logs_ok logs logs'⟩

theorem asks_map {run : Marking → Traced Failure α}
    (follows : RunAsks resolver limit around tokens run) (view : α → β) :
    RunAsks resolver limit around tokens fun mark => do return view (← run mark) := by
  obtain ⟨visits,outcome,asks,logs⟩ := follows
  cases outcome with
  | error fault => exact ⟨visits,.error fault,asks,logs_error logs⟩
  | ok value =>
    refine ⟨visits,.ok (view value),asks,?_⟩
    rw [← List.append_nil visits]
    exact logs_ok logs (logs_pure _)

theorem nodes_ask (resolver : Resolver) (around : List Request) (remaining : Nat)
    (level : around.length + remaining = limit) (template : String) :
    RunAsks resolver limit around (tokenize template) fun mark =>
      readNodes (resolver.marked mark) limit remaining template := by
  induction remaining generalizing around template with
  | zero =>
    obtain rfl : around.length = limit := level
    apply asks_map
    apply tokens_ask
    intro site arguments markup
    exact .inr ⟨Nat.lt_succ_self _,fun _ => rfl⟩
  | succ remaining ih =>
    have depth : limit - (remaining + 1) = around.length := by omega
    simp only [readNodes,depth]
    apply asks_map
    apply tokens_ask
    intro site arguments markup
    have deeper : (asked around site arguments :: around).length + remaining = limit := by
      rw [List.length_cons]
      omega
    exact .inl ⟨by omega,ih _ deeper markup⟩

end

theorem parse_visits (limit : Nat) (template : String) (resolver : Resolver) :
    ∃ visits, Asks resolver limit [] (tokenize template) visits
        (failed ((Engine.mk limit).parse template resolver).outcome) ∧
      Logs visits ((Engine.mk limit).parse template resolver).outcome fun mark =>
        (Engine.mk limit).parse template (resolver.marked mark) := by
  have level : ([] : List Request).length + limit = limit := Nat.zero_add limit
  obtain ⟨visits,outcome,asks,logs⟩ := asks_map (nodes_ask resolver [] limit level template)
    fun nodes => (Node.styled .plain nodes).compact
  have own := logs fun request =>
    (resolver.resolve request.name request.arguments request.occurrence).calls
  have same : ((Engine.mk limit).parse template resolver).outcome = outcome := congrArg Traced.outcome own
  rw [same]
  exact ⟨visits,asks,logs⟩

section
variable {resolver : Resolver} {limit : Nat}

-- The answers leave no choice of what is asked: each of them rules out all but one of
-- the ways to go on.
theorem asks_unique (one : Asks resolver limit around tokens visits ending)
    (two : Asks resolver limit around tokens visits' ending') : visits = visits' ∧ ending = ending' := by
  induction one generalizing visits' ending' with
  | done =>
    cases two
    exact ⟨rfl,rfl⟩
  | text _ ih =>
    cases two with
    | text later => exact ih later
  | closing _ ih =>
    cases two with
    | closing later => exact ih later
  | unclaimed free _ ih =>
    cases two with
    | unclaimed _ later => exact ih later
    | _ => grind
  | answered claimed answer simple _ ih =>
    cases two with
    | answered _ _ _ later =>
      obtain ⟨rfl,rfl⟩ := ih later
      exact ⟨rfl,rfl⟩
    | _ => grind
  | refused claimed answer => cases two <;> grind
  | tooDeep claimed answer deep => cases two <;> grind
  | inserted claimed answer shallow _ _ ih ih' =>
    cases two with
    | inserted _ answer' _ inside later =>
      cases answer.symm.trans answer'
      obtain ⟨rfl,_⟩ := ih inside
      obtain ⟨rfl,rfl⟩ := ih' later
      exact ⟨rfl,rfl⟩
    | _ => grind
  | broken claimed answer shallow _ ih =>
    cases two with
    | broken _ answer' _ inside =>
      cases answer.symm.trans answer'
      obtain ⟨rfl,same⟩ := ih inside
      exact ⟨rfl,same⟩
    | _ => grind

theorem asks_claimed (asks : Asks resolver limit around tokens visits ending) :
    ∀ visit ∈ visits, resolver.has visit.request.name = true := by
  induction asks with
  | done => exact nofun
  | text _ ih => exact ih
  | closing _ ih => exact ih
  | unclaimed _ _ ih => exact ih
  | answered claimed _ _ _ ih => exact List.forall_mem_cons.mpr ⟨claimed,ih⟩
  | refused claimed => exact List.forall_mem_singleton.mpr claimed
  | tooDeep claimed => exact List.forall_mem_singleton.mpr claimed
  | inserted claimed _ _ _ _ ih ih' =>
    exact List.forall_mem_append.mpr ⟨List.forall_mem_cons.mpr ⟨claimed,ih⟩,ih'⟩
  | broken claimed _ _ _ ih => exact List.forall_mem_cons.mpr ⟨claimed,ih⟩

inductive Visit.Fails (resolver : Resolver) (limit : Nat) (visit : Visit) : Failure → Prop where
  | refused (answer : resolver.answer visit.request = .error fault) : Visit.Fails resolver limit visit fault
  | tooDeep (answer : resolver.answer visit.request = .ok (some (.markup markup)))
      (deep : limit ≤ visit.around.length) :
      Visit.Fails resolver limit visit (.depthExceeded limit visit.request.occurrence.site)

theorem asks_end (asks : Asks resolver limit around tokens visits (some fault)) :
    ∃ earlier last, visits = earlier ++ [last] ∧ last.Fails resolver limit fault := by
  generalize ended : some fault = ending at asks
  induction asks with
  | done => cases ended
  | text _ ih => exact ih ended
  | closing _ ih => exact ih ended
  | unclaimed _ _ ih => exact ih ended
  | answered _ _ _ _ ih =>
    obtain ⟨earlier,last,rfl,fails⟩ := ih ended
    exact ⟨_ :: earlier,last,rfl,fails⟩
  | refused _ answer =>
    cases ended
    exact ⟨[],_,rfl,.refused answer⟩
  | tooDeep _ answer deep =>
    cases ended
    exact ⟨[],_,rfl,.tooDeep answer (Nat.le_of_lt_succ deep)⟩
  | inserted _ _ _ _ _ _ ih' =>
    obtain ⟨earlier,last,rfl,fails⟩ := ih' ended
    exact ⟨_ :: _ ++ earlier,last,(List.append_assoc ..).symm,fails⟩
  | broken _ _ _ _ ih =>
    obtain ⟨earlier,last,rfl,fails⟩ := ih ended
    exact ⟨_ :: earlier,last,rfl,fails⟩

end

end Phrasebook.Template
