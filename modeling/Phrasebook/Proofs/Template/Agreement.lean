import Phrasebook.Proofs.Template.ErrorSites
import Phrasebook.Proofs.Template.Requests
namespace Phrasebook.Template
open RichText

-- A reading depends on its resolver by the answers to the requests it makes. Resolvers
-- that agree on these give the same reading.

def Agree (one two : Resolver) (request : Request) : Prop :=
  one.resolve request.name request.arguments request.occurrence =
    two.resolve request.name request.arguments request.occurrence

def stepAt (resolver : Resolver) (limit depth : Nat) : List Span → Token → Traced Failure (List Span) :=
  step resolver depth (readInside resolver limit (limit - depth))

section
variable {one two : Resolver} {limit : Nat} {around : List Request}

theorem request_outcome (claimed : one.has site.name = true)
    (answer : one.answer (asked around site arguments) = outcome) :
    (one.request around.length site arguments).outcome = outcome := by
  rw [Resolver.request,if_pos claimed]
  exact answer

theorem request_agrees (claims : ∀ name, one.has name = two.has name) (claimed : one.has site.name = true)
    (agree : Agree one two (asked around site arguments)) :
    one.request around.length site arguments = two.request around.length site arguments := by
  have same : one.resolve site.name (Arguments.ofList site arguments) ⟨site,around.length⟩ =
      two.resolve site.name (Arguments.ofList site arguments) ⟨site,around.length⟩ := agree
  unfold Resolver.request
  rw [← claims,if_pos claimed,if_pos claimed,same]

theorem opening_agrees (same : one.request depth site arguments = two.request depth site arguments)
    (inside : ∀ markup, (one.request depth site arguments).outcome = .ok (some (.markup markup)) →
      readInside one limit (limit - depth) site markup = readInside two limit (limit - depth) site markup)
    (spans : List Span) :
    stepAt one limit depth spans (.opening site arguments) = stepAt two limit depth spans (.opening site arguments) := by
  rw [stepAt,stepAt,step,step,← same]
  generalize one.request depth site arguments = reply at inside
  rcases reply with ⟨calls,fault | answer⟩
  · rfl
  · cases answer with
    | none => rfl
    | some tag =>
      cases tag with
      | insert node => rfl
      | span style => rfl
      | markup markup =>
        simp only [bind,Traced.andThen,placeTag]
        rw [inside markup rfl]

theorem cons_agrees (stepped : ∀ spans, stepAt one limit depth spans token = stepAt two limit depth spans token)
    (later : ∀ spans, rest.foldlM (stepAt one limit depth) spans = rest.foldlM (stepAt two limit depth) spans)
    (spans : List Span) :
    (token :: rest).foldlM (stepAt one limit depth) spans = (token :: rest).foldlM (stepAt two limit depth) spans := by
  rw [List.foldlM_cons,List.foldlM_cons,stepped]
  exact congrArg _ (funext later)

theorem cons_stops (stepped : ∀ spans, stepAt one limit depth spans token = stepAt two limit depth spans token)
    (fails : ∀ spans, (stepAt one limit depth spans token).outcome = .error fault) (rest : List Token)
    (spans : List Span) :
    (token :: rest).foldlM (stepAt one limit depth) spans = (token :: rest).foldlM (stepAt two limit depth) spans := by
  rw [List.foldlM_cons,List.foldlM_cons,← stepped]
  exact Traced.bind_stopped (fails spans) _ _

theorem asks_failure (asks : Asks one limit around (tokenize template) visits (some fault))
    (level : around.length + remaining = limit) : (readNodes one limit remaining template).outcome = .error fault := by
  obtain ⟨visits',outcome,asks',logs⟩ := nodes_ask one around remaining level template
  have own := logs fun request => (one.resolve request.name request.arguments request.occurrence).calls
  have same : (readNodes one limit remaining template).outcome = outcome := congrArg Traced.outcome own
  have ended := (asks_unique asks' asks).2
  cases outcome with
  | ok nodes => cases ended
  | error other =>
    cases ended
    exact same

theorem inside_nodes (resolver : Resolver) (shallow : depth + 1 ≤ limit) (site : Site) (markup : String) :
    readInside resolver limit (limit - depth) site markup = readNodes resolver limit (limit - (depth + 1)) markup := by
  have below : limit - depth = limit - (depth + 1) + 1 := by omega
  rw [below]
  rfl

theorem nodes_read (resolver : Resolver) (allowed : depth ≤ limit) (markup : String) :
    readNodes resolver limit (limit - depth) markup =
      (tokenize markup).foldlM (stepAt resolver limit depth) [Span.root] >>= fun spans => pure (finish spans) := by
  have above : limit - (limit - depth) = depth := by omega
  rw [nodes_tokens,readTokens,above]
  rfl

theorem markup_agrees (shallow : depth + 1 ≤ limit) (inner : ∀ spans, (tokenize markup).foldlM
      (stepAt one limit (depth + 1)) spans = (tokenize markup).foldlM (stepAt two limit (depth + 1)) spans)
    (site : Site) : readInside one limit (limit - depth) site markup = readInside two limit (limit - depth) site markup := by
  rw [inside_nodes one shallow,inside_nodes two shallow,nodes_read one shallow,nodes_read two shallow,inner]

theorem insertion_fails (answer : (one.request depth site arguments).outcome = .ok (some (.markup markup)))
    (fails : (readInside one limit (limit - depth) site markup).outcome = .error fault) (spans : List Span) :
    (stepAt one limit depth spans (.opening site arguments)).outcome = .error fault :=
  (Traced.outcome_bind answer _).trans (Traced.outcome_stopped fails _)

-- The induction goes along the visits. What is asked inside of an insertion is told by
-- the hypothesis for its markup, whatever spans are open there.
theorem tokens_agree (claims : ∀ name, one.has name = two.has name)
    (asks : Asks one limit around tokens visits ending) (agree : ∀ visit ∈ visits, Agree one two visit.request)
    (allowed : around.length ≤ limit) (spans : List Span) :
    tokens.foldlM (stepAt one limit around.length) spans = tokens.foldlM (stepAt two limit around.length) spans := by
  induction asks generalizing spans with
  | done => rfl
  | text _ ih =>
    refine cons_agrees ?_ (ih agree allowed) spans
    exact fun _ => rfl
  | closing _ ih =>
    refine cons_agrees ?_ (ih agree allowed) spans
    exact fun _ => rfl
  | unclaimed free _ ih =>
    have declined := request_free free
    have declined' := request_free ((claims _).symm.trans free)
    refine cons_agrees (opening_agrees ?_ ?_) (ih agree allowed) spans
    · rw [declined,declined']
    · rw [declined]
      exact nofun
  | answered claimed answer simple _ ih =>
    obtain ⟨here,later⟩ := List.forall_mem_cons.mp agree
    refine cons_agrees (opening_agrees (request_agrees claims claimed here) ?_) (ih later allowed) spans
    intro markup inserted
    cases (request_outcome claimed answer).symm.trans inserted
    exact absurd rfl (simple markup)
  | refused claimed answer =>
    have here := List.forall_mem_singleton.mp agree
    have refused := request_outcome claimed answer
    refine cons_stops (opening_agrees (request_agrees claims claimed here) ?_)
      (fun _ => Traced.outcome_stopped refused _) _ spans
    intro markup inserted
    cases refused.symm.trans inserted
  | tooDeep claimed answer deep =>
    have here := List.forall_mem_singleton.mp agree
    have full : limit - _ = 0 := Nat.sub_eq_zero_of_le (Nat.le_of_lt_succ deep)
    have fails := insertion_fails (request_outcome claimed answer) (by rw [full,readInside]; rfl)
    refine cons_stops (opening_agrees (request_agrees claims claimed here) ?_) fails _ spans
    intro markup _
    rw [full]
    rfl
  | inserted claimed answer shallow _ _ ih ih' =>
    obtain ⟨here,others⟩ := List.forall_mem_cons.mp agree
    obtain ⟨inner,later⟩ := List.forall_mem_append.mp others
    refine cons_agrees (opening_agrees (request_agrees claims claimed here) ?_) (ih' later allowed) spans
    intro markup inserted
    cases (request_outcome claimed answer).symm.trans inserted
    exact markup_agrees shallow (ih inner shallow) _
  | broken claimed answer shallow asks ih =>
    obtain ⟨here,inner⟩ := List.forall_mem_cons.mp agree
    have failure := asks_failure asks (Nat.add_sub_of_le shallow)
    rw [List.length_cons,← inside_nodes one shallow] at failure
    have fails := insertion_fails (request_outcome claimed answer) failure
    refine cons_stops (opening_agrees (request_agrees claims claimed here) ?_) fails _ spans
    intro markup inserted
    cases (request_outcome claimed answer).symm.trans inserted
    exact markup_agrees shallow (ih inner shallow) _

end

theorem parse_agrees {one two : Resolver} (claims : ∀ name, one.has name = two.has name)
    (asks : Asks one limit [] (tokenize template) visits ending)
    (agree : ∀ visit ∈ visits, Agree one two visit.request) :
    (Engine.mk limit).parse template one = (Engine.mk limit).parse template two := by
  have whole := nodes_read one (Nat.zero_le limit) template
  have whole' := nodes_read two (Nat.zero_le limit) template
  have same : readNodes one limit limit template = readNodes two limit limit template := by
    rw [Nat.sub_zero] at whole whole'
    rw [whole,whole']
    exact congrArg (· >>= _) (tokens_agree claims asks agree (Nat.zero_le limit) _)
  exact congrArg (· >>= _) same

end Phrasebook.Template
