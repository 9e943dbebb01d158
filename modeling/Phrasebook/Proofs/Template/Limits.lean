import Phrasebook.Proofs.Template.Requests
namespace Phrasebook.Template
open RichText

-- A reading under a limit follows the reading under any larger one, and if it
-- stops earlier then it stops at its own limit.
inductive Within (limit : Nat) : Traced Failure α → Traced Failure α → Prop where
  | same (traced : Traced Failure α) : Within limit traced traced
  | cut (calls : List String) (site : Site) (further : Traced Failure α) :
      Within limit ⟨calls,.error (.depthExceeded limit site)⟩ further

theorem within_bind {first further : Traced Failure α} {next next' : α → Traced Failure β}
    (within : Within limit first further) (continued : ∀ value, Within limit (next value) (next' value)) :
    Within limit (first >>= next) (further >>= next') := by
  cases within with
  | cut calls site => exact .cut calls site _
  | same =>
    rcases first with ⟨calls,error | value⟩
    · exact .same _
    · have later := continued value
      simp only [bind,Traced.andThen]
      revert later
      generalize next value = one
      generalize next' value = two
      intro later
      cases later with
      | same => exact .same _
      | cut later site => exact .cut (calls ++ later) site _

theorem within_foldlM {place place' : α → γ → Traced Failure α}
    (each : ∀ value item, Within limit (place value item) (place' value item)) (items : List γ) (value : α) :
    Within limit (items.foldlM place value) (items.foldlM place' value) := by
  induction items generalizing value with
  | nil => exact .same _
  | cons item items ih =>
    rw [List.foldlM_cons,List.foldlM_cons]
    exact within_bind (each value item) ih

section
variable {insertion further : Site → String → Traced Failure (List Node)}

theorem within_step (within : ∀ site text, Within limit (insertion site text) (further site text))
    (resolver : Resolver) (depth : Nat) (spans : List Span) (token : Token) :
    Within limit (step resolver depth insertion spans token) (step resolver depth further spans token) := by
  cases token with
  | text content => exact .same _
  | closing site => exact .same _
  | opening site arguments =>
    apply within_bind (.same _)
    intro answer
    cases answer with
    | none => exact .same _
    | some tag =>
      cases tag with
      | insert node => exact .same _
      | span style => exact .same _
      | markup text => exact within_bind (within site text) fun _ => .same _

theorem within_tokens (within : ∀ site text, Within limit (insertion site text) (further site text))
    (resolver : Resolver) (depth : Nat) (template : String) :
    Within limit (readTokens resolver depth insertion template) (readTokens resolver depth further template) := by
  apply within_bind
  · exact within_foldlM (within_step within resolver depth) _ _
  · exact fun _ => .same _

end

theorem within_nodes (resolver : Resolver) (extra : Nat) (remaining : Nat) (template : String) :
    Within limit (readNodes resolver limit remaining template)
      (readNodes resolver (limit + extra) (remaining + extra) template) := by
  induction remaining generalizing template with
  | zero =>
    cases extra with
    | zero => exact .same _
    | succ extra =>
      rw [Nat.zero_add,readNodes,readNodes,Nat.add_sub_cancel]
      apply within_tokens
      intro site text
      exact .cut [] site _
  | succ remaining ih =>
    have level : limit + extra - (remaining + extra + 1) = limit - (remaining + 1) := by omega
    rw [Nat.succ_add,readNodes,readNodes,level]
    apply within_tokens
    intro site text
    exact ih text

theorem within_parse (resolver : Resolver) (template : String) (less : limit ≤ wider) :
    Within limit ((Engine.mk limit).parse template resolver) ((Engine.mk wider).parse template resolver) := by
  obtain ⟨extra,rfl⟩ := Nat.exists_eq_add_of_le less
  apply within_bind
  · exact within_nodes resolver extra limit template
  · exact fun _ => .same _

theorem within_outcome {one two : Traced Failure α} (within : Within limit one two) :
    one.outcome = two.outcome ∨ ∃ site, one.outcome = .error (.depthExceeded limit site) := by
  cases within with
  | same => exact .inl rfl
  | cut calls site => exact .inr ⟨site,rfl⟩

-- A smaller limit changes nothing but that a template may fail for it. Whatever is
-- asked under it is asked for a tag inside at most as many insertions.
theorem parse_limits (resolver : Resolver) (template : String) (less : limit ≤ wider) :
    (((Engine.mk limit).parse template resolver).outcome = ((Engine.mk wider).parse template resolver).outcome ∨
      ∃ site, ((Engine.mk limit).parse template resolver).outcome = .error (.depthExceeded limit site)) ∧
    ∃ visits, Asks resolver limit [] (tokenize template) visits
        (failed ((Engine.mk limit).parse template resolver).outcome) ∧
      (∀ visit ∈ visits, visit.Stands resolver limit template) ∧
      ∀ mark, (Engine.mk limit).parse template (resolver.marked mark) =
        ⟨visits.flatMap fun visit => mark visit.request,((Engine.mk limit).parse template resolver).outcome⟩ := by
  refine ⟨within_outcome (within_parse resolver template less),?_⟩
  obtain ⟨visits,asks,logs⟩ := parse_visits limit template resolver
  exact ⟨visits,asks,asks_stand asks (Nat.zero_le limit) .whole (List.Subset.refl _),logs⟩

def dolls : Resolver where
  has name := name == "doll"
  resolve _ arguments occurrence :=
    ⟨["doll"],.ok (some (if occurrence.depth < 2 then .markup "<doll>" else .text "x")),arguments⟩

theorem parse_limits_dolls : 1 ≤ 2 ∧
    failed ((Engine.mk 1).parse "<doll>" dolls).outcome = some (.depthExceeded 1 ⟨"doll","<doll>",0⟩) ∧
    ((Engine.mk 2).parse "<doll>" dolls).outcome.toOption = some (.text "x") ∧
    ∃ visits, Asks dolls 1 [] (tokenize "<doll>") visits (some (.depthExceeded 1 ⟨"doll","<doll>",0⟩)) ∧
      ∀ visit ∈ visits, visit.Stands dolls 1 "<doll>" := by
  have near : failed ((Engine.mk 1).parse "<doll>" dolls).outcome =
      some (.depthExceeded 1 ⟨"doll","<doll>",0⟩) := by decide +kernel
  have far : ((Engine.mk 2).parse "<doll>" dolls).outcome.toOption = some (.text "x") := by decide +kernel
  have less : 1 ≤ 2 := by decide
  obtain ⟨_,visits,asks,stand,_⟩ := parse_limits dolls "<doll>" less
  rw [near] at asks
  exact ⟨less,near,far,visits,asks,stand⟩

end Phrasebook.Template
