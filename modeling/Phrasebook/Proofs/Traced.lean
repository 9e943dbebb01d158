import Phrasebook.Traced
namespace Phrasebook.Traced

-- Laws of traced outcomes. Two runs are compared step by step: equal calls, and
-- either the same failure or values in a given relation.

theorem pure_bind (value : α) (next : α → Traced ε β) : (pure value >>= next) = next value := by
  simp [bind,pure,andThen,ok]

theorem ok_bind (value : α) (next : α → Traced ε β) : (ok value >>= next) = next value :=
  pure_bind value next

theorem bind_pure (traced : Traced ε α) : (traced >>= pure) = traced := by
  rcases traced with ⟨calls,error | value⟩ <;> simp [bind,pure,andThen,ok]

theorem bind_assoc (traced : Traced ε α) (next : α → Traced ε β) (last : β → Traced ε γ) :
    (traced >>= next >>= last) = traced >>= fun value => next value >>= last := by
  rcases traced with ⟨calls,error | value⟩
  · simp [bind,andThen]
  · simp only [bind,andThen]
    cases (next value).outcome <;> simp

instance : LawfulMonad (Traced ε) := LawfulMonad.mk' (Traced ε)
  bind_pure pure_bind bind_assoc

inductive Related (relation : α → β → Prop) : Traced ε α → Traced ε β → Prop where
  | ok (calls : List String) (related : relation one two) :
      Related relation ⟨calls,.ok one⟩ ⟨calls,.ok two⟩
  | error (calls : List String) (error : ε) :
      Related relation ⟨calls,.error error⟩ ⟨calls,.error error⟩

theorem related_pure {relation : α → β → Prop} (related : relation one two) :
    Related relation (pure one : Traced ε α) (pure two) := .ok [] related

theorem related_self (traced : Traced ε α) : Related Eq traced traced := by
  rcases traced with ⟨calls,error | value⟩
  · exact .error calls error
  · exact .ok calls rfl

theorem related_equal {one two : Traced ε α} (related : Related Eq one two) : one = two := by
  cases related with
  | ok calls same => rw [same]
  | error calls error => rfl

theorem related_weaken {relation wider : α → β → Prop}
    (related : Related (ε := ε) relation one two)
    (implied : ∀ {one two}, relation one two → wider one two) : Related wider one two := by
  cases related with
  | ok calls related => exact .ok calls (implied related)
  | error calls error => exact .error calls error

theorem related_bind {relation : α → β → Prop} {later : γ → δ → Prop} {first : Traced ε α}
    {first' : Traced ε β} {next : α → Traced ε γ} {next' : β → Traced ε δ}
    (related : Related relation first first')
    (continued : ∀ {one two}, relation one two → Related later (next one) (next' two)) :
    Related later (first >>= next) (first' >>= next') := by
  cases related with
  | error calls error => exact .error calls error
  | @ok one two calls related =>
    have step := continued related
    simp only [bind,andThen]
    revert step
    cases next one
    cases next' two
    intro step
    cases step with
    | ok calls related => exact .ok _ related
    | error calls error => exact .error _ error

theorem related_next {relation : β → γ → Prop} {first : Traced ε α} {next : α → Traced ε β} {next' : α → Traced ε γ}
    (continued : ∀ value, first.outcome = .ok value → Related relation (next value) (next' value)) :
    Related relation (first >>= next) (first >>= next') := by
  rcases first with ⟨calls,error | value⟩
  · exact .error calls error
  · have here : Related (fun one two => one = value ∧ two = value) (⟨calls,.ok value⟩ : Traced ε α) ⟨calls,.ok value⟩ :=
      .ok calls ⟨rfl,rfl⟩
    refine related_bind here ?_
    intro one two same
    rw [same.1,same.2]
    exact continued value rfl

theorem related_foldlM {relation : α → β → Prop} {step : α → γ → Traced ε α} {step' : β → γ → Traced ε β}
    (kept : ∀ {one two} (item : γ), relation one two →
      Related relation (step one item) (step' two item))
    (items : List γ) (related : relation one two) :
    Related relation (items.foldlM step one) (items.foldlM step' two) := by
  induction items generalizing one two with
  | nil => exact related_pure related
  | cons item rest ih =>
    rw [List.foldlM_cons,List.foldlM_cons]
    exact related_bind (kept item related) ih

theorem related_ok {relation : α → β → Prop} {calls : List String} {two : Traced ε β}
    (related : Related relation ⟨calls,.ok one⟩ two) :
    ∃ value, two = ⟨calls,.ok value⟩ ∧ relation one value := by
  cases related with
  | ok _ related => exact ⟨_,rfl,related⟩

theorem related_error {relation : α → β → Prop} {calls : List String} {error : ε} {two : Traced ε β}
    (related : Related relation ⟨calls,.error error⟩ two) : two = ⟨calls,.error error⟩ := by
  cases related
  rfl

theorem related_meet {relation : α → γ → Prop} {other : β → γ → Prop} {one : Traced ε α}
    {two : Traced ε β} {target : Traced ε γ} (first : Related relation one target)
    (second : Related other two target) :
    Related (fun value value' => ∃ shown, relation value shown ∧ other value' shown) one two := by
  cases first with
  | ok calls related => cases second with
    | ok _ related' => exact .ok calls ⟨_,related,related'⟩
  | error calls error => cases second with
    | error => exact .error calls error

-- Related runs agree on everything once the first values are mapped.
theorem related_exact {view : α → β} {one : Traced ε α} {two : Traced ε β}
    (related : Related (fun value seen => view value = seen) one two) :
    one.calls = two.calls ∧ one.outcome.map view = two.outcome := by
  cases related with
  | ok calls same => exact ⟨rfl,by rw [← same]; rfl⟩
  | error calls error => exact ⟨rfl,rfl⟩

def result (traced : Traced ε α) : Option α := traced.outcome.toOption

theorem result_fail (error : ε) : (fail error : Traced ε α).result = none := rfl

theorem result_bind (first : Traced ε α) (next : α → Traced ε β) :
    (first >>= next).result = first.result.bind fun value => (next value).result := by
  rcases first with ⟨calls,error | value⟩ <;> rfl

theorem result_mapError (traced : Traced ε α) (convert : ε → δ) : (traced.mapError convert).result = traced.result := by
  rcases traced with ⟨calls,error | value⟩ <;> rfl

theorem result_mapM (step : α → Traced ε β) (items : List α) :
    (items.mapM step).result = items.mapM fun item => (step item).result := by
  induction items with
  | nil => rfl
  | cons item rest ih =>
    rw [List.mapM_cons,List.mapM_cons,result_bind]
    congr 1
    funext value
    rw [result_bind,ih]
    rfl

theorem result_foldlM {step : α → γ → Traced ε α} {place : α → γ → Option α}
    (same : ∀ value item, (step value item).result = place value item) (items : List γ) (value : α) :
    (items.foldlM step value).result = items.foldlM place value := by
  induction items generalizing value with
  | nil => rfl
  | cons item rest ih =>
    rw [List.foldlM_cons,List.foldlM_cons,result_bind,same]
    exact congrArg _ (funext ih)

theorem of_result {traced : Traced ε α} (calls : traced.calls = made) (shown : traced.result = some value) :
    traced = ⟨made,.ok value⟩ := by
  rcases traced with ⟨_,error | other⟩
  · cases shown
  · cases calls
    cases shown
    rfl

theorem mapError_bind (first : Traced ε α) (next : α → Traced ε β) (convert : ε → δ) :
    (first >>= next).mapError convert = first.mapError convert >>= fun value => (next value).mapError convert := by
  rcases first with ⟨calls,error | value⟩ <;> rfl

theorem mapError_foldlM (step : α → γ → Traced ε α) (items : List γ) (value : α) (convert : ε → δ) :
    (items.foldlM step value).mapError convert =
      items.foldlM (fun value item => (step value item).mapError convert) value := by
  induction items generalizing value with
  | nil => rfl
  | cons item items ih =>
    rw [List.foldlM_cons,List.foldlM_cons,mapError_bind]
    exact congrArg _ (funext ih)

theorem outcome_bind {first : Traced ε α} (ended : first.outcome = .ok value) (next : α → Traced ε β) :
    (first >>= next).outcome = (next value).outcome := by
  simp only [bind,andThen,ended]

theorem outcome_stopped {first : Traced ε α} (fails : first.outcome = .error fault) (next : α → Traced ε β) :
    (first >>= next).outcome = .error fault := by
  simp only [bind,andThen,fails]

theorem bind_stopped {first : Traced ε α} (fails : first.outcome = .error fault) (next next' : α → Traced ε β) :
    (first >>= next) = first >>= next' := by
  simp only [bind,andThen,fails]

theorem bind_ends {first : Traced ε α} {next : α → Traced ε β} (ended : (first >>= next).outcome = .ok value) :
    ∃ middle, first.outcome = .ok middle ∧ (next middle).outcome = .ok value := by
  rcases first with ⟨calls,error | middle⟩
  · cases ended
  · exact ⟨middle,rfl,ended⟩

theorem bind_fails {first : Traced ε α} {next : α → Traced ε β} (fails : (first >>= next).outcome = .error fault) :
    first.outcome = .error fault ∨
      ∃ value, first.outcome = .ok value ∧ (next value).outcome = .error fault := by
  cases ended : first.outcome with
  | ok value =>
    rw [outcome_bind ended] at fails
    exact .inr ⟨value,rfl,fails⟩
  | error other =>
    simp only [bind,andThen,ended] at fails
    cases fails
    exact .inl rfl

theorem foldlM_fails {step : α → γ → Traced ε α} (fails : (items.foldlM step value).outcome = .error fault) :
    ∃ earlier item later reached, items = earlier ++ item :: later ∧
      (earlier.foldlM step value).outcome = .ok reached ∧ (step reached item).outcome = .error fault := by
  induction items generalizing value with
  | nil => cases fails
  | cons item items ih =>
    rw [List.foldlM_cons] at fails
    rcases bind_fails fails with here | ⟨next,ended,behind⟩
    · exact ⟨[],item,items,value,rfl,rfl,here⟩
    · obtain ⟨earlier,broken,later,reached,split,run,stopped⟩ := ih behind
      refine ⟨item :: earlier,broken,later,reached,congrArg (item :: ·) split,?_,stopped⟩
      rw [List.foldlM_cons,outcome_bind ended,run]

end Phrasebook.Traced
