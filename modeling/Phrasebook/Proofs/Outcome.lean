import Phrasebook.Traced
namespace Phrasebook.Outcome

-- How two steps that may fail end together.

theorem bind_ok_iff {first : Except ε α} {next : α → Except ε β} :
    (first >>= next) = .ok value ↔ ∃ middle, first = .ok middle ∧ next middle = .ok value := by
  cases first with
  | error fault => simp [bind,Except.bind]
  | ok middle => simp [bind,Except.bind]

theorem bind_error_iff {first : Except ε α} {next : α → Except ε β} :
    (first >>= next) = .error fault ↔
      first = .error fault ∨ ∃ middle, first = .ok middle ∧ next middle = .error fault := by
  cases first with
  | error other => simp [bind,Except.bind]
  | ok middle => simp [bind,Except.bind]

theorem map_ok_iff {outcome : Except ε α} {view : α → β} :
    outcome.map view = .ok value ↔ ∃ inner, outcome = .ok inner ∧ view inner = value := by
  cases outcome with
  | error fault => simp [Except.map]
  | ok inner => simp [Except.map]

theorem mapError_ok_iff {outcome : Except ε α} {view : ε → δ} :
    outcome.mapError view = .ok value ↔ outcome = .ok value := by
  cases outcome with
  | error fault =>
    constructor <;>
    · intro same
      cases same
  | ok inner =>
    constructor <;>
    · intro same
      cases same
      rfl

theorem toOption_ok {outcome : Except ε α} : outcome.toOption = some value ↔ outcome = .ok value := by
  cases outcome <;> simp [Except.toOption]

theorem map_toOption (outcome : Except ε α) (view : α → β) : (outcome.map view).toOption = outcome.toOption.map view := by
  cases outcome <;> rfl

theorem map_mapError (outcome : Except ε α) (view : α → β) (convert : ε → δ) :
    (outcome.map view).mapError convert = (outcome.mapError convert).map view := by
  cases outcome <;> rfl

theorem bind_mapError {first first' : Except ε α} {next next' : α → Except ε β} {view : ε → δ}
    (same : first.mapError view = first'.mapError view)
    (continued : ∀ value, (next value).mapError view = (next' value).mapError view) :
    (first >>= next).mapError view = (first' >>= next').mapError view := by
  cases first with
  | error fault =>
    cases first' with
    | error fault' => exact congrArg Except.error (Except.error.inj same)
    | ok value' => cases same
  | ok value =>
    cases first' with
    | error fault' => cases same
    | ok value' =>
      cases same
      exact continued value

theorem bind_toOption {one : Except ε α} {two : Except δ α} {next : α → Except ε β} {next' : α → Except δ β}
    (same : one.toOption = two.toOption) (later : ∀ value, (next value).toOption = (next' value).toOption) :
    (one >>= next).toOption = (two >>= next').toOption := by
  cases one with
  | error fault =>
    cases two with
    | error fault => rfl
    | ok value => cases same
  | ok value =>
    rw [toOption_ok.mp same.symm]
    exact later value

theorem mapM_length {view : α → Option β} {items : List α} {values : List β} (taken : items.mapM view = some values) :
    values.length = items.length := by
  induction items generalizing values with
  | nil =>
    cases taken
    rfl
  | cons item items ih =>
    rw [List.mapM_cons] at taken
    obtain ⟨first,_,taken⟩ := Option.bind_eq_some_iff.mp taken
    obtain ⟨later,rest,ended⟩ := Option.bind_eq_some_iff.mp taken
    cases ended
    rw [List.length_cons,List.length_cons,ih rest]

theorem mapM_congr {view other : α → Option β} {items : List α} (same : ∀ item ∈ items, view item = other item) :
    items.mapM view = items.mapM other := by
  induction items with
  | nil => rfl
  | cons item items ih =>
    obtain ⟨first,later⟩ := List.forall_mem_cons.mp same
    rw [List.mapM_cons,List.mapM_cons,first,ih later]

theorem mapM_view (step : α → Option β) (view : β → γ) (items : List α) :
    (items.mapM fun item => (step item).map view) = (items.mapM step).map (List.map view) := by
  induction items with
  | nil => rfl
  | cons item items ih =>
    rw [List.mapM_cons,List.mapM_cons,ih]
    cases step item with
    | none => rfl
    | some first => cases items.mapM step <;> rfl

end Phrasebook.Outcome
