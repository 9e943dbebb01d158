import Mathlib.Data.List.Induction
import Mathlib.Data.List.Nodup
import Phrasebook.Catalog
namespace Phrasebook

-- What a catalog holds is told by the edits that were made to it. The newest edit
-- that says anything about a message decides, whatever spelling names the locale.

-- One of them does it, and none behind it undoes it.
def Stands (does undoes : α → Prop) (items : List α) : Prop :=
  ∃ earlier item later, items = earlier ++ item :: later ∧ does item ∧ ∀ other ∈ later, ¬undoes other

theorem stands_nil (does undoes : α → Prop) : ¬Stands does undoes [] := by
  rintro ⟨earlier,item,later,same,_⟩
  simp at same

theorem stands_snoc {does undoes : α → Prop} : Stands does undoes (items ++ [last]) ↔
    does last ∨ (¬undoes last ∧ Stands does undoes items) := by
  constructor
  · rintro ⟨earlier,item,later,same,done,kept⟩
    rcases List.eq_nil_or_concat' later with rfl | ⟨later,other,rfl⟩
    · obtain ⟨rfl,rfl⟩ := List.append_singleton_inj.mp same
      exact .inl done
    · rw [← List.cons_append,← List.append_assoc] at same
      obtain ⟨rfl,rfl⟩ := List.append_singleton_inj.mp same
      obtain ⟨kept,keeps⟩ := List.forall_mem_append.mp kept
      exact .inr ⟨keeps last (by simp),earlier,item,later,rfl,done,kept⟩
  · rintro (done | ⟨keeps,earlier,item,later,rfl,done,kept⟩)
    · exact ⟨items,last,[],rfl,done,nofun⟩
    · refine ⟨earlier,item,later ++ [last],by simp,done,?_⟩
      exact List.forall_mem_append.mpr ⟨kept,List.forall_mem_singleton.mpr keeps⟩

namespace Catalog

@[simp] theorem get_empty (key : String) (locale : Locale) : empty.get? key locale = none := by
  simp [empty,get?]

@[simp] theorem get_insert (catalog : Catalog) (locale locale' : Locale) (key key' message : String) :
    (catalog.insert locale key message).get? key' locale' =
      if locale = locale' ∧ key = key' then some message else catalog.get? key' locale' := by
  by_cases same : locale = locale'
  · subst same
    simp [insert,get?,Std.ExtTreeMap.getElem?_insert,Std.ExtTreeMap.getD_eq_getD_getElem?]
    by_cases same : key = key'
    · simp [same]
    · cases catalog.entries[locale]? <;> simp [same]
  · simp [insert,get?,Std.ExtTreeMap.getElem?_insert,same]

@[simp] theorem get_replace (catalog : Catalog) (locale locale' : Locale) (messages : Messages) (key : String) :
    (catalog.replace locale messages).get? key locale' =
      if locale = locale' then messages[key]? else catalog.get? key locale' := by
  by_cases same : locale = locale' <;> simp [replace,get?,Std.ExtTreeMap.getElem?_insert,same]

@[simp] theorem locales_empty : empty.locales = [] := by
  simp [empty,locales]

@[simp] theorem mem_locales_insert {catalog : Catalog} {locale locale' : Locale} {key message : String} :
    locale' ∈ (catalog.insert locale key message).locales ↔ locale = locale' ∨ locale' ∈ catalog.locales := by
  simp [insert,locales]

@[simp] theorem mem_locales_replace {catalog : Catalog} {locale locale' : Locale} {messages : Messages} :
    locale' ∈ (catalog.replace locale messages).locales ↔ locale = locale' ∨ locale' ∈ catalog.locales := by
  simp [replace,locales]

-- A locale is named by any spelling of it.
inductive Edit where
  | put (spelling key text : String)
  | replace (spelling : String) (messages : Messages)
  | rebuild (rows : List (String × String × String))

namespace Edit

def apply (catalog : Catalog) : Edit → Catalog
  | .put spelling key text => catalog.insert (.ofString spelling) key text
  | .replace spelling messages => catalog.replace (.ofString spelling) messages
  | .rebuild rows => ofRows (rows.map fun row => (.ofString row.1,row.2))

def Writes (locale : Locale) (key text : String) : Edit → Prop
  | .put spelling key' text' => Locale.ofString spelling = locale ∧ key' = key ∧ text' = text
  | .replace spelling messages => Locale.ofString spelling = locale ∧ messages[key]? = some text
  | .rebuild rows => Stands (fun row => Locale.ofString row.1 = locale ∧ row.2 = (key,text))
      (fun row => Locale.ofString row.1 = locale ∧ row.2.1 = key) rows

def Clears (locale : Locale) : Edit → Prop
  | .put .. => False
  | .replace spelling _ => Locale.ofString spelling = locale
  | .rebuild _ => True

def Decides (locale : Locale) (key : String) (edit : Edit) : Prop :=
  edit.Clears locale ∨ ∃ text, edit.Writes locale key text

def Names (locale : Locale) : Edit → Prop
  | .put spelling _ _ => Locale.ofString spelling = locale
  | .replace spelling _ => Locale.ofString spelling = locale
  | .rebuild rows => ∃ row ∈ rows, Locale.ofString row.1 = locale

def Rebuilds : Edit → Prop
  | .rebuild _ => True
  | _ => False

end Edit

def after (history : List Edit) : Catalog := history.foldl Edit.apply empty

theorem after_snoc (history : List Edit) (edit : Edit) :
    after (history ++ [edit]) = edit.apply (after history) := by
  simp [after]

theorem after_rows (history : List Edit) (rows : List (String × String × String)) :
    after (history ++ [.rebuild rows]) = after (rows.map fun row => .put row.1 row.2.1 row.2.2) := by
  rw [after_snoc]
  simp [Edit.apply,ofRows,after,List.foldl_map]

theorem rows_snoc (rows : List (String × String × String)) (row : String × String × String) :
    Edit.apply empty (.rebuild (rows ++ [row])) =
      (Edit.apply empty (.rebuild rows)).insert (.ofString row.1) row.2.1 row.2.2 := by
  simp [Edit.apply,ofRows]

theorem rows_get (rows : List (String × String × String)) :
    (Edit.apply empty (.rebuild rows)).get? key locale = some text ↔
      Stands (fun row => Locale.ofString row.1 = locale ∧ row.2 = (key,text))
        (fun row => Locale.ofString row.1 = locale ∧ row.2.1 = key) rows := by
  induction rows using List.reverseRecOn with
  | nil => simp [stands_nil,Edit.apply,ofRows]
  | append_singleton rows row ih =>
    obtain ⟨spelling,key',text'⟩ := row
    rw [rows_snoc,get_insert,stands_snoc,← ih]
    by_cases own : Locale.ofString spelling = locale ∧ key' = key
    · obtain ⟨rfl,rfl⟩ := own
      simp
    · simp [own]
      grind

theorem rows_locales (rows : List (String × String × String)) :
    locale ∈ (Edit.apply empty (.rebuild rows)).locales ↔ ∃ row ∈ rows, Locale.ofString row.1 = locale := by
  induction rows using List.reverseRecOn with
  | nil => simp [Edit.apply,ofRows]
  | append_singleton rows row ih =>
    rw [rows_snoc,mem_locales_insert,ih]
    simp [or_and_right,exists_or,or_comm]

theorem apply_get (catalog : Catalog) (edit : Edit) : (edit.apply catalog).get? key locale = some text ↔
    edit.Writes locale key text ∨ (¬edit.Decides locale key ∧ catalog.get? key locale = some text) := by
  cases edit with
  | put spelling key' text' =>
    by_cases own : Locale.ofString spelling = locale ∧ key' = key
    · simp [Edit.apply,Edit.Decides,Edit.Clears,Edit.Writes,own]
    · simp [Edit.apply,Edit.Decides,Edit.Clears,Edit.Writes,own]
      grind
  | replace spelling messages =>
    by_cases own : Locale.ofString spelling = locale <;>
      simp [Edit.apply,Edit.Decides,Edit.Clears,Edit.Writes,own]
  | rebuild rows =>
    have decides : Edit.Decides locale key (.rebuild rows) := .inl trivial
    simp [decides,Edit.Writes,← rows_get]
    rfl

theorem after_get (history : List Edit) : (after history).get? key locale = some text ↔
    Stands (Edit.Writes locale key text) (Edit.Decides locale key) history := by
  induction history using List.reverseRecOn with
  | nil => simp [after,stands_nil]
  | append_singleton history edit ih => rw [after_snoc,apply_get,stands_snoc,ih]

theorem apply_locales (catalog : Catalog) (edit : Edit) : locale ∈ (edit.apply catalog).locales ↔
    edit.Names locale ∨ (¬edit.Rebuilds ∧ locale ∈ catalog.locales) := by
  cases edit with
  | put spelling key text => simp [Edit.apply,Edit.Names,Edit.Rebuilds]
  | replace spelling messages => simp [Edit.apply,Edit.Names,Edit.Rebuilds]
  | rebuild rows =>
    simp only [Edit.Names,Edit.Rebuilds,← rows_locales]
    simp
    rfl

theorem after_locales (history : List Edit) : locale ∈ (after history).locales ↔
    Stands (Edit.Names locale) Edit.Rebuilds history := by
  induction history using List.reverseRecOn with
  | nil => simp [after,stands_nil]
  | append_singleton history edit ih => rw [after_snoc,apply_locales,stands_snoc,ih]

theorem locales_ascending (catalog : Catalog) : (catalog.locales.map Locale.text).Pairwise (· < ·) := by
  rw [List.pairwise_map]
  exact catalog.entries.ordered_keys.imp fun before => compareOfLessAndEq_eq_lt.mp before

def stored (catalog : Catalog) : List (Locale × String) :=
  catalog.entries.toList.flatMap fun entry => entry.2.keys.map (entry.1,·)

theorem mem_stored {catalog : Catalog} : (locale,key) ∈ catalog.stored ↔ (catalog.get? key locale).isSome := by
  simp only [stored,List.mem_flatMap,List.mem_map,Prod.mk.injEq]
  constructor
  · rintro ⟨⟨_,messages⟩,member,_,inside,rfl,rfl⟩
    have found := Std.ExtTreeMap.mem_toList_iff_getElem?_eq_some.mp member
    rw [Std.ExtTreeMap.mem_keys,Std.ExtTreeMap.mem_iff_isSome_getElem?] at inside
    simpa [get?,found] using inside
  · intro present
    obtain ⟨text,found⟩ := Option.isSome_iff_exists.mp present
    obtain ⟨messages,known,held⟩ := Option.bind_eq_some_iff.mp found
    have inside : key ∈ messages.keys := by
      rw [Std.ExtTreeMap.mem_keys,Std.ExtTreeMap.mem_iff_isSome_getElem?,held]
      rfl
    exact ⟨(locale,messages),Std.ExtTreeMap.mem_toList_iff_getElem?_eq_some.mpr known,key,inside,rfl,rfl⟩

theorem stored_nodup (catalog : Catalog) : catalog.stored.Nodup := by
  refine List.nodup_flatMap.mpr ⟨?_,?_⟩
  · intro entry _
    exact entry.2.nodup_keys.map fun _ _ same => (Prod.mk.inj same).2
  · refine catalog.entries.distinct_keys_toList.imp ?_
    intro entry other apart pair one two
    obtain ⟨key,_,rfl⟩ := List.mem_map.mp one
    obtain ⟨key',_,same⟩ := List.mem_map.mp two
    exact apart (by simp [(Prod.mk.inj same).1])

theorem stored_length (catalog : Catalog) : catalog.stored.length = catalog.size := by
  unfold stored size
  induction catalog.entries.toList with
  | nil => rfl
  | cons entry entries ih => simp [ih]

theorem isEmpty_iff (catalog : Catalog) :
    catalog.isEmpty = true ↔ ∀ key locale, catalog.get? key locale = none := by
  rw [isEmpty,beq_iff_eq,← stored_length,List.length_eq_zero_iff,List.eq_nil_iff_forall_not_mem]
  simp only [Prod.forall,mem_stored,Option.not_isSome_iff_eq_none]
  exact forall_comm

-- The catalog after some edits holds what the newest of them say, and counts it.
theorem follows_history (history : List Edit) :
    (∀ locale key text, (after history).get? key locale = some text ↔
      Stands (Edit.Writes locale key text) (Edit.Decides locale key) history) ∧
    (∀ locale, locale ∈ (after history).locales ↔ Stands (Edit.Names locale) Edit.Rebuilds history) ∧
    ((after history).locales.map Locale.text).Pairwise (· < ·) ∧
    (∃ pairs : List (Locale × String), pairs.Nodup ∧
      (∀ pair, pair ∈ pairs ↔ ((after history).get? pair.2 pair.1).isSome) ∧ (after history).size = pairs.length) ∧
    ((after history).isEmpty = true ↔ ∀ key locale, (after history).get? key locale = none) ∧
    ∀ rows, after (history ++ [.rebuild rows]) = after (rows.map fun row => .put row.1 row.2.1 row.2.2) := by
  refine ⟨fun _ _ _ => after_get history,fun _ => after_locales history,locales_ascending _,?_,isEmpty_iff _,
    after_rows history⟩
  exact ⟨(after history).stored,stored_nodup _,fun _ => mem_stored,(stored_length _).symm⟩

example : (after [.put "en-US" "k" "1",.replace " EN_us" ∅]).locales = [⟨"en_us"⟩] ∧
    (after [.put "en-US" "k" "1",.replace " EN_us" ∅]).isEmpty = true := by
  decide +kernel

end Catalog
end Phrasebook
