import Phrasebook.Proofs.Storage.Loading
import Phrasebook.Proofs.Text.Splitting
import Phrasebook.Storage.Store
namespace Phrasebook.Storage
open Json

-- Lists kept in a message file. They are joined to one message when the file is
-- loaded and taken apart again when they are asked for.

abbrev Lists := Std.ExtTreeMap String (List String)

-- What a file can keep: keys that are no metadata, and members without line feeds.
structure Storable (table : Lists) : Prop where
  keys : ∀ key : String, key ∈ table → isMetadata key = false
  filled : ∀ (key : String) (list : List String), table[key]? = some list → list ≠ []
  clean : ∀ (key : String) (list : List String), table[key]? = some list → ∀ line ∈ list, '\n' ∉ line.toList

def listValue (list : List String) : Value := .array (list.map fun line => .scalar (.string line))

inductive WritesList : List String → Value → Prop where
  | array (list : List String) : WritesList list (listValue list)
  | single (line : String) : WritesList [line] (.scalar (.string line))

-- The last member of a name is the one that counts. Members that belong to no
-- list are metadata, or neither strings nor lists of strings.
structure WritesTable (table : Lists) (members : List (String × Value)) : Prop where
  listed : ∀ (key : String) (list : List String), table[key]? = some list →
    ∃ value, members.reverse.lookup key = some value ∧ WritesList list value
  others : ∀ (key : String) (value : Value), table[key]? = none → members.reverse.lookup key = some value →
    isMetadata key = true ∨ ((∀ text, value ≠ .scalar (.string text)) ∧ ∀ list, value ≠ listValue list)

theorem strings_read (list : List String) :
    (list.map fun line => Value.scalar (.string line)).mapM stringOf? = some list := by
  induction list with
  | nil => rfl
  | cons line list ih => rw [List.map_cons,List.mapM_cons,ih]; rfl

theorem stringOf?_some (read : stringOf? value = some text) : value = .scalar (.string text) := by
  unfold stringOf? at read
  split at read <;> cases read
  rfl

theorem strings_only {values : List Value} (read : values.mapM stringOf? = some list) :
    .array values = listValue list := by
  induction values generalizing list with
  | nil => cases read; rfl
  | cons value values ih =>
    rw [List.mapM_cons] at read
    obtain ⟨first,here,read⟩ := Option.bind_eq_some_iff.mp read
    obtain ⟨later,behind,ended⟩ := Option.bind_eq_some_iff.mp read
    cases ended
    have rest := ih behind
    rw [stringOf?_some here]
    unfold listValue at rest ⊢
    rw [Value.array.inj rest,List.map_cons]

theorem messageOf?_written (written : WritesList list value) : messageOf? value = some ("\n".intercalate list) := by
  cases written with
  | array =>
    rw [listValue,messageOf?,strings_read]
    rfl
  | single line =>
    have alone : "\n".intercalate [line] = line := by simp
    rw [messageOf?,alone]

theorem messageOf?_other (string : ∀ text, value ≠ .scalar (.string text)) (array : ∀ list, value ≠ listValue list) :
    messageOf? value = none := by
  cases value with
  | scalar value =>
    cases value with
    | string text => exact absurd rfl (string text)
    | _ => rfl
  | array values =>
    cases read : values.mapM stringOf? with
    | none => rw [messageOf?,read]; rfl
    | some list => exact absurd (strings_only read) (array list)
  | object => rfl

theorem getElem?_addMember (messages : Messages) (member : String × Value) (key : String) :
    (addMember messages member)[key]? =
      if member.1 = key ∧ isMetadata key = false then messageOf? member.2 else messages[key]? := by
  obtain ⟨name,value⟩ := member
  by_cases same : name = key
  · subst same
    cases metadata : isMetadata name with
    | true => simp [addMember,metadata]
    | false => cases read : messageOf? value <;> simp [addMember,metadata,read]
  · rw [if_neg fun both => same both.1]
    unfold addMember
    split
    · rfl
    · split <;> simp [Std.ExtTreeMap.getElem?_insert,Std.ExtTreeMap.getElem?_erase,same]

theorem getElem?_members (members : List (String × Value)) (messages : Messages) (key : String) :
    (members.foldl addMember messages)[key]? =
      if isMetadata key then messages[key]?
      else match members.reverse.lookup key with
        | some value => messageOf? value
        | none => messages[key]? := by
  induction members generalizing messages with
  | nil => simp
  | cons member members ih =>
    obtain ⟨name,value⟩ := member
    rw [List.foldl_cons,ih,getElem?_addMember,List.reverse_cons,List.lookup_append]
    cases metadata : isMetadata key with
    | true => simp
    | false =>
      cases later : members.reverse.lookup key with
      | some other => rfl
      | none =>
        by_cases same : name = key
        · simp [same]
        · simp [same,List.lookup_cons,beq_false_of_ne (Ne.symm same)]

theorem lines_joined (filled : list ≠ []) (clean : ∀ line ∈ list, '\n' ∉ line.toList) :
    lines ("\n".intercalate list) = list := by
  have pieces : ∀ piece ∈ list.map String.toList, '\n' ∉ piece := List.forall_mem_map.mpr clean
  have feed : "\n".toList = ['\n'] := rfl
  rw [lines,String.toList_intercalate,feed,Text.splitOn_intercalate pieces (by simpa using filled),List.map_map]
  simp [Function.comp_def]

theorem written_read {key : String} {list : List String} (storable : Storable table)
    (written : WritesTable table members) (listed : table[key]? = some list) :
    (members.foldl addMember ∅)[key]? = some ("\n".intercalate list) := by
  have inside : key ∈ table := Std.ExtTreeMap.mem_iff_isSome_getElem?.mpr (by rw [listed]; rfl)
  obtain ⟨value,last,writes⟩ := written.listed key list listed
  rw [getElem?_members,storable.keys key inside,last]
  exact messageOf?_written writes

theorem unwritten_read {key : String} (written : WritesTable table members) (absent : table[key]? = none) :
    (members.foldl addMember ∅)[key]? = none := by
  rw [getElem?_members]
  split
  · exact Std.ExtTreeMap.getElem?_empty
  · rename_i plain
    split
    · rename_i value last
      rcases written.others key value absent last with metadata | ⟨string,array⟩
      · exact absurd metadata plain
      · exact messageOf?_other string array
    · exact Std.ExtTreeMap.getElem?_empty

theorem lookup_replaced {catalog : Catalog} {messages : Messages} (store : Store)
    (loaded : store.catalog = catalog.replace locale messages) (key : String) :
    store.lookup key locale = messages[key]? := by
  simp [Store.lookup,loaded,Catalog.get?,Catalog.replace]

-- After a file has been loaded for a locale, each of its lists is found there as
-- it was, and nothing else is.
theorem lists_survive (storable : Storable table) (written : WritesTable table members)
    (decoded : Text.decodeUtf8 bytes = some content) (parsed : Value.parse content = .ok (.object members))
    (catalog : Catalog) (locale : Locale) (path : String) :
    ∃ loaded, loadFile .json catalog ⟨locale,path,.file bytes⟩ = .ok loaded ∧
      ∀ store : Store, store.catalog = loaded → ∀ key,
        (∀ list, table[key]? = some list → store.lookupList key locale = list) ∧
        (table[key]? = none → store.lookup key locale = none) := by
  refine ⟨_,loadFile_iff.mpr ⟨_,.json decoded parsed rfl,rfl⟩,fun store loaded key => ?_⟩
  have found := lookup_replaced store loaded key
  constructor
  · intro list listed
    rw [written_read storable written listed] at found
    rw [Store.lookupList,found]
    exact lines_joined (storable.filled key list listed) (storable.clean key list listed)
  · intro absent
    rw [found,unwritten_read written absent]

def ruleLists : Lists := .ofList [("rules",["","a",""]),("motto",["b"])]

def ruleMembers : List (String × Value) :=
  [("@authors",listValue ["c"]),("motto",.scalar .null),("rules",listValue ["","a",""]),("count",.scalar (.bool true)),
    ("mixed",.array [.scalar (.string "d"),.scalar .null]),("motto",.scalar (.string "b"))]

def ruleFile : String :=
  "\x7b\"@authors\":[\"c\"],\"motto\":null,\"rules\":[\"\",\"a\",\"\"],\"count\":true," ++
  "\"mixed\":[\"d\",null],\"motto\":\"b\"\x7d"

theorem ruleLists_found (key : String) : ruleLists[key]? =
    if "motto" = key then some ["b"] else if "rules" = key then some ["","a",""] else none := by
  simp [ruleLists,Std.ExtTreeMap.ofList_cons,Std.ExtTreeMap.getElem?_insert]

theorem ruleLists_only (listed : ruleLists[key]? = some list) :
    key = "motto" ∧ list = ["b"] ∨ key = "rules" ∧ list = ["","a",""] := by
  rw [ruleLists_found] at listed
  split at listed
  · rename_i same
    cases listed
    exact .inl ⟨same.symm,rfl⟩
  · split at listed
    · rename_i same
      cases listed
      exact .inr ⟨same.symm,rfl⟩
    · cases listed

theorem ruleLists_storable : Storable ruleLists where
  keys key inside := by
    obtain ⟨list,listed⟩ := Option.isSome_iff_exists.mp (Std.ExtTreeMap.mem_iff_isSome_getElem?.mp inside)
    rcases ruleLists_only listed with ⟨rfl,rfl⟩ | ⟨rfl,rfl⟩ <;> decide
  filled key list listed := by
    rcases ruleLists_only listed with ⟨rfl,rfl⟩ | ⟨rfl,rfl⟩ <;> decide
  clean key list listed := by
    rcases ruleLists_only listed with ⟨rfl,rfl⟩ | ⟨rfl,rfl⟩ <;> decide

theorem ruleMembers_written : WritesTable ruleLists ruleMembers where
  listed key list listed := by
    rcases ruleLists_only listed with ⟨rfl,rfl⟩ | ⟨rfl,rfl⟩
    · exact ⟨_,rfl,.single "b"⟩
    · exact ⟨_,rfl,.array _⟩
  others key value absent last := by
    rw [ruleLists_found] at absent
    have motto : "motto" ≠ key := fun same => by simp [same] at absent
    have rules : "rules" ≠ key := fun same => by simp [same,motto] at absent
    obtain ⟨earlier,later,split,_⟩ := List.lookup_eq_some_iff.mp last
    have member : (key,value) ∈ ruleMembers := by
      rw [← List.mem_reverse,split]
      exact List.mem_append_right _ List.mem_cons_self
    simp only [ruleMembers,List.mem_cons,List.not_mem_nil,or_false,Prod.mk.injEq] at member
    rcases member with ⟨rfl,rfl⟩ | ⟨rfl,_⟩ | ⟨rfl,_⟩ | ⟨rfl,rfl⟩ | ⟨rfl,rfl⟩ | ⟨rfl,_⟩
    · exact .inl (by decide)
    · exact absurd rfl motto
    · exact absurd rfl rules
    · exact .inr ⟨nofun,nofun⟩
    · refine .inr ⟨nofun,fun list same => ?_⟩
      have read := strings_read list
      rw [← Value.array.inj same] at read
      cases read
    · exact absurd rfl motto

theorem lists_survive_rules : Storable ruleLists ∧ WritesTable ruleLists ruleMembers ∧
    Text.decodeUtf8 ruleFile.toUTF8 = some ruleFile ∧ Value.parse ruleFile = .ok (.object ruleMembers) ∧
    ∃ loaded, loadFile .json .empty ⟨⟨"en"⟩,"en.json",.file ruleFile.toUTF8⟩ = .ok loaded ∧
      ∀ store : Store, store.catalog = loaded →
        store.lookupList "rules" ⟨"en"⟩ = ["","a",""] ∧ store.lookupList "motto" ⟨"en"⟩ = ["b"] ∧
        store.lookup "mixed" ⟨"en"⟩ = none ∧ store.lookup "@authors" ⟨"en"⟩ = none := by
  have decoded : Text.decodeUtf8 ruleFile.toUTF8 = some ruleFile := rfl
  have parsed : Value.parse ruleFile = .ok (.object ruleMembers) := rfl
  obtain ⟨loaded,read,kept⟩ :=
    lists_survive ruleLists_storable ruleMembers_written decoded parsed .empty ⟨"en"⟩ "en.json"
  refine ⟨ruleLists_storable,ruleMembers_written,decoded,parsed,loaded,read,fun store same => ⟨?_,?_,?_,?_⟩⟩
  · exact (kept store same "rules").1 _ (ruleLists_found "rules")
  · exact (kept store same "motto").1 _ (ruleLists_found "motto")
  · exact (kept store same "mixed").2 (ruleLists_found "mixed")
  · exact (kept store same "@authors").2 (ruleLists_found "@authors")

end Phrasebook.Storage
