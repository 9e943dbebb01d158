import Mathlib.Algebra.GroupWithZero.Nat
import Mathlib.Data.List.Dedup
import Phrasebook.Proofs.Tags.Operations
import Phrasebook.Proofs.Template.TagGrammar
namespace Phrasebook.Tags
open Template

-- What a builder registers in the end: every name once, where it was registered last,
-- and the first problem for good.

def Entry.name? : Entry → Option String
  | .named name _ => some name
  | _ => none

def Registry.resolvers (registry : Registry) : Nat :=
  registry.entries.countP fun entry => entry.name?.isNone

theorem names_cons (entry : Entry) (older : List Entry) :
    (Registry.mk (entry :: older)).names = (Registry.mk older).names ++ entry.name?.toList := by
  rw [Registry.names,Registry.names,List.reverse_cons,List.filterMap_append]
  cases entry <;> rfl

theorem resolvers_cons (entry : Entry) (older : List Entry) :
    (Registry.mk (entry :: older)).resolvers =
      (Registry.mk older).resolvers + if entry.name?.isNone then 1 else 0 :=
  List.countP_cons

theorem size_counted (entries : List Entry) :
    (Registry.mk entries).size = (Registry.mk entries).names.length + (Registry.mk entries).resolvers := by
  induction entries with
  | nil => rfl
  | cons entry older ih =>
    have longer : (Registry.mk (entry :: older)).size = (Registry.mk older).size + 1 := rfl
    rw [longer,names_cons,resolvers_cons,List.length_append,ih]
    cases entry.name? <;> simp <;> omega

theorem isNamed_iff (entry : Entry) : entry.isNamed own = true ↔ entry.name? = some own := by
  cases entry <;> simp [Entry.isNamed,Entry.name?]

theorem names_withoutNamed (own : String) (entries : List Entry) :
    (Registry.mk (withoutNamed own entries)).names =
      (Registry.mk entries).names.filter fun name => name ≠ own := by
  induction entries with
  | nil => rfl
  | cons entry older ih =>
    rw [withoutNamed_cons,names_cons,List.filter_append]
    by_cases named : entry.isNamed own = true
    · rw [if_pos named,ih,(isNamed_iff entry).mp named]
      simp
    · have kept : entry.name?.toList.filter (fun name => name ≠ own) = entry.name?.toList := by
        apply List.filter_eq_self.mpr
        intro name member
        have other : name ≠ own := by
          rintro rfl
          exact named ((isNamed_iff entry).mpr (Option.mem_toList.mp member))
        exact decide_eq_true other
      rw [if_neg named,names_cons,ih,kept]

theorem resolvers_withoutNamed (own : String) (entries : List Entry) :
    (Registry.mk (withoutNamed own entries)).resolvers = (Registry.mk entries).resolvers := by
  induction entries with
  | nil => rfl
  | cons entry older ih =>
    rw [withoutNamed_cons,resolvers_cons]
    by_cases named : entry.isNamed own = true
    · rw [if_pos named,ih,(isNamed_iff entry).mp named]
      rfl
    · rw [if_neg named,resolvers_cons,ih]

theorem dedup_snoc (names : List String) (last : String) :
    (names ++ [last]).dedup = (names.dedup.filter fun name => name ≠ last) ++ [last] := by
  induction names with
  | nil => rfl
  | cons first rest ih =>
    rw [List.cons_append]
    by_cases same : first = last
    · subst same
      rw [List.dedup_cons_of_mem (by simp),ih]
      by_cases again : first ∈ rest
      · rw [List.dedup_cons_of_mem again]
      · rw [List.dedup_cons_of_notMem again]
        simp
    · by_cases again : first ∈ rest
      · rw [List.dedup_cons_of_mem again,List.dedup_cons_of_mem (List.mem_append_left _ again),ih]
      · have fresh : first ∉ rest ++ [last] := by simp [again,same]
        rw [List.dedup_cons_of_notMem again,List.dedup_cons_of_notMem fresh,ih,
          List.filter_cons_of_pos (by simpa using same),List.cons_append]

theorem names_add (entry : Entry) (listed : (Registry.mk entries).names = names.dedup) :
    (Registry.mk (add entry entries)).names = (names ++ entry.name?.toList).dedup := by
  cases entry with
  | named own definition =>
    rw [add,names_cons,names_withoutNamed,listed]
    exact (dedup_snoc names own).symm
  | nested inner => simp [add,names_cons,Entry.name?,listed]
  | custom resolver => simp [add,names_cons,Entry.name?,listed]

theorem resolvers_add (entry : Entry) (entries : List Entry) :
    (Registry.mk (add entry entries)).resolvers =
      (Registry.mk entries).resolvers + if entry.name?.isNone then 1 else 0 := by
  cases entry with
  | named own definition => rw [add,resolvers_cons,resolvers_withoutNamed]
  | nested inner => exact resolvers_cons (.nested inner) entries
  | custom resolver => exact resolvers_cons (.custom resolver) entries

theorem names_merged (newer : List Entry) (listed : (Registry.mk entries).names = names.dedup) :
    (Registry.mk (newer.foldr add entries)).names = (names ++ (Registry.mk newer).names).dedup := by
  induction newer with
  | nil =>
    have nothing : (Registry.mk []).names = [] := rfl
    rw [nothing,List.append_nil]
    exact listed
  | cons entry rest ih =>
    rw [List.foldr_cons,names_add entry ih,names_cons,List.append_assoc]

theorem resolvers_merged (newer entries : List Entry) :
    (Registry.mk (newer.foldr add entries)).resolvers =
      (Registry.mk entries).resolvers + (Registry.mk newer).resolvers := by
  induction newer with
  | nil => rfl
  | cons entry rest ih => rw [List.foldr_cons,resolvers_add,ih,resolvers_cons,Nat.add_assoc]

namespace Operation

def names : Operation → List String
  | .give name _ => [name]
  | .phraseTag _ => [phraseName]
  | .merge registry => registry.names
  | _ => []

def resolvers : Operation → Nat
  | .custom _ => 1
  | .nest _ => 1
  | .merge registry => registry.resolvers
  | _ => 0

def registries : Operation → List Registry
  | .nest registry => [registry]
  | .merge registry => [registry]
  | _ => []

inductive Faulty (phrases : Option PhraseSource) : Operation → BuildFault → Prop where
  | misnamed (unmatched : ¬NamePattern name.toList) : Faulty phrases (.give name meaning) (.invalidTagName name)
  | unavailable (without : phrases = none) : Faulty phrases (.phraseTag locale) .phraseTagUnavailable

def Sound (phrases : Option PhraseSource) (operation : Operation) : Prop :=
  ∀ fault, ¬operation.Faulty phrases fault

end Operation

inductive Built : Registry → Prop where
  | build (parts : ∀ operation ∈ operations, ∀ registry ∈ operation.registries, Built registry)
      (done : ((Builder.start phrases).performAll operations).build = .ok registry) : Built registry

structure Registered (phrases : Option PhraseSource) (operations : List Operation) (builder : Builder) :
    Prop where
  phrases : builder.phrases = phrases
  fault : builder.fault = none
  names : (Registry.mk builder.entries).names = (operations.flatMap Operation.names).dedup
  resolvers : (Registry.mk builder.entries).resolvers = (operations.map Operation.resolvers).sum

namespace Registered
variable {phrases : Option PhraseSource} {operations : List Operation} {builder : Builder}

theorem extend (registered : Registered phrases operations builder) {operation : Operation} {entries : List Entry}
    (names : (Registry.mk entries).names = (operations.flatMap Operation.names ++ operation.names).dedup)
    (resolvers : (Registry.mk entries).resolvers = (Registry.mk builder.entries).resolvers + operation.resolvers) :
    Registered phrases (operations ++ [operation]) { builder with entries } := by
  refine ⟨registered.phrases,registered.fault,?_,?_⟩
  · rw [names,List.flatMap_append,List.flatMap_singleton]
  · rw [resolvers,registered.resolvers,List.map_append,List.sum_append]
    simp

theorem defines (registered : Registered phrases operations builder) (matched : NamePattern name.toList)
    (definition : Definition) {operation : Operation} (names : operation.names = [name])
    (resolvers : operation.resolvers = 0) :
    Registered phrases (operations ++ [operation]) (builder.define name definition) := by
  rw [Builder.define,if_pos (isTagName_iff.mpr matched)]
  apply registered.extend
  · rw [names]
    exact names_add (.named name definition) registered.names
  · rw [resolvers]
    exact resolvers_add (.named name definition) builder.entries

theorem performs (registered : Registered phrases operations builder) {operation : Operation}
    (sound : operation.Sound phrases) :
    Registered phrases (operations ++ [operation]) (builder.perform operation) := by
  cases operation with
  | give name meaning =>
    have matched : NamePattern name.toList := by
      by_contra unmatched
      exact sound _ (.misnamed unmatched)
    rw [Builder.perform,give_defines]
    exact registered.defines matched _ rfl rfl
  | phraseTag locale =>
    rw [Builder.perform,Builder.withPhraseTag,registered.phrases]
    cases phrases with
    | none => exact absurd (.unavailable rfl) (sound .phraseTagUnavailable)
    | some source =>
      have matched : NamePattern phraseName.toList := isTagName_iff.mp (by decide)
      exact registered.defines matched _ rfl rfl
  | custom resolver =>
    exact registered.extend (names_add (.custom resolver) registered.names) (resolvers_cons (.custom resolver) _)
  | nest registry =>
    exact registered.extend (names_add (.nested registry.entries) registered.names)
      (resolvers_cons (.nested registry.entries) _)
  | merge registry =>
    exact registered.extend (names_merged registry.entries registered.names) (resolvers_merged _ _)

theorem performs_all (registered : Registered phrases operations builder) {later : List Operation}
    (sound : ∀ operation ∈ later, operation.Sound phrases) :
    Registered phrases (operations ++ later) (builder.performAll later) := by
  induction later generalizing operations builder with
  | nil =>
    rw [List.append_nil]
    exact registered
  | cons operation later ih =>
    obtain ⟨first,rest⟩ := List.forall_mem_cons.mp sound
    rw [List.append_cons]
    exact ih (registered.performs first) rest

theorem started (phrases : Option PhraseSource) : Registered phrases [] (.start phrases) :=
  ⟨rfl,rfl,rfl,rfl⟩

theorem fails (registered : Registered phrases operations builder) {operation : Operation} {fault : BuildFault}
    (faulty : operation.Faulty phrases fault) : (builder.perform operation).fault = some fault := by
  cases faulty with
  | misnamed unmatched =>
    have refused : ¬isTagName _ = true := fun accepted => unmatched (isTagName_iff.mp accepted)
    rw [Builder.perform,give_defines,Builder.define,if_neg refused,Builder.blame,registered.fault]
    rfl
  | unavailable without =>
    rw [Builder.perform,Builder.withPhraseTag,registered.phrases,without]
    simp only [Builder.blame,registered.fault,Option.getD_none]

end Registered

theorem run_registered {phrases : Option PhraseSource} {operations : List Operation}
    (sound : ∀ operation ∈ operations, operation.Sound phrases) :
    Registered phrases operations ((Builder.start phrases).performAll operations) :=
  (Registered.started phrases).performs_all sound

theorem define_keeps {builder : Builder} (failed : builder.fault = some fault) (name : String)
    (definition : Definition) : (builder.define name definition).fault = some fault := by
  unfold Builder.define
  split
  · exact failed
  · rw [Builder.blame,failed,Option.getD_some]

theorem perform_keeps {builder : Builder} (failed : builder.fault = some fault) (operation : Operation) :
    (builder.perform operation).fault = some fault := by
  cases operation with
  | give name meaning =>
    rw [Builder.perform,give_defines]
    exact define_keeps failed name _
  | phraseTag locale =>
    rw [Builder.perform,Builder.withPhraseTag]
    split
    · exact define_keeps failed phraseName _
    · rw [Builder.blame,failed,Option.getD_some]
  | custom resolver => exact failed
  | nest registry => exact failed
  | merge registry => exact failed

theorem performAll_keeps {builder : Builder} (failed : builder.fault = some fault) (operations : List Operation) :
    (builder.performAll operations).fault = some fault := by
  induction operations generalizing builder with
  | nil => exact failed
  | cons operation later ih => exact ih (perform_keeps failed operation)

theorem names_matched {operation : Operation} (sound : operation.Sound phrases)
    (parts : ∀ registry ∈ operation.registries, ∀ name ∈ registry.names, NamePattern name.toList) :
    ∀ name ∈ operation.names, NamePattern name.toList := by
  cases operation with
  | give name meaning =>
    intro listed member
    obtain rfl := List.mem_singleton.mp member
    by_contra unmatched
    exact sound _ (.misnamed unmatched)
  | phraseTag locale =>
    intro listed member
    obtain rfl := List.mem_singleton.mp member
    exact isTagName_iff.mp (by decide)
  | custom resolver => exact nofun
  | nest registry => exact nofun
  | merge registry => exact parts registry (List.mem_singleton_self registry)

theorem first_faulty (phrases : Option PhraseSource) (operations : List Operation) :
    (∀ operation ∈ operations, operation.Sound phrases) ∨
      ∃ earlier operation later fault, operations = earlier ++ operation :: later ∧
        (∀ before ∈ earlier, before.Sound phrases) ∧ operation.Faulty phrases fault := by
  induction operations with
  | nil => exact .inl (List.forall_mem_nil _)
  | cons first rest ih =>
    by_cases sound : first.Sound phrases
    · obtain all | ⟨earlier,operation,later,fault,split,clean,faulty⟩ := ih
      · exact .inl (List.forall_mem_cons.mpr ⟨sound,all⟩)
      · exact .inr ⟨first :: earlier,operation,later,fault,congrArg (first :: ·) split,
          List.forall_mem_cons.mpr ⟨sound,clean⟩,faulty⟩
    · obtain ⟨fault,faulty⟩ := not_forall_not.mp sound
      exact .inr ⟨[],first,rest,fault,rfl,List.forall_mem_nil _,faulty⟩

theorem build_refused {builder : Builder} (failed : builder.fault = some fault) : builder.build = .error fault := by
  rw [Builder.build,failed]

theorem build_fails (sound : ∀ before ∈ earlier, before.Sound phrases) {operation : Operation}
    (faulty : operation.Faulty phrases fault) (later : List Operation) :
    ((Builder.start phrases).performAll (earlier ++ operation :: later)).build = .error fault := by
  rw [Builder.performAll_append]
  exact build_refused (performAll_keeps ((run_registered sound).fails faulty) later)

theorem built_sound (done : ((Builder.start phrases).performAll operations).build = .ok registry) :
    ∀ operation ∈ operations, operation.Sound phrases := by
  obtain sound | ⟨earlier,operation,later,fault,rfl,clean,faulty⟩ := first_faulty phrases operations
  · exact sound
  · rw [build_fails clean faulty later] at done
    cases done

theorem built_matched (built : Built registry) : ∀ name ∈ registry.names, NamePattern name.toList := by
  induction built with
  | @build operations phrases registry parts done ih =>
    have sound := built_sound done
    obtain ⟨_,rfl⟩ := build_parts done
    intro name member
    rw [(run_registered sound).names,List.mem_dedup] at member
    obtain ⟨operation,present,inside⟩ := List.mem_flatMap.mp member
    exact names_matched (sound operation present) (ih operation present) name inside

-- Either an operation is faulty, and then the first such one decides, whatever comes
-- behind it; or every name stands where it was registered last.
theorem build_registers (phrases : Option PhraseSource) (operations : List Operation)
    (parts : ∀ operation ∈ operations, ∀ registry ∈ operation.registries, Built registry) :
    let built := ((Builder.start phrases).performAll operations).build
    (∃ earlier operation later fault, operations = earlier ++ operation :: later ∧
        (∀ before ∈ earlier, before.Sound phrases) ∧ operation.Faulty phrases fault ∧ built = .error fault) ∨
      (∀ operation ∈ operations, operation.Sound phrases) ∧ ∃ registry, built = .ok registry ∧
        registry.names.Nodup ∧ registry.names = (operations.flatMap Operation.names).dedup ∧
        (∀ name ∈ registry.names, NamePattern name.toList) ∧
        registry.size = registry.names.length + (operations.map Operation.resolvers).sum := by
  intro built
  obtain sound | ⟨earlier,operation,later,fault,split,clean,faulty⟩ := first_faulty phrases operations
  · have registered := run_registered sound
    have done : built = .ok ⟨((Builder.start phrases).performAll operations).entries⟩ := by
      simp only [built,Builder.build,registered.fault]
    refine .inr ⟨sound,_,done,?_,registered.names,built_matched (.build parts done),?_⟩
    · rw [registered.names]
      exact List.nodup_dedup _
    · rw [size_counted,registered.resolvers]
  · refine .inl ⟨earlier,operation,later,fault,split,clean,faulty,?_⟩
    simp only [built,split]
    exact build_fails clean faulty later

theorem build_registers_moved :
    let greedy : Resolver := ⟨fun _ => true,fun _ arguments _ => ⟨[],.ok none,arguments⟩⟩
    let inner : Registry := ⟨[.named "!b" (.fixed (.text "2")),.custom greedy,.named "a" (.fixed (.text "1"))]⟩
    let operations : List Operation :=
      [.give "!b" (.unparsed "0"),.give "c" (.unparsed "3"),.merge inner,.nest inner]
    Built inner ∧
      (∃ registry, ((Builder.start none).performAll operations).build = .ok registry ∧
        registry.names = ["c","a","!b"] ∧ registry.size = 5) ∧
      ((Builder.start none).performAll (operations ++ [.phraseTag none,.give "No" (.unparsed "4")])).build =
        .error .phraseTagUnavailable := by
  intro greedy inner operations
  have made : ((Builder.start none).performAll
      [.give "a" (.unparsed "1"),.custom greedy,.give "!b" (.unparsed "2")]).build = .ok inner := rfl
  have built : Built inner := .build (by simp [Operation.registries]) made
  have parts : ∀ operation ∈ operations, ∀ registry ∈ operation.registries, Built registry := by
    simp [operations,Operation.registries,built]
  have done : ((Builder.start none).performAll operations).build = .ok ⟨[.nested inner.entries,
      .named "!b" (.fixed (.text "2")),.custom greedy,.named "a" (.fixed (.text "1")),
      .named "c" (.fixed (.text "3"))]⟩ := rfl
  refine ⟨built,?_,rfl⟩
  obtain ⟨_,_,_,_,_,_,_,failed⟩ | ⟨_,registry,same,_,names,_,size⟩ := build_registers none operations parts
  · rw [done] at failed
    cases failed
  · have listed : registry.names = ["c","a","!b"] := names.trans (by decide)
    refine ⟨registry,same,listed,?_⟩
    rw [size,listed]
    rfl

end Phrasebook.Tags
