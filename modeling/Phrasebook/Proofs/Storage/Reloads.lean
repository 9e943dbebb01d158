import Phrasebook.Proofs.Storage.Loading
import Phrasebook.Storage.Store
namespace Phrasebook.Storage

-- A store over a directory that changes between its reloads. Whatever happens, it
-- holds the directory as it was at the last reload that went well.

-- What the system finds at each path, absolute or not.
abbrev Files := String → Place

inductive Step where
  | change (files : Files)
  | reload

structure Session where
  files : Files
  store : Store
  -- The reloads so far, the latest first: the files at the time and the answer.
  reloads : List (Files × Except Fault Unit)

namespace Session

def start (format : Format) (path : String) (files : Files) : Session :=
  ⟨files,Store.ofSource (.directory format path),[]⟩

def after (session : Session) : Step → Session
  | .change files => { session with files }
  | .reload =>
    let (answer,store) := session.store.reload session.files
    { session with store, reloads := (session.files,answer) :: session.reloads }

def run (format : Format) (path : String) (files : Files) (steps : List Step) : Session :=
  steps.foldl after (start format path files)

end Session

-- No two files of the format are of one locale.
def Apart (format : Format) : Place → Prop
  | .directory entries => entries.Pairwise fun one two => ∀ stem stem',
      Names format one.1 stem → Names format two.1 stem' → Locale.ofString stem ≠ Locale.ofString stem'
  | _ => True

def localeOf? (format : Format) (name : List UInt8) : Option Locale :=
  (cutName name).bind fun cut =>
    if Text.ofUtf8? cut.2 = some format.extension then (Text.ofUtf8? cut.1).map Locale.ofString else none

theorem localeOf?_iff {format : Format} :
    localeOf? format name = some locale ↔ ∃ stem, Names format name stem ∧ Locale.ofString stem = locale := by
  simp only [← cutName_names,localeOf?,Option.bind_eq_some_iff,Prod.exists,Option.ite_none_right_eq_some,
    Option.map_eq_some_iff,Text.ofUtf8?_iff]
  constructor
  · rintro ⟨_,_,cut,rfl,stem,rfl,same⟩
    exact ⟨stem,cut,same⟩
  · rintro ⟨stem,cut,same⟩
    exact ⟨_,_,cut,rfl,stem,rfl,same⟩

theorem apart_iff : Apart format (.directory entries) ↔
    (entries.filterMap fun entry => localeOf? format entry.1).Nodup := by
  simp only [Apart,List.Nodup,List.pairwise_filterMap,localeOf?_iff]
  apply List.Pairwise.iff
  intro one two
  constructor
  · rintro differ _ ⟨stem,named,rfl⟩ _ ⟨stem',named',rfl⟩
    exact differ stem stem' named named'
  · intro differ stem stem' named named'
    exact differ _ ⟨stem,named,rfl⟩ _ ⟨stem',named',rfl⟩

instance : Decidable (Apart format place) :=
  match place with
  | .directory _ => decidable_of_iff _ apart_iff.symm
  | .file _ | .refused _ | .lost _ | .unlisted _ _ _ => isTrue trivial

theorem apart_agree (apart : Apart format (.directory entries)) : Agree format entries := by
  have ordered := List.pairwise_iff_getElem.mp apart
  intro one here two there stem stem' messages messages' named named' same read read'
  obtain ⟨i,inside,rfl⟩ := List.getElem_of_mem here
  obtain ⟨j,inside',rfl⟩ := List.getElem_of_mem there
  rcases Nat.lt_trichotomy i j with less | rfl | more
  · exact absurd same (ordered i j inside inside' less stem stem' named named')
  · exact reads_unique read read'
  · exact absurd same.symm (ordered j i inside' inside more stem' stem named' named)

structure Faithful (format : Format) (path : String) (session : Session) : Prop where
  source : session.store.source = .directory format path
  answers : ∀ reload ∈ session.reloads, reload.2 = .ok () ↔ Loadable format path (reload.1 path)
  last : match session.reloads.find? (·.2.isOk) with
    | none => session.store.catalog = Catalog.empty
    | some (files,_) => load format path (files path) = .ok session.store.catalog

theorem start_faithful (format : Format) (path : String) (files : Files) :
    Faithful format path (.start format path files) := ⟨rfl,nofun,rfl⟩

theorem reload_faithful (faithful : Faithful format path session) :
    Faithful format path (session.after .reload) := by
  have attempted : session.store.attempt session.files = load format path (session.files path) := by
    rw [Store.attempt,faithful.source]
  have succeeds := load_succeeds format path (session.files path)
  simp only [Session.after,Store.reload,attempted]
  cases loaded : load format path (session.files path) with
  | ok catalog =>
    refine ⟨faithful.source,List.forall_mem_cons.mpr ⟨?_,faithful.answers⟩,loaded⟩
    exact ⟨fun _ => succeeds.mp ⟨catalog,loaded⟩,fun _ => rfl⟩
  | error fault =>
    refine ⟨faithful.source,List.forall_mem_cons.mpr ⟨?_,faithful.answers⟩,faithful.last⟩
    refine ⟨nofun,fun loadable => ?_⟩
    obtain ⟨catalog,other⟩ := succeeds.mpr loadable
    cases loaded.symm.trans other

theorem after_faithful (faithful : Faithful format path session) (step : Step) :
    Faithful format path (session.after step) := by
  cases step with
  | change files => exact ⟨faithful.source,faithful.answers,faithful.last⟩
  | reload => exact reload_faithful faithful

theorem run_faithful (faithful : Faithful format path session) (steps : List Step) :
    Faithful format path (steps.foldl Session.after session) := by
  induction steps generalizing session with
  | nil => exact faithful
  | cons step steps ih => exact ih (after_faithful faithful step)

theorem reloads_kept (session : Session) (steps : List Step) :
    session.reloads <:+ (steps.foldl Session.after session).reloads := by
  induction steps generalizing session with
  | nil => exact List.suffix_refl _
  | cons step steps ih =>
    have grown : session.reloads <:+ (session.after step).reloads := by
      cases step with
      | change files => exact List.suffix_refl _
      | reload => exact List.suffix_cons _ _
    exact grown.trans (ih (session.after step))

-- After any part of a run, where files of one locale never meet at a reload:
-- each reload so far went well exactly when its directory could be loaded, and
-- the store holds what was there at the last one that did.
theorem reloads_keep_last (format : Format) (path : String) (files : Files) (steps : List Step)
    (apart : ∀ reload ∈ (Session.run format path files steps).reloads, Apart format (reload.1 path))
    (before : List Step) (part : before <+: steps) :
    let session := Session.run format path files before
    (∀ reload ∈ session.reloads, reload.2 = .ok () ↔ Loadable format path (reload.1 path)) ∧
    match session.reloads.find? (·.2.isOk) with
    | none => session.store.catalog = Catalog.empty
    | some (files,_) => load format path (files path) = .ok session.store.catalog ∧
      ∃ entries, files path = .directory entries ∧
        Shows format entries session.store.catalog.locales session.store.lookup := by
  intro session
  have faithful : Faithful format path session := run_faithful (start_faithful format path files) before
  obtain ⟨after,rfl⟩ := part
  have kept : session.reloads <:+ (Session.run format path files (before ++ after)).reloads := by
    rw [Session.run,List.foldl_append]
    exact reloads_kept session after
  refine ⟨faithful.answers,?_⟩
  have last := faithful.last
  cases found : session.reloads.find? (·.2.isOk) with
  | none =>
    rw [found] at last
    exact last
  | some reload =>
    obtain ⟨there,answer⟩ := reload
    rw [found] at last
    have together : Apart format (there path) :=
      apart (there,answer) (kept.subset (List.mem_of_find?_eq_some found))
    have loaded : load format path (there path) = .ok session.store.catalog := last
    refine ⟨loaded,?_⟩
    obtain ⟨entries,listed⟩ := load_directory loaded
    rw [listed] at loaded together
    exact ⟨entries,listed,load_shows (apart_agree together) loaded⟩

def spokenFiles : FileTree :=
  (((FileTree.empty.put "lang/en-US.json" (.file "\x7b\"a\":\"1\"\x7d".toUTF8)).put "lang/notes.txt"
    (.file ByteArray.empty)).put "lang/fr.json" (.file "\x7b\x7d".toUTF8))

def cutFiles : FileTree :=
  (FileTree.empty.put "lang/en-US.json" (.file "\x7b\"a\":\"2\"\x7d".toUTF8)).put "lang/de.json"
    (.file "\x7b".toUTF8)

def cutReload : List Step := [.reload,.change cutFiles.look,.reload]

theorem cutReload_apart : ∀ reload ∈ (Session.run .json "lang" spokenFiles.look cutReload).reloads,
    Apart .json (reload.1 "lang") := by
  have files : (Session.run .json "lang" spokenFiles.look cutReload).reloads.map (·.1) =
      [cutFiles.look,spokenFiles.look] := rfl
  have each : ∀ there ∈ [cutFiles.look,spokenFiles.look], Apart .json (there "lang") := by decide
  intro reload member
  apply each
  rw [← files]
  exact List.mem_map_of_mem member

theorem reloads_keep_last_cut :
    let session := Session.run .json "lang" spokenFiles.look cutReload
    session.reloads.map (·.2.isOk) = [false,true] ∧
    session.store.catalog.locales = [⟨"en_us"⟩,⟨"fr"⟩] ∧ session.store.lookup "a" ⟨"en_us"⟩ = some "1" ∧
    (∀ reload ∈ session.reloads, reload.2 = .ok () ↔ Loadable .json "lang" (reload.1 "lang")) ∧
    match session.reloads.find? (·.2.isOk) with
    | none => session.store.catalog = Catalog.empty
    | some (files,_) => load .json "lang" (files "lang") = .ok session.store.catalog ∧
      ∃ entries, files "lang" = .directory entries ∧
        Shows .json entries session.store.catalog.locales session.store.lookup :=
  ⟨by decide +kernel,by decide +kernel,by decide +kernel,
    reloads_keep_last .json "lang" spokenFiles.look cutReload cutReload_apart cutReload (List.prefix_refl _)⟩

-- A directory that is there with files that could all be loaded. How the system
-- answers for it is left out, and so is whether its names are text.
def Intact (format : Format) (path : String) (files : FileTree) : Prop :=
  ∃ entries, (FileTree.walk [] files (FileTree.steps path)).entries? = some entries ∧
    ∀ entry ∈ entries, ∀ stem, stem ≠ [] → entry.1 = stem ++ dot :: Text.utf8 format.extension →
      Visible (Text.showUtf8 stem) ∧ ∃ messages, Reads format entry.2 messages

theorem intact_single (there : (FileTree.walk [] files (FileTree.steps path)).entries? = some [(name,tree)])
    (cut : cutName name = some (stem,Text.utf8 format.extension)) (visible : Visible (Text.showUtf8 stem))
    (read : Reads format tree messages) : Intact format path files := by
  refine ⟨_,there,?_⟩
  intro entry listed other filled whole
  obtain rfl := List.mem_singleton.mp listed
  rw [cutName_marked.mpr ⟨filled,whole⟩] at cut
  cases cut
  exact ⟨visible,messages,read⟩

-- The same path written so long that the system does not follow it.
def dotted (path : String) : Nat → String
  | 0 => path
  | count + 1 => "./" ++ dotted path count

theorem dotted_size (path : String) (count : Nat) :
    (dotted path count).utf8ByteSize = 2 * count + path.utf8ByteSize := by
  have front : "./".utf8ByteSize = 2 := rfl
  induction count with
  | zero => simp [dotted]
  | succ count ih =>
    rw [dotted,String.utf8ByteSize_append,ih,front]
    omega

theorem walk_dotted (inside : tree.entries? = some entries) (path : String) (count : Nat) :
    FileTree.walk [] tree (FileTree.steps (dotted path count)) = FileTree.walk [] tree (FileTree.steps path) := by
  induction count with
  | zero => rfl
  | succ count ih =>
    have front : FileTree.steps ("./" ++ dotted path count) = "." :: FileTree.steps (dotted path count) := by
      rw [FileTree.steps,String.toList_append]
      rfl
    rw [dotted,front,FileTree.walk,inside]
    exact ih

theorem look_long (tree : FileTree) (long : FileTree.longestPath < String.utf8ByteSize path) :
    ∃ reason, tree.look path = .lost reason := by
  rw [FileTree.look,FileTree.reached,if_pos long]
  split
  · exact ⟨.absent,rfl⟩
  · exact ⟨.tooLong,rfl⟩

theorem reload_lost (format : Format) {files : Files} (lost : files path = .lost reason) :
    (Session.run format path files [.reload]).reloads.map (·.2) = [.error (.missingDirectory path)] := by
  simp only [Session.run,Session.start,Session.after,Store.reload,Store.attempt,Store.ofSource,List.foldl_cons,
    List.foldl_nil,lost,load,List.map_cons,List.map_nil]

-- A directory that may not be listed, a name that is no text, and a plain one.
def greeting : FileTree := .file "\x7b\"a\":\"1\"\x7d".toUTF8

def denied : ReadFault := .system "Permission denied (os error 13)"

def closedFiles : FileTree :=
  .directory [(Text.utf8 "lang",.unlisted [(Text.utf8 "en.json",greeting)] 0 denied)]

def strangeFiles : FileTree := .directory [(Text.utf8 "lang",.directory [(0xFF :: Text.utf8 ".json",greeting)])]

def plainFiles : FileTree := FileTree.empty.put "lang/en.json" greeting

theorem greeting_read : Reads .json greeting {("a","1")} := (readMessages_iff "").mp (by decide +kernel)

-- Files that could all be loaded are not enough.
theorem reloads_refused :
    (Intact .json "lang" closedFiles ∧ Apart .json (closedFiles.look "lang") ∧
      (Session.run .json "lang" closedFiles.look [.reload]).reloads.map (·.2) = [.error (.unreadable "lang" denied)]) ∧
    (Intact .json "lang" strangeFiles ∧ Apart .json (strangeFiles.look "lang") ∧
      (Session.run .json "lang" strangeFiles.look [.reload]).reloads.map (·.2) =
        [.error (.invalidFileName "lang/\uFFFD.json")]) ∧
    Intact .json (dotted "lang" 2100) plainFiles ∧ Apart .json (plainFiles.look (dotted "lang" 2100)) ∧
      (Session.run .json (dotted "lang" 2100) plainFiles.look [.reload]).reloads.map (·.2) =
        [.error (.missingDirectory (dotted "lang" 2100))] := by
  have text : Visible (Text.showUtf8 (Text.utf8 "en")) := ⟨'e',by decide +kernel,by decide⟩
  have other : Visible (Text.showUtf8 [0xFF]) := ⟨'\uFFFD',by decide +kernel,by decide⟩
  have long : FileTree.longestPath < (dotted "lang" 2100).utf8ByteSize := by
    rw [dotted_size]
    decide
  obtain ⟨reason,lost⟩ := look_long plainFiles long
  have there : (FileTree.walk [] plainFiles (FileTree.steps (dotted "lang" 2100))).entries? = _ :=
    congrArg FileTree.entries? (walk_dotted rfl "lang" 2100)
  refine ⟨⟨?_,?_,?_⟩,⟨?_,?_,?_⟩,?_,?_,reload_lost .json lost⟩
  · exact intact_single rfl (by decide +kernel) text greeting_read
  · decide +kernel
  · decide +kernel
  · exact intact_single rfl (by decide +kernel) other greeting_read
  · decide +kernel
  · decide +kernel
  · exact intact_single there (by decide +kernel) text greeting_read
  · rw [lost]
    trivial

end Phrasebook.Storage
