import Phrasebook.Proofs.Template.GuardedTokens
import Phrasebook.Proofs.Template.Stack
import Phrasebook.Proofs.Traced
namespace Phrasebook.Template
open RichText

-- Reading as a program does it that only looks at the spans it has. A span is taken for
-- granted nowhere, the root is looked for before every token and after every span that
-- is closed, and the depth is a machine word. No check fails, and what is read is the same.

def rooted : List Span → Bool
  | [] => false
  | [outermost] => outermost.name.isNone
  | span :: outer => span.name.isSome && rooted outer

def check (spans : List Span) : Except Breach (List Span) :=
  if rooted spans then .ok spans else .error .unrooted

def appendGuarded (nodes : List Node) : List Span → Except Breach (List Span)
  | [] => .error .spanless
  | top :: outer => .ok ({ top with children := top.children ++ nodes } :: outer)

def foldGuarded : List Span → Except Breach (List Span)
  | [] => .ok []
  | top :: outer => do check (← appendGuarded [top.node] outer)

theorem check_ok (checked : check spans = .ok same) : same = spans := by
  unfold check at checked
  split at checked <;> cases checked
  rfl

theorem append_length (appended : appendGuarded nodes spans = .ok filled) : filled.length = spans.length := by
  cases spans <;> cases appended
  rfl

theorem fold_shorter (folded : foldGuarded (top :: outer) = .ok spans) : spans.length = outer.length := by
  obtain ⟨filled,appended,checked⟩ := Outcome.bind_ok_iff.mp folded
  rw [check_ok checked,append_length appended]

def foldTo (height : Nat) (spans : List Span) : Except Breach (List Span) :=
  if height < spans.length then
    match _folded : foldGuarded spans with
    | .ok outer => foldTo height outer
    | .error breach => .error breach
  else .ok spans
termination_by spans.length
decreasing_by
  cases spans with
  | nil => simp at *
  | cons top outer =>
    rw [fold_shorter _folded]
    exact Nat.lt_succ_self _

def placeOf (name : String) (spans : List Span) : Option Nat :=
  (spans.findIdx? fun span => span.name == some name).map fun inside => spans.length - 1 - inside

def closeGuarded (site : Site) (spans : List Span) : Except Breach (List Span) :=
  match placeOf (canonicalName site.name) spans with
  | none => appendGuarded [.text site.source] spans
  | some place =>
    if 0 < place then foldTo place spans
    else appendGuarded [.text site.source] spans

def finishGuarded (spans : List Span) : Except Breach (List Node) := do
  match ← foldTo 1 (← check spans) with
  | [] => return []
  | outermost :: _ => return outermost.children

def unclaimedGuarded (site : Site) (arguments : List String) (spans : List Span) : Except Breach (List Span) :=
  if site.name = "reset" then foldTo 1 spans
  else match builtinStyle site.name arguments with
    | some style => .ok (⟨some (canonicalName site.name),style,[]⟩ :: spans)
    | none => appendGuarded [.text site.source] spans

-- A reading ends early when it is refused, which is its right, or when a check fails.
inductive Stop where
  | refused (failure : Failure)
  | breached (breach : Breach)

def held (outcome : Except Breach α) : Traced Stop α := .ofExcept (outcome.mapError .breached)

def tagGuarded (insertion : Site → String → Traced Stop (List Node)) (site : Site) (spans : List Span) :
    Tag → Traced Stop (List Span)
  | .insert node => held (appendGuarded [node] spans)
  | .markup text => do
    let nodes ← insertion site text
    held (appendGuarded nodes spans)
  | .span style => pure (⟨some (canonicalName site.name),style,[]⟩ :: spans)

def guardedStep (resolver : Resolver) (depth : Nat) (insertion : Site → String → Traced Stop (List Node))
    (spans : List Span) (token : Token) : Traced Stop (List Span) := do
  let spans ← held (check spans)
  match token with
  | .text content => held (appendGuarded [.text content] spans)
  | .opening site arguments => do
    match ← (resolver.request depth site arguments).mapError .refused with
    | some tag => tagGuarded insertion site spans tag
    | none => held (unclaimedGuarded site arguments spans)
  | .closing site => held (closeGuarded site spans)

-- One insertion deeper. The depth is a word of 64 bits and is counted up before it
-- is compared.
def deeper (limit depth : Nat) (insertion : String → Traced Stop (List Node)) (site : Site) (markup : String) :
    Traced Stop (List Node) :=
  if UInt64.size ≤ depth + 1 then .fail (.breached .overflow)
  else if limit < depth + 1 then .fail (.refused (.depthExceeded limit site))
  else insertion markup

def guardedNodes (resolver : Resolver) (limit depth : Nat) (template : String) : Traced Stop (List Node) :=
  if limit < depth then .fail (.breached .depth)
  else do
    let tokens ← held (guardedTokenize template)
    let insertion := deeper limit depth fun markup => guardedNodes resolver limit (depth + 1) markup
    let spans ← tokens.foldlM (guardedStep resolver depth insertion) [Span.root]
    held (finishGuarded spans)
termination_by limit + 1 - depth

def Engine.guardedParse (engine : Engine) (template : String) (resolver : Resolver) : Traced Stop Node := do
  let nodes ← guardedNodes resolver engine.maxDepth 0 template
  return (Node.styled .plain nodes).compact

-- What is kept from step to step: no check fails, the outcome is that of the unchecked
-- step, and the root is still at the bottom.
def Keeps (guarded : Except Breach (List Span)) (plain : List Span) : Prop :=
  guarded = .ok plain ∧ rooted plain = true

theorem rooted_filled (kept : rooted spans = true) : spans ≠ [] := by
  intro none
  simp [none,rooted] at kept

theorem rooted_push (kept : rooted spans = true) (named : span.name.isSome = true) : rooted (span :: spans) = true := by
  cases spans with
  | nil => cases kept
  | cons top outer => simp [rooted,named,kept]

theorem rooted_outer (kept : rooted (span :: top :: outer) = true) : rooted (top :: outer) = true := by
  simp [rooted] at kept
  exact kept.2

theorem append_keeps (kept : rooted spans = true) (nodes : List Node) :
    Keeps (appendGuarded nodes spans) (append nodes spans) := by
  cases spans with
  | nil => cases kept
  | cons top outer =>
    refine ⟨rfl,?_⟩
    cases outer with
    | nil => exact kept
    | cons next outer => exact kept

theorem fold_keeps (kept : rooted (span :: top :: outer) = true) :
    Keeps (foldGuarded (span :: top :: outer)) (foldTop (span :: top :: outer)) := by
  obtain ⟨appended,below⟩ := append_keeps (rooted_outer kept) [span.node]
  refine ⟨?_,below⟩
  simp only [foldGuarded,appended,bind,Except.bind]
  exact if_pos below

theorem taller_parts (taller : height < spans.length) (below : 0 < height) :
    ∃ span top outer, spans = span :: top :: outer := by
  match spans with
  | [] => simp at taller
  | [_] =>
    simp at taller
    omega
  | span :: top :: outer => exact ⟨span,top,outer,rfl⟩

theorem foldTo_keeps (kept : rooted spans = true) (below : 0 < height) :
    Keeps (foldTo height spans) (foldSpans (spans.length - height) spans) := by
  fun_induction foldTo height spans with
  | case1 spans taller outer folded ih =>
    obtain ⟨span,top,rest,rfl⟩ := taller_parts taller below
    obtain ⟨plain,stays⟩ := fold_keeps kept
    cases Except.ok.inj (folded.symm.trans plain)
    have fewer := fold_shorter folded
    have count : (span :: top :: rest).length - height = (foldTop (span :: top :: rest)).length - height + 1 := by
      simp at fewer taller ⊢
      omega
    rw [count]
    exact ih stays
  | case2 spans taller breach folded =>
    obtain ⟨span,top,rest,rfl⟩ := taller_parts taller below
    cases folded.symm.trans (fold_keeps kept).1
  | case3 spans short =>
    rw [Nat.sub_eq_zero_of_le (Nat.le_of_not_lt short)]
    exact ⟨rfl,kept⟩

theorem named_inside (kept : rooted spans = true)
    (found : (spans.findIdx? fun span => span.name == some name) = some inside) : inside + 1 < spans.length := by
  fun_induction rooted spans generalizing inside with
  | case1 => cases found
  | case2 outermost =>
    simp [List.findIdx?_cons] at found
    simp [found] at kept
  | case3 span outer filled ih =>
    simp at kept
    rw [List.findIdx?_cons] at found
    split at found
    · cases found
      have inner := List.length_pos_iff.mpr (rooted_filled kept.2)
      simp
      omega
    · obtain ⟨later,behind,rfl⟩ := Option.map_eq_some_iff.mp found
      have deep := ih kept.2 behind
      simp
      omega

theorem close_keeps (kept : rooted spans = true) (site : Site) :
    Keeps (closeGuarded site spans)
      ((closeSpan (canonicalName site.name) spans).getD (append [.text site.source] spans)) := by
  cases found : spans.findIdx? fun span => span.name == some (canonicalName site.name) with
  | none =>
    simp only [closeGuarded,placeOf,closeSpan,found,Option.map_none,Option.getD_none]
    exact append_keeps kept _
  | some inside =>
    have within := named_inside kept found
    have place : 0 < spans.length - 1 - inside := by omega
    have count : inside + 1 = spans.length - (spans.length - 1 - inside) := by omega
    simp only [closeGuarded,placeOf,closeSpan,found,Option.map_some,Option.getD_some,if_pos place]
    rw [count]
    exact foldTo_keeps kept place

theorem unclaimed_keeps (kept : rooted spans = true) (site : Site) (arguments : List String) :
    Keeps (unclaimedGuarded site arguments spans) (placeUnclaimed site arguments spans) := by
  unfold unclaimedGuarded placeUnclaimed
  split
  · exact foldTo_keeps kept Nat.one_pos
  · cases builtinStyle site.name arguments with
    | some style => exact ⟨rfl,rooted_push kept rfl⟩
    | none => exact append_keeps kept _

theorem finish_same (kept : rooted spans = true) : finishGuarded spans = .ok (finish spans) := by
  have checked : check spans = .ok spans := if_pos kept
  simp only [finishGuarded,checked,(foldTo_keeps kept Nat.one_pos).1,finish,foldAll,bind,Except.bind]
  cases foldSpans (spans.length - 1) spans <;> rfl

def Guards (guarded : Traced Stop (List Span)) (plain : Traced Failure (List Span)) : Prop :=
  Traced.Related (fun spans same => spans = same ∧ rooted same = true) guarded (plain.mapError .refused)

theorem held_guards (keeps : Keeps guarded plain) : Guards (held guarded) (pure plain) := by
  obtain ⟨rfl,kept⟩ := keeps
  exact .ok [] ⟨rfl,kept⟩

def Mirrors (guarded : Site → String → Traced Stop (List Node)) (plain : Site → String → Traced Failure (List Node)) :
    Prop :=
  ∀ site markup, guarded site markup = (plain site markup).mapError .refused

theorem tag_guards (same : Mirrors insertion plain)
    (kept : rooted spans = true) (site : Site) (tag : Tag) :
    Guards (tagGuarded insertion site spans tag) (placeTag plain site spans tag) := by
  cases tag with
  | insert node => exact held_guards (append_keeps kept [node])
  | markup text =>
    rw [tagGuarded,placeTag,Guards,Traced.mapError_bind,same]
    apply Traced.related_bind (Traced.related_self _)
    intro nodes _ same
    cases same
    exact held_guards (append_keeps kept nodes)
  | span style => exact .ok [] ⟨rfl,rooted_push kept rfl⟩

theorem step_guards (same : Mirrors insertion plain)
    (kept : rooted spans = true) (resolver : Resolver) (depth : Nat) (token : Token) :
    Guards (guardedStep resolver depth insertion spans token) (step resolver depth plain spans token) := by
  have checked : held (check spans) = pure spans := by
    rw [check,if_pos kept]
    rfl
  rw [guardedStep,checked,Traced.pure_bind]
  cases token with
  | text content => exact held_guards (append_keeps kept _)
  | closing site => exact held_guards (close_keeps kept site)
  | opening site arguments =>
    rw [step,Guards,Traced.mapError_bind]
    apply Traced.related_bind (Traced.related_self _)
    intro answer _ same
    cases same
    cases answer with
    | some tag => exact tag_guards same kept site tag
    | none => exact held_guards (unclaimed_keeps kept site arguments)

theorem tokens_guard (same : Mirrors insertion plain)
    (kept : rooted spans = true) (resolver : Resolver) (depth : Nat) (tokens : List Token) :
    Guards (tokens.foldlM (guardedStep resolver depth insertion) spans)
      (tokens.foldlM (step resolver depth plain) spans) := by
  rw [Guards,Traced.mapError_foldlM]
  apply Traced.related_foldlM _ _ ⟨rfl,kept⟩
  intro spans _ token both
  obtain ⟨rfl,kept⟩ := both
  exact step_guards same kept resolver depth token

theorem template_guarded (same : Mirrors insertion plain)
    (resolver : Resolver) (depth : Nat) (template : String) :
    (do
      let spans ← (tokenize template).foldlM (guardedStep resolver depth insertion) [Span.root]
      held (finishGuarded spans)) = (readTokens resolver depth plain template).mapError .refused := by
  rw [readTokens,Traced.mapError_bind]
  apply Traced.related_equal
  apply Traced.related_bind (tokens_guard same rfl resolver depth _)
  intro spans _ both
  obtain ⟨rfl,kept⟩ := both
  rw [finish_same kept]
  exact .ok [] rfl

theorem nodes_guard (within : depth ≤ limit) (resolver : Resolver) (template : String)
    (same : Mirrors (deeper limit depth fun markup => guardedNodes resolver limit (depth + 1) markup) plain) :
    guardedNodes resolver limit depth template = (readTokens resolver depth plain template).mapError .refused := by
  have read : held (guardedTokenize template) = pure (tokenize template) := by
    rw [guarded_tokenize]
    rfl
  rw [guardedNodes,if_neg (Nat.not_lt.mpr within),read,Traced.pure_bind]
  exact template_guarded same resolver depth template

-- Induction is on the levels that are left. The depth and they are the limit together.
theorem nodes_guarded (bounded : limit < UInt64.size - 1) (levels : depth + remaining = limit) (resolver : Resolver)
    (template : String) :
    guardedNodes resolver limit depth template =
      (readNodes resolver limit remaining template).mapError .refused := by
  induction remaining generalizing depth template with
  | zero =>
    cases levels
    apply nodes_guard (Nat.le_refl _)
    intro site markup
    rw [deeper,if_neg (by omega),if_pos (Nat.lt_succ_self _)]
    rfl
  | succ remaining ih =>
    have here : limit - (remaining + 1) = depth := by omega
    rw [readNodes,here]
    apply nodes_guard (by omega)
    intro site markup
    rw [deeper,if_neg (by omega),if_neg (by omega)]
    exact ih (by omega) markup

-- With the largest word for a limit the depth would not fit any more.
example : deeper (UInt64.size - 1) (UInt64.size - 1) insertion site markup = .fail (.breached .overflow) := rfl

-- Whatever the template, the resolver and the limit are, a reading ends as it does
-- without the checks, and with none of them failed.
theorem parse_guarded (engine : Engine) (bounded : engine.maxDepth < UInt64.size - 1) (template : String)
    (resolver : Resolver) :
    engine.guardedParse template resolver = (engine.parse template resolver).mapError .refused ∧
      ∀ breach, (engine.guardedParse template resolver).outcome ≠ .error (.breached breach) := by
  have same : engine.guardedParse template resolver = (engine.parse template resolver).mapError .refused := by
    rw [Engine.guardedParse,Engine.parse,Traced.mapError_bind,nodes_guarded bounded (Nat.zero_add _)]
    rfl
  refine ⟨same,?_⟩
  intro breach
  rw [same]
  cases ended : (engine.parse template resolver).outcome with
  | ok node => simp [Traced.mapError,ended,Except.mapError]
  | error failure => simp [Traced.mapError,ended,Except.mapError]

def crooked : Resolver where
  has name := name == "x"
  resolve _ arguments _ := ⟨["x"],.ok (some (.markup "</b>ö<i>!")),arguments⟩

theorem parse_guarded_crooked : (Engine.mk 1).maxDepth < UInt64.size - 1 ∧
    ((Engine.mk 1).guardedParse "é<b><x:'ü>'></i></b>ß" crooked).calls = ["x"] ∧
    ((Engine.mk 1).guardedParse "é<b><x:'ü>'></i></b>ß" crooked).outcome.toOption.map Node.plainText =
      some "é</b>ö!</i>ß" := by
  have bounded : (Engine.mk 1).maxDepth < UInt64.size - 1 := by decide
  refine ⟨bounded,?_⟩
  rw [(parse_guarded (Engine.mk 1) bounded _ crooked).1]
  decide +kernel

end Phrasebook.Template
