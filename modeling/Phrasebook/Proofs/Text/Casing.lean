import Phrasebook.Text.Basic
import Phrasebook.Text.Lowercase
namespace Phrasebook.Text

-- Lowercasing leaves nothing for a second one to change. For the characters that the
-- table moves this is checked run by run.

def LowerRun.highest (run : LowerRun) : Nat := run.target + (run.last - run.first)

-- No image of the one run is moved by the other. They lie apart, or each has every
-- second code and the codes of the two alternate.
def LowerRun.avoids (run other : LowerRun) : Bool :=
  run.highest.blt other.first || other.last.blt run.target ||
    ((run.first == run.last || run.step == 2) && other.step == 2 && (run.target + other.first) % 2 == 1)

def blankCodes : List Nat :=
  [0x09,0x0A,0x0B,0x0C,0x0D,0x20,0x85,0xA0,0x1680,0x2000,0x2001,0x2002,0x2003,0x2004,0x2005,0x2006,0x2007,
   0x2008,0x2009,0x200A,0x2028,0x2029,0x202F,0x205F,0x3000]

theorem blank_code {c : Char} (blank : isBlank c = true) : c.toNat ∈ blankCodes := by
  simp only [isBlank,Bool.or_eq_true,Bool.and_eq_true,decide_eq_true_eq,beq_iff_eq] at blank
  simp only [blankCodes,List.mem_cons,List.not_mem_nil,or_false]
  omega

def LowerRun.misses (run : LowerRun) (code : Nat) : Bool := run.highest < code || code < run.target

def LowerRun.isSound (run : LowerRun) : Bool :=
  (run.highest < 0xD800 || (0xDFFF < run.target && run.highest < 0x110000)) &&
    ('İ'.toNat :: blankCodes).all run.misses &&
    (0x80 ≤ run.target || (run.target == 'k'.toNat && run.first == run.last))

theorem runs_sound : lowerRuns.all LowerRun.isSound = true := by decide +kernel

theorem runs_avoid : (lowerRuns.all fun run => lowerRuns.all run.avoids) = true := by decide +kernel

theorem misses_iff {run : LowerRun} : run.misses code = true ↔ ¬(run.target ≤ code ∧ code ≤ run.highest) := by
  simp only [LowerRun.misses,Bool.or_eq_true,decide_eq_true_eq]
  omega

structure LowerRun.Sound (run : LowerRun) : Prop where
  valid : ∀ code, run.target ≤ code → code ≤ run.highest → code.isValidChar
  misses : ∀ code ∈ 'İ'.toNat :: blankCodes, ¬(run.target ≤ code ∧ code ≤ run.highest)
  high : 0x80 ≤ run.target ∨ run.target = 'k'.toNat ∧ run.first = run.last

theorem run_sound {run : LowerRun} (member : run ∈ lowerRuns) : run.Sound := by
  have checked := List.all_eq_true.mp runs_sound run member
  simp only [LowerRun.isSound,Bool.and_eq_true,Bool.or_eq_true,decide_eq_true_eq,List.all_eq_true,misses_iff,
    beq_iff_eq] at checked
  obtain ⟨⟨valid,misses⟩,high⟩ := checked
  refine ⟨?_,misses,high⟩
  intro code low top
  unfold Nat.isValidChar
  omega

def LowerRun.image (run : LowerRun) (code : Nat) : Nat := run.target + (code - run.first)

theorem covers_iff {run : LowerRun} : run.covers code = true ↔
    run.first ≤ code ∧ code ≤ run.last ∧ (code - run.first) % run.step = 0 := by
  simp [LowerRun.covers,and_assoc]

theorem image_within {run : LowerRun} (covers : run.covers code = true) :
    run.target ≤ run.image code ∧ run.image code ≤ run.highest := by
  obtain ⟨low,high,_⟩ := covers_iff.mp covers
  unfold LowerRun.image LowerRun.highest
  omega

theorem image_code {run : LowerRun} (member : run ∈ lowerRuns) (covers : run.covers code = true) :
    (Char.ofNat (run.image code)).toNat = run.image code := by
  obtain ⟨low,high⟩ := image_within covers
  have valid := (run_sound member).valid _ low high
  rw [Char.ofNat,dif_pos valid]
  rfl

theorem image_uncovered {run other : LowerRun} (member : run ∈ lowerRuns) (covers : run.covers code = true)
    (member' : other ∈ lowerRuns) : other.covers (run.image code) = false := by
  have apart := List.all_eq_true.mp (List.all_eq_true.mp runs_avoid run member) other member'
  obtain ⟨low,high⟩ := image_within covers
  obtain ⟨first,last,step⟩ := covers_iff.mp covers
  simp only [LowerRun.avoids,Bool.or_eq_true,Bool.and_eq_true,Nat.blt_eq,beq_iff_eq] at apart
  rw [Bool.eq_false_iff]
  intro covers'
  obtain ⟨first',last',step'⟩ := covers_iff.mp covers'
  rcases apart with (below | above) | ⟨⟨alone | every,every'⟩,odd⟩
  · omega
  · omega
  · rw [every'] at step'
    unfold LowerRun.image at first' step'
    omega
  · rw [every] at step
    rw [every'] at step'
    unfold LowerRun.image at first' step'
    omega

theorem image_alone {run : LowerRun} (covers : run.covers code = true) (alone : run.first = run.last) :
    run.image code = run.target := by
  obtain ⟨first,last,_⟩ := covers_iff.mp covers
  unfold LowerRun.image
  omega

structure Settled (c : Char) : Prop where
  simple : lowerSimple c = c
  notSigma : c ≠ 'Σ'
  notDotted : c ≠ 'İ'

theorem lowerSimple_ascii {c : Char} (ascii : c.toNat < 0x80) : lowerSimple c = c.toLower := if_pos ascii

theorem lowerSimple_high {c : Char} (high : ¬c.toNat < 0x80) :
    (∃ run ∈ lowerRuns, run.covers c.toNat = true ∧ lowerSimple c = Char.ofNat (run.image c.toNat)) ∨
      (∀ run ∈ lowerRuns, run.covers c.toNat = false) ∧ lowerSimple c = c := by
  rw [lowerSimple,if_neg high]
  cases found : lowerRuns.find? (·.covers c.toNat) with
  | none =>
    apply Or.inr
    have missing := List.find?_eq_none.mp found
    exact ⟨fun run member => Bool.eq_false_iff.mpr (missing run member),rfl⟩
  | some run =>
    have covers := (List.find?_eq_some_iff_append.mp found).1
    exact .inl ⟨run,List.mem_of_find?_eq_some found,covers,rfl⟩

theorem settled_uncovered {c : Char} (high : ¬c.toNat < 0x80)
    (uncovered : ∀ run ∈ lowerRuns, run.covers c.toNat = false) (notDotted : c ≠ 'İ') : Settled c := by
  rcases lowerSimple_high high with ⟨run,member,covers,_⟩ | ⟨_,same⟩
  · rw [uncovered run member] at covers
    cases covers
  · refine ⟨same,?_,notDotted⟩
    intro sigma
    have moved : lowerRuns.any (·.covers 'Σ'.toNat) = true := by decide +kernel
    obtain ⟨run,member,covers⟩ := List.any_eq_true.mp moved
    rw [← sigma,uncovered run member] at covers
    cases covers

theorem ascii_all {property : Char → Prop} (each : ∀ code < 0x80, property (Char.ofNat code)) {c : Char}
    (ascii : c.toNat < 0x80) : property c := by
  have here := each c.toNat ascii
  rwa [Char.ofNat_toNat] at here

theorem ascii_settled {c : Char} (ascii : c.toNat < 0x80) : lowerSimple c.toLower = c.toLower ∧
    c.toLower ≠ 'Σ' ∧ c.toLower ≠ 'İ' ∧ isBlank c.toLower = isBlank c := by
  revert ascii
  apply ascii_all
  decide +kernel

theorem lowerSimple_settled {c : Char} (notDotted : c ≠ 'İ') : Settled (lowerSimple c) := by
  by_cases ascii : c.toNat < 0x80
  · obtain ⟨simple,notSigma,notDotted,_⟩ := ascii_settled ascii
    rw [lowerSimple_ascii ascii]
    exact ⟨simple,notSigma,notDotted⟩
  · rcases lowerSimple_high ascii with ⟨run,member,covers,moved⟩ | ⟨uncovered,same⟩
    · have code := image_code member covers
      obtain ⟨low,high⟩ := image_within covers
      rw [moved]
      rcases (run_sound member).high with above | ⟨kelvin,alone⟩
      · apply settled_uncovered
        · rw [code]
          omega
        · intro other member'
          rw [code]
          exact image_uncovered member covers member'
        · intro dotted
          rw [dotted] at code
          apply (run_sound member).misses _ (List.mem_cons_self ..)
          omega
      · rw [image_alone covers alone,kelvin]
        exact ⟨by decide +kernel,by decide,by decide⟩
    · rw [same]
      exact settled_uncovered ascii uncovered notDotted

theorem lowerSimple_filled {c : Char} (filled : isBlank c = false) : isBlank (lowerSimple c) = false := by
  by_cases ascii : c.toNat < 0x80
  · obtain ⟨_,_,_,same⟩ := ascii_settled ascii
    rw [lowerSimple_ascii ascii,same,filled]
  · rcases lowerSimple_high ascii with ⟨run,member,covers,moved⟩ | ⟨_,same⟩
    · have code := image_code member covers
      rw [moved,Bool.eq_false_iff]
      intro blank
      apply (run_sound member).misses _ (List.mem_cons_of_mem _ (blank_code blank))
      rw [code]
      exact image_within covers
    · rw [same,filled]

theorem lowerSimple_low {c : Char} (high : ¬c.toNat < 0x80) : lowerSimple c = 'k' ∨ ¬(lowerSimple c).toNat < 0x80 := by
  rcases lowerSimple_high high with ⟨run,member,covers,moved⟩ | ⟨_,same⟩
  · obtain ⟨low,_⟩ := image_within covers
    rcases (run_sound member).high with above | ⟨kelvin,alone⟩
    · apply Or.inr
      rw [moved,image_code member covers]
      omega
    · rw [moved,image_alone covers alone,kelvin]
      exact .inl rfl
  · rw [same]
    exact .inr high

theorem lowerAt_all {property : Char → Prop} (final : property 'ς') (medial : property 'σ')
    (dotted : property 'i') (dot : property '\u0307') (simple : c ≠ 'İ' → property (lowerSimple c)) :
    ∀ form ∈ lowerAt before c after, property form := by
  intro form member
  unfold lowerAt at member
  split at member
  · rw [List.mem_singleton] at member
    rw [member]
    split
    · exact final
    · exact medial
  · split at member
    · simp only [List.mem_cons,List.not_mem_nil,or_false] at member
      rcases member with rfl | rfl
      · exact dotted
      · exact dot
    · rename_i notDotted
      rw [List.mem_singleton.mp member]
      exact simple notDotted

theorem settled_forms : Settled 'ς' ∧ Settled 'σ' ∧ Settled 'i' ∧ Settled '\u0307' := by
  refine ⟨?_,?_,?_,?_⟩ <;> exact ⟨by decide +kernel,by decide,by decide⟩

theorem lowerAt_settled (before after : List Char) : ∀ form ∈ lowerAt before c after, Settled form := by
  obtain ⟨final,medial,dotted,dot⟩ := settled_forms
  exact lowerAt_all final medial dotted dot lowerSimple_settled

theorem lowerAt_filled (before after : List Char) (filled : isBlank c = false) :
    ∀ form ∈ lowerAt before c after, isBlank form = false :=
  lowerAt_all rfl rfl rfl rfl fun _ => lowerSimple_filled filled

theorem lowerAt_cons (before : List Char) (c : Char) (after : List Char) :
    ∃ first more, lowerAt before c after = first :: more := by
  unfold lowerAt
  split
  · exact ⟨_,_,rfl⟩
  · split <;> exact ⟨_,_,rfl⟩

theorem lowerFrom_settled (before text : List Char) : ∀ form ∈ lowerFrom before text, Settled form := by
  induction text generalizing before with
  | nil => simp [lowerFrom]
  | cons c rest ih =>
    intro form member
    rw [lowerFrom] at member
    rcases List.mem_append.mp member with here | later
    · exact lowerAt_settled before rest form here
    · exact ih _ form later

theorem lower_settled (text : List Char) : ∀ form ∈ lower text, Settled form := lowerFrom_settled [] text

theorem settled_kept (settled : Settled c) (before after : List Char) : lowerAt before c after = [c] := by
  rw [lowerAt,if_neg settled.notSigma,if_neg settled.notDotted,settled.simple]

theorem lowerFrom_fixed (settled : ∀ c ∈ text, Settled c) (before : List Char) :
    lowerFrom before text = text := by
  induction text generalizing before with
  | nil => rfl
  | cons c rest ih =>
    obtain ⟨first,others⟩ := List.forall_mem_cons.mp settled
    rw [lowerFrom,settled_kept first,ih others]
    rfl

theorem lower_fixed_settled (settled : ∀ c ∈ text, Settled c) : lower text = text := lowerFrom_fixed settled []

theorem lowerFrom_ascii (ascii : ∀ c ∈ text, c.toNat < 0x80) (before : List Char) :
    lowerFrom before text = text.map Char.toLower := by
  induction text generalizing before with
  | nil => rfl
  | cons c rest ih =>
    have here := ascii c (List.mem_cons_self ..)
    have plain : c ≠ 'Σ' ∧ c ≠ 'İ' := by
      constructor <;>
      · intro same
        exact absurd (same ▸ here) (by decide)
    rw [lowerFrom,lowerAt,if_neg plain.1,if_neg plain.2,lowerSimple_ascii here]
    rw [ih fun d member => ascii d (List.mem_cons_of_mem _ member)]
    rfl

theorem within_ascii {c : Char} (ascii : c.toNat < 0x80) (ranges : List (Nat × Nat)) :
    isWithin ranges c = isWithin (ranges.filter (·.1 < 0x80)) c := by
  induction ranges with
  | nil => rfl
  | cons range ranges ih =>
    unfold isWithin at ih ⊢
    by_cases low : range.1 < 0x80
    · simp [low,ih]
    · have apart : ¬(range.1 ≤ c.toNat) := by omega
      simp [low,apart,ih]

theorem cased_ascii {c : Char} (ascii : c.toNat < 0x80) :
    isCased c = isWithin [(0x41,0x5A),(0x61,0x7A)] c := by
  have low : casedRanges.filter (·.1 < 0x80) = [(0x41,0x5A),(0x61,0x7A)] := by decide +kernel
  rw [isCased,within_ascii ascii,low]

def asciiIgnorable : List Char := ['\'','.',':','^','`']

theorem ignorable_ascii {c : Char} (ascii : c.toNat < 0x80) :
    isCaseIgnorable c = asciiIgnorable.contains c := by
  have low : caseIgnorableRanges.filter (·.1 < 0x80) =
      [(0x27,0x27),(0x2E,0x2E),(0x3A,0x3A),(0x5E,0x5E),(0x60,0x60)] := by decide +kernel
  rw [isCaseIgnorable,within_ascii ascii,low]
  revert ascii
  apply ascii_all
  decide +kernel

-- A letter stands next to a place, with nothing in between but what does not count for
-- case. The text is read away from the place.
def Touches (text : List Char) : Prop :=
  ∃ skipped c more, text = skipped ++ c :: more ∧ (∀ d ∈ skipped, isCaseIgnorable d = true) ∧
    isCaseIgnorable c = false ∧ isCased c = true

theorem touches_iff (text : List Char) : meetsCased text = true ↔ Touches text := by
  induction text with
  | nil =>
    constructor
    · intro met
      cases met
    · intro touches
      obtain ⟨skipped,c,more,equal,_⟩ := touches
      simp at equal
  | cons d rest ih =>
    cases ignorable : isCaseIgnorable d with
    | true =>
      have same : meetsCased (d :: rest) = meetsCased rest := by simp [meetsCased,ignorable]
      rw [same,ih]
      constructor
      · intro touches
        obtain ⟨skipped,c,more,rfl,skips,counts,cased⟩ := touches
        exact ⟨d :: skipped,c,more,rfl,List.forall_mem_cons.mpr ⟨ignorable,skips⟩,counts,cased⟩
      · intro touches
        obtain ⟨skipped,c,more,equal,skips,counts,cased⟩ := touches
        cases skipped with
        | nil =>
          cases equal
          rw [ignorable] at counts
          cases counts
        | cons e skipped =>
          cases equal
          exact ⟨skipped,c,more,rfl,(List.forall_mem_cons.mp skips).2,counts,cased⟩
    | false =>
      have same : meetsCased (d :: rest) = isCased d := by simp [meetsCased,ignorable]
      rw [same]
      constructor
      · intro cased
        exact ⟨[],d,rest,rfl,by simp,ignorable,cased⟩
      · intro touches
        obtain ⟨skipped,c,more,equal,skips,counts,cased⟩ := touches
        cases skipped with
        | nil =>
          cases equal
          exact cased
        | cons e skipped =>
          cases equal
          rw [(List.forall_mem_cons.mp skips).1] at ignorable
          cases ignorable

-- What is written for one character. The text before it is given nearest first.
inductive Form (before after : List Char) : Char → List Char → Prop where
  | final (begun : Touches before) (ended : ¬Touches after) : Form before after 'Σ' ['ς']
  | medial (inside : ¬(Touches before ∧ ¬Touches after)) : Form before after 'Σ' ['σ']
  | dotted : Form before after 'İ' ['i','\u0307']
  | simple (notSigma : c ≠ 'Σ') (notDotted : c ≠ 'İ') : Form before after c [lowerSimple c]

inductive Forms : List Char → List Char → List Char → Prop where
  | nil : Forms before [] []
  | cons (form : Form before rest c written) (later : Forms (c :: before) rest lowered) :
      Forms before (c :: rest) (written ++ lowered)

theorem form_written (before : List Char) (c : Char) (after : List Char) :
    Form before after c (lowerAt before c after) := by
  unfold lowerAt
  split
  · rename_i sigma
    subst sigma
    have ends : isFinalSigma before after = true ↔ Touches before ∧ ¬Touches after := by
      simp [isFinalSigma,← touches_iff]
    split
    · rename_i final
      obtain ⟨begun,ended⟩ := ends.mp final
      exact .final begun ended
    · rename_i medial
      exact .medial fun final => medial (ends.mpr final)
  · rename_i notSigma
    split
    · rename_i dotted
      subst dotted
      exact .dotted
    · rename_i notDotted
      exact .simple notSigma notDotted

theorem forms_written (before text : List Char) : Forms before text (lowerFrom before text) := by
  induction text generalizing before with
  | nil => exact .nil
  | cons c rest ih => exact .cons (form_written before c rest) (ih (c :: before))

example : String.ofList (lower "ΟΔΟΣ' ΣΑΣ İ".toList) = "οδος' σας i̇" := by decide +kernel

end Phrasebook.Text
