import Phrasebook.Template.Engine
namespace Phrasebook.Template
open RichText

-- What the operations on open spans do to any stack.

theorem append_nil (spans : List Span) : append [] spans = spans := by
  cases spans <;> simp [append]

theorem append_append (one two : List Node) (spans : List Span) :
    append two (append one spans) = append (one ++ two) spans := by
  cases spans <;> simp [append]

theorem append_filled {spans : List Span} (filled : spans ≠ []) (nodes : List Node) :
    append nodes spans ≠ [] := by
  cases spans with
  | nil => exact absurd rfl filled
  | cons top outer => simp [append]

theorem foldTop_cons {spans : List Span} (filled : spans ≠ []) (top : Span) :
    foldTop (top :: spans) = append [top.node] spans := by
  cases spans with
  | nil => exact absurd rfl filled
  | cons outer rest => rfl

theorem foldTop_filled {spans : List Span} (filled : spans ≠ []) : foldTop spans ≠ [] := by
  rcases spans with _ | ⟨top,_ | ⟨outer,rest⟩⟩
  · exact absurd rfl filled
  · simp [foldTop]
  · simp [foldTop,append]

theorem foldSpans_filled (count : Nat) {spans : List Span} (filled : spans ≠ []) :
    foldSpans count spans ≠ [] := by
  induction count generalizing spans with
  | zero => exact filled
  | succ count ih => exact ih (foldTop_filled filled)

theorem closes_filled {spans : List Span} (filled : spans ≠ []) (site : Site) :
    (closeSpan (canonicalName site.name) spans).getD (append [.text site.source] spans) ≠ [] := by
  rw [closeSpan]
  cases spans.findIdx? fun span => span.name == some (canonicalName site.name) with
  | none => exact append_filled filled _
  | some index => exact foldSpans_filled (index + 1) filled

theorem places_filled {spans : List Span} (filled : spans ≠ []) (site : Site) (arguments : List String) :
    placeUnclaimed site arguments spans ≠ [] := by
  rw [placeUnclaimed]
  split
  · exact foldSpans_filled _ filled
  · split
    · simp
    · exact append_filled filled _

end Phrasebook.Template
