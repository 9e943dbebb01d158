import Phrasebook.Proofs.Json.Reading
import Phrasebook.Proofs.RichText.Compaction
import Phrasebook.RichText.NodeJson
namespace Phrasebook.RichText
open Json

-- A node is read back from its JSON text. What a field leaves out says nothing,
-- so it comes back as the default.

theorem getD_omitted {omitted : Bool} {value standard : α} (usual : omitted = true → value = standard) :
    (if omitted then none else some value).getD standard = value := by
  cases omitted with
  | true => exact (usual rfl).symm
  | false => rfl

theorem Decorations.ofList_toList (set : Decorations) : ofList set.toList = set := by
  obtain ⟨bold,italic,underlined,strikethrough,obfuscated⟩ := set
  revert bold italic underlined strikethrough obfuscated
  decide

namespace Style

theorem colorNamed?_name (color : Color) : colorNamed? color.name = some color := by
  cases color <;> rfl

theorem decorationNamed?_name (decoration : Decoration) : decorationNamed? decoration.name = some decoration := by
  cases decoration <;> rfl

theorem readColor_written (depth : Nat) (color : Color) (written : Written (.scalar (.string color.name)) form) :
    ReadAs (readColor depth) form (some color) := by
  cases written with
  | scalar => exact readOptional_quoted (readVariant_quoted (colorNamed?_name color))

theorem readDecorations_written (deep : depth ≠ 0) (decorations : List Decoration)
    (written : Written (.array (decorations.map fun decoration => .scalar (.string decoration.name))) form) :
    ReadAs (readDecorations depth) form decorations := by
  refine readArray_written deep ?_ written
  rw [List.forall₂_map_left_iff,List.forall₂_same]
  intro decoration _ form written
  cases written with
  | scalar => exact readVariant_quoted (decorationNamed?_name decoration)

theorem fills_color (depth : Nat) (color : Option Color) : Fills (readMember depth) ⟨none,none⟩
    (color.map fun color => ("color",Value.scalar (.string color.name))).toList ⟨color.map some,none⟩ := by
  cases color with
  | none => exact .nil
  | some color =>
    refine .cons (fun before after form rest spaces spaces' written => ?_) .nil
    rw [readMember,readOnce_member (readColor_written depth color written) spaces spaces']
    rfl

theorem fills_decorations (deep : depth ≠ 0) (color : Option (Option Color)) (decorations : List Decoration) :
    Fills (readMember depth) ⟨color,none⟩
      [("decorations",.array (decorations.map fun decoration => .scalar (.string decoration.name)))]
      ⟨color,some decorations⟩ := by
  refine .cons (fun before after form rest spaces spaces' written => ?_) .nil
  rw [readMember,readOnce_member (readDecorations_written deep decorations written) spaces spaces']
  rfl

def written (style : Style) : Fields :=
  ⟨style.color.map some,if style.decorations.isEmpty then none else some style.decorations.toList⟩

theorem written_style (style : Style) : style.written.style = style := by
  obtain ⟨color,decorations⟩ := style
  have colored : (color.map some).getD none = color := by cases color <;> rfl
  have unmarked : decorations.isEmpty = true → decorations.toList = [] := by
    intro empty
    rw [beq_iff_eq.mp empty]
    rfl
  rw [Fields.style,written,colored,getD_omitted unmarked,Decorations.ofList_toList]

section
variable {style : Style}

theorem fills_style (deep : style.toJson.nesting ≤ depth + 1) (shape : style.toJson = .object members) :
    Fills (readMember depth) ⟨none,none⟩ members style.written := by
  cases shape
  refine fills_append (fills_color depth style.color) ?_
  unfold written
  split
  · exact .nil
  · rename_i filled
    refine fills_decorations ?_ _ _
    rintro rfl
    rw [toJson,if_neg filled,Value.nesting,nestingMembers_append,nestingMembers,Value.nesting] at deep
    omega

theorem read_written (deep : style.toJson.nesting ≤ depth) (written : Written style.toJson form) :
    ReadAs (read depth) form style := by
  cases depth with
  | zero => cases deep
  | succ depth =>
    have fields : ReadAs (readRecord (depth + 1) ⟨none,none⟩ (readMember depth) (readElements depth)) form
        style.written := readRecord_written (Nat.succ_ne_zero depth) (fills_style deep rfl) written
    have whole := readAs_mapped fields Fields.style
    rwa [written_style] at whole

end
end Style

namespace Node

def written (node : Node) : Fields :=
  ⟨if node.content.isEmpty then none else some node.content,
    if node.style.isEmpty then none else some node.style,
    if node.children.isEmpty then none else some node.children⟩

theorem written_node (node : Node) : node.written.node = node := by
  obtain ⟨content,style,children⟩ := node
  rw [Fields.node,written,getD_omitted String.isEmpty_iff.mp,getD_omitted Style.isEmpty_iff.mp,
    getD_omitted List.isEmpty_iff.mp]

theorem toJsonAll_map (nodes : List Node) : toJsonAll nodes = nodes.map toJson := by
  induction nodes with
  | nil => rfl
  | cons node nodes ih => rw [toJsonAll,ih,List.map_cons]

theorem nesting_node (node : Node) : node.toJson.nesting =
    max (if node.style.isEmpty then 0 else node.style.toJson.nesting)
      (if node.children.isEmpty then 0 else nestingValues (toJsonAll node.children) + 1) + 1 := by
  obtain ⟨content,style,children⟩ := node
  rw [toJson,Value.nesting,nestingMembers_append,nestingMembers_append]
  split <;> split <;> split <;> simp [nestingMembers,Value.nesting]

theorem nesting_child {node child : Node} (member : child ∈ node.children) :
    child.toJson.nesting + 2 ≤ node.toJson.nesting := by
  have filled : ¬node.children.isEmpty = true := fun empty => by simp [List.isEmpty_iff.mp empty] at member
  have inside : child.toJson.nesting ≤ nestingValues (toJsonAll node.children) :=
    nesting_value (toJsonAll_map node.children ▸ List.mem_map_of_mem member)
  rw [nesting_node node,if_neg filled]
  omega

section
variable {readChild : Reader Node}

theorem fills_content (depth : Nat) (content : String) :
    Fills (readMember depth readChildren) ⟨none,none,none⟩
      (if content.isEmpty then [] else [("content",.scalar (.string content))])
      ⟨if content.isEmpty then none else some content,none,none⟩ := by
  split
  · exact .nil
  · refine .cons (fun before after form rest spaces spaces' written => ?_) .nil
    rw [readMember,readOnce_member (readText_written written) spaces spaces']
    rfl

theorem fills_styled {style : Style} (deep : ¬style.isEmpty = true → style.toJson.nesting ≤ depth)
    (content : Option String) : Fills (readMember depth readChildren) ⟨content,none,none⟩
      (if style.isEmpty then [] else [("style",style.toJson)])
      ⟨content,if style.isEmpty then none else some style,none⟩ := by
  split
  · exact .nil
  · rename_i styled
    refine .cons (fun before after form rest spaces spaces' written => ?_) .nil
    rw [readMember,readOnce_member (Style.read_written (deep styled) written) spaces spaces']
    rfl

theorem fills_children {children : List Node} (deep : ¬children.isEmpty = true → depth ≠ 0)
    (reads : ∀ child ∈ children, ∀ form, Written child.toJson form → ReadAs readChild form child)
    (content : Option String) (style : Option Style) :
    Fills (readMember depth (readArray depth readChild)) ⟨content,style,none⟩
      (if children.isEmpty then [] else [("children",.array (toJsonAll children))])
      ⟨content,style,if children.isEmpty then none else some children⟩ := by
  split
  · exact .nil
  · rename_i filled
    refine .cons (fun before after form rest spaces spaces' written => ?_) .nil
    have each : List.Forall₂ (fun value child => ∀ form, Written value form → ReadAs readChild form child)
        (toJsonAll children) children := by
      rw [toJsonAll_map,List.forall₂_map_left_iff,List.forall₂_same]
      exact reads
    rw [readMember,readOnce_member (readArray_written (deep filled) each written) spaces spaces']
    rfl

theorem fills_node {node : Node} (deep : node.toJson.nesting ≤ depth + 1) (shape : node.toJson = .object members)
    (reads : ∀ child ∈ node.children, ∀ form, Written child.toJson form → ReadAs readChild form child) :
    Fills (readMember depth (readArray depth readChild)) ⟨none,none,none⟩ members node.written := by
  rw [nesting_node] at deep
  obtain ⟨content,style,children⟩ := node
  rw [toJson] at shape
  cases shape
  refine fills_append (fills_append (fills_content depth content) (fills_styled (fun styled => ?_) _))
    (fills_children (fun filled => ?_) reads _ _)
  · simp only [if_neg styled] at deep
    omega
  · simp only [if_neg filled] at deep
    omega

theorem readWith_written {node : Node} (deep : node.toJson.nesting ≤ depth)
    (reads : ∀ child ∈ node.children, ∀ form, Written child.toJson form → ReadAs readChild form child)
    (written : Written node.toJson form) : ReadAs (readWith depth readChild) form node := by
  cases depth with
  | zero =>
    rw [nesting_node] at deep
    cases deep
  | succ depth =>
    obtain ⟨members,shape⟩ : ∃ members, node.toJson = .object members := by
      cases node
      exact ⟨_,rfl⟩
    have fields : ReadAs (readRecord (depth + 1) ⟨none,none,none⟩ (readMember depth (readArray depth readChild))
        (readElements depth (readArray depth readChild))) form node.written :=
      readRecord_written (Nat.succ_ne_zero depth) (fills_node deep shape reads) (shape ▸ written)
    have whole := readAs_mapped fields Fields.node
    rwa [written_node] at whole

end

theorem read_written (depth : Nat) (node : Node) (deep : node.toJson.nesting ≤ depth)
    (written : Written node.toJson form) : ReadAs (read depth) form node := by
  induction depth using Nat.twoStepInduction generalizing node form with
  | zero => exact readWith_written deep (fun child member => absurd (nesting_child member) (by omega)) written
  | one =>
    -- The node itself is the only container that may be opened.
    exact readWith_written deep (fun child member => absurd (nesting_child member) (by omega)) written
  | more depth ih _ =>
    refine readWith_written deep (fun child member form written => ih child ?_ written) written
    have := nesting_child member
    omega

theorem ofJson_written (node : Node) (deep : node.toJson.nesting ≤ depthLimit) (text : String)
    (written : Written node.toJson text.toList) : ofJson text = .ok node := by
  have whole := (read_written depthLimit node deep written).taken [] [] nofun
  rw [List.nil_append,List.append_nil] at whole
  rw [ofJson,readAll,whole]
  rfl

theorem written_unique {one two : Node} (first : Written one.toJson form) (second : Written two.toJson form) :
    one = two := by
  have read := (read_written _ one (Nat.le_max_left _ two.toJson.nesting) first).taken [] [] nofun
  have again := (read_written _ two (Nat.le_max_right one.toJson.nesting _) second).taken [] [] nofun
  rw [read] at again
  cases again
  rfl

theorem toJson_faithful (node : Node) : Written node.toJson node.toJson.pretty.toList ∧
    (node.toJson.nesting ≤ depthLimit →
      ∀ text : String, Written node.toJson text.toList → ofJson text = .ok node) ∧
    ∀ other : Node, other ≠ node →
      other.toJson ≠ node.toJson ∧ ∀ form, Written node.toJson form → ¬Written other.toJson form := by
  have pretty : Written node.toJson node.toJson.pretty.toList := by
    rw [Value.pretty,String.toList_ofList]
    exact pretty_written 0 node.toJson
  refine ⟨pretty,ofJson_written node,fun other differ => ⟨fun same => ?_,fun form written again => ?_⟩⟩
  · exact differ (written_unique (same ▸ pretty) pretty)
  · exact differ (written_unique again written)

def signNode : Node := ⟨"\"\\\x01\n",⟨some .darkRed,.none⟩,[.empty,.styled ⟨none,.ofList [.italic,.bold]⟩ []]⟩

def signText : String :=
  "\x7b\n  \"content\": \"\\\"\\\\\\u0001\\n\",\n  \"style\": \x7b\n    \"color\": \"dark_red\"\n  \x7d,\n" ++
  "  \"children\": [\n    \x7b\x7d,\n    \x7b\n      \"style\": \x7b\n        \"decorations\": [\n" ++
  "          \"bold\",\n          \"italic\"\n        ]\n      \x7d\n    \x7d\n  ]\n\x7d"

theorem toJson_faithful_sign : Written signNode.toJson signText.toList ∧ signNode.toJson.nesting ≤ depthLimit ∧
    ofJson signText = .ok signNode ∧ Node.empty ≠ signNode ∧ ¬Written Node.empty.toJson signText.toList := by
  have shallow : signNode.toJson.nesting ≤ depthLimit := by decide
  have differ : Node.empty ≠ signNode := by decide
  have text : signNode.toJson.pretty = signText := by decide +kernel
  obtain ⟨written,read,apart⟩ := toJson_faithful signNode
  rw [text] at written
  exact ⟨written,shallow,read shallow signText written,differ,(apart .empty differ).2 _ written⟩

end Node
end Phrasebook.RichText
