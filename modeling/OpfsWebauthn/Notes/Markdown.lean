import OpfsWebauthn.Foundation.JsonText
import OpfsWebauthn.Foundation.Spacing
import OpfsWebauthn.Share.Wire

/-!
# Plain-text previews

`stripMarkdown` of `markdown.tsx` parses a note and walks its tree. The walk descends into the
containers of blocks, takes the text of each other node as one segment, and joins the segments with
a blank; the text of a node is the concatenation of the values below it. A hard line break has no
value, so it separates nothing.

`Block` and `Inline` are the trees of CommonMark by their content model, so that a document cannot
have a block inside a paragraph. Their pieces are the leaves with a value, the boundaries of the
blocks and the hard breaks, in document order. `keepsText_iff` says that the preview of a document
keeps and separates its leaves exactly when each hard break stands at the end of the visible text,
or next to white space.
-/

set_option autoImplicit false
set_option relaxedAutoImplicit false

namespace OpfsWebauthn.Notes

open Foundation Share

/-! ### The walk -/

/-- The types of the nodes of CommonMark. -/
inductive NodeType
  | root
  | paragraph
  | heading
  | thematicBreak
  | blockquote
  | list
  | listItem
  | html
  | code
  | definition
  | text
  | emphasis
  | strong
  | inlineCode
  | hardBreak
  | link
  | image
  | linkReference
  | imageReference
deriving DecidableEq, Repr

/-- `MdastLike`: a node has children, or a value, or neither. -/
inductive MdastLike
  | parent (type : NodeType) (children : List MdastLike)
  | literal (type : NodeType) (value : JsString)
  | void (type : NodeType)

/-- The blank `" "`. -/
def blankUnit : UInt16 := 0x20

/-- The class `\s` on code units. -/
def isSpaceUnit (unit : UInt16) : Bool :=
  isSpace (Char.ofNat unit.toNat)

mutual

/-- `mdastToString(node, { includeImageAlt: false, includeHtml: false })`. -/
def mdastToString : MdastLike → JsString
  | .parent _ children => mdastToStringAll children
  | .literal type value => if type = .html then [] else value
  | .void _ => []

/-- The strings of the children, concatenated. -/
def mdastToStringAll : List MdastLike → JsString
  | [] => []
  | node :: rest => mdastToString node ++ mdastToStringAll rest

end

/-- `BLOCK_CONTAINER_TYPES`. -/
def blockContainerTypes : List NodeType :=
  [.root, .list, .listItem, .blockquote]

/-- `if (text) out.push(text)`. -/
def pushText (text : JsString) : List JsString :=
  if text = [] then [] else [text]

mutual

/-- `blockTextSegments(node, out)`: what it pushes. -/
def blockTextSegments : MdastLike → List JsString
  | .parent type children =>
    if children.isEmpty then pushText (mdastToString (.parent type children))
    else if blockContainerTypes.contains type then blockTextSegmentsAll children
    else pushText (mdastToString (.parent type children))
  | .literal type value => pushText (mdastToString (.literal type value))
  | .void type => pushText (mdastToString (.void type))

/-- The loop over the children of a container. -/
def blockTextSegmentsAll : List MdastLike → List JsString
  | [] => []
  | node :: rest => blockTextSegments node ++ blockTextSegmentsAll rest

end

/-- `segments.join(" ").replace(/\s+/g, " ").trim()`. -/
def joinSegments (segments : List JsString) : JsString :=
  collapse isSpaceUnit blankUnit ([blankUnit].intercalate segments)

/-- The body of `stripMarkdownUncached` after the parse. -/
def stripTree (tree : MdastLike) : JsString :=
  joinSegments (blockTextSegments tree)

/-! ### Documents -/

/-- Phrasing content. -/
inductive Inline
  | text (value : JsString)
  | inlineCode (value : JsString)
  | html (value : JsString)
  | hardBreak
  | image
  | imageReference
  | emphasis (children : List Inline)
  | strong (children : List Inline)
  | link (children : List Inline)
  | linkReference (children : List Inline)

/-- Flow content. The items of a list hold flow content. -/
inductive Block
  | paragraph (children : List Inline)
  | heading (children : List Inline)
  | thematicBreak
  | code (value : JsString)
  | html (value : JsString)
  | definition
  | blockquote (children : List Block)
  | list (items : List (List Block))

/-- A document. -/
abbrev Document := List Block

mutual

/-- The node of phrasing content. -/
def Inline.tree : Inline → MdastLike
  | .text value => .literal .text value
  | .inlineCode value => .literal .inlineCode value
  | .html value => .literal .html value
  | .hardBreak => .void .hardBreak
  | .image => .void .image
  | .imageReference => .void .imageReference
  | .emphasis children => .parent .emphasis (inlineTrees children)
  | .strong children => .parent .strong (inlineTrees children)
  | .link children => .parent .link (inlineTrees children)
  | .linkReference children => .parent .linkReference (inlineTrees children)

/-- The nodes of phrasing content. -/
def inlineTrees : List Inline → List MdastLike
  | [] => []
  | inline :: rest => inline.tree :: inlineTrees rest

end

mutual

/-- The node of flow content. -/
def Block.tree : Block → MdastLike
  | .paragraph children => .parent .paragraph (inlineTrees children)
  | .heading children => .parent .heading (inlineTrees children)
  | .thematicBreak => .void .thematicBreak
  | .code value => .literal .code value
  | .html value => .literal .html value
  | .definition => .void .definition
  | .blockquote children => .parent .blockquote (blockTrees children)
  | .list items => .parent .list (itemTrees items)

/-- The nodes of flow content. -/
def blockTrees : List Block → List MdastLike
  | [] => []
  | block :: rest => block.tree :: blockTrees rest

/-- The nodes of the items of a list. -/
def itemTrees : List (List Block) → List MdastLike
  | [] => []
  | item :: rest => .parent .listItem (blockTrees item) :: itemTrees rest

end

/-- The root of a document. -/
def documentTree (document : Document) : MdastLike :=
  .parent .root (blockTrees document)

/-! ### Pieces -/

/-- What a preview is made of: the leaves with a value, and what separates them. -/
inductive Piece
  | leaf (value : JsString)
  | boundary
  | hardBreak
deriving DecidableEq, Repr

mutual

/-- The pieces of phrasing content. -/
def Inline.pieces : Inline → List Piece
  | .text value => [.leaf value]
  | .inlineCode value => [.leaf value]
  | .html _ => []
  | .hardBreak => [.hardBreak]
  | .image => []
  | .imageReference => []
  | .emphasis children => inlinePieces children
  | .strong children => inlinePieces children
  | .link children => inlinePieces children
  | .linkReference children => inlinePieces children

/-- The pieces of a list of phrasing content. -/
def inlinePieces : List Inline → List Piece
  | [] => []
  | inline :: rest => inline.pieces ++ inlinePieces rest

end

/-- The pieces of a block that holds no blocks, with its boundaries. -/
def bounded (pieces : List Piece) : List Piece :=
  .boundary :: (pieces ++ [.boundary])

mutual

/-- The pieces of flow content. -/
def Block.pieces : Block → List Piece
  | .paragraph children => bounded (inlinePieces children)
  | .heading children => bounded (inlinePieces children)
  | .thematicBreak => bounded []
  | .code value => bounded [.leaf value]
  | .html _ => bounded []
  | .definition => bounded []
  | .blockquote children => blockPieces children
  | .list items => itemPieces items

/-- The pieces of a list of flow content. -/
def blockPieces : List Block → List Piece
  | [] => []
  | block :: rest => block.pieces ++ blockPieces rest

/-- The pieces of the items of a list. -/
def itemPieces : List (List Block) → List Piece
  | [] => []
  | item :: rest => blockPieces item ++ itemPieces rest

end

/-- The text has the value of each leaf once and in order, with white space only between them, and
with some at each boundary and each hard break. -/
def Renders : List Piece → JsString → Prop
  | [], text => ∀ unit ∈ text, isSpaceUnit unit = true
  | .leaf value :: rest, text => ∃ spaces later, text = spaces ++ (value ++ later) ∧
    (∀ unit ∈ spaces, isSpaceUnit unit = true) ∧ Renders rest later
  | .boundary :: rest, text => ∃ spaces later, text = spaces ++ later ∧ spaces ≠ [] ∧
    (∀ unit ∈ spaces, isSpaceUnit unit = true) ∧ Renders rest later
  | .hardBreak :: rest, text => ∃ spaces later, text = spaces ++ later ∧ spaces ≠ [] ∧
    (∀ unit ∈ spaces, isSpaceUnit unit = true) ∧ Renders rest later

/-- The preview keeps the leaves of a document and separates them, up to collapsing. -/
def KeepsText (document : Document) : Prop :=
  ∃ text, Renders (blockPieces document) text ∧
    collapse isSpaceUnit blankUnit text = stripTree (documentTree document)

/-- The text of some pieces, without the hard breaks. -/
def plainText (pieces : List Piece) : JsString :=
  pieces.flatMap fun piece ↦
    match piece with
    | .leaf value => value
    | .boundary => [blankUnit]
    | .hardBreak => []

/-- At each hard break, the text before it is empty or ends in white space, or the text after it is
empty or begins with white space. A boundary of a block counts as white space. -/
def BreaksParted (pieces : List Piece) : Prop :=
  ∀ before after, pieces = before ++ .hardBreak :: after →
    apartAfter isSpaceUnit true (plainText before) = true ∨
      (plainText after).head?.all isSpaceUnit = true

/-! ### The text of a document -/

theorem isSpaceUnit_blankUnit : isSpaceUnit blankUnit = true := by decide

@[simp] theorem plainText_nil : plainText [] = [] := rfl

@[simp] theorem plainText_append (first second : List Piece) :
    plainText (first ++ second) = plainText first ++ plainText second :=
  List.flatMap_append

@[simp] theorem plainText_leaf (value : JsString) (rest : List Piece) :
    plainText (.leaf value :: rest) = value ++ plainText rest :=
  List.flatMap_cons

@[simp] theorem plainText_boundary (rest : List Piece) :
    plainText (.boundary :: rest) = blankUnit :: plainText rest :=
  List.flatMap_cons

@[simp] theorem plainText_hardBreak (rest : List Piece) :
    plainText (.hardBreak :: rest) = plainText rest :=
  List.flatMap_cons

mutual

/-- The string of phrasing content is the text of its pieces. -/
theorem mdastToString_tree : (inline : Inline) →
    mdastToString inline.tree = plainText inline.pieces
  | .text value => by simp [Inline.tree, Inline.pieces, mdastToString]
  | .inlineCode value => by simp [Inline.tree, Inline.pieces, mdastToString]
  | .html value => by simp [Inline.tree, Inline.pieces, mdastToString]
  | .hardBreak => rfl
  | .image => rfl
  | .imageReference => rfl
  | .emphasis children => mdastToStringAll_trees children
  | .strong children => mdastToStringAll_trees children
  | .link children => mdastToStringAll_trees children
  | .linkReference children => mdastToStringAll_trees children

/-- The string of a list of phrasing content is the text of its pieces. -/
theorem mdastToStringAll_trees : (children : List Inline) →
    mdastToStringAll (inlineTrees children) = plainText (inlinePieces children)
  | [] => rfl
  | inline :: rest => by
    rw [inlineTrees, mdastToStringAll, mdastToString_tree inline, mdastToStringAll_trees rest,
      inlinePieces, plainText_append]

end

/-- A node that is no container of blocks is one segment. -/
theorem blockTextSegments_of_not_container {type : NodeType}
    (htype : blockContainerTypes.contains type = false) (children : List MdastLike) :
    blockTextSegments (.parent type children) = pushText (mdastToStringAll children) := by
  simp only [blockTextSegments, htype, mdastToString, Bool.false_eq_true, if_false, ite_self]

/-- A container of blocks has the segments of its children. -/
theorem blockTextSegments_of_container {type : NodeType}
    (htype : blockContainerTypes.contains type = true) (children : List MdastLike) :
    blockTextSegments (.parent type children) = blockTextSegmentsAll children := by
  cases children with
  | nil => rfl
  | cons node rest => rw [blockTextSegments, htype, if_neg (by simp), if_pos rfl]

/-- Segments with a blank on both sides. -/
def spaced (segments : List JsString) : JsString :=
  segments.flatMap fun segment ↦ blankUnit :: (segment ++ [blankUnit])

/-- Between blocks, segments look like pieces: they have the same marks, and end apart. -/
structure LooksLike (segments : List JsString) (pieces : List Piece) : Prop where
  marks : marks isSpaceUnit true (spaced segments) = marks isSpaceUnit true (plainText pieces)
  segments_end : apartAfter isSpaceUnit true (spaced segments) = true
  pieces_end : apartAfter isSpaceUnit true (plainText pieces) = true

/-- No segments look like no pieces. -/
theorem LooksLike.nil : LooksLike [] [] := ⟨rfl, rfl, rfl⟩

/-- Both sides can be appended. -/
theorem LooksLike.append {first second : List JsString} {before after : List Piece}
    (hfirst : LooksLike first before) (hsecond : LooksLike second after) :
    LooksLike (first ++ second) (before ++ after) := by
  have happend : spaced (first ++ second) = spaced first ++ spaced second := List.flatMap_append
  refine ⟨?_, ?_, ?_⟩
  · rw [happend, plainText_append, marks_append, marks_append, hfirst.marks, hfirst.segments_end,
      hfirst.pieces_end, hsecond.marks]
  · rw [happend, apartAfter_append, hfirst.segments_end, hsecond.segments_end]
  · rw [plainText_append, apartAfter_append, hfirst.pieces_end, hsecond.pieces_end]

/-- The text of a block that holds no blocks, as a segment. -/
theorem looksLike_bounded (pieces : List Piece) :
    LooksLike (pushText (plainText pieces)) (bounded pieces) := by
  have hplain : plainText (bounded pieces) = blankUnit :: (plainText pieces ++ [blankUnit]) := by
    simp [bounded]
  have hend : apartAfter isSpaceUnit true (blankUnit :: (plainText pieces ++ [blankUnit])) = true :=
    apartAfter_concat isSpaceUnit_blankUnit true (blankUnit :: plainText pieces)
  unfold pushText
  by_cases hempty : plainText pieces = []
  · rw [if_pos hempty]
    refine ⟨?_, rfl, hplain ▸ hend⟩
    rw [hplain, hempty]
    rfl
  · have hspaced : spaced [plainText pieces] = blankUnit :: (plainText pieces ++ [blankUnit]) :=
      List.flatMap_singleton _ _
    rw [if_neg hempty]
    exact ⟨by rw [hspaced, hplain], hspaced ▸ hend, hplain ▸ hend⟩

mutual

/-- The segments of flow content look like its pieces. -/
theorem looksLike_block : (block : Block) → LooksLike (blockTextSegments block.tree) block.pieces
  | .paragraph children => by
    rw [Block.tree, blockTextSegments_of_not_container rfl, mdastToStringAll_trees]
    exact looksLike_bounded _
  | .heading children => by
    rw [Block.tree, blockTextSegments_of_not_container rfl, mdastToStringAll_trees]
    exact looksLike_bounded _
  | .thematicBreak => looksLike_bounded []
  | .code value => by
    have hvalue : mdastToString (.literal .code value) = plainText [.leaf value] := by
      simp [mdastToString]
    rw [Block.tree, blockTextSegments, hvalue]
    exact looksLike_bounded _
  | .html value => looksLike_bounded []
  | .definition => looksLike_bounded []
  | .blockquote children => by
    rw [Block.tree, blockTextSegments_of_container rfl]
    exact looksLike_blocks children
  | .list items => by
    rw [Block.tree, blockTextSegments_of_container rfl]
    exact looksLike_items items

/-- The segments of a list of flow content look like its pieces. -/
theorem looksLike_blocks : (blocks : List Block) →
    LooksLike (blockTextSegmentsAll (blockTrees blocks)) (blockPieces blocks)
  | [] => LooksLike.nil
  | block :: rest => (looksLike_block block).append (looksLike_blocks rest)

/-- The segments of the items of a list look like their pieces. -/
theorem looksLike_items : (items : List (List Block)) →
    LooksLike (blockTextSegmentsAll (itemTrees items)) (itemPieces items)
  | [] => LooksLike.nil
  | item :: rest => by
    rw [itemTrees, blockTextSegmentsAll, blockTextSegments_of_container rfl]
    exact (looksLike_blocks item).append (looksLike_items rest)

end

/-- Joined with blanks, segments have the same marks. -/
theorem marks_intercalate (segments : List JsString) :
    marks isSpaceUnit true ([blankUnit].intercalate segments) =
      marks isSpaceUnit true (spaced segments) := by
  have hblank : ∀ apart rest, marks isSpaceUnit apart (blankUnit :: rest) =
      marks isSpaceUnit true rest := marks_space isSpaceUnit_blankUnit
  induction segments with
  | nil => rfl
  | cons segment rest ih =>
    have hspaced : marks isSpaceUnit true (spaced (segment :: rest)) =
        marks isSpaceUnit true segment ++ marks isSpaceUnit true (spaced rest) := by
      have hcons : spaced (segment :: rest) =
          blankUnit :: (segment ++ blankUnit :: spaced rest) := by
        simp [spaced]
      rw [hcons, hblank, marks_append, hblank]
    rw [hspaced, ← ih]
    cases rest with
    | nil => simp [List.intercalate, marks]
    | cons next later =>
      have hjoined : [blankUnit].intercalate (segment :: next :: later) =
          segment ++ blankUnit :: [blankUnit].intercalate (next :: later) := by
        simp [List.intercalate]
      rw [hjoined, marks_append, hblank]

/-- The preview is the collapsed text of the pieces, without the hard breaks. -/
theorem stripTree_documentTree (document : Document) : stripTree (documentTree document) =
    collapse isSpaceUnit blankUnit (plainText (blockPieces document)) := by
  have hlooks := looksLike_blocks document
  rw [stripTree, documentTree, blockTextSegments_of_container rfl, joinSegments,
    collapse_eq_iff isSpaceUnit_blankUnit, marks_intercalate, hlooks.marks]

/-! ### Texts that keep and separate the leaves -/

/-- The visible symbols of a text. -/
def visibleUnits (text : JsString) : JsString :=
  text.filter fun unit ↦ !isSpaceUnit unit

@[simp] theorem visibleUnits_append (first second : JsString) :
    visibleUnits (first ++ second) = visibleUnits first ++ visibleUnits second :=
  List.filter_append _ _

/-- White space has no visible symbol. -/
theorem visibleUnits_spaces {spaces : JsString}
    (hspaces : ∀ unit ∈ spaces, isSpaceUnit unit = true) : visibleUnits spaces = [] := by
  refine List.filter_eq_nil_iff.mpr fun unit hunit ↦ ?_
  simp [hspaces unit hunit]

/-- A text of an append is a text with the visible symbols of the first pieces, and a text of the
others. -/
theorem renders_append {before after : List Piece} {text : JsString}
    (hrenders : Renders (before ++ after) text) : ∃ first second, text = first ++ second ∧
      visibleUnits first = visibleUnits (plainText before) ∧ Renders after second := by
  induction before generalizing text with
  | nil => exact ⟨[], text, rfl, rfl, hrenders⟩
  | cons piece rest ih =>
    cases piece with
    | leaf value =>
      obtain ⟨spaces, later, rfl, hspaces, hlater⟩ := hrenders
      obtain ⟨first, second, rfl, hfirst, hsecond⟩ := ih hlater
      refine ⟨spaces ++ (value ++ first), second, by simp, ?_, hsecond⟩
      simp [visibleUnits_spaces hspaces, hfirst]
    | boundary =>
      obtain ⟨spaces, later, rfl, -, hspaces, hlater⟩ := hrenders
      obtain ⟨first, second, rfl, hfirst, hsecond⟩ := ih hlater
      refine ⟨spaces ++ first, second, by simp, ?_, hsecond⟩
      rw [visibleUnits_append, visibleUnits_spaces hspaces, hfirst, plainText_boundary]
      rfl
    | hardBreak =>
      obtain ⟨spaces, later, rfl, -, hspaces, hlater⟩ := hrenders
      obtain ⟨first, second, rfl, hfirst, hsecond⟩ := ih hlater
      refine ⟨spaces ++ first, second, by simp, ?_, hsecond⟩
      rw [visibleUnits_append, visibleUnits_spaces hspaces, hfirst, plainText_hardBreak,
        List.nil_append]

/-- The text of some pieces with a blank for each boundary and each hard break. -/
def spacedText (pieces : List Piece) : JsString :=
  pieces.flatMap fun piece ↦
    match piece with
    | .leaf value => value
    | .boundary => [blankUnit]
    | .hardBreak => [blankUnit]

/-- This is a text of the pieces. -/
theorem renders_spacedText (pieces : List Piece) : Renders pieces (spacedText pieces) := by
  have hblank : ∀ unit ∈ [blankUnit], isSpaceUnit unit = true := by
    simpa using isSpaceUnit_blankUnit
  induction pieces with
  | nil => exact List.forall_mem_nil _
  | cons piece rest ih =>
    cases piece with
    | leaf value => exact ⟨[], spacedText rest, rfl, List.forall_mem_nil _, ih⟩
    | boundary => exact ⟨[blankUnit], spacedText rest, rfl, List.cons_ne_nil _ _, hblank, ih⟩
    | hardBreak => exact ⟨[blankUnit], spacedText rest, rfl, List.cons_ne_nil _ _, hblank, ih⟩

/-- Where each hard break is parted, the blanks for the hard breaks change no mark. The flag says
whether the pieces begin apart. -/
theorem marks_spacedText {pieces : List Piece} {apart : Bool}
    (hparted : ∀ before after, pieces = before ++ .hardBreak :: after →
      apartAfter isSpaceUnit apart (plainText before) = true ∨
        (plainText after).head?.all isSpaceUnit = true) :
    marks isSpaceUnit apart (plainText pieces) = marks isSpaceUnit apart (spacedText pieces) := by
  induction pieces generalizing apart with
  | nil => rfl
  | cons piece rest ih =>
    cases piece with
    | leaf value =>
      have hrest := ih fun before after hpieces ↦ by
        have hsplit := hparted (.leaf value :: before) after (by rw [hpieces]; rfl)
        rwa [plainText_leaf, apartAfter_append] at hsplit
      show marks isSpaceUnit apart (plainText (.leaf value :: rest)) =
        marks isSpaceUnit apart (value ++ spacedText rest)
      rw [plainText_leaf, marks_append, marks_append, hrest]
    | boundary =>
      have hrest := @ih true fun before after hpieces ↦ by
        have hsplit := hparted (.boundary :: before) after (by rw [hpieces]; rfl)
        rwa [plainText_boundary, apartAfter, isSpaceUnit_blankUnit] at hsplit
      show marks isSpaceUnit apart (plainText (.boundary :: rest)) =
        marks isSpaceUnit apart (blankUnit :: spacedText rest)
      rw [plainText_boundary, marks_space isSpaceUnit_blankUnit, marks_space isSpaceUnit_blankUnit,
        hrest]
    | hardBreak =>
      have hrest := ih fun before after hpieces ↦ by
        have hsplit := hparted (.hardBreak :: before) after (by rw [hpieces]; rfl)
        rw [plainText_hardBreak] at hsplit
        exact hsplit.imp_left apartAfter_mono
      show marks isSpaceUnit apart (plainText (.hardBreak :: rest)) =
        marks isSpaceUnit apart (blankUnit :: spacedText rest)
      rw [plainText_hardBreak, marks_space isSpaceUnit_blankUnit, ← hrest]
      rcases hparted [] rest rfl with hapart | hhead
      · have hstart : apart = true := hapart
        rw [hstart]
      · exact marks_of_head hhead apart

/-- Where the preview keeps and separates the leaves, each hard break is parted: otherwise the
visible symbols at its sides are not apart in the preview. -/
theorem breaksParted_of_keepsText {document : Document} (hkeeps : KeepsText document) :
    BreaksParted (blockPieces document) := by
  intro before after hpieces
  obtain ⟨text, hrenders, hcollapse⟩ := hkeeps
  rw [stripTree_documentTree, collapse_eq_iff isSpaceUnit_blankUnit, hpieces] at hcollapse
  rw [hpieces] at hrenders
  obtain ⟨first, second, rfl, hfirst, spaces, later, rfl, hne, hspaces, hlater⟩ :=
    renders_append hrenders
  obtain ⟨hnoMarks, hafter⟩ := marks_spaces hspaces (apartAfter isSpaceUnit true first)
  rw [marks_append, marks_append, hnoMarks, hafter hne, List.nil_append, plainText_append,
    plainText_hardBreak, marks_append] at hcollapse
  -- the visible symbols before the break are as many on both sides
  have hlength : (marks isSpaceUnit true first).length =
      (marks isSpaceUnit true (plainText before)).length := by
    have hvisible : (marks isSpaceUnit true first).map Prod.snd =
        (marks isSpaceUnit true (plainText before)).map Prod.snd := by
      rw [map_snd_marks, map_snd_marks]
      exact hfirst
    rw [← List.length_map Prod.snd, hvisible, List.length_map]
  have hlaterMarks := (List.append_inj hcollapse hlength).2
  cases hplain : plainText after with
  | nil => exact .inr rfl
  | cons unit rest =>
    cases hspace : isSpaceUnit unit with
    | true => exact .inr hspace
    | false =>
      rw [hplain, marks_visible hspace] at hlaterMarks
      exact .inl (apart_of_marks_cons hlaterMarks)

/-- The preview of a document keeps and separates its leaves exactly when its hard breaks are parted
from the visible text on one side. -/
theorem keepsText_iff (document : Document) :
    KeepsText document ↔ BreaksParted (blockPieces document) := by
  constructor
  · exact breaksParted_of_keepsText
  · intro hparted
    refine ⟨spacedText (blockPieces document), renders_spacedText _, ?_⟩
    rw [stripTree_documentTree, collapse_eq_iff isSpaceUnit_blankUnit]
    exact (marks_spacedText hparted).symm

/-- The paragraph of `foo`, two spaces, a newline and `bar`: a hard break between two texts. -/
def brokenLine : Document :=
  [.paragraph [.text (jsString "foo"), .hardBreak, .text (jsString "bar")]]

/-- Its preview is `foobar`. -/
theorem not_keepsText_brokenLine :
    stripTree (documentTree brokenLine) = jsString "foobar" ∧ ¬ KeepsText brokenLine := by
  refine ⟨by decide +kernel, fun hkeeps ↦ ?_⟩
  have hparted := breaksParted_of_keepsText hkeeps [.boundary, .leaf (jsString "foo")]
    [.leaf (jsString "bar"), .boundary] rfl
  exact absurd hparted (by decide +kernel)

end OpfsWebauthn.Notes
