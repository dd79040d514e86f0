import ClangLens.Codes.Basic

/-!
# Kinds of comment nodes

The nodes of a documentation comment and how inline commands are to be rendered.
-/

namespace ClangLens

/-- What a node of a documentation comment is. -/
inductive CommentKind where
  | null | text | inlineCommand | htmlStartTag | htmlEndTag | paragraph | blockCommand
  | paramCommand | tParamCommand | verbatimBlockCommand | verbatimBlockLine | verbatimLine
  | fullComment
deriving DecidableEq

instance : CodeTable CommentKind where
  typeName := "CommentKind"
  label := "Comment"
  entries := [
    ⟨.null, 0, "Null"⟩, ⟨.text, 1, "Text"⟩, ⟨.inlineCommand, 2, "InlineCommand"⟩,
    ⟨.htmlStartTag, 3, "HTMLStartTag"⟩, ⟨.htmlEndTag, 4, "HTMLEndTag"⟩,
    ⟨.paragraph, 5, "Paragraph"⟩, ⟨.blockCommand, 6, "BlockCommand"⟩,
    ⟨.paramCommand, 7, "ParamCommand"⟩, ⟨.tParamCommand, 8, "TParamCommand"⟩,
    ⟨.verbatimBlockCommand, 9, "VerbatimBlockCommand"⟩,
    ⟨.verbatimBlockLine, 10, "VerbatimBlockLine"⟩, ⟨.verbatimLine, 11, "VerbatimLine"⟩,
    ⟨.fullComment, 12, "FullComment"⟩]

/-- How an inline command wants its words shown. -/
inductive RenderKind where
  | normal | bold | monospaced | emphasized | anchor
deriving DecidableEq

instance : CodeTable RenderKind where
  typeName := "CommentInlineCommandRenderKind"
  label := "CommentInlineCommandRenderKind"
  entries := [
    ⟨.normal, 0, "Normal"⟩, ⟨.bold, 1, "Bold"⟩, ⟨.monospaced, 2, "Monospaced"⟩,
    ⟨.emphasized, 3, "Emphasized"⟩, ⟨.anchor, 4, "Anchor"⟩]

end ClangLens
