import ClangLens.Codes.Basic

/-!
# Codes of completion results

The pieces of a completion string and whether what they offer can be used.
-/

namespace ClangLens

/-- What a piece of a completion string is for. -/
inductive ChunkKind where
  | optional | typedText | text | placeholder | informative | currentParameter | leftParen
  | rightParen | leftBracket | rightBracket | leftBrace | rightBrace | leftAngle | rightAngle
  | comma | resultType | colon | semiColon | equal | horizontalSpace | verticalSpace
deriving DecidableEq

instance : CodeTable ChunkKind where
  typeName := "CompletionChunkKind"
  label := "CompletionChunk"
  entries := [
    ⟨.optional, 0, "Optional"⟩, ⟨.typedText, 1, "TypedText"⟩, ⟨.text, 2, "Text"⟩,
    ⟨.placeholder, 3, "Placeholder"⟩, ⟨.informative, 4, "Informative"⟩,
    ⟨.currentParameter, 5, "CurrentParameter"⟩, ⟨.leftParen, 6, "LeftParen"⟩,
    ⟨.rightParen, 7, "RightParen"⟩, ⟨.leftBracket, 8, "LeftBracket"⟩,
    ⟨.rightBracket, 9, "RightBracket"⟩, ⟨.leftBrace, 10, "LeftBrace"⟩,
    ⟨.rightBrace, 11, "RightBrace"⟩, ⟨.leftAngle, 12, "LeftAngle"⟩,
    ⟨.rightAngle, 13, "RightAngle"⟩, ⟨.comma, 14, "Comma"⟩, ⟨.resultType, 15, "ResultType"⟩,
    ⟨.colon, 16, "Colon"⟩, ⟨.semiColon, 17, "SemiColon"⟩, ⟨.equal, 18, "Equal"⟩,
    ⟨.horizontalSpace, 19, "HorizontalSpace"⟩, ⟨.verticalSpace, 20, "VerticalSpace"⟩]

/-- Whether what is offered can be used. -/
inductive Availability where
  | available | deprecated | notAvailable | notAccessible
deriving DecidableEq

instance : CodeTable Availability where
  typeName := "AvailabilityKind"
  label := "Availability"
  entries := [
    ⟨.available, 0, "Available"⟩, ⟨.deprecated, 1, "Deprecated"⟩,
    ⟨.notAvailable, 2, "NotAvailable"⟩, ⟨.notAccessible, 3, "NotAccessible"⟩]

end ClangLens
