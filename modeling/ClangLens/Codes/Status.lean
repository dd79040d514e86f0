import ClangLens.Codes.Basic

/-!
# Status codes

What parsing, reparsing, indexing and saving report back.
-/

namespace ClangLens

/-- The outcome of parsing, reparsing or indexing. -/
inductive Status where
  | success | failure | crashed | invalidArguments | astReadError
deriving DecidableEq

instance : CodeTable Status where
  typeName := "ErrorCode"
  label := "ErrorCode"
  entries := [
    ⟨.success, 0, "Success"⟩, ⟨.failure, 1, "Failure"⟩, ⟨.crashed, 2, "Crashed"⟩,
    ⟨.invalidArguments, 3, "InvalidArguments"⟩, ⟨.astReadError, 4, "AstReadError"⟩]

/-- The outcome of saving. -/
inductive SaveStatus where
  | none | unspecified | translationErrors | invalidTu
deriving DecidableEq

instance : CodeTable SaveStatus where
  typeName := "SaveError"
  label := "SaveError"
  entries := [
    ⟨.none, 0, "None"⟩, ⟨.unspecified, 1, "Unspecified"⟩,
    ⟨.translationErrors, 2, "TranslationErrors"⟩, ⟨.invalidTu, 3, "InvalidTu"⟩]

end ClangLens
