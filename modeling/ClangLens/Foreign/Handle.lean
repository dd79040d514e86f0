import ClangLens.Text.Utf8

/-!
# Things of the library

What the library hands out is known by a number only. Some things are ours to release, once; the
others belong to something that is. Where the library may hand out nothing, the type is an `Option`.
-/

namespace ClangLens

/-! ## To be released -/

/-- What translation units are parsed in. -/
structure Index where
  id : Nat
deriving DecidableEq

/-- A parsed file with everything it includes. -/
structure TranslationUnit where
  id : Nat
deriving DecidableEq

/-- A run of the indexer over units of one index. -/
structure IndexAction where
  id : Nat
deriving DecidableEq

/-- What the compiler has to say about a place. -/
structure Diagnostic where
  id : Nat
deriving DecidableEq

/-- The results of code completion at a place. -/
structure Completions where
  id : Nat
deriving DecidableEq

/-- A text the library keeps for us. -/
structure ForeignString where
  id : Nat
deriving DecidableEq

/-- Something to be released. Releasing nothing is allowed where the library may have handed out
nothing. -/
inductive Resource where
  | index (index : Option Index)
  | unit (unit : TranslationUnit)
  | action (action : Option IndexAction)
  | diagnostic (diagnostic : Diagnostic)
  | completions (set : Completions)
  | string (string : Option ForeignString)
deriving DecidableEq

/-! ## Lent by their owner -/

/-- A node of the syntax tree of a unit. -/
structure Cursor where
  id : Nat
deriving DecidableEq

/-- A place in the source of a unit. -/
structure Location where
  id : Nat
deriving DecidableEq

/-- A stretch of source from a place to a place. -/
structure Extent where
  id : Nat
deriving DecidableEq

/-- A file of a unit. -/
structure File where
  id : Nat
deriving DecidableEq

/-- A node of a documentation comment. -/
structure Comment where
  id : Nat
deriving DecidableEq

/-- What a completion result would insert, in pieces. -/
structure Phrase where
  id : Nat
deriving DecidableEq

/-- A place as the indexer knows it. -/
structure IndexPlace where
  id : Nat
deriving DecidableEq

end ClangLens
