import ClangLens.Foreign.Handle
import ClangLens.Foreign.Marshal

/-!
# Calls on the library

Everything that is ever asked of the library, with the type of its answer. Questions that differ
only in what they ask about are grouped by what they answer: a text, a number, a node, a place.
Numbers are answered as the library gives them; what they mean is decided by the asker.

Two calls hand the library a function to call back. Their answer is what the library does from then
on: which calls back it makes, each depending on what the earlier ones were answered. What a call
back is answered is handed over as a call of its own.
-/

namespace ClangLens

/-! ## Records -/

/-- A unit may be handed out even with a status that says otherwise. -/
structure ParseAnswer where
  status : UInt32
  unit : Option TranslationUnit

/-- A place resolved to a file and a position. -/
structure PlaceAnswer where
  file : Option File
  line : UInt32
  column : UInt32
  offset : UInt32

/-- Whether a file has an identity, and which. -/
structure FileIdAnswer where
  status : UInt32
  parts : UInt64 × UInt64 × UInt64

/-- A completion result: what it stands for and what it would insert. -/
structure CompletionRecord where
  kind : UInt32
  phrase : Option Phrase

/-- The results of a set: as many as counted, unless there is no array. -/
structure CompletionArray where
  count : UInt32
  results : Option (Vector CompletionRecord count.toNat)

/-- What encloses the completion point. -/
structure ContainerAnswer where
  kind : UInt32
  incomplete : UInt32

/-- A text and the stretch of source it would replace. -/
structure FixItAnswer where
  replacement : Option ForeignString
  range : Extent

/-- An entity as the indexer reports it; its texts stay with the library. -/
structure EntityRecord where
  kind : UInt32
  name : Option Bytes
  usr : Option Bytes
  cursor : Cursor

/-- A declaration as the indexer reports it. -/
structure DeclarationRecord where
  entity : Option EntityRecord
  cursor : Cursor
  place : IndexPlace
  /-- The cursor of the semantic container. -/
  semantic : Option Cursor
  /-- The cursor of the lexical container. -/
  lexical : Option Cursor
  isDefinition : UInt32
  isRedeclaration : UInt32
  isImplicit : UInt32
  isContainer : UInt32

/-- A reference to an entity as the indexer reports it. -/
structure ReferenceRecord where
  kind : UInt32
  cursor : Cursor
  place : IndexPlace
  entity : Option EntityRecord
  /-- The entity the reference appears in. -/
  parent : Option EntityRecord
  /-- The cursor of the container. -/
  container : Option Cursor
  role : UInt32

/-! ## Calls back -/

/-- What the library does while it visits children: it asks about a child of a parent, and goes on
as the answer says, or it is done and says whether it was broken off. -/
inductive Traversal where
  | finished (broken : UInt32)
  | child (cursor parent : Cursor) (next : UInt32 → Traversal)

/-- What the library does while it indexes: it asks whether to go on, reports a declaration or a
reference, perhaps without saying which, or it is done with a status. -/
inductive IndexRun where
  | finished (status : UInt32)
  | abortQuery (next : UInt32 → IndexRun)
  | declaration (record : Option DeclarationRecord) (next : IndexRun)
  | reference (record : Option ReferenceRecord) (next : IndexRun)

/-! ## Questions -/

/-- Questions answered with a text of ours to release. -/
inductive TextQuestion where
  | version
  | unitSpelling (unit : TranslationUnit)
  | fileName (file : File)
  | fileRealPath (file : File)
  | cursorSpelling (cursor : Cursor)
  | cursorDisplayName (cursor : Cursor)
  | cursorUsr (cursor : Cursor)
  | cursorRawComment (cursor : Cursor)
  | cursorBriefComment (cursor : Cursor)
  | diagnosticSpelling (diagnostic : Diagnostic)
  | diagnosticFormat (diagnostic : Diagnostic) (options : UInt32)
  | diagnosticCategory (diagnostic : Diagnostic)
  | chunkText (phrase : Phrase) (index : UInt32)
  | phraseBriefComment (phrase : Phrase)
  | annotationText (phrase : Phrase) (index : UInt32)
  | phraseParent (phrase : Phrase)
  | containerUsr (set : Completions)
  | objCSelector (set : Completions)
  | commentText (comment : Comment)
  | inlineCommandName (comment : Comment)
  | blockCommandName (comment : Comment)
  | paramName (comment : Comment)
  | inlineArgument (comment : Comment) (index : UInt32)
  | commentHtml (comment : Comment)
  | commentXml (comment : Comment)
deriving DecidableEq

/-- Groups of cursor kinds. -/
inductive KindGroup where
  | declaration | reference | expression | statement | attribute | invalid | translationUnit
  | preprocessing
deriving DecidableEq

/-- Questions answered with a number. -/
inductive NumberQuestion where
  | defaultDisplayOptions
  | defaultCompleteFlags
  | defaultEditingFlags
  | globalOptions (index : Option Index)
  | reparseOptions (unit : TranslationUnit)
  | saveOptions (unit : TranslationUnit)
  | unitDiagnostics (unit : TranslationUnit)
  | cursorKind (cursor : Cursor)
  | cursorIsNull (cursor : Cursor)
  | cursorIsDefinition (cursor : Cursor)
  | cursorsEqual (first second : Cursor)
  | kindIn (group : KindGroup) (kind : UInt32)
  | filesEqual (first second : File)
  | locationsEqual (first second : Location)
  | locationInMainFile (location : Location)
  | locationInSystemHeader (location : Location)
  | extentIsNull (extent : Extent)
  | severity (diagnostic : Diagnostic)
  | diagnosticRanges (diagnostic : Diagnostic)
  | diagnosticFixIts (diagnostic : Diagnostic)
  | completionDiagnostics (set : Completions)
  | completionFixIts (set : Completions) (index : UInt32)
  | chunks (phrase : Phrase)
  | chunkKind (phrase : Phrase) (index : UInt32)
  | priority (phrase : Phrase)
  | availability (phrase : Phrase)
  | annotations (phrase : Phrase)
  | commentKind (comment : Comment)
  | commentChildren (comment : Comment)
  | commentIsWhitespace (comment : Comment)
  | renderKind (comment : Comment)
  | inlineArguments (comment : Comment)
deriving DecidableEq

/-- Questions answered with a node. -/
inductive CursorQuestion where
  | ofUnit (unit : TranslationUnit)
  | semanticParent (cursor : Cursor)
  | lexicalParent (cursor : Cursor)
  | referenced (cursor : Cursor)
  | definition (cursor : Cursor)
deriving DecidableEq

/-- Questions answered with a place in the source. -/
inductive LocationQuestion where
  | inFile (unit : TranslationUnit) (file : File) (line column : UInt32)
  | ofCursor (cursor : Cursor)
  | ofDiagnostic (diagnostic : Diagnostic)
  | ofPlace (place : IndexPlace)
  | startOf (extent : Extent)
  | stopOf (extent : Extent)
deriving DecidableEq

/-- Questions answered with a stretch of source. -/
inductive ExtentQuestion where
  | ofCursor (cursor : Cursor)
  | ofDiagnostic (diagnostic : Diagnostic) (index : UInt32)
deriving DecidableEq

/-- Questions answered with a file and a position. -/
inductive PlaceQuestion where
  | spelling (location : Location)
  | expansion (location : Location)
  | indexed (place : IndexPlace)
deriving DecidableEq

/-- What a diagnostic is asked from. -/
inductive DiagnosticOwner where
  | unit (unit : TranslationUnit)
  | completions (set : Completions)
deriving DecidableEq

/-- What a fix-it is asked from. -/
inductive FixItOwner where
  | diagnostic (diagnostic : Diagnostic)
  | completion (set : Completions) (index : UInt32)
deriving DecidableEq

/-! ## Calls -/

/-- A call on the library. -/
inductive Call where
  | load
  | unload
  | createIndex (excludeFromPch displayDiagnostics : UInt32)
  | setGlobalOptions (index : Option Index) (options : UInt32)
  | parse (index : Option Index) (source : ForeignText) (args : ForeignArray ForeignText)
      (unsaved : ForeignArray UnsavedRecord) (flags : UInt32)
  | reparse (unit : TranslationUnit) (unsaved : ForeignArray UnsavedRecord) (options : UInt32)
  | save (unit : TranslationUnit) (path : ForeignText) (options : UInt32)
  | fileNamed (unit : TranslationUnit) (name : ForeignText)
  | fileTime (file : File)
  | fileId (file : File)
  | diagnostic (owner : DiagnosticOwner) (index : UInt32)
  /-- The text that turns a diagnostic on, and the one that turns it off. -/
  | diagnosticOption (diagnostic : Diagnostic)
  | fixIt (owner : FixItOwner) (index : UInt32)
  | complete (unit : TranslationUnit) (file : ForeignText) (line column : UInt32)
      (unsaved : ForeignArray UnsavedRecord) (flags : UInt32)
  /-- The array of a set is read where it lies. -/
  | results (set : Completions)
  /-- The array that lies in a set, if there is one, is put in order. -/
  | sortResults (array : Option Completions) (count : UInt32)
  | contexts (set : Completions)
  | container (set : Completions)
  | chunkPhrase (phrase : Phrase) (index : UInt32)
  | parsedComment (cursor : Cursor)
  | commentChild (comment : Comment) (index : UInt32)
  | visitChildren (cursor : Cursor)
  | answerVisit (code : UInt32)
  | createAction (index : Option Index)
  | index (action : Option IndexAction) (unit : TranslationUnit) (flags : UInt32)
  | answerAbortQuery (code : UInt32)
  | text (question : TextQuestion)
  | number (question : NumberQuestion)
  | cursor (question : CursorQuestion)
  | location (question : LocationQuestion)
  | extent (question : ExtentQuestion)
  | place (question : PlaceQuestion)
  /-- The bytes of a text, unless there are none. -/
  | stringBytes (string : Option ForeignString)
  | release (resource : Resource)

/-- What a call is answered with. -/
@[reducible] def Call.Answer : Call → Type
  | .load | .unload => Except String Unit
  | .createIndex .. => Option Index
  | .setGlobalOptions .. => Unit
  | .parse .. => ParseAnswer
  | .reparse .. | .save .. => UInt32
  | .fileNamed .. => Option File
  | .fileTime _ => Int64
  | .fileId _ => FileIdAnswer
  | .diagnostic .. => Option Diagnostic
  | .diagnosticOption _ => Option ForeignString × Option ForeignString
  | .fixIt .. => FixItAnswer
  | .complete .. => Option Completions
  | .results _ => CompletionArray
  | .sortResults .. => Unit
  | .contexts _ => UInt64
  | .container _ => ContainerAnswer
  | .chunkPhrase .. => Option Phrase
  | .parsedComment _ | .commentChild .. => Option Comment
  | .visitChildren _ => Traversal
  | .createAction _ => Option IndexAction
  | .index .. => IndexRun
  | .text _ => Option ForeignString
  | .number _ => UInt32
  | .cursor _ => Cursor
  | .location _ => Location
  | .extent _ => Extent
  | .place _ => PlaceAnswer
  | .stringBytes _ => Option Bytes
  | .answerVisit _ | .answerAbortQuery _ | .release _ => Unit

end ClangLens
