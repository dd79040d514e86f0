import ClangLens.Codes.Cursor
import ClangLens.Foreign.Dialogue
import ClangLens.Script.Log
import ClangLens.Script.Tables

/-!
# The library that follows a script

A library that answers every call from the tables of a script. What it remembers is what it has to:
the texts it handed out, the options it was given, which results are in order, and a log.
-/

namespace ClangLens.Script

/-! ## Memory -/

structure Memory where
  /-- The number of the next thing handed out to be released, texts apart. -/
  next : Nat := 1
  log : Array LoggedCall := #[]
  /-- The texts handed out so far. -/
  texts : Array Text := #[]
  /-- How many texts were released. -/
  released : Nat := 0
  /-- The global options that were set, latest first. -/
  options : List (Index × UInt32) := []
  /-- How often a unit was parsed again. -/
  reparses : Nat := 0
  /-- The sets whose results were put in order. -/
  sorted : List Completions := []

namespace Memory

/-- Texts handed out and not released. -/
def outstanding (m : Memory) : Int := m.texts.size - m.released

/-- One more call in the log. -/
def note (m : Memory) (c : LoggedCall) : Memory := { m with log := m.log.push c }

/-- A number that was not handed out before. -/
def fresh (m : Memory) : Nat × Memory := (m.next, { m with next := m.next + 1 })

/-- A text to hand out. -/
def handText (m : Memory) (text : Text) : Option ForeignString × Memory :=
  (some ⟨m.texts.size⟩, { m with texts := m.texts.push text })

/-- Something released; texts are counted. -/
def release (m : Memory) (r : Resource) : Memory :=
  match r with
  | .string none => m
  | .string (some _) => { m with released := m.released + 1 }
  | r => m.note (.release r)

end Memory

/-! ## Rows by handle -/

variable (s : Script)

def fileRow (f : File) : FileRow := (s.files[f.id]?).getD {}

def locationRow (l : Location) : LocationRow := (rowAt s.locations l.id).getD {}

/-- The row of a cursor. The null cursor is known by its kind; a row that is not there is empty. -/
def cursorRow (c : Cursor) : CursorRow :=
  if c.id = 0 then { kind := nullKind } else (rowAt s.cursors c.id).getD {}

def commentRow (c : Comment) : CommentRow := (s.comments[c.id]?).getD {}

def diagnosticRow (d : Diagnostic) : DiagnosticRow := (s.diagnostics[d.id]?).getD {}

def phraseRow (p : Phrase) : PhraseRow := (s.phrases[p.id]?).getD {}

def chunkRow (p : Phrase) (i : UInt32) : ChunkRow := ((s.phraseRow p).chunks[i.toNat]?).getD {}

def completionTable : CompletionTable := s.completion.getD {}

/-- A number above the handle of every place. -/
def placeBound : Nat := UInt64.size

/-- The handle of a stretch: 0 for none, else the handles of its ends as two digits. -/
def extentOf : Stretch → Extent
  | none => ⟨0⟩
  | some (start, stop) => ⟨start.id * placeBound + stop.id + 1⟩

/-- The stretch behind a handle. -/
def stretchOf (e : Extent) : Stretch :=
  match e.id with
  | 0 => none
  | n + 1 => some (⟨n / placeBound⟩, ⟨n % placeBound⟩)

/-- Where a place is expanded: where it is spelled, unless its row says otherwise. -/
def expansionOf (l : Location) : PlaceAnswer :=
  (s.locationRow l).expansion.getD (s.locationRow l).spelling

def fixItRows : FixItOwner → List FixItRow
  | .diagnostic d => (s.diagnosticRow d).fixIts
  | .completion _ i => (s.completionTable.fixIts[i.toNat]?).getD []

/-! ## Answers -/

/-- How many items a list has. -/
def count {α : Type} (l : List α) : UInt32 := l.length.toUInt32

/-- Whether a kind belongs to a group. -/
def inGroup (kind : UInt32) : KindGroup → Bool
  | .declaration => 1 ≤ kind && kind ≤ 39 || 600 ≤ kind && kind ≤ 603
  | .reference => 40 ≤ kind && kind ≤ 50
  | .invalid => 70 ≤ kind && kind ≤ 73
  | .expression => 100 ≤ kind && kind ≤ 199
  | .statement => 200 ≤ kind && kind ≤ 299
  | .translationUnit => kind = 350
  | .attribute => 400 ≤ kind && kind ≤ 499
  | .preprocessing => 500 ≤ kind && kind ≤ 599

def textAnswer : TextQuestion → Text
  | .version => s.version
  | .unitSpelling _ => s.spelling
  | .fileName f => (s.fileRow f).name
  | .fileRealPath f => (s.fileRow f).realPath
  | .cursorSpelling c => (s.cursorRow c).spelling
  | .cursorDisplayName c => (s.cursorRow c).displayName
  | .cursorUsr c => (s.cursorRow c).usr
  | .cursorRawComment c => (s.cursorRow c).rawComment
  | .cursorBriefComment c => (s.cursorRow c).briefComment
  | .diagnosticSpelling d => (s.diagnosticRow d).spelling
  | .diagnosticFormat d _ => (s.diagnosticRow d).format
  | .diagnosticCategory d => (s.diagnosticRow d).category
  | .chunkText p i => (s.chunkRow p i).text
  | .phraseBriefComment p => (s.phraseRow p).briefComment
  | .annotationText p i => ((s.phraseRow p).annotations[i.toNat]?).getD none
  | .phraseParent p => (s.phraseRow p).parent
  | .containerUsr _ => s.completionTable.usr
  | .objCSelector _ => s.completionTable.selector
  | .commentText c => (s.commentRow c).text
  | .inlineCommandName c => (s.commentRow c).inlineCommand
  | .blockCommandName c => (s.commentRow c).blockCommand
  | .paramName c => (s.commentRow c).param
  | .inlineArgument c i => ((s.commentRow c).args[i.toNat]?).getD none
  | .commentHtml c => (s.commentRow c).html
  | .commentXml c => (s.commentRow c).xml

def numberAnswer (m : Memory) : NumberQuestion → UInt32
  | .defaultDisplayOptions => s.proposals.display
  | .defaultCompleteFlags => s.proposals.complete
  | .defaultEditingFlags => s.proposals.editing
  | .globalOptions i => (i.bind fun i => List.lookup i m.options).getD s.globalOptions
  | .reparseOptions _ => s.proposals.reparse
  | .saveOptions _ => s.proposals.save
  | .unitDiagnostics _ => count s.unitDiagnostics
  | .cursorKind c => (s.cursorRow c).kind
  | .cursorIsNull c => truthCode (c.id = 0)
  | .cursorIsDefinition c => (s.cursorRow c).isDefinition
  | .cursorsEqual c d => truthCode (c = d)
  | .kindIn group kind => truthCode (inGroup kind group)
  | .filesEqual f g => truthCode ((s.fileRow f).number = (s.fileRow g).number)
  | .locationsEqual l k => truthCode (l = k)
  | .locationInMainFile l => (s.locationRow l).inMainFile
  | .locationInSystemHeader l => (s.locationRow l).inSystemHeader
  | .extentIsNull e => truthCode (stretchOf e).isNone
  | .severity d => (s.diagnosticRow d).severity
  | .diagnosticRanges d => count (s.diagnosticRow d).ranges
  | .diagnosticFixIts d => count (s.diagnosticRow d).fixIts
  | .completionDiagnostics _ => count s.completionTable.diagnostics
  | .completionFixIts set i => count (s.fixItRows (.completion set i))
  | .chunks p => count (s.phraseRow p).chunks
  | .chunkKind p i => (s.chunkRow p i).kind
  | .priority p => (s.phraseRow p).priority
  | .availability p => (s.phraseRow p).availability
  | .annotations p => count (s.phraseRow p).annotations
  | .commentKind c => (s.commentRow c).kind
  | .commentChildren c => count (s.commentRow c).children
  | .commentIsWhitespace c => (s.commentRow c).isWhitespace
  | .renderKind c => (s.commentRow c).renderKind
  | .inlineArguments c => count (s.commentRow c).args

def cursorAnswer : CursorQuestion → Cursor
  | .ofUnit _ => .ofRow (some 0)
  | .semanticParent c => (s.cursorRow c).semanticParent
  | .lexicalParent c => (s.cursorRow c).lexicalParent
  | .referenced c => (s.cursorRow c).referenced
  | .definition c => (s.cursorRow c).definition

def locationAnswer : LocationQuestion → Location
  | .inFile .. => s.locationInFile
  | .ofCursor c => (s.cursorRow c).location
  | .ofDiagnostic d => (s.diagnosticRow d).location
  | .ofPlace p => ⟨p.id⟩
  | .startOf e => ((stretchOf e).map Prod.fst).getD (.ofRow none)
  | .stopOf e => ((stretchOf e).map Prod.snd).getD (.ofRow none)

def extentAnswer : ExtentQuestion → Extent
  | .ofCursor c => extentOf (s.cursorRow c).extent
  | .ofDiagnostic d i => extentOf (((s.diagnosticRow d).ranges[i.toNat]?).getD none)

def placeAnswer : PlaceQuestion → PlaceAnswer
  | .spelling l => (s.locationRow l).spelling
  | .expansion l => s.expansionOf l
  | .indexed p => s.expansionOf ⟨p.id⟩

def diagnosticAnswer (owner : DiagnosticOwner) (i : UInt32) : Option Diagnostic :=
  let table :=
    match owner with
    | .unit _ => s.unitDiagnostics
    | .completions _ => s.completionTable.diagnostics
  (table[i.toNat]?).getD none

/-- The results of a set; putting them in order turns them round. -/
def resultsAnswer (m : Memory) (set : Completions) : CompletionArray :=
  let rows := s.completionTable.results
  let rows := if set ∈ m.sorted then rows.reverse else rows
  if h : rows.length = (count rows).toNat ∧ rows ≠ [] then
    ⟨count rows, some ⟨rows.toArray, by simp [h.1]⟩⟩
  else ⟨count rows, none⟩

/-! ## Calling back -/

/-- The traversal of cursors under one parent, where one that is descended into is followed by what
is below it, and what comes last. -/
def siblings (descend : Cursor → Traversal → Traversal) (parent : Cursor) :
    List Cursor → Traversal → Traversal
  | [], last => last
  | c :: rest, last =>
    .child c parent fun code =>
      let after := siblings descend parent rest last
      match (Coded.ofCode code : Coded ChildVisit) with
      | .named .stop => .finished 1
      | .named .descend => descend c after
      | _ => after

/-- The traversal of what is below a cursor, no deeper than `depth`, and what comes last. -/
def below : Nat → Cursor → Traversal → Traversal
  | 0, _, last => last
  | depth + 1, parent, last => siblings (below depth) parent (s.cursorRow parent).children last

/-- How deep children are visited: deeper than any tree of these cursors, and where cursors are below
themselves, deeper than any visitor goes. -/
def visitDepth : Nat := s.cursors.length + UInt32.size

/-- The traversal of what is below a cursor. -/
def traversalOf (c : Cursor) : Traversal := s.below s.visitDepth c (.finished 0)

/-- The run of the indexer over events; it asks before each of them whether to stop. -/
def indexRunOf : List Event → IndexRun
  | [] => .finished s.indexing.status
  | e :: rest =>
    .abortQuery fun code =>
      if code ≠ 0 then .finished s.indexing.abortStatus
      else
        match e with
        | .declaration record => .declaration record (indexRunOf rest)
        | .reference record => .reference record (indexRunOf rest)

/-! ## The library -/

/-- The answer to a call, and what is remembered of it. -/
def library : Dialogue.Library Memory := fun call m =>
  match call with
  | .load | .unload => (.ok (), m)
  | .createIndex exclude display =>
    let (id, m) := m.fresh
    (some ⟨id⟩, m.note (.createIndex exclude display ⟨id⟩))
  | .setGlobalOptions i options =>
    ((), { m.note (.setGlobalOptions options) with
      options := (i.map fun i => (i, options)).toList ++ m.options })
  | .parse _ source args unsaved flags =>
    let m := m.note (.parse source args unsaved flags)
    if s.parsing.handsOutUnit then
      let (id, m) := m.fresh
      (⟨s.parsing.status, some ⟨id⟩⟩, m.note (.unit ⟨id⟩))
    else (⟨s.parsing.status, none⟩, m)
  | .reparse unit unsaved options =>
    ((s.reparseStatuses[m.reparses]?).getD 0,
      { m.note (.reparse unit unsaved options) with reparses := m.reparses + 1 })
  | .save _ path options => (s.saveStatus, m.note (.save path options))
  | .fileNamed _ name =>
    ((s.files.findIdx? fun f => f.name = some name.bytes).map File.mk, m)
  | .fileTime f => ((s.fileRow f).time, m)
  | .fileId f =>
    match (s.fileRow f).id with
    | some parts => (⟨0, parts⟩, m)
    | none => (⟨1, (0, 0, 0)⟩, m)
  | .diagnostic owner i =>
    match s.diagnosticAnswer owner i with
    | none => (none, m)
    | some d => (some d, m.fresh.2.note (.diagnostic d))
  | .diagnosticOption d =>
    let (enable, m) := m.handText (s.diagnosticRow d).enable
    let (disable, m) := m.handText (s.diagnosticRow d).disable
    ((enable, disable), m)
  | .fixIt owner i =>
    let row := ((s.fixItRows owner)[i.toNat]?).getD {}
    let (replacement, m) := m.handText row.replacement
    (⟨replacement, extentOf row.range⟩, m)
  | .complete _ file line column unsaved flags =>
    let m := m.note (.complete file line column unsaved flags)
    match s.completion with
    | none => (none, m)
    | some _ =>
      let (id, m) := m.fresh
      (some ⟨id⟩, m.note (.completions ⟨id⟩))
  | .results set => (s.resultsAnswer m set, m)
  | .sortResults array count =>
    ((), { m.note (.sortResults count) with sorted := array.toList ++ m.sorted })
  | .contexts _ => (s.completionTable.contexts, m)
  | .container _ => (⟨s.completionTable.container, s.completionTable.isIncomplete⟩, m)
  | .chunkPhrase p i => ((s.chunkRow p i).phrase, m)
  | .parsedComment c => ((s.cursorRow c).comment, m)
  | .commentChild c i => (((s.commentRow c).children[i.toNat]?).getD none, m)
  | .visitChildren c => (s.traversalOf c, m)
  | .answerVisit _ => ((), m)
  | .createAction _ =>
    let (id, m) := m.fresh
    (some ⟨id⟩, m.note (.createAction ⟨id⟩))
  | .index _ _ flags => (s.indexRunOf s.indexing.events, m.note (.index flags))
  | .answerAbortQuery code => ((), if code ≠ 0 then m.note .aborted else m)
  | .text q =>
    let m :=
      match q with
      | .diagnosticFormat _ options => m.note (.formatDiagnostic options)
      | _ => m
    m.handText (s.textAnswer q)
  | .number q => (s.numberAnswer m q, m)
  | .cursor q => (s.cursorAnswer q, m)
  | .location q =>
    let m :=
      match q with
      | .inFile _ f line column => m.note (.locationInFile f line column)
      | _ => m
    (s.locationAnswer q, m)
  | .extent q => (s.extentAnswer q, m)
  | .place q => (s.placeAnswer q, m)
  | .stringBytes t => (t.bind fun t => (m.texts[t.id]?).getD none, m)
  | .release r => ((), m.release r)

/-- The library of a script where it cannot be loaded. -/
def missing (reason : String) : Dialogue.Library Memory := fun call m =>
  match call with
  | .load => (.error reason, m)
  | call => s.library call m

end ClangLens.Script
