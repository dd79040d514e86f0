import Mathlib.Data.List.Basic
import ClangLens.Command.Outline
import ClangLens.Proofs.Codes
import ClangLens.Proofs.Running
import ClangLens.Script.Library

/-!
# The outline of a tree

A library that shows a finite tree of cursors makes an outline out of visits inside visits, each of
which adds to a list of its own. What comes of it is said by recursion on the tree: the children in
order, without those that are not listed, and with what is listed of their own children if they are
scopes.
-/

namespace ClangLens

open Dialogue

variable {α β L : Type} {library : Library L}

/-! ## Steady answers -/

/-- Comes to one value, whatever state the library is in. -/
def Dialogue.Tells (library : Library L) (d : Dialogue α) (a : α) : Prop :=
  ∀ l, ∃ l', d.run library l = (some a, l')

namespace Dialogue

theorem tells_done (a : α) : Tells library (.done a) a := fun l => ⟨l, rfl⟩

theorem Tells.bind {d : Dialogue α} {f : α → Dialogue β} {a : α} {b : β} (hd : d.Tells library a)
    (hf : (f a).Tells library b) : (d >>= f).Tells library b := by
  intro l
  obtain ⟨l₁, hrun⟩ := hd l
  obtain ⟨l₂, hrun'⟩ := hf l₁
  exact ⟨l₂, by rw [bind_eq, run_bind hrun, hrun']⟩

end Dialogue

/-! ## Trees -/

/-- Nothing in a list goes beyond a maximum taken over the list by recursion. -/
theorem le_recursive_max {f : α → ℕ} {all : List α → ℕ}
    (hcons : ∀ a rest, all (a :: rest) = max (f a) (all rest)) {a : α} {items : List α}
    (h : a ∈ items) : f a ≤ all items := by
  induction items with
  | nil => cases h
  | cons b rest ih =>
    rw [hcons]
    rcases List.mem_cons.mp h with rfl | h
    · exact Nat.le_max_left _ _
    · exact Nat.le_trans (ih h) (Nat.le_max_right _ _)

/-- What the library says of a cursor. -/
structure CursorFacts where
  /-- The number of its kind. -/
  kind : UInt32
  inMainFile : Bool
  /-- Whether the library counts its kind to the declarations. -/
  isDeclaration : Bool
  name : String
  span : Option FileSpan
  isDefinition : Bool
  comment : Option String

/-- A cursor with what is said of it and what is below it. -/
inductive CursorTree where
  | node (cursor : Cursor) (facts : CursorFacts) (children : List CursorTree)

namespace CursorFacts

def cursorKind (f : CursorFacts) : Coded CursorKind := .ofCode f.kind

/-- Declarations of the main file are listed, access specifiers are not. -/
def Listed (f : CursorFacts) : Prop :=
  f.inMainFile ∧ f.isDeclaration ∧ f.cursorKind ≠ .named .cxxAccessSpecifier

instance (f : CursorFacts) : Decidable f.Listed := inferInstanceAs (Decidable (_ ∧ _ ∧ _))

/-- The kinds that declare what is below them. -/
def scopeKinds : List (Coded CursorKind) :=
  [.named .namespaceDecl, .named .structDecl, .named .classDecl, .named .unionDecl,
    .named .enumDecl, .named .classTemplate, .named .linkageSpec]

end CursorFacts

namespace CursorTree

def cursor : CursorTree → Cursor
  | node cursor _ _ => cursor

def facts : CursorTree → CursorFacts
  | node _ facts _ => facts

def children : CursorTree → List CursorTree
  | node _ _ children => children

mutual

/-- The entry of a tree, with what is listed below it if it is a scope. -/
def entry : CursorTree → OutlineEntry
  | node _ f children =>
    .mk f.name f.cursorKind.spelling f.span f.isDefinition f.comment
      (if f.cursorKind ∈ CursorFacts.scopeKinds then outline children else [])

/-- The entries of the trees that are listed. -/
def outline : List CursorTree → List OutlineEntry
  | [] => []
  | t :: rest => if t.facts.Listed then t.entry :: outline rest else outline rest

end

mutual

/-- How many cursors lie on the longest way down. -/
def height : CursorTree → ℕ
  | node _ _ children => heightAll children + 1

def heightAll : List CursorTree → ℕ
  | [] => 0
  | t :: rest => max t.height (heightAll rest)

end

theorem entry_eq (t : CursorTree) :
    t.entry =
      .mk t.facts.name t.facts.cursorKind.spelling t.facts.span t.facts.isDefinition
        t.facts.comment
        (if t.facts.cursorKind ∈ CursorFacts.scopeKinds then outline t.children else []) := by
  cases t
  rw [entry]
  rfl

theorem outline_eq (forest : List CursorTree) :
    outline forest = (forest.filter fun t => t.facts.Listed).map entry := by
  induction forest with
  | nil => rfl
  | cons t rest ih =>
    rw [outline, List.filter_cons]
    by_cases h : t.facts.Listed
    · rw [if_pos h, if_pos (decide_eq_true h), List.map_cons, ih]
    · rw [if_neg h, if_neg (by simpa using h), ih]

theorem outline_eq_flatMap (forest : List CursorTree) :
    outline forest = forest.flatMap fun t => if t.facts.Listed then [t.entry] else [] := by
  induction forest with
  | nil => rfl
  | cons t rest ih =>
    rw [outline, List.flatMap_cons, ih]
    split <;> rfl

theorem height_le_heightAll {t : CursorTree} {forest : List CursorTree} (h : t ∈ forest) :
    t.height ≤ heightAll forest :=
  le_recursive_max (fun _ _ => by rw [heightAll]) h

theorem height_eq (t : CursorTree) : t.height = heightAll t.children + 1 := by
  cases t
  rw [height, children]

end CursorTree

/-! ## Libraries that show a tree -/

/-- A traversal through cursors, as long as it is answered with 1 to go on behind each. -/
inductive Traversal.Visits : Traversal → List Cursor → Prop where
  | finished {broken : UInt32} : (finished broken).Visits []
  | child {cursor parent : Cursor} {next : UInt32 → Traversal} {rest : List Cursor}
      (h : (next 1).Visits rest) : (Traversal.child cursor parent next).Visits (cursor :: rest)

/-- What the library says of a cursor whenever it is asked. -/
structure CursorFacts.Told (library : Library L) (c : Cursor) (f : CursorFacts) : Prop where
  kind : (askNumber (.cursorKind c)).Tells library f.kind
  inMainFile : (do (← c.location).isInMainFile).Tells library f.inMainFile
  isDeclaration : (askTruth (.kindIn .declaration f.kind)).Tells library f.isDeclaration
  name : c.displayName.Tells library f.name
  span : (do (← c.extent).span?).Tells library f.span
  isDefinition : c.isDefinition.Tells library f.isDefinition
  comment : c.briefComment?.Tells library f.comment

/-- The library shows trees below a cursor: it visits their roots in order, says of each what the
tree says, and shows the trees below it. -/
inductive Shows (library : Library L) : Cursor → List CursorTree → Prop where
  | intro {c : Cursor} {forest : List CursorTree}
      (visits : ∀ l, (library (.visitChildren c) l).1.Visits (forest.map CursorTree.cursor))
      (told : ∀ t ∈ forest, t.facts.Told library t.cursor)
      (below : ∀ t ∈ forest, Shows library t.cursor t.children) : Shows library c forest

/-! ## Visits -/

/-- Taking up children, by induction on the trees they are the roots of. -/
theorem Traversal.drive_visits {f : List β → Cursor → Dialogue (List β)}
    {out : CursorTree → List β} {forest : List CursorTree} {traversal : Traversal}
    (h : traversal.Visits (forest.map CursorTree.cursor))
    (hf : ∀ t ∈ forest, ∀ s, (f s t.cursor).Tells library (s ++ out t)) (s : List β) (l : L) :
    ∃ broken l', (traversal.drive (π := Empty) (fun s child _ => do
        return (← f s child, .ok (.named .next))) s).run library l =
      (some (s ++ forest.flatMap out, .ok broken), l') := by
  induction forest generalizing traversal s l with
  | nil =>
    cases h with
    | finished => exact ⟨_, l, by rw [List.flatMap_nil, List.append_nil]; rfl⟩
  | cons t rest ih =>
    rw [List.map_cons] at h
    rw [List.forall_mem_cons] at hf
    cases h with
    | child h =>
      obtain ⟨l₁, hrun⟩ := hf.1 s l
      obtain ⟨broken, l₂, hrest⟩ := ih h hf.2 (s ++ out t) (library (.answerVisit 1) l₁).2
      refine ⟨broken, l₂, ?_⟩
      rw [Traversal.drive, bind_eq, bind_eq, Dialogue.bind_assoc, run_bind hrun]
      show (Traversal.drive _ _ _).run library _ = _
      rw [List.flatMap_cons, ← List.append_assoc]
      exact hrest

theorem Cursor.foldChildren_tells {f : List β → Cursor → Dialogue (List β)}
    {out : CursorTree → List β} {c : Cursor} {forest : List CursorTree}
    (hvisits : ∀ l, (library (.visitChildren c) l).1.Visits (forest.map CursorTree.cursor))
    (hf : ∀ t ∈ forest, ∀ s, (f s t.cursor).Tells library (s ++ out t)) (s : List β) :
    (c.foldChildren f s).Tells library (s ++ forest.flatMap out) := by
  intro l
  obtain ⟨broken, l', hdrive⟩ :=
    Traversal.drive_visits (hvisits l) hf s (library (.visitChildren c) l).2
  refine ⟨l', ?_⟩
  unfold Cursor.foldChildren Cursor.visit
  rw [bind_eq, bind_eq, Dialogue.bind_assoc, ask_bind, run_call, bind_eq, Dialogue.bind_assoc,
    run_bind hdrive]
  rfl

/-! ## What is listed -/

theorem CursorFacts.isScope_iff (f : CursorFacts) :
    Command.isScope f.cursorKind = decide (f.cursorKind ∈ scopeKinds) := by
  cases f.cursorKind with
  | unknown code => simp [Command.isScope, scopeKinds]
  | named kind => cases kind <;> rfl

namespace CursorFacts.Told

variable {c : Cursor} {f : CursorFacts}

theorem cursorKind (h : f.Told library c) : c.kind.Tells library f.cursorKind :=
  h.kind.bind (tells_done _)

theorem isListed (h : f.Told library c) :
    (Command.isListed c f.cursorKind).Tells library (decide f.Listed) := by
  have hquestions : Command.isListed c f.cursorKind = (do
      let inMainFile ← (do (← c.location).isInMainFile)
      if !inMainFile then return false
      if !(← askTruth (.kindIn .declaration f.kind)) then return false
      return f.cursorKind ≠ .named .cxxAccessSpecifier) := by
    unfold Command.isListed CursorKind.isIn
    rw [CursorFacts.cursorKind, Coded.code_ofCode Coded.cursorKind_distinct]
    rfl
  rw [hquestions]
  refine h.inMainFile.bind ?_
  cases hmain : f.inMainFile with
  | false =>
    have hnot : ¬ f.Listed := fun hlisted => by simp [hlisted.1] at hmain
    rw [decide_eq_false hnot]
    exact tells_done _
  | true =>
    refine h.isDeclaration.bind ?_
    cases hdeclaration : f.isDeclaration with
    | false =>
      have hnot : ¬ f.Listed := fun hlisted => by simp [hlisted.2.1] at hdeclaration
      rw [decide_eq_false hnot]
      exact tells_done _
    | true =>
      have hkind : f.Listed ↔ f.cursorKind ≠ .named .cxxAccessSpecifier :=
        ⟨fun hlisted => hlisted.2.2, fun hkind => ⟨hmain, hdeclaration, hkind⟩⟩
      rw [decide_eq_decide.mpr hkind]
      exact tells_done _

end CursorFacts.Told

/-- What a visitor adds for a child is the entry of its tree, if that is listed. -/
theorem Command.outlineOf_tells {root : Cursor} {forest : List CursorTree}
    (h : Shows library root forest) {depth : ℕ} (hdepth : CursorTree.heightAll forest < depth) :
    (outlineOf depth root).Tells library (CursorTree.outline forest) := by
  induction depth generalizing root forest with
  | zero => exact absurd hdepth (Nat.not_lt_zero _)
  | succ depth ih =>
    obtain ⟨hvisits, htold, hbelow⟩ := h
    rw [CursorTree.outline_eq_flatMap]
    refine Cursor.foldChildren_tells hvisits (fun t ht s => ?_) []
    have htold := htold t ht
    have hchildren : CursorTree.heightAll t.children < depth := by
      have hheight := CursorTree.height_le_heightAll ht
      rw [CursorTree.height_eq] at hheight
      omega
    refine htold.cursorKind.bind (htold.isListed.bind ?_)
    by_cases hlisted : t.facts.Listed
    · rw [if_pos hlisted, decide_eq_true hlisted, if_pos rfl, CursorTree.entry_eq]
      refine htold.name.bind ?_
      show Tells library ((do (← t.cursor.extent).span?) >>= fun span => _) _
      refine htold.span.bind (htold.isDefinition.bind (htold.comment.bind ?_))
      rw [CursorFacts.isScope_iff]
      by_cases hscope : t.facts.cursorKind ∈ CursorFacts.scopeKinds
      · rw [if_pos hscope, decide_eq_true hscope, if_pos rfl]
        exact (ih (hbelow t ht) hchildren).bind (tells_done _)
      · rw [if_neg hscope, decide_eq_false hscope]
        exact tells_done _
    · rw [if_neg hlisted, decide_eq_false hlisted, List.append_nil]
      exact tells_done _

/-! ## Scripts -/

namespace Script

variable (s : Script)

/-- The span of a stretch of source in a script. -/
def spanOf (e : Extent) : Option FileSpan := do
  let (start, stop) ← stretchOf e
  let start := (s.locationRow start).spelling
  let stop := (s.locationRow stop).spelling
  let file ← start.file
  return ⟨Path.ofString (ForeignString.read (s.fileRow file).name),
    ⟨⟨start.line, start.column⟩, ⟨stop.line, stop.column⟩⟩⟩

/-- What the library of a script says of a cursor. -/
def facts (c : Cursor) : CursorFacts where
  kind := (s.cursorRow c).kind
  inMainFile := (s.locationRow (s.cursorRow c).location).inMainFile ≠ 0
  isDeclaration := inGroup (s.cursorRow c).kind .declaration
  name := ForeignString.read (s.cursorRow c).displayName
  span := s.spanOf (extentOf (s.cursorRow c).extent)
  isDefinition := (s.cursorRow c).isDefinition ≠ 0
  comment := nonEmpty (ForeignString.read (s.cursorRow c).briefComment)

/-- What is below a cursor, no deeper than `depth`. -/
def forest : ℕ → Cursor → List CursorTree
  | 0, _ => []
  | depth + 1, c => (s.cursorRow c).children.map fun d => .node d (s.facts d) (forest depth d)

/-- Whether nothing is below a cursor deeper than `depth`. -/
def endsWithin : ℕ → Cursor → Bool
  | 0, c => (s.cursorRow c).children.isEmpty
  | depth + 1, c => (s.cursorRow c).children.all (endsWithin depth)

theorem siblings_visits (descend : Cursor → Traversal → Traversal) (parent : Cursor)
    (cursors : List Cursor) (broken : UInt32) :
    (siblings descend parent cursors (.finished broken)).Visits cursors := by
  induction cursors with
  | nil => exact .finished
  | cons c rest ih => exact .child ih

theorem traversalOf_visits (c : Cursor) : (s.traversalOf c).Visits (s.cursorRow c).children := by
  obtain ⟨n, hn⟩ : ∃ n, s.visitDepth = n + 1 := ⟨s.cursors.length + (UInt32.size - 1), rfl⟩
  unfold traversalOf
  rw [hn]
  exact siblings_visits _ c _ 0

theorem takeString_handText (m : Memory) (text : Text) :
    ∃ m', (takeString (m.handText text).1).run s.library (m.handText text).2 =
      (some (ForeignString.read text), m') := by
  have hread : ((takeString (m.handText text).1).run s.library (m.handText text).2).1 =
      some (ForeignString.read text) := by
    show some (ForeignString.read (((m.texts.push text)[m.texts.size]?).getD none)) = _
    rw [Array.getElem?_push_size, Option.getD_some]
  exact ⟨_, Prod.ext hread rfl⟩

theorem askText_tells (q : TextQuestion) :
    (askText q).Tells s.library (ForeignString.read (s.textAnswer q)) :=
  fun _ => s.takeString_handText _ _

theorem askTruth_tells {q : NumberQuestion} {b : Bool}
    (h : ∀ m, s.numberAnswer m q = truthCode b) : (askTruth q).Tells s.library b := by
  intro m
  refine ⟨m, ?_⟩
  show (some (decide (s.numberAnswer m q ≠ 0)), m) = _
  rw [h m]
  cases b <;> rfl

theorem fileName?_tells (a : PlaceAnswer) :
    (Place.ofAnswer a).fileName?.Tells s.library
      (a.file.map fun f => ForeignString.read (s.fileRow f).name) := by
  unfold Place.fileName? Place.ofAnswer
  cases a.file with
  | none => exact tells_done _
  | some f => exact (s.askText_tells (.fileName f)).bind (tells_done _)

theorem span?_tells (e : Extent) : e.span?.Tells s.library (s.spanOf e) := by
  have hnull : e.isNull.Tells s.library (stretchOf e).isNone := s.askTruth_tells fun _ => rfl
  have hplace : ∀ l : Location, l.spelling.Tells s.library (.ofAnswer (s.locationRow l).spelling) :=
    fun l m => ⟨m, rfl⟩
  refine hnull.bind ?_
  unfold spanOf
  cases hstretch : stretchOf e with
  | none => exact tells_done _
  | some ends =>
    obtain ⟨start, stop⟩ := ends
    have hstart : e.start.Tells s.library start := fun m => by
      refine ⟨m, ?_⟩
      show (some (((stretchOf e).map Prod.fst).getD (.ofRow none)), m) = _
      rw [hstretch, Option.map_some, Option.getD_some]
    have hstop : e.stop.Tells s.library stop := fun m => by
      refine ⟨m, ?_⟩
      show (some (((stretchOf e).map Prod.snd).getD (.ofRow none)), m) = _
      rw [hstretch, Option.map_some, Option.getD_some]
    refine hstart.bind ((hplace start).bind (hstop.bind ((hplace stop).bind ?_)))
    refine (s.fileName?_tells _).bind ?_
    dsimp only [Option.bind_eq_bind, Option.bind_some]
    cases (s.locationRow start).spelling.file with
    | none => exact tells_done _
    | some file => exact tells_done _

theorem facts_told (c : Cursor) : (s.facts c).Told s.library c where
  kind m := ⟨m, rfl⟩
  inMainFile m := ⟨m, rfl⟩
  isDeclaration := s.askTruth_tells fun _ => rfl
  name := s.askText_tells _
  span := Tells.bind (fun m => ⟨m, rfl⟩) (s.span?_tells _)
  isDefinition m := ⟨m, rfl⟩
  comment := (s.askText_tells _).bind (tells_done _)

/-- A script whose cursors end shows what is below them. -/
theorem forest_shows {depth : ℕ} {c : Cursor} (h : s.endsWithin depth c) :
    Shows s.library c (s.forest depth c) := by
  induction depth generalizing c with
  | zero =>
    have hempty : (s.cursorRow c).children = [] := by simpa [endsWithin] using h
    refine .intro (fun l => ?_) (by simp [forest]) (by simp [forest])
    have hvisits := s.traversalOf_visits c
    rwa [hempty] at hvisits
  | succ depth ih =>
    rw [endsWithin, List.all_eq_true] at h
    refine .intro (fun l => ?_) ?_ ?_
    · have hroots : (s.forest (depth + 1) c).map CursorTree.cursor = (s.cursorRow c).children := by
        rw [forest, List.map_map]
        exact List.map_id _
      rw [hroots]
      exact s.traversalOf_visits c
    · rw [forest, List.forall_mem_map]
      exact fun d _ => s.facts_told d
    · rw [forest, List.forall_mem_map]
      exact fun d hd => ih (h d hd)

end Script

/-! ## Outlines -/

/-- **Outline.** In a library that shows trees below a cursor, the outline of the cursor is that of
the trees: the entries of those that are listed, in order. -/
theorem Command.outline_recursive (library : Library L) (root : Cursor) (forest : List CursorTree)
    (h : Shows library root forest) (depth : ℕ) (hdepth : CursorTree.heightAll forest < depth) :
    (outlineOf depth root).Tells library (CursorTree.outline forest) ∧
      CursorTree.outline forest =
        (forest.filter fun t => t.facts.Listed).map CursorTree.entry :=
  ⟨outlineOf_tells h hdepth, CursorTree.outline_eq forest⟩

/-- Scopes and a function in a namespace, and cursors that are not listed with some below them. Some
of those that are listed have a stretch of source or a comment, and some are definitions. -/
def nestedScript : Script where
  files := [{ name := some (Utf8.encode "a.c") }]
  locations := [
    { spelling := ⟨some ⟨0⟩, 1, 1, 0⟩, inMainFile := 1 }, {},
    { spelling := ⟨some ⟨0⟩, 9, 2, 0⟩ }, { spelling := ⟨some ⟨0⟩, 2, 3, 0⟩ }]
  cursors := [
    { kind := 350, children := [⟨2⟩, ⟨5⟩, ⟨8⟩, ⟨9⟩] },
    { kind := 22, location := ⟨1⟩, displayName := some [110], extent := some (⟨1⟩, ⟨3⟩),
      isDefinition := 1, children := [⟨3⟩, ⟨4⟩] },
    { kind := 2, location := ⟨1⟩, displayName := some [115], extent := some (⟨4⟩, ⟨4⟩),
      briefComment := some [112], children := [⟨6⟩, ⟨7⟩] },
    { kind := 8, location := ⟨1⟩, displayName := some [102], briefComment := some [],
      isDefinition := 1, children := [⟨10⟩] },
    { kind := 2, location := ⟨2⟩, displayName := some [104], children := [⟨11⟩] },
    { kind := 39, location := ⟨1⟩ },
    { kind := 6, location := ⟨1⟩, displayName := some [120] },
    { kind := 100, location := ⟨1⟩, children := [⟨11⟩] },
    { kind := 23, location := ⟨1⟩, children := [⟨11⟩] },
    { kind := 9, location := ⟨1⟩, displayName := some [118] },
    { kind := 8, location := ⟨1⟩, displayName := some [103] }]

theorem Command.nestedScript_outlined :
    Shows nestedScript.library ⟨1⟩ (nestedScript.forest 3 ⟨1⟩) ∧
      CursorTree.heightAll (nestedScript.forest 3 ⟨1⟩) < 4 ∧
      ∃ m', (outlineOf 4 ⟨1⟩).run nestedScript.library {} = (some [
        .mk "n" "Cursor=Namespace" (some ⟨.ofString "a.c", ⟨⟨1, 1⟩, ⟨9, 2⟩⟩⟩) true none [
          .mk "s" "Cursor=StructDecl" (some (.point (.ofString "a.c") ⟨2, 3⟩)) false (some "p")
            [.mk "x" "Cursor=FieldDecl" none false none []],
          .mk "f" "Cursor=FunctionDecl" none true none []],
        .mk "" "Cursor=LinkageSpec" none false none
          [.mk "g" "Cursor=FunctionDecl" none false none []]], m') := by
  have hshows : Shows nestedScript.library ⟨1⟩ (nestedScript.forest 3 ⟨1⟩) :=
    nestedScript.forest_shows (by decide +kernel)
  have hheight : CursorTree.heightAll (nestedScript.forest 3 ⟨1⟩) < 4 := by decide +kernel
  obtain ⟨houtline, -⟩ := outline_recursive nestedScript.library ⟨1⟩ _ hshows 4 hheight
  obtain ⟨m', hrun⟩ := houtline {}
  refine ⟨hshows, hheight, m', hrun.trans ?_⟩
  refine congrArg (fun entries => (some entries, m')) ?_
  decide +kernel

end ClangLens
