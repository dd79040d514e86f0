import Mathlib.Data.List.Nodup
import ClangLens.Proofs.CommandLine.Reading

/-!
# Written and read

Every layout of an invocation is read as that invocation, whatever the order of its options and
however each is written. What stands on the two sides of the subcommand amounts together to what
would be given on one side, and there the order of items does not matter.
-/

namespace ClangLens

open CommandLine

/-! ## Two sides -/

namespace CommandLine.Given

/-- What is given on two sides, the second winning over the first. -/
def merge (g h : Given) : Given where
  compileCommands := h.compileCommands.or g.compileCommands
  logLevel := h.logLevel.or g.logLevel
  logFile := h.logFile.or g.logFile
  json := h.json || g.json
  limit := h.limit.or g.limit
  noMacros := h.noMacros || g.noMacros
  patterns := h.patterns || g.patterns
  file := h.file.or g.file
  line := h.line.or g.line
  column := h.column.or g.column
  args := h.args ++ g.args

theorem merge_empty (g : Given) : g.merge {} = g := rfl

theorem merge_add (g h : Given) (item : Item) : g.merge (h.add item) = (g.merge h).add item := by
  cases item <;> rfl

/-- Items go to the second side as they would to a single one. -/
theorem merge_foldl (g h : Given) (items : List Item) :
    g.merge (items.foldl add h) = items.foldl add (g.merge h) := by
  induction items generalizing h with
  | nil => rfl
  | cons item items ih => rw [List.foldl_cons, ih, merge_add, List.foldl_cons]

/-- Items about different subjects amount to the same in every order. -/
theorem foldl_perm {items items' : List Item} (h : items.Perm items')
    (hnodup : (items.map Item.subject).Nodup) (g : Given) :
    items.foldl add g = items'.foldl add g := by
  refine h.foldl_eq' (fun a ha b hb g => ?_) g
  by_cases hab : a = b
  · rw [hab]
  · exact add_comm (fun hsubject => hab (List.inj_on_of_nodup_map hnodup ha hb hsubject)) g

/-- Only options that may stand at either side are given. -/
def IsShared (g : Given) : Prop :=
  g = { compileCommands := g.compileCommands, logLevel := g.logLevel, logFile := g.logFile,
        json := g.json }

theorem IsShared.foldl {items : List Item} (hitems : ∀ item ∈ items, item.isShared) {g : Given}
    (hg : g.IsShared) : (items.foldl add g).IsShared := by
  induction items generalizing g with
  | nil => exact hg
  | cons item items ih =>
    rw [List.forall_mem_cons] at hitems
    refine ih hitems.2 ?_
    have hitem := hitems.1
    unfold IsShared at hg ⊢
    rw [hg]
    cases item <;> first | rfl | cases hitem

/-- Shared options on the first side leave everything else on the second. -/
theorem merge_shared {g : Given} (hg : g.IsShared) (h : Given) :
    g.merge h = { h with
      compileCommands := h.compileCommands.or g.compileCommands
      logLevel := h.logLevel.or g.logLevel
      logFile := h.logFile.or g.logFile
      json := h.json || g.json } := by
  unfold IsShared at hg
  rw [hg]
  simp [merge]

theorem foldl_args (items : List Item) (g : Given) : (items.foldl add g).args = g.args := by
  induction items generalizing g with
  | nil => rfl
  | cons item items ih =>
    rw [List.foldl_cons, ih]
    cases item <;> rfl

end CommandLine.Given

/-! ## Items of an invocation -/

namespace Invocation

/-- All subjects, in the order of an invocation's items. -/
def subjects : List Subject :=
  [.option .compileCommands, .option .logLevel, .option .logFile, .option .json, .option .limit,
    .option .noMacros, .option .patterns, .slot .file, .slot .line, .slot .column]

theorem option_sublist {α : Type} (f : α → Item) (s : Subject) (hf : ∀ a, (f a).subject = s)
    (o : Option α) : List.Sublist ((o.toList.map f).map Item.subject) [s] := by
  cases o with
  | none => exact List.nil_sublist _
  | some a =>
    show List.Sublist [(f a).subject] [s]
    rw [hf a]

theorem switch_sublist (b : Bool) (item : Item) :
    List.Sublist ((if b then [item] else []).map Item.subject) [item.subject] := by
  cases b with
  | false => exact List.nil_sublist _
  | true => exact List.Sublist.refl _

/-- Items stand in the order of their subjects, each at most once. -/
theorem items_sublist (i : Invocation) : List.Sublist (i.items.map Item.subject) subjects := by
  have hshared : List.Sublist (i.shared.map Item.subject) (subjects.take 4) := by
    unfold shared
    rw [List.map_append, List.map_append, List.map_append]
    have hcommands := option_sublist .compileCommands _ (fun _ => rfl) i.compileCommands
    have hlevel := option_sublist .logLevel _ (fun _ => rfl) i.logLevel
    have hfile := option_sublist .logFile _ (fun _ => rfl) i.logFile
    exact ((hcommands.append hlevel).append hfile).append (switch_sublist i.json .json)
  have hcommand : List.Sublist (i.command.items.map Item.subject) (subjects.drop 4) := by
    have hfile : List.Sublist [Subject.slot .file] (subjects.drop 4) := by decide
    cases i.command with
    | version => exact List.nil_sublist _
    | diagnostics file args => exact hfile
    | references file args => exact hfile
    | outline file args => exact hfile
    | complete file line column limit noMacros patterns args =>
      unfold Subcommand.items
      rw [List.map_append, List.map_append, List.map_append]
      have hlimit := option_sublist .limit _ (fun _ => rfl) limit
      have hmacros := switch_sublist noMacros .noMacros
      have hpatterns := switch_sublist patterns .patterns
      exact ((hlimit.append hmacros).append hpatterns).append (List.Sublist.refl _)
  unfold items
  rw [List.map_append, ← List.take_append_drop 4 subjects]
  exact hshared.append hcommand

theorem items_nodup (i : Invocation) : (i.items.map Item.subject).Nodup :=
  i.items_sublist.nodup (by decide)

theorem mem_shared {i : Invocation} {item : Item} (h : item ∈ i.shared) : item.isShared := by
  unfold shared at h
  simp only [List.mem_append, List.mem_map, List.mem_ite_nil_right, List.mem_singleton] at h
  rcases h with ((⟨a, -, rfl⟩ | ⟨a, -, rfl⟩) | ⟨a, -, rfl⟩) | ⟨-, rfl⟩ <;> rfl

/-- The places of an invocation are those of its subcommand. -/
theorem filterMap_slot? (i : Invocation) :
    i.items.filterMap Item.slot? = (Level.behind i.command.name).slots := by
  have hshared : i.shared.filterMap Item.slot? = [] := by
    rw [List.filterMap_eq_nil_iff]
    intro item hitem
    have h := mem_shared hitem
    cases item <;> first | rfl | cases h
  unfold items
  rw [List.filterMap_append, hshared, List.nil_append]
  cases i.command with
  | version => rfl
  | diagnostics file args => rfl
  | references file args => rfl
  | outline file args => rfl
  | complete file line column limit noMacros patterns args =>
    cases limit <;> cases noMacros <;> cases patterns <;> rfl

/-- Shared options amount to what an invocation says beside its subcommand. -/
theorem foldl_shared (i : Invocation) : i.shared.foldl Given.add {} =
    { compileCommands := i.compileCommands, logLevel := i.logLevel, logFile := i.logFile,
      json := i.json } := by
  obtain ⟨compileCommands, logLevel, logFile, json, command⟩ := i
  cases compileCommands <;> cases logLevel <;> cases logFile <;> cases json <;> rfl

end Invocation

/-- The items of a subcommand and its arguments amount to the subcommand, and touch nothing that
may stand at either side. -/
theorem Subcommand.foldl_items (c : Subcommand) {g : Given} (hg : g.IsShared) :
    subcommandOf c.name { c.items.foldl Given.add g with args := c.args } = .ok c ∧
      (c.items.foldl Given.add g).compileCommands = g.compileCommands ∧
      (c.items.foldl Given.add g).logLevel = g.logLevel ∧
      (c.items.foldl Given.add g).logFile = g.logFile ∧
      (c.items.foldl Given.add g).json = g.json := by
  unfold Given.IsShared at hg
  rw [hg]
  cases c with
  | version => exact ⟨rfl, rfl, rfl, rfl, rfl⟩
  | diagnostics file args => exact ⟨rfl, rfl, rfl, rfl, rfl⟩
  | references file args => exact ⟨rfl, rfl, rfl, rfl, rfl⟩
  | outline file args => exact ⟨rfl, rfl, rfl, rfl, rfl⟩
  | complete file line column limit noMacros patterns args =>
    cases limit <;> cases noMacros <;> cases patterns <;> exact ⟨rfl, rfl, rfl, rfl, rfl⟩

theorem Subcommand.limit_lt {c : Subcommand} (hc : c.Fits) {n : Nat} (h : .limit n ∈ c.items) :
    n < UInt64.size := by
  cases c with
  | complete file line column limit noMacros patterns args =>
    refine hc n ?_
    unfold items at h
    cases noMacros <;> cases patterns <;> simpa using h
  | _ => simp [items] at h

/-! ## Sides -/

theorem takes_shared {item : Item} (h : item.isShared) (c : CommandName) :
    Takes .front item ∧ Takes (.behind c) item := by
  cases item <;> first | (cases c <;> exact ⟨rfl, rfl⟩) | cases h

theorem Subcommand.takes {c : Subcommand} {item : Item} (h : item ∈ c.items) :
    Takes (.behind c.name) item := by
  cases c with
  | version => cases h
  | diagnostics file args =>
    rw [List.mem_singleton.mp h]
    exact rfl
  | references file args =>
    rw [List.mem_singleton.mp h]
    exact rfl
  | outline file args =>
    rw [List.mem_singleton.mp h]
    exact rfl
  | complete file line column limit noMacros patterns args => cases item <;> exact rfl

/-- What the words of both sides say, once both are read. -/
theorem parse_eq {words rest : List Word} {c : CommandName} (hc : c ≠ .help)
    {p p' q q' : Progress} {command : Subcommand}
    (hfront : readWords .front { slots := Level.front.slots } words = .ok (p, some (c, rest)))
    (hbehind : readWords (.behind c) { slots := (Level.behind c).slots } rest = .ok (q, none))
    (hq : q.settle = .ok q') (hcommand : subcommandOf c q'.given = .ok command)
    (hp : p.settle = .ok p') :
    parse words = .ok ⟨q'.given.compileCommands.or p'.given.compileCommands,
      q'.given.logLevel.or p'.given.logLevel, q'.given.logFile.or p'.given.logFile,
      q'.given.json || p'.given.json, command⟩ := by
  unfold parse
  rw [hfront, bind_ok]
  cases c with
  | help => exact absurd rfl hc
  | _ =>
    dsimp only
    rw [hbehind, bind_ok]
    dsimp only
    rw [hq, bind_ok, hcommand, bind_ok, hp, bind_ok]
    rfl

namespace Layout

variable {i : Invocation}

theorem mem_items (l : Layout i) {x : Piece} (hx : x ∈ l.front ++ l.behind) : x.item ∈ i.items :=
  l.items.subset (List.mem_map_of_mem hx)

theorem subjects_nodup (l : Layout i) :
    (((l.front ++ l.behind).map Piece.item).map Item.subject).Nodup :=
  (l.items.map Item.subject).nodup_iff.mpr i.items_nodup

theorem readable (l : Layout i) (hi : i.command.Fits) {x : Piece} (hx : x ∈ l.front ++ l.behind) :
    x.item.Readable := by
  refine ⟨fun v hv => (l.writable x hx v hv).1, fun n hn => ?_⟩
  have hmem := l.mem_items hx
  rw [hn] at hmem
  rcases List.mem_append.mp hmem with hshared | hcommand
  · cases Invocation.mem_shared hshared
  · exact Subcommand.limit_lt hi hcommand

theorem takes_behind (l : Layout i) {x : Piece} (hx : x ∈ l.behind) :
    Takes (.behind i.command.name) x.item := by
  rcases List.mem_append.mp (l.mem_items (List.mem_append_right _ hx)) with hshared | hcommand
  · exact (takes_shared (Invocation.mem_shared hshared) _).2
  · exact Subcommand.takes hcommand

/-- The words in front are read up to the name of the subcommand. -/
theorem readWords_front (l : Layout i) (hi : i.command.Fits) (rest : List Word) :
    ∃ p, readWords .front { slots := Level.front.slots }
        (l.front.flatMap Piece.words ++ Utf8.encode i.command.name.spelling :: rest) =
          .ok (p, some (i.command.name, rest)) ∧
      Stands p ((l.front.map Piece.item).foldl Given.add {}) [] := by
  have hleft {x : Piece} (hx : x ∈ l.front) : x ∈ l.front ++ l.behind :=
    List.mem_append_left _ hx
  have hslots : (l.front.map Piece.item).filterMap Item.slot? = [] := by
    rw [List.filterMap_eq_nil_iff]
    intro item hitem
    obtain ⟨x, hx, rfl⟩ := List.mem_map.mp hitem
    have h := l.shared x hx
    cases hx : x.item <;> rw [hx] at h <;> first | rfl | cases h
  have hstart : Stands { slots := Level.front.slots } {}
      ((l.front.map Piece.item).filterMap Item.slot? ++ []) := by
    rw [hslots]
    exact .settled {} []
  have hnodup := l.subjects_nodup
  rw [List.map_append, List.map_append] at hnodup
  obtain ⟨p, hread, hp⟩ := readWords_pieces [] (Utf8.encode i.command.name.spelling :: rest)
    l.front hstart (fun x hx => l.writable x (hleft hx)) (fun x hx => l.readable hi (hleft hx))
    (fun x hx => (takes_shared (l.shared x hx) .version).1) hnodup.of_append_left
    (fun x _ => Given.lacks_empty x.item)
  have hname : commandAt? .front p (Utf8.encode i.command.name.spelling) =
      some i.command.name := by
    unfold commandAt?
    rw [hp.trailing, hp.waiting]
    exact ofWord?_name _
  refine ⟨p, ?_, hp⟩
  rw [hread, readWords, hname]

/-- The words behind are read to their end. -/
theorem readWords_behind (l : Layout i) (hi : i.command.Fits) :
    ∃ q q', readWords (.behind i.command.name) { slots := (Level.behind i.command.name).slots }
        (l.behind.flatMap Piece.words ++ argumentWords i.command.args) = .ok (q, none) ∧
      q.settle = .ok q' ∧
      q'.given = { (l.behind.map Piece.item).foldl Given.add {} with args := i.command.args } := by
  have hright {x : Piece} (hx : x ∈ l.behind) : x ∈ l.front ++ l.behind :=
    List.mem_append_right _ hx
  have hstart : Stands { slots := (Level.behind i.command.name).slots } {}
      ((l.behind.map Piece.item).filterMap Item.slot? ++ []) := by
    rw [l.ordered, i.filterMap_slot?, List.append_nil]
    exact .settled {} _
  have hnodup := l.subjects_nodup
  rw [List.map_append, List.map_append] at hnodup
  have hcommand : (Level.behind i.command.name).takesCommand = false := by
    cases i.command <;> rfl
  have hargs : i.command.args ≠ [] → (Level.behind i.command.name).takesArgs := by
    intro h
    cases hc : i.command <;> rw [hc] at h <;> first | rfl | exact absurd rfl h
  obtain ⟨p, hread, hp⟩ := readWords_pieces [] (argumentWords i.command.args) l.behind hstart
    (fun x hx => l.writable x (hright hx)) (fun x hx => l.readable hi (hright hx))
    (fun x hx => l.takes_behind hx) hnodup.of_append_right (fun x _ => Given.lacks_empty x.item)
  obtain ⟨q, q', hrest, hq, hgiven⟩ :=
    readWords_arguments hp hcommand hargs (Given.foldl_args _ {})
  exact ⟨q, q', hread.trans hrest, hq, hgiven⟩

/-- The two sides together amount to the items of the invocation on one side. -/
theorem merge_eq (l : Layout i) :
    ((l.front.map Piece.item).foldl Given.add {}).merge
        ((l.behind.map Piece.item).foldl Given.add {}) =
      i.command.items.foldl Given.add (i.shared.foldl Given.add {}) := by
  rw [Given.merge_foldl, Given.merge_empty, ← List.foldl_append, ← List.map_append,
    Given.foldl_perm l.items l.subjects_nodup, Invocation.items, List.foldl_append]

end Layout

/-- A subcommand is told nothing by what may stand at either side. -/
theorem subcommandOf_merge {g : Given} (hg : g.IsShared) (h : Given) (c : CommandName)
    (args : List String) :
    subcommandOf c { g.merge h with args := args } = subcommandOf c { h with args := args } := by
  rw [Given.merge_shared hg]
  cases c <;> rfl

/-- **Round trip.** Every layout of an invocation is read as that invocation. -/
theorem parse_words {i : Invocation} (hi : i.command.Fits) (l : Layout i) :
    parse l.words = .ok i := by
  obtain ⟨p, hfront, hp⟩ := l.readWords_front hi
    (l.behind.flatMap Piece.words ++ argumentWords i.command.args)
  obtain ⟨q, q', hbehind, hq, hgiven⟩ := l.readWords_behind hi
  have hover := l.merge_eq
  have hshared : ((l.front.map Piece.item).foldl Given.add {}).IsShared := by
    refine Given.IsShared.foldl (fun item hitem => ?_) rfl
    obtain ⟨x, hx, rfl⟩ := List.mem_map.mp hitem
    exact l.shared x hx
  generalize (l.front.map Piece.item).foldl Given.add {} = g at hp hover hshared
  generalize (l.behind.map Piece.item).foldl Given.add {} = h at hgiven hover
  obtain ⟨hcommand, hdatabase, hlevel, hfile, hjson⟩ :=
    i.command.foldl_items (g := i.shared.foldl Given.add {}) (by rw [i.foldl_shared]; rfl)
  rw [← hover, i.foldl_shared] at hdatabase hlevel hfile hjson
  rw [← hover, subcommandOf_merge hshared, ← hgiven] at hcommand
  have hhelp : i.command.name ≠ .help := by cases i.command <;> exact CommandName.noConfusion
  rw [Layout.words, ← i.command.spelling_name,
    parse_eq hhelp hfront hbehind hq hcommand hp.settle, hgiven]
  show Except.ok (Invocation.mk (g.merge h).compileCommands (g.merge h).logLevel (g.merge h).logFile
    (g.merge h).json i.command) = _
  rw [hdatabase, hlevel, hfile, hjson]

/-! ## A layout -/

/-- An invocation whose database looks like an option and whose arguments do as well. -/
def oddInvocation : Invocation where
  compileCommands := some (Path.ofString "-odd")
  logLevel := some "debug"
  logFile := none
  json := true
  command := .complete (Path.ofString "a.c") 3 7 (some 5) true false ["", "--", "--json"]

/-- Options on both sides of the subcommand and between its places. -/
def oddLayout : Layout oddInvocation where
  front := [⟨.logLevel "debug", false⟩, ⟨.json, false⟩]
  behind := [⟨.limit 5, true⟩, ⟨.file (Path.ofString "a.c"), false⟩,
    ⟨.compileCommands (Path.ofString "-odd"), true⟩, ⟨.line 3, false⟩, ⟨.noMacros, false⟩,
    ⟨.column 7, false⟩]
  items := by decide +kernel
  shared := by decide
  ordered := by decide +kernel
  writable := by decide +kernel

theorem oddLayout_words : oddLayout.words =
    ["--log-level", "debug", "--json", "complete", "--limit=5", "a.c", "--compile-commands=-odd",
      "3", "--no-macros", "7", "--", "", "--", "--json"].map Utf8.encode := by
  decide +kernel

theorem oddLayout_parsed : oddInvocation.command.Fits ∧
    parse (["--log-level", "debug", "--json", "complete", "--limit=5", "a.c",
      "--compile-commands=-odd", "3", "--no-macros", "7", "--", "", "--", "--json"].map
        Utf8.encode) = .ok oddInvocation := by
  have hfits : oddInvocation.command.Fits := by
    intro n hn
    cases hn
    decide
  refine ⟨hfits, ?_⟩
  rw [← oddLayout_words]
  exact parse_words hfits oddLayout

end ClangLens
