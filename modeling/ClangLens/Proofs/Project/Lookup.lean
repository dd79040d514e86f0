import ClangLens.Project.Arguments
import ClangLens.Proofs.Path.Meaning

/-!
# Lookup in a database

What a database answers for a path is decided by what the path means, and by the first entry whose
file it is. So entries behind that one change nothing, and only for the files of entries is there
an answer.
-/

namespace ClangLens

theorem DatabaseEntry.matches?_iff {e : DatabaseEntry} {p : Path} :
    e.matches? p ↔ e.file.same p ∨ (e.directory.join e.file).same p :=
  Bool.or_eq_true_iff

namespace Database

variable {db : Database} {p q : Path}

/-! ## The entry for a path -/

theorem entryFor?_congr (h : p.same q) : db.entryFor? p = db.entryFor? q := by
  have hmatches : ∀ e : DatabaseEntry, e.matches? p = e.matches? q := fun e => by
    rw [DatabaseEntry.matches?, DatabaseEntry.matches?, Path.same, Path.same, Path.same, Path.same,
      of_decide_eq_true h]
  rw [entryFor?, entryFor?, funext hmatches]

theorem containsFile_iff : db.containsFile p ↔ ∃ e ∈ db.entries, e.matches? p :=
  List.find?_isSome

/-- An entry that is found stays found when others are put behind it. -/
theorem entryFor?_append (more : List DatabaseEntry) (h : db.containsFile p) :
    entryFor? { db with entries := db.entries ++ more } p = db.entryFor? p := by
  obtain ⟨e, he⟩ := Option.isSome_iff_exists.mp h
  have hfirst : db.entries.find? (·.matches? p) = some e := he
  rw [he, entryFor?, List.find?_append, hfirst, Option.some_or]

/-! ## Lists of paths -/

theorem mem_of_mem_firstOfRuns {paths : List Path} (h : p ∈ firstOfRuns paths) : p ∈ paths := by
  fun_induction firstOfRuns paths with
  | case1 => exact h
  | case2 q => exact h
  | case3 q r rest _ ih =>
    obtain rfl | hrest := List.mem_cons.mp (ih h)
    · exact List.mem_cons_self
    · exact List.mem_cons_of_mem _ (List.mem_cons_of_mem _ hrest)
  | case4 q r rest _ ih =>
    obtain rfl | hrest := List.mem_cons.mp h
    · exact List.mem_cons_self
    · exact List.mem_cons_of_mem _ (ih hrest)

theorem mem_of_mem_sourceFiles (h : p ∈ db.sourceFiles) : ∃ e ∈ db.entries, e.file = p :=
  List.mem_map.mp (List.mem_mergeSort.mp (mem_of_mem_firstOfRuns h))

/-! ## Lookups -/

/-- What a database has to do with a path. -/
structure LooksUp (db : Database) : Prop where
  same : ∀ p q, p.same q →
    db.containsFile p = db.containsFile q ∧ db.argumentsFor p = db.argumentsFor q
  containsFile : ∀ p, db.containsFile p ↔
    ∃ e ∈ db.entries, e.file.same p ∨ (e.directory.join e.file).same p
  sourceFiles : ∀ p ∈ db.sourceFiles, db.containsFile p
  location : ∀ e ∈ db.entries, db.containsFile (e.directory.join e.file)
  argumentsFor : ∀ p, (db.argumentsFor p).isSome → db.containsFile p
  append : ∀ more p, db.containsFile p →
    Database.containsFile { db with entries := db.entries ++ more } p = db.containsFile p ∧
      Database.argumentsFor { db with entries := db.entries ++ more } p = db.argumentsFor p

/-- **Lookup.** A database answers for what a path means, by its first entry for that. Paths mean
the same if they differ by repeated slashes, slashes at the end and dots behind a slash, and in
nothing else; what a joined path means is decided by what its parts mean. -/
theorem lookups_by_meaning :
    (∀ p q : Path, p.same q ↔ Relation.EqvGen Path.Respells p q) ∧
      (∀ p q : Path, (p.join q).components = Path.joined p.components q.components) ∧
      ∀ db : Database, db.LooksUp := by
  refine ⟨fun p q => Path.same_iff_eqvGen, Path.components_join, fun db => ?_⟩
  have hcontains : ∀ p, db.containsFile p ↔
      ∃ e ∈ db.entries, e.file.same p ∨ (e.directory.join e.file).same p := fun p => by
    simp only [containsFile_iff, DatabaseEntry.matches?_iff]
  have hself : ∀ p : Path, p.same p := fun p => decide_eq_true rfl
  refine ⟨fun p q h => ?_, hcontains, fun p hp => ?_, fun e he => ?_, fun p hp => ?_,
    fun more p hp => ?_⟩
  · rw [Database.containsFile, Database.containsFile, Database.argumentsFor, Database.argumentsFor,
      entryFor?_congr h]
    exact ⟨rfl, rfl⟩
  · obtain ⟨e, he, rfl⟩ := mem_of_mem_sourceFiles hp
    exact (hcontains _).mpr ⟨e, he, .inl (hself _)⟩
  · exact (hcontains _).mpr ⟨e, he, .inr (hself _)⟩
  · obtain ⟨arguments, harguments⟩ := Option.isSome_iff_exists.mp hp
    obtain ⟨e, he, -⟩ := Option.bind_eq_some_iff.mp harguments
    exact Option.isSome_iff_exists.mpr ⟨e, he⟩
  · have hfound := entryFor?_append more hp
    rw [Database.containsFile, Database.containsFile, Database.argumentsFor, Database.argumentsFor,
      hfound]
    exact ⟨rfl, rfl⟩

/-- Two entries for one file, the first of which names it with a dot. -/
def dotted : Database :=
  ⟨⟨[]⟩, [⟨.ofString "/d/", .ofString "./a.c", ["cc", "-O2"], none⟩,
    ⟨.ofString "/", .ofString "d/a.c", ["cc"], none⟩]⟩

/-- The file of both is looked up by another spelling, in the first entry. -/
theorem dotted_lookup :
    dotted.argumentsFor (.ofString "/d//a.c/.") = some ["-working-directory=/d/", "-O2"] ∧
      dotted.containsFile (.ofString "/d//a.c/.") := by
  have hlookup := lookups_by_meaning.2.2 dotted
  have hsame := (hlookup.same (.ofString "/d//a.c/.") (.ofString "/d/a.c") (by decide)).2
  have harguments : dotted.argumentsFor (.ofString "/d/a.c") =
      some ["-working-directory=/d/", "-O2"] := by decide
  rw [harguments] at hsame
  exact ⟨hsame, hlookup.argumentsFor _ (by rw [hsame]; rfl)⟩

end Database

end ClangLens
