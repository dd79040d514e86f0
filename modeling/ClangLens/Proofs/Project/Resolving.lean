import ClangLens.Proofs.Building
import ClangLens.Proofs.Project.Filtering

/-!
# Where arguments come from

Arguments that are given with a request win, and then no database and no file system has a say.
Otherwise a database is asked for the file as it is spelled and, if that gives nothing, for its
canonical form; an entry without a command gives nothing. A parse request has the file as it is
spelled in either case.
-/

namespace ClangLens

open Request (hasNul)

/-! ## Databases -/

namespace Database

open DatabaseEntry (kept)

variable {db : Database} {canonical : Canonical} {file p : Path} {args : List String}

/-- The arguments that the first entry for a path gives, if it has a command. -/
def Gives (db : Database) (p : Path) (args : List String) : Prop :=
  ∃ front e back, db.FirstFor p front e back ∧ e.arguments ≠ [] ∧
    args = ("-working-directory=" ++ e.directory.text) :: kept e.sourceTexts e.arguments.tail

theorem Gives.ne_nil (h : db.Gives p args) : args ≠ [] := by
  obtain ⟨front, e, back, -, -, rfl⟩ := h
  exact List.cons_ne_nil _ _

theorem argumentsFor_eq_some_iff : db.argumentsFor p = some args ↔ db.Gives p args := by
  constructor
  · intro h
    obtain ⟨e, he, hargs⟩ := Option.bind_eq_some_iff.mp h
    obtain ⟨front, back, hfirst⟩ := entryFor?_eq_some.mp he
    have hsome : e.arguments ≠ [] := by
      intro hnone
      rw [DatabaseEntry.parseArguments_eq_none.mpr hnone] at hargs
      cases hargs
    rw [DatabaseEntry.parseArguments_eq hsome] at hargs
    exact ⟨front, e, back, hfirst, hsome, (Option.some.inj hargs).symm⟩
  · rintro ⟨front, e, back, hfirst, hsome, rfl⟩
    rw [hfirst.argumentsFor, DatabaseEntry.parseArguments_eq hsome]

theorem argumentsFor_eq_none_iff : db.argumentsFor p = none ↔ ∀ args, ¬ db.Gives p args := by
  simp only [Option.eq_none_iff_forall_ne_some, ne_eq, argumentsFor_eq_some_iff]

/-- What a database gives for a file as it is spelled or, where that is nothing, for its canonical
form. -/
inductive Knows (canonical : Canonical) (db : Database) (file : Path) : List String → Prop where
  | asSpelled {args : List String} (h : db.Gives file args) : Knows canonical db file args
  | canonically {q : Path} {args : List String} (hspelled : ∀ other, ¬ db.Gives file other)
      (hq : canonical file = some q) (h : db.Gives q args) : Knows canonical db file args

theorem Knows.ne_nil (h : db.Knows canonical file args) : args ≠ [] := by
  cases h with
  | asSpelled h => exact h.ne_nil
  | canonically hspelled hq h => exact h.ne_nil

theorem knows_iff :
    (db.argumentsFor file).or ((canonical file).bind db.argumentsFor) = some args ↔
      db.Knows canonical file args := by
  constructor
  · intro h
    cases hspelled : db.argumentsFor file with
    | some given =>
      rw [hspelled, Option.some_or] at h
      obtain rfl := Option.some.inj h
      exact .asSpelled (argumentsFor_eq_some_iff.mp hspelled)
    | none =>
      rw [hspelled, Option.none_or] at h
      obtain ⟨q, hq, hgiven⟩ := Option.bind_eq_some_iff.mp h
      exact .canonically (argumentsFor_eq_none_iff.mp hspelled) hq
        (argumentsFor_eq_some_iff.mp hgiven)
  · intro h
    cases h with
    | asSpelled h => rw [argumentsFor_eq_some_iff.mpr h, Option.some_or]
    | canonically hspelled hq h =>
      rw [argumentsFor_eq_none_iff.mpr hspelled, Option.none_or, hq, Option.bind_some,
        argumentsFor_eq_some_iff.mpr h]

end Database

/-! ## Origins -/

/-- The arguments for a file and where they come from: those given, else what a database knows, else
none. -/
inductive Resolves (canonical : Canonical) (file : Path) (explicit : List String)
    (db : Option Database) : List String × ArgumentSource → Prop where
  | given (h : explicit ≠ []) : Resolves canonical file explicit db (explicit, .commandLine)
  | known {d : Database} {args : List String} (h : explicit = []) (hdb : db = some d)
      (hargs : d.Knows canonical file args) : Resolves canonical file explicit db (args, .database)
  | unknown (h : explicit = []) (hnone : ∀ d ∈ db, ∀ args, ¬ d.Knows canonical file args) :
      Resolves canonical file explicit db ([], .none)

variable {canonical : Canonical} {file : Path} {explicit : List String} {db : Option Database}
  {outcome : List String × ArgumentSource}

/-- What is found in the database there may be. -/
theorem resolveArguments_nil (canonical : Canonical) (file : Path) (db : Option Database) :
    resolveArguments canonical file [] db =
      ((db.bind fun d =>
        (d.argumentsFor file).or ((canonical file).bind d.argumentsFor)).map
          fun args => (args, ArgumentSource.database)).getD ([], .none) := by
  unfold resolveArguments
  rw [if_neg (by simp)]
  dsimp only
  split
  next args hargs => rw [hargs]; rfl
  next hnone => rw [hnone]; rfl

theorem Resolves.resolveArguments_eq (h : Resolves canonical file explicit db outcome) :
    resolveArguments canonical file explicit db = outcome := by
  cases h with
  | given h => rw [resolveArguments, if_pos h]
  | known h hdb hargs =>
    rw [h, hdb, resolveArguments_nil, Option.bind_some, Database.knows_iff.mpr hargs]
    rfl
  | unknown h hnone =>
    have hfound : (db.bind fun d =>
        (d.argumentsFor file).or ((canonical file).bind d.argumentsFor)) = none := by
      rw [Option.eq_none_iff_forall_ne_some]
      intro args hargs
      obtain ⟨d, hd, hknown⟩ := Option.bind_eq_some_iff.mp hargs
      exact hnone d hd args (Database.knows_iff.mp hknown)
    rw [h, resolveArguments_nil, hfound]
    rfl

theorem exists_resolves (canonical : Canonical) (file : Path) (explicit : List String)
    (db : Option Database) : ∃ outcome, Resolves canonical file explicit db outcome := by
  by_cases h : explicit = []
  · by_cases hknown : ∃ d ∈ db, ∃ args, d.Knows canonical file args
    · obtain ⟨d, hd, args, hargs⟩ := hknown
      exact ⟨_, .known h hd hargs⟩
    · refine ⟨_, .unknown h fun d hd args hargs => hknown ⟨d, hd, args, hargs⟩⟩
  · exact ⟨_, .given h⟩

theorem resolveArguments_eq_iff :
    resolveArguments canonical file explicit db = outcome ↔
      Resolves canonical file explicit db outcome :=
  eq_iff_of_rules (fun _ => Resolves.resolveArguments_eq)
    (exists_resolves canonical file explicit db)

theorem source_eq_database_iff :
    (resolveArguments canonical file explicit db).2 = .database ↔
      explicit = [] ∧ ∃ d ∈ db, ∃ args, d.Knows canonical file args := by
  obtain ⟨outcome, h⟩ := exists_resolves canonical file explicit db
  rw [h.resolveArguments_eq]
  cases h with
  | given h => simp [h]
  | known h hdb hargs => exact iff_of_true rfl ⟨h, _, hdb, _, hargs⟩
  | unknown h hnone =>
    refine iff_of_false (by simp) ?_
    rintro ⟨-, d, hd, args, hargs⟩
    exact hnone d hd args hargs

theorem ne_nil_of_source_eq_database
    (h : (resolveArguments canonical file explicit db).2 = .database) :
    (resolveArguments canonical file explicit db).1 ≠ [] := by
  obtain ⟨outcome, hresolves⟩ := exists_resolves canonical file explicit db
  rw [hresolves.resolveArguments_eq] at h ⊢
  cases hresolves with
  | given => cases h
  | known _ _ hargs => exact hargs.ne_nil
  | unknown => cases h

/-! ## Requests -/

theorem ParseRequest.forFile_eq_ok_iff {r : ParseRequest} :
    ParseRequest.forFile canonical file explicit db = .ok r ↔
      file.IsUsable ∧
        (∀ a ∈ (resolveArguments canonical file explicit db).1, hasNul a = false) ∧
        r = ⟨file, (resolveArguments canonical file explicit db).1, [], ParseFlags.keepGoing⟩ := by
  generalize hargs : (resolveArguments canonical file explicit db).1 = args
  have hall : allArgs [.source file, .args args] = args := by simp [allArgs, Step.addedArgs]
  have hsource : lastSource? [.source file, .args args] = some file := rfl
  rw [forFile, hargs, ofSteps_eq_ok_iff, hall, hsource]
  constructor
  · rintro ⟨p, ⟨rfl⟩, hpath, hnul, rfl⟩
    exact ⟨hpath, hnul, rfl⟩
  · rintro ⟨hpath, hnul, rfl⟩
    exact ⟨file, rfl, hpath, hnul, rfl⟩

/-- **Origins.** Arguments that are given are taken as they are, whatever the database and the file
system. Otherwise those of the database are taken, and there are always some, if it gives any for
the file as it is spelled or else for its canonical form. A request to parse the file has these
arguments and the path as it is spelled, if both can be handed over, and nothing else. -/
theorem arguments_resolved (canonical : Canonical) (file : Path) (explicit : List String)
    (db : Option Database) :
    (∀ outcome, resolveArguments canonical file explicit db = outcome ↔
      Resolves canonical file explicit db outcome) ∧
    (explicit ≠ [] → ∀ canonical' db',
      resolveArguments canonical' file explicit db' = (explicit, .commandLine)) ∧
    ((resolveArguments canonical file explicit db).2 = .database ↔
      explicit = [] ∧ ∃ d ∈ db, ∃ args, d.Knows canonical file args) ∧
    ((resolveArguments canonical file explicit db).2 = .database →
      (resolveArguments canonical file explicit db).1 ≠ []) ∧
    ∀ r, ParseRequest.forFile canonical file explicit db = .ok r ↔
      file.IsUsable ∧
        (∀ a ∈ (resolveArguments canonical file explicit db).1, hasNul a = false) ∧
        r = ⟨file, (resolveArguments canonical file explicit db).1, [], ParseFlags.keepGoing⟩ :=
  ⟨fun _ => resolveArguments_eq_iff,
    fun h _ _ => resolveArguments_eq_iff.mpr (.given h),
    source_eq_database_iff, ne_nil_of_source_eq_database,
    fun _ => ParseRequest.forFile_eq_ok_iff⟩

/-- An entry without a command for a file, and one with a command for its canonical form. -/
def halfKnown : Database :=
  ⟨⟨[]⟩, [⟨.ofString "/d", .ofString "a.c", [], none⟩,
    ⟨.ofString "/r", .ofString "/r/a.c", ["cc", "-O2", "-c", "/r/a.c", "-DX"], none⟩]⟩

/-- The canonical form of that file alone. -/
def canonicalFile : Canonical := fun p =>
  if p = .ofString "a.c" then some (.ofString "/r/a.c") else none

theorem halfKnown_resolved :
    resolveArguments canonicalFile (.ofString "a.c") [] (some halfKnown) =
        (["-working-directory=/r", "-O2", "-DX"], .database) ∧
      ParseRequest.forFile canonicalFile (.ofString "a.c") [] (some halfKnown) =
        .ok ⟨.ofString "a.c", ["-working-directory=/r", "-O2", "-DX"], [], ParseFlags.keepGoing⟩ ∧
      resolveArguments (fun _ => none) (.ofString "a.c") ["-g"] (some halfKnown) =
        (["-g"], .commandLine) := by
  obtain ⟨hresolves, -, -, -, hrequest⟩ :=
    arguments_resolved canonicalFile (.ofString "a.c") [] (some halfKnown)
  obtain ⟨-, hgiven, -⟩ := arguments_resolved canonicalFile (.ofString "a.c") ["-g"] none
  have hspelled : halfKnown.argumentsFor (.ofString "a.c") = none := by decide
  have hcanonical : halfKnown.argumentsFor (.ofString "/r/a.c") =
      some ["-working-directory=/r", "-O2", "-DX"] := by decide
  have hknown : halfKnown.Knows canonicalFile (.ofString "a.c") _ :=
    .canonically (Database.argumentsFor_eq_none_iff.mp hspelled) rfl
      (Database.argumentsFor_eq_some_iff.mp hcanonical)
  have hresolved := (hresolves _).mpr (.known rfl rfl hknown)
  refine ⟨hresolved, (hrequest _).mpr ?_, hgiven (by decide) _ _⟩
  rw [hresolved]
  exact ⟨by decide +kernel, by decide +kernel, rfl⟩

end ClangLens
