import Mathlib.Data.Option.Defs
import ClangLens.Project.Arguments
import ClangLens.Proofs.Project.Loading

/-!
# Arguments written as a command

A command that writes words in single quotes is cut into these words again, whatever they are. So
an entry that lists its arguments and one with such a command for them are the same entry, and a
database does not tell which of the two its file has.
-/

namespace ClangLens

namespace Words

/-! ## Words in single quotes -/

/-- How a character of a word is written between single quotes. -/
def quoteChar (c : Char) : List Char := if c = '\'' then ['\'', '\\', '\'', '\''] else [c]

/-- A word in single quotes. -/
def singleQuoted (word : String) : List Char :=
  '\'' :: word.toList.flatMap quoteChar ++ ['\'']

/-- A command has each of some words in single quotes, with blanks between them. -/
inductive Quotes : List String → List Char → Prop where
  | none : Quotes [] []
  | last (word : String) : Quotes [word] (singleQuoted word)
  | more {words : List String} {blanks rest : List Char} (word : String) (hne : blanks ≠ [])
      (hblanks : ∀ c ∈ blanks, c ∈ [' ', '\t', '\n']) (hwords : words ≠ [])
      (h : Quotes words rest) : Quotes (word :: words) (singleQuoted word ++ blanks ++ rest)

/-- Between single quotes, a word is read as it was before it was written. -/
theorem scan_single_quoteChars (cs word rest : List Char) :
    scan .single word (cs.flatMap quoteChar ++ '\'' :: rest) =
      scan .bare (cs.reverse ++ word) rest := by
  induction cs generalizing word with
  | nil => exact (scan_single word _ rest).trans (if_pos rfl)
  | cons c cs ih =>
    rw [List.flatMap_cons, List.append_assoc, List.reverse_cons, List.append_assoc]
    by_cases hc : c = '\''
    · -- the quotes are closed, a quote is escaped and they are opened again
      subst hc
      have hplain : '\\' ≠ '\'' ∧ '\\' ≠ '"' ∧ ¬ isBlank '\\' ∧ '\'' ≠ '\n' := by decide
      obtain ⟨hsingle, hdouble, hblank, hbreak⟩ := hplain
      rw [quoteChar, if_pos rfl]
      show scan .single word ('\'' :: '\\' :: '\'' :: '\'' :: _) = _
      rw [scan_single, if_pos rfl, scan_bare, if_neg hsingle, if_neg hdouble, if_neg hblank,
        if_pos rfl]
      show (if '\'' = '\n' then _ else _) = _
      rw [if_neg hbreak, scan_bare, if_pos rfl]
      exact ih ('\'' :: word)
    · rw [quoteChar, if_neg hc, List.singleton_append, scan_single, if_neg hc]
      exact ih (c :: word)

theorem scan_singleQuoted (word : String) (rest : List Char) :
    scan .between [] (singleQuoted word ++ rest) = scan .bare word.toList.reverse rest := by
  rw [singleQuoted, List.cons_append, List.cons_append, List.append_assoc, scan_between, if_pos rfl,
    List.singleton_append, scan_single_quoteChars, List.append_nil]

theorem scan_between_blanks {blanks : List Char} (h : ∀ c ∈ blanks, isBlank c)
    (rest : List Char) : scan .between [] (blanks ++ rest) = scan .between [] rest := by
  induction blanks with
  | nil => rfl
  | cons c blanks ih =>
    rw [List.forall_mem_cons] at h
    have hplain := ne_quotes_of_isBlank h.1
    rw [List.cons_append, scan_between, if_neg hplain.1, if_neg hplain.2, if_pos h.1]
    exact ih h.2

/-- A blank ends the word at hand. -/
theorem scan_bare_blanks {blanks : List Char} (hne : blanks ≠ []) (h : ∀ c ∈ blanks, isBlank c)
    (word rest : List Char) : scan .bare word (blanks ++ rest) =
      (scan .between [] rest).map (String.ofList word.reverse :: ·) := by
  cases blanks with
  | nil => exact absurd rfl hne
  | cons c blanks =>
    rw [List.forall_mem_cons] at h
    have hplain := ne_quotes_of_isBlank h.1
    rw [List.cons_append, scan_bare, if_neg hplain.1, if_neg hplain.2, if_pos h.1,
      scan_between_blanks h.2]

/-- **Words.** Words in single quotes are found again. -/
theorem scan_quotes {words : List String} {cs : List Char} (h : Quotes words cs) :
    scan .between [] cs = some words := by
  induction h with
  | none => rfl
  | last word =>
    rw [← List.append_nil (singleQuoted word), scan_singleQuoted]
    show some [String.ofList word.toList.reverse.reverse] = _
    rw [List.reverse_reverse, String.ofList_toList]
  | more word hne hblanks _ _ ih =>
    rw [List.append_assoc, scan_singleQuoted,
      scan_bare_blanks hne fun c hc => isBlank_iff.mpr (hblanks c hc), ih, List.reverse_reverse,
      String.ofList_toList, Option.map_some]

end Words

namespace DatabaseEntry

open Json Draft

/-! ## Entries -/

/-- A field of an object and one for it: a command that quotes the words stands for arguments, and
any other field for itself. -/
inductive RewordedField : String × Value → String × Value → Prop where
  | kept {name : String} (v : Value) (hname : name ∉ ["arguments", "command"]) :
      RewordedField (name, v) (name, v)
  | worded {words : List String} {command : String} (h : Words.Quotes words command.toList) :
      RewordedField ("arguments", .array (words.map .string)) ("command", .string command)

/-- A value and one for it: objects may have commands for their arguments. -/
inductive Reworded : Value → Value → Prop where
  | same (v : Value) : Reworded v v
  | worded {fields fields' : List (String × Value)}
      (h : List.Forall₂ RewordedField fields fields') : Reworded (.object fields) (.object fields')

/-- Drafts with the same words, once as arguments and once as a command. -/
structure Draft.Reworded (d d' : Draft) : Prop where
  directory : d'.directory = d.directory
  file : d'.file = d.file
  output : d'.output = d.output
  command : d.command = none
  arguments : d'.arguments = none
  words : d'.command.map Words.split = d.arguments.map some

namespace Draft.Reworded

variable {d d' : Draft}

/-- **A step.** A field and one for it are taken alike. -/
theorem put? (h : d.Reworded d') {f f' : String × Value} (hf : RewordedField f f') :
    Option.Rel Draft.Reworded (d.put? f.1 f.2) (d'.put? f'.1 f'.2) := by
  cases hf with
  | @kept name v hname =>
    by_cases hfits : Fits name v
    · obtain ⟨htext, s, rfl⟩ | ⟨rfl, -⟩ := hfits
      · simp only [List.mem_cons, List.not_mem_nil, or_false, not_or] at htext hname
        obtain rfl | rfl | rfl | rfl := htext
        · exact .some { h with directory := rfl }
        · exact .some { h with file := rfl }
        · exact absurd rfl hname.2
        · exact .some { h with output := rfl }
      · exact absurd List.mem_cons_self hname
    · have hnone : ∀ d : Draft, d.put? name v = none := fun d => by
        rwa [← put?_isSome_iff (d := d), Option.not_isSome_iff_eq_none] at hfits
      rw [hnone, hnone]
      exact .none
  | @worded words command hquotes =>
    have htexts : (Value.array (words.map .string)).texts? = some words :=
      Value.texts?_eq_some.mpr rfl
    have hsplit : Words.split command = some words := Words.scan_quotes hquotes
    have hput : d.put? "arguments" (.array (words.map .string)) =
        some { d with arguments := some words } := congrArg (Option.map _) htexts
    rw [hput]
    exact .some { h with words := congrArg some hsplit }

/-- **A run.** So are all fields of an object. -/
theorem putAll? (h : d.Reworded d') {fields fields' : List (String × Value)}
    (hfields : List.Forall₂ RewordedField fields fields') :
    Option.Rel Draft.Reworded (d.putAll? fields) (d'.putAll? fields') := by
  induction hfields generalizing d d' with
  | nil => exact .some h
  | cons hf _ ih =>
    have hstep := h.put? hf
    rw [putAll?_cons, putAll?_cons]
    revert hstep
    generalize Draft.put? d _ _ = o
    generalize Draft.put? d' _ _ = o'
    rintro (hstep | -)
    · exact ih hstep
    · exact .none

theorem words_eq (h : d.Reworded d') : d'.words = d.words := by
  have hwords := h.words
  unfold Draft.words
  rw [h.arguments, h.command]
  cases hd : d.arguments with
  | none =>
    rw [hd, Option.map_none, Option.map_eq_none_iff] at hwords
    rw [hwords]
  | some words =>
    rw [hd, Option.map_some] at hwords
    obtain ⟨command, hcommand, hsplit⟩ := Option.map_eq_some_iff.mp hwords
    rw [hcommand]
    simp only [hsplit]

theorem build_eq (h : d.Reworded d') : d'.build = d.build := by
  rw [build, build, h.directory, h.file, h.output, h.words_eq]

end Draft.Reworded

/-- **Entries.** Rewording does not change which entry a value is. -/
theorem Reworded.ofValue? {v v' : Value} (h : Reworded v v') : ofValue? v' = ofValue? v := by
  cases h with
  | same => rfl
  | worded hfields =>
    have hempty : Draft.Reworded {} {} := ⟨rfl, rfl, rfl, rfl, rfl, rfl⟩
    have hrun := hempty.putAll? hfields
    rw [DatabaseEntry.ofValue?, DatabaseEntry.ofValue?]
    revert hrun
    generalize Draft.putAll? {} _ = o
    generalize Draft.putAll? {} _ = o'
    rintro (hrun | -)
    · exact congrArg Except.toOption hrun.build_eq
    · rfl

theorem mapM_ofValue?_reworded {values values' : List Value}
    (h : List.Forall₂ Reworded values values') :
    values'.mapM ofValue? = values.mapM ofValue? := by
  induction h with
  | nil => rfl
  | cons hv _ ih => rw [List.mapM_cons, List.mapM_cons, hv.ofValue?, ih]

end DatabaseEntry

/-! ## Databases -/

namespace Database

open Json DatabaseEntry

/-- Databases with the same entries, and so with the same answers to all questions. -/
structure Agrees (db db' : Database) : Prop where
  entries : db'.entries = db.entries
  sourceFiles : db'.sourceFiles = db.sourceFiles
  directories : db'.directories = db.directories
  containsFile : ∀ p, db'.containsFile p = db.containsFile p
  argumentsFor : ∀ p, db'.argumentsFor p = db.argumentsFor p
  resolveArguments : ∀ canonical file explicit,
    resolveArguments canonical file explicit (some db') =
      resolveArguments canonical file explicit (some db)

theorem Agrees.of_entries {path path' : Path} {entries : List DatabaseEntry} :
    Agrees ⟨path, entries⟩ ⟨path', entries⟩ where
  entries := rfl
  sourceFiles := rfl
  directories := rfl
  containsFile _ := rfl
  argumentsFor _ := rfl
  resolveArguments _ _ _ := rfl

variable {values values' : List Value} {text text' : String}

/-- A text of an array loads exactly as the entries that its values are, if there are any. -/
theorem load_eq_ok_iff {path : Path} (h : IsText (.array values) text) {db : Database} :
    load path (.bytes (Utf8.encode text)) = .ok db ↔
      ∃ entries, values.mapM ofValue? = some entries ∧ entries ≠ [] ∧ db = ⟨path, entries⟩ := by
  cases hentries : values.mapM ofValue? with
  | none =>
    obtain ⟨reason, hload⟩ := load_none path h hentries
    rw [hload]
    exact iff_of_false nofun nofun
  | some entries =>
    rw [load_some path h hentries]
    by_cases hempty : entries = []
    · rw [if_pos hempty]
      refine iff_of_false nofun ?_
      rintro ⟨entries', hsome, hne, -⟩
      cases hsome
      exact hne hempty
    · rw [if_neg hempty]
      constructor
      · intro hok
        exact ⟨entries, rfl, hempty, (Except.ok.inj hok).symm⟩
      · rintro ⟨entries', hsome, -, rfl⟩
        cases hsome
        rfl

/-- **Arguments and commands.** Where entries of a database have a command that quotes their words
instead of arguments, the one text loads exactly if the other does, and the databases agree. -/
theorem reworded_databases_agree (path path' : Path) (h : IsText (.array values) text)
    (h' : IsText (.array values') text') (hvalues : List.Forall₂ Reworded values values') :
    (∀ db, load path (.bytes (Utf8.encode text)) = .ok db →
        ∃ db', load path' (.bytes (Utf8.encode text')) = .ok db' ∧ Agrees db db') ∧
      ∀ db', load path' (.bytes (Utf8.encode text')) = .ok db' →
        ∃ db, load path (.bytes (Utf8.encode text)) = .ok db ∧ Agrees db db' := by
  simp only [load_eq_ok_iff h, load_eq_ok_iff h', mapM_ofValue?_reworded hvalues]
  constructor
  all_goals
    rintro _ ⟨entries, hentries, hne, rfl⟩
    exact ⟨_, ⟨entries, hentries, hne, rfl⟩, .of_entries⟩

/-- An entry whose words need their quotes. -/
def oddEntry : Written := ⟨"/d", "a.c", ["cc", "", "a b", "it's", "#\\\"\n"], none⟩

/-- Its words as a command. -/
def oddCommand : String := "'cc' ''\t'a b'\n 'it'\\''s' '#\\\"\n'"

theorem oddCommand_quotes : Words.Quotes oddEntry.arguments oddCommand.toList := by
  have hpieces : oddCommand.toList =
      Words.singleQuoted "cc" ++ [' '] ++ (Words.singleQuoted "" ++ ['\t'] ++
        (Words.singleQuoted "a b" ++ ['\n', ' '] ++ (Words.singleQuoted "it's" ++ [' '] ++
          Words.singleQuoted "#\\\"\n"))) := by decide
  rw [hpieces]
  exact .more _ (by decide) (by simp) (by decide) <| .more _ (by decide) (by simp) (by decide) <|
    .more _ (by decide) (by simp) (by decide) <| .more _ (by decide) (by simp) (by decide) <|
    .last _

/-- A list of one object, of which one field says the words. -/
def oddJson (words : String × Json) : Json :=
  .array [.object [("directory", .string "/d"), ("file", .string "a.c"), words]]

def oddArguments : String × Json := ("arguments", .array (oddEntry.arguments.map .string))

/-- Both texts of the entry load and agree. -/
theorem oddTexts_agree : ∃ db db',
    load ⟨[]⟩ (.bytes (Utf8.encode ((oddJson oddArguments).pretty ++ "\n"))) = .ok db ∧
      load ⟨[]⟩ (.bytes (Utf8.encode ((oddJson ("command", .string oddCommand)).pretty ++ "\n"))) =
        .ok db' ∧ Agrees db db' ∧ db'.entries = [oddEntry.entry] := by
  have h : IsText (.array [.object oddEntry.fields]) ((oddJson oddArguments).pretty ++ "\n") :=
    isText_pretty (oddJson oddArguments)
  have h' : IsText (.array [.object [("directory", .string "/d"), ("file", .string "a.c"),
      ("command", .string oddCommand)]])
      ((oddJson ("command", .string oddCommand)).pretty ++ "\n") :=
    isText_pretty (oddJson ("command", .string oddCommand))
  have hfields : List.Forall₂ RewordedField oddEntry.fields
      [("directory", .string "/d"), ("file", .string "a.c"), ("command", .string oddCommand)] :=
    .cons (.kept _ (by decide)) (.cons (.kept _ (by decide))
      (.cons (.worded oddCommand_quotes) .nil))
  have hentries := mapM_ofValue?_encodes (.cons (Encodes.mk (.refl oddEntry.fields)) .nil)
  have hload : load ⟨[]⟩ (.bytes (Utf8.encode ((oddJson oddArguments).pretty ++ "\n"))) =
      .ok ⟨⟨[]⟩, [oddEntry.entry]⟩ :=
    (load_eq_ok_iff h).mpr ⟨_, hentries, List.cons_ne_nil _ _, rfl⟩
  obtain ⟨db', hload', hagrees⟩ :=
    (reworded_databases_agree ⟨[]⟩ ⟨[]⟩ h h' (.cons (.worded hfields) .nil)).1 _ hload
  exact ⟨_, db', hload, hload', hagrees, hagrees.entries⟩

end Database

end ClangLens
