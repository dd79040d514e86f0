import ClangLens.Project.Database
import ClangLens.Proofs.Json.Values
import ClangLens.Proofs.Project.Elements

/-!
# Loading a database

Asking a reading for an entry finds what the value it means is: text for text, field for field,
element for element. So a text that spells an array loads exactly if each of its values is an
entry, whatever its blanks, escapes and the order of fields.
-/

namespace ClangLens

open Json

namespace DatabaseEntry

/-! ## Readings and values -/

theorem wrongShape_toOption {α : Type} {r : Reading} {v : Value} (h : Means r v) :
    (r.wrongShape : Except Fault α).toOption = none := by
  cases h with
  | null | bool | array | object => rfl
  | number n =>
    rw [Reading.wrongShape, toOption_bind]
    cases Reading.ofNumber n none <;> rfl
  | @string l s h =>
    rw [Reading.wrongShape, toOption_bind]
    cases Reading.ofLiteral l <;> rfl

theorem asText_toOption {r : Reading} {v : Value} (h : Means r v) : r.asText.toOption = v.text? := by
  cases h with
  | @string l s h =>
    show (Reading.ofLiteral l).toOption = some s
    rw [Reading.ofLiteral, h]
    rfl
  | null => exact wrongShape_toOption .null
  | bool b => exact wrongShape_toOption (.bool b)
  | number n => exact wrongShape_toOption (.number n)
  | array h => exact wrongShape_toOption (.array h)
  | object hnames hvalues => exact wrongShape_toOption (.object hnames hvalues)

/-- What each element gives, all of them give. -/
theorem mapM_toOption {α β γ ε : Type} {R : α → β → Prop} {f : α → Except ε γ} {g : β → Option γ}
    (hfg : ∀ a b, R a b → (f a).toOption = g b) {as : List α} {bs : List β}
    (h : List.Forall₂ R as bs) : (as.mapM f).toOption = bs.mapM g := by
  induction h with
  | nil => rfl
  | @cons a b as bs hab _ ih =>
    rw [List.mapM_cons, List.mapM_cons, toOption_bind, hfg a b hab]
    congr 1
    funext c
    rw [toOption_bind, ih]
    rfl

theorem asTexts_toOption {r : Reading} {v : Value} (h : Means r v) :
    (asTexts r).toOption = v.texts? := by
  cases h with
  | @array items values h =>
    show (asTexts (.array items none)).toOption = values.mapM Value.text?
    rw [asTexts, toOption_bind, mapM_toOption (fun _ _ hmeans => asText_toOption hmeans) h]
    exact Option.bind_fun_some _
  | null => exact wrongShape_toOption .null
  | bool b => exact wrongShape_toOption (.bool b)
  | number n => exact wrongShape_toOption (.number n)
  | string h => exact wrongShape_toOption (.string h)
  | object hnames hvalues => exact wrongShape_toOption (.object hnames hvalues)

theorem add_toOption {r : Reading} {v : Value} (h : Means r v) (d : Draft) (name : String) :
    (d.add name r).toOption = d.put? name v := by
  unfold Draft.add
  split
  case h_3 =>
    rw [toOption_bind, asTexts_toOption h]
    exact Option.map_eq_bind.symm
  case h_6 =>
    show none = d.put? name v
    unfold Draft.put?
    split <;> first | rfl | contradiction
  all_goals
    rw [toOption_bind, asText_toOption h]
    exact Option.map_eq_bind.symm

theorem addAll_toOption {members : List (Literal × Reading)} {fields : List (String × Value)}
    (hnames : List.Forall₂ (fun m f => m.1.text = .ok f.1) members fields)
    (hvalues : List.Forall₂ (fun m f => Means m.2 f.2) members fields) (d : Draft) :
    (d.addAll members).toOption = d.putAll? fields := by
  induction hvalues generalizing d with
  | nil => rfl
  | @cons m f members fields hvalue _ ih =>
    obtain ⟨hname, hnames⟩ := List.forall₂_cons.mp hnames
    have hliteral : (Reading.ofLiteral m.1).toOption = some f.1 := asText_toOption (.string hname)
    rw [Draft.addAll, toOption_bind, hliteral, Option.bind_some, toOption_bind,
      add_toOption hvalue, Draft.putAll?_cons]
    congr 1
    funext d'
    exact ih hnames d'

theorem ofReading_toOption {r : Reading} {v : Value} (h : Means r v) :
    (ofReading r).toOption = ofValue? v := by
  cases h with
  | @object members fields hnames hvalues =>
    rw [ofReading, toOption_bind, addAll_toOption hnames hvalues]
    rfl
  | null => exact wrongShape_toOption .null
  | bool b => exact wrongShape_toOption (.bool b)
  | number n => exact wrongShape_toOption (.number n)
  | string h => exact wrongShape_toOption (.string h)
  | array h => exact wrongShape_toOption (.array h)

theorem listOfReading_toOption {r : Reading} {values : List Value} (h : Means r (.array values)) :
    (listOfReading r).toOption = values.mapM ofValue? := by
  cases h with
  | array h =>
    rw [listOfReading, toOption_bind, mapM_toOption (fun _ _ hmeans => ofReading_toOption hmeans) h]
    exact Option.bind_fun_some _

/-- **Elements.** A text that spells an array holds the entries that its values are. -/
theorem listOfText_toOption {values : List Value} {text : String} (h : IsText (.array values) text) :
    (listOfText (Utf8.encode text)).toOption = values.mapM ofValue? := by
  obtain ⟨r, rest, hread, hblank, hmeans⟩ := read_text h
  rw [listOfText, readAs, hread]
  simp only [hblank, if_true]
  rw [bind_pure]
  exact listOfReading_toOption hmeans

/-! ## Lists of values -/

theorem mapM_ofValue?_encodes {entries : List Written} {values : List Value}
    (h : List.Forall₂ Encodes entries values) :
    values.mapM ofValue? = some (entries.map Written.entry) := by
  induction h with
  | nil => rfl
  | cons hencodes _ ih =>
    rw [List.mapM_cons, hencodes.ofValue?, ih]
    rfl

/-- One value that is no entry spoils the list. -/
theorem mapM_ofValue?_eq_none_iff {values : List Value} :
    values.mapM ofValue? = none ↔ ∃ v ∈ values, Faulty v := by
  induction values with
  | nil => simp
  | cons v values ih =>
    rw [List.mapM_cons, List.exists_mem_cons_iff, ← ofValue?_eq_none_iff, ← ih]
    cases ofValue? v with
    | none => simp
    | some e => cases values.mapM ofValue? <;> simp

end DatabaseEntry

/-! ## Databases -/

namespace Database

open DatabaseEntry

variable {values : List Value} {text : String}

theorem load_some (path : Path) (h : IsText (.array values) text) {entries : List DatabaseEntry}
    (hentries : values.mapM ofValue? = some entries) :
    load path (.bytes (Utf8.encode text)) =
      if entries = [] then .error .empty else .ok ⟨path, entries⟩ := by
  have hlist := listOfText_toOption h
  rw [hentries] at hlist
  rw [load]
  cases hread : listOfText (Utf8.encode text) with
  | error fault => exact nomatch (hread ▸ hlist)
  | ok found =>
    rw [hread] at hlist
    obtain rfl : found = entries := Option.some.inj hlist
    cases found <;> rfl

theorem load_none (path : Path) (h : IsText (.array values) text)
    (hentries : values.mapM ofValue? = none) :
    ∃ reason, load path (.bytes (Utf8.encode text)) = .error (.notParsed reason) := by
  have hlist := listOfText_toOption h
  rw [hentries] at hlist
  rw [load]
  cases hread : listOfText (Utf8.encode text) with
  | error fault => exact ⟨_, rfl⟩
  | ok found => exact nomatch (hread ▸ hlist)

/-- **All or nothing.** A text of an array of objects that encode entries, in whatever way it is
written, loads as these entries in their order, or as empty if there are none. It does not parse
exactly if one of its values is no entry, and then nothing is loaded. -/
theorem load_all_or_nothing (path : Path) (h : IsText (.array values) text) :
    (∀ entries : List Written, List.Forall₂ Encodes entries values →
      load path (.bytes (Utf8.encode text)) =
        if entries = [] then .error .empty else .ok ⟨path, entries.map Written.entry⟩) ∧
    ((∃ v ∈ values, Faulty v) ↔
      ∃ reason, load path (.bytes (Utf8.encode text)) = .error (.notParsed reason)) := by
  constructor
  · intro entries hencodes
    rw [load_some path h (mapM_ofValue?_encodes hencodes)]
    simp only [List.map_eq_nil_iff]
  · rw [← mapM_ofValue?_eq_none_iff]
    refine ⟨load_none path h, ?_⟩
    rintro ⟨reason, hreason⟩
    cases hentries : values.mapM ofValue? with
    | none => rfl
    | some entries =>
      rw [load_some path h hentries] at hreason
      split at hreason <;> exact nomatch hreason

/-- An entry whose directory needs an escape. -/
def tabbedEntry : Written := ⟨"/\t", "é", ["cc"], none⟩

/-- Its object, the file first. -/
def tabbedObject : Value :=
  .object [("file", .string "é"), ("arguments", .array [.string "cc"]), ("directory", .string "/\t")]

def tabbedText : String :=
  "\x7b\"file\":\"é\" ,\"arguments\":[\"cc\"],\n\"directory\":\"/\\t\"\x7d"

theorem tabbedObject_spelled : Spells tabbedObject tabbedText.toList := by
  have hnone : Blank [] := by decide
  have hspace : Blank [' '] := by decide
  have hbreak : Blank ['\n'] := by decide
  have hfile := SpellsField.mk (spellsString_quote "file") (.string (spellsString_quote "é"))
    hnone hnone hnone hspace
  have hwords := Spells.array (.last (.string (spellsString_quote "cc")) hnone hnone)
  have harguments := SpellsField.mk (spellsString_quote "arguments") hwords hnone hnone hnone hnone
  have hdirectory := SpellsField.mk (spellsString_quote "directory")
    (.string (spellsString_quote "/\t")) hbreak hnone hnone hnone
  exact .object (.more hfile (.more harguments (.last hdirectory)))

/-- The object alone loads, and with a null behind it nothing does. -/
theorem tabbedTexts_loaded :
    load ⟨[]⟩ (.bytes (Utf8.encode ("[" ++ tabbedText ++ "]"))) =
        .ok ⟨⟨[]⟩, [tabbedEntry.entry]⟩ ∧
      ∃ reason, load ⟨[]⟩ (.bytes (Utf8.encode ("[" ++ tabbedText ++ ",null]"))) =
        .error (.notParsed reason) := by
  have hnone : Blank [] := by decide
  have hobject := tabbedObject_spelled
  have hone : IsText (.array [tabbedObject]) ("[" ++ tabbedText ++ "]") :=
    ⟨[], _, [], hnone, .array (.last hobject hnone hnone), hnone, by simp⟩
  have htwo : IsText (.array [tabbedObject, .null]) ("[" ++ tabbedText ++ ",null]") :=
    ⟨[], _, [], hnone, .array (.more hobject hnone hnone (.last .null hnone hnone)), hnone, by simp⟩
  have hencodes : Encodes tabbedEntry tabbedObject := .mk (@List.perm_append_comm _ [_, _] [_])
  exact ⟨(load_all_or_nothing ⟨[]⟩ hone).1 [tabbedEntry] (.cons hencodes .nil),
    (load_all_or_nothing ⟨[]⟩ htwo).2.mp
      ⟨.null, List.mem_cons_of_mem _ List.mem_cons_self, .notObject fun _ => nofun⟩⟩

end Database

end ClangLens
