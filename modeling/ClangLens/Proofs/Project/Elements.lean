import Mathlib.Data.List.Nodup
import ClangLens.Project.Entry
import ClangLens.Proofs.Json.Shapes
import ClangLens.Proofs.Project.Quoting

/-!
# Elements of a database

Which JSON value is which entry, told without reading: the fields of an object are put into a draft
one by one, and what the draft holds of a name is the value of the last field with that name. From
this follow the entry of an object whose fields are written in any order, and the list of all that
can be wrong with a value: whatever is not on it is an entry.
-/

namespace ClangLens

namespace DatabaseEntry

open Json

/-! ## Drafts -/

namespace Draft

/-- A draft with one more field. -/
def put? (d : Draft) (name : String) (v : Value) : Option Draft :=
  match name with
  | "directory" => v.text?.map fun s => { d with directory := some s }
  | "file" => v.text?.map fun s => { d with file := some s }
  | "arguments" => v.texts?.map fun texts => { d with arguments := some texts }
  | "command" => v.text?.map fun s => { d with command := some s }
  | "output" => v.text?.map fun s => { d with output := some s }
  | _ => none

/-- What a draft holds of a name. -/
def held (d : Draft) (name : String) : Option Value :=
  match name with
  | "directory" => d.directory.map .string
  | "file" => d.file.map .string
  | "arguments" => d.arguments.map fun texts => .array (texts.map .string)
  | "command" => d.command.map .string
  | "output" => d.output.map .string
  | _ => none

/-- The values that a field takes. -/
def Fits (name : String) (v : Value) : Prop :=
  (name ∈ ["directory", "file", "command", "output"] ∧ ∃ s, v = .string s) ∨
    (name = "arguments" ∧ ∃ texts : List String, v = .array (texts.map .string))

theorem put?_isSome_iff {d : Draft} {name : String} {v : Value} :
    (d.put? name v).isSome ↔ Fits name v := by
  unfold put? Fits
  split
  case h_6 => grind
  all_goals simp [Option.isSome_iff_exists, Value.text?_eq_some, Value.texts?_eq_some]

/-- **A step.** A field is held afterwards, and the others as before. -/
theorem held_put? {d d' : Draft} {name : String} {v : Value} (h : d.put? name v = some d')
    (other : String) : d'.held other = if name = other then some v else d.held other := by
  unfold put? at h
  split at h
  case h_3 =>
    obtain ⟨texts, hv, rfl⟩ := Option.map_eq_some_iff.mp h
    rw [Value.texts?_eq_some.mp hv]
    unfold held
    split <;> first | rfl | exact (if_neg fun h => absurd h.symm (by assumption)).symm
  case h_6 => exact nomatch h
  all_goals
    obtain ⟨s, hv, rfl⟩ := Option.map_eq_some_iff.mp h
    rw [Value.text?_eq_some.mp hv]
    unfold held
    split <;> first | rfl | exact (if_neg fun h => absurd h.symm (by assumption)).symm

/-- A draft with all of some fields. -/
def putAll? (d : Draft) (fields : List (String × Value)) : Option Draft :=
  fields.foldlM (fun d f => d.put? f.1 f.2) d

theorem putAll?_cons (d : Draft) (f : String × Value) (fields : List (String × Value)) :
    d.putAll? (f :: fields) = (d.put? f.1 f.2).bind (·.putAll? fields) := List.foldlM_cons

theorem putAll?_isSome_iff {d : Draft} {fields : List (String × Value)} :
    (d.putAll? fields).isSome ↔ ∀ f ∈ fields, Fits f.1 f.2 := by
  induction fields generalizing d with
  | nil => exact ⟨fun _ f hf => absurd hf List.not_mem_nil, fun _ => rfl⟩
  | cons f fields ih =>
    rw [putAll?_cons, List.forall_mem_cons, ← put?_isSome_iff (d := d)]
    cases h : d.put? f.1 f.2 with
    | none => simp
    | some d' => simp [ih]

/-- The value of the last field with a name. -/
def lastOf (name : String) : List (String × Value) → Option Value
  | [] => none
  | f :: fields => (lastOf name fields).or (if f.1 = name then some f.2 else none)

/-- **A run.** A draft holds the value of the last field with a name. -/
theorem held_putAll? {d d' : Draft} {fields : List (String × Value)}
    (h : d.putAll? fields = some d') (name : String) :
    d'.held name = (lastOf name fields).or (d.held name) := by
  induction fields generalizing d with
  | nil =>
    obtain rfl : d = d' := Option.some.inj h
    rfl
  | cons f fields ih =>
    rw [putAll?_cons] at h
    obtain ⟨d₁, hput, hrest⟩ := Option.bind_eq_some_iff.mp h
    rw [ih hrest, held_put? hput, lastOf, Option.or_assoc]
    split <;> rfl

theorem lastOf_eq_none_iff {name : String} {fields : List (String × Value)} :
    lastOf name fields = none ↔ ∀ v, (name, v) ∉ fields := by
  induction fields with
  | nil => exact ⟨fun _ v hv => absurd hv List.not_mem_nil, fun _ => rfl⟩
  | cons f fields ih =>
    obtain ⟨other, w⟩ := f
    rw [lastOf, Option.or_eq_none_iff, ih]
    constructor
    · rintro ⟨hrest, hname⟩ v hv
      obtain hv | hv := List.mem_cons.mp hv
      · obtain ⟨rfl, rfl⟩ := Prod.ext_iff.mp hv
        exact absurd hname (by simp)
      · exact hrest v hv
    · intro h
      refine ⟨fun v hv => h v (List.mem_cons_of_mem _ hv), if_neg ?_⟩
      rintro rfl
      exact h w List.mem_cons_self

theorem mem_of_lastOf {name : String} {v : Value} {fields : List (String × Value)}
    (h : lastOf name fields = some v) : (name, v) ∈ fields := by
  induction fields with
  | nil => exact nomatch h
  | cons f fields ih =>
    rw [lastOf, Option.or_eq_some_iff] at h
    obtain h | ⟨-, h⟩ := h
    · exact List.mem_cons_of_mem _ (ih h)
    · obtain ⟨rfl, hv⟩ := Option.ite_none_right_eq_some.mp h
      rw [← Option.some.inj hv]
      exact List.mem_cons_self

theorem lastOf_eq_some_iff {name : String} {v : Value} {fields : List (String × Value)}
    (hnames : (fields.map Prod.fst).Nodup) : lastOf name fields = some v ↔ (name, v) ∈ fields := by
  refine ⟨mem_of_lastOf, fun h => ?_⟩
  cases hlast : lastOf name fields with
  | none => exact absurd h (lastOf_eq_none_iff.mp hlast v)
  | some w =>
    have hsame := List.inj_on_of_nodup_map hnames (mem_of_lastOf hlast) h rfl
    obtain rfl : w = v := (Prod.ext_iff.mp hsame).2
    rfl

theorem ext_held {d d' : Draft} (h : ∀ name, d.held name = d'.held name) : d = d' := by
  have hstring : Function.Injective (Option.map Value.string) :=
    Option.map_injective fun _ _ => Value.string.inj
  have harray : Function.Injective
      (Option.map fun texts : List String => Value.array (texts.map .string)) :=
    Option.map_injective fun _ _ h =>
      List.map_injective_iff.mpr (fun _ _ => Value.string.inj) (Value.array.inj h)
  cases d
  cases d'
  rw [Draft.mk.injEq]
  exact ⟨hstring (h "directory"), hstring (h "file"), harray (h "arguments"),
    hstring (h "command"), hstring (h "output")⟩

/-- Where no name is given twice, the order of the fields does not matter. -/
theorem putAll?_perm {fields fields' : List (String × Value)} (hperm : fields.Perm fields')
    (hnames : (fields'.map Prod.fst).Nodup) (d : Draft) :
    d.putAll? fields = d.putAll? fields' := by
  have hnames' : (fields.map Prod.fst).Nodup := (hperm.map Prod.fst).nodup_iff.mpr hnames
  have hfits : (d.putAll? fields).isSome ↔ (d.putAll? fields').isSome := by
    simp only [putAll?_isSome_iff, hperm.mem_iff]
  have hlast : ∀ name, lastOf name fields = lastOf name fields' := by
    intro name
    refine Option.ext fun v => ?_
    rw [lastOf_eq_some_iff hnames', lastOf_eq_some_iff hnames, hperm.mem_iff]
  cases h : d.putAll? fields with
  | none =>
    cases h' : d.putAll? fields' with
    | none => rfl
    | some d' => simp [h, h'] at hfits
  | some d₁ =>
    cases h' : d.putAll? fields' with
    | none => simp [h, h'] at hfits
    | some d₂ =>
      have hsame : d₁ = d₂ := ext_held fun name => by
        rw [held_putAll? h, held_putAll? h', hlast]
      rw [hsame]

end Draft

open Draft

/-- The entry that a value is. -/
def ofValue? : Value → Option DatabaseEntry
  | .object fields => (putAll? {} fields).bind fun d => d.build.toOption
  | _ => none

/-! ## Entries as they are written -/

/-- An entry by its texts. -/
structure Written where
  directory : String
  file : String
  arguments : List String
  output : Option String

namespace Written

/-- The entry with these texts. -/
def entry (w : Written) : DatabaseEntry :=
  ⟨Path.ofString w.directory, Path.ofString w.file, w.arguments, w.output.map Path.ofString⟩

/-- The fields that say these texts. -/
def fields (w : Written) : List (String × Value) :=
  [("directory", .string w.directory), ("file", .string w.file),
    ("arguments", .array (w.arguments.map .string))] ++
    w.output.toList.map fun s => ("output", .string s)

theorem nodup_names (w : Written) : (w.fields.map Prod.fst).Nodup := by
  cases h : w.output <;> simp [fields, h]

theorem putAll?_fields (w : Written) : putAll? {} w.fields =
    some ⟨some w.directory, some w.file, some w.arguments, none, w.output⟩ := by
  have htexts : (Value.array (w.arguments.map .string)).texts? = some w.arguments :=
    Value.texts?_eq_some.mpr rfl
  cases h : w.output <;> simp [fields, h, putAll?_cons, put?, htexts, Value.text?] <;> rfl

end Written

/-- A value is an object with the fields of an entry, in any order. -/
inductive Encodes : Written → Value → Prop where
  | mk {w : Written} {fields : List (String × Value)} (h : fields.Perm w.fields) :
      Encodes w (.object fields)

/-- **Entries.** An object that encodes an entry is that entry. -/
theorem Encodes.ofValue? {w : Written} {v : Value} (h : Encodes w v) :
    ofValue? v = some w.entry := by
  cases h with
  | mk hperm =>
    rw [DatabaseEntry.ofValue?, putAll?_perm hperm w.nodup_names, w.putAll?_fields]
    rfl

/-! ## What is no entry -/

/-- What can be wrong with a value. -/
inductive Faulty : Value → Prop where
  | notObject {v : Value} (h : ∀ fields, v ≠ .object fields) : Faulty v
  | missing {fields : List (String × Value)} {name : String} (hname : name ∈ ["directory", "file"])
      (h : ∀ v, (name, v) ∉ fields) : Faulty (.object fields)
  | notText {fields : List (String × Value)} {name : String} {v : Value}
      (hname : name ∈ ["directory", "file", "command", "output"]) (h : (name, v) ∈ fields)
      (hv : ∀ s, v ≠ .string s) : Faulty (.object fields)
  | notTexts {fields : List (String × Value)} {v : Value} (h : ("arguments", v) ∈ fields)
      (hv : ∀ texts : List String, v ≠ .array (texts.map .string)) : Faulty (.object fields)
  | both {fields : List (String × Value)} {v w : Value} (hv : ("arguments", v) ∈ fields)
      (hw : ("command", w) ∈ fields) : Faulty (.object fields)
  | neither {fields : List (String × Value)} (hv : ∀ v, ("arguments", v) ∉ fields)
      (hw : ∀ w, ("command", w) ∉ fields) : Faulty (.object fields)
  | unknown {fields : List (String × Value)} {name : String} {v : Value}
      (hname : name ∉ ["directory", "file", "arguments", "command", "output"])
      (h : (name, v) ∈ fields) : Faulty (.object fields)
  | null {fields : List (String × Value)} {name : String} (h : (name, .null) ∈ fields) :
      Faulty (.object fields)
  /-- The command that counts ends inside a quote. -/
  | unclosed {fields : List (String × Value)} {command : String}
      (h : lastOf "command" fields = some (.string command))
      (hcommand : Words.Unclosed true command.toList) : Faulty (.object fields)

theorem not_fits_iff {name : String} {v : Value} :
    ¬ Fits name v ↔
      (name ∈ ["directory", "file", "command", "output"] ∧ ∀ s, v ≠ .string s) ∨
        (name = "arguments" ∧ ∀ texts : List String, v ≠ .array (texts.map .string)) ∨
          name ∉ ["directory", "file", "arguments", "command", "output"] := by
  have harguments : "arguments" ∉ ["directory", "file", "command", "output"] := by decide
  by_cases htext : name ∈ ["directory", "file", "command", "output"]
  · have hother : name ≠ "arguments" := fun h => harguments (h ▸ htext)
    have hknown : name ∈ ["directory", "file", "arguments", "command", "output"] := by
      have hsub : ["directory", "file", "command", "output"] ⊆
          ["directory", "file", "arguments", "command", "output"] := by decide
      exact hsub htext
    simp only [Fits, htext, hother, hknown, true_and, false_and, or_false, not_true, not_exists,
      ne_eq]
  · by_cases hname : name = "arguments"
    · subst hname
      have hknown : "arguments" ∈ ["directory", "file", "arguments", "command", "output"] := by
        decide
      simp only [Fits, htext, hknown, true_and, false_and, false_or, or_false, not_true,
        not_exists, ne_eq]
    · simp only [Fits, htext, hname, false_and, or_self, not_false_eq_true, false_or, true_iff]
      simp only [List.mem_cons, List.not_mem_nil, or_false, not_or] at htext ⊢
      exact ⟨htext.1, htext.2.1, hname, htext.2.2⟩

/-- What is wrong with fields, in terms of drafts: one does not fit, or the draft with all of them
cannot be finished. -/
def Spoiled (fields : List (String × Value)) : Prop :=
  (∃ f ∈ fields, ¬ Fits f.1 f.2) ∨ (∃ name ∈ ["directory", "file"], ∀ v, (name, v) ∉ fields) ∨
    ((∀ v, ("arguments", v) ∉ fields) ↔ ∀ v, ("command", v) ∉ fields) ∨
    ∃ command, lastOf "command" fields = some (.string command) ∧ Words.split command = none

theorem Faulty.spoiled {fields : List (String × Value)} (h : Faulty (.object fields)) :
    Spoiled fields := by
  cases h with
  | notObject h => exact absurd rfl (h fields)
  | missing hname h => exact .inr (.inl ⟨_, hname, h⟩)
  | notText hname h hv => exact .inl ⟨_, h, not_fits_iff.mpr (.inl ⟨hname, hv⟩)⟩
  | notTexts h hv => exact .inl ⟨_, h, not_fits_iff.mpr (.inr (.inl ⟨rfl, hv⟩))⟩
  | unknown hname h => exact .inl ⟨_, h, not_fits_iff.mpr (.inr (.inr hname))⟩
  | null h =>
    refine .inl ⟨_, h, ?_⟩
    rintro (⟨-, s, hs⟩ | ⟨-, texts, htexts⟩)
    · exact nomatch hs
    · exact nomatch htexts
  | both hv hw => exact .inr (.inr (.inl ⟨fun h => absurd hv (h _), fun h => absurd hw (h _)⟩))
  | neither hv hw => exact .inr (.inr (.inl ⟨fun _ => hw, fun _ => hv⟩))
  | unclosed h hcommand =>
    exact .inr (.inr (.inr ⟨_, h, (Words.split_eq_none_iff _).mpr hcommand⟩))

theorem Spoiled.faulty {fields : List (String × Value)} (h : Spoiled fields) :
    Faulty (.object fields) := by
  obtain ⟨⟨name, v⟩, h, hfits⟩ | ⟨name, hname, h⟩ | h | ⟨command, h, hcommand⟩ := h
  · obtain ⟨hname, hv⟩ | ⟨rfl, hv⟩ | hname := not_fits_iff.mp hfits
    · exact .notText hname h hv
    · exact .notTexts h hv
    · exact .unknown hname h
  · exact .missing hname h
  · by_cases hv : ∀ v, ("arguments", v) ∉ fields
    · exact .neither hv (h.mp hv)
    · have hw : ¬ ∀ w, ("command", w) ∉ fields := fun hw => hv (h.mpr hw)
      simp only [not_forall, not_not] at hv hw
      obtain ⟨v, hv⟩ := hv
      obtain ⟨w, hw⟩ := hw
      exact .both hv hw
  · exact .unclosed h ((Words.split_eq_none_iff _).mp hcommand)

theorem faulty_object_iff {fields : List (String × Value)} :
    Faulty (.object fields) ↔ Spoiled fields := ⟨Faulty.spoiled, Spoiled.faulty⟩

/-! ## Values that are no entry -/

theorem toOption_bind {ε α β : Type} (x : Except ε α) (f : α → Except ε β) :
    (x >>= f).toOption = x.toOption.bind fun a => (f a).toOption := by
  cases x <;> rfl

theorem words_eq_none_iff {d : Draft} :
    d.words.toOption = none ↔
      (d.arguments = none ↔ d.command = none) ∨
        ∃ command, d.command = some command ∧ Words.split command = none := by
  unfold Draft.words
  cases d.arguments with
  | none =>
    cases d.command with
    | none => simp [Except.toOption]
    | some command => cases h : Words.split command <;> simp [Except.toOption, h]
  | some arguments => cases d.command <;> simp [Except.toOption]

theorem build_eq_none_iff {d : Draft} :
    d.build.toOption = none ↔ d.directory = none ∨ d.file = none ∨ d.words.toOption = none := by
  unfold Draft.build
  cases d.directory with
  | none => simp [Except.toOption]
  | some directory =>
    cases d.file with
    | none => simp [Except.toOption]
    | some file =>
      rw [toOption_bind]
      simp only [reduceCtorEq, false_or, Option.bind_eq_none_iff]
      constructor
      · intro h
        cases hwords : d.words.toOption with
        | none => rfl
        | some words => exact nomatch h words hwords
      · intro h words hwords
        exact nomatch h.symm.trans hwords

/-- A draft with all fields of an object holds of each name what the object says last. -/
theorem held_of_fields {d : Draft} {fields : List (String × Value)}
    (h : putAll? {} fields = some d) (name : String) : d.held name = lastOf name fields := by
  have hempty : Draft.held {} name = none := by
    unfold Draft.held
    split <;> rfl
  rw [held_putAll? h, hempty, Option.or_none]

/-- A draft with all fields of an object can be finished unless something is wrong with them. -/
theorem build_eq_none_iff_spoiled {d : Draft} {fields : List (String × Value)}
    (hd : putAll? {} fields = some d) : d.build.toOption = none ↔ Spoiled fields := by
  have hfits : ∀ f ∈ fields, Fits f.1 f.2 := by
    rw [← putAll?_isSome_iff (d := {}), hd]
    rfl
  have habsent : ∀ name, d.held name = none ↔ ∀ v, (name, v) ∉ fields := fun name => by
    rw [held_of_fields hd, lastOf_eq_none_iff]
  have hdirectory := Option.map_eq_none_iff.symm.trans (habsent "directory")
  have hfile := Option.map_eq_none_iff.symm.trans (habsent "file")
  have harguments := Option.map_eq_none_iff.symm.trans (habsent "arguments")
  have hcommand := Option.map_eq_none_iff.symm.trans (habsent "command")
  have hlast : ∀ command, d.command = some command ↔
      lastOf "command" fields = some (.string command) := by
    intro command
    rw [← held_of_fields hd]
    show _ ↔ d.command.map _ = _
    simp
  rw [build_eq_none_iff, words_eq_none_iff, hdirectory, hfile, harguments, hcommand]
  simp only [Spoiled, hlast, List.mem_cons, List.not_mem_nil, or_false, exists_eq_or_imp,
    exists_eq_left, or_assoc]
  constructor
  · exact .inr
  · rintro (⟨f, hf, hfit⟩ | h)
    · exact absurd (hfits f hf) hfit
    · exact h

theorem ofValue?_object_eq_none_iff {fields : List (String × Value)} :
    ofValue? (.object fields) = none ↔ Spoiled fields := by
  rw [ofValue?]
  cases hd : putAll? {} fields with
  | none =>
    have hfits : ¬ ∀ f ∈ fields, Fits f.1 f.2 := by
      rw [← putAll?_isSome_iff (d := {}), hd]
      exact Bool.false_ne_true
    simp only [not_forall] at hfits
    obtain ⟨f, hf, hfit⟩ := hfits
    exact ⟨fun _ => .inl ⟨f, hf, hfit⟩, fun _ => rfl⟩
  | some d =>
    rw [Option.bind_some]
    exact build_eq_none_iff_spoiled hd

/-- **All kinds of faults.** A value is no entry exactly if something on the list is wrong with
it. -/
theorem ofValue?_eq_none_iff {v : Value} : ofValue? v = none ↔ Faulty v := by
  by_cases hobject : ∀ fields, v ≠ .object fields
  · refine ⟨fun _ => .notObject hobject, fun _ => ?_⟩
    cases v with
    | object fields => exact absurd rfl (hobject fields)
    | _ => rfl
  · simp only [not_forall, not_not] at hobject
    obtain ⟨fields, rfl⟩ := hobject
    rw [faulty_object_iff, ofValue?_object_eq_none_iff]

end DatabaseEntry

end ClangLens
