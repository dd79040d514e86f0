import Mathlib.Data.List.Nodup
import ClangLens.Flags.Tables
import ClangLens.Proofs.Encoding

/-!
# Spellings read back

The spelling of a word says which word it was. Behind the label stand names, cut apart at the bars
and looked up in the table; behind the name of the type stands the number itself. This needs names
that differ and can be told from `None` and from a list of names, and a label and a type name
without the two characters that end them. It does not matter which values have names: none, one
or several bits, or the same value twice.
-/

namespace ClangLens

variable {w : Nat} {table : FlagTable w}

/-! ## Keys -/

/-- An item is found by its key where no two items share one. -/
theorem find?_key {α κ : Type} [DecidableEq κ] {key : α → κ} {l : List α} (h : (l.map key).Nodup)
    {a : α} (ha : a ∈ l) : (l.find? fun b => key b = key a) = some a := by
  cases hfind : l.find? fun b => key b = key a with
  | none => exact absurd (List.find?_eq_none.mp hfind a ha) (by simp)
  | some b =>
    have hkey : key b = key a := by simpa using List.find?_some hfind
    rw [List.inj_on_of_nodup_map h (List.mem_of_find?_eq_some hfind) ha hkey]

/-! ## Reading -/

/-- A table whose spellings can be taken apart. -/
structure FlagTable.Legible (table : FlagTable w) : Prop where
  distinct : (table.entries.map FlagEntry.spelling).Nodup
  unbarred : ∀ e ∈ table.entries, '|' ∉ e.spelling.toList
  unlike_none : ∀ e ∈ table.entries, e.spelling ≠ "None"
  label : '=' ∉ table.label.toList ∧ ' ' ∉ table.label.toList
  typeName : '=' ∉ table.typeName.toList ∧ ' ' ∉ table.typeName.toList

instance (table : FlagTable w) : Decidable table.Legible :=
  decidable_of_iff
    ((table.entries.map FlagEntry.spelling).Nodup ∧
      (∀ e ∈ table.entries, '|' ∉ e.spelling.toList) ∧
      (∀ e ∈ table.entries, e.spelling ≠ "None") ∧
      ('=' ∉ table.label.toList ∧ ' ' ∉ table.label.toList) ∧
      '=' ∉ table.typeName.toList ∧ ' ' ∉ table.typeName.toList)
    ⟨fun ⟨h₁, h₂, h₃, h₄, h₅⟩ => ⟨h₁, h₂, h₃, h₄, h₅⟩,
      fun h => ⟨h.distinct, h.unbarred, h.unlike_none, h.label, h.typeName⟩⟩

namespace Flags

/-- All bits of several words. -/
def join (values : List (BitVec w)) : BitVec w := values.foldr (· ||| ·) 0

/-- The value of a name. -/
def valueOf? (table : FlagTable w) (name : String) : Option (BitVec w) :=
  if name = "None" then some 0
  else (table.entries.find? fun e => e.spelling = name).map FlagEntry.value

/-- What a text of names with bars between them adds up to. -/
def ofNames? (table : FlagTable w) (text : List Char) : Option (BitVec w) := do
  let values ← (text.splitOn '|').mapM fun name => valueOf? table (String.ofList name)
  return join values

/-- The word behind a spelling. -/
def ofSpelling? (table : FlagTable w) (text : String) : Option (BitVec w) :=
  match (table.label ++ "=").toList.isPrefixOf? text.toList with
  | some names => ofNames? table names
  | none => do
    let digits ← (table.typeName ++ " unknown ").toList.isPrefixOf? text.toList
    return BitVec.ofNat w (Nat.ofDigitChars 10 digits 0)

/-! ## Front parts -/

theorem isPrefixOf?_append (front rest : String) :
    front.toList.isPrefixOf? (front ++ rest).toList = some rest.toList := by
  rw [String.toList_append]
  exact List.isPrefixOf?_eq_some_iff_append_eq.mpr rfl

/-- Texts whose first separators differ are different. -/
theorem separators_differ {a b x y : List Char} (ha : '=' ∉ a ∧ ' ' ∉ a) (hb : '=' ∉ b ∧ ' ' ∉ b) :
    a ++ '=' :: x ≠ b ++ ' ' :: y := by
  induction a generalizing b with
  | nil =>
    cases b with
    | nil => simp
    | cons d b =>
      intro h
      obtain ⟨rfl, -⟩ := List.cons.inj h
      exact hb.1 List.mem_cons_self
  | cons c a ih =>
    cases b with
    | nil =>
      intro h
      obtain ⟨rfl, -⟩ := List.cons.inj h
      exact ha.2 List.mem_cons_self
    | cons d b =>
      intro h
      simp only [List.mem_cons, not_or] at ha hb
      exact ih ⟨ha.1.2, ha.2.2⟩ ⟨hb.1.2, hb.2.2⟩ (List.cons.inj h).2

theorem ofSpelling?_names (table : FlagTable w) (names : String) :
    ofSpelling? table (table.label ++ "=" ++ names) = ofNames? table names.toList := by
  unfold ofSpelling?
  rw [isPrefixOf?_append]

theorem ofSpelling?_unknown (h : table.Legible) (bits : BitVec w) :
    ofSpelling? table (table.typeName ++ " unknown " ++ toString bits.toNat) = some bits := by
  have hfront : (table.label ++ "=").toList.isPrefixOf?
      (table.typeName ++ " unknown " ++ toString bits.toNat).toList = none := by
    rw [Option.eq_none_iff_forall_ne_some]
    intro rest hrest
    rw [List.isPrefixOf?_eq_some_iff_append_eq] at hrest
    refine separators_differ h.label h.typeName (x := rest)
      (y := "unknown ".toList ++ (toString bits.toNat).toList) ?_
    simpa using hrest
  unfold ofSpelling?
  rw [hfront, isPrefixOf?_append]
  simp only [Option.bind_eq_bind, Option.bind_some, ofDigitChars_toString, BitVec.ofNat_toNat,
    BitVec.setWidth_eq, Option.pure_def]

/-! ## Names -/

/-- The name of an entry stands for its value. -/
theorem valueOf?_spelling (h : table.Legible) {e : FlagEntry w} (he : e ∈ table.entries) :
    valueOf? table e.spelling = some e.value := by
  unfold valueOf?
  rw [if_neg (h.unlike_none e he), find?_key h.distinct he, Option.map_some]

/-- Names without bars, one at least, are read one by one. -/
theorem ofNames?_intercalate {names : List String} {values : List (BitVec w)} (hne : names ≠ [])
    (hbar : ∀ name ∈ names, '|' ∉ name.toList)
    (hvalues : names.mapM (valueOf? table) = some values) :
    ofNames? table (String.intercalate "|" names).toList = some (join values) := by
  have hsplit : (String.intercalate "|" names).toList.splitOn '|' = names.map String.toList := by
    rw [String.toList_intercalate]
    refine List.splitOn_intercalate '|' ?_ ?_
    · simpa using hbar
    · simpa using hne
  have hmap : (names.map String.toList).mapM (fun name => valueOf? table (String.ofList name)) =
      some values := by
    rw [List.mapM_map]
    simpa [Function.comp_def] using hvalues
  unfold ofNames?
  rw [hsplit, hmap]
  rfl

theorem mapM_valueOf? (h : table.Legible) {picked : List (FlagEntry w)}
    (hpicked : ∀ e ∈ picked, e ∈ table.entries) :
    (picked.map FlagEntry.spelling).mapM (valueOf? table) = some (picked.map FlagEntry.value) := by
  induction picked with
  | nil => rfl
  | cons e picked ih =>
    rw [List.forall_mem_cons] at hpicked
    rw [List.map_cons, List.mapM_cons, valueOf?_spelling h hpicked.1, ih hpicked.2]
    rfl

/-! ## The walk through single bits -/

/-- What is taken out of a word and what is left make up the word. -/
theorem or_and_not {rest v : BitVec w} (h : rest &&& v = v) : v ||| (rest &&& ~~~v) = rest := by
  ext i hi
  have hbit := congrArg (fun x : BitVec w => x[i]) h
  simp only [BitVec.getElem_and] at hbit
  simp only [BitVec.getElem_or, BitVec.getElem_and, BitVec.getElem_not]
  cases hr : rest[i] <;> cases hv : v[i] <;> simp_all

/-- At every step the entries met so far and the bits that are left make up the word. -/
theorem singles_spec (entries : List (FlagEntry w)) (rest : BitVec w) :
    ∃ picked : List (FlagEntry w), (∀ e ∈ picked, e ∈ entries) ∧
      (singles entries rest).1 = picked.map FlagEntry.spelling ∧
      join (picked.map FlagEntry.value) ||| (singles entries rest).2 = rest := by
  induction entries generalizing rest with
  | nil => exact ⟨[], by simp, rfl, by simp [join, singles]⟩
  | cons e more ih =>
    unfold singles
    split
    next h =>
      obtain ⟨picked, hmem, hnames, hjoin⟩ := ih (rest &&& ~~~e.value)
      have hcontained : rest &&& e.value = e.value := by simpa using (Bool.and_eq_true_iff.mp h).2
      refine ⟨e :: picked, ?_, ?_, ?_⟩
      · rw [List.forall_mem_cons]
        exact ⟨List.mem_cons_self, fun e' he' => List.mem_cons_of_mem _ (hmem e' he')⟩
      · rw [List.map_cons, ← hnames]
      · calc join ((e :: picked).map FlagEntry.value) ||| (singles more (rest &&& ~~~e.value)).2
            = e.value ||| (join (picked.map FlagEntry.value) |||
                (singles more (rest &&& ~~~e.value)).2) := BitVec.or_assoc ..
          _ = e.value ||| (rest &&& ~~~e.value) := by rw [hjoin]
          _ = rest := or_and_not hcontained
    next h =>
      obtain ⟨picked, hmem, hnames, hjoin⟩ := ih rest
      exact ⟨picked, fun e' he' => List.mem_cons_of_mem _ (hmem e' he'), hnames, hjoin⟩

/-! ## Spellings -/

/-- A spelling is a list of names of the word behind the label, or says its number. -/
theorem spell_cases (h : table.Legible) (bits : BitVec w) :
    (∃ names values, spell table bits = table.label ++ "=" ++ String.intercalate "|" names ∧
        names ≠ [] ∧ (∀ name ∈ names, '|' ∉ name.toList) ∧
        names.mapM (valueOf? table) = some values ∧ join values = bits) ∨
      spell table bits = table.typeName ++ " unknown " ++ toString bits.toNat := by
  unfold spell
  split
  next e he =>
    have hmem : e ∈ table.entries := List.mem_of_find?_eq_some he
    have hvalue : e.value = bits := by simpa using List.find?_some he
    refine .inl ⟨[e.spelling], [e.value], rfl, List.cons_ne_nil _ _, ?_, ?_, ?_⟩
    · simpa using h.unbarred e hmem
    · show ([e].map FlagEntry.spelling).mapM (valueOf? table) = some ([e].map FlagEntry.value)
      exact mapM_valueOf? h (by simpa using hmem)
    · simpa [join] using hvalue
  next =>
    split
    next hzero =>
      refine .inl ⟨["None"], [0], ?_, List.cons_ne_nil _ _, by decide, rfl, by simp [join, hzero]⟩
      rw [String.intercalate_singleton, String.append_assoc]
      rfl
    next =>
      obtain ⟨picked, hmem, hnames, hjoin⟩ := singles_spec table.entries bits
      dsimp only
      split
      · exact .inr rfl
      next hnone =>
        simp only [Bool.or_eq_true, decide_eq_true_eq, not_or, not_not] at hnone
        obtain ⟨hleft, hsome⟩ := hnone
        refine .inl ⟨_, picked.map FlagEntry.value, rfl, by simpa using hsome, ?_, ?_, ?_⟩
        · rw [hnames]
          simpa using fun e he => h.unbarred e (hmem e he)
        · rw [hnames]
          exact mapM_valueOf? h hmem
        · rw [hleft] at hjoin
          simpa using hjoin

/-- **Reading back.** -/
theorem ofSpelling?_spell (h : table.Legible) (bits : BitVec w) :
    ofSpelling? table (spell table bits) = some bits := by
  rcases spell_cases h bits with ⟨names, values, hspell, hne, hbar, hvalues, hjoin⟩ | hspell
  · rw [hspell, ofSpelling?_names, ofNames?_intercalate hne hbar hvalues, hjoin]
  · rw [hspell, ofSpelling?_unknown h]

theorem spell_injective (h : table.Legible) : Function.Injective (spell table) := by
  intro a b hab
  have hread := congrArg (ofSpelling? table) hab
  rw [ofSpelling?_spell h, ofSpelling?_spell h] at hread
  exact Option.some.inj hread

theorem spelling_injective (h : table.Legible) :
    Function.Injective (spelling : Flags table → String) := by
  intro a b hab
  have hbits : a.bits = b.bits := spell_injective h hab
  cases a
  cases b
  exact congrArg Flags.mk hbits

/-- **Spellings.** A word can be read back from its spelling by every legible table, so no two
words are spelled alike; and the tables of all option words are legible. -/
theorem spellings_tell_words :
    (∀ {w : Nat} (table : FlagTable w), table.Legible →
      (∀ bits, ofSpelling? table (spell table bits) = some bits) ∧
        Function.Injective (spell table)) ∧
      Function.Injective (spelling : ParseFlags → String) ∧
      Function.Injective (spelling : CompleteFlags → String) ∧
      Function.Injective (spelling : CompletionContexts → String) ∧
      Function.Injective (spelling : DisplayOptions → String) ∧
      Function.Injective (spelling : GlobalOptions → String) ∧
      Function.Injective (spelling : IndexingFlags → String) ∧
      Function.Injective (spelling : SymbolRoles → String) :=
  ⟨fun _ h => ⟨ofSpelling?_spell h, spell_injective h⟩,
    spelling_injective (by decide +kernel), spelling_injective (by decide +kernel),
    spelling_injective (by decide +kernel), spelling_injective (by decide +kernel),
    spelling_injective (by decide +kernel), spelling_injective (by decide +kernel),
    spelling_injective (by decide +kernel)⟩

/-- Names for no bit, for several bits, and twice for the same value. -/
def sampleTable : FlagTable 64 where
  typeName := "Colours"
  label := "Colour"
  entries := [
    ⟨"BLACK", 0, "Black"⟩, ⟨"RED", 1, "Red"⟩, ⟨"YELLOW", 3, "Yellow = Red, Green"⟩,
    ⟨"GREEN", 2, "Green"⟩, ⟨"LIME", 2, "Lime"⟩, ⟨"WARM", 3, "Warm"⟩]

theorem sampleTable_legible : sampleTable.Legible := by decide +kernel

theorem sampleTable_tells_words :
    sampleTable.Legible ∧ Function.Injective (spell sampleTable) ∧
      ofSpelling? sampleTable (spell sampleTable 5) = some 5 :=
  have h := spellings_tell_words.1 sampleTable sampleTable_legible
  ⟨sampleTable_legible, h.2, h.1 5⟩

end Flags

end ClangLens
