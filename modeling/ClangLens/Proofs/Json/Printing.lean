import Mathlib.Data.List.Forall2
import ClangLens.Proofs.Json.Grammar

/-!
# What is printed spells the value

The text of a value, one item a line, is a text of it in the sense of the grammar: the line breaks
and the spaces of each level are blanks around items, names and values. Digits of a number are
written without a zero in front.
-/

namespace ClangLens.Json

/-! ## Numbers -/

namespace Numeral

/-- The decimal digits of a number, the first one in front. -/
def digitsOf (n : Nat) : List Nat := if n < 10 then [n] else digitsOf (n / 10) ++ [n % 10]
termination_by n

/-- A whole number without a sign. -/
def ofNat (n : Nat) : Numeral := ⟨false, digitsOf n, none, none⟩

theorem digitsOf_small {n : Nat} (h : n < 10) : digitsOf n = [n] := by
  rw [digitsOf, if_pos h]

theorem digitsOf_large {n : Nat} (h : ¬ n < 10) :
    digitsOf n = digitsOf (n / 10) ++ [n % 10] := by
  rw [digitsOf, if_neg h]

theorem digitsOf_ne_nil (n : Nat) : digitsOf n ≠ [] := by
  by_cases h : n < 10
  · rw [digitsOf_small h]
    exact List.cons_ne_nil _ _
  · rw [digitsOf_large h]
    exact List.append_ne_nil_of_right_ne_nil _ (List.cons_ne_nil _ _)

theorem lt_ten_of_mem_digitsOf {n d : Nat} (h : d ∈ digitsOf n) : d < 10 := by
  induction n using digitsOf.induct with
  | case1 n hn =>
    rw [digitsOf_small hn, List.mem_singleton] at h
    omega
  | case2 n hn ih =>
    rw [digitsOf_large hn, List.mem_append, List.mem_singleton] at h
    obtain h | rfl := h
    · exact ih h
    · omega

theorem value_digitsOf (n : Nat) : value (digitsOf n) = n := by
  induction n using digitsOf.induct with
  | case1 n hn =>
    rw [digitsOf_small hn]
    exact Nat.zero_add n
  | case2 n hn ih =>
    rw [digitsOf_large hn, value, List.foldl_append]
    rw [value] at ih
    rw [ih]
    show n / 10 * 10 + n % 10 = n
    omega

theorem head_digitsOf {n : Nat} (h : 0 < n) : (digitsOf n).head? ≠ some 0 := by
  induction n using digitsOf.induct with
  | case1 n hn =>
    rw [digitsOf_small hn, List.head?_cons]
    rintro ⟨⟩
    exact absurd h (Nat.lt_irrefl 0)
  | case2 n hn ih =>
    rw [digitsOf_large hn, List.head?_append_of_ne_nil _ (digitsOf_ne_nil _)]
    exact ih (by omega)

theorem toString_eq (n : Nat) : (toString n).toList = (digitsOf n).map Nat.digitChar := by
  have hbase : 1 < 10 := by decide
  rw [Nat.toString_eq_ofList_toDigits, String.toList_ofList]
  induction n using digitsOf.induct with
  | case1 n hn =>
    rw [digitsOf_small hn, Nat.toDigits_of_lt_base hn]
    rfl
  | case2 n hn ih =>
    rw [digitsOf_large hn, List.map_append, ← ih, Nat.toDigits_of_base_le hbase (by omega)]
    rfl

theorem natural?_ofNat (n : Nat) : (ofNat n).natural? = some n := congrArg some (value_digitsOf n)

end Numeral

theorem spellsNumber_toString (n : Nat) : SpellsNumber (.ofNat n) (toString n).toList := by
  have hdigits : SpellsDigits (Numeral.digitsOf n) (toString n).toList := by
    rw [Numeral.toString_eq]
    exact .mk (Numeral.digitsOf_ne_nil n) fun _ => Numeral.lt_ten_of_mem_digitsOf
  have hzero : (Numeral.ofNat n).whole.head? = some 0 → (Numeral.ofNat n).whole = [0] := by
    intro hhead
    obtain rfl | hpos := Nat.eq_zero_or_pos n
    · exact Numeral.digitsOf_small (by decide)
    · exact absurd hhead (Numeral.head_digitsOf hpos)
  have h := SpellsNumber.mk (n := .ofNat n) hdigits hzero .absent .absent
  rwa [List.append_nil, List.append_nil] at h

/-! ## Values -/

mutual

/-- What a text of a value means. -/
def value : Json → Value
  | .null => .null
  | .bool b => .bool b
  | .number n => .number (.ofNat n)
  | .string s => .string s
  | .array items => .array (values items)
  | .object members => .object (fields members)

def values : List Json → List Value
  | [] => []
  | j :: rest => j.value :: values rest

def fields : List (String × Json) → List (String × Value)
  | [] => []
  | (name, j) :: rest => (name, j.value) :: fields rest

end

/-! ## Lines -/

theorem blank_newline (level : Nat) : Blank (newline level).toList := by
  intro c hc
  rw [newline, String.toList_append, List.mem_append] at hc
  obtain hc | hc := hc
  · obtain rfl : c = '\n' := List.mem_singleton.mp hc
    decide
  · rw [String.toList_ofList] at hc
    obtain rfl := List.eq_of_mem_replicate hc
    decide

/-- Items with a comma and a gap between each two. -/
theorem SpellsItems.lines {gap behind : List Char} (hgap : Blank gap) (hbehind : Blank behind)
    {v : Value} {vs : List Value} {t : List Char} {ts : List (List Char)} (h : Spells v t)
    (hs : List.Forall₂ Spells vs ts) :
    SpellsItems (v :: vs) (gap ++ (',' :: gap).intercalate (t :: ts) ++ behind) := by
  induction hs generalizing v t with
  | nil =>
    rw [List.intercalate_singleton]
    exact .last h hgap hbehind
  | @cons w u ws us hw _ ih =>
    have hmore := SpellsItems.more h hgap (by decide : Blank []) (ih hw)
    rw [List.intercalate_cons_cons]
    simpa only [List.append_nil, List.append_assoc, List.cons_append] using hmore

/-- A field without blanks around it. -/
def SpellsBare (f : String × Value) (t : List Char) : Prop :=
  ∀ before behind, Blank before → Blank behind → SpellsField f (before ++ t ++ behind)

theorem SpellsFields.lines {gap behind : List Char} (hgap : Blank gap) (hbehind : Blank behind)
    {f : String × Value} {fs : List (String × Value)} {t : List Char} {ts : List (List Char)}
    (h : SpellsBare f t) (hs : List.Forall₂ SpellsBare fs ts) :
    SpellsFields (f :: fs) (gap ++ (',' :: gap).intercalate (t :: ts) ++ behind) := by
  induction hs generalizing f t with
  | nil =>
    rw [List.intercalate_singleton]
    exact .last (h _ _ hgap hbehind)
  | @cons g u gs us hg _ ih =>
    have hmore := SpellsFields.more (h _ _ hgap (by decide : Blank [])) (ih hg)
    rw [List.intercalate_cons_cons]
    simpa only [List.append_nil, List.append_assoc, List.cons_append] using hmore

/-- A field with a colon, and perhaps blanks, between its name and its value. -/
theorem spells_member (name : String) {colon t : String} {gap : List Char}
    (hcolon : colon.toList = ':' :: gap) (hgap : Blank gap) {v : Value} (h : Spells v t.toList) :
    SpellsBare (name, v) (quote name ++ colon ++ t).toList := by
  intro before behind hbefore hbehind
  have hfield := SpellsField.mk (spellsString_quote name) h hbefore (by decide : Blank []) hgap
    hbehind
  simpa only [String.toList_append, hcolon, List.append_nil, List.append_assoc, List.cons_append,
    List.nil_append] using hfield

theorem toList_colon : ": ".toList = [':', ' '] := by decide

theorem toList_bareColon : ":".toList = [':'] := by decide

/-- What stands between the brackets of a block. -/
theorem toList_block (first last : String) (level : Nat) (t : String) (ts : List String) :
    (block first last level (t :: ts)).toList = first.toList ++
      ((newline (level + 1)).toList ++ (',' :: (newline (level + 1)).toList).intercalate
        ((t :: ts).map String.toList) ++ (newline level).toList) ++ last.toList := by
  have hcomma : ("," ++ newline (level + 1)).toList = ',' :: (newline (level + 1)).toList := by
    rw [String.toList_append]
    rfl
  rw [block, if_neg (by simp)]
  simp only [String.toList_append, String.toList_intercalate, List.append_assoc]
  rw [← String.toList_append, hcomma]

theorem toList_block_nil (first last : String) (level : Nat) :
    (block first last level []).toList = first.toList ++ last.toList := String.toList_append

mutual

/-- **Values.** The text of a value at a level spells it. -/
theorem spells_prettyAt (level : Nat) : ∀ j : Json, Spells j.value (j.prettyAt level).toList
  | .null => by
    show Spells .null "null".toList
    exact .null
  | .bool true => by
    show Spells (.bool true) "true".toList
    exact .true
  | .bool false => by
    show Spells (.bool false) "false".toList
    exact .false
  | .number n => .number (spellsNumber_toString n)
  | .string s => .string (spellsString_quote s)
  | .array [] => by
    rw [value, values, prettyAt, prettyItems, toList_block_nil]
    exact .noItems (t := []) (by decide)
  | .array (j :: rest) => by
    have hitems := SpellsItems.lines (blank_newline (level + 1)) (blank_newline level)
      (spells_prettyAt (level + 1) j) (spells_prettyItems (level + 1) rest)
    rw [value, values, prettyAt, prettyItems, toList_block]
    exact .array hitems
  | .object [] => by
    rw [value, fields, prettyAt, prettyMembers, toList_block_nil]
    exact .noFields (t := []) (by decide)
  | .object ((name, j) :: rest) => by
    have hmembers := SpellsFields.lines (blank_newline (level + 1)) (blank_newline level)
      (spells_member name toList_colon (by decide) (spells_prettyAt (level + 1) j))
      (spells_prettyMembers (level + 1) rest)
    rw [value, fields, prettyAt, prettyMembers, toList_block]
    exact .object hmembers

theorem spells_prettyItems (level : Nat) : ∀ items : List Json,
    List.Forall₂ Spells (values items) ((prettyItems level items).map String.toList)
  | [] => .nil
  | j :: rest => .cons (spells_prettyAt level j) (spells_prettyItems level rest)

theorem spells_prettyMembers (level : Nat) : ∀ members : List (String × Json),
    List.Forall₂ SpellsBare (fields members) ((prettyMembers level members).map String.toList)
  | [] => .nil
  | (name, j) :: rest =>
    .cons (spells_member name toList_colon (by decide) (spells_prettyAt level j))
      (spells_prettyMembers level rest)

end

/-- **Printed texts.** What is printed of a value, with a line feed at its end, is a text of it. -/
theorem isText_pretty (j : Json) : IsText j.value (j.pretty ++ "\n") := by
  have hnone : Blank [] := by decide
  have hbreak : Blank ['\n'] := by decide
  exact ⟨[], _, ['\n'], hnone, spells_prettyAt 0 j, hbreak, String.toList_append⟩

/-! ## One line -/

/-- What stands between the brackets on one line. -/
theorem toList_inline (first last t : String) (ts : List String) :
    (first ++ String.intercalate "," (t :: ts) ++ last).toList = first.toList ++
      ([] ++ [','].intercalate ((t :: ts).map String.toList) ++ []) ++ last.toList := by
  have hcomma : ",".toList = [','] := by decide
  simp only [String.toList_append, String.toList_intercalate, hcomma, List.nil_append,
    List.append_nil]

mutual

/-- The text of a value on one line spells it. -/
theorem spells_compact : ∀ j : Json, Spells j.value j.compact.toList
  | .null => by
    show Spells .null "null".toList
    exact .null
  | .bool true => by
    show Spells (.bool true) "true".toList
    exact .true
  | .bool false => by
    show Spells (.bool false) "false".toList
    exact .false
  | .number n => .number (spellsNumber_toString n)
  | .string s => .string (spellsString_quote s)
  | .array [] => by
    show Spells (.array []) "[]".toList
    exact .noItems (t := []) (by decide)
  | .array (j :: rest) => by
    have hitems := SpellsItems.lines (by decide : Blank []) (by decide : Blank [])
      (spells_compact j) (spells_compactItems rest)
    rw [value, values, compact, compactItems, toList_inline]
    exact .array hitems
  | .object [] => by
    show Spells (.object []) "\x7b\x7d".toList
    exact .noFields (t := []) (by decide)
  | .object ((name, j) :: rest) => by
    have hmembers := SpellsFields.lines (by decide : Blank []) (by decide : Blank [])
      (spells_member name toList_bareColon (by decide) (spells_compact j))
      (spells_compactMembers rest)
    rw [value, fields, compact, compactMembers, toList_inline]
    exact .object hmembers

theorem spells_compactItems : ∀ items : List Json,
    List.Forall₂ Spells (values items) ((compactItems items).map String.toList)
  | [] => .nil
  | j :: rest => .cons (spells_compact j) (spells_compactItems rest)

theorem spells_compactMembers : ∀ members : List (String × Json),
    List.Forall₂ SpellsBare (fields members) ((compactMembers members).map String.toList)
  | [] => .nil
  | (name, j) :: rest =>
    .cons (spells_member name toList_bareColon (by decide) (spells_compact j))
      (spells_compactMembers rest)

end

/-- The text of a value on one line is a text of it. -/
theorem isText_compact (j : Json) : IsText j.value j.compact := by
  have hnone : Blank [] := by decide
  exact ⟨[], _, [], hnone, spells_compact j, hnone, (List.append_nil _).symm⟩

end ClangLens.Json
