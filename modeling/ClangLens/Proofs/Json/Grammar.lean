import ClangLens.Json.Basic
import ClangLens.Json.Numeral

/-!
# The texts of a JSON value

One value has many texts: blanks stand around items, names and values, and a character of a string
stands as it is or as an escape. A text is related to the value it spells, construct by construct,
with no word on how it is read.
-/

namespace ClangLens.Json

/-- A JSON value. A number is known by its numeral, an object by its fields in the order they are
given. -/
inductive Value where
  | null
  | bool (b : Bool)
  | number (n : Numeral)
  | string (s : String)
  | array (items : List Value)
  | object (fields : List (String × Value))
deriving Inhabited

/-! ## Strings -/

/-- The letters of the short escapes, with what each stands for. -/
def shortEscapes : List (Char × Char) :=
  [('"', '"'), ('\\', '\\'), ('/', '/'), ('b', '\x08'), ('f', '\x0c'), ('n', '\n'), ('r', '\r'),
    ('t', '\t')]

/-- A hexadecimal digit, small or capital. -/
def SpellsDigit (d : Nat) (c : Char) : Prop :=
  d < 16 ∧ (c = Nat.digitChar d ∨ c = (Nat.digitChar d).toUpper)

/-- A numbered escape. -/
inductive SpellsUnit : Nat → List Char → Prop where
  | mk {n₁ n₂ n₃ n₄ : Nat} {c₁ c₂ c₃ c₄ : Char} (h₁ : SpellsDigit n₁ c₁) (h₂ : SpellsDigit n₂ c₂)
      (h₃ : SpellsDigit n₃ c₃) (h₄ : SpellsDigit n₄ c₄) :
      SpellsUnit (((n₁ * 16 + n₂) * 16 + n₃) * 16 + n₄) ['\\', 'u', c₁, c₂, c₃, c₄]

/-- The texts of a character between quotes. -/
inductive SpellsChar : Char → List Char → Prop where
  /-- As it is, which a quote, a backslash and a control character may not. -/
  | raw {c : Char} (hquote : c ≠ '"') (hbackslash : c ≠ '\\') (hcontrol : 0x20 ≤ c.toNat) :
      SpellsChar c [c]
  | short {letter c : Char} (h : (letter, c) ∈ shortEscapes) : SpellsChar c ['\\', letter]
  | unit {c : Char} {t : List Char} (h : SpellsUnit c.toNat t) : SpellsChar c t
  /-- As a pair of escapes, ten bits of the character in each. -/
  | pair {c : Char} {high low : Nat} {t u : List Char} (hc : c.toNat = 0x10000 + high * 0x400 + low)
      (hhigh : high < 0x400) (hlow : low < 0x400) (ht : SpellsUnit (0xD800 + high) t)
      (hu : SpellsUnit (0xDC00 + low) u) : SpellsChar c (t ++ u)

/-- The texts of characters between quotes. -/
inductive SpellsChars : List Char → List Char → Prop where
  | nil : SpellsChars [] []
  | cons {c : Char} {cs t u : List Char} (hc : SpellsChar c t) (hcs : SpellsChars cs u) :
      SpellsChars (c :: cs) (t ++ u)

/-- The texts of a string. -/
inductive SpellsString : String → List Char → Prop where
  | mk {s : String} {t : List Char} (h : SpellsChars s.toList t) :
      SpellsString s ('"' :: t ++ ['"'])

/-- What is written between quotes spells what it is written for. -/
theorem spellsChar_escape (c : Char) : SpellsChar c (escape c) := by
  fun_cases escape c
  case case8 hcontrol =>
    have hvalue : ((0 * 16 + 0) * 16 + c.toNat / 16) * 16 + c.toNat % 16 = c.toNat := by omega
    have hzero : SpellsDigit 0 '0' := ⟨by decide, .inl rfl⟩
    have hsixteens : SpellsDigit (c.toNat / 16) (Nat.digitChar (c.toNat / 16)) :=
      ⟨by omega, .inl rfl⟩
    have hones : SpellsDigit (c.toNat % 16) (Nat.digitChar (c.toNat % 16)) := ⟨by omega, .inl rfl⟩
    have hunit := SpellsUnit.mk hzero hzero hsixteens hones
    rw [hvalue] at hunit
    exact .unit hunit
  case case9 hquote hbackslash _ _ _ _ _ hcontrol => exact .raw hquote hbackslash (by omega)
  all_goals exact .short (by simp [shortEscapes, *])

theorem spellsString_quote (s : String) : SpellsString s (quote s).toList := by
  rw [quote, String.toList_ofList]
  refine .mk ?_
  induction s.toList with
  | nil => exact .nil
  | cons c cs ih => exact .cons (spellsChar_escape c) ih

/-! ## Numbers -/

/-- Some decimal digits. -/
inductive SpellsDigits : List Nat → List Char → Prop where
  | mk {ds : List Nat} (hsome : ds ≠ []) (hsmall : ∀ d ∈ ds, d < 10) :
      SpellsDigits ds (ds.map Nat.digitChar)

/-- A sign, where a plus may stand. -/
inductive SpellsSign : Bool → List Char → Prop where
  | absent : SpellsSign false []
  | plus : SpellsSign false ['+']
  | minus : SpellsSign true ['-']

inductive SpellsFraction : Option (List Nat) → List Char → Prop where
  | absent : SpellsFraction none []
  | present {ds : List Nat} {t : List Char} (h : SpellsDigits ds t) :
      SpellsFraction (some ds) ('.' :: t)

inductive SpellsExponent : Option (Bool × List Nat) → List Char → Prop where
  | absent : SpellsExponent none []
  | present {e : Char} {negative : Bool} {ds : List Nat} {t u : List Char} (he : e = 'e' ∨ e = 'E')
      (hsign : SpellsSign negative t) (h : SpellsDigits ds u) :
      SpellsExponent (some (negative, ds)) (e :: t ++ u)

/-- The texts of a number; only a lone zero starts with one. -/
inductive SpellsNumber : Numeral → List Char → Prop where
  | mk {n : Numeral} {t u v : List Char} (hwhole : SpellsDigits n.whole t)
      (hzero : n.whole.head? = some 0 → n.whole = [0]) (hfraction : SpellsFraction n.fraction u)
      (hexponent : SpellsExponent n.exponent v) :
      SpellsNumber n ((if n.negative then ['-'] else []) ++ t ++ u ++ v)

/-! ## Values -/

/-- Blanks, perhaps none. -/
def Blank (t : List Char) : Prop := ∀ c ∈ t, c ∈ [' ', '\n', '\t', '\r']

instance (t : List Char) : Decidable (Blank t) := List.decidableBAll _ t

mutual

/-- The texts of a value, without blanks around it. -/
inductive Spells : Value → List Char → Prop where
  | null : Spells .null ['n', 'u', 'l', 'l']
  | true : Spells (.bool true) ['t', 'r', 'u', 'e']
  | false : Spells (.bool false) ['f', 'a', 'l', 's', 'e']
  | number {n : Numeral} {t : List Char} (h : SpellsNumber n t) : Spells (.number n) t
  | string {s : String} {t : List Char} (h : SpellsString s t) : Spells (.string s) t
  | noItems {t : List Char} (h : Blank t) : Spells (.array []) ('[' :: t ++ [']'])
  | array {items : List Value} {t : List Char} (h : SpellsItems items t) :
      Spells (.array items) ('[' :: t ++ [']'])
  | noFields {t : List Char} (h : Blank t) : Spells (.object []) ('\x7b' :: t ++ ['\x7d'])
  | object {fields : List (String × Value)} {t : List Char} (h : SpellsFields fields t) :
      Spells (.object fields) ('\x7b' :: t ++ ['\x7d'])

/-- The texts of items, at least one, with the blanks around each. -/
inductive SpellsItems : List Value → List Char → Prop where
  | last {v : Value} {t before behind : List Char} (hv : Spells v t) (hbefore : Blank before)
      (hbehind : Blank behind) : SpellsItems [v] (before ++ t ++ behind)
  | more {v : Value} {items : List Value} {t u before behind : List Char} (hv : Spells v t)
      (hbefore : Blank before) (hbehind : Blank behind) (h : SpellsItems items u) :
      SpellsItems (v :: items) (before ++ t ++ behind ++ ',' :: u)

/-- The text of a field, with the blanks around its name and its value. -/
inductive SpellsField : String × Value → List Char → Prop where
  | mk {name : String} {v : Value} {t u before colon after behind : List Char}
      (hname : SpellsString name t) (hv : Spells v u) (hbefore : Blank before)
      (hcolon : Blank colon) (hafter : Blank after) (hbehind : Blank behind) :
      SpellsField (name, v) (before ++ t ++ colon ++ ':' :: (after ++ u ++ behind))

/-- The texts of fields, at least one. -/
inductive SpellsFields : List (String × Value) → List Char → Prop where
  | last {field : String × Value} {t : List Char} (h : SpellsField field t) :
      SpellsFields [field] t
  | more {field : String × Value} {fields : List (String × Value)} {t u : List Char}
      (h : SpellsField field t) (hs : SpellsFields fields u) :
      SpellsFields (field :: fields) (t ++ ',' :: u)

end

/-- A whole text that spells a value, with nothing but blanks around it. -/
def IsText (v : Value) (text : String) : Prop :=
  ∃ before t behind, Blank before ∧ Spells v t ∧ Blank behind ∧
    text.toList = before ++ t ++ behind

end ClangLens.Json
