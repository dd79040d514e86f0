import Mathlib.Data.List.Forall2
import ClangLens.Proofs.Json.Scalars

/-!
# Values read back

Every text of a value is read to its end, and what is read means that value. Values, items and
fields call one another with one unit of fuel less, so what one unit more can read is shown for the
three from what the others read with one less; two units a character are enough.
-/

namespace ClangLens.Json

open Utf8

/-- What was read is whole and holds a value. -/
inductive Means : Reading → Value → Prop where
  | null : Means .null .null
  | bool (b : Bool) : Means (.bool b) (.bool b)
  | number (n : Numeral) : Means (.number n none) (.number n)
  | string {l : Literal} {s : String} (h : l.text = .ok s) : Means (.string l) (.string s)
  | array {items : List Reading} {values : List Value} (h : List.Forall₂ Means items values) :
      Means (.array items none) (.array values)
  | object {members : List (Literal × Reading)} {fields : List (String × Value)}
      (hnames : List.Forall₂ (fun m f => m.1.text = .ok f.1) members fields)
      (hvalues : List.Forall₂ (fun m f => Means m.2 f.2) members fields) :
      Means (.object members none) (.object fields)

/-! ## How a value starts -/

/-- The characters that a value may start with. -/
def openers : List Char :=
  ['n', 't', 'f', '-', '"', '[', '\x7b', '0', '1', '2', '3', '4', '5', '6', '7', '8', '9']

theorem opener_byte : ∀ c ∈ openers, c.toNat < 128 ∧ isBlank (byte c) = false ∧
    byte c ≠ byte ']' ∧ byte c ≠ byte '\x7d' := forall_mem_of_all (by decide)

theorem digit_opens : ∀ d < 10, Nat.digitChar d ∈ openers := by decide

theorem Spells.head {v : Value} {t : List Char} (h : Spells v t) :
    ∃ c u, c ∈ openers ∧ t = c :: u := by
  cases h with
  | null | true | false | noItems | array | noFields | object =>
    exact ⟨_, _, by decide, rfl⟩
  | string h =>
    obtain ⟨u, -, rfl, -⟩ := h.read
    exact ⟨_, u, by decide, rfl⟩
  | @number n t h =>
    obtain ⟨d, u, hd, rfl, -⟩ := h.read
    cases n.negative with
    | true => exact ⟨'-', _, by decide, rfl⟩
    | false => exact ⟨_, u, digit_opens d hd, rfl⟩

/-- The next byte that is no blank ends neither an array nor an object. -/
def GoesOn (text : Bytes) : Prop :=
  ∃ b more, skipBlank text = b :: more ∧ b ≠ byte ']' ∧ b ≠ byte '\x7d'

theorem Spells.goesOn {v : Value} {t before : List Char} (h : Spells v t) (hbefore : Blank before)
    (rest : Bytes) : GoesOn (encodeChars (before ++ t) ++ rest) := by
  obtain ⟨c, u, hc, rfl⟩ := h.head
  obtain ⟨hascii, hblank, hne⟩ := opener_byte c hc
  refine ⟨byte c, encodeChars u ++ rest, ?_, hne⟩
  rw [encodeChars_append, List.append_assoc, skipBlank_blank hbefore, encodeChars_ascii hascii]
  exact skipBlank_cons hblank _

theorem SpellsItems.goesOn {items : List Value} {t : List Char} (h : SpellsItems items t)
    (rest : Bytes) : GoesOn (encodeChars t ++ rest) := by
  cases h with
  | last hv hbefore _ =>
    rw [encodeChars_append, List.append_assoc]
    exact hv.goesOn hbefore _
  | more hv hbefore _ _ =>
    rw [encodeChars_append, encodeChars_append, List.append_assoc, List.append_assoc]
    exact hv.goesOn hbefore _

theorem SpellsField.goesOn {field : String × Value} {t : List Char} (h : SpellsField field t)
    (rest : Bytes) : GoesOn (encodeChars t ++ rest) := by
  cases h with
  | mk hname _ hbefore _ _ _ =>
    rw [encodeChars_append, encodeChars_append, List.append_assoc, List.append_assoc]
    exact (Spells.string hname).goesOn hbefore _

theorem SpellsFields.goesOn {fields : List (String × Value)} {t : List Char}
    (h : SpellsFields fields t) (rest : Bytes) : GoesOn (encodeChars t ++ rest) := by
  cases h with
  | last h => exact h.goesOn rest
  | more h _ =>
    rw [encodeChars_append, List.append_assoc]
    exact h.goesOn _

theorem valueOf_blank {t : List Char} (h : Blank t) (fuel : Nat) (rest : Bytes) :
    valueOf fuel (encodeChars t ++ rest) = valueOf fuel rest := by
  cases fuel with
  | zero => rfl
  | succ fuel => rw [valueOf, valueOf, skipBlank_blank h]

/-! ## One unit of fuel -/

/-- Every text of a value is read with this fuel, if it is long enough for it. -/
def ValuesRead (fuel : Nat) : Prop :=
  ∀ v t rest, Spells v t → Ends rest → 2 * t.length < fuel →
    ∃ r, valueOf fuel (encodeChars t ++ rest) = (r, rest) ∧ Means r v

def ItemsRead (fuel : Nat) : Prop :=
  ∀ values t rest, SpellsItems values t → 2 * t.length + 1 < fuel →
    ∃ items, itemsOf fuel (encodeChars t ++ byte ']' :: rest) = (items, none, rest) ∧
      List.Forall₂ Means items values

def FieldsRead (fuel : Nat) : Prop :=
  ∀ fields t rest, SpellsFields fields t → 2 * t.length + 1 < fuel →
    ∃ members, membersOf fuel (encodeChars t ++ byte '\x7d' :: rest) = (members, none, rest) ∧
      List.Forall₂ (fun m f => m.1.text = .ok f.1) members fields ∧
      List.Forall₂ (fun m f => Means m.2 f.2) members fields

theorem valueOf_string (fuel : Nat) (rest : Bytes) :
    valueOf (fuel + 1) (byte '"' :: rest) = (.string (literal rest).1, (literal rest).2) := by
  rw [valueOf, skipBlank_cons (by decide)]
  dsimp only
  rw [if_neg (by decide), if_neg (by decide), if_pos rfl]

theorem valueOf_number (fuel : Nat) {negative : Bool} {d : Nat} (hd : d < 10) (u : List Char)
    (rest : Bytes) :
    valueOf (fuel + 1) (encodeChars ((if negative then ['-'] else []) ++ Nat.digitChar d :: u) ++ rest) =
      numberOf negative (encodeChars (Nat.digitChar d :: u) ++ rest) := by
  cases negative with
  | true =>
    show valueOf (fuel + 1) (encodeChars ('-' :: Nat.digitChar d :: u) ++ rest) = _
    rw [encodeChars_ascii (by decide), List.cons_append, valueOf, skipBlank_cons (by decide)]
    dsimp only
    rw [if_neg (by decide), if_neg (by decide), if_neg (by decide), if_pos rfl]
  | false =>
    have hother : ∀ d < 10, byte (Nat.digitChar d) ∉ ['[', '\x7b', '"', '-'].map byte := by decide
    have hd' := hother d hd
    simp only [List.map_cons, List.map_nil, List.mem_cons, List.not_mem_nil, or_false, not_or] at hd'
    obtain ⟨harray, hobject, hquote, hminus⟩ := hd'
    obtain ⟨hascii, hdigit, -⟩ := digit_byte d hd
    obtain ⟨-, hblank, -⟩ := opener_byte _ (digit_opens d hd)
    show valueOf (fuel + 1) (encodeChars (Nat.digitChar d :: u) ++ rest) = _
    rw [encodeChars_ascii hascii, List.cons_append, valueOf, skipBlank_cons hblank]
    dsimp only
    rw [if_neg harray, if_neg hobject, if_neg hquote, if_neg hminus, if_pos hdigit]

theorem encodeChars_between {c d : Char} (hc : c.toNat < 128) (hd : d.toNat < 128) (t : List Char)
    (rest : Bytes) : encodeChars (c :: t ++ [d]) ++ rest =
      byte c :: (encodeChars t ++ byte d :: rest) := by
  rw [List.cons_append, encodeChars_ascii hc, encodeChars_append, encodeChars_ascii hd,
    List.cons_append, List.append_assoc]
  rfl

theorem valueOf_noItems (fuel : Nat) {rest more : Bytes} (h : skipBlank rest = byte ']' :: more) :
    valueOf (fuel + 1) (byte '[' :: rest) = (.array [] none, more) := by
  rw [valueOf, skipBlank_cons (by decide)]
  dsimp only
  rw [if_pos rfl, h]
  exact if_pos rfl

theorem valueOf_array {fuel : Nat} {rest more : Bytes} {items : List Reading}
    {stop : Option Stop} (h : GoesOn rest) (hread : itemsOf fuel rest = (items, stop, more)) :
    valueOf (fuel + 1) (byte '[' :: rest) = (.array items stop, more) := by
  obtain ⟨b, u, h, hb, -⟩ := h
  rw [valueOf, skipBlank_cons (by decide)]
  dsimp only
  rw [if_pos rfl, h, hread]
  exact if_neg hb

theorem valueOf_noFields (fuel : Nat) {rest more : Bytes}
    (h : skipBlank rest = byte '\x7d' :: more) :
    valueOf (fuel + 1) (byte '\x7b' :: rest) = (.object [] none, more) := by
  rw [valueOf, skipBlank_cons (by decide)]
  dsimp only
  rw [if_neg (by decide), if_pos rfl, h]
  exact if_pos rfl

theorem valueOf_object {fuel : Nat} {rest more : Bytes} {members : List (Literal × Reading)}
    {stop : Option Stop} (h : GoesOn rest)
    (hread : membersOf fuel rest = (members, stop, more)) :
    valueOf (fuel + 1) (byte '\x7b' :: rest) = (.object members stop, more) := by
  obtain ⟨b, u, h, -, hb⟩ := h
  rw [valueOf, skipBlank_cons (by decide)]
  dsimp only
  rw [if_neg (by decide), if_pos rfl, h, hread]
  exact if_neg hb

theorem valuesRead_succ {fuel : Nat} (hitems : ItemsRead fuel) (hfields : FieldsRead fuel) :
    ValuesRead (fuel + 1) := by
  intro v t rest h hrest hfuel
  cases h with
  | null => exact ⟨.null, rfl, .null⟩
  | true => exact ⟨.bool true, rfl, .bool true⟩
  | false => exact ⟨.bool false, rfl, .bool false⟩
  | number h =>
    obtain ⟨d, u, hd, rfl, hread⟩ := h.read
    exact ⟨_, by rw [valueOf_number fuel hd, hread rest hrest], .number _⟩
  | string h =>
    obtain ⟨u, l, rfl, -, htext, hread⟩ := h.read
    refine ⟨.string l, ?_, .string htext⟩
    rw [encodeChars_ascii (by decide), List.cons_append, valueOf_string, hread]
  | @noItems t h =>
    refine ⟨.array [] none, ?_, .array .nil⟩
    rw [encodeChars_between (by decide) (by decide)]
    refine valueOf_noItems fuel ?_
    rw [skipBlank_blank h]
    exact skipBlank_cons (by decide) rest
  | @array values t h =>
    rw [List.length_append, List.length_cons] at hfuel
    obtain ⟨items, hread, hmeans⟩ := hitems values t rest h (by omega)
    refine ⟨.array items none, ?_, .array hmeans⟩
    rw [encodeChars_between (by decide) (by decide)]
    exact valueOf_array (h.goesOn _) hread
  | @noFields t h =>
    refine ⟨.object [] none, ?_, .object .nil .nil⟩
    rw [encodeChars_between (by decide) (by decide)]
    refine valueOf_noFields fuel ?_
    rw [skipBlank_blank h]
    exact skipBlank_cons (by decide) rest
  | @object fields t h =>
    rw [List.length_append, List.length_cons] at hfuel
    obtain ⟨members, hread, hnames, hmeans⟩ := hfields fields t rest h (by omega)
    refine ⟨.object members none, ?_, .object hnames hmeans⟩
    rw [encodeChars_between (by decide) (by decide)]
    exact valueOf_object (h.goesOn _) hread

/-! ## Items -/

theorem itemsOf_last {fuel : Nat} {text rest more : Bytes} {r : Reading}
    (hread : valueOf fuel text = (r, rest)) (hskip : skipBlank rest = byte ']' :: more) :
    itemsOf (fuel + 1) text = ([r], none, more) := by
  rw [itemsOf, hread]
  dsimp only
  rw [hskip]
  exact if_pos rfl

theorem itemsOf_more {fuel : Nat} {text rest more behind : Bytes} {r : Reading}
    {items : List Reading} {stop : Option Stop} (hread : valueOf fuel text = (r, rest))
    (hskip : skipBlank rest = byte ',' :: more) (hmore : GoesOn more)
    (hitems : itemsOf fuel more = (items, stop, behind)) :
    itemsOf (fuel + 1) text = (r :: items, stop, behind) := by
  obtain ⟨b, u, hmore, hb, -⟩ := hmore
  have hnext : ¬ some b = some (byte ']') := fun h => hb (Option.some.inj h)
  rw [itemsOf, hread]
  dsimp only
  rw [hskip]
  dsimp only
  rw [if_neg (by decide), if_pos rfl, hmore, List.head?_cons, if_neg hnext, hitems]

/-- A value between blanks, with a mark behind that may end it. -/
theorem ValuesRead.between {fuel : Nat} (h : ValuesRead fuel) {v : Value}
    {t before behind : List Char} (hv : Spells v t) (hbefore : Blank before)
    (hbehind : Blank behind) (hfuel : 2 * t.length < fuel) {c : Char}
    (hc : c ∈ [',', ']', '\x7d']) (rest : Bytes) :
    ∃ r more, valueOf fuel (encodeChars (before ++ t ++ behind) ++ byte c :: rest) = (r, more) ∧
      skipBlank more = byte c :: rest ∧ Means r v := by
  have hmarks : ∀ c ∈ [',', ']', '\x7d'], isBlank (byte c) = false :=
    forall_mem_of_all (by decide)
  have hblank := hmarks c hc
  obtain ⟨r, hread, hmeans⟩ := h v t _ hv (ends_blank hbehind (ends_cons hc rest)) hfuel
  refine ⟨r, encodeChars behind ++ byte c :: rest, ?_, ?_, hmeans⟩
  · rw [encodeChars_append, encodeChars_append, List.append_assoc, List.append_assoc,
      valueOf_blank hbefore]
    exact hread
  · rw [skipBlank_blank hbehind]
    exact skipBlank_cons hblank rest

theorem itemsRead_succ {fuel : Nat} (hvalues : ValuesRead fuel) (hitems : ItemsRead fuel) :
    ItemsRead (fuel + 1) := by
  intro values t rest h hfuel
  cases h with
  | @last v t before behind hv hbefore hbehind =>
    simp only [List.length_append] at hfuel
    obtain ⟨r, more, hread, hskip, hmeans⟩ :=
      hvalues.between hv hbefore hbehind (by omega) (by decide : ']' ∈ _) rest
    exact ⟨[r], itemsOf_last hread hskip, .cons hmeans .nil⟩
  | @more v values t u before behind hv hbefore hbehind h =>
    simp only [List.length_append, List.length_cons] at hfuel
    obtain ⟨r, more, hread, hskip, hmeans⟩ :=
      hvalues.between hv hbefore hbehind (by omega) (by decide : ',' ∈ _)
        (encodeChars u ++ byte ']' :: rest)
    obtain ⟨items, hreads, hall⟩ := hitems values u rest h (by omega)
    refine ⟨r :: items, ?_, .cons hmeans hall⟩
    rw [encodeChars_append, encodeChars_ascii (by decide), List.append_assoc, List.cons_append]
    exact itemsOf_more hread hskip (h.goesOn _) hreads

/-! ## Fields -/

/-- A field is read up to what follows its value. -/
def FieldRead (fuel : Nat) (text : Bytes) (key : Literal) (r : Reading) (rest : Bytes) : Prop :=
  ∃ inside behind after, skipBlank text = byte '"' :: inside ∧ literal inside = (key, behind) ∧
    key.stop = none ∧ skipBlank behind = byte ':' :: after ∧ valueOf fuel after = (r, rest)

theorem FieldRead.membersOf_eq {fuel : Nat} {text rest : Bytes} {key : Literal} {r : Reading}
    (h : FieldRead fuel text key r rest) :
    membersOf (fuel + 1) text =
      match skipBlank rest with
      | [] => ([(key, r)], some .ended, [])
      | b :: rest =>
        if b = byte '\x7d' then ([(key, r)], none, rest)
        else if b = byte ',' then
          let (members, stop, rest) := membersOf fuel rest
          ((key, r) :: members, stop, rest)
        else ([(key, r)], some .malformed, []) := by
  obtain ⟨inside, behind, after, hquote, hkey, hstop, hcolon, hread⟩ := h
  rw [membersOf, hquote]
  dsimp only
  rw [if_pos rfl, hkey]
  dsimp only
  rw [hstop, hcolon]
  dsimp only
  generalize valueOf fuel after = found at hread
  subst hread
  exact if_pos rfl

theorem membersOf_last {fuel : Nat} {text rest more : Bytes} {key : Literal} {r : Reading}
    (h : FieldRead fuel text key r rest) (hskip : skipBlank rest = byte '\x7d' :: more) :
    membersOf (fuel + 1) text = ([(key, r)], none, more) := by
  rw [h.membersOf_eq, hskip]
  exact if_pos rfl

theorem membersOf_more {fuel : Nat} {text rest more behind : Bytes} {key : Literal} {r : Reading}
    {members : List (Literal × Reading)} {stop : Option Stop} (h : FieldRead fuel text key r rest)
    (hskip : skipBlank rest = byte ',' :: more)
    (hmembers : membersOf fuel more = (members, stop, behind)) :
    membersOf (fuel + 1) text = ((key, r) :: members, stop, behind) := by
  rw [h.membersOf_eq, hskip]
  dsimp only
  rw [if_neg (by decide), if_pos rfl, hmembers]

theorem ValuesRead.field {fuel : Nat} (h : ValuesRead fuel) {field : String × Value}
    {t : List Char} (hfield : SpellsField field t) (hfuel : 2 * t.length < fuel) {c : Char}
    (hc : c ∈ [',', ']', '\x7d']) (rest : Bytes) :
    ∃ key r more, FieldRead fuel (encodeChars t ++ byte c :: rest) key r more ∧
      skipBlank more = byte c :: rest ∧ key.text = .ok field.1 ∧ Means r field.2 := by
  cases hfield with
  | @mk name v t u before colon after behind hname hv hbefore hcolon hafter hbehind =>
    simp only [List.length_append, List.length_cons] at hfuel
    obtain ⟨inside, key, rfl, hstop, htext, hliteral⟩ := hname.read
    obtain ⟨r, more, hread, hskip, hmeans⟩ :=
      h.between hv hafter hbehind (by omega) hc rest
    let value := encodeChars (after ++ u ++ behind) ++ byte c :: rest
    have hascii : (':').toNat < 128 := by decide
    refine ⟨key, r, more, ⟨_, encodeChars colon ++ byte ':' :: value, value, ?_, hliteral _, hstop,
      ?_, hread⟩, hskip, htext, hmeans⟩
    · rw [encodeChars_append, encodeChars_append, encodeChars_append, List.append_assoc,
        List.append_assoc, List.append_assoc, skipBlank_blank hbefore,
        encodeChars_ascii (by decide), encodeChars_ascii hascii]
      exact skipBlank_cons (by decide) _
    · rw [skipBlank_blank hcolon]
      exact skipBlank_cons (by decide) value

theorem fieldsRead_succ {fuel : Nat} (hvalues : ValuesRead fuel) (hfields : FieldsRead fuel) :
    FieldsRead (fuel + 1) := by
  intro fields t rest h hfuel
  cases h with
  | last hfield =>
    obtain ⟨key, r, more, hread, hskip, hname, hmeans⟩ :=
      hvalues.field hfield (by omega) (by decide : '\x7d' ∈ _) rest
    exact ⟨[(key, r)], membersOf_last hread hskip, .cons hname .nil, .cons hmeans .nil⟩
  | @more field fields t u hfield h =>
    simp only [List.length_append, List.length_cons] at hfuel
    obtain ⟨key, r, more, hread, hskip, hname, hmeans⟩ :=
      hvalues.field hfield (by omega) (by decide : ',' ∈ _)
        (encodeChars u ++ byte '\x7d' :: rest)
    obtain ⟨members, hreads, hnames, hall⟩ := hfields fields u rest h (by omega)
    refine ⟨(key, r) :: members, ?_, .cons hname hnames, .cons hmeans hall⟩
    rw [encodeChars_append, encodeChars_ascii (by decide), List.append_assoc, List.cons_append]
    exact membersOf_more hread hskip hreads

/-! ## Whole texts -/

theorem all_read (fuel : Nat) : ValuesRead fuel ∧ ItemsRead fuel ∧ FieldsRead fuel := by
  induction fuel with
  | zero =>
    refine ⟨?_, ?_, ?_⟩
    · intro v t rest h hrest hfuel
      omega
    · intro values t rest h hfuel
      omega
    · intro fields t rest h hfuel
      omega
  | succ fuel ih =>
    obtain ⟨hvalues, hitems, hfields⟩ := ih
    exact ⟨valuesRead_succ hitems hfields, itemsRead_succ hvalues hitems,
      fieldsRead_succ hvalues hfields⟩

/-- **Texts.** Of a text that spells a value, a reading with that meaning is read, and nothing but
blanks is left. -/
theorem read_text {v : Value} {text : String} (h : IsText v text) :
    ∃ r rest, read (encode text) = (r, rest) ∧ skipBlank rest = [] ∧ Means r v := by
  obtain ⟨before, t, behind, hbefore, hv, hbehind, htext⟩ := h
  have hbytes : encode text = encodeChars before ++ (encodeChars t ++ encodeChars behind) := by
    show encodeChars text.toList = _
    rw [htext, encodeChars_append, encodeChars_append, List.append_assoc]
  have hlength : t.length ≤ (encode text).length := by
    have hchars := length_le_length_encodeChars t
    rw [hbytes, List.length_append, List.length_append]
    omega
  have hends : Ends (encodeChars behind) := by
    have h := ends_blank hbehind ends_nil
    rwa [List.append_nil] at h
  obtain ⟨r, hread, hmeans⟩ := (all_read (2 * (encode text).length + 2)).1 v t _ hv hends (by omega)
  refine ⟨r, encodeChars behind, ?_, ?_, hmeans⟩
  · rw [← valueOf_blank hbefore, ← hbytes] at hread
    exact hread
  · have h := skipBlank_blank hbehind []
    rwa [List.append_nil] at h

end ClangLens.Json
