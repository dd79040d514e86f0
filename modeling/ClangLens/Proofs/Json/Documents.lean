import ClangLens.Proofs.Json.Printing
import ClangLens.Proofs.Json.Values

/-!
# Documents

A text that reading goes through to its end without a stop is a document, and it has one value. So
no text spells two values, and a value that was printed is what its text is read as.
-/

namespace ClangLens.Json

mutual

/-- The value of a reading that is whole. -/
def Reading.value? : Reading → Option Value
  | .null => some .null
  | .bool b => some (.bool b)
  | .number n none => some (.number n)
  | .string l => l.text.toOption.map .string
  | .array items none => (Reading.values? items).map .array
  | .object members none => (Reading.fields? members).map .object
  | _ => none

def Reading.values? : List Reading → Option (List Value)
  | [] => some []
  | r :: rest => do
    let v ← r.value?
    return v :: (← Reading.values? rest)

def Reading.fields? : List (Literal × Reading) → Option (List (String × Value))
  | [] => some []
  | (name, r) :: rest => do
    let name ← name.text.toOption
    let v ← r.value?
    return (name, v) :: (← Reading.fields? rest)

end

/-- The value of a document: one value with nothing but blanks around it. -/
def document? (text : String) : Option Value :=
  let (r, rest) := read (Utf8.encode text)
  if skipBlank rest = [] then r.value? else none

mutual

/-- What a reading means is its value. -/
theorem Means.value? : ∀ {r : Reading} {v : Value}, Means r v → r.value? = some v
  | .null, _, .null => rfl
  | .bool _, _, .bool _ => rfl
  | .number _ _, _, .number _ => rfl
  | .string _, _, .string h => by
    rw [Reading.value?, h]
    rfl
  | .array items _, _, .array h => by
    rw [Reading.value?, Means.values? h]
    rfl
  | .object members _, _, .object hnames hvalues => by
    rw [Reading.value?, Means.fields? hnames hvalues]
    rfl

theorem Means.values? : ∀ {items : List Reading} {values : List Value},
    List.Forall₂ Means items values → Reading.values? items = some values
  | [], _, .nil => rfl
  | r :: rest, _, .cons h hs => by
    rw [Reading.values?, h.value?, Means.values? hs]
    rfl

theorem Means.fields? : ∀ {members : List (Literal × Reading)} {fields : List (String × Value)},
    List.Forall₂ (fun m f => m.1.text = .ok f.1) members fields →
      List.Forall₂ (fun m f => Means m.2 f.2) members fields →
        Reading.fields? members = some fields
  | [], _, .nil, .nil => rfl
  | (name, r) :: rest, _, .cons hname hnames, .cons h hs => by
    rw [Reading.fields?, hname, Means.value? h, Means.fields? hnames hs]
    rfl

end

/-- A text that spells a value is a document with that value. -/
theorem IsText.document? {v : Value} {text : String} (h : IsText v text) :
    document? text = some v := by
  obtain ⟨r, rest, hread, hblank, hmeans⟩ := read_text h
  rw [Json.document?, hread]
  simp only [hblank, if_true]
  exact hmeans.value?

/-- **Documents.** What is printed of a value is a document, and read back it is the value. -/
theorem document?_pretty (j : Json) : document? (j.pretty ++ "\n") = some j.value :=
  (isText_pretty j).document?

end ClangLens.Json
