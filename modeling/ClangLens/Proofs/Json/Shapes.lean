import ClangLens.Proofs.Json.Printing

/-!
# Values of a shape

What is asked of a value: a text, a list of texts, a number, a field, or any of these where it may
be null. A question has an answer exactly for values of its shape.
-/

namespace ClangLens.Json.Value

variable {α : Type}

/-! ## Texts -/

/-- The text that a value is. -/
def text? : Value → Option String
  | .string s => some s
  | _ => none

/-- The texts that a value lists. -/
def texts? : Value → Option (List String)
  | .array items => items.mapM text?
  | _ => none

theorem text?_eq_some {v : Value} {s : String} : v.text? = some s ↔ v = .string s := by
  cases v <;> simp [text?]

theorem mapM_text?_eq_some {items : List Value} {texts : List String} :
    items.mapM text? = some texts ↔ items = texts.map .string := by
  induction items generalizing texts with
  | nil => cases texts <;> simp
  | cons v items ih =>
    rw [List.mapM_cons]
    cases texts with
    | nil => simp [Option.bind_eq_some_iff]
    | cons s texts => simp [Option.bind_eq_some_iff, text?_eq_some, ih]

theorem texts?_eq_some {v : Value} {texts : List String} :
    v.texts? = some texts ↔ v = .array (texts.map .string) := by
  cases v <;> simp [texts?, mapM_text?_eq_some]

/-! ## Other shapes -/

/-- The truth value that a value is. -/
def truth? : Value → Option Bool
  | .bool b => some b
  | _ => none

/-- The number of 32 bits that a value is. -/
def word? : Value → Option UInt32
  | .number n => n.natural?.bind fun k => if k < UInt32.size then some k.toUInt32 else none
  | _ => none

/-- What a value lists. -/
def list? (read : Value → Option α) : Value → Option (List α)
  | .array items => items.mapM read
  | _ => none

/-- What a value is, if it is not null. -/
def option? (read : Value → Option α) : Value → Option (Option α)
  | .null => some none
  | v => (read v).map some

/-- The first field of a value with a name. -/
def field? (v : Value) (name : String) : Option Value :=
  match v with
  | .object fields => (fields.find? fun f => f.1 = name).map Prod.snd
  | _ => none

@[simp]
theorem text?_string (s : String) : text? (.string s) = some s := rfl

@[simp]
theorem truth?_bool (b : Bool) : truth? (.bool b) = some b := rfl

@[simp]
theorem word?_number (w : UInt32) : word? (.number (.ofNat w.toNat)) = some w := by
  rw [word?, Numeral.natural?_ofNat, Option.bind_some, if_pos w.toNat_lt]
  simp

/-- A value that may be missing is read back if it can be where it is there. -/
theorem option?_option {write : α → Json} {read : Value → Option α}
    (h : ∀ a, read (write a).value = some a) (hnull : ∀ a, (write a).value ≠ .null)
    (a : Option α) : option? read (Json.option write a).value = some a := by
  cases a with
  | none => rfl
  | some a =>
    rw [Json.option, option?]
    · rw [h, Option.map_some]
    · exact hnull a

@[simp]
theorem option?_text (s : Option String) :
    option? text? (Json.option .string s).value = some s :=
  option?_option (fun _ => rfl) (fun _ h => by rw [Json.value] at h; exact nomatch h) s

/-- Items are read back one by one. -/
theorem list?_array {read : Value → Option α} {as : List α} {items : List Json}
    (h : List.Forall₂ (fun a j => read j.value = some a) as items) :
    list? read (.array (Json.values items)) = some as := by
  rw [list?]
  induction h with
  | nil => rfl
  | cons h _ ih =>
    rw [Json.values, List.mapM_cons, h, ih]
    rfl

@[simp]
theorem field?_cons_self (name : String) (v : Value) (rest : List (String × Value)) :
    field? (.object ((name, v) :: rest)) name = some v := by
  simp [field?]

theorem field?_cons_of_ne {name other : String} (h : other ≠ name) (v : Value)
    (rest : List (String × Value)) :
    field? (.object ((other, v) :: rest)) name = field? (.object rest) name := by
  simp [field?, h]

end ClangLens.Json.Value
