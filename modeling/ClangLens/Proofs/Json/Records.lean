import Mathlib.Data.List.Basic
import ClangLens.Proofs.Json.Shapes
import ClangLens.Proofs.Json.Values

/-!
# Records of two fields

A record of two values is written as an object that has a field for each, in any order and among
other fields, or as the array of both. Going through the fields of an object, what is known of the
two depends on the fields with their names alone: others are read past, and a field that is given
again or has a wrong value is refused when it is met.
-/

namespace ClangLens.Json

open Utf8

/-! ## Answers -/

/-- Every reading of a value answers a question in the same way. -/
def Value.Answers {α : Type} (v : Value) (ask : Reading → Except Fault α)
    (answer : Except Fault α) : Prop :=
  ∀ r, Means r v → ask r = answer

/-- A text that spells a value answers as the value does. -/
theorem Value.Answers.readAs {α : Type} {v : Value} {ask : Reading → Except Fault α}
    {answer : Except Fault α} (h : v.Answers ask answer) {text : String} (htext : IsText v text) :
    Json.readAs ask (encode text) = answer := by
  obtain ⟨r, rest, hread, hblank, hmeans⟩ := read_text htext
  unfold Json.readAs
  rw [hread]
  simp only [h r hmeans, hblank, if_true]
  cases answer <;> rfl

/-- A question about the value with something done to its answer. -/
theorem Value.Answers.map {α β : Type} {v : Value} {ask : Reading → Except Fault α}
    {answer : Except Fault α} (h : v.Answers ask answer) (f : α → β) :
    v.Answers (fun r => f <$> ask r) (f <$> answer) := by
  intro r hr
  show f <$> ask r = _
  rw [h r hr]

/-! ## Reading past -/

/-- A literal that was not read to its end has no bytes. -/
theorem Literal.bytes_of_stop {stop : Option Stop} (hstop : stop ≠ none) (parts : List Part) :
    ∃ e, Literal.bytes stop parts = .error e := by
  fun_induction Literal.bytes stop parts with
  | case1 s => exact ⟨s, rfl⟩
  | case2 => contradiction
  | case3 b rest ih | case7 n m rest _ _ _ ih | case9 n rest _ _ ih =>
    obtain ⟨e, he⟩ := ih
    rw [he]
    exact ⟨e, rfl⟩
  | case4 | case5 | case6 | case8 => exact ⟨_, rfl⟩

theorem Literal.stop_of_text {l : Literal} {s : String} (h : l.text = .ok s) : l.stop = none := by
  by_contra hstop
  obtain ⟨e, he⟩ := bytes_of_stop hstop l.parts
  rw [Literal.text, he] at h
  cases h

mutual

/-- Whatever a value is, it is read past. -/
theorem Means.skip : ∀ {r : Reading} {v : Value}, Means r v → r.skip = .ok ()
  | .null, _, .null => rfl
  | .bool _, _, .bool _ => rfl
  | .number _ _, _, .number _ => rfl
  | .string l, _, .string h => by
    rw [Reading.skip, Literal.stop_of_text h]
    rfl
  | .array items _, _, .array h => by
    rw [Reading.skip, Means.skipItems h]
    rfl
  | .object members _, _, .object hnames hvalues => by
    rw [Reading.skip, Means.skipMembers hnames hvalues]
    rfl

theorem Means.skipItems : ∀ {items : List Reading} {values : List Value},
    List.Forall₂ Means items values → Reading.skipItems items = .ok ()
  | [], _, .nil => rfl
  | r :: rest, _, .cons h hs => by
    rw [Reading.skipItems, h.skip, Means.skipItems hs]
    rfl

theorem Means.skipMembers : ∀ {members : List (Literal × Reading)}
    {fields : List (String × Value)},
    List.Forall₂ (fun m f => m.1.text = .ok f.1) members fields →
      List.Forall₂ (fun m f => Means m.2 f.2) members fields →
        Reading.skipMembers members = .ok ()
  | [], _, .nil, .nil => rfl
  | (name, r) :: rest, _, .cons hname hnames, .cons h hs => by
    rw [Reading.skipMembers, Literal.stop_of_text hname, Means.skip h, Means.skipMembers hnames hs]
    rfl

end

/-! ## Texts and numbers -/

theorem Value.answers_asText (s : String) : (Value.string s).Answers Reading.asText (.ok s) := by
  intro r h
  cases h with
  | @string l s h =>
    show Reading.ofLiteral l = _
    rw [Reading.ofLiteral, h]

/-- A numeral for no whole number of 32 bits, which is within the range of a 64-bit float. -/
def Numeral.IsNoWord (n : Numeral) : Prop :=
  n.tooLarge = false ∧
    (n.negative = true ∨ n.fraction.isSome ∨ n.exponent.isSome ∨ UInt32.size ≤ value n.whole)

theorem Numeral.tooLarge_ofNat {k : Nat} (h : k < UInt64.size) :
    (Numeral.ofNat k).tooLarge = false := by
  have hfloat : (Numeral.ofNat k).isFloat = false := by
    unfold isFloat Numeral.ofNat
    rw [value_digitsOf, decide_eq_false (by omega)]
    rfl
  unfold tooLarge
  simp only [hfloat, Bool.false_and]

/-- A number in range is asked for a whole number of 32 bits. -/
theorem Value.answers_asWord {n : Numeral} (h : n.tooLarge = false) :
    (Value.number n).Answers Reading.asWord
      (match (Value.number n).word? with
      | some w => .ok w
      | none => .error .mismatched) := by
  intro r hr
  cases hr with
  | number =>
    have hnumber : Reading.ofNumber n none = .ok n := by
      unfold Reading.ofNumber stopped
      rw [h]
      rfl
    unfold Reading.asWord
    simp only [hnumber, bind, Except.bind, Value.word?]
    cases n.natural? with
    | none => rfl
    | some v =>
      by_cases hv : v < UInt32.size
      · simp only [Option.bind_some, if_pos hv]
      · simp only [Option.bind_some, if_neg hv]

theorem Value.answers_word (w : UInt32) :
    (Value.number (.ofNat w.toNat)).Answers Reading.asWord (.ok w) := by
  have hlt : w.toNat < UInt64.size := Nat.lt_trans w.toNat_lt (by decide)
  have h := answers_asWord (Numeral.tooLarge_ofNat hlt)
  rwa [word?_number] at h

theorem Numeral.IsNoWord.word? {n : Numeral} (h : n.IsNoWord) : (Value.number n).word? = none := by
  obtain ⟨negative, whole, fraction, exponent⟩ := n
  obtain ⟨-, hword⟩ := h
  dsimp only at hword
  rw [Value.word?]
  unfold natural?
  split
  · rename_i heq
    cases heq
    have hlarge : ¬ value whole < UInt32.size := by simpa using hword
    rw [Option.bind_some, if_neg hlarge]
  · rfl

theorem Value.answers_noWord {n : Numeral} (h : n.IsNoWord) :
    (Value.number n).Answers Reading.asWord (.error .mismatched) := by
  have hanswers := answers_asWord h.1
  rwa [h.word?] at hanswers

/-! ## Going through fields -/

/-- A member and the field that it means. -/
def MeansField (m : Literal × Reading) (f : String × Value) : Prop :=
  m.1.text = .ok f.1 ∧ Means m.2 f.2

theorem Means.members {members : List (Literal × Reading)} {fields : List (String × Value)}
    (hnames : List.Forall₂ (fun m f => m.1.text = .ok f.1) members fields)
    (hvalues : List.Forall₂ (fun m f => Means m.2 f.2) members fields) :
    List.Forall₂ MeansField members fields := by
  induction hvalues with
  | nil => exact .nil
  | cons hvalue _ ih =>
    obtain ⟨hname, hnames⟩ := List.forall₂_cons.mp hnames
    exact .cons ⟨hname, hvalue⟩ (ih hnames)

/-- A field of a record: its name, and what is asked of its value. -/
structure RecordField (α : Type) where
  name : String
  ask : Reading → Except Fault α

/-- A record of two fields. -/
def RecordField.pair {α β : Type} (p : RecordField α) (q : RecordField β) :
    Reading → Except Fault (α × β) :=
  Reading.asPair p.name p.ask q.name q.ask

/-- What is known of two fields behind some members. -/
def RecordField.fields {α β : Type} (p : RecordField α) (q : RecordField β) :
    List (Literal × Reading) → Option α → Option β → Except Fault (Option α × Option β) :=
  Reading.fields p.name p.ask q.name q.ask

section

variable {α β : Type} {p : RecordField α} {q : RecordField β} {m : Literal × Reading}
  {f : String × Value} {a : Option α} {b : Option β}

theorem MeansField.ofLiteral (h : MeansField m f) : Reading.ofLiteral m.1 = .ok f.1 := by
  rw [Reading.ofLiteral, h.1]

theorem fields_first (h : MeansField m f) (hname : f.1 = p.name)
    (rest : List (Literal × Reading)) :
    p.fields q (m :: rest) none b = (p.ask m.2).bind fun x => p.fields q rest (some x) b := by
  rw [RecordField.fields, Reading.fields, h.ofLiteral]
  show (if f.1 = p.name then _ else _) = _
  rw [if_pos hname]
  rfl

theorem fields_second (h : MeansField m f) (hother : f.1 ≠ p.name) (hname : f.1 = q.name)
    (rest : List (Literal × Reading)) :
    p.fields q (m :: rest) a none = (q.ask m.2).bind fun y => p.fields q rest a (some y) := by
  rw [RecordField.fields, Reading.fields, h.ofLiteral]
  show (if f.1 = p.name then _ else _) = _
  rw [if_neg hother, if_pos hname]
  rfl

theorem fields_other (h : MeansField m f) (hfirst : f.1 ≠ p.name) (hsecond : f.1 ≠ q.name)
    (rest : List (Literal × Reading)) : p.fields q (m :: rest) a b = p.fields q rest a b := by
  rw [RecordField.fields, Reading.fields, h.ofLiteral]
  show (if f.1 = p.name then _ else _) = _
  rw [if_neg hfirst, if_neg hsecond, h.2.skip]
  rfl

/-- A field that cannot be taken up: it is known already, or its value is wrong. -/
def RecordField.Refuses (p : RecordField α) (q : RecordField β) (a : Option α) (b : Option β)
    (f : String × Value) : Prop :=
  (f.1 = p.name ∧ (a.isSome ∨ f.2.Answers p.ask (.error .mismatched))) ∨
    (f.1 ≠ p.name ∧ f.1 = q.name ∧ (b.isSome ∨ f.2.Answers q.ask (.error .mismatched)))

theorem fields_refused (h : MeansField m f) (hf : p.Refuses q a b f)
    (rest : List (Literal × Reading)) : p.fields q (m :: rest) a b = .error .mismatched := by
  rcases hf with ⟨hname, hwhy⟩ | ⟨hother, hname, hwhy⟩
  · cases a with
    | some x =>
      rw [RecordField.fields, Reading.fields, h.ofLiteral]
      show (if f.1 = p.name then _ else _) = _
      rw [if_pos hname]
      rfl
    | none =>
      have hwrong := hwhy.resolve_left Bool.false_ne_true
      rw [fields_first h hname, hwrong _ h.2]
      rfl
  · cases b with
    | some y =>
      rw [RecordField.fields, Reading.fields, h.ofLiteral]
      show (if f.1 = p.name then _ else _) = _
      rw [if_neg hother, if_pos hname]
      rfl
    | none =>
      have hwrong := hwhy.resolve_left Bool.false_ne_true
      rw [fields_second h hother hname, hwrong _ h.2]
      rfl

/-- A name that no other field has. -/
theorem not_mem_of_others {first second name : String} {others : List (String × Value)}
    (h : ∀ f ∈ others, f.1 ≠ first ∧ f.1 ≠ second) (hname : name = first ∨ name = second) :
    name ∉ others.map Prod.fst := by
  intro hmem
  obtain ⟨f, hf, rfl⟩ := List.mem_map.mp hmem
  exact not_or.mpr (h f hf) hname

/-- Fields of which those with one of two names have right values and are given once. -/
structure RecordField.Sound (p : RecordField α) (q : RecordField β) (x : α) (y : β)
    (fields : List (String × Value)) : Prop where
  first : ∀ v, (p.name, v) ∈ fields → v.Answers p.ask (.ok x)
  second : ∀ v, (q.name, v) ∈ fields → v.Answers q.ask (.ok y)
  once : ∀ name ∈ [p.name, q.name], (fields.map Prod.fst).count name ≤ 1

namespace RecordField.Sound

variable {x : α} {y : β} {fields : List (String × Value)} {members : List (Literal × Reading)}

theorem sublist {part : List (String × Value)} (h : p.Sound q x y fields)
    (hpart : part.Sublist fields) : p.Sound q x y part where
  first v hv := h.first v (hpart.subset hv)
  second v hv := h.second v (hpart.subset hv)
  once name hname := Nat.le_trans ((hpart.map Prod.fst).count_le name) (h.once name hname)

/-- Behind a field there is none with its name. -/
theorem not_mem_of_cons (h : p.Sound q x y (f :: fields)) (hname : f.1 ∈ [p.name, q.name]) :
    f.1 ∉ fields.map Prod.fst := by
  have honce := h.once f.1 hname
  rw [List.map_cons, List.count_cons_self] at honce
  exact List.count_eq_zero.mp (by omega)

theorem symm (h : p.Sound q x y fields) : q.Sound p y x fields where
  first := h.second
  second := h.first
  once name hname := h.once name (List.mem_reverse.mp hname)

theorem perm {fields' : List (String × Value)} (h : p.Sound q x y fields)
    (hperm : fields'.Perm fields) : p.Sound q x y fields' where
  first v hv := h.first v (hperm.mem_iff.mp hv)
  second v hv := h.second v (hperm.mem_iff.mp hv)
  once name hname := by
    rw [(hperm.map Prod.fst).count_eq]
    exact h.once name hname

theorem of_others {others : List (String × Value)}
    (h : ∀ f ∈ others, f.1 ≠ p.name ∧ f.1 ≠ q.name) : p.Sound q x y others where
  first v hv := absurd rfl (h _ hv).1
  second v hv := absurd rfl (h _ hv).2
  once name hname := by
    rw [List.count_eq_zero.mpr (not_mem_of_others h (by simpa using hname))]
    exact Nat.zero_le 1

/-- One of the two fields is put in front of fields that do not have it. -/
theorem cons_first {v : Value} (h : p.Sound q x y fields) (hne : q.name ≠ p.name)
    (hv : v.Answers p.ask (.ok x)) (habsent : p.name ∉ fields.map Prod.fst) :
    p.Sound q x y ((p.name, v) :: fields) where
  first w hw := by
    rcases List.mem_cons.mp hw with heq | hw
    · obtain rfl : w = v := (Prod.ext_iff.mp heq).2
      exact hv
    · exact h.first w hw
  second w hw := by
    rcases List.mem_cons.mp hw with heq | hw
    · exact absurd (Prod.ext_iff.mp heq).1 hne
    · exact h.second w hw
  once name hname := by
    rw [List.map_cons, List.count_cons]
    by_cases hfirst : name = p.name
    · rw [hfirst, List.count_eq_zero.mpr habsent]
      simp
    · have honce := h.once name hname
      simpa [Ne.symm hfirst] using honce

theorem cons_second {v : Value} (h : p.Sound q x y fields) (hne : q.name ≠ p.name)
    (hv : v.Answers q.ask (.ok y)) (habsent : q.name ∉ fields.map Prod.fst) :
    p.Sound q x y ((q.name, v) :: fields) := (h.symm.cons_first hne.symm hv habsent).symm

/-- **A run.** Going through sound fields, what is known is extended by what they say. -/
theorem run (hne : q.name ≠ p.name) (hmembers : List.Forall₂ MeansField members fields)
    (h : p.Sound q x y fields) (ha : a.isSome → p.name ∉ fields.map Prod.fst)
    (hb : b.isSome → q.name ∉ fields.map Prod.fst) (more : List (Literal × Reading)) :
    p.fields q (members ++ more) a b =
      p.fields q more (if p.name ∈ fields.map Prod.fst then some x else a)
        (if q.name ∈ fields.map Prod.fst then some y else b) := by
  induction hmembers generalizing a b with
  | nil => rfl
  | @cons m f members fields hm _ ih =>
    have hrest := h.sublist (List.sublist_cons_self f fields)
    have hmem : f ∈ f :: fields := List.mem_cons_self
    simp only [List.map_cons, List.mem_cons, not_or] at ha hb ⊢
    rw [List.cons_append]
    by_cases hfirst : f.1 = p.name
    · have hnone : a = none := by
        cases a with
        | none => rfl
        | some _ => exact absurd hfirst.symm (ha rfl).1
      have hvalue : f.2.Answers p.ask (.ok x) := h.first f.2 (hfirst ▸ hmem)
      have habsent : p.name ∉ fields.map Prod.fst :=
        hfirst ▸ h.not_mem_of_cons (hfirst ▸ List.mem_cons_self)
      have hother : ¬ q.name = f.1 := fun h => hne (h.trans hfirst)
      rw [hnone, fields_first hm hfirst, hvalue _ hm.2]
      show p.fields q (members ++ more) (some x) b = _
      rw [ih hrest (fun _ => habsent) fun hsome => (hb hsome).2]
      simp only [hfirst.symm, hother, true_or, if_true, false_or, ite_self]
    · by_cases hsecond : f.1 = q.name
      · have hnone : b = none := by
          cases b with
          | none => rfl
          | some _ => exact absurd hsecond.symm (hb rfl).1
        have hvalue : f.2.Answers q.ask (.ok y) := h.second f.2 (hsecond ▸ hmem)
        have habsent : q.name ∉ fields.map Prod.fst :=
          hsecond ▸ h.not_mem_of_cons (hsecond ▸ List.mem_cons_of_mem _ List.mem_cons_self)
        rw [hnone, fields_second hm hfirst hsecond, hvalue _ hm.2]
        show p.fields q (members ++ more) a (some y) = _
        rw [ih hrest (fun hsome => (ha hsome).2) fun _ => habsent]
        simp only [hsecond.symm, Ne.symm hfirst, true_or, if_true, false_or, ite_self]
      · rw [fields_other hm hfirst hsecond,
          ih hrest (fun hsome => (ha hsome).2) fun hsome => (hb hsome).2]
        simp only [Ne.symm hfirst, Ne.symm hsecond, false_or]

/-- A run from the start, where nothing is known. -/
theorem run_none (hne : q.name ≠ p.name) (hmembers : List.Forall₂ MeansField members fields)
    (h : p.Sound q x y fields) (more : List (Literal × Reading)) :
    p.fields q (members ++ more) none none =
      p.fields q more (if p.name ∈ fields.map Prod.fst then some x else none)
        (if q.name ∈ fields.map Prod.fst then some y else none) := by
  refine h.run hne hmembers ?_ ?_ more
  all_goals
    intro hsome
    cases hsome

end RecordField.Sound

/-! ## Objects and arrays -/

variable {x : α} {y : β} {front rest fields : List (String × Value)}

/-- The array of two values is asked for the first and then for the second. -/
theorem RecordField.answers_array {v w : Value} {first : Except Fault α} {second : Except Fault β}
    (hv : v.Answers p.ask first) (hw : w.Answers q.ask second) :
    (Value.array [v, w]).Answers (p.pair q)
      (first.bind fun x => second.bind fun y => .ok (x, y)) := by
  intro r hr
  cases hr with
  | array hitems =>
    obtain ⟨r, _, hr, hrest, rfl⟩ := List.forall₂_cons_right_iff.mp hitems
    obtain ⟨s, _, hs, hnil, rfl⟩ := List.forall₂_cons_right_iff.mp hrest
    obtain rfl := List.forall₂_nil_right_iff.mp hnil
    show (p.ask r).bind (fun a => (q.ask s).bind fun b => stopped none (.ok (a, b))) = _
    rw [hv r hr, hw s hs]
    rfl

theorem RecordField.answers_object (hne : q.name ≠ p.name) (h : p.Sound q x y fields) :
    (Value.object fields).Answers (p.pair q)
      (if p.name ∈ fields.map Prod.fst ∧ q.name ∈ fields.map Prod.fst then .ok (x, y)
      else .error .mismatched) := by
  intro r hr
  cases hr with
  | @object members _ hnames hvalues =>
    have hrun := h.run_none hne (Means.members hnames hvalues) []
    rw [List.append_nil] at hrun
    show (p.fields q members none none).bind _ = _
    rw [hrun]
    by_cases hfirst : p.name ∈ fields.map Prod.fst <;>
      by_cases hsecond : q.name ∈ fields.map Prod.fst <;>
      simp only [hfirst, hsecond, and_self, and_true, and_false, if_true, if_false] <;> rfl

/-- Going through the fields of an object ends at one that is refused. -/
theorem RecordField.refuses_object (hne : q.name ≠ p.name) (h : p.Sound q x y front)
    (hf : p.Refuses q (if p.name ∈ front.map Prod.fst then some x else none)
      (if q.name ∈ front.map Prod.fst then some y else none) f) :
    (Value.object (front ++ f :: rest)).Answers (p.pair q) (.error .mismatched) := by
  intro r hr
  cases hr with
  | @object members _ hnames hvalues =>
    have hmembers := Means.members hnames hvalues
    have hfront := List.forall₂_take_append members front (f :: rest) hmembers
    have hbehind := List.forall₂_drop_append members front (f :: rest) hmembers
    obtain ⟨m, more, hm, -, hdrop⟩ := List.forall₂_cons_right_iff.mp hbehind
    have hrun := h.run_none hne hfront (m :: more)
    rw [← hdrop, List.take_append_drop, hdrop, fields_refused hm hf] at hrun
    show (p.fields q members none none).bind _ = _
    rw [hrun]
    rfl

/-- Wherever the refused field stands among sound ones. -/
theorem RecordField.refuses_among (hne : q.name ≠ p.name) (h : p.Sound q x y rest)
    (hperm : fields.Perm (f :: rest)) (hf : ∀ a b, p.Refuses q a b f) :
    (Value.object fields).Answers (p.pair q) (.error .mismatched) := by
  have hmem : f ∈ fields := hperm.mem_iff.mpr List.mem_cons_self
  obtain ⟨front, behind, rfl⟩ := List.append_of_mem hmem
  have hothers : (front ++ behind).Perm rest :=
    (List.perm_middle.symm.trans hperm).cons_inv
  have hfront : p.Sound q x y front :=
    (h.perm hothers).sublist (List.sublist_append_left front behind)
  exact RecordField.refuses_object hne hfront (hf _ _)

end

/-! ## Records -/

/-- A record of two values, written as an object with a field for each, in any order and among
others, or as the array of both. -/
inductive Record (first : String) (A : Value → Prop) (second : String) (B : Value → Prop) :
    Value → Prop where
  | object {fields others : List (String × Value)} {v w : Value} (hv : A v) (hw : B w)
      (hothers : ∀ f ∈ others, f.1 ≠ first ∧ f.1 ≠ second)
      (h : fields.Perm ((first, v) :: (second, w) :: others)) :
      Record first A second B (.object fields)
  | array {v w : Value} (hv : A v) (hw : B w) : Record first A second B (.array [v, w])

/-- A record written as an object, but one of its two fields is left out or is given again. -/
inductive Miscounted (first : String) (A : Value → Prop) (second : String) (B : Value → Prop) :
    Value → Prop where
  | missing {front rest : List (String × Value)} {name : String} {v : Value}
      (h : Record first A second B (.object (front ++ (name, v) :: rest)))
      (hname : name = first ∨ name = second) : Miscounted first A second B (.object (front ++ rest))
  | repeated {front middle rest : List (String × Value)} {name : String} {v w : Value}
      (h : Record first A second B (.object (front ++ (name, v) :: (middle ++ rest))))
      (hname : name = first ∨ name = second) :
      Miscounted first A second B (.object (front ++ (name, v) :: (middle ++ (name, w) :: rest)))

/-- A record that is not as it should be in one respect: how often a field is given, or a value
that is a bad one. -/
inductive Flawed (first : String) (A badA : Value → Prop) (second : String)
    (B badB : Value → Prop) : Value → Prop where
  | miscounted {v : Value} (h : Miscounted first A second B v) : Flawed first A badA second B badB v
  | first {v : Value} (h : Record first badA second B v) : Flawed first A badA second B badB v
  | second {v : Value} (h : Record first A second badB v) : Flawed first A badA second B badB v

section

variable {α β : Type} {p : RecordField α} {q : RecordField β} {A badA B badB : Value → Prop}
  {x : α} {y : β} {v : Value}

theorem Record.sound {fields : List (String × Value)} (hne : q.name ≠ p.name)
    (hA : ∀ v, A v → v.Answers p.ask (.ok x)) (hB : ∀ v, B v → v.Answers q.ask (.ok y))
    (h : Record p.name A q.name B (.object fields)) :
    p.Sound q x y fields ∧ p.name ∈ fields.map Prod.fst ∧ q.name ∈ fields.map Prod.fst := by
  cases h with
  | @object _ others v w hv hw hothers hperm =>
    have hfirst : p.name ∉ others.map Prod.fst := not_mem_of_others hothers (.inl rfl)
    have hsecond : q.name ∉ others.map Prod.fst := not_mem_of_others hothers (.inr rfl)
    have hlast : p.Sound q x y ((q.name, w) :: others) :=
      (RecordField.Sound.of_others hothers).cons_second hne (hB w hw) hsecond
    have hall := hlast.cons_first hne (hA v hv) (by simp [hne.symm, hfirst])
    refine ⟨hall.perm hperm, ?_, ?_⟩ <;> simp [(hperm.map Prod.fst).mem_iff]

/-- **Records.** However a record is written, it is the pair of what its values are. -/
theorem Record.answers (hne : q.name ≠ p.name) (hA : ∀ v, A v → v.Answers p.ask (.ok x))
    (hB : ∀ v, B v → v.Answers q.ask (.ok y)) (h : Record p.name A q.name B v) :
    v.Answers (p.pair q) (.ok (x, y)) := by
  cases h with
  | object hv hw hothers hperm =>
    obtain ⟨hsound, hmem⟩ := Record.sound hne hA hB (.object hv hw hothers hperm)
    have hanswers := RecordField.answers_object hne hsound
    rwa [if_pos hmem] at hanswers
  | array hv hw => exact RecordField.answers_array (hA _ hv) (hB _ hw)

/-- A record with a field too few or too many is refused. -/
theorem Miscounted.answers (hne : q.name ≠ p.name) (hA : ∀ v, A v → v.Answers p.ask (.ok x))
    (hB : ∀ v, B v → v.Answers q.ask (.ok y)) (h : Miscounted p.name A q.name B v) :
    v.Answers (p.pair q) (.error .mismatched) := by
  cases h with
  | @missing front rest name v h hname =>
    obtain ⟨hsound, -⟩ := h.sound hne hA hB
    have hpart : (front ++ rest).Sublist (front ++ (name, v) :: rest) :=
      (List.Sublist.refl front).append (List.sublist_cons_self _ rest)
    have hanswers := RecordField.answers_object hne (hsound.sublist hpart)
    have hmoved : p.Sound q x y ((name, v) :: (front ++ rest)) :=
      hsound.perm List.perm_middle.symm
    have habsent : name ∉ (front ++ rest).map Prod.fst :=
      hmoved.not_mem_of_cons (by simpa using hname)
    rwa [if_neg] at hanswers
    rintro ⟨hfirst, hsecond⟩
    rcases hname with rfl | rfl
    · exact habsent hfirst
    · exact habsent hsecond
  | @repeated front middle rest name v w h hname =>
    obtain ⟨hsound, -⟩ := h.sound hne hA hB
    have hpart : (front ++ (name, v) :: middle).Sublist (front ++ (name, v) :: (middle ++ rest)) :=
      (List.Sublist.refl front).append ((List.sublist_append_left middle rest).cons_cons _)
    have hrefuses : p.Refuses q
        (if p.name ∈ (front ++ (name, v) :: middle).map Prod.fst then some x else none)
        (if q.name ∈ (front ++ (name, v) :: middle).map Prod.fst then some y else none)
        (name, w) := by
      rcases hname with rfl | rfl
      · exact .inl ⟨rfl, .inl (by simp)⟩
      · exact .inr ⟨hne, rfl, .inl (by simp)⟩
    rw [← List.cons_append, ← List.append_assoc]
    exact RecordField.refuses_object hne (hsound.sublist hpart) hrefuses

/-- A record with a wrong first value is refused. -/
theorem Record.refuses_first (hne : q.name ≠ p.name) (x : α)
    (hA : ∀ v, A v → v.Answers p.ask (.error .mismatched))
    (hB : ∀ v, B v → v.Answers q.ask (.ok y)) (h : Record p.name A q.name B v) :
    v.Answers (p.pair q) (.error .mismatched) := by
  cases h with
  | @object fields others v w hv hw hothers hperm =>
    have habsent : q.name ∉ others.map Prod.fst := not_mem_of_others hothers (.inr rfl)
    have hsound : p.Sound q x y ((q.name, w) :: others) :=
      (RecordField.Sound.of_others hothers).cons_second hne (hB w hw) habsent
    exact RecordField.refuses_among hne hsound hperm fun _ _ => .inl ⟨rfl, .inr (hA v hv)⟩
  | array hv hw => exact RecordField.answers_array (hA _ hv) (hB _ hw)

/-- A record with a wrong second value is refused. -/
theorem Record.refuses_second (hne : q.name ≠ p.name) (y : β)
    (hA : ∀ v, A v → v.Answers p.ask (.ok x))
    (hB : ∀ v, B v → v.Answers q.ask (.error .mismatched)) (h : Record p.name A q.name B v) :
    v.Answers (p.pair q) (.error .mismatched) := by
  cases h with
  | @object fields others v w hv hw hothers hperm =>
    have habsent : p.name ∉ others.map Prod.fst := not_mem_of_others hothers (.inl rfl)
    have hsound : p.Sound q x y ((p.name, v) :: others) :=
      (RecordField.Sound.of_others hothers).cons_first hne (hA v hv) habsent
    have hswapped : fields.Perm ((q.name, w) :: (p.name, v) :: others) :=
      hperm.trans (List.Perm.swap _ _ others)
    exact RecordField.refuses_among hne hsound hswapped fun _ _ => .inr ⟨hne, rfl, .inr (hB w hw)⟩
  | array hv hw => exact RecordField.answers_array (hA _ hv) (hB _ hw)

/-- **Flaws.** A record with one flaw is refused. -/
theorem Flawed.answers (hne : q.name ≠ p.name) (hA : ∀ v, A v → v.Answers p.ask (.ok x))
    (hbadA : ∀ v, badA v → v.Answers p.ask (.error .mismatched))
    (hB : ∀ v, B v → v.Answers q.ask (.ok y))
    (hbadB : ∀ v, badB v → v.Answers q.ask (.error .mismatched))
    (h : Flawed p.name A badA q.name B badB v) : v.Answers (p.pair q) (.error .mismatched) := by
  cases h with
  | miscounted h => exact h.answers hne hA hB
  | first h => exact h.refuses_first hne x hbadA hB
  | second h => exact h.refuses_second hne y hA hbadB

end

end ClangLens.Json
