import ClangLens.Proofs.Project.Lookup

/-!
# The arguments that are kept

Arguments are gone through from the left, and a `-o` takes the one behind it, whatever that is. So
a `-o` may itself be taken by the one in front of it, and what is left out is decided by position:
what a `-o` takes, and of the others those that concern the output or name the source.
-/

namespace ClangLens

namespace DatabaseEntry

/-! ## Operands -/

/-- The argument at a position is taken by the `-o` in front of it. -/
def IsOperand (arguments : List String) : Nat → Prop
  | 0 => False
  | i + 1 => arguments[i]? = some "-o" ∧ ¬ IsOperand arguments i

instance IsOperand.decide (arguments : List String) : ∀ i, Decidable (IsOperand arguments i)
  | 0 => inferInstanceAs (Decidable False)
  | i + 1 =>
    have := IsOperand.decide arguments i
    inferInstanceAs (Decidable (_ ∧ ¬ _))

/-- The argument at a position is left out: it is an operand, or it is none and is one of those that
concern the output or name a source. -/
def IsDropped (sources arguments : List String) (i : Nat) : Prop :=
  IsOperand arguments i ∨
    ¬ IsOperand arguments i ∧ ∃ a ∈ arguments[i]?, a ∈ "-c" :: "-o" :: sources

instance (sources arguments : List String) (i : Nat) : Decidable (IsDropped sources arguments i) :=
  inferInstanceAs (Decidable (_ ∨ _))

/-- The arguments that are not left out, in their order. -/
def kept (sources arguments : List String) : List String :=
  (arguments.zipIdx.filter fun x => ¬ IsDropped sources arguments x.2).map Prod.fst

variable {sources front arguments : List String} {a b : String}

/-- Behind arguments that leave no `-o` open, operands are those of the rest. -/
theorem isOperand_append (h : ¬ IsOperand (front ++ arguments) front.length) (i : Nat) :
    IsOperand (front ++ arguments) (front.length + i) ↔ IsOperand arguments i := by
  induction i with
  | zero => exact iff_of_false h id
  | succ i ih =>
    rw [← Nat.add_assoc, IsOperand, IsOperand, ih,
      List.getElem?_append_right (Nat.le_add_right _ _), Nat.add_sub_cancel_left]

theorem isDropped_append (h : ¬ IsOperand (front ++ arguments) front.length) (i : Nat) :
    IsDropped sources (front ++ arguments) (front.length + i) ↔ IsDropped sources arguments i := by
  rw [IsDropped, isOperand_append h, List.getElem?_append_right (Nat.le_add_right _ _),
    Nat.add_sub_cancel_left]
  rfl

/-- What is kept of arguments that leave no `-o` open, and behind them what is kept of the rest. -/
theorem kept_append (h : ¬ IsOperand (front ++ arguments) front.length) :
    kept sources (front ++ arguments) =
      (front.zipIdx.filter fun x => ¬ IsDropped sources (front ++ arguments) x.2).map Prod.fst ++
        kept sources arguments := by
  have hshift : arguments.zipIdx (0 + front.length) =
      arguments.zipIdx.map (Prod.map id (· + front.length)) := by
    rw [List.map_snd_add_zipIdx_eq_zipIdx, Nat.add_comm]
  rw [kept, List.zipIdx_append, List.filter_append, List.map_append, hshift, List.filter_map,
    List.map_map, kept]
  congr 2
  refine List.filter_congr fun x _ => ?_
  simp only [Function.comp_apply, Prod.map_snd, Nat.add_comm x.2, isDropped_append h]

theorem isDropped_zero :
    IsDropped sources (a :: arguments) 0 ↔ a ∈ "-c" :: "-o" :: sources := by
  unfold IsDropped IsOperand
  simp

theorem kept_cons (h : a ≠ "-o") :
    kept sources (a :: arguments) =
      if a = "-c" ∨ a ∈ sources then kept sources arguments else a :: kept sources arguments := by
  have hclosed : ¬ IsOperand ([a] ++ arguments) [a].length := by
    rintro ⟨hoption, -⟩
    exact h (Option.some.inj hoption)
  have hdropped : IsDropped sources ([a] ++ arguments) 0 ↔ a = "-c" ∨ a ∈ sources := by
    rw [List.singleton_append, isDropped_zero, List.mem_cons, List.mem_cons, or_iff_right h]
  rw [← List.singleton_append, kept_append hclosed, List.zipIdx_singleton, List.filter_cons]
  simp only [hdropped]
  by_cases hsource : a = "-c" ∨ a ∈ sources
  · simp only [hsource, not_true_eq_false, decide_false, if_true]
    rfl
  · simp only [hsource, not_false_eq_true, decide_true, if_true, if_false]
    rfl

theorem kept_lastOutput : kept sources ["-o"] = [] := by
  have hdropped : IsDropped sources ["-o"] 0 := isDropped_zero.mpr (by simp)
  rw [kept, List.zipIdx_singleton, List.filter_cons]
  simp only [hdropped, not_true_eq_false, decide_false]
  rfl

theorem kept_output : kept sources ("-o" :: b :: arguments) = kept sources arguments := by
  have hfirst : ¬ IsOperand ("-o" :: b :: arguments) 0 := id
  have hsecond : IsOperand ("-o" :: b :: arguments) 1 := ⟨rfl, hfirst⟩
  have hclosed : ¬ IsOperand (["-o", b] ++ arguments) ["-o", b].length := fun h => h.2 hsecond
  have hdropped : ∀ x ∈ ["-o", b].zipIdx, IsDropped sources (["-o", b] ++ arguments) x.2 := by
    intro x hx
    rcases List.mem_cons.mp hx with rfl | hx
    · exact isDropped_zero.mpr (by simp)
    · obtain rfl := List.mem_singleton.mp hx
      exact .inl hsecond
  have hnone : (["-o", b].zipIdx.filter fun x =>
      ¬ IsDropped sources (["-o", b] ++ arguments) x.2) = [] := by
    simpa [List.filter_eq_nil_iff] using hdropped
  show kept sources (["-o", b] ++ arguments) = _
  rw [kept_append hclosed, hnone]
  rfl

/-- **Positions.** What is left when the arguments are gone through is what stands at the positions
that are not left out. -/
theorem withoutOutput_eq_kept : withoutOutput sources arguments = kept sources arguments := by
  fun_induction withoutOutput sources arguments with
  | case1 => rfl
  | case2 rest ih =>
    rw [ih, kept_cons (by decide), if_pos (.inl rfl)]
  | case3 => exact kept_lastOutput.symm
  | case4 b rest _ ih => rw [ih, kept_output]
  | case5 a rest _ hoption hsource ih => rw [ih, kept_cons hoption, if_pos (.inr hsource)]
  | case6 a rest hcompile hoption hsource ih =>
    rw [ih, kept_cons hoption, if_neg (not_or.mpr ⟨hcompile, hsource⟩)]

theorem mem_kept_iff :
    a ∈ kept sources arguments ↔ ∃ i, arguments[i]? = some a ∧ ¬ IsDropped sources arguments i := by
  simp only [kept, List.mem_map, List.mem_filter, decide_eq_true_eq, Prod.exists, exists_and_right,
    exists_eq_right, List.mem_zipIdx_iff_getElem?]

theorem not_mem_of_mem_kept (h : a ∈ kept sources arguments) : a ∉ "-c" :: "-o" :: sources := by
  obtain ⟨i, hi, hdropped⟩ := mem_kept_iff.mp h
  intro hmem
  by_cases hoperand : IsOperand arguments i
  · exact hdropped (.inl hoperand)
  · exact hdropped (.inr ⟨hoperand, a, hi, hmem⟩)

/-- Where nothing concerns the output or names a source, everything is kept. -/
theorem kept_eq_self (h : ∀ a ∈ arguments, a ∉ "-c" :: "-o" :: sources) :
    kept sources arguments = arguments := by
  have hoperand : ∀ i, ¬ IsOperand arguments i := by
    intro i hi
    cases i with
    | zero => exact hi
    | succ i => exact h "-o" (List.mem_of_getElem? hi.1) (by simp)
  have hdropped : ∀ x ∈ arguments.zipIdx, ¬ IsDropped sources arguments x.2 := by
    rintro x - (hi | ⟨-, a, ha, hmem⟩)
    · exact hoperand _ hi
    · exact h a (List.mem_of_getElem? ha) hmem
  rw [kept, List.filter_eq_self.mpr (by simpa using hdropped), List.zipIdx_map_fst]

theorem kept_kept : kept sources (kept sources arguments) = kept sources arguments :=
  kept_eq_self fun _ => not_mem_of_mem_kept

/-! ## Entries -/

/-- The two texts by which the source of an entry is known. -/
def sourceTexts (e : DatabaseEntry) : List String :=
  [e.file.text, (e.directory.join e.file).text]

theorem parseArguments_eq {e : DatabaseEntry} (h : e.arguments ≠ []) :
    e.parseArguments = some (("-working-directory=" ++ e.directory.text) ::
      kept e.sourceTexts e.arguments.tail) := by
  obtain ⟨compiler, rest, hrest⟩ := List.exists_cons_of_ne_nil h
  rw [parseArguments, hrest, List.tail_cons, ← withoutOutput_eq_kept]
  rfl

theorem parseArguments_eq_none {e : DatabaseEntry} :
    e.parseArguments = none ↔ e.arguments = [] := by
  by_cases h : e.arguments = []
  · rw [parseArguments, h]
    exact iff_of_true rfl rfl
  · rw [parseArguments_eq h]
    simp [h]

/-- Whether a path is that of the file of an entry, as given or seen from outside. -/
def IsFor (e : DatabaseEntry) (p : Path) : Prop :=
  e.file.same p ∨ (e.directory.join e.file).same p

end DatabaseEntry

namespace Database

open DatabaseEntry

variable {db : Database} {p : Path} {front back : List DatabaseEntry} {e : DatabaseEntry}

/-- The first entry for a path, with those in front of it and those behind it. -/
structure FirstFor (db : Database) (p : Path) (front : List DatabaseEntry) (e : DatabaseEntry)
    (back : List DatabaseEntry) : Prop where
  entries : db.entries = front ++ e :: back
  front : ∀ d ∈ front, ¬ d.IsFor p
  found : e.IsFor p

theorem entryFor?_eq_some : db.entryFor? p = some e ↔ ∃ front back, db.FirstFor p front e back := by
  rw [entryFor?, List.find?_eq_some_iff_append]
  constructor
  · rintro ⟨hfound, front, back, hentries, hfront⟩
    refine ⟨front, back, hentries, fun d hd hfor => ?_, matches?_iff.mp hfound⟩
    have hother := hfront d hd
    rw [matches?_iff.mpr hfor] at hother
    cases hother
  · rintro ⟨front, back, h⟩
    refine ⟨matches?_iff.mpr h.found, front, back, h.entries, fun d hd => ?_⟩
    rw [Bool.not_eq_true', Bool.eq_false_iff]
    exact fun hmatches => h.front d hd (matches?_iff.mp hmatches)

theorem entryFor?_eq_none : db.entryFor? p = none ↔ ∀ e ∈ db.entries, ¬ e.IsFor p := by
  rw [entryFor?, List.find?_eq_none]
  simp only [matches?_iff, IsFor]

theorem FirstFor.argumentsFor (h : db.FirstFor p front e back) :
    db.argumentsFor p = e.parseArguments := by
  rw [Database.argumentsFor, entryFor?_eq_some.mpr ⟨front, back, h⟩, Option.bind_some]

/-- An entry for the same file is the first one in the place of another. -/
theorem FirstFor.replace (h : db.FirstFor p front e back) (arguments : List String) :
    FirstFor { db with entries := front ++ { e with arguments := arguments } :: back } p front
      { e with arguments := arguments } back :=
  ⟨rfl, h.front, h.found⟩

theorem argumentsFor_eq_none :
    db.argumentsFor p = none ↔
      (∀ e ∈ db.entries, ¬ e.IsFor p) ∨
        ∃ front e back, db.FirstFor p front e back ∧ e.arguments = [] := by
  rw [← entryFor?_eq_none]
  cases hfirst : db.entryFor? p with
  | none => simp [Database.argumentsFor, hfirst]
  | some e =>
    obtain ⟨front, back, h⟩ := entryFor?_eq_some.mp hfirst
    rw [h.argumentsFor, parseArguments_eq_none]
    constructor
    · intro hnone
      exact .inr ⟨front, e, back, h, hnone⟩
    · rintro (hnone | ⟨front', e', back', h', hnone⟩)
      · cases hnone
      · have hsame := entryFor?_eq_some.mpr ⟨front', back', h'⟩
        rw [hfirst] at hsame
        cases hsame
        exact hnone

/-- **Filtering.** There are no arguments for a path exactly if no entry is for it or the first that
is has none. Otherwise they are the directory and what is kept of the entry's arguments behind the
compiler. With these in place of its own the entry gives the same. -/
theorem argumentsFor_by_position (db : Database) (p : Path) :
    (db.argumentsFor p = none ↔
      (∀ e ∈ db.entries, ¬ e.IsFor p) ∨
        ∃ front e back, db.FirstFor p front e back ∧ e.arguments = []) ∧
    ∀ front e back, db.FirstFor p front e back → e.arguments ≠ [] →
      db.argumentsFor p = some (("-working-directory=" ++ e.directory.text) ::
        kept e.sourceTexts e.arguments.tail) ∧
      ∀ compiler, Database.argumentsFor { db with
        entries := front ++ { e with
          arguments := compiler :: kept e.sourceTexts e.arguments.tail } :: back } p =
            db.argumentsFor p := by
  refine ⟨argumentsFor_eq_none, fun front e back h hsome => ?_⟩
  have hgiven : db.argumentsFor p = some (("-working-directory=" ++ e.directory.text) ::
      kept e.sourceTexts e.arguments.tail) := by
    rw [h.argumentsFor, parseArguments_eq hsome]
  refine ⟨hgiven, fun compiler => ?_⟩
  have hagain := (h.replace (compiler :: kept e.sourceTexts e.arguments.tail)).argumentsFor
  rw [parseArguments_eq (List.cons_ne_nil _ _), List.tail_cons] at hagain
  rw [hagain, hgiven]
  exact congrArg (fun rest => some (_ :: rest)) kept_kept

/-- An entry for the same file as another, with every way in which a `-o` takes an argument. -/
def crowded : Database :=
  ⟨⟨[]⟩, [⟨.ofString "/e", .ofString "a.c", [], none⟩,
    ⟨.ofString "/d", .ofString "./a.c", ["cc", "-o", "-o", "-c", "-Wall", "-o", "-c", "./a.c",
      "-O2", "/d/./a.c", "-O2", "-o"], none⟩]⟩

theorem crowded_arguments :
    crowded.argumentsFor (.ofString "/d/a.c") =
      some ["-working-directory=/d", "-Wall", "-O2", "-O2"] := by
  have hfirst : crowded.FirstFor (.ofString "/d/a.c") [crowded.entries.head (by decide)]
      (crowded.entries.getLast (by decide)) [] := by
    refine ⟨rfl, ?_, .inr (by decide)⟩
    intro d hd
    obtain rfl := List.mem_singleton.mp hd
    rintro (h | h) <;> revert h <;> decide
  obtain ⟨-, hfilter⟩ := argumentsFor_by_position crowded (.ofString "/d/a.c")
  obtain ⟨harguments, -⟩ := hfilter _ _ _ hfirst (by decide)
  rw [harguments]
  decide

end Database

end ClangLens
