import Mathlib.Data.List.Induction
import Mathlib.Tactic.Common
import ClangLens.Request.Complete

/-!
# What steps amount to

A request is made in steps, in any number and order. Of the steps that set a field the last one
counts, and those that add to a list all count, in their order. What comes of the steps, a request
or the fault for which it is refused, is decided by that and nothing else: what is missing comes
first, then the path, then the arguments or the position.
-/

namespace ClangLens

open Request (hasNul)

/-- Where rules give what a function gives, and one of them always applies, nothing else comes of
the function than what the rules give. -/
theorem eq_iff_of_rules {α : Type} {value outcome : α} {rules : α → Prop}
    (hgiven : ∀ a, rules a → value = a) (htotal : ∃ a, rules a) :
    value = outcome ↔ rules outcome := by
  refine ⟨fun h => ?_, hgiven outcome⟩
  obtain ⟨a, ha⟩ := htotal
  obtain rfl : a = outcome := (hgiven a ha).symm.trans h
  exact ha

/-! ## Fields -/

section

variable {δ S X : Type} (add : δ → S → δ)

/-- Of the steps that set a field the last one counts, by induction from the last step on. -/
theorem foldl_lastSet (field : δ → Option X) (set? : S → Option X)
    (h : ∀ d step, field (add d step) = (set? step).or (field d)) (steps : List S) (d : δ) :
    field (steps.foldl add d) = (steps.filterMap set?).getLast?.or (field d) := by
  induction steps using List.reverseRecOn with
  | nil => rfl
  | append_singleton steps step ih =>
    rw [List.foldl_append, List.foldl_cons, List.foldl_nil, h, ih, List.filterMap_append]
    cases hset : set? step with
    | none => simp [hset]
    | some x => simp [hset]

/-- Steps that add to a list add up in their order. -/
theorem foldl_added (items : δ → List X) (added : S → List X)
    (h : ∀ d step, items (add d step) = items d ++ added step) (steps : List S) (d : δ) :
    items (steps.foldl add d) = items d ++ steps.flatMap added := by
  induction steps generalizing d with
  | nil => simp
  | cons step steps ih =>
    rw [List.foldl_cons, ih, h, List.flatMap_cons, List.append_assoc]

end

/-! ## Paths and arguments -/

/-- A path that names something and can be handed over: a text that is not empty and holds no
NUL. -/
def Path.IsUsable (p : Path) : Prop := ∃ s, p.text? = some s ∧ s ≠ "" ∧ hasNul s = false

instance (p : Path) : Decidable p.IsUsable :=
  decidable_of_iff (p.text?.any fun s => s ≠ "" && !hasNul s) (by
    simp [Path.IsUsable, Option.any_eq_true])

/-- Why a path is refused. -/
inductive Path.Unusable (p : Path) : RequestFault → Prop where
  | noText (h : p.text? = none) :
      Unusable p (.invalidPath p.text "Path is not valid UTF-8")
  | empty (h : p.text? = some "") :
      Unusable p (.invalidPath "" "Path cannot be empty")
  | nul {s : String} (h : p.text? = some s) (hnul : hasNul s = true) :
      Unusable p (.invalidPath s "Path contains null character")

namespace Request

variable {p : Path} {args : List String} {fault : RequestFault}

theorem checkPath_of_isUsable (h : p.IsUsable) : checkPath p = .ok () := by
  obtain ⟨s, hs, hempty, hnul⟩ := h
  unfold checkPath
  simp [hs, hempty, hnul]

theorem checkPath_of_unusable (h : p.Unusable fault) : checkPath p = .error fault := by
  unfold checkPath
  cases h with
  | noText h => simp [h]
  | empty h => simp [h]
  | nul h hnul =>
    have hempty : ∀ s, hasNul s = true → s ≠ "" := by
      rintro s hs rfl
      exact absurd hs (by decide)
    simp [h, hnul, hempty _ hnul]

/-- A path is usable or refused for one reason. -/
theorem isUsable_or_unusable (p : Path) : p.IsUsable ∨ ∃ fault, p.Unusable fault := by
  cases htext : p.text? with
  | none => exact .inr ⟨_, .noText htext⟩
  | some s =>
    by_cases hempty : s = ""
    · rw [hempty] at htext
      exact .inr ⟨_, .empty htext⟩
    cases hnul : hasNul s with
    | true => exact .inr ⟨_, .nul htext hnul⟩
    | false => exact .inl ⟨s, htext, hempty, hnul⟩

/-- What is said of arguments one of which holds a NUL: all of them are named. -/
def nulInArguments (args : List String) : RequestFault :=
  .invalidArguments args "Arguments cannot contain null characters"

theorem checkArguments_of_no_nul (h : ∀ a ∈ args, hasNul a = false) :
    checkArguments args = .ok () := by
  have hany : args.any hasNul = false := by simpa using h
  unfold checkArguments
  simp [hany]

theorem checkArguments_of_nul (h : ∃ a ∈ args, hasNul a = true) :
    checkArguments args = .error (nulInArguments args) := by
  have hany : args.any hasNul = true := by simpa using h
  unfold checkArguments
  simp [hany, nulInArguments]

end Request

/-! ## Requests to parse -/

namespace ParseRequest

namespace Step

/-- The source that a step sets. -/
def source? : Step → Option Path
  | .source path => some path
  | _ => none

/-- The flags that a step sets. -/
def flags? : Step → Option ParseFlags
  | .flags chosen => some chosen
  | _ => none

/-- The arguments that a step adds. -/
def addedArgs : Step → List String
  | .args more => more
  | _ => []

/-- The unsaved files that a step adds. -/
def addedFiles : Step → List UnsavedFile
  | .unsaved file => [file]
  | _ => []

end Step

/-- The source that steps come to. -/
def lastSource? (steps : List Step) : Option Path := (steps.filterMap Step.source?).getLast?

/-- The flags that steps come to. -/
def lastFlags? (steps : List Step) : Option ParseFlags := (steps.filterMap Step.flags?).getLast?

/-- All arguments of steps, in their order. -/
def allArgs (steps : List Step) : List String := steps.flatMap Step.addedArgs

/-- All unsaved files of steps, in their order. -/
def allFiles (steps : List Step) : List UnsavedFile := steps.flatMap Step.addedFiles

/-- What comes of steps: each rule says what was given and what was not at fault before. -/
inductive Amounts (steps : List Step) : Except RequestFault ParseRequest → Prop where
  | sourceless (h : lastSource? steps = none) : Amounts steps (.error (.missingField "source_file"))
  | badPath {p : Path} {fault : RequestFault} (h : lastSource? steps = some p)
      (hbad : p.Unusable fault) : Amounts steps (.error fault)
  | badArguments {p : Path} (h : lastSource? steps = some p) (hpath : p.IsUsable)
      (hbad : ∃ a ∈ allArgs steps, hasNul a = true) :
      Amounts steps (.error (Request.nulInArguments (allArgs steps)))
  | built {p : Path} (h : lastSource? steps = some p) (hpath : p.IsUsable)
      (hargs : ∀ a ∈ allArgs steps, hasNul a = false) :
      Amounts steps
        (.ok ⟨p, allArgs steps, allFiles steps, (lastFlags? steps).getD ParseFlags.keepGoing⟩)

variable {steps : List Step} {outcome : Except RequestFault ParseRequest} {r : ParseRequest}

theorem Draft.ofSteps_eq (steps : List Step) :
    Draft.ofSteps steps =
      ⟨lastSource? steps, allArgs steps, allFiles steps, lastFlags? steps⟩ := by
  have hsource := foldl_lastSet Draft.add Draft.source Step.source?
    (fun d step => by cases step <;> rfl) steps {}
  have hflags := foldl_lastSet Draft.add Draft.flags Step.flags?
    (fun d step => by cases step <;> rfl) steps {}
  have hargs := foldl_added Draft.add Draft.args Step.addedArgs
    (fun d step => by cases step <;> simp [Draft.add, Step.addedArgs]) steps {}
  have hfiles := foldl_added Draft.add Draft.unsaved Step.addedFiles
    (fun d step => by cases step <;> simp [Draft.add, Step.addedFiles]) steps {}
  rw [Option.or_none] at hsource hflags
  rw [List.nil_append] at hargs hfiles
  unfold Draft.ofSteps lastSource? allArgs allFiles lastFlags?
  rw [← hsource, ← hargs, ← hfiles, ← hflags]

theorem Draft.build_of_source (p : Path) (args : List String) (files : List UnsavedFile)
    (flags : Option ParseFlags) :
    build ⟨some p, args, files, flags⟩ = do
      Request.checkPath p
      Request.checkArguments args
      return ⟨p, args, files, flags.getD ParseFlags.keepGoing⟩ := rfl

theorem Amounts.ofSteps_eq (h : Amounts steps outcome) : ofSteps steps = outcome := by
  unfold ofSteps
  rw [Draft.ofSteps_eq]
  cases h with
  | sourceless h =>
    rw [h]
    rfl
  | badPath h hbad =>
    rw [h, Draft.build_of_source, Request.checkPath_of_unusable hbad]
    rfl
  | badArguments h hpath hbad =>
    rw [h, Draft.build_of_source, Request.checkPath_of_isUsable hpath,
      Request.checkArguments_of_nul hbad]
    rfl
  | built h hpath hargs =>
    rw [h, Draft.build_of_source, Request.checkPath_of_isUsable hpath,
      Request.checkArguments_of_no_nul hargs]
    rfl

/-- Something comes of any steps. -/
theorem exists_amounts (steps : List Step) : ∃ outcome, Amounts steps outcome := by
  cases hsource : lastSource? steps with
  | none => exact ⟨_, .sourceless hsource⟩
  | some p =>
    rcases Request.isUsable_or_unusable p with hpath | ⟨fault, hbad⟩
    · by_cases hargs : ∀ a ∈ allArgs steps, hasNul a = false
      · exact ⟨_, .built hsource hpath hargs⟩
      · exact ⟨_, .badArguments hsource hpath (by simpa using hargs)⟩
    · exact ⟨_, .badPath hsource hbad⟩

theorem ofSteps_eq_iff : ofSteps steps = outcome ↔ Amounts steps outcome :=
  eq_iff_of_rules (fun _ => Amounts.ofSteps_eq) (exists_amounts steps)

theorem ofSteps_eq_ok_iff :
    ofSteps steps = .ok r ↔ ∃ p, lastSource? steps = some p ∧ p.IsUsable ∧
      (∀ a ∈ allArgs steps, hasNul a = false) ∧
      r = ⟨p, allArgs steps, allFiles steps, (lastFlags? steps).getD ParseFlags.keepGoing⟩ := by
  rw [ofSteps_eq_iff]
  constructor
  · intro h
    cases h with
    | built h hpath hargs => exact ⟨_, h, hpath, hargs, rfl⟩
  · rintro ⟨p, h, hpath, hargs, rfl⟩
    exact .built h hpath hargs

/-- Whatever was given before, a source that is set last is the one that counts. -/
theorem ofSteps_with_source (steps : List Step) (p : Path) :
    (∃ r, ofSteps (steps ++ [.source p]) = .ok r) ↔
      p.IsUsable ∧ ∀ a ∈ allArgs steps, hasNul a = false := by
  have hsource : lastSource? (steps ++ [.source p]) = some p := by
    simp [lastSource?, Step.source?]
  have hargs : allArgs (steps ++ [.source p]) = allArgs steps := by
    simp [allArgs, Step.addedArgs]
  simp only [ofSteps_eq_ok_iff, hsource, hargs, Option.some.injEq]
  constructor
  · rintro ⟨r, p', rfl, hpath, hargs, -⟩
    exact ⟨hpath, hargs⟩
  · rintro ⟨hpath, hargs⟩
    exact ⟨_, p, rfl, hpath, hargs, rfl⟩

/-- Arguments stay, whatever comes behind them. -/
theorem ofSteps_append_ne_ok (steps more : List Step)
    (h : ∃ a ∈ allArgs steps, hasNul a = true) : ofSteps (steps ++ more) ≠ .ok r := by
  intro hok
  obtain ⟨p, -, -, hargs, -⟩ := ofSteps_eq_ok_iff.mp hok
  obtain ⟨a, ha, hnul⟩ := h
  have hmem : a ∈ allArgs (steps ++ more) := by
    rw [allArgs, List.flatMap_append]
    exact List.mem_append_left _ ha
  rw [hargs a hmem] at hnul
  cases hnul

end ParseRequest

/-! ## Requests to complete -/

namespace CompleteRequest

namespace Step

/-- The file that a step sets. -/
def file? : Step → Option Path
  | .file path => some path
  | _ => none

/-- The position that a step sets. -/
def position? : Step → Option (UInt32 × UInt32)
  | .position line column => some (line, column)
  | _ => none

/-- The flags that a step sets. -/
def flags? : Step → Option CompleteFlags
  | .flags chosen => some chosen
  | _ => none

/-- Whether a step asks for order, if it says so. -/
def sorted? : Step → Option Bool
  | .sorted on => some on
  | _ => none

/-- The unsaved files that a step adds. -/
def addedFiles : Step → List UnsavedFile
  | .unsaved extra => [extra]
  | _ => []

end Step

/-- The file that steps come to. -/
def lastFile? (steps : List Step) : Option Path := (steps.filterMap Step.file?).getLast?

/-- The position that steps come to. -/
def lastPosition? (steps : List Step) : Option (UInt32 × UInt32) :=
  (steps.filterMap Step.position?).getLast?

/-- The flags that steps come to. -/
def lastFlags? (steps : List Step) : Option CompleteFlags :=
  (steps.filterMap Step.flags?).getLast?

/-- What steps come to say about order. -/
def lastSorted? (steps : List Step) : Option Bool := (steps.filterMap Step.sorted?).getLast?

/-- All unsaved files of steps, in their order. -/
def allFiles (steps : List Step) : List UnsavedFile := steps.flatMap Step.addedFiles

/-- What is said of a position that is none. -/
def noPosition (line column : UInt32) : RequestFault :=
  .invalidPosition line column "lines and columns are 1-based"

/-- What comes of steps: each rule says what was given and what was not at fault before. -/
inductive Amounts (steps : List Step) : Except RequestFault CompleteRequest → Prop where
  | fileless (h : lastFile? steps = none) : Amounts steps (.error (.missingField "file"))
  | placeless {p : Path} (h : lastFile? steps = some p) (hplace : lastPosition? steps = none) :
      Amounts steps (.error (.missingField "line"))
  | badPath {p : Path} {place : UInt32 × UInt32} {fault : RequestFault}
      (h : lastFile? steps = some p) (hplace : lastPosition? steps = some place)
      (hbad : p.Unusable fault) : Amounts steps (.error fault)
  | badPosition {p : Path} {line column : UInt32} (h : lastFile? steps = some p)
      (hplace : lastPosition? steps = some (line, column)) (hpath : p.IsUsable)
      (hbad : line = 0 ∨ column = 0) : Amounts steps (.error (noPosition line column))
  | built {p : Path} {line column : UInt32} (h : lastFile? steps = some p)
      (hplace : lastPosition? steps = some (line, column)) (hpath : p.IsUsable)
      (hline : line ≠ 0) (hcolumn : column ≠ 0) :
      Amounts steps
        (.ok ⟨p, line, column, (lastFlags? steps).getD defaultFlags, allFiles steps,
          (lastSorted? steps).getD true⟩)

variable {steps : List Step} {outcome : Except RequestFault CompleteRequest} {r : CompleteRequest}

theorem Draft.ofSteps_eq (steps : List Step) :
    Draft.ofSteps steps =
      ⟨lastFile? steps, lastPosition? steps, lastFlags? steps, allFiles steps,
        lastSorted? steps⟩ := by
  have hfile := foldl_lastSet Draft.add Draft.file Step.file?
    (fun d step => by cases step <;> rfl) steps {}
  have hposition := foldl_lastSet Draft.add Draft.position Step.position?
    (fun d step => by cases step <;> rfl) steps {}
  have hflags := foldl_lastSet Draft.add Draft.flags Step.flags?
    (fun d step => by cases step <;> rfl) steps {}
  have hsorted := foldl_lastSet Draft.add Draft.sorted Step.sorted?
    (fun d step => by cases step <;> rfl) steps {}
  have hfiles := foldl_added Draft.add Draft.unsaved Step.addedFiles
    (fun d step => by cases step <;> simp [Draft.add, Step.addedFiles]) steps {}
  rw [Option.or_none] at hfile hposition hflags hsorted
  rw [List.nil_append] at hfiles
  unfold Draft.ofSteps lastFile? lastPosition? lastFlags? allFiles lastSorted?
  rw [← hfile, ← hposition, ← hflags, ← hfiles, ← hsorted]

theorem Draft.build_of_file (p : Path) (line column : UInt32) (flags : Option CompleteFlags)
    (files : List UnsavedFile) (sorted : Option Bool) :
    build ⟨some p, some (line, column), flags, files, sorted⟩ = do
      Request.checkPath p
      Request.checkPosition line column
      return ⟨p, line, column, flags.getD defaultFlags, files, sorted.getD true⟩ := rfl

theorem Amounts.ofSteps_eq (h : Amounts steps outcome) : ofSteps steps = outcome := by
  unfold ofSteps
  rw [Draft.ofSteps_eq]
  cases h with
  | fileless h =>
    rw [h]
    rfl
  | placeless h hplace =>
    rw [h, hplace]
    rfl
  | badPath h hplace hbad =>
    rw [h, hplace, Draft.build_of_file, Request.checkPath_of_unusable hbad]
    rfl
  | badPosition h hplace hpath hbad =>
    rw [h, hplace, Draft.build_of_file, Request.checkPath_of_isUsable hpath, Request.checkPosition,
      if_pos (by simpa using hbad)]
    rfl
  | built h hplace hpath hline hcolumn =>
    rw [h, hplace, Draft.build_of_file, Request.checkPath_of_isUsable hpath, Request.checkPosition,
      if_neg (by simp [hline, hcolumn])]
    rfl

/-- Something comes of any steps. -/
theorem exists_amounts (steps : List Step) : ∃ outcome, Amounts steps outcome := by
  cases hfile : lastFile? steps with
  | none => exact ⟨_, .fileless hfile⟩
  | some p =>
    cases hplace : lastPosition? steps with
    | none => exact ⟨_, .placeless hfile hplace⟩
    | some place =>
      obtain ⟨line, column⟩ := place
      rcases Request.isUsable_or_unusable p with hpath | ⟨fault, hbad⟩
      · by_cases hzero : line = 0 ∨ column = 0
        · exact ⟨_, .badPosition hfile hplace hpath hzero⟩
        · obtain ⟨hline, hcolumn⟩ := not_or.mp hzero
          exact ⟨_, .built hfile hplace hpath hline hcolumn⟩
      · exact ⟨_, .badPath hfile hplace hbad⟩

theorem ofSteps_eq_iff : ofSteps steps = outcome ↔ Amounts steps outcome :=
  eq_iff_of_rules (fun _ => Amounts.ofSteps_eq) (exists_amounts steps)

theorem ofSteps_eq_ok_iff :
    ofSteps steps = .ok r ↔ ∃ p line column, lastFile? steps = some p ∧
      lastPosition? steps = some (line, column) ∧ p.IsUsable ∧ line ≠ 0 ∧ column ≠ 0 ∧
      r = ⟨p, line, column, (lastFlags? steps).getD defaultFlags, allFiles steps,
        (lastSorted? steps).getD true⟩ := by
  rw [ofSteps_eq_iff]
  constructor
  · intro h
    cases h with
    | built h hplace hpath hline hcolumn =>
      exact ⟨_, _, _, h, hplace, hpath, hline, hcolumn, rfl⟩
  · rintro ⟨p, line, column, h, hplace, hpath, hline, hcolumn, rfl⟩
    exact .built h hplace hpath hline hcolumn

/-- Whatever was given before, a file that is set last is the one that counts. -/
theorem ofSteps_with_file (steps : List Step) (p : Path) :
    (∃ r, ofSteps (steps ++ [.file p]) = .ok r) ↔
      p.IsUsable ∧ ∃ line column, lastPosition? steps = some (line, column) ∧ line ≠ 0 ∧
        column ≠ 0 := by
  have hfile : lastFile? (steps ++ [.file p]) = some p := by simp [lastFile?, Step.file?]
  have hplace : lastPosition? (steps ++ [.file p]) = lastPosition? steps := by
    simp [lastPosition?, Step.position?]
  simp only [ofSteps_eq_ok_iff, hfile, hplace, Option.some.injEq]
  constructor
  · rintro ⟨r, p', line, column, rfl, hplace, hpath, hline, hcolumn, -⟩
    exact ⟨hpath, line, column, hplace, hline, hcolumn⟩
  · rintro ⟨hpath, line, column, hplace, hline, hcolumn⟩
    exact ⟨_, p, line, column, rfl, hplace, hpath, hline, hcolumn, rfl⟩

/-- Whatever was given before, a position that is set last is the one that counts. -/
theorem ofSteps_with_position (steps : List Step) (line column : UInt32) :
    (∃ r, ofSteps (steps ++ [.position line column]) = .ok r) ↔
      line ≠ 0 ∧ column ≠ 0 ∧ ∃ p, lastFile? steps = some p ∧ p.IsUsable := by
  have hfile : lastFile? (steps ++ [.position line column]) = lastFile? steps := by
    simp [lastFile?, Step.file?]
  have hplace : lastPosition? (steps ++ [.position line column]) = some (line, column) := by
    simp [lastPosition?, Step.position?]
  simp only [ofSteps_eq_ok_iff, hfile, hplace, Option.some.injEq, Prod.mk.injEq]
  constructor
  · rintro ⟨r, p, line', column', hfile, ⟨rfl, rfl⟩, hpath, hline, hcolumn, -⟩
    exact ⟨hline, hcolumn, p, hfile, hpath⟩
  · rintro ⟨hline, hcolumn, p, hfile, hpath⟩
    exact ⟨_, p, line, column, hfile, ⟨rfl, rfl⟩, hpath, hline, hcolumn, rfl⟩

end CompleteRequest

/-- **Building.** A request is what its steps amount to, or is refused for the first thing in a
fixed order that is missing or at fault. So a path or a position is mended by setting another one,
and an argument that holds a NUL is not mended by anything. -/
theorem requests_by_steps :
    (∀ steps outcome, ParseRequest.ofSteps steps = outcome ↔ ParseRequest.Amounts steps outcome) ∧
      (∀ steps outcome,
        CompleteRequest.ofSteps steps = outcome ↔ CompleteRequest.Amounts steps outcome) ∧
      (∀ steps p, (∃ r, ParseRequest.ofSteps (steps ++ [.source p]) = .ok r) ↔
        p.IsUsable ∧ ∀ a ∈ ParseRequest.allArgs steps, hasNul a = false) ∧
      (∀ steps more, (∃ a ∈ ParseRequest.allArgs steps, hasNul a = true) →
        ∀ r, ParseRequest.ofSteps (steps ++ more) ≠ .ok r) ∧
      (∀ steps p, (∃ r, CompleteRequest.ofSteps (steps ++ [.file p]) = .ok r) ↔
        p.IsUsable ∧ ∃ line column,
          CompleteRequest.lastPosition? steps = some (line, column) ∧ line ≠ 0 ∧ column ≠ 0) ∧
      ∀ steps line column,
        (∃ r, CompleteRequest.ofSteps (steps ++ [.position line column]) = .ok r) ↔
          line ≠ 0 ∧ column ≠ 0 ∧ ∃ p, CompleteRequest.lastFile? steps = some p ∧ p.IsUsable :=
  ⟨fun _ _ => ParseRequest.ofSteps_eq_iff, fun _ _ => CompleteRequest.ofSteps_eq_iff,
    ParseRequest.ofSteps_with_source,
    fun steps more h _ => ParseRequest.ofSteps_append_ne_ok steps more h,
    CompleteRequest.ofSteps_with_file, CompleteRequest.ofSteps_with_position⟩

/-- Steps that name two sources, the first of which is no text, and arguments around them. -/
def scatteredSteps : List ParseRequest.Step :=
  [.args ["-O2"], .source ⟨[255]⟩, .unsaved ⟨.ofString "a.h", "int a;"⟩, .args ["-g", ""],
    .source (.ofString "ä.c")]

/-- They build; with an argument that holds a NUL among them no further steps do; a position with a
zero is named until another one is set. -/
theorem scattered_steps_build :
    ParseRequest.ofSteps scatteredSteps = .ok ⟨.ofString "ä.c", ["-O2", "-g", ""],
        [⟨.ofString "a.h", "int a;"⟩], ParseFlags.keepGoing⟩ ∧
      ParseRequest.ofSteps (scatteredSteps ++ [.args ["-D\x00"]]) =
        .error (Request.nulInArguments ["-O2", "-g", "", "-D\x00"]) ∧
      (∀ r, ParseRequest.ofSteps
        ((scatteredSteps ++ [.args ["-D\x00"]]) ++ [.source (.ofString "b.c")]) ≠ .ok r) ∧
      CompleteRequest.ofSteps [.position 3 0, .file (.ofString "a.c")] =
        .error (CompleteRequest.noPosition 3 0) ∧
      ∃ r, CompleteRequest.ofSteps ([.position 3 0, .file (.ofString "a.c")] ++
        [.position 3 7]) = .ok r := by
  obtain ⟨hparse, hcomplete, -, hstays, -, hposition⟩ := requests_by_steps
  have hnul : ∃ a ∈ ParseRequest.allArgs (scatteredSteps ++ [.args ["-D\x00"]]),
      hasNul a = true := by decide +kernel
  have husable : (Path.ofString "a.c").IsUsable := by decide +kernel
  refine ⟨(hparse _ _).mpr (.built rfl (by decide +kernel) (by decide +kernel)),
    (hparse _ _).mpr (.badArguments rfl (by decide +kernel) hnul), hstays _ _ hnul,
    (hcomplete _ _).mpr (.badPosition rfl rfl husable (.inr rfl)), ?_⟩
  exact (hposition _ 3 7).mpr ⟨by decide, by decide, _, rfl, husable⟩

end ClangLens
