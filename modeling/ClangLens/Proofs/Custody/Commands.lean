import ClangLens.Command.Complete
import ClangLens.Command.Diagnostics
import ClangLens.Command.Outline
import ClangLens.Command.References
import ClangLens.Proofs.Custody.Inspect
import ClangLens.Script.Library

/-!
# The ledger of the commands

Every command leaves the stack as it was: its index lies at the bottom, its unit above, and whatever
it takes from the unit above that. So whatever the library answers, and however the command ends,
everything it was handed is released, each once and in the right order.
-/

namespace ClangLens.Command

open Dialogue

variable {α L : Type} {below : List Resource}

/-! ## Diagnostics -/

theorem fixItEntry_tidy (f : FixIt) : (fixItEntry f).Tidy below :=
  f.range.span?_tidy.bind fun _ => tidy_pure _

theorem diagnosticEntry_tidy (options : DisplayOptions) (d : Diagnostic) :
    (diagnosticEntry options d).Tidy (.diagnostic d :: below) := by
  have hself : .diagnostic d ∈ .diagnostic d :: below := List.mem_cons_self
  have htext {q : TextQuestion} (hq : q.arguments = [.diagnostic d]) :
      ∀ r ∈ q.arguments, r ∈ .diagnostic d :: below := by simp [hq]
  have hnumber {q : NumberQuestion} (hq : q.arguments = [.diagnostic d]) :
      ∀ r ∈ q.arguments, r ∈ .diagnostic d :: below := by simp [hq]
  refine Tidy.bind (askCode_tidy (hnumber rfl)) fun severity => ?_
  refine Tidy.bind (askText_tidy (htext rfl)) fun message => ?_
  refine Tidy.bind (tidy_ask rfl (by simp [Call.arguments, LocationQuestion.arguments])
    fun _ => rfl) fun place => ?_
  refine place.pointSpan?_tidy.bind fun location => ?_
  refine Tidy.bind (askText_tidy (htext rfl)) fun formatted => ?_
  refine Tidy.bind (askText?_tidy (htext rfl)) fun category => ?_
  refine (Diagnostic.option?_tidy hself).bind fun option => ?_
  refine Tidy.bind (askNumber_tidy (hnumber rfl)) fun count => ?_
  refine Tidy.bind (collect_tidy (fun i => ?_) count) fun _ => tidy_pure _
  refine (Diagnostic.fixIt?_tidy hself i).bind fun found => ?_
  cases found with
  | none => exact tidy_pure _
  | some f => exact (fixItEntry_tidy f).bind fun _ => tidy_pure _

theorem diagnosticsOf_tidy {u : TranslationUnit} (h : .unit u ∈ below) (file : Path) :
    (diagnosticsOf file u).Tidy below := by
  have hoptions : DisplayOptions.proposed.Tidy below :=
    (askNumber_tidy (List.forall_mem_nil _)).bind fun _ => tidy_pure _
  refine hoptions.bind fun options => Tidy.bind ?_ fun _ => tidy_pure _
  exact TranslationUnit.mapDiagnostics_tidy h (diagnosticEntry_tidy options)

/-! ## Completions -/

theorem completionEntry_tidy (depth : Nat) (kind : Coded CursorKind) (p : Phrase) :
    (completionEntry depth kind p).Tidy below := by
  refine (p.firstOfKind?_tidy .resultType).bind fun resultType => ?_
  refine (p.firstOfKind?_tidy .typedText).bind fun typed => ?_
  refine (p.text_tidy depth).bind fun text => ?_
  refine Tidy.bind (askNumber_tidy (List.forall_mem_nil _)) fun priority => ?_
  refine Tidy.bind (askCode_tidy (List.forall_mem_nil _)) fun availability => ?_
  exact Tidy.bind (askText?_tidy (List.forall_mem_nil _)) fun _ => tidy_pure _

theorem completionEntries_tidy (depth : Nat) (limit : Option Nat)
    (records : List CompletionRecord) : (completionEntries depth limit records).Tidy below := by
  fun_induction completionEntries depth limit records with
  | case1 limit => exact tidy_pure _
  | case2 records => exact tidy_pure _
  | case3 limit r rest _ _ ih => exact ih
  | case4 limit r rest _ p _ ih =>
    exact (completionEntry_tidy depth r.cursorKind p).bind fun _ => ih.bind fun _ => tidy_pure _

theorem completionsOf_tidy {set : Completions} (h : .completions set ∈ below) (depth : Nat)
    (o : CompleteOptions) : (completionsOf depth o set).Tidy below := by
  have hresults : (ask (.results set)).Tidy below :=
    tidy_ask rfl (by simpa [Call.arguments]) fun _ => rfl
  have hcontexts : (ask (.contexts set)).Tidy below :=
    tidy_ask rfl (by simpa [Call.arguments]) fun _ => rfl
  have hcontainer : (ask (.container set)).Tidy below :=
    tidy_ask rfl (by simpa [Call.arguments]) fun _ => rfl
  refine Tidy.bind (hresults.bind fun _ => tidy_pure _) fun records => ?_
  refine (completionEntries_tidy depth o.limit records).bind fun entries => ?_
  refine Tidy.bind (hresults.bind fun _ => tidy_pure _) fun total => ?_
  refine Tidy.bind (hcontexts.bind fun _ => tidy_pure _) fun contexts => ?_
  refine Tidy.bind (hcontainer.bind fun _ => tidy_pure _) fun container => ?_
  exact Tidy.bind (askText?_tidy (by simpa [TextQuestion.arguments])) fun _ => tidy_pure _

/-! ## Outlines -/

theorem isListed_tidy (c : Cursor) (kind : Coded CursorKind) : (isListed c kind).Tidy below := by
  have hplace : c.location.Tidy below := tidy_ask rfl (List.forall_mem_nil _) fun _ => rfl
  have hgroup : (CursorKind.isIn kind .declaration).Tidy below :=
    askTruth_tidy (List.forall_mem_nil _)
  refine hplace.bind fun place => place.isInMainFile_tidy.bind fun isMain => ?_
  cases isMain with
  | false => exact tidy_pure _
  | true =>
    refine hgroup.bind fun isDeclaration => ?_
    cases isDeclaration <;> exact tidy_pure _

/-- However deep the scopes are nested. -/
theorem outlineOf_tidy (depth : Nat) (parent : Cursor) : (outlineOf depth parent).Tidy below := by
  induction depth generalizing parent with
  | zero => exact moves_giveUp
  | succ depth ih =>
    refine Cursor.foldChildren_tidy (fun entries c => ?_) parent []
    refine Tidy.bind (askCode_tidy (List.forall_mem_nil _)) fun kind => ?_
    refine (isListed_tidy c kind).bind fun listed => ?_
    split
    · refine Tidy.bind (askText_tidy (List.forall_mem_nil _)) fun name => ?_
      refine Tidy.bind (tidy_ask rfl (List.forall_mem_nil _) fun _ => rfl) fun extent => ?_
      refine extent.span?_tidy.bind fun span => ?_
      refine Tidy.bind (askTruth_tidy (List.forall_mem_nil _)) fun isDefinition => ?_
      refine Tidy.bind (askText?_tidy (List.forall_mem_nil _)) fun comment => ?_
      split
      · exact (ih c).bind fun _ => tidy_pure _
      · exact tidy_pure _
    · exact tidy_pure _

/-! ## References -/

theorem referenceEntry_tidy (r : ReferenceRecord) : Tidy below <| referenceEntry? r := by
  unfold referenceEntry?
  split
  · exact tidy_pure _
  · refine Tidy.bind (tidy_ask rfl (List.forall_mem_nil _) fun _ => rfl) fun location => ?_
    refine location.isInMainFile_tidy.bind fun isMain => ?_
    split
    · exact location.pointSpan?_tidy.bind fun _ => tidy_pure _
    · exact tidy_pure _

theorem referenceCollector_tidy : referenceCollector.Tidy below where
  abortRequested _ := tidy_pure _
  declaration _ _ := tidy_pure _
  reference _ r := (referenceEntry_tidy r).bind fun _ => tidy_pure _

/-- The action is made above the unit and released before the outcome is looked at. -/
theorem referencesOf_tidy {i : Index.Pointer} {u : TranslationUnit} (hi : .index i ∈ below)
    (hu : .unit u ∈ below) (logged : Bool) (file : Path) :
    (referencesOf logged file i u).Tidy below := by
  refine (IndexAction.create_moves hi).bind fun action => ?_
  have hindex : (IndexAction.index logged action u referenceFlags referenceCollector []).Tidy
      (.action action :: below) :=
    IndexAction.index_tidy List.mem_cons_self (List.mem_cons_of_mem _ hu) referenceCollector_tidy
      logged referenceFlags []
  refine hindex.releasing.bind fun (found, outcome) => ?_
  match outcome with
  | .ok (.ok ()) => exact tidy_pure _
  | .ok (.error failure) => exact tidy_pure _

/-! ## Commands -/

/-- What is held by a command besides its own is the index and, above it, the unit. -/
theorem withUnit_tidy {request : ParseRequest}
    {body : Index.Pointer → TranslationUnit → Dialogue (Except Failure α)}
    (h : ∀ i u, (body i u).Tidy [.unit u, .index i]) : (withUnit request body).Tidy [] := by
  refine (Index.create_moves {}).bind fun i => Tidy.releasing ?_
  refine Moves.bind (Index.parse_moves List.mem_cons_self request) fun parsed => ?_
  cases parsed with
  | error failure => exact tidy_pure _
  | ok unit => exact (h i unit).releasing

theorem onFile_tidy {around : Surroundings} {file : Path} {args : List String}
    {body : Index.Pointer → TranslationUnit → Dialogue (Except Failure α)}
    (h : ∀ i u, (body i u).Tidy [.unit u, .index i]) : (onFile around file args body).Tidy [] := by
  unfold onFile
  split
  · exact tidy_pure _
  · exact withUnit_tidy h

theorem diagnostics_tidy (around : Surroundings) (file : Path) (args : List String) :
    (diagnostics around file args).Tidy [] :=
  onFile_tidy fun _ _ => (diagnosticsOf_tidy List.mem_cons_self file).bind fun _ => tidy_pure _

theorem complete_tidy (depth : Nat) (around : Surroundings) (o : CompleteOptions) :
    (complete depth around o).Tidy [] := by
  refine onFile_tidy fun i u => ?_
  split
  · exact tidy_pure _
  · refine (TranslationUnit.complete_moves List.mem_cons_self _).bind fun completed => ?_
    cases completed with
    | error failure => exact tidy_pure _
    | ok set =>
      exact (completionsOf_tidy List.mem_cons_self depth o).releasing.bind fun _ => tidy_pure _

theorem references_tidy (around : Surroundings) (file : Path) (args : List String) :
    (references around file args).Tidy [] :=
  onFile_tidy fun _ _ => referencesOf_tidy (by simp) (by simp) around.logged file

theorem outline_tidy (depth : Nat) (around : Surroundings) (file : Path) (args : List String) :
    (outline depth around file args).Tidy [] := by
  refine onFile_tidy fun i u => ?_
  refine Tidy.bind (tidy_ask rfl (by simp [Call.arguments, CursorQuestion.arguments])
    fun _ => rfl) fun cursor => ?_
  exact (outlineOf_tidy depth cursor).bind fun _ => tidy_pure _

/-- **Custody.** In every library, what a command is handed it does not use once it is released, it
releases only what it was handed, and what belongs to something before that. When the command comes
to an end, with a report or a failure, everything was released exactly once. -/
theorem commands_balance (library : Library L) (l : L) (depth : Nat) (around : Surroundings)
    (file : Path) (args : List String) (o : CompleteOptions) :
    (diagnostics around file args).Balances library l ∧
      (complete depth around o).Balances library l ∧
      (references around file args).Balances library l ∧
      (outline depth around file args).Balances library l :=
  ⟨(diagnostics_tidy around file args).balances library l,
    (complete_tidy depth around o).balances library l,
    (references_tidy around file args).balances library l,
    (outline_tidy depth around file args).balances library l⟩

/-- A unit with a diagnostic, a result of completion and a reference in it. -/
def sampleScript : Script where
  diagnostics := [{ enable := some [45], fixIts := [{ replacement := some [59] }] }]
  unitDiagnostics := [some ⟨0⟩]
  phrases := [{ briefComment := some [97] }]
  completion := some { results := [⟨1, some ⟨0⟩⟩] }
  indexing.events := [.reference (some ⟨1, ⟨0⟩, ⟨0⟩, none, none, none, 0⟩)]

def sampleAround : Surroundings := ⟨fun _ => none, none, true⟩

def sampleFile : Path := Path.ofString "a.c"

def sampleOptions : CompleteOptions := ⟨sampleFile, 1, 1, none, true, true, []⟩

theorem sample_commands_settle :
    Trace.Settled ((diagnostics sampleAround sampleFile []).trace sampleScript.library {}) ∧
      Trace.Settled ((complete 3 sampleAround sampleOptions).trace sampleScript.library {}) ∧
      Trace.Settled ((references sampleAround sampleFile []).trace sampleScript.library {}) ∧
      Trace.Settled ((outline 3 sampleAround sampleFile []).trace sampleScript.library {}) := by
  obtain ⟨hdiagnostics, hcomplete, hreferences, houtline⟩ :=
    commands_balance sampleScript.library {} 3 sampleAround sampleFile [] sampleOptions
  exact ⟨(hdiagnostics (by decide +kernel)).2 (by decide +kernel),
    (hcomplete (by decide +kernel)).2 (by decide +kernel),
    (hreferences (by decide +kernel)).2 (by decide +kernel),
    (houtline (by decide +kernel)).2 (by decide +kernel)⟩

end ClangLens.Command
