import ClangLens.Inspect.Indexing
import ClangLens.Proofs.Custody.Holding

/-!
# What the questions and the calls back hold

Every question leaves the stack as it was if what it is put to is held: texts are released before
the next question, and so are diagnostics that are gone through. Three calls put something on the
stack, and only if they succeed: making an index, parsing, completing. A visit and a run of the
indexer leave the stack as it was if the visitor and the consumer do.
-/

namespace ClangLens

open Dialogue

variable {α σ π : Type} {below : List Resource}

/-! ## Places -/

theorem Place.fileName?_tidy (p : Place) : p.fileName?.Tidy below := by
  unfold Place.fileName?
  split
  · exact tidy_pure _
  · exact (askText_tidy (List.forall_mem_nil _)).bind fun _ => tidy_pure _

theorem Location.spelling_tidy (l : Location) : l.spelling.Tidy below :=
  (tidy_ask rfl (List.forall_mem_nil _) fun _ => rfl).bind fun _ => tidy_pure _

theorem Location.isInMainFile_tidy (l : Location) : l.isInMainFile.Tidy below :=
  askTruth_tidy (List.forall_mem_nil _)

theorem Location.pointSpan?_tidy (l : Location) : l.pointSpan?.Tidy below := by
  refine l.spelling_tidy.bind fun place => place.fileName?_tidy.bind fun name => ?_
  cases name <;> exact tidy_pure _

theorem Extent.span?_tidy (e : Extent) : e.span?.Tidy below := by
  have hnull : e.isNull.Tidy below := askTruth_tidy (List.forall_mem_nil _)
  have hend (q : LocationQuestion) (hq : q.arguments = []) :
      (ask (.location q)).Tidy below :=
    tidy_ask rfl (by simp [Call.arguments, hq]) fun _ => rfl
  refine hnull.bind fun isNull => ?_
  cases isNull with
  | true => exact tidy_pure _
  | false =>
    refine (hend (.startOf e) rfl).bind fun first => first.spelling_tidy.bind fun start => ?_
    refine (hend (.stopOf e) rfl).bind fun last => last.spelling_tidy.bind fun stop => ?_
    refine start.fileName?_tidy.bind fun name => ?_
    cases name <;> exact tidy_pure _

/-! ## Diagnostics -/

theorem FixIt.taken_tidy (owner : FixItOwner) (h : owner.resource ∈ below) (i : UInt32) :
    (FixIt.taken owner i).Tidy below := by
  have hask := moves_ask (c := .fixIt owner i) rfl (by simpa [Call.arguments] using h)
  exact hask.bind fun answer => (takeString_moves answer.replacement).bind fun _ => tidy_pure _

namespace Diagnostic

variable {d : Diagnostic}

/-- Both texts are released, the first one first. -/
theorem option?_tidy (h : .diagnostic d ∈ below) : d.option?.Tidy below := by
  have hask := moves_ask (c := .diagnosticOption d) rfl (by simpa [Call.arguments] using h)
  refine hask.bind ?_
  rintro ⟨enable, disable⟩
  have hfirst : (takeString enable).Moves below [.string enable, .string disable]
      fun _ => [.string disable] := by
    intro held _
    have hnothing : (takeString enable).Moves [] [.string enable] fun _ => [] :=
      takeString_moves enable
    exact hnothing (.string disable :: held) (by simp)
  exact hfirst.bind fun _ => (takeString_moves disable).bind fun _ => tidy_pure _

theorem fixIt?_tidy (h : .diagnostic d ∈ below) (i : UInt32) : (d.fixIt? i).Tidy below := by
  have hcount : d.numFixIts.Tidy below := askNumber_tidy (by simpa [NumberQuestion.arguments])
  refine atIndex_moves hcount ?_ rfl
  exact (FixIt.taken_tidy (.diagnostic d) h i).bind fun _ => tidy_pure _

theorem using?_moves {f : Diagnostic → Dialogue α}
    (hf : ∀ d, (f d).Tidy (.diagnostic d :: below)) (found : Option Diagnostic) :
    (using? f found).Moves below (found.toList.map .diagnostic) fun _ => [] := by
  cases found with
  | none => exact tidy_pure none
  | some d => exact (hf d).releasing.bind fun _ => tidy_pure _

end Diagnostic

/-- What is asked for in turn is released in turn. -/
theorem TranslationUnit.mapDiagnostics_tidy {u : TranslationUnit} {f : Diagnostic → Dialogue α}
    (h : .unit u ∈ below) (hf : ∀ d, (f d).Tidy (.diagnostic d :: below)) :
    (u.mapDiagnostics f).Tidy below := by
  have hcount : u.numDiagnostics.Tidy below :=
    askNumber_tidy (by simpa [NumberQuestion.arguments])
  refine hcount.bind fun count => collect_tidy (fun i => ?_) count
  have hfound : (u.diagnostic? i).Moves below [] fun d => d.toList.map .diagnostic :=
    atIndex_moves hcount
      (moves_ask rfl (by simpa [Call.arguments, DiagnosticOwner.resource])) rfl
  exact hfound.bind fun found => Diagnostic.using?_moves hf found

/-! ## Completion strings -/

namespace Phrase

theorem numChunks_tidy (p : Phrase) : p.numChunks.Tidy below :=
  askNumber_tidy (List.forall_mem_nil _)

theorem kindAt_tidy (p : Phrase) (i : UInt32) : (p.kindAt i).Tidy below :=
  askCode_tidy (List.forall_mem_nil _)

theorem textAt_tidy (p : Phrase) (i : UInt32) : (p.textAt i).Tidy below :=
  askText_tidy (List.forall_mem_nil _)

theorem firstOfKind?_tidy (p : Phrase) (kind : ChunkKind) : (p.firstOfKind? kind).Tidy below := by
  refine p.numChunks_tidy.bind fun count => first_tidy (fun i => ?_) count
  refine (p.kindAt_tidy i).bind fun found => ?_
  split
  · exact (p.textAt_tidy i).bind fun _ => tidy_pure _
  · exact tidy_pure _

/-- However deep the completion strings are nested. -/
theorem text_tidy (depth : Nat) (p : Phrase) : (p.text depth).Tidy below := by
  induction depth generalizing p with
  | zero => exact moves_giveUp
  | succ depth ih =>
    refine p.numChunks_tidy.bind fun count => Tidy.bind (collect_tidy (fun i => ?_) count)
      fun _ => tidy_pure _
    refine (p.kindAt_tidy i).bind fun kind => ?_
    have hnested : (p.chunkPhrase? i).Tidy below :=
      atIndex_moves p.numChunks_tidy (tidy_ask rfl (List.forall_mem_nil _) fun _ => rfl) rfl
    split
    · refine hnested.bind fun nested => ?_
      cases nested with
      | none => exact tidy_pure _
      | some q => exact (ih q).bind fun _ => tidy_pure _
    · exact tidy_pure _
    · exact tidy_pure _
    · exact (p.textAt_tidy i).bind fun _ => tidy_pure _

end Phrase

/-! ## Results of code completion -/

theorem Completions.sort_tidy {s : Completions} (h : .completions s ∈ below) :
    s.sort.Tidy below := by
  have hresults : (ask (.results s)).Tidy below :=
    tidy_ask rfl (by simpa [Call.arguments]) fun _ => rfl
  refine hresults.bind fun array => ?_
  split
  · refine tidy_ask rfl (fun r hr => ?_) fun _ => rfl
    cases hsome : array.results.isSome <;> simp_all [Call.arguments]
  · exact tidy_pure _

/-- The results are held if there are any. -/
theorem TranslationUnit.complete_moves {u : TranslationUnit} (h : .unit u ∈ below)
    (r : CompleteRequest) :
    (u.complete r).Moves below [] fun result => result.toOption.toList.map .completions := by
  unfold TranslationUnit.complete
  split
  · exact moves_pure (Except.error _)
  · refine (moves_ask rfl (by simpa [Call.arguments])).bind fun set => ?_
    cases set with
    | none => exact moves_pure (Except.error _)
    | some results =>
      have hsort : results.sort.Tidy ([.completions results] ++ below) :=
        Completions.sort_tidy (by simp)
      have hdone : (pure (.ok results) : Dialogue (Except Failure Completions)).Moves below
          [.completions results] fun result => result.toOption.toList.map .completions :=
        moves_pure (Except.ok results)
      dsimp only
      split
      · exact (hsort.moves [.completions results]).bind fun _ => hdone
      · exact hdone

/-! ## Indexes and units -/

theorem Index.create_moves (o : IndexOptions) :
    (Index.create o).Moves below [] fun i => [.index i].filter Resource.isReal :=
  moves_ask rfl (List.forall_mem_nil _)

/-- The unit is held if parsing succeeds; one that comes along with a failure is released. -/
theorem Index.parse_moves {i : Index.Pointer} (h : .index i ∈ below) (r : ParseRequest) :
    (Index.parse i r).Moves below [] fun result => result.toOption.toList.map .unit := by
  unfold Index.parse
  split
  · exact moves_pure (Except.error _)
  · refine (moves_ask rfl (by simpa [Call.arguments])).bind fun answer => ?_
    show Moves _ (answer.unit.toList.map .unit) _ _
    cases hunit : answer.unit with
    | none => exact moves_pure (Except.error _)
    | some unit =>
      dsimp only
      split
      · exact moves_pure (Except.ok unit)
      · exact (moves_release rfl).bind fun _ => moves_pure (Except.error _)

/-! ## Visits -/

theorem Traversal.refuse_tidy (t : Traversal) (s : σ) (panic : π) :
    (t.refuse s panic).Tidy below := by
  induction t with
  | finished broken => exact tidy_pure _
  | child cursor parent next ih =>
    exact (tidy_ask rfl (List.forall_mem_nil _) fun _ => rfl).bind fun _ => ih _

theorem Traversal.drive_tidy {visitor : Visitor σ π} (hv : ∀ s c p, (visitor s c p).Tidy below)
    (t : Traversal) (s : σ) : (t.drive visitor s).Tidy below := by
  induction t generalizing s with
  | finished broken => exact tidy_pure _
  | child cursor parent next ih =>
    have hanswer (code : UInt32) : (ask (.answerVisit code)).Tidy below :=
      tidy_ask rfl (List.forall_mem_nil _) fun _ => rfl
    rw [Traversal.drive]
    refine (hv s cursor parent).bind fun (s, outcome) => ?_
    cases outcome with
    | ok visit => exact (hanswer _).bind fun _ => ih _ s
    | error panic => exact (hanswer _).bind fun _ => Traversal.refuse_tidy _ s panic

theorem Cursor.visit_tidy {visitor : Visitor σ π} (hv : ∀ s c p, (visitor s c p).Tidy below)
    (c : Cursor) (s : σ) : (c.visit visitor s).Tidy below := by
  have hask : (ask (.visitChildren c)).Tidy below :=
    tidy_ask rfl (List.forall_mem_nil _) fun _ => rfl
  exact hask.bind fun t => (t.drive_tidy hv s).bind fun _ => tidy_pure _

theorem Cursor.foldChildren_tidy {f : σ → Cursor → Dialogue σ} (hf : ∀ s c, (f s c).Tidy below)
    (c : Cursor) (s : σ) : (c.foldChildren f s).Tidy below := by
  refine Tidy.bind (c.visit_tidy (fun s child _ => ?_) s) fun _ => tidy_pure _
  exact (hf s child).bind fun _ => tidy_pure _

/-! ## Runs of the indexer -/

/-- A consumer that leaves the stack as it was. -/
structure Consumer.Tidy (below : List Resource) (consumer : Consumer σ π) : Prop where
  abortRequested : ∀ s, (consumer.abortRequested s).Tidy below
  declaration : ∀ s record, (consumer.declaration s record).Tidy below
  reference : ∀ s record, (consumer.reference s record).Tidy below

theorem IndexRun.refuse_tidy (run : IndexRun) (s : σ) (panic : π) :
    (run.refuse s panic).Tidy below := by
  induction run with
  | finished status => exact tidy_pure _
  | abortQuery next ih =>
    exact (tidy_ask rfl (List.forall_mem_nil _) fun _ => rfl).bind fun _ => ih _
  | declaration record next ih => exact ih
  | reference record next ih => exact ih

theorem IndexRun.drive_tidy {consumer : Consumer σ π} (hc : consumer.Tidy below)
    (run : IndexRun) (s : σ) : (run.drive consumer s).Tidy below := by
  induction run generalizing s with
  | finished status => exact tidy_pure _
  | abortQuery next ih =>
    have hanswer (code : UInt32) : (ask (.answerAbortQuery code)).Tidy below :=
      tidy_ask rfl (List.forall_mem_nil _) fun _ => rfl
    rw [IndexRun.drive]
    refine (hc.abortRequested s).bind fun (s, outcome) => ?_
    cases outcome with
    | ok stop => exact (hanswer _).bind fun _ => ih _ s
    | error panic => exact (hanswer _).bind fun _ => IndexRun.refuse_tidy _ s panic
  | declaration record next ih =>
    cases record with
    | none => exact ih s
    | some record =>
      refine (hc.declaration s record).bind fun (s, outcome) => ?_
      cases outcome with
      | ok _ => exact ih s
      | error panic => exact next.refuse_tidy s panic
  | reference record next ih =>
    cases record with
    | none => exact ih s
    | some record =>
      refine (hc.reference s record).bind fun (s, outcome) => ?_
      cases outcome with
      | ok _ => exact ih s
      | error panic => exact next.refuse_tidy s panic

namespace IndexAction

theorem create_moves {i : Index.Pointer} (h : .index i ∈ below) :
    (IndexAction.create i).Moves below [] fun a => [.action a].filter Resource.isReal :=
  moves_ask rfl (by simpa [Call.arguments])

theorem index_tidy {a : Pointer} {u : TranslationUnit} {consumer : Consumer σ π}
    (ha : .action a ∈ below) (hu : .unit u ∈ below) (hc : consumer.Tidy below) (logged : Bool)
    (flags : IndexingFlags) (s : σ) :
    (IndexAction.index logged a u flags consumer s).Tidy below := by
  refine (logText_tidy logged (by simpa [TextQuestion.arguments])).bind fun _ => ?_
  have hask : (ask (.index a u ⟨flags.bits⟩)).Tidy below :=
    tidy_ask rfl (by simpa [Call.arguments] using ⟨ha, hu⟩) fun _ => rfl
  exact hask.bind fun run => (run.drive_tidy hc s).bind fun _ => tidy_pure _

end IndexAction

end ClangLens
