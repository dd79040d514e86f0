import ClangLens.Proofs.Bounds.Accessors
import ClangLens.Script.Library

/-!
# Going through a series

What goes through a series counts it and then takes up every index below the count by the guarded
accessor, so each index has one turn, in order. What is left out is what the library answers with
nothing, and of the children of a comment those of kind null. Together with the guards this bounds
everything that is asked for by index.
-/

namespace ClangLens

open Dialogue

variable {α L : Type} {library : Library L} {counts : Series → UInt32}

/-! ## Iterators -/

/-- The exchange by which a question is answered with a count. -/
def counting (q : NumberQuestion) (n : UInt32) : Exchange := ⟨.number q, n⟩

/-- Goes through a series: it is counted, and then every index below the count has its turn, once
and in order. -/
def Dialogue.Walks (library : Library L) (l : L) (q : NumberQuestion) (n : UInt32)
    (turn : UInt32 → List Exchange → Option α → Prop) (d : Dialogue (List α)) : Prop :=
  d.Fits library l fun calls found => ∃ visited rest, (∀ i, i ∈ visited ↔ i < n) ∧
    visited.Pairwise (· < ·) ∧ calls = counting q n :: rest ∧ Gathered turn visited rest found

/-- The turn of a diagnostic: it is left out if there is none, else used and released. -/
inductive DiagnosticTurn (library : Library L) (f : Diagnostic → Dialogue α)
    (owner : DiagnosticOwner) (counted : Exchange) : UInt32 → List Exchange → Option α → Prop where
  | missing {i : UInt32} :
      DiagnosticTurn library f owner counted i [counted, ⟨.diagnostic owner i, none⟩] none
  | used {i : UInt32} {d : Diagnostic} {a : α} {l l' : L} (h : (f d).run library l = (some a, l')) :
      DiagnosticTurn library f owner counted i
        (counted :: ⟨.diagnostic owner i, some d⟩ ::
          ((f d).trace library l ++ [⟨.release (.diagnostic d), ()⟩]))
        (some a)

/-- The turn of a fix-it, which there always is. -/
inductive FixItTurn (d : Diagnostic) (counted : Exchange) :
    UInt32 → List Exchange → Option FixIt → Prop where
  | taken {i : UInt32} {answer : FixItAnswer} {bytes : Option Bytes} :
      FixItTurn d counted i
        [counted, ⟨.fixIt (.diagnostic d) i, answer⟩, ⟨.stringBytes answer.replacement, bytes⟩,
          ⟨.release (.string answer.replacement), ()⟩]
        (some ⟨answer.range, ForeignString.read bytes⟩)

/-- The turn of a piece, about which nothing is asked yet. -/
inductive ChunkTurn (p : Phrase) : UInt32 → List Exchange → Option Phrase.Chunk → Prop where
  | yielded {i : UInt32} : ChunkTurn p i [] (some ⟨p, i⟩)

/-- The turn of a child: it is left out if there is none and if it is of kind null. -/
inductive ChildTurn (c : Comment) (counted : Exchange) :
    UInt32 → List Exchange → Option Comment → Prop where
  | missing {i : UInt32} : ChildTurn c counted i [counted, ⟨.commentChild c i, none⟩] none
  | null {i : UInt32} {child : Comment} {code : UInt32}
      (h : (Coded.ofCode code : Coded CommentKind) = .named .null) :
      ChildTurn c counted i
        [counted, ⟨.commentChild c i, some child⟩, ⟨.number (.commentKind child), code⟩] none
  | present {i : UInt32} {child : Comment} {code : UInt32}
      (h : (Coded.ofCode code : Coded CommentKind) ≠ .named .null) :
      ChildTurn c counted i
        [counted, ⟨.commentChild c i, some child⟩, ⟨.number (.commentKind child), code⟩]
        (some child)

section

variable {s : Series} {q : NumberQuestion} {l : L}

theorem Steady.fits_atIndex (hsteady : Steady library counts) (hq : q.series? = some s) {i : UInt32}
    (hi : i < counts s) {d : Dialogue (Option α)} {p : List Exchange → Option α → Prop}
    (h : ∀ l, d.Fits library l fun calls found => p (counting q (counts s) :: calls) found)
    (l : L) :
    (atIndex (askNumber q) i d).Fits library l p := by
  refine fits_call ?_
  show Fits library _ _ (if i < (library (.number q) l).1 then d else _)
  rw [hsteady.number hq l, if_pos hi]
  exact h _

theorem Steady.walks (hsteady : Steady library counts) (hq : q.series? = some s)
    {f : UInt32 → Dialogue (Option α)} {turn : UInt32 → List Exchange → Option α → Prop}
    (h : ∀ i < counts s, ∀ l, (f i).Fits library l (turn i)) (l : L) :
    (do collect (← askNumber q) f).Walks library l q (counts s) turn := by
  refine fits_call ?_
  show Fits library _ _ (collect (library (.number q) l).1 f)
  rw [hsteady.number hq l]
  refine (collect_fits _ h _).mono fun rest found hfound => ?_
  exact ⟨indices _, rest, fun _ => mem_indices, indices_pairwise _, rfl, hfound⟩

theorem Steady.walks_diagnostics (hsteady : Steady library counts) (hq : q.series? = some s)
    {f : Diagnostic → Dialogue α} (hf : ∀ d, (f d).Yields fun _ => True) (owner : DiagnosticOwner)
    (l : L) :
    (do
      collect (← askNumber q) fun i => do
        Diagnostic.using? f (← atIndex (askNumber q) i (ask (.diagnostic owner i)))).Walks
      library l q (counts s) (DiagnosticTurn library f owner (counting q (counts s))) := by
  refine hsteady.walks hq (fun i hi l => ?_) l
  have hasked : (atIndex (askNumber q) i (ask (.diagnostic owner i))).Fits library l
      fun calls found =>
        calls = [counting q (counts s), ⟨.diagnostic owner i, found⟩] :=
    hsteady.fits_atIndex hq hi (fun l => fits_call (fits_done (by rfl))) l
  refine hasked.bind fun calls found l' hcalls => ?_
  subst hcalls
  cases found with
  | none => exact fits_done .missing
  | some d =>
    refine ((hf d).fits.releasing (.diagnostic d)).bind fun calls a _ h => fits_done ?_
    obtain ⟨inner, rfl, -, rfl, l₁, hrun⟩ := h
    rw [List.append_nil]
    exact .used hrun

theorem Diagnostic.fixIts_walks (hsteady : Steady library counts) (d : Diagnostic) (l : L) :
    d.fixIts.Walks library l (.diagnosticFixIts d) (counts (.fixIts d))
      (FixItTurn d (counting (.diagnosticFixIts d) (counts (.fixIts d)))) := by
  refine hsteady.walks rfl (fun i hi l => hsteady.fits_atIndex rfl hi (fun l => ?_) l) l
  refine fits_call (fits_call (fits_call (fits_done ?_)))
  exact .taken

theorem Phrase.chunks_walks (hsteady : Steady library counts) (p : Phrase) (l : L) :
    p.chunks.Walks library l (.chunks p) (counts (.chunks p)) (ChunkTurn p) :=
  hsteady.walks rfl (fun _ _ _ => fits_done .yielded) l

theorem Comment.children_walks (hsteady : Steady library counts) (c : Comment) (l : L) :
    c.children.Walks library l (.commentChildren c) (counts (.children c))
      (ChildTurn c (counting (.commentChildren c) (counts (.children c)))) := by
  refine hsteady.walks rfl (fun i hi l => hsteady.fits_atIndex rfl hi (fun l => ?_) l) l
  refine fits_call ?_
  generalize (library (.commentChild c i) l).1 = child
  cases child with
  | none => exact fits_done .missing
  | some child =>
    refine fits_call ?_
    generalize (library (.number (.commentKind child)) _).1 = code
    show Fits library _ _ (.done (if (Coded.ofCode code : Coded CommentKind) = .named .null
      then none else some child))
    by_cases h : (Coded.ofCode code : Coded CommentKind) = .named .null
    · rw [if_pos h]
      exact fits_done (.null h)
    · rw [if_neg h]
      exact fits_done (.present h)

end

/-! ## All accesses -/

/-- What goes through a series takes up every index below the count once, in order. -/
structure IteratorsWalk (library : Library L) (counts : Series → UInt32) : Prop where
  unitDiagnostics {α : Type} {f : Diagnostic → Dialogue α} (hf : ∀ d, (f d).Yields fun _ => True)
      (u : TranslationUnit) (l : L) :
    (u.mapDiagnostics f).Walks library l (.unitDiagnostics u) (counts (.unitDiagnostics u))
      (DiagnosticTurn library f (.unit u)
        (counting (.unitDiagnostics u) (counts (.unitDiagnostics u))))
  completionDiagnostics {α : Type} {f : Diagnostic → Dialogue α}
      (hf : ∀ d, (f d).Yields fun _ => True) (s : Completions) (l : L) :
    (s.mapDiagnostics f).Walks library l (.completionDiagnostics s)
      (counts (.completionDiagnostics s))
      (DiagnosticTurn library f (.completions s)
        (counting (.completionDiagnostics s) (counts (.completionDiagnostics s))))
  fixIts (d : Diagnostic) (l : L) :
    d.fixIts.Walks library l (.diagnosticFixIts d) (counts (.fixIts d))
      (FixItTurn d (counting (.diagnosticFixIts d) (counts (.fixIts d))))
  chunks (p : Phrase) (l : L) :
    p.chunks.Walks library l (.chunks p) (counts (.chunks p)) (ChunkTurn p)
  children (c : Comment) (l : L) :
    c.children.Walks library l (.commentChildren c) (counts (.children c))
      (ChildTurn c (counting (.commentChildren c) (counts (.children c))))

theorem Steady.iteratorsWalk (hsteady : Steady library counts) : IteratorsWalk library counts where
  unitDiagnostics hf u l := hsteady.walks_diagnostics rfl hf (.unit u) l
  completionDiagnostics hf s l := hsteady.walks_diagnostics rfl hf (.completions s) l
  fixIts d l := d.fixIts_walks hsteady l
  chunks p l := p.chunks_walks hsteady l
  children c l := c.children_walks hsteady l

/-- The counts in a script, which do not change. -/
def Script.countOf (s : Script) : Series → UInt32
  | .unitDiagnostics _ => count s.unitDiagnostics
  | .completionDiagnostics _ => count s.completionTable.diagnostics
  | .ranges d => count (s.diagnosticRow d).ranges
  | .fixIts d => count (s.diagnosticRow d).fixIts
  | .results _ => count s.completionTable.results
  | .resultFixIts set i => count (s.fixItRows (.completion set i))
  | .chunks p => count (s.phraseRow p).chunks
  | .annotations p => count (s.phraseRow p).annotations
  | .children c => count (s.commentRow c).children
  | .arguments c => count (s.commentRow c).args

theorem Script.resultsAnswer_count (s : Script) (m : Memory) (set : Completions) :
    (s.resultsAnswer m set).count = count s.completionTable.results := by
  have hlength : (if set ∈ m.sorted then s.completionTable.results.reverse
      else s.completionTable.results).length = s.completionTable.results.length := by
    split
    · exact List.length_reverse
    · rfl
  have hcount : ∀ rows : List CompletionRecord,
      (if h : rows.length = (count rows).toNat ∧ rows ≠ [] then
        (⟨count rows, some ⟨rows.toArray, by simp [h.1]⟩⟩ : CompletionArray)
      else ⟨count rows, none⟩).count = count rows := by
    intro rows
    split <;> rfl
  exact (hcount _).trans (congrArg Nat.toUInt32 hlength)

theorem Script.library_steady (s : Script) : Steady s.library s.countOf := by
  intro c m t n h
  cases c with
  | results set =>
    have hresults : some (Series.results set, (s.resultsAnswer m set).count) = some (t, n) := h
    obtain ⟨rfl, rfl⟩ := Prod.mk.inj (Option.some.inj hresults)
    exact s.resultsAnswer_count m set
  | number q =>
    have hq : q.series?.map (fun t => (t, s.numberAnswer m q)) = some (t, n) := h
    cases q <;> simp only [NumberQuestion.series?, Option.map_some, Option.map_none,
      Option.some.injEq, Prod.mk.injEq, reduceCtorEq] at hq
    all_goals
      obtain ⟨rfl, rfl⟩ := hq
      rfl
  | _ => simp [counted?] at h

/-- **Bounds.** Whatever a caller does, no element is asked for but behind a count that it is below
of. If the counts of the library do not change, no element is asked for that is not there; one that
is not there is missing, and of the elements above it only an owner that is there is asked for; and
what goes through a series takes up every index below the count once, in order. -/
theorem Access.calls_in_bounds (library : Library L) (steps : List Access) (l : L) :
    (∃ held l', (performAll [] steps).run library l = (some held, l')) ∧
      Guarded [] ((performAll [] steps).trace library l) ∧
      ∀ counts, Steady library counts →
        (∀ x ∈ (performAll [] steps).trace library l, ∀ e ∈ x.1.elements, e.2 < counts e.1) ∧
        (∀ (a : Accessor) (i : UInt32), ∀ e ∈ a.series.path i, counts e.1 ≤ e.2 → ∀ l,
          (a.get i).Fits library l fun calls answer => answer = a.missing ∧
            ∀ x ∈ calls, ∀ e' ∈ x.1.elements, a.series.owner? = some e' ∧ e'.1 ≠ e.1) ∧
        IteratorsWalk library counts := by
  have hheeds : (performAll [] steps).Heeds [] fun known' held' => Held known' held' :=
    performAll_heeds steps (by simp [Held])
  refine ⟨hheeds.exists_run library l, hheeds.guarded library l, fun counts hsteady => ?_⟩
  refine ⟨hheeds.lt_counts hsteady l, ?_, hsteady.iteratorsWalk⟩
  intro a i e he hpast l
  exact Accessor.get_past hsteady he hpast l

/-- Diagnostics, results and comments some of which are missing. -/
def gapScript : Script where
  diagnostics := [{ ranges := [none, none], fixIts := [{}] }]
  unitDiagnostics := [none, some ⟨0⟩]
  phrases := [{ chunks := [{ kind := 1 }, { text := some [97] }] }]
  completion := some { results := [⟨1, some ⟨0⟩⟩], diagnostics := [none], fixIts := [[{}]] }
  comments := [{ kind := 1, children := [none, some ⟨1⟩] }, {}]

/-- Elements that are there and some that are not, and a piece that is held. -/
def gapSteps : List Access :=
  [.chunks ⟨0⟩, .chunk 1 .text, .chunk 9 .kind, .get (.range ⟨0⟩) 1, .get (.range ⟨0⟩) 2,
    .get (.resultFixIt ⟨1⟩ 0) 0, .get (.resultFixIt ⟨1⟩ 3) 0, .get (.argument ⟨0⟩) 5]

theorem Access.gapScript_in_bounds :
    Steady gapScript.library gapScript.countOf ∧
      (∀ x ∈ (performAll [] gapSteps).trace gapScript.library {}, ∀ e ∈ x.1.elements,
        e.2 < gapScript.countOf e.1) ∧
      ((performAll [] gapSteps).trace gapScript.library {}).flatMap (fun x => x.1.elements) =
        [(.chunks ⟨0⟩, 1), (.ranges ⟨0⟩, 1), (.results ⟨1⟩, 0), (.resultFixIts ⟨1⟩ 0, 0),
          (.results ⟨1⟩, 0)] ∧
      ((Accessor.resultFixIt ⟨1⟩ 3).get 0).Fits gapScript.library {} (fun _ found => found = none) ∧
      (TranslationUnit.mapDiagnostics ⟨1⟩ Diagnostic.spelling).Walks gapScript.library {}
        (.unitDiagnostics ⟨1⟩) 2 (DiagnosticTurn gapScript.library Diagnostic.spelling (.unit ⟨1⟩)
          (counting (.unitDiagnostics ⟨1⟩) 2)) := by
  obtain ⟨-, -, hbounds⟩ := calls_in_bounds gapScript.library gapSteps {}
  obtain ⟨hbelow, hpast, hwalk⟩ := hbounds gapScript.countOf gapScript.library_steady
  have hresult : (Series.results ⟨1⟩, (3 : UInt32)) ∈ (Series.resultFixIts ⟨1⟩ 3).path 0 := by
    decide
  have hyields : ∀ d : Diagnostic, d.spelling.Yields fun _ => True := fun _ _ _ _ => trivial
  refine ⟨gapScript.library_steady, hbelow, by decide +kernel, ?_, ?_⟩
  · refine (hpast (.resultFixIt ⟨1⟩ 3) 0 _ hresult (by decide +kernel) {}).mono ?_
    exact fun _ _ h => h.1
  · exact hwalk.unitDiagnostics hyields ⟨1⟩ {}

end ClangLens
