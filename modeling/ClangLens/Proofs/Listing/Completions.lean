import ClangLens.Proofs.Bounds.Walks
import ClangLens.Proofs.Building
import ClangLens.Proofs.Custody.Commands
import ClangLens.Proofs.Listing.Outline
import ClangLens.Proofs.Opening

/-!
# Which completions are listed

The results of completion are put in order once and then read from the first one on. Those without a
completion string are passed over before the limit is looked at, so the limit counts what is listed.
A smaller limit lists a prefix of the same list; all else in the report stays as it is where reading
completion strings does not disturb what the library says of the set.
-/

namespace ClangLens

open Dialogue

variable {α β L : Type} {library : Library L} {calls : List Exchange}

/-! ## Limits -/

/-- What a limit leaves of a list. -/
def upTo (limit : Option ℕ) (items : List α) : List α :=
  match limit with
  | none => items
  | some n => items.take n

/-- Limits in order; without one there is no end. -/
def Within : Option ℕ → Option ℕ → Prop
  | _, none => True
  | none, some _ => False
  | some n, some m => n ≤ m

instance : DecidableRel Within
  | _, none => isTrue trivial
  | none, some _ => isFalse id
  | some n, some m => inferInstanceAs (Decidable (n ≤ m))

theorem within_refl (limit : Option ℕ) : Within limit limit := by
  cases limit with
  | none => exact trivial
  | some n => exact Nat.le_refl n

theorem upTo_nil (limit : Option ℕ) : upTo limit ([] : List α) = [] := by
  cases limit with
  | none => rfl
  | some n => exact List.take_nil

theorem upTo_cons {limit : Option ℕ} (h : limit ≠ some 0) (a : α) (rest : List α) :
    upTo limit (a :: rest) = a :: upTo (limit.map (· - 1)) rest := by
  match limit with
  | none => rfl
  | some 0 => exact absurd rfl h
  | some (n + 1) => rfl

theorem upTo_isPrefix (limit : Option ℕ) (items : List α) : upTo limit items <+: items := by
  cases limit with
  | none => exact List.prefix_refl _
  | some n => exact List.take_prefix n items

theorem upTo_upTo {n m : Option ℕ} (h : Within n m) (items : List α) :
    upTo n (upTo m items) = upTo n items := by
  match n, m with
  | _, none => rfl
  | some n, some m =>
    show List.take n (List.take m items) = List.take n items
    rw [List.take_take, Nat.min_eq_left h]

/-! ## Results and their entries -/

namespace CompletionRecord

/-- The results with a completion string, in order. -/
def worded (records : List CompletionRecord) : List (Coded CursorKind × Phrase) :=
  records.filterMap fun r => r.phrase.map fun p => (r.cursorKind, p)

theorem worded_none {r : CompletionRecord} (h : r.phrase = none) (rest : List CompletionRecord) :
    worded (r :: rest) = worded rest :=
  List.filterMap_cons_none (by rw [h]; rfl)

theorem worded_some {r : CompletionRecord} {p : Phrase} (h : r.phrase = some p)
    (rest : List CompletionRecord) : worded (r :: rest) = (r.cursorKind, p) :: worded rest :=
  List.filterMap_cons_some (by rw [h]; rfl)

theorem worded_length_le (a : CompletionArray) : (worded a.toList).length ≤ a.count.toNat := by
  refine (List.length_filterMap_le _ _).trans ?_
  unfold CompletionArray.toList
  cases a.results with
  | none => exact Nat.zero_le _
  | some results => exact Vector.length_toList.le

end CompletionRecord

namespace Command

open CompletionRecord (worded worded_none worded_some worded_length_le)

/-- The entries of results one after another. -/
def entriesOf (depth : ℕ) (results : List (Coded CursorKind × Phrase)) :
    Dialogue (List CompletionEntry) :=
  results.mapM fun r => completionEntry depth r.1 r.2

/-- What is passed over does not count. -/
theorem completionEntries_eq (depth : ℕ) (limit : Option ℕ) (records : List CompletionRecord) :
    completionEntries depth limit records = entriesOf depth (upTo limit (worded records)) := by
  fun_induction completionEntries depth limit records with
  | case1 limit =>
    show _ = entriesOf depth (upTo limit [])
    rw [upTo_nil]
    rfl
  | case2 records _ => rfl
  | case3 limit r rest _ hphrase ih => rw [ih, worded_none hphrase]
  | case4 limit r rest hlimit p hphrase ih =>
    rw [worded_some hphrase, upTo_cons hlimit, entriesOf, List.mapM_cons, ih]
    rfl

/-- Each entry is what is read of its result, by calls that read one result after another. -/
inductive ReadOff (depth : ℕ) :
    List (Coded CursorKind × Phrase) → List Exchange → List CompletionEntry → Prop where
  | nil : ReadOff depth [] [] []
  | cons {kind : Coded CursorKind} {p : Phrase} {rest : List (Coded CursorKind × Phrase)}
      {calls more : List Exchange} {entry : CompletionEntry} {entries : List CompletionEntry}
      (first : (completionEntry depth kind p).Reaches calls entry)
      (others : ReadOff depth rest more entries) :
      ReadOff depth ((kind, p) :: rest) (calls ++ more) (entry :: entries)

theorem ReadOff.length_eq {depth : ℕ} {results : List (Coded CursorKind × Phrase)}
    {entries : List CompletionEntry} (h : ReadOff depth results calls entries) :
    entries.length = results.length := by
  induction h with
  | nil => rfl
  | cons _ _ ih => rw [List.length_cons, List.length_cons, ih]

theorem ReadOff.length_le {depth : ℕ} {limit : Option ℕ} {a : CompletionArray}
    {entries : List CompletionEntry}
    (h : ReadOff depth (upTo limit (worded a.toList)) calls entries) :
    entries.length ≤ a.count.toNat := by
  rw [h.length_eq]
  exact (upTo_isPrefix _ _).length_le.trans (worded_length_le a)

theorem entriesOf_reaches {depth : ℕ} {results : List (Coded CursorKind × Phrase)}
    {entries : List CompletionEntry} (h : (entriesOf depth results).Reaches calls entries) :
    ReadOff depth results calls entries := by
  induction results generalizing calls entries with
  | nil =>
    obtain ⟨rfl, rfl⟩ := h
    exact .nil
  | cons r rest ih =>
    rw [entriesOf, List.mapM_cons] at h
    obtain ⟨entry, before, after, rfl, hentry, h⟩ := h.of_bind
    obtain ⟨others, more, last, rfl, hothers, rfl, rfl⟩ := h.of_bind
    rw [List.append_nil]
    exact .cons hentry (ih hothers)

end Command

/-! ## Reading -/

/-- Reads what lies in a set or in a completion string, or a text of one. -/
def Call.reads : Call → Bool
  | .results _ | .chunkPhrase .. | .stringBytes _ | .release (.string _) => true
  | .text (.chunkText ..) | .text (.phraseBriefComment _) => true
  | .number (.chunks _) | .number (.chunkKind ..) => true
  | .number (.priority _) | .number (.availability _) => true
  | _ => false

/-- Makes a set of results or puts one in order. -/
def Call.arranges : Call → Bool
  | .complete .. | .sortResults .. => true
  | _ => false

theorem Call.arranges_of_reads {c : Call} (h : c.reads) : c.arranges = false := by
  cases c <;> first | rfl | cases h

/-- Makes only calls that read. -/
def Dialogue.Reads (d : Dialogue α) : Prop := d.Asks fun c => c.reads

theorem ask_reads {c : Call} (h : c.reads) : (ask c).Reads := asks_ask h

theorem askNumber_reads {q : NumberQuestion} (h : (Call.number q).reads) : (askNumber q).Reads :=
  ask_reads h

theorem askCode_reads {κ : Type} [CodeTable κ] [DecidableEq κ] {q : NumberQuestion}
    (h : (Call.number q).reads) : (askCode q : Dialogue (Coded κ)).Reads :=
  (askNumber_reads h).bind fun _ => asks_pure _

theorem askText_reads {q : TextQuestion} (h : (Call.text q).reads) : (askText q).Reads := by
  refine (ask_reads h).bind fun text => ?_
  refine Asks.bind (ask_reads rfl) fun bytes => ?_
  exact Asks.bind (ask_reads rfl) fun _ => asks_pure _

namespace Phrase

theorem numChunks_reads (p : Phrase) : p.numChunks.Reads := askNumber_reads rfl

theorem kindAt_reads (p : Phrase) (i : UInt32) : (p.kindAt i).Reads := askCode_reads rfl

theorem textAt_reads (p : Phrase) (i : UInt32) : (p.textAt i).Reads := askText_reads rfl

theorem firstOfKind?_reads (p : Phrase) (kind : ChunkKind) : (p.firstOfKind? kind).Reads := by
  refine p.numChunks_reads.bind fun count => firstFrom_asks (fun i => ?_) 0 count.toNat
  refine (p.kindAt_reads i).bind fun found => ?_
  split
  · exact (p.textAt_reads i).bind fun _ => asks_pure _
  · exact asks_pure _

theorem chunkPhrase?_reads (p : Phrase) (i : UInt32) : (p.chunkPhrase? i).Reads := by
  refine p.numChunks_reads.bind fun count => ?_
  split
  · exact ask_reads rfl
  · exact asks_pure _

/-- However deep completion strings are nested. -/
theorem text_reads (depth : ℕ) (p : Phrase) : (p.text depth).Reads := by
  induction depth generalizing p with
  | zero => trivial
  | succ depth ih =>
    refine p.numChunks_reads.bind fun count => Asks.bind ?_ fun pieces => asks_pure _
    refine collectFrom_asks (fun i => (p.kindAt_reads i).bind fun kind => ?_) 0 count.toNat
    split
    · refine (p.chunkPhrase?_reads i).bind fun nested => ?_
      cases nested with
      | none => exact asks_pure _
      | some q => exact (ih q).bind fun _ => asks_pure _
    · exact asks_pure _
    · exact asks_pure _
    · exact (p.textAt_reads i).bind fun _ => asks_pure _

end Phrase

namespace Command

open CompletionRecord (worded)

theorem completionEntry_reads (depth : ℕ) (kind : Coded CursorKind) (p : Phrase) :
    (completionEntry depth kind p).Reads := by
  refine (p.firstOfKind?_reads .resultType).bind fun resultType => ?_
  refine (p.firstOfKind?_reads .typedText).bind fun typed => ?_
  refine (p.text_reads depth).bind fun text => ?_
  refine Asks.bind (askNumber_reads rfl) fun priority => ?_
  refine Asks.bind (askCode_reads rfl) fun availability => ?_
  exact Asks.bind ((askText_reads rfl).bind fun _ => asks_pure _) fun comment => asks_pure _

theorem entriesOf_reads (depth : ℕ) (results : List (Coded CursorKind × Phrase)) :
    (entriesOf depth results).Reads := by
  unfold entriesOf
  induction results with
  | nil => exact asks_pure _
  | cons r rest ih =>
    rw [List.mapM_cons]
    exact (completionEntry_reads depth r.1 r.2).bind fun _ => ih.bind fun _ => asks_pure _

/-! ## What is said of a set -/

/-- What the library says of a set besides its results. -/
def overview (set : Completions) :
    Dialogue (UInt32 × CompletionContexts × CompletionContainer × Option String) := do
  let total ← set.numResults
  let contexts ← set.contexts
  let container ← set.container
  let usr ← set.containerUsr?
  return (total, contexts, container, usr)

/-- Reading a set of results and completion strings does not change what is said of any set. This is
what the library promises of its getters: the completion that makes a set fills it, and however
often something is asked of it, only putting it in order and releasing it change it. A library as
such may answer anything at any time, so where answers to several questions are compared, the
promise has to be kept. -/
def Undisturbed (library : Library L) : Prop :=
  ∀ (set : Completions) (c : Call), c.reads →
    ∀ l, ((overview set).run library (library c l).2).1 = ((overview set).run library l).1

/-- The report of what is said of a set and of entries. -/
def reportOf (o : CompleteOptions) (entries : List CompletionEntry)
    (said : UInt32 × CompletionContexts × CompletionContainer × Option String) :
    CompletionReport :=
  ⟨o.file, o.line, o.column, said.1, said.2.1.spelling, said.2.2.1, said.2.2.2, entries⟩

theorem completionsOf_eq (depth : ℕ) (o : CompleteOptions) (set : Completions) :
    completionsOf depth o set = (do
      let shown ← ask (.results set)
      let entries ← entriesOf depth (upTo o.limit (worded shown.toList))
      let said ← overview set
      return reportOf o entries said) := by
  unfold completionsOf
  simp only [completionEntries_eq]
  rfl

theorem overview_yields (set : Completions) : (overview set).Yields fun _ => True := by
  intro array contexts container string bytes released
  trivial

/-- The count is the first that is asked for. -/
theorem overview_total {set : Completions} {l : L}
    {said : UInt32 × CompletionContexts × CompletionContainer × Option String}
    (h : ((overview set).run library l).1 = some said) :
    said.1 = (library (.results set) l).1.count := by
  cases h
  rfl

/-- Reading leaves what is said as it is. -/
theorem Undisturbed.overview_eq (hlibrary : Undisturbed library) {d : Dialogue α} (hd : d.Reads)
    {a : α} {l l' : L} (hrun : d.run library l = (some a, l')) (set : Completions) :
    ((overview set).run library l').1 = ((overview set).run library l).1 := by
  have hkept := hd.run_eq (fun l => ((overview set).run library l).1)
    (fun c hc => hlibrary set c hc) l
  rwa [hrun] at hkept

/-! ## A smaller limit -/

theorem entriesOf_follows (depth : ℕ) {n m : Option ℕ} (h : Within n m)
    (results : List (Coded CursorKind × Phrase)) :
    Follows library (fun all fewer => fewer = upTo n all) (entriesOf depth (upTo m results))
      (entriesOf depth (upTo n results)) := by
  rw [← upTo_upTo h results]
  cases n with
  | none => exact fun l all l' hrun => ⟨all, l', hrun, rfl⟩
  | some n => exact mapM_follows _ _ n

/-- How a report with a smaller limit compares; the count is one of results that are counted. -/
structure Shortened (library : Library L) (limit : Option ℕ) (report fewer : CompletionReport) :
    Prop where
  entries : fewer.entries = upTo limit report.entries
  total : Undisturbed library → report.entries.length ≤ report.total.toNat
  same : Undisturbed library → fewer = { report with entries := fewer.entries }

theorem completionsOf_follows (depth : ℕ) (o : CompleteOptions) (set : Completions)
    {limit : Option ℕ} (h : Within limit o.limit) :
    Follows library (Shortened library limit) (completionsOf depth o set)
      (completionsOf depth { o with limit := limit } set) := by
  rw [completionsOf_eq, completionsOf_eq]
  intro l report l' hrun
  obtain ⟨shown, l₁, hshown, hrun⟩ := exists_run_of_bind hrun
  obtain ⟨entries, l₂, hentries, hrun⟩ := exists_run_of_bind hrun
  obtain ⟨said, l₃, hsaid, hreport⟩ := exists_run_of_bind hrun
  cases hreport
  obtain ⟨fewer, l₄, hfewer, rfl⟩ := entriesOf_follows depth h _ l₁ entries l₂ hentries
  obtain ⟨said', l₅, hsaid', -⟩ := (overview_yields set).exists_run library l₄
  refine ⟨reportOf o (upTo limit entries) said', l₅, ?_, rfl, fun hlibrary => ?_,
    fun hlibrary => ?_⟩
  · exact (run_bind hshown _).trans ((run_bind hfewer _).trans (run_bind hsaid' _))
  · have hkept := hlibrary.overview_eq (entriesOf_reads depth _) hentries set
    rw [hlibrary.overview_eq (ask_reads rfl) hshown set, hsaid] at hkept
    have htotal : said.1 = shown.count := by
      rw [overview_total hkept.symm]
      cases hshown
      rfl
    show entries.length ≤ said.1.toNat
    rw [htotal]
    exact (entriesOf_reaches (reaches_of_run hentries)).length_le
  · have hkept := hlibrary.overview_eq (entriesOf_reads depth _) hentries set
    rw [← hlibrary.overview_eq (entriesOf_reads depth _) hfewer set, hsaid, hsaid'] at hkept
    obtain rfl := Option.some.inj hkept
    rfl

/-- What is made of the result, if it is one. -/
def Succeeds (rel : α → β → Prop) (result : Except Failure α) (other : Except Failure β) : Prop :=
  ∀ a, result = .ok a → ∃ b, other = .ok b ∧ rel a b

theorem succeeds_error (rel : α → β → Prop) (failure : Failure) :
    Succeeds rel (.error failure) (.error failure) := by
  intro a h
  cases h

theorem succeeds_ok {rel : α → β → Prop} {a : α} {b : β} (h : rel a b) :
    Succeeds rel (.ok a) (.ok b) := by
  rintro _ ⟨⟩
  exact ⟨b, rfl, h⟩

theorem onFile_follows {rel : α → β → Prop} {around : Surroundings} {file : Path}
    {args : List String} {body : Index.Pointer → TranslationUnit → Dialogue (Except Failure α)}
    {other : Index.Pointer → TranslationUnit → Dialogue (Except Failure β)}
    (h : ∀ i u, Follows library (Succeeds rel) (body i u) (other i u)) :
    Follows library (Succeeds rel) (onFile around file args body)
      (onFile around file args other) := by
  unfold onFile
  cases ParseRequest.forFile around.canonical file args around.database with
  | error fault => exact follows_done (succeeds_error rel _)
  | ok request =>
    refine .bind fun index => .releasing (.bind fun parsed => ?_) _
    cases parsed with
    | error failure => exact follows_done (succeeds_error rel _)
    | ok unit => exact (h index unit).releasing _

theorem complete_follows (depth : ℕ) (around : Surroundings) (o : CompleteOptions)
    {limit : Option ℕ} (h : Within limit o.limit) :
    Follows library (Succeeds (Shortened library limit)) (complete depth around o)
      (complete depth around { o with limit := limit }) := by
  refine onFile_follows fun i u => ?_
  have hrequest : completeRequest { o with limit := limit } = completeRequest o := rfl
  rw [hrequest]
  cases completeRequest o with
  | error fault => exact follows_done (succeeds_error _ _)
  | ok request =>
    refine .bind fun completed => ?_
    cases completed with
    | error failure => exact follows_done (succeeds_error _ _)
    | ok set =>
      exact ((completionsOf_follows depth o set h).releasing _).map fun _ _ => succeeds_ok

/-! ## What is listed -/

theorem completionsOf_reaches {depth : ℕ} {o : CompleteOptions} {set : Completions}
    {report : CompletionReport} (h : (completionsOf depth o set).Reaches calls report) :
    ∃ shown asked last after,
      calls = ⟨.results set, shown⟩ :: (asked ++ ⟨.results set, last⟩ :: after) ∧
        (∀ x ∈ asked ++ after, x.1.arranges = false) ∧
        ReadOff depth (upTo o.limit (worded shown.toList)) asked report.entries ∧
        report.total = last.count := by
  rw [completionsOf_eq] at h
  obtain ⟨shown, more, rfl, hread⟩ := h.of_ask
  obtain ⟨entries, asked, rest, rfl, hentries, hsaid⟩ := hread.of_bind
  obtain ⟨last, _, rfl, contexts, _, rfl, container, _, rfl, string, _, rfl, bytes, _, rfl,
    released, _, rfl, rfl, rfl⟩ := hsaid
  refine ⟨shown, asked, last, _, rfl, ?_, entriesOf_reaches hentries, rfl⟩
  rw [List.forall_mem_append]
  refine ⟨fun x hx => ?_, by simp [Call.arranges]⟩
  exact Call.arranges_of_reads ((entriesOf_reads depth _).of_reaches hentries x hx)

/-- What leads up to a unit and what is done with it afterwards makes no results. -/
theorem Opened.arranges {around : Surroundings} {file : Path} {args : List String}
    {index : Index.Pointer} {u : TranslationUnit} {before after : List Exchange}
    (h : Opened around file args index u before after) :
    ∀ x ∈ before ++ after, x.1.arranges = false := by
  cases h
  simp [Call.arranges]

/-- How a report on completion comes about. Results are made, and put in order if there are any, by
calls that are made once. Then the array is looked at, the first of its results are read, and the
results are counted. -/
structure Completed (depth : ℕ) (o : CompleteOptions) (calls : List Exchange)
    (report : CompletionReport) (set : Completions) (counted shown last : CompletionArray)
    (asked : List Exchange) : Prop where
  calls : ∃ u file unsaved before after, calls = before ++
      [⟨.complete u file o.line o.column unsaved ⟨o.flags.bits⟩, some set⟩,
        ⟨.results set, counted⟩] ++ set.sorting counted ++
      [⟨.results set, shown⟩] ++ asked ++ [⟨.results set, last⟩] ++ after ∧
    ∀ x ∈ before ++ asked ++ after, x.1.arranges = false
  entries : ReadOff depth (upTo o.limit (worded shown.toList)) asked report.entries
  length_le : report.entries.length ≤ shown.count.toNat
  total : report.total = last.count

theorem completeRequest_eq_ok {o : CompleteOptions} {r : CompleteRequest}
    (h : completeRequest o = .ok r) :
    r.line = o.line ∧ r.column = o.column ∧ r.flags = o.flags ∧ r.sorted = true := by
  obtain ⟨p, line, column, -, hplace, -, -, -, rfl⟩ := CompleteRequest.ofSteps_eq_ok_iff.mp h
  cases hplace
  exact ⟨rfl, rfl, rfl, rfl⟩

theorem complete_completed {depth : ℕ} {around : Surroundings} {o : CompleteOptions}
    {report : CompletionReport} (h : (complete depth around o).Reaches calls (.ok report)) :
    ∃ set counted shown last asked,
      Completed depth o calls report set counted shown last asked := by
  obtain ⟨i, u, before, inner, after, rfl, hopened, hbody⟩ := onFile_reaches h
  have houter := hopened.arranges
  cases hrequest : completeRequest o with
  | error fault =>
    rw [hrequest] at hbody
    cases hbody.2
  | ok r =>
    rw [hrequest] at hbody
    obtain ⟨hline, hcolumn, hflags, hsorted⟩ := completeRequest_eq_ok hrequest
    obtain ⟨completed, making, _, rfl, hmaking, hset⟩ := Reaches.of_bind hbody
    cases completed with
    | error failure => cases hset.2
    | ok set =>
      obtain ⟨_, _, _, rfl, hheld, rfl, ⟨⟩⟩ := hset.of_bind
      obtain ⟨reading, rfl, hreading⟩ := hheld.of_releasing
      obtain ⟨file, unsaved, counted, rfl⟩ :=
        (TranslationUnit.complete_reaches hmaking).of_sorted hsorted
      obtain ⟨shown, asked, last, rest, rfl, hcalls, hentries, htotal⟩ :=
        completionsOf_reaches hreading
      rw [hline, hcolumn, hflags]
      refine ⟨set, counted, shown, last, asked, ⟨u, file, unsaved, before,
        rest ++ ⟨.release (.completions set), ()⟩ :: after, by simp, ?_⟩, hentries,
        hentries.length_le, htotal⟩
      simp only [List.forall_mem_append, List.forall_mem_cons] at houter hcalls ⊢
      exact ⟨⟨houter.1, hcalls.1⟩, hcalls.2, rfl, houter.2⟩

/-- What a script says of its results depends on nothing that happens. -/
theorem overview_tells (s : Script) (set : Completions) :
    ∃ said, (overview set).Tells s.library said := by
  have htotal : set.numResults.Tells s.library (Script.count s.completionTable.results) :=
    fun m => ⟨m, Prod.ext (congrArg some (s.resultsAnswer_count m set)) rfl⟩
  have hcontexts : set.contexts.Tells s.library ⟨s.completionTable.contexts.toBitVec⟩ :=
    fun m => ⟨m, rfl⟩
  have hcontainer : set.container.Tells s.library _ := fun m => ⟨m, rfl⟩
  have husr : set.containerUsr?.Tells s.library _ :=
    (s.askText_tells (.containerUsr set)).bind (tells_done _)
  exact ⟨_, htotal.bind (hcontexts.bind (hcontainer.bind (husr.bind (tells_done _))))⟩

theorem script_undisturbed (s : Script) : Undisturbed s.library := by
  intro set c _ m
  obtain ⟨said, hsaid⟩ := overview_tells s set
  obtain ⟨_, hbefore⟩ := hsaid m
  obtain ⟨_, hafter⟩ := hsaid (s.library c m).2
  rw [hbefore, hafter]

/-- **Completions.** A report lists what is read of the first results with a completion string, as
many as the limit allows, in the order of the array behind the one call that puts it in order. With
a smaller limit the same library would have listed a prefix of them. If reading does not disturb the
library, they are no more than it counts, and nothing else in the report would differ. -/
theorem completions_listed (library : Library L) (l : L) (depth : ℕ) (around : Surroundings)
    (o : CompleteOptions) (report : CompletionReport)
    (h : ((complete depth around o).run library l).1 = some (.ok report)) :
    (∃ set counted shown last asked,
      Completed depth o ((complete depth around o).trace library l) report set counted shown last
        asked) ∧
    (Undisturbed library → report.entries.length ≤ report.total.toNat) ∧
    ∀ limit, Within limit o.limit → ∃ fewer,
      ((complete depth around { o with limit := limit }).run library l).1 = some (.ok fewer) ∧
        fewer.entries = upTo limit report.entries ∧ fewer.entries <+: report.entries ∧
        (Undisturbed library → fewer = { report with entries := fewer.entries }) := by
  have hrun : (complete depth around o).run library l = (some (.ok report), _) := Prod.ext h rfl
  have hshort {limit : Option ℕ} (hlimit : Within limit o.limit) :
      ∃ fewer, ((complete depth around { o with limit := limit }).run library l).1 =
        some (.ok fewer) ∧ Shortened library limit report fewer := by
    obtain ⟨_, _, hfewer, hsucceeds⟩ := complete_follows depth around o hlimit l _ _ hrun
    obtain ⟨fewer, rfl, hshort⟩ := hsucceeds report rfl
    exact ⟨fewer, congrArg Prod.fst hfewer, hshort⟩
  refine ⟨complete_completed (reaches_of_run hrun), ?_, fun limit hlimit => ?_⟩
  · obtain ⟨_, _, hshort⟩ := hshort (within_refl o.limit)
    exact hshort.total
  · obtain ⟨fewer, hfewer, hentries, -, hsame⟩ := hshort hlimit
    refine ⟨fewer, hfewer, hentries, ?_, hsame⟩
    rw [hentries]
    exact upTo_isPrefix _ _

/-- Four results, one without a completion string; putting them in order turns them round. -/
def mixedResults : Script where
  phrases := [
    { chunks := [{ kind := 1, text := some [97] }], priority := 3 },
    { chunks := [{ kind := 1, text := some [98] }], priority := 2 },
    { chunks := [{ kind := 1, text := some [99] }], priority := 1 }]
  completion := some { results := [⟨8, some ⟨0⟩⟩, ⟨8, some ⟨1⟩⟩, ⟨8, none⟩, ⟨8, some ⟨2⟩⟩] }

/-- At most two of them. -/
def twoResults : CompleteOptions := { sampleOptions with limit := some 2 }

/-- The last of them first, and the one without a completion string left out. -/
def mixedReport : CompletionReport :=
  ⟨sampleFile, 1, 1, 4, "CompletionContext=Unexposed", ⟨.unknown 0, false⟩, none,
    [⟨"c", "c", none, "Cursor=FunctionDecl", 1, "Availability=Available", none⟩,
      ⟨"b", "b", none, "Cursor=FunctionDecl", 2, "Availability=Available", none⟩]⟩

theorem mixedResults_listed :
    ((complete 3 sampleAround twoResults).run mixedResults.library {}).1 =
        some (.ok mixedReport) ∧
      (∃ set counted shown last asked, Completed 3 twoResults
        ((complete 3 sampleAround twoResults).trace mixedResults.library {}) mixedReport set counted
          shown last asked) ∧
      mixedReport.entries.length ≤ mixedReport.total.toNat ∧
      ((complete 3 sampleAround { twoResults with limit := some 1 }).run mixedResults.library
        {}).1 = some (.ok { mixedReport with entries := mixedReport.entries.take 1 }) := by
  have hrun : ((complete 3 sampleAround twoResults).run mixedResults.library {}).1 =
      some (.ok mixedReport) := by decide +kernel
  have hlibrary := script_undisturbed mixedResults
  obtain ⟨hcompleted, htotal, hlimit⟩ :=
    completions_listed mixedResults.library {} 3 sampleAround twoResults mixedReport hrun
  obtain ⟨fewer, hfewer, hentries, -, hsame⟩ := hlimit (some 1) (by decide)
  rw [hsame hlibrary, hentries] at hfewer
  exact ⟨hrun, hcompleted, htotal hlibrary, hfewer⟩

end Command

end ClangLens
