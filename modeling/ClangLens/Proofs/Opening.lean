import ClangLens.Command.Basic
import ClangLens.Proofs.Callback.Indexing
import ClangLens.Proofs.Following

/-!
# Units and results

What parsing a file and completing code in it come to, by the calls that are made. A command on a
file makes an index, parses, makes something of the unit if there is one, and releases the unit and
the index; everything it does in between is what is made of the unit.
-/

namespace ClangLens

open Dialogue

variable {α : Type} {calls : List Exchange}

/-! ## Parsing -/

namespace Index

/-- What parsing comes to: a request that cannot be handed over makes no call, and a unit is only
used if the status says that all went well. -/
inductive Parsing (i : Pointer) (r : ParseRequest) :
    List Exchange → Except Failure TranslationUnit → Prop where
  | refused {failure : Failure} (h : ParseCall.ofRequest r = .error failure) :
      Parsing i r [] (.error failure)
  | parsed {p : ParseCall} {answer : ParseAnswer} {u : TranslationUnit}
      (hp : ParseCall.ofRequest r = .ok p) (h : answer.status = 0) (hunit : answer.unit = some u) :
      Parsing i r [⟨.parse i p.source p.args p.unsaved ⟨r.flags.bits⟩, answer⟩] (.ok u)
  | unitless {p : ParseCall} {answer : ParseAnswer} (hp : ParseCall.ofRequest r = .ok p)
      (h : answer.status = 0) (hunit : answer.unit = none) :
      Parsing i r [⟨.parse i p.source p.args p.unsaved ⟨r.flags.bits⟩, answer⟩]
        (.error (.parse r.source (.named .failure)))
  | unparsed {p : ParseCall} {answer : ParseAnswer} (hp : ParseCall.ofRequest r = .ok p)
      (h : answer.status ≠ 0) :
      Parsing i r (⟨.parse i p.source p.args p.unsaved ⟨r.flags.bits⟩, answer⟩ ::
          answer.unit.toList.map fun u => ⟨.release (.unit u), ()⟩)
        (.error (.parse r.source (.ofCode answer.status)))

variable {i : Pointer} {r : ParseRequest} {parsed : Except Failure TranslationUnit}

theorem parse_reaches (h : (parse i r).Reaches calls parsed) : Parsing i r calls parsed := by
  unfold parse at h
  cases hp : ParseCall.ofRequest r with
  | error failure =>
    rw [hp] at h
    obtain ⟨rfl, rfl⟩ := h
    exact .refused hp
  | ok p =>
    rw [hp] at h
    obtain ⟨⟨status, unit⟩, more, rfl, hmade⟩ := Reaches.of_ask h
    by_cases hstatus : status = 0
    · have hcode : (Coded.ofCode status : Coded Status) = .named .success :=
        Status.ofCode_eq_success.mpr hstatus
      simp only [if_pos hcode] at hmade
      cases unit with
      | none =>
        obtain ⟨rfl, rfl⟩ := hmade
        exact .unitless hp hstatus rfl
      | some u =>
        obtain ⟨rfl, rfl⟩ := hmade
        exact .parsed hp hstatus rfl
    · have hcode : ¬ (Coded.ofCode status : Coded Status) = .named .success :=
        mt Status.ofCode_eq_success.mp hstatus
      simp only [if_neg hcode] at hmade
      cases unit with
      | none =>
        obtain ⟨rfl, rfl⟩ := hmade
        exact .unparsed hp hstatus
      | some u =>
        obtain ⟨_, _, rfl, rfl, rfl⟩ := Reaches.of_ask hmade
        exact .unparsed hp hstatus

theorem parse_yields (i : Pointer) (r : ParseRequest) : (parse i r).Yields fun _ => True := by
  unfold parse
  split
  · exact yields_pure trivial
  · refine (yields_ask _).bind fun answer _ => ?_
    cases answer.unit with
    | none => exact yields_pure trivial
    | some u =>
      dsimp only
      split
      · exact yields_pure trivial
      · exact (yields_ask _).bind fun _ _ => yields_pure trivial

end Index

/-! ## Completing -/

/-- The call by which results are put in order, if there are any. -/
def Completions.sorting (set : Completions) (counted : CompletionArray) : List Exchange :=
  if 0 < counted.count then
    [⟨.sortResults (if counted.results.isSome then some set else none) counted.count, ()⟩]
  else []

theorem Completions.sort_reaches {set : Completions} (h : set.sort.Reaches calls ()) :
    ∃ counted, calls = ⟨.results set, counted⟩ :: set.sorting counted := by
  obtain ⟨counted, more, rfl, hsort⟩ := Reaches.of_ask h
  refine ⟨counted, congrArg (_ :: ·) ?_⟩
  unfold Completions.sorting
  split at hsort
  next hcount =>
    rw [if_pos hcount]
    obtain ⟨_, _, rfl, rfl, -⟩ := hsort
    rfl
  next hcount =>
    rw [if_neg hcount]
    exact hsort.1

namespace TranslationUnit

/-- What completing comes to; results are put in order before anything else is asked of them. -/
inductive Completing (u : TranslationUnit) (r : CompleteRequest) :
    List Exchange → Except Failure Completions → Prop where
  | refused {failure : Failure} (h : CompleteCall.ofRequest r = .error failure) :
      Completing u r [] (.error failure)
  | failed {c : CompleteCall} (hc : CompleteCall.ofRequest r = .ok c) :
      Completing u r [⟨.complete u c.file r.line r.column c.unsaved ⟨r.flags.bits⟩, none⟩]
        (.error (.completion r.file r.line r.column))
  | unsorted {c : CompleteCall} {set : Completions} (hc : CompleteCall.ofRequest r = .ok c)
      (h : r.sorted = false) :
      Completing u r [⟨.complete u c.file r.line r.column c.unsaved ⟨r.flags.bits⟩, some set⟩]
        (.ok set)
  | sorted {c : CompleteCall} {set : Completions} {counted : CompletionArray}
      (hc : CompleteCall.ofRequest r = .ok c) (h : r.sorted = true) :
      Completing u r (⟨.complete u c.file r.line r.column c.unsaved ⟨r.flags.bits⟩, some set⟩ ::
          ⟨.results set, counted⟩ :: set.sorting counted)
        (.ok set)

theorem complete_reaches {u : TranslationUnit} {r : CompleteRequest}
    {completed : Except Failure Completions} (h : (u.complete r).Reaches calls completed) :
    Completing u r calls completed := by
  unfold complete at h
  cases hc : CompleteCall.ofRequest r with
  | error failure =>
    rw [hc] at h
    obtain ⟨rfl, rfl⟩ := h
    exact .refused hc
  | ok c =>
    rw [hc] at h
    obtain ⟨answer, more, rfl, hmade⟩ := Reaches.of_ask h
    cases answer with
    | none =>
      obtain ⟨rfl, rfl⟩ := hmade
      exact .failed hc
    | some set =>
      dsimp only at hmade
      split at hmade
      next hsorted =>
        obtain ⟨_, before, after, rfl, hsort, rfl, rfl⟩ := hmade.of_bind
        obtain ⟨counted, rfl⟩ := Completions.sort_reaches hsort
        rw [List.append_nil]
        exact .sorted hc hsorted
      next hsorted =>
        obtain ⟨rfl, rfl⟩ := hmade
        exact .unsorted hc (by simpa using hsorted)

/-- A set that was asked for in order is put in order. -/
theorem Completing.of_sorted {u : TranslationUnit} {r : CompleteRequest} {set : Completions}
    (h : u.Completing r calls (.ok set)) (hsorted : r.sorted = true) : ∃ file unsaved counted,
      calls = ⟨.complete u file r.line r.column unsaved ⟨r.flags.bits⟩, some set⟩ ::
        ⟨.results set, counted⟩ :: set.sorting counted := by
  cases h with
  | unsorted _ hunsorted => cases hsorted.symm.trans hunsorted
  | sorted => exact ⟨_, _, _, rfl⟩

end TranslationUnit

/-! ## Commands -/

namespace Command

variable {body : Index.Pointer → TranslationUnit → Dialogue (Except Failure α)}
  {result : Except Failure α}

/-- What is done in an index: the file is parsed and, if there is a unit, something is made of it
before it is released. -/
inductive Using (request : ParseRequest)
    (body : Index.Pointer → TranslationUnit → Dialogue (Except Failure α)) (i : Index.Pointer) :
    List Exchange → Except Failure α → Prop where
  | failed {calls : List Exchange} {failure : Failure}
      (h : Index.Parsing i request calls (.error failure)) :
      Using request body i calls (.error failure)
  | used {before inner : List Exchange} {u : TranslationUnit} {result : Except Failure α}
      (h : Index.Parsing i request before (.ok u)) (hbody : (body i u).Reaches inner result) :
      Using request body i (before ++ inner ++ [⟨.release (.unit u), ()⟩]) result

theorem withUnit_reaches {request : ParseRequest}
    (h : (withUnit request body).Reaches calls result) : ∃ index inner,
      calls = ⟨.createIndex 0 0, index⟩ :: inner ++ [⟨.release (.index index), ()⟩] ∧
        Using request body index inner result := by
  obtain ⟨index, _, rfl, hindex⟩ := Reaches.of_ask h
  obtain ⟨inner, rfl, hinner⟩ := hindex.of_releasing
  refine ⟨index, inner, rfl, ?_⟩
  obtain ⟨parsed, before, _, rfl, hparsed, hunit⟩ := hinner.of_bind
  have hparsing := Index.parse_reaches hparsed
  cases parsed with
  | error failure =>
    obtain ⟨rfl, rfl⟩ := hunit
    rw [List.append_nil]
    exact .failed hparsing
  | ok u =>
    obtain ⟨made, rfl, hmade⟩ := hunit.of_releasing
    rw [← List.append_assoc]
    exact .used hparsing hmade

/-- How a file is opened and closed around what is made of its unit. -/
inductive Opened (around : Surroundings) (file : Path) (args : List String) (index : Index.Pointer)
    (u : TranslationUnit) : List Exchange → List Exchange → Prop where
  | intro {r : ParseRequest} {p : ParseCall} {answer : ParseAnswer}
      (hr : ParseRequest.forFile around.canonical file args around.database = .ok r)
      (hp : ParseCall.ofRequest r = .ok p) (hstatus : answer.status = 0)
      (hunit : answer.unit = some u) :
      Opened around file args index u
        [⟨.createIndex 0 0, index⟩, ⟨.parse index p.source p.args p.unsaved ⟨r.flags.bits⟩, answer⟩]
        [⟨.release (.unit u), ()⟩, ⟨.release (.index index), ()⟩]

/-- A command that succeeds has made something of a unit. -/
theorem onFile_reaches {around : Surroundings} {file : Path} {args : List String} {a : α}
    (h : (onFile around file args body).Reaches calls (.ok a)) :
    ∃ index u before inner after, calls = before ++ inner ++ after ∧
      Opened around file args index u before after ∧ (body index u).Reaches inner (.ok a) := by
  unfold onFile at h
  cases hr : ParseRequest.forFile around.canonical file args around.database with
  | error fault =>
    rw [hr] at h
    cases h.2
  | ok r =>
    rw [hr] at h
    obtain ⟨index, _, rfl, husing⟩ := withUnit_reaches h
    cases husing with
    | @used _ inner u _ hparsing hbody =>
      cases hparsing with
      | parsed hp hstatus hunit =>
        exact ⟨index, u, _, inner, _, by simp, .intro hr hp hstatus hunit, hbody⟩

theorem withUnit_yields (request : ParseRequest)
    (h : ∀ i u, (body i u).Yields fun _ => True) :
    (withUnit request body).Yields fun _ => True := by
  refine (yields_ask _).bind fun i _ => .releasing ?_ _
  refine (Index.parse_yields i request).bind fun parsed _ => ?_
  cases parsed with
  | error failure => exact yields_pure trivial
  | ok u => exact (h i u).releasing _

end Command

end ClangLens
