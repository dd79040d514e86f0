import ClangLens.Proofs.Custody.Commands
import ClangLens.Proofs.Gathering
import ClangLens.Proofs.Handover
import ClangLens.Proofs.Opening
import ClangLens.Proofs.Project.Resolving

/-!
# Requests that are refused

A command checks its file and its arguments before it asks the library for anything, so a fault in
these is reported whatever the library would answer, and no call is made. Completion checks the
position only when the file is parsed: a fault in the position is reported behind the calls for
that, and not at all if there is no unit.
-/

namespace ClangLens

open Dialogue
open Request (hasNul)

variable {α β L : Type} {library : Library L} {l : L} {calls : List Exchange}

/-! ## Results without a fault -/

/-- Anything but a fault of a request. -/
def Unfaulted (result : Except Failure α) : Prop := ∀ fault, result ≠ .error (.request fault)

theorem unfaulted_ok (a : α) : Unfaulted (.ok a) := by
  intro fault h
  cases h

theorem unfaulted_of_isRefusal {failure : Failure} (h : failure.isRefusal) :
    Unfaulted (.error failure : Except Failure α) := by
  intro fault heq
  cases heq
  cases h

theorem Unfaulted.cast {failure : Failure} (h : Unfaulted (.error failure : Except Failure α)) :
    Unfaulted (.error failure : Except Failure β) :=
  fun fault heq => h fault (congrArg Except.error (Except.error.inj heq))

/-- Whatever is answered, no fault of a request comes out. -/
def Dialogue.Faultless (d : Dialogue (Except Failure α)) : Prop :=
  ∀ calls result, d.Reaches calls result → Unfaulted result

namespace Dialogue.Faultless

variable {d : Dialogue (Except Failure α)}

theorem of_unfaulted {result : Except Failure α} (h : Unfaulted result) :
    (pure result : Dialogue (Except Failure α)).Faultless := by
  rintro calls _ ⟨-, rfl⟩
  exact h

/-- What is made of any value is what counts. -/
theorem after {c : Dialogue β} {f : β → Dialogue (Except Failure α)}
    (h : ∀ b, (f b).Faultless) : (c >>= f).Faultless := by
  intro calls result hresult
  obtain ⟨b, _, _, -, -, hf⟩ := hresult.of_bind
  exact h b _ _ hf

theorem run_ne (h : d.Faultless) (fault : RequestFault) :
    (d.run library l).1 ≠ some (.error (.request fault)) := by
  intro hrun
  exact h _ _ (reaches_of_run (Prod.ext hrun rfl)) fault rfl

end Dialogue.Faultless

/-! ## Asking the library -/

theorem Index.Parsing.unfaulted {i : Index.Pointer} {r : ParseRequest} {failure : Failure}
    (h : Index.Parsing i r calls (.error failure)) :
    Unfaulted (.error failure : Except Failure α) := by
  cases h with
  | refused h =>
    have hdecides := ParseCall.ofRequest_decides r
    rw [h] at hdecides
    exact unfaulted_of_isRefusal hdecides.of_error.2
  | unitless => simp [Unfaulted]
  | unparsed => simp [Unfaulted]

theorem TranslationUnit.Completing.unfaulted {u : TranslationUnit} {r : CompleteRequest}
    {failure : Failure} (h : u.Completing r calls (.error failure)) :
    Unfaulted (.error failure : Except Failure α) := by
  cases h with
  | refused h =>
    have hdecides := CompleteCall.ofRequest_decides r
    rw [h] at hdecides
    exact unfaulted_of_isRefusal hdecides.of_error.2
  | failed => simp [Unfaulted]

theorem IndexAction.index_unfaulted {σ : Type} {logged : Bool} {a : IndexAction.Pointer}
    {u : TranslationUnit} {flags : IndexingFlags} {consumer : Consumer σ Empty} {s s' : σ}
    {result : Except Failure Unit}
    (h : (IndexAction.index logged a u flags consumer s).Reaches calls (s', .ok result)) :
    Unfaulted result := by
  obtain ⟨_, _, _, -, -, h⟩ := h.of_bind
  obtain ⟨_, _, -, h⟩ := Reaches.of_ask h
  obtain ⟨⟨_, outcome⟩, _, _, -, -, h⟩ := h.of_bind
  cases outcome with
  | error panic => exact panic.elim
  | ok code =>
    obtain ⟨-, heq⟩ := h
    cases heq
    dsimp only
    split
    · exact unfaulted_ok ()
    · simp [Unfaulted]

namespace Command

/-! ## Commands on a unit -/

theorem withUnit_faultless {request : ParseRequest}
    {body : Index.Pointer → TranslationUnit → Dialogue (Except Failure α)}
    (h : ∀ i u, (body i u).Faultless) : (withUnit request body).Faultless := by
  intro calls result hresult
  obtain ⟨i, inner, -, husing⟩ := withUnit_reaches hresult
  cases husing with
  | failed hparsing => exact hparsing.unfaulted
  | used _ hbody => exact h _ _ _ _ hbody

theorem referencesOf_faultless (logged : Bool) (file : Path) (i : Index.Pointer)
    (u : TranslationUnit) : (referencesOf logged file i u).Faultless := by
  refine .after fun action calls result hresult => ?_
  obtain ⟨⟨found, outcome⟩, _, _, -, hindex, hresult⟩ := hresult.of_bind
  obtain ⟨_, -, hindex⟩ := hindex.of_releasing
  match outcome with
  | .ok (.ok ()) =>
    obtain ⟨-, rfl⟩ := hresult
    exact unfaulted_ok _
  | .ok (.error failure) =>
    obtain ⟨-, rfl⟩ := hresult
    exact (IndexAction.index_unfaulted hindex).cast

/-! ## Faults of a request -/

/-- What is wrong with the file of a command or with the arguments it comes to. -/
inductive Faulty (around : Surroundings) (file : Path) (args : List String) :
    RequestFault → Prop where
  | path {fault : RequestFault} (h : file.Unusable fault) : Faulty around file args fault
  | arguments (hpath : file.IsUsable)
      (h : ∃ a ∈ (resolveArguments around.canonical file args around.database).1,
        hasNul a = true) :
      Faulty around file args (Request.nulInArguments
        (resolveArguments around.canonical file args around.database).1)

variable {around : Surroundings} {file : Path} {args : List String} {fault : RequestFault}

theorem forFile_eq_error_iff :
    ParseRequest.forFile around.canonical file args around.database = .error fault ↔
      Faulty around file args fault := by
  generalize hargs : (resolveArguments around.canonical file args around.database).1 = resolved
  have hall : ParseRequest.allArgs [.source file, .args resolved] = resolved := by
    simp [ParseRequest.allArgs, ParseRequest.Step.addedArgs]
  rw [ParseRequest.forFile, hargs, ParseRequest.ofSteps_eq_iff]
  constructor
  · intro h
    cases h with
    | sourceless h => cases h
    | badPath h hbad =>
      cases h
      exact .path hbad
    | badArguments h hpath hbad =>
      cases h
      rw [hall, ← hargs] at hbad ⊢
      exact .arguments hpath hbad
  · intro h
    cases h with
    | path h => exact .badPath rfl h
    | arguments hpath h =>
      rw [hargs] at h ⊢
      rw [← hall] at h
      simpa only [hall] using ParseRequest.Amounts.badArguments rfl hpath h

/-- A request that is built can be handed over. -/
theorem exists_parseCall {r : ParseRequest}
    (h : ParseRequest.forFile around.canonical file args around.database = .ok r) :
    ∃ p, ParseCall.ofRequest r = .ok p := by
  obtain ⟨hpath, hargs, rfl⟩ := ParseRequest.forFile_eq_ok_iff.mp h
  exact (ParseCall.ofRequest_decides _).accepts ⟨hpath.fits, hargs, List.forall_mem_nil _⟩

/-! ## Refusing first -/

/-- A fault comes out and the library is not called. -/
structure RefusedUncalled (library : Library L) (l : L) (d : Dialogue (Except Failure α))
    (fault : RequestFault) : Prop where
  run : d.run library l = (some (.error (.request fault)), l)
  uncalled : d.trace library l = []

/-- Those faults come out that there are, and then the library is not called. -/
structure RefusesFirst (library : Library L) (l : L) (d : Dialogue (Except Failure α))
    (faults : RequestFault → Prop) : Prop where
  reported : ∀ fault, (d.run library l).1 = some (.error (.request fault)) ↔ faults fault
  uncalled : ∀ fault, faults fault → RefusedUncalled library l d fault

theorem onFile_refused {body : Index.Pointer → TranslationUnit → Dialogue (Except Failure α)}
    (h : Faulty around file args fault) :
    RefusedUncalled library l (onFile around file args body) fault := by
  unfold onFile
  rw [forFile_eq_error_iff.mpr h]
  exact ⟨rfl, rfl⟩

theorem onFile_refusesFirst {body : Index.Pointer → TranslationUnit → Dialogue (Except Failure α)}
    (h : file.IsUsable → ∀ i u, (body i u).Faultless) :
    RefusesFirst library l (onFile around file args body) (Faulty around file args) := by
  refine ⟨fun fault => ⟨fun hrun => ?_, fun hfault => ?_⟩, fun fault => onFile_refused⟩
  · rw [← forFile_eq_error_iff]
    unfold onFile at hrun
    cases hrequest : ParseRequest.forFile around.canonical file args around.database with
    | error other =>
      rw [hrequest] at hrun
      cases hrun
      rfl
    | ok r =>
      rw [hrequest] at hrun
      have hpath := (ParseRequest.forFile_eq_ok_iff.mp hrequest).1
      exact absurd hrun ((withUnit_faultless (h hpath)).run_ne fault)
  · rw [(onFile_refused hfault).run]

/-! ## Refusing late -/

variable {o : CompleteOptions}

theorem completeRequest_of_position (hpath : o.file.IsUsable) (hline : o.line ≠ 0)
    (hcolumn : o.column ≠ 0) : ∃ r, completeRequest o = .ok r :=
  ⟨_, CompleteRequest.ofSteps_eq_iff.mpr (.built rfl rfl hpath hline hcolumn)⟩

theorem completeRequest_of_no_position (hpath : o.file.IsUsable)
    (h : o.line = 0 ∨ o.column = 0) :
    completeRequest o = .error (CompleteRequest.noPosition o.line o.column) :=
  CompleteRequest.ofSteps_eq_iff.mpr (.badPosition rfl rfl hpath h)

theorem complete_refusesFirst (depth : Nat) (hline : o.line ≠ 0) (hcolumn : o.column ≠ 0) :
    RefusesFirst library l (complete depth around o) (Faulty around o.file o.args) := by
  refine onFile_refusesFirst fun hpath i u => ?_
  obtain ⟨r, hr⟩ := completeRequest_of_position hpath hline hcolumn
  rw [hr]
  intro calls result hresult
  obtain ⟨completed, _, _, -, hcompleted, hreport⟩ := Reaches.of_bind hresult
  cases completed with
  | error failure =>
    obtain ⟨-, rfl⟩ := hreport
    exact (TranslationUnit.complete_reaches hcompleted).unfaulted
  | ok set =>
    obtain ⟨report, _, _, -, -, -, rfl⟩ := hreport.of_bind
    exact unfaulted_ok report

/-- How a command with a position that is none ends, by the answer to parsing its file. -/
inductive Belated (o : CompleteOptions) (answer : ParseAnswer) : Failure → Prop where
  | unparsed (h : answer.status ≠ 0) :
      Belated o answer (.parse o.file (.ofCode answer.status))
  | unitless (h : answer.status = 0) (hunit : answer.unit = none) :
      Belated o answer (.parse o.file (.named .failure))
  | parsed (h : answer.status = 0) (hunit : answer.unit.isSome) :
      Belated o answer (.request (CompleteRequest.noPosition o.line o.column))

/-- The file is parsed, what was handed out for that is released, and the command has failed. -/
structure RefusesLate (o : CompleteOptions) (p : ParseCall) (index : Index.Pointer)
    (answer : ParseAnswer) (calls : List Exchange) (result : Except Failure α) : Prop where
  calls : calls =
    [⟨.createIndex 0 0, index⟩,
      ⟨.parse index p.source p.args p.unsaved ⟨ParseFlags.keepGoing.bits⟩, answer⟩] ++
      answer.unit.toList.map (fun u => ⟨.release (.unit u), ()⟩) ++
      [⟨.release (.index index), ()⟩]
  ended : ∃ failure, result = .error failure ∧ Belated o answer failure

/-- A file that is not parsed ends the command as the answer says. -/
theorem belated_of_parsing {i : Index.Pointer} {r : ParseRequest} {p : ParseCall}
    {failure : Failure} (hsource : r.source = o.file) (hp : ParseCall.ofRequest r = .ok p)
    (h : Index.Parsing i r calls (.error failure)) : ∃ answer,
      calls = ⟨.parse i p.source p.args p.unsaved ⟨r.flags.bits⟩, answer⟩ ::
        answer.unit.toList.map (fun u => ⟨.release (.unit u), ()⟩) ∧ Belated o answer failure := by
  cases h with
  | refused h => cases hp.symm.trans h
  | unitless hp' h hunit =>
    cases hp.symm.trans hp'
    rw [hsource]
    exact ⟨_, by rw [hunit]; rfl, .unitless h hunit⟩
  | unparsed hp' h =>
    cases hp.symm.trans hp'
    rw [hsource]
    exact ⟨_, rfl, .unparsed h⟩

theorem withUnit_refusesLate {r : ParseRequest} {p : ParseCall} (hsource : r.source = o.file)
    (hflags : r.flags = ParseFlags.keepGoing) (hp : ParseCall.ofRequest r = .ok p) :
    (withUnit r fun _ _ => pure (.error (.request (CompleteRequest.noPosition o.line o.column))) :
      Dialogue (Except Failure α)).Fits library l fun calls result =>
        ∃ index answer, RefusesLate o p index answer calls result := by
  obtain ⟨result, l', hrun, -⟩ :=
    (withUnit_yields r fun _ _ => yields_pure trivial).exists_run library l
  refine ⟨result, l', hrun, ?_⟩
  obtain ⟨index, inner, hcalls, husing⟩ := withUnit_reaches (reaches_of_run hrun)
  rw [hcalls]
  cases husing with
  | failed hparsing =>
    obtain ⟨answer, rfl, hbelated⟩ := belated_of_parsing hsource hp hparsing
    exact ⟨index, answer, by rw [hflags]; rfl, _, rfl, hbelated⟩
  | used hparsing hbody =>
    obtain ⟨rfl, rfl⟩ := hbody
    cases hparsing with
    | parsed hp' h hunit =>
      cases hp.symm.trans hp'
      exact ⟨index, _, by rw [hunit, hflags]; rfl, _, rfl, .parsed h (by rw [hunit]; rfl)⟩

theorem complete_refusesLate (depth : Nat) (h : o.line = 0 ∨ o.column = 0)
    (hfaults : ∀ fault, ¬ Faulty around o.file o.args fault) :
    (complete depth around o).Fits library l fun calls result => ∃ r p index answer,
      ParseRequest.forFile around.canonical o.file o.args around.database = .ok r ∧
        ParseCall.ofRequest r = .ok p ∧ RefusesLate o p index answer calls result := by
  cases hrequest : ParseRequest.forFile around.canonical o.file o.args around.database with
  | error fault => exact absurd (forFile_eq_error_iff.mp hrequest) (hfaults fault)
  | ok r =>
    obtain ⟨p, hp⟩ := exists_parseCall hrequest
    obtain ⟨hpath, -, hr⟩ := ParseRequest.forFile_eq_ok_iff.mp hrequest
    unfold complete onFile
    rw [hrequest, completeRequest_of_no_position hpath h]
    refine Fits.mono (withUnit_refusesLate (congrArg _ hr) (congrArg _ hr) hp) ?_
    rintro calls result ⟨index, answer, hlate⟩
    exact ⟨r, p, index, answer, rfl, hp, hlate⟩

/-- **Refusals.** Whatever the library would answer, a path or an argument that is at fault is
reported without a call, and nothing else is reported as a fault, except by completion at a position
that is none. That is reported only behind the calls that parse the file and release what they gave,
and if parsing fails it is not reported. -/
theorem refusals_placed (library : Library L) (l : L) (depth : Nat) (around : Surroundings)
    (file : Path) (args : List String) (o : CompleteOptions) :
    RefusesFirst library l (diagnostics around file args) (Faulty around file args) ∧
      RefusesFirst library l (references around file args) (Faulty around file args) ∧
      RefusesFirst library l (outline depth around file args) (Faulty around file args) ∧
      (o.line ≠ 0 → o.column ≠ 0 →
        RefusesFirst library l (complete depth around o) (Faulty around o.file o.args)) ∧
      (o.line = 0 ∨ o.column = 0 →
        (∀ fault, Faulty around o.file o.args fault →
          RefusedUncalled library l (complete depth around o) fault) ∧
        ((∀ fault, ¬ Faulty around o.file o.args fault) →
          (complete depth around o).Fits library l fun calls result => ∃ r p index answer,
            ParseRequest.forFile around.canonical o.file o.args around.database = .ok r ∧
              ParseCall.ofRequest r = .ok p ∧ RefusesLate o p index answer calls result)) := by
  refine ⟨onFile_refusesFirst fun _ _ _ => .after fun _ => .of_unfaulted (unfaulted_ok _),
    onFile_refusesFirst fun _ => referencesOf_faultless around.logged file,
    onFile_refusesFirst fun _ _ _ => .after fun _ => .after fun _ => .of_unfaulted (unfaulted_ok _),
    complete_refusesFirst depth,
    fun h => ⟨fun fault hfault => onFile_refused hfault, complete_refusesLate depth h⟩⟩

/-- A place that is none in a file that can be parsed. -/
def nowhere : CompleteOptions := { sampleOptions with line := 0 }

theorem nowhere_refused :
    (complete 3 sampleAround nowhere).Fits (Script.library {}) {} (fun calls result =>
        ∃ r p index answer, ParseRequest.forFile sampleAround.canonical sampleFile [] none = .ok r ∧
          ParseCall.ofRequest r = .ok p ∧
            RefusesLate nowhere p index answer calls result) ∧
      RefusesFirst (Script.library {}) {} (complete 3 sampleAround sampleOptions)
        (Faulty sampleAround sampleFile []) ∧
      RefusedUncalled (Script.library {}) {}
        (complete 3 sampleAround { nowhere with args := ["-D\x00"] })
        (Request.nulInArguments ["-D\x00"]) := by
  obtain ⟨-, -, -, -, hlate⟩ :=
    refusals_placed (Script.library {}) {} 3 sampleAround sampleFile [] nowhere
  obtain ⟨-, -, -, hfirst, -⟩ :=
    refusals_placed (Script.library {}) {} 3 sampleAround sampleFile [] sampleOptions
  obtain ⟨-, -, -, -, hnul⟩ :=
    refusals_placed (Script.library {}) {} 3 sampleAround sampleFile []
      { nowhere with args := ["-D\x00"] }
  have hunfaulty : ∀ fault, ¬ Faulty sampleAround sampleFile [] fault := by
    intro fault hfault
    have hbuilt : ParseRequest.forFile sampleAround.canonical sampleFile [] none = .ok _ :=
      ParseRequest.forFile_eq_ok_iff.mpr ⟨by decide +kernel, List.forall_mem_nil _, rfl⟩
    rw [← forFile_eq_error_iff] at hfault
    cases hbuilt.symm.trans hfault
  refine ⟨(hlate (.inl rfl)).2 hunfaulty, hfirst (by decide) (by decide),
    (hnul (.inl rfl)).1 _ (.arguments (by decide +kernel) (by decide +kernel))⟩

/-- A position that is none is not refused before the library is called. -/
theorem not_all_refusals_uncalled :
    ¬∀ o fault, ((complete 3 sampleAround o).run (Script.library {}) {}).1 =
        some (.error (.request fault)) →
      (complete 3 sampleAround o).trace (Script.library {}) {} = [] := by
  intro h
  have hcalls := h nowhere (CompleteRequest.noPosition 0 1) (by decide +kernel)
  have hlength : ((complete 3 sampleAround nowhere).trace (Script.library {}) {}).length = 4 := by
    decide +kernel
  rw [hcalls] at hlength
  cases hlength

end Command

end ClangLens
