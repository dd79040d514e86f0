import ClangLens.Command.Complete
import ClangLens.Proofs.Gathering
import ClangLens.Proofs.Listing.Outline

/-!
# Completion strings as trees

The pieces of a completion string are numbered, and what is to be known of a piece is asked for by
its number: the kind, the text, and for an optional piece the completion string it is. Where the
answers describe a finite tree, the text of the whole is a fold over the tree, and what a user types
and what a result is are found among the topmost pieces, whatever lies below them.
-/

namespace ClangLens

open Dialogue

variable {ι α L : Type} {library : Library L}

/-! ## Questions by number -/

namespace Dialogue

/-- What is found at the numbers from `k` on is what each of the items gives. -/
def Finds (library : Library L) (f : UInt32 → Dialogue (Option α)) (out : ι → Option α) (k : ℕ)
    (items : List ι) : Prop :=
  ∀ i t, items[i]? = some t → (f (.ofNat (k + i))).Tells library (out t)

variable {f : UInt32 → Dialogue (Option α)} {out : ι → Option α}

theorem Finds.rest {k : ℕ} {t : ι} {items : List ι} (h : Finds library f out k (t :: items)) :
    Finds library f out (k + 1) items := by
  intro i u hu
  rw [Nat.add_assoc, Nat.add_comm 1 i]
  exact h (i + 1) u hu

theorem Finds.collectFrom {k : ℕ} {items : List ι} (h : Finds library f out k items) :
    (collectFrom f (.ofNat k) items.length).Tells library (items.filterMap out) := by
  induction items generalizing k with
  | nil => exact tells_done _
  | cons t rest ih =>
    have hlist : (t :: rest).filterMap out = (out t).toList ++ rest.filterMap out := by
      rw [List.filterMap_cons]
      cases out t <;> rfl
    have hrest := ih h.rest
    rw [UInt32.ofNat_add, UInt32.ofNat_one] at hrest
    rw [List.length_cons, Dialogue.collectFrom, hlist]
    exact (h 0 t rfl).bind (hrest.bind (tells_done _))

theorem Finds.firstFrom {k : ℕ} {items : List ι} (h : Finds library f out k items) :
    (firstFrom f (.ofNat k) items.length).Tells library (items.findSome? out) := by
  induction items generalizing k with
  | nil => exact tells_done _
  | cons t rest ih =>
    rw [List.length_cons, Dialogue.firstFrom, List.findSome?_cons]
    refine (h 0 t rfl).bind ?_
    cases out t with
    | some a => exact tells_done _
    | none =>
      have hrest := ih h.rest
      rw [UInt32.ofNat_add, UInt32.ofNat_one] at hrest
      exact hrest

variable {n : UInt32} {items : List ι}

theorem finds_zero (h : ∀ i t, items[i]? = some t → (f (.ofNat i)).Tells library (out t)) :
    Finds library f out 0 items := by
  intro i t ht
  rw [Nat.zero_add]
  exact h i t ht

theorem collect_tells (hn : n.toNat = items.length)
    (h : ∀ i t, items[i]? = some t → (f (.ofNat i)).Tells library (out t)) :
    (collect n f).Tells library (items.filterMap out) := by
  rw [collect, hn]
  exact (finds_zero h).collectFrom

theorem first_tells (hn : n.toNat = items.length)
    (h : ∀ i t, items[i]? = some t → (f (.ofNat i)).Tells library (out t)) :
    (first n f).Tells library (items.findSome? out) := by
  rw [first, hn]
  exact (finds_zero h).firstFrom

end Dialogue

/-! ## Trees -/

/-- What the library says of a piece. -/
structure ChunkFacts where
  /-- The number of its kind. -/
  kind : UInt32
  text : String

namespace ChunkFacts

def chunkKind (f : ChunkFacts) : Coded ChunkKind := .ofCode f.kind

/-- What a piece adds to the text, with the text of the completion string that it may be. -/
def added (f : ChunkFacts) (nested : Option String) : Option String :=
  match f.chunkKind with
  | .named .optional => nested.map fun s => "[" ++ s ++ "]"
  | .named .informative | .named .resultType => none
  | _ => some f.text

/-- The text of the first piece of a kind. -/
def firstText? (kind : ChunkKind) (pieces : List ChunkFacts) : Option String :=
  (pieces.find? fun f => f.chunkKind = .named kind).map text

end ChunkFacts

/-- A piece by itself, or one that is a completion string with pieces of its own. -/
inductive ChunkTree where
  | leaf (facts : ChunkFacts)
  | nest (facts : ChunkFacts) (phrase : Phrase) (pieces : List ChunkTree)

namespace ChunkTree

def facts : ChunkTree → ChunkFacts
  | leaf facts | nest facts _ _ => facts

/-- The completion string that a piece is. -/
def phrase? : ChunkTree → Option Phrase
  | leaf _ => none
  | nest _ phrase _ => some phrase

def pieces : ChunkTree → List ChunkTree
  | leaf _ => []
  | nest _ _ pieces => pieces

mutual

/-- What a piece adds to the text. -/
def shown : ChunkTree → Option String
  | leaf facts => facts.added none
  | nest facts _ pieces => facts.added (some (shownAll pieces))

/-- The text of pieces, one after another. -/
def shownAll : List ChunkTree → String
  | [] => ""
  | t :: rest => t.shown.getD "" ++ shownAll rest

end

mutual

/-- How many completion strings lie on the longest way down from a piece. -/
def height : ChunkTree → ℕ
  | leaf _ => 0
  | nest _ _ pieces => heightAll pieces + 1

def heightAll : List ChunkTree → ℕ
  | [] => 0
  | t :: rest => max t.height (heightAll rest)

end

theorem shown_eq (t : ChunkTree) :
    t.shown = t.facts.added (t.phrase?.map fun _ => shownAll t.pieces) := by
  cases t with
  | leaf facts => exact shown.eq_1 facts
  | nest facts phrase pieces => exact shown.eq_2 facts phrase pieces

theorem shownAll_eq (pieces : List ChunkTree) :
    shownAll pieces = String.join (pieces.filterMap shown) := by
  induction pieces with
  | nil => rfl
  | cons t rest ih =>
    rw [shownAll, ih, List.filterMap_cons]
    cases t.shown with
    | none => rw [Option.getD_none, String.empty_append]
    | some s => rw [Option.getD_some, String.join_cons]

theorem height_le_heightAll {t : ChunkTree} {pieces : List ChunkTree} (h : t ∈ pieces) :
    t.height ≤ heightAll pieces :=
  le_recursive_max (fun _ _ => by rw [heightAll]) h

theorem heightAll_pieces_lt {t : ChunkTree} {q : Phrase} (h : t.phrase? = some q) :
    heightAll t.pieces < t.height := by
  cases t with
  | leaf facts => cases h
  | nest facts phrase pieces =>
    rw [height]
    exact Nat.lt_succ_self _

end ChunkTree

/-! ## Libraries that hold a tree -/

namespace Phrase

/-- The library numbers pieces of a completion string, and says of each what it is. -/
structure Lists (library : Library L) (p : Phrase) (pieces : List ChunkFacts) : Prop where
  count : ∃ n : UInt32, p.numChunks.Tells library n ∧ n.toNat = pieces.length
  kind : ∀ i f, pieces[i]? = some f →
    (askNumber (.chunkKind p (.ofNat i))).Tells library f.kind
  text : ∀ i f, pieces[i]? = some f → (p.textAt (.ofNat i)).Tells library f.text

/-- The pieces of a completion string are the topmost of trees: the library lists them, and says
which completion strings the optional ones are and what is in those. -/
inductive Holds (library : Library L) : Phrase → List ChunkTree → Prop where
  | intro {p : Phrase} {pieces : List ChunkTree}
      (lists : p.Lists library (pieces.map ChunkTree.facts))
      (nested : ∀ i t, pieces[i]? = some t → t.facts.chunkKind = .named .optional →
        (ask (.chunkPhrase p (.ofNat i))).Tells library t.phrase?)
      (below : ∀ t ∈ pieces, t.facts.chunkKind = .named .optional →
        ∀ q, t.phrase? = some q → Holds library q t.pieces) : Holds library p pieces

variable {p : Phrase}

theorem Lists.kindAt {facts : List ChunkFacts} (h : p.Lists library facts) {i : ℕ} {f : ChunkFacts}
    (hf : facts[i]? = some f) : (p.kindAt (.ofNat i)).Tells library f.chunkKind :=
  (h.kind i f hf).bind (tells_done _)

/-- The topmost pieces alone decide which is the first of a kind. -/
theorem firstOfKind?_tells {facts : List ChunkFacts} (h : p.Lists library facts)
    (kind : ChunkKind) :
    (p.firstOfKind? kind).Tells library (ChunkFacts.firstText? kind facts) := by
  have hfirst : ChunkFacts.firstText? kind facts =
      facts.findSome? fun f => if f.chunkKind = .named kind then some f.text else none := by
    rw [ChunkFacts.firstText?, List.find?_eq_findSome?_guard, List.map_findSome?]
    refine congrArg (facts.findSome? ·) (funext fun f => ?_)
    by_cases hkind : f.chunkKind = .named kind <;> simp [Option.guard, hkind]
  obtain ⟨n, hcount, hn⟩ := h.count
  rw [hfirst]
  refine hcount.bind (first_tells hn fun i f hf => (h.kindAt hf).bind ?_)
  by_cases hkind : f.chunkKind = .named kind
  · rw [if_pos hkind, if_pos hkind]
    exact (h.text i f hf).bind (tells_done _)
  · rw [if_neg hkind, if_neg hkind]
    exact tells_done _

theorem chunkPhrase?_tells {n : UInt32} {i : ℕ} {q? : Option Phrase}
    (hcount : p.numChunks.Tells library n) (hi : i < n.toNat)
    (h : (ask (.chunkPhrase p (.ofNat i))).Tells library q?) :
    (p.chunkPhrase? (.ofNat i)).Tells library q? := by
  have hlt : UInt32.ofNat i < n := by rwa [UInt32.lt_iff_toNat_lt, toNat_of_lt hi]
  unfold chunkPhrase? atIndex
  refine hcount.bind ?_
  rw [if_pos hlt]
  exact h

/-- By induction on how deep one may go; what a piece adds is said kind by kind. -/
theorem text_tells {pieces : List ChunkTree} (h : p.Holds library pieces) {depth : ℕ}
    (hdepth : ChunkTree.heightAll pieces < depth) :
    (p.text depth).Tells library (ChunkTree.shownAll pieces) := by
  induction depth generalizing p pieces with
  | zero => exact absurd hdepth (Nat.not_lt_zero _)
  | succ depth ih =>
    obtain ⟨hlists, hnested, hbelow⟩ := h
    obtain ⟨n, hcount, hn⟩ := hlists.count
    rw [List.length_map] at hn
    rw [ChunkTree.shownAll_eq]
    refine hcount.bind ((collect_tells hn fun i t ht => ?_).bind (tells_done _))
    have hfacts : (pieces.map ChunkTree.facts)[i]? = some t.facts := by
      rw [List.getElem?_map, ht, Option.map_some]
    have htext : (do return some (← p.textAt (.ofNat i))).Tells library (some t.facts.text) :=
      (hlists.text i _ hfacts).bind (tells_done _)
    refine (hlists.kindAt hfacts).bind ?_
    rw [t.shown_eq, ChunkFacts.added]
    cases hkind : t.facts.chunkKind with
    | unknown code => exact htext
    | named kind =>
      cases kind with
      | informative => exact tells_done _
      | resultType => exact tells_done _
      | optional =>
        have hi : i < n.toNat := by
          rw [hn]
          exact (List.getElem?_eq_some_iff.mp ht).1
        refine (chunkPhrase?_tells hcount hi (hnested i t ht hkind)).bind ?_
        cases hphrase : t.phrase? with
        | none => exact tells_done _
        | some q =>
          have ht := List.mem_of_getElem? ht
          have hheight : ChunkTree.heightAll t.pieces < depth := by
            have htop := ChunkTree.height_le_heightAll ht
            have hpieces := ChunkTree.heightAll_pieces_lt hphrase
            omega
          exact (ih (hbelow t ht hkind q hphrase) hheight).bind (tells_done _)
      | _ => exact htext

end Phrase

/-! ## Scripts -/

namespace Script

variable (s : Script)

def ChunkRow.facts (r : ChunkRow) : ChunkFacts := ⟨r.kind, ForeignString.read r.text⟩

/-- The tree of a piece, with what is in completion strings. -/
def ChunkRow.tree (below : Phrase → List ChunkTree) (r : ChunkRow) : ChunkTree :=
  match r.phrase with
  | none => .leaf r.facts
  | some q => .nest r.facts q (below q)

theorem ChunkRow.tree_facts (below : Phrase → List ChunkTree) (r : ChunkRow) :
    (r.tree below).facts = r.facts := by
  unfold tree
  cases r.phrase <;> rfl

theorem ChunkRow.tree_phrase? (below : Phrase → List ChunkTree) (r : ChunkRow) :
    (r.tree below).phrase? = r.phrase := by
  unfold tree
  cases r.phrase <;> rfl

theorem ChunkRow.tree_pieces {below : Phrase → List ChunkTree} {r : ChunkRow} {q : Phrase}
    (h : r.phrase = some q) : (r.tree below).pieces = below q := by
  unfold tree
  rw [h]
  rfl

/-- The pieces of a completion string in a script, no deeper than `depth`. -/
def chunkTrees : ℕ → Phrase → List ChunkTree
  | 0, _ => []
  | depth + 1, p => (s.phraseRow p).chunks.map (ChunkRow.tree (chunkTrees depth))

/-- Whether the pieces can be counted and none lies deeper than `depth`. -/
def phraseEndsWithin : ℕ → Phrase → Bool
  | 0, p => (s.phraseRow p).chunks.isEmpty
  | depth + 1, p => (s.phraseRow p).chunks.length < UInt32.size &&
    (s.phraseRow p).chunks.all fun r => r.phrase.all (phraseEndsWithin depth)

variable {s} in
theorem chunkRow_of_row {p : Phrase} {i : ℕ} {r : ChunkRow}
    (h : (s.phraseRow p).chunks.length < UInt32.size)
    (hr : (s.phraseRow p).chunks[i]? = some r) : s.chunkRow p (.ofNat i) = r := by
  have hi := (List.getElem?_eq_some_iff.mp hr).1
  rw [chunkRow, UInt32.toNat_ofNat_of_lt' (hi.trans h), hr, Option.getD_some]

theorem phrase_lists {p : Phrase} (h : (s.phraseRow p).chunks.length < UInt32.size) :
    p.Lists s.library ((s.phraseRow p).chunks.map ChunkRow.facts) where
  count := by
    refine ⟨count (s.phraseRow p).chunks, fun m => ⟨m, rfl⟩, ?_⟩
    rw [List.length_map]
    exact UInt32.toNat_ofNat_of_lt' h
  kind i f hf := by
    rw [List.getElem?_map, Option.map_eq_some_iff] at hf
    obtain ⟨r, hr, rfl⟩ := hf
    rw [← chunkRow_of_row h hr]
    exact fun m => ⟨m, rfl⟩
  text i f hf := by
    rw [List.getElem?_map, Option.map_eq_some_iff] at hf
    obtain ⟨r, hr, rfl⟩ := hf
    rw [← chunkRow_of_row h hr]
    exact s.askText_tells _

/-- A script whose completion strings end holds what is in them. -/
theorem chunkTrees_held {depth : ℕ} {p : Phrase} (h : s.phraseEndsWithin depth p) :
    p.Holds s.library (s.chunkTrees depth p) := by
  induction depth generalizing p with
  | zero =>
    have hempty : (s.phraseRow p).chunks = [] := by simpa [phraseEndsWithin] using h
    have hlists := s.phrase_lists (p := p) (by rw [hempty]; decide)
    rw [hempty] at hlists
    exact .intro hlists (by simp [chunkTrees]) (by simp [chunkTrees])
  | succ depth ih =>
    rw [phraseEndsWithin, Bool.and_eq_true, decide_eq_true_eq, List.all_eq_true] at h
    obtain ⟨hshort, hends⟩ := h
    rw [chunkTrees]
    refine .intro ?_ (fun i t ht _ => ?_) (List.forall_mem_map.mpr fun r hr _ q hq => ?_)
    · rw [List.map_map]
      have hfacts : ChunkTree.facts ∘ ChunkRow.tree (s.chunkTrees depth) = ChunkRow.facts :=
        funext (ChunkRow.tree_facts _)
      rw [hfacts]
      exact s.phrase_lists hshort
    · rw [List.getElem?_map, Option.map_eq_some_iff] at ht
      obtain ⟨r, hr, rfl⟩ := ht
      rw [ChunkRow.tree_phrase?, ← chunkRow_of_row hshort hr]
      exact fun m => ⟨m, rfl⟩
    · rw [ChunkRow.tree_phrase?] at hq
      rw [ChunkRow.tree_pieces hq]
      have hend := hends r hr
      rw [hq] at hend
      exact ih hend

end Script

/-! ## Entries -/

namespace Command

/-- **Completion strings.** Where the library holds trees of pieces in a completion string, the text
of the string is that of the trees, one after another. Its topmost pieces alone say what a user
types and what the result is, and the entry of the result has all three. -/
theorem completion_recursive (library : Library L) (p : Phrase) (pieces : List ChunkTree)
    (h : p.Holds library pieces) (depth : ℕ) (hdepth : ChunkTree.heightAll pieces < depth) :
    (p.text depth).Tells library (ChunkTree.shownAll pieces) ∧
      ChunkTree.shownAll pieces = String.join (pieces.filterMap ChunkTree.shown) ∧
      (∀ tops, p.Lists library tops →
        p.typedText?.Tells library (ChunkFacts.firstText? .typedText tops) ∧
          (p.firstOfKind? .resultType).Tells library (ChunkFacts.firstText? .resultType tops)) ∧
      ∀ kind l, ∃ entry l', (completionEntry depth kind p).run library l = (some entry, l') ∧
        entry.text = ChunkTree.shownAll pieces ∧
        entry.typedText =
          (ChunkFacts.firstText? .typedText (pieces.map ChunkTree.facts)).getD "" ∧
        entry.resultType = ChunkFacts.firstText? .resultType (pieces.map ChunkTree.facts) := by
  have htext := Phrase.text_tells h hdepth
  have hlists : p.Lists library (pieces.map ChunkTree.facts) := by
    obtain ⟨hlists, -, -⟩ := h
    exact hlists
  refine ⟨htext, ChunkTree.shownAll_eq pieces, fun tops htops =>
    ⟨Phrase.firstOfKind?_tells htops _, Phrase.firstOfKind?_tells htops _⟩, fun kind l => ?_⟩
  obtain ⟨l₁, hresult⟩ := Phrase.firstOfKind?_tells hlists .resultType l
  obtain ⟨l₂, htyped⟩ := Phrase.firstOfKind?_tells hlists .typedText l₁
  obtain ⟨l₃, htext⟩ := htext l₂
  unfold completionEntry Phrase.typedText?
  rw [bind_eq, run_bind hresult, bind_eq, run_bind htyped, bind_eq, run_bind htext]
  -- The questions that are left come to a value whatever is answered.
  refine Yields.exists_run ?_ library l₃
  intro _priority _availability _string _bytes _released
  exact ⟨rfl, rfl, rfl⟩

/-- A typed text and a result type below an optional piece, an optional piece that is nothing, and
a piece of a kind without a name. -/
def nestedPhrases : Script where
  phrases := [
    { chunks := [
        { kind := 15, text := some [105, 110, 116] }, { kind := 0, phrase := some ⟨1⟩ },
        { kind := 1, text := some [102] }, { kind := 6, text := some [40] }, { kind := 0 },
        { kind := 77, text := some [63] }, { kind := 7, text := some [41] },
        { kind := 4, text := some [99] }] },
    { chunks := [
        { kind := 1, text := some [110] }, { kind := 15, text := some [118] },
        { kind := 0, phrase := some ⟨2⟩ }] },
    { chunks := [{ kind := 4, text := some [121] }, { kind := 3, text := some [120] }] }]

theorem nestedPhrases_completed :
    (⟨0⟩ : Phrase).Holds nestedPhrases.library (nestedPhrases.chunkTrees 3 ⟨0⟩) ∧
      ChunkTree.heightAll (nestedPhrases.chunkTrees 3 ⟨0⟩) < 4 ∧
      (∃ m', (Phrase.text 4 ⟨0⟩).run nestedPhrases.library {} = (some "[n[x]]f(?)", m')) ∧
      ∃ entry m', (completionEntry 4 (.named .functionDecl) ⟨0⟩).run nestedPhrases.library {} =
        (some entry, m') ∧
        entry.text = "[n[x]]f(?)" ∧ entry.typedText = "f" ∧ entry.resultType = some "int" := by
  have hholds : (⟨0⟩ : Phrase).Holds nestedPhrases.library (nestedPhrases.chunkTrees 3 ⟨0⟩) :=
    nestedPhrases.chunkTrees_held (by decide +kernel)
  have hheight : ChunkTree.heightAll (nestedPhrases.chunkTrees 3 ⟨0⟩) < 4 := by decide +kernel
  have htext : ChunkTree.shownAll (nestedPhrases.chunkTrees 3 ⟨0⟩) = "[n[x]]f(?)" := by
    decide +kernel
  have htyped : (ChunkFacts.firstText? .typedText
      ((nestedPhrases.chunkTrees 3 ⟨0⟩).map ChunkTree.facts)).getD "" = "f" := by decide +kernel
  have hresult : ChunkFacts.firstText? .resultType
      ((nestedPhrases.chunkTrees 3 ⟨0⟩).map ChunkTree.facts) = some "int" := by decide +kernel
  obtain ⟨hrun, -, -, hentry⟩ :=
    completion_recursive nestedPhrases.library ⟨0⟩ _ hholds 4 hheight
  rw [htext] at hrun hentry
  rw [htyped, hresult] at hentry
  exact ⟨hholds, hheight, hrun {}, hentry _ {}⟩

end Command

end ClangLens
