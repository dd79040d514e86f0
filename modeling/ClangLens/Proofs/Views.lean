import ClangLens.Proofs.Spelling

/-!
# Views of a word

A word is seen as its spelling, as its unnamed bits and as the entries met on a walk through its
table. The spelling takes out single bits only, while the walk also meets names for no bit and for
several bits. The views agree where every other name is made of single bits named in front of it:
the walk then never stops at such a name, unless it names the whole word.
-/

namespace ClangLens

variable {w : Nat} {table : FlagTable w}

namespace Flags

/-! ## Tables built on single bits -/

/-- Every entry has a single bit, or only bits that were seen before it. -/
def Granular : BitVec w → List (FlagEntry w) → Prop
  | _, [] => True
  | seen, e :: more =>
    (isSingle e.value ∨ e.value &&& ~~~seen = 0) ∧ Granular (seen ||| e.value) more

instance instDecidableGranular : (seen : BitVec w) → (entries : List (FlagEntry w)) →
    Decidable (Granular seen entries)
  | _, [] => inferInstanceAs (Decidable True)
  | seen, e :: more =>
    have := instDecidableGranular (seen ||| e.value) more
    inferInstanceAs (Decidable ((_ ∨ _) ∧ _))

/-- The bits of entries, with those seen before. -/
def spanned (seen : BitVec w) (entries : List (FlagEntry w)) : BitVec w :=
  entries.foldl (fun acc e => acc ||| e.value) seen

/-- The entries met on the walk for a set. -/
def met (a : Flags table) : List (FlagEntry w) := (walk a.bits table.entries a.bits).1

/-- A single bit is in a word or is not. -/
theorem and_eq_self_or_zero {v : BitVec w} (hv : isSingle v) (x : BitVec w) :
    x &&& v = v ∨ x &&& v = 0 := by
  unfold isSingle at hv
  rw [Bool.and_eq_true, decide_eq_true_eq, decide_eq_true_eq] at hv
  obtain ⟨hne, hand⟩ := hv
  have hpos : v.toNat ≠ 0 := by
    intro h
    exact hne (BitVec.eq_of_toNat_eq (by simpa using h))
  have hone : (1 : BitVec w).toNat = 1 := by
    have hlt := v.isLt
    have hw : 0 < w := by
      rw [Nat.pos_iff_ne_zero]
      rintro rfl
      omega
    simpa using hw
  have hpow : v.toNat.isPowerOfTwo := by
    rw [← Nat.and_sub_one_eq_zero_iff_isPowerOfTwo hpos]
    have hle : 1 ≤ v := by
      rw [BitVec.le_def, hone]
      omega
    have h := congrArg BitVec.toNat hand
    rw [BitVec.toNat_and, BitVec.toNat_sub_of_le hle, hone] at h
    simpa using h
  obtain ⟨k, hk⟩ := hpow
  have hkw : k < w := by
    rw [← Nat.pow_lt_pow_iff_right (a := 2) (by omega), ← hk]
    exact v.isLt
  have hv : v = BitVec.twoPow w k := by
    apply BitVec.eq_of_toNat_eq
    rw [BitVec.toNat_twoPow_of_lt hkw, hk]
  rw [hv, BitVec.and_twoPow]
  split
  · exact .inl rfl
  · exact .inr rfl

/-! ## The walk and the spelling -/

theorem walk_zero (whole : BitVec w) (entries : List (FlagEntry w)) :
    walk whole entries 0 = ([], 0) := by
  cases entries with
  | nil => rfl
  | cons e more =>
    unfold walk
    rw [if_pos rfl]

/-- The walk meets entries in the order of the table. -/
theorem walk_sublist (whole : BitVec w) (entries : List (FlagEntry w)) (rest : BitVec w) :
    List.Sublist (walk whole entries rest).1 entries := by
  induction entries generalizing rest with
  | nil => exact List.Sublist.refl _
  | cons e more ih =>
    unfold walk
    split_ifs
    · exact List.nil_sublist _
    · exact (ih _).cons_cons e
    · exact (ih _).cons e

/-- What an entry does to the bits that are still there: a single bit is taken out if it is among
them, and any other entry has none of them. -/
theorem taken_or_apart (whole : BitVec w) {seen v : BitVec w} (h : isSingle v ∨ v &&& ~~~seen = 0) :
    (isSingle v ∧ (whole &&& ~~~seen) &&& v = v) ∨ (whole &&& ~~~seen) &&& v = 0 := by
  rcases h with hsingle | hseen
  · rcases and_eq_self_or_zero hsingle (whole &&& ~~~seen) with hin | hout
    · exact .inl ⟨hsingle, hin⟩
    · exact .inr hout
  · refine .inr ?_
    rw [BitVec.and_assoc, BitVec.and_comm (~~~seen), hseen]
    exact BitVec.and_zero

/-- Bits that are not there need not be taken out. -/
theorem and_not_of_apart {x v : BitVec w} (h : x &&& v = 0) : x &&& ~~~v = x := by
  ext i hi
  have hbit := congrArg (fun y : BitVec w => y[i]) h
  simp only [BitVec.getElem_and] at hbit
  simp only [BitVec.getElem_and, BitVec.getElem_not]
  cases hx : x[i] <;> cases hv : v[i] <;> simp_all

/-- **Step by step.** The spelling takes out what the walk meets, both leave the bits that no entry
has, and nothing is lost. -/
theorem singles_walk (whole : BitVec w) {seen : BitVec w} {entries : List (FlagEntry w)}
    (h : Granular seen entries) :
    ∃ met, walk whole entries (whole &&& ~~~seen) = (met, whole &&& ~~~spanned seen entries) ∧
      singles entries (whole &&& ~~~seen) =
        (met.map FlagEntry.spelling, whole &&& ~~~spanned seen entries) ∧
      join (met.map FlagEntry.value) ||| (whole &&& ~~~spanned seen entries) =
        whole &&& ~~~seen := by
  induction entries generalizing seen with
  | nil => exact ⟨[], rfl, rfl, BitVec.zero_or⟩
  | cons e more ih =>
    obtain ⟨hentry, hmore⟩ := h
    obtain ⟨met, hwalk, hsingles, hjoin⟩ := ih hmore
    have hnext : whole &&& ~~~(seen ||| e.value) = (whole &&& ~~~seen) &&& ~~~e.value := by
      rw [BitVec.not_or, BitVec.and_assoc]
    rw [hnext] at hwalk hsingles hjoin
    rcases taken_or_apart whole hentry with ⟨hsingle, hin⟩ | hout
    · -- a single bit that is there
      have hne : e.value ≠ 0 := by
        intro h0
        simp [isSingle, h0] at hsingle
      have hrest : whole &&& ~~~seen ≠ 0 := by
        intro h0
        rw [h0] at hin
        exact hne (hin.symm.trans BitVec.zero_and)
      have hwhole : whole &&& e.value = e.value := by
        rw [← hin, ← BitVec.and_assoc, ← BitVec.and_assoc, BitVec.and_self]
      refine ⟨e :: met, ?_, ?_, ?_⟩
      · unfold walk
        rw [if_neg hrest, if_pos (by simpa [hwhole, hin] using hne), hwalk]
        rfl
      · unfold singles
        rw [if_pos (by simp [hsingle, hin]), hsingles]
        rfl
      · calc join ((e :: met).map FlagEntry.value) ||| (whole &&& ~~~spanned seen (e :: more))
            = e.value ||| (join (met.map FlagEntry.value) |||
                (whole &&& ~~~spanned (seen ||| e.value) more)) := BitVec.or_assoc ..
          _ = e.value ||| ((whole &&& ~~~seen) &&& ~~~e.value) := by rw [hjoin]
          _ = whole &&& ~~~seen := or_and_not hin
    · -- nothing of the entry is there
      rw [and_not_of_apart hout] at hwalk hsingles hjoin
      refine ⟨met, ?_, ?_, hjoin⟩
      · by_cases hrest : whole &&& ~~~seen = 0
        · rw [hrest, walk_zero] at hwalk ⊢
          exact hwalk
        · unfold walk
          rw [if_neg hrest, if_neg (by simp [hout])]
          exact hwalk
      · have hskip : ¬(isSingle e.value ∧ (whole &&& ~~~seen) &&& e.value = e.value) := by
          rintro ⟨hsingle, hin⟩
          rw [hout] at hin
          simp [isSingle, ← hin] at hsingle
        unfold singles
        rw [if_neg (by simpa using hskip)]
        exact hsingles

theorem seen_spanned (seen : BitVec w) (entries : List (FlagEntry w)) :
    seen &&& ~~~spanned seen entries = 0 := by
  induction entries generalizing seen with
  | nil => exact BitVec.and_not_self seen
  | cons e more ih =>
    have h := ih (seen ||| e.value)
    rw [BitVec.and_or_distrib_right] at h
    exact (BitVec.or_eq_zero_iff.mp h).1

/-- No bit of an entry is without a name. -/
theorem value_spanned {e : FlagEntry w} {entries : List (FlagEntry w)} (he : e ∈ entries)
    (seen : BitVec w) : e.value &&& ~~~spanned seen entries = 0 := by
  induction entries generalizing seen with
  | nil => cases he
  | cons e' more ih =>
    rcases List.mem_cons.mp he with rfl | hmore
    · have h := seen_spanned (seen ||| e.value) more
      rw [BitVec.and_or_distrib_right] at h
      exact (BitVec.or_eq_zero_iff.mp h).2
    · exact ih hmore (seen ||| e'.value)

/-! ## The views -/

theorem hasUnknown_iff (a : Flags table) :
    a.hasUnknown ↔ a.bits &&& ~~~spanned 0 table.entries ≠ 0 := by
  unfold hasUnknown
  rw [decide_eq_true_eq]
  rfl

/-- The walk and the spelling of a set. -/
theorem met_spec (hg : Granular 0 table.entries) (a : Flags table) :
    singles table.entries a.bits =
        (a.met.map FlagEntry.spelling, a.bits &&& ~~~spanned 0 table.entries) ∧
      join (a.met.map FlagEntry.value) ||| (a.bits &&& ~~~spanned 0 table.entries) = a.bits := by
  obtain ⟨met, hwalk, hsingles, hjoin⟩ := singles_walk a.bits hg
  have hall : a.bits &&& ~~~(0 : BitVec w) = a.bits := by simp
  rw [hall] at hwalk hsingles hjoin
  have hmet : a.met = met := congrArg Prod.fst hwalk
  rw [hmet]
  exact ⟨hsingles, hjoin⟩

/-- A set with an unnamed bit is spelled as its number. -/
theorem spelling_of_unknown (hg : Granular 0 table.entries) {a : Flags table}
    (hu : a.hasUnknown) :
    a.spelling = table.typeName ++ " unknown " ++ toString a.bits.toNat := by
  rw [hasUnknown_iff] at hu
  have hfind : (table.entries.find? fun e => e.value = a.bits) = none := by
    rw [List.find?_eq_none]
    intro e he hvalue
    rw [decide_eq_true_eq] at hvalue
    exact hu (hvalue ▸ value_spanned he 0)
  have hzero : a.bits ≠ 0 := by
    intro h0
    rw [h0] at hu
    exact hu BitVec.zero_and
  unfold spelling spell
  rw [hfind, (met_spec hg a).1]
  dsimp only
  rw [if_neg hzero, if_pos (by rw [decide_eq_true hu, Bool.true_or])]

/-- A set of named bits without a name of its own is spelled by the entries of the walk. -/
theorem spelling_of_unnamed (hg : Granular 0 table.entries) {a : Flags table}
    (hu : a.hasUnknown = false) (hzero : a.bits ≠ 0)
    (hnone : ∀ e ∈ table.entries, e.value ≠ a.bits) :
    a.met ≠ [] ∧ join (a.met.map FlagEntry.value) = a.bits ∧
      a.spelling = table.label ++ "=" ++ String.intercalate "|" (a.met.map FlagEntry.spelling) := by
  have hleft : a.bits &&& ~~~spanned 0 table.entries = 0 := by
    by_contra h
    rw [(hasUnknown_iff a).mpr h] at hu
    cases hu
  obtain ⟨hsingles, hjoin⟩ := met_spec hg a
  rw [hleft] at hsingles hjoin
  have hunion : join (a.met.map FlagEntry.value) = a.bits := hjoin ▸ BitVec.or_zero.symm
  have hmet : a.met ≠ [] := by
    intro h
    rw [h] at hunion
    exact hzero hunion.symm
  have hfind : (table.entries.find? fun e => e.value = a.bits) = none := by
    rw [List.find?_eq_none]
    intro e he
    simpa using hnone e he
  refine ⟨hmet, hunion, ?_⟩
  unfold spelling spell
  rw [hfind, hsingles]
  dsimp only
  rw [if_neg hzero, if_neg (by simp [hmet])]

/-- A set of named bits is spelled by names. -/
theorem spelling_of_known (hg : Granular 0 table.entries) {a : Flags table}
    (hu : a.hasUnknown = false) : ∃ names, a.spelling = table.label ++ "=" ++ names := by
  cases hfind : table.entries.find? fun e => e.value = a.bits with
  | some e =>
    unfold spelling spell
    rw [hfind]
    exact ⟨e.spelling, rfl⟩
  | none =>
    by_cases hzero : a.bits = 0
    · unfold spelling spell
      rw [hfind]
      dsimp only
      rw [if_pos hzero]
      exact ⟨"None", by rw [String.append_assoc]; rfl⟩
    · have hnone : ∀ e ∈ table.entries, e.value ≠ a.bits := by
        simpa using List.find?_eq_none.mp hfind
      exact ⟨_, (spelling_of_unnamed hg hu hzero hnone).2.2⟩

theorem label_ne_typeName (h : table.Legible) (names text : String) :
    table.label ++ "=" ++ names ≠ table.typeName ++ " unknown " ++ text := by
  intro heq
  have hlist := congrArg String.toList heq
  refine separators_differ h.label h.typeName (x := names.toList)
    (y := "unknown ".toList ++ text.toList) ?_
  simpa using hlist

/-- What the views of a set say about each other. -/
structure ViewsAgree (a : Flags table) : Prop where
  /-- A number is spelled exactly for unnamed bits, and it is the number of the word. -/
  unknown : ∀ text, a.spelling = table.typeName ++ " unknown " ++ text ↔
    a.hasUnknown ∧ text = toString a.bits.toNat
  /-- Named bits without a name for all of them are spelled by the entries met on the walk. -/
  named : a.bits ≠ 0 → a.hasUnknown = false → (∀ e ∈ table.entries, e.value ≠ a.bits) →
    ∃ text, a.spelling = table.label ++ "=" ++ text ∧
      text.toList.splitOn '|' = a.met.map (fun e => e.spelling.toList) ∧
      a.names = a.met.map FlagEntry.constant ∧ List.Sublist a.met table.entries ∧
      join (a.met.map FlagEntry.value) = a.bits

theorem viewsAgree (htable : table.Legible ∧ Granular 0 table.entries) (a : Flags table) :
    a.ViewsAgree := by
  obtain ⟨h, hg⟩ := htable
  constructor
  · intro text
    constructor
    · intro hspell
      have hu : a.hasUnknown := by
        by_contra hu
        obtain ⟨names, hnames⟩ := spelling_of_known hg (Bool.eq_false_iff.mpr hu)
        exact label_ne_typeName h names text (hnames.symm.trans hspell)
      rw [spelling_of_unknown hg hu] at hspell
      exact ⟨hu, (String.append_right_inj _).mp hspell.symm⟩
    · rintro ⟨hu, rfl⟩
      exact spelling_of_unknown hg hu
  · intro hzero hu hnone
    obtain ⟨hmet, hunion, hspell⟩ := spelling_of_unnamed hg hu hzero hnone
    have hsub := walk_sublist a.bits table.entries a.bits
    refine ⟨_, hspell, ?_, rfl, hsub, hunion⟩
    have hbars : ∀ name ∈ a.met.map (fun e => e.spelling.toList), '|' ∉ name := by
      intro name hname
      obtain ⟨e, he, rfl⟩ := List.mem_map.mp hname
      exact h.unbarred e (hsub.subset he)
    rw [String.toList_intercalate, List.map_map]
    exact List.splitOn_intercalate '|' hbars (by simpa using hmet)

/-- **Views.** The spelling of a word, its unnamed bits and the walk through its table agree for
all option words. -/
theorem views_agree :
    (∀ a : ParseFlags, a.ViewsAgree) ∧ (∀ a : CompleteFlags, a.ViewsAgree) ∧
      (∀ a : CompletionContexts, a.ViewsAgree) ∧ (∀ a : DisplayOptions, a.ViewsAgree) ∧
      (∀ a : GlobalOptions, a.ViewsAgree) ∧ (∀ a : IndexingFlags, a.ViewsAgree) ∧
      (∀ a : SymbolRoles, a.ViewsAgree) :=
  ⟨viewsAgree (by decide +kernel), viewsAgree (by decide +kernel), viewsAgree (by decide +kernel),
    viewsAgree (by decide +kernel), viewsAgree (by decide +kernel), viewsAgree (by decide +kernel),
    viewsAgree (by decide +kernel)⟩

/-- Contexts whose three bits lie between the name for no bit and the name for all bits. -/
theorem member_contexts_agree :
    let a : CompletionContexts := ⟨35⟩
    a.bits ≠ 0 ∧ a.hasUnknown = false ∧
      (∀ e ∈ FlagTable.completionContexts.entries, e.value ≠ a.bits) ∧
      ∃ text, a.spelling = "CompletionContext=" ++ text ∧
        text.toList.splitOn '|' = a.met.map (fun e => e.spelling.toList) ∧
        a.names = ["ANY_TYPE", "ANY_VALUE", "DOT_MEMBER_ACCESS"] := by
  have hzero : (35 : BitVec 64) ≠ 0 := by decide
  have hu : (⟨35⟩ : CompletionContexts).hasUnknown = false := by decide
  have hnone : ∀ e ∈ FlagTable.completionContexts.entries, e.value ≠ 35 := by decide
  obtain ⟨text, hspell, hsplit, -⟩ := (views_agree.2.2.1 ⟨35⟩).named hzero hu hnone
  exact ⟨hzero, hu, hnone, text, hspell, hsplit, by decide⟩

end Flags

end ClangLens
