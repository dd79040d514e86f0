import Mathlib
import ClangLens.Proofs.Path.Order
import ClangLens.Proofs.Project.Lookup

/-!
# Lists of paths

The files and the directories of a database are listed in the order of paths, each once however
often and in whatever spellings entries name it. What is listed is the spelling of the earliest
entry, so the order of the entries decides nothing else.
-/

namespace ClangLens

namespace Path

/-- Paths listed in order: one for all that mean the same, spelled as the earliest of them. -/
structure Lists (paths listed : List Path) : Prop where
  ascending : listed.Pairwise Before
  distinct : listed.Pairwise fun p q => ¬p.same q
  covers : ∀ p ∈ paths, listed.countP (p.same ·) = 1
  earliest : ∀ q ∈ listed, paths.find? (q.same ·) = some q

variable {p q : Path}

theorem same_iff : p.same q ↔ p.components = q.components := decide_eq_true_iff

theorem same_self (p : Path) : p.same p := same_iff.mpr rfl

theorem same_congr (h : p.same q) (r : Path) : r.same p = r.same q := by
  rw [same, same, same_iff.mp h]

end Path

namespace Database

variable {paths : List Path} {p q : Path}

/-! ## Sorting -/

/-- Of the paths that mean the same, the first one stays the first. -/
theorem find?_mergeSort (p : Path) (paths : List Path) :
    (paths.mergeSort Path.le).find? (p.same ·) = paths.find? (p.same ·) := by
  have hsame : (paths.filter (p.same ·)).Pairwise fun q r => q.le r := by
    refine List.pairwise_of_forall_mem_list fun q hq r hr => Path.le_of_same ?_
    have hq' := Path.same_iff.mp (List.mem_filter.mp hq).2
    have hr' := Path.same_iff.mp (List.mem_filter.mp hr).2
    exact Path.same_iff.mpr (hq'.symm.trans hr')
  have hpart : (paths.filter (p.same ·)).Sublist ((paths.mergeSort Path.le).filter (p.same ·)) := by
    have h := (List.sublist_mergeSort Path.le_trans Path.le_total hsame
      List.filter_sublist).filter (p.same ·)
    rwa [List.filter_filter, funext fun q => Bool.and_self (p.same q)] at h
  have hlength := ((List.mergeSort_perm paths Path.le).filter (p.same ·)).length_eq
  rw [← List.head?_filter, ← List.head?_filter, hpart.eq_of_length hlength.symm]

/-! ## Runs -/

theorem find?_firstOfRuns (p : Path) (paths : List Path) :
    (firstOfRuns paths).find? (p.same ·) = paths.find? (p.same ·) := by
  fun_induction firstOfRuns paths with
  | case1 => rfl
  | case2 q => rfl
  | case3 q r rest hqr ih =>
    rw [ih, List.find?_cons, List.find?_cons, List.find?_cons, Path.same_congr hqr p]
    cases p.same r <;> rfl
  | case4 q r rest hqr ih => rw [List.find?_cons, List.find?_cons, ih]

/-- Where paths are in order, those that mean the same are one run. -/
theorem firstOfRuns_ascending (h : paths.Pairwise fun p q => p.le q) :
    (firstOfRuns paths).Pairwise Path.Before := by
  fun_induction firstOfRuns paths with
  | case1 => exact .nil
  | case2 q => exact List.pairwise_singleton _ _
  | case3 q r rest hqr ih =>
    refine ih (h.sublist ?_)
    exact .cons_cons _ (List.sublist_cons_self _ _)
  | case4 q r rest hqr ih =>
    obtain ⟨hq, hrest⟩ := List.pairwise_cons.mp h
    refine .cons (fun t ht => ?_) (ih hrest)
    have ht := mem_of_mem_firstOfRuns ht
    refine Path.before_of_le (hq t ht) fun hqt => hqr ?_
    -- `r` lies between the two, so it would mean the same
    have hrt : r.le t := by
      obtain rfl | ht := List.mem_cons.mp ht
      · exact Path.le_of_same (Path.same_self _)
      · exact (List.pairwise_cons.mp hrest).1 t ht
    have htq : t.le q := Path.le_of_same (Path.same_iff.mpr (Path.same_iff.mp hqt).symm)
    exact Path.same_of_le (hq r List.mem_cons_self) (Path.le_trans r t q hrt htq)

/-! ## Lists without repetition -/

theorem distinct_ascending (paths : List Path) : (distinct paths).Pairwise Path.Before :=
  firstOfRuns_ascending (List.pairwise_mergeSort Path.le_trans Path.le_total paths)

theorem find?_distinct (p : Path) (paths : List Path) :
    (distinct paths).find? (p.same ·) = paths.find? (p.same ·) := by
  rw [distinct, find?_firstOfRuns, find?_mergeSort]

theorem mem_of_mem_distinct (h : p ∈ distinct paths) : p ∈ paths :=
  List.mem_mergeSort.mp (mem_of_mem_firstOfRuns h)

/-- A path is listed in some spelling. -/
theorem exists_mem_distinct (h : p ∈ paths) : ∃ q ∈ distinct paths, p.same q := by
  have hfound : (paths.find? (p.same ·)).isSome := List.find?_isSome.mpr ⟨p, h, p.same_self⟩
  rw [← find?_distinct] at hfound
  exact List.find?_isSome.mp hfound

/-- Where no two paths mean the same, none means the same as one of them but that one. -/
theorem eq_append_of_mem {listed : List Path} (h : listed.Pairwise fun p q => ¬p.same q)
    (hq : q ∈ listed) :
    ∃ front back, listed = front ++ q :: back ∧ ∀ r ∈ front ++ back, ¬q.same r := by
  obtain ⟨front, back, rfl⟩ := List.append_of_mem hq
  obtain ⟨-, hback, hfront⟩ := List.pairwise_append.mp h
  refine ⟨front, back, rfl, fun r hr hqr => ?_⟩
  rcases List.mem_append.mp hr with hr | hr
  · exact hfront r hr q List.mem_cons_self (Path.same_iff.mpr (Path.same_iff.mp hqr).symm)
  · exact (List.pairwise_cons.mp hback).1 r hr hqr

theorem distinct_lists (paths : List Path) : Path.Lists paths (distinct paths) := by
  have hascending := distinct_ascending paths
  have hdistinct := hascending.imp Path.not_same_of_before
  refine ⟨hascending, hdistinct, fun p hp => ?_, fun q hq => ?_⟩
  · obtain ⟨q, hq, hpq⟩ := exists_mem_distinct hp
    obtain ⟨front, back, hsplit, hothers⟩ := eq_append_of_mem hdistinct hq
    have hnone : (front ++ back).countP (p.same ·) = 0 := by
      refine List.countP_eq_zero.mpr fun r hr hpr => hothers r hr ?_
      exact Path.same_iff.mpr ((Path.same_iff.mp hpq).symm.trans (Path.same_iff.mp hpr))
    have hone : (q :: back).countP (p.same ·) = back.countP (p.same ·) + 1 :=
      List.countP_cons_of_pos hpq
    rw [List.countP_append] at hnone
    rw [hsplit, List.countP_append, hone]
    omega
  · obtain ⟨front, back, hsplit, hothers⟩ := eq_append_of_mem hdistinct hq
    rw [← find?_distinct, List.find?_eq_some_iff_append]
    refine ⟨q.same_self, front, back, hsplit, fun r hr => ?_⟩
    simpa using hothers r (List.mem_append_left _ hr)

/-! ## Other orders of entries -/

theorem components_nodup (paths : List Path) :
    ((distinct paths).map Path.components).Nodup := by
  refine List.pairwise_map.mpr ((distinct_ascending paths).imp fun h => ?_)
  exact fun heq => Path.not_same_of_before h (Path.same_iff.mpr heq)

theorem mem_components_distinct {cs : List Path.Component} :
    cs ∈ (distinct paths).map Path.components ↔ cs ∈ paths.map Path.components := by
  rw [List.mem_map, List.mem_map]
  constructor
  · rintro ⟨p, hp, rfl⟩
    exact ⟨p, mem_of_mem_distinct hp, rfl⟩
  · rintro ⟨p, hp, rfl⟩
    obtain ⟨q, hq, hpq⟩ := exists_mem_distinct hp
    exact ⟨q, hq, (Path.same_iff.mp hpq).symm⟩

/-- Ascending lists of the same meanings are the same list of meanings. -/
theorem distinct_perm {paths others : List Path} (h : paths.Perm others) :
    List.Forall₂ (fun p q => p.same q) (distinct paths) (distinct others) := by
  have hperm : ((distinct paths).map Path.components).Perm
      ((distinct others).map Path.components) := by
    refine (List.perm_ext_iff_of_nodup (components_nodup _) (components_nodup _)).mpr fun cs => ?_
    rw [mem_components_distinct, mem_components_distinct]
    exact (h.map Path.components).mem_iff
  have hascending : ∀ paths, ((distinct paths).map Path.components).Pairwise
      (List.Lex Path.Component.Before) := fun paths =>
    List.pairwise_map.mpr (distinct_ascending paths)
  have hequal := hperm.eq_of_pairwise
    (fun _ _ _ _ h h' => absurd h' (Path.Component.lex_asymm h)) (hascending paths)
    (hascending others)
  rw [← List.forall₂_eq_eq_eq, List.forall₂_map_left_iff, List.forall₂_map_right_iff] at hequal
  exact hequal.imp fun _ _ => Path.same_iff.mpr

/-- **Path lists.** Paths are compared component by component. The files of a database and its
directories are listed in that order, one for all that mean the same and spelled as in the earliest
entry; in whatever order the entries are, the lists differ at most in spellings. -/
theorem listed_by_meaning :
    (∀ p q : Path, (p.compare q = .lt ↔ p.Before q) ∧ (p.compare q = .eq ↔ p.same q) ∧
      (p.compare q = .gt ↔ q.Before p)) ∧
    ∀ db : Database,
      Path.Lists (db.entries.map DatabaseEntry.file) db.sourceFiles ∧
      Path.Lists (db.entries.map DatabaseEntry.directory) db.directories ∧
      ∀ other : Database, db.entries.Perm other.entries →
        List.Forall₂ (fun p q => p.same q) db.sourceFiles other.sourceFiles ∧
        List.Forall₂ (fun p q => p.same q) db.directories other.directories := by
  refine ⟨fun p q => ⟨Path.compare_eq_lt_iff, Path.compare_eq_eq_iff, Path.compare_eq_gt_iff⟩,
    fun db => ⟨distinct_lists _, distinct_lists _, fun other hperm => ⟨?_, ?_⟩⟩⟩
  · exact distinct_perm (hperm.map DatabaseEntry.file)
  · exact distinct_perm (hperm.map DatabaseEntry.directory)

/-- Entries for three files, one of which has two spellings. -/
def respelled : Database :=
  ⟨⟨[]⟩, [
    ⟨.ofString "/p", .ofString "a//b.c", [], none⟩, ⟨.ofString "..", .ofString "./b.c", [], none⟩,
    ⟨.ofString "/p/", .ofString "/b.c", [], none⟩, ⟨.ofString "/", .ofString "a/./b.c", [], none⟩]⟩

/-- The same entries from the last to the first. -/
def respelledBack : Database := ⟨⟨[]⟩, respelled.entries.reverse⟩

theorem respelled_listed :
    respelled.entries.Perm respelledBack.entries ∧
      respelled.sourceFiles.map Path.text = ["/b.c", "./b.c", "a//b.c"] ∧
      respelledBack.sourceFiles.map Path.text = ["/b.c", "./b.c", "a/./b.c"] ∧
      List.Forall₂ (fun p q => p.same q) respelled.sourceFiles respelledBack.sourceFiles ∧
      List.Forall₂ (fun p q => p.same q) respelled.directories respelledBack.directories ∧
      respelled.sourceFiles.countP ((Path.ofString "a/./b.c").same ·) = 1 := by
  obtain ⟨hfiles, -, hothers⟩ := listed_by_meaning.2 respelled
  have hperm : respelled.entries.Perm respelledBack.entries := (List.reverse_perm _).symm
  obtain ⟨hfiles', hdirectories'⟩ := hothers respelledBack hperm
  refine ⟨hperm, by cbv, by cbv, hfiles', hdirectories', hfiles.covers _ ?_⟩
  exact List.mem_map.mpr ⟨_, List.mem_of_getElem? (rfl : respelled.entries[3]? = some _), rfl⟩

end Database

end ClangLens
