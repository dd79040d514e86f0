import ClangLens.Path.Basic

/-!
# The order of paths

Paths are in the order of their component lists: where two differ first, the component that comes
first decides, and a path comes before everything it continues in. The comparison of paths is that
order, so it is a linear one on what paths mean.
-/

namespace ClangLens.Path

/-- The root comes first, then `.`, then `..`, then names by their bytes. -/
inductive Component.Before : Component → Component → Prop where
  | root_here : Before .root .here
  | root_up : Before .root .up
  | root_name (b : Bytes) : Before .root (.name b)
  | here_up : Before .here .up
  | here_name (b : Bytes) : Before .here (.name b)
  | up_name (b : Bytes) : Before .up (.name b)
  | name {b c : Bytes} (h : List.Lex (· < ·) b c) : Before (.name b) (.name c)

/-- The first component that differs decides, and a shorter path comes before what continues it. -/
def Before (p q : Path) : Prop := List.Lex Component.Before p.components q.components

/-! ## Lists -/

section

variable {α : Type} {cmp : α → α → Ordering}

/-- Lists compared item by item are in the order that the comparison of items says. -/
theorem compareLex_eq_lt_iff [Std.LawfulEqCmp cmp] {l m : List α} :
    List.compareLex cmp l m = .lt ↔ List.Lex (fun a b => cmp a b = .lt) l m := by
  induction l generalizing m with
  | nil =>
    cases m with
    | nil => exact iff_of_false nofun nofun
    | cons b m => exact iff_of_true rfl .nil
  | cons a l ih =>
    cases m with
    | nil => exact iff_of_false nofun nofun
    | cons b m =>
      rw [List.compareLex_cons_cons, Ordering.then_eq_lt,
        Std.LawfulEqCmp.compare_eq_iff_eq, ih]
      constructor
      · rintro (h | ⟨rfl, h⟩)
        · exact .rel h
        · exact .cons h
      · rintro (_ | h | h)
        · exact .inl h
        · exact .inr ⟨rfl, h⟩

end

/-! ## Components -/

namespace Component

/-- Shapes first, then names. -/
theorem compare_eq : Component.compare = compareLex (compareOn rank) (compareOn Component.bytes) :=
  rfl

instance : Std.TransCmp Component.compare := by
  rw [compare_eq]
  infer_instance

/-- A component is known by its shape and its bytes. -/
theorem eq_of_rank_of_bytes {c d : Component} (hrank : c.rank = d.rank)
    (hbytes : c.bytes = d.bytes) : c = d := by
  cases c <;> cases d <;> simp_all [rank, Component.bytes]

instance : Std.LawfulEqCmp Component.compare where
  eq_of_compare {c d} h := by
    obtain ⟨hrank, hbytes⟩ := Ordering.then_eq_eq.mp h
    exact eq_of_rank_of_bytes (Std.LawfulEqCmp.eq_of_compare hrank)
      (Std.LawfulEqCmp.eq_of_compare hbytes)

theorem before_iff {c d : Component} :
    c.Before d ↔ c.rank < d.rank ∨ c.rank = d.rank ∧ List.Lex (· < ·) c.bytes d.bytes := by
  constructor
  · intro h
    cases h with
    | name h => exact .inr ⟨rfl, h⟩
    | _ => exact .inl (by simp [rank])
  · intro h
    cases c <;> cases d <;> simp [rank, Component.bytes] at h <;> constructor
    assumption

theorem compare_eq_lt_iff {c d : Component} : c.compare d = .lt ↔ c.Before d := by
  unfold Component.compare
  rw [Ordering.then_eq_lt, compareLex_eq_lt_iff, before_iff]
  simp only [Std.compare_eq_lt, Std.compare_eq_iff_eq]

variable {cs ds : List Component}

theorem compareLex_eq_lt_iff_before :
    List.compareLex Component.compare cs ds = .lt ↔ List.Lex Before cs ds := by
  simp only [compareLex_eq_lt_iff, compare_eq_lt_iff]

theorem lex_asymm (h : List.Lex Before cs ds) : ¬List.Lex Before ds cs := by
  rw [← compareLex_eq_lt_iff_before] at *
  exact Std.OrientedCmp.not_lt_of_lt h

end Component

/-! ## Paths -/

instance : Std.TransCmp Path.compare where
  eq_swap {p q} := by
    have h : Std.TransCmp (List.compareLex Component.compare) := inferInstance
    exact h.eq_swap
  isLE_trans {p q r} := by
    have h : Std.TransCmp (List.compareLex Component.compare) := inferInstance
    exact h.isLE_trans

variable {p q r : Path}

theorem compare_eq_lt_iff : p.compare q = .lt ↔ p.Before q :=
  Component.compareLex_eq_lt_iff_before

theorem compare_eq_eq_iff : p.compare q = .eq ↔ p.same q := by
  unfold Path.compare same
  rw [Std.LawfulEqCmp.compare_eq_iff_eq, decide_eq_true_eq]

theorem compare_eq_gt_iff : p.compare q = .gt ↔ q.Before p := by
  rw [Std.OrientedCmp.gt_iff_lt, compare_eq_lt_iff]

theorem le_iff : p.le q ↔ (p.compare q).isLE := by
  rw [le, decide_eq_true_eq]
  cases p.compare q <;> decide

theorem le_trans (p q r : Path) (hpq : p.le q) (hqr : q.le r) : p.le r := by
  rw [le_iff] at *
  exact Std.TransCmp.isLE_trans hpq hqr

theorem le_total (p q : Path) : p.le q || q.le p := by
  have hswap : q.compare p = (p.compare q).swap := Std.OrientedCmp.eq_swap
  rw [Bool.or_eq_true, le_iff, le_iff, hswap]
  cases p.compare q <;> decide

theorem le_of_same (h : p.same q) : p.le q := by
  rw [le_iff, compare_eq_eq_iff.mpr h]
  rfl

/-- Paths that come no later than each other mean the same. -/
theorem same_of_le (hpq : p.le q) (hqp : q.le p) : p.same q := by
  rw [le_iff] at *
  exact compare_eq_eq_iff.mp (Std.OrientedCmp.isLE_antisymm hpq hqp)

/-- A path that comes no later than another either means the same or comes before it. -/
theorem before_of_le (hpq : p.le q) (hne : ¬p.same q) : p.Before q := by
  rw [le_iff, Ordering.isLE_iff_eq_lt_or_eq_eq, compare_eq_lt_iff, compare_eq_eq_iff] at hpq
  exact hpq.resolve_right hne

theorem not_same_of_before (h : p.Before q) : ¬p.same q := by
  rw [← compare_eq_eq_iff, compare_eq_lt_iff.mpr h]
  decide

end ClangLens.Path
