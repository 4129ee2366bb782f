import ReviewRota.Store.Statement
import Mathlib.Order.Basic
import Mathlib.Data.String.Basic
import Mathlib.Data.List.Nodup

/-!
# ReviewRota.Proofs.Rows

The table layer: a table is a list of rows in strict order of their key.

* `inOrder_insertRow` — inserting a row under a new key keeps the order;
* `inOrder_sortRows` — sorting makes one;
* `InOrder.find?_eq_some_iff` — in an ordered table, looking up a key finds
  exactly the row of that key;
* `find?_insertRow_of_not`, `find?_insertRow_self` — looking up behind an
  insertion.

The four tables are instances: their orders are `OrdersBy` their keys.
-/

namespace ReviewRota

variable {α κ : Type}

/-! ## Orders and keys -/

/-- `before` orders rows strictly by `key`. -/
structure OrdersBy (before : α → α → Bool) (key : α → κ) : Prop where
  trans : ∀ {a b c}, before a b → before b c → before a c
  key_ne : ∀ {a b}, before a b → key a ≠ key b
  total : ∀ {a b}, key a ≠ key b → before a b ∨ before b a

/-- The rows are in strict order. -/
def InOrder (before : α → α → Bool) (rows : List α) : Prop :=
  rows.Pairwise fun a b => before a b

instance (before : α → α → Bool) (rows : List α) : Decidable (InOrder before rows) :=
  inferInstanceAs (Decidable (rows.Pairwise fun a b => before a b))

/-- The key of a link: the pull request and the reviewer. -/
def Link.key (l : Link) : String × String := (l.pullRequest, l.reviewer)

/-- Rows compared by a text are ordered by it. -/
theorem ordersBy_text (key : α → String) : OrdersBy (fun a b => key a < key b) key where
  trans hab hbc := by
    rw [decide_eq_true_eq] at *
    exact lt_trans hab hbc
  key_ne hab := by
    rw [decide_eq_true_eq] at hab
    exact ne_of_lt hab
  total hne := by
    rw [decide_eq_true_eq, decide_eq_true_eq]
    exact lt_or_gt_of_ne hne

/-- Rows compared by one key and then by another are ordered by the pair. -/
theorem ordersBy_lex {κ₁ κ₂ : Type} (lt : κ₁ → κ₁ → Prop) [IsStrictTotalOrder κ₁ lt]
    [LinearOrder κ₂] {before : α → α → Bool} (first : α → κ₁) (second : α → κ₂)
    (hbefore : ∀ {a b}, before a b = true ↔
      lt (first a) (first b) ∨ first a = first b ∧ second a < second b) :
    OrdersBy before fun a => (first a, second a) where
  trans hab hbc := by
    rw [hbefore] at *
    obtain hab | ⟨hab, hab'⟩ := hab
    · obtain hbc | ⟨hbc, _⟩ := hbc
      · exact Or.inl (IsTrans.trans _ _ _ hab hbc)
      · exact Or.inl (hbc ▸ hab)
    · obtain hbc | ⟨hbc, hbc'⟩ := hbc
      · exact Or.inl (hab ▸ hbc)
      · exact Or.inr ⟨hab.trans hbc, lt_trans hab' hbc'⟩
  key_ne {a b} hab hkey := by
    rw [Prod.mk.injEq] at hkey
    rw [hbefore, hkey.1, hkey.2] at hab
    obtain hab | ⟨_, hab⟩ := hab
    · exact irrefl _ hab
    · exact lt_irrefl _ hab
  total {a b} hne := by
    simp only [hbefore]
    by_cases hfirst : first a = first b
    · have hsecond : second a ≠ second b := fun h => hne (Prod.ext hfirst h)
      obtain hlt | hlt := lt_or_gt_of_ne hsecond
      · exact Or.inl (Or.inr ⟨hfirst, hlt⟩)
      · exact Or.inr (Or.inr ⟨hfirst.symm, hlt⟩)
    · obtain hlt | heq | hlt := trichotomous_of lt (first a) (first b)
      · exact Or.inl (Or.inl hlt)
      · exact absurd heq hfirst
      · exact Or.inr (Or.inl hlt)

theorem TeamRecord.ordersBy : OrdersBy TeamRecord.before TeamRecord.name :=
  ordersBy_text TeamRecord.name

theorem User.ordersBy : OrdersBy User.before User.id := ordersBy_text User.id

theorem PullRequestRecord.ordersBy : OrdersBy PullRequestRecord.before PullRequestRecord.id :=
  ordersBy_text PullRequestRecord.id

/-- The links are ordered by their pair of keys, the pull request first. -/
theorem Link.before_iff {a b : Link} :
    a.before b ↔ a.pullRequest < b.pullRequest ∨
      a.pullRequest = b.pullRequest ∧ a.reviewer < b.reviewer := by
  simp [Link.before]

theorem Link.ordersBy : OrdersBy Link.before Link.key :=
  ordersBy_lex (· < ·) Link.pullRequest Link.reviewer Link.before_iff

/-! ## Inserting a row -/

variable {before : α → α → Bool} {key : α → κ} {row : α} {rows : List α}

/-- Inserting adds exactly the row. -/
theorem insertRow_perm (before : α → α → Bool) (row : α) (rows : List α) :
    (insertRow before row rows).Perm (row :: rows) := by
  induction rows with
  | nil => exact List.Perm.refl _
  | cons other rest ih =>
      rw [insertRow]
      split
      · exact List.Perm.refl _
      · exact (ih.cons other).trans (List.Perm.swap row other rest)

@[simp] theorem mem_insertRow {r : α} :
    r ∈ insertRow before row rows ↔ r = row ∨ r ∈ rows := by
  rw [(insertRow_perm before row rows).mem_iff, List.mem_cons]

/-- A row under a new key goes to a place where the order holds. -/
theorem inOrder_insertRow (ho : OrdersBy before key) (hrows : InOrder before rows)
    (hnew : ∀ other ∈ rows, key other ≠ key row) : InOrder before (insertRow before row rows) := by
  induction rows with
  | nil => exact List.pairwise_singleton _ row
  | cons other rest ih =>
      have hrest := List.pairwise_cons.mp hrows
      rw [insertRow]
      split
      · next hfirst =>
          refine List.Pairwise.cons ?_ hrows
          intro r hr
          obtain rfl | hr := List.mem_cons.mp hr
          · exact hfirst
          · exact ho.trans hfirst (hrest.1 r hr)
      · next hfirst =>
          have hother : before other row :=
            (ho.total (hnew other List.mem_cons_self)).resolve_right hfirst
          refine List.Pairwise.cons ?_
            (ih hrest.2 fun r hr => hnew r (List.mem_cons_of_mem other hr))
          intro r hr
          obtain rfl | hr := mem_insertRow.mp hr
          · exact hother
          · exact hrest.1 r hr

/-- What is looked for and is not the inserted row is found as before. -/
theorem find?_insertRow_of_not {p : α → Bool} (hp : p row = false) :
    (insertRow before row rows).find? p = rows.find? p := by
  induction rows with
  | nil => simp [insertRow, hp]
  | cons other rest ih =>
      rw [insertRow]
      split
      · rw [List.find?_cons, hp]
      · rw [List.find?_cons, List.find?_cons, ih]

/-- The inserted row is found if nothing else is. -/
theorem find?_insertRow_self {p : α → Bool} (hp : p row = true) (hnone : rows.find? p = none) :
    (insertRow before row rows).find? p = some row := by
  induction rows with
  | nil => simp [insertRow, hp]
  | cons other rest ih =>
      rw [List.find?_cons] at hnone
      have hother : p other = false := by
        cases h : p other with
        | true => rw [h] at hnone; exact nomatch hnone
        | false => rfl
      rw [hother] at hnone
      rw [insertRow]
      split
      · rw [List.find?_cons, hp]
      · rw [List.find?_cons, hother, ih hnone]

/-- Selecting does not see an inserted row that is not selected. -/
theorem filter_insertRow_of_not {p : α → Bool} (hp : p row = false) :
    (insertRow before row rows).filter p = rows.filter p := by
  induction rows with
  | nil => simp [insertRow, hp]
  | cons other rest ih =>
      rw [insertRow]
      split
      · rw [List.filter_cons_of_neg (by simp [hp])]
      · rw [List.filter_cons, List.filter_cons, ih]

/-- What is counted only among selected rows is counted alike among all. -/
theorem countP_filter_of_imp {p q : α → Bool} (h : ∀ r, p r = true → q r = true) :
    (rows.filter q).countP p = rows.countP p := by
  rw [List.countP_filter]
  apply List.countP_congr
  intro r _
  rw [Bool.and_eq_true]
  exact and_iff_left_of_imp (h r)

/-- Inserts one row after the other. -/
def insertRows (before : α → α → Bool) : List α → List α → List α
  | [], rows => rows
  | row :: more, rows => insertRows before more (insertRow before row rows)

/-- Inserting adds exactly the rows. -/
theorem insertRows_perm (before : α → α → Bool) (more rows : List α) :
    (insertRows before more rows).Perm (more ++ rows) := by
  induction more generalizing rows with
  | nil => exact List.Perm.refl rows
  | cons row more ih =>
      have hone := (insertRow_perm before row rows).append_left more
      exact (ih _).trans (hone.trans List.perm_middle)

/-- Selecting does not see inserted rows that are not selected. -/
theorem filter_insertRows_of_not {p : α → Bool} {more : List α}
    (hp : ∀ row ∈ more, p row = false) :
    (insertRows before more rows).filter p = rows.filter p := by
  induction more generalizing rows with
  | nil => rfl
  | cons row more ih =>
      rw [insertRows, ih fun r hr => hp r (List.mem_cons_of_mem row hr),
        filter_insertRow_of_not (hp row List.mem_cons_self)]

/-- Sorting only rearranges. -/
theorem sortRows_perm (before : α → α → Bool) (rows : List α) :
    (sortRows before rows).Perm rows := by
  induction rows with
  | nil => exact List.Perm.refl _
  | cons row rest ih => exact (insertRow_perm before row _).trans (ih.cons row)

@[simp] theorem mem_sortRows {r : α} : r ∈ sortRows before rows ↔ r ∈ rows :=
  (sortRows_perm before rows).mem_iff

/-- Rows with different keys are sorted strictly. -/
theorem inOrder_sortRows (ho : OrdersBy before key) (hkeys : (rows.map key).Nodup) :
    InOrder before (sortRows before rows) := by
  induction rows with
  | nil => exact List.Pairwise.nil
  | cons row rest ih =>
      obtain ⟨hnew, hrest⟩ := List.nodup_cons.mp hkeys
      refine inOrder_insertRow ho (ih hrest) fun other hother hkey => ?_
      exact hnew (hkey ▸ List.mem_map_of_mem (mem_sortRows.mp hother))

/-! ## Ordered tables -/

/-- What comes before every row goes to the front. -/
theorem insertRow_of_forall_before (h : ∀ other ∈ rows, before row other) :
    insertRow before row rows = row :: rows := by
  cases rows with
  | nil => rfl
  | cons other rest => rw [insertRow, if_pos (h other List.mem_cons_self)]

/-- Selecting sees a selected row in its place. -/
theorem InOrder.filter_insertRow (ho : OrdersBy before key) (h : InOrder before rows)
    {p : α → Bool} (hp : p row = true) :
    (insertRow before row rows).filter p = insertRow before row (rows.filter p) := by
  induction rows with
  | nil => simp [insertRow, hp]
  | cons other rest ih =>
      obtain ⟨hfirst, hrest⟩ := List.pairwise_cons.mp h
      rw [insertRow]
      split
      · next hbefore =>
          have hall : ∀ r ∈ (other :: rest).filter p, before row r := by
            intro r hr
            obtain rfl | hr := List.mem_cons.mp (List.mem_of_mem_filter hr)
            · exact hbefore
            · exact ho.trans hbefore (hfirst r hr)
          rw [insertRow_of_forall_before hall, List.filter_cons_of_pos hp]
      · next hafter =>
          have hlater := ih hrest
          cases hother : p other with
          | true => simp [hother, hlater, insertRow, hafter]
          | false => simp [hother, hlater]

/-- An ordered table is told by its rows. -/
theorem InOrder.eq_of_perm (ho : OrdersBy before key) {others : List α}
    (h : InOrder before rows) (h' : InOrder before others) (hperm : rows.Perm others) :
    rows = others := by
  refine hperm.eq_of_pairwise (fun a b _ _ hab hba => ?_) h h'
  exact absurd rfl (ho.key_ne (ho.trans hab hba))

/-- An ordered table is told by two complementary selections from it. -/
theorem InOrder.eq_of_filter_eq (ho : OrdersBy before key) {others : List α}
    (h : InOrder before rows) (h' : InOrder before others) (p : α → Bool)
    (hin : rows.filter p = others.filter p)
    (hout : (rows.filter fun r => !p r) = others.filter fun r => !p r) : rows = others := by
  have hperm : rows.Perm others := by
    have hrows := List.filter_append_perm p rows
    rw [hin, hout] at hrows
    exact hrows.symm.trans (List.filter_append_perm p others)
  exact h.eq_of_perm ho h' hperm

/-- No key occurs twice in an ordered table. -/
theorem InOrder.nodup_keys (ho : OrdersBy before key) (h : InOrder before rows) :
    (rows.map key).Nodup := by
  rw [List.Nodup, List.pairwise_map]
  exact h.imp fun hab => ho.key_ne hab

/-- Rows of one key are one row. -/
theorem InOrder.eq_of_key_eq (ho : OrdersBy before key) (h : InOrder before rows) {a b : α}
    (ha : a ∈ rows) (hb : b ∈ rows) (hkey : key a = key b) : a = b :=
  List.inj_on_of_nodup_map (h.nodup_keys ho) ha hb hkey

/-- A predicate that tells rows by their key finds exactly the row of that
key. -/
theorem InOrder.find?_eq_some_iff (ho : OrdersBy before key) (h : InOrder before rows)
    {p : α → Bool} {k : κ} (hp : ∀ a, p a = true ↔ key a = k) {a : α} :
    rows.find? p = some a ↔ a ∈ rows ∧ key a = k := by
  constructor
  · intro hfind
    exact ⟨List.mem_of_find?_eq_some hfind, (hp a).mp (List.find?_some hfind)⟩
  · rintro ⟨ha, hk⟩
    have hsome : (rows.find? p).isSome := List.find?_isSome.mpr ⟨a, ha, (hp a).mpr hk⟩
    obtain ⟨b, hb⟩ := Option.isSome_iff_exists.mp hsome
    have hbk : key b = k := (hp b).mp (List.find?_some hb)
    rw [hb, h.eq_of_key_eq ho (List.mem_of_find?_eq_some hb) ha (hbk.trans hk.symm)]

end ReviewRota
