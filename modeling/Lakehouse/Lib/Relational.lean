import Mathlib.Algebra.BigOperators.Group.Multiset.Basic
import Mathlib.Algebra.Group.Action.Defs
import Mathlib.Algebra.Order.BigOperators.Group.Multiset
import Mathlib.Algebra.Order.Group.Nat
import Mathlib.Algebra.Order.Group.Multiset
import Mathlib.Data.Multiset.Bind
import Mathlib.Data.Multiset.Dedup
import Mathlib.Data.Multiset.Filter
import Mathlib.Data.Multiset.Fold

/-!
# SQL operators on bags

Bags of rows are multisets and a nullable column is an `Option`. A grouping makes one group for each
value of its key, null included (`mem_groupBy`, `keys_groupBy`); a left join keeps a row that
matches nothing once, and a null key matches nothing (`mem_leftJoin`); an aggregate skips nulls and
is null on a group that has nothing else. Where the right side has each key at most once a left join
is a lookup (`map_fst_leftJoin`, `leftJoin_groups`). A sum over the groups, or over a join that
matches every row of the right side once, is the sum over the rows (`sum_groupBy`, `sum_leftJoin`).
-/

namespace Lakehouse.Lib

/-! ## Grouping -/

section GroupBy

variable {ρ κ : Type*} [DecidableEq κ] (key : ρ → κ)

/-- The rows of each value of the key. -/
def groupBy (s : Multiset ρ) : Multiset (κ × Multiset ρ) :=
  (s.map key).dedup.map fun k => (k, s.filter fun r => key r = k)

theorem mem_groupBy {s : Multiset ρ} {k : κ} {g : Multiset ρ} :
    (k, g) ∈ groupBy key s ↔ (∃ r ∈ s, key r = k) ∧ g = s.filter fun r => key r = k := by
  simp only [groupBy, Multiset.mem_map, Multiset.mem_dedup, Prod.mk.injEq]
  constructor
  · rintro ⟨_, ⟨r, hr, rfl⟩, rfl, rfl⟩
    exact ⟨⟨r, hr, rfl⟩, rfl⟩
  · rintro ⟨⟨r, hr, rfl⟩, rfl⟩
    exact ⟨_, ⟨r, hr, rfl⟩, rfl, rfl⟩

@[simp] theorem keys_groupBy (s : Multiset ρ) : (groupBy key s).map Prod.fst = (s.map key).dedup := by
  simp [groupBy, Multiset.map_map]

theorem keys_groupBy_nodup (s : Multiset ρ) : ((groupBy key s).map Prod.fst).Nodup := by
  rw [keys_groupBy]
  exact Multiset.nodup_dedup _

/-- Grouping a column computed before is grouping by the computation. -/
theorem groupBy_map {α : Type*} (f : α → ρ) (s : Multiset α) :
    groupBy key (s.map f) = (groupBy (key ∘ f) s).map fun (k, g) => (k, g.map f) := by
  unfold groupBy
  rw [Multiset.map_map, Multiset.map_map]
  apply Multiset.map_congr rfl
  intro k _
  rw [Multiset.filter_map]
  rfl

theorem group_ne_zero {s : Multiset ρ} {k : κ} {g : Multiset ρ} (h : (k, g) ∈ groupBy key s) :
    g ≠ 0 := by
  obtain ⟨⟨r, hr, hk⟩, rfl⟩ := (mem_groupBy key).1 h
  intro h0
  have hmem : r ∈ s.filter fun x => key x = k := Multiset.mem_filter.2 ⟨hr, hk⟩
  exact Multiset.notMem_zero r (h0 ▸ hmem)

theorem mem_of_mem_group {s : Multiset ρ} {k : κ} {g : Multiset ρ} (h : (k, g) ∈ groupBy key s)
    {r : ρ} (hr : r ∈ g) : r ∈ s ∧ key r = k := by
  obtain ⟨-, rfl⟩ := (mem_groupBy key).1 h
  exact Multiset.mem_filter.1 hr

end GroupBy

/-! ## Left join -/

section LeftJoin

variable {ρ σ κ : Type*} [DecidableEq κ] (lkey : ρ → Option κ) (rkey : σ → Option κ)

/-- The keys of two rows are equal and not null. -/
def KeysMatch (x : ρ) (y : σ) : Prop := lkey x = rkey y ∧ (lkey x).isSome

instance (x : ρ) (y : σ) : Decidable (KeysMatch lkey rkey x y) :=
  inferInstanceAs (Decidable (_ ∧ _))

/-- The rows one row is joined to. -/
def joinRow (r : Multiset σ) (x : ρ) : Multiset (ρ × Option σ) :=
  let hits := r.filter (KeysMatch lkey rkey x)
  if hits.card = 0 then {(x, none)} else hits.map fun y => (x, some y)

/-- `left join … on` equality of two nullable keys. -/
def leftJoin (l : Multiset ρ) (r : Multiset σ) : Multiset (ρ × Option σ) :=
  l.bind (joinRow lkey rkey r)

theorem mem_joinRow {r : Multiset σ} {x x' : ρ} {o : Option σ} :
    (x', o) ∈ joinRow lkey rkey r x ↔ x' = x ∧
      ((o = none ∧ ∀ y ∈ r, ¬ KeysMatch lkey rkey x y) ∨
        ∃ y ∈ r, KeysMatch lkey rkey x y ∧ o = some y) := by
  simp only [joinRow]
  split
  · next h =>
    have hnone : ∀ y ∈ r, ¬ KeysMatch lkey rkey x y :=
      Multiset.filter_eq_nil.1 (Multiset.card_eq_zero.1 h)
    rw [Multiset.mem_singleton, Prod.mk.injEq]
    refine and_congr_right fun _ => ⟨fun ho => .inl ⟨ho, hnone⟩, ?_⟩
    rintro (⟨ho, -⟩ | ⟨y, hy, hm, -⟩)
    · exact ho
    · exact absurd hm (hnone y hy)
  · next h =>
    have hsome : ¬ ∀ y ∈ r, ¬ KeysMatch lkey rkey x y := fun hn =>
      h (Multiset.card_eq_zero.2 (Multiset.filter_eq_nil.2 hn))
    simp only [Multiset.mem_map, Multiset.mem_filter, Prod.mk.injEq]
    constructor
    · rintro ⟨y, ⟨hy, hm⟩, rfl, rfl⟩
      exact ⟨rfl, .inr ⟨y, hy, hm, rfl⟩⟩
    · rintro ⟨rfl, ⟨-, hn⟩ | ⟨y, hy, hm, rfl⟩⟩
      · exact absurd hn hsome
      · exact ⟨y, ⟨hy, hm⟩, rfl, rfl⟩

theorem mem_leftJoin {l : Multiset ρ} {r : Multiset σ} {x : ρ} {o : Option σ} :
    (x, o) ∈ leftJoin lkey rkey l r ↔ x ∈ l ∧
      ((o = none ∧ ∀ y ∈ r, ¬ KeysMatch lkey rkey x y) ∨
        ∃ y ∈ r, KeysMatch lkey rkey x y ∧ o = some y) := by
  simp only [leftJoin, Multiset.mem_bind, mem_joinRow]
  constructor
  · rintro ⟨_, hx, rfl, h⟩
    exact ⟨hx, h⟩
  · rintro ⟨hx, h⟩
    exact ⟨x, hx, rfl, h⟩

theorem joinRow_eq_singleton {r : Multiset σ} (hr : (r.map rkey).Nodup) (x : ρ) :
    ∃ o, joinRow lkey rkey r x = {(x, o)} := by
  unfold joinRow
  by_cases h : (r.filter (KeysMatch lkey rkey x)).card = 0
  · exact ⟨none, by simp only [h, if_true]⟩
  · have hle : (r.filter (KeysMatch lkey rkey x)).card ≤ 1 := by
      have hcount : (r.map rkey).count (lkey x) ≤ 1 := Multiset.nodup_iff_count_le_one.1 hr _
      rw [Multiset.count_map] at hcount
      exact (Multiset.card_le_card (Multiset.monotone_filter_right r fun y hy => hy.1)).trans hcount
    obtain ⟨y, hy⟩ := Multiset.card_eq_one.1
      (show (r.filter (KeysMatch lkey rkey x)).card = 1 by omega)
    exact ⟨some y, by rw [hy]; rfl⟩

/-- **A join on a unique key** keeps each row of the left side once. -/
theorem map_fst_leftJoin {r : Multiset σ} (hr : (r.map rkey).Nodup) (l : Multiset ρ) :
    (leftJoin lkey rkey l r).map Prod.fst = l := by
  unfold leftJoin
  rw [Multiset.map_bind]
  have hone : ∀ x, (joinRow lkey rkey r x).map Prod.fst = {x} := by
    intro x
    obtain ⟨o, ho⟩ := joinRow_eq_singleton lkey rkey hr x
    rw [ho]
    rfl
  simp only [hone]
  exact (Multiset.bind_singleton l id).trans (Multiset.map_id l)

/-- The rows of the right side with the key of a row, unless there are none. -/
def groupOf (r : Multiset σ) (x : ρ) : Option (Multiset σ) :=
  let g := r.filter (KeysMatch lkey rkey x)
  if g.card = 0 then none else some g

theorem groupOf_eq_none {r : Multiset σ} {x : ρ} (h : ∀ y ∈ r, ¬ KeysMatch lkey rkey x y) :
    groupOf lkey rkey r x = none :=
  if_pos (Multiset.card_eq_zero.2 (Multiset.filter_eq_nil.2 h))

theorem groupOf_eq {r : Multiset σ} {x : ρ} (hx : (lkey x).isSome = true) :
    groupOf lkey rkey r x =
      if (r.filter fun y => rkey y = lkey x).card = 0 then none
      else some (r.filter fun y => rkey y = lkey x) := by
  have hsame : r.filter (KeysMatch lkey rkey x) = r.filter fun y => rkey y = lkey x := by
    apply Multiset.filter_congr
    intro y _
    exact ⟨fun hm => hm.1.symm, fun he => ⟨he.symm, hx⟩⟩
  rw [← hsame]
  rfl

theorem groupOf_eq_some {r : Multiset σ} {x : ρ} {y : σ} (hy : y ∈ r)
    (hm : KeysMatch lkey rkey x y) :
    groupOf lkey rkey r x = some (r.filter fun y => rkey y = lkey x) := by
  rw [groupOf_eq lkey rkey hm.2]
  refine if_neg fun h0 => ?_
  exact Multiset.filter_eq_nil.1 (Multiset.card_eq_zero.1 h0) y hy hm.1.symm

/-- **A join with groups** attaches the group of its key to each row. -/
theorem leftJoin_groupBy (l : Multiset ρ) (r : Multiset σ) :
    leftJoin lkey Prod.fst l (groupBy rkey r) =
      l.map fun x => (x, (groupOf lkey rkey r x).map fun g => (lkey x, g)) := by
  have hrow : ∀ x, joinRow lkey Prod.fst (groupBy rkey r) x =
      {(x, (groupOf lkey rkey r x).map fun g => (lkey x, g))} := by
    intro x
    obtain ⟨o, ho⟩ := joinRow_eq_singleton lkey Prod.fst (keys_groupBy_nodup rkey r) x
    have hmem : (x, o) ∈ joinRow lkey Prod.fst (groupBy rkey r) x := by
      rw [ho]
      exact Multiset.mem_singleton_self _
    rw [ho]
    obtain ⟨-, ⟨rfl, hnone⟩ | ⟨⟨k, g⟩, hg, hm, rfl⟩⟩ := (mem_joinRow _ _).1 hmem
    · rw [groupOf_eq_none lkey rkey fun y hy hm => hnone (rkey y, _)
        ((mem_groupBy rkey).2 ⟨⟨y, hy, rfl⟩, rfl⟩) hm]
      rfl
    · obtain rfl : lkey x = k := hm.1
      obtain ⟨⟨y, hy, hk⟩, rfl⟩ := (mem_groupBy rkey).1 hg
      rw [groupOf_eq_some lkey rkey hy ⟨hk.symm, hm.2⟩]
      rfl
  unfold leftJoin
  simp only [hrow]
  exact Multiset.bind_singleton l _

/-- Columns computed from the left side alone may be computed after the join. -/
theorem leftJoin_map_left {α : Type*} (f : α → ρ) (l : Multiset α) (r : Multiset σ) :
    leftJoin lkey rkey (l.map f) r =
      (leftJoin (lkey ∘ f) rkey l r).map fun (x, o) => (f x, o) := by
  have hrow : ∀ x, joinRow lkey rkey r (f x) =
      (joinRow (lkey ∘ f) rkey r x).map fun (x, o) => (f x, o) := by
    intro x
    unfold joinRow
    have hhits : r.filter (KeysMatch lkey rkey (f x)) = r.filter (KeysMatch (lkey ∘ f) rkey x) :=
      Multiset.filter_congr fun _ _ => Iff.rfl
    by_cases hnone : (r.filter (KeysMatch (lkey ∘ f) rkey x)).card = 0
    · simp only [hhits, hnone, if_true, Multiset.map_singleton]
    · simp only [hhits, hnone, if_false, Multiset.map_map]
      rfl
  unfold leftJoin
  rw [Multiset.bind_map, Multiset.map_bind]
  exact Multiset.bind_congr fun x _ => hrow x

theorem leftJoin_map_right {β : Type*} (g : β → σ) (l : Multiset ρ) (r : Multiset β) :
    leftJoin lkey rkey l (r.map g) =
      (leftJoin lkey (rkey ∘ g) l r).map fun (x, o) => (x, o.map g) := by
  have hrow : ∀ x, joinRow lkey rkey (r.map g) x =
      (joinRow lkey (rkey ∘ g) r x).map fun (x, o) => (x, o.map g) := by
    intro x
    unfold joinRow
    have hhits : (r.map g).filter (KeysMatch lkey rkey x) =
        (r.filter (KeysMatch lkey (rkey ∘ g) x)).map g := Multiset.filter_map _ _ _
    by_cases hnone : (r.filter (KeysMatch lkey (rkey ∘ g) x)).card = 0
    · simp only [hhits, Multiset.card_map, hnone, if_true, Multiset.map_singleton, Option.map_none]
    · simp only [hhits, Multiset.card_map, hnone, if_false, Multiset.map_map]
      rfl
  unfold leftJoin
  rw [Multiset.map_bind]
  exact Multiset.bind_congr fun x _ => hrow x

/-- **A join with a row for each group** looks up the group of each key that is not null. -/
theorem leftJoin_groups {β : Type*} {ckey : β → Option κ} {f : Option κ × Multiset σ → β}
    (hkey : ckey ∘ f = Prod.fst) {l : Multiset ρ} (hl : ∀ x ∈ l, (lkey x).isSome = true)
    (r : Multiset σ) :
    leftJoin lkey ckey l ((groupBy rkey r).map f) =
      l.map fun x => (x, if (r.filter fun y => rkey y = lkey x).card = 0 then none
        else some (f (lkey x, r.filter fun y => rkey y = lkey x))) := by
  rw [leftJoin_map_right, hkey, leftJoin_groupBy, Multiset.map_map]
  apply Multiset.map_congr rfl
  intro x hx
  simp only [Function.comp_apply, groupOf_eq lkey rkey (hl x hx)]
  by_cases hnone : (r.filter fun y => rkey y = lkey x).card = 0
  · rw [if_pos hnone, if_pos hnone, Option.map_none, Option.map_none]
  · rw [if_neg hnone, if_neg hnone, Option.map_some, Option.map_some]

end LeftJoin

/-! ## Sums over groups and joins -/

section Sums

variable {ρ σ κ M : Type*} [AddCommMonoid M]

theorem sum_map_ite_const (p : ρ → Prop) [DecidablePred p] (c : M) (l : Multiset ρ) :
    (l.map fun x => if p x then c else 0).sum = (l.filter p).card • c := by
  induction l using Multiset.induction with
  | empty => simp
  | cons x l ih =>
    rw [Multiset.map_cons, Multiset.sum_cons, ih]
    by_cases h : p x
    · rw [if_pos h, Multiset.filter_cons_of_pos _ h, Multiset.card_cons, succ_nsmul']
    · rw [if_neg h, Multiset.filter_cons_of_neg _ h, zero_add]

/-- Rows of which each belongs to exactly one row of the other side are summed once there. -/
theorem sum_of_unique (R : ρ → σ → Prop) [∀ x y, Decidable (R x y)] (w : σ → M)
    {l : Multiset ρ} {r : Multiset σ} (h : ∀ y ∈ r, (l.filter fun x => R x y).card = 1) :
    (l.map fun x => ((r.filter (R x)).map w).sum).sum = (r.map w).sum := by
  induction r using Multiset.induction with
  | empty => simp
  | cons y r ih =>
    obtain ⟨hy, hr⟩ := Multiset.forall_mem_cons.1 h
    have hrow : ∀ x, (((y ::ₘ r).filter (R x)).map w).sum =
        (if R x y then w y else 0) + ((r.filter (R x)).map w).sum := by
      intro x
      by_cases hx : R x y
      · rw [Multiset.filter_cons_of_pos _ hx, Multiset.map_cons, Multiset.sum_cons, if_pos hx]
      · rw [Multiset.filter_cons_of_neg _ hx, if_neg hx, zero_add]
    calc (l.map fun x => (((y ::ₘ r).filter (R x)).map w).sum).sum
        = (l.map fun x => if R x y then w y else 0).sum +
            (l.map fun x => ((r.filter (R x)).map w).sum).sum := by
          simp only [hrow, Multiset.sum_map_add]
      _ = w y + (r.map w).sum := by
          rw [sum_map_ite_const, hy, one_nsmul, ih hr]
      _ = ((y ::ₘ r).map w).sum := by
          rw [Multiset.map_cons, Multiset.sum_cons]

theorem card_filter_eq_one [DecidableEq ρ] {l : Multiset ρ} (hl : l.Nodup) {k : ρ} (hk : k ∈ l) :
    (l.filter fun x => k = x).card = 1 := by
  rw [← Multiset.count_eq_card_filter_eq]
  exact Multiset.count_eq_one_of_mem hl hk

theorem card_eq_one_iff {s : Multiset ρ} (hs : s.Nodup) {a : ρ} (ha : a ∈ s) :
    s.card = 1 ↔ ∀ b ∈ s, b = a := by
  rw [Multiset.card_eq_one]
  constructor
  · rintro ⟨x, rfl⟩ b hb
    rw [Multiset.mem_singleton.1 hb, Multiset.mem_singleton.1 ha]
  · intro h
    refine ⟨a, (Multiset.Nodup.ext hs (Multiset.nodup_singleton a)).2 fun b => ?_⟩
    rw [Multiset.mem_singleton]
    exact ⟨h b, fun he => he ▸ ha⟩

/-- Pairs of related rows, counted from either side. -/
theorem sum_card_filter (R : ρ → σ → Prop) [∀ x y, Decidable (R x y)] (l : Multiset ρ)
    (r : Multiset σ) :
    (l.map fun x => (r.filter (R x)).card).sum =
      (r.map fun y => (l.filter fun x => R x y).card).sum := by
  have hleft : ∀ x, (r.filter (R x)).card = (r.map fun y => if R x y then 1 else 0).sum := by
    intro x
    rw [sum_map_ite_const, smul_eq_mul, mul_one]
  have hright : ∀ y, (l.filter fun x => R x y).card =
      (l.map fun x => if R x y then 1 else 0).sum := by
    intro y
    rw [sum_map_ite_const (fun x => R x y), smul_eq_mul, mul_one]
  simp only [hleft, hright]
  exact Multiset.sum_map_sum_map l r

/-- Counts of at least one add up to the number of rows exactly when each is one. -/
theorem sum_eq_card_iff {f : ρ → Nat} {s : Multiset ρ} (h : ∀ x ∈ s, 1 ≤ f x) :
    (s.map f).sum = s.card ↔ ∀ x ∈ s, f x = 1 := by
  induction s using Multiset.induction with
  | empty => simp
  | cons x s ih =>
    obtain ⟨hx, hs⟩ := Multiset.forall_mem_cons.1 h
    have hle : s.card ≤ (s.map f).sum := by
      have hcard := Multiset.card_nsmul_le_sum (s := s.map f) (a := 1)
        (Multiset.forall_mem_map_iff.2 hs)
      rwa [Multiset.card_map, smul_eq_mul, mul_one] at hcard
    rw [Multiset.map_cons, Multiset.sum_cons, Multiset.card_cons, Multiset.forall_mem_cons, ← ih hs]
    omega

/-- The sums of the groups add up to the sum of the rows. -/
theorem sum_groupBy [DecidableEq κ] (key : ρ → κ) (w : ρ → M) (s : Multiset ρ) :
    ((groupBy key s).map fun g => (g.2.map w).sum).sum = (s.map w).sum := by
  unfold groupBy
  rw [Multiset.map_map]
  apply sum_of_unique (fun k r => key r = k) w
  intro r hr
  exact card_filter_eq_one (Multiset.nodup_dedup _)
    (Multiset.mem_dedup.2 (Multiset.mem_map_of_mem key hr))

/-- Unique keys of the left side sum the rows of the right side that have one of them. -/
theorem sum_matching [DecidableEq κ] (lkey : ρ → κ) (rkey : σ → κ) (w : σ → M) {l : Multiset ρ}
    (hl : (l.map lkey).Nodup) (r : Multiset σ) :
    (l.map fun x => ((r.filter fun y => rkey y = lkey x).map w).sum).sum =
      ((r.filter fun y => rkey y ∈ l.map lkey).map w).sum := by
  rw [← sum_of_unique (fun x y => rkey y = lkey x) w fun y hy => ?_]
  · refine congrArg Multiset.sum (Multiset.map_congr rfl fun x hx => ?_)
    rw [Multiset.filter_filter]
    refine congrArg (fun t => (Multiset.map w t).sum) (Multiset.filter_congr fun y _ => ?_)
    exact ⟨fun he => ⟨he, he ▸ Multiset.mem_map_of_mem lkey hx⟩, And.left⟩
  · have hone := card_filter_eq_one hl (Multiset.mem_filter.1 hy).2
    rwa [Multiset.filter_map, Multiset.card_map] at hone

/-- A left join whose left keys are unique and know every key of the right side sums a right column
as the right side does. -/
theorem sum_leftJoin [DecidableEq κ] {lkey : ρ → Option κ} {rkey : σ → Option κ} (w : σ → M)
    {l : Multiset ρ} {r : Multiset σ} (hl : (l.map lkey).Nodup)
    (hr : ∀ y ∈ r, ∃ x ∈ l, KeysMatch lkey rkey x y) :
    ((leftJoin lkey rkey l r).map fun p => (p.2.map w).getD 0).sum = (r.map w).sum := by
  have hkey : ∀ y ∈ r, (rkey y).isSome = true ∧ rkey y ∈ l.map lkey := by
    intro y hy
    obtain ⟨x, hx, hm⟩ := hr y hy
    rw [← hm.1]
    exact ⟨hm.2, Multiset.mem_map_of_mem lkey hx⟩
  have hrow : ∀ x, ((joinRow lkey rkey r x).map fun p => (p.2.map w).getD 0).sum =
      ((r.filter fun y => rkey y = lkey x).map w).sum := by
    intro x
    have hhits : r.filter (KeysMatch lkey rkey x) = r.filter fun y => rkey y = lkey x :=
      Multiset.filter_congr fun y hy =>
        ⟨fun hm => hm.1.symm, fun he => ⟨he.symm, he ▸ (hkey y hy).1⟩⟩
    unfold joinRow
    rw [← hhits]
    by_cases h : (r.filter (KeysMatch lkey rkey x)).card = 0
    · rw [Multiset.card_eq_zero.1 h]
      simp
    · simp only [h, if_false, Multiset.map_map]
      rfl
  unfold leftJoin
  rw [Multiset.map_bind, Multiset.sum_bind]
  simp only [hrow]
  rw [sum_matching lkey rkey w hl r, Multiset.filter_eq_self.2 fun y hy => (hkey y hy).2]

end Sums

/-! ## Aggregates -/

section Aggregates

variable {α : Type*}

/-- `count` of a column: its values that are not null. -/
def sqlCount (s : Multiset (Option α)) : Nat := s.countP fun x => x.isSome

theorem sqlCount_eq_card {s : Multiset (Option α)} (h : ∀ x ∈ s, x.isSome = true) :
    sqlCount s = s.card := Multiset.countP_eq_card.2 h

/-- An aggregate that skips nulls and is null on a group without a value. -/
def aggregate (f : α → α → α) [Std.Commutative f] [Std.Associative f] (s : Multiset (Option α)) :
    Option α :=
  s.fold (Option.merge f) none

/-- `SUM`. -/
def sqlSum (s : Multiset (Option Int)) : Option Int := aggregate (· + ·) s

/-- `MIN`. -/
def sqlMin [LinearOrder α] (s : Multiset (Option α)) : Option α := aggregate min s

/-- `MAX`. -/
def sqlMax [LinearOrder α] (s : Multiset (Option α)) : Option α := aggregate max s

@[simp] theorem aggregate_cons (f : α → α → α) [Std.Commutative f] [Std.Associative f]
    (x : Option α) (s : Multiset (Option α)) :
    aggregate f (x ::ₘ s) = Option.merge f x (aggregate f s) := Multiset.fold_cons_left _ _ _ _

theorem aggregate_isSome (f : α → α → α) [Std.Commutative f] [Std.Associative f]
    (s : Multiset (Option α)) : (aggregate f s).isSome = true ↔ ∃ x ∈ s, x.isSome = true := by
  induction s using Multiset.induction with
  | empty => simp [aggregate]
  | cons x s ih =>
    have hcons : (∃ y ∈ x ::ₘ s, y.isSome = true) ↔ x.isSome = true ∨ ∃ y ∈ s, y.isSome = true := by
      simp
    rw [aggregate_cons, hcons, ← ih]
    cases x with
    | none => simp
    | some a => cases aggregate f s <;> simp

/-- What an aggregate that picks one of two values is: null where every value is, or a value that is
in relation to all of them. -/
theorem aggregate_pick (f : α → α → α) [Std.Commutative f] [Std.Associative f] {R : α → α → Prop}
    [Std.Refl R] [IsTrans α R] (hpick : ∀ a b, f a b = a ∨ f a b = b) (hle : ∀ a b, R (f a b) a)
    (s : Multiset (Option α)) :
    (aggregate f s = none ∧ ∀ x ∈ s, x = none) ∨
      ∃ m, aggregate f s = some m ∧ some m ∈ s ∧ ∀ y, some y ∈ s → R m y := by
  induction s using Multiset.induction with
  | empty => exact .inl ⟨rfl, fun x hx => absurd hx (Multiset.notMem_zero x)⟩
  | cons x s ih =>
    rw [aggregate_cons]
    cases x with
    | none =>
      rw [Option.merge_none_left]
      rcases ih with ⟨hnone, hall⟩ | ⟨m, hm, hmem, hmin⟩
      · exact .inl ⟨hnone, Multiset.forall_mem_cons.2 ⟨rfl, hall⟩⟩
      · refine .inr ⟨m, hm, Multiset.mem_cons_of_mem hmem, fun y hy => hmin y ?_⟩
        exact (Multiset.mem_cons.1 hy).resolve_left nofun
    | some a =>
      rcases ih with ⟨hnone, hall⟩ | ⟨m, hm, hmem, hmin⟩
      · refine .inr ⟨a, by rw [hnone]; rfl, Multiset.mem_cons_self _ _, fun y hy => ?_⟩
        rcases Multiset.mem_cons.1 hy with heq | hy
        · obtain rfl := Option.some.inj heq
          exact Std.Refl.refl y
        · exact absurd (hall _ hy) nofun
      · refine .inr ⟨f a m, by rw [hm]; rfl, ?_, fun y hy => ?_⟩
        · rcases hpick a m with heq | heq
          · rw [heq]
            exact Multiset.mem_cons_self _ _
          · rw [heq]
            exact Multiset.mem_cons_of_mem hmem
        · rcases Multiset.mem_cons.1 hy with heq | hy
          · obtain rfl := Option.some.inj heq
            exact hle y m
          · have hcomm : f a m = f m a := Std.Commutative.comm a m
            exact IsTrans.trans _ _ _ (hcomm ▸ hle m a) (hmin y hy)

theorem sqlMin_spec [LinearOrder α] (s : Multiset (Option α)) :
    (sqlMin s = none ∧ ∀ x ∈ s, x = none) ∨
      ∃ m, sqlMin s = some m ∧ some m ∈ s ∧ ∀ y, some y ∈ s → m ≤ y :=
  aggregate_pick min (fun a b => min_choice a b) (fun a b => min_le_left a b) s

theorem sqlMax_spec [LinearOrder α] (s : Multiset (Option α)) :
    (sqlMax s = none ∧ ∀ x ∈ s, x = none) ∨
      ∃ m, sqlMax s = some m ∧ some m ∈ s ∧ ∀ y, some y ∈ s → y ≤ m :=
  aggregate_pick max (R := fun a b => b ≤ a) (fun a b => max_choice a b)
    (fun a b => le_max_left a b) s

theorem getD_sqlSum (s : Multiset (Option Int)) : (sqlSum s).getD 0 = (s.map (·.getD 0)).sum := by
  unfold sqlSum
  induction s using Multiset.induction with
  | empty => rfl
  | cons x s ih =>
    rw [aggregate_cons, Multiset.map_cons, Multiset.sum_cons, ← ih]
    cases x with
    | none => simp
    | some n => cases aggregate (fun x y : Int => x + y) s <;> simp

end Aggregates

/-! ## Queries that fail -/

section Collect

variable {α β : Type*}

/-- The rows of a query, unless the evaluation of one of them fails. -/
def collect (s : Multiset (Option α)) : Option (Multiset α) :=
  if ∀ x ∈ s, x.isSome = true then some (s.filterMap id) else none

/-- What is seen of the rows of a query of which no row fails. -/
theorem collect_view {γ : Type*} {f : α → Option β} {view : β → γ} {g : α → γ} {s : Multiset α}
    (h : ∀ x ∈ s, ∃ y, f x = some y ∧ view y = g x) :
    ∃ t, collect (s.map f) = some t ∧ t.map view = s.map g := by
  have hsome : ∀ y ∈ s.map f, y.isSome = true := by
    intro y hy
    obtain ⟨x, hx, rfl⟩ := Multiset.mem_map.1 hy
    obtain ⟨y, hy, -⟩ := h x hx
    rw [hy]
    rfl
  refine ⟨(s.map f).filterMap id, if_pos hsome, ?_⟩
  clear hsome
  induction s using Multiset.induction with
  | empty => rfl
  | cons x s ih =>
    obtain ⟨⟨y, hy, hview⟩, hs⟩ := Multiset.forall_mem_cons.1 h
    rw [Multiset.map_cons, Multiset.filterMap_cons_some id _ _ hy, Multiset.map_cons, hview, ih hs,
      Multiset.map_cons]

theorem map_of_collect {γ : Type*} {f : α → Option β} {view : β → γ} {g : α → γ} {s : Multiset α}
    {t : Multiset β} (ht : collect (s.map f) = some t)
    (h : ∀ x ∈ s, ∀ y, f x = some y → view y = g x) : t.map view = s.map g := by
  have hsome : ∀ y ∈ s.map f, y.isSome = true := by
    by_contra hfail
    rw [collect, if_neg hfail] at ht
    cases ht
  obtain ⟨t', ht', hview⟩ := @collect_view _ _ _ f view g s fun x hx => by
    obtain ⟨y, hy⟩ := Option.isSome_iff_exists.1 (hsome _ (Multiset.mem_map_of_mem f hx))
    exact ⟨y, hy, h x hx y hy⟩
  rw [ht, Option.some.injEq] at ht'
  rw [ht', hview]

/-- No row of a query that succeeds fails. -/
theorem exists_of_collect {f : α → Option β} {s : Multiset α} {t : Multiset β}
    (ht : collect (s.map f) = some t) {x : α} (hx : x ∈ s) : ∃ y, f x = some y := by
  unfold collect at ht
  split at ht
  · next h => exact Option.isSome_iff_exists.1 (h _ (Multiset.mem_map_of_mem f hx))
  · cases ht

theorem collect_map {f : α → Option β} {g : α → β} {s : Multiset α}
    (h : ∀ x ∈ s, f x = some (g x)) : collect (s.map f) = some (s.map g) := by
  obtain ⟨t, ht, hview⟩ := @collect_view _ _ _ f id g s fun x hx => ⟨g x, h x hx, rfl⟩
  rw [ht, ← hview, Multiset.map_id]

end Collect

end Lakehouse.Lib
