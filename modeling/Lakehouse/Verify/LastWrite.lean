import Lakehouse.Verify.SilverMirror

/-!
# The last write within one millisecond

The window that deduplicates orders is ordered by `ts_ms` alone, so of several changes with the
highest `ts_ms` of an order any one may be kept. Whatever order Spark presents the rows in, the last
committed image is kept exactly when all of those changes carry it (`silverOrders_keeps_last_iff`).
-/

namespace Lakehouse.Verify

open Lib Source Batch

namespace Captured

variable {α ρ : Type} (T : Captured α ρ)

/-- The changes of each row are in commit order and their `ts_ms` does not decrease. -/
def InCommitOrder (history : List (ChangeEvent α)) : Prop :=
  history.Pairwise fun e e' => T.keyOf e = T.keyOf e' → e.tsMs.toInt ≤ e'.tsMs.toInt

instance (history : List (ChangeEvent α)) : Decidable (T.InCommitOrder history) :=
  inferInstanceAs (Decidable (history.Pairwise _))

/-- The event is the last of its key. -/
def LastOf (history : List (ChangeEvent α)) (e : ChangeEvent α) : Prop :=
  ∃ before after, history = before ++ e :: after ∧ ∀ e' ∈ after, T.keyOf e' ≠ T.keyOf e

/-- Every change with the highest `ts_ms` of its key carries the image of the last change. -/
def TiesAgree (history : List (ChangeEvent α)) : Prop :=
  ∀ e ∈ history, T.Newest history e → ∀ last, T.LastOf history last → T.keyOf last = T.keyOf e →
    e.change.after = last.change.after

/-- For each key there is one row, and it carries the image of the last change of the key. -/
def KeepsLast (history : List (ChangeEvent α)) (rows : Multiset ρ) : Prop :=
  (rows.map T.keyCol).Nodup ∧ ∀ last, T.LastOf history last → ∀ a, last.change.after = some a →
    ∃ row ∈ rows, T.keyCol row = some (T.key a).toInt.repr ∧ ∃ op now, row = T.silverRow op now a

variable {T} {history : List (ChangeEvent α)} {now : Int} {uuid : Nat → String}

theorem LastOf.mem {e : ChangeEvent α} (h : T.LastOf history e) : e ∈ history := by
  obtain ⟨before, after, rfl, -⟩ := h
  simp

/-- The last event of a key is the newest one where times follow the commits. -/
theorem LastOf.newest {e : ChangeEvent α} (h : T.LastOf history e)
    (horder : T.InCommitOrder history) : T.Newest history e := by
  obtain ⟨before, after, rfl, hlast⟩ := h
  intro e' he' hk
  rcases List.mem_append.1 he' with he' | he'
  · exact (List.pairwise_append.1 horder).2.2 e' he' e List.mem_cons_self hk
  · rcases List.mem_cons.1 he' with rfl | he'
    · exact le_rfl
    · exact absurd hk (hlast e' he')

/-- What is selected from the rows of a history. -/
theorem select_cdcRows : (upserts (cdcRows T.table T.fields uuid now history)).map T.select =
    history.filterMap fun e => e.change.after.map fun a =>
      ⟨T.silverRow e.change.op now a, some e.tsMs.toInt⟩ := by
  induction history generalizing uuid with
  | nil => rfl
  | cons e history ih =>
    have hcons : cdcRows T.table T.fields uuid now (e :: history) =
        cdcRow T.table T.fields now (uuid 0) e ::
          cdcRows T.table T.fields (fun i => uuid (i + 1)) now history := List.mapIdx_cons
    rw [hcons]
    cases hafter : e.change.after with
    | none =>
      have hnot : ¬ IsUpsert (cdcRow T.table T.fields now (uuid 0) e) := by
        rw [isUpsert_cdcRow, hafter]
        simp
      rw [upserts_cons_of_neg hnot, ih, List.filterMap_cons_none (by rw [hafter]; rfl)]
    | some a =>
      have hup : IsUpsert (cdcRow T.table T.fields now (uuid 0) e) :=
        isUpsert_cdcRow.2 ⟨a, hafter⟩
      rw [upserts_cons_of_pos hup, List.map_cons, ih, T.select_cdcRow _ _ _ _ hafter,
        List.filterMap_cons_some (by rw [hafter]; rfl)]

/-- Of a table that is presented in any order the last row of each key is kept exactly when no other
event is as new. -/
theorem keepsLast_iff (now : Int) (uuid : Nat → String) (hinj : ∀ op now a op' now' a',
      T.silverRow op now a = T.silverRow op' now' a' → a = a')
    (hno : ∀ e ∈ history, e.change.isDelete = false) :
    (∀ raw : List CdcRow, raw.Perm (cdcRows T.table T.fields uuid now history) →
      T.KeepsLast history (latestUpserts T.select T.keyCol raw)) ↔ T.TiesAgree history := by
  constructor
  · intro h e he hnew last hlast hk
    obtain ⟨a, ha⟩ := isDelete_eq_false_iff.1 (hno e he)
    obtain ⟨b, hb⟩ := isDelete_eq_false_iff.1 (hno last hlast.mem)
    -- present the row of `e` before all others
    obtain ⟨r, hr, hup, hsel⟩ := exists_presented (.refl (cdcRows T.table T.fields uuid now history))
      he ha
    obtain ⟨pre, post, hsplit⟩ := List.append_of_mem hr
    have hperm : (r :: (pre ++ post)).Perm (cdcRows T.table T.fields uuid now history) := by
      rw [hsplit]
      exact List.perm_middle.symm
    have hfirst : (T.select r).row ∈ latestUpserts T.select T.keyCol (r :: (pre ++ post)) := by
      apply head_mem_latestUpserts hup
      intro r' hr' hup' hk'
      obtain ⟨i, e', hi, rfl⟩ := (mem_presented hperm).1 (List.mem_cons_of_mem _ hr')
      obtain ⟨a', ha'⟩ := isUpsert_cdcRow.1 hup'
      have hsel' := T.select_cdcRow now (uuid i) e' a' ha'
      rw [hsel', hsel, keyCol_silverRow_of_after _ _ ha', keyCol_silverRow_of_after _ _ ha,
        Option.some.injEq, repr_int64_inj] at hk'
      rw [hsel', hsel]
      exact WithBot.coe_le_coe.2 (hnew e' (List.mem_of_getElem? hi) hk')
    obtain ⟨hnodup, hkeeps⟩ := h _ hperm
    obtain ⟨row, hrow, hrk, op, now', rfl⟩ := hkeeps last hlast b hb
    have hsame : (T.select r).row = T.silverRow op now' b := by
      apply List.inj_on_of_nodup_map (Multiset.coe_nodup.1 hnodup) hfirst hrow
      rw [hsel, keyCol_silverRow_of_after _ _ ha, hrk, ← hk, keyOf_of_after hb]
    rw [hsel] at hsame
    rw [ha, hb, hinj _ _ _ _ _ _ hsame]
  · intro h raw hraw
    refine ⟨Multiset.coe_nodup.2 (latestUpserts_keys_nodup _ _ _), fun last hlast a ha => ?_⟩
    obtain ⟨row, hrow, hk⟩ := exists_latest hraw hlast.mem ha
    obtain ⟨e, he, b, hb, rfl, hmax⟩ := exists_of_mem_latest hraw hrow
    have hnew : T.Newest history e := fun e' he' hk' => hmax e' he' (hno e' he') hk'
    rw [keyCol_silverRow_of_after _ _ hb, Option.some.injEq, repr_int64_inj] at hk
    have hab := h e he hnew last hlast hk.symm
    rw [ha, hb, Option.some.injEq] at hab
    subst hab
    exact ⟨_, hrow, T.keyCol_silverRow _ _ _, _, _, rfl⟩

end Captured

/-- The columns taken from an image of an order determine it. -/
theorem orders_silverRow_inj {op op' : String} {now now' : Int} {a a' : OrderRow}
    (h : orders.silverRow op now a = orders.silverRow op' now' a') : a = a' := by
  simp only [orders, SilverOrder.mk.injEq, Option.some.injEq, repr_int64_inj] at h
  obtain ⟨hid, hcust, hstatus, htotal, -, hcreated, hupdated, -⟩ := h
  have hamount : a.totalAmount = a'.totalAmount := widen_inj htotal
  cases a
  cases a'
  simp_all

/-- **The last committed change wins** exactly when the changes that tie agree. For every history of
orders without deletes, `silver_orders` keeps for each order the image of its last change, whatever
order Spark presents the Bronze rows in, if and only if the changes with the highest `ts_ms` of each
order all carry that image. -/
theorem silverOrders_keeps_last_iff {env : String → IngestEnv} {topics : Topics}
    {history : List (ChangeEvent OrderRow)}
    (hcarries : Carries orders.table orders.fields (readTopic (topics "debezium.public.orders"))
      history)
    (hno : ∀ e ∈ history, e.change.isDelete = false) :
    (∀ raw : List CdcRow,
      (raw : Multiset CdcRow) = (bronzeIngest env topics Bronze.empty).1.cdc .cdcOrders →
      ∃ t, silverOrders raw Table.empty = some t ∧ orders.KeepsLast history t.rows) ↔
        orders.TiesAgree history := by
  rw [← Captured.keepsLast_iff (env "debezium.public.orders").now
    (env "debezium.public.orders").uuid (fun _ _ _ _ _ _ => orders_silverRow_inj) hno]
  have hfirst := presented_perm orders (.head _) hcarries (Presentation.ofIngest_of env topics _)
  have hwrite : ∀ raw : List CdcRow, raw.Perm (cdcRows orders.table orders.fields
      (env "debezium.public.orders").uuid (env "debezium.public.orders").now history) →
      ∃ t, silverOrders raw Table.empty = some t ∧ t.rows = latestOrders raw := fun raw hraw =>
    Table.overwritePartitions_empty ordersSpec
      (forall_latest hraw (p := fun r => ordersSpec.required r = true) fun _ _ => rfl)
  constructor
  · intro h raw hraw
    obtain ⟨t, ht, hkeeps⟩ := h raw <| by
      rw [← Presentation.ofIngest_of env topics .cdcOrders]
      exact Multiset.coe_eq_coe.2 (hraw.trans hfirst.symm)
    obtain ⟨t', ht', hrows⟩ := hwrite raw hraw
    obtain rfl : t = t' := Option.some.inj (ht.symm.trans ht')
    rwa [hrows] at hkeeps
  · intro h raw hraw
    have hperm := presented_perm orders (.head _) hcarries hraw
    obtain ⟨t, ht, hrows⟩ := hwrite raw hperm
    refine ⟨t, ht, ?_⟩
    rw [hrows]
    exact h raw hperm

/-! ## Runs on given histories -/

section Given

/-- The row that an update without a change ties with carries the same image. -/
def touched : List (ChangeEvent OrderRow) :=
  [⟨.create (order 1 "pending" 0), 1, none⟩,
    ⟨.update (order 1 "pending" 0) (order 1 "confirmed" 0), 2, none⟩,
    ⟨.update (order 1 "confirmed" 0) (order 1 "confirmed" 0), 2, none⟩]

theorem silverOrders_keeps_last_iff_touched : ∃ t,
    silverOrders (Presentation.ofIngest anEnv (topicsOf touched [] []) .cdcOrders) Table.empty =
      some t ∧ orders.KeepsLast touched t.rows := by
  have horder : orders.InCommitOrder touched := by decide
  have himage : ∀ e ∈ touched, orders.Newest touched e →
      e.change.after = some (order 1 "confirmed" 0) := by decide
  have hties : orders.TiesAgree touched := fun e he hnew last hlast _ =>
    (himage e he hnew).trans (himage last hlast.mem (hlast.newest horder)).symm
  exact (silverOrders_keeps_last_iff (carries_topicsOf touched [] []).1 (by decide)).2 hties _
    (Presentation.ofIngest_of anEnv _ _)

/-- The changes of one new order, as one transaction commits them: the insert with no total and the
update with it. -/
def createOrder : List (ChangeEvent OrderRow) :=
  [⟨.create (order 1 "pending" 0), 1, none⟩,
    ⟨.update (order 1 "pending" 0) (order 1 "pending" ⟨12999, by decide⟩), 1, none⟩]

/-- The update is committed last and the insert is kept. -/
theorem silverOrders_keeps_insert :
    (∀ e ∈ createOrder, e.change.isDelete = false) ∧ orders.InCommitOrder createOrder ∧
      ∃ raw : List CdcRow, (raw : Multiset CdcRow) =
          (bronzeIngest anEnv (topicsOf createOrder [] []) Bronze.empty).1.cdc .cdcOrders ∧
        ∃ t, silverOrders raw Table.empty = some t ∧
          t.rows = [orders.silverRow "c" 0 (order 1 "pending" 0)] := by
  have hraw := Presentation.ofIngest_of anEnv (topicsOf createOrder [] []) .cdcOrders
  have hcarries := (carries_topicsOf createOrder [] []).1
  have hparse : Presentation.ofIngest anEnv (topicsOf createOrder [] []) .cdcOrders =
      cdcRows orders.table orders.fields (anEnv "").uuid 0 createOrder :=
    parseDebeziumEnvelope_carries _ _ _ _ hcarries
  -- presented in the order of arrival, the insert is numbered first
  have hkept : latestOrders (cdcRows orders.table orders.fields (anEnv "").uuid 0 createOrder) =
      [orders.silverRow "c" 0 (order 1 "pending" 0)] := by
    change List.map _ (latestPerKey _ _ ((upserts _).map orders.select)) = _
    rw [Captured.select_cdcRows]
    decide
  rw [hparse] at hraw
  obtain ⟨t, ht, hrows⟩ := Table.overwritePartitions_empty ordersSpec
    (show ∀ r ∈ ([orders.silverRow "c" 0 (order 1 "pending" 0)] : Multiset SilverOrder),
      ordersSpec.required r = true by decide)
  exact ⟨by decide, by decide, _, hraw, t, by rw [silverOrders, hkept]; exact ht, hrows⟩

end Given

end Lakehouse.Verify
