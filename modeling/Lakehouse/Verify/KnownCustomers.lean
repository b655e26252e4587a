import Lakehouse.Lib.Runs
import Lakehouse.Verify.Dedup

/-!
# Orders of known customers

Batch runs step by step while the source commits. The Bronze job reads the topics one after the
other, the orders first; by then the customer of every order it reads is visible, so the later read
of the customers has it, or has it in Bronze already (`ingest_spec`). The two Silver writes of a run
see the same Bronze, so after them every customer of an order has a row
(`orders_reference_known_customers`). A run may fail after any step; every run that is started again
can be completed (`exists_completed`).
-/

namespace Lakehouse.Verify

open Lib Source Batch

/-! ## The source log -/

/-- A committed change of a captured table. -/
inductive LogEntry where
  | order (e : ChangeEvent OrderRow)
  | customer (e : ChangeEvent CustomerRow)
  | item (e : ChangeEvent OrderItemRow)

/-- The events of the orders in a log. -/
def orderChangesOf (log : List LogEntry) : List (ChangeEvent OrderRow) :=
  log.filterMap fun | .order e => some e | _ => none

/-- The events of the customers. -/
def customerChangesOf (log : List LogEntry) : List (ChangeEvent CustomerRow) :=
  log.filterMap fun | .customer e => some e | _ => none

/-- The events of the items. -/
def itemChangesOf (log : List LogEntry) : List (ChangeEvent OrderItemRow) :=
  log.filterMap fun | .item e => some e | _ => none

/-- An image of the customer is in the log. -/
def KnownIn (log : List LogEntry) (customerId : Int64) : Prop :=
  ∃ c ∈ (customerChangesOf log).filterMap (·.change.after), c.customerId = customerId

/-- The foreign key: the customer of an order was committed before. -/
def Referenced (log : List LogEntry) (entry : LogEntry) : Prop :=
  ∀ e, entry = .order e → ∀ a, e.change.after = some a → KnownIn log a.customerId

/-! ## Batch runs -/

section Runs

variable {bucketHash : String → Nat}

/-- The log, split at what is visible in the topics; the tables; and the steps the current run has
completed: the lanes of Bronze, then the tables of Silver. -/
structure BatchState (bucketHash : String → Nat) where
  visible : List LogEntry
  pending : List LogEntry
  bronze : Bronze
  silver : Silver bucketHash
  done : Nat

/-- Before the first step. -/
def BatchState.empty : BatchState bucketHash := ⟨[], [], Bronze.empty, Silver.empty, 0⟩

/-- A topic carries visible changes of its table, and all of those that Bronze does not have. -/
def Retains {α ρ : Type} (T : Captured α ρ) (changes : List (ChangeEvent α))
    (ingested : Multiset CdcRow) (records : List KafkaRecord) : Prop :=
  ∃ history, Carries T.table T.fields (readTopic records) history ∧ history.Sublist changes ∧
    ∀ e ∈ changes, e ∈ history ∨ ∃ now cdcId, cdcRow T.table T.fields now cdcId e ∈ ingested

/-- What the topics may hold when a lane is read. -/
structure Holds (s : BatchState bucketHash) (topics : Topics) : Prop where
  orders : Retains orders (orderChangesOf s.visible) (s.bronze.cdc .cdcOrders)
    (topics "debezium.public.orders")
  customers : Retains customers (customerChangesOf s.visible) (s.bronze.cdc .cdcCustomers)
    (topics "debezium.public.customers")
  items : Retains orderItems (itemChangesOf s.visible) (s.bronze.cdc .cdcOrderItems)
    (topics "debezium.public.order_items")

/-- One step of the source, of the connector or of a batch run. -/
inductive BatchStep : BatchState bucketHash → BatchState bucketHash → Prop
  /-- The source commits a change. -/
  | commit {s : BatchState bucketHash} (entry : LogEntry)
    (href : Referenced (s.visible ++ s.pending) entry) :
    BatchStep s { s with pending := s.pending ++ [entry] }
  /-- The oldest committed change becomes visible. -/
  | publish {s : BatchState bucketHash} {entry : LogEntry} {rest : List LogEntry}
    (hnext : s.pending = entry :: rest) :
    BatchStep s { s with visible := s.visible ++ [entry], pending := rest }
  /-- A run starts, whether the one before it completed or failed. -/
  | start {s : BatchState bucketHash} : BatchStep s { s with done := 0 }
  | ingest {s : BatchState bucketHash} {lane : Lane} (hlane : lanes[s.done]? = some lane)
    {topics : Topics} (hholds : Holds s topics) (env : String → IngestEnv) :
    BatchStep s { s with
      bronze := (ingestLane env topics (s.bronze, 0) lane).1
      done := s.done + 1 }
  | writeOrders {s : BatchState bucketHash} (hdone : s.done = lanes.length) {raw : List CdcRow}
    (hraw : (raw : Multiset CdcRow) = s.bronze.cdc .cdcOrders) {t : Table ordersSpec}
    (hwrite : silverOrders raw s.silver.orders = some t) :
    BatchStep s { s with silver := { s.silver with orders := t }, done := s.done + 1 }
  | writeCustomers {s : BatchState bucketHash} (hdone : s.done = lanes.length + 1)
    {raw : List CdcRow} (hraw : (raw : Multiset CdcRow) = s.bronze.cdc .cdcCustomers)
    {t : Table customersSpec} (hwrite : silverCustomers raw s.silver.customers = some t) :
    BatchStep s { s with silver := { s.silver with customers := t }, done := s.done + 1 }
  | writeItems {s : BatchState bucketHash} (hdone : s.done = lanes.length + 2) {raw : List CdcRow}
    (hraw : (raw : Multiset CdcRow) = s.bronze.cdc .cdcOrderItems)
    {t : Table (orderItemsSpec bucketHash)}
    (hwrite : silverOrderItems raw s.silver.orders s.silver.orderItems = some t) :
    BatchStep s { s with silver := { s.silver with orderItems := t }, done := s.done + 1 }

/-- A completed Bronze and Silver run. -/
def BatchState.completed (s : BatchState bucketHash) : Prop := s.done = lanes.length + 3

/-- Every customer of an order has a row. -/
def KnowsCustomers (silver : Silver bucketHash) : Prop :=
  ∀ o ∈ silver.orders.rows, o.customerId ∈ silver.customers.rows.map SilverCustomer.customerId

/-! ## What an ingest does -/

/-- The lanes by their position. -/
theorem lane_cases {n : Nat} {lane : Lane} (h : lanes[n]? = some lane) :
    (n = 0 ∧ lane = .cdc "debezium.public.orders" .cdcOrders) ∨
      (n = 1 ∧ lane = .cdc "debezium.public.customers" .cdcCustomers) ∨
      (n = 2 ∧ lane = .cdc "debezium.public.order_items" .cdcOrderItems) ∨
      (n = 3 ∧ lane = .events) := by
  match n, h with
  | 0, h => exact .inl ⟨rfl, (Option.some.inj h).symm⟩
  | 1, h => exact .inr (.inl ⟨rfl, (Option.some.inj h).symm⟩)
  | 2, h => exact .inr (.inr (.inl ⟨rfl, (Option.some.inj h).symm⟩))
  | 3, h => exact .inr (.inr (.inr ⟨rfl, (Option.some.inj h).symm⟩))

/-- The tables after a step of the job: one of them grows by what its topic carries. -/
theorem ingestLane_cdc (env : String → IngestEnv) (topics : Topics) (b : Bronze) (topic : String)
    (table : CdcTable) :
    (ingestLane env topics (b, 0) (.cdc topic table)).1.cdc = Function.update b.cdc table
      (b.cdc table +
        parseDebeziumEnvelope (env topic).uuid (env topic).now (readTopic (topics topic))) := by
  rw [← ingestTopic_fst]
  rfl

/-- A read appends rows of visible changes, and then no visible change is missing. -/
theorem Retains.append {α ρ : Type} {T : Captured α ρ} {changes : List (ChangeEvent α)}
    {ingested : Multiset CdcRow} {records : List KafkaRecord}
    (h : Retains T changes ingested records) (uuid : Nat → String) (now : Int) :
    (∀ r ∈ (parseDebeziumEnvelope uuid now (readTopic records) : Multiset CdcRow),
      FromHistory T changes r) ∧
    ∀ e ∈ changes, ∃ now' cdcId, cdcRow T.table T.fields now' cdcId e ∈
      ingested + parseDebeziumEnvelope uuid now (readTopic records) := by
  obtain ⟨history, hcarries, hsub, hall⟩ := h
  rw [parseDebeziumEnvelope_carries _ _ _ _ hcarries]
  constructor
  · intro r hr
    exact (fromHistory_of_mem_cdcRows (Multiset.mem_coe.1 hr)).mono fun e he => hsub.subset he
  · intro e he
    rcases hall e he with hin | ⟨now', cdcId, hrow⟩
    · obtain ⟨i, hi⟩ := List.mem_iff_getElem?.1 hin
      exact ⟨now, uuid i, Multiset.mem_add.2 (.inr (Multiset.mem_coe.2
        ((mem_cdcRows _ _ _ _).2 ⟨i, e, hi, rfl⟩)))⟩
    · exact ⟨now', cdcId, Multiset.mem_add.2 (.inl hrow)⟩

/-! ## The invariant -/

/-- Every order of the log has a known customer. -/
def OrdersKnown (log : List LogEntry) : Prop :=
  ∀ e ∈ orderChangesOf log, ∀ a, e.change.after = some a → KnownIn log a.customerId

/-- Every image of an order in Bronze has an image of its customer there. -/
def CustomersLanded (b : Bronze) : Prop :=
  ∀ r ∈ b.cdc .cdcOrders, IsUpsert r → ∃ r' ∈ b.cdc .cdcCustomers, IsUpsert r' ∧
    (selectCustomer r').row.customerId = (selectOrder r).row.customerId

/-- What every step preserves. -/
structure BatchInv (s : BatchState bucketHash) : Prop where
  known : ∀ log, log <+: s.visible ++ s.pending → OrdersKnown log
  bronzeOrders : ∀ r ∈ s.bronze.cdc .cdcOrders, FromHistory orders (orderChangesOf s.visible) r
  bronzeCustomers : ∀ r ∈ s.bronze.cdc .cdcCustomers,
    FromHistory customers (customerChangesOf s.visible) r
  bronzeItems : ∀ r ∈ s.bronze.cdc .cdcOrderItems,
    FromHistory orderItems (itemChangesOf s.visible) r
  silverOrders : ∀ o ∈ s.silver.orders.rows, ∃ r ∈ s.bronze.cdc .cdcOrders, IsUpsert r ∧
    (selectOrder r).row.customerId = o.customerId
  landed : 2 ≤ s.done → CustomersLanded s.bronze
  knows : lanes.length + 2 ≤ s.done → KnowsCustomers s.silver

theorem batchInv_empty : BatchInv (BatchState.empty : BatchState bucketHash) where
  known log hlog e he := by
    obtain rfl : log = [] := List.prefix_nil.1 hlog
    cases he
  bronzeOrders r hr := absurd hr (Multiset.notMem_zero r)
  bronzeCustomers r hr := absurd hr (Multiset.notMem_zero r)
  bronzeItems r hr := absurd hr (Multiset.notMem_zero r)
  silverOrders o ho := absurd ho (Multiset.notMem_zero o)
  landed hdone := absurd hdone (Nat.not_succ_le_zero _)
  knows hdone := absurd hdone (Nat.not_succ_le_zero _)

theorem KnownIn.mono {log log' : List LogEntry} {customerId : Int64} (h : KnownIn log customerId)
    (hsub : log <+: log') : KnownIn log' customerId := by
  obtain ⟨c, hc, hid⟩ := h
  exact ⟨c, ((hsub.sublist.filterMap _).filterMap _).subset hc, hid⟩

/-- A commit keeps the orders of every prefix known. -/
theorem ordersKnown_append {log : List LogEntry} {entry : LogEntry}
    (hknown : ∀ l, l <+: log → OrdersKnown l) (href : Referenced log entry) :
    ∀ l, l <+: log ++ [entry] → OrdersKnown l := by
  intro l hl
  rcases List.prefix_concat_iff.1 hl with rfl | hl
  · intro e he a ha
    have hlog : log <+: log ++ [entry] := List.prefix_append log [entry]
    obtain ⟨x, hx, hxe⟩ := List.mem_filterMap.1 he
    rcases List.mem_append.1 hx with hx | hx
    · exact (hknown log (List.prefix_refl log) e (List.mem_filterMap.2 ⟨x, hx, hxe⟩) a ha).mono hlog
    · obtain rfl := List.mem_singleton.1 hx
      cases x with
      | order e' =>
        obtain rfl : e' = e := Option.some.inj hxe
        exact (href e' rfl a ha).mono hlog
      | customer e' => cases hxe
      | item e' => cases hxe
  · exact hknown l hl

/-- Once the customers were read, no customer of an ingested order is missing. -/
theorem customersLanded_of_read {log : List LogEntry} {b : Bronze} (hknown : OrdersKnown log)
    (horders : ∀ r ∈ b.cdc .cdcOrders, FromHistory orders (orderChangesOf log) r)
    (hread : ∀ e ∈ customerChangesOf log, ∃ now cdcId,
      cdcRow customers.table customers.fields now cdcId e ∈ b.cdc .cdcCustomers) :
    CustomersLanded b := by
  intro r hr hup
  obtain ⟨now, cdcId, e, he, rfl⟩ := horders r hr
  obtain ⟨a, ha⟩ := isUpsert_cdcRow.1 hup
  obtain ⟨c, hc, hid⟩ := hknown e he a ha
  obtain ⟨e', he', hc⟩ := List.mem_filterMap.1 hc
  obtain ⟨now', cdcId', hrow⟩ := hread e' he'
  refine ⟨_, hrow, isUpsert_cdcRow.2 ⟨c, hc⟩, ?_⟩
  rw [show selectCustomer = customers.select from rfl, show selectOrder = orders.select from rfl,
    customers.select_cdcRow _ _ _ _ hc, orders.select_cdcRow _ _ _ _ ha]
  exact congrArg (fun id : Int64 => some id.toInt.repr) hid

/-- **What an ingest does**: rows of visible changes are appended, the orders only in the first
step, and after the second no visible change of a customer is missing. -/
theorem ingest_spec {s : BatchState bucketHash} (hinv : BatchInv s) {lane : Lane}
    (hlane : lanes[s.done]? = some lane) {topics : Topics} (hholds : Holds s topics)
    (env : String → IngestEnv) {b : Bronze}
    (hb : b = (ingestLane env topics (s.bronze, 0) lane).1) :
    (∀ r ∈ b.cdc .cdcOrders, FromHistory orders (orderChangesOf s.visible) r) ∧
      (∀ r ∈ b.cdc .cdcCustomers, FromHistory customers (customerChangesOf s.visible) r) ∧
      (∀ r ∈ b.cdc .cdcOrderItems, FromHistory orderItems (itemChangesOf s.visible) r) ∧
      (∀ r ∈ s.bronze.cdc .cdcOrders, r ∈ b.cdc .cdcOrders) ∧
      (1 ≤ s.done → CustomersLanded b) := by
  have hvisible : OrdersKnown s.visible := hinv.known _ (List.prefix_append _ _)
  rcases lane_cases hlane with ⟨hdone, rfl⟩ | ⟨hdone, rfl⟩ | ⟨hdone, rfl⟩ | ⟨hdone, rfl⟩
  · obtain ⟨hnew, -⟩ := hholds.orders.append (env "debezium.public.orders").uuid
      (env "debezium.public.orders").now
    have hcdc : b.cdc = _ := (congrArg Bronze.cdc hb).trans (ingestLane_cdc _ _ _ _ _)
    rw [hcdc]
    refine ⟨fun r hr => (Multiset.mem_add.1 hr).elim (hinv.bronzeOrders r) (hnew r),
      hinv.bronzeCustomers, hinv.bronzeItems, fun r hr => Multiset.mem_add.2 (.inl hr), ?_⟩
    intro hpos
    omega
  · obtain ⟨hnew, hall⟩ := hholds.customers.append (env "debezium.public.customers").uuid
      (env "debezium.public.customers").now
    have hcdc : b.cdc = _ := (congrArg Bronze.cdc hb).trans (ingestLane_cdc _ _ _ _ _)
    have horders : b.cdc .cdcOrders = s.bronze.cdc .cdcOrders := congrFun hcdc _
    have hcustomers : b.cdc .cdcCustomers = s.bronze.cdc .cdcCustomers + _ := congrFun hcdc _
    refine ⟨horders ▸ hinv.bronzeOrders, fun r hr => ?_,
      congrFun hcdc .cdcOrderItems ▸ hinv.bronzeItems, fun r hr => horders ▸ hr, fun _ => ?_⟩
    · rw [hcustomers] at hr
      exact (Multiset.mem_add.1 hr).elim (hinv.bronzeCustomers r) (hnew r)
    · exact customersLanded_of_read hvisible (horders ▸ hinv.bronzeOrders) (hcustomers ▸ hall)
  · obtain ⟨hnew, -⟩ := hholds.items.append (env "debezium.public.order_items").uuid
      (env "debezium.public.order_items").now
    have hcdc : b.cdc = _ := (congrArg Bronze.cdc hb).trans (ingestLane_cdc _ _ _ _ _)
    have hlanded := hinv.landed (by omega)
    unfold CustomersLanded at hlanded ⊢
    rw [hcdc]
    exact ⟨hinv.bronzeOrders, hinv.bronzeCustomers,
      fun r hr => (Multiset.mem_add.1 hr).elim (hinv.bronzeItems r) (hnew r), fun r hr => hr,
      fun _ => hlanded⟩
  · subst hb
    exact ⟨hinv.bronzeOrders, hinv.bronzeCustomers, hinv.bronzeItems, fun r hr => hr,
      fun _ => hinv.landed (by omega)⟩

/-! ## Steps -/

theorem mem_changesOf_append {α : Type} (f : LogEntry → Option α) {log rest : List LogEntry} {e : α}
    (h : e ∈ log.filterMap f) : e ∈ (log ++ rest).filterMap f :=
  ((List.sublist_append_left log rest).filterMap f).subset h

/-- A run keeps the customer of every order it wrote. -/
theorem knowsCustomers_write {s : BatchState bucketHash} (hinv : BatchInv s) (hdone : 2 ≤ s.done)
    {raw : List CdcRow} (hraw : (raw : Multiset CdcRow) = s.bronze.cdc .cdcCustomers)
    {t : Table customersSpec} (hwrite : silverCustomers raw s.silver.customers = some t) :
    ∀ o ∈ s.silver.orders.rows, o.customerId ∈ t.rows.map SilverCustomer.customerId := by
  intro o ho
  obtain ⟨r, hr, hup, hid⟩ := hinv.silverOrders o ho
  obtain ⟨r', hr', hup', hid'⟩ := hinv.landed hdone r hr hup
  rw [← hraw, Multiset.mem_coe] at hr'
  obtain ⟨row, hrow, hk⟩ := exists_latestUpserts selectCustomer SilverCustomer.customerId hr' hup'
  have hmem : row ∈ t.rows := by
    rw [(Table.overwritePartitions_eq_some.1 hwrite).2]
    exact Multiset.mem_add.2 (.inr (Multiset.mem_coe.2 hrow))
  exact Multiset.mem_map.2 ⟨row, hmem, hk.trans (hid'.trans hid)⟩

/-- The orders of Silver stay those of Bronze. -/
theorem silverOrders_write {s : BatchState bucketHash} (hinv : BatchInv s) {raw : List CdcRow}
    (hraw : (raw : Multiset CdcRow) = s.bronze.cdc .cdcOrders) {t : Table ordersSpec}
    (hwrite : silverOrders raw s.silver.orders = some t) :
    ∀ o ∈ t.rows, ∃ r ∈ s.bronze.cdc .cdcOrders, IsUpsert r ∧
      (selectOrder r).row.customerId = o.customerId := by
  intro o ho
  rw [(Table.overwritePartitions_eq_some.1 hwrite).2] at ho
  rcases Multiset.mem_add.1 ho with hold | hnew
  · exact hinv.silverOrders o (Table.mem_untouched.1 hold).1
  · obtain ⟨r, hr, hup, rfl, -⟩ := mem_latestUpserts (Multiset.mem_coe.1 hnew)
    exact ⟨r, hraw ▸ Multiset.mem_coe.2 hr, hup, rfl⟩

/-- **Every step keeps the invariant.** -/
theorem BatchStep.inv {s s' : BatchState bucketHash} (hstep : BatchStep s s') (hinv : BatchInv s) :
    BatchInv s' := by
  cases hstep with
  | commit entry href =>
    refine { hinv with known := ?_ }
    rw [← List.append_assoc]
    exact ordersKnown_append hinv.known href
  | @publish entry rest hnext =>
    have hlog : s.visible ++ [entry] ++ rest = s.visible ++ s.pending := by
      rw [hnext, List.append_assoc]
      rfl
    refine { hinv with known := ?_, bronzeOrders := ?_, bronzeCustomers := ?_, bronzeItems := ?_ }
    · rw [hlog]
      exact hinv.known
    · exact fun r hr => (hinv.bronzeOrders r hr).mono fun _ => mem_changesOf_append _
    · exact fun r hr => (hinv.bronzeCustomers r hr).mono fun _ => mem_changesOf_append _
    · exact fun r hr => (hinv.bronzeItems r hr).mono fun _ => mem_changesOf_append _
  | start =>
    exact { hinv with
      landed := fun hdone => absurd hdone (Nat.not_succ_le_zero _)
      knows := fun hdone => absurd hdone (Nat.not_succ_le_zero _) }
  | @ingest lane hlane topics hholds env =>
    obtain ⟨horders, hcustomers, hitems, hkept, hlanded⟩ := ingest_spec hinv hlane hholds env rfl
    have hlt : s.done < lanes.length := (List.getElem?_eq_some_iff.1 hlane).1
    refine { hinv with
      bronzeOrders := horders, bronzeCustomers := hcustomers, bronzeItems := hitems
      silverOrders := fun o ho => ?_
      landed := fun hdone => hlanded (Nat.le_of_succ_le_succ hdone)
      knows := fun hdone => ?_ }
    · obtain ⟨r, hr, hrest⟩ := hinv.silverOrders o ho
      exact ⟨r, hkept r hr, hrest⟩
    · change lanes.length + 2 ≤ s.done + 1 at hdone
      omega
  | @writeOrders hdone raw hraw t hwrite =>
    have hlanes : lanes.length = 4 := rfl
    refine { hinv with
      silverOrders := silverOrders_write hinv hraw hwrite
      landed := fun _ => hinv.landed (by omega)
      knows := fun hlate => ?_ }
    change lanes.length + 2 ≤ s.done + 1 at hlate
    omega
  | @writeCustomers hdone raw hraw t hwrite =>
    have hlanes : lanes.length = 4 := rfl
    exact { hinv with
      landed := fun _ => hinv.landed (by omega)
      knows := fun _ => knowsCustomers_write hinv (by omega) hraw hwrite }
  | @writeItems hdone raw hraw t hwrite =>
    have hlanes : lanes.length = 4 := rfl
    exact { hinv with
      landed := fun _ => hinv.landed (by omega)
      knows := fun _ => hinv.knows (by omega) }

/-- The invariant holds in every reachable state. -/
theorem batchInv_reachable {s : BatchState bucketHash}
    (h : Relation.ReflTransGen BatchStep .empty s) : BatchInv s :=
  invariant_of_reachable (fun _ _ hstep => hstep.inv) h batchInv_empty

/-- **Orders never reference an unknown customer.** For every interleaving of commits, of the
moments at which changes become visible and expire, and of the reads and writes of the batch runs,
failed runs included: after every completed run, every `customer_id` of `silver.orders` occurs in
`silver.customers`. -/
theorem orders_reference_known_customers {s : BatchState bucketHash}
    (h : Relation.ReflTransGen BatchStep .empty s) (hdone : s.completed) :
    KnowsCustomers s.silver :=
  (batchInv_reachable h).knows (hdone ▸ Nat.le_succ _)

/-! ## Completion -/

/-- A topic that holds all changes holds those that Bronze does not have. -/
theorem retains_all {α ρ : Type} {T : Captured α ρ} {changes : List (ChangeEvent α)}
    {ingested : Multiset CdcRow} {records : List KafkaRecord}
    (h : Carries T.table T.fields (readTopic records) changes) :
    Retains T changes ingested records :=
  ⟨changes, h, List.Sublist.refl _, fun _ he => .inl he⟩

/-- The rows of captured changes have their keys. -/
theorem latest_of_history {α ρ : Type} {T : Captured α ρ} {history : List (ChangeEvent α)}
    {rows : Multiset CdcRow} (hrows : ∀ r ∈ rows, FromHistory T history r) {p : ρ → Prop}
    (hp : ∀ op now a, p (T.silverRow op now a)) :
    ∀ row ∈ (latestUpserts T.select T.keyCol rows.toList : Multiset ρ), p row := by
  intro row hrow
  obtain ⟨a, -, op, now, rfl⟩ := image_of_mem_latest
    (fun r hr => hrows r (Multiset.mem_toList.1 hr)) (Multiset.mem_coe.1 hrow)
  exact hp op now a

/-- No step of a run can be stuck. -/
theorem exists_next {s : BatchState bucketHash} (hinv : BatchInv s)
    (hlt : s.done < lanes.length + 3) :
    ∃ s', BatchStep s s' ∧ s'.done = s.done + 1 ∧ s'.visible = s.visible := by
  by_cases hlane : s.done < lanes.length
  · obtain ⟨ho, hc, hi⟩ := carries_topicsOf (orderChangesOf s.visible)
      (customerChangesOf s.visible) (itemChangesOf s.visible)
    have hholds : Holds s (topicsOf (orderChangesOf s.visible) (customerChangesOf s.visible)
        (itemChangesOf s.visible)) := ⟨retains_all ho, retains_all hc, retains_all hi⟩
    exact ⟨_, .ingest (List.getElem?_eq_getElem hlane) hholds anEnv, rfl, rfl⟩
  obtain hdone | hdone | hdone : s.done = lanes.length ∨ s.done = lanes.length + 1 ∨
      s.done = lanes.length + 2 := by omega
  · obtain ⟨t, ht⟩ := s.silver.orders.exists_overwritePartitions (latest_of_history
      (T := orders) hinv.bronzeOrders (p := fun r => ordersSpec.required r = true) fun _ _ _ => rfl)
    exact ⟨_, .writeOrders hdone (Multiset.coe_toList _) ht, rfl, rfl⟩
  · obtain ⟨t, ht⟩ := s.silver.customers.exists_overwritePartitions (latest_of_history
      (T := customers) hinv.bronzeCustomers (p := fun r => customersSpec.required r = true)
      fun _ _ _ => rfl)
    exact ⟨_, .writeCustomers hdone (Multiset.coe_toList _) ht, rfl, rfl⟩
  · have hitems := latest_of_history (T := orderItems) hinv.bronzeItems
      (p := fun r => (r.itemId.isSome && r.orderId.isSome && r.productId.isSome) = true)
      fun _ _ _ => rfl
    obtain ⟨t, ht⟩ := s.silver.orderItems.exists_overwritePartitions
      (show ∀ r ∈ enrichItems s.silver.orders.rows
          (latestItems (s.bronze.cdc .cdcOrderItems).toList),
        (orderItemsSpec bucketHash).required r = true from fun r hr =>
          hitems _ (mem_enrichItems hr).1)
    exact ⟨_, .writeItems hdone (Multiset.coe_toList _) ht, rfl, rfl⟩

/-- Every run can be started again and completed. -/
theorem exists_completed {s : BatchState bucketHash} (hinv : BatchInv s) :
    ∃ s', Relation.ReflTransGen BatchStep s s' ∧ s'.completed ∧ s'.visible = s.visible := by
  have hrun : ∀ n, ∀ s : BatchState bucketHash, BatchInv s → s.done + n = lanes.length + 3 →
      ∃ s', Relation.ReflTransGen BatchStep s s' ∧ s'.completed ∧ s'.visible = s.visible := by
    intro n
    induction n with
    | zero => exact fun s _ hn => ⟨s, .refl, hn, rfl⟩
    | succ n ih =>
      intro s hinv hn
      obtain ⟨s₁, hstep, hdone, hvisible⟩ := exists_next hinv (by omega)
      obtain ⟨s₂, hsteps, hcompleted, hvisible'⟩ := ih s₁ (hstep.inv hinv) (by omega)
      exact ⟨s₂, .head hstep hsteps, hcompleted, hvisible'.trans hvisible⟩
  obtain ⟨s', hsteps, hrest⟩ :=
    hrun (lanes.length + 3) _ (BatchStep.start.inv hinv) (Nat.zero_add _)
  exact ⟨s', .head .start hsteps, hrest⟩

end Runs

/-- A customer and an order of the customer are committed and become visible, and a run
completes. -/
theorem orders_reference_known_customers_oneOrder : ∃ s : BatchState murmurText,
    s.visible = [.customer ⟨.create (customer 7), 1, none⟩,
      .order ⟨.create (order 1 "pending" 0), 2, none⟩] ∧
      s.completed ∧ KnowsCustomers s.silver := by
  have hpublished : Relation.ReflTransGen BatchStep (.empty : BatchState murmurText)
      { BatchState.empty with
        visible := [.customer ⟨.create (customer 7), 1, none⟩,
          .order ⟨.create (order 1 "pending" 0), 2, none⟩] } := by
    refine .head (.commit (.customer ⟨.create (customer 7), 1, none⟩) ?_) ?_
    · intro e he
      cases he
    refine .head (.commit (.order ⟨.create (order 1 "pending" 0), 2, none⟩) ?_) ?_
    · intro e he a ha
      cases he
      cases ha
      exact ⟨customer 7, .head _, rfl⟩
    · exact .head (.publish rfl) (.single (.publish rfl))
  obtain ⟨s, hsteps, hcompleted, hvisible⟩ := exists_completed (batchInv_reachable hpublished)
  exact ⟨s, hvisible, hcompleted,
    orders_reference_known_customers (hpublished.trans hsteps) hcompleted⟩

end Lakehouse.Verify
