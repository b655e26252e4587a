import Lakehouse.Ingestion.Loader
import Lakehouse.Verify.BronzeRuns
import Lakehouse.Verify.BronzeSuites
import Lakehouse.Verify.CustomerRows
import Lakehouse.Verify.DbtRuns
import Lakehouse.Verify.GateSound
import Lakehouse.Verify.GoldSuites
import Lakehouse.Verify.LoaderCounts
import Lakehouse.Verify.SilverSuites

/-!
# A healthy lake at the quality gate

Quiet runs by a clock that does not go back, whose ingests draw UUIDs that are not in the table yet
and read from `raw.events` what the loader has sent. In every state of such a run the identifiers of
Bronze are distinct and the rows of the source fit (`HealthyRun.healthy`), so after a round of the
Airflow path only one expectation of the nine suites can fail: that the loader has landed an event
(`qualityGate_green_iff`).
-/

namespace Lakehouse.Verify

open Lib Source Batch Demo

/-! ## Records of the loader -/

section Loader

variable {ε : Type} {jsonDumps : Ingestion.RateEvent ε → String}

/-- What is sent is an initial part of what was to be sent. -/
theorem sendAll_isPrefixOf (kafka : Ingestion.Kafka) (i : Nat) (records : List Ingestion.Record) :
    (Ingestion.sendAll kafka i records).1 <+: records := by
  induction records generalizing i with
  | nil => exact List.prefix_refl _
  | cons r records ih =>
    unfold Ingestion.sendAll
    split
    · exact List.nil_prefix
    · exact (List.prefix_cons_inj r).2 (ih (i + 1))

/-- What reaches the topic are records of the events. -/
theorem produceEvents_log {kafka : Ingestion.Kafka} {events : List (Ingestion.RateEvent ε)}
    {sent : Ingestion.Record}
    (h : sent ∈ (Ingestion.produceEvents jsonDumps kafka events).log) :
    ∃ row ∈ events, sent = Ingestion.record jsonDumps row := by
  unfold Ingestion.produceEvents at h
  split at h
  · exact absurd h List.not_mem_nil
  · have hsent := (sendAll_isPrefixOf kafka 0 _).subset ((acknowledged_sublist kafka 0 _).subset h)
    obtain ⟨row, hrow, rfl⟩ := List.mem_map.1 hsent
    exact ⟨row, hrow, rfl⟩

/-- What a run of the loader adds to the topic are rows. -/
theorem row_of_mem_log {fetchRates : String → Except String (Ingestion.Payload ε)}
    {round6 : ε → ε} {now : String} {kafka : Ingestion.Kafka} {args : Ingestion.Args}
    {sent : Ingestion.Record}
    (h : sent ∈ (Ingestion.main jsonDumps fetchRates round6 now kafka args).log) :
    ∃ row, sent = Ingestion.record jsonDumps row := by
  have hnone : sent ∉ ([] : List Ingestion.Record) := List.not_mem_nil
  unfold Ingestion.main at h
  split at h
  · exact absurd h hnone
  · next payload _ =>
    dsimp only at h
    split_ifs at h
    · exact absurd h hnone
    · exact absurd h hnone
    · have hlog : sent ∈ (Ingestion.produceEvents jsonDumps kafka
          (Ingestion.ratesToEvents round6 now payload args.currencies)).log := by
        split at h <;> exact h
      obtain ⟨row, -, hrow⟩ := produceEvents_log hlog
      exact ⟨row, hrow⟩

variable (jsonDumps) in
/-- A record of `raw.events` that a run of the loader has sent in the time of the suites. -/
structure LoadedRecord (r : KafkaRecord) : Prop where
  topic : r.topic = rawEventsTopic
  timestamp : dataStart ≤ r.timestamp
  sent : ∃ fetchRates round6 now kafka args,
    ∃ sent ∈ (Ingestion.main jsonDumps fetchRates round6 now kafka args).log,
      r.key = some sent.key ∧ r.value = some sent.value

/-- The row of a record of the loader fits the suite. -/
theorem LoadedRecord.eventFits {r : KafkaRecord} (h : LoadedRecord jsonDumps r)
    (hdumps : ∀ row, 2 ≤ (jsonDumps row).length) (uuid : String) (now : Int) :
    EventFits (eventRow uuid now r) := by
  refine ⟨h.topic, h.timestamp, ?_⟩
  obtain ⟨fetchRates, round6, fetched, kafka, args, sent, hlog, -, hvalue⟩ := h.sent
  obtain ⟨row, rfl⟩ := row_of_mem_log hlog
  exact ⟨jsonDumps row, hvalue, hdumps row⟩

end Loader

/-! ## Identifiers -/

/-- The first `n` UUIDs that are drawn are new. -/
structure FreshUuids (ids : Multiset String) (uuid : Nat → String) (n : Nat) : Prop where
  injective : ∀ i < n, ∀ j < n, uuid i = uuid j → i = j
  regex : ∀ i < n, Quality.uuidRegex.accepts (uuid i).toList = true
  fresh : ∀ i < n, uuid i ∉ ids

/-- Rows that are appended with UUIDs of their own. -/
theorem UuidsFit.append {β ρ : Type} {id : ρ → String} {rows : Multiset ρ} {uuid : Nat → String}
    {values : List β} {make : Nat → β → ρ} (h : UuidsFit id rows)
    (hfresh : FreshUuids (rows.map id) uuid values.length) (hid : ∀ i x, id (make i x) = uuid i) :
    UuidsFit id (rows + (values.mapIdx make : List ρ)) := by
  have hids : (values.mapIdx make).map id = (List.range values.length).map uuid := by
    apply List.ext_getElem
    · simp
    · intro i hi _
      simp [hid]
  have hdrawn : ∀ {x : String}, x ∈ (values.mapIdx make).map id →
      ∃ i < values.length, uuid i = x := by
    intro x hx
    rw [hids] at hx
    obtain ⟨i, hi, hx⟩ := List.mem_map.1 hx
    exact ⟨i, List.mem_range.1 hi, hx⟩
  constructor
  · rw [Multiset.map_add, Multiset.nodup_add, Multiset.map_coe, Multiset.coe_nodup]
    refine ⟨h.nodup, ?_, Multiset.disjoint_left.2 fun hx hx' => ?_⟩
    · rw [hids]
      exact List.nodup_range.map_on fun i hi j hj =>
        hfresh.injective i (List.mem_range.1 hi) j (List.mem_range.1 hj)
    · obtain ⟨i, hi, rfl⟩ := hdrawn (Multiset.mem_coe.1 hx')
      exact hfresh.fresh i hi hx
  · intro r hr
    rcases Multiset.mem_add.1 hr with hr | hr
    · exact h.regex r hr
    · obtain ⟨i, hi, heq⟩ := hdrawn (List.mem_map_of_mem (Multiset.mem_coe.1 hr))
      rw [← heq]
      exact hfresh.regex i hi

/-- The identifiers in the table of a lane. -/
def laneIds (b : Bronze) : Lane → Multiset String
  | .cdc _ table => (b.cdc table).map CdcRow.cdcId
  | .events => b.kafkaEvents.map EventRow.eventId

/-- A lane leaves the identifiers of the other tables alone. -/
theorem laneIds_ingestLane_of_ne (b : Bronze) (env : String → IngestEnv) (topics : Topics)
    {lane lane' : Lane} (hne : laneTable lane ≠ laneTable lane') :
    laneIds (ingestLane env topics (b, 0) lane').1 lane = laneIds b lane := by
  cases lane with
  | cdc topic table =>
    cases lane' with
    | cdc topic' table' =>
      have htable : table ≠ table' := fun h => hne (congrArg some h)
      rw [laneIds, ingestLane_cdc, Function.update_of_ne htable, laneIds]
    | events => rfl
  | events =>
    cases lane' with
    | cdc topic' table' => rfl
    | events => exact absurd rfl hne

/-! ## Runs -/

section Runs

variable {ε : Type} (jsonDumps : Ingestion.RateEvent ε → String) {bucketHash : String → Nat}

/-- One table is written: an ingest draws new UUIDs and finds records of the loader. -/
inductive FreshStep : Job → Lake bucketHash → Lake bucketHash → Prop
  | ingest {s : Lake bucketHash} {lane : Lane} (hlane : lane ∈ lanes) {topics : Topics}
    (hholds : s.Holds topics) {env : String → IngestEnv}
    (hfresh : FreshUuids (laneIds s.bronze lane) (env lane.topic).uuid (topics lane.topic).length)
    (hloaded : ∀ r ∈ topics rawEventsTopic, LoadedRecord jsonDumps r) :
      FreshStep (.ingest lane) s (s.ingest env topics lane)
  | write {s s' : Lake bucketHash} {j : Job} (hwrite : ∀ lane, j ≠ .ingest lane)
    (h : JobStep j s s') : FreshStep j s s'

/-- Such writes one after the other. -/
inductive FreshRun : Lake bucketHash → List Job → Lake bucketHash → Prop
  | nil (s : Lake bucketHash) : FreshRun s [] s
  | snoc {s s₁ s' : Lake bucketHash} {jobs : List Job} {j : Job} (hjobs : FreshRun s jobs s₁)
    (h : FreshStep jsonDumps j s₁ s') : FreshRun s (jobs ++ [j]) s'

/-- Rounds of traffic and of ordered writes, at a time. -/
inductive HealthyRun : Int → Lake bucketHash → Prop
  | start {t : Int} (hstart : dataStart ≤ t) {c : Commit}
    (h : Publishes c (snapshotOf (sampleData t))) (htimes : PublishedFrom (t / 1000) c) :
      HealthyRun t (Lake.start (.sample h))
  | traffic {t t' : Int} {s : Lake bucketHash} {commits : List Commit} {db : Database}
    (hrun : HealthyRun t s) (h : ClockedSegment t s.source.db commits t' db) :
      HealthyRun t' { s with source := s.source.next h.segment }
  | round {t : Int} {s s' : Lake bucketHash} {jobs : List Job} (hrun : HealthyRun t s)
    (hordered : Ordered jobs) (hjobs : FreshRun jsonDumps s jobs s') : HealthyRun t s'

variable {jsonDumps} {t : Int} {s s' : Lake bucketHash} {j : Job} {jobs : List Job}

theorem FreshStep.jobStep (h : FreshStep jsonDumps j s s') : JobStep j s s' := by
  cases h with
  | ingest hlane hholds _ _ => exact .ingest hlane hholds _
  | write _ h => exact h

theorem FreshRun.jobRun (h : FreshRun jsonDumps s jobs s') : JobRun s jobs s' := by
  induction h with
  | nil => exact .nil _
  | snoc _ hstep ih => exact .snoc ih hstep.jobStep

/-- A healthy run is a quiet one. -/
theorem HealthyRun.quietRun (h : HealthyRun jsonDumps t s) : ∃ p, QuietRun (Lake.start p) s := by
  induction h with
  | start _ h _ => exact ⟨_, .start⟩
  | traffic _ h ih =>
    obtain ⟨p, hrun⟩ := ih
    exact ⟨p, .traffic hrun h.segment⟩
  | round _ hordered hjobs ih =>
    obtain ⟨p, hrun⟩ := ih
    exact ⟨p, .round hrun hordered hjobs.jobRun⟩

/-! ## What holds in every state -/

/-- Every row of Bronze is one that the suites accept. -/
structure BronzeFits (b : Bronze) : Prop where
  cdcIds : ∀ table, UuidsFit CdcRow.cdcId (b.cdc table)
  eventIds : UuidsFit EventRow.eventId b.kafkaEvents
  events : ∀ r ∈ b.kafkaEvents, EventFits r

/-- What holds at a time of a healthy run. -/
structure Healthy (t : Int) (s : Lake bucketHash) : Prop where
  clock : dataStart ≤ t
  rows : RowsFit t s.source.db
  published : ∀ c ∈ s.source.commits, PublishedFrom (dataStart / 1000) c
  bronze : BronzeFits s.bronze

theorem bronzeFits_empty : BronzeFits Bronze.empty where
  cdcIds _ := ⟨Multiset.nodup_zero, fun r hr => absurd hr (Multiset.notMem_zero r)⟩
  eventIds := ⟨Multiset.nodup_zero, fun r hr => absurd hr (Multiset.notMem_zero r)⟩
  events r hr := absurd hr (Multiset.notMem_zero r)

/-- An ingest appends rows that fit. -/
theorem BronzeFits.ingest {b : Bronze} (hb : BronzeFits b) {lane : Lane} {topics : Topics}
    {env : String → IngestEnv}
    (hfresh : FreshUuids (laneIds b lane) (env lane.topic).uuid (topics lane.topic).length)
    (hloaded : ∀ r ∈ topics rawEventsTopic, LoadedRecord jsonDumps r)
    (hdumps : ∀ row, 2 ≤ (jsonDumps row).length) :
    BronzeFits (ingestLane env topics (b, 0) lane).1 := by
  cases lane with
  | cdc topic table =>
    refine { hb with cdcIds := fun table' => ?_ }
    rw [ingestLane_cdc, parse_readTopic]
    rcases eq_or_ne table' table with rfl | hne
    · rw [Function.update_self]
      have hle := List.length_filter_le (fun r => (nonEmpty r.value).isSome) (topics topic)
      refine (hb.cdcIds _).append ⟨fun i hi j hj => ?_, fun i hi => ?_, fun i hi => ?_⟩
        fun _ _ => rfl
      · exact hfresh.injective i (hi.trans_le hle) j (hj.trans_le hle)
      · exact hfresh.regex i (hi.trans_le hle)
      · exact hfresh.fresh i (hi.trans_le hle)
    · rw [Function.update_of_ne hne]
      exact hb.cdcIds table'
  | events =>
    have hrows : (ingestLane env topics (b, 0) .events).1.kafkaEvents =
        b.kafkaEvents + (topics rawEventsTopic).mapIdx fun i r =>
          eventRow ((env rawEventsTopic).uuid i) (env rawEventsTopic).now r :=
      ingestRawEvents_fst _ _ _
    refine ⟨hb.cdcIds, ?_, ?_⟩
    · rw [hrows]
      exact hb.eventIds.append hfresh fun _ _ => rfl
    · rw [hrows]
      intro r hr
      rcases Multiset.mem_add.1 hr with hr | hr
      · exact hb.events r hr
      · obtain ⟨i, hi, rfl⟩ := List.mem_mapIdx.1 (Multiset.mem_coe.1 hr)
        exact (hloaded _ (List.getElem_mem hi)).eventFits hdumps _ _

theorem FreshStep.bronzeFits (h : FreshStep jsonDumps j s s') (hb : BronzeFits s.bronze)
    (hdumps : ∀ row, 2 ≤ (jsonDumps row).length) : BronzeFits s'.bronze := by
  cases h with
  | ingest _ _ hfresh hloaded => exact hb.ingest hfresh hloaded hdumps
  | write hwrite h =>
    cases h with
    | ingest => exact absurd rfl (hwrite _)
    | silverOrders | silverCustomers | silverOrderItems | goldDailyRevenue
    | goldCustomerMetrics => exact hb

/-- The rows of Bronze fit after any such writes. -/
theorem FreshRun.bronzeFits (h : FreshRun jsonDumps s jobs s') (hb : BronzeFits s.bronze)
    (hdumps : ∀ row, 2 ≤ (jsonDumps row).length) : BronzeFits s'.bronze := by
  induction h with
  | nil => exact hb
  | snoc _ hstep ih => exact hstep.bronzeFits ih hdumps

/-- **A healthy run keeps the lake healthy.** -/
theorem HealthyRun.healthy (h : HealthyRun jsonDumps t s)
    (hdumps : ∀ row, 2 ≤ (jsonDumps row).length) : Healthy t s := by
  have hmono : ∀ {t : Int}, dataStart ≤ t → dataStart / 1000 ≤ t / 1000 := fun hle =>
    Int.ediv_le_ediv (by decide) hle
  induction h with
  | start hstart h htimes =>
    refine ⟨hstart, rowsFit_sampleData hstart, fun c hc => ?_, bronzeFits_empty⟩
    obtain rfl := List.mem_singleton.1 hc
    exact htimes.mono (hmono hstart)
  | @traffic _ _ s₁ _ _ _ h ih =>
    refine ⟨ih.clock.trans h.clock_le, h.rowsFit ih.clock s₁.source.inv.sound ih.rows,
      fun c hc => ?_, ih.bronze⟩
    rcases List.mem_append.1 hc with hc | hc
    · exact ih.published c hc
    · exact (h.publishedFrom c hc).mono (hmono ih.clock)
  | round _ _ hjobs ih =>
    have hsource := hjobs.jobRun.source_eq
    exact ⟨ih.clock, hsource ▸ ih.rows, hsource ▸ ih.published,
      hjobs.bronzeFits ih.bronze hdumps⟩

/-! ## The gate -/

/-- The checkpoints and the churn query read the tables. -/
structure ReadsTables (env : Quality.Env) (tables : Quality.Tables bucketHash) : Prop where
  connStr : (Quality.nonEmpty env.connStr).isSome = true
  context : env.context.isOk = true
  runCheckpoint : ∀ layer, env.runCheckpoint layer = .ok (Quality.checkpoint tables layer)
  database : ∀ connStr,
    env.database connStr = .ok (tables.gold.customerMetrics.map asMetricsRow)

/-- What the gate is told of a layer. -/
theorem succeeded_iff {env : Quality.Env} {tables : Quality.Tables bucketHash}
    (h : ReadsTables env tables) (layer : Quality.Layer) :
    Succeeded env layer ↔ (Quality.checkpoint tables layer).success = true := by
  constructor
  · rintro ⟨result, hresult, hsuccess⟩
    rw [h.runCheckpoint] at hresult
    obtain rfl := Except.ok.inj hresult
    exact hsuccess
  · intro hsuccess
    exact ⟨_, h.runCheckpoint layer, hsuccess⟩

/-- The gate over all layers. -/
theorem main_eq_zero_iff {env : Quality.Env} {tables : Quality.Tables bucketHash}
    (h : ReadsTables env tables) :
    Quality.main allLayers env = 0 ↔
      (∀ layer, (Quality.checkpoint tables layer).success = true) ∧
        ∀ m ∈ tables.gold.customerMetrics, Quality.isViolation (asMetricsRow m) = false := by
  have hconfigured : Quality.configured allLayers env = true := by
    have hconn : (Quality.nonEmpty env.connStr).isNone = false := by
      rw [← Option.not_isSome, h.connStr]
      rfl
    simp [Quality.configured, hconn, h.context]
  obtain ⟨connStr, hconn⟩ := Option.isSome_iff_exists.1 h.connStr
  have hlayers : ∀ layer : Quality.Layer, layer ∈ Quality.layersToRun allLayers := by
    intro layer
    cases layer <;> decide
  rw [main_eq_zero, and_iff_right hconfigured, verdict_allPassed, checkChurnConsistency_passed,
    hconn]
  simp only [succeeded_iff h, hlayers, true_imp_iff, h.database]
  simp

/-- The suites of a checkpoint. -/
theorem checkpoint_bronze {tables : Quality.Tables bucketHash} :
    (Quality.checkpoint tables .bronze).success = true ↔
      (Quality.bronzeKafkaEvents.validate
        (Quality.kafkaEventsFrame tables.bronze.kafkaEvents)).success = true ∧
      (Quality.bronzeCdcOrders.validate
        (Quality.cdcFrame (tables.bronze.cdc .cdcOrders))).success = true ∧
      (Quality.bronzeCdcCustomers.validate
        (Quality.cdcFrame (tables.bronze.cdc .cdcCustomers))).success = true ∧
      (Quality.bronzeCdcOrderItems.validate
        (Quality.cdcFrame (tables.bronze.cdc .cdcOrderItems))).success = true := by
  rw [Quality.checkpoint, ofValidations_success]
  simp only [List.forall_mem_cons, List.not_mem_nil, false_imp_iff, implies_true, and_true]

/-- No customer with a late last order is left active. -/
theorem ShowsMetrics.no_violation {rows : Multiset CustomerMetrics} {os cs : Database}
    {today : Int} (h : ShowsMetrics rows os cs today) :
    ∀ m ∈ rows, Quality.isViolation (asMetricsRow m) = false := by
  intro m hm
  obtain ⟨c, -, -, hof⟩ := h.figures m hm
  rw [Quality.isViolation, asMetricsRow, hof.daysSinceLastOrder]
  cases hchurned : m.isChurned with
  | true => simp
  | false =>
    have hactive : ¬ ∃ last ∈ m.lastOrderDate, 90 < today - last := fun hlate => by
      rw [hof.isChurned.2 hlate] at hchurned
      cases hchurned
    cases hlast : m.lastOrderDate with
    | none => rfl
    | some last =>
      have hdays : ¬ 90 < today - last := fun hlate => hactive ⟨last, hlast, hlate⟩
      simp [hdays]

/-- The build has no country codes and no segments. -/
theorem customerMetrics_codes {os : Multiset SilverOrder} {cs : Multiset SilverCustomer}
    {today now : Int} {rows : Multiset CustomerMetrics}
    (h : Dbt.customerMetrics os cs today now = some rows) :
    ∀ m ∈ rows, m.countryCode = none ∧ m.segment = none := by
  obtain ⟨stats, -, rfl⟩ := Option.map_eq_some_iff.1 h
  intro m hm
  obtain ⟨row, -, rfl⟩ := Multiset.mem_map.1 hm
  exact ⟨rfl, rfl⟩

/-! ### Bronze after a round -/

/-- What Bronze presents of a table of the source that no row has left. -/
theorem cdcExpectations_shown {α β ρ : Type} {T : Captured α ρ} {fixed : α → β}
    {history : List (ChangeEvent α)} {source : List α} {rows : Multiset CdcRow}
    (hmirrors : T.Mirrors fixed history source) (h : T.Presents history rows) (hne : source ≠ [])
    (htimes : ∀ e ∈ history, dataStart / 1000 ≤ e.tsMs.toInt) (hids : UuidsFit CdcRow.cdcId rows) :
    rows ≠ 0 ∧ ∀ e ∈ Quality.cdcExpectations, e.success (Quality.cdcFrame rows) = true := by
  obtain ⟨a, ha⟩ := List.exists_mem_of_ne_nil _ hne
  obtain ⟨e, he, -, -⟩ := mem_of_latestOf T.keyOf _ ((hmirrors.mem_iff a).1 ha)
  have hstart : (1000000000000 : Int) ≤ dataStart / 1000 := by decide
  refine ⟨?_, cdcExpectations_success h (List.ne_nil_of_mem he) (fun e he => ?_)
    (fun e he => hstart.trans (htimes e he)) hids⟩
  · rintro rfl
    obtain ⟨now, cdcId, hmem⟩ := h.complete e he
    exact Multiset.notMem_zero _ hmem
  · obtain ⟨a, ha, -⟩ := hmirrors.images e he
    exact Option.isSome_iff_exists.2 ⟨a, ha⟩

theorem published_events {ms : Int} {commits : List Commit}
    (h : ∀ c ∈ commits, PublishedFrom ms c) :
    (∀ e ∈ orderEvents commits, ms ≤ e.tsMs.toInt) ∧
      (∀ e ∈ customerEvents commits, ms ≤ e.tsMs.toInt) ∧
      ∀ e ∈ itemEvents commits, ms ≤ e.tsMs.toInt := by
  refine ⟨fun e he => ?_, fun e he => ?_, fun e he => ?_⟩
  · obtain ⟨c, hc, hmem⟩ := List.mem_flatMap.1 he
    exact (h c hc).orders e hmem
  · obtain ⟨c, hc, hmem⟩ := List.mem_flatMap.1 he
    exact (h c hc).customers e hmem
  · obtain ⟨c, hc, hmem⟩ := List.mem_flatMap.1 he
    exact (h c hc).items e hmem

/-- Every change of the source is in Bronze. -/
structure BronzeShowsSource (s : Lake bucketHash) : Prop where
  orders : orders.Presents (orderEvents s.source.commits) (s.bronze.cdc .cdcOrders)
  customers : customers.Presents (customerEvents s.source.commits) (s.bronze.cdc .cdcCustomers)
  items : orderItems.Presents (itemEvents s.source.commits) (s.bronze.cdc .cdcOrderItems)

/-- Bronze shows the source once all topics have been read. -/
theorem bronzeShows_of_read (hs : LakeSound s) (hread : ∀ table, s.read table = s.source) :
    BronzeShowsSource s :=
  ⟨hread .cdcOrders ▸ hs.bronzeOrders, hread .cdcCustomers ▸ hs.bronzeCustomers,
    hread .cdcOrderItems ▸ hs.bronzeItems⟩

/-- The bronze checkpoint asks for an event and for nothing else that may be missing. -/
theorem Healthy.bronze_success_iff (h : Healthy t s) (hshows : BronzeShowsSource s)
    {tables : Quality.Tables bucketHash} (hbronze : tables.bronze = s.bronze) :
    (Quality.checkpoint tables .bronze).success = true ↔ s.bronze.kafkaEvents ≠ 0 := by
  have hsound := s.source.inv.sound
  obtain ⟨horders, hcustomers, hitems⟩ := published_events h.published
  obtain ⟨hne, hcdcOrders⟩ := cdcExpectations_shown s.source.mirrors_orders hshows.orders
    (orders_ne_nil h.rows) horders (h.bronze.cdcIds _)
  obtain ⟨-, hcdcCustomers⟩ := cdcExpectations_shown s.source.mirrors_customers hshows.customers
    (customers_ne_nil h.rows hsound) hcustomers (h.bronze.cdcIds _)
  obtain ⟨-, hcdcItems⟩ := cdcExpectations_shown s.source.mirrors_items hshows.items
    (items_ne_nil h.rows hsound) hitems (h.bronze.cdcIds _)
  rw [checkpoint_bronze, hbronze]
  constructor
  · rintro ⟨hevents, -⟩ hnone
    rw [validate_success, hnone] at hevents
    exact absurd (hevents _ (.head _)) Bool.false_ne_true
  · intro hevents
    exact ⟨bronzeKafkaEvents_success hevents h.bronze.events h.bronze.eventIds,
      bronzeCdcOrders_success hcdcOrders hne (h.bronze.cdcIds _),
      validate_success.2 hcdcCustomers, validate_success.2 hcdcItems⟩

/-- The Silver suites hold once Silver shows the source. -/
theorem Healthy.silver_success (h : Healthy t s) (hshows : SilverShowsSource s)
    {tables : Quality.Tables bucketHash} (hsilver : tables.silver = s.silver) :
    (Quality.checkpoint tables .silver).success = true := by
  obtain ⟨hsound, hadmitted⟩ := And.intro s.source.inv.sound s.source.inv.admitted
  rw [Quality.checkpoint, ofValidations_success, hsilver]
  simp only [List.forall_mem_cons]
  refine ⟨silverOrders_success h.rows hsound hadmitted hshows.orders,
    silverCustomers_success h.rows hsound hshows.customers s.source.mirrors_customers.nodup,
    silverOrderItems_success h.rows hsound hadmitted hshows.items fun r hr => ?_,
    List.forall_mem_nil _⟩
  obtain ⟨o, -, -, hdate⟩ := hshows.itemDates r hr
  exact Option.isSome_of_eq_some hdate

/-- The Gold suites hold of what dbt builds from it. -/
theorem Healthy.gold_success (h : Healthy t s) (hshows : SilverShowsSource s)
    (hfits : OrdersFit s.source.db) {clock : Dbt.Clock} (hbuilt : BuiltOn t clock.today)
    {gold : Dbt.Gold} {tables : Quality.Tables bucketHash}
    (hgold : tables.gold = (Dbt.dbtBuild clock s.silver gold).gold) :
    (Quality.checkpoint tables .gold).success = true := by
  obtain ⟨hsound, hadmitted⟩ := And.intro s.source.inv.sound s.source.inv.admitted
  obtain ⟨-, hrevenue, hmetrics⟩ := dbtBuild_of_silverShows hshows hfits clock gold
  have hno := noOverflow_of_withinLimits
    (withinLimits_shown hsound hadmitted hfits hshows.orders hshows.items)
  rw [Quality.checkpoint, ofValidations_success, hgold]
  simp only [List.forall_mem_cons]
  exact ⟨goldDailyRevenue_success h.rows hsound hadmitted hfits hrevenue,
    goldCustomerMetrics_success h.rows hsound hadmitted hfits hmetrics hbuilt
      s.source.mirrors_customers.nodup (customerMetrics_codes (dbtBuild_gold hno clock gold).2),
    List.forall_mem_nil _⟩

/-- With Silver and Bronze up to date and a Gold that is right, the gate asks for an event and for
nothing else. -/
theorem Healthy.gate_iff_of_gold (h : Healthy t s) (hbronze : BronzeShowsSource s)
    (hsilver : SilverShowsSource s) {gold : Dbt.Gold} {env : Quality.Env}
    (hreads : ReadsTables env ⟨s.bronze, s.silver, gold⟩)
    (hgold : (Quality.checkpoint ⟨s.bronze, s.silver, gold⟩ .gold).success = true)
    (hchurn : ∀ m ∈ gold.customerMetrics, Quality.isViolation (asMetricsRow m) = false) :
    Quality.main allLayers env = 0 ↔ s.bronze.kafkaEvents ≠ 0 := by
  rw [main_eq_zero_iff hreads, and_iff_left hchurn]
  constructor
  · intro hlayers
    exact (h.bronze_success_iff hbronze rfl).1 (hlayers .bronze)
  · intro hevents layer
    cases layer with
    | bronze => exact (h.bronze_success_iff hbronze rfl).2 hevents
    | silver => exact h.silver_success hsilver rfl
    | gold => exact hgold

/-- The Gold of a build is right. -/
theorem Healthy.gate_iff (h : Healthy t s) (hbronze : BronzeShowsSource s)
    (hsilver : SilverShowsSource s) (hfits : OrdersFit s.source.db) {clock : Dbt.Clock}
    (hbuilt : BuiltOn t clock.today) {gold : Dbt.Gold} {env : Quality.Env}
    (hreads : ReadsTables env ⟨s.bronze, s.silver, (Dbt.dbtBuild clock s.silver gold).gold⟩) :
    Quality.main allLayers env = 0 ↔ s.bronze.kafkaEvents ≠ 0 := by
  obtain ⟨-, -, hmetrics⟩ := dbtBuild_of_silverShows hsilver hfits clock gold
  exact h.gate_iff_of_gold hbronze hsilver hreads (h.gold_success hsilver hfits hbuilt rfl)
    hmetrics.no_violation

/-- The lanes and the tables of the Airflow path. -/
def airflowJobs : List Job := lanes.map .ingest ++ silverJobs

/-- A round of the Airflow path brings Bronze and Silver up to date. -/
theorem HealthyRun.round_shows (hrun : HealthyRun jsonDumps t s)
    (htimes : TimesTell s.source.commits) (hordered : Ordered jobs)
    (hjobs : FreshRun jsonDumps s jobs s') (hall : ∀ j ∈ airflowJobs, j ∈ jobs) :
    BronzeShowsSource s' ∧ SilverShowsSource s' := by
  obtain ⟨p, hquiet⟩ := hrun.quietRun
  obtain ⟨-, -, hupToDate⟩ := hquiet.round_upToDate htimes hordered hjobs.jobRun
  have hlane : ∀ table, ∃ topic, Job.ingest (.cdc topic table) ∈ airflowJobs := by
    intro table
    cases table
    · exact ⟨"debezium.public.orders", by decide⟩
    · exact ⟨"debezium.public.customers", by decide⟩
    · exact ⟨"debezium.public.order_items", by decide⟩
  refine ⟨bronzeShows_of_read (hjobs.jobRun.sound (hquiet.lakeRun.sound (lakeSound_start p)))
    fun table => ?_, hquiet.silver_shows htimes hordered hjobs.jobRun fun j hj =>
      hall j (List.mem_append_right _ hj)⟩
  obtain ⟨topic, hlane⟩ := hlane table
  exact hupToDate _ (hall _ hlane) topic table rfl

/-- **The gate lets a healthy lake through when there is an event.** After a round of the Airflow
path and a build by `dbt`, all nine suites and the churn check succeed exactly when the loader has
landed an event in Bronze. -/
theorem qualityGate_green_iff (hdumps : ∀ row, 2 ≤ (jsonDumps row).length)
    (hrun : HealthyRun jsonDumps t s) (htimes : TimesTell s.source.commits)
    (hfits : OrdersFit s.source.db) (hordered : Ordered jobs)
    (hjobs : FreshRun jsonDumps s jobs s') (hall : ∀ j ∈ airflowJobs, j ∈ jobs)
    {clock : Dbt.Clock} (hbuilt : BuiltOn t clock.today) {gold : Dbt.Gold} {env : Quality.Env}
    (hreads : ReadsTables env ⟨s'.bronze, s'.silver, (Dbt.dbtBuild clock s'.silver gold).gold⟩) :
    Quality.main allLayers env = 0 ↔ s'.bronze.kafkaEvents ≠ 0 := by
  obtain ⟨hbronze, hsilver⟩ := hrun.round_shows htimes hordered hjobs hall
  have hhealthy : Healthy t s' := (HealthyRun.round hrun hordered hjobs).healthy hdumps
  exact hhealthy.gate_iff hbronze hsilver (hjobs.jobRun.source_eq ▸ hfits) hbuilt hreads

end Runs

/-! ### The sample data with one rate -/

section Given

/-- The row of the events frame as JSON; the rate is a decimal. -/
def rateJson (row : Ingestion.RateEvent String) : String :=
  "\x7b\"event_type\": \"" ++ row.eventType ++ "\", \"base\": \"" ++ row.base ++
    "\", \"currency\": \"" ++ row.currency ++ "\", \"rate\": " ++ row.rate ++
    ", \"rate_date\": \"" ++ row.rateDate ++ "\", \"fetched_at\": \"" ++ row.fetchedAt ++ "\"\x7d"

theorem length_rateJson (row : Ingestion.RateEvent String) : 2 ≤ (rateJson row).length := by
  have hclose : ∀ text : String, 2 ≤ (text ++ "\"\x7d").length := by
    intro text
    rw [String.length_append]
    exact Nat.le_add_left_of_le (by decide)
  exact hclose _

/-- The rate of a day. -/
def usdEvent : Ingestion.RateEvent String where
  eventType := "exchange_rate"
  base := "EUR"
  currency := "USD"
  rate := "1.0956"
  rateDate := "2024-01-02"
  fetchedAt := "2024-01-02T16:00:00+00:00"

/-- Its record. -/
def usdRecord : KafkaRecord where
  topic := rawEventsTopic
  partition := 0
  offset := 0
  timestamp := dataStart
  key := some "USD"
  value := some (rateJson usdEvent)

theorem loaded_usdRecord : LoadedRecord rateJson usdRecord := by
  refine ⟨rfl, le_rfl, fun _ => .ok ⟨"EUR", "2024-01-02", [("USD", "1.0956")]⟩, id,
    "2024-01-02T16:00:00+00:00", twoSends .acknowledged, ⟨"EUR", ["USD"], false⟩,
    Ingestion.record rateJson usdEvent, ?_, rfl, rfl⟩
  have hevents : Ingestion.ratesToEvents id "2024-01-02T16:00:00+00:00"
      ⟨"EUR", "2024-01-02", [("USD", "1.0956")]⟩ ["USD"] = [usdEvent] := by
    simp [Ingestion.ratesToEvents, usdEvent]
  rw [main_of_noneRaises (twoSends_noneRaises _ _) (List.cons_ne_nil _ _) rfl hevents rfl]
  exact .head _

/-- The sample data of the database, published at the start of 2024. -/
def sampleStart : Snapshot :=
  .sample (publishes_commitOf 1704067200000 (snapshotOf (sampleData dataStart)))

/-- The lake before the first run. -/
def sampleLake : Lake murmurText := Lake.start sampleStart

theorem publishedFrom_commitOf {ms : Int} {tsMs : Int64} (h : ms ≤ tsMs.toInt)
    (log : List RowChange) : PublishedFrom ms (commitOf tsMs log) := by
  refine ⟨fun e he => ?_, fun e he => ?_, fun e he => ?_⟩
  all_goals
    obtain ⟨c, -, rfl⟩ := List.mem_map.1 he
    exact h

theorem healthyRun_sampleLake : HealthyRun rateJson dataStart sampleLake :=
  .start le_rfl _ (publishedFrom_commitOf (by decide) _)

/-- The topics with the sample data and one rate. -/
def sampleTopics : Topics :=
  Function.update (topicsOf (orderEvents sampleStart.commits) (customerEvents sampleStart.commits)
    (itemEvents sampleStart.commits)) rawEventsTopic [usdRecord]

/-- UUIDs that are told apart by their last digit. -/
def sampleEnv : String → IngestEnv := fun _ =>
  ⟨fun i => "00000000-0000-4000-8000-00000000000" ++ i.repr, dataStart⟩

theorem freshUuids_sample {n : Nat} (hn : n ≤ 3) (topic : String) :
    FreshUuids 0 (sampleEnv topic).uuid n := by
  have hinj : ∀ i < 3, ∀ j < 3, (sampleEnv topic).uuid i = (sampleEnv topic).uuid j → i = j := by
    unfold sampleEnv
    decide
  have hregex : ∀ i < 3, Quality.uuidRegex.accepts ((sampleEnv topic).uuid i).toList = true := by
    unfold sampleEnv
    decide
  exact ⟨fun i hi j hj => hinj i (hi.trans_le hn) j (hj.trans_le hn),
    fun i hi => hregex i (hi.trans_le hn), fun i _ => Multiset.notMem_zero _⟩

theorem holds_sampleTopics {s : Lake murmurText} (hsource : s.source = sampleStart) :
    s.Holds sampleTopics := by
  obtain ⟨horders, hcustomers, hitems⟩ := carries_topicsOf (orderEvents sampleStart.commits)
    (customerEvents sampleStart.commits) (itemEvents sampleStart.commits)
  have hother : ∀ topic, topic ≠ rawEventsTopic → sampleTopics topic = _ := fun topic htopic =>
    Function.update_of_ne htopic _ _
  have hall : ∀ {α ρ : Type} {T : Captured α ρ} {history : List (ChangeEvent α)}
      {records : List KafkaRecord} {ingested : Multiset CdcRow},
      Carries T.table T.fields (readTopic records) history →
        Retains T history ingested records := fun hcarries =>
    ⟨_, hcarries, .refl _, fun _ he => .inl he⟩
  constructor
  · rw [hsource, hother _ (by decide)]
    exact hall horders
  · rw [hsource, hother _ (by decide)]
    exact hall hcustomers
  · rw [hsource, hother _ (by decide)]
    exact hall hitems

theorem length_sampleTopics : ∀ lane ∈ lanes, (sampleTopics lane.topic).length ≤ 3 := by decide

theorem loaded_sampleTopics : ∀ r ∈ sampleTopics rawEventsTopic, LoadedRecord rateJson r := by
  intro r hr
  rw [sampleTopics, Function.update_self] at hr
  obtain rfl := List.mem_singleton.1 hr
  exact loaded_usdRecord

theorem freshStep_sample {s : Lake murmurText} (hsource : s.source = sampleStart) (lane : Lane)
    (hlane : lane ∈ lanes) (hempty : laneIds s.bronze lane = 0) :
    FreshStep rateJson (.ingest lane) s (s.ingest sampleEnv sampleTopics lane) := by
  refine .ingest hlane (holds_sampleTopics hsource) ?_ loaded_sampleTopics
  rw [hempty]
  exact freshUuids_sample (length_sampleTopics lane hlane) lane.topic

theorem exists_write {s s₁ : Lake murmurText} {jobs : List Job} (hs : LakeSound s)
    (hjobs : FreshRun rateJson s jobs s₁) {j : Job} (hj : j ∈ silverJobs) :
    ∃ s', FreshRun rateJson s (jobs ++ [j]) s' ∧ s'.bronze = s₁.bronze := by
  have hbatch : ∀ j ∈ silverJobs, j ∈ batch := by decide
  obtain ⟨s', hstep⟩ := exists_jobStep (hjobs.jobRun.sound hs) j (hbatch j hj)
  have hwrite : ∀ lane, j ≠ .ingest lane := by
    rintro lane rfl
    simp [silverJobs] at hj
  refine ⟨s', .snoc hjobs (.write hwrite hstep), ?_⟩
  cases hstep with
  | ingest => exact absurd rfl (hwrite _)
  | silverOrders | silverCustomers | silverOrderItems | goldDailyRevenue
  | goldCustomerMetrics => rfl

/-- Lanes one after the other, each on a table that is empty. -/
theorem exists_sampleLanes (todo : List Lane) (hlanes : ∀ lane ∈ todo, lane ∈ lanes)
    (hnodup : (todo.map laneTable).Nodup) :
    ∃ s, FreshRun rateJson sampleLake (todo.map .ingest) s ∧ s.source = sampleStart ∧
      ∀ lane, laneTable lane ∉ todo.map laneTable → laneIds s.bronze lane = 0 := by
  induction todo using List.reverseRecOn with
  | nil => exact ⟨sampleLake, .nil _, rfl, fun lane _ => by cases lane <;> rfl⟩
  | append_singleton todo lane ih =>
    rw [List.map_append, List.nodup_append] at hnodup
    obtain ⟨htodo, -, hnew⟩ := hnodup
    obtain ⟨s, hrun, hsource, hempty⟩ :=
      ih (fun l hl => hlanes l (List.mem_append_left _ hl)) htodo
    have hlane : laneTable lane ∉ todo.map laneTable := fun hmem =>
      hnew _ hmem _ (.head _) rfl
    have hstep := freshStep_sample hsource lane (hlanes lane (List.mem_append_right _ (.head _)))
      (hempty lane hlane)
    rw [List.map_append]
    refine ⟨_, hrun.snoc hstep, hsource, fun lane' hlane' => ?_⟩
    rw [List.map_append, List.mem_append, not_or] at hlane'
    have hne : laneTable lane' ≠ laneTable lane := fun heq => hlane'.2 (heq ▸ .head _)
    exact (laneIds_ingestLane_of_ne _ _ _ hne).trans (hempty lane' hlane'.1)

theorem exists_sampleIngest : ∃ s, FreshRun rateJson sampleLake (lanes.map .ingest) s ∧
    s.bronze.kafkaEvents ≠ 0 := by
  obtain ⟨s, hrun, hsource, hempty⟩ := exists_sampleLanes
    (cdcTopics.map fun p => .cdc p.1 p.2) (by decide) (by decide)
  have hevents := freshStep_sample hsource .events (by decide) (hempty _ (by decide))
  refine ⟨_, hrun.snoc hevents, fun hnone => ?_⟩
  change (ingestRawEvents _ [usdRecord] _).1 = 0 at hnone
  rw [ingestRawEvents_fst, add_eq_zero] at hnone
  exact absurd ((Multiset.coe_eq_zero _).1 hnone.2) (List.cons_ne_nil _ _)

/-- A round of the Airflow path on the sample data. -/
theorem exists_sampleRound : ∃ s, FreshRun rateJson sampleLake airflowJobs s ∧
    s.bronze.kafkaEvents ≠ 0 := by
  obtain ⟨s₁, hlanes, hevents⟩ := exists_sampleIngest
  have hs : LakeSound sampleLake := lakeSound_start _
  obtain ⟨s₂, horders, hbronze₂⟩ := exists_write hs hlanes (j := .silverOrders) (by decide)
  obtain ⟨s₃, hcustomers, hbronze₃⟩ := exists_write hs horders (j := .silverCustomers) (by decide)
  obtain ⟨s₄, hitems, hbronze₄⟩ := exists_write hs hcustomers (j := .silverOrderItems) (by decide)
  refine ⟨s₄, hitems, ?_⟩
  rwa [hbronze₄, hbronze₃, hbronze₂]

/-- Trino answers the gate. -/
def trinoEnv (tables : Quality.Tables murmurText) : Quality.Env where
  connStr := some "trino://admin@localhost:8080/iceberg"
  context := .ok ()
  runCheckpoint layer := .ok (Quality.checkpoint tables layer)
  database _ := .ok (tables.gold.customerMetrics.map asMetricsRow)
  gateway := none
  push _ _ := .ok ()
  now := 0
  dataDocs := .ok ()

theorem readsTables_trinoEnv (tables : Quality.Tables murmurText) :
    ReadsTables (trinoEnv tables) tables :=
  ⟨rfl, rfl, fun _ => rfl, fun _ => rfl⟩

theorem timesTell_sample : TimesTell sampleStart.commits := ⟨by decide, by decide, by decide⟩

theorem ordersFit_sample : OrdersFit sampleStart.db := ⟨by decide, by decide⟩

theorem builtOn_sample : BuiltOn dataStart Quality.firstDate := ⟨by decide, by decide⟩

/-- With the rate that the loader has sent, the sample data pass the gate. -/
theorem qualityGate_green_iff_sample : ∃ s, FreshRun rateJson sampleLake airflowJobs s ∧
    Quality.main allLayers (trinoEnv ⟨s.bronze, s.silver,
      (Dbt.dbtBuild ⟨0, 0, Quality.firstDate⟩ s.silver ⟨0, 0⟩).gold⟩) = 0 := by
  obtain ⟨s, hjobs, hevents⟩ := exists_sampleRound
  have hordered : Ordered airflowJobs := ordered_batch.of_prefix
    ⟨[.goldDailyRevenue, .goldCustomerMetrics], rfl⟩
  exact ⟨s, hjobs, (qualityGate_green_iff length_rateJson healthyRun_sampleLake timesTell_sample
    ordersFit_sample hordered hjobs (fun _ hj => hj) builtOn_sample (readsTables_trinoEnv _)).2
      hevents⟩

end Given

end Lakehouse.Verify
