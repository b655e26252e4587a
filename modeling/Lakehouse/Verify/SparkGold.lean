import Lakehouse.Verify.HealthyRuns

/-!
# Gold without Airflow

The path of `run-batch.sh`, where Spark writes Gold. A write of daily revenue leaves the months
alone in which the source has no revenue order left, so the table may keep rows of earlier states.
The orders of such a row were confirmed when it was written and keep their totals, so the row still
fits (`QuietRun.sparkGold`), and after a whole round the gate asks for an event and for nothing
else, as on the Airflow path (`sparkGate_green_iff`).
-/

namespace Lakehouse.Verify

open Lib Source Batch Demo

/-! ## Frozen orders -/

/-- Traffic touches no frozen order. -/
theorem Segment.frozen {db db' : Database} {commits : List Commit} (h : Segment db commits db')
    (hs : Sound db) : Frozen db db' := by
  induction h with
  | nil => exact .refl _
  | commit hexec _ _ _ ih =>
    have hchange := Action.exec_cases hexec
    exact (hchange.frozen hs).trans (ih (hchange.sound hs))
  | @rollback db _ _ customers orders items _ ih =>
    have hchange := trafficStep_change db (.rollback customers orders items)
    exact (hchange.frozen hs).trans (ih (hchange.sound hs))
  | restart _ _ ih => exact ih hs

theorem revenueRows_status {db : Database} {o : OrderRow} (ho : o ∈ revenueRows db) :
    o ∈ db.orders ∧ o.status ≠ "pending" := by
  obtain ⟨hmem, hstatus⟩ := mem_revenueRows.1 ho
  refine ⟨hmem, ?_⟩
  intro hpending
  rw [hpending] at hstatus
  exact absurd hstatus (by decide)

/-- The revenue orders of an earlier state keep their ids and their totals. -/
theorem Frozen.revenueRows_le {old db : Database} (h : Frozen old db) (hsound : Sound old) :
    (revenueRows old).map (fun o => (o.orderId, o.totalAmount)) ≤
      (db.orders : Multiset OrderRow).map fun o => (o.orderId, o.totalAmount) := by
  have hids : ((revenueRows old).map OrderRow.orderId).Nodup := by
    rw [revenueRows, Multiset.map_coe, Multiset.coe_nodup]
    exact hsound.orderIds.sublist (List.filter_sublist.map _)
  have hnodup : ((revenueRows old).map fun o => (o.orderId, o.totalAmount)).Nodup := by
    refine Multiset.Nodup.of_map Prod.fst ?_
    rwa [Multiset.map_map]
  refine (Multiset.le_iff_subset hnodup).2 fun x hx => ?_
  obtain ⟨o, ho, rfl⟩ := Multiset.mem_map.1 hx
  obtain ⟨hmem, hstatus⟩ := revenueRows_status ho
  obtain ⟨o', ho', hid, -, htotal, -⟩ := h o hmem hstatus
  exact Multiset.mem_map.2 ⟨o', Multiset.mem_coe.2 ho', Prod.ext hid htotal⟩

/-- So they fit where the orders of the later state do. -/
theorem OrdersFit.of_frozen {old db : Database} (hfits : OrdersFit db) (hfrozen : Frozen old db)
    (hsound : Sound db) (hadmitted : ∀ i ∈ db.items, Admitted i) (hold : Sound old)
    (hadmittedOld : ∀ i ∈ old.items, Admitted i) {os : Multiset OrderRow}
    (hle : os ≤ revenueRows old) :
    0 ≤ cents os ∧ (cents os).natAbs < 10 ^ 18 ∧ os.card < 10 ^ 10 := by
  have hpos : 0 ≤ cents os := by
    refine Multiset.sum_nonneg fun n hn => ?_
    obtain ⟨o, ho, rfl⟩ := Multiset.mem_map.1 hn
    exact totalAmount_nonneg hold hadmittedOld o
      (revenueRows_status (Multiset.mem_of_le hle ho)).1
  obtain ⟨rest, hrest⟩ := Multiset.le_iff_exists_add.1
    ((Multiset.map_le_map hle).trans (hfrozen.revenueRows_le hold))
  have hsum : cents db.orders = cents os + (rest.map fun x => x.2.val).sum := by
    have htotals := congrArg
      (fun s : Multiset (Int64 × Dec 12) => (s.map fun x => x.2.val).sum) hrest
    rwa [Multiset.map_add, Multiset.sum_add, Multiset.map_map, Multiset.map_map] at htotals
  have hrestPos : 0 ≤ (rest.map fun x => x.2.val).sum := by
    refine Multiset.sum_nonneg fun n hn => ?_
    obtain ⟨x, hx, rfl⟩ := Multiset.mem_map.1 hn
    have hmem : x ∈ (db.orders : Multiset OrderRow).map fun o => (o.orderId, o.totalAmount) :=
      hrest ▸ Multiset.mem_add.2 (.inr hx)
    obtain ⟨o, ho, rfl⟩ := Multiset.mem_map.1 hmem
    exact totalAmount_nonneg hsound hadmitted o (Multiset.mem_coe.1 ho)
  have hcard : db.orders.length = os.card + rest.card := by
    have hcards := congrArg Multiset.card hrest
    rwa [Multiset.card_add, Multiset.card_map, Multiset.card_map, Multiset.coe_card] at hcards
  have htotal := hfits.total
  have hfew := hfits.few
  exact ⟨hpos, by omega, by omega⟩

/-! ## Rows that are left -/

/-- A row of daily revenue has the figures of a day in a state of the source, whose revenue orders
are frozen. -/
def DailyOf (db : Database) (r : DailyRevenue) : Prop :=
  ∃ old, Sound old ∧ (∀ i ∈ old.items, Admitted i) ∧ Frozen old db ∧
    ∃ day, r.reportDate = some day ∧ RevenueOf old day r

/-- A row that is left stays one of a day that was frozen. -/
theorem DailyOf.mono {db db' : Database} {r : DailyRevenue} (h : DailyOf db r)
    (hfrozen : Frozen db db') : DailyOf db' r := by
  obtain ⟨old, hsound, hadmitted, hold, hday⟩ := h
  exact ⟨old, hsound, hadmitted, hold.trans hfrozen, hday⟩

/-- Such a row fits the suite. -/
theorem DailyOf.dailyFits {db : Database} {r : DailyRevenue} (h : DailyOf db r)
    (hsound : Sound db) (hadmitted : ∀ i ∈ db.items, Admitted i) (hfits : OrdersFit db) :
    DailyFits r := by
  obtain ⟨old, hold, hadmittedOld, hfrozen, day, hday, hof⟩ := h
  have hle : placedOn old day ≤ revenueRows old := Multiset.filter_le _ _
  obtain ⟨hpos, hcents, hfew⟩ := hfits.of_frozen hfrozen hsound hadmitted hold hadmittedOld hle
  exact hof.dailyFits hday hpos hcents hfew

/-- An overwrite keeps one row for a date: a date that is written is in a month that is replaced. -/
theorem reportDates_overwrite {t t' : Table dailyRevenueSpec} {new : Multiset DailyRevenue}
    (h : t.overwritePartitions new = some t') (hold : (t.rows.map DailyRevenue.reportDate).Nodup)
    (hnew : (new.map DailyRevenue.reportDate).Nodup) :
    (t'.rows.map DailyRevenue.reportDate).Nodup := by
  rw [(Table.overwritePartitions_eq_some.1 h).2, Multiset.map_add, Multiset.nodup_add]
  refine ⟨Multiset.nodup_of_le (Multiset.map_le_map (Multiset.filter_le _ _)) hold, hnew,
    Multiset.disjoint_left.2 fun hx hx' => ?_⟩
  obtain ⟨r, hr, rfl⟩ := Multiset.mem_map.1 hx
  obtain ⟨r', hr', hdate⟩ := Multiset.mem_map.1 hx'
  exact (Table.mem_untouched.1 hr).2 r' hr' (congrArg months hdate)

section Gold

variable {bucketHash : String → Nat}

/-- What the tables of Gold hold on the path without Airflow. -/
structure SparkGold (s : Lake bucketHash) : Prop where
  dates : (s.dailyRevenue.rows.map DailyRevenue.reportDate).Nodup
  daily : ∀ r ∈ s.dailyRevenue.rows, DailyOf s.source.db r
  codes : ∀ m ∈ s.customerMetrics.rows, m.countryCode = none ∧ m.segment = none

theorem sparkGold_start (p : Snapshot) : SparkGold (Lake.start p : Lake bucketHash) where
  dates := Multiset.nodup_zero
  daily r hr := absurd hr (Multiset.notMem_zero r)
  codes m hm := absurd hm (Multiset.notMem_zero m)

theorem customerMetricsRows_codes {os : Multiset SilverOrder} {cs : Multiset SilverCustomer}
    {today computedAt : Int} :
    ∀ m ∈ customerMetricsRows os cs today computedAt, m.countryCode = none ∧ m.segment = none := by
  intro m hm
  obtain ⟨row, -, rfl⟩ := Multiset.mem_map.1 hm
  exact ⟨rfl, rfl⟩

/-- **A write in its turn keeps Gold so.** -/
theorem JobStep.sparkGold {s s' : Lake bucketHash} {j : Job} (h : JobStep j s s')
    (hshows : LakeShows s) (hitems : ItemsShow s) (hrequires : ∀ j' ∈ requires j, UpToDate s j')
    (hgold : SparkGold s) : SparkGold s' := by
  cases h with
  | ingest | silverOrders | silverCustomers | silverOrderItems => exact { hgold with }
  | @goldDailyRevenue _ computedAt t hwrite =>
    have hshown : s.shown .cdcOrders = s.source := hrequires _ (.head _)
    have hshownItems : s.shown .cdcOrderItems = s.source := hrequires _ (.tail _ (.head _))
    have hnew := showsRevenue_rows (hshown ▸ hshows.silverOrders) (hshownItems ▸ hitems.shows)
      s.source.inv.sound s.source.inv.admitted s.source.mirrors_customers.nodup computedAt
    refine ⟨reportDates_overwrite hwrite hgold.dates hnew.nodup,
      Table.forall_overwritePartitions hwrite hgold.daily fun r hr => ?_, hgold.codes⟩
    exact ⟨s.source.db, s.source.inv.sound, s.source.inv.admitted, .refl _, hnew.figures r hr⟩
  | goldCustomerMetrics today computedAt hwrite =>
    exact ⟨hgold.dates, hgold.daily,
      Table.forall_overwritePartitions hwrite hgold.codes customerMetricsRows_codes⟩

/-- Every ordered round preserves the invariant. -/
theorem JobRun.sparkGold {s s' : Lake bucketHash} {jobs : List Job} (h : JobRun s jobs s')
    (hordered : Ordered jobs) (hs : LakeSound s) (hshows : LakeShows s)
    (htimes : TimesTell s.source.commits) (hitems : ItemsShow s) (hgold : SparkGold s) :
    SparkGold s' := by
  induction h with
  | nil => exact hgold
  | @snoc s₁ s' jobs j hjobs hstep ih =>
    have hbefore := hordered.of_prefix (List.prefix_append jobs [j])
    obtain ⟨hshows₁, hitems₁, hupToDate⟩ := hjobs.upToDate hbefore hs hshows htimes hitems
    exact hstep.sparkGold hshows₁ hitems₁
      (fun j' hj' => hupToDate j' (hordered _ _ (List.prefix_refl _) j' hj')) (ih hbefore)

/-- **Gold over every run.** -/
theorem QuietRun.sparkGold {p : Snapshot} {s : Lake bucketHash} (h : QuietRun (Lake.start p) s)
    (htimes : TimesTell s.source.commits) : SparkGold s := by
  induction h with
  | start => exact sparkGold_start p
  | @traffic s₁ _ _ _ hsegment ih =>
    have hgold := ih (htimes.before (s₁.source.before_next hsegment))
    have hfrozen := hsegment.frozen s₁.source.inv.sound
    exact ⟨hgold.dates, fun r hr => (hgold.daily r hr).mono hfrozen, hgold.codes⟩
  | round hrun hordered hjobs ih =>
    rw [hjobs.source_eq] at htimes
    have hsound := hrun.lakeRun.sound (lakeSound_start p)
    have hshows := hrun.lakeRun.shows (lakeSound_start p) (lakeShows_start p) htimes
    exact hjobs.sparkGold hordered hsound hshows htimes
      (hrun.itemsShow (lakeSound_start p) (lakeShows_start p) (itemsShow_start p) htimes)
      (ih htimes)

/-- The Gold suites succeed on tables of which the months of the source are up to date. -/
theorem SparkGold.success {s : Lake bucketHash} (h : SparkGold s) {t : Int}
    (hfit : RowsFit t s.source.db) (hfits : OrdersFit s.source.db)
    (hrevenue : ShowsRevenue (inRevenueMonths s.source.db s.dailyRevenue.rows) s.source.db)
    (hmetrics : ShowsMetrics s.customerMetrics.rows s.source.db s.source.db s.metricsToday)
    (hbuilt : BuiltOn t s.metricsToday) {tables : Quality.Tables bucketHash}
    (hgold : tables.gold = ⟨s.dailyRevenue.rows, s.customerMetrics.rows⟩) :
    (Quality.checkpoint tables .gold).success = true := by
  obtain ⟨hsound, hadmitted⟩ := And.intro s.source.inv.sound s.source.inv.admitted
  have hrecent : ∃ r ∈ s.dailyRevenue.rows, ∃ day, r.reportDate = some day ∧
      Quality.firstDate ≤ day := by
    obtain ⟨r, hr, hday⟩ := hrevenue.recent hfit
    exact ⟨r, (Multiset.mem_filter.1 hr).1, hday⟩
  rw [Quality.checkpoint, ofValidations_success, hgold]
  simp only [List.forall_mem_cons]
  exact ⟨goldDailyRevenue_success_of_fits
      (fun r hr => (h.daily r hr).dailyFits hsound hadmitted hfits) h.dates hrecent,
    goldCustomerMetrics_success hfit hsound hadmitted hfits hmetrics hbuilt
      s.source.mirrors_customers.nodup h.codes,
    List.forall_mem_nil _⟩

section Gate

variable {ε : Type} {jsonDumps : Ingestion.RateEvent ε → String} {t : Int}
  {s s' : Lake bucketHash} {jobs : List Job}

/-- A whole round of the three jobs brings every table up to date. -/
theorem HealthyRun.spark_shows (hrun : HealthyRun jsonDumps t s)
    (htimes : TimesTell s.source.commits) (hordered : Ordered jobs)
    (hjobs : FreshRun jsonDumps s jobs s') (hall : ∀ j ∈ batch, j ∈ jobs) :
    BronzeShowsSource s' ∧ ShowsSource s' ∧ SparkGold s' := by
  obtain ⟨p, hquiet⟩ := hrun.quietRun
  have hairflow : ∀ j ∈ airflowJobs, j ∈ batch := by decide
  obtain ⟨hbronze, hsilver⟩ := hrun.round_shows htimes hordered hjobs
    fun j hj => hall j (hairflow j hj)
  obtain ⟨hrevenue, hmetrics⟩ := hquiet.gold_shows htimes hordered hjobs.jobRun
    (hall _ (by decide)) (hall _ (by decide))
  exact ⟨hbronze, ⟨hsilver, hrevenue, hmetrics⟩,
    (QuietRun.round hquiet hordered hjobs.jobRun).sparkGold (hjobs.jobRun.source_eq ▸ htimes)⟩

/-- With every table up to date, the gate asks for an event and for nothing else. -/
theorem SparkGold.gate_iff (h : SparkGold s) (hhealthy : Healthy t s)
    (hbronze : BronzeShowsSource s) (hshows : ShowsSource s) (hfits : OrdersFit s.source.db)
    (hbuilt : BuiltOn t s.metricsToday) {env : Quality.Env} (hreads : ReadsTables env
      ⟨s.bronze, s.silver, ⟨s.dailyRevenue.rows, s.customerMetrics.rows⟩⟩) :
    Quality.main allLayers env = 0 ↔ s.bronze.kafkaEvents ≠ 0 :=
  hhealthy.gate_iff_of_gold hbronze hshows.toSilverShowsSource hreads
    (h.success hhealthy.rows hfits hshows.dailyRevenue hshows.metrics hbuilt rfl)
    hshows.metrics.no_violation

/-- **The gate lets the Gold of Spark through when there is an event.** After a whole round of the
three jobs, with rows of earlier months left in `daily_revenue`, all nine suites and the churn check
succeed exactly when the loader has landed an event in Bronze. -/
theorem sparkGate_green_iff (hdumps : ∀ row, 2 ≤ (jsonDumps row).length)
    (hrun : HealthyRun jsonDumps t s) (htimes : TimesTell s.source.commits)
    (hfits : OrdersFit s.source.db) (hordered : Ordered jobs)
    (hjobs : FreshRun jsonDumps s jobs s') (hall : ∀ j ∈ batch, j ∈ jobs)
    (hbuilt : BuiltOn t s'.metricsToday) {env : Quality.Env}
    (hreads : ReadsTables env
      ⟨s'.bronze, s'.silver, ⟨s'.dailyRevenue.rows, s'.customerMetrics.rows⟩⟩) :
    Quality.main allLayers env = 0 ↔ s'.bronze.kafkaEvents ≠ 0 := by
  have hsource : s'.source = s.source := hjobs.jobRun.source_eq
  obtain ⟨hbronze, hshows, hgold⟩ := hrun.spark_shows htimes hordered hjobs hall
  have hhealthy : Healthy t s' := (HealthyRun.round hrun hordered hjobs).healthy hdumps
  exact hgold.gate_iff hhealthy hbronze hshows (hsource ▸ hfits) hbuilt hreads

end Gate

end Gold

/-! ### The sample data with one rate -/

section Given

theorem sparkGate_green_iff_sample : ∃ s, FreshRun rateJson sampleLake batch s ∧
    Quality.main allLayers (trinoEnv ⟨s.bronze, s.silver,
      ⟨s.dailyRevenue.rows, s.customerMetrics.rows⟩⟩) = 0 := by
  obtain ⟨s₁, hround, hevents⟩ := exists_sampleRound
  have hs : LakeSound sampleLake := lakeSound_start _
  obtain ⟨daily, hdaily⟩ := exists_goldDailyRevenue (hround.jobRun.sound hs) 0
  have hfirst : FreshStep rateJson .goldDailyRevenue s₁ { s₁ with dailyRevenue := daily } :=
    .write (fun _ => Job.noConfusion) (.goldDailyRevenue 0 hdaily)
  obtain ⟨metrics, hmetrics⟩ := exists_goldCustomerMetrics { s₁ with dailyRevenue := daily }
    Quality.firstDate 0
  have hjobs := (hround.snoc hfirst).snoc
    (.write (fun _ => Job.noConfusion) (.goldCustomerMetrics Quality.firstDate 0 hmetrics))
  exact ⟨_, hjobs, (sparkGate_green_iff length_rateJson healthyRun_sampleLake timesTell_sample
    ordersFit_sample ordered_batch hjobs (fun _ hj => hj) builtOn_sample
    (readsTables_trinoEnv _)).2 hevents⟩

end Given

end Lakehouse.Verify
